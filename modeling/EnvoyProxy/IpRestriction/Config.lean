import EnvoyProxy.Lib.JsonReader
import EnvoyProxy.Lib.Numerals
import EnvoyProxy.Lib.Regex
/-!
# Lists of addresses

`BlackOrWhiteListConfig` (ip_restriction.cc). The patterns are those of the
source, matched against a whole entry. What `Network::Address` does with a text
is what `inet_pton` does: an address is its number, and the text of an IPv6
address is not looked into.
-/

namespace EnvoyProxy.IpRestriction
open Json Regex

/-! ## Patterns -/

abbrev Pattern := RegularExpression UInt8

/-- `\d` -/
def digit : Pattern := oneOf (ascii "0123456789")

/-- `25[0-5]|2[0-4]\d|[01]?\d\d?` -/
def octet : Pattern := str (ascii "25") * oneOf (ascii "012345") + str (ascii "2") * oneOf (ascii "01234") * digit +
  opt (oneOf (ascii "01")) * digit * opt digit

/-- `[\da-fA-F]{1,4}` -/
def group : Pattern := between 1 4 (oneOf (ascii "0123456789abcdefABCDEF"))

def REGEXIPV4 : Pattern := separated 3 46 octet

def REGEXIPV6 : Pattern := separated 7 58 group

/-- `3[01]|[12]\d|\d` -/
def lengthV4 : Pattern := str (ascii "3") * oneOf (ascii "01") + oneOf (ascii "12") * digit + digit

/-- `1[012][0-7]|[1-9]\d|\d` -/
def lengthV6 : Pattern := str (ascii "1") * oneOf (ascii "012") * oneOf (ascii "01234567") + oneOf (ascii "123456789") * digit + digit

def IPV4WITHCIDR : Pattern := REGEXIPV4 * RegularExpression.char 47 * lengthV4

def IPV6WITHCIDR : Pattern := REGEXIPV6 * RegularExpression.char 47 * lengthV6

inductive IpType
  | RAWIPV4
  | RAWIPV6
  | CIDRV4
  | CIDRV6
  | NONE
  deriving DecidableEq, Repr

def parseIpType (entry : Bytes) : IpType :=
  if REGEXIPV4.rmatch entry then .RAWIPV4
  else if IPV4WITHCIDR.rmatch entry then .CIDRV4
  else if REGEXIPV6.rmatch entry then .RAWIPV6
  else if IPV6WITHCIDR.rmatch entry then .CIDRV6
  else .NONE

/-! ## Addresses -/

/-- The number below a bound with this numeral. -/
def numeralBelow (bound : Nat) (text : Bytes) : Option Nat := (List.range bound).find? fun n => natText n = text

def hexDigits : Bytes := ascii "0123456789abcdefABCDEF"

def hexDigitValue (b : UInt8) : Nat := if b < 58 then b.toNat - 48 else if b < 71 then b.toNat - 55 else b.toNat - 87

/-- One to four hexadecimal digits. -/
def hexGroup (text : Bytes) : Option Nat :=
  if 1 ≤ text.length ∧ text.length ≤ 4 ∧ ∀ b ∈ text, b ∈ hexDigits then some (text.foldl (fun n b => 16 * n + hexDigitValue b) 0)
  else none

/-- `Ipv4Instance(text)`, which throws for other texts than four decimal
numerals. -/
def Ipv4Instance (text : Bytes) : Option (BitVec 32) :=
  match (text.splitOn 46).mapM (numeralBelow 256) with
  | some octets => if octets.length = 4 then some (BitVec.ofNat 32 (wordsValue 8 octets)) else none
  | none => none

/-- `Ipv6Instance(text)`, for texts in the form of eight groups. -/
def Ipv6Instance (text : Bytes) : Option (BitVec 128) :=
  match (text.splitOn 58).mapM hexGroup with
  | some groups => if groups.length = 8 then some (BitVec.ofNat 128 (wordsValue 16 groups)) else none
  | none => none

inductive Address
  | v4 (a : BitVec 32)
  | v6 (a : BitVec 128)
  deriving DecidableEq

/-- `addressAsString()` of IPv6 addresses, which tells them apart. -/
structure AddressText where
  text : BitVec 128 → Bytes
  injective : Function.Injective text

structure CidrRange (w : Nat) where
  address : BitVec w
  length : Nat
  deriving DecidableEq

namespace CidrRange
variable {w : Nat}

def create (address : BitVec w) (length : Nat) : CidrRange w := { address, length := min length w }

/-- The first bits are those of the range. -/
def isInRange (range : CidrRange w) (a : BitVec w) : Bool :=
  decide (a.toNat / 2 ^ (w - range.length) = range.address.toNat / 2 ^ (w - range.length))

end CidrRange

/-! ## The list -/

inductive ListType
  | BLACK
  | WHITE
  deriving DecidableEq, Repr

structure BlackOrWhiteListConfig where
  isBlackList : Bool
  rawIpV4 : List (BitVec 32) := []
  rawIpV6 : List Bytes := []
  cidrIpV4 : List (CidrRange 32) := []
  cidrIpV6 : List (CidrRange 128) := []

/-- `entry.substr(0, cutPoint)` and `entry.substr(cutPoint + 1)` for the last
slash. -/
def cutAtLast (entry : Bytes) : Bytes × Bytes :=
  let rest := (entry.reverse.takeWhile (· ≠ 47)).reverse
  (entry.take (entry.length - rest.length - 1), rest)

/-- `std::stoi`, which throws without a digit. -/
def stoi (text : Bytes) : Option Nat :=
  let digits := text.takeWhile (· ∈ ascii "0123456789")
  if digits = [] then none else some (natOf digits)

namespace BlackOrWhiteListConfig

/-- Nothing when an address does not parse, which throws. -/
def parseIpEntry (text : AddressText) (c : BlackOrWhiteListConfig) (entry : Bytes) : Option BlackOrWhiteListConfig :=
  if entry = [] then some c
  else
    match parseIpType entry with
    | .RAWIPV4 => do
      let a ← Ipv4Instance entry
      some { c with rawIpV4 := a :: c.rawIpV4 }
    | .RAWIPV6 => do
      let a ← Ipv6Instance entry
      some { c with rawIpV6 := text.text a :: c.rawIpV6 }
    | .CIDRV4 => do
      let (ipString, rest) := cutAtLast entry
      let length ← stoi rest
      let a ← Ipv4Instance ipString
      some { c with cidrIpV4 := c.cidrIpV4 ++ [.create a length] }
    | .CIDRV6 => do
      let (ipString, rest) := cutAtLast entry
      let length ← stoi rest
      let a ← Ipv6Instance ipString
      some { c with cidrIpV6 := c.cidrIpV6 ++ [.create a length] }
    | .NONE => some c

/-- The constructor. -/
def create (text : AddressText) (type : ListType) (list : List Bytes) : Option BlackOrWhiteListConfig :=
  list.foldlM (parseIpEntry text) { isBlackList := type = .BLACK }

def checkIpEntry (text : AddressText) (c : BlackOrWhiteListConfig) : Address → Bool
  | .v4 a => c.rawIpV4.contains a || c.cidrIpV4.any (·.isInRange a)
  | .v6 a => c.rawIpV6.contains (text.text a) || c.cidrIpV6.any (·.isInRange a)

def isAllowed (text : AddressText) (c : BlackOrWhiteListConfig) (address : Address) : Bool :=
  let result := c.checkIpEntry text address
  (result && !c.isBlackList) || (!result && c.isBlackList)

end BlackOrWhiteListConfig

end EnvoyProxy.IpRestriction
