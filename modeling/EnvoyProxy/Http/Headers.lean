import EnvoyProxy.Lib.Json
/-!
# Header maps and messages

What the filters use of Envoy's `HeaderMapImpl`. A header map is read by
iterating over its entries, pseudo headers first and then the others in the
order they were added; adding an inline header that is there already joins
the two values, so the entries cannot be written down independently of the
map. `HeaderMap` lists the operations together with what the filters rely on.
`HeaderList`, a map without inline headers, is one implementation.
-/

namespace EnvoyProxy.Http
open Json

def toLowerByte (b : UInt8) : UInt8 := if 65 ≤ b ∧ b ≤ 90 then b + 32 else b

/-- `absl::AsciiStrToLower` -/
def toLower (s : Bytes) : Bytes := s.map toLowerByte

/-- A header name. -/
structure LowerCaseString where
  bytes : Bytes
  lower : toLower bytes = bytes
  noNul : 0 ∉ bytes
  deriving DecidableEq

/-- A header value; Envoy rejects values with a NUL byte. -/
structure HeaderString where
  bytes : Bytes
  noNul : 0 ∉ bytes
  deriving DecidableEq

@[ext] theorem LowerCaseString.ext {a b : LowerCaseString} (h : a.bytes = b.bytes) : a = b := by
  cases a
  cases b
  cases h
  rfl

@[ext] theorem HeaderString.ext {a b : HeaderString} (h : a.bytes = b.bytes) : a = b := by
  cases a
  cases b
  cases h
  rfl

structure HeaderEntry where
  key : LowerCaseString
  value : HeaderString
  deriving DecidableEq

/-! ## C strings -/

/-- The bytes of a `const char*`: up to the first NUL. -/
def cString (s : Bytes) : Bytes := s.takeWhile (· ≠ 0)

theorem noNul_cString (s : Bytes) : 0 ∉ cString s := by
  intro h
  simpa using List.mem_takeWhile_imp h

theorem cString_of_noNul {s : Bytes} (h : 0 ∉ s) : cString s = s := by
  apply List.takeWhile_eq_self_iff.2
  intro b hb
  simp only [decide_eq_true_eq]
  rintro rfl
  exact h hb

/-- A capital letter becomes a small one. -/
theorem toNat_toLowerByte {b : UInt8} (h : 65 ≤ b ∧ b ≤ 90) : (b + 32).toNat = b.toNat + 32 := by
  have hle : b.toNat ≤ 90 := h.2
  rw [UInt8.toNat_add]
  exact Nat.mod_eq_of_lt (by have : (32 : UInt8).toNat = 32 := rfl; omega)

theorem toLowerByte_toLowerByte (b : UInt8) : toLowerByte (toLowerByte b) = toLowerByte b := by
  by_cases h : 65 ≤ b ∧ b ≤ 90
  · have hge : 65 ≤ b.toNat := h.1
    have hnot : ¬ (65 ≤ b + 32 ∧ b + 32 ≤ 90) := by
      intro hle
      have hle' : (b + 32).toNat ≤ 90 := hle.2
      rw [toNat_toLowerByte h] at hle'
      omega
    simp only [toLowerByte, if_pos h, if_neg hnot]
  · simp only [toLowerByte, if_neg h]

theorem toLowerByte_ne_zero {b : UInt8} (h : b ≠ 0) : toLowerByte b ≠ 0 := by
  unfold toLowerByte
  split_ifs with hb
  · intro hzero
    have hnat := toNat_toLowerByte hb
    rw [hzero] at hnat
    simp at hnat
  · exact h

/-- `LowerCaseString` from a `const char*`. -/
def LowerCaseString.ofCString (s : Bytes) : LowerCaseString where
  bytes := toLower (cString s)
  lower := by
    simp only [toLower, List.map_map]
    exact List.map_congr_left fun b _ => toLowerByte_toLowerByte b
  noNul := by
    simp only [toLower, List.mem_map, not_exists, not_and]
    intro b hb
    exact toLowerByte_ne_zero fun h => noNul_cString s (h ▸ hb)

/-- A header value from a `const char*`. -/
def HeaderString.ofCString (s : Bytes) : HeaderString := ⟨cString s, noNul_cString s⟩

@[simp] theorem LowerCaseString.ofCString_bytes (k : LowerCaseString) : LowerCaseString.ofCString k.bytes = k := by
  ext1
  simp only [ofCString, cString_of_noNul k.noNul, k.lower]

@[simp] theorem HeaderString.ofCString_bytes (v : HeaderString) : HeaderString.ofCString v.bytes = v := by
  ext1
  exact cString_of_noNul v.noNul

/-- A header name of the source. -/
def headerName (s : String) : LowerCaseString := .ofCString (ascii s)

/-- A header value of the source. -/
def headerValue (s : String) : HeaderString := .ofCString (ascii s)

theorem natText_noNul (n : Nat) : 0 ∉ natText n := by
  intro h
  exact absurd ((isDigits_natText n).2 0 h).1 (by decide)

/-- A number as a header value. -/
def headerNumber (n : Nat) : HeaderString := ⟨natText n, natText_noNul n⟩

/-! ## Header maps -/

class HeaderMap (H : Type) where
  create : H
  iterate : H → List HeaderEntry
  addCopy : H → LowerCaseString → HeaderString → H
  remove : H → LowerCaseString → H
  set : H → LowerCaseString → HeaderString → H
  byteSize : H → Nat
  /-- A name whose values are joined when it is added again. -/
  isInline : LowerCaseString → Bool
  /-- A map can be built again from what iterating gives. -/
  iterate_copy : ∀ h, iterate ((iterate h).foldl (fun m e => addCopy m e.key e.value) create) = iterate h
  /-- Other headers are added at the end. -/
  iterate_addCopy : ∀ h k v, isInline k = false → iterate (addCopy h k v) = iterate h ++ [⟨k, v⟩]
  iterate_remove : ∀ h k, iterate (remove h k) = (iterate h).filter (·.key ≠ k)
  /-- Setting a header leaves one entry of its name, and the others as they are. -/
  iterate_set_eq : ∀ h k v, (iterate (set h k v)).filter (·.key = k) = [⟨k, v⟩]
  iterate_set_ne : ∀ h k v, (iterate (set h k v)).filter (·.key ≠ k) = (iterate h).filter (·.key ≠ k)
  isInline_xCache : ∀ s ∈ ["x-cache-key", "x-cache-status", "x-cache-hit"], isInline (headerName s) = false

namespace HeaderMap
variable {H : Type} [HeaderMap H]

/-- `HeaderMapImpl::copyFrom`, into a new map. -/
def copyFrom (entries : List HeaderEntry) : H := entries.foldl (fun m e => addCopy m e.key e.value) create

theorem iterate_copyFrom (h : H) : iterate (copyFrom (iterate h) : H) = iterate h := iterate_copy h

/-- `headers.get(name)` -/
def get (h : H) (k : LowerCaseString) : List HeaderEntry := (iterate h).filter (·.key = k)

/-- `Status()`, if there is one. -/
def status (h : H) : Option HeaderString := (get h (headerName ":status")).head?.map (·.value)

/-- `getStatusValue()` -/
def getStatusValue (h : H) : Bytes := ((status h).map (·.bytes)).getD []

def removeTransferEncoding (h : H) : H := remove h (headerName "transfer-encoding")

def removeEnvoyUpstreamServiceTime (h : H) : H := remove h (headerName "x-envoy-upstream-service-time")

def setContentLength (h : H) (n : Nat) : H := set h (headerName "content-length") (headerNumber n)

/-- Dropping other headers does not change what a name reads. -/
theorem filter_key_filter {keep : HeaderEntry → Bool} {k : LowerCaseString}
    (h : ∀ e : HeaderEntry, e.key = k → keep e = true)
    (l : List HeaderEntry) : (l.filter keep).filter (·.key = k) = l.filter (·.key = k) := by
  rw [List.filter_filter]
  apply List.filter_congr
  intro e _
  by_cases he : e.key = k
  · simp [h e he]
  · simp [he]

theorem get_eq_filter (h : H) {k k' : LowerCaseString} (hne : k' ≠ k) :
    get h k' = ((iterate h).filter (·.key ≠ k)).filter (·.key = k') := by
  rw [filter_key_filter, get]
  intro e he
  simp [he, hne]

theorem get_set (h : H) (k : LowerCaseString) (v : HeaderString) : get (set h k v) k = [⟨k, v⟩] := iterate_set_eq h k v

theorem get_set_ne (h : H) {k k' : LowerCaseString} (v : HeaderString) (hne : k' ≠ k) :
    get (set h k v) k' = get h k' := by
  rw [get_eq_filter _ hne, iterate_set_ne, ← get_eq_filter _ hne]

theorem get_remove (h : H) (k : LowerCaseString) : get (remove h k) k = [] := by
  simp [get, iterate_remove, List.filter_filter]

theorem get_remove_ne (h : H) {k k' : LowerCaseString} (hne : k' ≠ k) : get (remove h k) k' = get h k' := by
  rw [get_eq_filter h hne, get, iterate_remove]

theorem status_congr {h h' : H} (he : iterate h = iterate h') : status h = status h' := by
  rw [status, status, get, get, he]

end HeaderMap

/-- Request headers with the three pseudo headers that requests have. -/
structure RequestHeaders (H : Type) [HeaderMap H] where
  headers : H
  method : HeaderString
  host : HeaderString
  path : HeaderString
  hasMethod : (HeaderMap.get headers (headerName ":method")).head?.map (·.value) = some method
  hasHost : (HeaderMap.get headers (headerName ":authority")).head?.map (·.value) = some host
  hasPath : (HeaderMap.get headers (headerName ":path")).head?.map (·.value) = some path

/-- `ResponseMessageImpl`, without trailers. -/
structure ResponseMessage (H : Type) where
  headers : H
  body : Bytes := []

/-! ## Headers without inline names -/

/-- A header map in which every name may repeat. -/
abbrev HeaderList := List HeaderEntry

/-- Sets the first entry of a name and drops the others of that name. -/
def HeaderList.set (l : HeaderList) (k : LowerCaseString) (v : HeaderString) : HeaderList :=
  if l.any (·.key = k) then
    l.takeWhile (·.key ≠ k) ++ ⟨k, v⟩ :: (l.dropWhile (·.key ≠ k)).filter (·.key ≠ k)
  else l ++ [⟨k, v⟩]

theorem HeaderList.set_eq (l : HeaderList) (k : LowerCaseString) (v : HeaderString) :
    (l.set k v).filter (·.key = k) = [⟨k, v⟩] := by
  unfold HeaderList.set
  split_ifs with h
  · have htake : (l.takeWhile (·.key ≠ k)).filter (·.key = k) = [] := by
      simp only [List.filter_eq_nil_iff, decide_eq_true_eq]
      intro e he
      simpa using List.mem_takeWhile_imp he
    have hdrop : ((l.dropWhile (·.key ≠ k)).filter (·.key ≠ k)).filter (·.key = k) = [] := by
      simp only [List.filter_eq_nil_iff, List.mem_filter, decide_eq_true_eq]
      exact fun e he => he.2
    rw [List.filter_append, htake, List.filter_cons_of_pos (by simp), hdrop]
    rfl
  · have hnone : l.filter (·.key = k) = [] := by
      simp only [List.any_eq_true, not_exists, not_and] at h
      exact List.filter_eq_nil_iff.2 h
    rw [List.filter_append, hnone, List.filter_cons_of_pos (by simp)]
    rfl

theorem HeaderList.set_ne (l : HeaderList) (k : LowerCaseString) (v : HeaderString) :
    (l.set k v).filter (·.key ≠ k) = l.filter (·.key ≠ k) := by
  unfold HeaderList.set
  split_ifs with h
  · rw [List.filter_append, List.filter_cons_of_neg (by simp), List.filter_filter]
    simp only [Bool.and_self]
    rw [← List.filter_append, List.takeWhile_append_dropWhile]
  · rw [List.filter_append, List.filter_cons_of_neg (by simp)]
    simp

theorem foldl_snoc (l acc : HeaderList) : l.foldl (fun m e => m ++ [⟨e.key, e.value⟩]) acc = acc ++ l := by
  induction l generalizing acc with
  | nil => simp
  | cons e l ih => simp [ih]

instance : HeaderMap HeaderList where
  create := []
  iterate l := l
  addCopy l k v := l ++ [⟨k, v⟩]
  remove l k := l.filter (·.key ≠ k)
  set := HeaderList.set
  byteSize l := (l.map fun e => e.key.bytes.length + e.value.bytes.length).sum
  isInline _ := false
  iterate_copy l := by simpa using foldl_snoc l []
  iterate_addCopy _ _ _ _ := rfl
  iterate_remove _ _ := rfl
  iterate_set_eq := HeaderList.set_eq
  iterate_set_ne := HeaderList.set_ne
  isInline_xCache _ _ := rfl

/-- How headers are added, as far as the downgrade filters rely on it: a name
that is not there gets one entry, and other names are left alone. -/
class LawfulAddCopy (H : Type) [HeaderMap H] : Prop where
  iterate_addCopy_eq : ∀ (h : H) (k : LowerCaseString) (v : HeaderString), HeaderMap.get h k = [] →
    (HeaderMap.iterate (HeaderMap.addCopy h k v)).filter (·.key = k) = [⟨k, v⟩]
  iterate_addCopy_ne : ∀ (h : H) (k : LowerCaseString) (v : HeaderString),
    (HeaderMap.iterate (HeaderMap.addCopy h k v)).filter (·.key ≠ k) = (HeaderMap.iterate h).filter (·.key ≠ k)
  isInline_xDowngradeStatus : HeaderMap.isInline H (headerName "x-downgrade-status") = false

namespace HeaderMap
variable {H : Type} [HeaderMap H] [LawfulAddCopy H]

theorem get_addCopy (h : H) {k : LowerCaseString} (v : HeaderString) (hnone : get h k = []) :
    get (addCopy h k v) k = [⟨k, v⟩] :=
  LawfulAddCopy.iterate_addCopy_eq h k v hnone

theorem get_addCopy_ne (h : H) {k k' : LowerCaseString} (v : HeaderString) (hne : k' ≠ k) :
    get (addCopy h k v) k' = get h k' := by
  rw [get_eq_filter _ hne, LawfulAddCopy.iterate_addCopy_ne, ← get_eq_filter _ hne]

end HeaderMap

instance : LawfulAddCopy HeaderList where
  iterate_addCopy_eq h k v hnone := by
    have hfilter : h.filter (·.key = k) = [] := hnone
    show List.filter (·.key = k) (h ++ [(⟨k, v⟩ : HeaderEntry)]) = _
    rw [List.filter_append, hfilter, List.filter_cons_of_pos (by simp)]
    rfl
  iterate_addCopy_ne h k v := by
    show List.filter (·.key ≠ k) (h ++ [(⟨k, v⟩ : HeaderEntry)]) = List.filter (·.key ≠ k) h
    rw [List.filter_append, List.filter_cons_of_neg (by simp)]
    simp
  isInline_xDowngradeStatus := rfl

/-- A request without other headers. -/
def plainRequest (method host path : String) : RequestHeaders HeaderList where
  headers := [⟨headerName ":method", headerValue method⟩, ⟨headerName ":authority", headerValue host⟩,
    ⟨headerName ":path", headerValue path⟩]
  method := headerValue method
  host := headerValue host
  path := headerValue path
  hasMethod := rfl
  hasHost := rfl
  hasPath := rfl

end EnvoyProxy.Http
