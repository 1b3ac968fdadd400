import EnvoyProxy.IpRestriction.Config
/-!
# What the entries of a list mean

An entry is an address, or an address with a slash and the length of a prefix.
`meaning` reads it so, without the patterns. We show that the list does what
its entries mean, but for the lengths that the patterns leave out: these
entries are not in the list at all.
-/

namespace EnvoyProxy.IpRestriction
open Json Regex RegularExpression

/-- A well-formed entry. -/
inductive Meaning
  | v4 (a : BitVec 32)
  | v6 (a : BitVec 128)
  | v4Range (a : BitVec 32) (length : Nat)
  | v6Range (a : BitVec 128) (length : Nat)
  deriving DecidableEq

/-- An IPv4 address with an optional length of at most 32, or an IPv6 address
of eight groups with an optional length of at most 128. -/
def meaning (entry : Bytes) : Option Meaning :=
  match entry.splitOn 47 with
  | [ip] =>
    match Ipv4Instance ip with
    | some a => some (.v4 a)
    | none => (Ipv6Instance ip).map .v6
  | [ip, length] =>
    match Ipv4Instance ip, Ipv6Instance ip with
    | some a, _ => (numeralBelow 33 length).map (.v4Range a)
    | none, some a => (numeralBelow 129 length).map (.v6Range a)
    | none, none => none
  | _ => none

namespace Meaning

def ipType : Meaning → IpType
  | .v4 _ => .RAWIPV4
  | .v6 _ => .RAWIPV6
  | .v4Range _ _ => .CIDRV4
  | .v6Range _ _ => .CIDRV6

/-- The address is one of those that the entry names. -/
def Names : Meaning → Address → Prop
  | .v4 a, .v4 b => b = a
  | .v6 a, .v6 b => b = a
  | .v4Range a length, .v4 b => (CidrRange.create a length).isInRange b = true
  | .v6Range a length, .v6 b => (CidrRange.create a length).isInRange b = true
  | _, _ => False

/-- The lengths that the patterns leave out. -/
def LeftOut : Meaning → Prop
  | .v4Range _ length => length = 32
  | .v6Range _ length => length ∈ [108, 109, 118, 119, 128]
  | _ => False

instance : DecidablePred LeftOut
  | .v4Range _ length => inferInstanceAs (Decidable (length = 32))
  | .v6Range _ length => inferInstanceAs (Decidable (length ∈ [108, 109, 118, 119, 128]))
  | .v4 _ => .isFalse id
  | .v6 _ => .isFalse id

end Meaning

/-! ## Numerals and groups -/

theorem numeralBelow_some {bound n : Nat} {text : Bytes} (h : numeralBelow bound text = some n) :
    text = natText n ∧ n < bound := by
  have htext := List.find?_some h
  have hmem := List.mem_of_find?_eq_some h
  exact ⟨(of_decide_eq_true htext).symm, List.mem_range.1 hmem⟩

theorem natText_inj {m n : Nat} (h : natText m = natText n) : m = n := by
  rw [← natOf_natText m, h, natOf_natText]

theorem numeralBelow_natText {bound n : Nat} (h : n < bound) : numeralBelow bound (natText n) = some n := by
  cases hfind : numeralBelow bound (natText n) with
  | none =>
    have hnone := List.find?_eq_none.1 hfind n (List.mem_range.2 h)
    simp at hnone
  | some m => rw [natText_inj (numeralBelow_some hfind).1]

/-- The numbers from `b` on. -/
theorem mem_shifted {b count n : Nat} : n ∈ (List.range count).map (b + ·) ↔ b ≤ n ∧ n < b + count := by
  rw [List.mem_map]
  constructor
  · rintro ⟨k, hk, rfl⟩
    have := List.mem_range.1 hk
    omega
  · rintro ⟨hge, hlt⟩
    exact ⟨n - b, List.mem_range.2 (by omega), by omega⟩

/-- The octets in the order of the words of their pattern. -/
def octets : List Nat :=
  (List.range 6).map (250 + ·) ++ (List.range 50).map (200 + ·) ++ (List.range 100).map (100 + ·) ++
    0 :: (List.range 9).flatMap fun d => (List.range 10).map (10 * (d + 1) + ·) ++ [d + 1]

theorem octets_sublist : (octets.map natText).Sublist (words octet) := by decide +kernel

theorem mem_octets {n : Nat} (h : n < 256) : n ∈ octets := by
  unfold octets
  simp only [List.mem_append, mem_shifted, List.mem_cons, List.mem_flatMap, List.mem_range,
    List.not_mem_nil, or_false]
  rcases Nat.lt_or_ge n 10 with hlt | hge
  · rcases Nat.eq_zero_or_pos n with rfl | hpos
    · exact .inr (.inl rfl)
    · exact .inr (.inr ⟨n - 1, by omega, .inr (by omega)⟩)
  · rcases Nat.lt_or_ge n 100 with hlt | hge
    · exact .inr (.inr ⟨n / 10 - 1, by omega, .inl ⟨by omega, by omega⟩⟩)
    · exact .inl (by omega)

theorem octet_of_numeral {n : Nat} (h : n < 256) : natText n ∈ octet.matches' :=
  (mem_words (by decide)).1 (octets_sublist.subset (List.mem_map_of_mem (mem_octets h)))

theorem words_lengthV4 :
    words lengthV4 = ((List.range 2).map (30 + ·) ++ (List.range 20).map (10 + ·) ++ List.range 10).map natText := by
  decide

theorem words_lengthV6 :
    words lengthV6 = ((List.range 8).map (100 + ·) ++ (List.range 8).map (110 + ·) ++ (List.range 8).map (120 + ·) ++
      (List.range 90).map (10 + ·) ++ List.range 10).map natText := by
  decide

theorem lengthV4_iff (y : Bytes) : y ∈ lengthV4.matches' ↔ ∃ n < 32, y = natText n := by
  rw [← mem_words (by decide), words_lengthV4, List.mem_map]
  apply exists_congr
  intro n
  rw [eq_comm]
  apply and_congr_left
  intro _
  simp only [List.mem_append, mem_shifted, List.mem_range]
  omega

theorem lengthV6_iff (y : Bytes) :
    y ∈ lengthV6.matches' ↔ ∃ n < 129, n ∉ [108, 109, 118, 119, 128] ∧ y = natText n := by
  rw [← mem_words (by decide), words_lengthV6, List.mem_map]
  apply exists_congr
  intro n
  rw [eq_comm, ← and_assoc]
  apply and_congr_left
  intro _
  simp only [List.mem_append, mem_shifted, List.mem_range, List.mem_cons, List.not_mem_nil, or_false]
  omega

theorem digit_mem {b : UInt8} (h : IsDigit b) : b ∈ ascii "0123456789" := by
  have hdigits : ascii "0123456789" = [48, 49, 50, 51, 52, 53, 54, 55, 56, 57] := by decide
  have hge : 48 ≤ b.toNat := h.1
  have hle : b.toNat ≤ 57 := h.2
  rw [hdigits]
  simp only [List.mem_cons, ← UInt8.toNat_inj, UInt8.reduceToNat, List.not_mem_nil, or_false]
  omega

theorem stoi_natText (n : Nat) : stoi (natText n) = some n := by
  obtain ⟨hne, hdigits⟩ := isDigits_natText n
  have hall : (natText n).takeWhile (· ∈ ascii "0123456789") = natText n := by
    apply List.takeWhile_eq_self_iff.2
    intro b hb
    exact decide_eq_true (digit_mem (hdigits b hb))
  unfold stoi
  simp only [hall, if_neg hne, natOf_natText]

theorem group_iff (x : Bytes) : x ∈ group.matches' ↔ (hexGroup x).isSome = true := by
  unfold group hexGroup
  rw [mem_between]
  simp only [mem_oneOf_pow]
  constructor
  · rintro ⟨k, hk, hk', rfl, hx⟩
    rw [if_pos ⟨hk, hk', hx⟩]
    rfl
  · intro h
    split_ifs at h with hx
    · exact ⟨x.length, hx.1, hx.2.1, rfl, hx.2.2⟩
    · cases h

/-! ## Addresses -/

theorem mapM_some_iff {α β : Type} {f : α → Option β} {l : List α} :
    (∃ ys, l.mapM f = some ys) ↔ ∀ x ∈ l, (f x).isSome = true := by
  induction l with
  | nil => simp
  | cons x l ih =>
    rw [List.mapM_cons, List.forall_mem_cons, ← ih]
    cases f x with
    | none => simp
    | some y => cases l.mapM f <;> simp

theorem mapM_length {α β : Type} {f : α → Option β} {l : List α} {ys : List β}
    (h : l.mapM f = some ys) : ys.length = l.length := by
  induction l generalizing ys with
  | nil =>
    cases h
    rfl
  | cons x l ih =>
    rw [List.mapM_cons] at h
    cases hx : f x with
    | none => simp [hx] at h
    | some y =>
      cases hl : l.mapM f with
      | none => simp [hx, hl] at h
      | some zs =>
        obtain rfl : y :: zs = ys := by simpa [hx, hl] using h
        simp [ih hl]

/-- The letters of the patterns: none is a slash, and a colon tells IPv6 from
IPv4. -/
theorem slash_not_mem_v4 {x : Bytes} (hx : x ∈ REGEXIPV4.matches') : 47 ∉ x := fun h => absurd (mem_letters hx 47 h) (by decide)

theorem colon_not_mem_v4 {x : Bytes} (hx : x ∈ REGEXIPV4.matches') : 58 ∉ x := fun h => absurd (mem_letters hx 58 h) (by decide)

theorem slash_not_mem_v6 {x : Bytes} (hx : x ∈ REGEXIPV6.matches') : 47 ∉ x := fun h => absurd (mem_letters hx 47 h) (by decide +kernel)

theorem colon_not_mem_group {x : Bytes} (hx : x ∈ group.matches') : 58 ∉ x := fun h => absurd (mem_letters hx 58 h) (by decide)

theorem colon_mem_v6 {x : Bytes} (hx : x ∈ REGEXIPV6.matches') : 58 ∈ x := by
  obtain ⟨parts, hlen, -, rfl⟩ := mem_separated.1 hx
  rcases parts with _ | ⟨p, _ | ⟨q, parts⟩⟩
  · cases hlen
  · cases hlen
  · rw [List.intercalate_cons_of_ne_nil (List.cons_ne_nil q parts)]
    simp

/-- What parses as an IPv4 address matches its pattern. -/
theorem v4_of_instance {x : Bytes} {a : BitVec 32} (h : Ipv4Instance x = some a) : x ∈ REGEXIPV4.matches' := by
  unfold Ipv4Instance at h
  cases hoctets : (x.splitOn 46).mapM (numeralBelow 256) with
  | none => simp [hoctets] at h
  | some octets =>
    rw [hoctets] at h
    dsimp only at h
    split_ifs at h with hlen
    refine mem_separated.2 ⟨x.splitOn 46, (mapM_length hoctets).symm.trans hlen, fun p hp => ?_,
      (List.intercalate_splitOn 46).symm⟩
    obtain ⟨n, hn⟩ := Option.isSome_iff_exists.1 (mapM_some_iff.1 ⟨octets, hoctets⟩ p hp)
    obtain ⟨rfl, hlt⟩ := numeralBelow_some hn
    exact octet_of_numeral hlt

/-- The pattern of IPv6 addresses is that of eight groups. -/
theorem v6_iff_instance (x : Bytes) : x ∈ REGEXIPV6.matches' ↔ ∃ a, Ipv6Instance x = some a := by
  unfold Ipv6Instance
  constructor
  · intro hx
    obtain ⟨parts, hlen, hparts, rfl⟩ := mem_separated.1 hx
    have hne : parts ≠ [] := by
      rintro rfl
      cases hlen
    obtain ⟨groups, hgroups⟩ := mapM_some_iff.2 fun p hp => (group_iff p).1 (hparts p hp)
    rw [List.splitOn_intercalate 58 (fun p hp => colon_not_mem_group (hparts p hp)) hne, hgroups]
    dsimp only
    rw [if_pos ((mapM_length hgroups).trans hlen)]
    exact ⟨_, rfl⟩
  · rintro ⟨a, h⟩
    cases hgroups : (x.splitOn 58).mapM hexGroup with
    | none => simp [hgroups] at h
    | some groups =>
      rw [hgroups] at h
      dsimp only at h
      split_ifs at h with hlen
      refine mem_separated.2 ⟨x.splitOn 58, (mapM_length hgroups).symm.trans hlen, fun p hp => ?_,
        (List.intercalate_splitOn 58).symm⟩
      exact (group_iff p).2 (mapM_some_iff.1 ⟨groups, hgroups⟩ p hp)

/-- No text is an address of both kinds. -/
theorem instance_disjoint_v4 {x : Bytes} (hx : x ∈ REGEXIPV4.matches') : Ipv6Instance x = none := by
  by_contra h
  obtain ⟨a, ha⟩ := Option.ne_none_iff_exists'.1 h
  exact colon_not_mem_v4 hx (colon_mem_v6 ((v6_iff_instance x).2 ⟨a, ha⟩))

theorem instance_disjoint {x : Bytes} (hx : x ∈ REGEXIPV6.matches') : Ipv4Instance x = none := by
  cases h : Ipv4Instance x with
  | none => rfl
  | some a => exact absurd (colon_mem_v6 hx) (colon_not_mem_v4 (v4_of_instance h))

/-! ## Ranges -/

theorem mem_cidr {address length : Pattern} {x : Bytes} :
    x ∈ (address * char 47 * length).matches' ↔ ∃ ip ∈ address.matches', ∃ y ∈ length.matches',
    x = ip ++ 47 :: y := by
  rw [matches'_mul, matches'_mul, Language.mem_mul]
  constructor
  · rintro ⟨u, hu, y, hy, rfl⟩
    obtain ⟨ip, hip, s, hs, rfl⟩ := Language.mem_mul.1 hu
    obtain rfl : s = [47] := hs
    exact ⟨ip, hip, y, hy, by simp⟩
  · rintro ⟨ip, hip, y, hy, rfl⟩
    exact ⟨ip ++ [47], Language.mem_mul.2 ⟨ip, hip, [47], rfl, rfl⟩, y, hy, by simp⟩

theorem slash_not_mem_natText (n : Nat) : 47 ∉ natText n := by
  intro h
  obtain ⟨hle, -⟩ := (isDigits_natText n).2 47 h
  exact absurd hle (by decide)

theorem cutAtLast_eq (ip : Bytes) {y : Bytes} (hy : 47 ∉ y) : cutAtLast (ip ++ 47 :: y) = (ip, y) := by
  have hrest : ((ip ++ 47 :: y).reverse.takeWhile (· ≠ 47)).reverse = y := by
    have hall : ∀ b ∈ y.reverse, decide (b ≠ 47) = true := by
      intro b hb
      have hne : b ≠ 47 := by
        rintro rfl
        exact hy (List.mem_reverse.1 hb)
      simp [hne]
    rw [List.reverse_append, List.reverse_cons, List.append_assoc, List.takeWhile_append_of_pos hall]
    simp
  have hlen : (ip ++ 47 :: y).length - y.length - 1 = ip.length := by
    simp only [List.length_append, List.length_cons]
    omega
  unfold cutAtLast
  dsimp only
  rw [hrest, hlen, List.take_left]

theorem splitOn_two {ip y : Bytes} (hip : 47 ∉ ip) (hy : 47 ∉ y) : (ip ++ 47 :: y).splitOn 47 = [ip, y] := by
  rw [List.splitOn_append_cons_self_of_not_mem hip, List.splitOn_eq_singleton hy]

/-- A well-formed entry, by its parts. -/
theorem meaning_cases {entry : Bytes} {m : Meaning} (h : meaning entry = some m) :
    (∃ a, Ipv4Instance entry = some a ∧ m = .v4 a) ∨
      (∃ a, Ipv4Instance entry = none ∧ Ipv6Instance entry = some a ∧ m = .v6 a) ∨
      (∃ ip a n, entry = ip ++ 47 :: natText n ∧ n < 33 ∧ Ipv4Instance ip = some a ∧ m = .v4Range a n) ∨
      ∃ ip a n, entry = ip ++ 47 :: natText n ∧ n < 129 ∧ Ipv4Instance ip = none ∧
      Ipv6Instance ip = some a ∧ m = .v6Range a n := by
  have hentry := @List.intercalate_splitOn UInt8 entry _ _ 47
  unfold meaning at h
  split at h
  · next ip hsplit =>
    obtain rfl : ip = entry := by simpa [hsplit] using hentry
    split at h
    · next a ha => exact .inl ⟨a, ha, (Option.some.inj h).symm⟩
    · next hnone =>
      obtain ⟨a, ha, rfl⟩ := Option.map_eq_some_iff.1 h
      exact .inr (.inl ⟨a, hnone, ha, rfl⟩)
  · next ip length hsplit =>
    have hcut : entry = ip ++ 47 :: length := by simpa [hsplit] using hentry.symm
    split at h
    · next _ a ha =>
      obtain ⟨n, hn, rfl⟩ := Option.map_eq_some_iff.1 h
      obtain ⟨rfl, hlt⟩ := numeralBelow_some hn
      exact .inr (.inr (.inl ⟨ip, a, n, hcut, hlt, ha, rfl⟩))
    · next a hnone ha =>
      obtain ⟨n, hn, rfl⟩ := Option.map_eq_some_iff.1 h
      obtain ⟨rfl, hlt⟩ := numeralBelow_some hn
      exact .inr (.inr (.inr ⟨ip, a, n, hcut, hlt, hnone, ha, rfl⟩))
    · cases h
  · cases h

/-! ## Which pattern matches -/

theorem v4Cidr_iff {ip : Bytes} (hip : 47 ∉ ip) (n : Nat) :
    ip ++ 47 :: natText n ∈ IPV4WITHCIDR.matches' ↔ ip ∈ REGEXIPV4.matches' ∧ n < 32 := by
  unfold IPV4WITHCIDR
  rw [mem_cidr]
  constructor
  · rintro ⟨ip', hip', y, hy, heq⟩
    obtain ⟨n', hn', rfl⟩ := (lengthV4_iff y).1 hy
    have hparts := congrArg (List.splitOn 47) heq
    rw [splitOn_two hip (slash_not_mem_natText n), splitOn_two (slash_not_mem_v4 hip')
      (slash_not_mem_natText n')] at hparts
    obtain ⟨rfl, hn⟩ : ip = ip' ∧ natText n = natText n' := by simpa using hparts
    exact ⟨hip', by rw [natText_inj hn]; exact hn'⟩
  · rintro ⟨hx, hn⟩
    exact ⟨ip, hx, natText n, (lengthV4_iff _).2 ⟨n, hn, rfl⟩, rfl⟩

theorem v6Cidr_iff {ip : Bytes} (hip : 47 ∉ ip) {n : Nat} (hn : n < 129) :
    ip ++ 47 :: natText n ∈ IPV6WITHCIDR.matches' ↔ ip ∈ REGEXIPV6.matches' ∧ n ∉ [108, 109, 118, 119, 128] := by
  unfold IPV6WITHCIDR
  rw [mem_cidr]
  constructor
  · rintro ⟨ip', hip', y, hy, heq⟩
    obtain ⟨n', -, hin, rfl⟩ := (lengthV6_iff y).1 hy
    have hparts := congrArg (List.splitOn 47) heq
    rw [splitOn_two hip (slash_not_mem_natText n), splitOn_two (slash_not_mem_v6 hip')
      (slash_not_mem_natText n')] at hparts
    obtain ⟨rfl, hnn⟩ : ip = ip' ∧ natText n = natText n' := by simpa using hparts
    exact ⟨hip', by rw [natText_inj hnn]; exact hin⟩
  · rintro ⟨hx, hin⟩
    exact ⟨ip, hx, natText n, (lengthV6_iff _).2 ⟨n, hn, hin, rfl⟩, rfl⟩

/-- The kind of an entry, by the patterns it matches. -/
theorem parseIpType_eq (entry : Bytes) (type : IpType) : parseIpType entry = type ↔
    match type with
    | .RAWIPV4 => entry ∈ REGEXIPV4.matches'
    | .CIDRV4 => entry ∉ REGEXIPV4.matches' ∧ entry ∈ IPV4WITHCIDR.matches'
    | .RAWIPV6 => entry ∉ REGEXIPV4.matches' ∧ entry ∉ IPV4WITHCIDR.matches' ∧ entry ∈ REGEXIPV6.matches'
    | .CIDRV6 =>
      entry ∉ REGEXIPV4.matches' ∧ entry ∉ IPV4WITHCIDR.matches' ∧ entry ∉ REGEXIPV6.matches' ∧
        entry ∈ IPV6WITHCIDR.matches'
    | .NONE =>
      entry ∉ REGEXIPV4.matches' ∧ entry ∉ IPV4WITHCIDR.matches' ∧ entry ∉ REGEXIPV6.matches' ∧
        entry ∉ IPV6WITHCIDR.matches' := by
  unfold parseIpType
  simp only [rmatch_iff_matches']
  cases type <;> split_ifs <;> simp [*]

theorem not_raw_of_slash {entry : Bytes} (h : 47 ∈ entry) :
    entry ∉ REGEXIPV4.matches' ∧ entry ∉ REGEXIPV6.matches' :=
  ⟨fun hx => slash_not_mem_v4 hx h, fun hx => slash_not_mem_v6 hx h⟩

theorem not_cidr {address length : Pattern} {entry : Bytes} (h : 47 ∉ entry) :
    entry ∉ (address * char 47 * length).matches' := by
  rw [mem_cidr]
  rintro ⟨ip, -, y, -, rfl⟩
  exact h (by simp)

/-- A well-formed entry is taken for what it is, or left out. -/
theorem meaning_type {entry : Bytes} {m : Meaning} (h : meaning entry = some m) :
    parseIpType entry = m.ipType ∧ ¬ m.LeftOut ∨ parseIpType entry = .NONE ∧ m.LeftOut := by
  rcases meaning_cases h with ⟨a, ha, rfl⟩ | ⟨a, -, ha, rfl⟩ | ⟨ip, a, n, rfl, hn, ha, rfl⟩ | ⟨ip,
    a, n, rfl, hn, -, ha, rfl⟩
  · exact .inl ⟨(parseIpType_eq entry .RAWIPV4).2 (v4_of_instance ha), id⟩
  · have hx := (v6_iff_instance entry).2 ⟨a, ha⟩
    have hnot : entry ∉ REGEXIPV4.matches' := fun hx' => colon_not_mem_v4 hx' (colon_mem_v6 hx)
    exact .inl ⟨(parseIpType_eq entry .RAWIPV6).2 ⟨hnot, not_cidr (slash_not_mem_v6 hx), hx⟩, id⟩
  · have hx := v4_of_instance ha
    have hslash : 47 ∈ ip ++ 47 :: natText n := by simp
    have hraw := not_raw_of_slash hslash
    have hv4 := v4Cidr_iff (slash_not_mem_v4 hx) n
    rcases Nat.lt_or_ge n 32 with hlt | hge
    · exact .inl ⟨(parseIpType_eq _ .CIDRV4).2 ⟨hraw.1, hv4.2 ⟨hx, hlt⟩⟩, fun h =>
        absurd (show n = 32 from h) (by omega)⟩
    · right
      refine ⟨(parseIpType_eq _ .NONE).2 ⟨hraw.1, fun h => absurd (hv4.1 h).2 (by omega), hraw.2,
        fun h => ?_⟩, show n = 32 by omega⟩
      have hv6 := ((v6Cidr_iff (slash_not_mem_v4 hx) (by omega)).1 h).1
      exact colon_not_mem_v4 hx (colon_mem_v6 hv6)
  · have hx := (v6_iff_instance ip).2 ⟨a, ha⟩
    have hslash : 47 ∈ ip ++ 47 :: natText n := by simp
    have hraw := not_raw_of_slash hslash
    have hv4 : ip ++ 47 :: natText n ∉ IPV4WITHCIDR.matches' := fun h =>
      colon_not_mem_v4 ((v4Cidr_iff (slash_not_mem_v6 hx) n).1 h).1 (colon_mem_v6 hx)
    have hv6 := v6Cidr_iff (slash_not_mem_v6 hx) hn
    by_cases hin : n ∈ [108, 109, 118, 119, 128]
    · exact .inr ⟨(parseIpType_eq _ .NONE).2 ⟨hraw.1, hv4, hraw.2, fun h => (hv6.1 h).2 hin⟩, hin⟩
    · exact .inl ⟨(parseIpType_eq _ .CIDRV6).2 ⟨hraw.1, hv4, hraw.2, hv6.2 ⟨hx, hin⟩⟩, hin⟩

/-! ## Reading the list -/

namespace BlackOrWhiteListConfig

/-- A list with an entry more. -/
def add (text : AddressText) (c : BlackOrWhiteListConfig) : Meaning → BlackOrWhiteListConfig
  | .v4 a => { c with rawIpV4 := a :: c.rawIpV4 }
  | .v6 a => { c with rawIpV6 := text.text a :: c.rawIpV6 }
  | .v4Range a length => { c with cidrIpV4 := c.cidrIpV4 ++ [.create a length] }
  | .v6Range a length => { c with cidrIpV6 := c.cidrIpV6 ++ [.create a length] }

end BlackOrWhiteListConfig

open BlackOrWhiteListConfig

theorem meaning_of_v4 {entry : Bytes} (hx : entry ∈ REGEXIPV4.matches') :
    meaning entry = (Ipv4Instance entry).map .v4 := by
  unfold meaning
  rw [List.splitOn_eq_singleton (slash_not_mem_v4 hx)]
  dsimp only
  rw [instance_disjoint_v4 hx]
  cases Ipv4Instance entry <;> rfl

theorem meaning_of_v6 {entry : Bytes} (hx : entry ∈ REGEXIPV6.matches') :
    meaning entry = (Ipv6Instance entry).map .v6 := by
  unfold meaning
  rw [List.splitOn_eq_singleton (slash_not_mem_v6 hx)]
  dsimp only
  rw [instance_disjoint hx]

theorem meaning_of_v4Range {ip : Bytes} (hx : ip ∈ REGEXIPV4.matches') {n : Nat} (hn : n < 33) :
    meaning (ip ++ 47 :: natText n) = (Ipv4Instance ip).map (.v4Range · n) := by
  unfold meaning
  rw [splitOn_two (slash_not_mem_v4 hx) (slash_not_mem_natText n)]
  dsimp only
  rw [instance_disjoint_v4 hx, numeralBelow_natText hn]
  cases Ipv4Instance ip <;> rfl

theorem meaning_of_v6Range {ip : Bytes} (hx : ip ∈ REGEXIPV6.matches') {n : Nat} (hn : n < 129) :
    meaning (ip ++ 47 :: natText n) = (Ipv6Instance ip).map (.v6Range · n) := by
  unfold meaning
  rw [splitOn_two (slash_not_mem_v6 hx) (slash_not_mem_natText n)]
  dsimp only
  rw [instance_disjoint hx, numeralBelow_natText hn]
  cases Ipv6Instance ip <;> rfl

/-- What a pattern matches is added to the list as what it means; the rest is
left out. -/
theorem parseIpEntry_eq (text : AddressText) (c : BlackOrWhiteListConfig) (entry : Bytes) :
    c.parseIpEntry text entry = if parseIpType entry = .NONE then some c else (meaning entry).map (c.add text) := by
  have hempty : parseIpType [] = .NONE := by decide
  unfold parseIpEntry
  split_ifs with hnil hnone hnone
  · rfl
  · rw [hnil] at hnone
    exact absurd hempty hnone
  · rw [hnone]
  · cases htype : parseIpType entry with
    | NONE => exact absurd htype hnone
    | RAWIPV4 =>
      have hx := (parseIpType_eq entry .RAWIPV4).1 htype
      rw [meaning_of_v4 hx]
      cases Ipv4Instance entry <;> rfl
    | RAWIPV6 =>
      obtain ⟨-, -, hx⟩ := (parseIpType_eq entry .RAWIPV6).1 htype
      rw [meaning_of_v6 hx]
      cases Ipv6Instance entry <;> rfl
    | CIDRV4 =>
      obtain ⟨-, hx⟩ := (parseIpType_eq entry .CIDRV4).1 htype
      obtain ⟨ip, hip, y, hy, rfl⟩ := mem_cidr.1 hx
      obtain ⟨n, hn, rfl⟩ := (lengthV4_iff y).1 hy
      dsimp only
      rw [meaning_of_v4Range hip (by omega), cutAtLast_eq ip (slash_not_mem_natText n), stoi_natText]
      cases Ipv4Instance ip <;> rfl
    | CIDRV6 =>
      obtain ⟨-, -, -, hx⟩ := (parseIpType_eq entry .CIDRV6).1 htype
      obtain ⟨ip, hip, y, hy, rfl⟩ := mem_cidr.1 hx
      obtain ⟨n, hn, -, rfl⟩ := (lengthV6_iff y).1 hy
      dsimp only
      rw [meaning_of_v6Range hip hn, cutAtLast_eq ip (slash_not_mem_natText n), stoi_natText]
      cases Ipv6Instance ip <;> rfl

/-! ## Checking an address -/

section
variable {text : AddressText}

theorem check_add (c : BlackOrWhiteListConfig) (m : Meaning) (address : Address) :
    (c.add text m).checkIpEntry text address = true ↔ c.checkIpEntry text address = true ∨ m.Names address := by
  cases m with
  | v4 a => cases address <;> simp [add, checkIpEntry, Meaning.Names, or_comm, or_assoc]
  | v6 a => cases address <;> simp [add, checkIpEntry, Meaning.Names, text.injective.eq_iff, or_comm, or_assoc]
  | v4Range a length => cases address <;> simp [add, checkIpEntry, Meaning.Names, or_assoc]
  | v6Range a length => cases address <;> simp [add, checkIpEntry, Meaning.Names, or_assoc]

theorem check_parse {c c' : BlackOrWhiteListConfig} {entry : Bytes}
    (h : c.parseIpEntry text entry = some c') (address : Address) :
    c'.checkIpEntry text address = true ↔ c.checkIpEntry text address = true ∨
      parseIpType entry ≠ .NONE ∧ ∃ m, meaning entry = some m ∧ m.Names address := by
  rw [parseIpEntry_eq] at h
  split_ifs at h with hnone
  · obtain rfl := Option.some.inj h
    simp [hnone]
  · obtain ⟨m, hm, rfl⟩ := Option.map_eq_some_iff.1 h
    rw [check_add]
    simp [hnone, hm]

theorem check_list {list : List Bytes} {c config : BlackOrWhiteListConfig}
    (h : list.foldlM (parseIpEntry text) c = some config)
    (address : Address) : config.checkIpEntry text address = true ↔ c.checkIpEntry text address = true ∨
      ∃ entry ∈ list, parseIpType entry ≠ .NONE ∧ ∃ m, meaning entry = some m ∧ m.Names address := by
  induction list generalizing c with
  | nil =>
    obtain rfl := Option.some.inj h
    simp
  | cons entry list ih =>
    rw [List.foldlM_cons] at h
    obtain ⟨c', hc', hrest⟩ := Option.bind_eq_some_iff.1 h
    rw [ih hrest, check_parse hc', or_assoc, List.exists_mem_cons_iff]

/-- A list of well-formed entries is taken. -/
theorem create_isSome (text : AddressText) (type : ListType) {list : List Bytes}
    (h : ∀ entry ∈ list, (meaning entry).isSome = true) :
    (create text type list).isSome = true := by
  have hparse : ∀ (c : BlackOrWhiteListConfig), (list.foldlM (parseIpEntry text) c).isSome = true := by
    induction list with
    | nil => exact fun _ => rfl
    | cons entry list ih =>
      intro c
      obtain ⟨m, hm⟩ := Option.isSome_iff_exists.1 (h entry List.mem_cons_self)
      have hrest := ih fun entry hentry => h entry (List.mem_cons_of_mem _ hentry)
      rw [List.foldlM_cons, parseIpEntry_eq, hm]
      split_ifs
      · exact hrest c
      · exact hrest (c.add text m)
  exact hparse _

/-- An address is on the list if and only if an entry names it that is not left
out. -/
theorem check_create {type : ListType} {list : List Bytes} {config : BlackOrWhiteListConfig}
    (h : create text type list = some config)
    (address : Address) : config.checkIpEntry text address = true ↔
      ∃ entry ∈ list, parseIpType entry ≠ .NONE ∧ ∃ m, meaning entry = some m ∧ m.Names address := by
  rw [check_list h]
  cases address <;> simp [checkIpEntry]

end

/-- Every well-formed entry of a list is taken for what it is, and the list has
exactly the addresses that one of them names, if and only if no entry has a
length that the patterns leave out. -/
theorem entries_iff (text : AddressText) (type : ListType) (list : List Bytes) {config : BlackOrWhiteListConfig}
    (h : create text type list = some config) :
    ((∀ entry ∈ list, ∀ m, meaning entry = some m → parseIpType entry = m.ipType) ∧
      ∀ address, config.checkIpEntry text address = true ↔ ∃ entry ∈ list, ∃ m, meaning entry = some m ∧ m.Names address) ↔
    ∀ entry ∈ list, ∀ m, meaning entry = some m → ¬ m.LeftOut := by
  have hkind (m : Meaning) : m.ipType ≠ .NONE := by cases m <;> rintro ⟨⟩
  constructor
  · rintro ⟨htype, -⟩ entry hentry m hm hleft
    rcases meaning_type hm with ⟨-, hnot⟩ | ⟨hnone, -⟩
    · exact hnot hleft
    · exact hkind m ((htype entry hentry m hm).symm.trans hnone)
  · intro hall
    have htype (entry : Bytes) (hentry : entry ∈ list) (m : Meaning) (hm : meaning entry = some m) :
        parseIpType entry = m.ipType := by
      rcases meaning_type hm with ⟨htype, -⟩ | ⟨-, hleft⟩
      · exact htype
      · exact absurd hleft (hall entry hentry m hm)
    refine ⟨htype, fun address => ?_⟩
    rw [check_create h]
    constructor
    · rintro ⟨entry, hentry, -, hnamed⟩
      exact ⟨entry, hentry, hnamed⟩
    · rintro ⟨entry, hentry, m, hm, hnames⟩
      refine ⟨entry, hentry, ?_, m, hm, hnames⟩
      rw [htype entry hentry m hm]
      exact hkind m

/-- Addresses told apart by their bits. -/
def bits : AddressText where
  text a := (List.range 128).map fun i => if a.getLsbD i then 49 else 48
  injective a b h := by
    apply BitVec.eq_of_getLsbD_eq
    intro i hi
    have hbit := List.map_inj_left.1 h i (List.mem_range.2 hi)
    revert hbit
    cases a.getLsbD i <;> cases b.getLsbD i <;> decide

/-! ## Lists of entries -/

theorem hexDigits_eq :
    hexDigits = [48, 49, 50, 51, 52, 53, 54, 55, 56, 57, 97, 98, 99, 100, 101, 102, 65, 66, 67, 68,
    69, 70] := by
  decide

theorem hexGroup_eq : hexGroup = fun text =>
    if 1 ≤ text.length ∧ text.length ≤ 4 ∧ text.all (fun b => b ∈
        [48, 49, 50, 51, 52, 53, 54, 55, 56, 57, 97, 98, 99, 100, 101, 102, 65, 66, 67, 68, 69, 70]) = true then
      some (text.foldl (fun n b => 16 * n + hexDigitValue b) 0)
    else none := by
  funext text
  unfold hexGroup
  simp only [hexDigits_eq, List.all_eq_true, decide_eq_true_eq]

/-- An address and ranges of both kinds. -/
theorem ranges_exact : ∃ config, create bits .BLACK [ascii "10.199.198.33", ascii "10.77.88.99/8",
      ascii "A157:CD01:3579:1526:DBAC:EF21:4356:7879/32"] = some config ∧
    ∀ address, config.checkIpEntry bits address = true ↔ ∃ entry ∈ [ascii "10.199.198.33", ascii "10.77.88.99/8",
      ascii "A157:CD01:3579:1526:DBAC:EF21:4356:7879/32"], ∃ m, meaning entry = some m ∧ m.Names address := by
  have hmeaning : ∀ entry ∈ [ascii "10.199.198.33", ascii "10.77.88.99/8", ascii "A157:CD01:3579:1526:DBAC:EF21:4356:7879/32"],
      (meaning entry).any (fun m => !decide m.LeftOut) = true := by
    unfold meaning Ipv4Instance Ipv6Instance
    rw [hexGroup_eq, ← List.all_eq_true]
    decide
  have hsome := create_isSome bits .BLACK fun entry hentry => Option.isSome_of_any (hmeaning entry hentry)
  obtain ⟨config, hconfig⟩ := Option.isSome_iff_exists.1 hsome
  refine ⟨config, hconfig, ((entries_iff bits .BLACK _ hconfig).2 fun entry hentry m hm => ?_).2⟩
  simpa [hm] using hmeaning entry hentry

/-- The address of an entry with the length 32 is not on the list. -/
theorem whole_address_dropped : ∃ config, create bits .BLACK [ascii "1.2.3.4/32"] = some config ∧
    meaning (ascii "1.2.3.4/32") = some (.v4Range 0x01020304#32 32) ∧ (Meaning.v4Range 0x01020304#32 32).Names (.v4 0x01020304#32) ∧
    config.checkIpEntry bits (.v4 0x01020304#32) = false := by
  have hmeaning : meaning (ascii "1.2.3.4/32") = some (.v4Range 0x01020304#32 32) := by decide
  have hnone : parseIpType (ascii "1.2.3.4/32") = .NONE := by
    rcases meaning_type hmeaning with ⟨-, hnot⟩ | ⟨hnone, -⟩
    · exact absurd rfl hnot
    · exact hnone
  refine ⟨{ isBlackList := true }, ?_, hmeaning,
    (by decide : (CidrRange.create 0x01020304#32 32).isInRange 0x01020304#32 = true), rfl⟩
  unfold create
  rw [List.foldlM_cons, parseIpEntry_eq, if_pos hnone]
  rfl

end EnvoyProxy.IpRestriction
