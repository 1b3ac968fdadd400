import EnvoyProxy.Lib.Parse
import EnvoyProxy.Dubbo.Request
/-!
# A reader for request bodies

The counterpart of `writeRequestBody`: strings, two lists with their lengths
in front, and a map up to its terminator. The Hessian values between the
delimiters are read by the functions of a `Decoder`, which has to undo what
the `Encoder` does; `scalarDecoder` does so for `scalarEncoder`.
-/

namespace EnvoyProxy.Dubbo
open Json

/-- The calls of a Hessian decoder that undo those of an `Encoder`. -/
structure Decoder where
  decodeString : Parser UInt8 Bytes
  decodeInt : Parser UInt8 Int32
  decodeObject : Parser UInt8 HessianValue

/-- What a request body holds, in order. -/
structure RequestBody where
  dubboVersion : Bytes
  service : Bytes
  version : Bytes
  genericMethod : Bytes
  genericParamTypes : Bytes
  method : Bytes
  types : List Bytes
  arguments : List HessianValue
  attachments : FlatStringMap

section Read
variable (decoder : Decoder)

/-- The length of a list: in the tag, or behind it. -/
def readListBegin : Parser UInt8 Nat := do
  let tag ← next
  if 0x78 ≤ tag ∧ tag ≤ 0x7f then return (tag - 0x78).toNat
  else if tag = 0x58 then
    let length ← decoder.decodeInt
    if 0 ≤ length.toInt then return length.toInt.toNat else failure
  else failure

def readList {α : Type} (item : Parser UInt8 α) : Parser UInt8 (List α) := do
  let length ← readListBegin decoder
  items item length

def readEntry : Parser UInt8 (Bytes × Bytes) := do
  let key ← decoder.decodeString
  let value ← decoder.decodeString
  return (key, value)

/-- Entries up to the terminator; there are no more of them than bytes. -/
def readEntries : Parser UInt8 FlatStringMap := fun input =>
  (itemsUntil 0x5a (readEntry decoder) (input.length + 1)).run input

def readMap : Parser UInt8 FlatStringMap := do
  let tag ← next
  if tag = 0x48 then readEntries decoder else failure

def readRequestBody : Parser UInt8 RequestBody := do
  let dubboVersion ← decoder.decodeString
  let service ← decoder.decodeString
  let version ← decoder.decodeString
  let genericMethod ← decoder.decodeString
  let genericParamTypes ← decoder.decodeString
  let method ← decoder.decodeString
  let types ← readList decoder decoder.decodeString
  let arguments ← readList decoder decoder.decodeObject
  let attachments ← readMap decoder
  return { dubboVersion, service, version, genericMethod, genericParamTypes, method, types, arguments, attachments }

end Read

/-! ## Lists and maps -/

/-- The decoder undoes the calls of the encoder: encodings are self-delimiting
and not empty, and no string begins like the end of a map. -/
structure Inverts (encoder : Encoder) (decoder : Decoder) (sent : HessianValue → Prop) : Prop where
  string : ∀ s, Reads decoder.decodeString (encoder.encodeString s) s
  int : ∀ i, Reads decoder.decodeInt (encoder.encodeInt i) i
  object : ∀ v, sent v → Reads decoder.decodeObject (encoder.encodeObject v) v
  string_start : ∀ s, ∃ b bs, encoder.encodeString s = b :: bs ∧ b ≠ 0x5a
  object_ne : ∀ v, sent v → encoder.encodeObject v ≠ []

section Delimiters
variable {encoder : Encoder} {decoder : Decoder} {sent : HessianValue → Prop} (h : Inverts encoder decoder sent)

theorem int32_ofNat {n : Nat} (hn : n < 2 ^ 31) : (Int32.ofNat n).toInt = n := by
  have := Int32.toInt_ofNat_of_lt hn
  simpa using this

theorem writeListBegin_compact {n : Nat} (hn : n ≤ 7) :
    writeListBegin encoder (Int32.ofNat n) = [UInt8.ofNat (0x78 + n)] := by
  interval_cases n <;> rfl

theorem writeListBegin_explicit {n : Nat} (hn : 7 < n) (hlt : n < 2 ^ 31) :
    writeListBegin encoder (Int32.ofNat n) = 0x58 :: encoder.encodeInt (Int32.ofNat n) := by
  unfold writeListBegin
  rw [if_neg]
  rw [Int32.le_iff_toInt_le, int32_ofNat hlt]
  have : (7 : Int32).toInt = 7 := rfl
  omega

include h in
/-- The announced length is read back, with either tag. -/
theorem reads_listBegin {n : Nat} (hn : n < 2 ^ 31) :
    Reads (readListBegin decoder) (writeListBegin encoder (Int32.ofNat n)) n := by
  by_cases hsmall : n ≤ 7
  · rw [writeListBegin_compact hsmall]
    intro rest
    interval_cases n <;> rfl
  · rw [writeListBegin_explicit (by omega) hn]
    have hint : Reads (do
        let length ← decoder.decodeInt
        if 0 ≤ length.toInt then return length.toInt.toNat else failure)
        (encoder.encodeInt (Int32.ofNat n)) n := by
      have hlength : Reads (if 0 ≤ (Int32.ofNat n).toInt then Pure.pure (Int32.ofNat n).toInt.toNat else failure)
          ([] : Bytes) n := by
        rw [int32_ofNat hn, if_pos (by omega)]
        exact Reads.pure _
      have := (h.int (Int32.ofNat n)).bind
        (f := fun i => if 0 ≤ i.toInt then Pure.pure i.toInt.toNat else failure) hlength
      rwa [List.append_nil] at this
    exact (reads_next 0x58).bind hint

include h in
theorem reads_list {α γ : Type} {item : Parser UInt8 α} (text : γ → Bytes) (value : γ → α) {cs : List γ}
    (hitem : ∀ c ∈ cs, Reads item (text c) (value c)) (hn : cs.length < 2 ^ 31) :
    Reads (readList decoder item) (writeListBegin encoder (Int32.ofNat cs.length) ++ cs.flatMap text)
      (cs.map value) :=
  (reads_listBegin h hn).bind (reads_items text value cs hitem)

include h in
theorem reads_entry (e : Bytes × Bytes) :
    Reads (readEntry decoder) (encoder.encodeString e.1 ++ encoder.encodeString e.2) e :=
  (h.string e.1).bind ((h.string e.2).map fun value => (e.1, value))

theorem length_le_flatMap {γ : Type} (text : γ → Bytes) (cs : List γ) (hne : ∀ c ∈ cs, text c ≠ []) :
    cs.length ≤ (cs.flatMap text).length := by
  induction cs with
  | nil => exact le_rfl
  | cons c cs ih =>
    have hc := List.length_pos_iff.2 (hne c List.mem_cons_self)
    have := ih fun c' hc' => hne c' (List.mem_cons_of_mem _ hc')
    simp only [List.length_cons, List.flatMap_cons, List.length_append]
    omega

include h in
theorem encodeString_ne (s : Bytes) : encoder.encodeString s ≠ [] := by
  obtain ⟨b, bs, hs, -⟩ := h.string_start s
  rw [hs]
  simp

include h in
/-- A map is read up to its terminator, whatever stands behind it. -/
theorem reads_map (entries : FlatStringMap) :
    Reads (readMap decoder) (0x48 :: (writeEntries encoder entries ++ [0x5a])) entries := by
  have hentries : Reads (readEntries decoder) (writeEntries encoder entries ++ [0x5a]) entries := by
    intro rest
    have hcount := length_le_flatMap (fun e => encoder.encodeString e.1 ++ encoder.encodeString e.2) entries
      fun e _ => by simp [encodeString_ne h]
    have hfuel : entries.length < (writeEntries encoder entries ++ [0x5a] ++ rest).length + 1 := by
      unfold writeEntries
      simp only [List.length_append]
      omega
    have hstart : ∀ e ∈ entries, ∃ b bs, encoder.encodeString e.1 ++ encoder.encodeString e.2 = b ::
        bs ∧ b ≠ 0x5a := by
      intro e _
      obtain ⟨b, bs, hs, hb⟩ := h.string_start e.1
      exact ⟨b, bs ++ encoder.encodeString e.2, by rw [hs]; rfl, hb⟩
    have hread := reads_itemsUntil (fun e => encoder.encodeString e.1 ++ encoder.encodeString e.2) id
      (fun e _ => reads_entry h e) hstart hfuel rest
    rwa [List.map_id] at hread
  exact (reads_next 0x48).bind hentries

end Delimiters

/-! ## A decoder for scalar arguments -/

/-- The bytes behind the tag of a string; `more` reads the next chunk. -/
def readStringBody (more : Parser UInt8 Bytes) (tag : UInt8) : Parser UInt8 Bytes :=
  if tag < 0x20 then items next tag.toNat
  else if 0x30 ≤ tag ∧ tag ≤ 0x33 then do
    let low ← next
    items next ((tag - 0x30).toNat * 256 + low.toNat)
  else if tag = 0x53 then do
    let high ← next
    let low ← next
    items next (high.toNat * 256 + low.toNat)
  else if tag = 0x52 then do
    let high ← next
    let low ← next
    let chunk ← items next (high.toNat * 256 + low.toNat)
    let rest ← more
    return chunk ++ rest
  else failure

/-- The counterpart of `hessianString`. -/
def readString : Nat → Parser UInt8 Bytes
  | 0 => failure
  | fuel + 1 => next >>= readStringBody (readString fuel)

/-- The counterpart of `hessianInt`. -/
def readInt : Parser UInt8 Int32 := do
  let tag ← next
  if 0x80 ≤ tag ∧ tag ≤ 0xbf then return Int32.ofInt (tag.toNat - 0x90)
  else if tag = 0x49 then
    let bytes ← items next 4
    return Int32.ofNat (beNat bytes)
  else failure

def scalarDecoder : Decoder where
  decodeString input := (readString (input.length + 1)).run input
  decodeInt := readInt
  decodeObject input :=
    if input.head? = some 0x4e then some (.null, input.tail)
    else if input.head? = some 0x54 then some (.boolean true, input.tail)
    else if input.head? = some 0x46 then some (.boolean false, input.tail)
    else (do return HessianValue.integer (← readInt)).run input

theorem reads_bytes (s : Bytes) : Reads (items next s.length) s s := by
  have h := reads_items (fun b : UInt8 => [b]) id s fun b _ => reads_next b
  rwa [List.map_id, List.flatMap_singleton'] at h

theorem reads_sized {s : Bytes} {n : Nat} (hn : n = s.length) : Reads (items next n) s s := hn ▸ reads_bytes s

theorem toNat_ofNat_of_lt {n : Nat} (h : n < 256) : (UInt8.ofNat n).toNat = n := by
  simpa using Nat.mod_eq_of_lt h

theorem reads_stringBody_short {s : Bytes} (more : Parser UInt8 Bytes) (hs : s.length < 32) :
    Reads (readStringBody more (UInt8.ofNat s.length)) s s := by
  have htag : (UInt8.ofNat s.length).toNat = s.length := toNat_ofNat_of_lt (by omega)
  have hlt : UInt8.ofNat s.length < 0x20 := by
    rw [UInt8.lt_iff_toNat_lt, htag]
    exact hs
  rw [readStringBody, if_pos hlt]
  exact reads_sized htag

theorem reads_stringBody_medium {s : Bytes} (more : Parser UInt8 Bytes) (hs : s.length < 1024) :
    Reads (readStringBody more (UInt8.ofNat (0x30 + s.length / 256))) (UInt8.ofNat (s.length % 256) :: s) s := by
  have htag : (UInt8.ofNat (0x30 + s.length / 256)).toNat = 0x30 + s.length / 256 := toNat_ofNat_of_lt (by omega)
  have hlow : (UInt8.ofNat (s.length % 256)).toNat = s.length % 256 := toNat_ofNat_of_lt (by omega)
  have hge : (0x30 : UInt8) ≤ UInt8.ofNat (0x30 + s.length / 256) := by
    rw [UInt8.le_iff_toNat_le, htag]
    exact Nat.le_add_right _ _
  have hle : UInt8.ofNat (0x30 + s.length / 256) ≤ 0x33 := by
    rw [UInt8.le_iff_toNat_le, htag]
    change 0x30 + s.length / 256 ≤ 51
    omega
  have hlong : ¬ UInt8.ofNat (0x30 + s.length / 256) < 0x20 := by
    rw [UInt8.lt_iff_toNat_lt, htag]
    change ¬ 0x30 + s.length / 256 < 32
    omega
  have hhigh : (UInt8.ofNat (0x30 + s.length / 256) - 0x30).toNat = s.length / 256 := by
    rw [UInt8.toNat_sub_of_le _ _ hge, htag]
    exact Nat.add_sub_cancel_left _ _
  rw [readStringBody, if_neg hlong, if_pos ⟨hge, hle⟩, hhigh]
  exact (reads_next _).bind (reads_sized (by rw [hlow]; omega))

/-- As many bytes as the two bytes in front of them say. -/
theorem reads_chunk {s : Bytes} (hs : s.length < 65536) :
    Reads (items next ((UInt8.ofNat (s.length / 256)).toNat * 256 + (UInt8.ofNat (s.length % 256)).toNat)) s s := by
  have hhigh : (UInt8.ofNat (s.length / 256)).toNat = s.length / 256 := toNat_ofNat_of_lt (by omega)
  have hlow : (UInt8.ofNat (s.length % 256)).toNat = s.length % 256 := toNat_ofNat_of_lt (by omega)
  exact reads_sized (by rw [hhigh, hlow]; omega)

theorem reads_string {f g : Nat} {s : Bytes} (hf : s.length < f) (hg : s.length < g) :
    Reads (readString g) (hessianString f s) s := by
  induction f generalizing g s with
  | zero => omega
  | succ f ih =>
    obtain ⟨g, rfl⟩ : ∃ k, g = k + 1 := ⟨g - 1, by omega⟩
    unfold hessianString
    split_ifs with h1 h2 h3
    · exact (reads_next _).bind (reads_stringBody_short _ h1)
    · exact (reads_next _).bind (reads_stringBody_medium _ h2)
    · exact (reads_next 0x53).bind ((reads_next _).bind ((reads_next _).bind (reads_chunk h3)))
    · -- a chunk of 65535 bytes, and the rest as a string of its own
      have hlen : (s.take 65535).length = 65535 := by simp only [List.length_take]; omega
      have hchunk := reads_chunk (show (s.take 65535).length < 65536 by omega)
      rw [hlen] at hchunk
      have hrest : Reads (readString g) (hessianString f (s.drop 65535)) (s.drop 65535) :=
        ih (by simp only [List.length_drop]; omega) (by simp only [List.length_drop]; omega)
      have hboth := hrest.map (s.take 65535 ++ ·)
      rw [List.take_append_drop] at hboth
      exact (reads_next 0x52).bind ((reads_next _).bind ((reads_next _).bind (hchunk.bind hboth)))

theorem reads_int (i : Int32) : Reads readInt (hessianInt i) i := by
  unfold hessianInt
  split_ifs with hsmall
  · -- one byte
    have htag : (UInt8.ofNat (0x90 + i.toInt).toNat).toNat = (0x90 + i.toInt).toNat := toNat_ofNat_of_lt (by omega)
    have hrange : 0x80 ≤ UInt8.ofNat (0x90 + i.toInt).toNat ∧ UInt8.ofNat (0x90 + i.toInt).toNat ≤ 0xbf := by
      rw [UInt8.le_iff_toNat_le, UInt8.le_iff_toNat_le, htag]
      change 128 ≤ (0x90 + i.toInt).toNat ∧ (0x90 + i.toInt).toNat ≤ 191
      omega
    have hvalue : Int32.ofInt ((UInt8.ofNat (0x90 + i.toInt).toNat).toNat - 0x90) = i := by
      rw [htag, Int.toNat_of_nonneg (by omega), add_sub_cancel_left, Int32.ofInt_toInt]
    intro rest
    change (if _ then _ else _ : Parser UInt8 Int32).run rest = _
    rw [if_pos hrange, hvalue]
    rfl
  · -- four bytes
    have hvalue : Int32.ofNat (beNat (beBytes 4 i.toUInt32.toNat)) = i := by
      have hlt : i.toUInt32.toNat < 256 ^ 4 := i.toUInt32.toNat_lt
      rw [beNat_beBytes, Nat.mod_eq_of_lt hlt, ← UInt32.toInt32_ofNat', UInt32.ofNat_toNat, Int32.toInt32_toUInt32]
    have hbytes : Reads (items next 4) (beBytes 4 i.toUInt32.toNat) (beBytes 4 i.toUInt32.toNat) :=
      reads_sized (beBytes_length _ _).symm
    have hread := hbytes.map fun bytes => Int32.ofNat (beNat bytes)
    rw [hvalue] at hread
    exact (reads_next 0x49).bind hread

theorem length_le_hessianString {f : Nat} {s : Bytes} (hf : s.length < f) :
    s.length ≤ (hessianString f s).length := by
  induction f generalizing s with
  | zero => omega
  | succ f ih =>
    unfold hessianString
    split_ifs with h1 h2 h3
    · simp only [List.length_cons]; omega
    · simp only [List.length_cons]; omega
    · simp only [List.length_cons]; omega
    · have := ih (s := s.drop 65535) (by simp only [List.length_drop]; omega)
      simp only [List.length_drop, List.length_cons, List.length_append, List.length_take] at this ⊢
      omega

theorem hessianString_start {f : Nat} {s : Bytes} (hf : s.length < f) :
    ∃ b bs, hessianString f s = b :: bs ∧ b ≠ 0x5a := by
  obtain ⟨f, rfl⟩ : ∃ k, f = k + 1 := ⟨f - 1, by omega⟩
  have hne : ∀ n, n < 0x5a → UInt8.ofNat n ≠ 0x5a := by
    intro n hn h
    have := congrArg UInt8.toNat h
    rw [toNat_ofNat_of_lt (by omega)] at this
    change n = 90 at this
    omega
  unfold hessianString
  split_ifs with h1 h2 h3
  · exact ⟨_, _, rfl, hne _ (by omega)⟩
  · exact ⟨_, _, rfl, hne _ (by omega)⟩
  · exact ⟨_, _, rfl, by decide⟩
  · exact ⟨_, _, rfl, by decide⟩

theorem hessianInt_start (i : Int32) : ∃ b bs, hessianInt i = b :: bs ∧ b ≠ 0x4e ∧ b ≠ 0x54 ∧ b ≠ 0x46 := by
  unfold hessianInt
  split_ifs with hsmall
  · have hne : ∀ n, n < 0x80 → UInt8.ofNat (0x90 + i.toInt).toNat ≠ UInt8.ofNat n := by
      intro n hn h
      have := congrArg UInt8.toNat h
      rw [toNat_ofNat_of_lt (by omega), toNat_ofNat_of_lt (by omega)] at this
      omega
    exact ⟨_, _, rfl, hne 0x4e (by decide), hne 0x54 (by decide), hne 0x46 (by decide)⟩
  · exact ⟨_, _, rfl, by decide⟩

theorem scalar_inverts {sent : HessianValue → Prop} (h : ∀ v, sent v → ∃ i, v = .integer i) :
    Inverts scalarEncoder scalarDecoder sent where
  string s := by
    intro rest
    have hlen : s.length ≤ (hessianString (s.length + 1) s).length := length_le_hessianString (Nat.lt_succ_self _)
    refine reads_string (Nat.lt_succ_self _) ?_ rest
    simp only [scalarEncoder, List.length_append]
    omega
  int := reads_int
  object v hv := by
    obtain ⟨i, rfl⟩ := h v hv
    obtain ⟨b, bs, hi, htags⟩ := hessianInt_start i
    intro rest
    have hread := (reads_int i).map HessianValue.integer rest
    have hhead : (hessianInt i ++ rest).head? = some b := by rw [hi]; rfl
    change scalarDecoder.decodeObject (hessianInt i ++ rest) = _
    simp only [scalarDecoder]
    rw [hhead, if_neg (by simp [htags.1]), if_neg (by simp [htags.2.1]), if_neg (by simp [htags.2.2])]
    exact hread
  string_start s := hessianString_start (Nat.lt_succ_self _)
  object_ne v hv := by
    obtain ⟨i, rfl⟩ := h v hv
    obtain ⟨b, bs, hi, -⟩ := hessianInt_start i
    change hessianInt i ≠ []
    rw [hi]
    simp

end EnvoyProxy.Dubbo
