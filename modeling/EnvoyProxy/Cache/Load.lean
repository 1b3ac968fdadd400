import EnvoyProxy.Cache.Entry
/-!
# What is found in Redis

`HttpCacheEntryBase::loadFromString` (http_cache_entry.h) for both kinds of
messages, on any string at all. Only the text is checked to be JSON: a
document that is no object, or has something else where an object or a string
is expected, makes rapidjson read one kind of value as another.
`loadFromString_accepts_iff` says which strings are safe.
-/

namespace EnvoyProxy.Cache
open Json Http HeaderMap HttpCacheEntry

/-- The instances of the template. -/
inductive MessageKind
  | request
  | response
  deriving DecidableEq, Repr

/-- `Host()`, `Path()` and `Method()`, or `Status()`. -/
def MessageKind.required : MessageKind → List LowerCaseString
  | .request => [headerName ":authority", headerName ":path", headerName ":method"]
  | .response => [headerName ":status"]

section Load
variable {H : Type} [HeaderMap H] (kind : MessageKind) (json : Rapidjson)

/-- A message cannot have these headers only. -/
def incomplete (headers : H) : Bool := (iterate headers).isEmpty || kind.required.any fun name => (HeaderMap.get headers name).isEmpty

def HttpCacheEntryBase.loadFromString (raw : Bytes) : Except LoadFault (HttpCacheEntry H) :=
  if raw = [] then .ok {}
  else
    match json.parse raw with
    | none => .ok {}
    | some (.object members) => do
      let headers : H ← loadHeaders members
      if incomplete kind headers then return {}
      else do
        let body ← loadBody members
        return { cacheMessage := some ⟨normalize headers body.length, body⟩ }
    | some _ => .error .notAnObject

/-- A cached response is loaded so. -/
theorem loadFromString_response (raw : Bytes) :
    HttpCacheEntryBase.loadFromString .response json raw =
    (HttpCacheEntry.loadFromString json raw : Except LoadFault (HttpCacheEntry H)) := by
  have hincomplete : ∀ headers : H, incomplete .response headers = true ↔ iterate headers = [] ∨
      (status headers).isNone = true := by
    intro headers
    unfold incomplete MessageKind.required status
    rw [Bool.or_eq_true, List.isEmpty_iff]
    apply or_congr_right
    cases hget : HeaderMap.get headers (headerName ":status") <;> simp [hget]
  unfold HttpCacheEntryBase.loadFromString HttpCacheEntry.loadFromString
  by_cases hraw : raw = []
  · rw [if_pos hraw, if_pos hraw]
  · rw [if_neg hraw, if_neg hraw]
    cases json.parse raw with
    | none => rfl
    | some v =>
      cases v with
      | object members =>
        apply bind_congr
        intro headers
        exact if_congr (hincomplete headers) rfl rfl
      | _ => rfl

/-! ## What a document gives -/

/-- The members of `headers` are these, names in small letters. -/
def GivesHeaders (members : List (Bytes × Value)) (entries : List HeaderEntry) : Prop :=
  match members.lookup (ascii "headers") with
  | none => entries = []
  | some (.object headers) =>
    List.Forall₂ (fun (m : Bytes × Value) (e : HeaderEntry) => e.key.bytes = toLower m.1 ∧ m.2 = .string e.value.bytes) headers entries
  | some _ => False

/-- The text of `rawbody` is this. -/
def GivesBody (members : List (Bytes × Value)) (body : Bytes) : Prop :=
  match members.lookup (ascii "rawbody") with
  | none => body = []
  | some (.string text) => body = text
  | some _ => False

/-- The string is loaded, as no message or as the one it gives. -/
def Accepts (H : Type) [HeaderMap H] (raw : Bytes) : Prop :=
  ∃ e : HttpCacheEntry H, HttpCacheEntryBase.loadFromString kind json raw = .ok e ∧
    ∀ message, e.cacheMessage = some message → ∃ members entries, json.parse raw = some (.object members) ∧
      GivesHeaders members entries ∧ GivesBody members message.body ∧
      message.headers = normalize (copyFrom entries) message.body.length

/-! ## What is read -/

/-- A member of `headers`, as C strings. -/
def headerEntry : Bytes × Value → Option HeaderEntry
  | (name, .string value) => some ⟨.ofCString name, .ofCString value⟩
  | _ => none

/-- The headers as they are read. -/
def headerEntries (members : List (Bytes × Value)) : List HeaderEntry :=
  match members.lookup (ascii "headers") with
  | some (.object headers) => headers.filterMap headerEntry
  | _ => []

/-- `headers` is an object of strings, if it is there. -/
def HeadersReadable (members : List (Bytes × Value)) : Prop :=
  match members.lookup (ascii "headers") with
  | none => True
  | some (.object headers) => ∀ m ∈ headers, ∃ value, m.2 = .string value
  | some _ => False

/-- `rawbody` is a string, if it is there. -/
def BodyReadable (members : List (Bytes × Value)) : Prop :=
  match members.lookup (ascii "rawbody") with
  | none => True
  | some (.string _) => True
  | some _ => False

/-- No header has a NUL byte. -/
def HeadersNoNul (members : List (Bytes × Value)) : Prop :=
  ∀ headers, members.lookup (ascii "headers") = some (.object headers) → ∀ name value, (name, .string value) ∈ headers →
    0 ∉ name ∧ 0 ∉ value

/-- The document may be read as it is. -/
def Readable (H : Type) [HeaderMap H] (raw : Bytes) : Prop :=
  raw = [] ∨
    match json.parse raw with
    | none => True
    | some (.object members) => HeadersReadable members ∧
        (incomplete kind (copyFrom (headerEntries members) : H) = false → BodyReadable members ∧ HeadersNoNul members)
    | some _ => False

theorem foldlM_loadHeader {headers : List (Bytes × Value)}
    (h : ∀ m ∈ headers, ∃ value, m.2 = .string value) (init : H) :
    headers.foldlM loadHeader init =
      .ok ((headers.filterMap headerEntry).foldl (fun m e => addCopy m e.key e.value) init) := by
  induction headers generalizing init with
  | nil => rfl
  | cons m headers ih =>
    obtain ⟨hm, hheaders⟩ := List.forall_mem_cons.1 h
    obtain ⟨name, v⟩ := m
    obtain ⟨value, rfl⟩ : ∃ value, v = .string value := hm
    rw [List.foldlM_cons, loadHeader, ok_bind, ih hheaders]
    rfl

theorem foldlM_loadHeader_error {headers : List (Bytes × Value)}
    (h : ¬ ∀ m ∈ headers, ∃ value, m.2 = .string value) (init : H) :
    headers.foldlM loadHeader init = .error .notAString := by
  induction headers generalizing init with
  | nil => exact absurd (by simp) h
  | cons m headers ih =>
    rw [List.foldlM_cons]
    by_cases hm : ∃ value, m.2 = .string value
    · obtain ⟨name, v⟩ := m
      obtain ⟨value, rfl⟩ : ∃ value, v = .string value := hm
      rw [loadHeader, ok_bind]
      apply ih
      exact fun hall => h (List.forall_mem_cons.2 ⟨⟨value, rfl⟩, hall⟩)
    · have hfault : loadHeader init m = .error .notAString := by
        unfold loadHeader
        split
        · exact absurd ⟨_, by assumption⟩ hm
        · rfl
      rw [hfault, error_bind]

theorem loadHeaders_ok {members : List (Bytes × Value)} (h : HeadersReadable members) :
    loadHeaders members = .ok (copyFrom (headerEntries members) : H) := by
  unfold HeadersReadable at h
  unfold loadHeaders headerEntries
  split at h
  · rename_i hnone
    rw [hnone]
    rfl
  · rename_i headers hobject
    rw [hobject]
    exact foldlM_loadHeader h create
  · exact h.elim

theorem loadHeaders_error {members : List (Bytes × Value)} (h : ¬ HeadersReadable members) :
    ∃ fault, loadHeaders members = (.error fault : Except LoadFault H) := by
  unfold HeadersReadable at h
  unfold loadHeaders
  cases hlookup : members.lookup (ascii "headers") with
  | none =>
    rw [hlookup] at h
    exact absurd trivial h
  | some v =>
    rw [hlookup] at h
    cases v with
    | object headers => exact ⟨_, foldlM_loadHeader_error h create⟩
    | _ => exact ⟨_, rfl⟩

/-- The bytes of `rawbody`, or none. -/
theorem loadBody_cases (members : List (Bytes × Value)) :
    (BodyReadable members ∧ ∃ body, loadBody members = .ok body ∧ GivesBody members body) ∨
      (¬ BodyReadable members ∧ ∃ fault, loadBody members = .error fault) := by
  unfold BodyReadable loadBody GivesBody
  cases members.lookup (ascii "rawbody") with
  | none => exact .inl ⟨trivial, [], rfl, rfl⟩
  | some v =>
    cases v with
    | string text => exact .inl ⟨trivial, text, rfl, rfl⟩
    | _ => exact .inr ⟨not_false, .notAString, rfl⟩

/-! ## Which strings are safe -/

theorem noNul_of_toLower {s : Bytes} (h : 0 ∉ toLower s) : 0 ∉ s := by
  intro hzero
  exact h (List.mem_map.2 ⟨0, hzero, rfl⟩)

/-- Without NUL bytes a member is read as it stands there. -/
theorem headerEntry_given {m : Bytes × Value} {e : HeaderEntry} (hname : e.key.bytes = toLower m.1)
    (hvalue : m.2 = .string e.value.bytes) :
    headerEntry m = some e ∧ 0 ∉ m.1 ∧ ∀ value, m.2 = .string value → 0 ∉ value := by
  obtain ⟨name, v⟩ := m
  obtain rfl : v = .string e.value.bytes := hvalue
  have hnul : 0 ∉ name := by
    apply noNul_of_toLower
    rw [← hname]
    exact e.key.noNul
  have hkey : LowerCaseString.ofCString name = e.key := by
    ext1
    simp only [LowerCaseString.ofCString, cString_of_noNul hnul, hname]
  refine ⟨?_, hnul, ?_⟩
  · rw [headerEntry, hkey, HeaderString.ofCString_bytes]
  · rintro value ⟨⟩
    exact e.value.noNul

/-- What the document gives is what is read, if no header has a NUL byte. -/
theorem givesHeaders_iff {members : List (Bytes × Value)} {entries : List HeaderEntry} :
    GivesHeaders members entries ↔ HeadersReadable members ∧ HeadersNoNul members ∧
    entries = headerEntries members := by
  unfold GivesHeaders HeadersReadable HeadersNoNul headerEntries
  cases members.lookup (ascii "headers") with
  | none => simp
  | some v =>
    cases v with
    | object headers =>
      dsimp only
      constructor
      · intro h
        induction h with
        | nil => simp
        | cons hm _ ih =>
          obtain ⟨hread, hnul, hentries⟩ := ih
          obtain ⟨hentry, hname, hvalue⟩ := headerEntry_given hm.1 hm.2
          refine ⟨List.forall_mem_cons.2 ⟨⟨_, hm.2⟩, hread⟩, ?_, ?_⟩
          · rintro _ ⟨⟩ name value hmem
            rcases List.mem_cons.1 hmem with rfl | hmem
            · exact ⟨hname, hvalue value rfl⟩
            · exact hnul _ rfl name value hmem
          · rw [List.filterMap_cons_some hentry, hentries]
      · rintro ⟨hread, hnul, rfl⟩
        induction headers with
        | nil => exact .nil
        | cons m headers ih =>
          obtain ⟨⟨value, hvalue⟩, hrest⟩ := List.forall_mem_cons.1 hread
          obtain ⟨name, v⟩ := m
          obtain rfl : v = .string value := hvalue
          obtain ⟨hname, htext⟩ := hnul _ rfl name value List.mem_cons_self
          have hentry : headerEntry (name, .string value) = some ⟨.ofCString name, .ofCString value⟩ := rfl
          rw [List.filterMap_cons_some hentry]
          refine .cons ⟨?_, ?_⟩ (ih hrest ?_)
          · simp only [LowerCaseString.ofCString, cString_of_noNul hname]
          · simp only [HeaderString.ofCString, cString_of_noNul htext]
          · rintro _ ⟨⟩ name' value' hmem
            exact hnul _ rfl name' value' (List.mem_cons_of_mem _ hmem)
    | _ => simp

/-- A string is loaded as what it gives exactly if it is empty, or no JSON, or
an object whose `headers` are an object of strings; and, if they are enough
for a message, whose `rawbody` is a string and whose headers have no NUL
byte. -/
theorem loadFromString_accepts_iff (raw : Bytes) : Accepts kind json H raw ↔ Readable kind json H raw := by
  unfold Accepts Readable HttpCacheEntryBase.loadFromString
  by_cases hraw : raw = []
  · simp [hraw]
  simp only [hraw, if_false, false_or]
  cases hread : json.parse raw with
  | none => simp
  | some v =>
    cases v with
    | object members =>
      dsimp only
      by_cases hheaders : HeadersReadable members
      · rw [loadHeaders_ok hheaders, ok_bind]
        by_cases hincomplete : incomplete kind (copyFrom (headerEntries members) : H) = true
        · -- no message
          simp [hincomplete, hheaders, pure_ok]
        · rw [if_neg hincomplete]
          rw [Bool.not_eq_true] at hincomplete
          rcases loadBody_cases members with ⟨hbody, body, hload, hgives⟩ | ⟨hbody, fault, hload⟩
          · rw [hload, ok_bind, pure_ok]
            constructor
            · rintro ⟨_, ⟨⟩, hmessage⟩
              obtain ⟨members', entries, hmembers, hentries, -⟩ := hmessage _ rfl
              obtain rfl : members = members' := by simpa using hmembers
              exact ⟨hheaders, fun _ => ⟨hbody, (givesHeaders_iff.1 hentries).2.1⟩⟩
            · rintro ⟨-, hgood⟩
              refine ⟨_, rfl, ?_⟩
              rintro _ ⟨⟩
              exact ⟨members, headerEntries members, rfl, givesHeaders_iff.2
                ⟨hheaders, (hgood hincomplete).2, rfl⟩, hgives, rfl⟩
          · rw [hload, error_bind]
            constructor
            · rintro ⟨_, ⟨⟩, -⟩
            · rintro ⟨-, hgood⟩
              exact absurd (hgood hincomplete).1 hbody
      · obtain ⟨fault, hload⟩ := loadHeaders_error (H := H) hheaders
        rw [hload, error_bind]
        constructor
        · rintro ⟨_, ⟨⟩, -⟩
        · exact fun h => absurd h.1 hheaders
    | _ => simp

end Load

/-- An empty array is JSON, and no object. -/
theorem array_not_accepted :
    (HttpCacheEntryBase.loadFromString .response bitsJson (ascii "[]") : Except LoadFault (HttpCacheEntry HeaderList)) =
        .error .notAnObject ∧ ¬ Accepts .response bitsJson HeaderList (ascii "[]") := by
  have hread : bitsJson.parse (ascii "[]") = some (.array []) := rfl
  have hload : (HttpCacheEntryBase.loadFromString .response bitsJson (ascii "[]") : Except LoadFault (HttpCacheEntry HeaderList)) =
      .error .notAnObject := by
    unfold HttpCacheEntryBase.loadFromString
    rw [if_neg (by decide), hread]
  refine ⟨hload, ?_⟩
  rintro ⟨e, he, -⟩
  rw [hload] at he
  cases he

end EnvoyProxy.Cache
