import EnvoyProxy.Cache.Lru
import EnvoyProxy.Http.Headers
import EnvoyProxy.Lib.JsonReader
/-!
# Cached responses

`HttpCacheEntry` (http_cache_entry.h) and `makeMessageCopy` (proxy_base.cc).
A level in memory hands out copies of a message; the Redis level keeps its
JSON text and builds a message from it. `levels_agree`: the two give the same
message, with the same normalised headers.
-/

namespace EnvoyProxy.Cache
open Json Http HeaderMap

variable {H : Type} [HeaderMap H]

structure HttpCacheEntry (H : Type) where
  cacheMessage : Option (ResponseMessage H) := none
  cacheExpire : UInt64 := 0
  cacheLength : UInt64 := 0

/-- `removeTransferEncoding` and `setContentLength`. -/
def normalize (headers : H) (length : Nat) : H := setContentLength (removeTransferEncoding headers) length

def makeMessageCopy (message : ResponseMessage H) : ResponseMessage H :=
  let headers : H := copyFrom (iterate message.headers)
  if message.body.length ≤ 0 then ⟨normalize headers 0, []⟩
  else ⟨normalize headers message.body.length, message.body⟩

namespace HttpCacheEntry

def new (message : ResponseMessage H) (expire : UInt64) : HttpCacheEntry H where
  cacheMessage := some message
  cacheExpire := expire
  cacheLength := UInt64.ofNat (byteSize message.headers + message.body.length)

instance : CacheEntry (HttpCacheEntry H) where
  cacheLength := cacheLength
  cacheExpire := cacheExpire
  createCopy e := e.cacheMessage.map fun message => new (makeMessageCopy message) 0

/-! ## The text -/

def headersToJson (w : Writer) (e : HeaderEntry) : Writer := (w.string e.key.bytes).string e.value.bytes

def serializeAsString (e : HttpCacheEntry H) : Option Bytes :=
  e.cacheMessage.map fun message =>
    let writer := (Writer.new.startObject.string (ascii "headers")).startObject
    let writer := ((iterate message.headers).foldl headersToJson writer).endObject
    ((writer.string (ascii "rawbody")).string message.body).endObject.out

/-- What rapidjson asserts. -/
inductive LoadFault
  | notAnObject
  | notAString
  deriving DecidableEq, Repr

/-- Name and value are read as C strings. -/
def loadHeader (headers : H) (member : Bytes × Value) : Except LoadFault H :=
  match member.2 with
  | .string value => .ok (addCopy headers (.ofCString member.1) (.ofCString value))
  | _ => .error .notAString

/-- The headers of the member `headers`, if there is one. -/
def loadHeaders (members : List (Bytes × Value)) : Except LoadFault H :=
  match members.lookup (ascii "headers") with
  | none => .ok create
  | some (.object headers) => headers.foldlM loadHeader create
  | some _ => .error .notAnObject

/-- The bytes of the member `rawbody`, if there is one. -/
def loadBody (members : List (Bytes × Value)) : Except LoadFault Bytes :=
  match members.lookup (ascii "rawbody") with
  | none => .ok []
  | some (.string body) => .ok body
  | some _ => .error .notAString

/-- `loadFromString` on a new entry. -/
def loadFromString (json : Rapidjson) (raw : Bytes) : Except LoadFault (HttpCacheEntry H) :=
  if raw = [] then .ok {}
  else
    match json.parse raw with
    | none => .ok {}
    | some (.object members) => do
      let headers : H ← loadHeaders members
      if iterate headers = [] ∨ (status headers).isNone then return {}
      else do
        let body ← loadBody members
        return { cacheMessage := some ⟨normalize headers body.length, body⟩ }
    | some _ => .error .notAnObject

/-! ## The text is read back -/

theorem makeMessageCopy_eq (message : ResponseMessage H) :
    makeMessageCopy message = ⟨normalize (copyFrom (iterate message.headers)) message.body.length,
    message.body⟩ := by
  rcases hb : message.body with _ | ⟨b, body⟩
  · simp [makeMessageCopy, hb]
  · simp [makeMessageCopy, hb]

/-- A message as a JSON value. -/
def document (message : ResponseMessage H) : Value :=
  .object [(ascii "headers", .object ((iterate message.headers).map fun e => (e.key.bytes, .string e.value.bytes))),
    (ascii "rawbody", .string message.body)]

/-- It holds strings only. -/
theorem noDoubles_document (message : ResponseMessage H) : (document message).NoDoubles := by
  have hheaders : ∀ es : List HeaderEntry, Value.NoDoublesMembers (es.map fun e => (e.key.bytes, .string e.value.bytes)) := by
    intro es
    induction es with
    | nil => trivial
    | cons e es ih => exact ⟨trivial, ih⟩
  exact ⟨hheaders _, trivial, trivial⟩

theorem memberTexts_string (dtoa : UInt64 → Bytes) (es : List HeaderEntry) :
    Value.memberTexts dtoa (es.map fun e => (e.key.bytes, .string e.value.bytes)) =
      es.map fun e => (e.key.bytes, quote e.value.bytes) := by
  induction es with
  | nil => rfl
  | cons e es ih => simp only [List.map_cons, Value.memberTexts, Value.text, ih]

theorem foldl_headersToJson (es : List HeaderEntry) (w : Writer) :
    es.foldl headersToJson w = (es.map fun e => (e.key.bytes, quote e.value.bytes)).foldl Writer.member w := by
  rw [List.foldl_map]
  rfl

theorem serializeAsString_eq (dtoa : UInt64 → Bytes) (e : HttpCacheEntry H) :
    e.serializeAsString = e.cacheMessage.map fun message => (document message).text dtoa := by
  rcases e with ⟨_ | message, expire, length⟩
  · rfl
  · simp only [serializeAsString, Option.map_some, Option.some.injEq]
    rw [foldl_headersToJson, Writer.emit_object]
    have hobject := Writer.emit_object Writer.new
      [(ascii "headers", objectText ((iterate message.headers).map fun e => (e.key.bytes, quote e.value.bytes))),
        (ascii "rawbody", quote message.body)]
    have hout := congrArg Writer.out hobject
    rw [Writer.new_emit] at hout
    simp only [document, Value.text, Value.memberTexts, memberTexts_string]
    exact hout

theorem loadHeaders_document (es : List HeaderEntry) (m : H) :
    (es.map fun e => (e.key.bytes, Value.string e.value.bytes)).foldlM loadHeader m =
      .ok (es.foldl (fun m e => addCopy m e.key e.value) m) := by
  induction es generalizing m with
  | nil => rfl
  | cons e es ih =>
    simp only [List.map_cons, List.foldlM_cons, loadHeader, LowerCaseString.ofCString_bytes,
      HeaderString.ofCString_bytes, ok_bind, List.foldl_cons, ih]

/-- Loading the text of a message gives the copy of it. -/
theorem loadFromString_document (json : Rapidjson) (message : ResponseMessage H)
    (hstatus : (status message.headers).isSome) :
    loadFromString json ((document message).text json.dtoa) =
      .ok { cacheMessage := some (makeMessageCopy message) } := by
  have hread := json.parse_text (document message) (noDoubles_document message)
  have hraw : (document message).text json.dtoa ≠ [] := by simp [document, Value.text, objectText]
  have hheaders : loadHeaders [(ascii "headers", .object ((iterate message.headers).map fun e =>
      (e.key.bytes, .string e.value.bytes))), (ascii "rawbody", .string message.body)] =
      .ok (copyFrom (iterate message.headers) : H) := loadHeaders_document (iterate message.headers) create
  have hstatus' : (status (copyFrom (iterate message.headers) : H)).isSome := by
    rw [status_congr (iterate_copyFrom message.headers)]
    exact hstatus
  have hne : iterate (copyFrom (iterate message.headers) : H) ≠ [] := by
    intro hnil
    rw [iterate_copyFrom] at hnil
    simp [status, HeaderMap.get, hnil] at hstatus
  have hgood : ¬ (iterate (copyFrom (iterate message.headers) : H) = [] ∨
      (status (copyFrom (iterate message.headers) : H)).isNone = true) := by
    rw [not_or, Option.isNone_eq_false_iff.2 hstatus']
    exact ⟨hne, by simp⟩
  have hbody : loadBody [(ascii "headers", .object ((iterate message.headers).map fun e =>
      (e.key.bytes, .string e.value.bytes))), (ascii "rawbody", .string message.body)] = .ok message.body := rfl
  rw [loadFromString, if_neg hraw, hread, makeMessageCopy_eq]
  simp only [document, hheaders, hbody, ok_bind, pure_ok, if_neg hgood]

/-! ## The two levels agree -/

/-- A header that normalising leaves alone. -/
def isKept (e : HeaderEntry) : Bool := e.key ≠ headerName "transfer-encoding" && e.key ≠ headerName "content-length"

/-- Of the other headers nothing changes. -/
theorem filter_isKept_normalize (headers : H) (length : Nat) :
    (iterate (normalize headers length)).filter isKept = (iterate headers).filter isKept := by
  have hsplit : ∀ l : List HeaderEntry, l.filter isKept =
      (l.filter (·.key ≠ headerName "content-length")).filter (·.key ≠ headerName "transfer-encoding") := by
    intro l
    rw [List.filter_filter]
    rfl
  rw [hsplit, normalize, setContentLength, iterate_set_ne, removeTransferEncoding, iterate_remove, ← hsplit,
    List.filter_filter]
  apply List.filter_congr
  intro e _
  by_cases he : e.key = headerName "transfer-encoding"
  · simp [isKept, he]
  · simp [isKept, he]

theorem get_transferEncoding_normalize (headers : H) (length : Nat) :
    get (normalize headers length) (headerName "transfer-encoding") = [] := by
  rw [normalize, setContentLength, get_set_ne _ _ (by decide), removeTransferEncoding, get_remove]

theorem get_contentLength_normalize (headers : H) (length : Nat) :
    get (normalize headers length) (headerName "content-length") =
      [⟨headerName "content-length", headerNumber length⟩] := get_set _ _ _

theorem filter_makeMessageCopy (message : ResponseMessage H) :
    (iterate (makeMessageCopy message).headers).filter isKept = (iterate message.headers).filter isKept := by
  rw [makeMessageCopy_eq]
  dsimp only
  rw [filter_isKept_normalize, iterate_copyFrom]

/-- The copy in memory and the message loaded from the text are the same:
the body, and the headers in their order, but for the two that say how long
the body is. -/
theorem levels_agree (json : Rapidjson) (message : ResponseMessage H) (hstatus : (status message.headers).isSome)
    (expire : UInt64) :
    ∃ copy raw, createCopy (new message expire) = some (new copy 0) ∧
      (new message expire).serializeAsString = some raw ∧
      loadFromString json raw = .ok { cacheMessage := some copy } ∧
      copy.body = message.body ∧
      (iterate copy.headers).filter isKept = (iterate message.headers).filter isKept ∧
      get copy.headers (headerName "transfer-encoding") = [] ∧
      get copy.headers (headerName "content-length") =
        [⟨headerName "content-length", headerNumber message.body.length⟩] := by
  have hload := loadFromString_document json message hstatus
  refine ⟨makeMessageCopy message, _, rfl, serializeAsString_eq json.dtoa (new message expire), hload, ?_⟩
  rw [makeMessageCopy_eq]
  refine ⟨rfl, ?_, get_transferEncoding_normalize _ _, get_contentLength_normalize _ _⟩
  dsimp only
  rw [filter_isKept_normalize, iterate_copyFrom]

/-- A chunked response with a repeated header. -/
theorem chunked_levels_agree :
    ∃ copy raw, createCopy (new (H := HeaderList) ⟨[⟨headerName ":status", headerValue "200"⟩,
          ⟨headerName "set-cookie", headerValue "a"⟩, ⟨headerName "transfer-encoding", headerValue "chunked"⟩,
          ⟨headerName "set-cookie", headerValue "b"⟩], [0, 34, 255]⟩ 7) = some (new copy 0) ∧
      loadFromString bitsJson raw = .ok { cacheMessage := some copy } ∧
      (iterate copy.headers).filter isKept = [⟨headerName ":status", headerValue "200"⟩,
        ⟨headerName "set-cookie", headerValue "a"⟩, ⟨headerName "set-cookie", headerValue "b"⟩] := by
  obtain ⟨copy, raw, hcopy, -, hload, -, hkept, -⟩ := levels_agree (H := HeaderList) bitsJson
    ⟨[⟨headerName ":status", headerValue "200"⟩, ⟨headerName "set-cookie", headerValue "a"⟩,
      ⟨headerName "transfer-encoding", headerValue "chunked"⟩, ⟨headerName "set-cookie", headerValue "b"⟩],
      [0, 34, 255]⟩ (by decide) 7
  refine ⟨copy, raw, hcopy, hload, ?_⟩
  rw [hkept]
  decide

end HttpCacheEntry

end EnvoyProxy.Cache
