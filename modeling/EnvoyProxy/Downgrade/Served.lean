import EnvoyProxy.Downgrade.Cached
/-!
# Where downgraded responses come from

Runs of streams with the dynamic filter over shared caches.
`inserted_exactly` says what a stream stores, `served_whole` where the
responses come from that the caches give.
-/

namespace EnvoyProxy.Downgrade
open Json Http HeaderMap DowngradeFilter Cache HttpCacheEntry

section Runs
variable {H : Type} [HeaderMap H] {env : FilterEnv} {json : Rapidjson} {caches : Option (List CacheType)}
  {s s' : DynamicStream H} {answer : Answer H}

/-! ## Senders -/

section Senders
variable {E : Type} {names : List Bytes}

theorem lookupCacheOnce_cacheKey {g g' : CacheGetterSetter} {asks : List (Ask E)}
    (h : g.lookupCacheOnce names = .ok (g', asks)) : g'.cacheKey = g.cacheKey := by
  unfold CacheGetterSetter.lookupCacheOnce at h
  split at h
  · cases h; rfl
  split at h
  · cases h; rfl
  split at h
  · cases h
  · cases h; rfl

theorem cacheLookupCallback_cacheKey {g g' : CacheGetterSetter} {entry : Option E} {asks : List (Ask E)}
    (h : g.cacheLookupCallback names entry = .ok (g', asks)) : g'.cacheKey = g.cacheKey := by
  unfold CacheGetterSetter.cacheLookupCallback at h
  split at h
  · cases h; rfl
  cases entry with
  | none => exact lookupCacheOnce_cacheKey (g := g.advance) h
  | some entry => cases h; rfl

theorem sendRequest_cacheKey {key : CacheKeyType} {status : CacheLookupStatus} {sender : CacheRequestSender} {asks : List (Ask E)}
    (h : CacheRequestSender.sendRequest names {} key = .ok (status, sender, asks)) : sender.cacheKey = key := by
  obtain ⟨⟨status', getter, asks'⟩, hlookup, h⟩ := bind_eq_ok h
  cases h
  unfold CacheGetterSetter.lookupCache at hlookup
  split at hlookup
  · cases hlookup; rfl
  · obtain ⟨⟨getter', asks''⟩, honce, hlookup⟩ := bind_eq_ok hlookup
    cases hlookup
    exact lookupCacheOnce_cacheKey honce

omit [HeaderMap H] in
theorem tells_cacheKey (sender : CacheRequestSender) (asks : List (Ask (HttpCacheEntry H))) :
    (tells sender asks).1.cacheKey = sender.cacheKey := by
  unfold tells
  split
  · unfold CacheRequestSender.onSuccess
    split <;> rfl
  · rfl
  · rfl

end Senders

/-! ## What holds in every state -/

/-- The sender of a stream asks for its key, once the response has headers. -/
def DynamicStream.Keyed (s : DynamicStream H) : Prop :=
  ∀ sender, s.sender = some sender → s.cacheKey = some sender.cacheKey ∧ s.arrived ≠ []

/-- A message that one of the streams has stored under a key. -/
def Served (streams : Nat → DynamicStream H) (key : CacheKeyType) (message : ResponseMessage H) : Prop :=
  ∃ j response, (streams j).Whole response ∧ (streams j).cacheKey = some key ∧ SameMessage message response

theorem Moves.cacheKey (h : Moves s s') (harrived : s.arrived ≠ []) : s'.arrived ≠ [] ∧ s'.cacheKey = s.cacheKey := by
  cases h with
  | decoded _ hnil => exact absurd hnil harrived
  | request _ hsame hkey _ => exact ⟨hsame ▸ harrived, hkey⟩
  | arrival _ _ _ happend hkey _ => exact ⟨by simp [happend], hkey harrived⟩
  | event _ _ hsame hkey _ => exact ⟨hsame ▸ harrived, hkey⟩

theorem Served.moves {streams : Nat → DynamicStream H} {i : Nat} (hmoves : Moves (streams i) s) {key : CacheKeyType}
    {message : ResponseMessage H} (h : Served streams key message) : Served (Function.update streams i s) key message := by
  obtain ⟨j, response, hwhole, hkey, hsame⟩ := h
  by_cases hj : j = i
  · subst hj
    obtain ⟨hwhole', hkey'⟩ := hwhole.moves hmoves
    exact ⟨j, response, by rwa [Function.update_self], by rw [Function.update_self, hkey', hkey], hsame⟩
  · exact ⟨j, response, by rwa [Function.update_of_ne hj], by rwa [Function.update_of_ne hj], hsame⟩

namespace DynamicWorld
variable {w w' : DynamicWorld H}

/-- What holds in every state of a run. -/
structure Honest (w : DynamicWorld H) : Prop where
  collected : ∀ i, Collected (w.streams i)
  keyed : ∀ i, (w.streams i).Keyed
  stored : ∀ x ∈ w.stored, ∃ message, x.2.2.cacheMessage = some message ∧ Served w.streams x.1 message
  given : ∀ x ∈ w.given, (w.streams x.1).arrived ≠ [] ∧ ∃ key message, (w.streams x.1).cacheKey = some key ∧
    Served w.streams key message ∧ x.2 = makeMessageCopy message

/-- One stream goes on, and something may be stored and given to it. -/
theorem Honest.next (h : w.Honest) {i : Nat} {s : DynamicStream H} (hmoves : Moves (w.streams i) s) (hkeyed : s.Keyed)
    (stored : List (CacheKeyType × Nat × HttpCacheEntry H)) (given : List (Nat × ResponseMessage H))
    (hstored : ∀ x ∈ stored, s.cacheKey = some x.1 ∧ ∃ response message, response ∈ s.stream.filter.inserted ∧
      x.2.2.cacheMessage = some message ∧ SameMessage message response)
    (hgiven : ∀ x ∈ given, x.1 = i ∧ (w.streams i).arrived ≠ [] ∧ ∃ key message, (w.streams i).cacheKey = some key ∧
      Served w.streams key message ∧ x.2 = makeMessageCopy message) :
    Honest { streams := Function.update w.streams i s, stored := stored ++ w.stored, given := given ++ w.given } where
  collected k := by
    by_cases hk : k = i
    · subst hk
      simp only [Function.update_self]
      exact (h.collected k).moves hmoves
    · simp only [Function.update_of_ne hk]
      exact h.collected k
  keyed k := by
    by_cases hk : k = i
    · subst hk
      simp only [Function.update_self]
      exact hkeyed
    · simp only [Function.update_of_ne hk]
      exact h.keyed k
  stored x hx := by
    rcases List.mem_append.1 hx with hx | hx
    · obtain ⟨hkey, response, message, hinserted, hmessage, hsame⟩ := hstored x hx
      have hwhole := (((h.collected i).moves hmoves).inserted.1 response).1 hinserted
      refine ⟨message, hmessage, i, response, ?_, ?_, hsame⟩
      · simpa only [Function.update_self] using hwhole
      · simpa only [Function.update_self] using hkey
    · obtain ⟨message, hmessage, hserved⟩ := h.stored x hx
      exact ⟨message, hmessage, hserved.moves hmoves⟩
  given x hx := by
    have hold : (w.streams x.1).arrived ≠ [] ∧ ∃ key message, (w.streams x.1).cacheKey = some key ∧
        Served w.streams key message ∧ x.2 = makeMessageCopy message := by
      rcases List.mem_append.1 hx with hx | hx
      · obtain ⟨hi, hrest⟩ := hgiven x hx
        rwa [hi]
      · exact h.given x hx
    obtain ⟨harrived, key, message, hkey, hserved, hcopy⟩ := hold
    by_cases hk : x.1 = i
    · rw [hk] at harrived hkey ⊢
      obtain ⟨harrived', hkey'⟩ := hmoves.cacheKey harrived
      simp only [Function.update_self]
      exact ⟨harrived', key, message, hkey'.trans hkey, hserved.moves hmoves, hcopy⟩
    · simp only [Function.update_of_ne hk]
      exact ⟨harrived, key, message, hkey, hserved.moves hmoves, hcopy⟩

/-- What the caches get is what the filter has inserted. -/
theorem mem_insertions {route : DynamicRouteConfig H} {before : DowngradeFilter H} {now : UInt64}
    {x : CacheKeyType × Nat × HttpCacheEntry H} (h : x ∈ s.insertions caches route before now) :
    s.cacheKey = some x.1 ∧ ∃ response message, response ∈ s.stream.filter.inserted ∧
      x.2.2.cacheMessage = some message ∧ SameMessage message response := by
  unfold DynamicStream.insertions at h
  split at h
  · cases h
  rename_i key hkey
  obtain ⟨response, hresponse, hx⟩ := List.mem_flatMap.1 h
  obtain ⟨⟨level, entry⟩, hentry, rfl⟩ := List.mem_map.1 hx
  refine ⟨hkey, response, ?_⟩
  unfold CacheRequestSender.insertResponse at hentry
  dsimp only at hentry
  split at hentry
  · cases hentry
  obtain ⟨_, -, -, -, copy, hcopy, rfl⟩ := CacheGetterSetter.mem_insertCache hentry
  rcases hcopy with rfl | hcopy
  · exact ⟨response, List.mem_of_mem_drop hresponse, rfl, rfl, rfl⟩
  · cases hcopy
    exact ⟨makeMessageCopy response, List.mem_of_mem_drop hresponse, rfl, makeMessageCopy_same response⟩

/-- A part of a response with the caches: the stream goes on, and what it
inserts is stored. -/
theorem arriveCached_cases {i : Nat} {route : DynamicRouteConfig H} {a : Arrival H} {now : UInt64}
    (h : w.arriveCached env caches i route a now = .ok w') :
    ∃ s, w'.streams = Function.update w.streams i s ∧ w'.given = w.given ∧
      s.stream = (w.streams i).stream.step dynamicDowngrade (lookupAnswer caches) (.arrival a) ∧
      s.arrived = (w.streams i).arrived ++ [a] ∧ s.decoded = (w.streams i).decoded ∧
      ((∀ headers endStream, a ≠ .headers headers endStream) → s.cacheKey = (w.streams i).cacheKey) ∧
      (s.sender = (w.streams i).sender ∨ ∃ sender, s.sender = some sender ∧ s.cacheKey = some sender.cacheKey) ∧
      (w'.stored = w.stored ∨ w'.stored = s.insertions caches route (w.streams i).stream.filter now ++ w.stored) := by
  unfold arriveCached at h
  cases a with
  | headers headers endStream =>
    dsimp only at h
    split at h
    · split at h
      · cases h
      obtain ⟨key, -, h⟩ := bind_eq_ok h
      split at h
      · -- the filter asks the caches
        split at h
        · cases h
        rename_i sender asks hsend
        cases h
        refine ⟨_, rfl, rfl, rfl, rfl, rfl, ?_, .inr ⟨sender, rfl, ?_⟩, .inl rfl⟩
        · intro hne
          exact absurd rfl (hne headers endStream)
        · rw [sendRequest_cacheKey hsend]
      · cases h
        refine ⟨_, rfl, rfl, rfl, rfl, rfl, ?_, .inl rfl, .inr rfl⟩
        intro hne
        exact absurd rfl (hne headers endStream)
    · cases h
      exact ⟨_, rfl, rfl, rfl, rfl, rfl, fun _ => rfl, .inl rfl, .inl rfl⟩
  | data bytes endStream =>
    cases h
    exact ⟨_, rfl, rfl, rfl, rfl, rfl, fun _ => rfl, .inl rfl, .inr rfl⟩
  | trailers =>
    cases h
    exact ⟨_, rfl, rfl, rfl, rfl, rfl, fun _ => rfl, .inl rfl, .inr rfl⟩

/-- What a level finds is a copy of what was inserted. -/
theorem found_copy {type : CacheType} {kept e : HttpCacheEntry H} {response : ResponseMessage H}
    (h : type.found json kept = .ok (some e)) (he : e.cacheMessage = some response) :
    ∃ message, kept.cacheMessage = some message ∧ response = makeMessageCopy message := by
  cases hmessage : kept.cacheMessage with
  | none => cases type <;> simp [CacheType.found, createCopy, serializeAsString, hmessage] at h
  | some message =>
    refine ⟨message, rfl, ?_⟩
    cases type with
    | kLocal =>
      rw [found_local json hmessage] at h
      cases h
      exact (Option.some.inj he).symm
    | kRedis =>
      by_cases hstatus : (status message.headers).isSome
      · rw [found_redis json hmessage hstatus] at h
        cases h
        exact (Option.some.inj he).symm
      · simp only [CacheType.found, serializeAsString_eq json.dtoa, hmessage, Option.map_some] at h
        rw [loadFromString_noStatus json message (by simpa using hstatus)] at h
        cases h
        cases he

/-- A stream that goes on without the caches. -/
theorem Honest.advance (h : w.Honest) {i : Nat} {s : DynamicStream H} (hmoves : Moves (w.streams i) s) (hkeyed : s.Keyed) :
    Honest (w.setStream i s) := h.next hmoves hkeyed [] [] (by simp) (by simp)

/-- A callback that the filter gets, with the sender as it is then. -/
theorem moves_event {e : Event H} {answer : Answer H} {i : Nat} (he : ∀ a, e ≠ .arrival a) (sender : Option CacheRequestSender)
    (waiting : List Nat) :
    Moves (w.streams i) { w.streams i with
      stream := (w.streams i).stream.step dynamicDowngrade answer e, sender, waiting } := .event he rfl rfl rfl rfl

theorem Honest.arriveCached (h : w.Honest) {i : Nat} {route : DynamicRouteConfig H} {a : Arrival H} {now : UInt64}
    (hd : (w.streams i).stream.destroyed = false) (hfollows : Follows (w.streams i).arrived a)
    (hstep : w.arriveCached env caches i route a now = .ok w') : w'.Honest := by
  obtain ⟨s, hstreams, hgiven, hstream, harrived, hdecoded, hkey, hsender, hstored⟩ := arriveCached_cases hstep
  have hmoves : Moves (w.streams i) s := by
    refine .arrival hd hfollows hdecoded harrived ?_ hstream
    intro hne
    apply hkey
    rintro headers endStream rfl
    exact hne hfollows
  have hkeyed : s.Keyed := by
    intro sender hsome
    refine ⟨?_, by simp [harrived]⟩
    rcases hsender with hsame | ⟨sender', hsender', hkey'⟩
    · obtain ⟨hold, hne⟩ := h.keyed i sender (hsame ▸ hsome)
      rw [(hmoves.cacheKey hne).2, hold]
    · rw [hsender'] at hsome
      cases hsome
      exact hkey'
  have hw' : ∀ stored, w'.stored = stored ++ w.stored →
      w' = { streams := Function.update w.streams i s, stored := stored ++ w.stored, given := [] ++ w.given } := by
    intro stored hall
    cases w'
    cases hstreams
    cases hgiven
    cases hall
    rfl
  rcases hstored with hstored | hstored
  · rw [hw' [] hstored]
    exact h.next hmoves hkeyed [] [] (by simp) (by simp)
  · rw [hw' _ hstored]
    exact h.next hmoves hkeyed _ [] (fun x hx => mem_insertions hx) (by simp)

theorem setStream_advance (i : Nat) (s : DynamicStream H) (answer : Answer H) (e : Event H) :
    (w.setStream i s).advance i answer e = w.setStream i { s with stream := s.stream.step dynamicDowngrade answer e } := by
  unfold DynamicWorld.advance setStream
  simp

/-- A level calls its callback. -/
theorem Honest.callback (h : w.Honest) {i level : Nat} {entry : Option (HttpCacheEntry H)}
    (hsched : w.Scheduled json caches (.answer i level entry)) (hstep : w.step env caches (.answer i level entry) = .ok w') :
    w'.Honest := by
  simp only [step] at hstep
  split at hstep
  · cases hstep
  rename_i sender hsender
  split at hstep
  · cases hstep
  rename_i getter asks hcall
  obtain ⟨hkey, harrived⟩ := h.keyed i sender hsender
  have htells : (tells { sender with toCacheGetterSetter := getter } asks).1.cacheKey = sender.cacheKey :=
    (tells_cacheKey _ asks).trans (cacheLookupCallback_cacheKey hcall)
  have hkeyed : ∀ stream waiting, DynamicStream.Keyed { w.streams i with
      stream, sender := some (tells { sender with toCacheGetterSetter := getter } asks).1, waiting } := by
    rintro stream waiting _ ⟨⟩
    exact ⟨by rw [htells, hkey], harrived⟩
  split at hstep
  · cases hstep
    exact h.advance (.request rfl rfl rfl rfl) (hkeyed _ _)
  · cases hstep
    rw [setStream_advance]
    exact h.advance (moves_event (by simp) _ _) (hkeyed _ _)
  · rename_i response htold
    cases hstep
    rw [setStream_advance]
    refine h.next (moves_event (by simp) _ _) (hkeyed _ _) [] [(i, response)] (by simp) ?_
    intro x hx
    cases List.mem_singleton.1 hx
    refine ⟨rfl, harrived, sender.cacheKey, ?_⟩
    obtain ⟨e, rfl, -, -, rfl⟩ | hasks := CacheGetterSetter.cacheLookupCallback_cases hcall
    · obtain ⟨sender', type, kept, hsender', -, hkept, hfound⟩ := hsched.2 e rfl
      rw [hsender] at hsender'
      cases hsender'
      have hmessage : e.cacheMessage = some response := by
        simp only [tells, CacheRequestSender.onSuccess, Option.some.injEq] at htold
        split at htold
        · cases htold
        · rename_i hsome
          cases htold
          exact hsome
      obtain ⟨message, hstored, hcopy⟩ := found_copy hfound hmessage
      obtain ⟨message', hmessage', hserved⟩ := h.stored _ hkept
      rw [hstored] at hmessage'
      cases hmessage'
      exact ⟨message, hkey, hserved, hcopy⟩
    · unfold tells at htold
      split at htold
      · exact absurd rfl (hasks _)
      · cases htold
      · cases htold

theorem Honest.step (h : w.Honest) {e : DynamicEvent H} (hsched : w.Scheduled json caches e)
    (hstep : w.step env caches e = .ok w') : w'.Honest := by
  cases e with
  | decodeHeaders i headers route =>
    cases hstep
    exact h.advance (.decoded hsched.1 hsched.2 rfl hsched.2 rfl) (h.keyed i)
  | decodeData i data =>
    cases hstep
    obtain ⟨bufferedRqxBody, hdata⟩ : ∃ bufferedRqxBody, ((w.streams i).stream.filter.decodeData dynamicDowngrade data).1 =
        { (w.streams i).stream.filter with bufferedRqxBody } := by
      unfold DowngradeFilter.decodeData
      split
      · exact ⟨_, rfl⟩
      · split <;> exact ⟨_, rfl⟩
    exact h.advance (.request rfl rfl rfl (by rw [hdata])) (h.keyed i)
  | setHeaders i headers =>
    cases hstep
    exact h.advance (.request rfl rfl rfl rfl) (h.keyed i)
  | arrival i a answer now =>
    have hfollows : Follows (w.streams i).arrived a := hsched
    simp only [DynamicWorld.step] at hstep
    split at hstep
    · cases hstep
      exact h
    rename_i hd
    rw [Bool.not_eq_true] at hd
    split at hstep
    · exact h.arriveCached hd hfollows hstep
    · have hw' : w' = w.setStream i { w.streams i with
          stream := (w.streams i).stream.step dynamicDowngrade answer (.arrival a)
          arrived := (w.streams i).arrived ++ [a] } := by
        cases hstep
        simp [DynamicWorld.advance, setStream]
      rw [hw']
      refine h.advance (.arrival hd hfollows rfl rfl (fun _ => rfl) rfl) ?_
      intro sender hsender
      exact ⟨(h.keyed i sender hsender).1, by simp⟩
  | answer i level entry => exact h.callback hsched hstep
  | remote i response =>
    cases response with
    | none =>
      cases hstep
      exact h.advance (moves_event (by simp) _ _) (h.keyed i)
    | some response =>
      cases hstep
      exact h.advance (moves_event (by simp) _ _) (h.keyed i)
  | onDestroy i =>
    cases hstep
    rw [setStream_advance]
    refine h.advance (moves_event (by simp) _ _) ?_
    intro sender hsender
    dsimp only at hsender
    split at hsender
    · obtain ⟨sender', hsender', rfl⟩ := Option.map_eq_some_iff.1 hsender
      exact h.keyed i sender' hsender'
    · exact h.keyed i sender hsender

theorem start_honest : Honest ({} : DynamicWorld H) where
  collected _ := collected_start
  keyed _ _ h := by cases h
  stored _ h := by cases h
  given _ h := by cases h

theorem honest_of_reach (h : Reach (step env caches) (Scheduled json caches) ({} : DynamicWorld H) w) : w.Honest :=
  h.invariant Honest start_honest fun _ _ _ hw hsched hstep => hw.step hsched hstep

/-- In every run of any number of streams, whatever their routes, requests
and responses: a stream inserts one response when its own has come to the end
without trailers, and the route says of the request and of the headers that
it is for the caches; this response is the one that came, with all of its
body. No other stream inserts anything. -/
theorem inserted_exactly (h : Reach (step env caches) (Scheduled json caches) ({} : DynamicWorld H) w) (i : Nat) :
    (∀ response, response ∈ (w.streams i).stream.filter.inserted ↔ ∃ headers data,
      (w.streams i).arrived = message headers data false ∧ (w.streams i).Cacheable headers ∧ response = ⟨headers, data.flatten⟩) ∧
      (w.streams i).stream.filter.inserted.length ≤ 1 :=
  ((honest_of_reach h).collected i).inserted

/-- Whatever the caches give to a stream is a response that came to a stream
as a whole, was asked for with the same key, and was good: the body is the
same, the headers are the same in their order but for the two that say how
long the body is, and these say how long it is. -/
theorem served_whole (h : Reach (step env caches) (Scheduled json caches) ({} : DynamicWorld H) w) :
    ∀ x ∈ w.given, ∃ key j headers data, (w.streams x.1).cacheKey = some key ∧ (w.streams j).cacheKey = some key ∧
      (w.streams j).arrived = message headers data false ∧ (w.streams j).Cacheable headers ∧
      x.2.body = data.flatten ∧ (iterate x.2.headers).filter isKept = (iterate headers).filter isKept ∧
      HeaderMap.get x.2.headers (headerName "transfer-encoding") = [] ∧
      HeaderMap.get x.2.headers (headerName "content-length") =
        [⟨headerName "content-length", headerNumber data.flatten.length⟩] := by
  intro x hx
  obtain ⟨-, key, message, hkey, ⟨j, response, hwhole, hkey', hbody, hheaders⟩, hcopy⟩ := (honest_of_reach h).given x hx
  obtain ⟨headers, data, harrived, hcacheable, rfl⟩ := hwhole
  refine ⟨key, j, headers, data, hkey, hkey', harrived, hcacheable, ?_⟩
  rw [hcopy, makeMessageCopy_eq]
  refine ⟨hbody, ?_, get_transferEncoding_normalize _ _, ?_⟩
  · dsimp only
    rw [filter_isKept_normalize, iterate_copyFrom, hheaders]
  · have hlength : message.body = data.flatten := hbody
    rw [← hlength]
    exact get_contentLength_normalize _ _

end DynamicWorld

end Runs

/-! ## Two streams -/

/-- Responses with the status 500 are downgraded, those with 200 are kept. -/
def keepingRoute : DynamicRouteConfig HeaderList where
  downgradeRpx := [fun headers => getStatusValue headers = ascii "500"]
  downgradeWithCache := true
  cacheRpxRpx := [fun headers => getStatusValue headers = ascii "200"]
  cacheTtls := [(ascii "LocalCache", ⟨60, []⟩)]

def statusHeaders (status : String) : HeaderList := [⟨headerName ":status", headerValue status⟩]

/-- Headers alone are a response. -/
theorem headers_inserted :
    ∃ w, Reach (DynamicWorld.step plainEnv (some [.kLocal])) (DynamicWorld.Scheduled bitsJson (some [.kLocal]))
        ({} : DynamicWorld HeaderList) w ∧ ⟨statusHeaders "200", []⟩ ∈ (w.streams 0).stream.filter.inserted := by
  have h₁ := reach_start (DynamicWorld.step plainEnv (some [.kLocal])) (DynamicWorld.Scheduled bitsJson (some [.kLocal]))
    ({} : DynamicWorld HeaderList)
  have h₂ := h₁.next (e := .decodeHeaders 0 (plainRequest "GET" "h" "/").headers (some keepingRoute)) (by exact ⟨rfl, rfl⟩) rfl
  have h₃ := h₂.next (e := .arrival 0 (.headers (statusHeaders "200") true) ⟨.FAILED, none⟩ 1000) (by exact rfl) rfl
  exact ⟨_, h₃, ((DynamicWorld.inserted_exactly h₃ 0).1 _).2 ⟨statusHeaders "200", [], rfl, ⟨_, _, rfl, rfl, rfl, rfl⟩, rfl⟩⟩

/-- A response in two frames is stored, and the next one is downgraded to
it. -/
theorem downgraded_to_first :
    ∃ w, Reach (DynamicWorld.step plainEnv (some [.kLocal])) (DynamicWorld.Scheduled bitsJson (some [.kLocal]))
        ({} : DynamicWorld HeaderList) w ∧
      ∃ x ∈ w.given, x.1 = 1 ∧ ∃ j headers data, (w.streams j).arrived = message headers data false ∧
        (w.streams j).Cacheable headers ∧ x.2.body = data.flatten := by
  have h₁ := reach_start (DynamicWorld.step plainEnv (some [.kLocal])) (DynamicWorld.Scheduled bitsJson (some [.kLocal]))
    ({} : DynamicWorld HeaderList)
  have h₂ := h₁.next (e := .decodeHeaders 0 (plainRequest "GET" "h" "/").headers (some keepingRoute)) (by exact ⟨rfl, rfl⟩) rfl
  have h₃ := h₂.next (e := .arrival 0 (.headers (statusHeaders "200") false) ⟨.FAILED, none⟩ 1000) (by exact rfl) rfl
  have h₄ := h₃.next (e := .arrival 0 (.data [1, 2] false) ⟨.FAILED, none⟩ 1000) (by
    show Follows [.headers (statusHeaders "200") false] (.data [1, 2] false)
    exact ⟨by simp, by simp [Arrival.ends]⟩) rfl
  have h₅ := h₄.next (e := .arrival 0 (.data [3] true) ⟨.FAILED, none⟩ 1000) (by
    show Follows [.headers (statusHeaders "200") false, .data [1, 2] false] (.data [3] true)
    exact ⟨by simp, by simp [Arrival.ends]⟩) rfl
  have h₆ := h₅.next (e := .decodeHeaders 1 (plainRequest "GET" "h" "/").headers (some keepingRoute)) (by exact ⟨rfl, rfl⟩) rfl
  have h₇ := h₆.next (e := .arrival 1 (.headers (statusHeaders "500") false) ⟨.FAILED, none⟩ 2000) (by exact rfl) rfl
  have h₈ := h₇.next (e := .answer 1 0 (some (.new (makeMessageCopy ⟨statusHeaders "200", [1, 2, 3]⟩) 0))) (by
    refine ⟨List.mem_singleton.2 rfl, ?_⟩
    rintro e ⟨⟩
    exact ⟨_, .kLocal, _, rfl, rfl, List.mem_cons_self, rfl⟩) rfl
  obtain ⟨-, j, headers, data, -, -, harrived, hcacheable, hbody, -⟩ := DynamicWorld.served_whole h₈ _ List.mem_cons_self
  exact ⟨_, h₈, _, List.mem_cons_self, rfl, j, headers, data, harrived, hcacheable, hbody⟩

end EnvoyProxy.Downgrade
