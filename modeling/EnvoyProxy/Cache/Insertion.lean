import EnvoyProxy.Cache.Sender
/-!
# The loop of an insertion

`CacheGetterSetter::insertCache` (cache_request_sender.cc), with the levels it
changes and the pointer it moves from. `insertLevels_eq`: the pointer is null
only after the last round, and the levels are changed by the insertions of
`CacheGetterSetter.insertCache`. A level is anything that entries can be
inserted into.
-/

namespace EnvoyProxy.Cache
open Http HeaderMap HttpCacheEntry

/-- What the loop could run into: `createCopy` on a pointer that was moved
from, or `used_caches_[i]` out of range. -/
inductive InsertFault
  | movedFrom
  | outOfRange
  deriving DecidableEq, Repr

section Loop
variable {H : Type} [HeaderMap H] {L : Type} (insertAt : L → CacheKeyType → HttpCacheEntry H → L)

/-- What a level is given: the copy or the entry itself, unless it has no
lifetime there. -/
def levelEntry (cacheTtls : List (Bytes × CacheTTL)) (keyForTtl : Bytes) (now : UInt64) (name : Bytes)
    (entryCopy : Option (HttpCacheEntry H)) : Option (HttpCacheEntry H) :=
  let lifetime := cacheTTL cacheTtls name keyForTtl
  if lifetime = 0 then none else entryCopy.map fun entryCopy => { entryCopy with cacheExpire := now + lifetime }

/-- The pointer and the levels. -/
abbrev Inserting (H L : Type) := Option (HttpCacheEntry H) × List (Bytes × L)

/-- One round of the loop. -/
def insertLevel (cacheTtls : List (Bytes × CacheTTL)) (cacheKey : CacheKeyType) (keyForTtl : Bytes) (now : UInt64)
    (insertNumber : Nat) (state : Inserting H L) (i : Nat) : Except InsertFault (Inserting H L) := do
  let (entry, levels) := state
  let (entryCopy, entry) ←
    -- except for the last insertion, a copy must be created
    if i + 1 = insertNumber then .ok (entry, none)
    else
      match entry with
      | none => .error .movedFrom
      | some entry => .ok (createCopy entry, some entry)
  match levels[i]? with
  | none => .error .outOfRange
  | some (name, level) =>
    match levelEntry cacheTtls keyForTtl now name entryCopy with
    | none => .ok (entry, levels)
    | some entryCopy => .ok (entry, levels.set i (name, insertAt level cacheKey entryCopy))

/-- `insert_number`; a kind of level is used once, so it fits 32 bits. -/
def CacheGetterSetter.insertNumber (s : CacheGetterSetter) (levels : Nat) : Nat :=
  if s.hitInCache = -1 then levels else s.hitInCache.toNat

/-- The loop, on the levels `used_caches_`. -/
def CacheGetterSetter.insertLevels (cacheTtls : List (Bytes × CacheTTL)) (s : CacheGetterSetter) (entry : HttpCacheEntry H)
    (keyForTtl : Bytes) (now : UInt64) (levels : List (Bytes × L)) : Except InsertFault (Inserting H L) :=
  (List.range (s.insertNumber levels.length)).foldlM
    (insertLevel insertAt cacheTtls s.cacheKey keyForTtl now (s.insertNumber levels.length)) (some entry, levels)

end Loop

section Levels
variable {H : Type} [HeaderMap H] {L : Type} {insertAt : L → CacheKeyType → HttpCacheEntry H → L}
  {cacheTtls : List (Bytes × CacheTTL)} {cacheKey : CacheKeyType} {keyForTtl : Bytes} {now : UInt64} {insertNumber : Nat}
  {entry : HttpCacheEntry H}

/-- What level `i` of `insertNumber` gets. -/
def inserted (cacheTtls : List (Bytes × CacheTTL)) (keyForTtl : Bytes) (now : UInt64) (entry : HttpCacheEntry H)
    (insertNumber i : Nat) (name : Bytes) : Option (HttpCacheEntry H) :=
  levelEntry cacheTtls keyForTtl now name (if i + 1 = insertNumber then some entry else createCopy entry)

/-- The levels after `j` rounds. -/
def levelsAfter (insertAt : L → CacheKeyType → HttpCacheEntry H → L) (cacheTtls : List (Bytes × CacheTTL)) (cacheKey : CacheKeyType)
    (keyForTtl : Bytes) (now : UInt64) (entry : HttpCacheEntry H) (insertNumber j : Nat) (levels : List (Bytes × L)) :
    List (Bytes × L) :=
  levels.mapIdx fun i level =>
    (level.1,
      if i < j then (inserted cacheTtls keyForTtl now entry insertNumber i level.1).elim level.2 (insertAt level.2 cacheKey)
      else level.2)

/-- A round changes its own level only. -/
theorem levelsAfter_succ {j : Nat} {name : Bytes} {level : L} {levels : List (Bytes × L)}
    (hlevel : levels[j]? = some (name, level)) :
    levelsAfter insertAt cacheTtls cacheKey keyForTtl now entry insertNumber (j + 1) levels =
      (levelsAfter insertAt cacheTtls cacheKey keyForTtl now entry insertNumber j levels).set j
        (name, (inserted cacheTtls keyForTtl now entry insertNumber j name).elim level (insertAt level cacheKey)) := by
  apply List.ext_getElem?
  intro i
  rw [List.getElem?_set]
  unfold levelsAfter
  rw [List.getElem?_mapIdx, List.getElem?_mapIdx, List.length_mapIdx]
  by_cases hij : j = i
  · subst hij
    have hlt := (List.getElem?_eq_some_iff.1 hlevel).1
    rw [hlevel, if_pos rfl, if_pos hlt]
    simp
  · have hlt : i < j + 1 ↔ i < j := by omega
    rw [if_neg hij]
    simp only [hlt]

/-- One round: the pointer is there, and the level is as it was. -/
theorem insertLevel_eq {j : Nat} {levels : List (Bytes × L)} (hj : j < levels.length) :
    insertLevel insertAt cacheTtls cacheKey keyForTtl now insertNumber
        (some entry, levelsAfter insertAt cacheTtls cacheKey keyForTtl now entry insertNumber j levels) j =
      .ok (if j + 1 = insertNumber then none else some entry,
        levelsAfter insertAt cacheTtls cacheKey keyForTtl now entry insertNumber (j + 1) levels) := by
  obtain ⟨⟨name, level⟩, hlevel⟩ : ∃ level, levels[j]? = some level := ⟨_, List.getElem?_eq_getElem hj⟩
  have hbefore :
      (levelsAfter insertAt cacheTtls cacheKey keyForTtl now entry insertNumber j levels)[j]? = some (name, level) := by
    simp [levelsAfter, hlevel]
  have hself :
      (levelsAfter insertAt cacheTtls cacheKey keyForTtl now entry insertNumber j levels).set j (name, level) =
        levelsAfter insertAt cacheTtls cacheKey keyForTtl now entry insertNumber j levels := by
    obtain ⟨hlt, hget⟩ := List.getElem?_eq_some_iff.1 hbefore
    rw [← hget]
    exact List.set_getElem_self hlt
  rw [levelsAfter_succ hlevel]
  unfold insertLevel inserted
  by_cases hlast : j + 1 = insertNumber
  · -- the entry itself
    simp only [if_pos hlast, ok_bind, hbefore]
    cases levelEntry cacheTtls keyForTtl now name (some entry) with
    | none => rw [Option.elim_none, hself]
    | some e => rfl
  · simp only [if_neg hlast, ok_bind, hbefore]
    cases levelEntry cacheTtls keyForTtl now name (createCopy entry) with
    | none => rw [Option.elim_none, hself]
    | some e => rfl

/-- The first rounds of a loop. -/
theorem insertLevels_rounds {levels : List (Bytes × L)} {j : Nat} (hj : j ≤ insertNumber)
    (hnumber : insertNumber ≤ levels.length) :
    (List.range j).foldlM (insertLevel insertAt cacheTtls cacheKey keyForTtl now insertNumber) (some entry, levels) =
      .ok (if 0 < j ∧ j = insertNumber then none else some entry,
        levelsAfter insertAt cacheTtls cacheKey keyForTtl now entry insertNumber j levels) := by
  induction j with
  | zero =>
    have hsame : levelsAfter insertAt cacheTtls cacheKey keyForTtl now entry insertNumber 0 levels = levels := by
      apply List.ext_getElem?
      intro i
      simp [levelsAfter]
    rw [hsame]
    simp
  | succ j ih =>
    have hnot : ¬ (0 < j ∧ j = insertNumber) := by omega
    rw [List.range_succ, List.foldlM_append, ih (by omega), if_neg hnot, ok_bind, List.foldlM_cons,
      insertLevel_eq (by omega)]
    simp

/-- The loop goes to its end, and the pointer is moved from in the last round
if there is one. -/
theorem insertLevels_eq {s : CacheGetterSetter} {levels : List (Bytes × L)}
    (hhit : s.insertNumber levels.length ≤ levels.length) :
    s.insertLevels insertAt cacheTtls entry keyForTtl now levels =
      .ok (if 0 < s.insertNumber levels.length then none else some entry,
        levelsAfter insertAt cacheTtls s.cacheKey keyForTtl now entry (s.insertNumber levels.length)
          (s.insertNumber levels.length) levels) := by
  unfold CacheGetterSetter.insertLevels
  rw [insertLevels_rounds le_rfl hhit]
  simp

/-- The insertions in `CacheGetterSetter.insertCache` are those of the loop. -/
theorem insertCache_eq (s : CacheGetterSetter) (usedCaches : List Bytes) :
    s.insertCache usedCaches cacheTtls entry keyForTtl now =
      (usedCaches.zipIdx.take (s.insertNumber usedCaches.length)).filterMap fun level =>
        (inserted cacheTtls keyForTtl now entry (s.insertNumber usedCaches.length) level.2 level.1).map (level.2, ·) := by
  unfold CacheGetterSetter.insertCache
  apply List.filterMap_congr
  rintro ⟨name, i⟩ hmem
  have hi : i < s.insertNumber usedCaches.length := by
    obtain ⟨m, hm, heq⟩ := List.mem_take_iff_getElem.1 hmem
    rw [List.getElem_zipIdx, Nat.zero_add] at heq
    cases heq
    exact (lt_inf_iff.1 hm).1
  have hlast : i = s.insertNumber usedCaches.length - 1 ↔ i + 1 = s.insertNumber usedCaches.length := by omega
  show (if cacheTTL cacheTtls name keyForTtl = 0 then none
    else (if i = s.insertNumber usedCaches.length - 1 then some entry else createCopy entry).map fun entryCopy =>
      (i, { entryCopy with cacheExpire := now + cacheTTL cacheTtls name keyForTtl })) = _
  unfold inserted levelEntry
  simp only [← hlast]
  split_ifs <;> simp [Option.map_map, Function.comp_def]

/-! ## What a level gets -/

/-- Two messages with the same body, and the same headers but for the two
that a copy normalises. -/
def SameMessage (m m' : ResponseMessage H) : Prop :=
  m.body = m'.body ∧ (iterate m.headers).filter isKept = (iterate m'.headers).filter isKept

/-- A copy has the message. -/
theorem makeMessageCopy_same (message : ResponseMessage H) : SameMessage (makeMessageCopy message) message := by
  refine ⟨?_, filter_makeMessageCopy message⟩
  rw [makeMessageCopy_eq]

/-- A level with a lifetime gets the message, to expire after that time; a
level without one gets nothing. -/
theorem inserted_cases {message : ResponseMessage H} (hmessage : entry.cacheMessage = some message)
    (i : Nat) (name : Bytes) :
    (cacheTTL cacheTtls name keyForTtl = 0 ∧ inserted cacheTtls keyForTtl now entry insertNumber i name = none) ∨
      ∃ stored copy, cacheTTL cacheTtls name keyForTtl ≠ 0 ∧
        inserted cacheTtls keyForTtl now entry insertNumber i name = some stored ∧
        stored.cacheExpire = now + cacheTTL cacheTtls name keyForTtl ∧
        stored.cacheMessage = some copy ∧ SameMessage copy message := by
  unfold inserted levelEntry
  by_cases httl : cacheTTL cacheTtls name keyForTtl = 0
  · exact .inl ⟨httl, if_pos httl⟩
  · right
    simp only [if_neg httl]
    by_cases hlast : i + 1 = insertNumber
    · rw [if_pos hlast]
      exact ⟨_, message, httl, rfl, rfl, hmessage, rfl, rfl⟩
    · have hcopy : createCopy entry = some (HttpCacheEntry.new (makeMessageCopy message) 0) := by
        simp [createCopy, hmessage]
      rw [if_neg hlast, hcopy]
      exact ⟨_, _, httl, rfl, rfl, rfl, makeMessageCopy_same message⟩

/-- The message under a key, to expire at that time. -/
def StoredIn (insertAt : L → CacheKeyType → HttpCacheEntry H → L) (level level' : L) (cacheKey : CacheKeyType)
    (message : ResponseMessage H) (expire : UInt64) : Prop :=
  ∃ stored copy, level' = insertAt level cacheKey stored ∧ stored.cacheExpire = expire ∧ stored.cacheMessage = some copy ∧
    SameMessage copy message

/-- Exactly the levels below the hit whose lifetime is not zero get the
message under the key, each to expire after its own lifetime. The others are
left alone. The pointer is there in every round, so it is moved from in the
last one only. -/
theorem insertCache_exact {s : CacheGetterSetter} {message : ResponseMessage H} (hmessage : entry.cacheMessage = some message)
    {levels : List (Bytes × L)} (hhit : s.hitInCache = -1 ∨ 0 ≤ s.hitInCache ∧ s.hitInCache < levels.length)
    (insertAt : L → CacheKeyType → HttpCacheEntry H → L) :
    (∀ j < s.insertNumber levels.length, ∃ levels', (List.range j).foldlM
      (insertLevel insertAt cacheTtls s.cacheKey keyForTtl now (s.insertNumber levels.length)) (some entry, levels) =
        .ok (some entry, levels')) ∧
    ∃ pointer levels', s.insertLevels insertAt cacheTtls entry keyForTtl now levels = .ok (pointer, levels') ∧
      levels'.length = levels.length ∧
      ∀ (i : Nat) (name : Bytes) (level : L), levels[i]? = some (name, level) → ∃ level', levels'[i]? = some (name, level') ∧
        if (s.hitInCache = -1 ∨ (i : Int) < s.hitInCache) ∧ cacheTTL cacheTtls name keyForTtl ≠ 0 then
          StoredIn insertAt level level' s.cacheKey message (now + cacheTTL cacheTtls name keyForTtl)
        else level' = level := by
  have hnumber : s.insertNumber levels.length ≤ levels.length := by
    unfold CacheGetterSetter.insertNumber
    split_ifs <;> omega
  constructor
  · intro j hj
    have hrounds := @insertLevels_rounds H _ L insertAt cacheTtls s.cacheKey keyForTtl now _ entry _ _ hj.le hnumber
    rw [if_neg (by omega)] at hrounds
    exact ⟨_, hrounds⟩
  refine ⟨_, _, insertLevels_eq hnumber, by simp [levelsAfter], ?_⟩
  intro i name level hlevel
  have hlt := (List.getElem?_eq_some_iff.1 hlevel).1
  have hbelow : (s.hitInCache = -1 ∨ (i : Int) < s.hitInCache) ↔ i < s.insertNumber levels.length := by
    unfold CacheGetterSetter.insertNumber
    split_ifs <;> omega
  refine ⟨if i < s.insertNumber levels.length then
      (inserted cacheTtls keyForTtl now entry (s.insertNumber levels.length) i name).elim level
      (insertAt level s.cacheKey)
    else level, ?_, ?_⟩
  · unfold levelsAfter
    rw [List.getElem?_mapIdx, hlevel]
    rfl
  simp only [hbelow]
  obtain ⟨httl, hnone⟩ | ⟨stored, copy, httl, hsome, hexpire, hcopy, hsame⟩ :=
    @inserted_cases H _ cacheTtls keyForTtl now (s.insertNumber levels.length) entry message hmessage i name
  · simp [httl, hnone]
  · by_cases hi : i < s.insertNumber levels.length
    · rw [if_pos ⟨hi, httl⟩, if_pos hi, hsome]
      exact ⟨stored, copy, rfl, hexpire, hcopy, hsame⟩
    · rw [if_neg (fun h => hi h.1), if_neg hi]

/-- Two levels and no hit: the message is stored in both. -/
theorem two_levels_stored :
    ∃ levels', (CacheGetterSetter.insertLevels (fun l key e => (key, e) :: l)
        [(ascii "LocalCache", { default_ := 5 }), (ascii "RedisCache", { default_ := 7 })] { hasCacheKey := true, cacheKey := [107] }
        (HttpCacheEntry.new (⟨[], [1]⟩ : ResponseMessage HeaderList) 0) (ascii "200") 10
        [(ascii "LocalCache", []), (ascii "RedisCache", [])]).map (·.2) = .ok levels' ∧
      ∃ local_ redis, levels' = [(ascii "LocalCache", local_), (ascii "RedisCache", redis)] ∧
        StoredIn (fun l key e => (key, e) :: l) [] local_ [107] (⟨[], [1]⟩ : ResponseMessage HeaderList) 15 ∧
        StoredIn (fun l key e => (key, e) :: l) [] redis [107] (⟨[], [1]⟩ : ResponseMessage HeaderList) 17 := by
  obtain ⟨-, pointer, levels', hloop, hlength, hlevels⟩ := @insertCache_exact HeaderList _
    (List (CacheKeyType × HttpCacheEntry HeaderList))
    [(ascii "LocalCache", { default_ := 5 }), (ascii "RedisCache", { default_ := 7 })] (ascii "200") 10
    (.new ⟨[], [1]⟩ 0) { hasCacheKey := true, cacheKey := [107] } _ rfl
    [(ascii "LocalCache", []), (ascii "RedisCache", [])] (.inl rfl) fun l key e => (key, e) :: l
  obtain ⟨first, hfirst, hstored⟩ := hlevels 0 _ _ rfl
  obtain ⟨second, hsecond, hstored'⟩ := hlevels 1 _ _ rfl
  rw [if_pos ⟨.inl rfl, by decide⟩] at hstored hstored'
  refine ⟨levels', by rw [hloop]; rfl, first, second, ?_, hstored, hstored'⟩
  apply List.ext_getElem?
  rintro (_ | _ | i)
  · exact hfirst
  · exact hsecond
  · rw [List.getElem?_eq_none (by rw [hlength]; simp), List.getElem?_eq_none (by simp)]

end Levels

end EnvoyProxy.Cache
