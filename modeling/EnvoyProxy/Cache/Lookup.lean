import EnvoyProxy.Cache.Sender
import EnvoyProxy.Lib.Runs
/-!
# The lookup protocol

One `CacheGetterSetter`, its levels and whoever cancels it. Each level keeps
the callback it was given and calls it at most once, whenever it likes. The
log of a run is fixed but for the entries and the end: level after level is
queried and finds nothing (`walked`), until one finds an entry, none is left,
or the lookup is cancelled (`Course`). A cancellation from inside a callback
acts as one right after it.
-/

namespace EnvoyProxy.Cache

/-- What happens during a lookup. -/
inductive Happening (E : Type)
  | queried (level : Nat)
  | answered (level : Nat) (entry : Option E)
  | cancelled
  | succeeded (entry : E)
  | failed
  deriving DecidableEq

inductive LookupEvent (E : Type)
  | lookupCache (callback : Bool)
  /-- A level calls its callback. -/
  | answer (level : Nat) (entry : Option E)
  | cancelLookup

structure LookupRun (E : Type) where
  getter : CacheGetterSetter
  started : Bool := false
  /-- The levels that have not called their callback. -/
  waiting : List Nat := []
  log : List (Happening E) := []

section Steps
variable {E : Type} (usedCaches : List Bytes)

def Ask.happening : Ask E → Happening E
  | .lookupCache level => .queried level
  | .onSuccess entry => .succeeded entry
  | .onFailure => .failed

def Ask.level : Ask E → Option Nat
  | .lookupCache level => some level
  | _ => none

namespace LookupRun

/-- A new getter, with or without a key. -/
def start (key : Option CacheKeyType) : LookupRun E where
  getter := { hasCacheKey := key.isSome, cacheKey := key.getD [] }

def after (r : LookupRun E) (getter : CacheGetterSetter) (asks : List (Ask E)) : LookupRun E :=
  { r with getter, waiting := r.waiting ++ asks.filterMap Ask.level, log := r.log ++ asks.map Ask.happening }

def step (r : LookupRun E) : LookupEvent E → Except SenderFault (LookupRun E)
  | .lookupCache callback => do
    let (_, getter, asks) ← r.getter.lookupCache usedCaches callback
    return after { r with started := true } getter asks
  | .answer level entry => do
    let (getter, asks) ← r.getter.cacheLookupCallback usedCaches entry
    return after { r with waiting := r.waiting.erase level, log := r.log ++ [.answered level entry] } getter asks
  | .cancelLookup => .ok { r with getter := r.getter.cancelLookup, log := r.log ++ [.cancelled] }

/-- The lookup is started once, and a level calls its callback once. -/
def Scheduled (r : LookupRun E) : LookupEvent E → Prop
  | .lookupCache _ => r.started = false
  | .answer level _ => level ∈ r.waiting
  | .cancelLookup => True

end LookupRun

/-- Levels `0` to `j - 1` have found nothing. -/
def walked (j : Nat) : List (Happening E) := (List.range j).flatMap fun i => [.queried i, .answered i none]

theorem walked_succ (j : Nat) :
    (walked (j + 1) : List (Happening E)) = walked j ++ [.queried j, .answered j none] := by
  simp [walked, List.range_succ]

/-- What has happened before a cancellation, and `hit_in_cache_`. -/
inductive Course : Int → List (Happening E) → Prop
  | idle : Course (-1) []
  | waiting {j : Nat} : j < usedCaches.length → Course (-1) (walked j ++ [.queried j])
  | succeeded {j : Nat} {entry : E} : j < usedCaches.length →
      Course j (walked j ++ [.queried j, .answered j (some entry), .succeeded entry])
  | failed : Course (-1) (walked usedCaches.length ++ [.failed])

/-- After a cancellation there are cancellations and unheard answers. -/
def Quiet (tail : List (Happening E)) : Prop :=
  (tail = [] ∨ tail.head? = some .cancelled) ∧ ∀ x ∈ tail, x = .cancelled ∨ ∃ i entry, x = .answered i entry

/-- What can be said of a run at any time. -/
inductive Phase : LookupRun E → Prop
  /-- Not started, or refused. -/
  | idle {r : LookupRun E} : r.getter.lookupCacheOver = false → r.getter.lookupCacheStop = false → r.getter.callback = false →
      r.getter.hitInCache = -1 → r.getter.currentCache = 0 → r.waiting = [] → r.log = [] → Phase r
  | waiting {r : LookupRun E} {j : Nat} : r.getter.finished = false → r.getter.hitInCache = -1 → r.getter.currentCache = j →
      j < usedCaches.length → r.started = true → r.waiting = [j] → r.log = walked j ++ [.queried j] → Phase r
  | closed {r : LookupRun E} {course tail : List (Happening E)} :
      (r.getter.lookupCacheOver = true ∨ r.getter.lookupCacheStop = true) → Course usedCaches r.getter.hitInCache course →
      Quiet tail → (tail = [] → r.waiting = []) → r.log = course ++ tail → Phase r

variable {usedCaches}

theorem Quiet.snoc {tail : List (Happening E)} {x : Happening E} (h : Quiet tail) (hne : tail ≠ [] ∨ x = .cancelled)
    (hx : x = .cancelled ∨ ∃ i entry, x = .answered i entry) : Quiet (tail ++ [x]) := by
  obtain ⟨hhead, hall⟩ := h
  refine ⟨.inr ?_, ?_⟩
  · rcases tail with _ | ⟨y, tail⟩
    · simpa using hne
    · simpa using hhead
  · intro y hy
    rcases List.mem_append.1 hy with hy | hy
    · exact hall y hy
    · rw [List.mem_singleton.1 hy]
      exact hx

theorem quiet_nil : Quiet ([] : List (Happening E)) := ⟨.inl rfl, by simp⟩

namespace Phase
variable {r : LookupRun E}

/-- The course of a run, and what came after its end. -/
theorem course (h : Phase usedCaches r) :
    ∃ course tail, Course usedCaches r.getter.hitInCache course ∧ Quiet tail ∧ r.log = course ++ tail := by
  cases h with
  | idle _ _ _ hhit _ _ hlog => exact ⟨[], [], hhit ▸ .idle, quiet_nil, hlog⟩
  | waiting _ hhit _ hj _ _ hlog =>
    refine ⟨_, [], ?_, quiet_nil, by rw [List.append_nil]⟩
    rw [hhit, hlog]
    exact .waiting hj
  | closed _ hcourse hquiet _ hlog => exact ⟨_, _, hcourse, hquiet, hlog⟩

theorem cancelLookup (h : Phase usedCaches r) :
    Phase usedCaches { r with getter := r.getter.cancelLookup, log := r.log ++ [.cancelled] } := by
  have hclosed : ∀ c t, Course usedCaches r.getter.hitInCache c → Quiet t → r.log = c ++ t →
      Phase usedCaches { r with getter := r.getter.cancelLookup, log := r.log ++ [.cancelled] } := by
    intro c t hcourse hquiet hlog
    refine .closed (.inr rfl) hcourse (hquiet.snoc (x := .cancelled) (.inr rfl) (.inl rfl)) ?_ ?_
    · intro hnil
      simp at hnil
    · simp [hlog]
  obtain ⟨c, t, hcourse, hquiet, hlog⟩ := h.course
  exact hclosed c t hcourse hquiet hlog

theorem lookupCache (h : Phase usedCaches r) (hstart : r.started = false) (callback : Bool) :
    ∃ r', r.step usedCaches (.lookupCache callback) = .ok r' ∧ Phase usedCaches r' := by
  by_cases hfail : usedCaches = [] ∨ callback = false ∨ r.getter.hasCacheKey = false
  · refine ⟨LookupRun.after { r with started := true } r.getter [], ?_, ?_⟩
    · simp [LookupRun.step, CacheGetterSetter.lookupCache, hfail]
    · cases h with
      | idle ho hs hc hh hcur hw hl =>
        exact .idle ho hs hc hh hcur (by simp [LookupRun.after, hw]) (by simp [LookupRun.after, hl])
      | waiting _ _ _ _ hst => rw [hst] at hstart; cases hstart
      | closed hend hcourse hquiet hw hlog =>
        exact .closed hend hcourse hquiet (by simpa [LookupRun.after] using hw) (by simp [LookupRun.after, hlog])
  · have hstep : ∀ s asks, CacheGetterSetter.lookupCacheOnce usedCaches r.getter.setCallback = .ok (s, asks) →
        r.step usedCaches (.lookupCache callback) = .ok (LookupRun.after { r with started := true } s asks) := by
      intro s asks honce
      simp [LookupRun.step, CacheGetterSetter.lookupCache, hfail, honce]
    cases h with
    | idle ho hs hc hh hcur hw hl =>
      have hlen : 0 < usedCaches.length := List.length_pos_iff.2 fun he => hfail (.inl he)
      have hopen : r.getter.setCallback.finished = false := by
        simp [CacheGetterSetter.finished, CacheGetterSetter.setCallback, ho, hs]
      have hcur' : r.getter.setCallback.currentCache < usedCaches.length := hcur.symm ▸ hlen
      have honce := CacheGetterSetter.lookupCacheOnce_query (E := E) hopen hcur'
      refine ⟨_, hstep _ _ honce, .waiting (j := 0) hopen hh hcur hlen rfl ?_ ?_⟩
      · simp [LookupRun.after, hw, Ask.level, CacheGetterSetter.setCallback, hcur]
      · simp [LookupRun.after, hl, Ask.happening, walked, CacheGetterSetter.setCallback, hcur]
    | waiting _ _ _ _ hst => rw [hst] at hstart; cases hstart
    | closed hend hcourse hquiet hw hlog =>
      -- cancelled before it was started
      have hdone : r.getter.setCallback.finished = true := by
        rcases hend with he | he <;> simp [CacheGetterSetter.finished, CacheGetterSetter.setCallback, he]
      refine ⟨_, hstep _ _ (CacheGetterSetter.lookupCacheOnce_finished hdone), ?_⟩
      exact .closed hend hcourse hquiet (by simpa [LookupRun.after] using hw) (by simp [LookupRun.after, hlog])

theorem answer (h : Phase usedCaches r) {level : Nat} (hlevel : level ∈ r.waiting) (entry : Option E) :
    ∃ r', r.step usedCaches (.answer level entry) = .ok r' ∧ Phase usedCaches r' := by
  have hstep : ∀ s asks, CacheGetterSetter.cacheLookupCallback usedCaches r.getter entry = .ok (s, asks) →
      r.step usedCaches (.answer level entry) = .ok (LookupRun.after
        { r with waiting := r.waiting.erase level, log := r.log ++ [.answered level entry] } s asks) := by
    intro s asks hrun
    simp [LookupRun.step, hrun]
  cases h with
  | idle _ _ _ _ _ hw _ => rw [hw] at hlevel; cases hlevel
  | closed hend hcourse hquiet hw hlog =>
    -- a level still waits, so the client has cancelled: nobody hears the answer
    rename_i tail
    have hdone : r.getter.finished = true := by
      rcases hend with he | he <;> simp [CacheGetterSetter.finished, he]
    have htail : tail ≠ [] := by
      intro hnil
      rw [hw hnil] at hlevel
      cases hlevel
    refine ⟨_, hstep _ _ (CacheGetterSetter.cacheLookupCallback_finished hdone entry), ?_⟩
    refine .closed hend hcourse (hquiet.snoc (.inl htail) (.inr ⟨level, entry, rfl⟩)) ?_ ?_
    · intro hnil
      simp at hnil
    · simp [LookupRun.after, hlog]
  | @waiting j hfin hhit hcur hj hstarted hw hlog =>
    obtain rfl : level = j := by
      rw [hw] at hlevel
      exact List.mem_singleton.1 hlevel
    cases entry with
    | some entry =>
      refine ⟨_, hstep _ _ (CacheGetterSetter.cacheLookupCallback_some hfin entry), ?_⟩
      have hcourse : Course usedCaches r.getter.hit.hitInCache
          (walked level ++ [.queried level, .answered level (some entry), .succeeded entry]) := by
        rw [CacheGetterSetter.hit, hcur]
        exact .succeeded hj
      refine .closed (.inl rfl) hcourse quiet_nil ?_ ?_
      · intro _
        simp [LookupRun.after, hw, Ask.level]
      · simp [LookupRun.after, hlog, Ask.happening]
    | none =>
      have hnone := CacheGetterSetter.cacheLookupCallback_none (E := E) usedCaches hfin
      have hfin' : r.getter.advance.finished = false := hfin
      have hcur' : r.getter.advance.currentCache = level + 1 := by simp [CacheGetterSetter.advance, hcur]
      by_cases hmore : level + 1 < usedCaches.length
      · have hquery := CacheGetterSetter.lookupCacheOnce_query (E := E) hfin' (hcur'.symm ▸ hmore)
        refine ⟨_, hstep _ _ (hnone.trans hquery), .waiting (j := level + 1) hfin' hhit hcur' hmore hstarted ?_ ?_⟩
        · simp [LookupRun.after, hw, Ask.level, hcur']
        · simp [LookupRun.after, hlog, Ask.happening, walked_succ, hcur']
      · -- that was the last level
        have hlast : usedCaches.length = level + 1 := by omega
        have hend := CacheGetterSetter.lookupCacheOnce_end (E := E) hfin' (hcur'.symm ▸ hlast.le)
        refine ⟨_, hstep _ _ (hnone.trans hend), ?_⟩
        have hcourse : Course (E := E) usedCaches r.getter.advance.missed.hitInCache
          (walked usedCaches.length ++ [.failed]) := by
          rw [CacheGetterSetter.missed, CacheGetterSetter.advance, hhit]
          exact .failed
        refine .closed (.inr rfl) hcourse quiet_nil ?_ ?_
        · intro _
          simp [LookupRun.after, hw, Ask.level]
        · simp [LookupRun.after, hlog, Ask.happening, hlast, walked_succ]

/-- Whatever is scheduled next returns, and the run goes on in some phase. -/
theorem step (h : Phase usedCaches r) {event : LookupEvent E} (hsched : r.Scheduled event) :
    ∃ r', r.step usedCaches event = .ok r' ∧ Phase usedCaches r' := by
  cases event with
  | lookupCache callback => exact h.lookupCache hsched callback
  | answer level entry => exact h.answer hsched entry
  | cancelLookup => exact ⟨_, rfl, h.cancelLookup⟩

theorem of_reach {key : Option CacheKeyType}
    (h : Reach (LookupRun.step usedCaches) LookupRun.Scheduled (LookupRun.start key) r) : Phase usedCaches r := by
  refine h.invariant (Phase usedCaches) (.idle rfl rfl rfl rfl rfl rfl rfl) ?_
  intro s e s' hs hsched hstep
  obtain ⟨s'', hs'', hphase⟩ := hs.step hsched
  rw [hs''] at hstep
  cases hstep
  exact hphase

end Phase

end Steps

/-! ## What the log says -/

section Log
variable {E : Type} {usedCaches : List Bytes}

def Happening.level : Happening E → Option Nat
  | .queried level => some level
  | _ => none

def Happening.isCall : Happening E → Bool
  | .succeeded _ | .failed => true
  | _ => false

/-- The levels that were queried, in order. -/
def queries (log : List (Happening E)) : List Nat := log.filterMap Happening.level

/-- The calls of `onSuccess` and `onFailure`. -/
def calls (log : List (Happening E)) : List (Happening E) := log.filter Happening.isCall

theorem queries_walked (j : Nat) : queries (walked j : List (Happening E)) = List.range j := by
  induction j with
  | zero => rfl
  | succ j ih =>
    rw [walked_succ, queries, List.filterMap_append, ← queries, ih, List.range_succ]
    rfl

/-- Nothing but queries and answers without an entry. -/
theorem mem_walked {j : Nat} {x : Happening E} : x ∈ walked j ↔ ∃ i < j, x = .queried i ∨ x = .answered i none := by
  simp only [walked, List.mem_flatMap, List.mem_range, List.mem_cons, List.not_mem_nil, or_false]

theorem calls_walked (j : Nat) : calls (walked j : List (Happening E)) = [] := by
  apply List.filter_eq_nil_iff.2
  intro x hx
  obtain ⟨i, -, rfl | rfl⟩ := mem_walked.1 hx <;> simp [Happening.isCall]

theorem Quiet.queries {tail : List (Happening E)} (h : Quiet tail) : queries tail = [] := by
  apply List.filterMap_eq_nil_iff.2
  intro x hx
  obtain rfl | ⟨i, entry, rfl⟩ := h.2 x hx <;> rfl

theorem Quiet.calls {tail : List (Happening E)} (h : Quiet tail) : calls tail = [] := by
  apply List.filter_eq_nil_iff.2
  intro x hx
  obtain rfl | ⟨i, entry, rfl⟩ := h.2 x hx <;> simp [Happening.isCall]

/-- The levels are queried from the first on. -/
theorem Course.queries {hit : Int} {course : List (Happening E)} (h : Course usedCaches hit course) :
    ∃ k ≤ usedCaches.length, queries course = List.range k := by
  have hsnoc : ∀ j l, Cache.queries (walked j ++ (.queried j :: l) : List (Happening E)) =
      List.range (j + 1) ++ Cache.queries l := by
    intro j l
    rw [Cache.queries, List.filterMap_append, ← Cache.queries, queries_walked, List.range_succ, List.append_assoc]
    rfl
  cases h with
  | idle => exact ⟨0, Nat.zero_le _, rfl⟩
  | waiting hj => exact ⟨_, hj, (hsnoc _ []).trans (List.append_nil _)⟩
  | succeeded hj => exact ⟨_, hj, (hsnoc _ _).trans (List.append_nil _)⟩
  | failed =>
    refine ⟨_, le_rfl, ?_⟩
    rw [Cache.queries, List.filterMap_append, ← Cache.queries, queries_walked]
    exact List.append_nil _

theorem Course.calls_le {hit : Int} {course : List (Happening E)} (h : Course usedCaches hit course) :
    (calls course).length ≤ 1 := by
  have happend : ∀ j (l : List (Happening E)), calls (walked j ++ l) = calls l := by
    intro j l
    rw [calls, List.filter_append, ← calls, calls_walked, List.nil_append]
    rfl
  cases h with
  | idle => exact Nat.zero_le _
  | waiting _ => rw [happend]; exact Nat.zero_le _
  | succeeded _ | failed => rw [happend]; exact le_rfl

theorem Course.not_cancelled {hit : Int} {course : List (Happening E)} (h : Course usedCaches hit course) :
    .cancelled ∉ course := by
  cases h <;> simp [mem_walked]

/-- A call of the client stands in the course. -/
theorem Quiet.split_call {course tail pre post : List (Happening E)} {x : Happening E} (hquiet : Quiet tail)
    (hx : x.isCall = true) (h : course ++ tail = pre ++ x :: post) : ∃ rest, course = pre ++ x :: rest := by
  obtain ⟨rest, hc, -⟩ | ⟨rest, -, htail⟩ := split_append h
  · exact ⟨rest, hc⟩
  · have hmem : x ∈ tail := htail ▸ List.mem_append_right _ List.mem_cons_self
    obtain rfl | ⟨i, entry, rfl⟩ := hquiet.2 x hmem <;> cases hx

/-- The first that happens behind the course is a cancellation. -/
theorem Quiet.cancelled_mem {tail rest post : List (Happening E)} {x : Happening E} (hquiet : Quiet tail)
    (hx : x ≠ .cancelled) (h : tail = rest ++ x :: post) : .cancelled ∈ rest := by
  subst h
  rcases hquiet.1 with hnil | hhead
  · simp at hnil
  · rcases rest with _ | ⟨y, rest⟩
    · exact absurd (Option.some.inj hhead) hx
    · rw [Option.some.inj hhead]
      exact List.mem_cons_self

/-- Before `onSuccess`: nothing at the levels before, an entry at this one. -/
theorem Course.before_succeeded {hit : Int} {course pre rest : List (Happening E)} {entry : E}
    (h : Course usedCaches hit course) (hsplit : course = pre ++ .succeeded entry :: rest) :
    ∃ j < usedCaches.length, hit = j ∧ pre = walked j ++ [.queried j, .answered j (some entry)] := by
  have hmem : (.succeeded entry : Happening E) ∈ course := hsplit ▸ List.mem_append_right _ List.mem_cons_self
  cases h with
  | idle => cases hmem
  | waiting _ | failed => simp [mem_walked] at hmem
  | @succeeded j entry' hj =>
    have hsplit' : (walked j ++ [Happening.queried j, .answered j (some entry')]) ++
      Happening.succeeded entry' :: [] =
        pre ++ Happening.succeeded entry :: rest := by simpa using hsplit
    have hinj := (List.append_cons_inj_of_notMem (by simp [mem_walked]) (by simp)).1 hsplit'
    obtain ⟨rfl, he, -⟩ := hinj
    cases he
    exact ⟨j, hj, rfl, rfl⟩

/-- Before `onFailure`: nothing at any level. -/
theorem Course.before_failed {hit : Int} {course pre rest : List (Happening E)} (h : Course usedCaches hit course)
    (hsplit : course = pre ++ .failed :: rest) : pre = walked usedCaches.length := by
  have hmem : (.failed : Happening E) ∈ course := hsplit ▸ List.mem_append_right _ List.mem_cons_self
  cases h with
  | idle => cases hmem
  | waiting _ | succeeded _ => simp [mem_walked] at hmem
  | failed => exact ((List.append_cons_inj_of_notMem (by simp [mem_walked]) (by simp)).1 hsplit).1.symm

/-- An entry that is heard is passed on. -/
theorem Course.after_entry {hit : Int} {course pre rest : List (Happening E)} {j : Nat} {entry : E}
    (h : Course usedCaches hit course) (hsplit : course = pre ++ .answered j (some entry) :: rest) :
    rest = [.succeeded entry] := by
  have hmem : (.answered j (some entry) : Happening E) ∈ course :=
    hsplit ▸ List.mem_append_right _ List.mem_cons_self
  cases h with
  | idle => cases hmem
  | waiting _ | failed => simp [mem_walked] at hmem
  | @succeeded k entry' hk =>
    have hsplit' : (walked k ++ [Happening.queried k]) ++ Happening.answered k (some entry') :: [.succeeded entry'] =
        pre ++ Happening.answered j (some entry) :: rest := by simpa using hsplit
    have hinj := (List.append_cons_inj_of_notMem (by simp [mem_walked]) (by simp)).1 hsplit'
    obtain ⟨-, he, hrest⟩ := hinj
    cases he
    exact hrest.symm

/-- For any levels, entries and schedule: the levels are queried from the
first on, each once; the client gets at most one call and none after it has
cancelled; `onSuccess` comes with the entry of the first level that has one,
`onFailure` when no level has one; and no index is out of range. -/
theorem lookup_protocol {key : Option CacheKeyType} {r : LookupRun E}
    (h : Reach (LookupRun.step usedCaches) LookupRun.Scheduled (LookupRun.start key) r) :
    (∃ k ≤ usedCaches.length, queries r.log = List.range k) ∧
    (calls r.log).length ≤ 1 ∧
    (∀ pre post : List (Happening E), r.log = pre ++ .cancelled :: post → calls post = []) ∧
    (∀ (entry : E) (pre post : List (Happening E)), r.log = pre ++ .succeeded entry :: post → ∃ j < usedCaches.length,
      r.getter.hitInCache = j ∧ pre = walked j ++ [.queried j, .answered j (some entry)]) ∧
    (∀ pre post : List (Happening E), r.log = pre ++ .failed :: post → pre = walked usedCaches.length) ∧
    (∀ (j : Nat) (entry : E) (pre post : List (Happening E)), r.log = pre ++ .answered j (some entry) :: post → .cancelled ∉ pre →
      ∃ rest, post = .succeeded entry :: rest) ∧
    ∀ event, r.Scheduled event → ∃ r', r.step usedCaches event = .ok r' := by
  have hphase := Phase.of_reach h
  obtain ⟨course, tail, hcourse, hquiet, hlog⟩ := hphase.course
  rw [hlog]
  refine ⟨?_, ?_, ?_, ?_, ?_, ?_, ?_⟩
  · obtain ⟨k, hk, hq⟩ := hcourse.queries
    refine ⟨k, hk, ?_⟩
    rw [queries, List.filterMap_append, ← queries, ← queries, hq, hquiet.queries, List.append_nil]
  · rw [calls, List.filter_append, ← calls, ← calls, hquiet.calls, List.append_nil]
    exact hcourse.calls_le
  · intro pre post hsplit
    -- the course has no cancellation, so what follows one stands behind the course
    obtain ⟨rest, hc, -⟩ | ⟨rest, -, htail⟩ := split_append hsplit
    · exact absurd (hc ▸ List.mem_append_right _ List.mem_cons_self) hcourse.not_cancelled
    · apply List.filter_eq_nil_iff.2
      intro x hx
      apply List.filter_eq_nil_iff.1 hquiet.calls x
      rw [htail]
      exact List.mem_append_right _ (List.mem_cons_of_mem _ hx)
  · intro entry pre post hsplit
    obtain ⟨rest, hc⟩ := hquiet.split_call rfl hsplit
    exact hcourse.before_succeeded hc
  · intro pre post hsplit
    obtain ⟨rest, hc⟩ := hquiet.split_call rfl hsplit
    exact hcourse.before_failed hc
  · intro j entry pre post hsplit hnot
    obtain ⟨rest, hc, hpost⟩ | ⟨rest, rfl, htail⟩ := split_append hsplit
    · rw [hpost, hcourse.after_entry hc]
      exact ⟨tail, rfl⟩
    · exact absurd (List.mem_append_right _ (hquiet.cancelled_mem (by simp) htail)) hnot
  · intro event hsched
    obtain ⟨r', hr', -⟩ := hphase.step hsched
    exact ⟨r', hr'⟩

/-- A miss in the first of two levels and a hit in the second. -/
theorem second_level_hit :
    ∃ r : LookupRun Nat, Reach (LookupRun.step [ascii "LocalCache", ascii "RedisCache"]) LookupRun.Scheduled
        (LookupRun.start (some (ascii "k"))) r ∧
      calls r.log = [.succeeded 7] ∧ ∃ j : Nat, j < 2 ∧ r.getter.hitInCache = j ∧
        walked j ++ [.queried j, .answered j (some 7)] = [.queried 0, .answered 0 none, .queried 1, .answered 1 (some 7)] := by
  have h₁ := reach_start (LookupRun.step [ascii "LocalCache", ascii "RedisCache"]) LookupRun.Scheduled
    (LookupRun.start (some (ascii "k")) : LookupRun Nat)
  have h₂ := h₁.next (e := .lookupCache true) (by exact rfl) rfl
  have h₃ := h₂.next (e := .answer 0 none) (by exact List.mem_singleton.2 rfl) rfl
  have h₄ := h₃.next (e := .answer 1 (some 7)) (by exact List.mem_singleton.2 rfl) rfl
  obtain ⟨-, -, -, hsucceeded, -⟩ := lookup_protocol h₄
  obtain ⟨j, hlt, hj, hpre⟩ := hsucceeded 7 [.queried 0, .answered 0 none, .queried 1, .answered 1 (some 7)] [] rfl
  exact ⟨_, h₄, rfl, j, hlt, hj, hpre.symm⟩

end Log

end EnvoyProxy.Cache
