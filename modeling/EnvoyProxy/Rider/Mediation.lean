import EnvoyProxy.Rider.BodyV1
/-!
# Body handlers come first

No part of a body and no end of a message goes on before the handler for the
body has had all of it: the handler of version 2, or code of version 1 that
waits in `get_body`. Trailers break this, and so do messages whose end comes
where no handler is started.
-/

namespace EnvoyProxy.Rider
open Json Http StreamWrapper

variable {H : Type} [HeaderMap H]

/-! ## What is to hold -/

/-- The handler for the body has come first. The code of version 1 is such a
handler once it has waited for the body. -/
def Mediated (plugin : Plugin) (d : StreamDirection) (s : Stream H) : Prop :=
  match plugin.version with
  | .v1 => ∀ w, (s.side d).streamWrapper = some w → w.bufferedBody = true → Released (s.side d).pipe →
      w.state ≠ .WaitForBody ∧ HadBody .resumed (s.side d) (s.own d)
  | .v2 => plugin.onBody d = true → Released (s.side d).pipe → HadBody .body (s.side d) (s.own d)

/-- A step in which the end of a message goes past the handler, or the handler
begins to wait when it is past. -/
def Bypasses (plugin : Plugin) (s : Stream H) : Event H → Prop
  | .arrival d a => s.over = false ∧ fits (s.side d).pipe a = true ∧ Early plugin d s a
  | .httpDone d =>
    s.over = false ∧ (s.side d).pipe.trailers = true ∧
    ∃ w, (s.side d).streamWrapper = some w ∧ w.httpRequest = true ∧ w.state = .HttpCall ∧
      match plugin.version with
      | .v1 => (plugin.script s.entered.length).outcome H d w = some .WaitForBody
      | .v2 => plugin.onBody d = true ∧ (plugin.script s.entered.length).outcome H d w = some .Running
  | .onDestroy => False

/-! ## Every run -/

section Runs
variable {plugin : Plugin} {d : StreamDirection} {s t : Stream H}

/-- A direction has had nothing yet, or its message is under the eyes of the
handler. -/
inductive Tracks (plugin : Plugin) (d : StreamDirection) (s : Stream H) : Prop
  | fresh (hpipe : (s.side d).pipe = {}) (hreceived : (s.side d).received = []) (hnone : (s.side d).streamWrapper = none)
  | begunV1 (hheaders : (s.side d).pipe.headers ≠ none) (hversion : plugin.version = .v1) (hbegun : BegunV1 d s)
  | begunV2 (hheaders : (s.side d).pipe.headers ≠ none) (hversion : plugin.version = .v2) (hbegun : BegunV2 plugin d s)

section Sides
omit [HeaderMap H]

theorem Tracks.mediated (h : Tracks plugin d s) : Mediated plugin d s := by
  unfold Mediated
  cases h with
  | fresh hpipe _ hnone =>
    have hreleased : ¬ Released (s.side d).pipe := by
      rw [hpipe]
      rintro ⟨x, hx, -⟩
      cases hx
    split
    · exact fun w hw => absurd (hnone.symm.trans hw) (by simp)
    · exact fun _ h => absurd h hreleased
  | begunV1 _ hversion hbegun =>
    rw [hversion]
    intro w hw hbuffered hreleased
    have hreads := hbegun.reads w hw
    have hnot : w.state ≠ .WaitForBody := fun hwaits => (hreads.waits hwaits).released hreleased
    exact ⟨hnot, (hreads.had hnot hbuffered).2⟩
  | begunV2 _ hversion hbegun =>
    rw [hversion]
    intro honBody hreleased
    exact (hbegun honBody).resolve_right fun hheld => hheld.released hreleased

theorem Tracks.congr (h : Tracks plugin d s) (hside : t.side d = s.side d)
    (hown : t.own d = s.own d) : Tracks plugin d t := by
  cases h with
  | fresh hpipe hreceived hnone =>
    rw [← hside] at hpipe hreceived hnone
    exact .fresh hpipe hreceived hnone
  | begunV1 hheaders hversion hbegun =>
    refine .begunV1 (by rwa [hside]) hversion ⟨?_, ?_⟩
    · rw [hside]
      exact hbegun.iteration
    · rw [hside, hown]
      exact hbegun.reads
  | begunV2 hheaders hversion hbegun =>
    refine .begunV2 (by rwa [hside]) hversion ?_
    unfold BegunV2
    rwa [hside, hown]

/-- A step of one direction is none of the other's. -/
theorem Tracks.other (h : ∀ d, Tracks plugin d s) (ht : Within d s t)
    (htracks : Tracks plugin d t) : ∀ d, Tracks plugin d t := by
  intro d'
  by_cases hd : d' = d
  · subst hd
    exact htracks
  · exact (h d').congr (ht.other d' hd) (ht.own_ne hd)

/-- A stream that is gone keeps what it knows. -/
theorem Tracks.onDestroy (h : Tracks plugin d s) : Tracks plugin d s.onDestroy := by
  have hside : s.onDestroy.side d = (s.side d).onReset := by
    cases d <;> rfl
  have hwrapper : ∀ w, (s.onDestroy.side d).streamWrapper = some w →
      ∃ w₀, (s.side d).streamWrapper = some w₀ ∧ w = { w₀ with httpRequest := false } := by
    intro w hw
    rw [hside] at hw
    obtain ⟨w₀, hw₀, rfl⟩ := Option.map_eq_some_iff.1 hw
    exact ⟨w₀, hw₀, rfl⟩
  cases h with
  | fresh hpipe hreceived hnone =>
    refine .fresh (by rw [hside]; exact hpipe) (by rw [hside]; exact hreceived) ?_
    rw [hside]
    unfold Side.onReset
    rw [hnone]
    rfl
  | begunV1 hheaders hversion hbegun =>
    refine .begunV1 (by rw [hside]; exact hheaders) hversion ⟨by rw [hside]; exact hbegun.iteration, ?_⟩
    intro w hw
    obtain ⟨w₀, hw₀, rfl⟩ := hwrapper w hw
    obtain ⟨hwaits, hhad, hcalls, hstart⟩ := hbegun.reads w₀ hw₀
    rw [hside]
    refine ⟨?_, hhad, ?_, hstart⟩
    · exact fun hw => ⟨(hwaits hw).released, (hwaits hw).buffer, (hwaits hw).more, (hwaits hw).stopped⟩
    · intro hc hend hsaw htrailers
      have hsuspended := hcalls hc hend hsaw htrailers
      exact ⟨hsuspended.released, hsuspended.buffer, hsuspended.more, hsuspended.stopped⟩
  | begunV2 hheaders hversion hbegun =>
    refine .begunV2 (by rw [hside]; exact hheaders) hversion fun honBody => ?_
    rcases hbegun honBody with hhad | hheld
    · rw [hside]
      exact .inl hhad
    · right
      refine ⟨by rw [hside]; exact hheld.released, by rw [hside]; exact hheld.buffer, ?_, ?_, ?_⟩
      · intro w hw
        obtain ⟨w₀, hw₀, rfl⟩ := hwrapper w hw
        exact hheld.ready w₀ hw₀
      · intro w hw
        obtain ⟨w₀, hw₀, rfl⟩ := hwrapper w hw
        rw [hside]
        exact hheld.calls w₀ hw₀
      · intro w hw
        obtain ⟨w₀, hw₀, rfl⟩ := hwrapper w hw
        rw [hside]
        exact hheld.starts w₀ hw₀

end Sides

omit [HeaderMap H] in
theorem receive_begun (h : Disturbed t ∨ Within d s t ∧ (t.side d).pipe.headers ≠ none ∧
      ((plugin.version = .v1 ∧ BegunV1 d t) ∨ (plugin.version = .v2 ∧ BegunV2 plugin d t)))
    (hs : ∀ d, Tracks plugin d s) : Disturbed t ∨ ∀ d, Tracks plugin d t := by
  rcases h with hdisturbed | ⟨hwithin, hheaders, ⟨hversion, hbegun⟩ | ⟨hversion, hbegun⟩⟩
  · exact .inl hdisturbed
  · exact .inr (Tracks.other hs hwithin (.begunV1 hheaders hversion hbegun))
  · exact .inr (Tracks.other hs hwithin (.begunV2 hheaders hversion hbegun))

variable (plugin) in
/-- Data and trailers leave the headers. -/
theorem receive_more (a : Arrival H) (ha : match a with | .headers .. => False | _ => True)
    (hheaders : (s.side d).pipe.headers ≠ none) :
    ((s.receive plugin d a).side d).pipe.headers ≠ none := by
  have hcases := receive_stream plugin (filterCallbacks plugin d) s (s.side d).pipe a
  unfold Stream.receive
  rw [Stream.store, Stream.side_setSide]
  cases a with
  | headers => exact ha.elim
  | data => rwa [hcases.2.1]
  | trailers => rwa [hcases.2.1]

theorem tracks_receive (hdisturbed : ¬ Disturbed s) (hs : ∀ d, Tracks plugin d s) {a : Arrival H}
    (hfits : fits (s.side d).pipe a = true) (hearly : ¬ Early plugin d s a) :
    Disturbed (s.receive plugin d a) ∨ ∀ d', Tracks plugin d' (s.receive plugin d a) := by
  refine receive_begun (d := d) ?_ hs
  have herror : s.error = false := by
    unfold Disturbed at hdisturbed
    rw [not_or, Bool.not_eq_true] at hdisturbed
    exact hdisturbed.1
  cases a with
  | headers h e =>
    obtain ⟨hheaders, -⟩ := receive_headers plugin d s h e
    have hkept : ((s.receive plugin d (.headers h e)).side d).pipe.headers ≠ none := by rw [hheaders]; simp
    have hfresh : (s.side d).pipe = {} ∧ (s.side d).received = [] ∧ (s.side d).streamWrapper = none := by
      have hnone : (s.side d).pipe.headers = none := by simpa [fits] using hfits
      cases hs d with
      | fresh hpipe hreceived hwrapper => exact ⟨hpipe, hreceived, hwrapper⟩
      | begunV1 hsome | begunV2 hsome => exact absurd hnone hsome
    cases hversion : plugin.version with
    | v1 => exact (headersV1 hversion hfresh h e).imp_right fun hwithin => ⟨hwithin.1, hkept, .inl ⟨rfl, hwithin.2⟩⟩
    | v2 =>
      exact (headersV2 hversion herror hfresh hearly).imp_right fun hwithin =>
        ⟨hwithin.1, hkept, .inr ⟨rfl, hwithin.2⟩⟩
  | data bytes e =>
    obtain ⟨hheaders, hmore⟩ := fits_more hfits
    have hkept := receive_more plugin (.data bytes e) trivial hheaders
    cases hs d with
    | fresh hpipe => exact absurd (by rw [hpipe]) hheaders
    | begunV1 _ hversion hbegun =>
      exact (dataV1 hversion hdisturbed hmore hbegun).imp_right fun hwithin =>
        ⟨hwithin.1, hkept, .inl ⟨hversion, hwithin.2⟩⟩
    | begunV2 _ hversion hbegun =>
      exact (dataV2 hversion hdisturbed hmore hbegun hearly).imp_right fun hwithin =>
        ⟨hwithin.1, hkept, .inr ⟨hversion, hwithin.2⟩⟩
  | trailers =>
    obtain ⟨hheaders, hmore⟩ := fits_more hfits
    have hkept := receive_more plugin .trailers trivial hheaders
    right
    cases hs d with
    | fresh hpipe => exact absurd (by rw [hpipe]) hheaders
    | begunV1 _ hversion hbegun =>
      obtain ⟨hwithin, hbegun⟩ := trailersV1 hversion hmore hbegun hearly
      exact ⟨hwithin, hkept, .inl ⟨hversion, hbegun⟩⟩
    | begunV2 _ hversion hbegun =>
      obtain ⟨hwithin, hbegun⟩ := trailersV2 hversion hmore hbegun hearly
      exact ⟨hwithin, hkept, .inr ⟨hversion, hbegun⟩⟩

theorem tracks_complete (hs : ∀ d, Tracks plugin d s) {w : StreamWrapper}
    (hwrapper : (s.side d).streamWrapper = some w)
    (hover : s.over = false) (hrequest : w.httpRequest = true) (hbypass : ¬ Bypasses plugin s (.httpDone d)) :
    Disturbed (s.complete plugin d w) ∨ ∀ d', Tracks plugin d' (s.complete plugin d w) := by
  refine receive_begun (d := d) ?_ hs
  cases hs d with
  | fresh _ _ hnone => exact absurd (hwrapper.symm.trans hnone) (by simp)
  | begunV1 hheaders hversion hbegun =>
    have hnot : ¬ ((s.side d).pipe.trailers = true ∧ w.state = .HttpCall ∧
        (plugin.script s.entered.length).outcome H d w = some .WaitForBody) := by
      rintro ⟨htrailers, hcall, houtcome⟩
      apply hbypass
      refine ⟨hover, htrailers, w, hwrapper, hrequest, hcall, ?_⟩
      rw [hversion]
      exact houtcome
    rcases completeV1 hwrapper hbegun hnot with hdisturbed | ⟨hwithin, hsame, hbegun⟩
    · exact .inl hdisturbed
    · exact .inr ⟨hwithin, by rwa [hsame.1], .inl ⟨hversion, hbegun⟩⟩
  | begunV2 hheaders hversion hbegun =>
    have hnot : ¬ ((s.side d).pipe.trailers = true ∧ w.state = .HttpCall ∧ plugin.onBody d = true ∧
        (plugin.script s.entered.length).outcome H d w = some .Running) := by
      rintro ⟨htrailers, hcall, honBody, houtcome⟩
      apply hbypass
      refine ⟨hover, htrailers, w, hwrapper, hrequest, hcall, ?_⟩
      rw [hversion]
      exact ⟨honBody, houtcome⟩
    rcases completeV2 hversion hwrapper hbegun hnot with hdisturbed | ⟨hwithin, hsame, hbegun⟩
    · exact .inl hdisturbed
    · exact .inr ⟨hwithin, by rwa [hsame.1], .inr ⟨hversion, hbegun⟩⟩

theorem tracks_step (hdisturbed : ¬ Disturbed s) (hs : ∀ d, Tracks plugin d s) {e : Event H}
    (hbypass : ¬ Bypasses plugin s e) :
    Disturbed (s.step plugin e) ∨ ∀ d, Tracks plugin d (s.step plugin e) := by
  cases e with
  | arrival d a =>
    dsimp only [Stream.step]
    by_cases hnext : (!s.over && fits (s.side d).pipe a) = true
    · rw [if_pos hnext]
      obtain ⟨hover, hfits⟩ : s.over = false ∧ fits (s.side d).pipe a = true := by simpa using hnext
      apply tracks_receive hdisturbed hs hfits
      exact fun hearly => hbypass ⟨hover, hfits, hearly⟩
    · rw [if_neg hnext]
      exact .inr hs
  | httpDone d =>
    dsimp only [Stream.step]
    split
    · rename_i w hwrapper
      by_cases hnext : (!s.over && w.httpRequest) = true
      · rw [if_pos hnext]
        obtain ⟨hover, hrequest⟩ : s.over = false ∧ w.httpRequest = true := by simpa using hnext
        exact tracks_complete hs hwrapper hover hrequest hbypass
      · rw [if_neg hnext]
        exact .inr hs
    · exact .inr hs
  | onDestroy => exact .inr fun d => (hs d).onDestroy

theorem tracks_run (hs : ∀ d, Tracks plugin d s) (es : List (Event H))
    (hsteps : EachStep (Stream.step plugin) (fun s e => ¬ Disturbed s ∧ ¬ Bypasses plugin s e) s es)
    (hend : ¬ Disturbed (s.run plugin es)) : ∀ d, Tracks plugin d (s.run plugin es) := by
  induction es generalizing s with
  | nil => exact hs
  | cons e es ih =>
    obtain ⟨⟨hdisturbed, hbypass⟩, hrest⟩ := hsteps
    rcases tracks_step hdisturbed hs hbypass with hlate | htracks
    · -- the disturbance would show at the next step, or at the end
      cases es with
      | nil => exact absurd hlate hend
      | cons e' es => exact absurd hlate hrest.1.1
    · exact ih htracks hrest hend

end Runs

/-- The handler for the body comes first in every run in which nothing fails
or responds, and in which no end of a message goes past it. -/
theorem body_mediated {H : Type} [HeaderMap H] (plugin : Plugin) (self : Nat) (route : Route) (elsewhere : Nat → Option Nat)
    (es : List (Event H))
    (hsteps : EachStep (Stream.step plugin) (fun s e => ¬ Disturbed s ∧ ¬ Bypasses plugin s e) { self, route, elsewhere } es)
    (hend : ¬ Disturbed (Stream.run plugin { self, route, elsewhere } es)) (d : StreamDirection) :
    Mediated plugin d (Stream.run plugin { self, route, elsewhere } es) := by
  refine (tracks_run ?_ es hsteps hend d).mediated
  intro d'
  cases d' <;> exact .fresh rfl rfl rfl

/-- A body in two frames, and its handler at the end of the second. -/
theorem two_frames_mediated :
    let plugin : Plugin := { version := .v2, onRequestBody := true, script := fun _ => .finish }
    Mediated plugin .downstreamToUpstream (Stream.run plugin ({ route := .withConfig } : Stream HeaderList)
      [.arrival .downstreamToUpstream (.headers [] false), .arrival .downstreamToUpstream (.data [120] false),
        .arrival .downstreamToUpstream (.data [121] true)]) := by
  intro plugin
  have hcalm : ∀ s : Stream HeaderList, s.error = false → (∀ d, (s.side d).state ≠ .Responded) → ¬ Disturbed s := by
    rintro s herror hstate (h | ⟨d, w, hw, h⟩)
    · exact absurd (herror.symm.trans h) (by simp)
    · apply hstate d
      unfold Side.state
      rw [hw]
      exact h
  apply body_mediated plugin 0 .withConfig (fun _ => none)
  · refine ⟨⟨hcalm _ rfl ?_, ?_⟩, ⟨hcalm _ rfl ?_, ?_⟩, ⟨hcalm _ rfl ?_, ?_⟩, trivial⟩
    · exact fun d => by cases d <;> rintro ⟨⟩
    · exact fun h => h.2.2
    · exact fun d => by cases d <;> rintro ⟨⟩
    · exact fun h => h.2.2
    · exact fun d => by cases d <;> rintro ⟨⟩
    · -- the first frame has made no wrapper that waits for the body
      exact fun h => absurd h.2.2.2.2 (by rintro ⟨⟩)
  · exact hcalm _ rfl fun d => by cases d <;> rintro ⟨⟩

/-- Trailers go on with the frame before them, and no handler has run. -/
theorem trailers_bypass :
    let plugin : Plugin := { version := .v2, onRequestBody := true, script := fun _ => .finish }
    let s := Stream.run plugin ({ route := .withConfig } : Stream HeaderList) [.arrival .downstreamToUpstream (.headers [] false),
      .arrival .downstreamToUpstream (.data [120] false), .arrival .downstreamToUpstream .trailers]
    s.error = false ∧ s.entered = [] ∧ s.request.pipe.passed = [.headers [] false, .data [120] false, .trailers] ∧
      ¬ Mediated plugin .downstreamToUpstream s := by
  intro plugin s
  have hentered : s.entered = [] := rfl
  have hpassed : s.request.pipe.passed = [.headers [] false, .data [120] false, .trailers] := rfl
  refine ⟨rfl, hentered, hpassed, ?_⟩
  intro hmediated
  obtain ⟨-, e, he, -⟩ := hmediated rfl ⟨.data [120] false, by rw [show s.side .downstreamToUpstream = s.request from rfl, hpassed]; simp, .inl (by rintro ⟨⟩)⟩
  unfold Stream.own at he
  rw [hentered] at he
  cases he

end EnvoyProxy.Rider
