import EnvoyProxy.Lib.Runs
import EnvoyProxy.Dubbo.Reader
/-!
# Streams cut into chunks

The same bytes can reach `onUpstreamData` in any number of calls. Waiting,
refused headers and the end of the stream do not depend on the cut; a frame
that is answered does, because the Hessian decoder sees every byte that has
arrived and not only the frame's body. `outcome_invariant_iff` reduces the cut
to the number of bytes visible, and `endStream_settles_iff` says when the end
of the stream settles the request.
-/

namespace EnvoyProxy.Dubbo
open Json

section Feed
variable {V : Type} (env : Env V)

/-- The calls for a stream that came in these chunks; `endStream` goes with
the last one. -/
def feed (endStream : Bool) : List Bytes → DubboUpstream V → Except Bytes (DubboUpstream V)
  | [], s => .ok s
  | [data], s => onUpstreamData env data endStream s
  | data :: next :: rest, s => do feed endStream (next :: rest) (← onUpstreamData env data false s)

/-- What the downstream got after the calls. -/
def outcome (r : Except Bytes (DubboUpstream V)) : Except Bytes (List Delivery) := r.map (·.delivered)

/-- A new upstream whose request is on its way. -/
structure Fresh (s : DubboUpstream V) : Prop where
  live : Live s
  buffer : s.dubboResponseBuffer = []
  context : s.responseContext = none
  delivered : s.delivered = []

/-- The response to a whole frame of which `visible` can be seen behind the
header. -/
def frameResponse (s : DubboUpstream V) (header : Header) (visible : Bytes) : Except Bytes Response :=
  respondOrError env s (frameReply env.codec s.protocolErrorCode s.respExceptionCode header visible)

/-- The outcome when a response was handed to `handleRawResponse`. -/
def delivering (s : DubboUpstream V) (r : Except Bytes Response) : Except Bytes (List Delivery) :=
  r.map fun r => s.delivered ++ deliveries env r

theorem feed_cons (endStream : Bool) (d : Bytes) {ds : List Bytes} (hds : ds ≠ []) (s : DubboUpstream V) :
    feed env endStream (d :: ds) s = onUpstreamData env d false s >>= feed env endStream ds := by
  cases ds with
  | nil => exact absurd rfl hds
  | cons d' ds => rfl

/-- Once the upstream has answered, the rest of the stream is not looked at. -/
theorem feed_idle (endStream : Bool) (ds : List Bytes) {s : DubboUpstream V} (hs : ¬ Live s) :
    feed env endStream ds s = .ok s := by
  induction ds with
  | nil => rfl
  | cons d ds ih =>
    by_cases hds : ds = []
    · subst hds
      exact onUpstreamData_idle env (.inl hs) endStream
    · rw [feed_cons env endStream d hds, onUpstreamData_idle env (.inl hs)]
      exact ih

theorem live_advance {s : DubboUpstream V} (hs : Live s) (a : Await) : Live (advance s a) := by
  obtain ⟨hu, hr⟩ := hs
  cases a <;> exact ⟨hu, hr⟩

theorem advance_delivered (s : DubboUpstream V) (a : Await) : (advance s a).delivered = s.delivered := by
  cases a <;> rfl

theorem advance_posted (s : DubboUpstream V) (a : Await) : (advance s a).posted = s.posted := by
  cases a <;> rfl

theorem not_live_handleRawResponse (s : DubboUpstream V) (code : Nat) (body : Bytes) (close : Bool) :
    ¬ Live (handleRawResponse env code body close s) := by
  intro h
  rw [Live, handleRawResponse_responded] at h
  exact absurd h.2 (by simp)

/-- A response ends the reading, whatever else arrives. -/
theorem feed_reaction {s : DubboUpstream V} (hs : Live s) {d : Bytes} (hd : d ≠ [])
    (ds : List Bytes) (endStream : Bool)
    {r : Except Bytes Response} (hr : reaction env s (endStream && ds.isEmpty) (awaitWith env s d) = some r) :
    outcome (feed env endStream (d :: ds) s) = delivering env s r := by
  have hdel : ∀ r : Response, (handleRawResponse env r.1 r.2.1 r.2.2 (advance s (awaitWith env s d))).delivered =
      s.delivered ++ deliveries env r := by
    intro r
    rw [handleRawResponse_delivered env (live_advance hs _).1, advance_delivered]
  by_cases hds : ds = []
  · subst hds
    simp only [List.isEmpty_nil, Bool.and_true] at hr
    simp only [feed, onUpstreamData_eq env hs hd, hr]
    cases r with
    | error what => rfl
    | ok r => exact congrArg Except.ok (hdel r)
  · have hemp : ds.isEmpty = false := by simpa using hds
    rw [hemp, Bool.and_false] at hr
    rw [feed_cons env endStream d hds, onUpstreamData_eq env hs hd, hr]
    cases r with
    | error what => rfl
    | ok r =>
      simp only [ok_bind]
      rw [feed_idle env endStream ds (not_live_handleRawResponse env _ _ _ _)]
      exact congrArg Except.ok (hdel r)

theorem reaction_advance (s : DubboUpstream V) (endStream : Bool) (a b : Await) :
    reaction env (advance s a) endStream b = reaction env s endStream b := by
  cases a <;> rfl

theorem frameResponse_advance (s : DubboUpstream V) (a : Await) (h : Header) (visible : Bytes) :
    frameResponse env (advance s a) h visible = frameResponse env s h visible := by
  cases a <;> rfl

theorem delivering_advance (s : DubboUpstream V) (a : Await) (r : Except Bytes Response) :
    delivering env (advance s a) r = delivering env s r := by
  cases a <;> rfl

/-- The outcome of a stream: the reaction to what the decoder finds in all of
it, except that a frame is answered with as many bytes visible as had arrived
when it was whole. -/
theorem feed_outcome {s : DubboUpstream V} (hs : Live s) (endStream : Bool) (ds : List Bytes) (hne : ds ≠ [])
    (hds : ∀ d ∈ ds, d ≠ []) :
    (∃ f h m, await env.codec (s.dubboResponseBuffer ++ ds.flatten) s.responseContext = .ready f h ∧
      h.bodySize ≤ m ∧ m ≤ f.length - 16 ∧
      outcome (feed env endStream ds s) = delivering env s (frameResponse env s h ((f.drop 16).take m))) ∨
    ((∀ f h, await env.codec (s.dubboResponseBuffer ++ ds.flatten) s.responseContext ≠ .ready f h) ∧
      outcome (feed env endStream ds s) =
        match reaction env s endStream (await env.codec (s.dubboResponseBuffer ++ ds.flatten) s.responseContext) with
        | none => .ok s.delivered
        | some r => delivering env s r) := by
  induction ds generalizing s with
  | nil => exact absurd rfl hne
  | cons d ds ih =>
    have hd : d ≠ [] := hds d List.mem_cons_self
    have happ : await env.codec (s.dubboResponseBuffer ++ (d :: ds).flatten) s.responseContext =
        (awaitWith env s d).append env.codec ds.flatten := by
      rw [List.flatten_cons, ← List.append_assoc]
      exact await_append env.codec _ _ _
    rw [happ]
    cases ha : awaitWith env s d with
    | ready f h =>
      have hf := (await_ready env.codec ha).1
      refine .inl ⟨f ++ ds.flatten, h, f.length - 16, rfl, by omega, by simp only [List.length_append]; omega, ?_⟩
      rw [List.drop_append_of_le_length (by omega), List.take_left' (by simp)]
      exact feed_reaction env hs hd ds endStream (by rw [ha]; rfl)
    | thrown what b =>
      exact .inr ⟨by simp [Await.append], feed_reaction env hs hd ds endStream (by rw [ha]; rfl)⟩
    | waiting b c =>
      by_cases hnil : ds = []
      · -- the last chunk: the decoder waits at the end of the stream
        subst hnil
        have hb : await env.codec (b ++ []) c = .waiting b c :=
          calc await env.codec (b ++ []) c
              = await env.codec (s.dubboResponseBuffer ++ [d].flatten) s.responseContext := by rw [happ, ha]; rfl
            _ = awaitWith env s d := by simp only [List.flatten_cons, List.flatten_nil, List.append_nil]; rfl
            _ = .waiting b c := ha
        simp only [Await.append, List.flatten_nil, hb]
        refine .inr ⟨by simp, ?_⟩
        cases hr : reaction env s endStream (.waiting b c) with
        | some r => exact feed_reaction env hs hd [] endStream (by rw [ha]; simpa using hr)
        | none =>
          simp only [feed, onUpstreamData_eq env hs hd, ha, hr]
          rfl
      · have hcall : onUpstreamData env d false s = .ok (advance s (.waiting b c)) := by
          simp only [onUpstreamData_eq env hs hd, ha, reaction, Bool.false_eq_true, if_false]
        rw [feed_cons env endStream d hnil, hcall]
        have := ih (live_advance hs (.waiting b c)) hnil fun e he => hds e (List.mem_cons_of_mem _ he)
        simp only [frameResponse_advance, reaction_advance, delivering_advance, advance_delivered] at this
        exact this

theorem awaitWith_fresh {s : DubboUpstream V} (hs : Fresh s) (d : Bytes) :
    awaitWith env s d = await env.codec d none := by
  rw [awaitWith, hs.buffer, hs.context, List.nil_append]

theorem stream_ne_nil {stream frame : Bytes} {header : Header}
    (h : await env.codec stream none = .ready frame header) :
    stream ≠ [] := by
  rintro rfl
  obtain ⟨hlen, -, drained, hd⟩ := await_ready env.codec h
  have := congrArg List.length hd
  simp only [List.length_nil, List.length_append] at this
  omega

/-- The stream cut `m` bytes behind the header of its first frame. -/
theorem outcome_cut {s : DubboUpstream V} (hs : Fresh s) {stream frame : Bytes} {header : Header} (endStream : Bool)
    (hready : await env.codec stream none = .ready frame header) {m : Nat} (hm : header.bodySize ≤ m)
    (hmf : m ≤ frame.length - 16) :
    ∃ chunks : List Bytes, chunks.flatten = stream ∧ (∀ c ∈ chunks, c ≠ []) ∧
      outcome (feed env endStream chunks s) =
        delivering env s (frameResponse env s header ((frame.drop 16).take m)) := by
  obtain ⟨hlen, -, drained, hd⟩ := await_ready env.codec hready
  by_cases hlast : m = frame.length - 16
  · -- all of it in one chunk
    refine ⟨[stream], by simp, by simpa using stream_ne_nil env hready, ?_⟩
    rw [List.take_of_length_le (by simp only [List.length_drop]; omega)]
    exact feed_reaction env hs.live (stream_ne_nil env hready) [] endStream
      (by rw [awaitWith_fresh env hs, hready]; rfl)
  · have hsplit : frame = frame.take (16 + m) ++ frame.drop (16 + m) := (List.take_append_drop _ _).symm
    have hcut : await env.codec (drained ++ frame.take (16 + m)) none = .ready (frame.take (16 + m)) header := by
      apply await_ready_of_append env.codec (y := frame.drop (16 + m))
      · rw [List.append_assoc, ← hsplit, ← hd, hready]
      · simp only [List.length_take]; omega
    have hfirst := stream_ne_nil env hcut
    have hsecond : frame.drop (16 + m) ≠ [] := by
      simp only [ne_eq, List.drop_eq_nil_iff]; omega
    refine ⟨[drained ++ frame.take (16 + m), frame.drop (16 + m)], ?_, ?_, ?_⟩
    · simp only [List.flatten_cons, List.flatten_nil, List.append_nil, List.append_assoc]
      rw [← hsplit, ← hd]
    · intro c hc
      simp only [List.mem_cons, List.not_mem_nil, or_false] at hc
      rcases hc with rfl | rfl
      · exact hfirst
      · exact hsecond
    · refine feed_reaction env hs.live hfirst _ endStream ?_
      rw [awaitWith_fresh env hs, hcut, reaction, List.drop_take, Nat.add_sub_cancel_left]
      rfl

/-- Any two ways to cut a stream into chunks give the same outcome exactly
when the response to its first frame that is no heartbeat is the same for
every number of bytes visible behind the frame's body. -/
theorem outcome_invariant_iff {s : DubboUpstream V} (hs : Fresh s) (stream : Bytes) (endStream : Bool) :
    (∀ cs ds : List Bytes, cs.flatten = stream → ds.flatten = stream → (∀ c ∈ cs, c ≠ []) → (∀ d ∈ ds, d ≠ []) →
      outcome (feed env endStream cs s) = outcome (feed env endStream ds s)) ↔
    ∀ frame header, await env.codec stream none = .ready frame header →
      ∀ m, header.bodySize ≤ m → m ≤ frame.length - 16 →
        delivering env s (frameResponse env s header ((frame.drop 16).take m)) =
          delivering env s (frameResponse env s header (frame.drop 16)) := by
  constructor
  · -- the stream in one chunk, and cut m bytes behind the header
    intro h frame header hready m hm hmf
    obtain ⟨cs, hcs, hcne, hcout⟩ := outcome_cut env hs endStream hready hm hmf
    obtain ⟨ds, hds, hdne, hdout⟩ := outcome_cut env hs endStream hready (hm.trans hmf) le_rfl
    rw [List.take_of_length_le (by simp)] at hdout
    rw [← hcout, ← hdout]
    exact h cs ds hcs hds hcne hdne
  · intro h cs ds hcs hds hcne hdne
    have hnil : ∀ es : List Bytes, es.flatten = stream → (∀ e ∈ es, e ≠ []) → (es = [] ↔ stream = []) := by
      rintro (_ | ⟨e, es⟩) rfl hes
      · simp
      · simp [hes e List.mem_cons_self]
    by_cases hstream : stream = []
    · rw [(hnil cs hcs hcne).2 hstream, (hnil ds hds hdne).2 hstream]
    · -- each outcome is the reaction to the whole stream, up to what was visible
      have key : ∀ es : List Bytes, es.flatten = stream → (∀ e ∈ es, e ≠ []) →
          outcome (feed env endStream es s) =
            match reaction env s endStream (await env.codec stream none) with
            | none => .ok s.delivered
            | some r => delivering env s r := by
        intro es hes hene
        have hne : es ≠ [] := fun h0 => hstream ((hnil es hes hene).1 h0)
        have := feed_outcome env hs.live endStream es hne hene
        rw [hes, hs.buffer, hs.context, List.nil_append] at this
        rcases this with ⟨f, hdr, m, hready, hm, hmf, hout⟩ | ⟨-, hout⟩
        · rw [hout, hready, h f hdr hready m hm hmf]
          rfl
        · exact hout
      rw [key cs hcs hcne, key ds hds hdne]

end Feed

/-- An upstream whose request is written, with the simple getter. -/
def writtenUpstream : DubboUpstream Scalar :=
  { requestComplete := true, responseGetter := some (simpleResponseGetter scalarCodec) }

theorem writtenUpstream_fresh : Fresh writtenUpstream := ⟨⟨rfl, rfl⟩, rfl, rfl, rfl⟩

/-! ## The end of the stream -/

section EndStream
variable {V : Type} (env : Env V)

/-- The getter renders every text the upstream replies with. -/
def TextsRender (getter : Option (ResponseGetter V)) : Prop :=
  ∀ reply what, reply.content = .text what → ∃ r, renderReply env.codec getter reply = .ok r

theorem handleRawResponse_getter (s : DubboUpstream V) (code : Nat) (body : Bytes) (close : Bool) :
    (handleRawResponse env code body close s).responseGetter = s.responseGetter := by
  unfold handleRawResponse decodeHeaders resetStream cleanup
  simp only
  split_ifs <;> rfl

theorem onUpstreamData_getter {s s' : DubboUpstream V} {data : Bytes} {endStream : Bool}
    (h : onUpstreamData env data endStream s = .ok s') : s'.responseGetter = s.responseGetter := by
  by_cases hidle : ¬ Live s ∨ data = []
  · rw [onUpstreamData_idle env hidle] at h
    cases h
    rfl
  · simp only [not_or, not_not] at hidle
    rw [onUpstreamData_eq env hidle.1 hidle.2] at h
    have hadv : ∀ a, (advance s a).responseGetter = s.responseGetter := fun a => by cases a <;> rfl
    cases hr : reaction env s endStream (awaitWith env s data) with
    | none =>
      rw [hr] at h
      cases h
      exact hadv _
    | some r =>
      rw [hr] at h
      obtain ⟨r, rfl, h⟩ := bind_eq_ok h
      cases h
      rw [handleRawResponse_getter, hadv]

/-- With a getter that renders texts, every reaction is a response. -/
theorem respondOrError_ok {s : DubboUpstream V} (hget : TextsRender env s.responseGetter)
    (reply : Except Bytes (Reply V)) : ∃ r, respondOrError env s reply = .ok r := by
  unfold respondOrError
  cases hr : respond env s reply with
  | ok r => exact ⟨r, rfl⟩
  | error what =>
    obtain ⟨r, he⟩ := hget (errorReply s what) what rfl
    exact ⟨(r.1, r.2, true), by simp only [respond, ok_bind, he]; rfl⟩

/-- Data that ends the stream is always answered. -/
theorem reaction_endStream (s : DubboUpstream V) (a : Await) :
    ∃ reply, reaction env s true a = some (respondOrError env s reply) := by
  cases a with
  | waiting b c => exact ⟨_, rfl⟩
  | thrown what b => exact ⟨_, rfl⟩
  | ready f h => exact ⟨_, rfl⟩

/-- After any calls, a call that ends the stream leaves the request answered
exactly when it was answered before or the call carries data. It returns if the
getter renders the texts of error replies. -/
theorem endStream_settles_iff {s₀ s : DubboUpstream V}
    (hrun : Reach (fun s (call : Bytes × Bool) => onUpstreamData env call.1 call.2 s) always s₀ s)
    (hactive : s.upstreamRequest = true) (data : Bytes) :
    (∀ s', onUpstreamData env data true s = .ok s' → (s'.responded = true ↔ s.responded = true ∨ data ≠ [])) ∧
    (TextsRender env s₀.responseGetter → ∃ s', onUpstreamData env data true s = .ok s') := by
  have hgetter : s.responseGetter = s₀.responseGetter :=
    hrun.invariant (fun t => t.responseGetter = s₀.responseGetter) rfl
      fun t call t' ht _ hstep => (onUpstreamData_getter env hstep).trans ht
  by_cases hidle : ¬ Live s ∨ data = []
  · rw [onUpstreamData_idle env hidle]
    refine ⟨?_, fun _ => ⟨s, rfl⟩⟩
    rintro s' ⟨⟩
    rcases hidle with hl | rfl
    · have hresp : s.responded = true := by
        by_contra hr
        exact hl ⟨hactive, by simpa using hr⟩
      simp [hresp]
    · simp
  · simp only [not_or, not_not] at hidle
    obtain ⟨reply, hreply⟩ := reaction_endStream env s (awaitWith env s data)
    rw [onUpstreamData_eq env hidle.1 hidle.2, hreply]
    constructor
    · intro s' hs'
      obtain ⟨r, -, hs'⟩ := bind_eq_ok hs'
      cases hs'
      simp [handleRawResponse_responded, hidle.2]
    · intro hget
      obtain ⟨r, hr⟩ := respondOrError_ok env (s := s) (by rwa [hgetter]) reply
      rw [hr]
      exact ⟨_, rfl⟩

end EndStream

theorem scalar_textsRender : TextsRender scalarEnv writtenUpstream.responseGetter := by
  intro reply what hc
  exact ⟨_, rfl⟩

/-- The upstream once it has received a part of a header. -/
def halfHeader : DubboUpstream Scalar := { writtenUpstream with dubboResponseBuffer := [0xda, 0xbb] }

theorem halfHeader_settled :
    ∃ s', onUpstreamData scalarEnv [0x02] true halfHeader = .ok s' ∧
      (s'.responded = true ↔ halfHeader.responded = true ∨ ([0x02] : Bytes) ≠ []) := by
  have hrun : [(([0xda, 0xbb] : Bytes), false)].foldlM
      (fun s (call : Bytes × Bool) => onUpstreamData scalarEnv call.1 call.2 s) writtenUpstream =
        .ok halfHeader := rfl
  have hsettles := endStream_settles_iff scalarEnv (reach_of_foldlM _ hrun) rfl [0x02]
  obtain ⟨s', hs'⟩ := hsettles.2 scalar_textsRender
  exact ⟨s', hs', hsettles.1 s' hs'⟩

/-- The end of the stream in a call without data is not answered. -/
theorem emptyEnd_unsettled :
    Live writtenUpstream ∧ writtenUpstream.requestComplete = true ∧
    (onUpstreamData scalarEnv [] true writtenUpstream).map (·.responded) = .ok false := by
  exact ⟨⟨rfl, rfl⟩, rfl, rfl⟩

end EnvoyProxy.Dubbo
