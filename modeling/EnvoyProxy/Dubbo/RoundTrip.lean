import EnvoyProxy.Dubbo.Correlation
import EnvoyProxy.Dubbo.Context
import EnvoyProxy.Dubbo.RequestReader
/-!
# Reading a request back

What `writeDubboRequest` returns is a header and a body that a Hessian decoder
reads back piece by piece; what it throws never reaches the connection.
-/

namespace EnvoyProxy.Dubbo
open Json

/-! ## The whole body -/

/-- The attachments of a request, in the order they are written. -/
def attachmentsOf (context : DubboBridgeContext) (source : SrcsRequestContext) (getter : ArgumentGetter) : FlatStringMap :=
  context.staticAttachs ++ presentAttachments context.headerAttachs source.getHeader ++
    presentAttachments context.cookieAttachs source.getCookie ++ getter.attachmentsFromGetter.getD []

/-- The body that is meant by a request with these arguments. -/
def requestBody (context : DubboBridgeContext) (source : SrcsRequestContext) (getter : ArgumentGetter)
    (arguments : List HessianValue) : RequestBody where
  dubboVersion := ascii "2.0.2"
  service := context.service
  version := context.version
  genericMethod := ascii "$invoke"
  genericParamTypes := ascii "Ljava/lang/String;[Ljava/lang/String;[Ljava/lang/Object;"
  method := context.method
  types := context.params.map (·.type)
  arguments
  attachments := attachmentsOf context source getter

/-- An object that is sent for one of the parameters. -/
def SentArgument (context : DubboBridgeContext) (getter : ArgumentGetter) (v : HessianValue) : Prop :=
  ∃ parameter ∈ context.params, argumentObject getter parameter = .ok v

section Body
variable {encoder : Encoder} {decoder : Decoder} {context : DubboBridgeContext} {source : SrcsRequestContext}
  {getter : ArgumentGetter}

theorem sentArgument_of_forall₂ {arguments : List HessianValue}
    (ha : List.Forall₂ (fun p v => argumentObject getter p = .ok v) context.params arguments) :
    ∀ v ∈ arguments, SentArgument context getter v := by
  unfold SentArgument
  generalize context.params = params at ha
  induction ha with
  | nil => simp
  | cons hp _ ih =>
    intro v hv
    rcases List.mem_cons.1 hv with rfl | hv
    · exact ⟨_, List.mem_cons_self, hp⟩
    · obtain ⟨p, hp, hpv⟩ := ih v hv
      exact ⟨p, List.mem_cons_of_mem _ hp, hpv⟩

/-- The body, with the pieces as they are read. -/
theorem writeRequestBody_eq {body : Bytes} (hb : writeRequestBody encoder context source getter = .ok body) :
    ∃ arguments, List.Forall₂ (fun p v => argumentObject getter p = .ok v) context.params arguments ∧
      body = encoder.encodeString dubboVersionEncode ++ (encoder.encodeString context.service ++
        (encoder.encodeString context.version ++ (encoder.encodeString dubboGenericMethod ++
        (encoder.encodeString dubboGenericParamTypes ++ (encoder.encodeString context.method ++
        ((writeListBegin encoder (Int32.ofNat context.params.length) ++
          context.params.flatMap fun parameter => encoder.encodeString parameter.type) ++
        ((writeListBegin encoder (Int32.ofNat arguments.length) ++ arguments.flatMap encoder.encodeObject) ++
        0x48 :: (writeEntries encoder (attachmentsOf context source getter) ++ [0x5a])))))))) := by
  obtain ⟨arguments, hm, hb⟩ := bind_eq_ok hb
  have ha := mapM_ok hm
  refine ⟨arguments, ha, ?_⟩
  rw [← Except.ok.inj hb, ← ha.length_eq]
  simp only [attachmentsOf, writeEntries, writeStaticAttachments, writeHeaderAttachments, writeCookieAttachments,
    List.flatMap_append, List.append_assoc, List.cons_append]

theorem reads_requestBody (h : Inverts encoder decoder (SentArgument context getter)) {body : Bytes}
    (hb : writeRequestBody encoder context source getter = .ok body) (hlen : body.length < 2 ^ 32) :
    ∃ arguments, List.Forall₂ (fun p v => argumentObject getter p = .ok v) context.params arguments ∧
      Reads (readRequestBody decoder) body (requestBody context source getter arguments) := by
  obtain ⟨arguments, ha, rfl⟩ := writeRequestBody_eq hb
  have hsent := sentArgument_of_forall₂ ha
  -- a parameter takes a byte in either list, so there are less than 2^31 of them
  have hn : context.params.length < 2 ^ 31 := by
    have htypes := length_le_flatMap
      (fun parameter : Parameter => encoder.encodeString parameter.type) context.params
      fun p _ => encodeString_ne h p.type
    have harguments := length_le_flatMap encoder.encodeObject arguments fun v hv => h.object_ne v (hsent v hv)
    have hsame := ha.length_eq
    simp only [List.length_append] at hlen
    omega
  refine ⟨arguments, ha, ?_⟩
  have htypes := reads_list h (fun parameter : Parameter => encoder.encodeString parameter.type) (·.type)
    (fun p _ => h.string p.type) hn
  have harguments := reads_list h encoder.encodeObject id (fun v hv => h.object v (hsent v hv)) (ha.length_eq ▸ hn)
  rw [List.map_id] at harguments
  refine (h.string _).bind ((h.string _).bind ((h.string _).bind ((h.string _).bind ((h.string _).bind
    ((h.string _).bind (htypes.bind (harguments.bind ?_)))))))
  exact (reads_map h (attachmentsOf context source getter)).map _

end Body

/-! ## The frame -/

/-- A frame: 16 bytes of header that announce the id and the body. -/
structure RequestFrame (id : Int64) (frame body : Bytes) : Prop where
  magic : frame.take 4 = [0xda, 0xbb, 0xc2, 0x00]
  requestId : beNat ((frame.drop 4).take 8) = id.toUInt64.toNat
  length : beNat ((frame.drop 12).take 4) = body.length
  size : frame.length = 16 + body.length
  body : frame.drop 16 = body

theorem requestFrame_written (id : Int64) {body : Bytes} (hlen : body.length < 2 ^ 32) :
    RequestFrame id ([0xda, 0xbb, 0xc2, 0x00] ++ beBytes 8 id.toUInt64.toNat ++ beBytes 4 body.length ++ body)
      body := by
  have hid : id.toUInt64.toNat < 256 ^ 8 := id.toUInt64.toNat_lt
  have hsize : body.length < 256 ^ 4 := by norm_num at hlen ⊢; exact hlen
  simp only [List.append_assoc]
  refine ⟨rfl, ?_, ?_, by simp; omega, ?_⟩
  · have hfield : (beBytes 8 id.toUInt64.toNat ++ (beBytes 4 body.length ++ body)).take 8 =
        beBytes 8 id.toUInt64.toNat :=
      List.take_left' (beBytes_length _ _)
    exact (congrArg beNat hfield).trans ((beNat_beBytes _ _).trans (Nat.mod_eq_of_lt hid))
  · have hfield : ((beBytes 8 id.toUInt64.toNat ++ (beBytes 4 body.length ++ body)).drop 8).take 4 =
        beBytes 4 body.length := by
      rw [List.drop_left' (beBytes_length _ _), List.take_left' (beBytes_length _ _)]
    exact (congrArg beNat hfield).trans ((beNat_beBytes _ _).trans (Nat.mod_eq_of_lt hsize))
  · have hrest : (beBytes 8 id.toUInt64.toNat ++ (beBytes 4 body.length ++ body)).drop 12 = body := by
      rw [← List.append_assoc, List.drop_left' (by simp)]
    exact hrest

/-- An exception while the frame is written: the connection gets nothing. -/
theorem writeRequest_throws {V : Type} {env : Env V} {id : Int64} {s : DubboUpstream V} {bridge : DubboBridge V}
    {headers : RequestHeaders} {context : DubboBridgeContext} {getter : ArgumentGetter} {what : Bytes}
    (hbridge : env.bridge = some bridge) (hheaders : s.requestHeaders = some headers)
    (hcontext : bridge.getContext ⟨headers, s.bufferdBody⟩ = .ok context)
    (hgetter : bridge.argumentGetterCreator context ⟨headers, s.bufferdBody⟩ = .ok getter)
    (hthrow : writeDubboRequest env.encoder id context ⟨headers, s.bufferdBody⟩ getter = .error what)
    {r : DubboUpstream V × Int64} (h : writeRequestToUpstream env id s = .ok r) : r.1.written = s.written := by
  have hconvert : convertHttpToDubbo env bridge headers s.bufferdBody id = (.error what, id + 1) := by
    unfold convertHttpToDubbo
    simp only [hcontext, hgetter, ok_bind, pure_ok, hthrow]
  unfold writeRequestToUpstream at h
  split_ifs at h
  · cases h
    rfl
  · rw [hbridge] at h
    simp only [hheaders, hconvert] at h
    cases h
    rfl

/-- A request that is written is read back: the header, the body in order and
with nothing behind it, and as attachments those of the context. A context
from the constructor has the configured attachments and the group. A request
that throws does not reach the connection. -/
theorem request_decodes_back (V : Type) {encoder : Encoder} {decoder : Decoder} {context : DubboBridgeContext}
    {source : SrcsRequestContext} {getter : ArgumentGetter} (id : Int64)
    (h : Inverts encoder decoder (SentArgument context getter)) :
    (∀ frame, writeDubboRequest encoder id context source getter = .ok frame → frame.length < 2 ^ 32 + 16 →
      ∃ body arguments, RequestFrame id frame body ∧
        List.Forall₂ (fun p v => argumentObject getter p = .ok v) context.params arguments ∧
        (readRequestBody decoder).run body = some (requestBody context source getter arguments, [])) ∧
    (∀ jsonDefault config, Built jsonDefault config context → Configured config context) ∧
    (∀ what, writeDubboRequest encoder id context source getter = .error what →
      ∀ (env : Env V) bridge s r, env.encoder = encoder → env.bridge = some bridge →
        s.requestHeaders = some source.headers → s.bufferdBody = source.body →
        bridge.getContext source = .ok context → bridge.argumentGetterCreator context source = .ok getter →
        writeRequestToUpstream env id s = .ok r → r.1.written = s.written) := by
  refine ⟨?_, fun jsonDefault config hbuilt => hbuilt.configured, ?_⟩
  · intro frame hframe hlen
    obtain ⟨body, hbody, rfl⟩ := writeDubboRequest_eq hframe
    have hsize : body.length < 2 ^ 32 := by
      simp only [List.length_append, beBytes_length, List.length_cons, List.length_nil] at hlen
      omega
    obtain ⟨arguments, ha, hreads⟩ := reads_requestBody h hbody hsize
    exact ⟨body, arguments, requestFrame_written id hsize, ha, hreads.run_eq⟩
  · rintro what hthrow env bridge s r rfl hbridge hheaders hbuffered hcontext hgetter hwrite
    rcases source with ⟨headers, body⟩
    subst hbuffered
    exact writeRequest_throws hbridge hheaders hcontext hgetter hthrow hwrite

/-- Eight parameters, and an attachment of every kind. -/
def sumConfig : ProtoDubboBridgeContext where
  service := ascii "s"
  version := ascii "1"
  method := ascii "sum"
  group := ascii "g"
  attachments :=
    [⟨ascii "a", .static (ascii "x")⟩, ⟨ascii "b", .header (ascii "H")⟩, ⟨ascii "c", .cookie (ascii "k")⟩,
      ⟨ascii "d", .header (ascii "missing")⟩]
  parameters := (List.range 8).map fun _ => ⟨ascii "int", ascii "i", true, [], []⟩
  ignoreNullMapPair := false

def sumContext : DubboBridgeContext where
  service := ascii "s"
  version := ascii "1"
  method := ascii "sum"
  staticAttachs := [(ascii "a", ascii "x"), (ascii "group", ascii "g")]
  headerAttachs := [(ascii "b", ascii "h"), (ascii "d", ascii "missing")]
  cookieAttachs := [(ascii "c", ascii "k")]
  params := (List.range 8).map fun i => ⟨i, ascii "int", ascii "i", true, .null, []⟩

def sumSource : SrcsRequestContext :=
  ⟨⟨fun key => if key = ascii "h" then some (ascii "y") else none, [(ascii "k", ascii "z")]⟩, []⟩

def sumGetter : ArgumentGetter := ⟨fun p => .ok (some (.integer (Int32.ofNat p.index))), some [(ascii "e", ascii "w")]⟩

theorem sum_decodes_back :
    Configured sumConfig sumContext ∧
    ∃ frame body arguments, writeDubboRequest scalarEncoder 7 sumContext sumSource sumGetter = .ok frame ∧
      RequestFrame 7 frame body ∧ arguments.length = 8 ∧
      (readRequestBody scalarDecoder).run body = some (requestBody sumContext sumSource sumGetter arguments, []) := by
  have hinverts : Inverts scalarEncoder scalarDecoder (SentArgument sumContext sumGetter) := by
    apply scalar_inverts
    rintro v ⟨p, hp, hv⟩
    obtain ⟨i, -, rfl⟩ := List.mem_map.1 hp
    exact ⟨_, (Except.ok.inj hv).symm⟩
  have hbuilt : Built (fun _ _ _ => none) sumConfig sumContext :=
    ⟨_, rfl, rfl, rfl, rfl, rfl, by decide, by decide, by decide⟩
  have h := @request_decodes_back Scalar _ _ _ sumSource _ 7 hinverts
  refine ⟨h.2.1 _ _ hbuilt, ?_⟩
  have hframe : ∃ frame, writeDubboRequest scalarEncoder 7 sumContext sumSource sumGetter = .ok frame ∧
      frame.length < 2 ^ 32 + 16 := ⟨_, rfl, by decide +kernel⟩
  obtain ⟨frame, hframe, hlen⟩ := hframe
  obtain ⟨body, arguments, hheader, harguments, hrun⟩ := h.1 frame hframe hlen
  exact ⟨frame, body, arguments, hframe, hheader, harguments.length_eq.symm, hrun⟩

end EnvoyProxy.Dubbo
