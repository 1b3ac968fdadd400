import EnvoyProxy.Http.Headers
/-!
# Rewriting a request

The header rewrite filter (header_rewrite.cc): extractors read the headers,
the path and the query parameters of a request into a context, and rewriters
render templates over that context and write the texts back. Rendered texts
are arbitrary bytes, so here a header map is what takes such texts for values.
The template engine is a parameter: rendering gives a text or throws.
-/

namespace EnvoyProxy.HeaderRewrite
open Http Json

/-- What the filter uses of Envoy's `HeaderMap`. Names are in lower case, and
`get` gives the values of a name. -/
class TextHeaders (H : Type) where
  get : H → Bytes → List Bytes
  addCopy : H → Bytes → Bytes → H
  remove : H → Bytes → H
  /-- `Path()->value(text)` -/
  setPath : H → Bytes → H
  get_remove : ∀ h name, get (remove h name) name = []
  remove_absent : ∀ h name, get h name = [] → remove h name = h
  get_setPath : ∀ h text, get h (ascii ":path") ≠ [] → get (setPath h text) (ascii ":path") = [text]

/-- `Path()->value()`, if there is a path. -/
def pathOf {H : Type} [TextHeaders H] (h : H) : Option Bytes := (TextHeaders.get h (ascii ":path")).head?

/-- `std::map<std::string, std::string>` -/
abbrev QueryParams := Std.TreeMap Bytes Bytes compare

/-- The object that templates are rendered over; its members are texts. -/
abbrev ContextDict := Std.TreeMap Bytes Bytes compare

/-- `inja::Environment`; `T` are its parsed templates. What it throws is a text. -/
structure TemplateEnv (T : Type) where
  parse : Bytes → Except Bytes T
  render : T → ContextDict → Except Bytes Bytes

/-- The three things a rewriter gets by reference. -/
structure Request (H : Type) where
  headers : H
  path : Bytes
  params : QueryParams

variable {H T : Type}

/-! ## Extractors -/

inductive Source
  | headerName (name : Bytes)
  | path
  | parameter (name : Bytes)
  /-- With the value that the variable had when the extractor was made. -/
  | environment (value : Bytes)

/-- `regex` is there if the group is not 0: the text of the group, if the
whole value matches. -/
structure Extractor where
  source : Source
  regex : Option (Bytes → Option Bytes)

def Extractor.value [TextHeaders H] (e : Extractor) (r : Request H) : Bytes :=
  match e.source with
  | .headerName name => (TextHeaders.get r.headers (toLower name)).head?.getD []
  | .parameter name => r.params.getD name []
  | .path => r.path
  | .environment value => value

def Extractor.extract [TextHeaders H] (e : Extractor) (r : Request H) : Bytes :=
  match e.regex with
  | none => e.value r
  | some fullMatch => if e.value r = [] then [] else (fullMatch (e.value r)).getD []

/-! ## Rewriters -/

inductive Target
  | headerName (name : Bytes)
  | path
  | parameter (name : Bytes)

/-- `target_case()` -/
def Target.case : Option Target → Nat
  | none => 0
  | some (.headerName _) => 1
  | some .path => 2
  | some (.parameter _) => 3

inductive Operation
  | update (text : Bytes)
  | append (text : Bytes)
  | remove

/-- `operation_case()` -/
def Operation.case : Option Operation → Nat
  | none => 0
  | some (.update _) => 4
  | some (.append _) => 5
  | some .remove => 6

/-- A message, of which either part may not be set. -/
structure ProtoRewriter (H : Type) where
  target : Option Target
  operation : Option Operation
  matcher : Option (H → Bool)

/-- `proto_config.update() + proto_config.append()` -/
def ProtoRewriter.templateString (p : ProtoRewriter H) : Bytes :=
  match p.operation with
  | some (.update text) | some (.append text) => text
  | _ => []

structure Rewriter (H T : Type) where
  target : Target
  operation : Operation
  template : T
  matcher : Option (H → Bool)

/-- The constructor of `Rewriter`. -/
def Rewriter.create (env : TemplateEnv T) (p : ProtoRewriter H) : Except Bytes (Rewriter H T) := do
  let template ← env.parse p.templateString
  match p.target, p.operation with
  | some target, some operation => .ok { target, operation, template, matcher := p.matcher }
  | target, operation =>
    .error (ascii "Un-supported target: " ++ natText (Target.case target) ++ ascii " or operation: " ++
      natText (Operation.case operation) ++ ascii " for header rewrite")

/-- What it has written when it throws stays written. -/
abbrev RewriterF (H : Type) := ContextDict → EStateM Bytes (Request H) Unit

section
variable [TextHeaders H] (env : TemplateEnv T)

def render (template : T) (c : ContextDict) : EStateM Bytes (Request H) Bytes :=
  match env.render template c with
  | .ok value => pure value
  | .error what => throw what

/-- `rewriter_func_`. There is none for removing the path. -/
def Rewriter.rewriterFunc (r : Rewriter H T) : Option (RewriterF H) :=
  match r.operation, r.target with
  | .remove, .headerName name => some fun _ =>
    modify fun s => { s with headers := TextHeaders.remove s.headers (toLower name) }
  | .remove, .path => none
  | .remove, .parameter name => some fun _ => modify fun s => { s with params := s.params.erase name }
  | .append _, .headerName name => some fun c => do
    let value ← render env r.template c
    modify fun s => { s with headers := TextHeaders.addCopy s.headers (toLower name) value }
  | .append _, .path => some fun c => do
    let value ← render env r.template c
    modify fun s => { s with path := s.path ++ value }
  | .append _, .parameter name => some fun c => do
    let value ← render env r.template c
    modify fun s => { s with params := s.params.insert name (s.params.getD name [] ++ value) }
  | .update _, .headerName name => some fun c => do
    -- the old values go before the new one is there
    modify fun s => { s with headers := TextHeaders.remove s.headers (toLower name) }
    let value ← render env r.template c
    modify fun s => { s with headers := TextHeaders.addCopy s.headers (toLower name) value }
  | .update _, .path => some fun c => do
    let value ← render env r.template c
    modify fun s => { s with path := if value = [] then s.path else value }
  | .update _, .parameter name => some fun c => do
    let value ← render env r.template c
    modify fun s => { s with params := s.params.insert name value }

def Rewriter.enableRewrite (r : Rewriter H T) (h : H) : Bool :=
  match r.matcher with
  | some matched => matched h
  | none => true

/-- `Rewriter::rewrite`. What is thrown is logged. -/
def Rewriter.rewrite (r : Rewriter H T) (c : ContextDict) (s : Request H) : Request H :=
  match r.rewriterFunc env with
  | some f =>
    if r.enableRewrite s.headers then
      match (f c).run s with
      | .ok _ s' | .error _ s' => s'
    else s
  | none => s

/-- Rewriters, one after the other. -/
def rewriteEach (rewriters : List (Rewriter H T)) (c : ContextDict) (s : Request H) : Request H :=
  rewriters.foldl (fun s r => r.rewrite env c s) s

end

/-! ## Configuration -/

/-- `ExtractorRewriterConfig` -/
structure ExtractorRewriterConfig (H T : Type) where
  extractors : List (Bytes × Extractor)
  rewriters : List (Rewriter H T)

namespace ExtractorRewriterConfig

/-- `would_update_path_` -/
def wouldUpdatePath (config : ExtractorRewriterConfig H T) : Bool :=
  config.rewriters.any fun r =>
    match r.target with
    | .headerName _ => false
    | .path | .parameter _ => true

def create (env : TemplateEnv T) (extractors : List (Bytes × Extractor)) (rewriters : List (ProtoRewriter H)) :
    Except Bytes (ExtractorRewriterConfig H T) := do
  let rewriters ← rewriters.mapM (Rewriter.create env)
  return { extractors, rewriters }

variable [TextHeaders H] (config : ExtractorRewriterConfig H T)

def extractContext (s : Request H) (c : ContextDict) : ContextDict :=
  config.extractors.foldl (fun c pair => c.insert pair.1 (pair.2.extract s)) c

def rewriteHeaders (env : TemplateEnv T) (s : Request H) (c : ContextDict) : Request H :=
  rewriteEach env config.rewriters c s

end ExtractorRewriterConfig

/-- Encoding rewriters have headers for targets. -/
structure HeaderRewriteConfig (H R T : Type) where
  decoder : ExtractorRewriterConfig H T
  encoder : ExtractorRewriterConfig R T
  clearRouteCache : Bool
  encodesHeaders : encoder.wouldUpdatePath = false

def HeaderRewriteConfig.create {R : Type} (decoder : ExtractorRewriterConfig H T) (encoder : ExtractorRewriterConfig R T)
    (clearRouteCache : Bool) : Except Bytes (HeaderRewriteConfig H R T) :=
  if h : encoder.wouldUpdatePath = false then .ok { decoder, encoder, clearRouteCache, encodesHeaders := h }
  else .error (ascii "Illegal target: only header target can be set for encode rewrite")

/-! ## Headers in a list -/

/-- Names with their values. -/
abbrev HeaderTexts := List (Bytes × Bytes)

instance : TextHeaders HeaderTexts where
  get l name := (l.filter (·.1 = name)).map (·.2)
  addCopy l name value := l ++ [(name, value)]
  remove l name := l.filter (·.1 ≠ name)
  setPath l text := (ascii ":path", text) :: l.filter (·.1 ≠ ascii ":path")
  get_remove l name := by simp [List.filter_filter]
  remove_absent l name h := by
    apply List.filter_eq_self.2
    intro e he
    simp only [List.map_eq_nil_iff, List.filter_eq_nil_iff, decide_eq_true_eq] at h
    simpa using h e he
  get_setPath l text _ := by simp [List.filter_filter]

end EnvoyProxy.HeaderRewrite
