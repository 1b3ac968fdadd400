import EnvoyProxy.Http.Headers
/-!
# Filter callbacks

What a filter answers to Envoy when it is called with headers or data.
-/

namespace EnvoyProxy.Http

inductive FilterHeadersStatus
  | Continue
  | StopIteration
  | StopAllIterationAndBuffer
  | StopAllIterationAndWatermark
  deriving DecidableEq, Repr

inductive FilterDataStatus
  | Continue
  | StopIterationAndBuffer
  | StopIterationNoBuffer
  deriving DecidableEq, Repr

/-- A callback with more to come, data or trailers, does not end the stream. -/
theorem endStream_eq_false {α : Type} {rest : List α} {trailers : Bool} (h : ¬ (rest = [] ∧ trailers = false)) :
    (rest.isEmpty && !trailers) = false := by
  by_contra hend
  apply h
  simpa using hend

end EnvoyProxy.Http
