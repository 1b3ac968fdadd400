import EnvoyProxy.Http.Filter
/-!
# Routes and local replies

What a filter asks of the route of a request, and how it answers a request
itself.
-/

namespace EnvoyProxy.Http

/-- A route: whether it has a route entry, and what
`resolveMostSpecificPerFilterConfig` finds for the filter. -/
structure FilterRoute (C : Type) where
  routeEntry : Bool := true
  perFilterConfig : Option C

/-- `sendLocalReply`, with the headers that are added to the reply. -/
structure LocalReply where
  code : Nat
  body : Bytes
  addedHeaders : List (LowerCaseString × HeaderString) := []
  details : Bytes
  deriving DecidableEq

end EnvoyProxy.Http
