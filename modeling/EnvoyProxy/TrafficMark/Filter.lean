import EnvoyProxy.Http.Headers
import EnvoyProxy.TrafficMark.Color
/-!
# The traffic mark filter

`HttpTrafficMarkFilter::decodeHeaders`: it copies values of the route into the
dynamic metadata that the load balancer reads, and next to them the colour of
the request, or what the colours of the cluster have for it.
-/

namespace EnvoyProxy.TrafficMark
open Http

/-- `ProtobufWkt::Value`. A number is its bits; what the filter does not look
into is left as it is. -/
inductive Value
  | string (s : Bytes)
  | number (d : UInt64)
  | bool (b : Bool)
  | other

def Value.isSimple : Value → Bool
  | .string _ | .number _ | .bool _ => true
  | .other => false

abbrev Struct := Std.TreeMap Bytes Value compare

/-- `filter_metadata` -/
abbrev Metadata := Std.TreeMap Bytes Struct compare

structure MetadataPath where
  metadataNamespace : Bytes
  path : List Bytes

structure ConfigImpl where
  headerKey : LowerCaseString
  matchKey : Bytes
  allColorsKey : Bytes
  metadataAsMark : List (Bytes × MetadataPath)

structure RouteEntry where
  clusterName : Bytes

/-- `metadata` is `metadataValue` of what a route or cluster has. -/
structure Route where
  routeEntry : Option RouteEntry
  metadata : Bytes → List Bytes → Value

structure ClusterInfo where
  metadata : Bytes → Bytes → Value

/-- `StringUtil::splitToken(text, ",")` -/
def splitToken (text : Bytes) : List Bytes := (text.splitOn 44).filter (· ≠ [])

def envoyLb : Bytes := ascii "envoy.lb"

def clusterMetadataGroupKey : Bytes := ascii "qingzhou"

variable {H : Type} [HeaderMap H]

/-- The marks of the route, as they are set in `envoy.lb`. -/
def setMarks (config : ConfigImpl) (route : Route) (lb : Struct) : Struct :=
  config.metadataAsMark.foldl
    (fun lb pair =>
      let value := route.metadata pair.2.metadataNamespace pair.2.path
      if value.isSimple then lb.insert pair.1 value else lb)
    lb

/-- The value of the configured header. -/
def requestColor (config : ConfigImpl) (headers : H) : Bytes :=
  ((HeaderMap.get headers config.headerKey).head?.map (·.value.bytes)).getD []

/-- The dynamic metadata afterwards; nothing if a character out of range is read. -/
def decodeHeaders (config : ConfigImpl) (getThreadLocalCluster : Bytes → Option (Option ClusterInfo)) (route : Option Route)
    (headers : H) (dynamic : Metadata) : Option Metadata :=
  match route with
  | none => some dynamic
  | some route =>
    match route.routeEntry with
    | none => some dynamic
    | some entry =>
      let lb := setMarks config route (dynamic.getD envoyLb ∅)
      let dynamic := dynamic.insert envoyLb lb
      match getThreadLocalCluster entry.clusterName with
      | some (some info) =>
        match info.metadata clusterMetadataGroupKey config.allColorsKey with
        | .string text =>
          if splitToken text = [] then some dynamic
          else do
            let result ← tryFindColor (splitToken text) (requestColor config headers)
            some (dynamic.insert envoyLb (lb.insert config.matchKey (.string result)))
        | _ => some dynamic
      | _ => some dynamic

section
variable {config : ConfigImpl} {getThreadLocalCluster : Bytes → Option (Option ClusterInfo)} {headers : H} {dynamic : Metadata}

theorem insert_frame (m : Metadata) (lb : Struct) {ns : Bytes} (h : ns ≠ envoyLb) :
    (m.insert envoyLb lb)[ns]? = m[ns]? := by
  rw [Std.TreeMap.getElem?_insert, if_neg]
  intro hsame
  exact h (Std.LawfulEqCmp.eq_of_compare hsame).symm

/-- The filter reads nothing out of range and writes nothing but `envoy.lb`. -/
theorem decodeHeaders_frame (route : Option Route) : ∃ dynamic',
    decodeHeaders config getThreadLocalCluster route headers dynamic = some dynamic' ∧
      ∀ ns, ns ≠ envoyLb → dynamic'[ns]? = dynamic[ns]? := by
  unfold decodeHeaders
  cases route with
  | none => exact ⟨dynamic, rfl, fun _ _ => rfl⟩
  | some route =>
    cases hentry : route.routeEntry with
    | none => exact ⟨dynamic, by simp only [hentry], fun _ _ => rfl⟩
    | some entry =>
      simp only [hentry]
      split
      · split
        · next text _ =>
          split_ifs
          · exact ⟨_, rfl, fun ns hns => insert_frame dynamic _ hns⟩
          · obtain ⟨⟨color, hcolor, -⟩, -⟩ := tryFindColor_spec (splitToken text) (requestColor config headers)
            rw [hcolor]
            exact ⟨_, rfl, fun ns hns => (insert_frame _ _ hns).trans (insert_frame dynamic _ hns)⟩
        · exact ⟨_, rfl, fun ns hns => insert_frame dynamic _ hns⟩
      · exact ⟨_, rfl, fun ns hns => insert_frame dynamic _ hns⟩

/-- A request to a cluster with colours is sent on with the most specific. -/
theorem decodeHeaders_color {route : Route} {entry : RouteEntry} {info : ClusterInfo} {text : Bytes}
    (hentry : route.routeEntry = some entry) (hcluster : getThreadLocalCluster entry.clusterName = some (some info))
    (htext : info.metadata clusterMetadataGroupKey config.allColorsKey = .string text)
    (hcolors : splitToken text ≠ []) :
    ∃ dynamic' lb color, decodeHeaders config getThreadLocalCluster (some route) headers dynamic = some dynamic' ∧
      dynamic'[envoyLb]? = some lb ∧ lb[config.matchKey]? = some (.string color) ∧
      MostSpecific {c | c ∈ splitToken text} (requestColor config headers) color := by
  obtain ⟨⟨color, hcolor, hmost⟩, -⟩ := tryFindColor_spec (splitToken text) (requestColor config headers)
  have hdecode : decodeHeaders config getThreadLocalCluster (some route) headers dynamic =
      some ((dynamic.insert envoyLb (setMarks config route (dynamic.getD envoyLb ∅))).insert envoyLb
        ((setMarks config route (dynamic.getD envoyLb ∅)).insert config.matchKey (.string color))) := by
    unfold decodeHeaders
    simp only [hentry, hcluster, htext, if_neg hcolors, hcolor]
    rfl
  exact ⟨_, _, color, hdecode, Std.TreeMap.getElem?_insert_self, Std.TreeMap.getElem?_insert_self, hmost⟩

end

end EnvoyProxy.TrafficMark
