import EnvoyProxy.Http.Routing
import EnvoyProxy.IpRestriction.Entries
/-!
# The address restriction filter

`HttpIpRestrictionFilter::decodeHeaders` (ip_restriction.cc). The address of a
request is that of its connection or stands in a header, and a request without
one is let through. `verdicts_exact`: of any requests those are denied whose
address is forbidden by the entries of their route, and the two counters add
up to the requests that were judged.
-/

namespace EnvoyProxy.IpRestriction
open Http HeaderMap

/-- The address of a connection. -/
inductive NetworkAddress
  | ip (address : Address)
  /-- A pipe or an internal address. -/
  | other
  deriving DecidableEq

structure IpRestrictionFilterStats where
  ok : Nat := 0
  denied : Nat := 0
  deriving DecidableEq

/-- A list with the message it was built from. -/
structure BuiltConfig (text : AddressText) where
  type : ListType
  list : List Bytes
  config : BlackOrWhiteListConfig
  built : BlackOrWhiteListConfig.create text type list = some config

/-- A request as the filter meets it. -/
structure Arrival (text : AddressText) (H : Type) where
  route : Option (FilterRoute (BuiltConfig text))
  remoteAddress : Option NetworkAddress
  headers : H

def ipDenied : LocalReply where
  code := 403
  body := ascii "Your IP is not allowed."
  addedHeaders := [(headerName "x-ip-restriction-denied", headerValue "true")]
  details := ascii "forbidden_by_ip_restriction"

section Filter
variable {text : AddressText} {H : Type} [HeaderMap H] (ipSourceHeader : LowerCaseString)
  (parseInternetAddress : Bytes → Option NetworkAddress)

/-- Nothing when there is no header or its value does not parse. -/
def remoteAddressOf (a : Arrival text H) : Option NetworkAddress :=
  if ipSourceHeader.bytes.length = 0 then a.remoteAddress
  else
    match get a.headers ipSourceHeader with
    | [] => none
    | e :: _ => parseInternetAddress e.value.bytes

def decodeHeaders (stats : IpRestrictionFilterStats) (a : Arrival text H) :
    FilterHeadersStatus × Option LocalReply × IpRestrictionFilterStats :=
  match a.route with
  | none => (.Continue, none, stats)
  | some route =>
    if route.routeEntry = false then (.Continue, none, stats)
    else
      match route.perFilterConfig with
      | none => (.Continue, none, stats)
      | some listConfig =>
        match remoteAddressOf ipSourceHeader parseInternetAddress a with
        | none => (.Continue, none, stats)
        | some .other => (.Continue, none, stats)
        | some (.ip address) =>
          if listConfig.config.isAllowed text address then (.Continue, none, { stats with ok := stats.ok + 1 })
          else (.StopIteration, some ipDenied, { stats with denied := stats.denied + 1 })

/-- Requests on all workers share the counters. -/
def serve (stats : IpRestrictionFilterStats) :
    List (Arrival text H) → List (FilterHeadersStatus × Option LocalReply) × IpRestrictionFilterStats
  | [] => ([], stats)
  | a :: as =>
    let (status, reply, stats) := decodeHeaders ipSourceHeader parseInternetAddress stats a
    let (rest, stats) := serve stats as
    ((status, reply) :: rest, stats)

/-! ## Who is denied -/

/-- An entry that is taken names the address. -/
def Named (list : List Bytes) (address : Address) : Prop :=
  ∃ entry ∈ list, parseIpType entry ≠ .NONE ∧ ∃ m, meaning entry = some m ∧ m.Names address

/-- The request has an address and a list to judge it by. -/
def Judged (a : Arrival text H) (listConfig : BuiltConfig text) (address : Address) : Prop :=
  (∃ route, a.route = some route ∧ route.routeEntry = true ∧ route.perFilterConfig = some listConfig) ∧
    remoteAddressOf ipSourceHeader parseInternetAddress a = some (.ip address)

/-- A black list forbids the addresses it names, a white list all others. -/
def Forbidden (a : Arrival text H) : Prop :=
  ∃ listConfig address, Judged ipSourceHeader parseInternetAddress a listConfig address ∧
    (listConfig.type = .BLACK ↔ Named listConfig.list address)

/-- The request is judged and not forbidden. -/
def Admitted (a : Arrival text H) : Prop :=
  (∃ listConfig address, Judged ipSourceHeader parseInternetAddress a listConfig address) ∧
    ¬ Forbidden ipSourceHeader parseInternetAddress a

theorem create_isBlackList {type : ListType} {list : List Bytes} {config : BlackOrWhiteListConfig}
    (h : BlackOrWhiteListConfig.create text type list = some config) : config.isBlackList = decide (type = .BLACK) := by
  have hparse : ∀ {c c' : BlackOrWhiteListConfig} {entry : Bytes}, c.parseIpEntry text entry = some c' →
      c'.isBlackList = c.isBlackList := by
    intro c c' entry hentry
    rw [parseIpEntry_eq] at hentry
    split_ifs at hentry
    · rw [← Option.some.inj hentry]
    · obtain ⟨m, -, rfl⟩ := Option.map_eq_some_iff.1 hentry
      cases m <;> rfl
  have hlist : ∀ {list : List Bytes} {c : BlackOrWhiteListConfig},
      list.foldlM (BlackOrWhiteListConfig.parseIpEntry text) c = some config → config.isBlackList = c.isBlackList := by
    intro list
    induction list with
    | nil =>
      intro c hc
      rw [← Option.some.inj hc]
    | cons entry list ih =>
      intro c hc
      rw [List.foldlM_cons] at hc
      obtain ⟨c', hc', hrest⟩ := Option.bind_eq_some_iff.1 hc
      rw [ih hrest, hparse hc']
  exact hlist h

variable {ipSourceHeader parseInternetAddress}

/-- The list and the address that a request is judged by are its own. -/
theorem Judged.unique {a : Arrival text H} {c c' : BuiltConfig text} {address address' : Address}
    (h : Judged ipSourceHeader parseInternetAddress a c address) (h' : Judged ipSourceHeader parseInternetAddress a c' address') :
    c = c' ∧ address = address' := by
  obtain ⟨⟨route, hroute, -, hconfig⟩, haddress⟩ := h
  obtain ⟨⟨route', hroute', -, hconfig'⟩, haddress'⟩ := h'
  cases hroute.symm.trans hroute'
  cases hconfig.symm.trans hconfig'
  cases haddress.symm.trans haddress'
  exact ⟨rfl, rfl⟩

/-- What is judged by a list is allowed unless it is forbidden by it. -/
theorem Judged.isAllowed_iff {a : Arrival text H} {c : BuiltConfig text} {address : Address}
    (h : Judged ipSourceHeader parseInternetAddress a c address) :
    c.config.isAllowed text address = true ↔ ¬ Forbidden ipSourceHeader parseInternetAddress a := by
  have hforbidden : Forbidden ipSourceHeader parseInternetAddress a ↔ (c.type = .BLACK ↔ Named c.list address) := by
    constructor
    · rintro ⟨c', address', h', hnamed⟩
      obtain ⟨rfl, rfl⟩ := h.unique h'
      exact hnamed
    · exact fun hnamed => ⟨c, address, h, hnamed⟩
  rw [hforbidden, Named, ← check_create c.built, BlackOrWhiteListConfig.isAllowed, create_isBlackList c.built]
  cases c.config.checkIpEntry text address <;> by_cases htype : c.type = .BLACK <;> simp [htype]

variable (ipSourceHeader parseInternetAddress) in
/-- A request is judged and forbidden, or judged and admitted, or not judged. -/
theorem decodeHeaders_cases (stats : IpRestrictionFilterStats) (a : Arrival text H) :
    (Forbidden ipSourceHeader parseInternetAddress a ∧
      decodeHeaders ipSourceHeader parseInternetAddress stats a =
        (.StopIteration, some ipDenied, { stats with denied := stats.denied + 1 })) ∨
    (Admitted ipSourceHeader parseInternetAddress a ∧
      decodeHeaders ipSourceHeader parseInternetAddress stats a = (.Continue, none, { stats with ok := stats.ok + 1 })) ∨
    ((∀ c address, ¬ Judged ipSourceHeader parseInternetAddress a c address) ∧
      decodeHeaders ipSourceHeader parseInternetAddress stats a = (.Continue, none, stats)) := by
  by_cases hjudged : ∃ c address, Judged ipSourceHeader parseInternetAddress a c address
  · obtain ⟨c, address, h⟩ := hjudged
    obtain ⟨⟨route, hroute, hentry, hconfig⟩, haddress⟩ := id h
    by_cases hallowed : c.config.isAllowed text address = true
    · refine .inr (.inl ⟨⟨⟨c, address, h⟩, h.isAllowed_iff.1 hallowed⟩, ?_⟩)
      simp [decodeHeaders, hroute, hentry, hconfig, haddress, hallowed]
    · refine .inl ⟨not_not.1 fun hnot => hallowed (h.isAllowed_iff.2 hnot), ?_⟩
      simp [decodeHeaders, hroute, hentry, hconfig, haddress, hallowed]
  · have hnone : ∀ c address, ¬ Judged ipSourceHeader parseInternetAddress a c address := fun c address h => hjudged ⟨c, address, h⟩
    refine .inr (.inr ⟨hnone, ?_⟩)
    unfold decodeHeaders
    cases hroute : a.route with
    | none => rfl
    | some route =>
      dsimp only
      split_ifs with hentry
      · rfl
      · cases hconfig : route.perFilterConfig with
        | none => rfl
        | some c =>
          cases haddress : remoteAddressOf ipSourceHeader parseInternetAddress a with
          | none => rfl
          | some address =>
            cases address with
            | other => rfl
            | ip address =>
              exact absurd ⟨⟨route, hroute, Bool.eq_true_of_not_eq_false hentry, hconfig⟩, haddress⟩ (hnone c address)

open Classical in
/-- Of any requests, whoever serves them, those are denied that are forbidden
by the entries of their route; a request without a route, a list or an address
is let through; and every judged request is counted once. -/
theorem verdicts_exact (ipSourceHeader : LowerCaseString) (parseInternetAddress : Bytes → Option NetworkAddress)
    (stats : IpRestrictionFilterStats) (as : List (Arrival text H)) :
    (serve ipSourceHeader parseInternetAddress stats as).1 = as.map (fun a =>
      if Forbidden ipSourceHeader parseInternetAddress a then (.StopIteration, some ipDenied) else (.Continue, none)) ∧
    (serve ipSourceHeader parseInternetAddress stats as).2 =
      { ok := stats.ok + as.countP (fun a => Admitted ipSourceHeader parseInternetAddress a)
        denied := stats.denied + as.countP fun a => Forbidden ipSourceHeader parseInternetAddress a } := by
  induction as generalizing stats with
  | nil => exact ⟨rfl, rfl⟩
  | cons a as ih =>
    simp only [serve, List.map_cons, List.countP_cons]
    rcases decodeHeaders_cases ipSourceHeader parseInternetAddress stats a with
      ⟨hforbidden, hrun⟩ | ⟨hadmitted, hrun⟩ | ⟨hnone, hrun⟩
    · have hnot : ¬ Admitted ipSourceHeader parseInternetAddress a := fun h => h.2 hforbidden
      rw [hrun, (ih _).1, (ih _).2]
      simp only [hforbidden, hnot, if_true, decide_true, decide_false, Bool.false_eq_true, if_false, Nat.add_zero, true_and]
      congr 1
      omega
    · rw [hrun, (ih _).1, (ih _).2]
      simp only [hadmitted, hadmitted.2, if_true, decide_true, decide_false, Bool.false_eq_true, if_false, Nat.add_zero, true_and]
      congr 1
      omega
    · have hnot : ¬ Admitted ipSourceHeader parseInternetAddress a := fun h => h.1.elim fun c hc => hc.elim fun address => hnone c address
      have hfree : ¬ Forbidden ipSourceHeader parseInternetAddress a := fun h => h.elim fun c hc => hc.elim fun address hj => hnone c address hj.1
      rw [hrun, (ih _).1, (ih _).2]
      simp only [hnot, hfree, decide_false, Bool.false_eq_true, if_false, Nat.add_zero, true_and]

end Filter

end EnvoyProxy.IpRestriction
