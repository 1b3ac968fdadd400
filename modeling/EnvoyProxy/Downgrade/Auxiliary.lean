import EnvoyProxy.Downgrade.Static
/-!
# Service and dynamic downgrade

The filters of service_downgrade.cc and dynamic_downgrade_filter.cc ask for
another response when a response matches, and put it in the place of the one
they have. The two are copies of each other; `Kind` has what they differ in.
The dynamic filter may ask a cache instead of a service, and stores responses
in it.
-/

namespace EnvoyProxy.Downgrade
open Http HeaderMap

/-! ## Configurations -/

inductive Direction
  | DECODE
  | ENCODE

structure HttpUri where
  scheme : HeaderString
  host : HeaderString
  path : HeaderString

/-- The last two only for the dynamic filter. -/
structure RouteConfig (H : Type) where
  downgradeRqx : List (HeaderData H) := []
  downgradeRpx : List (HeaderData H)
  downgradeUri : Option HttpUri := none
  downgradeWithCache : Bool := false
  cacheRpxRpx : List (HeaderData H) := []

namespace RouteConfig
variable {H : Type}

def hasNoDowngradeRpx (config : RouteConfig H) : Bool := config.downgradeRpx.isEmpty

def shouldDowngrade (config : RouteConfig H) (headers : H) (direction : Direction) : Bool :=
  if config.hasNoDowngradeRpx then false
  else
    match direction with
    | .DECODE => matchHeaders headers config.downgradeRqx
    | .ENCODE => matchHeaders headers config.downgradeRpx

def checkEnableCache (config : RouteConfig H) (responseHeaders : H) : Bool :=
  if config.cacheRpxRpx.isEmpty || !config.downgradeWithCache then false
  else matchHeaders responseHeaders config.cacheRpxRpx

end RouteConfig

/-! ## The filters -/

inductive SendRequestStatus
  | FAILED
  | ONCALL
  deriving DecidableEq, Repr

/-- What `sendRequest` does: what it returns, and the callback it makes itself,
with a response or without. -/
structure Answer (H : Type) where
  status : SendRequestStatus
  callback : Option (Option (ResponseMessage H)) := none

structure DowngradeFilter (H : Type) where
  routerConfig : Option (RouteConfig H) := none
  rqxHeaders : Option H := none
  bufferedRqxBody : Bytes := []
  bufferedRpxBody : Bytes := []
  shouldDowngrade : Bool := false
  downgradeComplete : Bool := false
  downgradeSuspend : Bool := false
  shouldCacheRpx : Bool := false
  headersOnlyResp : Bool := false
  isSendingRequest : Bool := false
  localRequestOver : Bool := false
  responseToCache : Option (ResponseMessage H) := none
  /-- What was asked of the sender. -/
  sent : List (ResponseMessage H) := []
  inserted : List (ResponseMessage H) := []

/-- What the filters differ in; `onDestroy` also says whether the request is
cancelled. -/
structure Kind (H : Type) where
  mark : HeaderString
  withCache : RouteConfig H → Bool
  checkEnableCache : RouteConfig H → H → Bool
  onDestroy : DowngradeFilter H → DowngradeFilter H × Bool
  cancels : ∀ f, (onDestroy f).2 = f.isSendingRequest

namespace DowngradeFilter
variable {H : Type} [HeaderMap H] (kind : Kind H) (f : DowngradeFilter H)

omit [HeaderMap H] in
def decodeHeaders (config : Option (RouteConfig H)) (headers : H) : DowngradeFilter H × FilterHeadersStatus :=
  let f := { f with rqxHeaders := some headers, routerConfig := config }
  match config with
  | none => (f, .Continue)
  | some config => ({ f with shouldDowngrade := config.shouldDowngrade headers .DECODE }, .Continue)

omit [HeaderMap H] in
def decodeData (data : Bytes) : DowngradeFilter H × FilterDataStatus :=
  match f.routerConfig with
  | none => (f, .Continue)
  | some config =>
    if f.shouldDowngrade && !kind.withCache config then ({ f with bufferedRqxBody := f.bufferedRqxBody ++ data }, .Continue)
    else (f, .Continue)

/-- `replaceHeaders` and the mark. -/
def downgradeHeaders (response : ResponseMessage H) : H :=
  addCopy (copyFrom (iterate response.headers)) (headerName "x-downgrade-status") kind.mark

/-- With the headers in place of those of the response and what is added to
the buffer, if the response goes on. -/
def onSuccess (response : ResponseMessage H) : DowngradeFilter H × Option (H × Option Bytes) :=
  if f.isSendingRequest then
    let f := { f with isSendingRequest := false, downgradeComplete := f.headersOnlyResp }
    if f.downgradeComplete then (f, some (downgradeHeaders kind response, some response.body))
    else ({ f with bufferedRpxBody := f.bufferedRpxBody ++ response.body }, some (downgradeHeaders kind response, none))
  -- while the request is being sent
  else ({ f with localRequestOver := true }, none)

omit [HeaderMap H] in
/-- Whether the response goes on. -/
def onFailure : DowngradeFilter H × Bool :=
  if f.isSendingRequest then ({ f with downgradeSuspend := true, isSendingRequest := false }, true)
  else ({ f with localRequestOver := true }, false)

/-- The request for the other response. -/
def downgradeRequest (config : RouteConfig H) : ResponseMessage H :=
  let headers := f.rqxHeaders.getD create
  if kind.withCache config then { headers }
  else
    match config.downgradeUri with
    | none => { headers, body := f.bufferedRqxBody }
    | some uri =>
      let headers := HeaderMap.set headers (headerName ":scheme") uri.scheme
      let headers := HeaderMap.set headers (headerName ":authority") uri.host
      { headers := HeaderMap.set headers (headerName ":path") uri.path, body := f.bufferedRqxBody }

/-- `sendRequest`, with the callback that it makes. -/
def sendRequest (config : RouteConfig H) (answer : Answer H) : DowngradeFilter H :=
  let f := { f with
    sent := f.sent ++ [f.downgradeRequest kind config]
    bufferedRqxBody := if kind.withCache config then f.bufferedRqxBody else [] }
  match answer.callback with
  | none => f
  | some none => (f.onFailure).1
  | some (some response) => (f.onSuccess kind response).1

def encodeHeaders (answer : Answer H) (f : DowngradeFilter H) (headers : H) (endStream : Bool) :
    DowngradeFilter H × H × Option Bytes × FilterHeadersStatus :=
  if !f.shouldDowngrade then (f, headers, none, .Continue)
  else
    match f.routerConfig with
    | none => (f, headers, none, .Continue)
    | some config =>
      let f := { f with shouldDowngrade := config.shouldDowngrade headers .ENCODE }
      let f := if f.shouldDowngrade then f else { f with shouldCacheRpx := kind.checkEnableCache config headers }
      if !f.shouldDowngrade && !f.shouldCacheRpx then (f, headers, none, .Continue)
      else
        let f := { f with headersOnlyResp := endStream }
        if !f.shouldDowngrade then
          if endStream then ({ f with inserted := f.inserted ++ [⟨headers, []⟩] }, headers, none, .Continue)
          else ({ f with responseToCache := some ⟨headers, []⟩ }, headers, none, .Continue)
        else
          let f := f.sendRequest kind config answer
          if answer.status = .ONCALL ∧ f.localRequestOver = false then
            ({ f with isSendingRequest := true }, headers, none,
              if f.headersOnlyResp then .StopIteration else .StopAllIterationAndBuffer)
          else ({ f with downgradeSuspend := true }, headers, none, .Continue)

omit [HeaderMap H] in
def encodeData (f : DowngradeFilter H) (v : DataView) (endStream : Bool) : DowngradeFilter H × DataView × FilterDataStatus :=
  if f.downgradeComplete || f.downgradeSuspend || (!f.shouldDowngrade && !f.shouldCacheRpx) then (f, v, .Continue)
  else if !f.shouldDowngrade then
    let f := { f with bufferedRpxBody := f.bufferedRpxBody ++ v.data }
    match f.responseToCache with
    | some response =>
      if endStream then
        ({ f with
          inserted := f.inserted ++ [{ response with body := response.body ++ f.bufferedRpxBody }]
          responseToCache := none
          bufferedRpxBody := [] }, v, .Continue)
      else (f, v, .Continue)
    | none => (f, v, .Continue)
  else
    let v := v.drain
    if endStream then ({ f with downgradeComplete := true, bufferedRpxBody := [] }, v.add f.bufferedRpxBody, .Continue)
    else (f, v, .StopIterationNoBuffer)

def encoder (answer : Answer H) : StreamFilter (DowngradeFilter H) H where
  onHeaders := encodeHeaders kind answer
  onData := encodeData

end DowngradeFilter

/-! ## The two filters -/

/-- `ServiceDowngrade::Filter` -/
def serviceDowngrade {H : Type} : Kind H where
  mark := headerValue "SERVICE"
  withCache _ := false
  checkEnableCache _ _ := false
  onDestroy f :=
    if f.isSendingRequest then ({ f with isSendingRequest := false, downgradeSuspend := true }, true) else (f, false)
  cancels f := by cases f.isSendingRequest <;> simp

/-- `DynamicDowngrade::HttpDynamicDowngradeFilter` -/
def dynamicDowngrade {H : Type} : Kind H where
  mark := headerValue "DYNAMIC"
  withCache := (·.downgradeWithCache)
  checkEnableCache := RouteConfig.checkEnableCache
  onDestroy f := (f, f.isSendingRequest)
  cancels _ := rfl

end EnvoyProxy.Downgrade
