import AgentPalace.Lib.Json
import AgentPalace.Lib.UrlPath
import AgentPalace.Remote.Error

/-!
# Calls to a remote palace

How `RemoteClient` sends a request, reads the answer and classifies what went
wrong. What the network does to the requests is a parameter, and so is the
outcome of a recovery after a 401. A `Session` keeps every request that was
handed to the network.
-/

namespace AgentPalace.Remote

/-- Whether a call mutates remote state or only reads it. -/
inductive CallKind where
  | read | mutation
  deriving DecidableEq

inductive Method where
  | get | post | delete
  deriving DecidableEq

/-- A request whose body is in memory; it can be cloned. -/
structure RequestBuilder where
  method : Method
  url : Url
  query : List (String × String) := []
  json : Option Json := none

/-- An error of the HTTP client, as far as it is classified. -/
structure ReqwestError where
  isBuilder : Bool
  isConnect : Bool
  message : String

/-- A status line was received. The body comes in chunks, and may break off behind them. -/
structure Response where
  status : UInt16
  /-- `resource_metadata` of the `WWW-Authenticate` header. -/
  challenge : Option String
  chunks : List (List UInt8)
  broken : Option ReqwestError

/-- `StatusCode::is_success`. -/
def isSuccess (status : UInt16) : Bool := decide (200 ≤ status ∧ status < 300)

/-- What becomes of one request: what the client sees, whether the server got it and whether it
applied it. A request that could not be built, or for which there was no connection, was not
delivered. A server that answers with another status than a 2xx has not applied the request. -/
structure Delivery where
  outcome : Except ReqwestError Response
  delivered : Bool
  applied : Bool
  applied_delivered : applied = true → delivered = true
  delivered_sent : ∀ e, outcome = .error e → delivered = true → (e.isBuilder || e.isConnect) = false
  applied_success : ∀ r, outcome = .ok r → applied = true → isSuccess r.status = true

structure Sent where
  kind : CallKind
  request : RequestBuilder
  token : Option String
  delivery : Delivery

structure ErrorBody where
  code : String
  message : String

structure ConflictBody where
  code : String
  actualRevision : Option Int

/-- The fields of `InfoResponse` that the client reads. -/
structure InfoResponse where
  federationApiVersion : UInt32
  capabilities : List String

abbrev Decoder (α : Type) := List UInt8 → Except String α

structure Codec where
  info : Decoder InfoResponse
  preflight : Decoder Unit
  errorBody : String → Option ErrorBody
  conflictBody : List UInt8 → Option ConflictBody
  fromUtf8Lossy : List UInt8 → String
  parseOther : Url → List Char → Option Url
  /-- The text of the error for a path that cannot be joined. -/
  joinError : String → String

/-- `new` lets the path of the base end with a slash. Requests are only sent to `http` and `https`
URLs. -/
structure RemoteClient where
  name : String
  baseUrl : Url
  special : baseUrl.scheme = "http" ∨ baseUrl.scheme = "https"
  slash : baseUrl.path.getLast? = some []
  codec : Codec
  /-- Whether the remote has an OAuth configuration. -/
  oauth : Bool

/-- What the `n`-th request meets: the token it carries, its delivery, and, where it is answered
with a 401, what the recovery gives for the rejected token and the challenge. -/
structure Network where
  token : Nat → Option String
  delivery : Nat → Delivery
  recover : Nat → Option String → Option String → Except RemoteError Bool

structure Session where
  network : Network
  info : Option InfoResponse
  sent : List Sent

abbrev Call (α : Type) := ExceptT RemoteError (StateM Session) α

structure Exchange where
  status : UInt16
  bytes : List UInt8
  challenge : Option String
  token : Option String

def maxErrorBody : Nat := 2048

def maxResponseBytes : Nat := 10 * 1024 * 1024

/-- The loop over the chunks: it stops at the cap. -/
def readBody (cap : Nat) (broken : Option ReqwestError) (bytes : List UInt8) :
    List (List UInt8) → Except ReqwestError (List UInt8)
  | [] =>
    match broken with
    | some e => .error e
    | none => .ok bytes
  | chunk :: rest =>
    let bytes := bytes ++ chunk
    if cap ≤ bytes.length then .ok bytes else readBody cap broken bytes rest

namespace RemoteClient

variable (c : RemoteClient)

/-! ## URLs -/

/-- `url`. -/
def url (path : String) : Except RemoteError Url :=
  match Url.joinRelative c.codec.parseOther c.baseUrl path.toList with
  | some u => .ok u
  | none =>
    .error (.invalidConfig c.name s!"cannot construct URL for path `{path}`: {c.codec.joinError path}")

/-- `drawer_url`: the id is one encoded segment. -/
def drawerUrl (drawerId : String) : Except RemoteError Url := do
  let url ← c.url "v1/drawers"
  return Url.pushPathSegment url drawerId.toList

/-! ## Classification -/

def classifySendError (kind : CallKind) (e : ReqwestError) : RemoteError :=
  match kind with
  | .read => .unreachable c.name e.message
  | .mutation =>
    if e.isBuilder || e.isConnect then .unreachable c.name e.message
    else .unknownOutcome c.name e.message

def classifyBodyError (kind : CallKind) (status : UInt16) (e : ReqwestError) : RemoteError :=
  match kind with
  | .read => .unreachable c.name e.message
  | .mutation =>
    if status = 401 then .unauthorized c.name none
    else if !isSuccess status then
      .remoteRejected c.name status s!"response body read failed: {e.message}"
    else .unknownOutcome c.name e.message

def decodeFailure (kind : CallKind) (message : String) : RemoteError :=
  match kind with
  | .read => .invalidResponse c.name message
  | .mutation => .unknownOutcome c.name message

def remoteRejected (status : UInt16) (bytes : List UInt8) : RemoteError :=
  let raw := c.codec.fromUtf8Lossy bytes
  let body :=
    match c.codec.errorBody raw with
    | some e => s!"{e.code}: {e.message}"
    | none =>
      if raw.utf8ByteSize > maxErrorBody then prefixWithin maxErrorBody raw ++ "… (truncated)"
      else raw
  .remoteRejected c.name status body

def unauthorized (challenge : Option String) : RemoteError :=
  if c.oauth then
    .authenticationRequired c.name
      "start OAuth sign-in for this remote (MCP: agentpalace_remote_auth_start)" challenge
  else .unauthorized c.name challenge

/-! ## Sending -/

def readDelivery (kind : CallKind) (token : Option String) (d : Delivery) :
    Except RemoteError Exchange :=
  match d.outcome with
  | .error e => .error (c.classifySendError kind e)
  | .ok r =>
    let cap := if isSuccess r.status then maxResponseBytes else maxErrorBody
    match readBody cap r.broken [] r.chunks with
    | .error e => .error (c.classifyBodyError kind r.status e)
    | .ok bytes => .ok ⟨r.status, bytes, r.challenge, token⟩

def sendAndRead (rb : RequestBuilder) (kind : CallKind) : Call Exchange := do
  let s ← get
  let n := s.sent.length
  let sent := ⟨kind, rb, s.network.token n, s.network.delivery n⟩
  set { s with sent := s.sent ++ [sent] }
  ExceptT.mk (pure (c.readDelivery kind sent.token sent.delivery))

/-- The outcome of a recovery after the latest request. -/
def recoverAuthorization (rejectedToken challenge : Option String) : Call Bool := do
  let s ← get
  ExceptT.mk (pure (s.network.recover s.sent.length rejectedToken challenge))

/-- A request that is answered with a 401 is sent again, once, after a recovery. -/
def sendAuthorized (rb : RequestBuilder) (kind : CallKind) : Call Exchange := do
  let exchange ← c.sendAndRead rb kind
  if c.oauth ∧ exchange.status = 401 then
    if ← recoverAuthorization exchange.token exchange.challenge then
      return ← c.sendAndRead rb kind
  return exchange

/-- The end of `execute`. -/
def answer {α : Type} (decode : Decoder α) (kind : CallKind) (x : Exchange) :
    Except RemoteError α :=
  if x.status = 401 then .error (c.unauthorized x.challenge)
  else if !isSuccess x.status then .error (c.remoteRejected x.status x.bytes)
  else (decode x.bytes).mapError (c.decodeFailure kind)

def execute {α : Type} (decode : Decoder α) (rb : RequestBuilder) (kind : CallKind) : Call α := do
  let exchange ← c.sendAuthorized rb kind
  ExceptT.mk (pure (c.answer decode kind exchange))

end RemoteClient

inductive RemoteRevisionedWrite (α : Type) where
  | applied (value : α)
  | conflict (actualRevision : Option Int)

namespace RemoteClient

variable (c : RemoteClient)

/-- The end of `execute_revisioned`. -/
def answerRevisioned {α : Type} (decode : Decoder α) (x : Exchange) :
    Except RemoteError (RemoteRevisionedWrite α) :=
  if x.status = 401 then .error (c.unauthorized x.challenge)
  else
    match (if x.status = 409 then c.codec.conflictBody x.bytes else none).filter
        (·.code = "revision_conflict") with
    | some conflict => .ok (.conflict conflict.actualRevision)
    | none =>
      if !isSuccess x.status then .error (c.remoteRejected x.status x.bytes)
      else ((decode x.bytes).map .applied).mapError (c.decodeFailure .mutation)

def executeRevisioned {α : Type} (decode : Decoder α) (rb : RequestBuilder) :
    Call (RemoteRevisionedWrite α) := do
  let exchange ← c.sendAuthorized rb .mutation
  ExceptT.mk (pure (c.answerRevisioned decode exchange))

/-! ## The handshake -/

def federationApiVersion : UInt32 := 1

def fetchInfo : Call InfoResponse := do
  let url ← ExceptT.mk (pure (c.url "v1/info"))
  c.execute c.codec.info { method := .get, url } .read

/-- `get_or_try_init`: the cell is filled by the first success. -/
def cachedInfo : Call InfoResponse := do
  match (← get).info with
  | some info => return info
  | none =>
    let info ← c.fetchInfo
    modify fun s => { s with info := some info }
    return info

def ensureHandshake : Call InfoResponse := do
  let info ← c.cachedInfo
  if info.federationApiVersion ≠ federationApiVersion then
    throw (.versionSkew c.name federationApiVersion info.federationApiVersion)
  return info

def ensureCoordinationCapability : Call Unit := do
  let info ← c.ensureHandshake
  if "coordination" ∉ info.capabilities then
    throw (.capabilityMissing c.name "coordination")

end RemoteClient

end AgentPalace.Remote
