import AgentPalace.Lib.TextSlice

/-!
# Errors of a remote palace

`RemoteError` classifies what can go wrong in a call to a remote palace. A
dispatcher retries what was not sent, what may have been applied, and what the
remote refused for now (`isRetryable`); all else is final.
-/

namespace AgentPalace

inductive TokenStoreErrorKind where
  | unavailable | corrupt | backend
  deriving DecidableEq

def TokenStoreErrorKind.display : TokenStoreErrorKind → String
  | .unavailable => "unavailable"
  | .corrupt => "corrupt"
  | .backend => "backend failure"

inductive RemoteError where
  | unreachable (remote message : String)
  | unauthorized (remote : String) (resourceMetadata : Option String)
  | authenticationRequired (remote action : String) (resourceMetadata : Option String)
  | credentialStore (remote : String) (kind : TokenStoreErrorKind) (message : String)
  | versionSkew (remote : String) (ours theirs : UInt32)
  | remoteRejected (remote : String) (status : UInt16) (body : String)
  | invalidResponse (remote message : String)
  | invalidConfig (remote message : String)
  | capabilityMissing (remote capability : String)
  | unknownOutcome (remote message : String)
  deriving DecidableEq

/-- The remote was reached and may accept the same request later. -/
def isTransientHttpStatus (status : UInt16) : Bool :=
  status = 408 ∨ status = 425 ∨ status = 429 ∨ (500 ≤ status ∧ status ≤ 599)

namespace RemoteError

def isRetryable : RemoteError → Bool
  | .unreachable .. | .unknownOutcome .. => true
  | .remoteRejected _ status _ => isTransientHttpStatus status
  | _ => false

/-- `to_string`. -/
def display : RemoteError → String
  | .unreachable remote message => s!"remote `{remote}` is unreachable: {message}"
  | .unauthorized remote _ => s!"remote `{remote}` rejected credentials (HTTP 401)"
  | .authenticationRequired remote action _ =>
    s!"remote `{remote}` requires authentication: {action}"
  | .credentialStore remote kind message =>
    s!"remote `{remote}` credential store {kind.display}: {message}"
  | .versionSkew remote ours theirs =>
    s!"remote `{remote}` speaks federation api v{theirs}, this client speaks v{ours}"
  | .remoteRejected remote status body =>
    s!"remote `{remote}` rejected the request: HTTP {status}: {body}"
  | .invalidResponse remote message =>
    s!"remote `{remote}` returned a malformed response: {message}"
  | .invalidConfig remote message => s!"invalid configuration for remote `{remote}`: {message}"
  | .capabilityMissing remote capability =>
    s!"remote `{remote}` does not support the `{capability}` capability"
  | .unknownOutcome remote message =>
    s!"remote `{remote}` outcome could not be confirmed: {message}"

end RemoteError

end AgentPalace
