import AgentPalace.Lib.OrdMap
import AgentPalace.Core.Ids
import Mathlib.Data.String.Basic

/-!
# Federation config

`resolveFederationConfig` turns the `[federation]` section of the config file
into the tables the routers read. It refuses a section with a malformed remote,
with a rule that names no configured remote, with a coordination rule under a
wing that is not in canonical form or that writes to both palaces.

`FederationRuntimeConfig.Accepted` says what a section that is not refused
guarantees; the routers are verified against it.
-/

namespace AgentPalace

/-- `AgentPalaceError::ConfigParse`. -/
inductive ConfigError where
  | configParse (path message : String)
  deriving DecidableEq

/-- How requests are routed; `localOnly` is the `Local` of the source. -/
inductive RouteMode where
  | localOnly | remote | combined
  deriving DecidableEq

/-- Where writes go; `localOnly` is the `Local` of the source. -/
inductive WriteTarget where
  | localOnly | remote | both
  deriving DecidableEq

inductive OAuthLoginMode where
  | browser | device | auto
  deriving DecidableEq

structure OAuthConfigV1 where
  clientId : String
  account : Option String
  allowInMemory : Bool
  allowLoopbackDemo : Bool
  loginMode : OAuthLoginMode
  loginTimeoutSeconds : Option Nat

structure RemoteConfigV1 where
  name : String
  url : String
  token : Option String
  tokenEnv : Option String
  oauth : Option OAuthConfigV1
  timeoutMs : Option Nat

structure RouteRuleV1 where
  mode : RouteMode
  remote : Option String
  write : Option WriteTarget

structure FederationConfigV1 where
  remotes : List RemoteConfigV1
  defaultMode : Option RouteMode
  defaultRemote : Option String
  wings : OrdMap String RouteRuleV1
  kg : Option RouteRuleV1
  coordination : OrdMap String RouteRuleV1

structure ResolvedOAuthConfig where
  clientId : String
  account : Option String
  allowInMemory : Bool
  allowLoopbackDemo : Bool
  loginMode : OAuthLoginMode
  loginTimeoutSeconds : Nat
  deriving DecidableEq

/-- A remote connection; `timeout` in milliseconds. -/
structure ResolvedRemote where
  name : String
  url : String
  token : Option String
  oauth : Option ResolvedOAuthConfig
  timeout : Nat
  deriving DecidableEq

structure ResolvedRouteRule where
  mode : RouteMode
  remote : Option String
  write : WriteTarget
  deriving DecidableEq

structure FederationRuntimeConfig where
  remotes : OrdMap String ResolvedRemote
  defaultMode : RouteMode
  defaultRemote : Option String
  wings : OrdMap String ResolvedRouteRule
  kg : Option ResolvedRouteRule
  coordination : OrdMap String ResolvedRouteRule
  coordinationDefaultWing : Option String

def FederationRuntimeConfig.default : FederationRuntimeConfig where
  remotes := .empty
  defaultMode := .localOnly
  defaultRemote := none
  wings := .empty
  kg := none
  coordination := .empty
  coordinationDefaultWing := none

def defaultRemoteTimeoutMs : Nat := 5000

def defaultCoordinationWing : String := "wing_local_tasks"

def startsWith (s start : String) : Bool := start.toList.isPrefixOf s.toList

def loopbackHosts : List (List Char) := ["localhost".toList, "127.0.0.1".toList, "::1".toList]

def isLoopbackHttpUrl (url : String) : Bool :=
  match "http://".toList.isPrefixOf? url.toList with
  | none => false
  | some rest =>
    let authority := rest.takeWhile (· ≠ '/')
    let host := match authority with
      | '[' :: stripped => stripped.takeWhile (· ≠ ']')
      | _ => authority.takeWhile (· ≠ ':')
    decide (host ∈ loopbackHosts)

/-- The variable wins over the inline token unless it is unset or empty. -/
def resolveToken (tokenEnv inlineToken : Option String) (envLookup : String → Option String) :
    Option String :=
  match tokenEnv.bind envLookup with
  | some value => if value ≠ "" then some value else inlineToken
  | none => inlineToken

section
variable (configPath : String)

def configParse {α : Type} (message : String) : Except ConfigError α :=
  .error (.configParse configPath message)

def resolveOAuth (remoteName : String) (oauth : OAuthConfigV1) :
    Except ConfigError ResolvedOAuthConfig :=
  if isBlank oauth.clientId then
    configParse configPath s!"federation.remotes.{remoteName}.oauth.client_id must not be empty"
  else
    .ok
      { clientId := oauth.clientId
        account := oauth.account
        allowInMemory := oauth.allowInMemory
        allowLoopbackDemo := oauth.allowLoopbackDemo
        loginMode := oauth.loginMode
        loginTimeoutSeconds := oauth.loginTimeoutSeconds.getD 300 }

/-- One turn of the loop over the configured remotes. -/
def resolveRemote (envLookup : String → Option String) (remotes : OrdMap String ResolvedRemote)
    (raw : RemoteConfigV1) : Except ConfigError ResolvedRemote := do
  if raw.name = "" then
    configParse configPath "federation.remotes[].name must not be empty"
  if remotes.contains raw.name then
    configParse configPath s!"federation.remotes contains duplicate name `{raw.name}`"
  let url := trim raw.url
  if url = "" then
    configParse configPath s!"federation.remotes.{raw.name}.url must not be empty"
  if !startsWith url "http://" && !startsWith url "https://" then
    configParse configPath
      s!"federation.remotes.{raw.name}.url `{url}` must start with http:// or https://"
  if startsWith url "http://" && !isLoopbackHttpUrl url then
    configParse configPath (s!"federation.remotes.{raw.name}.url `{url}` must use https:// " ++
      "unless it targets localhost or loopback")
  let oauth ← raw.oauth.mapM (resolveOAuth configPath raw.name)
  return {
    name := raw.name
    url
    token := resolveToken raw.tokenEnv raw.token envLookup
    oauth
    timeout := raw.timeoutMs.getD defaultRemoteTimeoutMs }

def resolveRemotes (envLookup : String → Option String) :
    List RemoteConfigV1 → OrdMap String ResolvedRemote →
      Except ConfigError (OrdMap String ResolvedRemote)
  | [], remotes => .ok remotes
  | raw :: rest, remotes => do
    let remote ← resolveRemote configPath envLookup remotes raw
    resolveRemotes envLookup rest (remotes.insert raw.name remote)

def inferSingleRemote (fieldPath : String) (remotes : OrdMap String ResolvedRemote) :
    Except ConfigError String :=
  match remotes.keys with
  | [name] => .ok name
  | [] => configParse configPath s!"{fieldPath} requires a remote but none are configured"
  | _ => configParse configPath
      s!"{fieldPath} has no `remote` field; cannot infer when multiple remotes are configured"

/-- The remote a rule that is not local names, or the only one there is. -/
def resolveRemoteName (fieldPath : String) (named : Option String)
    (remotes : OrdMap String ResolvedRemote) : Except ConfigError String :=
  match named with
  | some r =>
    if remotes.contains r then .ok r
    else configParse configPath s!"{fieldPath} references unknown remote `{r}`"
  | none => inferSingleRemote configPath fieldPath remotes

def resolveRule (fieldPath : String) (rule : RouteRuleV1) (remotes : OrdMap String ResolvedRemote) :
    Except ConfigError ResolvedRouteRule := do
  let remote ← (match rule.mode with
    | .localOnly => .ok none
    | .remote | .combined => some <$> resolveRemoteName configPath fieldPath rule.remote remotes :
      Except ConfigError (Option String))
  let write := if rule.mode = .combined then rule.write.getD .localOnly else .localOnly
  return { mode := rule.mode, remote, write }

/-- A key of the coordination table is a wing in canonical form. -/
def checkCoordinationWing (wingName : String) : Except ConfigError Unit :=
  match WingId.normalized wingName with
  | .ok canonical =>
    if canonical.str = wingName then .ok ()
    else configParse configPath (s!"federation.coordination.{wingName} is not in canonical wing " ++
      s!"form; use `{canonical.str}` instead")
  | .error error => configParse configPath
      s!"federation.coordination.{wingName} is not a valid wing name: {error.display}"

def resolveCoordinationRule (remotes : OrdMap String ResolvedRemote) (wingName : String)
    (rule : RouteRuleV1) : Except ConfigError ResolvedRouteRule := do
  checkCoordinationWing configPath wingName
  let resolved ← resolveRule configPath s!"federation.coordination.{wingName}" rule remotes
  if resolved.write = .both then
    configParse configPath (s!"federation.coordination.{wingName} may not use write: both — a " ++
      "task is authoritative in exactly one palace, so replicating claims and leases has no " ++
      "coherent meaning; use write: local or write: remote instead")
  return resolved

def resolveDefaultRemote (mode : RouteMode) (named : Option String)
    (remotes : OrdMap String ResolvedRemote) : Except ConfigError (Option String) :=
  match mode, named with
  | .localOnly, none => .ok none
  | .localOnly, some _ =>
    configParse configPath "federation.default_remote requires default_mode: remote or combined"
  | _, some name =>
    if remotes.contains name then .ok (some name)
    else configParse configPath s!"federation.default_remote references unknown remote `{name}`"
  | _, none => some <$> inferSingleRemote configPath "federation.default_mode" remotes

def resolveFederationConfig (config : Option FederationConfigV1)
    (envLookup : String → Option String) : Except ConfigError FederationRuntimeConfig := do
  let some config := config | return .default
  let remotes ← resolveRemotes configPath envLookup config.remotes .empty
  let wings ← config.wings.tryMap fun wingName rule =>
    resolveRule configPath s!"federation.wings.{wingName}" rule remotes
  let kg ← config.kg.mapM fun rule => resolveRule configPath "federation.kg" rule remotes
  let coordination ← config.coordination.tryMap (resolveCoordinationRule configPath remotes)
  let defaultMode := config.defaultMode.getD .localOnly
  let defaultRemote ← resolveDefaultRemote configPath defaultMode config.defaultRemote remotes
  return {
    remotes
    defaultMode
    defaultRemote
    wings
    kg
    coordination
    coordinationDefaultWing := none }

end

end AgentPalace
