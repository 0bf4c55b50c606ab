import AgentPalace.Coordination.Listing
import AgentPalace.Ingest.SourceKeys
import AgentPalace.Mcp.Candidates
import AgentPalace.Remote.Error

/-!
# Where a write goes

`toolAddDrawer`, `toolKgAdd` and `toolKgInvalidate` resolve a route and offer the
write to the remote of the route. The offer is declined with `none`, and the
tool goes on to the palace of this process. What a remote is asked is recorded
as the list of its calls; what the palace would answer is an argument.

A write whose target is a remote is declined as well if that remote has no
client: it lands in this palace (`routed_iff`).
-/

namespace AgentPalace

open Coordination (optStr)

structure CheckDuplicateRequest where
  content : String
  /-- The bits of the `f32`. -/
  threshold : Option UInt32
  deriving DecidableEq

structure CheckDuplicateResponse where
  isDuplicate : Bool
  «matches» : Json

structure AddDrawerRequest where
  wing : String
  room : String
  content : String
  sourceFile : Option String
  addedBy : Option String
  drawerId : Option String
  operationId : Option String
  allowNearDuplicate : Bool
  deriving DecidableEq

structure AddDrawerResponse where
  success : Bool
  drawerId : Option String
  wing : Option String
  room : Option String
  similar : List Json

structure KgAddFactRequest where
  subject : String
  predicate : String
  object : String
  validFrom : Option String
  operationId : Option String
  deriving DecidableEq

structure KgInvalidateRequest where
  subject : String
  predicate : String
  object : String
  ended : Option String
  operationId : Option String
  deriving DecidableEq

structure RemoteApi where
  idempotentMutationsCapability : Except RemoteError (Option Bool)
  hasCapability : String → Except RemoteError (Option Bool)
  checkDuplicate : CheckDuplicateRequest → Except RemoteError CheckDuplicateResponse
  addDrawer : AddDrawerRequest → Except RemoteError AddDrawerResponse
  kgAddFact : KgAddFactRequest → Except RemoteError Json
  kgInvalidate : KgInvalidateRequest → Except RemoteError Json

inductive RemoteCall where
  | idempotentMutationsCapability
  | hasCapability (capability : String)
  | checkDuplicate (req : CheckDuplicateRequest)
  | addDrawer (req : AddDrawerRequest)
  | kgAddFact (req : KgAddFactRequest)
  | kgInvalidate (req : KgInvalidateRequest)
  deriving DecidableEq

/-- `ToolError::Internal(McpError::Federation(message))`. -/
structure FederationError where
  message : String
  deriving DecidableEq

def duplicateSeriesCapability : String := "duplicate_series"

/-- `0.9_f32`. -/
def defaultDuplicateThreshold : UInt32 := 0x3f666666

/-! ## Routes -/

def resolveWriteTarget (route : ResolvedRouteRule) : WriteTarget :=
  match route.mode with
  | .localOnly => .localOnly
  | .remote => .remote
  | .combined => route.write

def isDualWrite (route : ResolvedRouteRule) : Bool := route.mode = .combined ∧ route.write = .both

/-- The remote of a write that goes to a remote alone. -/
def targetRemote (route : ResolvedRouteRule) : Option String :=
  match route.mode with
  | .localOnly => none
  | .remote => route.remote
  | .combined =>
    match route.write with
    | .localOnly => none
    | .remote => route.remote
    | .both => none

/-! ## Answers -/

def formatRemoteOrigin (name : String) : String :=
  if startsWith name "remote:" then name else "remote:" ++ name

def isDuplicateRejection : RemoteError → Bool
  | .remoteRejected _ status body =>
    status = 409 && (Ingest.splitOnce body.toList).any fun s => trim (String.ofList s.1) = "duplicate"
  | _ => false

def isUnknownOutcome : RemoteError → Bool
  | .unknownOutcome .. => true
  | _ => false

def retryAdvice : Option String → String
  | none => "not safe to retry without a stable operation_id; the remote may already have applied the mutation"
  | some _ => "safe to retry with the same operation_id; the remote may already have applied the mutation"

def remoteMutationUnknownOutcomeValue (e : RemoteError) (operationId : Option String) : Json :=
  match e with
  | .unknownOutcome remote message =>
    .obj [("error", .str message), ("operation_id", optStr operationId),
      ("outcome", .str "unknown_outcome"), ("remote", .str remote),
      ("retry", .str (retryAdvice operationId)), ("success", .bool false)]
  | _ => .obj [("outcome", .str "unknown_outcome"), ("success", .bool false)]

/-- A refusal for a `reason`. -/
def refusedValue (reason remoteName : String) (rest : List (String × Json)) : Json :=
  .obj ([("applied_to", .str (formatRemoteOrigin remoteName))] ++ rest ++
    [("origin", .str remoteName), ("reason", .str reason), ("success", .bool false)])

/-- Put a field into an object; any other value stays as it is. -/
def withField (name : String) (v : Json) : Json → Json
  | .obj fields => .obj (Json.insertField name v fields)
  | other => other

def addedValue (remoteName : String) (resp : AddDrawerResponse) : Json :=
  let fields := [("applied_to", .str (formatRemoteOrigin remoteName)),
    ("drawer_id", optStr resp.drawerId), ("origin", .str remoteName), ("room", optStr resp.room),
    ("success", .bool true), ("wing", optStr resp.wing)]
  if resp.similar.isEmpty then .obj fields
  else withField "similar" (.arr resp.similar) (.obj fields)

/-- The matches of a duplicate check, each with where it is from. -/
def remoteMatches (remoteName : String) : Json → List Json
  | .arr items => items.map (withField "origin" (.str remoteName))
  | _ => []

/-! ## Offers to a remote -/

/-- The answer of a remote, `none` to go on here, and the calls it was asked with. -/
structure Offer where
  result : Except FederationError (Option Json)
  calls : List (String × RemoteCall)

def Offer.declined : Offer := ⟨.ok none, []⟩

def operationIdForRemote (api : RemoteApi) (requested : Option String) (generated : String) :
    Except RemoteError (Option String) :=
  api.idempotentMutationsCapability.map fun capability =>
    if capability ≠ some false then some (requested.getD generated) else none

/-- Offer a write to the remote of its route: `send` asks the remote for it. -/
def offerRemote (router : FederationRouter RemoteApi) (route : ResolvedRouteRule)
    (requested : Option String) (generated : String)
    (send : String → RemoteApi → Option String → Offer) : Offer :=
  match targetRemote route with
  | none => .declined
  | some remoteName =>
    match router.remotes.get? remoteName with
    | none => .declined
    | some api =>
      let asked := (remoteName, RemoteCall.idempotentMutationsCapability)
      match operationIdForRemote api requested generated with
      | .error e =>
        ⟨.error ⟨s!"remote `{remoteName}` idempotency capability check failed: {e.display}"⟩, [asked]⟩
      | .ok operationId =>
        let offer := send remoteName api operationId
        ⟨offer.result, asked :: offer.calls⟩

/-- What the failed mutation `name` answers. -/
def failedMutation (remoteName name : String) (operationId : Option String) (e : RemoteError) :
    Except FederationError (Option Json) :=
  if isUnknownOutcome e then .ok (some (remoteMutationUnknownOutcomeValue e operationId))
  else .error ⟨s!"remote `{remoteName}` {name} failed: {e.display}"⟩

/-- The arguments of `add_drawer`. -/
structure DrawerWrite where
  wing : String
  room : String
  content : String
  sourceFile : String
  addedBy : String
  operationId : Option String
  allowNearDuplicate : Bool

namespace DrawerWrite

def request (w : DrawerWrite) (operationId : Option String) : AddDrawerRequest where
  wing := w.wing
  room := w.room
  content := w.content
  sourceFile := if w.sourceFile = "" then none else some w.sourceFile
  addedBy := some w.addedBy
  drawerId := none
  operationId := operationId
  allowNearDuplicate := w.allowNearDuplicate

def sendAdd (w : DrawerWrite) (remoteName : String) (api : RemoteApi) (operationId : Option String) :
    Offer :=
  let req := w.request operationId
  { calls := [(remoteName, .addDrawer req)]
    result := match api.addDrawer req with
      | .ok resp =>
        .ok (some (if resp.success then addedValue remoteName resp
          else refusedValue "rejected" remoteName []))
      | .error e =>
        if isDuplicateRejection e then
          .ok (some (refusedValue "duplicate" remoteName [("matches", .arr [])]))
        else failedMutation remoteName "add_drawer" operationId e }

end DrawerWrite

/-- The remote decides on duplicates when it is asked to add. -/
def serverClassifies (api : RemoteApi) : Bool :=
  match api.hasCapability duplicateSeriesCapability with
  | .ok (some true) => true
  | _ => false

namespace DrawerWrite

/-- Ask for duplicates first, unless the call is keyed or the remote classifies them itself. -/
def send (w : DrawerWrite) (remoteName : String) (api : RemoteApi) (operationId : Option String) :
    Offer :=
  let asked := (remoteName, RemoteCall.hasCapability duplicateSeriesCapability)
  let add := w.sendAdd remoteName api operationId
  if w.operationId = none ∧ serverClassifies api = false then
    let check : CheckDuplicateRequest := ⟨w.content, some defaultDuplicateThreshold⟩
    let calls := [asked, (remoteName, .checkDuplicate check)]
    match api.checkDuplicate check with
    | .ok resp =>
      if resp.isDuplicate then
        ⟨.ok (some (refusedValue "duplicate" remoteName
          [("matches", .arr (remoteMatches remoteName resp.matches))])), calls⟩
      else ⟨add.result, calls ++ add.calls⟩
    -- a failed check does not stop the add
    | .error _ => ⟨add.result, calls ++ add.calls⟩
  else ⟨add.result, asked :: add.calls⟩

def isDiary (w : DrawerWrite) : Bool :=
  w.wing = sharedAgentDiaryWing || w.room = diaryRoom || startsWith w.sourceFile diaryTopicPrefix

end DrawerWrite

def addDrawerRemoteWithOperation (router : FederationRouter RemoteApi) (w : DrawerWrite)
    (route : ResolvedRouteRule) (generated : String) : Offer :=
  if w.isDiary then .declined else offerRemote router route w.operationId generated w.send

/-- The arguments of `kg_add`. -/
structure FactWrite where
  subject : String
  predicate : String
  object : String
  validFrom : Option String
  operationId : Option String

def FactWrite.send (w : FactWrite) (remoteName : String) (api : RemoteApi)
    (operationId : Option String) : Offer :=
  let req : KgAddFactRequest := ⟨w.subject, w.predicate, w.object, w.validFrom, operationId⟩
  { calls := [(remoteName, .kgAddFact req)]
    result := match api.kgAddFact req with
      | .ok resp =>
        .ok (some (withField "applied_to" (.str (formatRemoteOrigin remoteName)) resp))
      | .error e => failedMutation remoteName "kg_add_fact" operationId e }

def kgAddRemoteWithOperation (router : FederationRouter RemoteApi) (w : FactWrite)
    (route : ResolvedRouteRule) (generated : String) : Offer :=
  offerRemote router route w.operationId generated w.send

/-- The arguments of `kg_invalidate`. -/
structure Invalidation where
  subject : String
  predicate : String
  object : String
  ended : Option String
  operationId : Option String

def Invalidation.send (w : Invalidation) (remoteName : String) (api : RemoteApi)
    (operationId : Option String) : Offer :=
  let req : KgInvalidateRequest := ⟨w.subject, w.predicate, w.object, w.ended, operationId⟩
  { calls := [(remoteName, .kgInvalidate req)]
    result := match api.kgInvalidate req with
      | .ok resp =>
        .ok (some (withField "applied_to" (.str (formatRemoteOrigin remoteName)) resp))
      | .error e => failedMutation remoteName "kg_invalidate" operationId e }

def kgInvalidateRemoteWithOperation (router : FederationRouter RemoteApi) (w : Invalidation)
    (route : ResolvedRouteRule) (generated : String) : Offer :=
  offerRemote router route w.operationId generated w.send

/-! ## Tools -/

/-- What the palace of this process makes of a write. -/
structure LocalWrite where
  answer : Except FederationError Json
  applied : Bool

structure Placed where
  answer : Except FederationError Json
  calls : List (String × RemoteCall)
  appliedHere : Bool

def LocalWrite.placed (here : LocalWrite) : Placed := ⟨here.answer, [], here.applied⟩

/-- A dual write is made here and replicated later; another one is offered to the remote first. -/
def placeWrite (route : ResolvedRouteRule) (offer : Offer) (here : LocalWrite) : Placed :=
  if isDualWrite route then here.placed
  else
    match offer.result with
    | .error e => ⟨.error e, offer.calls, false⟩
    | .ok (some answer) => ⟨.ok answer, offer.calls, false⟩
    | .ok none => ⟨here.answer, offer.calls, here.applied⟩

inductive FederatedWrite where
  | addDrawer (w : DrawerWrite)
  | kgAdd (w : FactWrite)
  | kgInvalidate (w : Invalidation)

def resolveDrawerRoute (router : FederationRouter RemoteApi) (wing room sourceFile : Option String) :
    ResolvedRouteRule :=
  resolveRoute router.rules none ⟨wing, room, sourceFile⟩

namespace FederatedWrite

variable (router : FederationRouter RemoteApi)

def route : FederatedWrite → ResolvedRouteRule
  | addDrawer w =>
    resolveDrawerRoute router (some w.wing) (some w.room)
      (if w.sourceFile = "" then none else some w.sourceFile)
  | kgAdd _ | kgInvalidate _ => resolveKgRoute router.rules

def offer (generated : String) : FederatedWrite → Offer
  | w@(addDrawer d) => addDrawerRemoteWithOperation router d (w.route router) generated
  | w@(kgAdd f) => kgAddRemoteWithOperation router f (w.route router) generated
  | w@(kgInvalidate i) => kgInvalidateRemoteWithOperation router i (w.route router) generated

/-- `tool_add_drawer`, `tool_kg_add` and `tool_kg_invalidate`. -/
def tool (generated : String) (here : LocalWrite) (w : FederatedWrite) : Placed :=
  placeWrite (w.route router) (w.offer router generated) here

end FederatedWrite

/-! ## Placement -/

def RemoteCall.AppliedBy (api : RemoteApi) : RemoteCall → Prop
  | .addDrawer req => ∃ resp, api.addDrawer req = .ok resp ∧ resp.success = true
  | .kgAddFact req => ∃ resp, api.kgAddFact req = .ok resp
  | .kgInvalidate req => ∃ resp, api.kgInvalidate req = .ok resp
  | _ => False

def FederatedWrite.SentAs : FederatedWrite → RemoteCall → Prop
  | .addDrawer w, .addDrawer req => ∃ operationId, req = w.request operationId
  | .kgAdd w, .kgAddFact req =>
    ∃ operationId, req = ⟨w.subject, w.predicate, w.object, w.validFrom, operationId⟩
  | .kgInvalidate w, .kgInvalidate req =>
    ∃ operationId, req = ⟨w.subject, w.predicate, w.object, w.ended, operationId⟩
  | _, _ => False

/-- The answer says that the write is refused, a duplicate, or of unknown outcome. -/
def ReportsFailure (v : Json) : Prop :=
  v.get? "success" = some (.bool false) ∧
    (v.get? "outcome" = some (.str "unknown_outcome") ∨ v.get? "reason" = some (.str "duplicate") ∨
      v.get? "reason" = some (.str "rejected"))

/-- What every write is offered with, once its route is not that of a diary. -/
def FederatedWrite.send : FederatedWrite → String → RemoteApi → Option String → Offer
  | .addDrawer d => d.send
  | .kgAdd f => f.send
  | .kgInvalidate i => i.send

def FederatedWrite.operationId : FederatedWrite → Option String
  | .addDrawer d => d.operationId
  | .kgAdd f => f.operationId
  | .kgInvalidate i => i.operationId

/-- A remote has settled the write: it applied it, or the answer is an error or reports one. -/
def FederatedWrite.SettledBy (w : FederatedWrite) (remoteName : String) (api : RemoteApi)
    (calls : List (String × RemoteCall)) (answer : Except FederationError Json) : Prop :=
  (∃ call, (remoteName, call) ∈ calls ∧ w.SentAs call ∧ call.AppliedBy api) ∨
    (∃ e, answer = .error e) ∨ ∃ v, answer = .ok v ∧ ReportsFailure v

/-- A write for a remote is settled by it and not made here; one for this palace reaches no remote. -/
structure FederatedWrite.Routed (router : FederationRouter RemoteApi) (w : FederatedWrite)
    (p : Placed) : Prop where
  remote : resolveWriteTarget (w.route router) = .remote → p.appliedHere = false ∧
    ((∃ remoteName api, (w.route router).remote = some remoteName ∧
        router.remotes.get? remoteName = some api ∧ w.SettledBy remoteName api p.calls p.answer) ∨
      ∃ e, p.answer = .error e)
  localOnly : resolveWriteTarget (w.route router) = .localOnly → p.calls = []

section
variable {router : FederationRouter RemoteApi} {route : ResolvedRouteRule} {w : FederatedWrite}
  {remoteName generated : String} {api : RemoteApi} {requested operationId : Option String}
  {here : LocalWrite}

theorem targetRemote_remote (h : resolveWriteTarget route = .remote) :
    targetRemote route = route.remote := by
  unfold resolveWriteTarget at h
  unfold targetRemote
  cases hmode : route.mode <;> simp_all

theorem targetRemote_local (h : resolveWriteTarget route = .localOnly) :
    targetRemote route = none := by
  unfold resolveWriteTarget at h
  unfold targetRemote
  cases hmode : route.mode <;> simp_all

theorem isDualWrite_remote (h : resolveWriteTarget route = .remote) :
    isDualWrite route = false := by
  unfold resolveWriteTarget at h
  unfold isDualWrite
  cases hmode : route.mode <;> simp_all

/-- The remote settles the write with this offer: it never hands it back. -/
def FederatedWrite.SettledOffer (w : FederatedWrite) (remoteName : String) (api : RemoteApi)
    (offer : Offer) : Prop :=
  (∃ e, offer.result = .error e) ∨
    ∃ v, offer.result = .ok (some v) ∧ w.SettledBy remoteName api offer.calls (.ok v)

theorem FederatedWrite.SettledBy.of_report {calls : List (String × RemoteCall)} {v : Json}
    (h : ReportsFailure v) : w.SettledBy remoteName api calls (.ok v) := .inr (.inr ⟨v, rfl, h⟩)

theorem FederatedWrite.SettledOffer.cons {offer : Offer} (h : w.SettledOffer remoteName api offer)
    (calls : List (String × RemoteCall)) :
    w.SettledOffer remoteName api ⟨offer.result, calls ++ offer.calls⟩ := by
  rcases h with h | ⟨v, hv, ⟨call, hmem, hcall⟩ | hreport⟩
  · exact .inl h
  · exact .inr ⟨v, hv, .inl ⟨call, List.mem_append_right _ hmem, hcall⟩⟩
  · exact .inr ⟨v, hv, .inr hreport⟩

theorem reports_refused {reason : String} {rest : List (String × Json)}
    (hreason : reason = "duplicate" ∨ reason = "rejected")
    (hrest : ∀ f ∈ rest, f.1 = "matches") : ReportsFailure (refusedValue reason remoteName rest) := by
  have hlookup : ∀ name, name ≠ "matches" → name ≠ "applied_to" →
      (refusedValue reason remoteName rest).get? name =
        List.lookup name [("origin", .str remoteName), ("reason", .str reason),
          ("success", .bool false)] := by
    intro name hmatches happlied
    have hnone : rest.lookup name = none := by
      rw [List.lookup_eq_none_iff]
      intro f hf
      simpa [hrest f hf] using hmatches
    simp [refusedValue, Json.get?, List.lookup_append, hnone, OrdMap.lookup_of_ne happlied]
  refine ⟨?_, ?_⟩
  · rw [hlookup _ (by decide) (by decide)]
    rfl
  · rw [hlookup "reason" (by decide) (by decide)]
    rcases hreason with rfl | rfl
    · exact .inr (.inl rfl)
    · exact .inr (.inr rfl)

theorem reports_unknown (e : RemoteError) (operationId : Option String) :
    ReportsFailure (remoteMutationUnknownOutcomeValue e operationId) := by
  cases e <;> exact ⟨rfl, .inl rfl⟩

theorem settled_failed (name : String) (operationId : Option String) (e : RemoteError)
    (calls : List (String × RemoteCall)) :
    w.SettledOffer remoteName api ⟨failedMutation remoteName name operationId e, calls⟩ := by
  unfold failedMutation
  split
  · exact .inr ⟨_, rfl, .of_report (reports_unknown e operationId)⟩
  · exact .inl ⟨_, rfl⟩

theorem settled_sendAdd (d : DrawerWrite) :
    (FederatedWrite.addDrawer d).SettledOffer remoteName api (d.sendAdd remoteName api operationId) := by
  unfold DrawerWrite.sendAdd
  dsimp only
  split
  · rename_i resp hadd
    split
    · rename_i hsuccess
      exact .inr ⟨_, rfl, .inl ⟨_, List.mem_cons_self, ⟨operationId, rfl⟩, resp, hadd, hsuccess⟩⟩
    · exact .inr ⟨_, rfl, .of_report (reports_refused (.inr rfl) (fun f hf => (by cases hf)))⟩
  · split
    · exact .inr ⟨_, rfl, .of_report (reports_refused (.inl rfl) (by simp))⟩
    · exact settled_failed _ _ _ _

theorem settled_send (d : DrawerWrite) :
    (FederatedWrite.addDrawer d).SettledOffer remoteName api (d.send remoteName api operationId) := by
  have hadd : (FederatedWrite.addDrawer d).SettledOffer remoteName api
      (d.sendAdd remoteName api operationId) := settled_sendAdd d
  unfold DrawerWrite.send
  dsimp only
  split
  · split
    · split
      · exact .inr ⟨_, rfl, .of_report (reports_refused (.inl rfl) (by simp))⟩
      · exact hadd.cons _
    · exact hadd.cons _
  · exact hadd.cons [_]

theorem settled_fact (f : FactWrite) :
    (FederatedWrite.kgAdd f).SettledOffer remoteName api (f.send remoteName api operationId) := by
  unfold FactWrite.send
  dsimp only
  split
  · rename_i resp hresp
    exact .inr ⟨_, rfl, .inl ⟨_, List.mem_cons_self, ⟨operationId, rfl⟩, resp, hresp⟩⟩
  · exact settled_failed _ _ _ _

theorem settled_invalidation (i : Invalidation) :
    (FederatedWrite.kgInvalidate i).SettledOffer remoteName api
      (i.send remoteName api operationId) := by
  unfold Invalidation.send
  dsimp only
  split
  · rename_i resp hresp
    exact .inr ⟨_, rfl, .inl ⟨_, List.mem_cons_self, ⟨operationId, rfl⟩, resp, hresp⟩⟩
  · exact settled_failed _ _ _ _

theorem isDiary_route (d : DrawerWrite) (h : d.isDiary = true) :
    (FederatedWrite.addDrawer d).route router = localRule := by
  have hquery : RouteQuery.isDiary ⟨some d.wing, some d.room,
      if d.sourceFile = "" then none else some d.sourceFile⟩ = true := by
    unfold DrawerWrite.isDiary at h
    unfold RouteQuery.isDiary
    split
    · rename_i hempty
      have : startsWith d.sourceFile diaryTopicPrefix = false := by
        rw [hempty]
        decide
      simpa [this] using h
    · simpa using h
  simp only [FederatedWrite.route, resolveDrawerRoute, resolveRoute, hquery, if_true]

theorem offer_eq (h : resolveWriteTarget (w.route router) = .remote) :
    w.offer router generated =
      offerRemote router (w.route router) w.operationId generated w.send := by
  cases w with
  | addDrawer d =>
    have hdiary : ¬ d.isDiary = true := by
      intro hdiary
      rw [isDiary_route d hdiary] at h
      exact absurd h (by decide)
    exact if_neg hdiary
  | kgAdd f => rfl
  | kgInvalidate i => rfl

theorem settled_offer (w : FederatedWrite) :
    w.SettledOffer remoteName api (w.send remoteName api operationId) := by
  cases w with
  | addDrawer d => exact settled_send d
  | kgAdd f => exact settled_fact f
  | kgInvalidate i => exact settled_invalidation i

theorem settled_offerRemote (htarget : targetRemote route = some remoteName)
    (hclient : router.remotes.get? remoteName = some api) :
    w.SettledOffer remoteName api (offerRemote router route requested generated w.send) := by
  unfold offerRemote
  rw [htarget]
  dsimp only
  rw [hclient]
  dsimp only
  split
  · exact .inl ⟨_, rfl⟩
  · exact (settled_offer w).cons [_]

theorem declined_offerRemote {send : String → RemoteApi → Option String → Offer}
    (h : ∀ remoteName, targetRemote route = some remoteName →
      router.remotes.get? remoteName = none) :
    offerRemote router route requested generated send = .declined := by
  unfold offerRemote
  split
  · rfl
  · rename_i remoteName htarget
    rw [h _ htarget]

theorem declined_local (h : resolveWriteTarget (w.route router) = .localOnly) :
    w.offer router generated = .declined := by
  have hroute : ∀ {requested send},
      offerRemote router (w.route router) requested generated send = .declined := fun {_ _} =>
    declined_offerRemote fun remoteName htarget => by
      rw [targetRemote_local h] at htarget
      cases htarget
  cases w with
  | addDrawer d =>
    simp only [FederatedWrite.offer, addDrawerRemoteWithOperation]
    split
    · rfl
    · exact hroute
  | kgAdd f => exact hroute
  | kgInvalidate i => exact hroute

theorem placeWrite_declined (hdual : isDualWrite route = false) :
    placeWrite route .declined here = here.placed := by
  simp [placeWrite, hdual, Offer.declined, LocalWrite.placed]

/-- **A write is placed as its route says, whatever the remotes and this palace answer, exactly if
the remote that its route names has a client.** -/
theorem routed_iff (router : FederationRouter RemoteApi) (w : FederatedWrite) (generated : String) :
    (∀ here, w.Routed router (w.tool router generated here)) ↔
      (resolveWriteTarget (w.route router) = .remote →
        ∃ remoteName, (w.route router).remote = some remoteName ∧
          router.remotes.contains remoteName = true) := by
  constructor
  · intro h htarget
    by_contra hclient
    have hdeclined : w.offer router generated = .declined := by
      rw [offer_eq htarget]
      refine declined_offerRemote fun remoteName hname => ?_
      rw [targetRemote_remote htarget] at hname
      by_contra hget
      exact hclient ⟨remoteName, hname, Option.isSome_iff_ne_none.2 hget⟩
    have hplaced := (h ⟨.ok .null, true⟩).remote htarget
    rw [FederatedWrite.tool, hdeclined, placeWrite_declined (isDualWrite_remote htarget)] at hplaced
    exact absurd hplaced.1 (by decide)
  · intro h here
    refine ⟨fun htarget => ?_, fun htarget => ?_⟩
    · obtain ⟨remoteName, hname, hclient⟩ := h htarget
      obtain ⟨api, hapi⟩ := Option.isSome_iff_exists.1 hclient
      have hsettled : w.SettledOffer remoteName api (w.offer router generated) := by
        rw [offer_eq htarget]
        exact settled_offerRemote ((targetRemote_remote htarget).trans hname) hapi
      have hdual := isDualWrite_remote htarget
      rcases hsettled with ⟨e, he⟩ | ⟨v, hv, hby⟩
      · exact ⟨by simp [FederatedWrite.tool, placeWrite, hdual, he],
          .inr ⟨e, by simp [FederatedWrite.tool, placeWrite, hdual, he]⟩⟩
      · have hplaced : w.tool router generated here =
            ⟨.ok v, (w.offer router generated).calls, false⟩ := by
          simp [FederatedWrite.tool, placeWrite, hdual, hv]
        rw [hplaced]
        exact ⟨rfl, .inl ⟨remoteName, api, hname, hapi, hby⟩⟩
    · have hdual : isDualWrite (w.route router) = false := by
        by_contra hdual
        have hboth : (w.route router).mode = .combined ∧ (w.route router).write = .both := by
          simpa [isDualWrite] using hdual
        rw [resolveWriteTarget, hboth.1, hboth.2] at htarget
        cases htarget
      rw [FederatedWrite.tool, declined_local htarget, placeWrite_declined hdual]
      rfl

/-- The knowledge graph is on the remote `office`, whose client could not be built. -/
def officeRouter : FederationRouter RemoteApi where
  rules := { FederationRuntimeConfig.default with
    remotes := .ofList [("office", ⟨"office", "https://office.example", none, none, 5000⟩)]
    kg := some ⟨.remote, some "office", .localOnly⟩ }
  remotes := .empty

def officeFact : FederatedWrite :=
  .kgAdd { subject := "Alice", predicate := "loves", object := "Bob", validFrom := none,
           operationId := none }

theorem routed_office :
    resolveWriteTarget (officeFact.route officeRouter) = .remote ∧
      ¬ ∀ here, officeFact.Routed officeRouter (officeFact.tool officeRouter "op_1" here) := by
  refine ⟨rfl, fun h => ?_⟩
  have happlied := ((h ⟨.ok .null, true⟩).remote rfl).1
  exact absurd happlied (by decide)

end

end AgentPalace
