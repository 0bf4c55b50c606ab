import AgentPalace.Config.Accepted

/-!
# Route resolution

Where the requests for a wing, for the knowledge graph and for the coordination
of a wing go. `resolveRoute` takes the first rule that applies: the diary
override, the rule of the wing, the routing of the project, the default mode.
`resolveCoordinationRoute` reads a table of its own under the canonical name of
the wing.

The diary override of `resolveRoute` compares the wing as it is spelled, so the
spellings that only `WingId.normalized` identifies fall through to the rules
below it.
-/

namespace AgentPalace

def diaryRoom : String := "diary"

def diaryTopicPrefix : String := "diary:"

structure ProjectRoutingConfig where
  mode : RouteMode
  remote : Option String
  write : Option WriteTarget

structure RouteQuery where
  wing : Option String
  room : Option String
  sourceFile : Option String

def localRule : ResolvedRouteRule := ⟨.localOnly, none, .localOnly⟩

def ruleFromDefaultMode (federation : FederationRuntimeConfig) : ResolvedRouteRule :=
  match federation.defaultMode with
  | .localOnly => localRule
  | mode => ⟨mode, federation.defaultRemote, .localOnly⟩

/-- The remote of a project rule: `none` if the rule cannot be used. -/
def projectRemote (proj : ProjectRoutingConfig) (federation : FederationRuntimeConfig) :
    Option (Option String) :=
  match proj.mode with
  | .localOnly => some none
  | .remote | .combined =>
    match proj.remote with
    | some r => if federation.remotes.contains r then some (some r) else none
    | none => if federation.remotes.size = 1 then some federation.remotes.keys.head? else none

def resolveProjectRule (proj : ProjectRoutingConfig) (federation : FederationRuntimeConfig) :
    Option ResolvedRouteRule :=
  (projectRemote proj federation).map fun remote =>
    ⟨proj.mode, remote, if proj.mode = .combined then proj.write.getD .localOnly else .localOnly⟩

def RouteQuery.isDiary (query : RouteQuery) : Bool :=
  query.wing = some sharedAgentDiaryWing || query.room = some diaryRoom ||
    query.sourceFile.any (startsWith · diaryTopicPrefix)

def resolveRoute (federation : FederationRuntimeConfig)
    (projectRouting : Option ProjectRoutingConfig) (query : RouteQuery) : ResolvedRouteRule :=
  if query.isDiary then localRule
  else
    match query.wing.bind federation.wings.get? with
    | some rule => rule
    | none =>
      match projectRouting.bind (resolveProjectRule · federation) with
      | some rule => rule
      | none => ruleFromDefaultMode federation

def resolveKgRoute (federation : FederationRuntimeConfig) : ResolvedRouteRule :=
  match federation.kg with
  | some kg => kg
  | none => ruleFromDefaultMode federation

/-- The wings whose coordination stays in this palace. -/
def pinnedWings : List String := [sharedAgentDiaryWing, unscopedWing, defaultCoordinationWing]

def resolveCoordinationRoute (federation : FederationRuntimeConfig) (wing : String) :
    ResolvedRouteRule :=
  match WingId.normalized wing with
  | .error _ => localRule
  | .ok canonical =>
    if canonical.str ∈ pinnedWings then localRule
    else
      match federation.coordination.get? canonical.str with
      | some rule => rule
      | none => ruleFromDefaultMode federation

section
variable {fed : FederationRuntimeConfig} {projectRouting : Option ProjectRoutingConfig}
  {query : RouteQuery}

theorem wellFormed_local (remotes : OrdMap String ResolvedRemote) :
    localRule.WellFormed remotes where
  named := by simp [localRule]
  unnamed := fun _ => rfl
  write := fun h => absurd rfl h

theorem eq_local_iff {remotes : OrdMap String ResolvedRemote} {rule : ResolvedRouteRule}
    (h : rule.WellFormed remotes) : rule = localRule ↔ rule.mode = .localOnly := by
  refine ⟨fun h => h ▸ rfl, fun hmode => ?_⟩
  have hwrite : rule.write = .localOnly := by
    by_contra hwrite
    have := h.write hwrite
    simp_all
  have hremote := h.unnamed hmode
  cases rule
  simp_all [localRule]

theorem wellFormed_default (h : fed.Accepted) : (ruleFromDefaultMode fed).WellFormed fed.remotes := by
  unfold ruleFromDefaultMode
  split
  · exact wellFormed_local _
  · have := @ResolvedRouteRule.wellFormed _ _ _ none h.defaultLocal h.defaultRemote
    simpa using this

theorem mode_default : (ruleFromDefaultMode fed).mode = fed.defaultMode := by
  unfold ruleFromDefaultMode
  split
  · rename_i hmode
    exact hmode.symm
  · rfl

theorem projectRemote_ok {proj : ProjectRoutingConfig} {remote : Option String}
    (h : projectRemote proj fed = some remote) (hmode : proj.mode ≠ .localOnly) :
    ∃ name, remote = some name ∧ fed.remotes.contains name = true := by
  have hnamed : (match proj.remote with
      | some r => if fed.remotes.contains r then some (some r) else none
      | none => if fed.remotes.size = 1 then some fed.remotes.keys.head? else none) =
      some remote := by
    cases hproj : proj.mode with
    | localOnly => exact absurd hproj hmode
    | remote => simpa only [projectRemote, hproj] using h
    | combined => simpa only [projectRemote, hproj] using h
  split at hnamed
  · split at hnamed
    · cases hnamed
      exact ⟨_, rfl, by assumption⟩
    · cases hnamed
  · split at hnamed
    · rename_i hsize
      cases hnamed
      obtain ⟨name, hname⟩ := List.length_eq_one_iff.1
        (show fed.remotes.keys.length = 1 by simpa [OrdMap.keys, OrdMap.size] using hsize)
      refine ⟨name, by simp [hname], ?_⟩
      apply OrdMap.mem_keys.1
      simp [hname]
    · cases hnamed

theorem wellFormed_project {proj : ProjectRoutingConfig} {rule : ResolvedRouteRule}
    (h : resolveProjectRule proj fed = some rule) : rule.WellFormed fed.remotes := by
  obtain ⟨remote, hremote, rfl⟩ := Option.map_eq_some_iff.1 h
  apply ResolvedRouteRule.wellFormed
  · intro hmode
    simp only [projectRemote, hmode, Option.some.injEq] at hremote
    exact hremote.symm
  · exact projectRemote_ok hremote

theorem wellFormed_route (h : fed.Accepted) :
    (resolveRoute fed projectRouting query).WellFormed fed.remotes := by
  unfold resolveRoute
  split
  · exact wellFormed_local _
  · split
    · rename_i rule hrule
      obtain ⟨wing, -, hwing⟩ := Option.bind_eq_some_iff.1 hrule
      exact h.wings wing rule hwing
    · split
      · rename_i rule hrule
        obtain ⟨proj, -, hproj⟩ := Option.bind_eq_some_iff.1 hrule
        exact wellFormed_project hproj
      · exact wellFormed_default h

theorem wellFormed_kg (h : fed.Accepted) : (resolveKgRoute fed).WellFormed fed.remotes := by
  unfold resolveKgRoute
  split
  · exact h.kg _ (by assumption)
  · exact wellFormed_default h

theorem wellFormed_coordination (h : fed.Accepted) (wing : String) :
    (resolveCoordinationRoute fed wing).WellFormed fed.remotes ∧
      (resolveCoordinationRoute fed wing).write ≠ .both := by
  unfold resolveCoordinationRoute
  split
  · exact ⟨wellFormed_local _, nofun⟩
  · split
    · exact ⟨wellFormed_local _, nofun⟩
    · split
      · exact (h.coordination _ _ (by assumption)).2
      · refine ⟨wellFormed_default h, ?_⟩
        unfold ruleFromDefaultMode
        split <;> exact nofun

theorem coordination_pinned {wing : String} {canonical : WingId}
    (h : WingId.normalized wing = .ok canonical) (hpinned : canonical.str ∈ pinnedWings) :
    resolveCoordinationRoute fed wing = localRule := by
  unfold resolveCoordinationRoute
  simp [h, hpinned]

/-- Whether a project rule can be used: its remote is configured, or there is only one. -/
def ProjectRoutingConfig.usable (proj : ProjectRoutingConfig) (fed : FederationRuntimeConfig) :
    Bool :=
  proj.mode = .localOnly ||
    match proj.remote with
    | some r => fed.remotes.contains r
    | none => fed.remotes.size = 1

/-- The first of the rules below the diary override that applies is a local one. -/
def RulesLocal (fed : FederationRuntimeConfig) (projectRouting : Option ProjectRoutingConfig)
    (query : RouteQuery) : Prop :=
  match query.wing.bind fed.wings.get?, projectRouting.filter (·.usable fed) with
  | some rule, _ => rule.mode = .localOnly
  | none, some proj => proj.mode = .localOnly
  | none, none => fed.defaultMode = .localOnly

theorem resolveProjectRule_usable (fed : FederationRuntimeConfig) (proj : ProjectRoutingConfig) :
    (resolveProjectRule proj fed).map (·.mode) =
      if proj.usable fed then some proj.mode else none := by
  unfold ProjectRoutingConfig.usable resolveProjectRule projectRemote
  cases proj.mode <;> cases proj.remote <;> simp

/-- Below the diary override a request stays local as the rules say. -/
theorem route_local_iff (h : fed.Accepted) (hdiary : query.isDiary = false) :
    resolveRoute fed projectRouting query = localRule ↔ RulesLocal fed projectRouting query := by
  rw [eq_local_iff (wellFormed_route h)]
  unfold resolveRoute RulesLocal
  simp only [hdiary, Bool.false_eq_true, if_false]
  cases query.wing.bind fed.wings.get? with
  | some rule => simp
  | none =>
    cases projectRouting with
    | none => simp [mode_default]
    | some proj =>
      have hmode := resolveProjectRule_usable fed proj
      cases hproj : resolveProjectRule proj fed with
      | none => simp_all [mode_default, Option.filter]
      | some rule => simp_all [Option.filter]

/-- The guarantees of the route resolvers for one request and one coordination wing. -/
structure RoutesOk (fed : FederationRuntimeConfig) (projectRouting : Option ProjectRoutingConfig)
    (query : RouteQuery) (wing : String) : Prop where
  route : (resolveRoute fed projectRouting query).WellFormed fed.remotes
  kg : (resolveKgRoute fed).WellFormed fed.remotes
  coordination : (resolveCoordinationRoute fed wing).WellFormed fed.remotes
  oneAuthority : (resolveCoordinationRoute fed wing).write ≠ .both
  diary : ∀ spelling, query.wing = some spelling →
    WingId.normalized spelling = .ok ⟨sharedAgentDiaryWing⟩ →
    resolveRoute fed projectRouting query = localRule
  pinned : ∀ canonical, WingId.normalized wing = .ok canonical → canonical.str ∈ pinnedWings →
    resolveCoordinationRoute fed wing = localRule

/-- **Route resolution.** For an accepted section every guarantee of the resolvers holds of a
request if and only if a spelling of the diary wing is the canonical one, comes with a diary room
or source, or falls to a local rule. -/
theorem routesOk_iff {configPath : String} {envLookup : String → Option String}
    {config : Option FederationConfigV1}
    (h : resolveFederationConfig configPath config envLookup = .ok fed) (wing : String) :
    RoutesOk fed projectRouting query wing ↔
      ∀ spelling, query.wing = some spelling →
        WingId.normalized spelling = .ok ⟨sharedAgentDiaryWing⟩ →
        query.isDiary = true ∨ RulesLocal fed projectRouting query := by
  have h := accepted h
  refine ⟨fun hok spelling hwing hnormalized => ?_, fun hrules => ?_⟩
  · by_cases hdiary : query.isDiary = true
    · exact .inl hdiary
    · exact .inr ((route_local_iff h (by simpa using hdiary)).1
        (hok.diary spelling hwing hnormalized))
  · refine ⟨wellFormed_route h, wellFormed_kg h, (wellFormed_coordination h wing).1,
      (wellFormed_coordination h wing).2, fun spelling hwing hnormalized => ?_,
      fun canonical => coordination_pinned⟩
    by_cases hdiary : query.isDiary = true
    · exact if_pos hdiary
    · have hlocal := (hrules spelling hwing hnormalized).resolve_left hdiary
      exact (route_local_iff h (by simpa using hdiary)).2 hlocal

end

/-- Two palaces of a team; what no rule names goes to the first. -/
def teamConfig : FederationConfigV1 where
  remotes :=
    [⟨"hub", "https://hub.example", none, none, none, none⟩,
      ⟨"spare", "https://spare.example", none, none, none, none⟩]
  defaultMode := some .remote
  defaultRemote := some "hub"
  wings := .empty
  kg := none
  coordination := .ofList [("wing_agents", ⟨.remote, some "spare", none⟩)]

/-- `teamConfig` resolved. -/
def teamRuntime : FederationRuntimeConfig where
  remotes := .ofList
    [("hub", ⟨"hub", "https://hub.example", none, none, defaultRemoteTimeoutMs⟩),
      ("spare", ⟨"spare", "https://spare.example", none, none, defaultRemoteTimeoutMs⟩)]
  defaultMode := .remote
  defaultRemote := some "hub"
  wings := .empty
  kg := none
  coordination := .ofList [("wing_agents", ⟨.remote, some "spare", .localOnly⟩)]
  coordinationDefaultWing := none

theorem teamConfig_resolves :
    resolveFederationConfig "config.toml" (some teamConfig) (fun _ => none) = .ok teamRuntime := by
  rfl

theorem routesOk_sample :
    RoutesOk teamRuntime none ⟨some "wing_team", none, none⟩ "agents" ↔
      ∀ spelling, some "wing_team" = some spelling →
        WingId.normalized spelling = .ok ⟨sharedAgentDiaryWing⟩ →
        (RouteQuery.mk (some "wing_team") none none).isDiary = true ∨
          RulesLocal teamRuntime none ⟨some "wing_team", none, none⟩ :=
  routesOk_iff teamConfig_resolves "agents"

/-- The short name of the diary wing follows the default mode to the remote. -/
theorem short_name_leaves :
    ¬∀ (configPath : String) (envLookup : String → Option String)
      (config : Option FederationConfigV1) (fed : FederationRuntimeConfig)
      (projectRouting : Option ProjectRoutingConfig) (query : RouteQuery) (wing : String),
      resolveFederationConfig configPath config envLookup = .ok fed →
      RoutesOk fed projectRouting query wing := by
  intro h
  have hok := h _ _ _ teamRuntime none ⟨some "agents", none, none⟩ "agents" teamConfig_resolves
  have hlocal := hok.diary "agents" rfl rfl
  have : resolveRoute teamRuntime none ⟨some "agents", none, none⟩ ≠ localRule := by
    decide +kernel
  exact this hlocal

end AgentPalace
