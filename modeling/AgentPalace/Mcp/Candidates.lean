import AgentPalace.Config.Routes

/-!
# Coordination candidates

The remotes a coordination fallback or fan-out may ask. They are collected from
the rule table as it is configured, so they include the remotes of rules that
`resolveCoordinationRoute` overrides; every other candidate is where some wing's
coordination goes.
-/

namespace AgentPalace

/-- The routing rules and the clients of the remotes. -/
structure FederationRouter (Api : Type) where
  rules : FederationRuntimeConfig
  remotes : OrdMap String Api

namespace FederationRouter

variable {Api : Type}

def coordinationFederationEnabled (router : FederationRouter Api) : Bool :=
  !router.rules.coordination.entries.isEmpty || router.rules.defaultMode ≠ .localOnly

def coordinationCandidateRemotes (router : FederationRouter Api) : List String :=
  router.rules.coordination.values.filterMap (·.remote) ++
    if router.rules.defaultMode ≠ .localOnly then router.rules.defaultRemote.toList else []

/-- The remotes that may be asked, in the order of their names. -/
def coordinationCandidates (router : FederationRouter Api) : List (String × Api) :=
  router.remotes.entries.filter fun entry => entry.1 ∈ router.coordinationCandidateRemotes

theorem mem_candidateRemotes {router : FederationRouter Api} {name : String} :
    name ∈ router.coordinationCandidateRemotes ↔
      (∃ wing rule, router.rules.coordination.get? wing = some rule ∧ rule.remote = some name) ∨
        (router.rules.defaultMode ≠ .localOnly ∧ router.rules.defaultRemote = some name) := by
  have hrules : (∃ rule ∈ router.rules.coordination.values, rule.remote = some name) ↔
      ∃ wing rule, router.rules.coordination.get? wing = some rule ∧ rule.remote = some name := by
    simp only [OrdMap.mem_values]
    exact ⟨fun ⟨rule, ⟨wing, h⟩, hname⟩ => ⟨wing, rule, h, hname⟩,
      fun ⟨wing, rule, h, hname⟩ => ⟨rule, ⟨wing, h⟩, hname⟩⟩
  rw [← hrules]
  unfold coordinationCandidateRemotes
  by_cases hmode : router.rules.defaultMode = .localOnly
  · simp [hmode]
  · simp [hmode]

theorem mem_candidates {router : FederationRouter Api} {name : String} :
    name ∈ router.coordinationCandidates.map (·.1) ↔
      router.remotes.contains name = true ∧ name ∈ router.coordinationCandidateRemotes := by
  rw [← OrdMap.mem_keys]
  simp only [coordinationCandidates, OrdMap.keys, List.mem_map, List.mem_filter, decide_eq_true_eq]
  constructor
  · rintro ⟨e, ⟨he, hname⟩, h⟩
    exact ⟨⟨e, he, h⟩, h ▸ hname⟩
  · rintro ⟨⟨e, he, h⟩, hname⟩
    exact ⟨e, ⟨he, h ▸ hname⟩, h⟩

end FederationRouter

def longWing (n : Nat) : List Char := wingPrefix.toList ++ List.replicate n 'a'

theorem longWing_normalized (n : Nat) :
    WingId.normalized (String.ofList (longWing n)) = .ok ⟨String.ofList (longWing n)⟩ := by
  apply WingId.normalized_self (List.prefix_append _ _)
  have hletters : ('a' :: wingPrefix.toList).all (fun c => !isWhitespace c &&
      decide (WingId.canonicalChar c = c) && (isAsciiAlphanumeric c || isIdPunctuation c)) = true := by
    decide
  intro c hc
  have hmem : c ∈ 'a' :: wingPrefix.toList := by
    rcases List.mem_append.1 hc with hc | hc
    · exact List.mem_cons_of_mem _ hc
    · simp [List.eq_of_mem_replicate hc]
  simpa [and_assoc] using List.all_eq_true.1 hletters c hmem

theorem length_bounded (names : List String) : ∃ n, ∀ name ∈ names, name.toList.length ≤ n := by
  induction names with
  | nil => exact ⟨0, by simp⟩
  | cons name names ih =>
    obtain ⟨n, hn⟩ := ih
    refine ⟨max name.toList.length n, ?_⟩
    intro other hother
    rcases List.mem_cons.1 hother with rfl | hother
    · omega
    · have := hn other hother
      omega

theorem unlisted_wing (names : List String) :
    ∃ wing, WingId.normalized wing = .ok ⟨wing⟩ ∧ wing ∉ names := by
  obtain ⟨n, hn⟩ := length_bounded names
  refine ⟨_, longWing_normalized n, fun hmem => ?_⟩
  have hle := hn _ hmem
  rw [String.toList_ofList] at hle
  simp only [longWing, List.length_append, List.length_replicate] at hle
  have : wingPrefix.toList.length = 5 := by decide
  omega

section
variable {fed : FederationRuntimeConfig} {name : String}

theorem coordination_remote {wing : String}
    (h : (resolveCoordinationRoute fed wing).remote = some name) :
    (∃ key rule, key ∉ pinnedWings ∧ fed.coordination.get? key = some rule ∧
      rule.remote = some name) ∨
      (fed.defaultMode ≠ .localOnly ∧ fed.defaultRemote = some name) := by
  unfold resolveCoordinationRoute at h
  split at h
  · cases h
  · split at h
    · cases h
    · rename_i hpinned
      split at h
      · exact .inl ⟨_, _, hpinned, by assumption, h⟩
      · unfold ruleFromDefaultMode at h
        split at h
        · cases h
        · rename_i hmode
          exact .inr ⟨hmode, h⟩

theorem coordination_of_rule (hfed : fed.Accepted) {wing : String} {rule : ResolvedRouteRule}
    (hpinned : wing ∉ pinnedWings) (hrule : fed.coordination.get? wing = some rule) :
    resolveCoordinationRoute fed wing = rule := by
  unfold resolveCoordinationRoute
  simp [(hfed.coordination wing rule hrule).1, hpinned, hrule]

theorem coordination_of_default (hmode : fed.defaultMode ≠ .localOnly) :
    ∃ wing, (resolveCoordinationRoute fed wing).remote = fed.defaultRemote := by
  obtain ⟨wing, hwing, hnew⟩ := unlisted_wing (pinnedWings ++ fed.coordination.keys)
  obtain ⟨hpinned, hkey⟩ := not_or.1 (mt List.mem_append.2 hnew)
  have hnone : fed.coordination.get? wing = none := by
    simpa [OrdMap.mem_keys, OrdMap.contains] using hkey
  refine ⟨wing, ?_⟩
  unfold resolveCoordinationRoute ruleFromDefaultMode
  simp only [hwing, hpinned, if_false, hnone]

/-- **Coordination candidates.** For an accepted section, a fallback or a fan-out may ask a remote
of the router if and only if the coordination of some wing goes there, or a rule for a wing that
is pinned to this palace names it. -/
theorem coordinationCandidates_iff {Api : Type} {configPath : String}
    {envLookup : String → Option String} {config : Option FederationConfigV1}
    (h : resolveFederationConfig configPath config envLookup = .ok fed) (remotes : OrdMap String Api)
    (name : String) :
    name ∈ (FederationRouter.mk fed remotes).coordinationCandidates.map (·.1) ↔
      remotes.contains name = true ∧
        ((∃ wing, (resolveCoordinationRoute fed wing).remote = some name) ∨
          ∃ wing rule, wing ∈ pinnedWings ∧ fed.coordination.get? wing = some rule ∧
            rule.remote = some name) := by
  have hfed := accepted h
  rw [FederationRouter.mem_candidates, FederationRouter.mem_candidateRemotes]
  apply and_congr_right
  intro _
  refine ⟨?_, ?_⟩
  · rintro (⟨wing, rule, hrule, hname⟩ | ⟨hmode, hname⟩)
    · by_cases hpinned : wing ∈ pinnedWings
      · exact .inr ⟨wing, rule, hpinned, hrule, hname⟩
      · exact .inl ⟨wing, by rw [coordination_of_rule hfed hpinned hrule, hname]⟩
    · obtain ⟨wing, hwing⟩ := coordination_of_default hmode
      exact .inl ⟨wing, hwing.trans hname⟩
  · rintro (⟨wing, hwing⟩ | ⟨wing, rule, -, hrule, hname⟩)
    · exact (coordination_remote hwing).imp_left
        fun ⟨key, rule, _, hrule, hname⟩ => ⟨key, rule, hrule, hname⟩
    · exact .inl ⟨wing, rule, hrule, hname⟩

end

theorem coordinationCandidates_sample :
    "hub" ∈ (FederationRouter.mk teamRuntime teamRuntime.remotes).coordinationCandidates.map (·.1) ↔
      teamRuntime.remotes.contains "hub" = true ∧
        ((∃ wing, (resolveCoordinationRoute teamRuntime wing).remote = some "hub") ∨
          ∃ wing rule, wing ∈ pinnedWings ∧ teamRuntime.coordination.get? wing = some rule ∧
            rule.remote = some "hub") :=
  coordinationCandidates_iff teamConfig_resolves teamRuntime.remotes "hub"

/-- A remote that only the overridden rule of the diary wing names is asked. -/
theorem pinned_remote_asked :
    ¬∀ (Api : Type) (configPath : String) (envLookup : String → Option String)
      (config : Option FederationConfigV1) (fed : FederationRuntimeConfig)
      (remotes : OrdMap String Api) (name : String),
      resolveFederationConfig configPath config envLookup = .ok fed →
      (name ∈ (FederationRouter.mk fed remotes).coordinationCandidates.map (·.1) ↔
        remotes.contains name = true ∧
          ∃ wing, (resolveCoordinationRoute fed wing).remote = some name) := by
  intro h
  have hspare := h _ _ _ _ teamRuntime teamRuntime.remotes "spare" teamConfig_resolves
  obtain ⟨-, wing, hwing⟩ := hspare.1 (by decide +kernel)
  rcases coordination_remote hwing with ⟨key, rule, hpinned, hrule, -⟩ | ⟨-, hname⟩
  · have hkey := OrdMap.mem_keys.2 (show teamRuntime.coordination.contains key = true by
      simp [OrdMap.contains, hrule])
    have hkeys : ∀ key ∈ teamRuntime.coordination.keys, key ∈ pinnedWings := by decide +kernel
    exact hpinned (hkeys key hkey)
  · revert hname
    decide

end AgentPalace
