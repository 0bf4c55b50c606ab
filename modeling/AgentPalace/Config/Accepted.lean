import AgentPalace.Config.Federation
import AgentPalace.Lib.Checked

/-!
# What an accepted section guarantees

`ResolvedRouteRule.WellFormed` is the contract of one rule: a remote that is
configured exactly when the rule is not local, and a write target other than
local only for combined rules. `FederationRuntimeConfig.Accepted` is the
contract of the whole section, and `accepted` proves it of every section that
`resolveFederationConfig` lets through.
-/

namespace AgentPalace

structure ResolvedRouteRule.WellFormed (remotes : OrdMap String ResolvedRemote)
    (rule : ResolvedRouteRule) : Prop where
  named : (∃ name, rule.remote = some name ∧ remotes.contains name = true) ↔ rule.mode ≠ .localOnly
  unnamed : rule.mode = .localOnly → rule.remote = none
  write : rule.write ≠ .localOnly → rule.mode = .combined

structure FederationRuntimeConfig.Accepted (fed : FederationRuntimeConfig) : Prop where
  remotes : ∀ name r, fed.remotes.get? name = some r →
    r.name = name ∧ (startsWith r.url "http://" = true → isLoopbackHttpUrl r.url = true)
  wings : ∀ wing rule, fed.wings.get? wing = some rule → rule.WellFormed fed.remotes
  kg : ∀ rule, fed.kg = some rule → rule.WellFormed fed.remotes
  coordination : ∀ wing rule, fed.coordination.get? wing = some rule →
    WingId.normalized wing = .ok ⟨wing⟩ ∧ rule.WellFormed fed.remotes ∧ rule.write ≠ .both
  defaultLocal : fed.defaultMode = .localOnly → fed.defaultRemote = none
  defaultRemote : fed.defaultMode ≠ .localOnly →
    ∃ name, fed.defaultRemote = some name ∧ fed.remotes.contains name = true

variable {configPath : String} {envLookup : String → Option String}
  {remotes : OrdMap String ResolvedRemote}

theorem resolveRemote_ok {raw : RemoteConfigV1} {r : ResolvedRemote}
    (h : resolveRemote configPath envLookup remotes raw = .ok r) :
    r.name = raw.name ∧ (startsWith r.url "http://" = true → isLoopbackHttpUrl r.url = true) := by
  unfold resolveRemote configParse at h
  obtain ⟨-, h⟩ := check_ok h
  obtain ⟨-, h⟩ := check_ok h
  obtain ⟨-, h⟩ := check_ok h
  obtain ⟨-, h⟩ := check_ok h
  obtain ⟨hloopback, h⟩ := check_ok h
  obtain ⟨oauth, -, h⟩ := bind_ok h
  cases h
  refine ⟨rfl, fun hhttp => ?_⟩
  simpa [hhttp] using hloopback

theorem resolveRemotes_ok {raws : List RemoteConfigV1} {out : OrdMap String ResolvedRemote}
    (h : resolveRemotes configPath envLookup raws remotes = .ok out)
    (hacc : ∀ name r, remotes.get? name = some r →
      r.name = name ∧ (startsWith r.url "http://" = true → isLoopbackHttpUrl r.url = true)) :
    ∀ name r, out.get? name = some r →
      r.name = name ∧ (startsWith r.url "http://" = true → isLoopbackHttpUrl r.url = true) := by
  induction raws generalizing remotes with
  | nil =>
    cases h
    exact hacc
  | cons raw rest ih =>
    obtain ⟨remote, hremote, h⟩ := bind_ok h
    apply ih h
    intro name r hr
    rcases OrdMap.get?_insert_some hr with ⟨hname, rfl⟩ | hr
    · have := resolveRemote_ok hremote
      exact ⟨this.1.trans hname.symm, this.2⟩
    · exact hacc name r hr

theorem inferSingleRemote_ok {fieldPath name : String}
    (h : inferSingleRemote configPath fieldPath remotes = .ok name) :
    remotes.contains name = true := by
  unfold inferSingleRemote configParse at h
  split at h
  · rename_i hkeys
    cases h
    apply OrdMap.mem_keys.1
    simp [hkeys]
  · cases h
  · cases h

theorem resolveRemoteName_ok {fieldPath name : String} {named : Option String}
    (h : resolveRemoteName configPath fieldPath named remotes = .ok name) :
    remotes.contains name = true := by
  unfold resolveRemoteName configParse at h
  split at h
  · split at h
    · cases h
      assumption
    · cases h
  · exact inferSingleRemote_ok h

theorem writeTarget_of_combined {mode : RouteMode} {write : Option WriteTarget}
    (h : (if mode = .combined then write.getD .localOnly else .localOnly) ≠ .localOnly) :
    mode = .combined := by
  by_contra hmode
  exact h (if_neg hmode)

theorem ResolvedRouteRule.wellFormed {mode : RouteMode} {remote : Option String}
    {write : Option WriteTarget} (hlocal : mode = .localOnly → remote = none)
    (hremote : mode ≠ .localOnly → ∃ name, remote = some name ∧ remotes.contains name = true) :
    ResolvedRouteRule.WellFormed remotes
      ⟨mode, remote, if mode = .combined then write.getD .localOnly else .localOnly⟩ where
  named := by
    refine ⟨fun ⟨name, hname, _⟩ hmode => ?_, hremote⟩
    have := hlocal hmode
    simp_all
  unnamed := hlocal
  write := writeTarget_of_combined

theorem resolveRule_ok {fieldPath : String} {rule : RouteRuleV1} {resolved : ResolvedRouteRule}
    (h : resolveRule configPath fieldPath rule remotes = .ok resolved) :
    resolved.WellFormed remotes := by
  obtain ⟨remote, hremote, h⟩ := bind_ok h
  cases h
  apply ResolvedRouteRule.wellFormed
  · intro hmode
    rw [hmode] at hremote
    cases hremote
    rfl
  · intro hmode
    have hnamed : some <$> resolveRemoteName configPath fieldPath rule.remote remotes =
        .ok remote := by
      cases hrule : rule.mode with
      | localOnly => exact absurd hrule hmode
      | remote => rwa [hrule] at hremote
      | combined => rwa [hrule] at hremote
    obtain ⟨name, hname, rfl⟩ := map_ok hnamed
    exact ⟨name, rfl, resolveRemoteName_ok hname⟩

theorem checkCoordinationWing_ok {wing : String}
    (h : checkCoordinationWing configPath wing = .ok ()) :
    WingId.normalized wing = .ok ⟨wing⟩ := by
  unfold checkCoordinationWing configParse at h
  split at h
  · rename_i canonical hcanonical
    split at h
    · rename_i hwing
      rw [hcanonical, ← hwing]
    · cases h
  · cases h

theorem resolveCoordinationRule_ok {wing : String} {rule : RouteRuleV1}
    {resolved : ResolvedRouteRule}
    (h : resolveCoordinationRule configPath remotes wing rule = .ok resolved) :
    WingId.normalized wing = .ok ⟨wing⟩ ∧ resolved.WellFormed remotes ∧ resolved.write ≠ .both := by
  unfold resolveCoordinationRule configParse at h
  obtain ⟨_, hwing, h⟩ := bind_ok h
  obtain ⟨rule, hrule, h⟩ := bind_ok h
  obtain ⟨hboth, h⟩ := check_ok h
  cases h
  exact ⟨checkCoordinationWing_ok hwing, resolveRule_ok hrule, hboth⟩

theorem resolveDefaultRemote_ok {mode : RouteMode} {named resolved : Option String}
    (h : resolveDefaultRemote configPath mode named remotes = .ok resolved) :
    (mode = .localOnly → resolved = none) ∧
      (mode ≠ .localOnly → ∃ name, resolved = some name ∧ remotes.contains name = true) := by
  unfold resolveDefaultRemote configParse at h
  split at h
  · cases h
    simp
  · cases h
  · rename_i hmode
    split at h
    · rename_i name hname
      cases h
      simp_all
    · cases h
  · rename_i hmode
    obtain ⟨name, hname, rfl⟩ := map_ok h
    have := inferSingleRemote_ok hname
    simp_all

theorem accepted_default : FederationRuntimeConfig.default.Accepted where
  remotes := fun _ _ h => (by cases h)
  wings := fun _ _ h => (by cases h)
  kg := fun _ h => (by cases h)
  coordination := fun _ _ h => (by cases h)
  defaultLocal := fun _ => rfl
  defaultRemote := fun h => absurd rfl h

/-- **Accepted sections.** Whatever `resolveFederationConfig` lets through keeps the contract. -/
theorem accepted {config : Option FederationConfigV1} {fed : FederationRuntimeConfig}
    (h : resolveFederationConfig configPath config envLookup = .ok fed) : fed.Accepted := by
  cases config with
  | none =>
    cases h
    exact accepted_default
  | some config =>
    obtain ⟨remotes, hremotes, h⟩ := bind_ok h
    obtain ⟨wings, hwings, h⟩ := bind_ok h
    obtain ⟨kg, hkg, h⟩ := bind_ok h
    obtain ⟨coordination, hcoordination, h⟩ := bind_ok h
    obtain ⟨defaultRemote, hdefault, h⟩ := bind_ok h
    cases h
    have hdefault := resolveDefaultRemote_ok hdefault
    refine ⟨resolveRemotes_ok hremotes fun _ _ h => (by cases h), ?_, ?_, ?_, hdefault.1, hdefault.2⟩
    · intro wing rule hrule
      obtain ⟨raw, -, hraw⟩ := OrdMap.tryMap_inv hwings hrule
      exact resolveRule_ok hraw
    · intro rule hrule
      obtain ⟨_, hnone⟩ | ⟨raw, resolved, _, hresolved, hraw⟩ := mapM_ok hkg
      · simp_all
      · simp only [hresolved, Option.some.injEq] at hrule
        exact hrule ▸ resolveRule_ok hraw
    · intro wing rule hrule
      obtain ⟨raw, -, hraw⟩ := OrdMap.tryMap_inv hcoordination hrule
      exact resolveCoordinationRule_ok hraw

end AgentPalace
