import AgentPalace.Hub.Families
import AgentPalace.Hub.Devices

/-!
# Decisions about device grants

A device grant is decided by whoever verifies or denies its user code. Neither
`verify_device` nor `deny_device` looks at what was decided before, and a request
that was admitted with one verification state finds the grant again by its user
code, whatever its state is by then. `World.DecidesOnce` is what they would have
to check: in every run whose steps meet it a decision stays (`decided_once`), and
a verification that was replaced has no effect any more.
-/

namespace AgentPalace.Hub

open GatewayState

/-! ## The decision of a grant -/

namespace DeviceGrant

/-- Who approved the grant and up to which role, and whether it was denied, and for what. -/
def outcome (g : DeviceGrant) : Option AdmissionIdentity × Option AccessRole × Bool × Bool :=
  (g.owner, g.roleCeiling, g.denied, g.notAdmitted)

def Decided (g : DeviceGrant) : Prop := g.owner ≠ none ∨ g.denied = true

/-- The attempt is the current one, where there is an attempt. -/
def Current (g : DeviceGrant) (attempt : Option String) : Prop :=
  ∀ a, attempt = some a → g.verifyState = some a

/-- The grant is open, or has been approved just so. -/
def MayApprove (g : DeviceGrant) (decision : PolicyDecision) : Prop :=
  ¬ g.Decided ∨ g.owner = some decision.admission ∧ g.roleCeiling = some decision.role

/-- The grant is open, or has been denied for the same reason. -/
def MayDeny (g : DeviceGrant) (notAdmitted : Bool) : Prop :=
  ¬ g.Decided ∨ g.denied = true ∧ g.notAdmitted = notAdmitted

/-- What the policy makes of an identity does not go against a decision. -/
def MayVerify (g : DeviceGrant) (policy : Policy) (identity : VerifiedIdentity) : Prop :=
  match policy.resolve identity with
  | .ok (some decision) => g.MayApprove decision
  | .ok none => g.MayDeny true
  | .error _ => True

theorem Decided.of_outcome {g g' : DeviceGrant} (h : g'.outcome = g.outcome) (hg : g.Decided) :
    g'.Decided := by
  simp only [outcome, Prod.mk.injEq] at h
  rw [Decided, h.1, h.2.2.1]
  exact hg

theorem outcome_approved {g : DeviceGrant} {decision : PolicyDecision} (hg : g.Decided)
    (h : g.MayApprove decision) : (g.approved decision).outcome = g.outcome := by
  obtain ⟨howner, hceiling⟩ := h.resolve_left fun hopen => hopen hg
  simp [outcome, approved, tried, howner, hceiling]

theorem outcome_refused {g : DeviceGrant} (hg : g.Decided) (h : g.MayDeny true) :
    g.refused.outcome = g.outcome := by
  obtain ⟨hdenied, hreason⟩ := h.resolve_left fun hopen => hopen hg
  simp [outcome, refused, tried, hdenied, hreason]

theorem denial_eq {g : DeviceGrant} (hdenied : g.denied = true) (hreason : g.notAdmitted = false) :
    g.denial = g := by
  obtain ⟨⟩ := g
  simp_all [denial]

end DeviceGrant

/-! ## Attempts -/

/-- The verification state a request was admitted with. -/
def Task.attempt? : Task → Option String
  | .readingDeviceNonce _ state _ | .awaitingDevice _ state _ _ | .parkingDevice state _
  | .checkingDevice _ state _ _ | .takingDevice _ state _ | .completingDevice _ state _ _ => some state
  | .verifyingDevice attempt _ _ _ | .denyingDevice attempt _ => attempt
  | _ => none

/-- A step that may decide a grant is of its current attempt, and goes against no decision. -/
def World.DecidesOnce (w : World) : Label → Prop
  | .step p (.verifyDevice now) =>
    match w.task p with
    | .verifyingDevice attempt userCode identity true =>
      ∀ d g, w.gateway.findDevice? userCode = some (d, g) → now ≤ g.expires →
        g.Current attempt ∧ (g.verifyAttempts < 5 → g.MayVerify w.policy identity)
    | _ => True
  | .step p (.denyDevice now) =>
    match w.task p with
    | .denyingDevice attempt userCode =>
      ∀ d g, w.gateway.findDevice? userCode = some (d, g) → now ≤ g.expires →
        g.denied = true ∧ g.notAdmitted = false ∨ g.Current attempt ∧ ¬ g.Decided
    | _ => True
  | _ => True

section
variable {config : GatewayConfig} {w w' : World} {p : Nat} {e : Event} {t : Task}

/-- **A decision stays**, step by step. -/
theorem DeviceUpdate.outcome {d : String} {g g' : DeviceGrant}
    (h : DeviceUpdate w.policy w.gateway e (w.task p) d g g') (hg : g.Decided)
    (honce : w.DecidesOnce (.step p e)) : g'.outcome = g.outcome := by
  generalize htask : w.task p = task at h
  cases h with
  | same | begun | polled | tried => rfl
  | approved hfind hlive hattempts hresolve =>
    simp only [World.DecidesOnce, htask] at honce
    have := (honce _ _ hfind hlive).2 hattempts
    rw [DeviceGrant.MayVerify, hresolve] at this
    exact DeviceGrant.outcome_approved hg this
  | refused hfind hlive hattempts hresolve =>
    simp only [World.DecidesOnce, htask] at honce
    have := (honce _ _ hfind hlive).2 hattempts
    rw [DeviceGrant.MayVerify, hresolve] at this
    exact DeviceGrant.outcome_refused hg this
  | denied hfind hlive =>
    simp only [World.DecidesOnce, htask] at honce
    rcases honce _ _ hfind hlive with ⟨hdenied, hreason⟩ | ⟨-, hopen⟩
    · rw [DeviceGrant.denial_eq hdenied hreason]
    · exact absurd hg hopen

/-- A device code was drawn, and its grant has an outcome as long as it is stored. -/
def HasOutcome (d : String) (g : DeviceGrant) (w : World) : Prop :=
  d ∈ w.drawn ∧ ∀ g', w.gateway.devices.get? d = some g' → g'.outcome = g.outcome

theorem HasOutcome.step {d : String} {g : DeviceGrant} (h : HasOutcome d g w) (hg : g.Decided)
    {l : Label} (hstep : ((machine config).restrict World.DecidesOnce).Step w l w') :
    HasOutcome d g w' := by
  obtain ⟨hstep, honce⟩ := hstep
  rcases step_cases hstep with ⟨p, e, t, rfl, hs⟩ | ⟨policy, rfl, rfl⟩ | ⟨p, rfl, rfl⟩
  · refine ⟨hs.drawn ▸ List.mem_append_right _ h.1, fun g' hg' => ?_⟩
    rcases (run_devices hs.run).update d g' hg' with
      ⟨old, hold, hupdate⟩ | ⟨-, now, secrets, clientId, resource, n, rfl, rfl, -⟩
    · rw [hupdate.outcome ((hg.of_outcome) (h.2 old hold)) honce, h.2 old hold]
    · -- the code of a new grant is not the code of an old one
      exact absurd h.1 (hs.fair.fresh.1 _ (by simp [Event.secrets]))
  · exact h
  · exact h

/-- A verification state that was drawn and that no stored grant has. -/
def Superseded (a : String) (w : World) : Prop :=
  a ∈ w.drawn ∧ ∀ d g, w.gateway.devices.get? d = some g → g.verifyState ≠ some a

theorem Superseded.step {a : String} (h : Superseded a w) {l : Label}
    (hstep : (machine config).Step w l w') : Superseded a w' := by
  rcases step_cases hstep with ⟨p, e, t, rfl, hs⟩ | ⟨policy, rfl, rfl⟩ | ⟨p, rfl, rfl⟩
  · refine ⟨hs.drawn ▸ List.mem_append_right _ h.1, fun d g' hg' ha => ?_⟩
    rcases (run_devices hs.run).update d g' hg' with
      ⟨g, hg, hupdate⟩ | ⟨-, now, secrets, clientId, resource, n, -, -, rfl⟩
    · rcases hupdate.verifyState with heq | ⟨now, secrets, userCode, rfl, -, heq⟩
      · exact h.2 d g hg (heq ▸ ha)
      · rw [heq] at ha
        cases ha
        exact hs.fair.fresh.1 _ (by simp [Event.secrets]) h.1
    · cases ha
  · exact h
  · exact h

/-- **A new verification supersedes the one before.** -/
theorem superseded_begin (h : DeviceSound w) {now : Nat} {secrets : VerificationSecrets}
    {userCode d a : String} {g : DeviceGrant}
    (hs : w.Steps config p (.beginDevice now secrets userCode) t w')
    (hfind : w.gateway.findDevice? userCode = some (d, g)) (hlive : now ≤ g.expires)
    (ha : g.verifyState = some a) : Superseded a w' := by
  have hget := (findDevice?_some hfind).1
  have hdrawn := h.state d g a hget ha
  refine ⟨hs.drawn ▸ List.mem_append_right _ hdrawn, fun k g' hg' hk => ?_⟩
  have hrun := hs.run
  generalize w'.gateway = s' at hrun hg'
  cases htask : w.task p <;> rw [htask] at hrun <;> cases hrun
  simp only [beginDeviceVerification, hfind, not_lt.2 hlive, if_false, ha, modifyDevice,
    OrdMap.get?_modify] at hg'
  split at hg'
  · rw [hget] at hg'
    cases hg'
    cases hk
    exact hs.fair.fresh.1 _ (by simp [Event.secrets]) hdrawn
  · rename_i hkd
    exact hkd (h.oneState k g' d g a hg' hget hk ha)

theorem Superseded.run {a : String} (h : Superseded a w) (hattempt : (w.task p).attempt? = some a)
    (hs : w.Steps config p e t w') (honce : w.DecidesOnce (.step p e)) (d : String) :
    w'.gateway.devices.get? d = w.gateway.devices.get? d := by
  have hrun := hs.run
  generalize htask : w.task p = task at hrun hattempt
  generalize w'.gateway = s' at hrun
  unfold Event.run at hrun
  split at hrun
  any_goals cases hattempt
  case h_22.refl userCode consent =>
    have hdevices := @takeDeviceClaims_devices w.gateway a
    split at hrun <;> rename_i heq <;> cases hrun <;> rw [heq] at hdevices <;> rw [hdevices]
  case h_25.refl now userCode identity consent =>
    cases hrun
    cases consent with
    | false => rfl
    | true =>
      have hidle : ∀ k g, w.gateway.findDevice? userCode = some (k, g) → g.expires < now := by
        intro k g hfind
        by_contra hlive
        simp only [World.DecidesOnce, htask] at honce
        exact h.2 k g (findDevice?_some hfind).1 ((honce k g hfind (not_lt.1 hlive)).1 a rfl)
      simp only [GatewayState.verifyDevice, Bool.true_eq_false, if_false]
      split
      · rfl
      · rename_i k g hfind
        rw [if_pos (hidle k g hfind)]
  case h_27.refl now userCode =>
    cases hrun
    unfold GatewayState.denyDevice
    split
    · rfl
    · rename_i k g hfind
      split
      · rfl
      · rename_i hlive
        simp only [World.DecidesOnce, htask] at honce
        have hget := (findDevice?_some hfind).1
        rcases honce k g hfind (not_lt.1 hlive) with ⟨hdenied, hreason⟩ | ⟨hcurrent, -⟩
        · -- the grant is denied already
          simp only [modifyDevice, OrdMap.get?_modify]
          split
          · rename_i hd
            rw [hd, hget]
            exact congrArg some (DeviceGrant.denial_eq hdenied hreason)
          · rfl
        · exact absurd (hcurrent a rfl) (h.2 k g hget)
  all_goals
    repeat' split at hrun
    all_goals try cases hrun
    all_goals rfl

/-- **A device grant is decided once, and by its current verification**, in every run in which a step
that may decide a grant is of its current attempt and goes against no decision: what was decided
stays as long as the grant is stored, and once `begin_device_verification` has replaced a
verification state no request of that attempt changes a grant. -/
theorem decided_once (config : GatewayConfig) :
    (∀ w ls w' d g g', (machine config).Reachable w →
      ((machine config).restrict World.DecidesOnce).Run w ls w' →
      w.gateway.devices.get? d = some g → g.Decided → w'.gateway.devices.get? d = some g' →
        g'.outcome = g.outcome) ∧
    ∀ w p now secrets userCode w₁ d g a ls w₂ q e w₃, (machine config).Reachable w →
      (machine config).Step w (.step p (.beginDevice now secrets userCode)) w₁ →
      w.gateway.findDevice? userCode = some (d, g) → now ≤ g.expires → g.verifyState = some a →
      (machine config).Run w₁ ls w₂ → (w₂.task q).attempt? = some a →
      ((machine config).restrict World.DecidesOnce).Step w₂ (.step q e) w₃ →
        ∀ k, w₃.gateway.devices.get? k = w₂.gateway.devices.get? k := by
  constructor
  · intro w ls w' d g g' hw hrun hget hg hget'
    have hstart : HasOutcome d g w :=
      ⟨(deviceSound_reachable hw).code d g hget, fun x hx => by rw [hget] at hx; cases hx; rfl⟩
    have hend := hrun.rel (R := fun x y => HasOutcome d g x → HasOutcome d g y) (fun _ h => h)
      (fun _ _ _ h h' hx => h' (h hx)) (fun _ _ _ hs hx => hx.step hg hs)
    exact (hend hstart).2 g' hget'
  · intro w p now secrets userCode w₁ d g a ls w₂ q e w₃ hw hbegin hfind hlive ha hrun hattempt
      ⟨hstep, honce⟩ k
    have hstart : Superseded a w₁ := by
      rcases step_cases hbegin with ⟨_, _, _, hl, hs⟩ | ⟨_, hl, -⟩ | ⟨_, hl, -⟩ <;> cases hl
      exact superseded_begin (deviceSound_reachable hw) hs hfind hlive ha
    have hend := hrun.rel (R := fun x y => Superseded a x → Superseded a y) (fun _ h => h)
      (fun _ _ _ h h' hx => h' (h hx)) fun _ _ _ hs hx => hx.step hs
    rcases step_cases hstep with ⟨_, _, _, hl, hs⟩ | ⟨_, hl, -⟩ | ⟨_, hl, -⟩ <;> cases hl
    exact (hend hstart).run hattempt hs honce k

end

/-! ### A grant that is decided twice -/

/-- Request `1` is at the upstream for a verification that request `2` replaces; request `3` approves,
and then the upstream refuses the claims of request `1`. -/
def refusedLate : List Label :=
  [.step 0 (.deviceAuthorize 0 ⟨"device", "user", "csrf"⟩ "native" "https://hub.example/mcp"),
    .step 0 (.beginDevice 0 ⟨"first", "nonce", "browser"⟩ "user"),
    .step 1 (.deviceCallback "first" (some "browser") false), .step 1 (.readDeviceNonce true),
    .step 2 (.beginDevice 0 ⟨"second", "nonce2", "browser2"⟩ "user"),
    .step 3 (.verifyCall "user" demoIdentity true), .step 3 (.verifyDevice 0),
    .step 1 (.deviceUpstream (.error .signature))]

/-- An approved grant is denied by an attempt that was replaced. -/
theorem decided_twice : ∃ w w' d g g' a, (machine demoConfig).Reachable w ∧
    (machine demoConfig).Step w (.step 1 (.denyDevice 0)) w' ∧ (w.task 1).attempt? = some a ∧
    Superseded a w ∧ w.gateway.devices.get? d = some g ∧ g.Decided ∧
    w'.gateway.devices.get? d = some g' ∧ g'.outcome ≠ g.outcome := by
  have hplay : ((play demoConfig demoWorld refusedLate).any fun w =>
      decide ((w.task 1).attempt? = some "first") && decide ("first" ∈ w.drawn) &&
        decide (∀ x ∈ w.gateway.devices.entries, x.2.verifyState ≠ some "first") &&
        (w.gateway.devices.get? "device").any fun g => g.owner.isSome &&
          (play demoConfig w [.step 1 (.denyDevice 0)]).any fun w' =>
            (w'.gateway.devices.get? "device").any fun g' => decide (g'.outcome ≠ g.outcome)) = true := by
    decide +kernel
  obtain ⟨w, hw, htest⟩ := (Option.any_eq_true _ _).1 hplay
  simp only [Bool.and_eq_true, decide_eq_true_eq, Option.any_eq_true] at htest
  obtain ⟨⟨⟨hattempt, hdrawn⟩, hstates⟩, g, hg, howner, w', hw', g', hg', hne⟩ := htest
  refine ⟨w, w', "device", g, g', "first", reachable_play hw, ?_, hattempt, ⟨hdrawn, ?_⟩, hg,
    .inl (Option.isSome_iff_ne_none.1 howner), hg', hne⟩
  · cases run_play hw' with
    | cons hstep hnil =>
      cases hnil
      exact hstep
  · exact fun d x hx => hstates _ (OrdMap.mem_entries.2 hx)

end AgentPalace.Hub
