import AgentPalace.Hub.Frames

/-!
# Device records over a step

`DeviceUpdate` lists what a step can make of a device record, with what it has
found before; `DeviceRemoved` says which records a step can remove. `run_devices`
is the inversion of a step for the device records: each of them is updated,
removed or new.
-/

namespace AgentPalace.Hub

open GatewayState
open OrdMap (Shrinks)

namespace DeviceGrant

def begun (secrets : VerificationSecrets) (g : DeviceGrant) : DeviceGrant :=
  { g with verifyState := some secrets.state, verifyNonce := some secrets.nonce
           browserId := some secrets.browserId }

def tried (g : DeviceGrant) : DeviceGrant := { g with verifyAttempts := g.verifyAttempts + 1 }

def approved (decision : PolicyDecision) (g : DeviceGrant) : DeviceGrant :=
  { g.tried with owner := some decision.admission, roleCeiling := some decision.role }

def refused (g : DeviceGrant) : DeviceGrant := { g.tried with denied := true, notAdmitted := true }

def denial (g : DeviceGrant) : DeviceGrant := { g with denied := true, notAdmitted := false }

end DeviceGrant

/-- What a step can make of the record of a device code. -/
inductive DeviceUpdate (policy : Policy) (s : GatewayState) :
    Event → Task → String → DeviceGrant → DeviceGrant → Prop where
  | same (e : Event) (task : Task) (d : String) (g : DeviceGrant) :
      DeviceUpdate policy s e task d g g
  | begun {now : Nat} {secrets : VerificationSecrets} {userCode d : String} {g : DeviceGrant}
      (hfind : s.findDevice? userCode = some (d, g)) :
      DeviceUpdate policy s (.beginDevice now secrets userCode) .idle d g (g.begun secrets)
  | polled {now pollTime : Nat} {family : String} {secrets : TokenSecrets} {d : String}
      {g : DeviceGrant} :
      DeviceUpdate policy s (.pollDevice now pollTime family secrets) (.polling d) d g
        (GatewayState.polled g pollTime)
  | tried {now : Nat} {attempt : Option String} {userCode d : String} {identity : VerifiedIdentity}
      {g : DeviceGrant} (hfind : s.findDevice? userCode = some (d, g)) (hlive : now ≤ g.expires) :
      DeviceUpdate policy s (.verifyDevice now) (.verifyingDevice attempt userCode identity true) d g
        g.tried
  | approved {now : Nat} {attempt : Option String} {userCode d : String}
      {identity : VerifiedIdentity} {decision : PolicyDecision} {g : DeviceGrant}
      (hfind : s.findDevice? userCode = some (d, g)) (hlive : now ≤ g.expires)
      (hattempts : g.verifyAttempts < 5) (hresolve : policy.resolve identity = .ok (some decision)) :
      DeviceUpdate policy s (.verifyDevice now) (.verifyingDevice attempt userCode identity true) d g
        (g.approved decision)
  | refused {now : Nat} {attempt : Option String} {userCode d : String} {identity : VerifiedIdentity}
      {g : DeviceGrant} (hfind : s.findDevice? userCode = some (d, g)) (hlive : now ≤ g.expires)
      (hattempts : g.verifyAttempts < 5) (hresolve : policy.resolve identity = .ok none) :
      DeviceUpdate policy s (.verifyDevice now) (.verifyingDevice attempt userCode identity true) d g
        g.refused
  | denied {now : Nat} {attempt : Option String} {userCode d : String} {g : DeviceGrant}
      (hfind : s.findDevice? userCode = some (d, g)) (hlive : now ≤ g.expires) :
      DeviceUpdate policy s (.denyDevice now) (.denyingDevice attempt userCode) d g g.denial

/-- The record a device authorization starts with. -/
def newDevice (config : GatewayConfig) (now : Nat) (secrets : DeviceSecrets)
    (clientId resource : String) (issued : Nat) : DeviceGrant where
  clientId
  resource
  userCode := secrets.userCode
  owner := none
  roleCeiling := none
  verifyState := none
  verifyNonce := none
  verifyCsrf := secrets.csrf
  browserId := none
  expires := now + config.lifetimeSeconds
  nextPoll := none
  pollInterval := config.intervalSeconds
  polls := 0
  verifyAttempts := 0
  denied := false
  notAdmitted := false
  issued

/-- A step removes a record that is over, or redeems it. -/
inductive DeviceRemoved (policy : Policy) (e : Event) (task : Task) (d : String)
    (g : DeviceGrant) : Prop where
  | ended {now : Nat} (hnow : e.now? = some now) (hover : g.expires < now ∨ g.denied = true)
  | redeemed {now pollTime : Nat} {family : String} {secrets : TokenSecrets}
      (he : e = .pollDevice now pollTime family secrets) (htask : task = .polling d)
      (hredeemable : Redeemable policy g now pollTime)

structure DeviceStep (config : GatewayConfig) (policy : Policy) (s : GatewayState) (e : Event)
    (task : Task) (s' : GatewayState) : Prop where
  update : ∀ d g', s'.devices.get? d = some g' →
    (∃ g, s.devices.get? d = some g ∧ DeviceUpdate policy s e task d g g') ∨
      (s.findDevice? g'.userCode = none ∧ ∃ now secrets clientId resource issued,
        e = .deviceAuthorize now secrets clientId resource ∧ d = secrets.deviceCode ∧
          g' = newDevice config now secrets clientId resource issued)
  removed : ∀ d g, s.devices.get? d = some g → s'.devices.get? d = none →
    DeviceRemoved policy e task d g

section
variable {config : GatewayConfig} {policy : Policy} {s s' : GatewayState} {e : Event}
  {task task' : Task}

theorem findDevice?_some {userCode d : String} {g : DeviceGrant}
    (h : s.findDevice? userCode = some (d, g)) :
    s.devices.get? d = some g ∧ g.userCode = userCode := by
  refine ⟨OrdMap.mem_entries.1 (List.mem_of_find?_eq_some h), ?_⟩
  simpa using List.find?_some h

theorem findDevice?_none {userCode d : String} {g : DeviceGrant}
    (h : s.findDevice? userCode = none) (hget : s.devices.get? d = some g) :
    g.userCode ≠ userCode := by
  have := List.find?_eq_none.1 h _ (OrdMap.mem_entries.2 hget)
  simpa using this

theorem DeviceStep.of_eq (h : s'.devices = s.devices) : DeviceStep config policy s e task s' where
  update d g' hg' := .inl ⟨g', h ▸ hg', .same _ _ _ _⟩
  removed d g hg hnone := by
    rw [h, hg] at hnone
    cases hnone

theorem DeviceStep.modify {d : String} {g : DeviceGrant} {f : DeviceGrant → DeviceGrant}
    (hget : s.devices.get? d = some g) (hs' : s'.devices = s.devices.modify d f)
    (hupdate : DeviceUpdate policy s e task d g (f g)) : DeviceStep config policy s e task s' where
  update k g' hg' := by
    rw [hs', OrdMap.get?_modify] at hg'
    split at hg'
    · rename_i hk
      rw [hget] at hg'
      cases hg'
      exact .inl ⟨g, hk ▸ hget, hk ▸ hupdate⟩
    · exact .inl ⟨g', hg', .same _ _ _ _⟩
  removed k g' hg' hnone := by
    rw [hs', OrdMap.get?_modify] at hnone
    split at hnone
    · rw [hget] at hnone
      cases hnone
    · rw [hg'] at hnone
      cases hnone

theorem DeviceStep.shrunk {now : Nat} (hnow : e.now? = some now)
    (hshrinks : Shrinks s.devices s'.devices)
    (hover : ∀ d g, s.devices.get? d = some g → s'.devices.get? d = none →
      g.expires < now ∨ g.denied = true) : DeviceStep config policy s e task s' where
  update d g' hg' := .inl ⟨g', hshrinks d g' hg', .same _ _ _ _⟩
  removed d g hg hnone := .ended hnow (hover d g hg hnone)

theorem prune_over {now : Nat} {d : String} {g : DeviceGrant} (hget : s.devices.get? d = some g)
    (hnone : (s.pruneExpired now).devices.get? d = none) : g.expires < now := by
  rw [get?_prune_devices, hget, Option.filter_some] at hnone
  split at hnone
  · cases hnone
  · rename_i hover
    have : ¬ now ≤ g.expires + deviceRecordGraceSeconds := by simpa using hover
    simp only [deviceRecordGraceSeconds] at this
    omega

theorem prune_devices {u : GatewayState} (now : Nat) (hnow : e.now? = some now)
    (hu : u.devices = s.devices) (hs' : s'.devices = (u.pruneExpired now).devices) :
    DeviceStep config policy s e task s' :=
  .shrunk hnow (fun d g hg => hu ▸ prune_devices_shrinks u now d g (hs' ▸ hg))
    fun _ _ hg hnone => .inl (prune_over (hu.symm ▸ hg) (hs' ▸ hnone))

theorem deviceVictim?_some {clientId d : String} {now : Nat}
    (h : s.deviceVictim? clientId now = some d) :
    ∃ g, s.devices.get? d = some g ∧ g.clientId = clientId ∧ (g.denied = true ∨ g.expires < now) := by
  unfold deviceVictim? at h
  obtain ⟨x, hx, rfl⟩ := Option.map_eq_some_iff.1 h
  have hpick := fun hstep => (foldl_pick hstep).1 x hx
  rcases hpick (fun o y => by cases o <;> grind) with h | h
  · cases h
  · obtain ⟨hmem, hp⟩ := List.mem_filter.1 h
    obtain ⟨hclient, hover⟩ := of_decide_eq_true hp
    exact ⟨x.2, OrdMap.mem_entries.1 hmem, hclient, hover⟩

theorem evictDevices_devices {clientId : String} {now fuel : Nat} :
    Shrinks s.devices (evictDevices clientId now fuel s).2.devices ∧
      ∀ d g, s.devices.get? d = some g →
        (evictDevices clientId now fuel s).2.devices.get? d = none →
          g.expires < now ∨ g.denied = true := by
  induction fuel generalizing s with
  | zero => exact ⟨.refl _, fun d g hg hnone => by rw [evictDevices, hg] at hnone; cases hnone⟩
  | succ fuel ih =>
    unfold evictDevices
    have hstay : Shrinks s.devices s.devices ∧ ∀ d g, s.devices.get? d = some g →
        s.devices.get? d = none → g.expires < now ∨ g.denied = true :=
      ⟨.refl _, fun d g hg hnone => by rw [hg] at hnone; cases hnone⟩
    split
    · split
      · exact hstay
      · rename_i victim hvictim
        obtain ⟨hshrinks, hover⟩ := @ih (s.removeDeviceGrant victim)
        refine ⟨fun d g hg => ?_, fun d g hg hnone => ?_⟩
        · have := hshrinks d g hg
          rw [get?_remove] at this
          split at this
          · cases this
          · exact this
        · by_cases hd : d = victim
          · obtain ⟨g', hg', -, hvictimover⟩ := deviceVictim?_some hvictim
            rw [← hd, hg] at hg'
            cases hg'
            exact hvictimover.symm
          · exact hover d g (by rw [get?_remove, if_neg hd, hg]) hnone
    · exact hstay

/-! ## The operations on device records -/

theorem deviceAuthorize_devices {now : Nat} {secrets : DeviceSecrets} {clientId resource : String}
    (hfree : s.findDevice? secrets.userCode = none) :
    DeviceStep config policy s (.deviceAuthorize now secrets clientId resource) task
      (s.deviceAuthorize config now secrets clientId resource).2 := by
  unfold deviceAuthorize
  split
  · exact .of_eq rfl
  · dsimp only
    split
    · exact prune_devices now rfl rfl rfl
    · obtain ⟨hshrinks, hover⟩ := @evictDevices_devices (s.pruneExpired now) clientId now
        (s.pruneExpired now).devices.size
      have hgone : ∀ d g, s.devices.get? d = some g → (evictDevices clientId now
          (s.pruneExpired now).devices.size (s.pruneExpired now)).2.devices.get? d = none →
            g.expires < now ∨ g.denied = true := by
        intro d g hg hnone
        cases hprune : (s.pruneExpired now).devices.get? d with
        | none => exact .inl (prune_over hg hprune)
        | some g' =>
          have hold := prune_devices_shrinks s now d g' hprune
          rw [hg] at hold
          cases hold
          exact hover d g hprune hnone
      have hkept : Shrinks s.devices (evictDevices clientId now (s.pruneExpired now).devices.size
          (s.pruneExpired now)).2.devices := (prune_devices_shrinks s now).trans hshrinks
      split
      · rename_i err u hu
        rw [hu] at hgone hkept
        exact .shrunk rfl hkept hgone
      · rename_i u hu
        rw [hu] at hgone hkept
        refine ⟨fun d g' hg' => ?_, fun d g hg hnone => ?_⟩
        · rcases OrdMap.get?_insert_some hg' with ⟨hd, rfl⟩ | hg'
          · exact .inr ⟨hfree, now, secrets, clientId, resource, _, rfl, hd, rfl⟩
          · exact .inl ⟨g', hkept d g' hg', .same _ _ _ _⟩
        · simp only [OrdMap.get?_insert] at hnone
          split at hnone
          · cases hnone
          · exact .ended rfl (hgone d g hg hnone)

theorem beginDevice_devices {now : Nat} {secrets : VerificationSecrets} {userCode : String} :
    DeviceStep config policy s (.beginDevice now secrets userCode) .idle
      (s.beginDeviceVerification now secrets userCode).2 := by
  unfold beginDeviceVerification
  split
  · exact .of_eq rfl
  · rename_i d g hfind
    split
    · exact .of_eq rfl
    · refine .modify (f := DeviceGrant.begun secrets) (findDevice?_some hfind).1 ?_ (.begun hfind)
      dsimp only
      split <;> rfl

theorem modify_tried (s : GatewayState) (d : String) (f : DeviceGrant → DeviceGrant) :
    (s.devices.modify d fun g => { g with verifyAttempts := g.verifyAttempts + 1 }).modify d f =
      s.devices.modify d fun g => f { g with verifyAttempts := g.verifyAttempts + 1 } :=
  OrdMap.modify_modify _ _ _ _

theorem verifyDevice_devices {now : Nat} {attempt : Option String} {userCode : String}
    {identity : VerifiedIdentity} {consent : Bool} :
    DeviceStep config policy s (.verifyDevice now)
      (.verifyingDevice attempt userCode identity consent)
      (s.verifyDevice now policy.resolve userCode identity consent).2 := by
  unfold verifyDevice
  split
  · exact .of_eq rfl
  · rename_i hconsent
    rw [Bool.not_eq_false] at hconsent
    subst hconsent
    split
    · exact .of_eq rfl
    · rename_i d g hfind
      have hget := (findDevice?_some hfind).1
      split
      · exact .of_eq rfl
      · rename_i hlive
        have hlive := not_lt.1 hlive
        dsimp only
        split
        · exact .modify (f := DeviceGrant.tried) hget rfl (.tried hfind hlive)
        · rename_i hattempts
          have hattempts : g.verifyAttempts < 5 := by omega
          split
          · exact .modify (f := DeviceGrant.tried) hget rfl (.tried hfind hlive)
          · rename_i decision hresolve
            exact .modify (f := DeviceGrant.approved decision) hget
              (modify_tried s d fun g =>
                { g with owner := some decision.admission, roleCeiling := some decision.role })
              (.approved hfind hlive hattempts hresolve)
          · rename_i hresolve
            exact .modify (f := DeviceGrant.refused) hget
              (modify_tried s d fun g => { g with denied := true, notAdmitted := true })
              (.refused hfind hlive hattempts hresolve)

theorem denyDevice_devices {now : Nat} {attempt : Option String} {userCode : String} :
    DeviceStep config policy s (.denyDevice now) (.denyingDevice attempt userCode)
      (s.denyDevice now userCode).2 := by
  unfold denyDevice
  split
  · exact .of_eq rfl
  · rename_i d g hfind
    split
    · exact .of_eq rfl
    · rename_i hlive
      exact .modify (f := DeviceGrant.denial) (findDevice?_some hfind).1 rfl
        (.denied hfind (not_lt.1 hlive))

theorem pollDevice_devices {now pollTime : Nat} {family : String} {secrets : TokenSecrets}
    {d : String} :
    DeviceStep config policy s (.pollDevice now pollTime family secrets) (.polling d)
      (s.pollDevice policy.roleForOwner now pollTime family secrets d).2 := by
  refine pollDevice_rule (motive := fun r => DeviceStep config policy s
      (.pollDevice now pollTime family secrets) (.polling d) r.2) (fun _ => .of_eq rfl)
    (fun g _ hget => .modify (f := fun g => GatewayState.polled g pollTime) hget rfl .polled)
    fun g owner roleCeiling hget hredeemable _ _ => ?_
  -- the record is taken out, and the others are pruned
  refine ⟨fun k g' hg' => ?_, fun k g' hg' hnone => ?_⟩
  · have herased := prune_devices_shrinks _ now k g' hg'
    simp only [modifyDevice, OrdMap.get?_erase, OrdMap.get?_modify] at herased
    split at herased
    · cases herased
    · exact .inl ⟨g', herased, .same _ _ _ _⟩
  · by_cases hk : k = d
    · rw [hk, hget] at hg'
      cases hg'
      exact .redeemed rfl (hk ▸ rfl) hredeemable
    · refine .ended rfl (.inl (prune_over ?_ hnone))
      simp only [modifyDevice, OrdMap.get?_erase, OrdMap.get?_modify, if_neg hk, hg']

theorem takeBrowserClaims_devices {transaction csrfToken : String} :
    (s.takeBrowserClaims transaction csrfToken).2.devices = s.devices := by
  unfold takeBrowserClaims
  split
  · rfl
  · split
    · rfl
    · split <;> rfl

theorem takeDeviceClaims_devices {state : String} :
    (s.takeDeviceClaims state).2.devices = s.devices := by
  unfold takeDeviceClaims
  split <;> rfl

theorem exchangeCode_devices {now : Nat} {family : String} {secrets : TokenSecrets}
    {code clientId redirectUri verifier resource : String} :
    DeviceStep config policy s
      (.exchangeCode now family secrets code clientId redirectUri verifier resource) task
      (s.exchangeCode config policy.roleForOwner now family secrets code clientId redirectUri verifier
        resource).2 := by
  refine exchangeCode_rule (motive := fun r => DeviceStep config policy s
    (.exchangeCode now family secrets code clientId redirectUri verifier resource) task r.2)
    (fun _ => .of_eq rfl) (fun _ => .of_eq rfl) fun _ _ _ => ?_
  exact prune_devices (u := { s with
    codes := s.codes.modify code fun g => { g with used := true } }) now rfl rfl rfl

theorem revoke_devices {token : String} : (s.revoke token).devices = s.devices := by
  unfold GatewayState.revoke
  split <;> rfl

theorem revokeOwnGrant_devices {now : Nat} {lookup : RoleLookup} {sessionId csrf token : String} :
    (s.revokeOwnGrant now lookup sessionId csrf token).2.devices = s.devices := by
  unfold revokeOwnGrant
  split <;> rfl

theorem refreshTake_devices {now : Nat} {token : String} :
    (s.refreshTake now token).2.devices = s.devices := by
  unfold GatewayState.refreshTake
  split
  · rfl
  · dsimp only
    split
    · rfl
    · split <;> rfl

theorem beginBrowser_devices {now : Nat} {secrets : BrowserSecrets}
    {clientId redirectUri challenge resource state nonce : String} :
    DeviceStep config policy s
      (.beginBrowser now secrets clientId redirectUri challenge resource state nonce) task
      (s.beginBrowserAuthorization config now secrets clientId redirectUri challenge resource state
        nonce).2 := by
  unfold beginBrowserAuthorization
  split
  · exact .of_eq rfl
  · exact prune_devices now rfl rfl (evictTransactions_same _ _).2.1

theorem createSession_devices {now : Nat} {sessionId : String} {owner : AdmissionIdentity}
    {csrf : String} {admin : Bool} :
    DeviceStep config policy s (.createSession now sessionId owner csrf admin) task
      (s.createSession now sessionId owner csrf admin).2 := by
  unfold createSession
  split
  · exact .of_eq rfl
  · exact prune_devices now rfl rfl rfl

/-- **What a step of a request does to the device records.** -/
theorem run_devices (hrun : e.run config policy s task = some (task', s')) :
    DeviceStep config policy s e task s' := by
  unfold Event.run at hrun
  split at hrun
  any_goals cases hrun
  case h_3.refl => exact prune_devices _ rfl rfl rfl
  case h_4.refl => exact beginBrowser_devices
  case h_11 transaction csrfToken consent =>
    have hdevices := @takeBrowserClaims_devices s transaction csrfToken
    split at hrun <;> rename_i heq <;> cases hrun <;> rw [heq] at hdevices <;> exact .of_eq hdevices
  case h_12 now transaction clientState claims =>
    have hdevices : (s.takeTransaction transaction).2.devices = s.devices := rfl
    split at hrun <;> rename_i heq <;> rw [heq] at hdevices
    · cases hrun
      exact .of_eq hdevices
    · split at hrun <;> cases hrun <;> exact .of_eq hdevices
  case h_13.refl => exact exchangeCode_devices
  case h_14 now secrets clientId resource =>
    split at hrun
    · cases hrun
    · rename_i hfree
      cases hrun
      exact deviceAuthorize_devices (by simpa using hfree)
  case h_15.refl => exact beginDevice_devices
  case h_22 userCode state consent =>
    have hdevices := @takeDeviceClaims_devices s state
    split at hrun <;> rename_i heq <;> cases hrun <;> rw [heq] at hdevices <;> exact .of_eq hdevices
  case h_25.refl => exact verifyDevice_devices
  case h_27.refl => exact denyDevice_devices
  case h_30.refl => exact pollDevice_devices
  case h_31 now refreshToken =>
    have hdevices := @refreshTake_devices s now refreshToken
    split at hrun <;> rename_i heq <;> cases hrun <;> rw [heq] at hdevices <;> exact .of_eq hdevices
  case h_35.refl => exact .of_eq revoke_devices
  case h_36.refl => exact .of_eq revokeOwnGrant_devices
  case h_37.refl => exact createSession_devices
  -- the others leave the device records as they are
  all_goals
    repeat' split at hrun
    all_goals try cases hrun
    all_goals exact .of_eq rfl

/-! ## All records -/

theorem DeviceUpdate.userCode {d : String} {g g' : DeviceGrant}
    (h : DeviceUpdate policy s e task d g g') : g'.userCode = g.userCode := by
  cases h <;> rfl

theorem DeviceUpdate.verifyState {d : String} {g g' : DeviceGrant}
    (h : DeviceUpdate policy s e task d g g') :
    g'.verifyState = g.verifyState ∨ ∃ now secrets userCode, e = .beginDevice now secrets userCode ∧
      s.findDevice? userCode = some (d, g) ∧ g'.verifyState = some secrets.state := by
  cases h with
  | begun hfind => exact .inr ⟨_, _, _, rfl, hfind, rfl⟩
  | _ => exact .inl rfl

/-- Device codes and verification states were drawn, and no two stored records share a user code or a
verification state. -/
structure DeviceSound (w : World) : Prop where
  code : ∀ d g, w.gateway.devices.get? d = some g → d ∈ w.drawn
  state : ∀ d g a, w.gateway.devices.get? d = some g → g.verifyState = some a → a ∈ w.drawn
  oneState : ∀ d g d' g' a, w.gateway.devices.get? d = some g →
    w.gateway.devices.get? d' = some g' → g.verifyState = some a → g'.verifyState = some a → d = d'
  oneCode : ∀ d g d' g', w.gateway.devices.get? d = some g →
    w.gateway.devices.get? d' = some g' → g.userCode = g'.userCode → d = d'

/-- The gateway and the secrets drawn are all that counts. -/
theorem DeviceSound.of_eq {w w' : World} (h : DeviceSound w) (hgateway : w'.gateway = w.gateway)
    (hdrawn : w'.drawn = w.drawn) : DeviceSound w' := by
  obtain ⟨h₁, h₂, h₃, h₄⟩ := h
  constructor <;> rw [hgateway] <;> (try rw [hdrawn]) <;> assumption

theorem DeviceSound.step {w w' : World} {p : Nat} {t : Task} (h : DeviceSound w)
    (hs : w.Steps config p e t w') : DeviceSound w' := by
  have hupdate := (run_devices hs.run).update
  have hmem : ∀ {x}, x ∈ w.drawn → x ∈ w'.drawn := fun hx =>
    hs.drawn ▸ List.mem_append_right _ hx
  have hfresh := hs.fair.fresh.1
  have hstate : ∀ d g' a, w'.gateway.devices.get? d = some g' → g'.verifyState = some a →
      (∃ g, w.gateway.devices.get? d = some g ∧ g.verifyState = some a) ∨
        ∃ now secrets userCode g, e = .beginDevice now secrets userCode ∧
          w.gateway.findDevice? userCode = some (d, g) ∧ a = secrets.state := by
    intro d g' a hg' ha
    rcases hupdate d g' hg' with ⟨g, hg, hu⟩ | ⟨-, now, secrets, clientId, resource, n, -, -, rfl⟩
    · rcases hu.verifyState with heq | ⟨now, secrets, userCode, he, hfind, heq⟩
      · exact .inl ⟨g, hg, heq ▸ ha⟩
      · rw [heq] at ha
        cases ha
        exact .inr ⟨now, secrets, userCode, g, he, hfind, rfl⟩
    · cases ha
  refine ⟨fun d g' hg' => ?_, fun d g' a hg' ha => ?_, fun d g d' g' a hg hg' ha ha' => ?_,
    fun d g d' g' hg hg' heq => ?_⟩
  · rcases hupdate d g' hg' with ⟨g, hg, -⟩ | ⟨-, now, secrets, clientId, resource, n, rfl, rfl, -⟩
    · exact hmem (h.code d g hg)
    · rw [hs.drawn]
      exact List.mem_append_left _ (by simp [Event.secrets])
  · rcases hstate d g' a hg' ha with ⟨g, hg, ha⟩ | ⟨now, secrets, userCode, g, rfl, -, rfl⟩
    · exact hmem (h.state d g a hg ha)
    · rw [hs.drawn]
      exact List.mem_append_left _ (by simp [Event.secrets])
  · rcases hstate d g a hg ha with ⟨x, hx, hxa⟩ | ⟨now, secrets, userCode, x, he, hfind, hxa⟩ <;>
      rcases hstate d' g' a hg' ha' with ⟨y, hy, hya⟩ | ⟨now', secrets', userCode', y, he', hfind', hya⟩
    · exact h.oneState d x d' y a hx hy hxa hya
    · exact absurd (h.state d x a hx hxa) (hfresh a (by simp [he', Event.secrets, hya]))
    · exact absurd (h.state d' y a hy hya) (hfresh a (by simp [he, Event.secrets, hxa]))
    · rw [he] at he'
      cases he'
      rw [hfind] at hfind'
      cases hfind'
      rfl
  · rcases hupdate d g hg with ⟨x, hx, hux⟩ | ⟨hfree, now, secrets, clientId, resource, n, he, hd, hn⟩ <;>
      rcases hupdate d' g' hg' with
        ⟨y, hy, huy⟩ | ⟨hfree', now', secrets', clientId', resource', n', he', hd', hn'⟩
    · exact h.oneCode d x d' y hx hy (hux.userCode ▸ huy.userCode ▸ heq)
    · exact absurd (heq ▸ hux.userCode.symm) (findDevice?_none hfree' hx)
    · exact absurd (heq.symm ▸ huy.userCode.symm) (findDevice?_none hfree hy)
    · rw [he] at he'
      cases he'
      rw [hd, hd']

theorem deviceSound_after {w w' : World} {l : Label} (h : DeviceSound w)
    (hstep : (machine config).Step w l w') : DeviceSound w' := by
  rcases step_cases hstep with ⟨p, e, t, rfl, hs⟩ | ⟨policy, rfl, rfl⟩ | ⟨p, rfl, rfl⟩
  · exact h.step hs
  · exact h.of_eq rfl rfl
  · exact h.of_eq rfl rfl

theorem deviceSound_reachable {w : World} (h : (machine config).Reachable w) : DeviceSound w := by
  refine h.invariant ?_ fun a l b _ ha hstep => deviceSound_after ha hstep
  rintro a ⟨hgateway, -, -, -⟩
  constructor <;> simp [hgateway, GatewayState.empty]

end

end AgentPalace.Hub
