import AgentPalace.Hub.Devices
import AgentPalace.Hub.Families

/-!
# What the gateway keeps

The browser transactions and the device records are bounded whatever the
requests do (`bounded_reachable`). Claims of the upstream are parked after the
lock was let go: by then the transaction or the verification they are for may be
over. `ParksStored` says that it is not, and that a transaction or a record that
is consumed leaves no claims behind; in every run whose steps meet it the parked
claims are those of stored transactions and records (`memory_bounded`).
-/

namespace AgentPalace.Hub

open GatewayState
open OrdMap (Shrinks)

/-- Every key of the first map is one of the second. -/
def KeysIn {β γ : Type} (m : OrdMap String β) (m' : OrdMap String γ) : Prop :=
  ∀ k x, m.get? k = some x → ∃ y, m'.get? k = some y

/-- Claims are parked under the verification states of stored records. -/
def DeviceClaims (s : GatewayState) : Prop :=
  ∀ k c, s.pendingDevice.get? k = some c → ∃ d g, s.devices.get? d = some g ∧ g.verifyState = some k

/-- The claims of the upstream are parked for what is stored. -/
structure Contained (s : GatewayState) : Prop where
  browser : KeysIn s.pendingBrowser s.browser
  device : DeviceClaims s

/-- Claims are parked for what is still stored, and what is consumed has none. -/
def ParksStored (policy : Policy) (s : GatewayState) : Event → Task → Prop
  | .parkBrowser, .parkingBrowser transaction _ => ∃ t, s.browser.get? transaction = some t
  | .completeBrowser _, .completing transaction _ _ => s.pendingBrowser.get? transaction = none
  | .parkDevice, .parkingDevice state _ => ∃ d g, s.devices.get? d = some g ∧
      g.verifyState = some state
  | .pollDevice now pollTime _ _, .polling d => ∀ g, s.devices.get? d = some g →
      Redeemable policy g now pollTime → ∀ a, g.verifyState = some a → s.pendingDevice.get? a = none
  | _, _ => True

structure ParkedStep (policy : Policy) (s : GatewayState) (e : Event) (task : Task)
    (s' : GatewayState) : Prop where
  size : s.browser.size ≤ maxBrowserTransactions → s'.browser.size ≤ maxBrowserTransactions
  browser : ParksStored policy s e task → KeysIn s.pendingBrowser s.browser →
    KeysIn s'.pendingBrowser s'.browser
  device : ParksStored policy s e task → DeviceClaims s → DeviceClaims s'

section
variable {config : GatewayConfig} {policy : Policy} {s s' : GatewayState} {e : Event}
  {task task' : Task} {now : Nat}

/-! ## Choosing what to evict -/

theorem oldestTransaction?_some {k : String} (h : s.oldestTransaction? = some k) :
    ∃ t, s.browser.get? k = some t := by
  unfold oldestTransaction? at h
  obtain ⟨x, hx, rfl⟩ := Option.map_eq_some_iff.1 h
  have hpick := fun hstep => (foldl_pick hstep).1 x hx
  rcases hpick (fun o y => by cases o <;> grind) with h | h
  · cases h
  · exact ⟨x.2, OrdMap.mem_entries.1 h⟩

theorem oldestTransaction?_none (h : s.oldestTransaction? = none) : s.browser.size = 0 := by
  unfold oldestTransaction? at h
  have hpick := fun hstep => (foldl_pick hstep).2 (Option.map_eq_none_iff.1 h)
  rw [OrdMap.size, (hpick fun o y => by cases o <;> grind).2]
  rfl

theorem evictTransactions_size {fuel : Nat} (h : s.browser.size < maxBrowserTransactions + fuel) :
    (evictTransactions fuel s).browser.size < maxBrowserTransactions := by
  induction fuel generalizing s with
  | zero => exact h
  | succ fuel ih =>
    unfold evictTransactions
    split
    · rename_i hfull
      split
      · rename_i hnone
        rw [oldestTransaction?_none hnone] at hfull
        exact absurd hfull (by decide)
      · rename_i k hk
        obtain ⟨t, ht⟩ := oldestTransaction?_some hk
        refine ih ?_
        have hless : (s.browser.erase k).size < s.browser.size := by
          rw [OrdMap.size_eq_countP, OrdMap.size_eq_countP]
          refine OrdMap.countP_lt (fun j x hx _ => ?_) ht rfl (by simp [OrdMap.get?_erase])
          exact ⟨x, Shrinks.erase _ _ j x hx, rfl⟩
        dsimp only
        omega
    · exact not_le.1 ‹_›

theorem evictTransactions_contained {fuel : Nat} (h : KeysIn s.pendingBrowser s.browser) :
    KeysIn (evictTransactions fuel s).pendingBrowser (evictTransactions fuel s).browser := by
  induction fuel generalizing s with
  | zero => exact h
  | succ fuel ih =>
    unfold evictTransactions
    split
    · split
      · exact h
      · refine ih fun k c hc => ?_
        simp only [OrdMap.get?_erase] at hc ⊢
        split at hc
        · cases hc
        · rename_i hk
          simpa only [if_neg hk] using h k c hc
    · exact h

/-! ## Pruning and removing -/

theorem prune_contained (now : Nat) (h : KeysIn s.pendingBrowser s.browser) :
    KeysIn (s.pruneExpired now).pendingBrowser (s.pruneExpired now).browser := by
  intro k c hc
  rw [prune_pendingBrowser, OrdMap.get?_filter, Option.filter_eq_some_iff] at hc
  obtain ⟨t, ht⟩ := h k c hc.1
  refine ⟨t, ?_⟩
  rw [prune_browser, OrdMap.get?_filter, ht, Option.filter_some, if_pos hc.2]

theorem DeviceClaims.remove (h : DeviceClaims s) (d : String) :
    DeviceClaims (s.removeDeviceGrant d) := by
  intro k c hc
  unfold removeDeviceGrant at hc ⊢
  split at hc
  · exact h k c hc
  · rename_i grant hgrant
    have hc' : s.pendingDevice.get? k = some c ∧ grant.verifyState ≠ some k := by
      dsimp only at hc
      split at hc
      · rename_i hnone
        exact ⟨hc, by rw [hnone]; nofun⟩
      · rename_i state hstate
        rw [OrdMap.get?_erase] at hc
        split at hc
        · cases hc
        · rename_i hk
          exact ⟨hc, by rw [hstate]; exact fun heq => hk (Option.some.inj heq).symm⟩
    obtain ⟨d', g, hg, hk⟩ := h k c hc'.1
    have hne : d' ≠ d := by
      rintro rfl
      rw [hgrant] at hg
      cases hg
      exact hc'.2 hk
    exact ⟨d', g, by rw [OrdMap.get?_erase, if_neg hne, hg], hk⟩

theorem DeviceClaims.removeAll (h : DeviceClaims s) (codes : List String) :
    DeviceClaims (codes.foldl removeDeviceGrant s) := by
  induction codes generalizing s with
  | nil => exact h
  | cons d codes ih => exact ih (h.remove d)

theorem DeviceClaims.prune (h : DeviceClaims s) (now : Nat) : DeviceClaims (s.pruneExpired now) := by
  rw [pruneExpired_eq]
  exact DeviceClaims.removeAll (s := s.pruneRecords now) h _

theorem DeviceClaims.evict (h : DeviceClaims s) (clientId : String) (now fuel : Nat) :
    DeviceClaims (evictDevices clientId now fuel s).2 := by
  induction fuel generalizing s with
  | zero => exact h
  | succ fuel ih =>
    unfold evictDevices
    split
    · split
      · exact h
      · exact ih (h.remove _)
    · exact h

/-! ## The operations on what is parked -/

theorem DeviceClaims.of_eq (h : DeviceClaims s) (hdevices : s'.devices = s.devices)
    (hpending : s'.pendingDevice = s.pendingDevice) : DeviceClaims s' := by
  unfold DeviceClaims
  rw [hdevices, hpending]
  exact h

theorem DeviceClaims.modify (h : DeviceClaims s) {f : DeviceGrant → DeviceGrant}
    (hf : ∀ g, (f g).verifyState = g.verifyState) (d : String) : DeviceClaims (s.modifyDevice d f) := by
  intro k c hc
  obtain ⟨d', g, hg, hk⟩ := h k c hc
  simp only [modifyDevice, OrdMap.get?_modify]
  by_cases hd : d' = d
  · exact ⟨d', f g, by rw [if_pos hd, ← hd, hg]; rfl, (hf g).trans hk⟩
  · exact ⟨d', g, by rw [if_neg hd, hg], hk⟩

theorem ParkedStep.of_eq (hbrowser : s'.browser = s.browser)
    (hparked : s'.pendingBrowser = s.pendingBrowser) (hdevices : s'.devices = s.devices)
    (hpending : s'.pendingDevice = s.pendingDevice) : ParkedStep policy s e task s' where
  size h := hbrowser ▸ h
  browser _ h := by rw [hbrowser, hparked]; exact h
  device _ h := h.of_eq hdevices hpending

theorem ParkedStep.of_device (hbrowser : s'.browser = s.browser)
    (hparked : s'.pendingBrowser = s.pendingBrowser)
    (hdevice : ParksStored policy s e task → DeviceClaims s → DeviceClaims s') :
    ParkedStep policy s e task s' where
  size h := hbrowser ▸ h
  browser _ h := by rw [hbrowser, hparked]; exact h
  device := hdevice

theorem ParkedStep.prune {u : GatewayState} (now : Nat) (hu : u.browser = s.browser)
    (huparked : u.pendingBrowser = s.pendingBrowser) (hudevices : u.devices = s.devices)
    (hupending : u.pendingDevice = s.pendingDevice)
    (hbrowser : s'.browser = (u.pruneExpired now).browser)
    (hparked : s'.pendingBrowser = (u.pruneExpired now).pendingBrowser)
    (hdevices : s'.devices = (u.pruneExpired now).devices)
    (hpending : s'.pendingDevice = (u.pruneExpired now).pendingDevice) :
    ParkedStep policy s e task s' where
  size h := by
    rw [hbrowser, prune_browser]
    exact (OrdMap.size_filter_le _ _).trans (hu ▸ h)
  browser _ h := by
    rw [hbrowser, hparked]
    refine prune_contained now ?_
    rw [hu, huparked]
    exact h
  device _ h := ((h.of_eq hudevices hupending).prune now).of_eq hdevices hpending

theorem beginBrowser_parked {secrets : BrowserSecrets}
    {clientId redirectUri challenge resource state nonce : String} :
    ParkedStep policy s e task (s.beginBrowserAuthorization config now secrets clientId redirectUri
      challenge resource state nonce).2 := by
  unfold beginBrowserAuthorization
  split
  · exact .of_eq rfl rfl rfl rfl
  · dsimp only
    have hsame := evictTransactions_same (s.pruneExpired now) (s.pruneExpired now).browser.size
    refine ⟨fun _ => ?_, fun _ h k c hc => ?_, fun _ h => (h.prune now).of_eq hsame.2.1 hsame.2.2.1⟩
    · refine (OrdMap.length_insert_le _ _ _).trans (evictTransactions_size ?_)
      have : 0 < maxBrowserTransactions := by decide
      omega
    · obtain ⟨t, ht⟩ := evictTransactions_contained (prune_contained now h) k c hc
      dsimp only
      rw [OrdMap.get?_insert]
      split
      · exact ⟨_, rfl⟩
      · exact ⟨t, ht⟩

theorem endBrowser_parked {transaction : String} :
    ParkedStep policy s e task (s.endBrowserTransaction transaction) where
  size h := (OrdMap.size_filter_le _ _).trans h
  browser _ h k c hc := by
    simp only [endBrowserTransaction, OrdMap.get?_erase] at hc ⊢
    split at hc
    · cases hc
    · rename_i hk
      simpa only [if_neg hk] using h k c hc
  device _ h := h.of_eq rfl rfl

theorem takeBrowserClaims_parked {transaction csrfToken : String} :
    ParkedStep policy s e task (s.takeBrowserClaims transaction csrfToken).2 := by
  unfold takeBrowserClaims
  split
  · exact .of_eq rfl rfl rfl rfl
  · split
    · exact .of_eq rfl rfl rfl rfl
    · split
      · exact .of_eq rfl rfl rfl rfl
      · exact ⟨fun h => h, fun _ h k c hc => h k c (Shrinks.erase _ _ k c hc),
          fun _ h => h.of_eq rfl rfl⟩

theorem takeTransaction_parked {transaction clientState : String} {claims : GoogleIdClaims} :
    ParkedStep policy s (.completeBrowser now) (.completing transaction clientState claims)
      (s.takeTransaction transaction).2 where
  size h := (OrdMap.size_filter_le _ _).trans h
  browser hparks h k c hc := by
    obtain ⟨t, ht⟩ := h k c hc
    refine ⟨t, ?_⟩
    simp only [GatewayState.takeTransaction, OrdMap.get?_erase]
    rw [if_neg, ht]
    rintro rfl
    have hc : s.pendingBrowser.get? k = some c := hc
    rw [show s.pendingBrowser.get? k = none from hparks] at hc
    cases hc
  device _ h := h.of_eq rfl rfl

theorem parkBrowser_parked {transaction : String} {claims : GoogleIdClaims} :
    ParkedStep policy s .parkBrowser (.parkingBrowser transaction claims)
      (s.parkBrowser transaction claims) where
  size h := h
  browser hparks h k c hc := by
    simp only [GatewayState.parkBrowser, OrdMap.get?_insert] at hc ⊢
    split at hc
    · rename_i hk
      exact hk ▸ hparks
    · exact h k c hc
  device _ h := h.of_eq rfl rfl

theorem exchangeCode_parked {lookup : RoleLookup} {family : String} {secrets : TokenSecrets}
    {code clientId redirectUri verifier resource : String} :
    ParkedStep policy s e task (s.exchangeCode config lookup now family secrets code clientId
      redirectUri verifier resource).2 := by
  refine exchangeCode_rule (motive := fun r => ParkedStep policy s e task r.2)
    (fun _ => .of_eq rfl rfl rfl rfl) (fun _ => .of_eq rfl rfl rfl rfl) fun _ _ _ => ?_
  exact .prune (u := { s with codes := s.codes.modify code fun g => { g with used := true } }) now
    rfl rfl rfl rfl rfl rfl rfl rfl

theorem deviceAuthorize_parked {secrets : DeviceSecrets} {clientId resource : String}
    (hfree : s.devices.get? secrets.deviceCode = none) :
    ParkedStep policy s e task (s.deviceAuthorize config now secrets clientId resource).2 := by
  unfold deviceAuthorize
  split
  · exact .of_eq rfl rfl rfl rfl
  · dsimp only
    split
    · exact .prune now rfl rfl rfl rfl rfl rfl rfl rfl
    · have hsame := evictDevices_same (s.pruneExpired now) now clientId
        (s.pruneExpired now).devices.size
      have hkept := (prune_devices_shrinks s now).trans (@evictDevices_devices (s.pruneExpired now)
        clientId now (s.pruneExpired now).devices.size).1
      have hclaims : DeviceClaims s → DeviceClaims (evictDevices clientId now
          (s.pruneExpired now).devices.size (s.pruneExpired now)).2 := fun h =>
        (h.prune now).evict clientId now _
      have hpruned : ParkedStep policy s e task (s.pruneExpired now) :=
        .prune now rfl rfl rfl rfl rfl rfl rfl rfl
      split
      · rename_i err u hu
        rw [hu] at hsame hclaims
        refine ⟨fun h => ?_, fun hparks h => ?_, fun _ => hclaims⟩
        · exact hsame.browser ▸ hpruned.size h
        · rw [hsame.browser, hsame.pendingBrowser]
          exact hpruned.browser hparks h
      · rename_i u hu
        rw [hu] at hsame hclaims hkept
        refine ⟨fun h => ?_, fun hparks h => ?_, fun _ h k c hc => ?_⟩
        · exact hsame.browser ▸ hpruned.size h
        · dsimp only
          rw [hsame.browser, hsame.pendingBrowser]
          exact hpruned.browser hparks h
        · obtain ⟨d, g, hg, hk⟩ := hclaims h k c hc
          refine ⟨d, g, ?_, hk⟩
          dsimp only
          rw [OrdMap.get?_insert, if_neg, hg]
          rintro rfl
          have := hkept _ g hg
          rw [hfree] at this
          cases this

theorem beginDevice_parked {secrets : VerificationSecrets} {userCode : String} :
    ParkedStep policy s e task (s.beginDeviceVerification now secrets userCode).2 := by
  unfold beginDeviceVerification
  split
  · exact .of_eq rfl rfl rfl rfl
  · rename_i d g hfind
    have hget := (findDevice?_some hfind).1
    split
    · exact .of_eq rfl rfl rfl rfl
    · refine .of_device ?_ ?_ fun _ h k c hc => ?_
      · dsimp only; split <;> rfl
      · dsimp only; split <;> rfl
      · -- the claims of the replaced verification are gone
        have hc' : s.pendingDevice.get? k = some c ∧ g.verifyState ≠ some k := by
          dsimp only at hc
          split at hc
          · rename_i hnone
            exact ⟨hc, by rw [hnone]; nofun⟩
          · rename_i replaced hstate
            simp only [modifyDevice, OrdMap.get?_erase] at hc
            split at hc
            · cases hc
            · rename_i hk
              exact ⟨hc, by rw [hstate]; exact fun heq => hk (Option.some.inj heq).symm⟩
        obtain ⟨d', g', hg', hk⟩ := h k c hc'.1
        have hne : d' ≠ d := by
          rintro rfl
          rw [hget] at hg'
          cases hg'
          exact hc'.2 hk
        refine ⟨d', g', ?_, hk⟩
        dsimp only
        split <;> simp only [modifyDevice, OrdMap.get?_modify, if_neg hne, hg']

theorem verifyDevice_parked {resolve : VerifiedIdentity → Except ProtocolError (Option PolicyDecision)}
    {userCode : String} {identity : VerifiedIdentity} {consent : Bool} :
    ParkedStep policy s e task (s.verifyDevice now resolve userCode identity consent).2 := by
  unfold GatewayState.verifyDevice
  split
  · exact .of_eq rfl rfl rfl rfl
  · split
    · exact .of_eq rfl rfl rfl rfl
    · rename_i d g hfind
      split
      · exact .of_eq rfl rfl rfl rfl
      · have htried : DeviceClaims s → DeviceClaims (s.modifyDevice d fun g =>
            { g with verifyAttempts := g.verifyAttempts + 1 }) := fun h => h.modify (by intro; rfl) d
        dsimp only
        split
        · exact .of_device rfl rfl fun _ => htried
        · split
          · exact .of_device rfl rfl fun _ => htried
          · exact .of_device rfl rfl fun _ h => (htried h).modify (by intro; rfl) d
          · exact .of_device rfl rfl fun _ h => (htried h).modify (by intro; rfl) d

theorem denyDevice_parked {userCode : String} :
    ParkedStep policy s e task (s.denyDevice now userCode).2 := by
  unfold GatewayState.denyDevice
  split
  · exact .of_eq rfl rfl rfl rfl
  · split
    · exact .of_eq rfl rfl rfl rfl
    · exact .of_device rfl rfl fun _ h => h.modify (by intro; rfl) _

theorem parkDevice_parked {state : String} {claims : GoogleIdClaims} :
    ParkedStep policy s .parkDevice (.parkingDevice state claims) (s.parkDevice state claims) := by
  refine .of_device rfl rfl fun hparks h k c hc => ?_
  simp only [GatewayState.parkDevice, OrdMap.get?_insert] at hc ⊢
  split at hc
  · rename_i hk
    exact hk ▸ hparks
  · exact h k c hc

theorem takeDeviceClaims_parked {state : String} :
    ParkedStep policy s e task (s.takeDeviceClaims state).2 := by
  unfold takeDeviceClaims
  split
  · exact .of_eq rfl rfl rfl rfl
  · exact .of_device rfl rfl fun _ h k c hc => h k c (Shrinks.erase _ _ k c hc)

theorem pollDevice_parked {pollTime : Nat} {family : String} {secrets : TokenSecrets} {d : String} :
    ParkedStep policy s (.pollDevice now pollTime family secrets) (.polling d)
      (s.pollDevice policy.roleForOwner now pollTime family secrets d).2 := by
  have hpolled : DeviceClaims s → DeviceClaims (s.modifyDevice d fun g =>
      GatewayState.polled g pollTime) := fun h => h.modify (by intro; rfl) d
  refine pollDevice_rule (motive := fun r => ParkedStep policy s
      (.pollDevice now pollTime family secrets) (.polling d) r.2) (fun _ => .of_eq rfl rfl rfl rfl)
    (fun _ _ _ => .of_device rfl rfl fun _ => hpolled) fun g owner roleCeiling hget hredeemable _ _ => ?_
  let u : GatewayState := { s.modifyDevice d fun g => GatewayState.polled g pollTime with
    devices := (s.modifyDevice d fun g => GatewayState.polled g pollTime).devices.erase d }
  have hpruned : ParkedStep policy u (.pollDevice now pollTime family secrets) (.polling d)
      (u.pruneExpired now) := .prune now rfl rfl rfl rfl rfl rfl rfl rfl
  refine ⟨fun h => hpruned.size h, fun _ h => prune_contained (s := u) now h,
    fun hparks h => DeviceClaims.of_eq (DeviceClaims.prune (s := u) ?_ now) rfl rfl⟩
  -- nothing is parked under the state of the record that is consumed
  intro k c hc
  obtain ⟨d', g', hg', hk⟩ := hpolled h k c hc
  refine ⟨d', g', ?_, hk⟩
  show ((s.modifyDevice d fun g => GatewayState.polled g pollTime).devices.erase d).get? d' = some g'
  rw [OrdMap.get?_erase, if_neg, hg']
  rintro rfl
  simp only [modifyDevice, OrdMap.get?_modify, if_pos, hget, Option.map_some,
    Option.some.injEq] at hg'
  subst hg'
  have hc : s.pendingDevice.get? k = some c := hc
  rw [hparks g hget hredeemable k hk] at hc
  cases hc

theorem refreshTake_parked {token : String} :
    ParkedStep policy s e task (s.refreshTake now token).2 := by
  unfold GatewayState.refreshTake
  split
  · exact .of_eq rfl rfl rfl rfl
  · dsimp only
    split
    · exact .of_eq rfl rfl rfl rfl
    · split <;> exact .of_eq rfl rfl rfl rfl

theorem revoke_parked {token : String} : ParkedStep policy s e task (s.revoke token) := by
  unfold GatewayState.revoke
  split <;> exact .of_eq rfl rfl rfl rfl

theorem revokeOwnGrant_parked {lookup : RoleLookup} {sessionId csrf token : String} :
    ParkedStep policy s e task (s.revokeOwnGrant now lookup sessionId csrf token).2 := by
  unfold GatewayState.revokeOwnGrant
  split <;> exact .of_eq rfl rfl rfl rfl

theorem createSession_parked {sessionId csrf : String} {owner : AdmissionIdentity} {admin : Bool} :
    ParkedStep policy s e task (s.createSession now sessionId owner csrf admin).2 := by
  unfold GatewayState.createSession
  split
  · exact .of_eq rfl rfl rfl rfl
  · exact .prune now rfl rfl rfl rfl rfl rfl rfl rfl

/-- **What a step of a request does to what is parked.** -/
theorem run_parked (hrun : e.run config policy s task = some (task', s'))
    (hfresh : ∀ now secrets clientId resource, e = .deviceAuthorize now secrets clientId resource →
      s.devices.get? secrets.deviceCode = none) : ParkedStep policy s e task s' := by
  unfold Event.run at hrun
  split at hrun
  any_goals cases hrun
  case h_3.refl => exact .prune _ rfl rfl rfl rfl rfl rfl rfl rfl
  case h_4.refl => exact beginBrowser_parked
  case h_8.refl => exact parkBrowser_parked
  case h_9.refl => exact endBrowser_parked
  case h_11 transaction csrfToken consent =>
    have hparked := @takeBrowserClaims_parked policy s .takeBrowser
      (.consenting transaction csrfToken consent) transaction csrfToken
    split at hrun <;> rename_i heq <;> cases hrun <;> rw [heq] at hparked <;> exact hparked
  case h_12 now transaction clientState claims =>
    have hparked := @takeTransaction_parked policy s now transaction clientState claims
    split at hrun <;> rename_i heq <;> rw [heq] at hparked
    · cases hrun
      exact hparked
    · split at hrun <;> cases hrun <;> exact hparked
  case h_13.refl => exact exchangeCode_parked
  case h_14 now secrets clientId resource =>
    split at hrun
    · cases hrun
    · cases hrun
      exact deviceAuthorize_parked (hfresh _ _ _ _ rfl)
  case h_15.refl => exact beginDevice_parked
  case h_19.refl => exact parkDevice_parked
  case h_22 userCode state consent =>
    have hparked := @takeDeviceClaims_parked policy s .takeDevice (.takingDevice userCode state consent)
      state
    split at hrun <;> rename_i heq <;> cases hrun <;> rw [heq] at hparked <;> exact hparked
  case h_25.refl => exact verifyDevice_parked
  case h_27.refl => exact denyDevice_parked
  case h_30.refl => exact pollDevice_parked
  case h_31 now refreshToken =>
    have hparked := @refreshTake_parked policy s (.refreshTake now refreshToken) .idle now refreshToken
    split at hrun <;> rename_i heq <;> cases hrun <;> rw [heq] at hparked <;> exact hparked
  case h_35.refl => exact revoke_parked
  case h_36.refl => exact revokeOwnGrant_parked
  case h_37.refl => exact createSession_parked
  -- the others leave what is parked as it is
  all_goals
    repeat' split at hrun
    all_goals try cases hrun
    all_goals exact .of_eq rfl rfl rfl rfl

/-! ## How many device records there are -/

/-- The records of a client, and those of them that await a decision. -/
def ofClient (clientId : String) (g : DeviceGrant) : Bool := g.clientId = clientId

def pendingOf (clientId : String) (now : Nat) (g : DeviceGrant) : Bool :=
  g.clientId = clientId && undecided g now

structure DeviceBounds (s : GatewayState) (now : Nat) : Prop where
  stored : ∀ c, s.countDevices (ofClient c) ≤ maxStoredDeviceGrants
  pending : ∀ c, s.countDevices (pendingOf c now) ≤ maxPendingDeviceGrants

/-- A grant that awaits a decision has awaited it before. -/
theorem undecided_mono {g g' : DeviceGrant} {later : Nat} (hlater : now ≤ later)
    (hexpires : g'.expires = g.expires) (hdenied : g.denied = true → g'.denied = true)
    (howner : g.owner.isSome = true → g'.owner.isSome = true) (h : undecided g' later = true) :
    undecided g now = true := by
  simp only [undecided, Bool.and_eq_true, decide_eq_true_eq, Bool.not_eq_true',
    Option.isNone_iff_eq_none] at h ⊢
  obtain ⟨⟨hlive, hopen⟩, hnone⟩ := h
  refine ⟨⟨by omega, ?_⟩, ?_⟩
  · by_contra hd
    rw [hdenied (by simpa using hd)] at hopen
    cases hopen
  · by_contra ho
    have := howner (Option.isSome_iff_ne_none.2 ho)
    rw [hnone] at this
    cases this

theorem DeviceBounds.shrink {later : Nat} (h : DeviceBounds s now)
    (hold : ∀ d g', s'.devices.get? d = some g' → ∃ g, s.devices.get? d = some g ∧
      g'.clientId = g.clientId ∧ (undecided g' later = true → undecided g now = true)) :
    DeviceBounds s' later where
  stored c := by
    refine (OrdMap.countP_le fun d g' hg' hp => ?_).trans (h.stored c)
    obtain ⟨g, hg, hclient, -⟩ := hold d g' hg'
    exact ⟨g, hg, by simpa [ofClient, ← hclient] using hp⟩
  pending c := by
    refine (OrdMap.countP_le fun d g' hg' hp => ?_).trans (h.pending c)
    obtain ⟨g, hg, hclient, hopen⟩ := hold d g' hg'
    simp only [pendingOf, Bool.and_eq_true] at hp
    exact ⟨g, hg, by simpa [pendingOf, ← hclient, hopen hp.2] using hp.1⟩

theorem DeviceBounds.shrinks {later : Nat} (h : DeviceBounds s now) (hlater : now ≤ later)
    (hshrinks : Shrinks s.devices s'.devices) : DeviceBounds s' later :=
  h.shrink fun d g' hg' =>
    ⟨g', hshrinks d g' hg', rfl, undecided_mono hlater rfl id id⟩

theorem DeviceUpdate.client {d : String} {g g' : DeviceGrant}
    (h : DeviceUpdate policy s e task d g g') : g'.clientId = g.clientId ∧ g'.expires = g.expires ∧
      (g.denied = true → g'.denied = true) ∧ (g.owner.isSome = true → g'.owner.isSome = true) := by
  cases h with
  | approved => exact ⟨rfl, rfl, id, fun _ => rfl⟩
  | refused => exact ⟨rfl, rfl, fun _ => rfl, id⟩
  | denied => exact ⟨rfl, rfl, fun _ => rfl, id⟩
  | _ => exact ⟨rfl, rfl, id, id⟩

theorem evictDevices_count {clientId : String} {fuel : Nat} {u : GatewayState}
    (h : s.countDevices (ofClient clientId) < maxStoredDeviceGrants + fuel)
    (hu : evictDevices clientId now fuel s = (.ok (), u)) :
    u.countDevices (ofClient clientId) < maxStoredDeviceGrants := by
  induction fuel generalizing s with
  | zero =>
    cases hu
    exact h
  | succ fuel ih =>
    unfold evictDevices at hu
    split at hu
    · rename_i hfull
      split at hu
      · cases hu
      · rename_i victim hvictim
        obtain ⟨g, hg, hclient, -⟩ := deviceVictim?_some hvictim
        refine ih ?_ hu
        have hless : (s.removeDeviceGrant victim).countDevices (ofClient clientId) <
            s.countDevices (ofClient clientId) := by
          refine OrdMap.countP_lt (fun j x hx hp => ⟨x, ?_, hp⟩) hg (by simp [ofClient, hclient])
            (by rw [get?_remove, if_pos rfl])
          rw [get?_remove] at hx
          split at hx
          · cases hx
          · exact hx
        omega
    · rename_i hroom
      cases hu
      exact not_le.1 hroom

theorem deviceAuthorize_bounds {secrets : DeviceSecrets} {clientId resource : String} {later : Nat}
    (h : DeviceBounds s now) (hlater : now ≤ later) :
    DeviceBounds (s.deviceAuthorize config later secrets clientId resource).2 later := by
  have hpruned : DeviceBounds (s.pruneExpired later) later :=
    h.shrinks hlater (prune_devices_shrinks s later)
  unfold deviceAuthorize
  split
  · exact h.shrinks hlater (.refl _)
  · dsimp only
    split
    · exact hpruned
    · rename_i hpending
      have hshrinks := (@evictDevices_devices (s.pruneExpired later) clientId later
        (s.pruneExpired later).devices.size).1
      have hcount := fun u => @evictDevices_count (s.pruneExpired later) later clientId
        (s.pruneExpired later).devices.size u ?_
      · split
        · rename_i err u hu
          rw [hu] at hshrinks
          exact hpruned.shrinks le_rfl hshrinks
        · rename_i u hu
          rw [hu] at hshrinks
          have hkept : DeviceBounds u later := hpruned.shrinks le_rfl hshrinks
          have hopen : u.countDevices (pendingOf clientId later) < maxPendingDeviceGrants := by
            refine lt_of_le_of_lt (OrdMap.countP_le fun d g hg hp => ⟨g, hshrinks d g hg, hp⟩) ?_
            exact not_le.1 hpending
          refine ⟨fun c => ?_, fun c => ?_⟩
          · by_cases hc : c = clientId
            · subst hc
              exact (OrdMap.countP_insert_le _ _ _ _).trans (hcount u hu)
            · exact (OrdMap.countP_insert_of_not _ _ (by simp [ofClient, Ne.symm hc])).trans
                (hkept.stored c)
          · by_cases hc : c = clientId
            · subst hc
              exact (OrdMap.countP_insert_le _ _ _ _).trans hopen
            · exact (OrdMap.countP_insert_of_not _ _ (by simp [pendingOf, Ne.symm hc])).trans
                (hkept.pending c)
      · refine lt_of_le_of_lt (OrdMap.countP_le_size _ _) ?_
        have : 0 < maxStoredDeviceGrants := by decide
        omega

/-- **A step keeps the bounds on device records.** -/
theorem DeviceBounds.run {later : Nat} (h : DeviceBounds s now) (hlater : now ≤ later)
    (hnow : ∀ t, e.now? = some t → t = later) (hrun : e.run config policy s task = some (task', s')) :
    DeviceBounds s' later := by
  by_cases hnew : ∃ t secrets clientId resource, e = .deviceAuthorize t secrets clientId resource
  · obtain ⟨t, secrets, clientId, resource, rfl⟩ := hnew
    obtain rfl := hnow t rfl
    cases task <;> simp only [Event.run, reduceCtorEq] at hrun
    split at hrun
    · cases hrun
    · cases hrun
      exact deviceAuthorize_bounds h hlater
  · refine h.shrink fun d g' hg' => ?_
    rcases (run_devices hrun).update d g' hg' with
      ⟨g, hg, hupdate⟩ | ⟨-, t, secrets, clientId, resource, n, he, -⟩
    · obtain ⟨hclient, hexpires, hdenied, howner⟩ := hupdate.client
      exact ⟨g, hg, hclient, undecided_mono hlater hexpires hdenied howner⟩
    · exact absurd ⟨t, secrets, clientId, resource, he⟩ hnew

end

/-! ## Runs -/

def World.ParksStored (w : World) : Label → Prop
  | .step p e => Hub.ParksStored w.policy w.gateway e (w.task p)
  | _ => True

section
variable {config : GatewayConfig} {w w' : World} {p : Nat} {e : Event} {t : Task}

theorem World.Steps.clock_le (hs : w.Steps config p e t w') :
    w.clock ≤ w'.clock ∧ ∀ now, e.now? = some now → now = w'.clock := by
  rw [hs.clock]
  cases hnow : e.now? with
  | none => exact ⟨le_rfl, nofun⟩
  | some now =>
    refine ⟨hs.fair.clock now hnow, fun t ht => ?_⟩
    cases ht
    rfl

theorem World.Steps.freeCode (h : DeviceSound w) (hs : w.Steps config p e t w') :
    ∀ now secrets clientId resource, e = .deviceAuthorize now secrets clientId resource →
      w.gateway.devices.get? secrets.deviceCode = none := by
  rintro now secrets clientId resource rfl
  cases hget : w.gateway.devices.get? secrets.deviceCode with
  | none => rfl
  | some g => exact absurd (h.code _ g hget) (hs.fair.fresh.1 _ (by simp [Event.secrets]))

theorem bounded_after {l : Label} (h : DeviceSound w)
    (hb : w.gateway.browser.size ≤ maxBrowserTransactions ∧ DeviceBounds w.gateway w.clock)
    (hstep : (machine config).Step w l w') :
    w'.gateway.browser.size ≤ maxBrowserTransactions ∧ DeviceBounds w'.gateway w'.clock := by
  rcases step_cases hstep with ⟨p, e, t, rfl, hs⟩ | ⟨policy, rfl, rfl⟩ | ⟨p, rfl, rfl⟩
  · obtain ⟨hclock, hnow⟩ := hs.clock_le
    exact ⟨(run_parked hs.run (hs.freeCode h)).size hb.1, hb.2.run hclock hnow hs.run⟩
  · exact hb
  · exact hb

theorem bounded_reachable (h : (machine config).Reachable w) :
    w.gateway.browser.size ≤ maxBrowserTransactions ∧ DeviceBounds w.gateway w.clock := by
  refine h.invariant ?_ fun a l b ha hb hstep => bounded_after (deviceSound_reachable ha) hb hstep
  rintro a ⟨hgateway, -, -, -⟩
  rw [hgateway]
  exact ⟨Nat.zero_le _, fun _ => Nat.zero_le _, fun _ => Nat.zero_le _⟩

theorem Contained.after {l : Label} (hsound : DeviceSound w) (h : Contained w.gateway)
    (hstep : ((machine config).restrict World.ParksStored).Step w l w') : Contained w'.gateway := by
  obtain ⟨hstep, hparks⟩ := hstep
  rcases step_cases hstep with ⟨p, e, t, rfl, hs⟩ | ⟨policy, rfl, rfl⟩ | ⟨p, rfl, rfl⟩
  · have hparked := run_parked hs.run (hs.freeCode hsound)
    exact ⟨hparked.browser hparks h.browser, hparked.device hparks h.device⟩
  · exact h
  · exact h

theorem contained_reachable (h : ((machine config).restrict World.ParksStored).Reachable w) :
    Contained w.gateway := by
  refine Machine.Reachable.invariant (I := fun w => Contained w.gateway) ?_ (fun a l b ha hb hstep =>
    Contained.after (deviceSound_reachable ha.of_restrict) hb hstep) h
  rintro a ⟨hgateway, -, -, -⟩
  rw [hgateway]
  exact ⟨nofun, nofun⟩

/-- **What the gateway keeps.** In every run the browser transactions, the device records of a client
and its grants that await a decision are bounded, no two records share a user code, and a record that
is neither denied nor expired goes only by being redeemed. In every run in which claims are parked for
what is still stored, and what is consumed has none, the parked claims are those of stored
transactions and of the verifications of stored records. -/
theorem memory_bounded (config : GatewayConfig) :
    (∀ w, (machine config).Reachable w → w.gateway.browser.size ≤ maxBrowserTransactions ∧
      DeviceBounds w.gateway w.clock ∧
      ∀ d g d' g', w.gateway.devices.get? d = some g → w.gateway.devices.get? d' = some g' →
        g.userCode = g'.userCode → d = d') ∧
    (∀ w l w' d g, (machine config).Reachable w → (machine config).Step w l w' →
      w.gateway.devices.get? d = some g → g.denied = false → w'.clock ≤ g.expires →
        w'.gateway.devices.get? d = none → ∃ p now pollTime family secrets,
          l = .step p (.pollDevice now pollTime family secrets) ∧ w.task p = .polling d ∧
            Redeemable w.policy g now pollTime) ∧
    ∀ w, ((machine config).restrict World.ParksStored).Reachable w → Contained w.gateway := by
  refine ⟨fun w hw => ?_, fun w l w' d g hw hstep hg hopen hlive hnone => ?_,
    fun w => contained_reachable⟩
  · obtain ⟨hsize, hbounds⟩ := bounded_reachable hw
    exact ⟨hsize, hbounds, (deviceSound_reachable hw).oneCode⟩
  · rcases step_cases hstep with ⟨p, e, t, rfl, hs⟩ | ⟨policy, rfl, rfl⟩ | ⟨p, rfl, rfl⟩
    · cases (run_devices hs.run).removed d g hg hnone with
      | ended hnow hover =>
        have := hs.clock_le.2 _ hnow
        rcases hover with hover | hdenied
        · omega
        · rw [hopen] at hdenied
          cases hdenied
      | redeemed he htask hredeemable => exact ⟨p, _, _, _, _, by rw [he], htask, hredeemable⟩
    · rw [hg] at hnone
      cases hnone
    · rw [hg] at hnone
      cases hnone

end

/-! ### Claims for a transaction that is over -/

/-- Request `1` is at the upstream for a transaction; request `2` denies it. -/
def parkedLate : List Label :=
  [.step 0 (.beginBrowser 0 ⟨"transaction", "csrf", "browser"⟩ "native"
      "http://localhost:8080/callback" "challenge" "https://hub.example/mcp" "state" "nonce"),
    .step 1 (.browserCallback "transaction" (some "browser") false true), .step 1 .readNonce,
    .step 1 (.browserUpstream (.ok ⟨"https://id.example", "hub", "ann", "ann@gmail.com", true, 600,
      "nonce"⟩)),
    .step 2 (.browserCallback "transaction" (some "browser") true false), .step 2 .endBrowser,
    .step 1 .parkBrowser]

/-- Claims are parked for a transaction that was ended. -/
theorem parked_orphan : ∃ w, (machine demoConfig).Reachable w ∧
    ¬ KeysIn w.gateway.pendingBrowser w.gateway.browser := by
  have hplay : ((play demoConfig demoWorld parkedLate).any fun w =>
      (w.gateway.pendingBrowser.get? "transaction").isSome &&
        (w.gateway.browser.get? "transaction").isNone) = true := by
    decide +kernel
  obtain ⟨w, hw, htest⟩ := (Option.any_eq_true _ _).1 hplay
  obtain ⟨hparked, hgone⟩ := Bool.and_eq_true_iff.1 htest
  refine ⟨w, reachable_play hw, fun hkeys => ?_⟩
  obtain ⟨c, hc⟩ := Option.isSome_iff_exists.1 hparked
  obtain ⟨t, ht⟩ := hkeys _ c hc
  rw [Option.isNone_iff_eq_none.1 hgone] at ht
  cases ht

end AgentPalace.Hub
