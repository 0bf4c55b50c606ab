import AgentPalace.Hub.System

/-!
# What the operations leave alone

Pruning only removes records. The lemmas say, field by field, what is left of
the gateway state behind it, and are the simp set of the step lemmas.
-/

namespace AgentPalace

/-- Every entry of the second map is one of the first. -/
def OrdMap.Shrinks {β : Type} (m m' : OrdMap String β) : Prop :=
  ∀ k x, m'.get? k = some x → m.get? k = some x

namespace OrdMap.Shrinks

variable {β : Type} {m m' m'' : OrdMap String β}

theorem refl (m : OrdMap String β) : m.Shrinks m := fun _ _ h => h

theorem trans (h : m.Shrinks m') (h' : m'.Shrinks m'') : m.Shrinks m'' :=
  fun k x hx => h k x (h' k x hx)

theorem filter (m : OrdMap String β) (p : String → β → Bool) : m.Shrinks (m.filter p) := by
  intro k x hx
  rw [OrdMap.get?_filter, Option.filter_eq_some_iff] at hx
  exact hx.1

theorem erase (m : OrdMap String β) (k : String) : m.Shrinks (m.erase k) := .filter m _

theorem of_eq (h : m' = m) : m.Shrinks m' := h ▸ .refl m

end OrdMap.Shrinks

namespace Hub

open OrdMap (Shrinks)

structure Redeemable (policy : Policy) (g : DeviceGrant) (now pollTime : Nat) : Prop where
  live : now ≤ g.expires
  allowed : g.denied = false
  due : g.nextPoll.any (pollTime < ·) = false
  role : ∃ owner roleCeiling role, g.owner = some owner ∧ g.roleCeiling = some roleCeiling ∧
    effectiveRole policy.roleForOwner owner roleCeiling = .ok role

namespace GatewayState

variable (s : GatewayState) (now : Nat)

/-! ## Removing device records -/

/-- All but the device records and the claims parked for them is as before. -/
structure SameButDevices (s t : GatewayState) : Prop where
  codes : t.codes = s.codes
  browser : t.browser = s.browser
  pendingBrowser : t.pendingBrowser = s.pendingBrowser
  refresh : t.refresh = s.refresh
  access : t.access = s.access
  sessions : t.sessions = s.sessions
  deviceSeq : t.deviceSeq = s.deviceSeq

theorem SameButDevices.refl : SameButDevices s s := ⟨rfl, rfl, rfl, rfl, rfl, rfl, rfl⟩

theorem SameButDevices.trans {s t u : GatewayState} (h : SameButDevices s t)
    (h' : SameButDevices t u) : SameButDevices s u :=
  ⟨h'.codes.trans h.codes, h'.browser.trans h.browser, h'.pendingBrowser.trans h.pendingBrowser,
    h'.refresh.trans h.refresh, h'.access.trans h.access, h'.sessions.trans h.sessions,
    h'.deviceSeq.trans h.deviceSeq⟩

theorem sameButDevices_remove (deviceCode : String) :
    SameButDevices s (s.removeDeviceGrant deviceCode) := by
  unfold removeDeviceGrant
  split
  · exact .refl s
  · exact ⟨rfl, rfl, rfl, rfl, rfl, rfl, rfl⟩

theorem sameButDevices_removeAll (codes : List String) :
    SameButDevices s (codes.foldl removeDeviceGrant s) := by
  induction codes generalizing s with
  | nil => exact .refl s
  | cons code codes ih => exact (sameButDevices_remove s code).trans (ih _)

theorem get?_remove (deviceCode k : String) :
    (s.removeDeviceGrant deviceCode).devices.get? k =
      if k = deviceCode then none else s.devices.get? k := by
  unfold removeDeviceGrant
  split
  · rename_i hnone
    split
    · rename_i hk
      rw [hk, hnone]
    · rfl
  · exact OrdMap.get?_erase _ _ _

theorem get?_removeAll (codes : List String) (k : String) :
    (codes.foldl removeDeviceGrant s).devices.get? k =
      if k ∈ codes then none else s.devices.get? k := by
  induction codes generalizing s with
  | nil => simp
  | cons code codes ih =>
    rw [List.foldl_cons, ih, get?_remove]
    by_cases hk : k ∈ codes <;> by_cases hc : k = code <;> simp [hk, hc]

/-! ## Pruning -/

def staleBrowser : OrdMap String BrowserTransaction :=
  s.browser.filter fun _ t => decide (t.expires < now)

def staleDevices : OrdMap String DeviceGrant :=
  s.devices.filter fun _ g => decide (g.expires + deviceRecordGraceSeconds < now)

/-- Pruning, before it comes to the device records. -/
def pruneRecords : GatewayState :=
  { s with
    browser := s.browser.filter fun k _ => !(s.staleBrowser now).contains k
    pendingBrowser := s.pendingBrowser.filter fun k _ => !(s.staleBrowser now).contains k
    codes := s.codes.filter fun _ g => decide (now ≤ g.expires)
    access := s.access.filter fun _ g => decide (now ≤ g.expires)
    refresh := s.refresh.filter fun _ g => decide (now ≤ g.expires)
    sessions := s.sessions.filter fun _ session =>
      decide (now - session.authenticatedAt ≤ sessionLifetimeSeconds) }

theorem pruneExpired_eq :
    s.pruneExpired now = (s.staleDevices now).keys.foldl removeDeviceGrant (s.pruneRecords now) := rfl

theorem sameButDevices_prune : SameButDevices (s.pruneRecords now) (s.pruneExpired now) :=
  sameButDevices_removeAll _ _

@[simp] theorem prune_refresh :
    (s.pruneExpired now).refresh = s.refresh.filter fun _ g => decide (now ≤ g.expires) :=
  (s.sameButDevices_prune now).refresh

@[simp] theorem prune_access :
    (s.pruneExpired now).access = s.access.filter fun _ g => decide (now ≤ g.expires) :=
  (s.sameButDevices_prune now).access

@[simp] theorem prune_codes :
    (s.pruneExpired now).codes = s.codes.filter fun _ g => decide (now ≤ g.expires) :=
  (s.sameButDevices_prune now).codes

@[simp] theorem prune_browser : (s.pruneExpired now).browser =
    s.browser.filter fun k _ => !(s.staleBrowser now).contains k :=
  (s.sameButDevices_prune now).browser

@[simp] theorem prune_pendingBrowser : (s.pruneExpired now).pendingBrowser =
    s.pendingBrowser.filter fun k _ => !(s.staleBrowser now).contains k :=
  (s.sameButDevices_prune now).pendingBrowser

theorem get?_prune_devices (k : String) : (s.pruneExpired now).devices.get? k =
    (s.devices.get? k).filter fun g => decide (now ≤ g.expires + deviceRecordGraceSeconds) := by
  have hstale : k ∈ (s.staleDevices now).keys ↔
      ((s.devices.get? k).filter fun g =>
        decide (g.expires + deviceRecordGraceSeconds < now)).isSome = true := by
    rw [OrdMap.mem_keys, OrdMap.contains, staleDevices, OrdMap.get?_filter]
  rw [pruneExpired_eq, get?_removeAll]
  simp only [hstale]
  show (if _ then none else s.devices.get? k) = _
  cases s.devices.get? k with
  | none => simp
  | some g =>
    by_cases hg : now ≤ g.expires + deviceRecordGraceSeconds
    · simp [Option.filter_some, hg]
    · simp [Option.filter_some, hg, not_le.1 hg]

theorem prune_devices_shrinks : Shrinks s.devices (s.pruneExpired now).devices := by
  intro k x hx
  rw [get?_prune_devices, Option.filter_eq_some_iff] at hx
  exact hx.1

/-! ## Evicting -/

/-- A fold that keeps its choice or takes the next element chooses one of them. -/
theorem foldl_pick {ε : Type} {step : Option ε → ε → Option ε}
    (hstep : ∀ o x, step o x = some x ∨ step o x = o ∧ o ≠ none) {es : List ε} {acc : Option ε} :
    (∀ x, es.foldl step acc = some x → acc = some x ∨ x ∈ es) ∧
      (es.foldl step acc = none → acc = none ∧ es = []) := by
  induction es generalizing acc with
  | nil => exact ⟨fun x h => .inl h, fun h => ⟨h, rfl⟩⟩
  | cons y es ih =>
    obtain ⟨hsome, hnone⟩ := @ih (step acc y)
    refine ⟨fun x h => ?_, fun h => ?_⟩
    · rcases hsome x h with h | h
      · rcases hstep acc y with heq | ⟨heq, -⟩
        · rw [heq] at h
          cases h
          exact .inr List.mem_cons_self
        · exact .inl (heq ▸ h)
      · exact .inr (List.mem_cons_of_mem _ h)
    · have hacc := (hnone h).1
      rcases hstep acc y with heq | ⟨heq, hne⟩
      · rw [heq] at hacc
        cases hacc
      · exact absurd (heq ▸ hacc) hne

theorem evictTransactions_same (fuel : Nat) :
    (evictTransactions fuel s).codes = s.codes ∧ (evictTransactions fuel s).devices = s.devices ∧
      (evictTransactions fuel s).pendingDevice = s.pendingDevice ∧
      (evictTransactions fuel s).refresh = s.refresh ∧
      (evictTransactions fuel s).access = s.access ∧
      (evictTransactions fuel s).deviceSeq = s.deviceSeq := by
  induction fuel generalizing s with
  | zero => exact ⟨rfl, rfl, rfl, rfl, rfl, rfl⟩
  | succ fuel ih =>
    unfold evictTransactions
    split
    · split
      · exact ⟨rfl, rfl, rfl, rfl, rfl, rfl⟩
      · exact ih _
    · exact ⟨rfl, rfl, rfl, rfl, rfl, rfl⟩

theorem evictDevices_same (clientId : String) (fuel : Nat) :
    SameButDevices s (evictDevices clientId now fuel s).2 := by
  induction fuel generalizing s with
  | zero => exact .refl s
  | succ fuel ih =>
    unfold evictDevices
    split
    · split
      · exact .refl s
      · exact (sameButDevices_remove s _).trans (ih _)
    · exact .refl s

/-! ## Redeeming -/

section
variable {s : GatewayState} {config : GatewayConfig} {now pollTime : Nat} {family : String}
  {secrets : TokenSecrets} {motive : Except ProtocolError TokenResponse × GatewayState → Prop}

theorem exchangeCode_rule {lookup : RoleLookup}
    {code clientId redirectUri verifier resource : String} (hrefused : ∀ e, motive (.error e, s))
    (hmarked : ∀ e, motive (.error e, { s with
      codes := s.codes.modify code fun g => { g with used := true } }))
    (hissued : ∀ g, s.codes.get? code = some g →
      g.Redeems config.pkce now clientId redirectUri verifier resource →
      motive (Prod.map .ok id ({ s with
        codes := s.codes.modify code fun g => { g with used := true } }.issue now family secrets
          g.owner g.roleCeiling resource))) :
    motive (s.exchangeCode config lookup now family secrets code clientId redirectUri verifier
      resource) := by
  unfold exchangeCode
  split
  · exact hrefused _
  · rename_i g hget
    split
    · exact hrefused _
    · rename_i hredeems
      dsimp only
      split
      · exact hmarked _
      · exact hissued g hget (not_not.1 hredeems)

theorem pollDevice_rule {policy : Policy} {d : String} (hrefused : ∀ e, motive (.error e, s))
    (hpolled : ∀ g e, s.devices.get? d = some g →
      motive (.error e, s.modifyDevice d fun g => polled g pollTime))
    (hissued : ∀ g owner roleCeiling, s.devices.get? d = some g → Redeemable policy g now pollTime →
      g.owner = some owner → g.roleCeiling = some roleCeiling →
      motive (Prod.map .ok id ({ s.modifyDevice d fun g => polled g pollTime with
        devices := (s.modifyDevice d fun g => polled g pollTime).devices.erase d }.issue now family
          secrets owner roleCeiling g.resource))) :
    motive (s.pollDevice policy.roleForOwner now pollTime family secrets d) := by
  unfold pollDevice
  split
  · exact hrefused _
  · rename_i g hget
    split
    · exact hrefused _
    · rename_i hlive
      split
      · exact hrefused _
      · rename_i hdenied
        dsimp only
        split
        · exact hpolled g _ hget
        · rename_i hdue
          split
          · exact hpolled g _ hget
          · exact hpolled g _ hget
          · rename_i owner roleCeiling howner hceiling
            split
            · exact hpolled g _ hget
            · rename_i role hrole
              exact hissued g owner roleCeiling hget ⟨not_lt.1 hlive, by simpa using hdenied,
                by simpa using hdue, owner, roleCeiling, role, howner, hceiling, hrole⟩ howner hceiling

end

end GatewayState

end Hub

end AgentPalace
