import AgentPalace.Core.TimeText
import AgentPalace.Lib.Machine

/-!
# Maintenance runs and their lease

A maintenance run claims the lease of the palace for five minutes, works through
three tiers and releases the lease. While a tier is in progress the lease is
renewed by a timer that starts with the tier. A refused or failed renewal ends the
run. Between the tiers the lease is neither renewed nor looked at.

`machine` interleaves any number of runs on one clock. A tick is handled within a
minute. Two runs are never in a tier together as long as no tier starts or goes on
more than five minutes after the last claim or renewal of its run (`Timely`).
-/

namespace AgentPalace.Maintenance

open OffsetDateTime FixedWidth

/-! ## Times in the lease -/

/-- `encode_lease_time`: nine decimals, so that texts compare as times do. -/
def encodeLeaseTime (t : OffsetDateTime) : String :=
  let seconds := t.localNanos / 1000000000
  let (year, month, day) := civilFromDays (seconds / 86400)
  let s := seconds % 86400
  padded 4 year ++ "-" ++ padded 2 month ++ "-" ++ padded 2 day ++ "T" ++ padded 2 (s / 3600) ++
    ":" ++ padded 2 (s / 60 % 60) ++ ":" ++ padded 2 (s % 60) ++ "." ++
    padded 9 (t.localNanos % 1000000000) ++ "Z"

theorem toList_encodeLeaseTime {t : OffsetDateTime} (h : t.Formattable) :
    (encodeLeaseTime t).toList = t.stamp ('.' :: (digits 9 t.subsec ++ ['Z'])) := by
  have hrest : ("." ++ padded 9 (t.localNanos % 1000000000) ++ "Z").toList =
      '.' :: (digits 9 t.subsec ++ ['Z']) := by
    have habs : (t.localNanos % 1000000000).natAbs = t.subsec := by
      simp only [subsec]
      omega
    rw [String.toList_append, String.toList_append, toList_padded (by omega), habs]
    rfl
  rw [← hrest, ← toList_stamp h, ← String.append_assoc, ← String.append_assoc]
  rfl

theorem encodeLeaseTime_lt {a b : OffsetDateTime} (ha : a.Formattable) (hb : b.Formattable) :
    encodeLeaseTime a < encodeLeaseTime b ↔ a.localNanos < b.localNanos := by
  have hsa := a.subsec_lt
  have hsb := b.subsec_lt
  have hna := a.localNanos_eq
  have hnb := b.localNanos_eq
  rw [String.lt_iff, toList_encodeLeaseTime ha, toList_encodeLeaseTime hb, stamp_lt ha hb,
    cons_lt_same, field_lt hsa hsb]
  by_cases hrest : (['Z'] : List Char) < ['Z']
  · exact absurd hrest (List.lt_irrefl _)
  · simp only [hrest, and_false, or_false]
    omega

/-- `Duration::minutes(1)`. -/
def minute : Int := 60 * 1000000000

/-- How long a claim and a renewal last: `Duration::minutes(5)`. -/
def ttl : Duration := 5 * minute

/-- What the system clock shows: a time since 1970, early enough for the lease to end in a
year of four digits, behind which `now + ttl` has no value. -/
def OnClock (n : Int) : Prop := 0 ≤ n ∧ n + ttl < year10000

instance (n : Int) : Decidable (OnClock n) := inferInstanceAs (Decidable (_ ∧ _))

def leaseText (n : Int) : String := encodeLeaseTime ⟨n, 0⟩

theorem leaseText_lt {m n : Int} (hm : OnClock m) (hn : OnClock n) :
    leaseText (m + ttl) < leaseText n ↔ m + ttl < n := by
  simp only [OnClock, ttl, minute, year10000] at hm hn
  have hformat : ∀ k : Int, 0 ≤ k ∧ k < year10000 → Formattable ⟨k, 0⟩ := by
    intro k hk
    refine ⟨?_, Nat.zero_lt_succ _, Int.zero_emod 60⟩
    simp only [localNanos, year0, year10000] at hk ⊢
    omega
  rw [leaseText, leaseText, encodeLeaseTime_lt (hformat _ ?_) (hformat _ ?_)]
  · simp only [localNanos]
    omega
  · simp only [ttl, minute, year10000]
    omega
  · simp only [year10000]
    omega

/-! ## The lease -/

/-- The row of `maintenance_leases`. -/
structure Lease where
  holder : String := ""
  expiresAt : String := "1970-01-01T00:00:00Z"
  updatedAt : String := "1970-01-01T00:00:00Z"
  deriving DecidableEq

namespace Lease

/-- `try_claim_lease`. -/
def tryClaimLease (holder : String) (now : Int) (row : Lease) : Bool × Lease :=
  if row.expiresAt < leaseText now ∨ row.holder = holder then
    (true, ⟨holder, leaseText (now + ttl), leaseText now⟩)
  else (false, row)

/-- `renew_lease`. -/
def renewLease (holder : String) (now : Int) (row : Lease) : Bool × Lease :=
  if row.holder = holder ∧ leaseText now < row.expiresAt then
    (true, { row with expiresAt := leaseText (now + ttl), updatedAt := leaseText now })
  else (false, row)

/-- `release_lease`. -/
def releaseLease (holder : String) (row : Lease) : Bool × Lease :=
  if row.holder = holder then (true, ⟨"", leaseText 0, leaseText 0⟩) else (false, row)

end Lease

/-! ## Runs -/

inductive MaintenanceTier where
  | vectorIndexOptimization
  | fragmentCompaction
  | versionRetention
  deriving DecidableEq

def MaintenanceTier.next : MaintenanceTier → Option MaintenanceTier
  | .vectorIndexOptimization => some .fragmentCompaction
  | .fragmentCompaction => some .versionRetention
  | .versionRetention => none

/-- Where a run is. `granted` is the reading of its last claim or renewal, which the run itself
does not keep; `due` is when the next tick falls due. -/
inductive Phase where
  | idle
  | claiming (now : Int)
  | before (tier : MaintenanceTier) (granted : Int)
  | inTier (tier : MaintenanceTier) (due granted : Int)
  | renewing (tier : MaintenanceTier) (due granted now : Int)
  | releasing
  | done
  | killed
  deriving DecidableEq

/-- The run is executing a tier, and when it last got the lease and when its tick falls due. -/
def Phase.Executes (granted due : Int) : Phase → Prop
  | .inTier _ d g => g = granted ∧ d = due
  | .renewing _ d g _ => g = granted ∧ d = due
  | _ => False

/-- The runs of a palace, named by the random parts of their holder ids. -/
structure World where
  clock : Int
  lease : Lease
  runs : String → Phase

namespace World

def set (w : World) (r : String) (p : Phase) : World :=
  { w with runs := Function.update w.runs r p }

@[simp] theorem set_lease (w : World) (r : String) (p : Phase) : (w.set r p).lease = w.lease := rfl

@[simp] theorem set_self (w : World) (r : String) (p : Phase) : (w.set r p).runs r = p :=
  Function.update_self ..

theorem set_of_ne {w : World} {r r' : String} {p : Phase} (h : r' ≠ r) :
    (w.set r p).runs r' = w.runs r' := Function.update_of_ne h ..

@[simp] theorem set_set (w : World) (r : String) (p q : Phase) :
    (w.set r p).set r q = w.set r q := by
  simp [set, Function.update_idem]

def InTier (w : World) (r : String) : Prop := ∃ granted due, (w.runs r).Executes granted due

end World

/-- `next_maintenance_holder_id`. -/
def holderId (r : String) : String := "maintenance-" ++ r

theorem holderId_inj {r r' : String} (h : holderId r = holderId r') : r = r' := by
  have hlist := congrArg String.toList h
  rw [holderId, holderId, String.toList_append, String.toList_append] at hlist
  exact String.toList_inj.1 (List.append_cancel_left hlist)

theorem holderId_ne_empty (r : String) : holderId r ≠ "" := by
  intro h
  have hlist := congrArg String.toList h
  rw [holderId, String.toList_append] at hlist
  cases hlist

/-! ## Interleavings -/

inductive Act where
  | advance (now : Int)
  | readClock (r : String)
  | claim (r : String)
  | claimFails (r : String)
  | activity (r : String)
  | startTier (r : String)
  | endTier (r : String)
  | tick (r : String)
  | renew (r : String)
  | renewFails (r : String)
  | release (r : String)
  | releaseFails (r : String)
  | kill (r : String)
  deriving DecidableEq

inductive Step : World → Act → World → Prop where
  /-- Every tick that is due is handled within a minute. -/
  | advance {w : World} {now : Int} : w.clock ≤ now → OnClock now →
      (∀ r granted due, (w.runs r).Executes granted due → now ≤ due + minute) →
      Step w (.advance now) { w with clock := now }
  | readClock {w : World} {r : String} : w.runs r = .idle →
      Step w (.readClock r) (w.set r (.claiming w.clock))
  | claim {w : World} {r : String} {now : Int} : w.runs r = .claiming now →
      Step w (.claim r)
        (if (w.lease.tryClaimLease (holderId r) now).1 then
          { w with lease := (w.lease.tryClaimLease (holderId r) now).2 }.set r
            (.before .vectorIndexOptimization now)
        else w.set r .done)
  /-- The database is busy, or the statement fails. -/
  | claimFails {w : World} {r : String} {now : Int} : w.runs r = .claiming now →
      Step w (.claimFails r) (w.set r .done)
  | activity {w : World} {r : String} {tier : MaintenanceTier} {granted : Int} :
      w.runs r = .before tier granted → Step w (.activity r) (w.set r .releasing)
  | startTier {w : World} {r : String} {tier : MaintenanceTier} {granted : Int} :
      w.runs r = .before tier granted →
      Step w (.startTier r) (w.set r (.inTier tier (w.clock + minute) granted))
  | endTier {w : World} {r : String} {tier : MaintenanceTier} {due granted : Int} :
      w.runs r = .inTier tier due granted →
      Step w (.endTier r) (w.set r (match tier.next with
        | some next => .before next granted
        | none => .releasing))
  | tick {w : World} {r : String} {tier : MaintenanceTier} {due granted : Int} :
      w.runs r = .inTier tier due granted → due ≤ w.clock →
      Step w (.tick r) (w.set r (.renewing tier due granted w.clock))
  | renew {w : World} {r : String} {tier : MaintenanceTier} {due granted now : Int} :
      w.runs r = .renewing tier due granted now →
      Step w (.renew r)
        (if (w.lease.renewLease (holderId r) now).1 then
          { w with lease := (w.lease.renewLease (holderId r) now).2 }.set r
            (.inTier tier (due + minute) now)
        else w.set r .releasing)
  /-- The answer of the statement is lost, whatever it did. -/
  | renewFails {w : World} {r : String} {tier : MaintenanceTier} {due granted now : Int}
      {lease : Lease} : w.runs r = .renewing tier due granted now →
      lease = w.lease ∨ lease = (w.lease.renewLease (holderId r) now).2 →
      Step w (.renewFails r) ({ w with lease := lease }.set r .releasing)
  | release {w : World} {r : String} : w.runs r = .releasing →
      Step w (.release r)
        ({ w with lease := (w.lease.releaseLease (holderId r)).2 }.set r .done)
  | releaseFails {w : World} {r : String} : w.runs r = .releasing →
      Step w (.releaseFails r) (w.set r .done)
  | kill {w : World} {r : String} : Step w (.kill r) (w.set r .killed)

def machine : Machine World Act where
  Init w := OnClock w.clock ∧ w.lease = {} ∧ ∀ r, w.runs r = .idle
  Step := Step

/-- No tier starts or goes on more than five minutes after the last claim or renewal of its
run, and no release fails. -/
def Timely (w : World) : Act → Prop
  | .advance now => ∀ r granted due, (w.runs r).Executes granted due → now ≤ granted + ttl
  | .startTier r => ∀ tier granted, w.runs r = .before tier granted → w.clock ≤ granted + ttl
  | .releaseFails _ => False
  | _ => True

/-! ## What the lease says about the runs -/

/-- The run got the lease at `granted`: it is the holder still, or the five minutes are over. -/
def Granted (clock : Int) (lease : Lease) (r : String) (granted : Int) : Prop :=
  OnClock granted ∧ granted ≤ clock ∧
    (lease.holder = holderId r ∧ lease.expiresAt = leaseText (granted + ttl) ∨
      lease.holder ≠ holderId r ∧ granted + ttl < clock)

/-- What a phase of a run and the lease have to do with each other, in any run and, with
`timely`, in those whose steps are. -/
def Ok (timely : Prop) (clock : Int) (lease : Lease) (r : String) : Phase → Prop
  | .idle => lease.holder ≠ holderId r
  | .claiming now => lease.holder ≠ holderId r ∧ OnClock now ∧ now ≤ clock
  | .before _ granted => Granted clock lease r granted
  | .inTier _ _ granted =>
    Granted clock lease r granted ∧ (timely → clock ≤ granted + ttl)
  | .renewing _ _ granted now =>
    Granted clock lease r granted ∧ (timely → clock ≤ granted + ttl) ∧ OnClock now ∧
      granted ≤ now ∧ now ≤ clock
  | .releasing => True
  | .done => timely → lease.holder ≠ holderId r
  | .killed => True

def Inv (timely : Prop) (w : World) : Prop :=
  OnClock w.clock ∧ ∀ r, Ok timely w.clock w.lease r (w.runs r)

section

variable {timely : Prop} {clock now now' granted : Int} {lease lease' : Lease} {r r' : String}
  {p : Phase} {w w' : World} {l : Act}

/-- What is granted lasts until it runs out, or somebody takes the lease after that. -/
theorem Granted.taken (h : Granted clock lease r granted) (hnow : OnClock now)
    (hclock : now ≤ clock) (hholder : lease'.holder ≠ holderId r)
    (hexpired : lease.holder = holderId r → lease.expiresAt < leaseText now) :
    Granted clock lease' r granted := by
  refine ⟨h.1, h.2.1, .inr ⟨hholder, ?_⟩⟩
  rcases h.2.2 with ⟨hheld, htext⟩ | ⟨-, hover⟩
  · have hlt := hexpired hheld
    rw [htext, leaseText_lt h.1 hnow] at hlt
    omega
  · exact hover

theorem Ok.taken (h : Ok timely clock lease r p) (hnow : OnClock now) (hclock : now ≤ clock)
    (hholder : lease'.holder ≠ holderId r)
    (hexpired : lease.holder = holderId r → lease.expiresAt < leaseText now) :
    Ok timely clock lease' r p := by
  cases p with
  | idle => exact hholder
  | claiming n => exact ⟨hholder, h.2⟩
  | before tier g => exact Granted.taken h hnow hclock hholder hexpired
  | inTier tier due g => exact ⟨h.1.taken hnow hclock hholder hexpired, h.2⟩
  | renewing tier due g n => exact ⟨h.1.taken hnow hclock hholder hexpired, h.2⟩
  | releasing => trivial
  | done => exact fun _ => hholder
  | killed => trivial

theorem Granted.advance (h : Granted clock lease r granted) (hle : clock ≤ now) :
    Granted now lease r granted :=
  ⟨h.1, h.2.1.trans hle, h.2.2.imp id fun hover => ⟨hover.1, hover.2.trans_le hle⟩⟩

theorem Ok.advance (h : Ok timely clock lease r p) (hle : clock ≤ now)
    (htimely : timely → ∀ granted due, p.Executes granted due → now ≤ granted + ttl) :
    Ok timely now lease r p := by
  cases p with
  | idle => exact h
  | claiming n => exact ⟨h.1, h.2.1, h.2.2.trans hle⟩
  | before tier g => exact Granted.advance h hle
  | inTier tier due g => exact ⟨h.1.advance hle, fun ht => htimely ht g due ⟨rfl, rfl⟩⟩
  | renewing tier due g n =>
    exact ⟨h.1.advance hle, fun ht => htimely ht g due ⟨rfl, rfl⟩, h.2.2.1, h.2.2.2.1,
      h.2.2.2.2.trans hle⟩
  | releasing => trivial
  | done => exact h
  | killed => trivial

theorem Inv.set (h : Inv timely w) (hr : Ok timely w.clock w.lease r p) :
    Inv timely (w.set r p) := by
  refine ⟨h.1, fun s => ?_⟩
  by_cases hs : s = r
  · subst hs
    rw [World.set_self]
    exact hr
  · rw [World.set_of_ne hs]
    exact h.2 s

theorem Inv.setLease (h : Inv timely w) (hnow : OnClock now) (hclock : now ≤ w.clock)
    (hholder : ∀ s, s ≠ r → lease'.holder ≠ holderId s)
    (hexpired : ∀ s, s ≠ r → w.lease.holder = holderId s → w.lease.expiresAt < leaseText now)
    (hr : Ok timely w.clock lease' r p) : Inv timely ({ w with lease := lease' }.set r p) := by
  refine ⟨h.1, fun s => ?_⟩
  by_cases hs : s = r
  · subst hs
    rw [World.set_self]
    exact hr
  · rw [World.set_of_ne hs]
    exact (h.2 s).taken hnow hclock (hholder s hs) (hexpired s hs)

theorem ne_holderId_of_holds (hheld : lease.holder = holderId r) (s : String) (hs : s ≠ r) :
    lease.holder ≠ holderId s := fun h => hs (holderId_inj (h.symm.trans hheld))

theorem Inv.ok (h : Inv timely w) (hp : w.runs r = p) : Ok timely w.clock w.lease r p :=
  hp ▸ h.2 r

theorem inv_claim (h : Inv timely w) (hp : w.runs r = .claiming now) :
    Inv timely (if (w.lease.tryClaimLease (holderId r) now).1 then
      { w with lease := (w.lease.tryClaimLease (holderId r) now).2 }.set r
        (.before .vectorIndexOptimization now)
      else w.set r .done) := by
  obtain ⟨hholder, hnow, hclock⟩ := h.ok hp
  by_cases hfree : w.lease.expiresAt < leaseText now ∨ w.lease.holder = holderId r
  · have hexpired : w.lease.expiresAt < leaseText now := hfree.resolve_right hholder
    rw [Lease.tryClaimLease, if_pos hfree]
    exact h.setLease hnow hclock (ne_holderId_of_holds rfl) (fun _ _ _ => hexpired)
      ⟨hnow, hclock, .inl ⟨rfl, rfl⟩⟩
  · rw [Lease.tryClaimLease, if_neg hfree]
    exact h.set fun _ => hholder

theorem renewLease_cases (lease : Lease) (r : String) (now : Int) :
    lease.renewLease (holderId r) now = (false, lease) ∨
      lease.holder = holderId r ∧ lease.renewLease (holderId r) now =
        (true, ⟨holderId r, leaseText (now + ttl), leaseText now⟩) := by
  rw [Lease.renewLease]
  split
  · rename_i hheld
    exact .inr ⟨hheld.1, by rw [hheld.1]⟩
  · exact .inl rfl

theorem inv_renew {tier : MaintenanceTier} {due : Int} (h : Inv timely w)
    (hp : w.runs r = .renewing tier due granted now) :
    Inv timely (if (w.lease.renewLease (holderId r) now).1 then
      { w with lease := (w.lease.renewLease (holderId r) now).2 }.set r
        (.inTier tier (due + minute) now)
      else w.set r .releasing) := by
  obtain ⟨-, htimely, hnow, hlater, hclock⟩ := h.ok hp
  rcases renewLease_cases w.lease r now with heq | ⟨hheld, heq⟩
  · rw [heq]
    exact h.set trivial
  · rw [heq]
    refine h.setLease hnow hclock (ne_holderId_of_holds rfl)
      (fun s hs hholder => absurd hholder (ne_holderId_of_holds hheld s hs)) ?_
    exact ⟨⟨hnow, hclock, .inl ⟨rfl, rfl⟩⟩, fun ht =>
      (htimely ht).trans (Int.add_le_add_right hlater ttl)⟩

theorem inv_renewFails {tier : MaintenanceTier} {due : Int} (h : Inv timely w)
    (hp : w.runs r = .renewing tier due granted now)
    (hlease : lease = w.lease ∨ lease = (w.lease.renewLease (holderId r) now).2) :
    Inv timely ({ w with lease := lease }.set r .releasing) := by
  obtain ⟨-, -, hnow, -, hclock⟩ := h.ok hp
  have hcases : lease = w.lease ∨ w.lease.holder = holderId r ∧ lease.holder = holderId r := by
    rcases renewLease_cases w.lease r now with heq | ⟨hheld, heq⟩
    · exact .inl (hlease.elim id fun hlease => by rw [hlease, heq])
    · refine hlease.imp id fun hlease => ⟨hheld, ?_⟩
      rw [hlease, heq]
  rcases hcases with rfl | ⟨hheld, hheld'⟩
  · exact h.set trivial
  · exact h.setLease hnow hclock (ne_holderId_of_holds hheld')
      (fun s hs hholder => absurd hholder (ne_holderId_of_holds hheld s hs)) trivial

theorem inv_release (h : Inv timely w) :
    Inv timely ({ w with lease := (w.lease.releaseLease (holderId r)).2 }.set r .done) := by
  rw [Lease.releaseLease]
  split
  · rename_i hheld
    exact h.setLease h.1 le_rfl (fun s _ => (holderId_ne_empty s).symm)
      (fun s hs hholder => absurd hholder (ne_holderId_of_holds hheld s hs))
      fun _ => (holderId_ne_empty r).symm
  · rename_i hheld
    exact h.set fun _ => hheld

theorem step_inv (h : Inv timely w) (hs : Step w l w') (ht : timely → Timely w l) :
    Inv timely w' := by
  cases hs with
  | advance hle hclock _ =>
    exact ⟨hclock, fun s => (h.2 s).advance hle fun htimely => ht htimely s⟩
  | readClock hp => exact h.set ⟨h.ok hp, h.1, le_rfl⟩
  | claim hp => exact inv_claim h hp
  | claimFails hp => exact h.set fun _ => (h.ok hp).1
  | activity hp => exact h.set trivial
  | @startTier _ tier granted hp =>
    exact h.set ⟨h.ok hp, fun htimely => ht htimely tier granted hp⟩
  | @endTier _ tier _ _ hp =>
    refine h.set ?_
    cases tier.next with
    | some next => exact (h.ok hp).1
    | none => trivial
  | tick hp _ => exact h.set ⟨(h.ok hp).1, (h.ok hp).2, h.1, (h.ok hp).1.2.1, le_rfl⟩
  | renew hp => exact inv_renew h hp
  | renewFails hp hlease => exact inv_renewFails h hp hlease
  | release hp => exact inv_release h
  | releaseFails hp => exact h.set fun htimely => (ht htimely).elim
  | kill => exact h.set trivial

theorem init_inv (h : machine.Init w) : Inv timely w := by
  refine ⟨h.1, fun r => ?_⟩
  rw [h.2.2 r, h.2.1]
  exact (holderId_ne_empty r).symm

theorem inv_reachable (h : machine.Reachable w) : Inv False w :=
  h.invariant (fun _ => init_inv) fun _ _ _ _ hinv hs => step_inv hinv hs False.elim

theorem inv_timely (h : (machine.restrict Timely).Reachable w) : Inv True w := by
  refine h.invariant (M := machine.restrict Timely) (fun _ hx => init_inv hx)
    fun x l y _ hinv hs => ?_
  obtain ⟨hstep, htimely⟩ : machine.Step x l y ∧ Timely x l := hs
  exact step_inv hinv hstep fun _ => htimely

theorem Inv.holds (h : Inv True w) (hr : w.InTier r) : w.lease.holder = holderId r := by
  have hgranted : ∃ g, Granted w.clock w.lease r g ∧ w.clock ≤ g + ttl := by
    obtain ⟨g, due, hexec⟩ := hr
    have hok := h.2 r
    cases hp : w.runs r with
    | inTier tier d g' =>
      rw [hp] at hok
      exact ⟨g', hok.1, hok.2 trivial⟩
    | renewing tier d g' n =>
      rw [hp] at hok
      exact ⟨g', hok.1, hok.2.1 trivial⟩
    | _ => rw [hp] at hexec; exact hexec.elim
  obtain ⟨g, ⟨-, -, hheld | hover⟩, hin⟩ := hgranted
  · exact hheld.1
  · omega

/-! ## Refused renewals and releases -/

def Phase.Over : Phase → Prop
  | .releasing => True
  | .done => True
  | .killed => True
  | _ => False

/-- A run that ended its tiers is not at a step of one. -/
theorem set_over (hp : w.runs r = p) (hnot : ¬ p.Over) {q : Phase} (h : (w.runs r').Over) :
    ((w.set r q).runs r').Over := by
  have hne : r' ≠ r := by
    rintro rfl
    exact hnot (hp ▸ h)
  rwa [World.set_of_ne hne]

theorem set_over' {q : Phase} (hq : q.Over) (h : (w.runs r').Over) :
    ((w.set r q).runs r').Over := by
  by_cases hne : r' = r
  · subst hne
    rwa [World.set_self]
  · rwa [World.set_of_ne hne]

theorem step_over (hs : Step w l w') (h : (w.runs r').Over) :
    (w'.runs r').Over ∧ l ≠ .startTier r' := by
  cases hs with
  | advance => exact ⟨h, nofun⟩
  | readClock hp => exact ⟨set_over hp id h, nofun⟩
  | claim hp =>
    refine ⟨?_, nofun⟩
    split
    · exact set_over (w := { w with lease := _ }) hp id h
    · exact set_over hp id h
  | claimFails hp => exact ⟨set_over hp id h, nofun⟩
  | activity hp => exact ⟨set_over hp id h, nofun⟩
  | @startTier r _ _ hp =>
    refine ⟨set_over hp id h, fun heq => ?_⟩
    cases heq
    rw [hp] at h
    exact h
  | endTier hp => exact ⟨set_over hp id h, nofun⟩
  | tick hp => exact ⟨set_over hp id h, nofun⟩
  | renew hp =>
    refine ⟨?_, nofun⟩
    split
    · exact set_over (w := { w with lease := _ }) hp id h
    · exact set_over hp id h
  | renewFails hp => exact ⟨set_over (w := { w with lease := _ }) hp id h, nofun⟩
  | release => exact ⟨set_over' (w := { w with lease := _ }) trivial h, nofun⟩
  | releaseFails => exact ⟨set_over' trivial h, nofun⟩
  | kill => exact ⟨set_over' trivial h, nofun⟩

theorem run_over {ls : List Act} (h : machine.Run w ls w') (hover : (w.runs r).Over) :
    Act.startTier r ∉ ls := by
  induction h with
  | nil => exact List.not_mem_nil
  | cons hs _ ih =>
    obtain ⟨hnext, hne⟩ := step_over hs hover
    exact List.not_mem_cons_of_ne_of_not_mem hne.symm (ih hnext)

theorem release_keeps (hs : Step w (.release r) w') (hlost : w.lease.holder ≠ holderId r) :
    w'.lease = w.lease := by
  cases hs
  rw [World.set_lease, Lease.releaseLease, if_neg hlost]

end

/-! ## The runs of a palace -/

/-- Two runs in a tier are one, and a run that returned does not hold the lease. -/
structure Exclusive (w : World) : Prop where
  one : ∀ r r', w.InTier r → w.InTier r' → r = r'
  free : ∀ r, w.runs r = .done → w.lease.holder ≠ holderId r

theorem Inv.exclusive {w : World} (h : Inv True w) : Exclusive w where
  one r r' hr hr' := holderId_inj ((h.holds hr).symm.trans (h.holds hr'))
  free r hr := by
    have hok := h.ok hr
    exact hok trivial

/-- **Maintenance is exclusive**: with runs that are timely, two are never in a tier together,
and a run that claimed and was not killed leaves the lease free or with somebody else. In any
run no tier follows a refused or failed renewal, and a release does not touch the lease of
another run. -/
theorem maintenance_exclusive {w : World} (hw : (machine.restrict Timely).Reachable w) :
    Exclusive w ∧
    (∀ x y z ls r, machine.Step x (.renew r) y ∨ machine.Step x (.renewFails r) y →
      y.runs r = .releasing → machine.Run y ls z → Act.startTier r ∉ ls) ∧
    ∀ x y r, machine.Step x (.release r) y → x.lease.holder ≠ holderId r → y.lease = x.lease := by
  refine ⟨(inv_timely hw).exclusive, fun x y z ls r _ hr hrun => ?_,
    fun x y r hs hlost => release_keeps hs hlost⟩
  refine run_over hrun ?_
  rw [hr]
  trivial

/-! ## A run on its own -/

def solo (clock : Int) (lease : Lease) (p : Phase) : World :=
  { clock, lease, runs := fun _ => .idle : World }.set "a" p

@[simp] theorem solo_runs (clock : Int) (lease : Lease) (p : Phase) :
    (solo clock lease p).runs "a" = p := World.set_self ..

theorem solo_other {clock : Int} {lease : Lease} {p : Phase} {r : String} (h : r ≠ "a") :
    (solo clock lease p).runs r = .idle := World.set_of_ne h

theorem set_solo (clock : Int) (lease : Lease) (p q : Phase) :
    (solo clock lease p).set "a" q = solo clock lease q := World.set_set ..

/-- What holds of the tier of the run holds of every tier. -/
theorem solo_executes {clock : Int} {lease : Lease} {p : Phase} {P : Int → Int → Prop}
    (h : ∀ granted due, p.Executes granted due → P granted due) (r : String) (granted due : Int)
    (hexec : ((solo clock lease p).runs r).Executes granted due) : P granted due := by
  by_cases hr : r = "a"
  · subst hr
    rw [solo_runs] at hexec
    exact h _ _ hexec
  · rw [solo_other hr] at hexec
    exact hexec.elim

def newYear : Int := 1767225600 * 1000000000

def claimed : Lease := ⟨holderId "a", leaseText (newYear + ttl), leaseText newYear⟩

section

variable {clock now : Int} {lease : Lease} {p q : Phase} {l : Act}

theorem solo_step (h : Step (solo clock lease p) l ((solo clock lease p).set "a" q)) :
    machine.Step (solo clock lease p) l (solo clock lease q) :=
  set_solo clock lease p q ▸ h

theorem solo_advance (hle : clock ≤ now) (hclock : OnClock now)
    (h : ∀ granted due, p.Executes granted due → now ≤ due + minute) :
    machine.Step (solo clock lease p) (.advance now) (solo now lease p) :=
  .advance hle hclock fun r granted due => solo_executes h r granted due

theorem solo_claim : machine.Step (solo newYear {} (.claiming newYear)) (.claim "a")
    (solo newYear claimed (.before .vectorIndexOptimization newYear)) := by
  have hclaim : Lease.tryClaimLease (holderId "a") newYear {} = (true, claimed) := by
    rw [Lease.tryClaimLease, if_pos (.inl (by decide))]
    rfl
  have hstep := Step.claim (solo_runs newYear {} (.claiming newYear))
  have hlease : (solo newYear {} (.claiming newYear)).lease = {} := rfl
  rw [hlease, hclaim, if_pos rfl] at hstep
  exact set_solo newYear claimed (.claiming newYear) _ ▸ hstep

theorem solo_start (hle : clock ≤ newYear + ttl) {M : Machine World Act}
    (hM : ∀ {w w' : World} {l : Act}, machine.Step w l w' → Timely w l → M.Step w l w')
    {tier : MaintenanceTier} :
    M.Step (solo clock lease (.before tier newYear)) (.startTier "a")
      (solo clock lease (.inTier tier (clock + minute) newYear)) := by
  refine hM (solo_step (.startTier (solo_runs ..))) fun tier' granted hp => ?_
  rw [solo_runs] at hp
  cases hp
  exact hle

/-- The run claims the lease and starts its first tier. -/
theorem solo_begins {M : Machine World Act}
    (hM : ∀ {w w' : World} {l : Act}, machine.Step w l w' → Timely w l → M.Step w l w') :
    M.Run (solo newYear {} .idle) [.readClock "a", .claim "a", .startTier "a"]
      (solo newYear claimed (.inTier .vectorIndexOptimization (newYear + minute) newYear)) := by
  refine .cons (hM (solo_step (.readClock (solo_runs ..))) trivial) ?_
  refine .cons (hM solo_claim trivial) (.single (solo_start ?_ hM))
  decide

theorem solo_tier (clock : Int) (lease : Lease) {tier next : MaintenanceTier}
    (hnext : tier.next = some next) (hclock : OnClock (clock + 119 * 1000000000)) (hle : clock + 119 * 1000000000 ≤ newYear + ttl) :
    machine.Run (solo clock lease (.inTier tier (clock + minute) newYear))
      [.advance (clock + 119 * 1000000000), .endTier "a", .startTier "a"]
      (solo (clock + 119 * 1000000000) lease
        (.inTier next (clock + 119 * 1000000000 + minute) newYear)) := by
  refine .cons (solo_advance (by omega) hclock ?_)
    (.cons ?_ (.single (solo_start hle fun h _ => h)))
  · rintro granted due ⟨-, rfl⟩
    simp only [minute]
    omega
  · have hend := Step.endTier (solo_runs (clock + 119 * 1000000000) lease
      (.inTier tier (clock + minute) newYear))
    rw [hnext] at hend
    exact solo_step hend

end

theorem init_solo : machine.Init (solo newYear {} .idle) := by
  refine ⟨by decide, rfl, fun r => ?_⟩
  by_cases hr : r = "a"
  · subst hr
    exact solo_runs ..
  · exact solo_other hr

/-- A run that asks for the lease while another one holds it ends. -/
theorem second_refused {w : World} (hclock : w.clock = newYear) (hlease : w.lease = claimed)
    (hidle : w.runs "b" = .idle) :
    (machine.restrict Timely).Run w [.readClock "b", .claim "b"] (w.set "b" .done) := by
  have hclaim := Step.claim (w.set_self "b" (.claiming w.clock))
  have hlost : ((w.set "b" (.claiming w.clock)).lease.tryClaimLease (holderId "b") w.clock).1 =
      false := by
    rw [show (w.set "b" (.claiming w.clock)).lease = claimed from hlease, hclock]
    decide
  rw [hlost, if_neg Bool.false_ne_true, World.set_set] at hclaim
  exact .cons ⟨.readClock hidle, trivial⟩ (.single ⟨hclaim, trivial⟩)

theorem maintenance_exclusive_sample :
    Exclusive ((solo newYear claimed
      (.inTier .vectorIndexOptimization (newYear + minute) newYear)).set "b" .done) ∧
    (Act.startTier "a" ∉ [Act.kill "a"]) ∧
    (solo newYear { claimed with holder := holderId "b" } .done).lease =
      { claimed with holder := holderId "b" } := by
  have hrenewing := solo_runs newYear claimed (.renewing .versionRetention newYear newYear newYear)
  have hreleasing := solo_runs newYear { claimed with holder := holderId "b" } .releasing
  have hlost : { claimed with holder := holderId "b" : Lease }.holder ≠ holderId "a" := by decide
  have hrelease := Step.release hreleasing
  have hbegins : (machine.restrict Timely).Run (solo newYear {} .idle)
      [.readClock "a", .claim "a", .startTier "a"]
      (solo newYear claimed (.inTier .vectorIndexOptimization (newYear + minute) newYear)) :=
    solo_begins fun h ht => ⟨h, ht⟩
  have hsample := maintenance_exclusive ⟨_, _, init_solo,
    hbegins.append (second_refused rfl rfl (solo_other (by decide)))⟩
  refine ⟨hsample.1, hsample.2.1 _ _ _ _ "a" (.inr (.renewFails hrenewing (.inl rfl)))
    (World.set_self ..) (.single .kill), ?_⟩
  exact hsample.2.2 _ _ "a" hrelease hlost

theorem late_tier_shared {w : World} {r : String} (r' : String) {granted due : Int}
    (h : machine.Reachable w) (hr : (w.runs r).Executes granted due)
    (hheld : w.lease.holder = holderId r) (hlate : granted + ttl < w.clock)
    (hr' : w.runs r' = .idle) :
    ∃ w', machine.Run w [.readClock r', .claim r', .startTier r'] w' ∧
      w'.InTier r ∧ w'.InTier r' := by
  have hinv := inv_reachable h
  have hne : r ≠ r' := by
    rintro rfl
    rw [hr'] at hr
    exact hr
  have hgranted : Granted w.clock w.lease r granted := by
    have hok := hinv.2 r
    cases hp : w.runs r with
    | inTier tier d g => rw [hp] at hr hok; exact hr.1 ▸ hok.1
    | renewing tier d g n => rw [hp] at hr hok; exact hr.1 ▸ hok.1
    | _ => rw [hp] at hr; exact hr.elim
  have hexpired : w.lease.expiresAt < leaseText w.clock := by
    rcases hgranted.2.2 with ⟨-, htext⟩ | ⟨hother, -⟩
    · rw [htext, leaseText_lt hgranted.1 hinv.1]
      exact hlate
    · exact absurd hheld hother
  have hclaim : w.lease.tryClaimLease (holderId r') w.clock =
      (true, ⟨holderId r', leaseText (w.clock + ttl), leaseText w.clock⟩) := by
    rw [Lease.tryClaimLease, if_pos (.inl hexpired)]
  have hstep := Step.claim (World.set_self w r' (.claiming w.clock))
  rw [World.set_lease, hclaim, if_pos rfl] at hstep
  refine ⟨_, .cons (.readClock hr') (.cons hstep (.single (.startTier (World.set_self ..)))),
    ?_, ?_⟩
  · refine ⟨granted, due, ?_⟩
    rw [World.set_of_ne hne, World.set_of_ne hne]
    have hkeep := World.set_of_ne (w := w) (p := .claiming w.clock) hne
    exact hkeep ▸ hr
  · exact ⟨_, _, by rw [World.set_self]; exact ⟨rfl, rfl⟩⟩

/-- Five minutes and a second after the claim. -/
def late : Int := newYear + 301 * 1000000000

theorem solo_late : machine.Run
    (solo newYear claimed (.inTier .vectorIndexOptimization (newYear + minute) newYear))
    (([.advance (newYear + 119 * 1000000000), .endTier "a", .startTier "a"] ++
      [.advance (newYear + 119 * 1000000000 + 119 * 1000000000), .endTier "a", .startTier "a"]) ++
      [.advance late])
    (solo late claimed (.inTier .versionRetention
      (newYear + 119 * 1000000000 + 119 * 1000000000 + minute) newYear)) := by
  have hnext : MaintenanceTier.vectorIndexOptimization.next = some .fragmentCompaction := rfl
  have hlast : MaintenanceTier.fragmentCompaction.next = some .versionRetention := rfl
  have hsecond := solo_tier newYear claimed hnext (by decide) (by decide)
  have hthird := solo_tier (newYear + 119 * 1000000000) claimed hlast (by decide) (by decide)
  refine (hsecond.append hthird).append (.single (solo_advance (by decide) (by decide) ?_))
  rintro granted due ⟨-, rfl⟩
  decide

/-- Two runs that are in a tier at 00:05:01. The first claimed at 00:00 and went through three
tiers; no tick had to be handled before 00:05:58. -/
theorem maintenance_shared : ∃ w w' ls, machine.Init w ∧ machine.Run w ls w' ∧
    w'.InTier "a" ∧ w'.InTier "b" := by
  have hrun := (solo_begins (M := machine) fun h _ => h).append solo_late
  have hexec : ((solo late claimed (.inTier .versionRetention
      (newYear + 119 * 1000000000 + 119 * 1000000000 + minute) newYear)).runs "a").Executes newYear
      (newYear + 119 * 1000000000 + 119 * 1000000000 + minute) := by
    rw [solo_runs]
    exact ⟨rfl, rfl⟩
  obtain ⟨w, hshared, ha, hb⟩ := late_tier_shared "b" ⟨_, _, init_solo, hrun⟩ hexec rfl
    (by decide) (solo_other (by decide))
  exact ⟨_, w, _, init_solo, hrun.append hshared, ha, hb⟩

end AgentPalace.Maintenance
