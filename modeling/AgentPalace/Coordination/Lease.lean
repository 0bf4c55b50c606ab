import AgentPalace.Coordination.Rows

/-!
# Lease exclusion

While a worker's lease runs, no other worker claims the task or moves it, other
than to cancel it. What can end the exclusion early is listed in `Excuse`: the
holder gives the task up, somebody cancels it, or the holder replaces its own
lease by a shorter one; and the deadline of the task itself may pass.
-/

namespace AgentPalace.Coordination

open Machine

/-- `worker` was granted the lease of `id` until `e`. -/
def Grants (id worker : String) (e : OffsetDateTime) (l : Label) : Prop :=
  ∃ rev ttl t lease,
    (l.call.call = .claimTask id worker rev ttl ∨ l.call.call = .renewLease id worker rev ttl) ∧
    l.answer = .ok (.write (.applied t)) ∧ t.leaseExpiresAt = some lease ∧ lease.time = e

/-- `worker` claimed `id`, or moved it other than to cancel it. -/
def Takes (id worker : String) (l : Label) : Prop :=
  ∃ t, l.answer = .ok (.write (.applied t)) ∧
    ((∃ rev ttl, l.call.call = .claimTask id worker rev ttl) ∨
      ∃ rev target details, l.call.call = .transitionTask id worker rev target details ∧
        target ≠ .cancelled)

/-- `worker` yielded `id`, handed it off or ended it. -/
def Relinquishes (id worker : String) (x : State) (l : Label) : Prop :=
  ∃ row target details t, x.db.tasks.get? id = some row ∧
    l.call.call = .transitionTask id worker row.revision target details ∧
    l.answer = .ok (.write (.applied t)) ∧
    (yielding row.toTask target = true ∨ target.terminal = true)

/-- Somebody cancelled `id`. -/
def Cancels (id : String) (l : Label) : Prop :=
  ∃ actor rev details t, l.call.call = .transitionTask id actor rev .cancelled details ∧
    l.answer = .ok (.write (.applied t))

/-- The deadline of `id` is not after `now`. -/
def Overdue (id : String) (now : OffsetDateTime) (w : State) : Prop :=
  ∃ row deadline, w.db.tasks.get? id = some row ∧ row.expiresAt = some deadline ∧
    deadline.time ≤ now

/-- `worker` replaced its lease by one that is over at `now`. -/
def Shortens (id worker : String) (now : OffsetDateTime) (l : Label) : Prop :=
  ∃ e, Grants id worker e l ∧ e ≤ now

/-- After a grant until `e`, nobody else takes the task before `e`, unless a step
in between is excused or the deadline of the task has passed. -/
def ExclusiveUnless
    (Excuse : String → String → OffsetDateTime → State → Label → Prop) : Prop :=
  ∀ (w w₁ w₂ w₃ : State) (grant take : Label) (ls : List Label) (id worker other : String)
    (e : OffsetDateTime),
    system.Reachable w → system.Step w grant w₁ → Grants id worker e grant →
    Run system w₁ ls w₂ → system.Step w₂ take w₃ → Takes id other take →
    take.call.host.now < e → other ≠ worker →
    Overdue id take.call.host.now w₁ ∨
    ∃ pre l post x y, ls = pre ++ l :: post ∧ Run system w₁ pre x ∧ system.Step x l y ∧
      Run system y post w₂ ∧ Excuse id worker take.call.host.now x l

/-- The row of `id` is leased to `worker` until after `now`. -/
def HeldPast (id worker : String) (now : OffsetDateTime) (deadline : Option Timestamp) (w : State) :
    Prop :=
  ∃ row lease, w.db.tasks.get? id = some row ∧ row.owner = some worker ∧
    row.leaseExpiresAt = some lease ∧ now < lease.time ∧ row.expiresAt = deadline

theorem grants_held {id worker : String} {e now : OffsetDateTime} {w w' : State} {l : Label}
    (hs : system.Step w l w') (hg : Grants id worker e l) (he : now < e) :
    ∃ row, w'.db.tasks.get? id = some row ∧ HeldPast id worker now row.expiresAt w' := by
  obtain ⟨rev, ttl, t, lease, hcall, ht, hlease, rfl⟩ := hg
  obtain ⟨row, hrow, ⟨row', ts, ev, h, rfl, hrow'⟩ | ⟨actor, details, hyield, _⟩⟩ :=
    (step_outcome hs).applied ht
  · clear ht
    generalize l.answer = answer at h
    rcases hcall with hcall | hcall <;> rw [hcall] at h
    · cases h with
      | expired => cases hlease
      | claimed => exact ⟨_, hrow', _, lease, hrow', rfl, hlease, he, rfl⟩
    · cases h with
      | renewed howner => exact ⟨_, hrow', _, lease, hrow', howner, hlease, he, rfl⟩
  · rcases hcall with hcall | hcall <;> rw [hcall] at hyield <;> cases hyield

theorem held_not_taken {id worker other : String} {deadline : Option Timestamp} {w w' : State}
    {l : Label} (hh : HeldPast id worker l.call.host.now deadline w) (hs : system.Step w l w')
    (htake : Takes id other l) : other = worker := by
  obtain ⟨held, lease, hheld, howner, hlease, hlt, _⟩ := hh
  obtain ⟨t, ht, hcall⟩ := htake
  obtain ⟨row, hrow, ⟨row', ts, ev, h, rfl, _⟩ | ⟨actor, details, hyield, hactor⟩⟩ :=
    (step_outcome hs).applied ht
  · generalize l.answer = answer at h ht
    rcases hcall with ⟨rev, ttl, hcall⟩ | ⟨rev, target, details, hcall, hcancel⟩ <;> rw [hcall] at h
    · cases h with
      | expired => cases ht
      | claimed _ _ _ hguard =>
        obtain rfl : row = held := Option.some.inj (hrow.symm.trans hheld)
        exact (hguard worker lease howner hlease hlt).symm
    · cases h with
      | yielded _ hactor =>
        obtain rfl : row = held := Option.some.inj (hrow.symm.trans hheld)
        exact Option.some.inj (hactor.symm.trans howner)
      | moved _ _ _ hguard =>
        obtain rfl : row = held := Option.some.inj (hrow.symm.trans hheld)
        exact ((hguard worker howner).resolve_right hcancel).symm
  · rcases hcall with ⟨rev, ttl, hcall⟩ | ⟨rev, target, details', hcall, hcancel⟩ <;>
      rw [hcall] at hyield <;> cases hyield
    obtain rfl : row = held := Option.some.inj (hrow.symm.trans hheld)
    exact Option.some.inj (hactor.symm.trans howner)

/-- One step before `now` keeps a task held, unless the holder gives it up,
somebody cancels it, its deadline has passed, or the holder shortens its lease. -/
theorem step_held {id worker : String} {now : OffsetDateTime} {deadline : Option Timestamp}
    {x y : State} {l : Label} (hh : HeldPast id worker now deadline x) (hs : system.Step x l y)
    (hnow : l.call.host.now ≤ now) :
    HeldPast id worker now deadline y ∨ (∃ d, deadline = some d ∧ d.time ≤ now) ∨
      Relinquishes id worker x l ∨ Cancels id l ∨ Shortens id worker now l := by
  obtain ⟨row, lease, hrow, howner, hlease, hlt, hdeadline⟩ := hh
  have hlive : l.call.host.now < lease.time := lt_of_le_of_lt hnow hlt
  have hid : row.taskId = id := taskId_of_get? hrow
  have hstep := step_row hs id
  rw [hrow] at hstep
  generalize hy : y.db.tasks.get? id = r at hstep
  cases hstep with
  | kept => exact .inl ⟨row, lease, hy, howner, hlease, hlt, hdeadline⟩
  | @changed _ row' ts ev hts h =>
    generalize hcall : l.call.call = call at h
    generalize hanswer : l.answer = answer at h
    rw [← hid] at hy ⊢
    cases h with
    | @expired _ _ d _ hd hdue => exact .inr (.inl ⟨d, hdeadline.symm.trans hd, hdue.trans hnow⟩)
    | @claimed claimer ttl expiry _ _ _ hguard =>
      obtain rfl : worker = claimer := hguard worker lease howner hlease hlive
      by_cases hlong : now < expiry.time
      · exact .inl ⟨_, expiry, hy, rfl, rfl, hlong, hdeadline⟩
      · exact .inr (.inr (.inr (.inr ⟨expiry.time, ⟨_, ttl, _, expiry, .inl hcall, hanswer, rfl,
          rfl⟩, OffsetDateTime.not_lt.1 hlong⟩)))
    | @renewed renewer ttl _ expiry hrenewer =>
      obtain rfl : worker = renewer := Option.some.inj (howner.symm.trans hrenewer)
      by_cases hlong : now < expiry.time
      · exact .inl ⟨_, expiry, hy, howner, rfl, hlong, hdeadline⟩
      · exact .inr (.inr (.inr (.inr ⟨expiry.time, ⟨_, ttl, _, expiry, .inr hcall, hanswer, rfl,
          rfl⟩, OffsetDateTime.not_lt.1 hlong⟩)))
    | @yielded actor _ details _ hyield hactor =>
      obtain rfl : worker = actor := Option.some.inj (howner.symm.trans hactor)
      exact .inr (.inr (.inl ⟨row, _, _, _, hid ▸ hrow, hcall, hanswer, .inl hyield⟩))
    | @moved actor target details _ _ _ hguard =>
      by_cases hterm : target.terminal = true
      · rcases hguard worker howner with rfl | rfl
        · exact .inr (.inr (.inl ⟨row, _, _, _, hid ▸ hrow, hcall, hanswer, .inr hterm⟩))
        · exact .inr (.inr (.inr (.inl ⟨actor, _, details, _, hcall, hanswer⟩)))
      · exact .inl ⟨_, lease, hy, (if_neg hterm).trans howner, (if_neg hterm).trans hlease, hlt,
          hdeadline⟩

def Released (id worker : String) (_ : OffsetDateTime) (x : State) (l : Label) : Prop :=
  Relinquishes id worker x l ∨ Cancels id l

/-- **Lease exclusion**: until `e` nobody but the holder takes the task, unless
the holder gives it up or shortens its own lease, somebody cancels the task, or
its deadline passes. -/
theorem lease_exclusive :
    ExclusiveUnless fun id worker now x l =>
      Released id worker now x l ∨ Shortens id worker now l := by
  intro w w₁ w₂ w₃ grant take ls id worker other e hw hgrant hg hrun htake htakes hlt hne
  obtain ⟨row, hrow, hheld⟩ := grants_held hgrant hg hlt
  rcases hrun.until hheld with hend | ⟨pre, l, post, x, y, hls, hpre, hx, hs, hy, hpost⟩
  · exact absurd (held_not_taken hend htake htakes) hne
  · have hnow : l.call.host.now ≤ take.call.host.now := by
      have hclock : y.clock ≤ w₂.clock := run_clock hpost
      rw [step_clock hs] at hclock
      exact hclock.trans htake.1
    rcases step_held hx hs hnow with hkept | ⟨d, hd, hdue⟩ | hexcuse
    · exact absurd hkept hy
    · exact .inl ⟨row, d, hrow, hd, hdue⟩
    · refine .inr ⟨pre, l, post, x, y, hls, hpre, hs, hpost, ?_⟩
      rcases hexcuse with h | h | h
      · exact .inl (.inl h)
      · exact .inl (.inr h)
      · exact .inr h

/-! ## A lease until 101 -/

def labelOf (calls : List Request) (r : Request) : Label := ⟨r, answerTo calls r⟩

theorem grants_adaClaims : Grants "task_1" "ada" ⟨101, 0⟩ (labelOf [plannerCreates] adaClaims) := by
  have h : (appliedTask (answerTo [plannerCreates] adaClaims)).bind (·.leaseExpiresAt.map (·.time)) =
    some ⟨101, 0⟩ := by decide
  obtain ⟨t, ht, hlease⟩ := Option.bind_eq_some_iff.1 h
  obtain ⟨lease, hl, htime⟩ := Option.map_eq_some_iff.1 hlease
  exact ⟨0, 100, t, lease, .inl rfl, appliedTask_eq_some ht, hl, htime⟩

/-- At 50 `bob` asks for the task. -/
def bobClaims : Request := ⟨sampleHost 50 "3", .claimTask "task_1" "bob" 1 100⟩

theorem lease_exclusive_sample : ¬ Takes "task_1" "bob" (labelOf sampleClaim bobClaims) := by
  intro htakes
  have hrow : ((after sampleClaim).db.tasks.get? "task_1").map (·.expiresAt) = some none := by decide
  rcases lease_exclusive (after [plannerCreates]) (after sampleClaim) (after sampleClaim) _ _ _ []
    "task_1" "ada" "bob" ⟨101, 0⟩ (reachable_after [plannerCreates] (by decide))
    (step_after [plannerCreates] adaClaims (by decide)) grants_adaClaims (.nil _)
    (step_after sampleClaim bobClaims (by decide)) htakes (by decide) (by decide) with
    ⟨row, d, hget, hd, _⟩ | ⟨pre, l, post, _, _, hls, _⟩
  · rw [hget, Option.map_some, hd] at hrow
    cases hrow
  · simp at hls

/-- At 2 `ada` renews, for one nanosecond. -/
def adaRenews : Request := ⟨sampleHost 2 "3", .renewLease "task_1" "ada" 1 1⟩

/-- At 4 `bob` asks for the task. -/
def bobClaimsLater : Request := ⟨sampleHost 4 "4", .claimTask "task_1" "bob" 2 100⟩

/-- The holder of a lease can end its own exclusion early: after `ada` renews her
lease until 101 for one nanosecond, `bob` claims the task at 4. -/
theorem lease_not_exclusive_after_shorter_renewal : ¬ ExclusiveUnless Released := by
  intro h
  have htakes : Takes "task_1" "bob" (labelOf (sampleClaim ++ [adaRenews]) bobClaimsLater) := by
    have hb : (appliedTask (answerTo (sampleClaim ++ [adaRenews]) bobClaimsLater)).isSome := by decide
    obtain ⟨t, ht⟩ := Option.isSome_iff_exists.1 hb
    exact ⟨t, appliedTask_eq_some ht, .inl ⟨2, 100, rfl⟩⟩
  have hrow : ((after sampleClaim).db.tasks.get? "task_1").map (·.expiresAt) = some none := by decide
  rcases h (after [plannerCreates]) (after sampleClaim) (after (sampleClaim ++ [adaRenews])) _ _ _
    [labelOf sampleClaim adaRenews] "task_1" "ada" "bob" ⟨101, 0⟩
    (reachable_after [plannerCreates] (by decide))
    (step_after [plannerCreates] adaClaims (by decide)) grants_adaClaims
    (.single (step_after sampleClaim adaRenews (by decide)))
    (step_after (sampleClaim ++ [adaRenews]) bobClaimsLater (by decide)) htakes (by decide)
    (by decide) with ⟨row, d, hget, hd, _⟩ | ⟨pre, l, post, x, y, hls, _, _, _, hexcuse⟩
  · rw [hget, Option.map_some, hd] at hrow
    cases hrow
  · -- the only step in between is the renewal
    obtain rfl : l = labelOf sampleClaim adaRenews := by
      have hmem : l ∈ [labelOf sampleClaim adaRenews] := by rw [hls]; simp
      exact List.mem_singleton.1 hmem
    rcases hexcuse with ⟨_, _, _, _, _, hcall, _⟩ | ⟨_, _, _, _, hcall, _⟩ <;> cases hcall

end AgentPalace.Coordination
