import AgentPalace.Coordination.Rows

/-!
# Checkpoint affinity

Once a task is parked for an executor, only that executor can claim it, through
any number of claims, waits for input, renewals and expired leases. Two things
end this: a handoff by the owner to an executor it names, with a checkpoint of
the same task, and the end of the task.
-/

namespace AgentPalace.Coordination

open Machine

/-- The task `id` is reserved for the executor `e`. -/
def HasAffinity (id e : String) (w : State) : Prop :=
  ∃ row, w.db.tasks.get? id = some row ∧ row.executorAffinity = some e

/-- The owner of `id` handed it to `executor`, with a checkpoint of it. -/
def HandsOff (id executor : String) (x : State) (l : Label) (y : State) : Prop :=
  ∃ row row' actor details parsed handoff,
    x.db.tasks.get? id = some row ∧ row.owner = some actor ∧
    l.call.call = .transitionTask id actor row.revision .pending (some details) ∧
    parseYield (some details) = .ok (details, parsed) ∧
    parsed.checkpointHandoff = some handoff ∧ handoff.executor = executor ∧
    (∃ a, x.db.artifacts.get? handoff.artifactId = some a ∧ a.taskId = id ∧ a.role = "checkpoint") ∧
    l.answer = .ok (.write (.applied row'.toTask)) ∧
    y.db.tasks.get? id = some row' ∧ row'.executorAffinity = some executor

/-- The task `id` is over. -/
def Ended (id : String) (w : State) : Prop :=
  ∃ row, w.db.tasks.get? id = some row ∧ row.state.terminal

/-- One step keeps the affinity, hands it off or ends the task. -/
theorem step_affinity {id e : String} {x y : State} {l : Label} (hx : system.Reachable x)
    (ha : HasAffinity id e x) (hs : system.Step x l y) :
    HasAffinity id e y ∨ (∃ executor, HandsOff id executor x l y) ∨ Ended id y := by
  obtain ⟨row, hrow, haff⟩ := ha
  have hown := reachable_ownership hx id row hrow
  have hstep := step_row hs id
  rw [hrow] at hstep
  generalize hy : y.db.tasks.get? id = r at hstep
  have hid : row.taskId = id := taskId_of_get? hrow
  cases hstep with
  | kept => exact .inl ⟨row, hy, haff⟩
  | @changed _ row' ts ev hts h =>
    generalize hcall : l.call.call = call at h
    generalize hanswer : l.answer = answer at h
    cases h with
    | expired => exact .inr (.inr ⟨_, hy, rfl⟩)
    | claimed => exact .inl ⟨_, hy, haff⟩
    | renewed => exact .inl ⟨_, hy, haff⟩
    | @yielded actor executor details parsed hyield howner hdue hlease hparsed hexecutor hhandoff =>
      cases hh : parsed.checkpointHandoff with
      | none =>
        -- a plain yield is by the owner, who has the affinity already
        have hactor : some actor = some e := howner.symm.trans (hown.affinity e haff)
        rw [hh] at hexecutor
        exact .inl ⟨_, hy, by rw [hexecutor]; exact hactor⟩
      | some handoff =>
        rw [hid] at hcall
        refine .inr (.inl ⟨handoff.executor, row, _, actor, details, parsed, handoff, hrow, howner,
          hcall, hparsed, hh, rfl, ?_, hanswer, hy, ?_⟩)
        · rw [← hid]
          exact (hhandoff handoff hh).artifact
        · rw [hexecutor, hh]
          rfl
    | @moved actor target details =>
      by_cases hterm : target.terminal = true
      · exact .inr (.inr ⟨_, hy, hterm⟩)
      · exact .inl ⟨_, hy, (if_neg hterm).trans haff⟩

theorem claim_affinity {id e worker : String} {rev : Int} {ttl : Duration} {t : Task} {w w' : State}
    {l : Label} (ha : HasAffinity id e w) (hs : system.Step w l w')
    (hcall : l.call.call = .claimTask id worker rev ttl)
    (ht : l.answer = .ok (.write (.applied t))) : worker = e := by
  obtain ⟨row, hrow, haff⟩ := ha
  obtain ⟨r, hr, ⟨row', ts, ev, h, _⟩ | ⟨actor, details, hyield, _⟩⟩ := (step_outcome hs).applied ht
  · rw [hcall, ht] at h
    cases h with
    | claimed _ _ haffinity =>
      rw [hr] at hrow
      cases hrow
      exact (haffinity e haff).symm
  · rw [hcall] at hyield
    cases hyield

/-- **Affinity is safe**: after a task is reserved for `e`, at the end of any run
it still is, and every applied claim of it is by `e`; or some step of the run
handed the checkpoint off or ended the task. -/
theorem affinity_safe {id e : String} {w w' : State} {ls : List Label} (h : system.Reachable w)
    (ha : HasAffinity id e w) (hrun : Run system w ls w') :
    (HasAffinity id e w' ∧ ∀ l w'' worker rev ttl t, system.Step w' l w'' →
      l.call.call = .claimTask id worker rev ttl → l.answer = .ok (.write (.applied t)) →
      worker = e) ∨
    ∃ pre l post x y, ls = pre ++ l :: post ∧ Run system w pre x ∧ HasAffinity id e x ∧
      system.Step x l y ∧ Run system y post w' ∧
      ((∃ executor, HandsOff id executor x l y ∧ HasAffinity id executor y) ∨ Ended id y) := by
  rcases hrun.until ha with hend | ⟨pre, l, post, x, y, hls, hpre, hx, hs, hy, hpost⟩
  · exact .inl ⟨hend, fun l w'' worker rev ttl t hs hcall ht => claim_affinity hend hs hcall ht⟩
  · refine .inr ⟨pre, l, post, x, y, hls, hpre, hx, hs, hpost, ?_⟩
    rcases step_affinity (h.run hpre) hx hs with hkept | ⟨executor, hoff⟩ | hended
    · exact absurd hkept hy
    · have hoff' := hoff
      obtain ⟨_, row', _, _, _, _, _, _, _, _, _, _, _, _, hrow', haff⟩ := hoff'
      exact .inl ⟨executor, hoff, row', hrow', haff⟩
    · exact .inr hended

/-- `ada` yields the task she claimed, and `bob` asks for it. -/
def sampleYield : List Request :=
  sampleClaim ++ [⟨sampleHost 2 "3", .transitionTask "task_1" "ada" 1 .pending
    (some (.obj [("reason", .str "stage done")]))⟩]

theorem affinity_safe_sample : ¬ ∃ l w' t, system.Step (after sampleYield) l w' ∧
    l.call.call = .claimTask "task_1" "bob" 2 100 ∧ l.answer = .ok (.write (.applied t)) := by
  rintro ⟨l, w', t, hs, hcall, ht⟩
  have hsample : ((after sampleYield).db.tasks.get? "task_1").map (·.executorAffinity) =
    some (some "ada") := by decide
  have ha : HasAffinity "task_1" "ada" (after sampleYield) := Option.map_eq_some_iff.1 hsample
  rcases affinity_safe (reachable_after sampleYield (by decide)) ha (.nil _) with
    ⟨_, hclaim⟩ | ⟨pre, _, post, _, _, hls, _⟩
  · exact absurd (hclaim l w' _ _ _ t hs hcall ht) (by decide)
  · simp at hls

end AgentPalace.Coordination
