import AgentPalace.Coordination.Rows

/-!
# Refused calls

A call that fails, or loses the race for a revision, leaves all five tables as
they were. The one exception is a claim that finds the deadline passed: it
commits the expiry of the task and then fails.
-/

namespace AgentPalace.Coordination

def Refused : Answer → Prop
  | .error _ => True
  | .ok (.write (.conflict _)) => True
  | _ => False

def ReportsExpiry (call : Call) (answer : Answer) : Prop :=
  call.isClaim = true ∧ answer = .error (.invariant taskHasExpired)

/-- `worker`'s claim at `host` expired the task of `row`, and did nothing else. -/
def Expires (host : Host) (db db' : CoordinationDb) (row : TaskRow) (worker : String) : Prop :=
  ∃ ts tasks events, ts.time = host.now ∧
    db' = { db with tasks := tasks, events := events } ∧
    tasks.rows = db.tasks.rows.map
      (fun t => if t.taskId = row.taskId then row.expire ts else t) ∧
    events.rows = db.events.rows ++ [(taskEvent row.toTask "task_expired" worker (some row.state)
      (some .expired) (row.revision + 1) none).stamp ("event_" ++ host.eventUuid) ts db.events.next]

theorem TaskChange.expires {host : Host} {db : CoordinationDb} {row row' : TaskRow} {ts : Timestamp}
    {call : Call} {answer : Answer} {e : NewEvent}
    (h : TaskChange host db row ts call answer row' e) (href : Refused answer) :
    ∃ worker ttl, call = .claimTask row.taskId worker row.revision ttl ∧
      answer = .error (.invariant taskHasExpired) ∧ row' = row.expire ts ∧
      e = taskEvent row.toTask "task_expired" worker (some row.state) (some .expired)
        (row.revision + 1) none := by
  cases h with
  | expired => exact ⟨_, _, rfl, rfl, rfl, rfl⟩
  | claimed => cases href
  | renewed => cases href
  | yielded => cases href
  | moved => cases href

/-- **Atomicity**: a refused call changes nothing, unless it is a claim that
reports the task as expired, and then it expires exactly that task. -/
theorem refused_atomic (r : Request) (db : CoordinationDb) (href : Refused (r.execute db).1) :
    (¬ ReportsExpiry r.call (r.execute db).1 → (r.execute db).2 = db) ∧
    (ReportsExpiry r.call (r.execute db).1 → ∃ row worker ttl,
      r.call = .claimTask row.taskId worker row.revision ttl ∧
      db.tasks.get? row.taskId = some row ∧ Expires r.host db (r.execute db).2 row worker) := by
  have h := r.outcome db
  generalize r.execute db = out at h href
  obtain ⟨answer, db'⟩ := out
  cases h with
  | rejected hne =>
    refine ⟨fun _ => rfl, fun hr => ?_⟩
    obtain ⟨hclaim, he⟩ := hr
    cases he
    exact absurd rfl (hne hclaim)
  | conflict actual => exact ⟨fun _ => rfl, fun hr => nomatch hr.2⟩
  | changed hts hrow hchange htasks hlog =>
    obtain ⟨worker, ttl, hcall, rfl, rfl, rfl⟩ := hchange.expires href
    refine ⟨fun hnot => absurd ⟨by rw [hcall]; rfl, rfl⟩ hnot, fun _ => ?_⟩
    exact ⟨_, worker, ttl, hcall, hrow, _, _, _, hts, rfl, htasks, hlog⟩
  | replayed => exact ⟨fun _ => rfl, fun hr => nomatch hr.2⟩
  | yieldedAgain => cases href
  | created hcall =>
    rcases hcall with ⟨_, _, hreply⟩ | ⟨_, _, _, hreply⟩ <;> rw [hreply] at href <;> cases href
  | sent => cases href
  | acknowledged => cases href
  | artifactPut => cases href
  | resultPut => cases href

def sampleOverdue : List Request :=
  [⟨sampleHost 0 "1", .createTask { sampleTask with expiresAt := some ⟨5, 0⟩ } none⟩]

theorem refused_atomic_sample :
    ∃ row worker, Expires (sampleHost 10 "2") (after sampleOverdue).db
      ((Request.mk (sampleHost 10 "2") (.claimTask "task_1" "ada" 0 100)).execute
        (after sampleOverdue).db).2 row worker := by
  have hanswer : ((Request.mk (sampleHost 10 "2") (.claimTask "task_1" "ada" 0 100)).execute
      (after sampleOverdue).db).1 = .error (.invariant taskHasExpired) := by rfl
  obtain ⟨row, worker, _, _, _, h⟩ := (refused_atomic
    ⟨sampleHost 10 "2", .claimTask "task_1" "ada" 0 100⟩ (after sampleOverdue).db
    (by rw [hanswer]; trivial)).2 ⟨rfl, hanswer⟩
  exact ⟨row, worker, h⟩

end AgentPalace.Coordination
