import AgentPalace.Outbox.Fencing
import AgentPalace.Outbox.Sequence

/-!
# Live leases

Claims compare a lease with the clock to the nanosecond. A reclaim lets SQLite
compare them, in whole milliseconds, so it takes over a lease that still has
time left when both round to the same one: that is the only way a live lease
changes hands (`takesLive_iff`).
-/

namespace AgentPalace.Outbox

open Machine Tx

def Live (op : OutboxOperation) (now : OffsetDateTime) : Prop :=
  op.state = .leased ∧ ∃ e, op.leaseExpiresAt = some e ∧ now < e.time

/-- The call takes a lease of `owner` over: a claim by another worker, or a
reclaim by any, as every process goes by one name. -/
def Call.takes (call : Call) (owner : Option String) : Prop :=
  match call with
  | .claimNext .. | .reclaimExpiredLease .. => True
  | .claimById _ worker _ _ => owner ≠ some worker
  | _ => False

/-- The call hands an operation out whose lease has time left. -/
def TakesLive (db : OutboxDb) (r : Request) : Prop :=
  ∃ op ∈ db.operations.rows, Live op r.host.now ∧ r.call.takes op.leaseOwner ∧
    ∃ lease, grant r.call (r.execute db).1 = some lease ∧ lease.operationId = op.operationId

/-- A well-formed reclaim whose first overdue operation has time left: the
roundings of its expiry and of the clock meet. -/
def Premature (db : OutboxDb) (r : Request) : Prop :=
  ∃ remote worker ttl expiry ts, r.call = .reclaimExpiredLease remote worker ttl ∧
    NewLease worker ttl r.host.now expiry ∧ ts.time = r.host.now ∧
    ∃ op ∈ db.operations.rows, Live op r.host.now ∧ overdue remote ts op = true ∧
      ∀ p ∈ db.operations.rows, overdue remote ts p = true → op.sequence ≤ p.sequence

/-! ## Claims never take a live lease -/

/-- A change that takes a live lease is a reclaim. -/
theorem Change.takes_live {host : Host} {db : OutboxDb} {op op' : OutboxOperation} {ts : Timestamp}
    {call : Call} {answer : Answer} (h : Change host db op ts call answer op') (hop : Columns op)
    (hlive : Live op host.now) (htakes : call.takes op.leaseOwner) :
    ∃ remote worker ttl expiry, call = .reclaimExpiredLease remote worker ttl ∧
      NewLease worker ttl host.now expiry ∧ expiredLease db remote ts = some op := by
  obtain ⟨hleased, e, he, hlt⟩ := hlive
  cases h with
  | claimedNext hdue =>
    rcases (dueHead_some hdue).waiting with hstate | hstate <;> rw [hleased] at hstate <;>
      cases hstate
  | @claimedById worker ttl expiry _ _ _ hlease =>
    obtain ⟨owner, howner⟩ := Option.isSome_iff_exists.1 (hop.leased hleased).1
    have hsame : owner = worker := hlease owner e hleased howner he hlt
    exact absurd (howner.trans (congrArg some hsame)) htakes
  | reclaimed hexpired hnew => exact ⟨_, _, _, _, rfl, hnew, hexpired⟩
  | _ => cases htakes

/-! ## What a reclaim finds it takes -/

theorem formatTime_of_time {ts : Timestamp} {now : OffsetDateTime} (h : ts.time = now) :
    formatTime now = .ok ts := by
  subst h
  exact formatTime_of_formattable ts.formattable

theorem reclaimExpiredLease_takes {host : Host} {db : OutboxDb} {remote : Option String}
    {worker : String} {ttl : Duration} {expiry ts : Timestamp} {op : OutboxOperation}
    (hnew : NewLease worker ttl host.now expiry) (hts : ts.time = host.now)
    (hexpired : expiredLease db remote ts = some op) :
    wp (reclaimExpiredLease host remote worker ttl)
      (fun r _ => r.map .claim = .ok (Reply.claim (some (op.reclaim worker expiry ts)))) ⟨db, db⟩ := by
  have hop : db.operations.get? op.operationId = some op :=
    Table.get?_of_mem (expiredLease_some hexpired).1
  have hworker : validateActor worker = .ok () := by simp [validateActor, hnew.worker]
  have httl : validateTtl ttl = .ok () := if_neg (Int.not_le.2 hnew.positive)
  have hexpiry : okOr (host.now.checkedAdd ttl) outboxLeaseDurationOutOfRange = .ok expiry.time := by
    rw [hnew.expiry]
    rfl
  unfold reclaimExpiredLease
  rw [hworker, httl, formatTime_of_time hts, hexpiry]
  refine wp_lift_ok (wp_lift_ok (wp_lift_ok (wp_query ?_)))
  rw [hexpired]
  refine wp_lift_ok (wp_lift_eq (formatTime_of_formattable expiry.formattable) ?_)
  refine wp_update (op.reclaim worker expiry ts) hop rfl rfl fun ops hops hget => ?_
  refine wp_ite (fun hchanged => absurd rfl hchanged) fun _ => ?_
  exact wp_bind (wp_finish hget rfl)

theorem takesLive_iff {w : State} (h : system.Reachable w) (r : Request) :
    TakesLive w.db r ↔ Premature w.db r := by
  have hcoherent := reachable_coherent h
  constructor
  · rintro ⟨op, hop, hlive, htakes, lease, hgrant, hid⟩
    obtain ⟨_, _, op₀, ts, hts, hop₀, hchange⟩ := (r.outcome w.db).grant hgrant
    have hsame : op₀.operationId = op.operationId :=
      hchange.intent.operationId.symm.trans hid
    obtain rfl : op₀ = op := Table.eq_of_key_eq (Table.mem_of_get? hop₀) hop hsame
    obtain ⟨remote, worker, ttl, expiry, hcall, hnew, hexpired⟩ :=
      hchange.takes_live (hcoherent.columns op₀ hop) hlive htakes
    obtain ⟨_, hoverdue, hfirst⟩ := expiredLease_some hexpired
    exact ⟨remote, worker, ttl, expiry, ts, hcall, hnew, hts, op₀, hop, hlive, hoverdue, hfirst⟩
  · rintro ⟨remote, worker, ttl, expiry, ts, hcall, hnew, hts, op, hop, hlive, hoverdue, hfirst⟩
    have hexpired : expiredLease w.db remote ts = some op := by
      obtain ⟨found, hfound⟩ : ∃ found, expiredLease w.db remote ts = some found :=
        find?_orderBy_isSome hop hoverdue
      obtain ⟨hmem, hdue, hleast⟩ := expiredLease_some hfound
      have h1 := hfirst found hmem hdue
      have h2 := hleast op hop hoverdue
      rw [hfound, hcoherent.sequence found hmem op hop (by omega)]
    refine ⟨op, hop, hlive, by rw [hcall]; trivial, op.reclaim worker expiry ts, ?_, rfl⟩
    obtain ⟨host, call⟩ := r
    obtain rfl : call = _ := hcall
    have hanswer : (Request.execute ⟨host, .reclaimExpiredLease remote worker ttl⟩ w.db).1 =
        .ok (.claim (some (op.reclaim worker expiry ts))) :=
      run_of_wp (P := fun answer _ => answer = _)
        (wp_map (reclaimExpiredLease_takes hnew hts hexpired))
    rw [hanswer]
    rfl

/-- **Live leases**: in a run none of whose calls is premature no call takes a live
lease, and conversely; and in the state it leads to a call takes a live lease
just when it is premature. -/
theorem live_lease_kept {w w' : State} {ls : List Label} (h : system.Reachable w)
    (hrun : Run system w ls w') :
    ((∀ pre l post x, ls = pre ++ l :: post → Run system w pre x → ¬ Premature x.db l.call) ↔
      ∀ pre l post x, ls = pre ++ l :: post → Run system w pre x → ¬ TakesLive x.db l.call) ∧
    ∀ r, TakesLive w'.db r ↔ Premature w'.db r := by
  refine ⟨?_, takesLive_iff (h.run hrun)⟩
  constructor
  · intro hcalls pre l post x hls hpre htakes
    exact hcalls pre l post x hls hpre ((takesLive_iff (h.run hpre) l.call).1 htakes)
  · intro hcalls pre l post x hls hpre hpremature
    exact hcalls pre l post x hls hpre ((takesLive_iff (h.run hpre) l.call).2 hpremature)

/-- The sample's lease lasts to the end of the first millisecond, and both it and
this clock round to that. -/
def earlyReclaim : Request := ⟨sampleHost 600000 "", .reclaimExpiredLease (some "hub") "w" 1000000⟩

theorem earlyReclaim_takes : TakesLive (after sampleLease).db earlyReclaim := by
  have hrow : ((after sampleLease).db.operations.get? "outbox_1").map (fun op =>
    (op.state, op.leaseExpiresAt.map (·.time))) = some (.leased, some ⟨1000000, 0⟩) := by decide
  have hgrant : (grant earlyReclaim.call (answerTo sampleLease earlyReclaim)).map (·.operationId) =
    some "outbox_1" := by decide
  obtain ⟨op, hop, hcolumns⟩ := Option.map_eq_some_iff.1 hrow
  obtain ⟨lease, hlease, hid⟩ := Option.map_eq_some_iff.1 hgrant
  obtain ⟨e, he, htime⟩ := Option.map_eq_some_iff.1 (congrArg Prod.snd hcolumns)
  refine ⟨op, Table.mem_of_get? hop, ⟨congrArg Prod.fst hcolumns, e, he, ?_⟩, trivial, lease, hlease, ?_⟩
  · rw [htime]
    decide
  · rw [hid]
    exact (operationId_of_get? hop).symm

theorem live_lease_kept_sample : Premature (after sampleLease).db earlyReclaim :=
  ((live_lease_kept (reachable_after sampleLease (by decide)) (.nil _)).2 earlyReclaim).1
    earlyReclaim_takes

/-- A live lease can be taken over. -/
theorem live_lease_reclaimed : ¬ ∀ w, system.Reachable w → ∀ r, ¬ TakesLive w.db r := fun h =>
  h (after sampleLease) (reachable_after sampleLease (by decide)) earlyReclaim earlyReclaim_takes

end AgentPalace.Outbox
