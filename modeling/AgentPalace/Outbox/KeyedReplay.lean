import AgentPalace.Outbox.Sequence

/-!
# Replays of a compacted operation

A replay repeats the payload of its operation. When the operation is activated
the stored payload is compacted: the drawers of its local effect go, and a
fingerprint of the effect stands for them. `compact_eq_iff` says which payloads a
compacted one still tells apart, `recorded_run` which payload a row has in any
run, and `replay_accepted_iff` which replays are taken for the operation.
-/

namespace AgentPalace.Outbox

open Machine Tx

/-! ## What compaction keeps -/

def dropPrevious : Json → Json
  | .obj effect => .obj (Json.removeField "previous_ids" effect)
  | other => other

/-- A payload without the `previous_ids` of its local effect. -/
def ignorePrevious : Json → Json
  | .obj fields => .obj (fields.map fun f => if f.1 = "local" then (f.1, dropPrevious f.2) else f)
  | other => other

/-- The local effect whose text is fingerprinted. -/
def effectOf (payload : Json) : Json := ((ignorePrevious payload).get? "local").getD .null

/-- A payload with one local effect, which has its drawers and no fingerprint. -/
structure Sourced (payload : Json) (before source after : List (String × Json)) : Prop where
  eq : payload = .obj (before ++ ("local", .obj source) :: after)
  before : ∀ f ∈ before, f.1 ≠ "local"
  after : ∀ f ∈ after, f.1 ≠ "local"
  drawers : (source.lookup "drawers").isSome
  effectHash : source.lookup "effect_hash" = none

section
variable {blake3 : String → String} {payload : Json} {before source after : List (String × Json)}

theorem lookup_local (hbefore : ∀ f ∈ before, f.1 ≠ "local") (v : Json) :
    (before ++ ("local", v) :: after).lookup "local" = some v := by
  induction before with
  | nil => simp
  | cons f before ih =>
    have hne : ("local" == f.1) = false := by
      simpa using Ne.symm (hbefore f List.mem_cons_self)
    rw [List.cons_append, List.lookup_cons, hne]
    exact ih fun g hg => hbefore g (List.mem_cons_of_mem _ hg)

/-- A function on the local effect, as a function on the fields of a payload. -/
theorem map_local {g : Json → Json} (hbefore : ∀ f ∈ before, f.1 ≠ "local")
    (hafter : ∀ f ∈ after, f.1 ≠ "local") (v : Json) :
    (before ++ ("local", v) :: after).map (fun f => if f.1 = "local" then (f.1, g f.2) else f) =
      before ++ ("local", g v) :: after := by
  have hkeep : ∀ fields : List (String × Json), (∀ f ∈ fields, f.1 ≠ "local") →
      fields.map (fun f => if f.1 = "local" then (f.1, g f.2) else f) = fields := fun fields h =>
    (List.map_congr_left fun f hf => if_neg (h f hf)).trans (List.map_id _)
  rw [List.map_append, List.map_cons, hkeep before hbefore, hkeep after hafter, if_pos rfl]

theorem of_map_local {g : Json → Json} {fields : List (String × Json)} {v : Json}
    (hbefore : ∀ f ∈ before, f.1 ≠ "local") (hafter : ∀ f ∈ after, f.1 ≠ "local")
    (h : fields.map (fun f => if f.1 = "local" then (f.1, g f.2) else f) =
      before ++ ("local", v) :: after) :
    ∃ w, fields = before ++ ("local", w) :: after ∧ g w = v := by
  have hkeep : ∀ (fields rest : List (String × Json)), (∀ f ∈ rest, f.1 ≠ "local") →
      fields.map (fun f => if f.1 = "local" then (f.1, g f.2) else f) = rest → fields = rest := by
    intro fields rest hrest heq
    have hid : fields.map (fun f => if f.1 = "local" then (f.1, g f.2) else f) = fields.map id := by
      refine List.map_congr_left fun f hf => if_neg fun hlocal => ?_
      have hmem : (f.1, g f.2) ∈ rest := by
        rw [← heq]
        exact List.mem_map.2 ⟨f, hf, if_pos hlocal⟩
      exact hrest _ hmem hlocal
    rw [hid, List.map_id] at heq
    exact heq
  obtain ⟨front, back, rfl, hfront, hback⟩ := List.map_eq_append_iff.1 h
  obtain ⟨f, back, rfl, hf, hback⟩ := List.map_eq_cons_iff.1 hback
  obtain rfl := hkeep _ _ hbefore hfront
  obtain rfl := hkeep _ _ hafter hback
  by_cases hlocal : f.1 = "local"
  · rw [if_pos hlocal] at hf
    obtain ⟨hname, hv⟩ := Prod.mk.inj hf
    exact ⟨f.2, by rw [← hname], hv⟩
  · rw [if_neg hlocal] at hf
    rw [hf] at hlocal
    exact absurd rfl hlocal

/-- The fields of an effect with the fingerprint for its drawers. -/
def compacted (blake3 : String → String) (effect : List (String × Json)) : List (String × Json) :=
  Json.insertField "effect_hash" (.str (blake3 (Json.obj effect).encode))
    (Json.removeField "drawers" effect)

theorem compactLocal_drawers {effect : List (String × Json)}
    (h : (effect.lookup "drawers").isSome) :
    compactLocal blake3 (.obj effect) =
      .obj (compacted blake3 (Json.removeField "previous_ids" effect)) := by
  rw [compactLocal, if_pos h]
  rfl

theorem compactLocal_plain {effect : List (String × Json)} (h : effect.lookup "drawers" = none) :
    compactLocal blake3 (.obj effect) = .obj effect := by
  rw [compactLocal, h]
  rfl

theorem lookup_compacted_drawers (effect : List (String × Json)) :
    (compacted blake3 effect).lookup "drawers" = none := by
  unfold compacted
  rw [lookup_insertField_of_ne (by decide), lookup_removeField]

theorem lookup_compacted_effectHash (effect : List (String × Json)) :
    (compacted blake3 effect).lookup "effect_hash" =
      some (.str (blake3 (Json.obj effect).encode)) :=
  lookup_insertField_self ..

namespace Sourced

theorem compact_eq (h : Sourced payload before source after) :
    compactIngestionPayload blake3 payload = .obj (before ++
      ("local", .obj (compacted blake3 (Json.removeField "previous_ids" source))) :: after) := by
  rw [h.eq, compactIngestionPayload, map_local h.before h.after, compactLocal_drawers h.drawers]

theorem ignore_eq (h : Sourced payload before source after) : ignorePrevious payload =
    .obj (before ++ ("local", .obj (Json.removeField "previous_ids" source)) :: after) := by
  rw [h.eq, ignorePrevious, map_local h.before h.after, dropPrevious]

theorem effectOf_eq (h : Sourced payload before source after) :
    effectOf payload = .obj (Json.removeField "previous_ids" source) := by
  rw [effectOf, h.ignore_eq, Json.get?, lookup_local h.before, Option.getD_some]

theorem compact_effectHash (h : Sourced payload before source after) :
    (((compactIngestionPayload blake3 payload).get? "local").bind
      (·.get? "effect_hash")).isSome := by
  rw [h.compact_eq, Json.get?, lookup_local h.before, Option.bind_some, Json.get?,
    lookup_compacted_effectHash]
  rfl

theorem plain_effectHash (h : Sourced payload before source after) :
    ¬ ((payload.get? "local").bind (·.get? "effect_hash")).isSome := by
  rw [h.eq, Json.get?, lookup_local h.before, Option.bind_some, Json.get?, h.effectHash]
  exact Bool.false_ne_true

/-- A second compaction changes nothing. -/
theorem compact_compact (h : Sourced payload before source after) :
    compactIngestionPayload blake3 (compactIngestionPayload blake3 payload) =
      compactIngestionPayload blake3 payload := by
  rw [h.compact_eq, compactIngestionPayload, map_local h.before h.after,
    compactLocal_plain (lookup_compacted_drawers _)]

/-- **What a fingerprint tells apart**: a payload compacts to the same as one with drawers if it
is the same up to `previous_ids`, or the compacted payload itself. -/
theorem compact_eq_iff (h : Sourced payload before source after)
    (hblake : Function.Injective blake3) {other : Json}
    (hround : (effectOf other).encode = (effectOf payload).encode →
      effectOf other = effectOf payload) :
    compactIngestionPayload blake3 other = compactIngestionPayload blake3 payload ↔
      ignorePrevious other = ignorePrevious payload ∨
        other = compactIngestionPayload blake3 payload := by
  constructor
  · intro heq
    rw [h.compact_eq] at heq ⊢
    cases other with
    | obj fields =>
      obtain ⟨w, rfl, hw⟩ := of_map_local h.before h.after (Json.obj.inj heq)
      by_cases hsame : compactLocal blake3 w = w
      · exact .inr (by rw [← hsame, hw])
      · cases w with
        | obj effect =>
          have hdrawers : (effect.lookup "drawers").isSome := by
            by_contra hnone
            exact hsame (compactLocal_plain (Option.not_isSome_iff_eq_none.1 hnone))
          rw [compactLocal_drawers hdrawers] at hw
          have hother : effectOf (.obj (before ++ ("local", .obj effect) :: after)) =
              .obj (Json.removeField "previous_ids" effect) := by
            rw [effectOf, ignorePrevious, map_local h.before h.after, Json.get?,
              lookup_local h.before]
            rfl
          have hprint := congrArg (List.lookup "effect_hash") (Json.obj.inj hw)
          rw [lookup_compacted_effectHash, lookup_compacted_effectHash] at hprint
          have htext := hblake (Json.str.inj (Option.some.inj hprint))
          rw [← hother, ← h.effectOf_eq] at htext
          have heffect := hround htext
          rw [hother, h.effectOf_eq] at heffect
          refine .inl ?_
          rw [h.ignore_eq, ignorePrevious, map_local h.before h.after, dropPrevious, heffect]
        | _ => exact absurd rfl hsame
    | _ => cases heq
  · rintro (heq | rfl)
    · rw [h.ignore_eq] at heq
      cases other with
      | obj fields =>
        obtain ⟨w, rfl, hw⟩ := of_map_local h.before h.after (Json.obj.inj heq)
        cases w with
        | obj effect =>
          have hfields : Json.removeField "previous_ids" effect =
              Json.removeField "previous_ids" source := Json.obj.inj hw
          have hdrawers : (effect.lookup "drawers").isSome := by
            rw [← lookup_removeField_of_ne (show "drawers" ≠ "previous_ids" by decide), hfields,
              lookup_removeField_of_ne (by decide)]
            exact h.drawers
          rw [h.compact_eq, compactIngestionPayload, map_local h.before h.after,
            compactLocal_drawers hdrawers, hfields]
        | _ => cases hw
      | _ => cases heq
    · exact h.compact_compact

end Sourced

end

/-! ## What a replay is answered -/

def reusedKey (input : NewOutboxOperation) : StorageError :=
  .invariant
    s!"outbox idempotency key `{input.idempotencyKey}` was reused with a different mutation"

/-- The checks of an input before its key is looked for. -/
structure ValidInput (input : NewOutboxOperation) : Prop where
  idempotencyKey : validateKey input.idempotencyKey = .ok ()
  createdBy : boundedIdentifier input.createdBy "created_by" = .ok ()
  mutationKind : boundedIdentifier input.mutationKind "mutation_kind" = .ok ()
  entityId : nonemptyIdentifier input.entityId "entity_id" = .ok ()
  destinationRemote : boundedIdentifier input.destinationRemote "destination_remote" = .ok ()
  orderingKey : nonemptyIdentifier input.orderingKey "ordering_key" = .ok ()
  payload : boundedJson input.payload = .ok ()
  maxAttempts : ¬ input.maxAttempts < 1

def Repeats (host : Host) (op : OutboxOperation) (input : NewOutboxOperation) : Prop :=
  op.mutationKind = input.mutationKind ∧ op.entityId = input.entityId ∧
    op.destinationRemote = input.destinationRemote ∧ op.orderingKey = input.orderingKey ∧
    op.maxAttempts = input.maxAttempts ∧ op.payload = replayPayload host op input

/-- There is a place behind all operations, and a time, for a cancelled one. -/
def Revivable (host : Host) (db : OutboxDb) (op : OutboxOperation) : Prop :=
  op.state = .cancelled → ∃ sequence entitySequence ts,
    nextAfter db.sequences = .ok sequence ∧
    nextAfter (db.entitySequences op.entityId op.destinationRemote) = .ok entitySequence ∧
    formatTime host.now = .ok ts

section
variable {host : Host} {db : OutboxDb} {op : OutboxOperation} {input : NewOutboxOperation}

theorem run_enqueue_invalid (h : ¬ ValidInput input) :
    ∃ e, ((enqueue host input).run db).1 = .error e := by
  have hQ : Rejects (fun _ => True)
      (fun (r : Except StorageError OutboxOperation) _ => ∃ e, r = .error e) db :=
    fun e s _ _ => ⟨e, rfl⟩
  refine run_of_wp (P := fun r _ => ∃ e, r = .error e) ?_
  unfold enqueue
  refine wp_lift hQ fun _ hkey => wp_lift hQ fun _ hcreated => wp_lift hQ fun _ hkind => ?_
  refine wp_lift hQ fun _ hentity => wp_lift hQ fun _ hremote => wp_lift hQ fun _ hordering => ?_
  refine wp_lift hQ fun _ hpayload => wp_guard hQ fun hattempts => ?_
  exact absurd ⟨hkey, hcreated, hkind, hentity, hremote, hordering, hpayload, hattempts⟩ h

theorem run_enqueue_found {Q : Except StorageError OutboxOperation → Prop}
    (hvalid : ValidInput input)
    (hfind : db.operations.rows.find? (fun r => r.createdBy = input.createdBy ∧
      r.idempotencyKey = input.idempotencyKey) = some op)
    (hreused : ¬ Repeats host op input → Q (.error (reusedKey input)))
    (hfound : Repeats host op input → Revivable host db op →
      ∀ op' : OutboxOperation, op'.operationId = op.operationId → Q (.ok op'))
    (hfull : Repeats host op input → ¬ Revivable host db op → ∀ e, Q (.error e)) :
    Q ((enqueue host input).run db).1 := by
  have hop : db.operations.get? op.operationId = some op :=
    Table.get?_of_mem (List.mem_of_find?_eq_some hfind)
  refine run_of_wp (P := fun r _ => Q r) ?_
  unfold enqueue
  rw [hvalid.idempotencyKey, hvalid.createdBy, hvalid.mutationKind, hvalid.entityId,
    hvalid.destinationRemote, hvalid.orderingKey, hvalid.payload]
  refine wp_lift_ok (wp_lift_ok (wp_lift_ok (wp_lift_ok (wp_lift_ok (wp_lift_ok ?_)))))
  refine wp_lift_ok (wp_ite (fun hless => absurd hless hvalid.maxAttempts) fun _ => ?_)
  unfold findOperationByKey
  refine wp_query ?_
  rw [hfind]
  refine wp_ite (fun hdiffers => ?_) fun hagrees => ?_
  · refine wp_throw (hreused fun ⟨hkind, hentity, hremote, hordering, hattempts, hpayload⟩ => ?_)
    rcases hdiffers with hne | hne | hne | hne | hne | hne
    · exact hne hkind
    · exact hne hentity
    · exact hne hremote
    · exact hne hordering
    · exact hne hattempts
    · exact hne hpayload
  simp only [not_or, not_not] at hagrees
  have hrepeats : Repeats host op input := hagrees
  refine wp_ite (fun hstate => ?_) fun hstate =>
    wp_commit (wp_pure (hfound hrepeats (fun hcancelled => absurd hcancelled hstate) op rfl))
  rw [← hrepeats.2.1, ← hrepeats.2.2.1]
  by_cases hrevivable : Revivable host db op
  · obtain ⟨sequence, entitySequence, ts, hsequence, hentity, hts⟩ := hrevivable hstate
    refine wp_query ?_
    refine wp_lift_eq (congrArg sql hsequence) (wp_query ?_)
    refine wp_lift_eq (congrArg sql hentity) (wp_lift_eq hts ?_)
    refine wp_update (op.revive sequence entitySequence ts) hop (by simpa using hstate) rfl
      fun ops hops hget => wp_finish hget ?_
    exact hfound hrepeats (fun _ => ⟨sequence, entitySequence, ts, hsequence, hentity, hts⟩) _ rfl
  · have hQ : Rejects (fun _ => True) (fun r (_ : Session OutboxDb) => Q r) db :=
      fun e _ _ _ => hfull hrepeats hrevivable e
    refine wp_query (wp_lift hQ fun sequence hsequence => ?_)
    refine wp_query (wp_lift hQ fun entitySequence hentity => ?_)
    refine wp_lift hQ fun ts hts => ?_
    have hplace : Revivable host db op :=
      fun _ => ⟨sequence, entitySequence, ts, sql_ok.1 hsequence, sql_ok.1 hentity, hts⟩
    exact absurd hplace hrevivable

theorem enqueue_found_iff
    (hfind : db.operations.rows.find? (fun r => r.createdBy = input.createdBy ∧
      r.idempotencyKey = input.idempotencyKey) = some op) :
    ((∃ op', ((enqueue host input).run db).1 = .ok op' ∧ op'.operationId = op.operationId) ↔
      ValidInput input ∧ Repeats host op input ∧ Revivable host db op) ∧
    (ValidInput input → ¬ Repeats host op input →
      ((enqueue host input).run db).1 = .error (reusedKey input)) := by
  by_cases hvalid : ValidInput input
  · refine run_enqueue_found (Q := fun r =>
      ((∃ op', r = .ok op' ∧ op'.operationId = op.operationId) ↔
      ValidInput input ∧ Repeats host op input ∧ Revivable host db op) ∧
      (ValidInput input → ¬ Repeats host op input → r = .error (reusedKey input))) hvalid hfind
      (fun hnot => ?_) (fun hrepeats hrevivable op' hid => ?_) fun hrepeats hnot e => ?_
    · exact ⟨⟨fun ⟨_, h, _⟩ => (by cases h), fun h => absurd h.2.1 hnot⟩, fun _ _ => rfl⟩
    · exact ⟨⟨fun _ => ⟨hvalid, hrepeats, hrevivable⟩, fun _ => ⟨op', rfl, hid⟩⟩,
        fun _ h => absurd hrepeats h⟩
    · exact ⟨⟨fun ⟨_, h, _⟩ => (by cases h), fun h => absurd h.2.2 hnot⟩,
        fun _ h => absurd hrepeats h⟩
  · obtain ⟨e, he⟩ := @run_enqueue_invalid host db input hvalid
    refine ⟨⟨fun ⟨_, h, _⟩ => ?_, fun h => absurd h.1 hvalid⟩, fun h => absurd h hvalid⟩
    rw [he] at h
    cases h

end

/-! ## The row of an operation in a run -/

/-- The local mutation behind the operation is confirmed. -/
def OutboxState.activated : OutboxState → Bool
  | .staged | .cancelled => false
  | _ => true

/-- The row of an operation that was staged with `input`. -/
structure Records (blake3 : String → String) (input : NewOutboxOperation) (op : OutboxOperation) :
    Prop where
  createdBy : op.createdBy = input.createdBy
  idempotencyKey : op.idempotencyKey = input.idempotencyKey
  mutationKind : op.mutationKind = input.mutationKind
  entityId : op.entityId = input.entityId
  destinationRemote : op.destinationRemote = input.destinationRemote
  orderingKey : op.orderingKey = input.orderingKey
  maxAttempts : op.maxAttempts = input.maxAttempts
  payload : op.payload =
    if op.state.activated ∧ input.mutationKind = "ingest_file" then
      compactIngestionPayload blake3 input.payload
    else input.payload

section
variable {blake3 : String → String} {input : NewOutboxOperation}

theorem Records.keep {op op' : OutboxOperation} (h : Records blake3 input op)
    (hintent : SameIntent op' op) (hattempts : op'.maxAttempts = op.maxAttempts)
    (hpayload : op'.payload = op.payload) (hstate : op'.state.activated = op.state.activated) :
    Records blake3 input op' where
  createdBy := hintent.createdBy.trans h.createdBy
  idempotencyKey := hintent.idempotencyKey.trans h.idempotencyKey
  mutationKind := hintent.mutationKind.trans h.mutationKind
  entityId := hintent.entityId.trans h.entityId
  destinationRemote := hintent.destinationRemote.trans h.destinationRemote
  orderingKey := hintent.orderingKey.trans h.orderingKey
  maxAttempts := hattempts.trans h.maxAttempts
  payload := by rw [hpayload, hstate]; exact h.payload

theorem Change.records {host : Host} {db : OutboxDb} {op op' : OutboxOperation} {ts : Timestamp}
    {call : Call} {answer : Answer} (h : Change host db op ts call answer op')
    (hblake : host.blake3 = blake3) (hop : Records blake3 input op) : Records blake3 input op' := by
  have hintent := h.intent
  have hmoved {s : OutboxState} (hs : op.state = s) {b : Bool} (hb : s.activated = b) :
      b = op.state.activated := by rw [hs, hb]
  cases h with
  | revived hstate => exact hop.keep hintent rfl rfl (hmoved hstate rfl)
  | activated hstate =>
    have hstaged : op.payload = input.payload := by
      have hpayload := hop.payload
      rw [hstate] at hpayload
      simpa [OutboxState.activated] using hpayload
    refine ⟨hop.createdBy, hop.idempotencyKey, hop.mutationKind, hop.entityId,
      hop.destinationRemote, hop.orderingKey, hop.maxAttempts, ?_⟩
    show op.committedPayload host = if OutboxState.pending.activated ∧ _ then _ else _
    unfold OutboxOperation.committedPayload
    rw [hop.mutationKind, hblake, hstaged]
    simp only [OutboxState.activated, true_and]
  | cancelled hstate => exact hop.keep hintent rfl rfl (hmoved hstate rfl)
  | claimedNext hdue =>
    refine hop.keep hintent rfl rfl ?_
    rcases (dueHead_some hdue).waiting with hstate | hstate
    · exact hmoved hstate rfl
    · exact hmoved hstate rfl
  | claimedById hstaged hactive =>
    refine hop.keep hintent rfl rfl ?_
    show true = op.state.activated
    cases hstate : op.state with
    | staged => exact absurd hstate hstaged
    | cancelled =>
      rw [hstate] at hactive
      cases hactive
    | _ => rfl
  | reclaimed hexpired =>
    exact hop.keep hintent rfl rfl rfl
  | renewed hflight => exact hop.keep hintent rfl rfl rfl
  | acknowledged hflight => exact hop.keep hintent rfl rfl (hmoved hflight.leased rfl)
  | retried hflight => exact hop.keep hintent rfl rfl (hmoved hflight.leased rfl)
  | failed hflight => exact hop.keep hintent rfl rfl (hmoved hflight.leased rfl)

/-- The operation of an id was staged with `input`. -/
def Recorded (blake3 : String → String) (input : NewOutboxOperation) (id : String) (w : State) :
    Prop :=
  ∃ op, w.db.operations.get? id = some op ∧ Records blake3 input op

theorem step_keeps_request {w w' : State} {l : Label} (hs : system.Step w l w')
    (hblake : l.call.host.blake3 = blake3) {id : String} (h : Recorded blake3 input id w) :
    Recorded blake3 input id w' := by
  obtain ⟨op, hop, hrecords⟩ := h
  rcases step_row hs hop with hkept | ⟨row, ts, hrow, hchange⟩
  · exact ⟨op, hkept, hrecords⟩
  · exact ⟨row, hrow, hchange.records hblake hrecords⟩

/-- **A row keeps its request** in every run, compacted from its activation on. -/
theorem recorded_run {w w' : State} {ls : List Label} (hreach : system.Reachable w)
    (hrun : Run system w ls w') (hblake : ∀ l ∈ ls, l.call.host.blake3 = blake3) {id : String}
    (h : Recorded blake3 input id w) : Recorded blake3 input id w' :=
  hrun.stable (fun _ l _ _ hl hx hs => step_keeps_request hs (hblake l hl) hx) hreach h

theorem Outcome.recorded {host : Host} {db db' : OutboxDb} {op : OutboxOperation}
    (h : Outcome host db (.enqueue input) (.ok (.operation op)) db')
    (hnew : db.operations.get? op.operationId = none) :
    db'.operations.get? op.operationId = some op ∧ Records blake3 input op := by
  cases h with
  | replayed _ hop =>
    rw [hop] at hnew
    cases hnew
  | changed hts hop hchange hops =>
    cases hchange with
    | revived =>
      have hcontra := hop.symm.trans hnew
      cases hcontra
  | @enqueued fresh row ts sequence entitySequence _ hcall _ _ _ _ hrow hops hfresh =>
    obtain rfl := Call.enqueue.inj hcall
    refine ⟨(Table.get?_append hops hfresh _).trans (if_pos rfl), ?_⟩
    rw [hrow]
    exact ⟨rfl, rfl, rfl, rfl, rfl, rfl, rfl, rfl⟩

end

/-! ## Which replays are accepted -/

/-- What a replay must repeat: the columns, and the payload; once that is compacted, up to
`previous_ids`, or as it is stored. -/
structure SameRequest (blake3 : String → String) (activated : Bool)
    (original input : NewOutboxOperation) : Prop where
  mutationKind : input.mutationKind = original.mutationKind
  entityId : input.entityId = original.entityId
  destinationRemote : input.destinationRemote = original.destinationRemote
  orderingKey : input.orderingKey = original.orderingKey
  maxAttempts : input.maxAttempts = original.maxAttempts
  payload : if activated then
      ignorePrevious input.payload = ignorePrevious original.payload ∨
        input.payload = compactIngestionPayload blake3 original.payload
    else input.payload = original.payload

section
variable {blake3 : String → String} {original input : NewOutboxOperation}
  {before source after : List (String × Json)} {host : Host}

theorem repeats_iff {op : OutboxOperation} (hrecords : Records blake3 original op)
    (hkind : original.mutationKind = "ingest_file")
    (hsourced : Sourced original.payload before source after) (hhost : host.blake3 = blake3)
    (hblake : Function.Injective blake3)
    (hround : (effectOf input.payload).encode = (effectOf original.payload).encode →
      effectOf input.payload = effectOf original.payload) :
    Repeats host op input ↔ SameRequest blake3 op.state.activated original input := by
  have hpayload : op.payload = replayPayload host op input ↔
      if op.state.activated then
        ignorePrevious input.payload = ignorePrevious original.payload ∨
          input.payload = compactIngestionPayload blake3 original.payload
      else input.payload = original.payload := by
    unfold replayPayload
    rw [hrecords.payload, hrecords.mutationKind, hhost]
    by_cases hactivated : op.state.activated = true
    · rw [if_pos ⟨hactivated, hkind⟩, if_pos ⟨hkind, hsourced.compact_effectHash⟩,
        if_pos hactivated, eq_comm, hsourced.compact_eq_iff hblake hround]
    · rw [if_neg fun h => hactivated h.1, if_neg fun h => hsourced.plain_effectHash h.2,
        if_neg hactivated, eq_comm]
  unfold Repeats
  rw [hpayload, hrecords.mutationKind, hrecords.entityId, hrecords.destinationRemote,
    hrecords.orderingKey, hrecords.maxAttempts]
  constructor
  · rintro ⟨h₁, h₂, h₃, h₄, h₅, h₆⟩
    exact ⟨h₁.symm, h₂.symm, h₃.symm, h₄.symm, h₅.symm, h₆⟩
  · rintro ⟨h₁, h₂, h₃, h₄, h₅, h₆⟩
    exact ⟨h₁.symm, h₂.symm, h₃.symm, h₄.symm, h₅.symm, h₆⟩

/-- **Keyed replay of an ingested file**: however its operation was changed since, a valid input
with its key is answered with it if and only if it is the same request, and refused as another
mutation otherwise. -/
theorem replay_accepted_iff {w₀ w₁ w₂ : State} {l : Label} {ls : List Label}
    {created : OutboxOperation} (hreach : system.Reachable w₀) (hstep : system.Step w₀ l w₁)
    (hcall : l.call.call = .enqueue original) (hanswer : l.answer = .ok (.operation created))
    (hnew : w₀.db.operations.get? created.operationId = none) (hrun : Run system w₁ ls w₂)
    (hkind : original.mutationKind = "ingest_file")
    (hsourced : Sourced original.payload before source after)
    (hkey : input.createdBy = original.createdBy ∧ input.idempotencyKey = original.idempotencyKey)
    (hls : ∀ m ∈ ls, m.call.host.blake3 = blake3) (hhost : host.blake3 = blake3)
    (hblake : Function.Injective blake3)
    (hround : (effectOf input.payload).encode = (effectOf original.payload).encode →
      effectOf input.payload = effectOf original.payload) :
    ∃ op, w₂.db.operations.get? created.operationId = some op ∧
      let answer := ((Request.mk host (.enqueue input)).execute w₂.db).1
      ((∃ op', answer = .ok (.operation op') ∧ op'.operationId = created.operationId) ↔
        ValidInput input ∧ SameRequest blake3 op.state.activated original input ∧
          Revivable host w₂.db op) ∧
      (ValidInput input → ¬ SameRequest blake3 op.state.activated original input →
        answer = .error (reusedKey input)) := by
  have houtcome := step_outcome hstep
  rw [hcall, hanswer] at houtcome
  obtain ⟨hcreated, hrecords₀⟩ := @Outcome.recorded blake3 _ _ _ _ _ houtcome hnew
  obtain ⟨op, hop, hrecords⟩ :=
    recorded_run (hreach.step hstep) hrun hls ⟨created, hcreated, hrecords₀⟩
  have hreach₂ := (hreach.step hstep).run hrun
  have hmem := Table.mem_of_get? hop
  have hfind : w₂.db.operations.rows.find? (fun r => r.createdBy = input.createdBy ∧
      r.idempotencyKey = input.idempotencyKey) = some op := by
    have hrow : op.createdBy = input.createdBy ∧ op.idempotencyKey = input.idempotencyKey :=
      ⟨hrecords.createdBy.trans hkey.1.symm, hrecords.idempotencyKey.trans hkey.2.symm⟩
    cases hfound : w₂.db.operations.rows.find? (fun r => r.createdBy = input.createdBy ∧
        r.idempotencyKey = input.idempotencyKey) with
    | none => exact absurd (by simpa using hrow) (List.find?_eq_none.1 hfound op hmem)
    | some other =>
      have hother := List.find?_some hfound
      simp only [decide_eq_true_eq] at hother
      exact congrArg some (reachable_keys hreach₂ other (List.mem_of_find?_eq_some hfound) op hmem
        (hother.1.trans hrow.1.symm) (hother.2.trans hrow.2.symm))
  have hid : op.operationId = created.operationId := operationId_of_get? hop
  obtain ⟨hiff, hreused⟩ := @enqueue_found_iff host _ op input hfind
  have hexecute : ((Request.mk host (.enqueue input)).execute w₂.db).1 =
      ((enqueue host input).run w₂.db).1.map Reply.operation := by
    simp only [Request.execute, Request.body, run_map]
  refine ⟨op, hop, ?_⟩
  rw [← repeats_iff hrecords hkind hsourced hhost hblake hround, hexecute, ← hiff, hid]
  cases hrun₂ : ((enqueue host input).run w₂.db).1 with
  | error e =>
    rw [hrun₂] at hreused
    refine ⟨⟨fun ⟨_, h, _⟩ => (by cases h), fun ⟨_, h, _⟩ => (by cases h)⟩, fun hvalid hnot => ?_⟩
    rw [hreused hvalid hnot]
    rfl
  | ok op' =>
    rw [hrun₂] at hreused
    refine ⟨⟨fun ⟨found, h, hfound⟩ => ?_, fun ⟨found, h, hfound⟩ => ?_⟩, fun hvalid hnot => ?_⟩
    · cases h
      exact ⟨_, rfl, hfound⟩
    · cases h
      exact ⟨_, rfl, hfound⟩
    · cases hreused hvalid hnot

end

/-! ## Replays of one file -/

def fileInput (effect : List (String × Json)) : NewOutboxOperation :=
  { sampleInput "k1" with
    mutationKind := "ingest_file", payload := .obj [("local", .obj effect)] }

def sampleEffect : List (String × Json) :=
  [("drawers", .arr [.str "text"]), ("previous_ids", .arr []), ("remove", .bool false)]

/-- The same effect, found again after a part of it was done. -/
def laterEffect : List (String × Json) :=
  [("drawers", .arr [.str "text"]), ("previous_ids", .arr [.str "d1"]), ("remove", .bool false)]

def staged (effect : List (String × Json)) : Request :=
  ⟨sampleHost 0 "1", .enqueue (fileInput effect)⟩

def sampleActivation : Request := ⟨sampleHost 1 "", .activate "outbox_1" 0⟩

def replayed (effect : List (String × Json)) : Request :=
  ⟨sampleHost 2 "2", .enqueue (fileInput effect)⟩

theorem fileInput_valid : ValidInput (fileInput laterEffect) := by
  constructor <;> first | rfl | decide

theorem sourced_sample : Sourced (fileInput sampleEffect).payload [] sampleEffect [] where
  eq := rfl
  before := nofun
  after := nofun
  drawers := rfl
  effectHash := rfl

/-- The effect is repeated after the activation with other `previous_ids`. -/
theorem replay_accepted_sample : ∃ op,
    answerTo [staged sampleEffect, sampleActivation] (replayed laterEffect) =
      .ok (.operation op) ∧ op.operationId = "outbox_1" := by
  have hstaged := step_after [] (staged sampleEffect) (by decide)
  have hactivated := step_after [staged sampleEffect] sampleActivation (by decide)
  have hanswer : ∃ created, answerTo [] (staged sampleEffect) = .ok (.operation created) ∧
      created.operationId = "outbox_1" := ⟨_, by rfl, rfl⟩
  obtain ⟨created, hanswer, hid⟩ := hanswer
  obtain ⟨op, hop, hiff, _⟩ := @replay_accepted_iff id (fileInput sampleEffect)
    (fileInput laterEffect) [] sampleEffect [] (sampleHost 2 "2") _ _ _ _ _ created
    (reachable_after [] (by decide)) hstaged rfl hanswer rfl (.single hactivated) rfl sourced_sample
    ⟨rfl, rfl⟩ (by simp [labelOf, sampleActivation, sampleHost]) rfl Function.injective_id
    (fun _ => by decide)
  rw [hid] at hop hiff
  have hstate : op.state = .pending := by
    have hrow : ((after [staged sampleEffect, sampleActivation]).db.operations.get? "outbox_1").map
        (·.state) = some .pending := by rfl
    have hmap := congrArg (Option.map (·.state)) hop
    exact Option.some.inj (hmap.symm.trans hrow)
  refine hiff.2 ⟨fileInput_valid, ?_, fun hcancelled => ?_⟩
  · rw [hstate]
    exact ⟨rfl, rfl, rfl, rfl, rfl, .inl (by decide)⟩
  · rw [hstate] at hcancelled
    cases hcancelled

/-- A replay is refused because its operation has no drawers and other `previous_ids`, and
because its operation has drawers and a fingerprint; a compacted replay is accepted. -/
theorem replay_not_same :
    (ignorePrevious (fileInput [("previous_ids", .arr [])]).payload =
        ignorePrevious (fileInput [("previous_ids", .null)]).payload ∧
      answerTo [staged [("previous_ids", .null)], sampleActivation]
          (replayed [("previous_ids", .arr [])]) =
        .error (reusedKey (fileInput []))) ∧
    answerTo [staged [("drawers", .null), ("effect_hash", .null)]]
        (replayed [("drawers", .null), ("effect_hash", .null)]) =
      .error (reusedKey (fileInput [])) ∧
    ∃ effect op, ignorePrevious (fileInput effect).payload ≠
        ignorePrevious (fileInput sampleEffect).payload ∧
      answerTo [staged sampleEffect, sampleActivation] (replayed effect) = .ok (.operation op) := by
  exact ⟨⟨by decide, by rfl⟩, by rfl,
    compacted id (Json.removeField "previous_ids" sampleEffect), _, by decide, by rfl⟩

end AgentPalace.Outbox
