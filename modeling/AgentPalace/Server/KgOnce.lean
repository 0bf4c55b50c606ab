import AgentPalace.Server.KgAttempts

/-!
# A keyed graph mutation happens once

Recovery applies the mutation again and infers from what it finds whether an
earlier attempt applied it. `kg_once` says when this inference is right, and
`readded_fact` is an add that is applied twice.
-/

namespace AgentPalace.Server

open AgentPalace.Graph (GraphDb activeFacts)
open Receipts (ReceiptRow columns)
open ChangeLog (ChangeEvent)

/-! ## One step of an attempt -/

section
variable {profile : Profile} {parser : DateParser} {req : KgRequest} {op : String}
  {key : OwnerScopedKey} {att : Attempt} {env : KgSurroundings} {w : KgWorld}

def KeepsAt (profile : Profile) (parser : DateParser) (req : KgRequest) (op : String)
    (key : OwnerScopedKey) (att : Attempt) (env : KgSurroundings) (w : KgWorld) (p : KgPhase) :
    Prop :=
  let r := p.next profile parser req (some (op, key)) att env w.palace
  KgInv req ((w.standing req key).after p r.1 (r.2.cell key) (r.2.logged req key)
    (p.effect w.palace r.2))

/-- What a begin answers about the receipt it finds. -/
theorem classify_cases (input : Receipts.NewReceipt) (row : ReceiptRow) :
    (∃ raw, Receipts.classify input row = .conflict raw) ∨
      row.status = .completed ∧ Receipts.classify input row = .replay row.toReceipt ∨
      row.status = .pending ∧ Receipts.classify input row = .recover row.toReceipt := by
  unfold Receipts.classify
  split
  · exact .inl ⟨_, rfl⟩
  · cases row.status with
    | completed => exact .inr (.inl ⟨rfl, rfl⟩)
    | pending => exact .inr (.inr ⟨rfl, rfl⟩)

theorem keeps_begun (h : KgInv req (w.standing req key))
    (hp : (w.standing req key).phase = some .beginReceipt)
    (hcareful : CarefulKgPhase req key w att .beginReceipt) {input : Receipts.NewReceipt}
    {answer : Except StorageError Receipts.ReceiptOutcome} {cell : Option ReceiptRow}
    (hbegun : Begun input (w.palace.receipts.receipts.get? (columns key)) answer cell) :
    KgInv req ((w.standing req key).after .beginReceipt (begunPhase parser req att op answer) cell
      (loggedEvents key req.eventType w.palace.changes) 0) := by
  cases hbegun with
  | refused => exact h.refuse hp _ rfl rfl
  | @found row hcell =>
    rcases classify_cases input row with ⟨raw, hanswer⟩ | ⟨hstatus, hanswer⟩ | ⟨hstatus, hanswer⟩
    · rw [hanswer]
      exact h.refuse hp _ rfl rfl
    · rw [hanswer]
      exact h.after_answer hp rfl rfl rfl rfl rfl ⟨row, hcell, hstatus⟩ fun _ hans => hans
    · rw [hanswer]
      exact h.recover hp hcell hstatus fun hadd hdetails =>
        hcareful hadd row hcell hstatus hdetails
  | fresh hcell => exact h.fresh hcell rfl rfl

theorem keeps_begin (h : KgInv req (w.standing req key))
    (hp : (w.standing req key).phase = some .beginReceipt)
    (hcareful : CarefulKgPhase req key w att .beginReceipt) :
    KeepsAt profile parser req op key att env w .beginReceipt := by
  unfold KeepsAt
  dsimp only [KgPhase.next, kgBeginStep]
  cases env.provenance with
  | error e => exact h.refuse hp _ rfl rfl
  | ok provenance =>
    have hbegun := begun env.now
      { operationKey := key, operationKind := req.receiptKind
        requestHash := profile.mutationRequestHash req.hashedFields
        targetId := req.targetId profile, provenance := some provenance } w.palace.receipts
    dsimp only [KgPalace.cell, KgPalace.logged, KgPhase.effect] at hbegun ⊢
    exact keeps_begun h hp hcareful hbegun

theorem keeps_pin (h : KgInv req (w.standing req key)) {ended : Date}
    (hp : (w.standing req key).phase = some (.pinEnded ended)) :
    KeepsAt profile parser req op key att env w (.pinEnded ended) := by
  have hannotated := annotated key (pinnedDetails ended) w.palace.receipts
  unfold KeepsAt
  dsimp only [KgPhase.next]
  revert hannotated
  generalize (Receipts.setReceiptDetails (.ownerScoped key) (pinnedDetails ended)).run
    w.palace.receipts = r
  obtain ⟨answer, db⟩ := r
  dsimp only [KgPalace.cell, KgPalace.logged]
  intro hannotated
  generalize hcell' : db.receipts.get? (columns key) = cell' at hannotated ⊢
  cases hannotated with
  | refused => exact h.refuse hp _ rfl rfl
  | done hcell hpending => exact h.pinned hp hcell hpending

theorem keeps_look (h : KgInv req (w.standing req key)) {p p' : KgPhase}
    (hp : (w.standing req key).phase = some p)
    (hquiet : p.quiet = false) (hnot : p.marking = false) (huses : p.uses = [])
    (hpins : p'.pins = none) (hsucceeded : p'.succeeded = false)
    (hat : AtPhase req (w.standing req key) p') :
    KgInv req ((w.standing req key).after p p' (w.standing req key).cell
      (w.standing req key).logged 0) :=
  h.after_move hp hnot huses hpins hsucceeded (.inr (h.pending hp hquiet)) hat

theorem keeps_find (h : KgInv req (w.standing req key)) {sid oid : String}
    (hp : (w.standing req key).phase = some (.findActive sid oid))
    (hcareful : CarefulKgPhase req key w att (.findActive sid oid)) :
    KeepsAt profile parser req op key att env w (.findActive sid oid) := by
  have hadd : AtPhase req (w.standing req key) (.findActive sid oid) := h.phase _ hp
  have hevent : ∀ factId, AtPhase req (w.standing req key) (afterAdd req att factId) :=
    fun _ => ⟨rfl, if_pos hadd⟩
  unfold KeepsAt
  dsimp only [KgPhase.next]
  rcases Graph.run_findActiveFact sid (Graph.canonicalizeLabel req.predicate) oid w.palace.graph
    with ⟨e, hrun⟩ | ⟨fact, _, hrun⟩ | ⟨hnone, hrun⟩
  · rw [hrun]
    exact h.refuse hp _ rfl rfl
  · rw [hrun]
    exact keeps_look h hp rfl rfl rfl rfl rfl (hevent _)
  · rw [hrun]
    exact keeps_look h hp rfl rfl rfl rfl rfl
      ⟨hadd, hcareful.resolve_right fun hsome => hsome hnone⟩

theorem keeps_nothing (op : String) (h : KgInv req (w.standing req key)) {ended : Date}
    {recovered : Bool}
    (hp : (w.standing req key).phase = some (.invalidate ended recovered)) :
    KgInv req ((w.standing req key).after (.invalidate ended recovered)
      (afterInvalidate req (some (op, key)) att ended recovered 0) (w.standing req key).cell
      (w.standing req key).logged 0) := by
  obtain ⟨hadd, _, hrecovered⟩ :
    AtPhase req (w.standing req key) (.invalidate ended recovered) := h.phase _ hp
  have hexpected := KgRequest.expected_invalidate hadd
  have hle : w.applied ≤ 1 := h.applied_le
  have hlogged : w.palace.logged req key ≤ req.expected w.applied := h.logged_le
  rw [hexpected] at hlogged
  unfold afterInvalidate
  dsimp only
  rw [if_neg (Nat.lt_irrefl 0)]
  cases recovered with
  | true =>
    refine h.gave hp rfl rfl hle (fun heffect => by cases heffect) ⟨rfl, ?_⟩
    exact (hexpected _).trans (hrecovered.1 rfl)
  | false =>
    refine h.gave hp rfl rfl hle (fun heffect => by cases heffect) ?_
    show w.palace.logged req key = req.expected w.applied
    rw [hexpected]
    have hne : w.applied ≠ 1 := fun happlied => by
      have hf := hrecovered.2 happlied
      cases hf
    omega

theorem keeps_invalidate (h : KgInv req (w.standing req key)) {ended : Date} {recovered : Bool}
    (hp : (w.standing req key).phase = some (.invalidate ended recovered))
    (hcareful : CarefulKgPhase req key w att (.invalidate ended recovered)) :
    KeepsAt profile parser req op key att env w (.invalidate ended recovered) := by
  obtain ⟨hadd, hfirst, _⟩ :
    AtPhase req (w.standing req key) (.invalidate ended recovered) := h.phase _ hp
  obtain ⟨hone, hnothing⟩ := hcareful
  have hrefuse : ∀ e, KgInv req ((w.standing req key).after (.invalidate ended recovered)
      (.refused e) (w.standing req key).cell (w.standing req key).logged 0) :=
    fun e => h.gave hp rfl rfl h.applied_le (fun heffect => by cases heffect) trivial
  have hinvalidated := invalidated req ended att.now (some att.provenance) w.palace.graph hone
  unfold KeepsAt
  dsimp only [KgPhase.next, KgPhase.effect]
  revert hinvalidated
  generalize (Graph.invalidateWithProvenance req.subject req.predicate req.object ended att.now
    (some att.provenance)).run w.palace.graph = r
  obtain ⟨answer, db⟩ := r
  dsimp only [KgPalace.cell, KgPalace.logged]
  intro hinvalidated
  cases hinvalidated with
  | failed =>
    rw [if_pos rfl]
    split
    · rename_i heq; cases heq
    · exact keeps_nothing op h hp
    · exact hrefuse _
  | nothing =>
    rw [if_pos rfl]
    exact keeps_nothing op h hp
  | @closed count _ hclosing hcount hrows =>
    rw [if_neg hrows]
    have happlied : w.applied = 0 := hnothing.resolve_right hclosing
    dsimp only [afterInvalidate]
    rw [if_pos hcount]
    refine h.gave hp rfl rfl ?_ (fun _ => ⟨count, rfl⟩) ⟨hadd, hfirst, ?_⟩
    · show w.applied + 1 ≤ 1
      omega
    · show w.applied + 1 = 1
      omega

theorem keeps_mark (h : KgInv req (w.standing req key)) {ended : Date} {count : Nat}
    (hp : (w.standing req key).phase = some (.markEffect ended count))
    (hcareful : CarefulKgPhase req key w att (.markEffect ended count)) :
    KeepsAt profile parser req op key att env w (.markEffect ended count) := by
  have hadd : req.isAdd = false := (h.phase _ hp : AtPhase req _ (.markEffect ended count)).1
  have hannotated := annotated key (appliedDetails ended) w.palace.receipts
  have hok : ((Receipts.setReceiptDetails (.ownerScoped key)
    (appliedDetails ended)).run w.palace.receipts).1 = .ok () := hcareful
  unfold KeepsAt
  dsimp only [KgPhase.next]
  revert hannotated hok
  generalize (Receipts.setReceiptDetails (.ownerScoped key) (appliedDetails ended)).run
    w.palace.receipts = r
  obtain ⟨answer, db⟩ := r
  dsimp only [KgPalace.cell, KgPalace.logged]
  intro hannotated hok
  subst hok
  generalize hcell' : db.receipts.get? (columns key) = cell' at hannotated ⊢
  cases hannotated with
  | done hcell hpending => exact h.mark hp hcell hpending rfl

theorem keeps_append (h : KgInv req (w.standing req key)) {event : ChangeEvent} {response : Json}
    (hp : (w.standing req key).phase = some (.appendEvent event response))
    (hcareful : CarefulKgPhase req key w att (.appendEvent event response)) :
    KeepsAt profile parser req op key att env w (.appendEvent event response) := by
  obtain ⟨htype, hexpected⟩ : AtPhase req (w.standing req key) (.appendEvent event response) :=
    h.phase _ hp
  have hle : loggedEvents key req.eventType w.palace.changes ≤ 1 := hexpected ▸ h.logged_le
  have hlegacy : NoLegacyEvent key req.eventType w.palace.changes := hcareful
  rw [← htype] at hle hlegacy
  have happend := logged_append hle hlegacy
  unfold KeepsAt
  dsimp only [KgPhase.next]
  revert happend
  generalize (ChangeLog.appendEventIfAbsentWithOperation event key.compositeKey).run
    w.palace.changes = r
  obtain ⟨answer, db⟩ := r
  dsimp only [KgPalace.cell, KgPalace.logged]
  intro happend
  rcases happend with ⟨e, rfl, rfl⟩ | ⟨⟨b, rfl⟩, hlogged⟩
  · exact h.refuse hp _ rfl rfl
  · rw [← htype, hlogged]
    exact h.appended hp

theorem keeps_complete (h : KgInv req (w.standing req key)) {response : Json}
    (hp : (w.standing req key).phase = some (.completeReceipt response)) :
    KeepsAt profile parser req op key att env w (.completeReceipt response) := by
  have hcompleted := completed env.now key response w.palace.receipts
  unfold KeepsAt
  dsimp only [KgPhase.next]
  revert hcompleted
  generalize (Receipts.completeReceipt env.now (.ownerScoped key) response).run
    w.palace.receipts = r
  obtain ⟨answer, db⟩ := r
  dsimp only [KgPalace.cell, KgPalace.logged]
  intro hcompleted
  generalize hcell' : db.receipts.get? (columns key) = cell' at hcompleted ⊢
  cases hcompleted with
  | refused => exact h.refuse hp _ rfl rfl
  | done hcell hstatus hdetails => exact h.complete hp hcell hstatus hdetails

/-- **Step lemma** of an attempt. -/
theorem keeps_advance (h : KgInv req (w.standing req key)) {p : KgPhase}
    (hp : (w.standing req key).phase = some p) (hcareful : CarefulKgPhase req key w att p) :
    KeepsAt profile parser req op key att env w p := by
  have hfinal : ∀ q : KgPhase, q.uses = [] → q.pins = none → q.marking = false →
      q.quiet = true → q.succeeded = true → (w.standing req key).answered = true →
      (∀ st : Standing, st.answered = true → AtPhase req st q) →
      (w.standing req key).phase = some q → KgInv req ((w.standing req key).after q q
        (w.standing req key).cell (w.standing req key).logged 0) :=
    fun q huses hpins hnot hquiet hsucceeded hans hat hq =>
      h.after_answer hq hnot huses hpins hsucceeded hquiet (h.answered hans) hat
  cases p with
  | beginReceipt => exact keeps_begin h hp hcareful
  | pinEnded ended => exact keeps_pin h hp
  | ensureSubject =>
    have hadd : AtPhase req (w.standing req key) .ensureSubject := h.phase _ hp
    unfold KeepsAt
    dsimp only [KgPhase.next]
    cases ((Graph.ensureEntity req.subject (inferEntityKind req.subject) att.now).run
      w.palace.graph).1 with
    | error e => exact h.refuse hp _ rfl rfl
    | ok sid =>
      exact keeps_look h hp rfl rfl rfl rfl rfl hadd
  | ensureObject sid =>
    have hadd : AtPhase req (w.standing req key) (.ensureObject sid) := h.phase _ hp
    unfold KeepsAt
    dsimp only [KgPhase.next]
    cases ((Graph.ensureEntity req.object (inferEntityKind req.object) att.now).run
      w.palace.graph).1 with
    | error e => exact h.refuse hp _ rfl rfl
    | ok oid =>
      exact keeps_look h hp rfl rfl rfl rfl rfl hadd
  | findActive sid oid => exact keeps_find h hp hcareful
  | upsertFact fact => exact h.upserted hp rfl
  | invalidate ended recovered => exact keeps_invalidate h hp hcareful
  | markEffect ended count => exact keeps_mark h hp hcareful
  | getReceipt ended count e =>
    have hfalse : AtPhase req (w.standing req key) (.getReceipt ended count e) := h.phase _ hp
    cases hfalse
  | appendEvent event response => exact keeps_append h hp hcareful
  | completeReceipt response => exact keeps_complete h hp
  | replayed response =>
    exact hfinal _ rfl rfl rfl rfl rfl (h.phase _ hp)
      (fun _ hans => hans) hp
  | answered response =>
    exact hfinal _ rfl rfl rfl rfl rfl (h.phase _ hp)
      (fun _ hans => hans) hp
  | refused e => exact h.refuse hp _ rfl rfl

/-! ## Runs -/

theorem kgInv_init (hinit : (attempts profile parser req op key).Init w) :
    KgInv req (w.standing req key) := by
  obtain ⟨hcell, hlogged, hrunning, hfirst, hused, happlied, hanswered⟩ := hinit
  have hphase : (w.standing req key).phase = none := by
    show Option.map _ w.running = none
    rw [hrunning]
    rfl
  have hnone : (w.standing req key).cell = none := hcell
  refine ⟨?_, fun d hd => ?_, ?_, fun _ => ⟨hused, happlied, fun p hp => ?_⟩, fun r hr => ?_,
    fun _ hone => ?_, fun r hr => ?_, fun hans => ?_, fun p hp => ?_⟩
  · show w.applied ≤ 1
    omega
  · have hd : d ∈ w.used := hd
    rw [hused] at hd
    cases hd
  · show w.palace.logged req key ≤ _
    rw [hlogged]
    exact Nat.zero_le _
  · rw [hphase] at hp; cases hp
  · rw [hnone] at hr; cases hr
  · have hone : w.applied = 1 := hone
    omega
  · rw [hnone] at hr; cases hr
  · rw [show w.answered = true from hans] at hanswered
    cases hanswered
  · rw [hphase] at hp; cases hp

/-- **Step lemma**: a careful step keeps the invariant. -/
theorem kgInv_step {w' : KgWorld} {e : KgEvent} (h : KgInv req (w.standing req key))
    (hstep : (attempts profile parser req op key).Step w e w') (hcareful : CarefulKg req key w e) :
    KgInv req (w'.standing req key) := by
  obtain ⟨hallowed, rfl⟩ := hstep
  cases e with
  | attempt att' =>
    refine h.move (some .beginReceipt) (fun q hq => ?_) (fun q hq => .inl ?_) fun q hq => ?_
    · obtain ⟨⟨att, p⟩, hrun, rfl⟩ := Option.map_eq_some_iff.1 hq
      have hfinal := hallowed att p hrun
      cases p with
      | markEffect ended count => cases hfinal
      | _ => rfl
    · cases hq; rfl
    · cases hq; trivial
  | advance env =>
    unfold KgWorld.exec
    cases hrun : w.running with
    | none => simpa only [hrun] using h
    | some running =>
      obtain ⟨att, p⟩ := running
      have hp : (w.standing req key).phase = some p := by
        show Option.map _ w.running = some p
        rw [hrun]
        rfl
      simp only
      exact keeps_advance h hp (hcareful att p hrun)
  | crash =>
    refine h.move none (fun q hq => ?_) (fun q hq => by cases hq) fun q hq => by cases hq
    obtain ⟨⟨att, p⟩, hrun, rfl⟩ := Option.map_eq_some_iff.1 hq
    cases p with
    | markEffect ended count => exact absurd hrun (hcareful att ended count)
    | _ => rfl
  | other palace =>
    have hsame : (w.exec profile parser req op key (.other palace)).standing req key =
        w.standing req key := by
      simp only [KgWorld.exec, KgWorld.standing, hallowed.1, hallowed.2]
    rw [hsame]
    exact h

/-- **A keyed graph mutation happens once** in every run whose steps are careful. -/
theorem kg_once (profile : Profile) (parser : DateParser) (req : KgRequest) (op : String)
    (key : OwnerScopedKey) :
    AnsweredOnce req key ((attempts profile parser req op key).restrict (CarefulKg req key)) := by
  intro w hreach hanswered
  have hinv : KgInv req (w.standing req key) := by
    refine hreach.invariant (I := fun w => KgInv req (w.standing req key))
      (fun a hinit => ?_) fun a e b _ hinv hstep => ?_
    · exact @kgInv_init profile parser req op key a hinit
    · exact kgInv_step hinv hstep.1 hstep.2
  obtain ⟨row, hrow, hstatus⟩ := hinv.answered hanswered
  exact ⟨hinv.applied_le, hinv.ended, (hinv.completed row hrow hstatus).1⟩

end

/-! ## An add that is applied twice -/

section
variable (profile : Profile) (parser : DateParser) (req : KgRequest) (op : String)
  (key : OwnerScopedKey)

def KgWorld.play (w : KgWorld) (events : List KgEvent) : KgWorld :=
  events.foldl (fun w e => w.exec profile parser req op key e) w

def KgEvent.ongoing : KgEvent → Bool
  | advance _ | crash => true
  | _ => false

theorem run_ongoing (w : KgWorld) (events : List KgEvent)
    (h : events.all KgEvent.ongoing = true) :
    (attempts profile parser req op key).Run w events
      (w.play profile parser req op key events) := by
  induction events generalizing w with
  | nil => exact .nil w
  | cons e events ih =>
    rw [List.all_cons, Bool.and_eq_true] at h
    refine .cons ⟨?_, rfl⟩ (ih (w.exec profile parser req op key e) h.2)
    cases e with
    | advance _ => trivial
    | crash => trivial
    | attempt _ => cases h.1
    | other _ => cases h.1

end

def scanDates (bound : Nat) (s : String) : Option Date :=
  (List.range bound).findSome? fun (n : Nat) =>
    if h : -4371587 ≤ (n : Int) - 4371587 ∧ (n : Int) - 4371587 ≤ 2932896 then
      if Date.text ⟨n - 4371587, h⟩ = s then some ⟨n - 4371587, h⟩ else none
    else none

theorem scanDates_text {bound : Nat} (d : Date) (hbound : (d.days + 4371587).toNat < bound) :
    scanDates bound d.text = some d := by
  have hsome : (scanDates bound d.text).isSome = true := by
    refine List.findSome?_isSome_iff.2 ⟨(d.days + 4371587).toNat, List.mem_range.2 hbound, ?_⟩
    obtain ⟨days, hrange⟩ := d
    have hday : ((days + 4371587).toNat : Int) - 4371587 = days := by omega
    simp only [hday, hrange, and_self, dite_true, if_true, Option.isSome_some]
  obtain ⟨d', hd'⟩ := Option.isSome_iff_exists.1 hsome
  obtain ⟨n, _, hn⟩ := List.exists_of_findSome?_eq_some hd'
  split at hn
  · split at hn
    · rename_i htext
      rw [hd', ← hn, Date.text_inj htext]
    · cases hn
  · cases hn

def scanParser : DateParser where
  parse := scanDates 7304484
  parse_text d := scanDates_text d (by have := d.range; omega)

def kgProfile : Profile := ⟨fun text => text, 0⟩

def kgTime (seconds : Int) : OffsetDateTime := ⟨(1775088000 + seconds) * 1000000000, 0⟩

def kgRecorded : RecordingTime := ⟨kgTime 0, rfl, by decide +kernel⟩

def sampleKgAdd : KgRequest :=
  { identity := { name := "alice" }, subject := "Anna", predicate := "works at", object := "Acme"
    mutation := .add none none }

def kgKey : OwnerScopedKey := ⟨none, "op-7", by decide +kernel, by decide +kernel⟩

def kgEnvelope : ProvenanceEnvelope :=
  { owner := .unknown, actor := none, recordedAt := kgRecorded
    origin := .localOrigin "server" (by decide +kernel), operationId := some kgKey
    sourceAuthor := none, sourceRefs := [] }

def kgProvenance : PersistedProvenance :=
  { creator := { action := .created, owner := .unknown, recordedAt := kgRecorded }
    authenticatedSubmitter := .unknown, sourceAuthor := none, sourceRefs := []
    storageOrigin := .localOrigin "server" (by decide +kernel), federatedOriginal := none
    history := [], deletedBy := none, invalidatedBy := none }

def kgClosing : PersistedProvenance :=
  { kgProvenance with
    invalidatedBy := some { action := .invalidated, owner := .unknown, recordedAt := kgRecorded } }

def kgAttempt (seconds : Int) : Attempt := ⟨kgTime seconds, ⟨20546, by decide⟩, kgProvenance⟩

def kgAdvance (seconds : Int) : KgEvent := .advance ⟨kgTime seconds, .ok kgEnvelope⟩

def quietKg : KgWorld :=
  ⟨⟨⟨Table.empty⟩, GraphDb.empty, ChangeLog.ChangeDb.empty⟩, none, none, [], 0, false⟩

def kgPlay (w : KgWorld) (events : List KgEvent) : KgWorld :=
  w.play kgProfile scanParser sampleKgAdd "op-7" kgKey events

/-- A step of an add that finds its fact active if it was applied, and no event in the log. -/
def KgWorld.adding (w : KgWorld) (e : KgEvent) : Option KgWorld :=
  match e with
  | .attempt _ => if w.running.isNone then some (kgPlay w [e]) else none
  | .advance _ | .crash =>
    if w.running.all fun r =>
        match r.2 with
        | .findActive subjectId objectId => w.applied == 0 || !(activeFacts w.palace.graph
            (subjectId, Graph.canonicalizeLabel sampleKgAdd.predicate, objectId)).isEmpty
        | .invalidate .. | .markEffect .. => false
        | .appendEvent .. => w.palace.changes.changes.rows.isEmpty
        | _ => true
    then some (kgPlay w [e]) else none
  | .other _ => none

theorem adding_step {w w' : KgWorld} {e : KgEvent} (h : w.adding e = some w') :
    ((attempts kgProfile scanParser sampleKgAdd "op-7" kgKey).restrict
      (CarefulKg sampleKgAdd kgKey)).Step w e w' := by
  cases e with
  | attempt att =>
    obtain ⟨hnone, hw⟩ := Option.ite_none_right_eq_some.1 h
    obtain rfl := Option.some.inj hw
    rw [Option.isNone_iff_eq_none] at hnone
    exact ⟨⟨fun att p hp => (by rw [hnone] at hp; cases hp), rfl⟩, trivial⟩
  | advance env =>
    obtain ⟨hcheck, hw⟩ := Option.ite_none_right_eq_some.1 h
    obtain rfl := Option.some.inj hw
    refine ⟨⟨trivial, rfl⟩, fun att p hp => ?_⟩
    rw [hp, Option.all_some] at hcheck
    cases p with
    | beginReceipt => exact fun hadd => nomatch hadd
    | findActive => simpa [CarefulKgPhase] using hcheck
    | invalidate => cases hcheck
    | markEffect => cases hcheck
    | appendEvent =>
      intro r hr
      rw [List.isEmpty_iff.1 hcheck] at hr
      cases hr
    | _ => trivial
  | crash =>
    obtain ⟨hcheck, hw⟩ := Option.ite_none_right_eq_some.1 h
    obtain rfl := Option.some.inj hw
    refine ⟨⟨trivial, rfl⟩, fun att ended count hp => ?_⟩
    rw [hp] at hcheck
    cases hcheck
  | other => cases h

/-- The server crashes after the fact is written, and the client sends the request again. -/
theorem kg_once_sample : ∃ w, ((attempts kgProfile scanParser sampleKgAdd "op-7" kgKey).restrict
    (CarefulKg sampleKgAdd kgKey)).Reachable w ∧ w.answered = true ∧ w.applied = 1 ∧
      Once sampleKgAdd kgKey w := by
  have hplay : ((.attempt (kgAttempt 0) :: List.replicate 5 (kgAdvance 0) ++
      .crash :: .attempt (kgAttempt 60) :: List.replicate 7 (kgAdvance 60)).foldlM KgWorld.adding
        quietKg).any (fun w => w.answered && decide (w.applied = 1)) = true := by
    decide +kernel
  obtain ⟨w, hw, hdone⟩ := (Option.any_eq_true _ _).1 hplay
  obtain ⟨hanswered, happlied⟩ := Bool.and_eq_true_iff.1 hdone
  have hreach : ((attempts kgProfile scanParser sampleKgAdd "op-7" kgKey).restrict
      (CarefulKg sampleKgAdd kgKey)).Reachable w :=
    ⟨quietKg, _, ⟨rfl, rfl, rfl, rfl, rfl, rfl, rfl⟩, .of_foldlM (fun _ _ _ => adding_step) hw⟩
  exact ⟨w, hreach, hanswered, of_decide_eq_true happlied,
    kg_once kgProfile scanParser sampleKgAdd "op-7" kgKey w hreach hanswered⟩

/-- The fact is written, and the server crashes before the event. -/
def crashedAdd : KgWorld :=
  kgPlay (quietKg.exec kgProfile scanParser sampleKgAdd "op-7" kgKey
    (.attempt (kgAttempt 0))) (List.replicate 5 (kgAdvance 0) ++ [.crash])

def closedPalace : KgPalace :=
  { crashedAdd.palace with
    graph := ((Graph.invalidateWithProvenance "Anna" "works at" "Acme" ⟨20546, by decide⟩
      (kgTime 30) (some kgClosing)).run crashedAdd.palace.graph).2 }
def retriedAdd : KgWorld :=
  let w : KgWorld := { crashedAdd with palace := closedPalace }
  kgPlay (w.exec kgProfile scanParser sampleKgAdd "op-7" kgKey (.attempt (kgAttempt 60)))
    (List.replicate 7 (kgAdvance 60))

theorem readded_fact :
    ¬ AnsweredOnce sampleKgAdd kgKey (attempts kgProfile scanParser sampleKgAdd "op-7" kgKey) := by
  intro honce
  have hinit : (attempts kgProfile scanParser sampleKgAdd "op-7" kgKey).Init quietKg :=
    ⟨rfl, rfl, rfl, rfl, rfl, rfl, rfl⟩
  have hstarted : (attempts kgProfile scanParser sampleKgAdd "op-7" kgKey).Step quietKg
      (.attempt (kgAttempt 0)) _ := ⟨fun att p hp => (by cases hp), rfl⟩
  have hcrashed := run_ongoing kgProfile scanParser sampleKgAdd "op-7" kgKey
    (quietKg.exec kgProfile scanParser sampleKgAdd "op-7" kgKey (.attempt (kgAttempt 0)))
    (List.replicate 5 (kgAdvance 0) ++ [.crash]) rfl
  have hclosed : (attempts kgProfile scanParser sampleKgAdd "op-7" kgKey).Step crashedAdd
      (.other closedPalace) { crashedAdd with palace := closedPalace } := ⟨⟨rfl, rfl⟩, rfl⟩
  have hretried : (attempts kgProfile scanParser sampleKgAdd "op-7" kgKey).Step
      { crashedAdd with palace := closedPalace } (.attempt (kgAttempt 60)) _ :=
    ⟨fun att p hp => (by cases hp), rfl⟩
  have hfinished := run_ongoing kgProfile scanParser sampleKgAdd "op-7" kgKey
    (KgWorld.exec kgProfile scanParser sampleKgAdd "op-7" kgKey
      { crashedAdd with palace := closedPalace } (.attempt (kgAttempt 60)))
    (List.replicate 7 (kgAdvance 60)) rfl
  have hrun := (Machine.Run.cons hstarted hcrashed).append
    (.cons hclosed (.cons hretried hfinished))
  have hanswered : retriedAdd.answered = true := by decide +kernel
  have happlied : retriedAdd.applied = 2 := by decide +kernel
  have hle := (honce retriedAdd ⟨quietKg, _, hinit, hrun⟩ hanswered).applied_le
  rw [happlied] at hle
  exact absurd hle (by decide)

end AgentPalace.Server
