import AgentPalace.Server.KgSteps

/-!
# The attempts of a keyed graph mutation

The attempts of one keyed request run one after the other; a crash ends the
attempt that runs, and other operations change the graph at any time. `Once` is
what a success answer promises: the graph was changed at most once, with the end
date of the first attempt, and the change log has the event.

The invariant is about a `Standing`: the receipt, the events of the key, the
phase and the marks. A step of another operation keeps the standing.
-/

namespace AgentPalace.Server

open AgentPalace.Graph (GraphDb KnowledgeGraphFact activeFacts)
open Receipts (ReceiptRow columns)
open ChangeLog (ChangeEvent)

structure KgWorld where
  palace : KgPalace
  running : Option (Attempt × KgPhase)
  /-- The end date that the attempt which made the receipt resolved. -/
  first : Option Date
  /-- The end dates that were given to the graph. -/
  used : List Date
  /-- How often an attempt has changed the facts. -/
  applied : Nat
  answered : Bool

inductive KgEvent where
  | attempt (att : Attempt)
  | advance (env : KgSurroundings)
  | crash
  | other (palace : KgPalace)

namespace KgPhase

def final : KgPhase → Bool
  | replayed _ | answered _ | refused _ => true
  | _ => false

def succeeded : KgPhase → Bool
  | replayed _ | answered _ => true
  | _ => false

def pins : KgPhase → Option Date
  | pinEnded ended => some ended
  | _ => none

/-- The end date that the next step gives to the graph. -/
def uses : KgPhase → List Date
  | invalidate ended _ => [ended]
  | _ => []

def marking : KgPhase → Bool
  | markEffect _ _ => true
  | _ => false

/-- How often the step from `s` to `s'` changes the facts. -/
def effect (s s' : KgPalace) : KgPhase → Nat
  | upsertFact _ => 1
  | invalidate _ _ => if s'.graph.facts.rows = s.graph.facts.rows then 0 else 1
  | _ => 0

end KgPhase

section
variable (profile : Profile) (parser : DateParser) (req : KgRequest) (op : String)
  (key : OwnerScopedKey)

def KgWorld.exec (w : KgWorld) : KgEvent → KgWorld
  | .attempt att => { w with running := some (att, .beginReceipt) }
  | .advance env =>
    match w.running with
    | none => w
    | some (att, p) =>
      let r := p.next profile parser req (some (op, key)) att env w.palace
      { palace := r.2
        running := some (att, r.1)
        first := r.1.pins <|> w.first
        used := p.uses ++ w.used
        applied := w.applied + p.effect w.palace r.2
        answered := w.answered || r.1.succeeded }
  | .crash => { w with running := none }
  | .other palace => { w with palace }

def KgPalace.cell (s : KgPalace) : Option ReceiptRow := s.receipts.receipts.get? (columns key)

/-- The events of the request that carry the key. -/
def KgPalace.logged (s : KgPalace) : Nat := loggedEvents key req.eventType s.changes

/-- Attempts follow each other; another operation has another key. -/
def KgEvent.Allowed (w : KgWorld) : KgEvent → Prop
  | attempt _ => ∀ att p, w.running = some (att, p) → p.final = true
  | other palace => palace.cell key = w.palace.cell key ∧
      palace.logged req key = w.palace.logged req key
  | _ => True

/-- The attempts of a request among other operations on the graph. -/
def attempts : Machine KgWorld KgEvent where
  Init w := w.palace.cell key = none ∧ w.palace.logged req key = 0 ∧ w.running = none ∧
    w.first = none ∧ w.used = [] ∧ w.applied = 0 ∧ w.answered = false
  Step w e w' := e.Allowed req key w ∧ w' = w.exec profile parser req op key e

end

/-! ## The claim -/

namespace KgRequest

def isAdd (req : KgRequest) : Bool :=
  match req.mutation with
  | .add .. => true
  | .invalidate .. => false

/-- The events of a request that has changed the facts so often. -/
def expected (req : KgRequest) (applied : Nat) : Nat := if req.isAdd then 1 else applied

variable {req : KgRequest}

theorem expected_add (h : req.isAdd = true) (n : Nat) : req.expected n = 1 := if_pos h

theorem expected_invalidate (h : req.isAdd = false) (n : Nat) : req.expected n = n :=
  if_neg (by rw [h]; exact Bool.false_ne_true)

end KgRequest

structure Once (req : KgRequest) (key : OwnerScopedKey) (w : KgWorld) : Prop where
  applied_le : w.applied ≤ 1
  ended : ∀ d ∈ w.used, w.first = some d
  logged : w.palace.logged req key = req.expected w.applied

def AnsweredOnce (req : KgRequest) (key : OwnerScopedKey) (M : Machine KgWorld KgEvent) : Prop :=
  ∀ w, M.Reachable w → w.answered = true → Once req key w

/-- A step whose inference is right. An add that was applied finds its fact active. An invalidation
that was applied finds nothing to close; it closes all of its facts or none; it is recovered with
its end date pinned, or on the same day, and after its effect neither a crash nor an error keeps it
from writing the marker. The raw operation id has no event. -/
def CarefulKgPhase (req : KgRequest) (key : OwnerScopedKey) (w : KgWorld) (att : Attempt) :
    KgPhase → Prop
  | .beginReceipt => req.isAdd = false → ∀ row, w.palace.cell key = some row →
      row.status = .pending → row.details = none → w.first = some (req.resolvedEnd att)
  | .findActive subjectId objectId => w.applied = 0 ∨
      activeFacts w.palace.graph (subjectId, Graph.canonicalizeLabel req.predicate, objectId) ≠ []
  | .invalidate ended _ => ClosesTogether (some att.provenance) (toClose w.palace.graph req ended) ∧
      (w.applied = 0 ∨ toClose w.palace.graph req ended = [])
  | .markEffect ended _ => ((Receipts.setReceiptDetails (.ownerScoped key)
      (appliedDetails ended)).run w.palace.receipts).1 = .ok ()
  | .appendEvent _ _ => NoLegacyEvent key req.eventType w.palace.changes
  | _ => True

def CarefulKg (req : KgRequest) (key : OwnerScopedKey) (w : KgWorld) : KgEvent → Prop
  | .advance _ => ∀ att p, w.running = some (att, p) → CarefulKgPhase req key w att p
  | .crash => ∀ att ended count, w.running ≠ some (att, .markEffect ended count)
  | _ => True

/-! ## The invariant -/

structure Standing where
  cell : Option ReceiptRow
  logged : Nat
  phase : Option KgPhase
  first : Option Date
  used : List Date
  applied : Nat
  answered : Bool

def KgWorld.standing (req : KgRequest) (key : OwnerScopedKey) (w : KgWorld) : Standing :=
  { cell := w.palace.cell key, logged := w.palace.logged req key, phase := w.running.map (·.2)
    first := w.first, used := w.used, applied := w.applied, answered := w.answered }

def AtPhase (req : KgRequest) (st : Standing) : KgPhase → Prop
  | .ensureSubject | .ensureObject _ | .findActive _ _ => req.isAdd = true
  | .upsertFact _ => req.isAdd = true ∧ st.applied = 0
  | .pinEnded ended => req.isAdd = false ∧ st.first = some ended ∧ st.applied = 0
  | .invalidate ended recovered => req.isAdd = false ∧ st.first = some ended ∧
      (recovered = true ↔ st.applied = 1)
  | .markEffect ended _ => req.isAdd = false ∧ st.first = some ended ∧ st.applied = 1
  | .getReceipt _ _ _ => False
  | .appendEvent event _ => event.eventType = req.eventType ∧ req.expected st.applied = 1
  | .completeReceipt _ => st.logged = req.expected st.applied
  | .replayed _ | .answered _ => st.answered = true
  | .beginReceipt | .refused _ => True

namespace KgPhase

def quiet (p : KgPhase) : Bool :=
  match p with
  | beginReceipt => true
  | p => p.final

end KgPhase

structure KgInv (req : KgRequest) (st : Standing) : Prop where
  applied_le : st.applied ≤ 1
  ended : ∀ d ∈ st.used, st.first = some d
  logged_le : st.logged ≤ req.expected st.applied
  /-- Nothing has happened before the receipt. -/
  untouched : st.cell = none → st.used = [] ∧ st.applied = 0 ∧
    ∀ p, st.phase = some p → p.quiet = true
  details : ∀ row, st.cell = some row → ∀ d, row.details = some d →
    ∃ e, st.first = some e ∧ (d = pinnedDetails e ∨ d = appliedDetails e ∧ st.applied = 1)
  /-- An effect is marked, or its marker is the next write. -/
  marked : req.isAdd = false → st.applied = 1 →
    (∃ ended count, st.phase = some (.markEffect ended count)) ∨
      ∃ row e, st.cell = some row ∧ row.details = some (appliedDetails e)
  completed : ∀ row, st.cell = some row → row.status = .completed →
    st.logged = req.expected st.applied ∧ ∀ p, st.phase = some p → p.quiet = true
  answered : st.answered = true → ∃ row, st.cell = some row ∧ row.status = .completed
  phase : ∀ p, st.phase = some p → AtPhase req st p

section
variable {req : KgRequest} {st : Standing} {p p' : KgPhase}

theorem not_completed {cell : Option ReceiptRow} {row r : ReceiptRow} (hcell : cell = some row)
    (hpending : row.status = .pending) (hr : cell = some r) (hstatus : r.status = .completed) :
    False := by
  rw [hcell] at hr
  cases hr
  rw [hpending] at hstatus
  cases hstatus

/-- An attempt that is neither before its receipt nor ended has a pending one. -/
theorem KgInv.pending (h : KgInv req st) (hp : st.phase = some p) (hquiet : p.quiet = false) :
    ∃ row, st.cell = some row ∧ row.status = .pending := by
  cases hcell : st.cell with
  | none =>
    rw [(h.untouched hcell).2.2 p hp] at hquiet
    cases hquiet
  | some row =>
    cases hstatus : row.status with
    | pending => exact ⟨row, rfl, hstatus⟩
    | completed =>
      rw [(h.completed row hcell hstatus).2 p hp] at hquiet
      cases hquiet

theorem KgInv.marked_of (h : KgInv req st) (hadd : req.isAdd = false) (happlied : st.applied = 1)
    (hphase : ∀ p, st.phase = some p → p.marking = false) :
    ∃ row e, st.cell = some row ∧ row.details = some (appliedDetails e) := by
  rcases h.marked hadd happlied with ⟨ended, count, hp⟩ | hdetails
  · have hmarking := hphase _ hp
    cases hmarking
  · exact hdetails

theorem KgInv.move (h : KgInv req st) (o : Option KgPhase)
    (hphase : ∀ p, st.phase = some p → p.marking = false)
    (hopen : ∀ p', o = some p' →
      p'.quiet = true ∨ ∃ row, st.cell = some row ∧ row.status = .pending)
    (hat : ∀ p', o = some p' → AtPhase req st p') : KgInv req { st with phase := o } where
  applied_le := h.applied_le
  ended := h.ended
  logged_le := h.logged_le
  untouched hcell := by
    refine ⟨(h.untouched hcell).1, (h.untouched hcell).2.1, fun p' hp' => ?_⟩
    rcases hopen p' hp' with hquiet | ⟨row, hrow, _⟩
    · exact hquiet
    · rw [hcell] at hrow; cases hrow
  details := h.details
  marked hadd happlied := .inr (h.marked_of hadd happlied hphase)
  completed row hcell hstatus := by
    refine ⟨(h.completed row hcell hstatus).1, fun p' hp' => ?_⟩
    rcases hopen p' hp' with hquiet | ⟨row', hrow', hpending⟩
    · exact hquiet
    · rw [hcell] at hrow'
      cases hrow'
      rw [hstatus] at hpending
      cases hpending
  answered := h.answered
  phase := hat

/-- The standing after a step from `p` to `p'`. -/
def Standing.after (st : Standing) (p p' : KgPhase) (cell : Option ReceiptRow)
    (logged effect : Nat) : Standing :=
  { cell, logged, phase := some p', first := p'.pins <|> st.first, used := p.uses ++ st.used
    applied := st.applied + effect, answered := st.answered || p'.succeeded }

theorem KgInv.after_move (h : KgInv req st) (hp : st.phase = some p)
    (hnot : p.marking = false) (huses : p.uses = [])
    (hpins : p'.pins = none) (hsucceeded : p'.succeeded = false)
    (hopen : p'.quiet = true ∨ ∃ row, st.cell = some row ∧ row.status = .pending)
    (hat : AtPhase req st p') : KgInv req (st.after p p' st.cell st.logged 0) := by
  have hafter : st.after p p' st.cell st.logged 0 = { st with phase := some p' } := by
    simp only [Standing.after, huses, hpins, hsucceeded, List.nil_append, Nat.add_zero,
      Bool.or_false]
    rfl
  rw [hafter]
  refine h.move _ (fun q hq => ?_) (fun q hq => ?_) fun q hq => ?_
  · rw [hp] at hq
    exact Option.some.inj hq ▸ hnot
  · exact Option.some.inj hq ▸ hopen
  · exact Option.some.inj hq ▸ hat

theorem KgInv.refuse (h : KgInv req st) (hp : st.phase = some p) (e : KgError)
    (hnot : p.marking = false) (huses : p.uses = []) :
    KgInv req (st.after p (.refused e) st.cell st.logged 0) :=
  h.after_move hp hnot huses rfl rfl (.inl rfl) trivial

end

/-! ## One step -/

section
variable {req : KgRequest} {st : Standing} {p p' : KgPhase} {parser : DateParser} {att : Attempt}

theorem KgInv.after_answer (h : KgInv req st) (hp : st.phase = some p)
    (hnot : p.marking = false) (huses : p.uses = [])
    (hpins : p'.pins = none) (hsucceeded : p'.succeeded = true)
    (hquiet : p'.quiet = true) (hdone : ∃ row, st.cell = some row ∧ row.status = .completed)
    (hat : ∀ st : Standing, st.answered = true → AtPhase req st p') :
    KgInv req (st.after p p' st.cell st.logged 0) := by
  have hafter : st.after p p' st.cell st.logged 0 =
      { st with phase := some p', answered := true } := by
    simp only [Standing.after, huses, hpins, hsucceeded, List.nil_append, Nat.add_zero,
      Bool.or_true]
    rfl
  rw [hafter]
  have hmove := h.move none (fun q hq => ?_) (fun q hq => ?_) fun q hq => ?_
  · exact ⟨hmove.applied_le, hmove.ended, hmove.logged_le,
      fun hcell => ⟨(hmove.untouched hcell).1, (hmove.untouched hcell).2.1,
        fun q hq => Option.some.inj hq ▸ hquiet⟩,
      hmove.details,
      fun hadd happlied => .inr (hmove.marked_of hadd happlied fun _ hq => (by cases hq)),
      fun row hcell hstatus => ⟨(hmove.completed row hcell hstatus).1,
        fun q hq => Option.some.inj hq ▸ hquiet⟩,
      fun _ => hdone, fun q hq => Option.some.inj hq ▸ hat _ rfl⟩
  · rw [hp] at hq
    exact Option.some.inj hq ▸ hnot
  · cases hq
  · cases hq

theorem parseDate_text (parser : DateParser) (d : Date) : parseDate parser d.text = .ok d := by
  rw [parseDate, parser.parse_text]

theorem effectApplied_pinned (d : Date) : effectApplied (pinnedDetails d) = false := rfl

theorem effectApplied_applied (d : Date) : effectApplied (appliedDetails d) = true := rfl

theorem pinned_ne_applied (d e : Date) : pinnedDetails d ≠ appliedDetails e := by
  intro h
  have := congrArg effectApplied h
  rw [effectApplied_pinned, effectApplied_applied] at this
  cases this

theorem KgInv.not_applied (h : KgInv req st) (hp : st.phase = some .beginReceipt)
    (hadd : req.isAdd = false) {row : ReceiptRow} (hcell : st.cell = some row)
    (hdetails : ∀ e, row.details ≠ some (appliedDetails e)) : st.applied ≠ 1 := by
  intro happlied
  obtain ⟨row', e, hcell', hdetails'⟩ := h.marked_of hadd happlied fun q hq => by
    rw [hp] at hq; cases hq; rfl
  rw [hcell] at hcell'
  cases hcell'
  exact hdetails e hdetails'

theorem KgInv.recover (h : KgInv req st) (hp : st.phase = some .beginReceipt) {row : ReceiptRow}
    (hcell : st.cell = some row) (hpending : row.status = .pending)
    (hcareful : req.isAdd = false → row.details = none → st.first = some (req.resolvedEnd att)) :
    KgInv req (st.after .beginReceipt (recoverPhase parser req att row.details) st.cell st.logged
      0) := by
  have hopen : ∀ q : KgPhase, q.quiet = true ∨ ∃ row, st.cell = some row ∧ row.status = .pending :=
    fun _ => .inr ⟨row, hcell, hpending⟩
  unfold recoverPhase
  have hkind : req.isAdd = (match req.mutation with | .add .. => true | .invalidate .. => false) :=
    rfl
  split
  · rename_i hmutation
    refine h.after_move hp rfl rfl rfl rfl (hopen _) ?_
    show req.isAdd = true
    rw [hkind, hmutation]
  · rename_i hmutation hdetails
    have hadd : req.isAdd = false := by rw [hkind, hmutation]
    refine h.after_move hp rfl rfl rfl rfl (hopen _) ⟨hadd, hcareful hadd hdetails, ?_⟩
    have hne := h.not_applied hp hadd hcell fun e he => by rw [hdetails] at he; cases he
    exact ⟨fun hf => (by cases hf), fun happlied => absurd happlied hne⟩
  · rename_i details hmutation hdetails
    have hadd : req.isAdd = false := by rw [hkind, hmutation]
    obtain ⟨e, hfirst, rfl | ⟨rfl, happlied⟩⟩ := h.details row hcell details hdetails
    · have hpinned : strField (pinnedDetails e) "ended" = some e.text := rfl
      rw [hpinned]
      dsimp only
      rw [parseDate_text]
      refine h.after_move hp rfl rfl rfl rfl (hopen _) ⟨hadd, hfirst, ?_⟩
      have hne := h.not_applied hp hadd hcell fun e' he => by
        rw [hdetails] at he
        exact pinned_ne_applied e e' (Option.some.inj he)
      exact ⟨fun hf => (by rw [effectApplied_pinned] at hf; cases hf),
        fun happlied => absurd happlied hne⟩
    · have hpinned : strField (appliedDetails e) "ended" = some e.text := rfl
      rw [hpinned]
      dsimp only
      rw [parseDate_text]
      exact h.after_move hp rfl rfl rfl rfl (hopen _)
        ⟨hadd, hfirst, fun _ => happlied, fun _ => effectApplied_applied e⟩

theorem KgInv.fresh (h : KgInv req st) (hcell : st.cell = none)
    {row : ReceiptRow} (hpending : row.status = .pending) (hdetails : row.details = none) :
    KgInv req (st.after .beginReceipt (freshPhase req att) (some row) st.logged 0) := by
  obtain ⟨hused, happlied, _⟩ := h.untouched hcell
  have hanswered : st.answered ≠ true := by
    intro hanswered
    obtain ⟨row', hrow', _⟩ := h.answered hanswered
    rw [hcell] at hrow'
    cases hrow'
  have hsucceeded : (freshPhase req att).succeeded = false := by
    unfold freshPhase
    split <;> rfl
  have hat : AtPhase req (st.after .beginReceipt (freshPhase req att) (some row) st.logged 0)
      (freshPhase req att) := by
    unfold freshPhase
    split
    · rename_i hmutation
      show req.isAdd = true
      simp only [KgRequest.isAdd, hmutation]
    · rename_i hmutation
      refine ⟨?_, rfl, happlied⟩
      simp only [KgRequest.isAdd, hmutation]
  refine ⟨h.applied_le, fun d hd => ?_, h.logged_le, fun hnone => ?_, fun r hr d hd => ?_,
    fun _ hone => ?_, fun r hr hstatus => ?_, fun hans => ?_, fun q hq => ?_⟩
  · have hd : d ∈ st.used := hd
    rw [hused] at hd
    cases hd
  · cases hnone
  · cases hr
    rw [hdetails] at hd
    cases hd
  · have hone : st.applied = 1 := hone
    omega
  · cases hr
    rw [hpending] at hstatus
    cases hstatus
  · have hans : (st.answered || (freshPhase req att).succeeded) = true := hans
    rw [hsucceeded, Bool.or_false] at hans
    exact absurd hans hanswered
  · cases hq
    exact hat

theorem KgInv.pinned (h : KgInv req st) {ended : Date} (hp : st.phase = some (.pinEnded ended))
    {row : ReceiptRow} (hcell : st.cell = some row) (hpending : row.status = .pending) :
    KgInv req (st.after (.pinEnded ended) (.invalidate ended false)
      (some (row.annotate (pinnedDetails ended))) st.logged 0) := by
  obtain ⟨hadd, hfirst, happlied⟩ : AtPhase req st (.pinEnded ended) := h.phase _ hp
  have hrow : row.annotate (pinnedDetails ended) =
      { row with details := some (pinnedDetails ended) } := if_pos hpending
  have hanswered : (st.answered || KgPhase.succeeded (.invalidate ended false)) = st.answered :=
    Bool.or_false _
  refine ⟨h.applied_le, h.ended, h.logged_le, fun hnone => ?_, fun r hr d hd => ?_,
    fun _ hone => ?_, fun r hr hstatus => ?_, fun hans => ?_, fun q hq => ?_⟩
  · cases hnone
  · cases hr
    rw [hrow] at hd
    exact ⟨ended, hfirst, .inl (Option.some.inj hd).symm⟩
  · have hone : st.applied = 1 := hone
    omega
  · cases hr
    rw [hrow, hpending] at hstatus
    cases hstatus
  · obtain ⟨r, hr, hstatus⟩ := h.answered (hanswered ▸ hans)
    exact (not_completed hcell hpending hr hstatus).elim
  · cases hq
    refine ⟨hadd, hfirst, fun hf => (by cases hf), fun hone => ?_⟩
    have hone : st.applied = 1 := hone
    omega

theorem KgInv.upserted (h : KgInv req st) {fact : KnowledgeGraphFact}
    (hp : st.phase = some (.upsertFact fact)) {event : ChangeEvent} {response : Json}
    (htype : event.eventType = req.eventType) :
    KgInv req (st.after (.upsertFact fact) (.appendEvent event response) st.cell st.logged 1) := by
  obtain ⟨hadd, happlied⟩ : AtPhase req st (.upsertFact fact) := h.phase _ hp
  obtain ⟨row, hcell, hpending⟩ := h.pending hp rfl
  have hexpected := KgRequest.expected_add hadd
  refine ⟨?_, h.ended, ?_, fun hnone => ?_, fun r hr d hd => ?_, fun hinv => ?_,
    fun r hr hstatus => ?_, fun hans => ?_, fun q hq => ?_⟩
  · show st.applied + 1 ≤ 1
    omega
  · have hle := h.logged_le
    rw [hexpected] at hle
    exact (hexpected (st.applied + 1)).symm ▸ hle
  · rw [show st.cell = none from hnone] at hcell
    cases hcell
  · obtain ⟨e, hfirst, hd' | ⟨_, hone⟩⟩ := h.details r hr d hd
    · exact ⟨e, hfirst, .inl hd'⟩
    · omega
  · rw [hadd] at hinv
    cases hinv
  · exact (not_completed hcell hpending hr hstatus).elim
  · have hans : (st.answered || false) = true := hans
    rw [Bool.or_false] at hans
    exact h.answered hans
  · cases hq
    exact ⟨htype, hexpected _⟩

theorem KgInv.gave (h : KgInv req st) {ended : Date} {recovered : Bool}
    (hp : st.phase = some (.invalidate ended recovered)) (hpins : p'.pins = none)
    (hsucceeded : p'.succeeded = false) {effect : Nat} (hle : st.applied + effect ≤ 1)
    (hmark : effect = 1 → ∃ count, p' = .markEffect ended count)
    (hat : AtPhase req { st with applied := st.applied + effect } p') :
    KgInv req (st.after (.invalidate ended recovered) p' st.cell st.logged effect) := by
  obtain ⟨hadd, hfirst, _⟩ : AtPhase req st (.invalidate ended recovered) := h.phase _ hp
  obtain ⟨row, hcell, hpending⟩ := h.pending hp rfl
  have hexpected := KgRequest.expected_invalidate hadd
  have hafter : st.after (.invalidate ended recovered) p' st.cell st.logged effect =
      { st with phase := some p', used := ended :: st.used, applied := st.applied + effect } := by
    simp only [Standing.after, hpins, hsucceeded, Bool.or_false]
    rfl
  rw [hafter]
  refine ⟨hle, fun d hd => ?_, ?_, fun hnone => ?_, fun r hr d hd => ?_, fun _ hone => ?_,
    fun r hr hstatus => ?_, h.answered, fun q hq => ?_⟩
  · rcases List.mem_cons.1 hd with rfl | hd
    · exact hfirst
    · exact h.ended d hd
  · have hlogged := h.logged_le
    rw [hexpected] at hlogged
    rw [hexpected]
    exact hlogged.trans (Nat.le_add_right _ _)
  · rw [show st.cell = none from hnone] at hcell
    cases hcell
  · obtain ⟨e, hfirst, hd' | ⟨hd', hone⟩⟩ := h.details r hr d hd
    · exact ⟨e, hfirst, .inl hd'⟩
    · refine ⟨e, hfirst, .inr ⟨hd', ?_⟩⟩
      show st.applied + effect = 1
      omega
  · have hone : st.applied + effect = 1 := hone
    by_cases heffect : effect = 1
    · obtain ⟨count, rfl⟩ := hmark heffect
      exact .inl ⟨ended, count, rfl⟩
    · refine .inr (h.marked_of hadd (by omega) fun q hq => ?_)
      rw [hp] at hq
      cases hq
      rfl
  · exact (not_completed hcell hpending hr hstatus).elim
  · cases hq
    cases p' <;> exact hat

theorem KgInv.mark (h : KgInv req st) {ended : Date} {count : Nat}
    (hp : st.phase = some (.markEffect ended count)) {row : ReceiptRow} (hcell : st.cell = some row)
    (hpending : row.status = .pending) {event : ChangeEvent} {response : Json}
    (htype : event.eventType = req.eventType) :
    KgInv req (st.after (.markEffect ended count) (.appendEvent event response)
      (some (row.annotate (appliedDetails ended))) st.logged 0) := by
  obtain ⟨hadd, hfirst, happlied⟩ : AtPhase req st (.markEffect ended count) := h.phase _ hp
  have hrow : row.annotate (appliedDetails ended) =
      { row with details := some (appliedDetails ended) } := if_pos hpending
  have hexpected : req.expected st.applied = 1 := by
    rw [KgRequest.expected_invalidate hadd, happlied]
  refine ⟨h.applied_le, h.ended, h.logged_le, fun hnone => ?_, fun r hr d hd => ?_,
    fun _ _ => .inr ⟨_, ended, rfl, by rw [hrow]⟩, fun r hr hstatus => ?_, fun hans => ?_,
    fun q hq => ?_⟩
  · cases hnone
  · cases hr
    rw [hrow] at hd
    exact ⟨ended, hfirst, .inr ⟨(Option.some.inj hd).symm, happlied⟩⟩
  · cases hr
    rw [hrow, hpending] at hstatus
    cases hstatus
  · have hans : (st.answered || false) = true := hans
    rw [Bool.or_false] at hans
    obtain ⟨r, hr, hstatus⟩ := h.answered hans
    exact (not_completed hcell hpending hr hstatus).elim
  · cases hq
    exact ⟨htype, hexpected⟩

theorem KgInv.appended (h : KgInv req st) {event : ChangeEvent} {response : Json}
    (hp : st.phase = some (.appendEvent event response)) :
    KgInv req (st.after (.appendEvent event response) (.completeReceipt response) st.cell 1 0) := by
  obtain ⟨_, hexpected⟩ : AtPhase req st (.appendEvent event response) := h.phase _ hp
  have hmove := h.move none (fun _ hq => by rw [hp] at hq; cases hq; rfl) (fun q hq => by cases hq)
    fun q hq => by cases hq
  obtain ⟨row, hcell, hpending⟩ := h.pending hp rfl
  refine ⟨h.applied_le, h.ended, ?_, fun hnone => ?_, h.details,
    fun hadd happlied => .inr (hmove.marked_of hadd happlied fun _ hq => (by cases hq)),
    fun r hr hstatus => ?_, fun hans => ?_, fun q hq => ?_⟩
  · exact hexpected.symm ▸ le_rfl
  · rw [show st.cell = none from hnone] at hcell
    cases hcell
  · exact (not_completed hcell hpending hr hstatus).elim
  · have hans : (st.answered || false) = true := hans
    rw [Bool.or_false] at hans
    exact h.answered hans
  · cases hq
    exact hexpected.symm

theorem KgInv.complete (h : KgInv req st) {response : Json}
    (hp : st.phase = some (.completeReceipt response)) {row row' : ReceiptRow}
    (hcell : st.cell = some row) (hstatus : row'.status = .completed)
    (hdetails : row'.details = row.details) :
    KgInv req (st.after (.completeReceipt response) (.answered response) (some row') st.logged
      0) := by
  have hlogged : AtPhase req st (.completeReceipt response) := h.phase _ hp
  have hmove := h.move none (fun _ hq => by rw [hp] at hq; cases hq; rfl) (fun q hq => by cases hq)
    fun q hq => by cases hq
  refine ⟨h.applied_le, h.ended, h.logged_le, fun hnone => ?_, fun r hr d hd => ?_,
    fun hadd happlied => .inr ?_, fun r hr _ => ⟨hlogged, fun q hq => ?_⟩,
    fun _ => ⟨row', rfl, hstatus⟩, fun q hq => ?_⟩
  · cases hnone
  · cases hr
    exact h.details row hcell d (hdetails ▸ hd)
  · obtain ⟨r, e, hr, he⟩ := hmove.marked_of hadd happlied fun _ hq => (by cases hq)
    rw [show st.cell = some r from hr] at hcell
    cases hcell
    exact ⟨row', e, rfl, hdetails.trans he⟩
  · cases hq
    rfl
  · cases hq
    exact Bool.or_true _

end

end AgentPalace.Server
