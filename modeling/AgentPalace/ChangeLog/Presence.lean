import AgentPalace.ChangeLog.System

/-!
# Events of one operation

An event of an operation is appended once, however often the append is retried.
An append that finds its event absent adds it. What counts as present is an
event of the same type under the same operation id, or under the text after its
first colon: that is how operations were spelled before keys had owners, and for
a raw key without a colon no owner's key is spelled so.
-/

namespace AgentPalace.ChangeLog

open Machine

/-! ## Operation ids -/

theorem dropWhile_scope {scope : List Char} (h : ':' ∉ scope) (raw : List Char) :
    (scope ++ ':' :: raw).dropWhile (· ≠ ':') = ':' :: raw := by
  induction scope with
  | nil => simp
  | cons c scope ih =>
    have hc : c ≠ ':' := fun hc => h (by simp [hc])
    rw [List.cons_append, List.dropWhile_cons_of_pos (by simpa using hc)]
    exact ih fun hmem => h (List.mem_cons_of_mem c hmem)

theorem toList_compositeKey (k : OwnerScopedKey) :
    k.compositeKey.toList = k.scope.toList ++ ':' :: k.rawKey.toList := by
  rw [k.compositeKey_eq, String.toList_append, String.toList_append, List.append_assoc]
  rfl

theorem afterColon_compositeKey (k : OwnerScopedKey) :
    afterColon k.compositeKey = some k.rawKey := by
  unfold afterColon
  rw [toList_compositeKey, dropWhile_scope k.colon_not_mem_scope]
  exact congrArg some String.ofList_toList

theorem compositeKey_inj {k k' : OwnerScopedKey} (h : k.compositeKey = k'.compositeKey) : k = k' := by
  have hraw : k.rawKey = k'.rawKey := by
    have := congrArg afterColon h
    rw [afterColon_compositeKey, afterColon_compositeKey] at this
    exact Option.some.inj this
  have hscope : k.scope.toList = k'.scope.toList := by
    have htext := congrArg String.toList h
    rw [toList_compositeKey, toList_compositeKey, hraw] at htext
    exact List.append_cancel_right htext
  exact OwnerScopedKey.ext_scope (String.toList_injective hscope) hraw

theorem compositeKey_ne {raw : String} (h : ':' ∉ raw.toList) (k : OwnerScopedKey) :
    k.compositeKey ≠ raw := by
  rintro rfl
  rw [toList_compositeKey] at h
  simp at h

/-! ## The events of an operation -/

def eventsOf (db : ChangeDb) (operationId eventType : String) : List ChangeRow :=
  db.changes.rows.filter fun r => r.event.eventType = eventType && r.operationId = some operationId

theorem isPresent_iff {db : ChangeDb} {event : ChangeEvent} {operationId : String} :
    isPresent db event (some operationId) = true ↔ eventsOf db operationId event.eventType ≠ [] ∨
      ∃ raw, afterColon operationId = some raw ∧ eventsOf db raw event.eventType ≠ [] := by
  have hmem : ∀ o, eventsOf db o event.eventType ≠ [] ↔
      ∃ r ∈ db.changes.rows, r.event.eventType = event.eventType ∧ r.operationId = some o := by
    intro o
    rw [eventsOf, Ne, List.filter_eq_nil_iff]
    simp
  simp only [hmem, isPresent]
  cases hraw : afterColon operationId with
  | none => simp
  | some raw =>
    simp only [Option.isSome_some, Bool.true_and, List.any_eq_true, Bool.and_eq_true,
      Bool.or_eq_true, decide_eq_true_eq, Option.some.injEq, exists_eq_left']
    constructor
    · rintro ⟨r, hr, htype, hown | hlegacy⟩
      · exact .inl ⟨r, hr, htype, hown⟩
      · exact .inr ⟨r, hr, htype, hlegacy⟩
    · rintro (⟨r, hr, htype, hown⟩ | ⟨r, hr, htype, hlegacy⟩)
      · exact ⟨r, hr, htype, .inl hown⟩
      · exact ⟨r, hr, htype, .inr hlegacy⟩

theorem eventsOf_append {db db' : ChangeDb} {row : ChangeRow}
    (h : db'.changes.rows = db.changes.rows ++ [row]) (operationId eventType : String) :
    eventsOf db' operationId eventType = eventsOf db operationId eventType ++
      if row.event.eventType = eventType ∧ row.operationId = some operationId then [row] else [] := by
  rw [eventsOf, h, List.filter_append]
  congr 1
  by_cases hrow : row.event.eventType = eventType ∧ row.operationId = some operationId
  · rw [if_pos hrow, List.filter_cons_of_pos (by simpa using hrow), List.filter_nil]
  · rw [if_neg hrow, List.filter_cons_of_neg (by simpa using hrow), List.filter_nil]

/-- The call does not append an event of an operation unchecked. -/
def conditional (l : Label) : Bool :=
  match l.call with
  | .appendEventWithOperation _ _ => false
  | _ => true

/-- At most one event of each operation and type. -/
def Once (db : ChangeDb) : Prop :=
  ∀ operationId eventType, (eventsOf db operationId eventType).length ≤ 1

theorem eventsOf_fresh {db db' : ChangeDb} {call : Call} {answer : Answer}
    (h : Outcome db call answer db') (hcall : conditional ⟨call, answer⟩ = true) (honce : Once db) :
    Once db' := by
  intro operationId eventType
  cases h with
  | refused => exact honce _ _
  | ignored => exact honce _ _
  | present => exact honce _ _
  | @added rowid changes habsent hrows =>
    rw [eventsOf_append hrows]
    split
    · rename_i hnew
      have hempty : eventsOf db operationId eventType = [] := by
        cases call with
        | appendEvent event => simp [newRow, Call.payload] at hnew
        | appendEventIfAbsent event => simp [newRow, Call.payload] at hnew
        | appendEventWithOperation event o => simp [conditional] at hcall
        | appendEventIfAbsentWithOperation event o =>
          simp only [newRow, Call.payload, Option.some.injEq] at hnew
          obtain ⟨rfl, rfl⟩ := hnew
          by_contra hne
          have hpresent := isPresent_iff.2 (.inl hne)
          have hfalse := habsent rfl
          simp only [Call.payload] at hfalse
          rw [hfalse] at hpresent
          cases hpresent
      simp [hempty]
    · simpa using honce operationId eventType

theorem run_once {w₀ w : State} {ls : List Label} (hinit : system.Init w₀)
    (hrun : Run system w₀ ls w) (hcalls : ∀ l ∈ ls, conditional l = true) : Once w.db := by
  refine hrun.stable (P := fun w => Once w.db) (fun x l y _ hl honce hs => ?_)
    ⟨w₀, [], hinit, .nil w₀⟩ ?_
  · exact eventsOf_fresh (step_outcome hs) (hcalls l hl) honce
  · intro operationId eventType
    rw [show w₀.db = .empty from hinit]
    exact Nat.zero_le 1

/-! ## One conditional append -/

/-- The event is added if the operation has none of its type, else found; or the append fails. -/
def Kept (db : ChangeDb) (event : ChangeEvent) (operationId : String) (answer : Answer)
    (db' : ChangeDb) : Prop :=
  (∃ e, answer = .error e) ∧ db' = db ∨
  answer = .ok true ∧ eventsOf db operationId event.eventType = [] ∧
    (eventsOf db' operationId event.eventType).length = 1 ∧
    (∃ rowid, db'.changes.rows = db.changes.rows ++ [newRow event (some operationId) rowid]) ∨
  answer = .ok false ∧ eventsOf db operationId event.eventType ≠ [] ∧ db' = db

/-- The event is taken for one of the type under the raw key. -/
def FoundLegacy (db : ChangeDb) (event : ChangeEvent) (raw : String) (answer : Answer)
    (db' : ChangeDb) : Prop :=
  answer = .ok false ∧ eventsOf db raw event.eventType ≠ [] ∧ db' = db

theorem append_kept {db db' : ChangeDb} {event : ChangeEvent} {operationId : String}
    {answer : Answer}
    (h : Outcome db (.appendEventIfAbsentWithOperation event operationId) answer db') :
    Kept db event operationId answer db' ∨
      ∃ raw, afterColon operationId = some raw ∧ FoundLegacy db event raw answer db' := by
  cases h with
  | @refused e => exact .inl (.inl ⟨⟨e, rfl⟩, rfl⟩)
  | ignored hchecks => cases hchecks
  | present _ hpresent =>
    rcases isPresent_iff.1 hpresent with hown | ⟨raw, hraw, hlegacy⟩
    · exact .inl (.inr (.inr ⟨rfl, hown, rfl⟩))
    · exact .inr ⟨raw, hraw, rfl, hlegacy, rfl⟩
  | @added rowid changes habsent hrows =>
    have hempty : eventsOf db operationId event.eventType = [] := by
      by_contra hne
      have hpresent := isPresent_iff.2 (.inl hne)
      have habsent : isPresent db event (some operationId) = false := habsent rfl
      rw [habsent] at hpresent
      cases hpresent
    refine .inl (.inr (.inl ⟨rfl, hempty, ?_, rowid, hrows⟩))
    rw [eventsOf_append hrows, hempty, if_pos ⟨rfl, rfl⟩]
    rfl

theorem afterColon_eq_none {operationId : String} (h : ':' ∉ operationId.toList) :
    afterColon operationId = none := by
  unfold afterColon
  have hall : operationId.toList.dropWhile (· ≠ ':') = [] := by
    rw [List.dropWhile_eq_nil_iff]
    intro c hc
    have hne : c ≠ ':' := by rintro rfl; exact h hc
    simpa using hne
  rw [hall]

/-! ## The claim about runs -/

/-- **Operations**: conditional appends leave at most one event of an operation and type; keys of
different operations have different texts; and an append of an event of a key without a second
colon, or of a raw key without one, adds the event unless the same operation has one, or an event
of the type is stored under the raw key, which is no key's text. -/
theorem operation_events_once {w₀ w : State} {ls : List Label} (hinit : system.Init w₀)
    (hrun : Run system w₀ ls w) (hcalls : ∀ l ∈ ls, conditional l = true) :
    (∀ operationId eventType, (eventsOf w.db operationId eventType).length ≤ 1) ∧
    (∀ k k' : OwnerScopedKey, k.compositeKey = k'.compositeKey → k = k') ∧
    (∀ (k : OwnerScopedKey) event answer w', ':' ∉ k.rawKey.toList →
      system.Step w ⟨.appendEventIfAbsentWithOperation event k.compositeKey, answer⟩ w' →
      Kept w.db event k.compositeKey answer w'.db ∨
        FoundLegacy w.db event k.rawKey answer w'.db ∧
          ∀ k' : OwnerScopedKey, k'.compositeKey ≠ k.rawKey) ∧
    ∀ (raw : String) event answer w', ':' ∉ raw.toList →
      system.Step w ⟨.appendEventIfAbsentWithOperation event raw, answer⟩ w' →
      Kept w.db event raw answer w'.db := by
  refine ⟨run_once hinit hrun hcalls, fun _ _ => compositeKey_inj, ?_, ?_⟩
  · intro k event answer w' hcolon hs
    rcases append_kept (step_outcome hs) with hkept | ⟨raw, hraw, hfound⟩
    · exact .inl hkept
    · rw [afterColon_compositeKey] at hraw
      cases hraw
      exact .inr ⟨hfound, compositeKey_ne hcolon⟩
  · intro raw event answer w' hcolon hs
    rcases append_kept (step_outcome hs) with hkept | ⟨raw', hraw, _⟩
    · exact hkept
    · rw [afterColon_eq_none hcolon] at hraw
      cases hraw

def sampleEvent : ChangeEvent :=
  { eventType := "drawer_added", occurredAt := ⟨0, 0⟩, entityId := "d", actor := none
    detailsJson := none }

/-- The operation `old-op` of alice. -/
def aliceKey : OwnerScopedKey :=
  ⟨some ⟨"alice", by decide⟩, "old-op", by decide, by decide⟩

/-- The operation `old-op` of bob. -/
def bobKey : OwnerScopedKey := ⟨some ⟨"bob", by decide⟩, "old-op", by decide, by decide⟩

def sampleLog : State :=
  (store.play ⟨store.init, ()⟩
    [.appendEventIfAbsentWithOperation sampleEvent aliceKey.compositeKey]).2

/-- Bob's event is added though alice has one under the same raw key. -/
theorem operation_events_once_sample :
    Kept sampleLog.db sampleEvent bobKey.compositeKey (.ok true)
      ((Call.appendEventIfAbsentWithOperation sampleEvent bobKey.compositeKey).execute
        sampleLog.db).2 := by
  have hordered : store.Ordered ()
      [.appendEventIfAbsentWithOperation sampleEvent aliceKey.compositeKey] := ⟨le_rfl, trivial⟩
  have hrun : Run system ⟨store.init, ()⟩ _ sampleLog := store.run_play hordered
  have hstep := store.step_exec (w := sampleLog)
    (c := .appendEventIfAbsentWithOperation sampleEvent bobKey.compositeKey) le_rfl
  have hanswer : ((Call.appendEventIfAbsentWithOperation sampleEvent bobKey.compositeKey).execute
      sampleLog.db).1 = .ok true := by decide
  rcases (operation_events_once init_empty hrun (by decide)).2.2.1 bobKey sampleEvent _ _
    (by decide) hstep with hkept | ⟨⟨hfound, _⟩, _⟩
  · rwa [show store.exec = Call.execute from rfl, hanswer] at hkept
  · rw [show store.exec = Call.execute from rfl, hanswer] at hfound
    cases hfound

/-- Alice's operation has no event before its append and none after it: the event of the raw key
is taken for it. -/
theorem legacy_event_taken :
    ¬ ∀ w ls, Run system ⟨store.init, ()⟩ ls w → (∀ l ∈ ls, conditional l = true) →
      ∀ (k : OwnerScopedKey) event b w',
        system.Step w ⟨.appendEventIfAbsentWithOperation event k.compositeKey, .ok b⟩ w' →
        eventsOf w'.db k.compositeKey event.eventType = [] →
        eventsOf w.db k.compositeKey event.eventType ≠ [] := by
  intro hclaim
  let log : State := (store.play ⟨store.init, ()⟩
    [.appendEventIfAbsentWithOperation sampleEvent "old-op"]).2
  have hordered : store.Ordered ()
      [.appendEventIfAbsentWithOperation sampleEvent "old-op"] := ⟨le_rfl, trivial⟩
  have hrun : Run system ⟨store.init, ()⟩ _ log := store.run_play hordered
  have hstep := store.step_exec (w := log)
    (c := .appendEventIfAbsentWithOperation sampleEvent aliceKey.compositeKey) le_rfl
  have hanswer : (store.exec (.appendEventIfAbsentWithOperation sampleEvent aliceKey.compositeKey)
      log.db).1 = .ok false := by decide
  rw [hanswer] at hstep
  exact hclaim log _ hrun (by decide) aliceKey sampleEvent false _ hstep (by decide) (by decide)

end AgentPalace.ChangeLog
