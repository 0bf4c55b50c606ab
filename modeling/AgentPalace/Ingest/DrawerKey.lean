import AgentPalace.Ingest.Engine
import Mathlib.Data.List.Dedup

/-!
# The drawer id as a key

The table of drawers has no unique constraint. `put_drawers` reads which of its
ids are there and then appends, so what it appends is new only if nobody else
appended it in between, and if the batch names no id twice. Under these two
conditions the ids of the table are distinct (`drawer_id_key`).

Any number of calls work on the table at once (`drawerTable`). A call stops where
it ends, where an operation of the table fails, or where its process crashes.
-/

namespace AgentPalace.Ingest

/-- `replace_drawer`: an update-only merge on the id, one write. -/
def StorageEngine.replaceDrawer (engine : StorageEngine) (drawer : DrawerRecord) (s : Palace) :
    Except PutError Bool × Palace :=
  if drawer.embedding.length ≠ engine.dimensions then
    (.error (.invalidEmbeddingDimensions drawer.id.str engine.dimensions drawer.embedding.length), s)
  else
    (.ok (s.drawers.any fun d => d.id = drawer.id),
      { s with drawers := s.drawers.map fun d => if d.id = drawer.id then drawer else d })

theorem StorageEngine.replaceDrawer_ids (engine : StorageEngine) (drawer : DrawerRecord)
    (s : Palace) : (engine.replaceDrawer drawer s).2.ids = s.ids := by
  unfold replaceDrawer
  split
  · rfl
  · show (s.drawers.map fun d => if d.id = drawer.id then drawer else d).map (·.id) = _
    rw [List.map_map]
    refine List.map_congr_left fun d _ => ?_
    show (if d.id = drawer.id then drawer else d).id = d.id
    split
    · rename_i h
      exact h.symm
    · rfl

/-! ## One call -/

def NoNew (ids : List DrawerId) (s s' : Palace) : Prop := ∀ id ∈ ids, id ∈ s'.ids → id ∈ s.ids

def AddsNew (ids : List DrawerId) (stmt : Statement) (s : Palace) : Prop :=
  stmt = .read ∨ (∃ gone, stmt = .deleteDrawers gone) ∨ ∃ rows : List DrawerRecord,
    stmt = .addDrawers rows ∧ (rows.map (·.id)).Nodup ∧ ∀ r ∈ rows, r.id ∈ ids ∧ r.id ∉ s.ids

theorem noNew_refl (ids : List DrawerId) (s : Palace) : NoNew ids s s := fun _ _ h => h

theorem noNew_trans (ids : List DrawerId) (a b c : Palace) (h : NoNew ids a b)
    (h' : NoNew ids b c) : NoNew ids a c :=
  fun id hid hc => h id hid (h' id hid hc)

/-- What the program still appends: the rows, at its end. -/
def Appends (rows : List DrawerRecord) : Program PutError Unit → Prop
  | .ret _ => rows = []
  | .act stmt next => (stmt = .addDrawers rows ∧ ∀ s, (next s).ended = true) ∨
      ((∀ added, stmt ≠ .addDrawers added) ∧ ∀ s, Appends rows (next s))

/-- The program appends these rows, and they are new if others append none of their ids. -/
structure Pending (rows : List DrawerRecord) (prog : Program PutError Unit) (s : Palace) : Prop where
  appends : Appends rows prog
  safe : prog.safe Statement.exec (NoNew (rows.map (·.id))) (AddsNew (rows.map (·.id))) s

def SafeFromRead : Program PutError Unit → Prop
  | .ret _ => True
  | .act stmt next => stmt = .read ∧ ∀ s, ∃ rows, Pending rows (next s) s

theorem pending_ret (r : Except PutError Unit) (s : Palace) : Pending [] (.ret r) s :=
  ⟨rfl, trivial⟩

theorem pending_addDrawers {rows : List DrawerRecord} {s : Palace}
    (hnodup : (rows.map (·.id)).Nodup) (habsent : ∀ r ∈ rows, r.id ∉ s.ids) :
    Pending rows (addDrawers rows) s := by
  have hids : ∀ r ∈ rows, r.id ∈ rows.map (·.id) := fun r hr => List.mem_map_of_mem hr
  refine ⟨.inl ⟨rfl, fun _ => rfl⟩, fun s' hs' => ⟨.inr (.inr ⟨rows, rfl, hnodup, ?_⟩), trivial⟩⟩
  exact fun r hr => ⟨hids r hr, fun hmem => habsent r hr (hs' r.id (hids r hr) hmem)⟩

theorem putDrawers_safe (engine : StorageEngine) {drawers : List DrawerRecord}
    (strategy : DuplicateStrategy) (hnodup : (drawers.map (·.id)).Nodup) :
    SafeFromRead (engine.putDrawers drawers strategy) := by
  have hids : ∀ r ∈ drawers, r.id ∈ drawers.map (·.id) := fun r hr => List.mem_map_of_mem hr
  unfold StorageEngine.putDrawers
  split
  · exact trivial
  · rename_i hsome
    split
    · exact trivial
    · unfold existingIds
      rw [if_neg (by simpa using hsome)]
      refine ⟨rfl, fun s => ?_⟩
      dsimp only [Prog.bind]
      have hfound : ∀ r ∈ drawers, r.id ∈ s.ids →
          r.id ∈ ((s.drawers.map (·.id)).filter (· ∈ drawers.map (·.id))).dedup := fun r hr hmem => by
        rw [List.mem_dedup, List.mem_filter]
        exact ⟨hmem, decide_eq_true (hids r hr)⟩
      generalize ((s.drawers.map (·.id)).filter (· ∈ drawers.map (·.id))).dedup = existing at hfound ⊢
      cases strategy with
      | error =>
        dsimp only
        split
        · exact ⟨[], pending_ret _ s⟩
        · rename_i hnone
          refine ⟨drawers, pending_addDrawers hnodup fun r hr hmem => ?_⟩
          rw [not_not] at hnone
          have := hfound r hr hmem
          rw [hnone] at this
          cases this
      | ignore =>
        dsimp only
        split
        · exact ⟨[], pending_ret _ s⟩
        · refine ⟨_, pending_addDrawers (hnodup.sublist (List.filter_sublist.map _))
            fun r hr hmem => ?_⟩
          obtain ⟨hr, hnot⟩ := List.mem_filter.1 hr
          exact of_decide_eq_true hnot (hfound r hr hmem)
      | overwrite =>
        dsimp only
        split
        · rename_i hexisting
          unfold deleteDrawers
          rw [if_neg hexisting]
          refine ⟨drawers, .inr ⟨nofun, fun _ => .inr ⟨nofun, fun _ => .inl ⟨rfl, fun _ => rfl⟩⟩⟩,
            fun s1 hs1 => ⟨.inl rfl, fun s2 hs2 => ⟨.inr (.inl ⟨existing, rfl⟩), ?_⟩⟩⟩
          refine (pending_addDrawers hnodup fun r hr hmem => ?_).safe
          obtain ⟨hmem, hnot⟩ := Statement.ids_deleteDrawers.1 hmem
          exact hnot (hfound r hr (hs1 r.id (hids r hr) (hs2 r.id (hids r hr) hmem)))
        · rename_i hnone
          refine ⟨drawers, pending_addDrawers hnodup fun r hr hmem => ?_⟩
          rw [not_not] at hnone
          have := hfound r hr hmem
          rw [hnone] at this
          cases this

/-! ## Calls at work on the table -/

inductive DrawerCall where
  | put (drawers : List DrawerRecord) (strategy : DuplicateStrategy)
  | delete (ids : List DrawerId)

namespace DrawerCall

def program (engine : StorageEngine) : DrawerCall → Program PutError Unit
  | put drawers strategy => engine.putDrawers drawers strategy
  | delete ids => do let _ ← deleteDrawers ids

end DrawerCall

/-- A running call: whether it has read, and what it still has to do. -/
structure DrawerTask where
  hasRead : Bool
  prog : Program PutError Unit

structure DrawerWorld where
  palace : Palace
  task : Nat → Option DrawerTask

inductive DrawerEvent where
  | start (i : Nat) (call : DrawerCall)
  | act (i : Nat) (stmt : Statement)
  | stop (i : Nat)
  | replace (drawer : DrawerRecord)

inductive DrawerStep (engine : StorageEngine) : DrawerWorld → DrawerEvent → DrawerWorld → Prop where
  | start {w : DrawerWorld} {i : Nat} {call : DrawerCall} (h : w.task i = none) :
      DrawerStep engine w (.start i call)
        { w with task := Function.update w.task i (some ⟨false, call.program engine⟩) }
  | act {w : DrawerWorld} {i : Nat} {hasRead : Bool} {stmt : Statement}
      {next : Palace → Program PutError Unit} (h : w.task i = some ⟨hasRead, .act stmt next⟩) :
      DrawerStep engine w (.act i stmt)
        ⟨stmt.exec w.palace, Function.update w.task i (some ⟨true, next w.palace⟩)⟩
  | stop {w : DrawerWorld} {i : Nat} :
      DrawerStep engine w (.stop i) { w with task := Function.update w.task i none }
  | replace {w : DrawerWorld} {drawer : DrawerRecord} :
      DrawerStep engine w (.replace drawer)
        { w with palace := (engine.replaceDrawer drawer w.palace).2 }

/-- Any calls of any processes on a table whose ids are distinct. -/
def drawerTable (engine : StorageEngine) : Machine DrawerWorld DrawerEvent where
  Init w := w.palace.ids.Nodup ∧ ∀ i, w.task i = none
  Step := DrawerStep engine

/-- A batch names no id twice, and what a call appends is nothing that another call that has read is
still to append. -/
def Exclusive (w : DrawerWorld) : DrawerEvent → Prop
  | .start _ (.put drawers _) => (drawers.map (·.id)).Nodup
  | .act i (.addDrawers rows) => ∀ j, j ≠ i → ∀ prog pending, w.task j = some ⟨true, prog⟩ →
      Appends pending prog → ∀ r ∈ rows, r.id ∉ pending.map (·.id)
  | _ => True

structure Keyed (w : DrawerWorld) : Prop where
  nodup : w.palace.ids.Nodup
  started : ∀ i prog, w.task i = some ⟨false, prog⟩ → SafeFromRead prog
  running : ∀ i prog, w.task i = some ⟨true, prog⟩ → ∃ rows, Pending rows prog w.palace

theorem program_safe (engine : StorageEngine) (call : DrawerCall)
    (h : ∀ drawers strategy, call = .put drawers strategy → (drawers.map (·.id)).Nodup) :
    SafeFromRead (call.program engine) := by
  cases call with
  | put drawers strategy => exact putDrawers_safe engine strategy (h drawers strategy rfl)
  | delete ids =>
    unfold DrawerCall.program deleteDrawers
    dsimp only
    split
    · exact trivial
    · exact ⟨rfl, fun _ => ⟨[], .inr ⟨nofun, fun _ => rfl⟩,
        fun _ _ => ⟨.inr (.inl ⟨ids, rfl⟩), trivial⟩⟩⟩

theorem AddsNew.nodup {ids : List DrawerId} {stmt : Statement} {s : Palace}
    (h : AddsNew ids stmt s) (hs : s.ids.Nodup) : (stmt.exec s).ids.Nodup := by
  rcases h with rfl | ⟨gone, rfl⟩ | ⟨rows, rfl, hrows, hnew⟩
  · exact hs
  · exact hs.sublist (List.filter_sublist.map _)
  · show ((s.drawers ++ rows).map (·.id)).Nodup
    rw [List.map_append, List.nodup_append]
    refine ⟨hs, hrows, fun id hid id' hid' heq => ?_⟩
    obtain ⟨r, hr, rfl⟩ := List.mem_map.1 hid'
    exact (hnew r hr).2 (heq ▸ hid)

theorem AddsNew.noNew {ids others : List DrawerId} {stmt : Statement} {s : Palace}
    (h : AddsNew ids stmt s)
    (hothers : ∀ rows : List DrawerRecord, stmt = .addDrawers rows → ∀ r ∈ rows, r.id ∉ others) :
    NoNew others s (stmt.exec s) := by
  intro id hid hmem
  rcases h with rfl | ⟨gone, rfl⟩ | ⟨rows, rfl, -, -⟩
  · exact hmem
  · exact (Statement.ids_deleteDrawers.1 hmem).1
  · rcases Statement.ids_addDrawers.1 hmem with hold | hnew
    · exact hold
    · obtain ⟨r, hr, rfl⟩ := List.mem_map.1 hnew
      exact absurd hid (hothers rows rfl r hr)

theorem Keyed.update {w : DrawerWorld} {s : Palace} {i : Nat} {task : Option DrawerTask}
    (hw : Keyed w) (hs : s.ids.Nodup)
    (hstarted : ∀ prog, task = some ⟨false, prog⟩ → SafeFromRead prog)
    (hrunning : ∀ prog, task = some ⟨true, prog⟩ → ∃ rows, Pending rows prog s)
    (hothers : ∀ j, j ≠ i → ∀ prog, w.task j = some ⟨true, prog⟩ → ∃ rows, Pending rows prog s) :
    Keyed ⟨s, Function.update w.task i task⟩ := by
  refine ⟨hs, fun j prog hj => ?_, fun j prog hj => ?_⟩ <;> dsimp only at hj ⊢ <;>
    by_cases hji : j = i
  · rw [hji, Function.update_self] at hj
    exact hstarted prog hj
  · rw [Function.update_of_ne hji] at hj
    exact hw.started j prog hj
  · rw [hji, Function.update_self] at hj
    exact hrunning prog hj
  · rw [Function.update_of_ne hji] at hj
    exact hothers j hji prog hj

theorem Pending.act {rows : List DrawerRecord} {stmt : Statement}
    {next : Palace → Program PutError Unit} {s : Palace} (h : Pending rows (.act stmt next) s) :
    AddsNew (rows.map (·.id)) stmt s ∧ ∃ rest, Pending rest (next s) (stmt.exec s) := by
  obtain ⟨hadds, hsafe⟩ := h.safe s (noNew_refl _ s)
  refine ⟨hadds, ?_⟩
  rcases h.appends with ⟨-, hend⟩ | ⟨-, happends⟩
  · have hended := hend s
    cases hnext : next s with
    | ret r => exact ⟨[], pending_ret r _⟩
    | act stmt' next' =>
      rw [hnext] at hended
      cases hended
  · exact ⟨rows, happends s, hsafe⟩

theorem Pending.before {rows : List DrawerRecord} {prog : Program PutError Unit} {s s' : Palace}
    (h : Pending rows prog s) (hs : NoNew (rows.map (·.id)) s s') : Pending rows prog s' :=
  ⟨h.appends, Prog.safe_before (noNew_trans _) h.safe hs⟩

theorem Keyed.step {engine : StorageEngine} {w w' : DrawerWorld} {e : DrawerEvent} (hw : Keyed w)
    (hstep : DrawerStep engine w e w') (hmet : Exclusive w e) : Keyed w' := by
  cases hstep with
  | @start i call hidle =>
    have hcall : SafeFromRead (call.program engine) :=
      program_safe engine call fun drawers strategy heq => by
        subst heq
        exact hmet
    refine hw.update hw.nodup ?_ ?_ fun j _ => hw.running j
    · rintro prog ⟨⟩
      exact hcall
    · rintro prog ⟨⟩
  | @act i hasRead stmt next htask =>
    obtain ⟨⟨ids, hadds⟩, hnext⟩ : (∃ ids, AddsNew ids stmt w.palace) ∧
        ∃ rest, Pending rest (next w.palace) (stmt.exec w.palace) := by
      cases hasRead with
      | false =>
        obtain ⟨rfl, hnext⟩ := hw.started i _ htask
        exact ⟨⟨[], .inl rfl⟩, hnext w.palace⟩
      | true =>
        obtain ⟨rows, hpending⟩ := hw.running i _ htask
        exact ⟨⟨_, hpending.act.1⟩, hpending.act.2⟩
    refine hw.update (hadds.nodup hw.nodup) ?_ ?_ fun j hji prog hj => ?_
    · rintro prog ⟨⟩
    · rintro prog ⟨⟩
      exact hnext
    · obtain ⟨pending, hpending⟩ := hw.running j prog hj
      refine ⟨pending, hpending.before (hadds.noNew ?_)⟩
      rintro rows rfl r hr
      exact hmet j hji prog pending hj hpending.appends r hr
  | @stop i =>
    exact hw.update hw.nodup (fun _ h => (by cases h)) (fun _ h => (by cases h))
      fun j _ => hw.running j
  | @replace drawer =>
    have hids := engine.replaceDrawer_ids drawer w.palace
    refine ⟨by rw [hids]; exact hw.nodup, hw.started, fun j prog hj => ?_⟩
    obtain ⟨pending, hpending⟩ := hw.running j prog hj
    exact ⟨pending, hpending.before fun id _ hmem => hids ▸ hmem⟩

theorem keyed_reachable {engine : StorageEngine} {w : DrawerWorld}
    (hreach : ((drawerTable engine).restrict Exclusive).Reachable w) : Keyed w := by
  refine hreach.invariant (I := Keyed) (fun a hinit => ?_) fun a e b _ ha hstep => ?_
  · refine ⟨hinit.1, fun i prog hi => ?_, fun i prog hi => ?_⟩ <;>
      (rw [hinit.2 i] at hi; cases hi)
  · exact ha.step hstep.1 hstep.2

/-! ## One call alone -/

/-- The embeddings have the dimensions of the table. -/
def Fits (engine : StorageEngine) (drawers : List DrawerRecord) : Prop :=
  ∀ d ∈ drawers, d.embedding.length = engine.dimensions

structure PutAlone (engine : StorageEngine) (drawers : List DrawerRecord)
    (strategy : DuplicateStrategy) (s s' : Palace) (r : Except PutError Unit) : Prop where
  refused : ¬ Fits engine drawers → r ≠ .ok () ∧ s'.drawers = s.drawers
  error : strategy = .error → (∃ d ∈ drawers, d.id ∈ s.ids) → r ≠ .ok () ∧ s'.drawers = s.drawers
  stored : strategy = .error → Fits engine drawers → (∀ d ∈ drawers, d.id ∉ s.ids) →
    r = .ok () ∧ s'.drawers = s.drawers ++ drawers
  ignore : strategy = .ignore → Fits engine drawers →
    r = .ok () ∧ s'.drawers = s.drawers ++ drawers.filter fun d => d.id ∉ s.ids
  overwrite : strategy = .overwrite → Fits engine drawers → r = .ok () ∧
    (s'.drawers.filter fun d => d.id ∈ drawers.map (·.id)) = drawers ∧
      (s'.drawers.filter fun d => d.id ∉ drawers.map (·.id)) =
        s.drawers.filter fun d => d.id ∉ drawers.map (·.id)

theorem putAlone_nil (engine : StorageEngine) (strategy : DuplicateStrategy) (s : Palace) :
    PutAlone engine [] strategy s s (.ok ()) where
  refused h := absurd (fun _ hd => nomatch hd) h
  error _ h := by
    obtain ⟨d, hd, -⟩ := h
    cases hd
  stored _ _ _ := ⟨rfl, (List.append_nil _).symm⟩
  ignore _ _ := ⟨rfl, (List.append_nil _).symm⟩
  overwrite _ _ := ⟨rfl, by simp, rfl⟩

theorem putAlone_refused {engine : StorageEngine} {drawers : List DrawerRecord} {e : PutError}
    (strategy : DuplicateStrategy) (s : Palace) (h : ¬ Fits engine drawers) :
    PutAlone engine drawers strategy s s (.error e) where
  refused _ := ⟨nofun, rfl⟩
  error _ _ := ⟨nofun, rfl⟩
  stored _ hfits _ := absurd hfits h
  ignore _ hfits := absurd hfits h
  overwrite _ hfits := absurd hfits h

/-- The rows of the batch in a table that has none of its ids. -/
theorem filter_appended {drawers rest : List DrawerRecord}
    (h : ∀ d ∈ rest, d.id ∉ drawers.map (·.id)) :
    ((rest ++ drawers).filter fun d => d.id ∈ drawers.map (·.id)) = drawers ∧
      ((rest ++ drawers).filter fun d => d.id ∉ drawers.map (·.id)) = rest := by
  have hin : ∀ d ∈ drawers, d.id ∈ drawers.map (·.id) := fun d hd => List.mem_map_of_mem hd
  rw [List.filter_append, List.filter_append]
  constructor
  · rw [List.filter_eq_nil_iff.2 fun d hd => by simpa using h d hd,
      List.filter_eq_self.2 fun d hd => decide_eq_true (hin d hd), List.nil_append]
  · rw [List.filter_eq_self.2 fun d hd => decide_eq_true (h d hd),
      List.filter_eq_nil_iff.2 fun d hd => by simpa using hin d hd, List.append_nil]

theorem putDrawers_alone (engine : StorageEngine) (drawers : List DrawerRecord)
    (strategy : DuplicateStrategy) (s : Palace) :
    PutAlone engine drawers strategy s
      ((engine.putDrawers drawers strategy).run Statement.exec s).2
      ((engine.putDrawers drawers strategy).run Statement.exec s).1 := by
  have hfound : ∀ d ∈ drawers,
      d.id ∈ ((s.drawers.map (·.id)).filter (· ∈ drawers.map (·.id))).dedup ↔ d.id ∈ s.ids := by
    intro d hd
    rw [List.mem_dedup, List.mem_filter]
    exact ⟨fun h => h.1, fun h => ⟨h, decide_eq_true (List.mem_map_of_mem hd)⟩⟩
  have honly : ∀ id ∈ ((s.drawers.map (·.id)).filter (· ∈ drawers.map (·.id))).dedup,
      id ∈ drawers.map (·.id) := fun id hid =>
    of_decide_eq_true (List.mem_filter.1 (List.mem_dedup.1 hid)).2
  have hsome : drawers ≠ [] → ((s.drawers.map (·.id)).filter (· ∈ drawers.map (·.id))).dedup ≠ [] →
      ∃ d ∈ drawers, d.id ∈ s.ids := fun _ hexisting => by
    obtain ⟨id, hid⟩ := List.exists_mem_of_ne_nil _ hexisting
    obtain ⟨d, hd, rfl⟩ := List.mem_map.1 (honly id hid)
    exact ⟨d, hd, (hfound d hd).1 hid⟩
  unfold StorageEngine.putDrawers
  split
  · rename_i hnil
    subst hnil
    exact putAlone_nil engine strategy s
  rename_i hdrawers
  split
  · rename_i d hd
    refine putAlone_refused strategy s fun hfits => ?_
    have hwrong := List.find?_some hd
    exact of_decide_eq_true hwrong (hfits d (List.mem_of_find?_eq_some hd))
  rename_i hfind
  have hfits : Fits engine drawers := fun d hd => by
    simpa using List.find?_eq_none.1 hfind d hd
  have hsome := hsome hdrawers
  unfold existingIds
  rw [if_neg (by simpa using hdrawers)]
  dsimp only [read, Prog.statement, Bind.bind, Prog.bind, Prog.run, Statement.exec]
  generalize ((s.drawers.map (·.id)).filter (· ∈ drawers.map (·.id))).dedup = existing
    at hfound honly hsome ⊢
  have hnew : existing = [] → ∀ d ∈ drawers, d.id ∉ s.ids := by
    rintro rfl d hd hmem
    exact nomatch (hfound d hd).2 hmem
  cases strategy with
  | error =>
    dsimp only
    split
    · rename_i hexisting
      obtain ⟨d, hd, hmem⟩ := hsome hexisting
      exact ⟨fun h => absurd hfits h, fun _ _ => ⟨nofun, rfl⟩, fun _ _ h => absurd hmem (h d hd),
        nofun, nofun⟩
    · rename_i hnone
      rw [not_not] at hnone
      refine ⟨fun h => absurd hfits h, fun _ ⟨d, hd, hmem⟩ => absurd hmem (hnew hnone d hd),
        fun _ _ _ => ⟨rfl, rfl⟩, nofun, nofun⟩
  | ignore =>
    have hfilter : (drawers.filter fun d => d.id ∉ existing) =
        drawers.filter fun d => d.id ∉ s.ids :=
      List.filter_congr fun d hd => by simp [hfound d hd]
    dsimp only
    rw [hfilter]
    split
    · rename_i hnone
      refine ⟨fun h => absurd hfits h, nofun, nofun, fun _ _ => ⟨rfl, ?_⟩, nofun⟩
      rw [hnone, List.append_nil]
      rfl
    · exact ⟨fun h => absurd hfits h, nofun, nofun, fun _ _ => ⟨rfl, rfl⟩, nofun⟩
  | overwrite =>
    dsimp only
    split
    · rename_i hexisting
      unfold deleteDrawers
      rw [if_neg hexisting]
      refine ⟨fun h => absurd hfits h, nofun, nofun, nofun, fun _ _ => ⟨rfl, ?_⟩⟩
      have hrest : (s.drawers.filter fun d => d.id ∉ existing) =
          s.drawers.filter fun d => d.id ∉ drawers.map (·.id) := by
        refine List.filter_congr fun d hd => ?_
        have : d.id ∈ existing ↔ d.id ∈ drawers.map (·.id) :=
          ⟨honly d.id, fun hmem => by
            obtain ⟨d', hd', hid⟩ := List.mem_map.1 hmem
            rw [← hid]
            exact (hfound d' hd').2 (hid ▸ List.mem_map_of_mem hd)⟩
        simp [this]
      show (((s.drawers.filter fun d => d.id ∉ existing) ++ drawers).filter _) = _ ∧
        (((s.drawers.filter fun d => d.id ∉ existing) ++ drawers).filter _) = _
      rw [hrest]
      exact filter_appended fun d hd => of_decide_eq_true (List.mem_filter.1 hd).2
    · rename_i hnone
      rw [not_not] at hnone
      refine ⟨fun h => absurd hfits h, nofun, nofun, nofun, fun _ _ => ⟨rfl, ?_⟩⟩
      have habsent : ∀ d ∈ s.drawers, d.id ∉ drawers.map (·.id) := fun d hd hmem => by
        obtain ⟨d', hd', hid⟩ := List.mem_map.1 hmem
        exact hnew hnone d' hd' (hid ▸ List.mem_map_of_mem hd)
      obtain ⟨hbatch, hrest⟩ := filter_appended habsent
      exact ⟨hbatch, hrest.trans (List.filter_eq_self.2 fun d hd =>
        decide_eq_true (habsent d hd)).symm⟩

/-- **The drawer id is a key** of the table in every run whose batches name no id twice and in which
no call appends what another one that has read is still to append. Alone, `Error` stores nothing if an
id of the batch is present and the batch if none is, `Ignore` keeps the old rows and adds the others,
and `Overwrite` leaves exactly the rows of the batch under its ids. -/
theorem drawer_id_key (engine : StorageEngine) :
    (∀ w, ((drawerTable engine).restrict Exclusive).Reachable w → w.palace.ids.Nodup) ∧
      ∀ drawers strategy s, PutAlone engine drawers strategy s
        ((engine.putDrawers drawers strategy).run Statement.exec s).2
        ((engine.putDrawers drawers strategy).run Statement.exec s).1 :=
  ⟨fun _ hreach => (keyed_reachable hreach).nodup, putDrawers_alone engine⟩

def rowOf (id : DrawerId) : DrawerRecord := ⟨id, "text", "h", []⟩

def rowB : DrawerId := ⟨"b", by decide⟩

def rowC : DrawerId := ⟨"c", by decide⟩

def emptyTable : DrawerWorld := ⟨⟨IngestDb.empty, Outbox.OutboxDb.empty, []⟩, fun _ => none⟩

theorem emptyTable_init (engine : StorageEngine) : (drawerTable engine).Init emptyTable :=
  ⟨List.nodup_nil, fun _ => rfl⟩

theorem appends_addDrawers {pending rows : List DrawerRecord}
    (h : Appends pending (addDrawers rows)) : pending = rows := by
  rcases h with ⟨heq, -⟩ | ⟨hnone, -⟩
  · exact (Statement.addDrawers.inj heq).symm
  · exact absurd rfl (hnone rows)

/-- A call that names a row which it found is still to append its other one while a second call
overwrites the row it found. -/
theorem drawer_id_key_sample : ∃ w : DrawerWorld, w.palace.ids = [rowB, rowC] ∧
    ((drawerTable ⟨0⟩).restrict Exclusive).Reachable w ∧ w.palace.ids.Nodup := by
  have h0 : ((drawerTable ⟨0⟩).restrict Exclusive).Reachable emptyTable :=
    ⟨_, [], emptyTable_init ⟨0⟩, .nil _⟩
  have h1 := h0.step ⟨@DrawerStep.start ⟨0⟩ _ 0 (.put [rowOf rowB] .error) rfl,
    List.nodup_singleton _⟩
  have h2 := h1.step ⟨DrawerStep.act (i := 0) rfl, trivial⟩
  have h3 := h2.step ⟨DrawerStep.act (i := 0) rfl, fun j hj prog pending htask => by
    simp [Function.update, hj, emptyTable] at htask⟩
  -- the second call finds the row
  have h4 := h3.step ⟨@DrawerStep.start ⟨0⟩ _ 1 (.put [rowOf rowB, rowOf rowC] .ignore) rfl,
    (by decide : [rowB, rowC].Nodup)⟩
  have h5 := h4.step ⟨DrawerStep.act (i := 1) rfl, trivial⟩
  -- the third one overwrites it
  have h6 := h5.step ⟨@DrawerStep.start ⟨0⟩ _ 2 (.put [rowOf rowB] .overwrite) rfl,
    List.nodup_singleton _⟩
  have h7 := h6.step ⟨DrawerStep.act (i := 2) rfl, trivial⟩
  have h8 := h7.step ⟨DrawerStep.act (i := 2) rfl, trivial⟩
  have h9 := h8.step ⟨DrawerStep.act (i := 2) rfl, trivial⟩
  have h10 := h9.step ⟨DrawerStep.act (i := 2) rfl, fun j hj prog pending htask happends => by
    match j, hj with
    | 0, _ =>
      cases htask
      cases (happends : pending = [])
      exact fun _ _ => List.not_mem_nil
    | 1, _ =>
      cases htask
      cases @appends_addDrawers _ [rowOf rowC] happends
      decide
    | n + 3, _ => cases htask⟩
  have h11 := h10.step ⟨DrawerStep.act (i := 1) rfl, fun j hj prog pending htask happends => by
    match j, hj with
    | 0, _ | 2, _ =>
      cases htask
      cases (happends : pending = [])
      exact fun _ _ => List.not_mem_nil
    | n + 3, _ => cases htask⟩
  exact ⟨_, rfl, h11, (drawer_id_key ⟨0⟩).1 _ h11⟩

def twiceNamed : List DrawerRecord :=
  [⟨⟨"twice", by decide⟩, "one", "h1", []⟩, ⟨⟨"twice", by decide⟩, "two", "h2", []⟩]

/-- A batch that names an id twice stores it twice. -/
theorem put_stores_duplicates : ¬ ∀ w : DrawerWorld,
    (drawerTable ⟨0⟩).Reachable w → w.palace.ids.Nodup := by
  intro hclaim
  have hempty : (drawerTable ⟨0⟩).Reachable emptyTable := ⟨_, [], emptyTable_init ⟨0⟩, .nil _⟩
  have hstarted := hempty.step (@DrawerStep.start ⟨0⟩ _ 0 (.put twiceNamed .error) rfl)
  have hread := hstarted.step (DrawerStep.act (i := 0) rfl)
  have hadded := hread.step (DrawerStep.act (i := 0) rfl)
  have hnodup : (twiceNamed.map (·.id)).Nodup := hclaim _ hadded
  exact absurd hnodup (by decide)

end AgentPalace.Ingest
