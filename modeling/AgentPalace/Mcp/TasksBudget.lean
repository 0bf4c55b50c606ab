import AgentPalace.Mcp.TasksFanout

/-!
# The budget of the task listing

The answers of the origins take the places of records that were reserved, each
with room for its share of the budget and for a failure; so the listing is within
the budget whatever the origins answer (`coordinationTasksFanout_budget`). An
origin that did not return a page keeps its cursor (`coordinationTasksFanout_origin`).
-/

namespace AgentPalace

open Coordination (optStr)

namespace FederationRouter

section
variable {Api : Type} {router : FederationRouter Api}
  {ask : Api → CoordinationTasksQuery → Option (Except RemoteError CoordinationTasksResponse)}
  {joined : List (String × Api) → List (String × Api)} {query : CoordinationTasksQuery}
  {cursors : OrdMap String String} {selected : Option (List String)} {budget : UInt64}
  {perOrigin : Nat} {candidates : List (String × Api)}

/-! ### Reserved records -/

theorem mem_reserve {name : String} {v : Json} :
    (name, v) ∈ (reserve candidates cursors).entries ↔
      name ∈ candidates.map (·.1) ∧ v = unanswered (cursors.get? name) := by
  have hfold : ∀ results : OrdMap String Json,
      (candidates.foldl (fun results c => results.insert c.1 (unanswered (cursors.get? c.1)))
        results).get? name =
      if name ∈ candidates.map (·.1) then some (unanswered (cursors.get? name))
      else results.get? name := by
    induction candidates with
    | nil => exact fun _ => rfl
    | cons c candidates ih =>
      intro results
      rw [List.foldl_cons, ih, OrdMap.get?_insert]
      by_cases hrest : name ∈ candidates.map (·.1)
      · simp [hrest]
      · by_cases hc : name = c.1
        · subst hc
          simp
        · simp only [List.map_cons, List.mem_cons, hc, hrest, or_self, if_false]
  rw [OrdMap.mem_entries]
  unfold reserve
  rw [hfold]
  by_cases hname : name ∈ candidates.map (·.1)
  · simp only [hname, if_true, Option.some.injEq, true_and]
    exact eq_comm
  · simp [hname]

theorem reserve_length : (reserve candidates cursors).entries.length ≤ candidates.length := by
  have hfold : ∀ results : OrdMap String Json,
      (candidates.foldl (fun results c => results.insert c.1 (unanswered (cursors.get? c.1)))
        results).entries.length ≤ results.entries.length + candidates.length := by
    induction candidates with
    | nil => exact fun _ => le_rfl
    | cons c candidates ih =>
      intro results
      have hone := results.length_insert_le c.1 (unanswered (cursors.get? c.1))
      have hrest := ih (results.insert c.1 (unanswered (cursors.get? c.1)))
      rw [List.foldl_cons, List.length_cons]
      omega
  have hempty : (OrdMap.empty : OrdMap String Json).entries.length = 0 := rfl
  have := hfold .empty
  unfold reserve
  omega

/-! ### Answers -/

/-- What is recorded of an origin: its reserved record, or what it answered. -/
def Recorded (ask : Api → CoordinationTasksQuery →
      Option (Except RemoteError CoordinationTasksResponse))
    (query : CoordinationTasksQuery) (cursors : OrdMap String String) (perOrigin : Nat)
    (candidates : List (String × Api)) (name : String) (v : Json) : Prop :=
  v = unanswered (cursors.get? name) ∨ ∃ api answer, (name, api) ∈ candidates ∧
    ask api (originQuery query cursors perOrigin name) = some answer ∧
    v = originValue perOrigin (cursors.get? name) answer

/-- The tasks that end record answers under the names that were reserved. -/
theorem joinAll {ended : List (String × Api)} (hended : ∀ c ∈ ended, c ∈ candidates)
    {results : OrdMap String Json} (hkeys : ∀ c ∈ candidates, c.1 ∈ results.keys)
    (hrecorded : ∀ name v, (name, v) ∈ results.entries →
      Recorded ask query cursors perOrigin candidates name v) :
    (ended.foldl (joinNext ask query cursors perOrigin) results).keys = results.keys ∧
      ∀ name v, (name, v) ∈ (ended.foldl (joinNext ask query cursors perOrigin) results).entries →
        Recorded ask query cursors perOrigin candidates name v := by
  induction ended generalizing results with
  | nil => exact ⟨rfl, hrecorded⟩
  | cons c ended ih =>
    have hc : c ∈ candidates := hended c List.mem_cons_self
    have hone : (joinNext ask query cursors perOrigin results c).keys = results.keys ∧
        ∀ name v, (name, v) ∈ (joinNext ask query cursors perOrigin results c).entries →
          Recorded ask query cursors perOrigin candidates name v := by
      unfold joinNext
      cases hask : ask c.2 (originQuery query cursors perOrigin c.1) with
      | none => exact ⟨rfl, hrecorded⟩
      | some answer =>
        refine ⟨OrdMap.keys_insert (hkeys c hc) _, fun name v hmem => ?_⟩
        rcases OrdMap.mem_insertEntry hmem with heq | hold
        · cases heq
          exact .inr ⟨c.2, answer, hc, hask, rfl⟩
        · exact hrecorded name v hold
    obtain ⟨hkeys', hrecorded'⟩ := ih (fun d hd => hended d (List.mem_cons_of_mem c hd))
      (fun d hd => by rw [hone.1]; exact hkeys d hd) hone.2
    exact ⟨hkeys'.trans hone.1, hrecorded'⟩

/-! ### The parts of a call -/

theorem askCandidates_cases {results : OrdMap String Json}
    (h : askCandidates ask joined query cursors candidates budget = .ok results) :
    results = reserve candidates cursors ∧
        (reserve candidates cursors).json.encodedSize ≤ budget.toNat ∨
      ∃ perOrigin, results = (joined candidates).foldl (joinNext ask query cursors perOrigin)
          (reserve candidates cursors) ∧
        (reserve candidates cursors).json.encodedSize + candidates.length * (perOrigin + 2048) ≤
          budget.toNat := by
  have hbudget : budget.toNat ≤ usizeMax := by
    have := budget.toNat_lt
    unfold usizeMax
    omega
  have hmemory : isizeMax ≤ usizeMax := by decide
  unfold askCandidates encodedLen at h
  dsimp only [bind, Except.bind, pure, Except.pure] at h
  generalize (reserve candidates cursors).json.encodedSize = size at h ⊢
  by_cases hlen : size ≤ isizeMax
  · rw [if_pos hlen] at h
    dsimp only at h
    split at h
    · cases h
    · rename_i hoverhead
      split at h
      · refine .inl ⟨(Except.ok.inj h).symm, ?_⟩
        omega
      · rename_i hshare
        refine .inr ⟨_, (Except.ok.inj h).symm, ?_⟩
        generalize hover : min usizeMax (size + min usizeMax (candidates.length * 2048)) = overhead
          at h hoverhead hshare ⊢
        -- a saturated overhead leaves no budget
        have hexact : overhead = size + candidates.length * 2048 := by
          by_contra hne
          have hfull : budget.toNat - overhead = 0 := by omega
          refine hshare ?_
          unfold perOriginBudget
          rw [hfull, Nat.zero_div, Nat.zero_min]
          exact Nat.zero_lt_succ _
        have hshares : candidates.length * perOriginBudget budget.toNat overhead candidates.length ≤
            budget.toNat - overhead := by
          unfold perOriginBudget
          calc candidates.length *
                min ((budget.toNat - overhead) / max candidates.length 1)
                  Coordination.taskListPageBytes
              ≤ max candidates.length 1 *
                ((budget.toNat - overhead) / max candidates.length 1) :=
                Nat.mul_le_mul (Nat.le_max_left _ _) (Nat.min_le_left _ _)
            _ ≤ budget.toNat - overhead := Nat.mul_div_le _ _
        rw [Nat.mul_add]
        omega
  · rw [if_neg hlen] at h
    cases h

theorem forall₂_of_keys {R : String × Json → String × Json → Prop}
    {es fs : List (String × Json)} (hkeys : es.map (·.1) = fs.map (·.1))
    (h : ∀ e ∈ es, ∀ f ∈ fs, e.1 = f.1 → R e f) : List.Forall₂ R es fs := by
  induction es generalizing fs with
  | nil =>
    cases fs with
    | nil => exact .nil
    | cons => cases hkeys
  | cons e es ih =>
    cases fs with
    | nil => cases hkeys
    | cons f fs =>
      obtain ⟨hkey, hrest⟩ := List.cons.inj hkeys
      refine .cons (h e List.mem_cons_self f List.mem_cons_self hkey) (ih hrest fun e he f hf => ?_)
      exact h e (List.mem_cons_of_mem _ he) f (List.mem_cons_of_mem _ hf)

theorem mem_reserve_keys {name : String} :
    name ∈ (reserve candidates cursors).keys ↔ name ∈ candidates.map (·.1) := by
  unfold OrdMap.keys
  rw [List.mem_map]
  constructor
  · rintro ⟨⟨name, v⟩, hmem, rfl⟩
    exact (mem_reserve.1 hmem).1
  · exact fun hname => ⟨(name, _), mem_reserve.2 ⟨hname, rfl⟩, rfl⟩

theorem joined_recorded {ended : List (String × Api)} (hended : ∀ c ∈ ended, c ∈ candidates) :
    (ended.foldl (joinNext ask query cursors perOrigin) (reserve candidates cursors)).keys =
        (reserve candidates cursors).keys ∧
      ∀ name v, (name, v) ∈ (ended.foldl (joinNext ask query cursors perOrigin)
          (reserve candidates cursors)).entries →
        Recorded ask query cursors perOrigin candidates name v :=
  joinAll hended (fun _ hc => mem_reserve_keys.2 (List.mem_map_of_mem hc))
    fun _ _ hmem => .inl (mem_reserve.1 hmem).2

theorem joined_size {ended : List (String × Api)} (hended : ∀ c ∈ ended, c ∈ candidates) :
    (ended.foldl (joinNext ask query cursors perOrigin)
        (reserve candidates cursors)).json.encodedSize ≤
      (reserve candidates cursors).json.encodedSize +
        (reserve candidates cursors).entries.length * (perOrigin + 2048) := by
  obtain ⟨hkeys, hrecorded⟩ :=
    @joined_recorded Api ask query cursors perOrigin candidates ended hended
  refine Json.encodedSize_obj_le (forall₂_of_keys hkeys ?_)
  rintro ⟨name, v⟩ hv ⟨name', v'⟩ hv' rfl
  have hsize : v.encodedSize ≤ v'.encodedSize + (perOrigin + 2048) := by
    rw [(mem_reserve.1 hv').2]
    rcases hrecorded name v hv with rfl | ⟨api, answer, -, -, rfl⟩
    · exact Nat.le_add_right _ _
    · exact originValue_size perOrigin _ answer
  unfold Json.fieldSize
  dsimp only
  omega

/-- **The listing is within the budget**, if any remote may be asked; else it is empty. -/
theorem coordinationTasksFanout_budget (hjoined : ∀ cs, ∀ c ∈ joined cs, c ∈ cs)
    {results : OrdMap String Json}
    (h : router.coordinationTasksFanout ask joined query cursors selected budget = .ok results) :
    results.json.encodedSize ≤ budget.toNat ∨
      router.tasksClosed query = true ∧ results = .empty := by
  unfold coordinationTasksFanout at h
  by_cases hclosed : router.tasksClosed query = true
  · rw [if_pos hclosed] at h
    exact .inr ⟨hclosed, (Except.ok.inj h).symm⟩
  · rw [if_neg hclosed] at h
    dsimp only at h
    split at h
    · cases h
    · left
      rcases askCandidates_cases h with ⟨rfl, hsize⟩ | ⟨perOrigin, rfl, hsize⟩
      · exact hsize
      · refine le_trans ?_ hsize
        generalize router.tasksCandidates selected = candidates
        have hslack := @joined_size Api ask query cursors perOrigin candidates _
          (hjoined candidates)
        refine le_trans hslack (Nat.add_le_add_left (Nat.mul_le_mul_right _ ?_) _)
        exact reserve_length

theorem fanout_recorded (hjoined : ∀ cs, ∀ c ∈ joined cs, c ∈ cs) {results : OrdMap String Json}
    (h : router.coordinationTasksFanout ask joined query cursors selected budget = .ok results)
    {name : String} {v : Json} (hv : results.get? name = some v) :
    name ∈ (router.tasksCandidates selected).map (·.1) ∧
      ∃ perOrigin, Recorded ask query cursors perOrigin (router.tasksCandidates selected) name v := by
  unfold coordinationTasksFanout at h
  by_cases hclosed : router.tasksClosed query = true
  · rw [if_pos hclosed] at h
    obtain rfl := Except.ok.inj h
    cases hv
  · rw [if_neg hclosed] at h
    dsimp only at h
    split at h
    · cases h
    · rw [← OrdMap.mem_entries] at hv
      rcases askCandidates_cases h with ⟨rfl, -⟩ | ⟨perOrigin, rfl, -⟩
      · obtain ⟨hname, heq⟩ := mem_reserve.1 hv
        exact ⟨hname, 0, .inl heq⟩
      · obtain ⟨hkeys, hrecorded⟩ := @joined_recorded Api ask query cursors perOrigin
          (router.tasksCandidates selected) _ (hjoined _)
        refine ⟨?_, perOrigin, hrecorded name v hv⟩
        rw [← @mem_reserve_keys _ cursors, ← hkeys]
        exact List.mem_map_of_mem hv

/-- A record that stands for no page: it keeps the cursor, has no tasks and says so. -/
structure Kept (cursor : Option String) (v : Json) : Prop where
  cursor : v.get? "next_cursor" = some (optStr cursor)
  tasks : v.get? "tasks" = none ∨ v.get? "tasks" = some (.arr [])
  error : (v.get? "error").isSome = true

theorem kept_unanswered (cursor : Option String) : Kept cursor (unanswered cursor) :=
  ⟨rfl, .inr rfl, rfl⟩

theorem kept_exceeded (cursor : Option String) : Kept cursor (exceeded cursor) :=
  ⟨rfl, .inl rfl, rfl⟩

theorem kept_taskFailure (error : RemoteError) (cursor : Option String) :
    Kept cursor (taskFailure error cursor) := by
  obtain ⟨message, -, hshape | hshape⟩ := taskFailure_cases error cursor
  · rw [hshape]
    exact ⟨rfl, .inl rfl, rfl⟩
  · rw [hshape]
    exact ⟨rfl, .inl rfl, rfl⟩

/-- **An origin returns its page whole or keeps its cursor.** -/
theorem Recorded.page_or_kept {name : String} {v : Json}
    (h : Recorded ask query cursors perOrigin candidates name v) :
    Kept (cursors.get? name) v ∨
      ∃ api page, (name, api) ∈ candidates ∧
        ask api (originQuery query cursors perOrigin name) = some (.ok page) ∧
        page.json.encodedSize ≤ perOrigin ∧ v = page.json := by
  rcases h with rfl | ⟨api, answer, hmem, hask, rfl⟩
  · exact .inl (kept_unanswered _)
  · cases answer with
    | error error => exact .inl (kept_taskFailure error _)
    | ok page =>
      unfold originValue
      dsimp only
      split
      · exact .inl (kept_exceeded _)
      · rename_i hfits
        exact .inr ⟨api, page, hmem, hask, Nat.le_of_not_lt hfits, rfl⟩

end

end FederationRouter

end AgentPalace
