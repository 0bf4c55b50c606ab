import AgentPalace.Coordination.Listing
import AgentPalace.Coordination.System

/-!
# Task discovery is exact

The loop of one call ends in one of three ways (`Filled`), and so does the call
(`Listed`): with all rows behind the cursor, with some of them and the cursor of
the last, or with the refusal of an item that does not fit a page of its own. A
client that feeds the cursors back reads every matching row once, in order.
-/

namespace AgentPalace.Coordination

/-! ## What the loop emits -/

theorem TaskListPage.size (items : List TaskListItem) (cursor : Option String) :
    (TaskListPage.json ⟨items, cursor⟩).encodedSize =
      (Json.arr (items.map (·.json))).encodedSize + (optStr cursor).encodedSize + 25 := by
  have hopen : ("\x7b" : String).utf8ByteSize = 1 := rfl
  have hclose : ("\x7d" : String).utf8ByteSize = 1 := rfl
  have hcomma : (",").utf8ByteSize = 1 := rfl
  have hcolon : (":").utf8ByteSize = 1 := rfl
  have htasks : (Json.quote "tasks").utf8ByteSize = 7 := by decide
  have hnext : (Json.quote "next_cursor").utf8ByteSize = 13 := by decide
  simp only [TaskListPage.json, Json.encodedSize, Json.encode, Json.encodeFields,
    String.intercalate_cons_cons, String.intercalate_singleton, String.utf8ByteSize_append]
  omega

theorem fits_page {budget : Nat} {items : List TaskListItem} {cursor : Option String}
    (h : fits budget items = true)
    (hcursor : (optStr cursor).encodedSize ≤ 21) :
    (TaskListPage.json ⟨items, cursor⟩).encodedSize ≤ budget := by
  have hslot : (optStr (some cursorSlot)).encodedSize = 21 := by decide
  rw [fits, decide_eq_true_eq, TaskListPage.size, hslot] at h
  rw [TaskListPage.size]
  omega

theorem empty_page_size : (TaskListPage.json ⟨[], none⟩).encodedSize ≤ 128 := by decide

/-- How the loop ends on `rows`, with `page` emitted before them. -/
inductive Filled (limit budget : Nat) (page : List TaskListItem) (last : Option String)
    (rows : List TaskRow) : Except StorageError TaskListPage → Prop where
  | final (hlen : page.length + rows.length ≤ limit)
      (hfits : page ++ rows.map (·.item) = [] ∨ fits budget (page ++ rows.map (·.item))) :
      Filled limit budget page last rows (.ok ⟨page ++ rows.map (·.item), none⟩)
  | more {taken behind : List TaskRow} (hrows : rows = taken ++ behind) (hbehind : behind ≠ [])
      (hne : page ++ taken.map (·.item) ≠ []) (hfits : fits budget (page ++ taken.map (·.item))) :
      Filled limit budget page last rows (.ok ⟨page ++ taken.map (·.item),
        (taken.getLast?.map fun r => toString r.sequence).or last⟩)
  | oversized {row : TaskRow} {behind : List TaskRow} (hrows : rows = row :: behind)
      (hpage : page = []) (hfits : fits budget [row.item] = false) :
      Filled limit budget page last rows (.error (oversized row budget))

theorem Filled.cons {limit budget : Nat} {page : List TaskListItem} {last : Option String}
    {row : TaskRow} {rows : List TaskRow} {result : Except StorageError TaskListPage}
    (h : Filled limit budget (page ++ [row.item]) (some (toString row.sequence)) rows result) :
    Filled limit budget page last (row :: rows) result := by
  have happend : ∀ rs : List TaskRow,
      page ++ [row.item] ++ rs.map (·.item) = page ++ (row :: rs).map (·.item) := by simp
  cases h with
  | final hlen hfits =>
    rw [happend] at hfits ⊢
    rw [List.length_append, List.length_singleton] at hlen
    exact .final (by rw [List.length_cons]; omega) hfits
  | @more taken behind hrows hbehind hne hfits =>
    rw [happend] at hne hfits ⊢
    have hlast : (taken.getLast?.map fun r => toString r.sequence).or
        (some (toString row.sequence)) =
        ((row :: taken).getLast?.map fun r => toString r.sequence).or last := by
      cases htaken : taken.getLast? <;> simp [List.getLast?_cons, htaken]
    rw [hlast]
    exact .more (by rw [hrows, List.cons_append]) hbehind hne hfits
  | oversized _ hpage => simp at hpage

theorem fillPage_filled {limit budget : Nat} {page : List TaskListItem} {last : Option String}
    (rows : List TaskRow) (hlimit : 0 < limit) (hlen : page.length ≤ limit)
    (hpage : page = [] ∨ fits budget page = true) :
    Filled limit budget page last rows (fillPage limit budget page last rows) := by
  induction rows generalizing page last with
  | nil =>
    have h : Filled limit budget page last [] (.ok ⟨page ++ [].map TaskRow.item, none⟩) :=
      .final (by simpa using hlen) (by simpa using hpage)
    simpa [fillPage] using h
  | cons row rows ih =>
    -- the loop stops before this row, with the cursor of the row before it
    have hstop (hne : page ≠ []) : Filled limit budget page last (row :: rows) (.ok ⟨page, last⟩) := by
      have hfits : fits budget page = true := hpage.resolve_left hne
      have h : Filled limit budget page last (row :: rows) (.ok ⟨page ++ [].map TaskRow.item,
          ([].getLast?.map fun r : TaskRow => toString r.sequence).or last⟩) :=
        .more rfl (by simp) (by simpa using hne) (by simpa using hfits)
      simpa using h
    unfold fillPage
    by_cases hfull : page.length = limit
    · rw [if_pos hfull]
      exact hstop (by rintro rfl; simp only [List.length_nil] at hfull; omega)
    · rw [if_neg hfull]
      by_cases hfit : fits budget (page ++ [row.item]) = true
      · rw [if_pos hfit]
        refine Filled.cons (ih ?_ (.inr hfit))
        rw [List.length_append, List.length_singleton]
        omega
      · rw [if_neg hfit]
        by_cases hempty : page.isEmpty = true
        · rw [if_pos hempty]
          obtain rfl : page = [] := by simpa using hempty
          exact .oversized rfl rfl (by simpa using hfit)
        · rw [if_neg hempty]
          exact hstop (by simpa using hempty)

/-! ## Pages of the matching rows -/

/-- Whether a row satisfies the filter; no wing is called by something that is not a name. -/
def TaskListFilter.satisfied (filter : TaskListFilter) (t : TaskRow) : Bool :=
  match filter.wing.mapM WingId.normalized with
  | .ok wing => filter.admits wing t
  | .error _ => false

/-- The rows that satisfy the filter and are visible, in sequence order. -/
def matching (db : CoordinationDb) (filter : TaskListFilter)
    (visibility : CoordinationVisibility) : List TaskRow :=
  db.tasks.rows.filter fun t => filter.satisfied t && visibility.sees t.wing

theorem matching_sorted (db : CoordinationDb) (filter : TaskListFilter)
    (visibility : CoordinationVisibility) :
    (matching db filter visibility).Pairwise fun a b => a.sequence < b.sequence :=
  db.tasks.sorted.filter _

def listing (db : CoordinationDb) (filter : TaskListFilter)
    (visibility : CoordinationVisibility) : Cursored TaskRow (Option Int) :=
  .ofSorted (matching db filter visibility) (·.sequence) (matching_sorted db filter visibility)

/-- The cursor behind a row is read back from the text it is sent as. -/
theorem parse_sequence {db : CoordinationDb} {r : TaskRow} (hr : r ∈ db.tasks.rows) :
    parseI64 (toString r.sequence) = some r.sequence ∧
      (Json.str (toString r.sequence)).encodedSize ≤ 21 := by
  obtain ⟨hpos, hmax⟩ := db.tasks.inRange r hr
  obtain ⟨n, hn⟩ := Int.eq_ofNat_of_zero_le (by omega : 0 ≤ r.sequence)
  rw [hn] at hmax ⊢
  exact ⟨parseI64_toString hmax, quotedSize_toString hmax⟩

/-- What one call answers, if the filter's wing is a name. -/
inductive Listed (db : CoordinationDb) (filter : TaskListFilter)
    (visibility : CoordinationVisibility) (budget : Nat) (cursor : Option Int) :
    Except StorageError TaskListPage → Prop where
  | final (hsize : (TaskListPage.json ⟨((listing db filter visibility).rest cursor).map (·.item),
        none⟩).encodedSize ≤ budget) :
      Listed db filter visibility budget cursor
        (.ok ⟨((listing db filter visibility).rest cursor).map (·.item), none⟩)
  | more {front behind : List TaskRow} {r : TaskRow}
      (hrest : (listing db filter visibility).rest cursor = front ++ r :: behind)
      (hsize : (TaskListPage.json ⟨(front ++ [r]).map (·.item),
        some (toString r.sequence)⟩).encodedSize ≤ budget) :
      Listed db filter visibility budget cursor
        (.ok ⟨(front ++ [r]).map (·.item), some (toString r.sequence)⟩)
  | oversized {row : TaskRow} (hrow : row ∈ matching db filter visibility)
      (hfits : fits budget [row.item] = false) :
      Listed db filter visibility budget cursor (.error (oversized row budget))

theorem rest_subset {db : CoordinationDb} {filter : TaskListFilter}
    {visibility : CoordinationVisibility} {cursor : Option Int} {r : TaskRow}
    (h : r ∈ (listing db filter visibility).rest cursor) :
    r ∈ matching db filter visibility :=
  (List.mem_filter.1 h).1

/-- The page of the loop is a page of the listing: if it ends with the selected rows,
no row was left out of the selection. -/
theorem Filled.listed {db : CoordinationDb} {filter : TaskListFilter}
    {visibility : CoordinationVisibility} {limit budget : Nat} {cursor : Option Int}
    {result : Except StorageError TaskListPage} (hbudget : 128 ≤ budget)
    (h : Filled limit budget [] none (((listing db filter visibility).rest cursor).take (limit + 1))
      result) :
    Listed db filter visibility budget cursor result := by
  generalize hrest : (listing db filter visibility).rest cursor = rest at h
  have hmem : ∀ r ∈ rest.take (limit + 1), r ∈ matching db filter visibility := by
    intro r hr
    exact rest_subset (hrest ▸ List.mem_of_mem_take hr)
  cases h with
  | final hlen hfits =>
    have hall : rest.take (limit + 1) = rest := by
      rw [List.length_nil, List.length_take] at hlen
      exact List.take_of_length_le (by omega)
    rw [hall, ← hrest, List.nil_append] at hfits ⊢
    refine .final ?_
    rcases hfits with hempty | hfits
    · rw [hempty]
      exact Nat.le_trans empty_page_size hbudget
    · exact fits_page hfits (by decide)
  | @more taken behind hrows hbehind hne hfits =>
    have htaken : taken ≠ [] := by simpa using hne
    obtain ⟨front, r, rfl⟩ : ∃ front r, taken = front ++ [r] :=
      ⟨taken.dropLast, taken.getLast htaken, (List.dropLast_concat_getLast htaken).symm⟩
    have hr : r ∈ matching db filter visibility := hmem r (by rw [hrows]; simp)
    have hcursor : (optStr (some (toString r.sequence))).encodedSize ≤ 21 :=
      (parse_sequence (List.mem_filter.1 hr).1).2
    have hsplit : rest = front ++ r :: (behind ++ rest.drop (limit + 1)) := by
      conv => lhs; rw [← List.take_append_drop (limit + 1) rest, hrows]
      simp
    have hlast : (((front ++ [r]).getLast?.map fun r => toString r.sequence).or none) =
        some (toString r.sequence) := by simp
    rw [hlast]
    exact .more (hrest.trans hsplit) (fits_page hfits hcursor)
  | @oversized row behind hrows _ hfits => exact .oversized (hmem row (by rw [hrows]; simp)) hfits

theorem budget_min {byteBudget : Nat} (h : 128 ≤ byteBudget) :
    128 ≤ min byteBudget taskListPageBytes := by
  have : 128 ≤ taskListPageBytes := by decide
  omega

theorem tasks_unseen {db : CoordinationDb} {filter : TaskListFilter} {byteBudget : Nat}
    (limit : Nat) (cursor : Option Int) (hbudget : 128 ≤ byteBudget) :
    Listed db filter (.federated (some [])) (min byteBudget taskListPageBytes) cursor
      (tasks db cursor filter limit byteBudget (.federated (some []))) := by
  have hmin := budget_min hbudget
  have hnone : (listing db filter (.federated (some []))).rest cursor = [] := by
    simp [listing, Cursored.ofSorted, matching, CoordinationVisibility.sees]
  have h : Listed db filter (.federated (some [])) (min byteBudget taskListPageBytes) cursor (.ok
      ⟨((listing db filter (.federated (some []))).rest cursor).map (·.item), none⟩) :=
    .final (by rw [hnone]; exact Nat.le_trans empty_page_size hmin)
  unfold tasks
  rw [if_neg (by omega)]
  rw [hnone] at h
  exact h

theorem tasks_listed {db : CoordinationDb} {filter : TaskListFilter}
    {visibility : CoordinationVisibility} {wing : Option WingId} {byteBudget : Nat} (limit : Nat)
    (cursor : Option Int) (hbudget : 128 ≤ byteBudget) (hwing : filter.wing.mapM WingId.normalized = .ok wing) :
    Listed db filter visibility (min byteBudget taskListPageBytes) cursor
      (tasks db cursor filter limit byteBudget visibility) := by
  by_cases hunseen : visibility = .federated (some [])
  · subst hunseen
    exact tasks_unseen limit cursor hbudget
  have hmin := budget_min hbudget
  have hrows : (db.tasks.rows.filter fun t => cursor.getD 0 < t.sequence && filter.admits wing t &&
      visibility.sees t.wing) = (listing db filter visibility).rest cursor := by
    show _ = (matching db filter visibility).filter fun r => cursor.getD 0 < r.sequence
    rw [matching, List.filter_filter]
    simp only [TaskListFilter.satisfied, hwing, Bool.and_assoc]
  have hlimit : 0 < max 1 (min limit taskListMaxLimit) := by omega
  unfold tasks
  rw [if_neg (by omega)]
  simp only [hwing]
  show Listed db filter visibility _ cursor (fillPage _ _ [] none ((db.tasks.rows.filter _).take _))
  rw [hrows]
  exact Filled.listed hmin (fillPage_filled _ hlimit (Nat.zero_le _) (.inl rfl))

theorem tasks_refused {db : CoordinationDb} {filter : TaskListFilter}
    {visibility : CoordinationVisibility} {byteBudget : Nat} {e : IdError} (limit : Nat)
    (cursor : Option Int) (hbudget : 128 ≤ byteBudget)
    (hvisible : visibility ≠ .federated (some []))
    (hwing : filter.wing.mapM WingId.normalized = .error e) :
    tasks db cursor filter limit byteBudget visibility = .error (.invalidId e) := by
  have hmin := budget_min hbudget
  unfold tasks
  rw [if_neg (by omega)]
  simp only [hwing]
  rfl

section
variable {db : CoordinationDb} {filter : TaskListFilter} {visibility : CoordinationVisibility}
  {limit byteBudget budget : Nat} {cursor : Option Int}

theorem fetchTasks_final {items : List TaskListItem}
    (h : tasks db cursor filter limit byteBudget visibility = .ok ⟨items, none⟩) :
    fetchTasks db filter limit byteBudget visibility cursor = .ok (⟨items, none⟩, none) := by
  unfold fetchTasks
  rw [h]
  rfl

theorem fetchTasks_more {items : List TaskListItem} {text : String} {n : Int}
    (h : tasks db cursor filter limit byteBudget visibility = .ok ⟨items, some text⟩)
    (hn : parseI64 text = some n) :
    fetchTasks db filter limit byteBudget visibility cursor =
      .ok (⟨items, some text⟩, some (some n)) := by
  simp only [fetchTasks, h, bind, Except.bind, hn]
  rfl

theorem fetchTasks_error {e : StorageError}
    (h : tasks db cursor filter limit byteBudget visibility = .error e) :
    fetchTasks db filter limit byteBudget visibility cursor = .error e := by
  unfold fetchTasks
  rw [h]
  rfl

theorem fetchTasks_listed
    (h : Listed db filter visibility budget cursor
      (tasks db cursor filter limit byteBudget visibility)) :
    (∃ page rows next, fetchTasks db filter limit byteBudget visibility cursor = .ok (page, next) ∧
      page.tasks = rows.map (·.item) ∧
      IsPage (listing db filter visibility).pos ((listing db filter visibility).rest cursor) rows next) ∨
    ∃ row ∈ matching db filter visibility, fits budget [row.item] = false ∧
      fetchTasks db filter limit byteBudget visibility cursor = .error (oversized row budget) := by
  generalize hresult : tasks db cursor filter limit byteBudget visibility = result at h
  cases h with
  | final => exact .inl ⟨_, _, _, fetchTasks_final hresult, rfl, .final⟩
  | @more front behind r hrest =>
    have hmem : r ∈ (listing db filter visibility).rest cursor := by rw [hrest]; simp
    have hparse := (parse_sequence (List.mem_filter.1 (rest_subset hmem)).1).1
    exact .inl ⟨_, _, _, fetchTasks_more hresult hparse, rfl, .more hrest⟩
  | oversized hrow hfits => exact .inr ⟨_, hrow, hfits, fetchTasks_error hresult⟩

end

/-! ## Discovery is exact -/

/-- Reading all pages from the first on ends, with pages that add up to the matching
rows or with the refusal of an item that does not fit; every page is within
its budget, and empty only at the end. -/
structure PagedExactly (db : CoordinationDb) (filter : TaskListFilter)
    (visibility : CoordinationVisibility) (limit byteBudget : Nat) : Prop where
  ends : ∃ calls result,
    listTasks db filter limit byteBudget visibility calls = some result ∧
    ((∃ pages, result = .ok pages ∧
      pages.flatMap (·.tasks) = (matching db filter visibility).map (·.item)) ∨
    ∃ row ∈ matching db filter visibility,
      fits (min byteBudget taskListPageBytes) [row.item] = false ∧
      result = .error (oversized row (min byteBudget taskListPageBytes)))
  ordered : (matching db filter visibility).Pairwise fun a b => a.sequence < b.sequence
  size : ∀ cursor page, tasks db cursor filter limit byteBudget visibility = .ok page →
    page.json.encodedSize ≤ min byteBudget taskListPageBytes
  nonempty : ∀ cursor page, tasks db cursor filter limit byteBudget visibility = .ok page →
    page.nextCursor ≠ none → page.tasks ≠ []

theorem PagedExactly.of_listed {db : CoordinationDb} {filter : TaskListFilter}
    {visibility : CoordinationVisibility} {limit byteBudget : Nat}
    (h : ∀ cursor, Listed db filter visibility (min byteBudget taskListPageBytes) cursor
      (tasks db cursor filter limit byteBudget visibility)) :
    PagedExactly db filter visibility limit byteBudget where
  ends := by
    have hfetch : ∀ cursor page next,
        fetchTasks db filter limit byteBudget visibility cursor = .ok (page, next) →
        ∃ rows, page.tasks = rows.map (·.item) ∧ IsPage (listing db filter visibility).pos
          ((listing db filter visibility).rest cursor) rows next := by
      intro cursor page next hok
      rcases fetchTasks_listed (h cursor) with ⟨_, rows, _, hok', hitems, hpage⟩ | ⟨_, _, _, herror⟩
      · rw [hok] at hok'
        cases hok'
        exact ⟨rows, hitems, hpage⟩
      · rw [hok] at herror
        cases herror
    have hstart : (listing db filter visibility).rest none = matching db filter visibility := by
      refine List.filter_eq_self.2 fun r hr => ?_
      have := (db.tasks.inRange r (List.mem_filter.1 hr).1).1
      simpa using this
    rcases collect_exact _ hfetch (Nat.lt_succ_self ((listing db filter visibility).rest none).length)
      with ⟨pages, hpages, hall⟩ | ⟨cursor, e, herror, hpages⟩
    · rw [hstart] at hall
      exact ⟨_, _, hpages, .inl ⟨pages, rfl, hall⟩⟩
    · rcases fetchTasks_listed (h cursor) with ⟨_, _, _, hok, _⟩ | ⟨row, hrow, hfits, herror'⟩
      · rw [herror] at hok
        cases hok
      · rw [herror] at herror'
        cases herror'
        exact ⟨_, _, hpages, .inr ⟨row, hrow, hfits, rfl⟩⟩
  ordered := matching_sorted db filter visibility
  size := by
    intro cursor page hok
    have hlisted := h cursor
    rw [hok] at hlisted
    cases hlisted with
    | final hsize => exact hsize
    | more _ hsize => exact hsize
  nonempty := by
    intro cursor page hok hnext
    have hlisted := h cursor
    rw [hok] at hlisted
    cases hlisted with
    | final => exact absurd rfl hnext
    | more => simp

/-- **Task discovery is exact**, unless the filter names a wing by something that
is not a name; then every call is refused. -/
theorem task_discovery_exact (db : CoordinationDb) (filter : TaskListFilter)
    (visibility : CoordinationVisibility) (limit byteBudget : Nat) (hbudget : 128 ≤ byteBudget) :
    PagedExactly db filter visibility limit byteBudget ∨
    ∃ e, filter.wing.mapM WingId.normalized = .error e ∧
      ∀ cursor, tasks db cursor filter limit byteBudget visibility = .error (.invalidId e) := by
  cases hwing : filter.wing.mapM WingId.normalized with
  | ok wing => exact .inl (.of_listed fun cursor => tasks_listed limit cursor hbudget hwing)
  | error e =>
    by_cases hvisible : visibility = .federated (some [])
    · subst hvisible
      exact .inl (.of_listed fun cursor => tasks_unseen limit cursor hbudget)
    · exact .inr ⟨e, rfl, fun cursor => tasks_refused limit cursor hbudget hvisible hwing⟩

/-- The planner creates a second task. -/
def plannerPlans : List Request := [plannerCreates, ⟨sampleHost 1 "2", .createTask
  { sampleTask with title := "review the parser", idempotencyKey := "k2" } none⟩]

/-- What a page shows of its tasks, and its cursor. -/
def TaskListPage.shown (p : TaskListPage) : List String × Option String :=
  (p.tasks.map (·.taskId), p.nextCursor)

/-- Pages of one task: the first one's cursor leads to the second. -/
theorem task_discovery_exact_sample : PagedExactly (after plannerPlans).db {} .trusted 1 1000 ∧
    ((listTasks (after plannerPlans).db {} 1 1000 .trusted 2).map fun pages =>
      pages.toOption.map (·.map TaskListPage.shown)) =
      some (some [(["task_1"], some "1"), (["task_2"], none)]) := by
  refine ⟨?_, by decide +kernel⟩
  rcases task_discovery_exact (after plannerPlans).db {} .trusted 1 1000 (by decide) with
    h | ⟨e, he, _⟩
  · exact h
  · cases he

/-- A filter with a blank wing gets neither pages nor the refusal of an item. -/
theorem task_discovery_refuses_blank_wing :
    ¬ PagedExactly .empty { wing := some "" } .trusted 50 1000 := by
  intro h
  obtain ⟨calls, result, hlist, hresult⟩ := h.ends
  have hrefused : tasks .empty none { wing := some "" } 50 1000 .trusted =
      .error (.invalidId (.empty "wing")) :=
    tasks_refused 50 none (by decide) nofun rfl
  cases calls with
  | zero => cases hlist
  | succ calls =>
    rw [listTasks, collect, fetchTasks_error hrefused] at hlist
    cases hlist
    rcases hresult with ⟨_, hpages, _⟩ | ⟨_, hrow, _⟩
    · cases hpages
    · cases hrow

end AgentPalace.Coordination
