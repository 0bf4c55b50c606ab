import AgentPalace.Coordination.Discovery
import AgentPalace.Mcp.TasksBudget

/-!
# Following the cursors of all origins

A client calls the task listing again and again, with the cursors it was last
given, for the origins that are not at their end (`FollowStep`). Whatever fails on
the way, what it has received of an origin is a front part of the tasks listed
there, and all of them at the end (`follow_exact`).
-/

namespace AgentPalace

open Coordination (optStr TaskListFilter CoordinationDb CoordinationVisibility TaskRow)

/-! ### The client -/

structure OriginProgress where
  cursor : Option String
  finished : Bool
  received : List Json

def OriginProgress.start : OriginProgress := ⟨none, false, []⟩

/-- The client takes the tasks and the cursor of a record; without an error and without a cursor it
is at the end. -/
def OriginProgress.read (p : OriginProgress) (v : Json) : OriginProgress :=
  let cursor :=
    match v.get? "next_cursor" with
    | some (.str text) => some text
    | _ => none
  let tasks :=
    match v.get? "tasks" with
    | some (.arr tasks) => tasks
    | _ => []
  { cursor
    finished := (v.get? "error").isNone && cursor.isNone
    received := p.received ++ tasks }

theorem OriginProgress.read_kept {p : OriginProgress} {v : Json}
    (h : FederationRouter.Kept p.cursor v) :
    p.read v = { p with finished := false } := by
  obtain ⟨hcursor, htasks, herror⟩ := h
  have herror' : (v.get? "error").isNone = false := by
    obtain ⟨error, hsome⟩ := Option.isSome_iff_exists.1 herror
    rw [hsome]
    rfl
  unfold read
  rw [hcursor, herror']
  rcases htasks with htasks | htasks <;> rw [htasks] <;> cases p.cursor <;> simp [optStr]

theorem OriginProgress.read_page (p : OriginProgress) (page : CoordinationTasksResponse) :
    p.read page.json =
      ⟨page.nextCursor, page.nextCursor.isNone, p.received ++ page.tasks⟩ := by
  obtain ⟨tasks, cursor⟩ := page
  cases cursor <;> rfl

/-! ### The origins -/

/-- The palace behind a remote, and what the caller sees of it. -/
structure Origin where
  db : CoordinationDb
  filter : TaskListFilter
  visibility : CoordinationVisibility

inductive ReadsCursor : Option String → Option Int → Prop where
  | start : ReadsCursor none none
  | after {text : String} {n : Int} (h : parseI64 text = some n) : ReadsCursor (some text) (some n)

theorem ReadsCursor.unique {text : Option String} {a b : Option Int} (ha : ReadsCursor text a)
    (hb : ReadsCursor text b) : a = b := by
  cases ha with
  | start =>
    cases hb
    rfl
  | after hn =>
    cases hb with
    | after hn' => rw [← hn, hn']

/-- An origin fails, sends more than it was asked for, or a page of its tasks. -/
def Origin.Answers (o : Origin) (request : CoordinationTasksQuery) :
    Option (Except RemoteError CoordinationTasksResponse) → Prop
  | none | some (.error _) => True
  | some (.ok page) => (∃ budget, request.byteBudget = some budget ∧
      page.json.encodedSize > budget) ∨
    ∃ cursor limit budget sent, ReadsCursor request.cursor cursor ∧
      Coordination.tasks o.db cursor o.filter limit budget o.visibility = .ok sent ∧
      page = ⟨sent.tasks.map (·.json), sent.nextCursor⟩

section
variable {Api : Type}

inductive FollowStep (router : FederationRouter Api) (origin : Api → Origin)
    (query : CoordinationTasksQuery) (s : String → OriginProgress) :
    (String → OriginProgress) → Prop where
  | call {ask : Api → CoordinationTasksQuery →
        Option (Except RemoteError CoordinationTasksResponse)}
      {joined : List (String × Api) → List (String × Api)} {cursors : OrdMap String String}
      {names : List String} {budget : UInt64} {results : OrdMap String Json}
      (hask : ∀ api request, (origin api).Answers request (ask api request))
      (hjoined : ∀ cs, ∀ c ∈ joined cs, c ∈ cs)
      (hcursors : ∀ name, cursors.get? name = (s name).cursor)
      (hnames : ∀ name ∈ names, (s name).finished = false)
      (h : router.coordinationTasksFanout ask joined query cursors (some names) budget =
        .ok results) :
      FollowStep router origin query s fun name =>
        match results.get? name with
        | some v => (s name).read v
        | none => s name

/-- What has been received of an origin is the front of its tasks, up to the cursor. -/
inductive Reached (o : Origin) (p : OriginProgress) : Prop where
  | finished (hfinished : p.finished = true)
      (hall : p.received = (Coordination.matching o.db o.filter o.visibility).map (·.item.json))
  | following {front : List TaskRow} {cursor : Option Int} (hfinished : p.finished = false)
      (hcursor : ReadsCursor p.cursor cursor)
      (hrest : Coordination.matching o.db o.filter o.visibility =
        front ++ (Coordination.listing o.db o.filter o.visibility).rest cursor)
      (hreceived : p.received = front.map (·.item.json))

theorem rest_none (o : Origin) :
    (Coordination.listing o.db o.filter o.visibility).rest none =
      Coordination.matching o.db o.filter o.visibility := by
  refine List.filter_eq_self.2 fun r hr => ?_
  have := (o.db.tasks.inRange r (List.mem_filter.1 hr).1).1
  simpa using this

theorem reached_start (o : Origin) : Reached o .start :=
  @Reached.following o .start [] none rfl .start (rest_none o).symm rfl

/-- A call that succeeds answers a page of the listing. -/
theorem listed_of_ok {o : Origin} {cursor : Option Int} {limit budget : Nat}
    {sent : Coordination.TaskListPage}
    (h : Coordination.tasks o.db cursor o.filter limit budget o.visibility = .ok sent) :
    Coordination.Listed o.db o.filter o.visibility (min budget Coordination.taskListPageBytes)
      cursor (.ok sent) := by
  have hbudget : 128 ≤ budget := by
    by_contra hsmall
    unfold Coordination.tasks at h
    rw [if_pos (by omega)] at h
    cases h
  by_cases hvisible : o.visibility = .federated (some [])
  · have := @Coordination.tasks_unseen o.db o.filter budget limit cursor hbudget
    rw [← hvisible, h] at this
    exact this
  · cases hwing : o.filter.wing.mapM WingId.normalized with
    | ok wing =>
      rw [← h]
      exact Coordination.tasks_listed limit cursor hbudget hwing
    | error e =>
      rw [Coordination.tasks_refused limit cursor hbudget hvisible hwing] at h
      cases h

theorem Reached.page {o : Origin} {p : OriginProgress} (h : Reached o p)
    (hopen : p.finished = false) {cursor : Option Int} (hcursor : ReadsCursor p.cursor cursor)
    {limit budget : Nat} {sent : Coordination.TaskListPage}
    (hsent : Coordination.tasks o.db cursor o.filter limit budget o.visibility = .ok sent) :
    Reached o (p.read (CoordinationTasksResponse.json
      ⟨sent.tasks.map (·.json), sent.nextCursor⟩)) := by
  rw [OriginProgress.read_page]
  cases h with
  | finished hfinished => exact absurd (hopen.symm.trans hfinished) Bool.false_ne_true
  | @following front cursor' _ hcursor' hrest hreceived =>
    obtain rfl := hcursor'.unique hcursor
    cases listed_of_ok hsent with
    | final =>
      refine .finished rfl ?_
      rw [hrest, hreceived, List.map_append, List.map_map]
      rfl
    | @more page behind r hpage =>
      have hr : r ∈ o.db.tasks.rows := by
        have hmem : r ∈ Coordination.matching o.db o.filter o.visibility := by
          rw [hrest, hpage]
          simp
        exact (List.mem_filter.1 hmem).1
      have hbehind := (Coordination.listing o.db o.filter o.visibility).rest_pos hpage
      refine @Reached.following o _ (front ++ page ++ [r]) _ rfl
        (.after (Coordination.parse_sequence hr).1) ?_ ?_
      · have hpos : (Coordination.listing o.db o.filter o.visibility).rest (some r.sequence) =
            behind := hbehind
        rw [hrest, hpage, hpos]
        simp
      · rw [hreceived]
        simp

def Following (router : FederationRouter Api) (origin : Api → Origin)
    (s : String → OriginProgress) : Prop :=
  ∀ name api, (name, api) ∈ router.remotes.entries → Reached (origin api) (s name)

/-- A call leaves an origin as it was, or the client reads a page from its cursor on. -/
theorem FollowStep.page_or_same {router : FederationRouter Api} {origin : Api → Origin}
    {query : CoordinationTasksQuery} {s s' : String → OriginProgress}
    (hstep : FollowStep router origin query s s') {name : String} {api : Api}
    (hmem : (name, api) ∈ router.remotes.entries) :
    s' name = s name ∨ (s name).finished = false ∧ ∃ cursor limit budget sent,
      ReadsCursor (s name).cursor cursor ∧ Coordination.tasks (origin api).db cursor
        (origin api).filter limit budget (origin api).visibility = .ok sent ∧
      s' name = (s name).read (CoordinationTasksResponse.json
        ⟨sent.tasks.map (·.json), sent.nextCursor⟩) := by
  obtain @⟨ask, joined, cursors, names, budget, results, hask, hjoined, hcursors, hnames, hcall⟩ :=
    hstep
  dsimp only
  cases hv : results.get? name with
  | none => exact .inl rfl
  | some v =>
    obtain ⟨hcandidate, perOrigin, hrecorded⟩ := FederationRouter.fanout_recorded hjoined hcall hv
    have hopen : (s name).finished = false := by
      obtain ⟨c, hc, rfl⟩ := List.mem_map.1 hcandidate
      obtain ⟨-, hselected⟩ := List.mem_filter.1 hc
      exact hnames _ (by simpa using hselected)
    dsimp only
    rcases hrecorded.page_or_kept with hkept | ⟨api', page, hc, hanswer, hsize, rfl⟩
    · rw [hcursors] at hkept
      have hsame := OriginProgress.read_kept hkept
      rw [← hopen] at hsame
      exact .inl hsame
    · have hapi : api' = api := by
        have hentry := List.mem_of_mem_filter (List.mem_of_mem_filter hc)
        have hfirst := OrdMap.mem_entries.1 hentry
        rw [OrdMap.mem_entries.1 hmem] at hfirst
        exact (Option.some.inj hfirst).symm
      subst hapi
      have hanswers := hask api' (FederationRouter.originQuery query cursors perOrigin name)
      rw [hanswer] at hanswers
      rcases hanswers with ⟨budget', hbudget', hlarge⟩ |
        ⟨cursor, limit, budget', sent, hcursor, hsent, rfl⟩
      · obtain rfl := Option.some.inj hbudget'
        exact absurd hsize (not_le.2 hlarge)
      · refine .inr ⟨hopen, cursor, limit, budget', sent, ?_, hsent, rfl⟩
        rw [← hcursors]
        exact hcursor

theorem Following.step {router : FederationRouter Api} {origin : Api → Origin}
    {query : CoordinationTasksQuery} {s s' : String → OriginProgress}
    (h : Following router origin s) (hstep : FollowStep router origin query s s') :
    Following router origin s' := by
  intro name api hmem
  rcases hstep.page_or_same hmem with hsame | ⟨hopen, cursor, limit, budget, sent, hcursor, hsent,
    hread⟩
  · rw [hsame]
    exact h name api hmem
  · rw [hread]
    exact (h name api hmem).page hopen hcursor hsent

theorem FollowStep.progress {router : FederationRouter Api} {origin : Api → Origin}
    {query : CoordinationTasksQuery} {s s' : String → OriginProgress}
    (hstep : FollowStep router origin query s s') {name : String} {api : Api}
    (hmem : (name, api) ∈ router.remotes.entries) :
    s' name = s name ∨ (s' name).finished = true ∨
      (s name).received.length < (s' name).received.length := by
  refine (hstep.page_or_same hmem).imp_right ?_
  rintro ⟨-, cursor, limit, budget, sent, -, hsent, hread⟩
  rw [hread, OriginProgress.read_page]
  cases listed_of_ok hsent with
  | final => exact .inl rfl
  | more => exact .inr (by simp)

/-- **Following the cursors** of all origins, from the start: what was received of an origin is a
front part of its tasks, and all of them at the end. -/
theorem follow_exact {router : FederationRouter Api} {origin : Api → Origin}
    {query : CoordinationTasksQuery} {s : String → OriginProgress}
    (h : Relation.ReflTransGen (FollowStep router origin query) (fun _ => .start) s) :
    Following router origin s := by
  induction h with
  | refl => exact fun _ api _ => reached_start (origin api)
  | tail _ hstep ih => exact ih.step hstep

/-- **The task listing respects its budget and loses nothing.** Unless nobody may be asked, a
listing is within the budget; an origin returns its page whole or keeps its cursor; and following
the cursors reads the tasks of every origin once and in order. -/
theorem coordinationTasks_exact (router : FederationRouter Api) :
    (∀ ask joined query cursors selected budget results, (∀ cs, ∀ c ∈ joined cs, c ∈ cs) →
      router.coordinationTasksFanout ask joined query cursors selected budget = .ok results →
      (results.json.encodedSize ≤ budget.toNat ∨
        router.tasksClosed query = true ∧ results = .empty) ∧
      ∀ name v, results.get? name = some v →
        FederationRouter.Kept (cursors.get? name) v ∨ ∃ api perOrigin page,
          (name, api) ∈ router.tasksCandidates selected ∧
          ask api (FederationRouter.originQuery query cursors perOrigin name) = some (.ok page) ∧
          v = page.json) ∧
    ∀ origin query s,
      Relation.ReflTransGen (FollowStep router origin query) (fun _ => .start) s →
      Following router origin s ∧ ∀ s', FollowStep router origin query s s' →
        ∀ name api, (name, api) ∈ router.remotes.entries →
          s' name = s name ∨ (s' name).finished = true ∨
            (s name).received.length < (s' name).received.length := by
  constructor
  · intro ask joined query cursors selected budget results hjoined h
    refine ⟨FederationRouter.coordinationTasksFanout_budget hjoined h, fun name v hv => ?_⟩
    obtain ⟨-, perOrigin, hrecorded⟩ := FederationRouter.fanout_recorded hjoined h hv
    refine hrecorded.page_or_kept.imp_right ?_
    rintro ⟨api, page, hmem, hanswer, -, hpage⟩
    exact ⟨api, perOrigin, page, hmem, hanswer, hpage⟩
  · intro origin query s h
    exact ⟨follow_exact h, fun s' hstep name api hmem => hstep.progress hmem⟩

end

/-- Where coordination is not federated an empty listing takes two bytes of a budget of none. -/
theorem tasks_budget_exceeded :
    ∃ results, FederationRouter.coordinationTasksFanout
        ⟨.default, (.empty : OrdMap String Unit)⟩
        (fun _ _ => none) id ⟨none, none, none, none, none, none, none, none⟩ .empty none 0 =
          .ok results ∧
      (0 : UInt64).toNat < results.json.encodedSize :=
  ⟨.empty, rfl, by decide⟩

end AgentPalace
