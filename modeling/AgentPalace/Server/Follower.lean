import AgentPalace.Server.Feed

/-!
# A follower of the change feed

Mutations read their time, work, and append their event later; a client pages
through the feed by cursor and, when a page has no cursor, goes on from the last
time it received. As long as no event is inserted before the position the client
reads from next, every event is received or still ahead of it
(`no_change_missed`).
-/

namespace AgentPalace.Server

open ChangeLog

structure Follower where
  cursor : Option String := none
  received : List ChangeEventDto := []

/-- The last `occurred_at` it received. -/
def Follower.since (f : Follower) : Option String := f.received.getLast?.map (·.occurredAt)

def Follower.take (f : Follower) (response : ChangesResponse) : Follower :=
  { cursor := response.nextCursor, received := f.received ++ response.events }

structure FeedState where
  db : ChangeDb
  clock : OffsetDateTime
  /-- The appends of mutations that have read their time. -/
  inFlight : List Call
  follower : Follower

inductive FeedEvent where
  | tick (now : OffsetDateTime)
  | start (call : Call)
  | insert (call : Call)
  | poll

section
variable (fromStr : String → Option Json) (parse : String → Option OffsetDateTime)
  (auth : AuthIdentity) (limit : Option Nat)

/-- One request of the follower; after an error it asks again. -/
def FeedState.poll (w : FeedState) : FeedState :=
  match routeChanges fromStr parse w.db auth
      { since := w.follower.since, limit, cursor := w.follower.cursor } with
  | .ok response => { w with follower := w.follower.take response }
  | .error _ => w

inductive FeedStep : FeedState → FeedEvent → FeedState → Prop where
  | tick {w : FeedState} {now : OffsetDateTime} (h : w.clock ≤ now) :
      FeedStep w (.tick now) { w with clock := now }
  | start {w : FeedState} {call : Call} (hnow : call.payload.1.occurredAt = w.clock)
      (hsend : Sendable fromStr parse call.payload.1) :
      FeedStep w (.start call) { w with inFlight := call :: w.inFlight }
  | insert {w : FeedState} {call : Call} {before after : List Call}
      (h : w.inFlight = before ++ call :: after) :
      FeedStep w (.insert call)
        { w with db := (call.execute w.db).2, inFlight := before ++ after }
  | poll {w : FeedState} : FeedStep w .poll (w.poll fromStr parse auth limit)

/-- A client that follows the feed of any log from its start. -/
def following : Machine FeedState FeedEvent where
  Init w := Regular fromStr parse w.db ∧ w.inFlight = [] ∧ w.follower = {}
  Step := FeedStep fromStr parse auth limit

/-- The text of the time the follower's next request reads from. -/
def Follower.position (f : Follower) : Option String :=
  match f.cursor with
  | some cursor => (decodeCursor parse cursor).toOption.map fun c => encodeTime c.occurredAt
  | none => f.since

/-- An event the client may see is not inserted before the position it reads from next. -/
def InOrder (w : FeedState) : FeedEvent → Prop
  | .insert call => sees fromStr auth call.payload.1 = true →
      ∀ text ∈ w.follower.position parse, ¬ encodeTime call.payload.1.occurredAt < text
  | _ => True

/-! ## What the follower has and what is ahead of it -/

structure Reads (w : FeedState) (since : Option OffsetDateTime) (cursor : Option ChangeCursor) :
    Prop where
  position : Position parse w.follower.since w.follower.cursor since cursor
  sinceText : w.follower.since = since.map encodeTime
  handedOut : ∀ c ∈ cursor, ∃ r ∈ w.db.changes.rows, c = ⟨r.event.occurredAt, r.rowid⟩
  ahead : ∀ r ∈ w.db.changes.rows, sees fromStr auth r.event = true →
    eventDto fromStr r.event ∈ w.follower.received ∨ behind since cursor r = true

structure FollowerInv (w : FeedState) : Prop where
  regular : Regular fromStr parse w.db
  sendable : ∀ call ∈ w.inFlight, Sendable fromStr parse call.payload.1
  stored : ∀ d ∈ w.follower.received, ∃ r ∈ w.db.changes.rows, d = eventDto fromStr r.event
  reads : ∃ since cursor, Reads fromStr parse auth w since cursor

end

variable {fromStr : String → Option Json} {parse : String → Option OffsetDateTime}
  {auth : AuthIdentity} {limit : Option Nat} {w : FeedState}

/-- Where a follower goes on from without a cursor: the time of the last event it received. -/
theorem since_of_received {db : ChangeDb} (hdb : Regular fromStr parse db) {f : Follower}
    (hstored : ∀ d ∈ f.received, ∃ r ∈ db.changes.rows, d = eventDto fromStr r.event) :
    ∃ since, parseSince parse f.since = .ok since ∧ f.since = since.map encodeTime := by
  unfold Follower.since
  cases hlast : f.received.getLast? with
  | none => exact ⟨none, rfl, rfl⟩
  | some d =>
    obtain ⟨r, hr, rfl⟩ := hstored d (List.mem_of_getLast? hlast)
    have hsend := hdb r hr
    refine ⟨some r.event.occurredAt, ?_, ?_⟩
    · have htext : (eventDto fromStr r.event).occurredAt = r.event.occurredAt.rfc3339 := rfl
      simp only [Option.map_some, htext, parseSince, hsend.reads]
    · simp only [Option.map_some, encodeTime, if_pos hsend.formattable, eventDto]

/-- The feed after the client has taken a page of `rest`. -/
def FeedState.turned (fromStr : String → Option Json) (auth : AuthIdentity) (limit : Option Nat)
    (w : FeedState) (rest : List ChangeRow) : FeedState :=
  { w with follower := w.follower.take (pageOf fromStr auth (pageLimit limit) rest) }

section
variable {since : Option OffsetDateTime} {cursor : Option ChangeCursor} {rest : List ChangeRow}

theorem poll_turned (limit : Option Nat) (hinv : FollowerInv fromStr parse auth w)
    (hreads : Reads fromStr parse auth w since cursor) :
    w.poll fromStr parse auth limit = w.turned fromStr auth limit (pageRows w.db since cursor) := by
  have hroute := routeChanges_eq hinv.regular auth hreads.position limit
  unfold FeedState.poll
  rw [hroute]
  rfl

theorem stored_turned (limit : Option Nat) (hinv : FollowerInv fromStr parse auth w)
    (hmem : ∀ r ∈ rest, r ∈ w.db.changes.rows) :
    ∀ d ∈ (w.turned fromStr auth limit rest).follower.received, ∃ r ∈ w.db.changes.rows,
      d = eventDto fromStr r.event := by
  intro d hd
  rcases List.mem_append.1 hd with hd | hd
  · exact hinv.stored d hd
  · obtain ⟨r, hr, rfl⟩ := List.mem_map.1 hd
    exact ⟨r, hmem r (List.mem_of_mem_take (List.mem_filter.1 hr).1), rfl⟩

/-- A visible row that was ahead is on the page, or behind it. -/
theorem received_turned (limit : Option Nat)
    (hreads : Reads fromStr parse auth w since cursor) (hrest : pageRows w.db since cursor = rest) :
    ∀ r ∈ w.db.changes.rows, sees fromStr auth r.event = true →
      eventDto fromStr r.event ∈ (w.turned fromStr auth limit rest).follower.received ∨
        r ∈ rest.drop (pageLimit limit) := by
  intro r hr hsees
  rcases hreads.ahead r hr hsees with hgot | hahead
  · exact .inl (List.mem_append_left _ hgot)
  · have hin : r ∈ rest := hrest ▸ mem_pageRows.2 ⟨hr, hahead⟩
    rw [← List.take_append_drop (pageLimit limit) rest, List.mem_append] at hin
    refine hin.imp_left fun hin => List.mem_append_right _ ?_
    exact List.mem_map.2 ⟨r, List.mem_filter.2 ⟨hin, hsees⟩, rfl⟩

theorem cursor_turned (hinv : FollowerInv fromStr parse auth w)
    (hrest : pageRows w.db since cursor = rest) (hlen : pageLimit limit < rest.length) :
    ∃ last ∈ w.db.changes.rows,
      (w.turned fromStr auth limit rest).follower.cursor =
        some (encodeCursor ⟨last.event.occurredAt, last.rowid⟩) ∧
      (some (encodeCursor ⟨last.event.occurredAt, last.rowid⟩)).mapM (decodeCursor parse) =
        .ok (some ⟨last.event.occurredAt, last.rowid⟩) ∧
      ∀ since', pageRows w.db since' (some ⟨last.event.occurredAt, last.rowid⟩) =
        rest.drop (pageLimit limit) := by
  obtain ⟨last, hrows, hlast, _⟩ := getLast?_page (pageLimit_pos limit) hlen
  have hmem : last ∈ w.db.changes.rows :=
    (mem_pageRows.1 (hrest ▸ List.mem_of_mem_take (List.mem_of_getLast? hlast))).1
  have hsend := hinv.regular last hmem
  have hrange := w.db.changes.inRange last hmem
  refine ⟨last, hmem, ?_, ?_, fun since' => ?_⟩
  · show (pageOf fromStr auth (pageLimit limit) rest).nextCursor = _
    unfold pageOf
    rw [if_pos hlen, hlast]
    rfl
  · rw [Option.mapM_some, decode_encodeCursor hsend.formattable hsend.reads hrange.1 hrange.2]
    rfl
  · have h := rest_behind (hrest.trans hrows)
    rw [pageRows_eq] at h ⊢
    exact h

theorem poll_reads (limit : Option Nat) (hinv : FollowerInv fromStr parse auth w)
    (hreads : Reads fromStr parse auth w since cursor) :
    ∃ since' cursor', Reads fromStr parse auth (w.poll fromStr parse auth limit) since' cursor' ∧
      FollowerInv fromStr parse auth (w.poll fromStr parse auth limit) ∧
      ((w.poll fromStr parse auth limit).follower.cursor = none ∧
        (∀ r ∈ w.db.changes.rows, sees fromStr auth r.event = true →
          eventDto fromStr r.event ∈ (w.poll fromStr parse auth limit).follower.received) ∨
      (pageRows w.db since' cursor').length < (pageRows w.db since cursor).length ∧
        (w.poll fromStr parse auth limit).follower.cursor ≠ none) := by
  rw [poll_turned limit hinv hreads]
  generalize hrest : pageRows w.db since cursor = rest
  have hstored := stored_turned limit hinv fun r (hr : r ∈ rest) =>
    (mem_pageRows.1 (hrest ▸ hr)).1
  have hsplit := received_turned limit hreads hrest
  obtain ⟨since', hsince', htext'⟩ := since_of_received hinv.regular hstored
  by_cases hlen : rest.length ≤ pageLimit limit
  · have hcursor : (w.turned fromStr auth limit rest).follower.cursor = none :=
      if_neg (Nat.not_lt.2 hlen)
    have hall : ∀ r ∈ w.db.changes.rows, sees fromStr auth r.event = true →
        eventDto fromStr r.event ∈ (w.turned fromStr auth limit rest).follower.received := by
      intro r hr hsees
      refine (hsplit r hr hsees).resolve_right fun hdrop => ?_
      rw [List.drop_of_length_le hlen] at hdrop
      cases hdrop
    have hreads' : Reads fromStr parse auth (w.turned fromStr auth limit rest) since' none :=
      ⟨⟨hsince', by rw [hcursor]; rfl⟩, htext', fun c hc => (by cases hc),
        fun r hr hsees => .inl (hall r hr hsees)⟩
    exact ⟨since', none, hreads', ⟨hinv.regular, hinv.sendable, hstored, since', none, hreads'⟩,
      .inl ⟨hcursor, hall⟩⟩
  · obtain ⟨last, hlast, hcursor, hdecode, hbehind⟩ :=
      cursor_turned hinv hrest (Nat.not_le.1 hlen)
    have hreads' : Reads fromStr parse auth (w.turned fromStr auth limit rest) since'
        (some ⟨last.event.occurredAt, last.rowid⟩) := by
      refine ⟨⟨hsince', hcursor ▸ hdecode⟩, htext', fun c hc => ?_, fun r hr hsees => ?_⟩
      · cases hc
        exact ⟨last, hlast, rfl⟩
      · refine (hsplit r hr hsees).imp_right fun hdrop => ?_
        rw [← hbehind since'] at hdrop
        exact (mem_pageRows.1 hdrop).2
    refine ⟨since', _, hreads', ⟨hinv.regular, hinv.sendable, hstored, since', _, hreads'⟩,
      .inr ⟨?_, hcursor ▸ Option.some_ne_none _⟩⟩
    rw [hbehind, List.length_drop]
    have := pageLimit_pos limit
    omega

end

/-! ## Runs -/

variable (fromStr parse auth limit)

theorem init_reads (h : (following fromStr parse auth limit).Init w) :
    FollowerInv fromStr parse auth w := by
  obtain ⟨hregular, hflight, hfollower⟩ := h
  refine ⟨hregular, by simp [hflight], by simp [hfollower], none, none, ?_,
    by simp [hfollower, Follower.since], fun c hc => (by cases hc), fun r _ _ => .inr rfl⟩
  rw [hfollower]
  exact ⟨rfl, rfl⟩

variable {fromStr parse auth limit}

theorem behind_inserted {since : Option OffsetDateTime} {cursor : Option ChangeCursor}
    (hreads : Reads fromStr parse auth w since cursor) {r : ChangeRow}
    (hrow : ∀ r' ∈ w.db.changes.rows, r'.rowid < r.rowid)
    (horder : ∀ text ∈ w.follower.position parse, ¬ r.occurredAt < text) :
    behind since cursor r = true := by
  have hcursor := hreads.position.cursor
  cases cursor with
  | none =>
    cases hs : since with
    | none => rfl
    | some t =>
      have hnone : w.follower.cursor = none := by
        cases hc : w.follower.cursor with
        | none => rfl
        | some text =>
          rw [hc, Option.mapM_some] at hcursor
          cases hdecode : decodeCursor parse text <;> rw [hdecode] at hcursor <;> cases hcursor
      have htext : w.follower.position parse = some (encodeTime t) := by
        rw [Follower.position, hnone, hreads.sinceText, hs]
        rfl
      simpa [behind] using horder _ (by rw [htext]; rfl)
  | some c =>
    obtain ⟨r', hr', hc'⟩ := hreads.handedOut c rfl
    have htext : w.follower.position parse = some (encodeTime c.occurredAt) := by
      unfold Follower.position
      cases hc : w.follower.cursor with
      | none => rw [hc] at hcursor; cases hcursor
      | some text =>
        rw [hc, Option.mapM_some] at hcursor
        cases hdecode : decodeCursor parse text with
        | error e => rw [hdecode] at hcursor; cases hcursor
        | ok c' =>
          rw [hdecode] at hcursor
          cases hcursor
          simp [hdecode, Except.toOption]
    have hnot := horder _ (by rw [htext]; rfl)
    have hlt : c.rowid < r.rowid := by
      rw [hc']
      exact hrow r' hr'
    simp only [behind, decide_eq_true_eq]
    rcases Decidable.em (encodeTime c.occurredAt < r.occurredAt) with h | h
    · exact .inl h
    · exact .inr ⟨String.le_antisymm (String.not_lt.1 hnot) (String.not_lt.1 h), hlt⟩

theorem insert_rows (call : Call) (db : ChangeDb) :
    (call.execute db).2 = db ∨ ∃ rowid changes,
      (call.execute db).2 = { db with changes := changes } ∧
      changes.rows = db.changes.rows ++ [newRow call.payload.1 call.payload.2 rowid] := by
  have houtcome := execute_outcome call db
  generalize (call.execute db).1 = answer at houtcome
  generalize (call.execute db).2 = db' at houtcome
  cases houtcome with
  | refused => exact .inl rfl
  | ignored _ => exact .inl rfl
  | present _ _ => exact .inl rfl
  | added _ hrows => exact .inr ⟨_, _, rfl, hrows⟩

theorem step_reads {l : FeedEvent} {w' : FeedState} (hinv : FollowerInv fromStr parse auth w)
    (hstep : FeedStep fromStr parse auth limit w l w') (horder : InOrder fromStr parse auth w l) :
    FollowerInv fromStr parse auth w' := by
  obtain ⟨since, cursor, hreads⟩ := hinv.reads
  cases hstep with
  | tick _ =>
    exact ⟨hinv.regular, hinv.sendable, hinv.stored, since, cursor, hreads.position,
      hreads.sinceText, hreads.handedOut, hreads.ahead⟩
  | @start call hnow hsend =>
    refine ⟨hinv.regular, fun c hc => ?_, hinv.stored, since, cursor, hreads.position,
      hreads.sinceText, hreads.handedOut, hreads.ahead⟩
    rcases List.mem_cons.1 hc with rfl | hc
    · exact hsend
    · exact hinv.sendable c hc
  | @insert call before after h =>
    have hsend : Sendable fromStr parse call.payload.1 := hinv.sendable call (by rw [h]; simp)
    have hrest : ∀ c ∈ before ++ after, Sendable fromStr parse c.payload.1 := by
      intro c hc
      refine hinv.sendable c ?_
      rw [h]
      rcases List.mem_append.1 hc with hc | hc <;> simp [hc]
    have hrows := insert_rows call w.db
    rcases hrows with hsame | ⟨rowid, changes, hdb, hrows⟩
    · rw [hsame]
      exact ⟨hinv.regular, hrest, hinv.stored, since, cursor, hreads.position, hreads.sinceText,
        hreads.handedOut, hreads.ahead⟩
    · rw [hdb]
      have hin : ∀ r, r ∈ changes.rows ↔ r ∈ w.db.changes.rows ∨
          r = newRow call.payload.1 call.payload.2 rowid := by
        intro r
        rw [hrows]
        simp
      have hlast : ∀ r ∈ w.db.changes.rows, r.rowid < rowid := by
        have hsorted := changes.sorted
        rw [hrows, List.pairwise_append] at hsorted
        exact fun r hr => hsorted.2.2 r hr _ (List.mem_singleton.2 rfl)
      refine ⟨fun r hr => ?_, hrest, fun d hd => ?_, since, cursor, hreads.position,
        hreads.sinceText, fun c hc => ?_, fun r hr hsees => ?_⟩
      · rcases (hin r).1 hr with hr | rfl
        · exact hinv.regular r hr
        · exact hsend
      · obtain ⟨r, hr, hd⟩ := hinv.stored d hd
        exact ⟨r, (hin r).2 (.inl hr), hd⟩
      · obtain ⟨r, hr, hc⟩ := hreads.handedOut c hc
        exact ⟨r, (hin r).2 (.inl hr), hc⟩
      · rcases (hin r).1 hr with hr | rfl
        · exact hreads.ahead r hr hsees
        · exact .inr (behind_inserted hreads hlast (horder hsees))
  | poll =>
    obtain ⟨_, _, _, hinv', _⟩ := poll_reads limit hinv hreads
    exact hinv'

theorem reachable_reads
    (h : ((following fromStr parse auth limit).restrict (InOrder fromStr parse auth)).Reachable w) :
    FollowerInv fromStr parse auth w := by
  refine h.invariant (fun a hinit => ?_) fun a l b _ hinv hstep => ?_
  · exact init_reads fromStr parse auth limit hinit
  · exact step_reads hinv hstep.1 hstep.2

theorem db_poll (w : FeedState) : (w.poll fromStr parse auth limit).db = w.db := by
  unfold FeedState.poll
  split <;> rfl

theorem polls_deliver (limit : Option Nat) (hinv : FollowerInv fromStr parse auth w) :
    ∃ k, ∀ r ∈ w.db.changes.rows, sees fromStr auth r.event = true →
      eventDto fromStr r.event ∈
        ((FeedState.poll fromStr parse auth limit)^[k] w).follower.received := by
  obtain ⟨since, cursor, hreads⟩ := hinv.reads
  -- The induction is on the number of rows behind the position.
  induction hn : (pageRows w.db since cursor).length using Nat.strong_induction_on
    generalizing w since cursor with
  | _ n ih =>
    obtain ⟨since', cursor', hreads', hinv', hcase⟩ :=
      poll_reads limit hinv hreads
    rcases hcase with ⟨_, hall⟩ | ⟨hless, _⟩
    · exact ⟨1, hall⟩
    · have hless' : (pageRows (w.poll fromStr parse auth limit).db since' cursor').length < n := by
        rw [db_poll, ← hn]
        exact hless
      obtain ⟨k, hk⟩ := ih _ hless' hinv' _ _ hreads' rfl
      refine ⟨k + 1, fun r hr hsees => ?_⟩
      rw [Function.iterate_succ_apply]
      exact hk r (by rw [db_poll]; exact hr) hsees

/-- **No change is missed** in a run whose events are inserted in order: the follower receives
each event it may see by asking often enough, and has all of them when a page has no cursor. -/
theorem no_change_missed
    (h : ((following fromStr parse auth limit).restrict (InOrder fromStr parse auth)).Reachable w)
    {r : ChangeRow} (hr : r ∈ w.db.changes.rows) (hsees : sees fromStr auth r.event = true) :
    (∃ k, eventDto fromStr r.event ∈
      ((FeedState.poll fromStr parse auth limit)^[k] w).follower.received) ∧
    ((w.poll fromStr parse auth limit).follower.cursor = none →
      eventDto fromStr r.event ∈ (w.poll fromStr parse auth limit).follower.received) := by
  have hinv := reachable_reads h
  refine ⟨?_, fun hdrained => ?_⟩
  · obtain ⟨k, hk⟩ := polls_deliver limit hinv
    exact ⟨k, hk r hr hsees⟩
  · obtain ⟨since, cursor, hreads⟩ := hinv.reads
    obtain ⟨_, _, _, _, hcase⟩ := poll_reads limit hinv hreads
    rcases hcase with ⟨_, hall⟩ | ⟨_, hmore⟩
    · exact hall r hr hsees
    · exact absurd hdrained hmore

/-! ## An event behind the follower -/

def sampleFirst : ChangeEvent := sampleMined "wing_a" 1000000000
def sampleSecond : ChangeEvent := sampleMined "wing_a" 2000000000

theorem sendable_sample {event : ChangeEvent} (h : event ∈ [sampleFirst, sampleSecond]) :
    Sendable (fun _ => none) sampleParse event := by
  simp only [List.mem_cons, List.not_mem_nil, or_false] at h
  rcases h with rfl | rfl <;> exact ⟨by decide, by decide, fun _ ht => (by cases ht)⟩

def sampleFed : FeedState :=
  { db := sampleLog [sampleFirst], clock := ⟨1000000000, 0⟩, inFlight := []
    follower := Follower.take {} (pageOf (fun _ => none) sampleReader (pageLimit none)
      (pageRows (sampleLog [sampleFirst]) none none)) }

theorem sampleFed_polled :
    FeedState.poll (fun _ => none) sampleParse sampleReader none
      { db := sampleLog [sampleFirst], clock := ⟨1000000000, 0⟩, inFlight := [], follower := {} } =
      sampleFed := by
  have hregular : Regular (fun _ => none) sampleParse (sampleLog [sampleFirst]) :=
    regular_of_plain (by decide)
  unfold FeedState.poll
  rw [routeChanges_eq hregular sampleReader ⟨rfl, rfl⟩ none]
  rfl

def sampleGrown : FeedState :=
  { sampleFed with db := sampleLog [sampleFirst, sampleSecond], clock := ⟨2000000000, 0⟩ }

/-- A second event comes behind the first one, from whose time the follower reads on. -/
theorem no_change_missed_sample :
    sampleFed.follower.position sampleParse = some (encodeTime ⟨1000000000, 0⟩) ∧
      ∃ k, eventDto (fun _ => none) sampleSecond ∈
        ((FeedState.poll (fun _ => none) sampleParse sampleReader none)^[k]
          sampleGrown).follower.received := by
  have hposition : sampleFed.follower.position sampleParse =
      some (encodeTime ⟨1000000000, 0⟩) := by decide +kernel
  have hrun : ((following (fun _ => none) sampleParse sampleReader none).restrict
      (InOrder (fun _ => none) sampleParse sampleReader)).Reachable sampleGrown := by
    refine ⟨{ db := sampleLog [], clock := ⟨1000000000, 0⟩, inFlight := [], follower := {} },
      [.start (.appendEvent sampleFirst), .insert (.appendEvent sampleFirst), .poll,
        .tick ⟨2000000000, 0⟩, .start (.appendEvent sampleSecond),
        .insert (.appendEvent sampleSecond)],
      ⟨regular_of_plain (by decide), rfl, rfl⟩, ?_⟩
    refine .cons ⟨.start rfl (sendable_sample (by simp [Call.payload])), trivial⟩ ?_
    refine .cons ⟨@FeedStep.insert _ _ _ _ _ (.appendEvent sampleFirst) [] [] rfl,
      fun _ text ht => (by cases ht)⟩ ?_
    refine .cons ⟨sampleFed_polled ▸ FeedStep.poll, trivial⟩ ?_
    refine .cons ⟨.tick (by decide), trivial⟩ ?_
    refine .cons ⟨.start rfl (sendable_sample (by simp [Call.payload])), trivial⟩ (.single ?_)
    refine ⟨@FeedStep.insert _ _ _ _ _ (.appendEvent sampleSecond) [] [] rfl, fun _ text ht => ?_⟩
    obtain rfl := Option.some.inj (hposition.symm.trans ht)
    decide +kernel
  have hr : newRow sampleSecond none 2 ∈ sampleGrown.db.changes.rows := by decide
  exact ⟨hposition, (no_change_missed hrun hr (by decide)).1⟩

/-- The slow mutation appends its event behind the one the follower has read. -/
def sampleLate : FeedState :=
  { db := sampleLog [sampleSecond, sampleFirst], clock := ⟨2000000000, 0⟩, inFlight := []
    follower := { received := [eventDto (fun _ => none) sampleSecond] } }

theorem sampleLate_reachable :
    (following (fun _ => none) sampleParse sampleReader none).Reachable sampleLate := by
  have hpoll : routeChanges (fun _ => none) sampleParse (sampleLog [sampleSecond]) sampleReader
      { since := none, limit := none, cursor := none } =
      .ok ⟨[eventDto (fun _ => none) sampleSecond], none⟩ := by
    have hregular : Regular (fun _ => none) sampleParse (sampleLog [sampleSecond]) :=
      regular_of_plain (by decide)
    rw [routeChanges_eq hregular sampleReader ⟨rfl, rfl⟩ none]
    exact congrArg Except.ok (by decide)
  refine ⟨{ db := sampleLog [], clock := ⟨1000000000, 0⟩, inFlight := [], follower := {} },
    [.start (.appendEvent sampleFirst), .tick ⟨2000000000, 0⟩, .start (.appendEvent sampleSecond),
      .insert (.appendEvent sampleSecond), .poll, .insert (.appendEvent sampleFirst)],
    ⟨regular_of_plain (by decide), rfl, rfl⟩, ?_⟩
  refine .cons (.start rfl (sendable_sample (by simp [Call.payload]))) ?_
  refine .cons (.tick (by decide)) ?_
  refine .cons (.start rfl (sendable_sample (by simp [Call.payload]))) ?_
  refine .cons (@FeedStep.insert _ _ _ _ _ (.appendEvent sampleSecond) []
    [.appendEvent sampleFirst] rfl) ?_
  refine .cons .poll ?_
  have hpolled : FeedState.poll (fun _ => none) sampleParse sampleReader none
      { db := sampleLog [sampleSecond], clock := ⟨2000000000, 0⟩
        inFlight := [.appendEvent sampleFirst], follower := {} } =
      { db := sampleLog [sampleSecond], clock := ⟨2000000000, 0⟩
        inFlight := [.appendEvent sampleFirst]
        follower := { received := [eventDto (fun _ => none) sampleSecond] } } := by
    unfold FeedState.poll
    have h : routeChanges (fun _ => none) sampleParse (sampleLog [sampleSecond]) sampleReader
        { since := Follower.since {}, limit := none, cursor := none } = _ := hpoll
    rw [h]
    rfl
  have hlast := @FeedStep.insert (fun _ => none) sampleParse sampleReader none
    { db := sampleLog [sampleSecond], clock := ⟨2000000000, 0⟩
      inFlight := [.appendEvent sampleFirst]
      follower := { received := [eventDto (fun _ => none) sampleSecond] } }
    (.appendEvent sampleFirst) [] [] rfl
  exact .single (hpolled ▸ hlast)

/-- However often the follower asks, it is answered the second event again. -/
theorem sampleLate_polls (k : Nat) :
    ((FeedState.poll (fun _ => none) sampleParse sampleReader none)^[k] sampleLate).follower.received
      = List.replicate (k + 1) (eventDto (fun _ => none) sampleSecond) := by
  have hpoll : ∀ n, FeedState.poll (fun _ => none) sampleParse sampleReader none
      { sampleLate with
        follower := { received := List.replicate (n + 1) (eventDto (fun _ => none) sampleSecond) } } =
      { sampleLate with
        follower := { received := List.replicate (n + 2) (eventDto (fun _ => none) sampleSecond) } } := by
    intro n
    have hsince : Follower.since
        { received := List.replicate (n + 1) (eventDto (fun _ => none) sampleSecond) } =
        some (eventDto (fun _ => none) sampleSecond).occurredAt := by
      simp [Follower.since, List.getLast?_replicate]
    have hregular : Regular (fun _ => none) sampleParse sampleLate.db :=
      regular_of_plain (by decide)
    have hroute : routeChanges (fun _ => none) sampleParse sampleLate.db sampleReader
        { since := some (eventDto (fun _ => none) sampleSecond).occurredAt, limit := none
          cursor := none } = .ok ⟨[eventDto (fun _ => none) sampleSecond], none⟩ := by
      have hposition : Position sampleParse
          (some (eventDto (fun _ => none) sampleSecond).occurredAt) none
          (some ⟨2000000000, 0⟩) none := ⟨by decide, rfl⟩
      rw [routeChanges_eq hregular sampleReader hposition none]
      exact congrArg Except.ok (by decide)
    unfold FeedState.poll
    simp only [hsince]
    rw [hroute]
    simp [Follower.take, ← List.replicate_succ']
  have hstate : ∀ n, (FeedState.poll (fun _ => none) sampleParse sampleReader none)^[n] sampleLate =
      { sampleLate with
        follower := { received := List.replicate (n + 1) (eventDto (fun _ => none) sampleSecond) } } := by
    intro n
    induction n with
    | zero => rfl
    | succ n ih => rw [Function.iterate_succ_apply', ih, hpoll]
  rw [hstate]

/-- A mutation that reads its time first and appends its event second is missed. -/
theorem late_insert_missed :
    ¬ ∀ (fromStr : String → Option Json) (parse : String → Option OffsetDateTime)
      (auth : AuthIdentity) (limit : Option Nat) (w : FeedState) (r : ChangeRow),
      (following fromStr parse auth limit).Reachable w → r ∈ w.db.changes.rows →
      sees fromStr auth r.event = true → ∃ k, eventDto fromStr r.event ∈
        ((FeedState.poll fromStr parse auth limit)^[k] w).follower.received := by
  intro hclaim
  obtain ⟨k, hk⟩ := hclaim (fun _ => none) sampleParse sampleReader none sampleLate
    (newRow sampleFirst none 2) sampleLate_reachable (by decide) (by decide)
  rw [sampleLate_polls] at hk
  have heq := (List.mem_replicate.1 hk).2
  revert heq
  decide

end AgentPalace.Server
