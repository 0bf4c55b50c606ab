import AgentPalace.Server.Changes

/-!
# The feed of a scoped token

A page is cut from all rows and filtered afterwards, so hidden rows take places
on pages. Following the cursors, the token still reads each visible event once
(`follow_eq`); what it sees of two logs with the same visible events is the same
exactly when the hidden rows leave the ends of the pages where they are
(`feed_scoped`).
-/

namespace AgentPalace.Server

open ChangeLog

/-! ## Rows in feed order -/

def FeedBefore (a b : ChangeRow) : Prop :=
  a.occurredAt < b.occurredAt ∨ a.occurredAt = b.occurredAt ∧ a.rowid < b.rowid

instance : DecidableRel FeedBefore := fun a b =>
  inferInstanceAs (Decidable (a.occurredAt < b.occurredAt ∨ a.occurredAt = b.occurredAt ∧
    a.rowid < b.rowid))

theorem FeedBefore.irrefl (a : ChangeRow) : ¬ FeedBefore a a := by
  rintro (h | ⟨_, h⟩)
  · exact String.lt_irrefl _ h
  · omega

theorem FeedBefore.trans (a b c : ChangeRow) (hab : FeedBefore a b) (hbc : FeedBefore b c) :
    FeedBefore a c := by
  rcases hab with hab | ⟨hab, hrow⟩ <;> rcases hbc with hbc | ⟨hbc, hrow'⟩
  · exact .inl (String.lt_trans hab hbc)
  · exact .inl (hbc ▸ hab)
  · exact .inl (hab ▸ hbc)
  · exact .inr ⟨hab.trans hbc, by omega⟩

theorem byTime_feedBefore (db : ChangeDb) : (byTime db.changes.rows).Pairwise FeedBefore := by
  have hrowid : db.changes.rows.Pairwise fun a b => a.rowid ≠ b.rowid :=
    db.changes.sorted.imp fun h => by omega
  have hperm : (byTime db.changes.rows).Perm db.changes.rows := List.perm_insertionSort _ _
  have hrowid' : (byTime db.changes.rows).Pairwise fun a b => a.rowid ≠ b.rowid :=
    hperm.symm.pairwise hrowid fun h => h.symm
  refine ((byTime_pairwise db.changes.rows).and hrowid').imp fun {a b} h => ?_
  rcases h with ⟨hlt | ⟨heq, hle⟩, hne⟩
  · exact .inl hlt
  · exact .inr ⟨heq, by omega⟩

def behind (since : Option OffsetDateTime) (cursor : Option ChangeCursor) (r : ChangeRow) : Bool :=
  match cursor, since with
  | some c, _ => encodeTime c.occurredAt < r.occurredAt ∨
      encodeTime c.occurredAt = r.occurredAt ∧ c.rowid < r.rowid
  | none, some since => ¬ r.occurredAt < encodeTime since
  | none, none => true

theorem behind_up {since : Option OffsetDateTime} {cursor : Option ChangeCursor} {a b : ChangeRow}
    (ha : behind since cursor a = true) (hab : FeedBefore a b) : behind since cursor b = true := by
  cases cursor with
  | some c =>
    simp only [behind, decide_eq_true_eq] at ha ⊢
    rcases ha with ha | ⟨ha, hrow⟩ <;> rcases hab with hab | ⟨hab, hrow'⟩
    · exact .inl (String.lt_trans ha hab)
    · exact .inl (hab ▸ ha)
    · exact .inl (ha ▸ hab)
    · exact .inr ⟨ha.trans hab, by omega⟩
  | none =>
    cases since with
    | none => rfl
    | some since =>
      simp only [behind, decide_eq_true_eq] at ha ⊢
      rcases hab with hab | ⟨hab, _⟩
      · exact fun h => ha (String.lt_trans hab h)
      · exact hab ▸ ha

theorem rowid_inj {db : ChangeDb} {a b : ChangeRow} (ha : a ∈ db.changes.rows)
    (hb : b ∈ db.changes.rows) (h : a.rowid = b.rowid) : a = b := by
  have hne : db.changes.rows.Pairwise fun a b => a.rowid ≠ b.rowid :=
    db.changes.sorted.imp fun h => by omega
  have hsymm : Std.Symm fun a b : ChangeRow => a.rowid ≠ b.rowid := ⟨fun _ _ h => h.symm⟩
  by_contra hab
  exact hne.forall ha hb hab h

/-- A page is read from the part of the feed behind its position. -/
theorem pageRows_eq (db : ChangeDb) (since : Option OffsetDateTime)
    (cursor : Option ChangeCursor) :
    pageRows db since cursor = (byTime db.changes.rows).filter (behind since cursor) := by
  have hselect : pageRows db since cursor = byTime (db.changes.rows.filter (behind since cursor)) := by
    unfold pageRows
    refine congrArg byTime (List.filter_congr fun r _ => ?_)
    cases cursor with
    | some c => rfl
    | none => cases since <;> rfl
  rw [hselect]
  have hperm : (byTime (db.changes.rows.filter (behind since cursor))).Perm
      ((byTime db.changes.rows).filter (behind since cursor)) :=
    (List.perm_insertionSort _ _).trans ((List.perm_insertionSort _ _).symm.filter _)
  refine hperm.eq_of_pairwise ?_ (byTime_pairwise _) ((byTime_pairwise _).filter _)
  intro a b ha hb hab hba
  have ha : a ∈ db.changes.rows := (List.mem_filter.1 (mem_byTime.1 ha)).1
  have hb : b ∈ db.changes.rows := mem_byTime.1 (List.mem_filter.1 hb).1
  have hrow : a.rowid = b.rowid := by
    rcases hab with hab | ⟨_, hab⟩ <;> rcases hba with hba | ⟨hba, hba'⟩
    · exact absurd hba (String.lt_asymm hab)
    · exact absurd (hba ▸ hab) (String.lt_irrefl _)
    · rename_i heq
      exact absurd (heq ▸ hba) (String.lt_irrefl _)
    · omega
  exact rowid_inj ha hb hrow

theorem rest_behind {db : ChangeDb} {since : Option OffsetDateTime} {cursor : Option ChangeCursor}
    {pre post : List ChangeRow} {r : ChangeRow}
    (h : pageRows db since cursor = pre ++ r :: post) :
    pageRows db since (some ⟨r.event.occurredAt, r.rowid⟩) = post := by
  rw [pageRows_eq] at h ⊢
  exact filter_behind FeedBefore.irrefl FeedBefore.trans (byTime_feedBefore db)
    (fun _ _ => behind_up) h

theorem mem_pageRows {db : ChangeDb} {since : Option OffsetDateTime} {cursor : Option ChangeCursor}
    {r : ChangeRow} :
    r ∈ pageRows db since cursor ↔ r ∈ db.changes.rows ∧ behind since cursor r = true := by
  rw [pageRows_eq, List.mem_filter, mem_byTime]

/-! ## One page of the feed -/

section
variable {fromStr : String → Option Json} {parse : String → Option OffsetDateTime}

theorem eventDto_ok {event : ChangeEvent} (h : Sendable fromStr parse event) :
    changeEventToDto fromStr event = .ok (eventDto fromStr event) := by
  unfold changeEventToDto eventDto
  rw [formatRfc3339_ok h.formattable]
  cases hdetails : event.detailsJson with
  | none => rfl
  | some text =>
    obtain ⟨value, hvalue⟩ := Option.isSome_iff_exists.1 (h.details text (by rw [hdetails]; rfl))
    simp only [Option.mapM_some, hvalue, Option.bind_some]
    rfl

theorem decode_encodeCursor {t : OffsetDateTime} {rowid : Int} (hformat : t.Formattable)
    (hparse : parse t.rfc3339 = some t) (hpos : 0 < rowid) (hmax : rowid ≤ maxRowid) :
    decodeCursor parse (encodeCursor ⟨t, rowid⟩) = .ok ⟨t, rowid⟩ := by
  obtain ⟨n, rfl⟩ := Int.eq_ofNat_of_zero_le (by omega : 0 ≤ rowid)
  have hlist : (encodeCursor ⟨t, (n : Int)⟩).toList.reverse =
      (toString (n : Int)).toList.reverse ++ '|' :: t.rfc3339.toList.reverse := by
    rw [encodeCursor, encodeTime, if_pos hformat, String.toList_append, String.toList_append]
    simp
  have hdigits : ∀ c ∈ (toString (n : Int)).toList.reverse, decide (c ≠ '|') = true := by
    intro c hc
    have hdigit := isDigit_of_mem_toString (List.mem_reverse.1 hc)
    refine decide_eq_true ?_
    rintro rfl
    revert hdigit
    decide
  have hmem : '|' ∈ (encodeCursor ⟨t, (n : Int)⟩).toList := by
    rw [← List.mem_reverse, hlist]
    simp
  unfold decodeCursor
  rw [if_pos hmem, hlist, List.takeWhile_append_of_pos hdigits, List.dropWhile_append_of_pos hdigits]
  simp only [ne_eq, not_true_eq_false, decide_false, Bool.false_eq_true, not_false_eq_true,
    List.takeWhile_cons_of_neg, List.dropWhile_cons_of_neg, List.append_nil, List.reverse_reverse,
    String.ofList_toList, List.drop_succ_cons, List.drop_zero, hparse, parseI64_toString hmax]

def Regular (fromStr : String → Option Json) (parse : String → Option OffsetDateTime)
    (db : ChangeDb) : Prop :=
  ∀ r ∈ db.changes.rows, Sendable fromStr parse r.event

def seenRows (fromStr : String → Option Json) (auth : AuthIdentity) (rows : List ChangeRow) :
    List ChangeRow :=
  rows.filter fun r => sees fromStr auth r.event

/-- The page that is answered when `rest` is behind the position. -/
def pageOf (fromStr : String → Option Json) (auth : AuthIdentity) (limit : Nat)
    (rest : List ChangeRow) : ChangesResponse :=
  { events := (seenRows fromStr auth (rest.take limit)).map fun r => eventDto fromStr r.event
    nextCursor :=
      if limit < rest.length then
        (rest.take limit).getLast?.map fun r => encodeCursor ⟨r.event.occurredAt, r.rowid⟩
      else none }

structure Position (parse : String → Option OffsetDateTime) (sinceText : Option String)
    (cursorText : Option String) (since : Option OffsetDateTime) (cursor : Option ChangeCursor) :
    Prop where
  since : parseSince parse sinceText = .ok since
  cursor : cursorText.mapM (decodeCursor parse) = .ok cursor

theorem routeChanges_eq {db : ChangeDb} (hdb : Regular fromStr parse db) (auth : AuthIdentity)
    {sinceText cursorText : Option String} {since : Option OffsetDateTime}
    {cursor : Option ChangeCursor} (hpos : Position parse sinceText cursorText since cursor)
    (limit : Option Nat) :
    routeChanges fromStr parse db auth { since := sinceText, limit, cursor := cursorText } =
      .ok (pageOf fromStr auth (pageLimit limit) (pageRows db since cursor)) := by
  unfold routeChanges
  simp only [hpos.since, hpos.cursor, bind, Except.bind]
  rw [getChangesPage_eq fun r hr => (hdb r hr).formattable]
  generalize hrest : pageRows db since cursor = rest
  have hevents : (((rest.take (pageLimit limit)).map (·.event)).filter (sees fromStr auth)).mapM
      (changeEventToDto fromStr) =
      .ok ((seenRows fromStr auth (rest.take (pageLimit limit))).map fun r =>
        eventDto fromStr r.event) := by
    rw [List.filter_map, seenRows, List.mapM_map]
    refine list_mapM_ok fun r hr => eventDto_ok (hdb r ?_)
    exact (mem_pageRows.1 (hrest ▸ List.mem_of_mem_take (List.mem_filter.1 hr).1)).1
  simp only [Except.mapError, hevents]
  unfold pageOf
  congr 2
  split <;> simp [Option.map_map, Function.comp_def]

/-! ## Following the cursors -/

/-- The pages that follow one another when `rest` is behind the position. -/
def pagesOf (fromStr : String → Option Json) (auth : AuthIdentity) (limit : Nat) :
    Nat → List ChangeRow → Option (List ChangesResponse)
  | 0, _ => none
  | calls + 1, rest =>
    if rest.length ≤ limit then some [pageOf fromStr auth limit rest]
    else (pagesOf fromStr auth limit calls (rest.drop limit)).map
      (pageOf fromStr auth limit rest :: ·)

/-- The last row of a page that is not the last page. -/
theorem getLast?_page {limit : Nat} (hlimit : 0 < limit) {rest : List ChangeRow}
    (h : limit < rest.length) :
    ∃ r, rest = rest.take (limit - 1) ++ r :: rest.drop limit ∧
      (rest.take limit).getLast? = some r ∧ rest[limit - 1]? = some r := by
  have hlast : limit - 1 < rest.length := by omega
  refine ⟨rest[limit - 1], ?_, ?_, List.getElem?_eq_getElem hlast⟩
  · have hsplit := List.take_append_drop (limit - 1) rest
    rw [List.drop_eq_getElem_cons hlast] at hsplit
    have hsucc : limit - 1 + 1 = limit := by omega
    rw [hsucc] at hsplit
    exact hsplit.symm
  · rw [List.getLast?_eq_getElem?, List.length_take, List.getElem?_take_of_lt (by omega)]
    have hmin : min limit rest.length - 1 = limit - 1 := by omega
    rw [hmin, List.getElem?_eq_getElem hlast]

theorem collect_eq {db : ChangeDb} (hdb : Regular fromStr parse db) (auth : AuthIdentity)
    {sinceText : Option String} {since : Option OffsetDateTime} (limit : Option Nat) (calls : Nat)
    {cursorText : Option String} {cursor : Option ChangeCursor}
    (hpos : Position parse sinceText cursorText since cursor) :
    collect (fetchChanges fromStr parse db auth sinceText limit) calls cursorText =
      (pagesOf fromStr auth (pageLimit limit) calls (pageRows db since cursor)).map .ok := by
  induction calls generalizing cursorText cursor with
  | zero => rfl
  | succ calls ih =>
    have hroute := routeChanges_eq hdb auth hpos limit
    generalize hrest : pageRows db since cursor = rest at hroute
    have hfetch : fetchChanges fromStr parse db auth sinceText limit cursorText =
        .ok (pageOf fromStr auth (pageLimit limit) rest,
          (pageOf fromStr auth (pageLimit limit) rest).nextCursor.map some) := by
      unfold fetchChanges
      rw [hroute]
      rfl
    unfold collect pagesOf
    rw [hfetch]
    by_cases hlen : rest.length ≤ pageLimit limit
    · have hnext : (pageOf fromStr auth (pageLimit limit) rest).nextCursor = none :=
        if_neg (Nat.not_lt.2 hlen)
      rw [if_pos hlen, hnext]
      rfl
    · obtain ⟨r, hsplit, hlast, _⟩ := getLast?_page (pageLimit_pos limit) (Nat.not_le.1 hlen)
      have hnext : (pageOf fromStr auth (pageLimit limit) rest).nextCursor =
          some (encodeCursor ⟨r.event.occurredAt, r.rowid⟩) := by
        unfold pageOf
        rw [if_pos (Nat.not_le.1 hlen), hlast]
        rfl
      have hr : r ∈ db.changes.rows :=
        (mem_pageRows.1 (hrest.symm ▸ List.mem_of_getLast? hlast |> List.mem_of_mem_take)).1
      have hregular := hdb r hr
      have hrange := db.changes.inRange r hr
      have hpos' : Position parse sinceText (some (encodeCursor ⟨r.event.occurredAt, r.rowid⟩))
          since (some ⟨r.event.occurredAt, r.rowid⟩) := by
        refine ⟨hpos.since, ?_⟩
        rw [Option.mapM_some,
          decode_encodeCursor hregular.formattable hregular.reads hrange.1 hrange.2]
        rfl
      have hbehind : pageRows db since (some ⟨r.event.occurredAt, r.rowid⟩) =
          rest.drop (pageLimit limit) := rest_behind (hrest.trans hsplit)
      rw [if_neg hlen, hnext]
      simp only [Option.map_some, ih hpos', hbehind, Option.map_map]
      rfl

theorem follow_eq {db : ChangeDb} (hdb : Regular fromStr parse db) (auth : AuthIdentity)
    {sinceText : Option String} {since : Option OffsetDateTime} (limit : Option Nat)
    (hsince : parseSince parse sinceText = .ok since) (calls : Nat) :
    followChanges fromStr parse db auth sinceText limit calls =
      (pagesOf fromStr auth (pageLimit limit) calls (pageRows db since none)).map .ok :=
  collect_eq hdb auth limit calls ⟨hsince, rfl⟩

theorem seenRows_append (fromStr : String → Option Json) (auth : AuthIdentity) (xs ys : List ChangeRow) :
    seenRows fromStr auth (xs ++ ys) = seenRows fromStr auth xs ++ seenRows fromStr auth ys :=
  List.filter_append ..

theorem pagesOf_events {auth : AuthIdentity} {limit calls : Nat} {rest : List ChangeRow}
    {pages : List ChangesResponse} (h : pagesOf fromStr auth limit calls rest = some pages) :
    pages.flatMap (·.events) =
      (seenRows fromStr auth rest).map fun r => eventDto fromStr r.event := by
  induction calls generalizing rest pages with
  | zero => cases h
  | succ calls ih =>
    unfold pagesOf at h
    split at h
    · rename_i hlen
      cases h
      simp [pageOf, List.take_of_length_le hlen]
    · obtain ⟨tail, htail, rfl⟩ := Option.map_eq_some_iff.1 h
      rw [List.flatMap_cons, ih htail, pageOf, ← List.map_append, ← seenRows_append,
        List.take_append_drop]

theorem pagesOf_some (fromStr : String → Option Json) (auth : AuthIdentity) {limit calls : Nat}
    (hlimit : 0 < limit) {rest : List ChangeRow} (h : rest.length < calls) :
    ∃ tail, pagesOf fromStr auth limit calls rest =
      some (pageOf fromStr auth limit rest :: tail) := by
  induction calls generalizing rest with
  | zero => omega
  | succ calls ih =>
    unfold pagesOf
    split
    · exact ⟨[], rfl⟩
    · rename_i hlen
      have hdrop : (rest.drop limit).length < calls := by rw [List.length_drop]; omega
      obtain ⟨tail, htail⟩ := ih hdrop
      exact ⟨_, by rw [htail]; rfl⟩

/-! ## Two logs with the same visible events -/

/-- Where page `k` ends, if another one follows: the position of its last row, and how many
visible rows stand before the next page. -/
def pageEnd (fromStr : String → Option Json) (auth : AuthIdentity) (limit : Nat)
    (rest : List ChangeRow) (k : Nat) : Option (ChangeCursor × Nat) :=
  if (k + 1) * limit < rest.length then
    rest[(k + 1) * limit - 1]?.map fun r =>
      (⟨r.event.occurredAt, r.rowid⟩, (seenRows fromStr auth (rest.take ((k + 1) * limit))).length)
  else none

theorem pageEnd_zero (fromStr : String → Option Json) (auth : AuthIdentity) {limit : Nat}
    (hlimit : 0 < limit) {rest : List ChangeRow} (h : limit < rest.length) :
    ∃ r, (rest.take limit).getLast? = some r ∧ pageEnd fromStr auth limit rest 0 =
      some (⟨r.event.occurredAt, r.rowid⟩, (seenRows fromStr auth (rest.take limit)).length) := by
  obtain ⟨r, _, hlast, hget⟩ := getLast?_page hlimit h
  refine ⟨r, hlast, ?_⟩
  simp only [pageEnd, Nat.zero_add, Nat.one_mul]
  rw [if_pos h, hget]
  rfl

theorem pageEnd_short {auth : AuthIdentity} {limit : Nat} {rest : List ChangeRow}
    (h : rest.length ≤ limit) (k : Nat) : pageEnd fromStr auth limit rest k = none := by
  refine if_neg ?_
  have hle : limit ≤ (k + 1) * limit := Nat.le_mul_of_pos_left limit (Nat.succ_pos k)
  omega

/-- The pages after the first end where they did, counted from it. -/
theorem pageEnd_succ {auth : AuthIdentity} {limit : Nat} (hlimit : 0 < limit)
    (rest : List ChangeRow) (k : Nat) :
    pageEnd fromStr auth limit rest (k + 1) =
      (pageEnd fromStr auth limit (rest.drop limit) k).map fun e =>
        (e.1, (seenRows fromStr auth (rest.take limit)).length + e.2) := by
  have hmul : (k + 1 + 1) * limit = limit + (k + 1) * limit := by
    rw [Nat.add_mul (k + 1) 1 limit, Nat.one_mul, Nat.add_comm]
  have hpos : 0 < (k + 1) * limit := Nat.mul_pos (Nat.succ_pos k) hlimit
  unfold pageEnd
  rw [hmul, List.length_drop]
  by_cases hlen : limit + (k + 1) * limit < rest.length
  · rw [if_pos hlen, if_pos (by omega), List.getElem?_drop]
    have hindex : limit + (k + 1) * limit - 1 = limit + ((k + 1) * limit - 1) := by omega
    have hcount : (seenRows fromStr auth (rest.take (limit + (k + 1) * limit))).length =
        (seenRows fromStr auth (rest.take limit)).length +
        (seenRows fromStr auth ((rest.drop limit).take ((k + 1) * limit))).length := by
      rw [List.take_add, seenRows_append, List.length_append]
    rw [hindex, hcount, Option.map_map]
    rfl
  · rw [if_neg hlen, if_neg (by omega)]
    rfl

theorem seenRows_take {auth : AuthIdentity} (rest : List ChangeRow) (n : Nat) :
    seenRows fromStr auth (rest.take n) =
      (seenRows fromStr auth rest).take (seenRows fromStr auth (rest.take n)).length := by
  have h := seenRows_append fromStr auth (rest.take n) (rest.drop n)
  rw [List.take_append_drop] at h
  rw [h, List.take_left]

theorem seenRows_drop {auth : AuthIdentity} (rest : List ChangeRow) (n : Nat) :
    seenRows fromStr auth (rest.drop n) =
      (seenRows fromStr auth rest).drop (seenRows fromStr auth (rest.take n)).length := by
  have h := seenRows_append fromStr auth (rest.take n) (rest.drop n)
  rw [List.take_append_drop] at h
  rw [h, List.drop_left]

def SameSeen (fromStr : String → Option Json) (auth : AuthIdentity)
    (rows rows' : List ChangeRow) : Prop :=
  (seenRows fromStr auth rows).map (·.event) = (seenRows fromStr auth rows').map (·.event)

instance (auth : AuthIdentity) (rows rows' : List ChangeRow) :
    Decidable (SameSeen fromStr auth rows rows') :=
  inferInstanceAs (Decidable ((seenRows fromStr auth rows).map (·.event) =
    (seenRows fromStr auth rows').map (·.event)))

variable {auth : AuthIdentity} {limit : Nat}

theorem pagesOf_congr (hlimit : 0 < limit) (calls : Nat) {rest rest' : List ChangeRow}
    (hseen : SameSeen fromStr auth rest rest')
    (hends : ∀ k, pageEnd fromStr auth limit rest k = pageEnd fromStr auth limit rest' k) :
    pagesOf fromStr auth limit calls rest = pagesOf fromStr auth limit calls rest' := by
  induction calls generalizing rest rest' with
  | zero => rfl
  | succ calls ih =>
    have hdto : ∀ {xs ys : List ChangeRow}, xs.map (·.event) = ys.map (·.event) →
        (xs.map fun r => eventDto fromStr r.event) = ys.map fun r => eventDto fromStr r.event := by
      intro xs ys h
      have := congrArg (List.map (eventDto fromStr)) h
      simpa [List.map_map, Function.comp_def] using this
    unfold pagesOf
    by_cases hlen : rest.length ≤ limit
    · have hlen' : rest'.length ≤ limit := by
        by_contra hlong
        obtain ⟨_, _, hend⟩ := pageEnd_zero fromStr auth hlimit (Nat.not_le.1 hlong)
        rw [← hends 0, pageEnd_short hlen] at hend
        cases hend
      rw [if_pos hlen, if_pos hlen']
      unfold pageOf
      rw [if_neg (Nat.not_lt.2 hlen), if_neg (Nat.not_lt.2 hlen'), List.take_of_length_le hlen,
        List.take_of_length_le hlen', hdto hseen]
    · obtain ⟨r, hlast, hend⟩ := pageEnd_zero fromStr auth hlimit (Nat.not_le.1 hlen)
      have hlen' : ¬ rest'.length ≤ limit := by
        intro hshort
        rw [hends 0, pageEnd_short hshort] at hend
        cases hend
      obtain ⟨r', hlast', hend'⟩ := pageEnd_zero fromStr auth hlimit (Nat.not_le.1 hlen')
      rw [hends 0, hend'] at hend
      obtain ⟨hcursor, hcount⟩ := Prod.mk.inj (Option.some.inj hend)
      have hpage : pageOf fromStr auth limit rest = pageOf fromStr auth limit rest' := by
        unfold pageOf
        rw [if_pos (Nat.not_le.1 hlen), if_pos (Nat.not_le.1 hlen'), hlast, hlast']
        simp only [Option.map_some, hcursor]
        congr 1
        refine hdto ?_
        rw [seenRows_take rest, seenRows_take rest', hcount, List.map_take, List.map_take, hseen]
      have htail : pagesOf fromStr auth limit calls (rest.drop limit) =
          pagesOf fromStr auth limit calls (rest'.drop limit) := by
        refine ih ?_ fun k => ?_
        · unfold SameSeen
          rw [seenRows_drop rest, seenRows_drop rest', hcount, List.map_drop, List.map_drop, hseen]
        · have hk := hends (k + 1)
          rw [pageEnd_succ hlimit, pageEnd_succ hlimit, hcount] at hk
          refine Option.map_injective (fun e e' he => ?_) hk
          obtain ⟨h1, h2⟩ := Prod.mk.inj he
          exact Prod.ext h1 (Nat.add_left_cancel h2)
      rw [if_neg hlen, if_neg hlen', hpage, htail]

theorem pageEnd_of_page (hlimit : 0 < limit) {rest rest' : List ChangeRow}
    (hrange : ∀ r ∈ rest, Sendable fromStr parse r.event ∧ 0 < r.rowid ∧ r.rowid ≤ maxRowid)
    (hrange' : ∀ r ∈ rest', Sendable fromStr parse r.event ∧ 0 < r.rowid ∧ r.rowid ≤ maxRowid)
    (h : pageOf fromStr auth limit rest = pageOf fromStr auth limit rest') :
    pageEnd fromStr auth limit rest 0 = pageEnd fromStr auth limit rest' 0 ∧
      (seenRows fromStr auth (rest.take limit)).length =
        (seenRows fromStr auth (rest'.take limit)).length := by
  have hcount : (seenRows fromStr auth (rest.take limit)).length =
      (seenRows fromStr auth (rest'.take limit)).length := by
    simpa [pageOf] using congrArg (fun p => p.events.length) h
  refine ⟨?_, hcount⟩
  have hnext := congrArg ChangesResponse.nextCursor h
  simp only [pageOf] at hnext
  by_cases hlen : limit < rest.length <;> by_cases hlen' : limit < rest'.length
  · obtain ⟨r, hlast, hend⟩ := pageEnd_zero fromStr auth hlimit hlen
    obtain ⟨r', hlast', hend'⟩ := pageEnd_zero fromStr auth hlimit hlen'
    rw [if_pos hlen, if_pos hlen', hlast, hlast'] at hnext
    obtain ⟨hsend, hpos, hmax⟩ := hrange r (List.mem_of_mem_take (List.mem_of_getLast? hlast))
    obtain ⟨hsend', hpos', hmax'⟩ := hrange' r' (List.mem_of_mem_take (List.mem_of_getLast? hlast'))
    have hdecode := congrArg (decodeCursor parse) (Option.some.inj hnext)
    rw [decode_encodeCursor hsend.formattable hsend.reads hpos hmax,
      decode_encodeCursor hsend'.formattable hsend'.reads hpos' hmax'] at hdecode
    rw [hend, hend', Except.ok.inj hdecode, hcount]
  · obtain ⟨r, hlast, _⟩ := pageEnd_zero fromStr auth hlimit hlen
    rw [if_pos hlen, if_neg hlen', hlast] at hnext
    cases hnext
  · obtain ⟨r, hlast, _⟩ := pageEnd_zero fromStr auth hlimit hlen'
    rw [if_neg hlen, if_pos hlen', hlast] at hnext
    cases hnext
  · rw [pageEnd_short (Nat.not_lt.1 hlen), pageEnd_short (Nat.not_lt.1 hlen')]

theorem page_of_pages (hlimit : 0 < limit) {rest rest' : List ChangeRow}
    (h : ∀ calls, pagesOf fromStr auth limit calls rest = pagesOf fromStr auth limit calls rest') :
    pageOf fromStr auth limit rest = pageOf fromStr auth limit rest' := by
  have hcalls : rest.length < rest.length + rest'.length + 1 := by omega
  have hcalls' : rest'.length < rest.length + rest'.length + 1 := by omega
  obtain ⟨tail, htail⟩ := pagesOf_some fromStr auth hlimit hcalls
  obtain ⟨tail', htail'⟩ := pagesOf_some fromStr auth hlimit hcalls'
  rw [h, htail'] at htail
  exact (List.cons.inj (Option.some.inj htail)).1.symm

theorem pageEnd_congr (hlimit : 0 < limit) (k : Nat) {rest rest' : List ChangeRow}
    (hrange : ∀ r ∈ rest, Sendable fromStr parse r.event ∧ 0 < r.rowid ∧ r.rowid ≤ maxRowid)
    (hrange' : ∀ r ∈ rest', Sendable fromStr parse r.event ∧ 0 < r.rowid ∧ r.rowid ≤ maxRowid)
    (h : ∀ calls, pagesOf fromStr auth limit calls rest = pagesOf fromStr auth limit calls rest') :
    pageEnd fromStr auth limit rest k = pageEnd fromStr auth limit rest' k := by
  induction k generalizing rest rest' with
  | zero => exact (pageEnd_of_page hlimit hrange hrange' (page_of_pages hlimit h)).1
  | succ k ih =>
    have hpage := page_of_pages hlimit h
    obtain ⟨hzero, hcount⟩ := pageEnd_of_page hlimit hrange hrange' hpage
    by_cases hlen : rest.length ≤ limit
    · have hlen' : rest'.length ≤ limit := by
        by_contra hlong
        obtain ⟨_, _, hend⟩ := pageEnd_zero fromStr auth hlimit (Nat.not_le.1 hlong)
        rw [← hzero, pageEnd_short hlen] at hend
        cases hend
      rw [pageEnd_short hlen, pageEnd_short hlen']
    · have hlen' : ¬ rest'.length ≤ limit := by
        intro hshort
        obtain ⟨_, _, hend⟩ := pageEnd_zero fromStr auth hlimit (Nat.not_le.1 hlen)
        rw [hzero, pageEnd_short hshort] at hend
        cases hend
      have htail : ∀ calls, pagesOf fromStr auth limit calls (rest.drop limit) =
          pagesOf fromStr auth limit calls (rest'.drop limit) := by
        intro calls
        have hcalls := h (calls + 1)
        unfold pagesOf at hcalls
        rw [if_neg hlen, if_neg hlen', hpage] at hcalls
        exact Option.map_injective (fun _ _ he => (List.cons.inj he).2) hcalls
      have hdrop := fun r (hr : r ∈ rest.drop limit) => hrange r (List.mem_of_mem_drop hr)
      have hdrop' := fun r (hr : r ∈ rest'.drop limit) => hrange' r (List.mem_of_mem_drop hr)
      rw [pageEnd_succ hlimit, pageEnd_succ hlimit, hcount, ih hdrop hdrop' htail]

/-! ## The claim -/

/-- What the token is answered over one log it is answered over the other, however far the
cursors are followed. -/
def Indistinct (fromStr : String → Option Json) (parse : String → Option OffsetDateTime)
    (db db' : ChangeDb) (auth : AuthIdentity) (since : Option String) (limit : Option Nat) : Prop :=
  ∀ calls, followChanges fromStr parse db auth since limit calls =
    followChanges fromStr parse db' auth since limit calls

/-- The rows that are to be read: visible, and at or after `since`. -/
def wanted (fromStr : String → Option Json) (db : ChangeDb) (auth : AuthIdentity)
    (since : Option OffsetDateTime) : List ChangeRow :=
  (seenRows fromStr auth db.changes.rows).filter fun r => since.all (· ≤ r.event.occurredAt)

/-- Following the cursors ends, with every wanted event once. -/
def ReadsOnce (fromStr : String → Option Json) (parse : String → Option OffsetDateTime)
    (db : ChangeDb) (auth : AuthIdentity) (sinceText : Option String)
    (since : Option OffsetDateTime) (limit : Option Nat) : Prop :=
  ∃ calls pages, followChanges fromStr parse db auth sinceText limit calls = some (.ok pages) ∧
    (pages.flatMap (·.events)).Perm
      ((wanted fromStr db auth since).map fun r => eventDto fromStr r.event)

/-- The text of `since` is on the side of the visible events that the time is on. -/
def SinceByText (fromStr : String → Option Json) (db : ChangeDb) (auth : AuthIdentity)
    (since : Option OffsetDateTime) : Prop :=
  ∀ t ∈ since, ∀ r ∈ seenRows fromStr auth db.changes.rows,
    r.occurredAt < encodeTime t ↔ r.event.occurredAt < t

theorem seenRows_pageRows (db : ChangeDb) (since : Option OffsetDateTime) :
    (seenRows fromStr auth (pageRows db since none)).Perm
      ((seenRows fromStr auth db.changes.rows).filter (behind since none)) := by
  have hperm : (byTime db.changes.rows).Perm db.changes.rows := List.perm_insertionSort _ _
  rw [pageRows_eq, seenRows, seenRows, List.filter_filter, List.filter_filter]
  have hcomm : (fun r => sees fromStr auth r.event && behind since none r) =
      fun r => behind since none r && sees fromStr auth r.event := funext fun r => Bool.and_comm ..
  rw [hcomm]
  exact hperm.filter _

/-- Two events that are sent as the same one have the same time. -/
theorem eventDto_time {a b : ChangeEvent} (ha : Sendable fromStr parse a)
    (hb : Sendable fromStr parse b) (h : eventDto fromStr a = eventDto fromStr b) :
    a.occurredAt = b.occurredAt := by
  simp only [eventDto, ChangeEventDto.mk.injEq] at h
  exact OffsetDateTime.rfc3339_inj ha.formattable hb.formattable h.2.1

theorem readsOnce_perm {db : ChangeDb} (hdb : Regular fromStr parse db) {sinceText : Option String}
    {since : Option OffsetDateTime} (hsince : parseSince parse sinceText = .ok since)
    (limit : Option Nat) :
    ReadsOnce fromStr parse db auth sinceText since limit ↔
      ((seenRows fromStr auth (pageRows db since none)).map fun r => eventDto fromStr r.event).Perm
        ((wanted fromStr db auth since).map fun r => eventDto fromStr r.event) := by
  constructor
  · rintro ⟨calls, pages, hpages, hperm⟩
    rw [follow_eq hdb auth limit hsince] at hpages
    obtain ⟨_, hpages, heq⟩ := Option.map_eq_some_iff.1 hpages
    cases heq
    rwa [pagesOf_events hpages] at hperm
  · intro hperm
    obtain ⟨tail, htail⟩ := pagesOf_some fromStr auth (pageLimit_pos limit)
      (Nat.lt_succ_self (pageRows db since none).length)
    refine ⟨_, _, by rw [follow_eq hdb auth limit hsince, htail]; rfl, ?_⟩
    rwa [pagesOf_events htail]

theorem mem_sent_iff {db : ChangeDb} (hdb : Regular fromStr parse db) {r : ChangeRow}
    (hr : r ∈ seenRows fromStr auth db.changes.rows) {xs : List ChangeRow}
    (hxs : ∀ x ∈ xs, x ∈ seenRows fromStr auth db.changes.rows) :
    eventDto fromStr r.event ∈ xs.map (fun r => eventDto fromStr r.event) ↔
      ∃ x ∈ xs, x.event.occurredAt = r.event.occurredAt ∧
        eventDto fromStr x.event = eventDto fromStr r.event := by
  rw [List.mem_map]
  refine exists_congr fun x => and_congr_right fun hx => ⟨fun h => ⟨?_, h⟩, fun h => h.2⟩
  exact eventDto_time (hdb x (List.mem_filter.1 (hxs x hx)).1) (hdb r (List.mem_filter.1 hr).1) h

theorem behind_start (since : Option OffsetDateTime) (r : ChangeRow) :
    behind since none r = since.all fun t => decide (¬ r.occurredAt < encodeTime t) := by
  cases since <;> rfl

theorem readsOnce_iff {db : ChangeDb} (hdb : Regular fromStr parse db) {sinceText : Option String}
    {since : Option OffsetDateTime} (hsince : parseSince parse sinceText = .ok since)
    (limit : Option Nat) :
    ReadsOnce fromStr parse db auth sinceText since limit ↔ SinceByText fromStr db auth since := by
  rw [readsOnce_perm hdb hsince limit]
  constructor
  · intro hperm t ht r hr
    have hmem := hperm.mem_iff (a := eventDto fromStr r.event)
    have hleft := mem_sent_iff hdb hr
      fun x (hx : x ∈ seenRows fromStr auth (pageRows db since none)) =>
        (List.mem_filter.1 ((seenRows_pageRows db since).mem_iff.1 hx)).1
    have hright := mem_sent_iff hdb hr fun x (hx : x ∈ wanted fromStr db auth since) =>
      (List.mem_filter.1 hx).1
    rw [hleft, hright] at hmem
    have hselect : (¬ r.occurredAt < encodeTime t) ↔ t ≤ r.event.occurredAt := by
      constructor
      · intro hafter
        obtain ⟨x, hx, htime, _⟩ := hmem.1 ⟨r, (seenRows_pageRows db since).mem_iff.2
          (List.mem_filter.2 ⟨hr, by rw [behind_start, ht]; simpa using hafter⟩), rfl, rfl⟩
        have hx' := (List.mem_filter.1 hx).2
        rw [ht, htime] at hx'
        simpa using hx'
      · intro hafter
        obtain ⟨x, hx, htime, _⟩ := hmem.2 ⟨r, List.mem_filter.2
          ⟨hr, by rw [ht]; simpa using hafter⟩, rfl, rfl⟩
        have hx' := (List.mem_filter.1 ((seenRows_pageRows db since).mem_iff.1 hx)).2
        rw [behind_start, ht] at hx'
        have hx'' : ¬ x.occurredAt < encodeTime t := by simpa using hx'
        rwa [ChangeRow.occurredAt, htime] at hx''
    rw [← not_iff_not, hselect, OffsetDateTime.not_lt]
  · intro htext
    refine ((seenRows_pageRows db since).trans (List.Perm.of_eq ?_)).map _
    refine List.filter_congr fun r hr => ?_
    rw [behind_start]
    cases hs : since with
    | none => rfl
    | some t =>
      have := htext t (by rw [hs]; rfl) r hr
      simp only [Option.all_some, this, OffsetDateTime.not_lt]

/-- Hidden rows leave the ends of the pages where they are. -/
def SamePageEnds (fromStr : String → Option Json) (db db' : ChangeDb) (auth : AuthIdentity)
    (since : Option OffsetDateTime) (limit : Option Nat) : Prop :=
  ∀ k, pageEnd fromStr auth (pageLimit limit) (pageRows db since none) k =
    pageEnd fromStr auth (pageLimit limit) (pageRows db' since none) k

/-- **The feed of a scoped token**: over two logs with the same visible events the token is
answered the same, and reads each event once, exactly when hidden rows do not move the ends of
pages and the text of `since` is where its time is. -/
theorem feed_scoped {db db' : ChangeDb} (hdb : Regular fromStr parse db)
    (hdb' : Regular fromStr parse db')
    (hseen : SameSeen fromStr auth (byTime db.changes.rows) (byTime db'.changes.rows))
    {sinceText : Option String} {since : Option OffsetDateTime}
    (hsince : parseSince parse sinceText = .ok since) (limit : Option Nat) :
    (Indistinct fromStr parse db db' auth sinceText limit ∧
      ReadsOnce fromStr parse db auth sinceText since limit ∧
      ReadsOnce fromStr parse db' auth sinceText since limit) ↔
    SamePageEnds fromStr db db' auth since limit ∧ SinceByText fromStr db auth since ∧
      SinceByText fromStr db' auth since := by
  have hrange : ∀ {db : ChangeDb}, Regular fromStr parse db → ∀ r ∈ pageRows db since none,
      Sendable fromStr parse r.event ∧ 0 < r.rowid ∧ r.rowid ≤ maxRowid := by
    intro db hdb r hr
    have hmem := (mem_pageRows.1 hr).1
    exact ⟨hdb r hmem, db.changes.inRange r hmem⟩
  have hpages : SameSeen fromStr auth (pageRows db since none) (pageRows db' since none) := by
    have hfilter : ∀ db : ChangeDb,
        (seenRows fromStr auth (pageRows db since none)).map (·.event) =
          ((seenRows fromStr auth (byTime db.changes.rows)).map (·.event)).filter fun e =>
            since.all fun t => decide (¬ encodeTime e.occurredAt < encodeTime t) := by
      intro db
      rw [pageRows_eq, List.filter_map, seenRows, seenRows, List.filter_filter, List.filter_filter]
      refine congrArg _ (List.filter_congr fun r _ => ?_)
      rw [Bool.and_comm]
      cases since <;> rfl
    unfold SameSeen
    rw [hfilter db, hfilter db', hseen]
  rw [readsOnce_iff hdb hsince, readsOnce_iff hdb' hsince]
  refine and_congr_left fun _ => ?_
  have hindistinct : Indistinct fromStr parse db db' auth sinceText limit ↔ ∀ calls,
      pagesOf fromStr auth (pageLimit limit) calls (pageRows db since none) =
        pagesOf fromStr auth (pageLimit limit) calls (pageRows db' since none) := by
    refine forall_congr' fun calls => ?_
    rw [follow_eq hdb auth limit hsince, follow_eq hdb' auth limit hsince]
    exact ⟨fun h => Option.map_injective (fun _ _ he => Except.ok.inj he) h, fun h => by rw [h]⟩
  rw [hindistinct]
  exact ⟨fun h k => pageEnd_congr (pageLimit_pos limit) k (hrange hdb) (hrange hdb') h,
    fun h calls => pagesOf_congr (pageLimit_pos limit) calls hpages h⟩

/-- A batch mined into a wing, some nanoseconds after the epoch. -/
def sampleMined (wing : String) (nanos : Int) : ChangeEvent :=
  { eventType := "mine_batch", occurredAt := ⟨nanos, 0⟩, entityId := "mine_batch:" ++ wing
    actor := none, detailsJson := none }

def sampleLog (events : List ChangeEvent) : ChangeDb :=
  (store.play ⟨store.init, ()⟩ (events.map .appendEvent)).2.db

def parseAmong (times : List OffsetDateTime) (text : String) : Option OffsetDateTime :=
  times.find? fun t => t.rfc3339 = text

def sampleParse : String → Option OffsetDateTime := parseAmong [⟨1000000000, 0⟩, ⟨2000000000, 0⟩]

def sampleReader : AuthIdentity := { name := "reader", scopes := some [⟨["wing_a"], [.read]⟩] }

/-- The log of one batch, and the same behind a batch of another wing. -/
def sampleShown : ChangeDb := sampleLog [sampleMined "wing_a" 2000000000]
def sampleHidden : ChangeDb :=
  sampleLog [sampleMined "wing_b" 1000000000, sampleMined "wing_a" 2000000000]

theorem regular_of_plain {db : ChangeDb}
    (h : ∀ r ∈ db.changes.rows, r.event.occurredAt.Formattable ∧
      parse r.event.occurredAt.rfc3339 = some r.event.occurredAt ∧ r.event.detailsJson = none) :
    Regular fromStr parse db := by
  intro r hr
  obtain ⟨hformat, hparse, hdetails⟩ := h r hr
  exact ⟨hformat, hparse, fun text ht => by rw [hdetails] at ht; cases ht⟩

/-- Pages of fifty events hide the other wing's batch. -/
theorem feed_scoped_sample :
    Indistinct (fun _ => none) sampleParse sampleShown sampleHidden sampleReader none none := by
  refine ((feed_scoped (regular_of_plain (by decide)) (regular_of_plain (by decide)) (by decide)
    rfl none).2 ⟨fun k => ?_, fun t ht => ?_, fun t ht => ?_⟩).1
  · rw [pageEnd_short (by decide), pageEnd_short (by decide)]
  · cases ht
  · cases ht

/-- A page of one event is taken by the other wing's batch: the reader gets no event and a
cursor. -/
theorem hidden_event_takes_page :
    ¬ ∀ (fromStr : String → Option Json) (parse : String → Option OffsetDateTime)
      (db db' : ChangeDb) (auth : AuthIdentity) (sinceText : Option String)
      (since : Option OffsetDateTime) (limit : Option Nat),
      Regular fromStr parse db → Regular fromStr parse db' →
      SameSeen fromStr auth (byTime db.changes.rows) (byTime db'.changes.rows) →
      parseSince parse sinceText = .ok since →
      Indistinct fromStr parse db db' auth sinceText limit ∧
        ReadsOnce fromStr parse db auth sinceText since limit ∧
        ReadsOnce fromStr parse db' auth sinceText since limit := by
  intro hclaim
  have hdb : Regular (fun _ => none) sampleParse sampleShown := regular_of_plain (by decide)
  have hdb' : Regular (fun _ => none) sampleParse sampleHidden := regular_of_plain (by decide)
  obtain ⟨hsame, _, _⟩ := hclaim (fun _ => none) sampleParse sampleShown sampleHidden sampleReader
    none none (some 1) hdb hdb' (by decide) rfl
  have hcalls := hsame 1
  rw [follow_eq hdb sampleReader (some 1) rfl, follow_eq hdb' sampleReader (some 1) rfl] at hcalls
  revert hcalls
  decide

end

end AgentPalace.Server
