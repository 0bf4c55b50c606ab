import AgentPalace.ChangeLog.System
import AgentPalace.Core.TimeText
import AgentPalace.Lib.Checked
import Mathlib.Data.List.Pairwise

/-!
# Reads in order of time

The reads that select by a time and order by it compare texts. They agree with
time exactly when no two of the times compared are out of order as texts. Times
in UTC are out of order when one is the other cut to fewer decimals of a second:
`00:00:00Z` comes after `00:00:00.5Z`.
-/

namespace AgentPalace.ChangeLog

open OffsetDateTime

/-! ## What the claim asks -/

/-- `events` are the first `limit` of those selected, in some order of time. -/
def FirstInTime (selected : List ChangeEvent) (limit : Nat) (events : List ChangeEvent) : Prop :=
  ∃ all : List ChangeEvent, all.Perm selected ∧
    all.Pairwise (fun a b => a.occurredAt ≤ b.occurredAt) ∧ events = all.take limit

def laterThan (db : ChangeDb) (since : OffsetDateTime) : List ChangeEvent :=
  (db.changes.rows.map (·.event)).filter fun e => since < e.occurredAt

def atOrAfter (db : ChangeDb) (since : OffsetDateTime) : List ChangeEvent :=
  (db.changes.rows.map (·.event)).filter fun e => since ≤ e.occurredAt

/-- Both reads select by time and answer in order of time. -/
def ReadsByTime (db : ChangeDb) (since : OffsetDateTime) (limit : Nat) : Prop :=
  (∃ events, getChangesSince db since limit = .ok events ∧
    FirstInTime (laterThan db since) limit events) ∧
  ∃ page, getChangesPage db (some since) none limit = .ok page ∧
    FirstInTime (atOrAfter db since) limit page.events

/-! ## When the texts agree with time -/

/-- The stored times are on the side of `since` that their texts are on, and those that are
selected are in order. -/
structure TextAgrees (times : List OffsetDateTime) (since : OffsetDateTime) : Prop where
  after : ∀ t ∈ times, TextBefore since t ↔ since < t
  before : ∀ t ∈ times, TextBefore t since ↔ t < since
  order : ∀ t ∈ times, ∀ t' ∈ times, since ≤ t → t < t' → ¬ TextBefore t' t

/-- Neither time is the other one cut to fewer decimals. -/
def Apart (a b : OffsetDateTime) : Prop := a = b ∨ ¬ CutFrom a b ∧ ¬ CutFrom b a

/-! ## The reads as lists -/

theorem encodeTime_lt {a b : OffsetDateTime} (ha : a.Formattable) (hb : b.Formattable) :
    encodeTime a < encodeTime b ↔ TextBefore a b := by
  rw [encodeTime, encodeTime, if_pos ha, if_pos hb, rfc3339_lt ha hb]

theorem encodeTime_inj {a b : OffsetDateTime} (ha : a.Formattable) (hb : b.Formattable)
    (h : encodeTime a = encodeTime b) : a = b := by
  rw [encodeTime, encodeTime, if_pos ha, if_pos hb] at h
  exact rfc3339_inj ha hb h

theorem decode_ok {r : ChangeRow} (h : r.event.occurredAt.Formattable) : r.decode = .ok r.event := by
  unfold ChangeRow.decode decodeTime
  rw [if_pos h]
  rfl

@[simp] theorem mem_byTime {rows : List ChangeRow} {r : ChangeRow} : r ∈ byTime rows ↔ r ∈ rows :=
  List.mem_insertionSort _

theorem byTime_pairwise (rows : List ChangeRow) : (byTime rows).Pairwise fun a b =>
    a.occurredAt < b.occurredAt ∨ a.occurredAt = b.occurredAt ∧ a.rowid ≤ b.rowid := by
  let R : ChangeRow → ChangeRow → Prop := fun a b => a.occurredAt < b.occurredAt ∨
    a.occurredAt = b.occurredAt ∧ a.rowid ≤ b.rowid
  have htrans : IsTrans ChangeRow R := by
    refine ⟨fun a b c hab hbc => ?_⟩
    rcases hab with hab | ⟨hab, hrow⟩ <;> rcases hbc with hbc | ⟨hbc, hrow'⟩
    · exact .inl (String.lt_trans hab hbc)
    · exact .inl (hbc ▸ hab)
    · exact .inl (hab ▸ hbc)
    · exact .inr ⟨hab.trans hbc, hrow.trans hrow'⟩
  have htotal : Std.Total R := by
    refine ⟨fun a b => ?_⟩
    by_cases hab : a.occurredAt < b.occurredAt
    · exact .inl (.inl hab)
    · by_cases hba : b.occurredAt < a.occurredAt
      · exact .inr (.inl hba)
      · have heq := String.le_antisymm (String.not_lt.1 hba) (String.not_lt.1 hab)
        rcases Int.le_total a.rowid b.rowid with hrow | hrow
        · exact .inl (.inr ⟨heq, hrow⟩)
        · exact .inr (.inr ⟨heq.symm, hrow⟩)
  exact List.pairwise_insertionSort R rows

theorem byTime_sorted (rows : List ChangeRow) :
    (byTime rows).Pairwise fun a b => ¬ b.occurredAt < a.occurredAt := by
  refine (byTime_pairwise rows).imp fun {a b} h => ?_
  rcases h with hlt | ⟨heq, _⟩
  · exact String.lt_asymm hlt
  · rw [heq]
    exact String.lt_irrefl _

variable {db : ChangeDb} {since : OffsetDateTime}

theorem getChangesSince_ok (hrows : ∀ r ∈ db.changes.rows, r.event.occurredAt.Formattable)
    (limit : Nat) : getChangesSince db since limit =
      .ok (((byTime (db.changes.rows.filter fun r => encodeTime since < r.occurredAt)).map
        (·.event)).take limit) := by
  rw [← List.map_take]
  refine list_mapM_ok fun r hr => decode_ok (hrows r ?_)
  exact (List.mem_filter.1 (mem_byTime.1 (List.mem_of_mem_take hr))).1

theorem getChangesPage_eq
    (hrows : ∀ r ∈ db.changes.rows, r.event.occurredAt.Formattable)
    (since : Option OffsetDateTime) (cursor : Option ChangeCursor) (limit : Nat) :
    getChangesPage db since cursor limit =
      .ok { events := ((pageRows db since cursor).take limit).map (·.event)
            nextCursor :=
              if limit < (pageRows db since cursor).length then
                ((pageRows db since cursor).take limit).getLast?.map fun r =>
                  ⟨r.event.occurredAt, r.rowid⟩
              else none } := by
  generalize hrest : pageRows db since cursor = rest
  have hdecoded : (rest.take (limit + 1)).mapM (fun r : ChangeRow => do
      let event ← r.decode
      return (r.rowid, event)) =
      .ok ((rest.take (limit + 1)).map fun r => (r.rowid, r.event)) := by
    refine list_mapM_ok fun r hr => ?_
    have hmem := (List.mem_filter.1 (mem_byTime.1 (hrest ▸ List.mem_of_mem_take hr))).1
    rw [decode_ok (hrows r hmem)]
    rfl
  simp only [getChangesPage, hrest, hdecoded]
  simp only [bind, Except.bind, List.length_map, List.length_take]
  by_cases hlen : limit < rest.length
  · rw [if_pos (by omega), if_pos hlen]
    have htake : ((rest.take (limit + 1)).map fun r : ChangeRow => (r.rowid, r.event)).dropLast =
        (rest.take limit).map fun r => (r.rowid, r.event) := by
      rw [List.dropLast_eq_take, ← List.map_take, List.take_take, List.length_map, List.length_take]
      congr 2
      omega
    rw [htake, List.map_map, List.getLast?_map]
    simp only [Option.map_map]
    rfl
  · rw [if_neg (by omega), if_neg hlen, List.map_map, List.take_of_length_le (by omega),
      List.take_of_length_le (by omega)]
    rfl

theorem getChangesPage_ok (hrows : ∀ r ∈ db.changes.rows, r.event.occurredAt.Formattable)
    (limit : Nat) : ∃ page, getChangesPage db (some since) none limit = .ok page ∧
      page.events = ((pageRows db (some since) none).map (·.event)).take limit :=
  ⟨_, getChangesPage_eq hrows _ _ limit, List.map_take⟩

/-! ## Selection and order -/

theorem firstInTime_all {selected events : List ChangeEvent} :
    (∀ limit, FirstInTime selected limit (events.take limit)) ↔
      events.Perm selected ∧ events.Pairwise fun a b => a.occurredAt ≤ b.occurredAt := by
  constructor
  · intro h
    obtain ⟨all, hperm, hsorted, heq⟩ := h (events.length + selected.length)
    have hlength := hperm.length_eq
    rw [List.take_of_length_le (by omega), List.take_of_length_le (by omega)] at heq
    subst heq
    exact ⟨hperm, hsorted⟩
  · rintro ⟨hperm, hsorted⟩ limit
    exact ⟨events, hperm, hsorted, rfl⟩

theorem filter_perm_iff {α : Type} {p q : α → Bool} {xs : List α} :
    (xs.filter p).Perm (xs.filter q) ↔ ∀ x ∈ xs, p x = q x := by
  constructor
  · intro h x hx
    have hmem := h.mem_iff (a := x)
    rw [List.mem_filter, List.mem_filter] at hmem
    simp only [hx, true_and] at hmem
    exact Bool.eq_iff_iff.2 hmem
  · intro h
    rw [List.filter_congr h]

theorem map_byTime_perm (rows : List ChangeRow) (p : ChangeEvent → Bool) :
    ((byTime (rows.filter fun r => p r.event)).map (·.event)).Perm
      ((rows.map (·.event)).filter p) := by
  rw [List.filter_map]
  exact (List.perm_insertionSort _ _).map _

theorem byTime_sorted_iff {rows : List ChangeRow}
    (hrows : ∀ r ∈ rows, r.event.occurredAt.Formattable) :
    ((byTime rows).map (·.event)).Pairwise (fun a b => a.occurredAt ≤ b.occurredAt) ↔
      ∀ r ∈ rows, ∀ r' ∈ rows, r.event.occurredAt < r'.event.occurredAt →
        ¬ TextBefore r'.event.occurredAt r.event.occurredAt := by
  rw [List.pairwise_map]
  constructor
  · intro htime r hr r' hr' hlt htext
    -- Of the two rows one stands before the other, in the text order and in the time order.
    let S : ChangeRow → ChangeRow → Prop := fun a b =>
      ¬ b.occurredAt < a.occurredAt ∧ a.event.occurredAt ≤ b.event.occurredAt ∨
      ¬ a.occurredAt < b.occurredAt ∧ b.event.occurredAt ≤ a.event.occurredAt
    have hsymm : Std.Symm S := ⟨fun a b h => Or.symm h⟩
    have hpair : (byTime rows).Pairwise S :=
      ((byTime_sorted rows).and htime).imp fun h => .inl h
    have hself : ∀ a ∈ byTime rows, S a a := fun a _ => .inl ⟨String.lt_irrefl _, le_rfl⟩
    have htext' : r'.occurredAt < r.occurredAt := (encodeTime_lt (hrows r' hr') (hrows r hr)).2 htext
    rcases hpair.forall_of_forall hself (mem_byTime.2 hr) (mem_byTime.2 hr') with h | h
    · exact h.1 htext'
    · exact OffsetDateTime.not_le.2 hlt h.2
  · intro horder
    refine (byTime_sorted rows).imp_of_mem fun {a b} ha hb hab => ?_
    have ha := mem_byTime.1 ha
    have hb := mem_byTime.1 hb
    by_contra hle
    have hlt := OffsetDateTime.not_le.1 hle
    have hba : ¬ a.occurredAt < b.occurredAt := fun h =>
      horder b hb a ha hlt ((encodeTime_lt (hrows a ha) (hrows b hb)).1 h)
    have heq := String.le_antisymm (String.not_lt.1 hab) (String.not_lt.1 hba)
    rw [encodeTime_inj (hrows a ha) (hrows b hb) heq] at hle
    exact hle le_rfl

theorem firstInTime_iff {rows : List ChangeRow}
    (hrows : ∀ r ∈ rows, r.event.occurredAt.Formattable) (p q : ChangeEvent → Bool) :
    (∀ limit, FirstInTime ((rows.map (·.event)).filter q) limit
      (((byTime (rows.filter fun r => p r.event)).map (·.event)).take limit)) ↔
      (∀ r ∈ rows, p r.event = q r.event) ∧
      ∀ r ∈ rows, ∀ r' ∈ rows, p r.event = true → p r'.event = true →
        r.event.occurredAt < r'.event.occurredAt →
        ¬ TextBefore r'.event.occurredAt r.event.occurredAt := by
  have hfiltered : ∀ r ∈ rows.filter fun r => p r.event, r.event.occurredAt.Formattable :=
    fun r hr => hrows r (List.mem_filter.1 hr).1
  have hperm : ((byTime (rows.filter fun r => p r.event)).map (·.event)).Perm
      ((rows.map (·.event)).filter q) ↔ ∀ r ∈ rows, p r.event = q r.event := by
    rw [(map_byTime_perm rows p).congr_left, filter_perm_iff]
    simp
  rw [firstInTime_all, hperm, byTime_sorted_iff hfiltered]
  simp only [List.mem_filter, and_imp]
  constructor
  · rintro ⟨hselect, horder⟩
    exact ⟨hselect, fun r hr r' hr' hp hp' => horder r hr hp r' hr' hp'⟩
  · rintro ⟨hselect, horder⟩
    exact ⟨hselect, fun r hr hp r' hr' hp' => horder r hr r' hr' hp hp'⟩

/-! ## The claim -/

def timesOf (db : ChangeDb) : List OffsetDateTime := db.changes.rows.map fun r => r.event.occurredAt

theorem Apart.symm {a b : OffsetDateTime} (h : Apart a b) : Apart b a := by
  rcases h with rfl | ⟨hab, hba⟩
  · exact .inl rfl
  · exact .inr ⟨hba, hab⟩

/-- Of two UTC times one cut is out of order, and nothing else is. -/
theorem apart_iff_of_lt {a b : OffsetDateTime} (ha : a.offset = 0) (hb : b.offset = 0)
    (hlt : a < b) : (Apart a b ↔ TextBefore a b) ∧ (Apart a b ↔ ¬ TextBefore b a) := by
  have hne : a ≠ b := fun h => absurd (h ▸ hlt) (lt_irrefl a)
  have hback : ¬ b < a := fun h => lt_asymm hlt h
  have hcut : ¬ CutFrom b a := by
    intro h
    have hle := h.le
    rw [lt_def] at hlt
    simp only [localNanos, ha, hb] at hle
    omega
  simp [Apart, textBefore_utc ha hb, textBefore_utc hb ha, hne, hback, hcut, hlt]

/-- **Times in UTC**: they agree with their texts when no one is another one cut. -/
theorem textAgrees_utc {times : List OffsetDateTime} (hsince : since.offset = 0)
    (htimes : ∀ t ∈ times, t.offset = 0) :
    TextAgrees times since ↔ (∀ t ∈ times, Apart since t) ∧
      ∀ t ∈ times, ∀ t' ∈ times, since ≤ t → since ≤ t' → Apart t t' := by
  have hcases : ∀ {a b : OffsetDateTime}, a.offset = 0 → b.offset = 0 → a < b ∨ a = b ∨ b < a := by
    rintro ⟨n, o⟩ ⟨n', o'⟩ ha hb
    simp only at ha hb
    rcases Int.lt_trichotomy n n' with h | h | h
    · exact .inl h
    · exact .inr (.inl (by rw [h, ha, hb]))
    · exact .inr (.inr h)
  have hirr : ∀ a : OffsetDateTime, a.offset = 0 → ¬ TextBefore a a := by
    intro a ha
    rw [textBefore_utc ha ha]
    simp
  constructor
  · intro h
    refine ⟨fun t ht => ?_, fun t ht t' ht' hle hle' => ?_⟩
    · rcases hcases hsince (htimes t ht) with hlt | rfl | hlt
      · exact (apart_iff_of_lt hsince (htimes t ht) hlt).1.2 ((h.after t ht).2 hlt)
      · exact .inl rfl
      · exact ((apart_iff_of_lt (htimes t ht) hsince hlt).1.2 ((h.before t ht).2 hlt)).symm
    · rcases hcases (htimes t ht) (htimes t' ht') with hlt | rfl | hlt
      · exact (apart_iff_of_lt (htimes t ht) (htimes t' ht') hlt).2.2 (h.order t ht t' ht' hle hlt)
      · exact .inl rfl
      · exact ((apart_iff_of_lt (htimes t' ht') (htimes t ht) hlt).2.2
          (h.order t' ht' t ht hle' hlt)).symm
  · rintro ⟨hside, hpair⟩
    refine ⟨fun t ht => ?_, fun t ht => ?_, fun t ht t' ht' hle hlt => ?_⟩
    · rcases hcases hsince (htimes t ht) with hlt | rfl | hlt
      · exact iff_of_true ((apart_iff_of_lt hsince (htimes t ht) hlt).1.1 (hside t ht)) hlt
      · exact iff_of_false (hirr _ hsince) (lt_irrefl _)
      · exact iff_of_false ((apart_iff_of_lt (htimes t ht) hsince hlt).2.1 (hside t ht).symm)
          (lt_asymm hlt)
    · rcases hcases hsince (htimes t ht) with hlt | rfl | hlt
      · exact iff_of_false ((apart_iff_of_lt hsince (htimes t ht) hlt).2.1 (hside t ht))
          (lt_asymm hlt)
      · exact iff_of_false (hirr _ hsince) (lt_irrefl _)
      · exact iff_of_true ((apart_iff_of_lt (htimes t ht) hsince hlt).1.1 (hside t ht).symm) hlt
    · exact (apart_iff_of_lt (htimes t ht) (htimes t' ht') hlt).2.1
        (hpair t ht t' ht' hle (hle.trans hlt.le))

theorem readsByTime_iff (hrows : ∀ r ∈ db.changes.rows, r.event.occurredAt.Formattable)
    (hsince : since.Formattable) :
    (∀ limit, ReadsByTime db since limit) ↔ TextAgrees (timesOf db) since := by
  have hlater := firstInTime_iff hrows (fun e => encodeTime since < encodeTime e.occurredAt)
    fun e => since < e.occurredAt
  have hfrom := firstInTime_iff hrows (fun e => ¬ encodeTime e.occurredAt < encodeTime since)
    fun e => since ≤ e.occurredAt
  have hreads : (∀ limit, ReadsByTime db since limit) ↔
      (∀ limit, FirstInTime (laterThan db since) limit
        (((byTime (db.changes.rows.filter fun r => encodeTime since < r.occurredAt)).map
          (·.event)).take limit)) ∧
      ∀ limit, FirstInTime (atOrAfter db since) limit
        (((pageRows db (some since) none).map (·.event)).take limit) := by
    rw [← forall_and]
    refine forall_congr' fun limit => ?_
    obtain ⟨page, hpage, hevents⟩ :
        ∃ page, getChangesPage db (some since) none limit = .ok page ∧
          page.events = ((pageRows db (some since) none).map (·.event)).take limit :=
      getChangesPage_ok hrows limit
    simp only [ReadsByTime, getChangesSince_ok hrows, hpage, Except.ok.injEq, exists_eq_left',
      hevents]
  rw [hreads]
  refine (and_congr hlater hfrom).trans ?_
  have hmem : ∀ r ∈ db.changes.rows, r.event.occurredAt ∈ timesOf db := fun r hr =>
    List.mem_map_of_mem (f := fun r : ChangeRow => r.event.occurredAt) hr
  constructor
  · rintro ⟨⟨hafter, _⟩, hbefore, horder⟩
    have htimes : ∀ t ∈ timesOf db, ∃ r ∈ db.changes.rows, r.event.occurredAt = t := fun t ht =>
      List.mem_map.1 ht
    refine ⟨?_, ?_, ?_⟩
    · intro t ht
      obtain ⟨r, hr, rfl⟩ := htimes t ht
      rw [← encodeTime_lt hsince (hrows r hr)]
      exact decide_eq_decide.1 (hafter r hr)
    · intro t ht
      obtain ⟨r, hr, rfl⟩ := htimes t ht
      rw [← encodeTime_lt (hrows r hr) hsince, ← OffsetDateTime.not_le]
      exact (not_iff_comm.1 (decide_eq_decide.1 (hbefore r hr))).symm
    · intro t ht t' ht' hle hlt
      obtain ⟨r, hr, rfl⟩ := htimes t ht
      obtain ⟨r', hr', rfl⟩ := htimes t' ht'
      refine horder r hr r' hr' ?_ ?_ hlt
      · rw [hbefore r hr]
        exact decide_eq_true hle
      · rw [hbefore r' hr']
        exact decide_eq_true (hle.trans hlt.le)
  · rintro ⟨hafter, hbefore, horder⟩
    have hselect : ∀ r ∈ db.changes.rows, decide (¬ encodeTime r.event.occurredAt <
        encodeTime since) = decide (since ≤ r.event.occurredAt) := by
      intro r hr
      rw [decide_eq_decide, encodeTime_lt (hrows r hr) hsince, hbefore _ (hmem r hr),
        OffsetDateTime.not_lt]
    have hselect' : ∀ r ∈ db.changes.rows, decide (encodeTime since <
        encodeTime r.event.occurredAt) = decide (since < r.event.occurredAt) := by
      intro r hr
      rw [decide_eq_decide, encodeTime_lt hsince (hrows r hr), hafter _ (hmem r hr)]
    refine ⟨⟨hselect', ?_⟩, hselect, ?_⟩
    · intro r hr r' hr' hp _ hlt
      rw [hselect' r hr] at hp
      exact horder _ (hmem r hr) _ (hmem r' hr') (of_decide_eq_true hp).le hlt
    · intro r hr r' hr' hp _ hlt
      rw [hselect r hr] at hp
      exact horder _ (hmem r hr) _ (hmem r' hr') (of_decide_eq_true hp) hlt

/-- **Reads by time**: for stored times, the two reads agree with time at every limit exactly when
the times agree with their texts. -/
theorem reads_by_time (hrows : ∀ t ∈ timesOf db, t.Formattable) (hsince : since.Formattable) :
    ((∀ limit, ReadsByTime db since limit) ↔ TextAgrees (timesOf db) since) ∧
    (since.offset = 0 → (∀ t ∈ timesOf db, t.offset = 0) →
      ((∀ limit, ReadsByTime db since limit) ↔ (∀ t ∈ timesOf db, Apart since t) ∧
        ∀ t ∈ timesOf db, ∀ t' ∈ timesOf db, since ≤ t → since ≤ t' → Apart t t')) := by
  have hiff := readsByTime_iff (fun r hr => hrows _ (List.mem_map_of_mem hr)) hsince
  exact ⟨hiff, fun hutc htimes => hiff.trans (textAgrees_utc hutc htimes)⟩

/-- An event half a second after the epoch. -/
def sampleHalf : ChangeEvent :=
  { eventType := "drawer_added", occurredAt := ⟨500000000, 0⟩, entityId := "d", actor := none
    detailsJson := none }

def sampleLate : State := (store.play ⟨store.init, ()⟩ [.appendEvent sampleHalf]).2

/-- Asked for the events since a quarter of a second after the epoch, both reads are right. -/
theorem reads_by_time_sample :
    ReadsByTime sampleLate.db ⟨250000000, 0⟩ 10 := by
  exact (reads_by_time (by decide) (by decide)).1.2 ⟨by decide, by decide, by decide⟩ 10

/-- An event half a second after the epoch is not among those since the epoch. -/
theorem change_read_misses_event :
    ¬ ∀ (db : ChangeDb) (since : OffsetDateTime) (limit : Nat),
      (∀ t ∈ timesOf db, t.Formattable) → since.Formattable → ReadsByTime db since limit := by
  intro hclaim
  have hagrees : TextAgrees (timesOf sampleLate.db) ⟨0, 0⟩ :=
    (readsByTime_iff (by decide) (by decide)).1 fun limit => hclaim _ _ limit (by decide) (by decide)
  have hafter := hagrees.after ⟨500000000, 0⟩ (by decide)
  revert hafter
  decide

end AgentPalace.ChangeLog
