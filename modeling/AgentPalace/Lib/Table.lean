import Mathlib.Data.List.Sort

/-!
# Keyed tables

`Table key` holds rows in insertion order with pairwise distinct primary keys;
`Series key seq` is a table whose rows also carry an `AUTOINCREMENT` sequence
that orders them. Both carry their well-formedness as fields: a statement that
would break a key or run past the last rowid answers a `SqlFault` instead.
Reads are `get?`, updates of one row are `modify`.
-/

namespace AgentPalace

universe u v

inductive SqlFault where
  | uniqueViolation
  | full
  /-- A column is not of the type it is read at. -/
  | columnType
  deriving DecidableEq

/-- The largest rowid, `i64::MAX`. -/
def maxRowid : Int := 9223372036854775807

/-- `COALESCE(MAX(..), 0)`. -/
def maxOrZero (values : List Int) : Int := values.max?.getD 0

/-- `COALESCE(MAX(..), 0) + 1`; past `i64::MAX` the sum is a real number. -/
def nextAfter (values : List Int) : Except SqlFault Int :=
  if maxRowid ≤ maxOrZero values then .error .columnType else .ok (maxOrZero values + 1)

theorem le_maxOrZero {values : List Int} {x : Int} (h : x ∈ values) : x ≤ maxOrZero values := by
  unfold maxOrZero
  cases hmax : values.max? with
  | none => rw [List.max?_eq_none_iff.1 hmax] at h; cases h
  | some m => exact (List.max?_eq_some_iff.1 hmax).2 x h

theorem lt_of_nextAfter {values : List Int} {n x : Int} (h : nextAfter values = .ok n)
    (hx : x ∈ values) : x < n := by
  unfold nextAfter at h
  split at h
  · cases h
  · cases h
    have := le_maxOrZero hx
    omega

/-- The first row that satisfies a condition comes before every row that does. -/
theorem find?_insertionSort {ρ : Type u} {le : ρ → ρ → Prop} [DecidableRel le] [Std.Total le]
    [IsTrans ρ le] {rows : List ρ} {p : ρ → Bool} {a : ρ}
    (h : (rows.insertionSort le).find? p = some a) :
    a ∈ rows ∧ p a = true ∧ ∀ b ∈ rows, p b = true → le a b := by
  have hmem : ∀ b, b ∈ rows.insertionSort le ↔ b ∈ rows := fun b => List.mem_insertionSort _
  refine ⟨(hmem a).1 (List.mem_of_find?_eq_some h), List.find?_some h, fun b hb hp => ?_⟩
  obtain ⟨_, before, behind, hsplit, hbefore⟩ := List.find?_eq_some_iff_append.1 h
  have hsorted : (rows.insertionSort le).Pairwise le := List.pairwise_insertionSort _ rows
  rw [hsplit, List.pairwise_append, List.pairwise_cons] at hsorted
  have hb : b ∈ before ++ a :: behind := hsplit ▸ (hmem b).2 hb
  rcases List.mem_append.1 hb with hb | hb
  · have := hbefore b hb
    rw [hp] at this
    cases this
  · rcases List.mem_cons.1 hb with rfl | hb
    · exact (Std.Total.total b b).elim id id
    · exact hsorted.2.1.1 b hb

/-- `ORDER BY` a column. -/
def orderBy {ρ : Type u} (column : ρ → Int) (rows : List ρ) : List ρ :=
  rows.insertionSort fun a b => column a ≤ column b

section
variable {ρ : Type u} {column : ρ → Int} {rows : List ρ} {p : ρ → Bool} {a : ρ}

@[simp] theorem mem_orderBy : a ∈ orderBy column rows ↔ a ∈ rows := List.mem_insertionSort _

/-- The first row that satisfies a condition has the least column among those that do. -/
theorem find?_orderBy (h : (orderBy column rows).find? p = some a) :
    a ∈ rows ∧ p a = true ∧ ∀ b ∈ rows, p b = true → column a ≤ column b :=
  find?_insertionSort h

theorem find?_orderBy_isSome (ha : a ∈ rows) (hp : p a = true) :
    ∃ b, (orderBy column rows).find? p = some b := by
  cases h : (orderBy column rows).find? p with
  | some b => exact ⟨b, rfl⟩
  | none => exact absurd hp (List.find?_eq_none.1 h a (mem_orderBy.2 ha))

end

/-- Rows in insertion order, no two with the same key. -/
structure Table {ρ : Type u} {κ : Type v} (key : ρ → κ) where
  rows : List ρ
  nodup : (rows.map key).Nodup

namespace Table

variable {ρ : Type u} {κ : Type v} {key : ρ → κ}

def empty : Table key := ⟨[], List.nodup_nil⟩

@[simp] theorem rows_empty : (empty : Table key).rows = [] := rfl

theorem eq_of_key_eq {t : Table key} {r r' : ρ} (hr : r ∈ t.rows) (hr' : r' ∈ t.rows)
    (hk : key r = key r') : r = r' :=
  List.inj_on_of_nodup_map t.nodup hr hr' hk

variable [DecidableEq κ]

/-- The row stored under `k`. -/
def get? (t : Table key) (k : κ) : Option ρ := t.rows.find? fun r => key r = k

theorem map_key_modify (rows : List ρ) (k : κ) (f : ρ → ρ) (hf : ∀ r, key (f r) = key r) :
    (rows.map fun r => if key r = k then f r else r).map key = rows.map key := by
  rw [List.map_map]
  refine List.map_congr_left fun r _ => ?_
  simp only [Function.comp]
  split
  · exact hf r
  · rfl

/-- `UPDATE ... WHERE key = k`: the row under `k` becomes its image under `f`. -/
def modify (t : Table key) (k : κ) (f : ρ → ρ)
    (hf : ∀ r, key (f r) = key r := by intro r; first | rfl | (split <;> rfl)) :
    Table key :=
  ⟨t.rows.map fun r => if key r = k then f r else r, by
    rw [map_key_modify _ _ _ hf]; exact t.nodup⟩

/-- `UPDATE ... WHERE p`: the rows that satisfy `p` become their images under `f`. -/
def updateWhere (t : Table key) (p : ρ → Bool) (f : ρ → ρ)
    (hf : ∀ r, key (f r) = key r := by intro r; rfl) : Table key :=
  ⟨t.rows.map fun r => if p r then f r else r, by
    have hkeys : (t.rows.map fun r => if p r then f r else r).map key = t.rows.map key := by
      rw [List.map_map]
      refine List.map_congr_left fun r _ => ?_
      simp only [Function.comp]
      split
      · exact hf r
      · rfl
    rw [hkeys]
    exact t.nodup⟩

/-- `DELETE ... WHERE p`. -/
def deleteWhere (t : Table key) (p : ρ → Bool) : Table key :=
  ⟨t.rows.filter fun r => !p r, t.nodup.sublist (List.filter_sublist.map key)⟩

omit [DecidableEq κ] in
@[simp] theorem mem_deleteWhere {t : Table key} {p : ρ → Bool} {r : ρ} :
    r ∈ (t.deleteWhere p).rows ↔ r ∈ t.rows ∧ p r = false := by
  simp [deleteWhere]

/-- `INSERT` of one row; a key that is taken is refused. -/
def insert? (t : Table key) (r : ρ) : Except SqlFault (Table key) :=
  if h : key r ∈ t.rows.map key then .error .uniqueViolation
  else .ok ⟨t.rows ++ [r], by
    rw [List.map_append]
    refine List.nodup_append.2 ⟨t.nodup, List.nodup_singleton _, ?_⟩
    rintro a ha b hb rfl
    exact h (List.mem_singleton.1 hb ▸ ha)⟩

theorem get?_eq_some {t : Table key} {k : κ} {r : ρ} :
    t.get? k = some r ↔ r ∈ t.rows ∧ key r = k := by
  constructor
  · intro h
    exact ⟨List.mem_of_find?_eq_some h, by simpa using List.find?_some h⟩
  · rintro ⟨hr, rfl⟩
    cases hf : t.get? (key r) with
    | none => simpa using List.find?_eq_none.1 hf r hr
    | some r' =>
      have hk : key r' = key r := by simpa using List.find?_some hf
      rw [eq_of_key_eq (List.mem_of_find?_eq_some hf) hr hk]

theorem get?_key {t : Table key} {k : κ} {r : ρ} (h : t.get? k = some r) : key r = k :=
  (get?_eq_some.1 h).2

theorem mem_of_get? {t : Table key} {k : κ} {r : ρ} (h : t.get? k = some r) : r ∈ t.rows :=
  (get?_eq_some.1 h).1

theorem get?_of_mem {t : Table key} {r : ρ} (h : r ∈ t.rows) : t.get? (key r) = some r :=
  get?_eq_some.2 ⟨h, rfl⟩

/-- A row that was put at the end, by a name of its own. -/
theorem appended {t t' : Table key} (r : ρ)
    (h : t'.rows = t.rows ++ [r] ∧ t.get? (key r) = none) :
    ∃ row, row = r ∧ t'.rows = t.rows ++ [row] ∧ t.get? (key row) = none ∧
      t'.get? (key row) = some row :=
  ⟨r, rfl, h.1, h.2, get?_of_mem (h.1 ▸ List.mem_append_right _ List.mem_cons_self)⟩

theorem get?_eq_none {t : Table key} {k : κ} : t.get? k = none ↔ ∀ r ∈ t.rows, key r ≠ k := by
  simp [get?, List.find?_eq_none]

@[simp] theorem get?_empty (k : κ) : (empty : Table key).get? k = none := rfl

theorem rows_modify (t : Table key) {k : κ} {r : ρ} (f : ρ → ρ) (hf : ∀ r, key (f r) = key r)
    (h : t.get? k = some r) :
    (t.modify k f hf).rows = t.rows.map fun x => if key x = k then f r else x := by
  refine List.map_congr_left fun x hx => ?_
  by_cases e : key x = k
  · rw [if_pos e, if_pos e, eq_of_key_eq hx (mem_of_get? h) (e.trans (get?_key h).symm)]
  · rw [if_neg e, if_neg e]

theorem get?_replace {t t' : Table key} {r : ρ} (r' : ρ)
    (h : t'.rows = t.rows.map fun x => if key x = key r' then r' else x)
    (hr : t.get? (key r') = some r) (k : κ) :
    t'.get? k = if k = key r' then some r' else t.get? k := by
  by_cases e : k = key r'
  · rw [if_pos e]
    refine get?_eq_some.2 ⟨?_, e.symm⟩
    rw [h]
    exact List.mem_map.2 ⟨r, mem_of_get? hr, if_pos (get?_key hr)⟩
  · rw [if_neg e]
    have hmem : ∀ x, key x = k → (x ∈ t'.rows ↔ x ∈ t.rows) := by
      intro x hx
      rw [h, List.mem_map]
      constructor
      · rintro ⟨y, hy, hyx⟩
        by_cases ey : key y = key r'
        · rw [if_pos ey] at hyx
          rw [← hyx] at hx
          exact absurd hx.symm e
        · rw [if_neg ey] at hyx
          rwa [← hyx]
      · intro hx'
        exact ⟨x, hx', if_neg fun ex => e (hx.symm.trans ex)⟩
    cases hg : t.get? k with
    | some x =>
      obtain ⟨hx, hk⟩ := get?_eq_some.1 hg
      exact get?_eq_some.2 ⟨(hmem x hk).2 hx, hk⟩
    | none => exact get?_eq_none.2 fun x hx hk => get?_eq_none.1 hg x ((hmem x hk).1 hx) hk

theorem rows_insert? {t t' : Table key} {r : ρ} (h : t.insert? r = .ok t') :
    t'.rows = t.rows ++ [r] ∧ t.get? (key r) = none := by
  unfold insert? at h
  split at h
  · cases h
  · rename_i hn
    cases h
    refine ⟨rfl, get?_eq_none.2 fun r' hr' e => hn ?_⟩
    rw [← e]
    exact List.mem_map_of_mem hr'

theorem insert?_of_fresh {t : Table key} {r : ρ} (h : ∀ r' ∈ t.rows, key r' ≠ key r) :
    ∃ t' : Table key, t.insert? r = .ok t' ∧ t'.rows = t.rows ++ [r] := by
  have hn : key r ∉ t.rows.map key := by
    intro hmem
    obtain ⟨r', hr', hk⟩ := List.mem_map.1 hmem
    exact h r' hr' hk
  exact ⟨_, dif_neg hn, rfl⟩

theorem get?_append {t t' : Table key} {r : ρ} (h : t'.rows = t.rows ++ [r])
    (hfresh : t.get? (key r) = none) (k : κ) :
    t'.get? k = if k = key r then some r else t.get? k := by
  unfold get? at *
  rw [h, List.find?_append]
  by_cases e : k = key r
  · subst e; rw [hfresh]; simp
  · rw [if_neg e]
    have : List.find? (fun r => decide (key r = k)) [r] = none := by simp [Ne.symm e]
    rw [this, Option.or_none]

/-- `INSERT ... ON CONFLICT(key) DO UPDATE`: the row, or the one that has its key updated. -/
def upsert (t : Table key) (r : ρ) (update : ρ → ρ)
    (hf : ∀ x, key (update x) = key x := by intro x; rfl) : Table key :=
  if h : key r ∈ t.rows.map key then t.modify (key r) update hf
  else ⟨t.rows ++ [r], by
    rw [List.map_append]
    refine List.nodup_append.2 ⟨t.nodup, List.nodup_singleton _, ?_⟩
    rintro a ha b hb rfl
    exact h (List.mem_singleton.1 hb ▸ ha)⟩

theorem rows_upsert_of_none {t : Table key} {r : ρ} {update : ρ → ρ}
    {hf : ∀ x, key (update x) = key x} (h : t.get? (key r) = none) :
    (t.upsert r update hf).rows = t.rows ++ [r] := by
  have hnew : key r ∉ t.rows.map key := by
    intro hmem
    obtain ⟨x, hx, hk⟩ := List.mem_map.1 hmem
    exact get?_eq_none.1 h x hx hk
  rw [upsert, dif_neg hnew]

theorem rows_upsert_of_some {t : Table key} {r old : ρ} {update : ρ → ρ}
    {hf : ∀ x, key (update x) = key x} (h : t.get? (key r) = some old) :
    (t.upsert r update hf).rows = t.rows.map fun x => if key x = key r then update old else x := by
  have hmem : key r ∈ t.rows.map key := by
    rw [← get?_key h]
    exact List.mem_map_of_mem (mem_of_get? h)
  rw [upsert, dif_pos hmem, rows_modify t update hf h]

/-- The rows after an upsert: those of other keys, and the one it wrote. -/
theorem mem_upsert {t : Table key} {r x : ρ} {update : ρ → ρ} {hf : ∀ x, key (update x) = key x} :
    x ∈ (t.upsert r update hf).rows ↔
      x ∈ t.rows ∧ key x ≠ key r ∨ x = (t.get? (key r)).elim r update := by
  cases hold : t.get? (key r) with
  | none =>
    rw [rows_upsert_of_none hold, List.mem_append, List.mem_singleton]
    have hne := get?_eq_none.1 hold
    constructor
    · rintro (hx | rfl)
      · exact .inl ⟨hx, hne x hx⟩
      · exact .inr rfl
    · rintro (⟨hx, _⟩ | rfl)
      · exact .inl hx
      · exact .inr rfl
  | some old =>
    rw [rows_upsert_of_some hold, List.mem_map]
    constructor
    · rintro ⟨y, hy, rfl⟩
      split
      · exact .inr rfl
      · exact .inl ⟨hy, ‹_›⟩
    · rintro (⟨hx, hk⟩ | rfl)
      · exact ⟨x, hx, if_neg hk⟩
      · exact ⟨old, mem_of_get? hold, if_pos (get?_key hold)⟩

theorem get?_upsert {t : Table key} {r : ρ} {update : ρ → ρ} {hf : ∀ x, key (update x) = key x}
    (k : κ) : (t.upsert r update hf).get? k =
      if k = key r then some ((t.get? (key r)).elim r update) else t.get? k := by
  have hkey : key ((t.get? (key r)).elim r update) = key r := by
    cases hold : t.get? (key r) with
    | none => rfl
    | some old => exact (hf old).trans (get?_key hold)
  split
  · rename_i hk
    exact get?_eq_some.2 ⟨mem_upsert.2 (.inr rfl), hkey.trans hk.symm⟩
  · rename_i hk
    refine Option.ext fun x => ?_
    rw [get?_eq_some, get?_eq_some, mem_upsert]
    constructor
    · rintro ⟨⟨hx, _⟩ | rfl, hxk⟩
      · exact ⟨hx, hxk⟩
      · exact absurd (hxk.symm.trans hkey) hk
    · rintro ⟨hx, rfl⟩
      exact ⟨.inl ⟨hx, hk⟩, rfl⟩

theorem get?_deleteWhere {t : Table key} {p : ρ → Bool} (k : κ) :
    (t.deleteWhere p).get? k = (t.get? k).filter fun r => !p r := by
  refine Option.ext fun x => ?_
  rw [get?_eq_some, mem_deleteWhere, Option.filter_eq_some_iff, get?_eq_some]
  simp only [Bool.not_eq_true']
  exact and_right_comm

end Table

/-- A table whose rows are in increasing order of an `AUTOINCREMENT` sequence. -/
structure Series {ρ : Type u} {κ : Type v} (key : ρ → κ) (seq : ρ → Int) extends Table key where
  sorted : rows.Pairwise fun a b => seq a < seq b
  inRange : ∀ r ∈ rows, 0 < seq r ∧ seq r ≤ maxRowid

namespace Series

variable {ρ : Type u} {κ : Type v} {key : ρ → κ} {seq : ρ → Int}

def empty : Series key seq := ⟨Table.empty, List.Pairwise.nil, by simp⟩

/-- The sequence the next row gets: one past the last one. -/
def next (t : Series key seq) : Int := (t.rows.getLast?.map seq).getD 0 + 1

theorem lt_next {t : Series key seq} {r : ρ} (hr : r ∈ t.rows) : seq r < t.next := by
  rcases List.eq_nil_or_concat t.rows with h | ⟨l, b, h⟩
  · rw [h] at hr; cases hr
  · have hs := t.sorted
    rw [h] at hr
    rw [h, List.concat_eq_append, List.pairwise_append] at hs
    simp only [next, h, List.concat_eq_append, List.getLast?_append, List.getLast?_singleton,
      Option.some_or, Option.map_some, Option.getD_some]
    rw [List.concat_eq_append, List.mem_append] at hr
    rcases hr with hr | hr
    · have := hs.2.2 r hr b (List.mem_singleton.2 rfl); omega
    · rw [List.mem_singleton.1 hr]; omega

theorem next_pos (t : Series key seq) : 0 < t.next := by
  unfold next
  cases h : t.rows.getLast? with
  | none => simp
  | some r => have := (t.inRange r (List.mem_of_getLast? h)).1; simp; omega

variable [DecidableEq κ]

abbrev get? (t : Series key seq) (k : κ) : Option ρ := t.toTable.get? k

/-- `INSERT` of the row built for the next sequence. -/
def append? (t : Series key seq) (mk : Int → ρ) (hmk : ∀ n, seq (mk n) = n := by intro; rfl) :
    Except SqlFault (Series key seq) :=
  if hfull : maxRowid < t.next then .error .full
  else if hdup : key (mk t.next) ∈ t.rows.map key then .error .uniqueViolation
  else .ok
    { rows := t.rows ++ [mk t.next]
      nodup := by
        rw [List.map_append]
        refine List.nodup_append.2 ⟨t.nodup, List.nodup_singleton _, ?_⟩
        rintro a ha b hb rfl
        exact hdup (List.mem_singleton.1 hb ▸ ha)
      sorted := by
        refine List.pairwise_append.2 ⟨t.sorted, List.pairwise_singleton _ _, ?_⟩
        intro a ha b hb
        rw [List.mem_singleton.1 hb, hmk]
        exact lt_next ha
      inRange := by
        intro r hr
        rcases List.mem_append.1 hr with hr | hr
        · exact t.inRange r hr
        · rw [List.mem_singleton.1 hr, hmk]
          exact ⟨t.next_pos, by omega⟩ }

theorem rows_append? {t t' : Series key seq} {mk : Int → ρ} {hmk : ∀ n, seq (mk n) = n}
    (h : t.append? mk hmk = .ok t') :
    t'.rows = t.rows ++ [mk t.next] ∧ t.get? (key (mk t.next)) = none := by
  unfold append? at h
  split at h
  · cases h
  · split at h
    · cases h
    · rename_i hn
      cases h
      refine ⟨rfl, Table.get?_eq_none.2 fun r hr e => hn ?_⟩
      rw [← e]
      exact List.mem_map_of_mem hr

/-- `UPDATE ... WHERE key = k` of columns other than the key and the sequence. -/
def modify (t : Series key seq) (k : κ) (f : ρ → ρ)
    (hf : ∀ r, key (f r) = key r := by intro r; first | rfl | (split <;> rfl))
    (hs : ∀ r, seq (f r) = seq r := by intro r; first | rfl | (split <;> rfl)) :
    Series key seq :=
  have hseq : ∀ r, seq (if key r = k then f r else r) = seq r := fun r => by
    split
    · exact hs r
    · rfl
  { toTable := t.toTable.modify k f hf
    sorted := by
      refine List.pairwise_map.2 (t.sorted.imp fun {a b} hab => ?_)
      rw [hseq, hseq]; exact hab
    inRange := by
      intro r hr
      obtain ⟨r0, hr0, rfl⟩ := List.mem_map.1 hr
      rw [hseq]
      exact t.inRange r0 hr0 }

end Series

end AgentPalace
