import Mathlib.Order.Lattice

/-!
# Ordered maps

`OrdMap κ β` is a finite map kept as its entries in increasing order of their
keys, which is the order they are iterated in. `insert` puts or replaces one
entry, `tryMap` rebuilds a map value by value and stops at the first value that
is refused. `filter`, `erase`, `mapEntries` and `modify` keep the order of the keys.
How many values satisfy a condition is how many keys hold such a value.
`alter` updates an entry that may not be there yet. `groupBy` collects the elements
of a list by a key.
-/

namespace AgentPalace

universe u v w

structure OrdMap (κ : Type u) [LinearOrder κ] (β : Type v) where
  entries : List (κ × β)
  sorted : entries.Pairwise fun a b => a.1 < b.1

namespace OrdMap

variable {κ : Type u} [LinearOrder κ] {β : Type v} {γ : Type w} {ε : Type u}

def empty : OrdMap κ β := ⟨[], List.Pairwise.nil⟩

def get? (m : OrdMap κ β) (k : κ) : Option β := m.entries.lookup k

def contains (m : OrdMap κ β) (k : κ) : Bool := (m.get? k).isSome

def keys (m : OrdMap κ β) : List κ := m.entries.map (·.1)

def values (m : OrdMap κ β) : List β := m.entries.map (·.2)

def size (m : OrdMap κ β) : Nat := m.entries.length

theorem lookup_of_ne {k j : κ} {y : β} {es : List (κ × β)} (h : k ≠ j) :
    List.lookup k ((j, y) :: es) = es.lookup k := by
  rw [List.lookup_cons, beq_eq_false_iff_ne.2 h]

theorem lookup_eq_some_of_mem {k : κ} {x : β} : ∀ {es : List (κ × β)},
    es.Pairwise (fun a b => a.1 < b.1) → (k, x) ∈ es → es.lookup k = some x
  | [], _, h => absurd h List.not_mem_nil
  | (j, y) :: es, hs, h => by
    obtain ⟨hlt, hs⟩ := List.pairwise_cons.1 hs
    rcases List.mem_cons.1 h with h | h
    · cases h
      simp
    · have hne : k ≠ j := (hlt _ h).ne'
      rw [lookup_of_ne hne]
      exact lookup_eq_some_of_mem hs h

theorem mem_of_lookup_eq_some {k : κ} {x : β} : ∀ {es : List (κ × β)},
    es.lookup k = some x → (k, x) ∈ es
  | [], h => by cases h
  | (j, y) :: es, h => by
    rw [List.lookup_cons] at h
    split at h
    · rename_i hkj
      cases h
      rw [eq_of_beq hkj]
      exact List.mem_cons_self
    · exact List.mem_cons_of_mem _ (mem_of_lookup_eq_some h)

theorem mem_entries {m : OrdMap κ β} {k : κ} {x : β} : (k, x) ∈ m.entries ↔ m.get? k = some x :=
  ⟨lookup_eq_some_of_mem m.sorted, mem_of_lookup_eq_some⟩

theorem mem_values {m : OrdMap κ β} {x : β} : x ∈ m.values ↔ ∃ k, m.get? k = some x := by
  simp [values, mem_entries]

theorem find?_values [DecidableEq γ] {m : OrdMap κ β} {k : κ} {x : β} {f : β → γ}
    (h : m.get? k = some x) (hinj : ∀ j y, m.get? j = some y → f y = f x → j = k) :
    (m.values.find? fun y => decide (f y = f x)) = some x := by
  cases hfind : m.values.find? fun y => decide (f y = f x) with
  | none =>
    have := List.find?_eq_none.1 hfind x (mem_values.2 ⟨k, h⟩)
    simp at this
  | some y =>
    obtain ⟨j, hj⟩ := mem_values.1 (List.mem_of_find?_eq_some hfind)
    rw [hinj j y hj (by simpa using List.find?_some hfind), h] at hj
    exact hj.symm

theorem mem_keys {m : OrdMap κ β} {k : κ} : k ∈ m.keys ↔ m.contains k = true := by
  simp [keys, contains, mem_entries, Option.isSome_iff_exists]

@[simp] theorem get?_empty (k : κ) : (empty : OrdMap κ β).get? k = none := rfl

def insertEntry (k : κ) (x : β) : List (κ × β) → List (κ × β)
  | [] => [(k, x)]
  | (j, y) :: es =>
    if k < j then (k, x) :: (j, y) :: es
    else if k = j then (k, x) :: es
    else (j, y) :: insertEntry k x es

theorem mem_insertEntry {k : κ} {x : β} {e : κ × β} {es : List (κ × β)}
    (h : e ∈ insertEntry k x es) : e = (k, x) ∨ e ∈ es := by
  induction es with
  | nil => simpa [insertEntry] using h
  | cons d es ih =>
    unfold insertEntry at h
    split at h
    · simpa using h
    · split at h
      · exact (List.mem_cons.1 h).imp_right (List.mem_cons_of_mem d)
      · rcases List.mem_cons.1 h with rfl | h
        · exact .inr List.mem_cons_self
        · exact (ih h).imp_right (List.mem_cons_of_mem d)

theorem sorted_insertEntry {k : κ} {x : β} {es : List (κ × β)}
    (h : es.Pairwise fun a b => a.1 < b.1) :
    (insertEntry k x es).Pairwise fun a b => a.1 < b.1 := by
  induction es with
  | nil => simp [insertEntry]
  | cons d es ih =>
    obtain ⟨hlt, hs⟩ := List.pairwise_cons.1 h
    unfold insertEntry
    split
    · rename_i hk
      refine List.pairwise_cons.2 ⟨fun e he => ?_, h⟩
      rcases List.mem_cons.1 he with rfl | he
      · exact hk
      · exact hk.trans (hlt e he)
    · rename_i hge
      split
      · rename_i hk
        exact List.pairwise_cons.2 ⟨fun e he => hk ▸ hlt e he, hs⟩
      · rename_i hne
        refine List.pairwise_cons.2 ⟨fun e he => ?_, ih hs⟩
        rcases mem_insertEntry he with rfl | he
        · exact lt_of_le_of_ne (not_lt.1 hge) (Ne.symm hne)
        · exact hlt e he

theorem lookup_insertEntry {k j : κ} {x : β} {es : List (κ × β)} :
    (insertEntry k x es).lookup j = if j = k then some x else es.lookup j := by
  have hhead : ∀ es : List (κ × β),
      List.lookup j ((k, x) :: es) = if j = k then some x else es.lookup j := by
    intro es
    split
    · rename_i h
      simp [h]
    · rename_i h
      exact lookup_of_ne h
  induction es with
  | nil => exact hhead []
  | cons d es ih =>
    obtain ⟨i, y⟩ := d
    unfold insertEntry
    split
    · exact hhead _
    · split
      · rename_i hk
        subst hk
        rw [hhead]
        split
        · rfl
        · rename_i h
          exact (lookup_of_ne h).symm
      · rename_i hne
        by_cases hi : j = i
        · subst hi
          simp [Ne.symm hne]
        · rw [lookup_of_ne hi, lookup_of_ne hi, ih]

/-- Put an entry, in place of the one under the same key. -/
def insert (m : OrdMap κ β) (k : κ) (x : β) : OrdMap κ β :=
  ⟨insertEntry k x m.entries, sorted_insertEntry m.sorted⟩

theorem get?_insert (m : OrdMap κ β) (k j : κ) (x : β) :
    (m.insert k x).get? j = if j = k then some x else m.get? j := lookup_insertEntry

theorem get?_insert_some {m : OrdMap κ β} {k j : κ} {x y : β} (h : (m.insert k x).get? j = some y) :
    j = k ∧ x = y ∨ m.get? j = some y := by
  rw [get?_insert] at h
  split at h
  · exact .inl ⟨‹_›, Option.some.inj h⟩
  · exact .inr h

theorem insert_inj {m : OrdMap κ β} {k : κ} {x : β} {f : β → γ}
    (hinj : ∀ i y j z, m.get? i = some y → m.get? j = some z → f y = f z → i = j)
    (hnew : ∀ j z, m.get? j = some z → f z ≠ f x) {i j : κ} {y z : β}
    (hy : (m.insert k x).get? i = some y) (hz : (m.insert k x).get? j = some z) (heq : f y = f z) :
    i = j := by
  rcases get?_insert_some hy with ⟨hi, rfl⟩ | hy <;> rcases get?_insert_some hz with ⟨hj, rfl⟩ | hz
  · rw [hi, hj]
  · exact absurd heq.symm (hnew j z hz)
  · exact absurd heq (hnew i y hy)
  · exact hinj i y j z hy hz heq

theorem contains_insert (m : OrdMap κ β) (k j : κ) (x : β) :
    (m.insert k x).contains j = (decide (j = k) || m.contains j) := by
  unfold contains
  rw [get?_insert]
  by_cases h : j = k <;> simp [h]

theorem length_insert_le (m : OrdMap κ β) (k : κ) (x : β) :
    (m.insert k x).entries.length ≤ m.entries.length + 1 := by
  have hentry : ∀ es : List (κ × β), (insertEntry k x es).length ≤ es.length + 1 := by
    intro es
    induction es with
    | nil => exact Nat.le_refl 1
    | cons d es ih =>
      unfold insertEntry
      split
      · exact Nat.le_refl _
      · split
        · exact Nat.le_succ _
        · rw [List.length_cons, List.length_cons]
          omega
  exact hentry m.entries

theorem keys_insert {m : OrdMap κ β} {k : κ} (h : k ∈ m.keys) (x : β) :
    (m.insert k x).keys = m.keys := by
  have hentry : ∀ es : List (κ × β), es.Pairwise (fun a b => a.1 < b.1) → k ∈ es.map (·.1) →
      (insertEntry k x es).map (·.1) = es.map (·.1) := by
    intro es hs hk
    induction es with
    | nil => cases hk
    | cons d es ih =>
      obtain ⟨hlt, hs⟩ := List.pairwise_cons.1 hs
      unfold insertEntry
      rcases List.mem_cons.1 hk with rfl | hk
      · rw [if_neg (lt_irrefl _), if_pos rfl]
        rfl
      · obtain ⟨e, he, rfl⟩ := List.mem_map.1 hk
        have hd := hlt e he
        rw [if_neg (not_lt.2 hd.le), if_neg hd.ne', List.map_cons, List.map_cons, ih hs hk]
  exact hentry m.entries m.sorted h

def ofList (es : List (κ × β)) : OrdMap κ β := es.foldl (fun m e => m.insert e.1 e.2) empty

/-- Rebuild the entries in order, up to the first one that is refused. -/
def tryEntries (f : κ → β → Except ε γ) : List (κ × β) → OrdMap κ γ → Except ε (OrdMap κ γ)
  | [], out => .ok out
  | (k, x) :: es, out =>
    match f k x with
    | .error err => .error err
    | .ok y => tryEntries f es (out.insert k y)

def tryMap (m : OrdMap κ β) (f : κ → β → Except ε γ) : Except ε (OrdMap κ γ) :=
  tryEntries f m.entries empty

theorem get?_tryEntries {f : κ → β → Except ε γ} {es : List (κ × β)} {acc out : OrdMap κ γ}
    (hs : es.Pairwise fun a b => a.1 < b.1) (h : tryEntries f es acc = .ok out) (k : κ) :
    (∀ x, es.lookup k = some x → ∃ y, f k x = .ok y ∧ out.get? k = some y) ∧
      (es.lookup k = none → out.get? k = acc.get? k) := by
  induction es generalizing acc with
  | nil =>
    cases h
    exact ⟨fun x hx => (by cases hx), fun _ => rfl⟩
  | cons e es ih =>
    obtain ⟨j, z⟩ := e
    obtain ⟨hlt, hs⟩ := List.pairwise_cons.1 hs
    unfold tryEntries at h
    cases hj : f j z with
    | error err =>
      rw [hj] at h
      cases h
    | ok y =>
      rw [hj] at h
      have ih := ih hs h
      by_cases hk : k = j
      · subst hk
        -- the keys behind are larger: no later entry replaces this one
        have hnone : es.lookup k = none := by
          cases hl : es.lookup k with
          | none => rfl
          | some x => exact absurd (hlt _ (mem_of_lookup_eq_some hl)) (lt_irrefl k)
        have hout := ih.2 hnone
        rw [get?_insert, if_pos rfl] at hout
        refine ⟨fun x hx => ?_, fun hx => ?_⟩
        · rw [List.lookup_cons, beq_self_eq_true] at hx
          cases hx
          exact ⟨y, hj, hout⟩
        · simp at hx
      · rw [lookup_of_ne hk]
        refine ⟨ih.1, fun hx => ?_⟩
        rw [ih.2 hx, get?_insert, if_neg hk]

section
variable {m : OrdMap κ β} {f : κ → β → Except ε γ} {out : OrdMap κ γ} {k : κ}

theorem get?_tryMap {x : β} (h : m.tryMap f = .ok out) (hx : m.get? k = some x) :
    ∃ y, f k x = .ok y ∧ out.get? k = some y :=
  (get?_tryEntries m.sorted h k).1 x hx

theorem get?_tryMap_none (h : m.tryMap f = .ok out) (hx : m.get? k = none) : out.get? k = none :=
  (get?_tryEntries m.sorted h k).2 hx

/-- Every entry of a rebuilt map is the image of one of the map. -/
theorem tryMap_inv {y : γ} (h : m.tryMap f = .ok out) (hy : out.get? k = some y) :
    ∃ x, m.get? k = some x ∧ f k x = .ok y := by
  cases hx : m.get? k with
  | none =>
    rw [get?_tryMap_none h hx] at hy
    cases hy
  | some x =>
    obtain ⟨y', hf, hout⟩ := get?_tryMap h hx
    rw [hy] at hout
    cases hout
    exact ⟨x, rfl, hf⟩

end

/-! ## Rebuilding -/

/-- Keep the entries that satisfy `p`. -/
def filter (m : OrdMap κ β) (p : κ → β → Bool) : OrdMap κ β :=
  ⟨m.entries.filter fun e => p e.1 e.2, m.sorted.filter _⟩

theorem get?_filter (m : OrdMap κ β) (p : κ → β → Bool) (k : κ) :
    (m.filter p).get? k = (m.get? k).filter (p k) := by
  ext x
  rw [← mem_entries, Option.filter_eq_some_iff, ← mem_entries]
  exact List.mem_filter

def erase (m : OrdMap κ β) (k : κ) : OrdMap κ β := m.filter fun j _ => decide (j ≠ k)

theorem get?_erase (m : OrdMap κ β) (k j : κ) :
    (m.erase k).get? j = if j = k then none else m.get? j := by
  rw [erase, get?_filter]
  split
  · rename_i h
    cases m.get? j <;> simp [h]
  · rename_i h
    cases m.get? j <;> simp [h]

/-- Replace every value by one that may depend on its key. -/
def mapEntries (m : OrdMap κ β) (f : κ → β → γ) : OrdMap κ γ :=
  ⟨m.entries.map fun e => (e.1, f e.1 e.2), List.pairwise_map.2 m.sorted⟩

theorem get?_mapEntries (m : OrdMap κ β) (f : κ → β → γ) (k : κ) :
    (m.mapEntries f).get? k = (m.get? k).map (f k) := by
  ext x
  rw [← mem_entries, Option.map_eq_some_iff]
  simp only [mapEntries, List.mem_map, Prod.mk.injEq, Prod.exists]
  constructor
  · rintro ⟨j, y, hmem, rfl, rfl⟩
    exact ⟨y, mem_entries.1 hmem, rfl⟩
  · rintro ⟨y, hy, rfl⟩
    exact ⟨k, y, mem_entries.2 hy, rfl, rfl⟩

def modify (m : OrdMap κ β) (k : κ) (f : β → β) : OrdMap κ β :=
  m.mapEntries fun j x => if j = k then f x else x

theorem get?_modify (m : OrdMap κ β) (k j : κ) (f : β → β) :
    (m.modify k f).get? j = if j = k then (m.get? k).map f else m.get? j := by
  rw [modify, get?_mapEntries]
  split
  · rename_i h
    simp [h]
  · simp

theorem modify_modify (m : OrdMap κ β) (k : κ) (f g : β → β) :
    (m.modify k f).modify k g = m.modify k fun x => g (f x) := by
  unfold modify mapEntries
  simp only [List.map_map, Function.comp_def, mk.injEq]
  refine List.map_congr_left fun e _ => ?_
  by_cases h : e.1 = k <;> simp [h]

theorem size_filter_le (m : OrdMap κ β) (p : κ → β → Bool) : (m.filter p).size ≤ m.size :=
  List.length_filter_le _ _

section

variable {m m' : OrdMap κ β} {p p' : β → Bool} {k : κ} {x : β}

/-- The keys whose values satisfy `p`. -/
def holders (m : OrdMap κ β) (p : β → Bool) : List κ :=
  (m.entries.filter fun e => p e.2).map (·.1)

theorem mem_holders : k ∈ m.holders p ↔ ∃ x, m.get? k = some x ∧ p x = true := by
  simp [holders, mem_entries]

theorem nodup_keys (m : OrdMap κ β) : m.keys.Nodup :=
  List.pairwise_map.2 (m.sorted.imp fun h => h.ne)

theorem nodup_holders (m : OrdMap κ β) (p : β → Bool) : (m.holders p).Nodup :=
  m.nodup_keys.sublist (List.filter_sublist.map _)

theorem countP_values (m : OrdMap κ β) (p : β → Bool) :
    m.values.countP p = (m.holders p).length := by
  rw [holders, List.length_map, values, List.countP_map, List.countP_eq_length_filter]
  rfl

theorem countP_le_size (m : OrdMap κ β) (p : β → Bool) : m.values.countP p ≤ m.size := by
  refine List.countP_le_length.trans_eq ?_
  rw [values, List.length_map]
  rfl

theorem size_eq_countP (m : OrdMap κ β) : m.size = m.values.countP fun _ => true := by
  rw [List.countP_true, values, List.length_map]
  rfl

theorem countP_le (h : ∀ k x', m'.get? k = some x' → p' x' = true →
    ∃ x, m.get? k = some x ∧ p x = true) : m'.values.countP p' ≤ m.values.countP p := by
  rw [countP_values, countP_values]
  refine List.Nodup.length_le_of_subset (m'.nodup_holders p') fun k hk => ?_
  obtain ⟨x', hx', hp'⟩ := mem_holders.1 hk
  exact mem_holders.2 (h k x' hx' hp')

theorem countP_lt (h : ∀ k x', m'.get? k = some x' → p' x' = true →
    ∃ x, m.get? k = some x ∧ p x = true) (hx : m.get? k = some x) (hp : p x = true)
    (hnone : m'.get? k = none) : m'.values.countP p' < m.values.countP p := by
  rw [countP_values, countP_values]
  have hnodup : (k :: m'.holders p').Nodup := by
    refine List.nodup_cons.2 ⟨fun hk => ?_, m'.nodup_holders p'⟩
    obtain ⟨x', hx', -⟩ := mem_holders.1 hk
    rw [hnone] at hx'
    cases hx'
  refine List.Nodup.length_le_of_subset hnodup fun j hj => ?_
  rcases List.mem_cons.1 hj with rfl | hj
  · exact mem_holders.2 ⟨x, hx, hp⟩
  · obtain ⟨x', hx', hp'⟩ := mem_holders.1 hj
    exact mem_holders.2 (h j x' hx' hp')

theorem countP_insert_le (m : OrdMap κ β) (k : κ) (x : β) (p : β → Bool) :
    (m.insert k x).values.countP p ≤ m.values.countP p + 1 := by
  rw [countP_values, countP_values]
  have hsubset : (m.insert k x).holders p ⊆ k :: m.holders p := by
    intro j hj
    obtain ⟨y, hy, hp⟩ := mem_holders.1 hj
    rcases get?_insert_some hy with ⟨hjk, -⟩ | hy
    · exact hjk ▸ List.mem_cons_self
    · exact List.mem_cons_of_mem _ (mem_holders.2 ⟨y, hy, hp⟩)
  exact List.Nodup.length_le_of_subset ((m.insert k x).nodup_holders p) hsubset

theorem countP_insert_of_not (m : OrdMap κ β) (k : κ) (hp : p x = false) :
    (m.insert k x).values.countP p ≤ m.values.countP p := by
  refine countP_le fun j y hy hpy => ?_
  rcases get?_insert_some hy with ⟨-, rfl⟩ | hy
  · rw [hp] at hpy
    cases hpy
  · exact ⟨y, hy, hpy⟩

end

/-! ## Accumulating -/

section
variable {κ : Type u} [LinearOrder κ] {β : Type v} {ι : Type w}

theorem ext_get? {m m' : OrdMap κ β} (h : ∀ k, m.get? k = m'.get? k) : m = m' := by
  have hnodup : ∀ m : OrdMap κ β, m.entries.Nodup := fun m =>
    m.sorted.imp fun hlt heq => (heq ▸ hlt).false
  have hperm : m.entries.Perm m'.entries := by
    refine (List.perm_ext_iff_of_nodup (hnodup m) (hnodup m')).2 fun e => ?_
    rw [mem_entries, mem_entries, h]
  have hentries : m.entries = m'.entries :=
    hperm.eq_of_pairwise (fun a b _ _ hab hba => absurd (hab.trans hba) (lt_irrefl _))
      m.sorted m'.sorted
  cases m
  cases m'
  cases hentries
  rfl

/-- Update the entry of a key from what is there. -/
def alter (m : OrdMap κ β) (k : κ) (f : Option β → β) : OrdMap κ β := m.insert k (f (m.get? k))

theorem get?_alter (m : OrdMap κ β) (k j : κ) (f : Option β → β) :
    (m.alter k f).get? j = if j = k then some (f (m.get? k)) else m.get? j := get?_insert m k j _

theorem alter_comm (m : OrdMap κ β) {k j : κ} {f g : Option β → β}
    (h : k = j → ∀ x, g (some (f x)) = f (some (g x))) :
    (m.alter k f).alter j g = (m.alter j g).alter k f := by
  refine ext_get? fun i => ?_
  simp only [get?_alter]
  by_cases hkj : k = j
  · subst hkj
    by_cases hik : i = k
    · rw [if_pos hik, if_pos hik, if_pos rfl, if_pos rfl, h rfl]
    · simp only [if_neg hik]
  · rw [if_neg (Ne.symm hkj), if_neg hkj]
    by_cases hij : i = j
    · subst hij
      rw [if_pos rfl, if_pos rfl, if_neg (Ne.symm hkj)]
    · rw [if_neg hij, if_neg hij]

/-! ## Groups -/

/-- The elements of a list by their keys, each group in the order of the list. -/
def groupBy (key : ι → κ) (l : List ι) : OrdMap κ (List ι) :=
  l.foldl (fun m a => m.alter (key a) fun group => group.getD [] ++ [a]) empty

theorem flatMap_insertEntry {k : κ} {a : ι} {es : List (κ × List ι)}
    (hs : es.Pairwise fun a b => a.1 < b.1) :
    ((insertEntry k ((es.lookup k).getD [] ++ [a]) es).flatMap (·.2)).Perm
      (es.flatMap (·.2) ++ [a]) := by
  induction es with
  | nil => simp [insertEntry]
  | cons d es ih =>
    obtain ⟨j, group⟩ := d
    obtain ⟨hlt, hs⟩ := List.pairwise_cons.1 hs
    unfold insertEntry
    split
    · rename_i hkj
      have hnone : ((j, group) :: es).lookup k = none := by
        cases hl : ((j, group) :: es).lookup k with
        | none => rfl
        | some x =>
          rcases List.mem_cons.1 (mem_of_lookup_eq_some hl) with heq | hmem
          · exact absurd (congrArg Prod.fst heq) hkj.ne
          · exact absurd (hkj.trans (hlt _ hmem)) (lt_irrefl k)
      rw [hnone]
      simpa using (List.perm_append_singleton a (group ++ es.flatMap (·.2))).symm
    · rename_i hge
      split
      · rename_i hkj
        rw [hkj, List.lookup_cons, beq_self_eq_true]
        simp only [Option.getD_some, List.flatMap_cons, List.append_assoc]
        exact List.Perm.append_left group List.perm_append_comm
      · rename_i hne
        rw [lookup_of_ne hne, List.flatMap_cons, List.flatMap_cons, List.append_assoc]
        exact List.Perm.append_left group (ih hs)

theorem groupBy_perm (key : ι → κ) (l : List ι) :
    ((groupBy key l).entries.flatMap (·.2)).Perm l := by
  have hfold : ∀ m : OrdMap κ (List ι),
      ((l.foldl (fun m a => m.alter (key a) fun group => group.getD [] ++ [a]) m).entries.flatMap
        (·.2)).Perm (m.entries.flatMap (·.2) ++ l) := by
    induction l with
    | nil => exact fun m => by rw [List.append_nil]; rfl
    | cons a l ih =>
      intro m
      have hone : ((m.alter (key a) fun group => group.getD [] ++ [a]).entries.flatMap
          (·.2)).Perm (m.entries.flatMap (·.2) ++ [a]) := flatMap_insertEntry m.sorted
      refine (ih _).trans ((hone.append_right l).trans ?_)
      rw [List.append_assoc]
      rfl
  exact hfold empty

end

end OrdMap

end AgentPalace
