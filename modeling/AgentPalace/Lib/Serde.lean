import AgentPalace.Lib.Json
import Mathlib.Data.List.Basic

/-!
# Derived writers and readers of records

A derived writer lists the fields of a record in the order of the record, without
those it skips (`present`). In text they stay in this order, in a document they
take the order of its map: the two are the `Target`s. A derived reader takes its
fields from an object by name or from an array by position (`Source`).

`Json.depth` counts the levels of a document and `Json.mapFloats` rewrites its
numbers that are no integers: what a reader of text makes of a document.
-/

namespace AgentPalace

namespace Json

mutual

/-- How many objects and arrays are nested in each other. -/
def depth : Json → Nat
  | arr items => depthItems items + 1
  | obj fields => depthFields fields + 1
  | _ => 0

def depthItems : List Json → Nat
  | [] => 0
  | x :: xs => max (depth x) (depthItems xs)

def depthFields : List (String × Json) → Nat
  | [] => 0
  | (_, x) :: fs => max (depth x) (depthFields fs)

end

mutual

def mapFloats (read : String → String) : Json → Json
  | float text => float (read text)
  | arr items => arr (mapItems read items)
  | obj fields => obj (mapFields read fields)
  | null => null
  | bool b => bool b
  | int n => int n
  | str s => str s

def mapItems (read : String → String) : List Json → List Json
  | [] => []
  | x :: xs => mapFloats read x :: mapItems read xs

def mapFields (read : String → String) : List (String × Json) → List (String × Json)
  | [] => []
  | (name, x) :: fs => (name, mapFloats read x) :: mapFields read fs

end

variable {read : String → String}

theorem depthItems_le {items : List Json} {n : Nat} :
    depthItems items ≤ n ↔ ∀ x ∈ items, x.depth ≤ n := by
  induction items with
  | nil => simp [depthItems]
  | cons x xs ih => rw [depthItems, Nat.max_le, ih, List.forall_mem_cons]

theorem depthFields_le {fields : List (String × Json)} {n : Nat} :
    depthFields fields ≤ n ↔ ∀ f ∈ fields, f.2.depth ≤ n := by
  induction fields with
  | nil => simp [depthFields]
  | cons f fs ih => rw [depthFields, Nat.max_le, ih, List.forall_mem_cons]

theorem depth_arr_le {items : List Json} {n : Nat} :
    (arr items).depth ≤ n + 1 ↔ ∀ x ∈ items, x.depth ≤ n := by
  rw [depth, Nat.add_le_add_iff_right, depthItems_le]

theorem depth_obj_le {fields : List (String × Json)} {n : Nat} :
    (obj fields).depth ≤ n + 1 ↔ ∀ f ∈ fields, f.2.depth ≤ n := by
  rw [depth, Nat.add_le_add_iff_right, depthFields_le]

theorem mapItems_eq (items : List Json) : mapItems read items = items.map (mapFloats read) := by
  induction items with
  | nil => rfl
  | cons x xs ih => rw [mapItems, ih, List.map_cons]

theorem mapFields_eq (fields : List (String × Json)) :
    mapFields read fields = fields.map fun f => (f.1, f.2.mapFloats read) := by
  induction fields with
  | nil => rfl
  | cons f fs ih => rw [mapFields, ih, List.map_cons]

theorem mapFloats_arr (items : List Json) :
    (arr items).mapFloats read = arr (items.map (mapFloats read)) := by
  rw [mapFloats, mapItems_eq]

theorem mapFloats_obj (fields : List (String × Json)) :
    (obj fields).mapFloats read = obj (fields.map fun f => (f.1, f.2.mapFloats read)) := by
  rw [mapFloats, mapFields_eq]

theorem insertField_map (g : Json → Json) (name : String) (v : Json)
    (fields : List (String × Json)) :
    insertField name (g v) (fields.map fun f => (f.1, g f.2)) =
      (insertField name v fields).map fun f => (f.1, g f.2) := by
  induction fields with
  | nil => rfl
  | cons f fs ih =>
    rw [List.map_cons, insertField, insertField]
    split
    · rfl
    · split
      · rfl
      · rw [List.map_cons, ih]

theorem mem_insertField {name : String} {v : Json} {fields : List (String × Json)}
    (h : name ∉ fields.map Prod.fst) (f : String × Json) :
    f ∈ insertField name v fields ↔ f = (name, v) ∨ f ∈ fields := by
  induction fields with
  | nil => simp [insertField]
  | cons g gs ih =>
    rw [List.map_cons, List.mem_cons, not_or] at h
    rw [insertField, if_neg h.1]
    split
    · rw [List.mem_cons]
    · rw [List.mem_cons, ih h.2, List.mem_cons, or_left_comm]

end Json

namespace Serde

def present : List (String × Option Json) → List (String × Json)
  | [] => []
  | (_, none) :: fields => present fields
  | (name, some v) :: fields => (name, v) :: present fields

theorem mem_present {fields : List (String × Option Json)} {name : String} {v : Json} :
    (name, v) ∈ present fields ↔ (name, some v) ∈ fields := by
  induction fields with
  | nil => simp [present]
  | cons f fs ih =>
    obtain ⟨other, o⟩ := f
    cases o <;> simp [present, ih]

theorem names_present (fields : List (String × Option Json)) :
    ((present fields).map Prod.fst).Sublist (fields.map Prod.fst) := by
  induction fields with
  | nil => exact List.Sublist.slnil
  | cons f fs ih =>
    obtain ⟨name, o⟩ := f
    cases o with
    | none => exact ih.cons name
    | some v => exact ih.cons_cons name

theorem lookup_present {fields : List (String × Option Json)} (h : (fields.map Prod.fst).Nodup)
    (name : String) : (present fields).lookup name = (fields.lookup name).join := by
  induction fields with
  | nil => rfl
  | cons f fs ih =>
    obtain ⟨other, o⟩ := f
    rw [List.map_cons, List.nodup_cons] at h
    rw [List.lookup_cons]
    by_cases hname : name = other
    · subst hname
      cases o with
      | none =>
        have habsent : fs.lookup name = none := by
          rw [List.lookup_eq_none_iff]
          intro f hf
          have hne : name ≠ f.1 := fun heq => h.1 (List.mem_map.2 ⟨f, hf, heq.symm⟩)
          simpa using hne
        rw [present, ih h.2, habsent, beq_self_eq_true]
        rfl
      | some v =>
        rw [present, List.lookup_cons, beq_self_eq_true]
        rfl
    · have hne : (name == other) = false := by simpa using hname
      cases o with
      | none => rw [present, ih h.2, hne]
      | some v => rw [present, List.lookup_cons, hne, ih h.2]

theorem present_map (g : Json → Json) (fields : List (String × Option Json)) :
    present (fields.map fun f => (f.1, f.2.map g)) =
      (present fields).map fun f => (f.1, g f.2) := by
  induction fields with
  | nil => rfl
  | cons f fs ih =>
    obtain ⟨name, o⟩ := f
    cases o <;> simp [present, ih]

def sorted : List (String × Json) → List (String × Json)
  | [] => []
  | (name, v) :: fields => Json.insertField name v (sorted fields)

theorem lookup_sorted (fields : List (String × Json)) (name : String) :
    (sorted fields).lookup name = fields.lookup name := by
  induction fields with
  | nil => rfl
  | cons f fs ih =>
    obtain ⟨other, v⟩ := f
    rw [sorted, List.lookup_cons]
    by_cases hname : name = other
    · rw [hname, lookup_insertField_self, beq_self_eq_true]
    · have hne : (name == other) = false := by simpa using hname
      rw [lookup_insertField_of_ne hname, ih, hne]

theorem mem_sorted {fields : List (String × Json)} (h : (fields.map Prod.fst).Nodup)
    (f : String × Json) : f ∈ sorted fields ↔ f ∈ fields := by
  induction fields generalizing f with
  | nil => rfl
  | cons g gs ih =>
    rw [List.map_cons, List.nodup_cons] at h
    have hnew : g.1 ∉ (sorted gs).map Prod.fst := by
      intro hmem
      obtain ⟨f', hf', heq⟩ := List.mem_map.1 hmem
      exact h.1 (heq ▸ List.mem_map_of_mem ((ih h.2 f').1 hf'))
    rw [sorted, Json.mem_insertField hnew, ih h.2, List.mem_cons]

/-- The order in which the fields of an object are kept. -/
structure Target where
  arrange : List (String × Json) → List (String × Json)
  lookup_arrange : ∀ fields name, (arrange fields).lookup name = fields.lookup name
  mem_arrange : ∀ {fields : List (String × Json)}, (fields.map Prod.fst).Nodup →
    ∀ f, f ∈ arrange fields ↔ f ∈ fields
  arrange_map : ∀ (g : Json → Json) fields,
    arrange (fields.map fun f => (f.1, g f.2)) = (arrange fields).map fun f => (f.1, g f.2)

namespace Target

/-- `serde_json::to_string`: the text has the fields as they are written. -/
def text : Target where
  arrange fields := fields
  lookup_arrange _ _ := rfl
  mem_arrange _ _ := Iff.rfl
  arrange_map _ _ := rfl

/-- `serde_json::to_value`: the document has them in its map. -/
def value : Target where
  arrange := sorted
  lookup_arrange := lookup_sorted
  mem_arrange := mem_sorted
  arrange_map g fields := by
    induction fields with
    | nil => rfl
    | cons f fs ih => rw [List.map_cons, sorted, ih, Json.insertField_map, sorted]

def object (target : Target) (fields : List (String × Option Json)) : Json :=
  .obj (target.arrange (present fields))

variable {target : Target} {fields : List (String × Option Json)}

theorem depth_object_le (h : (fields.map Prod.fst).Nodup) {n : Nat} :
    (target.object fields).depth ≤ n + 1 ↔
      ∀ f ∈ fields, ∀ v, f.2 = some v → v.depth ≤ n := by
  have hnames := (names_present fields).nodup h
  rw [object, Json.depth_obj_le]
  constructor
  · rintro hall ⟨name, o⟩ hf v rfl
    exact hall (name, v) ((target.mem_arrange hnames _).2 (mem_present.2 hf))
  · rintro hall ⟨name, v⟩ hf
    exact hall (name, some v) (mem_present.1 ((target.mem_arrange hnames _).1 hf)) v rfl

theorem mapFloats_object (read : String → String) :
    (target.object fields).mapFloats read =
      target.object (fields.map fun f => (f.1, f.2.map (Json.mapFloats read))) := by
  rw [object, Json.mapFloats_obj, ← target.arrange_map, object, present_map]

end Target

/-! ## Reading -/

/-- What a derived reader finds under the names of its fields. -/
structure Source where
  get : String → Option Json
  /-- The record is an array: only a field with a default may be missing. -/
  positional : Bool

def source (names : List String) : Json → Option Source
  | .obj fields => some ⟨fun name => fields.lookup name, false⟩
  | .arr items =>
    if items.length ≤ names.length then some ⟨fun name => items[names.idxOf name]?, true⟩ else none
  | _ => none

theorem source_object (names : List String) (target : Target)
    (fields : List (String × Option Json)) (h : (fields.map Prod.fst).Nodup) :
    ∃ s, source names (target.object fields) = some s ∧ s.positional = false ∧
      ∀ name, s.get name = (fields.lookup name).join := by
  refine ⟨_, by rw [Target.object, source], rfl, fun name => ?_⟩
  exact (target.lookup_arrange _ name).trans (lookup_present h name)

/-- `#[serde(deny_unknown_fields)]`. -/
def strict (names : List String) : Json → Option Source
  | .obj fields => if fields.all (·.1 ∈ names) then source names (.obj fields) else none
  | j => source names j

theorem strict_object {names : List String} (target : Target)
    {fields : List (String × Option Json)} (h : (fields.map Prod.fst).Nodup)
    (hnames : fields.map Prod.fst ⊆ names) :
    ∃ s, strict names (target.object fields) = some s ∧
      ∀ name, s.get name = (fields.lookup name).join := by
  obtain ⟨s, hs, -, hget⟩ := source_object names target fields h
  refine ⟨s, ?_, hget⟩
  have hknown : (target.arrange (present fields)).all (·.1 ∈ names) = true := by
    refine List.all_eq_true.2 fun f hf => decide_eq_true (hnames ?_)
    have hwritten := (target.mem_arrange ((names_present fields).nodup h) f).1 hf
    exact (names_present fields).subset (List.mem_map_of_mem hwritten)
  rw [Target.object, strict, if_pos hknown]
  exact hs

namespace Source

variable {α : Type} (s : Source) (name : String) (read : Json → Option α)

def required : Option α := (s.get name).bind read

/-- `#[serde(default)]` on an `Option`. -/
def optional : Option (Option α) :=
  match s.get name with
  | none | some .null => some none
  | some v => (read v).map some

/-- An `Option` without a default. -/
def nullable : Option (Option α) :=
  if s.positional ∧ s.get name = none then none else s.optional name read

/-- `#[serde(default)]` on another type. -/
def orDefault (default : α) : Option α :=
  match s.get name with
  | none => some default
  | some v => read v

variable {s name read}

theorem required_of_get {v : Json} (h : s.get name = some v) :
    s.required name read = read v := by rw [required, h]; rfl

theorem required_some {a : α} (h : s.required name read = some a) :
    ∃ v, s.get name = some v ∧ read v = some a := Option.bind_eq_some_iff.1 h

theorem optional_some {o : Option α} (h : s.optional name read = some o) {a : α} (ha : a ∈ o) :
    ∃ v, s.get name = some v ∧ read v = some a := by
  unfold optional at h
  split at h
  · obtain rfl := Option.some.inj h
    cases ha
  · obtain rfl := Option.some.inj h
    cases ha
  · rename_i v _ hget
    obtain ⟨b, hread, rfl⟩ := Option.map_eq_some_iff.1 h
    obtain rfl := Option.some.inj ha
    exact ⟨v, hget, hread⟩

/-- A field whose values are not written as null is read back. -/
theorem optional_write {o : Option α} {write : α → Json} (h : s.get name = o.map write)
    (hread : ∀ a ∈ o, read (write a) = some a) (hnull : ∀ a ∈ o, write a ≠ .null) :
    s.optional name read = some o := by
  rw [optional, h]
  cases o with
  | none => rfl
  | some a =>
    have hne := hnull a rfl
    rw [Option.map_some, ← Option.map_some, ← hread a rfl]
    cases hwrite : write a <;> simp_all

end Source

def dropNull : Option Json → Option Json
  | some .null => none
  | o => o

theorem optional_value {s : Source} {name : String} {o : Option Json} (h : s.get name = o) :
    s.optional name some = some (dropNull o) := by
  rw [Source.optional, h]
  cases o with
  | none => rfl
  | some v => cases v <;> rfl

theorem dropNull_map_eq {o : Option Json} {g : Json → Json} :
    dropNull (o.map g) = o ↔ ∀ j ∈ o, j ≠ .null ∧ g j = j := by
  cases o with
  | none => simp [dropNull]
  | some j =>
    simp only [Option.map_some, Option.mem_some_iff, forall_eq']
    by_cases hnull : g j = .null
    · rw [hnull, dropNull]
      simp only [reduceCtorEq, false_iff]
      rintro ⟨hne, heq⟩
      exact hne heq.symm
    · have hkeep : dropNull (some (g j)) = some (g j) := by
        cases hg : g j <;> simp_all [dropNull]
      rw [hkeep, Option.some.injEq]
      constructor
      · intro heq
        exact ⟨heq ▸ hnull, heq⟩
      · exact And.right

theorem dropNull_eq {o : Option Json} : dropNull o = o ↔ o ≠ some .null := by
  have h := dropNull_map_eq (o := o) (g := id)
  rw [Option.map_id, id] at h
  rw [h]
  cases o <;> simp

def str : Json → Option String
  | .str s => some s
  | _ => none

def list {α : Type} (read : Json → Option α) : Json → Option (List α)
  | .arr items => items.mapM read
  | _ => none

/-- A field of text that is skipped if there is none. -/
def text (o : Option String) : Option Json := o.map .str

def items {α : Type} (write : α → Json) (xs : List α) : Option Json :=
  if xs.isEmpty then none else some (.arr (xs.map write))

/-- A list of texts that is skipped if it is empty. -/
def texts (xs : List String) : Option Json :=
  if xs = [] then none else some (.arr (xs.map .str))

theorem mapM_map {α β : Type} (read : β → Option α) (write : α → β) (g : α → α) {xs : List α}
    (h : ∀ a ∈ xs, read (write a) = some (g a)) : (xs.map write).mapM read = some (xs.map g) := by
  induction xs with
  | nil => rfl
  | cons a xs ih =>
    rw [List.map_cons, List.mapM_cons, h a List.mem_cons_self,
      ih fun b hb => h b (List.mem_cons_of_mem a hb)]
    rfl

theorem orDefault_items {α : Type} {s : Source} {name : String} {xs : List α}
    {read : Json → Option α} {write : α → Json} (h : s.get name = items write xs)
    (hread : ∀ a ∈ xs, read (write a) = some a) : s.orDefault name (list read) [] = some xs := by
  rw [Source.orDefault, h, items]
  cases xs with
  | nil => rfl
  | cons a xs =>
    have hlist := mapM_map read write id hread
    rwa [List.map_id] at hlist

theorem list_some {α : Type} {read : Json → Option α} {j : Json} {xs : List α}
    (h : list read j = some xs) {a : α} (ha : a ∈ xs) : ∃ v, read v = some a := by
  cases j with
  | arr docs =>
    change docs.mapM read = some xs at h
    induction docs generalizing xs with
    | nil =>
      obtain rfl := Option.some.inj h
      cases ha
    | cons doc docs ih =>
      rw [List.mapM_cons] at h
      obtain ⟨b, hread, h⟩ := Option.bind_eq_some_iff.1 h
      obtain ⟨ys, hrest, h⟩ := Option.bind_eq_some_iff.1 h
      obtain rfl := Option.some.inj h
      rcases List.mem_cons.1 ha with rfl | hmem
      · exact ⟨doc, hread⟩
      · exact ih hmem hrest
  | _ => cases h

theorem orDefault_list_some {α : Type} {s : Source} {name : String} {read : Json → Option α}
    {xs : List α} (h : s.orDefault name (list read) [] = some xs) {a : α} (ha : a ∈ xs) :
    ∃ v, read v = some a := by
  unfold Source.orDefault at h
  split at h
  · obtain rfl := Option.some.inj h
    cases ha
  · exact list_some h ha

theorem optional_text {s : Source} {name : String} {o : Option String}
    (h : s.get name = text o) : s.optional name str = some o :=
  Source.optional_write h (fun _ _ => rfl) fun _ _ => nofun

theorem orDefault_texts {s : Source} {name : String} {xs : List String}
    (h : s.get name = texts xs) : s.orDefault name (list str) [] = some xs := by
  rw [Source.orDefault, h, texts]
  by_cases hxs : xs = []
  · rw [if_pos hxs, hxs]
  · rw [if_neg hxs]
    have hread : ∀ x ∈ xs, str (Json.str x) = some (id x) := fun _ _ => rfl
    have hlist := mapM_map str Json.str id hread
    rwa [List.map_id] at hlist

/-! ## Formats -/

/-- What is built and valid is written and read back, and what is read is built and valid, so it
is given back by its own document. -/
structure Faithful {ε α : Type} (encode : α → Except ε Json) (decode : Json → Option α)
    (Built : α → Prop) (validate : α → Except ε Unit) : Prop where
  back : ∀ a, Built a → validate a = .ok () → ∃ j, encode a = .ok j ∧ decode j = some a
  sound : ∀ j a, decode j = some a → validate a = .ok () ∧
    ∃ j', encode a = .ok j' ∧ decode j' = some a

theorem Faithful.of_built {ε α : Type} {encode : α → Except ε Json} {decode : Json → Option α}
    {Built : α → Prop} {validate : α → Except ε Unit}
    (back : ∀ a, Built a → validate a = .ok () → ∃ j, encode a = .ok j ∧ decode j = some a)
    (built : ∀ j a, decode j = some a → Built a ∧ validate a = .ok ()) :
    Faithful encode decode Built validate where
  back := back
  sound j a h := ⟨(built j a h).2, back a (built j a h).1 (built j a h).2⟩

end Serde

end AgentPalace
