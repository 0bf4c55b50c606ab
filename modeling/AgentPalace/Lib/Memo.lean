
/-!
# Memo tables

A `Memo` keeps the values of a function that were asked for, one for each key.
`orInsertWith` computes a value only where the table has none, so a table that
holds values of a function (`Memo.Of`) answers like it and goes on doing so.
-/

namespace AgentPalace

universe u v

structure Memo (κ : Type u) (β : Type v) where
  entries : List (κ × β)
  nodup : (entries.map (·.1)).Nodup

namespace Memo

variable {κ : Type u} {β : Type v}

def empty : Memo κ β := ⟨[], .nil⟩

def keys (m : Memo κ β) : List κ := m.entries.map (·.1)

def Of (f : κ → β) (m : Memo κ β) : Prop := ∀ e ∈ m.entries, e.2 = f e.1

theorem of_empty {f : κ → β} : (empty : Memo κ β).Of f := nofun

variable [DecidableEq κ]

def find? (m : Memo κ β) (k : κ) : Option (κ × β) := m.entries.find? fun e => e.1 = k

theorem find?_none {m : Memo κ β} {k : κ} (h : m.find? k = none) : k ∉ m.keys := by
  intro hk
  obtain ⟨e, he, rfl⟩ := List.mem_map.1 hk
  simpa using List.find?_eq_none.1 h e he

/-- `entry(key).or_insert_with(value)`, the value of the key beside the table that has it. -/
def orInsertWith (m : Memo κ β) (k : κ) (value : Unit → β) : β × Memo κ β :=
  match h : m.find? k with
  | some e => (e.2, m)
  | none => (value (), ⟨(k, value ()) :: m.entries, List.nodup_cons.2 ⟨find?_none h, m.nodup⟩⟩)

variable {f : κ → β} {m : Memo κ β}

theorem mem_of_find? {k : κ} {e : κ × β} (h : m.find? k = some e) : e ∈ m.entries ∧ e.1 = k :=
  ⟨List.mem_of_find?_eq_some h, by simpa using List.find?_some h⟩

/-- A hit and a miss give the value of the function, and the table is one of its values still. -/
theorem Of.orInsertWith (h : m.Of f) (k : κ) :
    (m.orInsertWith k fun _ => f k).1 = f k ∧ (m.orInsertWith k fun _ => f k).2.Of f := by
  unfold Memo.orInsertWith
  split
  · rename_i e hfind
    obtain ⟨he, rfl⟩ := mem_of_find? hfind
    exact ⟨h e he, h⟩
  · exact ⟨rfl, List.forall_mem_cons.2 ⟨rfl, h⟩⟩

theorem mem_keys_orInsertWith {k j : κ} {value : Unit → β} :
    j ∈ (m.orInsertWith k value).2.keys ↔ j = k ∨ j ∈ m.keys := by
  unfold Memo.orInsertWith
  split
  · rename_i e hfind
    obtain ⟨he, rfl⟩ := mem_of_find? hfind
    refine ⟨.inr, fun hj => hj.elim (fun hj => ?_) id⟩
    exact List.mem_map.2 ⟨e, he, hj.symm⟩
  · exact List.mem_cons

end Memo

end AgentPalace
