import Mathlib.Tactic.Basic

/-!
# JSON values and their compact text

`Json` is a JSON document: integers apart from other numbers, which keep the
text they are printed with; the fields of an object are listed in the order of
its map. `encode` is the compact text of a document, `encodedSize` its length
in bytes. A field that was written is read back, and the others are as before.
-/

namespace AgentPalace

inductive Json where
  | null
  | bool (b : Bool)
  | int (n : Int)
  | float (text : String)
  | str (s : String)
  | arr (items : List Json)
  | obj (fields : List (String × Json))

namespace Json

mutual

def beq : Json → Json → Bool
  | null, null => true
  | bool a, bool b => a == b
  | int a, int b => a == b
  | float a, float b => a == b
  | str a, str b => a == b
  | arr xs, arr ys => beqItems xs ys
  | obj fs, obj gs => beqFields fs gs
  | _, _ => false

def beqItems : List Json → List Json → Bool
  | [], [] => true
  | x :: xs, y :: ys => beq x y && beqItems xs ys
  | _, _ => false

def beqFields : List (String × Json) → List (String × Json) → Bool
  | [], [] => true
  | (j, x) :: fs, (k, y) :: gs => j == k && beq x y && beqFields fs gs
  | _, _ => false

end

mutual

theorem eq_of_beq : ∀ {a b : Json}, beq a b = true → a = b
  | null, b, h => by cases b <;> simp_all [beq]
  | bool _, b, h => by cases b <;> simp_all [beq]
  | int _, b, h => by cases b <;> simp_all [beq]
  | float _, b, h => by cases b <;> simp_all [beq]
  | str _, b, h => by cases b <;> simp_all [beq]
  | arr xs, b, h => by
    cases b with
    | arr ys => rw [eq_of_beqItems (a := xs) (b := ys) (by simpa [beq] using h)]
    | _ => simp [beq] at h
  | obj fs, b, h => by
    cases b with
    | obj gs => rw [eq_of_beqFields (a := fs) (b := gs) (by simpa [beq] using h)]
    | _ => simp [beq] at h

theorem eq_of_beqItems : ∀ {a b : List Json}, beqItems a b = true → a = b
  | [], b, h => by cases b <;> simp_all [beqItems]
  | x :: xs, b, h => by
    cases b with
    | nil => simp [beqItems] at h
    | cons y ys =>
      simp only [beqItems, Bool.and_eq_true] at h
      rw [eq_of_beq h.1, eq_of_beqItems h.2]

theorem eq_of_beqFields : ∀ {a b : List (String × Json)}, beqFields a b = true → a = b
  | [], b, h => by cases b <;> simp_all [beqFields]
  | (j, x) :: fs, b, h => by
    cases b with
    | nil => simp [beqFields] at h
    | cons g gs =>
      obtain ⟨k, y⟩ := g
      simp only [beqFields, Bool.and_eq_true, beq_iff_eq] at h
      rw [h.1.1, eq_of_beq h.1.2, eq_of_beqFields h.2]

end

mutual

theorem beq_self : ∀ a : Json, beq a a = true
  | null => by simp [beq]
  | bool _ => by simp [beq]
  | int _ => by simp [beq]
  | float _ => by simp [beq]
  | str _ => by simp [beq]
  | arr xs => by simpa [beq] using beqItems_self xs
  | obj fs => by simpa [beq] using beqFields_self fs

theorem beqItems_self : ∀ a : List Json, beqItems a a = true
  | [] => by simp [beqItems]
  | x :: xs => by simp [beqItems, beq_self x, beqItems_self xs]

theorem beqFields_self : ∀ a : List (String × Json), beqFields a a = true
  | [] => by simp [beqFields]
  | (_, x) :: fs => by simp [beqFields, beq_self x, beqFields_self fs]

end

instance : DecidableEq Json := fun a b =>
  decidable_of_iff (beq a b = true) ⟨eq_of_beq, fun h => h ▸ beq_self a⟩

/-- The value of a field of an object; nothing else has fields. -/
def get? (j : Json) (name : String) : Option Json :=
  match j with
  | obj fields => fields.lookup name
  | _ => none

def isNull : Json → Bool
  | null => true
  | _ => false

/-- A field is put in its place in the order of the map, over a field of its
name. -/
def insertField (name : String) (v : Json) : List (String × Json) → List (String × Json)
  | [] => [(name, v)]
  | (k, x) :: fs =>
    if name = k then (k, v) :: fs
    else if name < k then (name, v) :: (k, x) :: fs
    else (k, x) :: insertField name v fs

def removeField (name : String) (fields : List (String × Json)) : List (String × Json) :=
  fields.filter fun f => f.1 ≠ name

/-! ## Compact text -/

def escapeChar (c : Char) : String :=
  if c = '"' then "\\\""
  else if c = '\\' then "\\\\"
  else if c.toNat = 8 then "\\b"
  else if c.toNat = 9 then "\\t"
  else if c.toNat = 10 then "\\n"
  else if c.toNat = 12 then "\\f"
  else if c.toNat = 13 then "\\r"
  else if c.toNat < 32 then
    "\\u00" ++ String.ofList [Nat.digitChar (c.toNat / 16), Nat.digitChar (c.toNat % 16)]
  else String.singleton c

def quote (s : String) : String := "\"" ++ String.join (s.toList.map escapeChar) ++ "\""

mutual

def encode : Json → String
  | null => "null"
  | bool b => if b then "true" else "false"
  | int n => toString n
  | float text => text
  | str s => quote s
  | arr items => "[" ++ ",".intercalate (encodeItems items) ++ "]"
  | obj fields => "\x7b" ++ ",".intercalate (encodeFields fields) ++ "\x7d"

def encodeItems : List Json → List String
  | [] => []
  | x :: xs => encode x :: encodeItems xs

def encodeFields : List (String × Json) → List String
  | [] => []
  | (name, x) :: fs => (quote name ++ ":" ++ encode x) :: encodeFields fs

end

/-- The length in bytes of the compact text. -/
def encodedSize (j : Json) : Nat := j.encode.utf8ByteSize

end Json

theorem lookup_insertField_of_ne {name other : String} {v : Json} {fields : List (String × Json)}
    (h : other ≠ name) : (Json.insertField name v fields).lookup other = fields.lookup other := by
  have hne : (other == name) = false := by simpa using h
  induction fields with
  | nil =>
    rw [Json.insertField, List.lookup_cons, hne]
  | cons f fields ih =>
    obtain ⟨field, x⟩ := f
    rw [Json.insertField]
    split
    · rename_i heq
      subst heq
      rw [List.lookup_cons, List.lookup_cons, hne]
    · split
      · rw [List.lookup_cons, hne]
      · rw [List.lookup_cons, List.lookup_cons, ih]

theorem lookup_removeField (name : String) (fields : List (String × Json)) :
    (Json.removeField name fields).lookup name = none := by
  rw [List.lookup_eq_none_iff]
  intro f hf
  have hne : f.1 ≠ name := of_decide_eq_true (List.mem_filter.1 hf).2
  simpa using Ne.symm hne

theorem lookup_insertField_self (name : String) (v : Json) (fields : List (String × Json)) :
    (Json.insertField name v fields).lookup name = some v := by
  induction fields with
  | nil => simp [Json.insertField]
  | cons f fields ih =>
    obtain ⟨field, x⟩ := f
    rw [Json.insertField]
    split
    · rename_i heq
      simp [heq]
    · rename_i hne
      split
      · simp
      · have hne : (name == field) = false := by simpa using hne
        rw [List.lookup_cons, hne]
        exact ih

theorem lookup_removeField_of_ne {name other : String} (h : other ≠ name)
    (fields : List (String × Json)) :
    (Json.removeField name fields).lookup other = fields.lookup other := by
  unfold Json.removeField
  induction fields with
  | nil => rfl
  | cons f fields ih =>
    obtain ⟨field, x⟩ := f
    rw [List.filter_cons]
    by_cases hfield : other = field
    · subst hfield
      simp [h]
    · have hne : (other == field) = false := by simpa using hfield
      split
      · rw [List.lookup_cons, List.lookup_cons, hne, ih]
      · rw [List.lookup_cons, hne, ih]

end AgentPalace
