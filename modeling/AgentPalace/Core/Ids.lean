import Mathlib.Data.List.DropRight

/-!
# Text helpers and wing ids

`trim` and the whitespace it removes follow `str::trim`: the Unicode
`White_Space` characters. `WingId.normalized` canonicalises the spelling of a
wing, so that `llm` and `wing_llm` name the same one.
-/

namespace AgentPalace

/-- Unicode `White_Space`. -/
def isWhitespace (c : Char) : Bool :=
  let n := c.toNat
  (9 ≤ n && n ≤ 13) || n == 0x20 || n == 0x85 || n == 0xA0 || n == 0x1680 ||
    (0x2000 ≤ n && n ≤ 0x200A) || n == 0x2028 || n == 0x2029 || n == 0x202F || n == 0x205F ||
    n == 0x3000

def trim (s : String) : String :=
  String.ofList ((s.toList.dropWhile isWhitespace).reverse.dropWhile isWhitespace).reverse

/-- `s.trim().is_empty()`. -/
def isBlank (s : String) : Bool := trim s == ""

theorem trim_trim (s : String) : trim (trim s) = trim s := by
  have hfront : ∀ l : List Char, ((l.dropWhile isWhitespace).rdropWhile isWhitespace).dropWhile
      isWhitespace = (l.dropWhile isWhitespace).rdropWhile isWhitespace := by
    intro l
    rw [List.dropWhile_eq_self_iff]
    intro hlen hblank
    obtain ⟨rest, hrest⟩ := List.rdropWhile_prefix isWhitespace (l.dropWhile isWhitespace)
    have hhead := List.dropWhile_eq_self_iff.1 (List.dropWhile_idempotent isWhitespace l)
    have hne : 0 < (l.dropWhile isWhitespace).length := by
      rw [← hrest, List.length_append]
      omega
    refine hhead hne ?_
    have hget : (l.dropWhile isWhitespace)[0] =
        ((l.dropWhile isWhitespace).rdropWhile isWhitespace)[0] :=
      (List.getElem_of_eq hrest.symm hne).trans (List.getElem_append_left hlen)
    rw [hget]
    exact hblank
  have htwice : ((trim s).toList.dropWhile isWhitespace).rdropWhile isWhitespace =
      (s.toList.dropWhile isWhitespace).rdropWhile isWhitespace := by
    rw [trim, String.toList_ofList]
    show List.rdropWhile isWhitespace
      (((s.toList.dropWhile isWhitespace).rdropWhile isWhitespace).dropWhile isWhitespace) = _
    rw [hfront, List.rdropWhile_idempotent]
  exact congrArg String.ofList htwice

/-- `str::to_ascii_lowercase`. -/
def toAsciiLowercase (s : String) : String := String.ofList (s.toList.map Char.toLower)

inductive IdError where
  | empty (kind : String)
  | invalidCharacter (kind : String) (ch : Char)
  deriving DecidableEq

/-- `to_string`. -/
def IdError.display : IdError → String
  | .empty kind => s!"{kind} id cannot be empty"
  | .invalidCharacter kind ch => s!"{kind} id contains invalid character `{ch}`"

def isAsciiAlphanumeric (c : Char) : Bool :=
  ('a' ≤ c && c ≤ 'z') || ('A' ≤ c && c ≤ 'Z') || ('0' ≤ c && c ≤ '9')

theorem lt_of_isAsciiAlphanumeric {c : Char} (h : isAsciiAlphanumeric c = true) :
    c.toNat < 128 := by
  have hle : ∀ d : Char, d.toNat ≤ 122 → c ≤ d → c.toNat < 128 := by
    intro d hd hcd
    have hcd : c.toNat ≤ d.toNat := hcd
    omega
  simp only [isAsciiAlphanumeric, Bool.or_eq_true, Bool.and_eq_true, decide_eq_true_eq] at h
  rcases h with (⟨_, h⟩ | ⟨_, h⟩) | ⟨_, h⟩
  · exact hle _ (by decide) h
  · exact hle _ (by decide) h
  · exact hle _ (by decide) h

theorem toLower_cases (c : Char) : c.toLower = c ∨ c.toNat < 128 := by
  by_cases h : c.val ≥ 'A'.val ∧ c.val ≤ 'Z'.val
  · have hle : c.toNat ≤ 90 := h.2
    exact .inr (by omega)
  · exact .inl (dif_neg h)

theorem toLower_congr {α : Type} {f : Char → α}
    (h : ∀ n < 128, f (Char.ofNat n).toLower = f (Char.ofNat n)) (c : Char) :
    f c.toLower = f c := by
  rcases toLower_cases c with hc | hc
  · rw [hc]
  · have := h c.toNat hc
    rwa [Char.ofNat_toNat] at this

@[simp] theorem isWhitespace_toLower (c : Char) : isWhitespace c.toLower = isWhitespace c :=
  toLower_congr (by decide) c

@[simp] theorem isAsciiAlphanumeric_toLower (c : Char) :
    isAsciiAlphanumeric c.toLower = isAsciiAlphanumeric c :=
  toLower_congr (by decide) c

@[simp] theorem toLower_toLower (c : Char) : c.toLower.toLower = c.toLower :=
  toLower_congr (f := Char.toLower) (by decide) c

theorem dropWhile_map_toLower (cs : List Char) :
    (cs.map Char.toLower).dropWhile isWhitespace = (cs.dropWhile isWhitespace).map Char.toLower := by
  rw [List.dropWhile_map]
  congr 2
  exact funext isWhitespace_toLower

theorem trim_toAsciiLowercase (s : String) : trim (toAsciiLowercase s) = toAsciiLowercase (trim s) := by
  unfold trim toAsciiLowercase
  simp only [String.toList_ofList, dropWhile_map_toLower, ← List.map_reverse]

def isIdPunctuation (c : Char) : Bool := c == '_' || c == '-' || c == '/' || c == '.'

def validateId (kind value : String) : Except IdError Unit :=
  if value = "" then .error (.empty kind)
  else
    match value.toList.find? fun ch => !(isAsciiAlphanumeric ch || isIdPunctuation ch) with
    | some ch => .error (.invalidCharacter kind ch)
    | none => .ok ()

structure DrawerId where
  str : String
  valid : validateId "drawer" str = .ok ()
  deriving DecidableEq

structure WingId where
  str : String
  deriving DecidableEq

def wingPrefix : String := "wing_"

def sharedAgentDiaryWing : String := "wing_agents"

def unscopedWing : String := "wing_unscoped"

namespace WingId

def new (value : String) : Except IdError WingId := do
  validateId "wing" value
  return ⟨value⟩

/-- A character of a canonical wing name: lower-cased, and `_` if not allowed. -/
def canonicalChar (c : Char) : Char :=
  let c := c.toLower
  if ('a' ≤ c && c ≤ 'z') || ('0' ≤ c && c ≤ '9') || isIdPunctuation c then c else '_'

def normalized (value : String) : Except IdError WingId :=
  let canonical := (trim value).toList.map canonicalChar
  if canonical = [] then .error (.empty "wing")
  else if wingPrefix.toList.isPrefixOf canonical then new (String.ofList canonical)
  else new (wingPrefix ++ String.ofList canonical)

theorem normalized_self {cs : List Char} (hstart : wingPrefix.toList <+: cs)
    (h : ∀ c ∈ cs, isWhitespace c = false ∧ canonicalChar c = c ∧
      (isAsciiAlphanumeric c || isIdPunctuation c) = true) :
    normalized (String.ofList cs) = .ok ⟨String.ofList cs⟩ := by
  have hne : cs ≠ [] := by
    rintro rfl
    revert hstart
    decide
  have hkeep : ∀ ds : List Char, (∀ c ∈ ds, c ∈ cs) → ds.dropWhile isWhitespace = ds := by
    intro ds hds
    rw [List.dropWhile_eq_self_iff]
    intro hlen
    simpa using (h _ (hds _ (List.getElem_mem hlen))).1
  have htrim : (trim (String.ofList cs)).toList = cs := by
    unfold trim
    rw [String.toList_ofList, String.toList_ofList, hkeep cs fun _ hc => hc,
      hkeep cs.reverse fun _ hc => List.mem_reverse.1 hc, List.reverse_reverse]
  have hcanonical : cs.map canonicalChar = cs := by
    conv => rhs; rw [← List.map_id cs]
    exact List.map_congr_left fun c hc => (h c hc).2.1
  have hvalid : validateId "wing" (String.ofList cs) = .ok () := by
    unfold validateId
    have hfind : cs.find? (fun ch => !(isAsciiAlphanumeric ch || isIdPunctuation ch)) = none := by
      apply List.find?_eq_none.2
      intro c hc
      rw [(h c hc).2.2]
      decide
    have hempty : String.ofList cs ≠ "" := by
      intro hempty
      apply hne
      rw [← String.toList_ofList (l := cs), hempty]
      rfl
    rw [if_neg hempty, String.toList_ofList, hfind]
  unfold normalized new
  simp only [htrim, hcanonical, if_neg hne]
  rw [if_pos (List.isPrefixOf_iff_prefix.2 hstart), hvalid]
  rfl

end WingId

end AgentPalace
