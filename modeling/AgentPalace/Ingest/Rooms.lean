import AgentPalace.Ingest.Chunks
import Mathlib.Algebra.BigOperators.Group.List.Basic

/-!
# Rooms of a project

`detectProjectRoom` files a project file under a room: by a directory or a file
name that overlaps the room's label, or by how often the terms of the room, its
name and its keywords, occur at the start of the text. The routing fingerprint
joins labels, descriptions and keywords into one text without escaping them.

`SameTerms` says that two configurations give every text the same scores. The
fingerprint decides it for configurations that are spelled plainly
(`sameTerms_of_plain`).
-/

namespace AgentPalace.Ingest

structure ProjectRoomConfig where
  name : String
  description : Option String
  keywords : List String
  deriving DecidableEq

def canonicalizeLabel (value : String) : String :=
  String.ofList ((trim value).toList.map WingId.canonicalChar)

def canonicalizeOptional (value : Option String) : String := (value.map canonicalizeLabel).getD ""

def isLabelSeparator (c : Char) : Bool := c == '-' || c == '_' || c == '.' || c == '/'

def labelsOverlap (roomName candidate : String) : Bool :=
  let candidate := canonicalizeLabel candidate
  decide (2 ≤ candidate.utf8ByteSize) &&
    (roomName == candidate ||
      (roomName.toList.splitOnP isLabelSeparator).any (· == candidate.toList))

def isWordChar (c : Char) : Bool := isAsciiAlphanumeric c || c == '_' || c == '-'

/-- The text before and behind the first occurrence of `needle`. -/
def findTerm (needle : List Char) : List Char → Option (List Char × List Char)
  | [] => if needle = [] then some ([], []) else none
  | c :: cs =>
    if needle.isPrefixOf (c :: cs) then some ([], (c :: cs).drop needle.length)
    else (findTerm needle cs).map fun (skipped, behind) => (c :: skipped, behind)

/-- The occurrences of `needle` as a whole word in the text behind `before`. -/
def countFrom (needle : List Char) : Nat → Option Char → List Char → Nat
  | 0, _, _ => 0
  | fuel + 1, before, text =>
    match findTerm needle text with
    | none => 0
    | some (skipped, behind) =>
      let leftOk := !(skipped.getLast?.or before).any isWordChar
      let rightOk := !behind.head?.any isWordChar
      (if leftOk && rightOk then 1 else 0) + countFrom needle fuel needle.getLast? behind

/-- Each occurrence takes a character at least, so the length of the text is fuel enough. -/
def countTermMatches (haystack needle : List Char) : Nat :=
  if trimText needle = [] then 0 else countFrom needle (haystack.length + 1) none haystack

def fileName (path : List Char) : Option (List Char) :=
  match ((path.splitOn '/').filter fun part => part ≠ [] ∧ part ≠ ['.']).getLast? with
  | some ['.', '.'] => none
  | name => name

/-- `Path::file_stem`: the name up to its last dot, unless it starts there. -/
def fileStem (path : List Char) : Option (List Char) :=
  (fileName path).map fun name =>
    match (name.reverse.dropWhile (· ≠ '.')).reverse.dropLast with
    | [] => name
    | stem => stem

/-- Routing looks at the lower-case text; a room's terms are its name and its keywords. -/
def roomTerms (room : ProjectRoomConfig) : List (List Char) :=
  (room.name :: room.keywords).map fun term => (toAsciiLowercase term).toList

def roomScore (contentLower : List Char) (room : ProjectRoomConfig) : Nat :=
  ((roomTerms room).map (countTermMatches contentLower)).sum

def betterRoom (contentLower : List Char) (best : Option String × Nat) (room : ProjectRoomConfig) :
    Option String × Nat :=
  if best.2 < roomScore contentLower room then (some room.name, roomScore contentLower room)
  else best

/-- The first room with the highest score above zero, and its score. -/
def bestRoom (contentLower : List Char) (rooms : List ProjectRoomConfig) : Option String × Nat :=
  rooms.foldl (betterRoom contentLower) (none, 0)

def overlappingRoom (rooms : List ProjectRoomConfig) (part : List Char) : Option String :=
  (rooms.map fun room => canonicalizeLabel room.name).find? (labelsOverlap · (String.ofList part))

def detectProjectRoom (relativePath : String) (content : List Char)
    (rooms : List ProjectRoomConfig) : String :=
  let relative := (toAsciiLowercase relativePath).toList
  let filename := ((fileStem relativePath.toList).getD []).map Char.toLower
  let contentLower := (content.take 2000).map Char.toLower
  match (relative.splitOn '/').dropLast.findSome? (overlappingRoom rooms) with
  | some room => room
  | none =>
    match overlappingRoom rooms filename with
    | some room => room
    | none =>
      let (best, bestScore) := bestRoom contentLower rooms
      ((best.filter fun _ => 0 < bestScore).map canonicalizeLabel).getD "general"

/-! ### The fingerprint -/

def roomText (room : ProjectRoomConfig) : List Char :=
  (canonicalizeLabel room.name).toList ++ '|' :: ((canonicalizeOptional room.description).toList ++
    '|' :: [','].intercalate (room.keywords.map fun keyword => (toAsciiLowercase keyword).toList))

def routingText (rooms : List ProjectRoomConfig) : List Char := [';'].intercalate (rooms.map roomText)

section
variable (hashBytes : List UInt8 → String)

def hashText (text : List Char) : String := hashBytes (encodeUtf8 text)

def projectRoutingFingerprint (rooms : List ProjectRoomConfig) : String :=
  hashText hashBytes (routingText rooms)

end

/-! ### Routing depends on labels and terms only -/

/-- The terms a room is scored by: blank ones count for nothing. -/
def scoredTerms (room : ProjectRoomConfig) : List (List Char) :=
  (roomTerms room).filter fun term => trimText term ≠ []

/-- Two configurations with the same labels and, up to order, the same scored terms. -/
def SameTerms (a b : List ProjectRoomConfig) : Prop :=
  List.Forall₂ (fun r s => canonicalizeLabel r.name = canonicalizeLabel s.name ∧
    (scoredTerms r).Perm (scoredTerms s)) a b

theorem roomScore_scored (contentLower : List Char) (room : ProjectRoomConfig) :
    roomScore contentLower room =
      ((scoredTerms room).map (countTermMatches contentLower)).sum := by
  unfold roomScore scoredTerms
  induction roomTerms room with
  | nil => rfl
  | cons term terms ih =>
    by_cases hblank : trimText term = []
    · have : countTermMatches contentLower term = 0 := if_pos hblank
      simp [hblank, this, ih]
    · simp [hblank, ih]

section
variable {a b : List ProjectRoomConfig}

theorem SameTerms.labels (h : SameTerms a b) :
    a.map (fun room => canonicalizeLabel room.name) =
      b.map fun room => canonicalizeLabel room.name := by
  induction h with
  | nil => rfl
  | cons hroom _ ih => simp [hroom.1, ih]

theorem SameTerms.overlapping (h : SameTerms a b) (part : List Char) :
    overlappingRoom a part = overlappingRoom b part := by
  unfold overlappingRoom
  rw [h.labels]

theorem betterRoom_same {contentLower : List Char} {r s : ProjectRoomConfig}
    {x y : Option String × Nat} (hlabel : canonicalizeLabel r.name = canonicalizeLabel s.name)
    (hterms : (scoredTerms r).Perm (scoredTerms s))
    (h : x.1.map canonicalizeLabel = y.1.map canonicalizeLabel ∧ x.2 = y.2) :
    (betterRoom contentLower x r).1.map canonicalizeLabel =
        (betterRoom contentLower y s).1.map canonicalizeLabel ∧
      (betterRoom contentLower x r).2 = (betterRoom contentLower y s).2 := by
  have hsame : roomScore contentLower r = roomScore contentLower s := by
    rw [roomScore_scored, roomScore_scored]
    exact (hterms.map _).sum_eq
  unfold betterRoom
  rw [hsame, h.2]
  split
  · simp [hlabel]
  · exact h

/-- The best rooms have the same score and the same label. -/
theorem SameTerms.best (h : SameTerms a b) (contentLower : List Char) :
    (bestRoom contentLower a).1.map canonicalizeLabel =
        (bestRoom contentLower b).1.map canonicalizeLabel ∧
      (bestRoom contentLower a).2 = (bestRoom contentLower b).2 := by
  have hrun : ∀ x y : Option String × Nat,
      x.1.map canonicalizeLabel = y.1.map canonicalizeLabel ∧ x.2 = y.2 →
      (a.foldl (betterRoom contentLower) x).1.map canonicalizeLabel =
          (b.foldl (betterRoom contentLower) y).1.map canonicalizeLabel ∧
        (a.foldl (betterRoom contentLower) x).2 = (b.foldl (betterRoom contentLower) y).2 := by
    induction h with
    | nil => exact fun x y hxy => hxy
    | cons hroom _ ih => exact fun x y hxy => ih _ _ (betterRoom_same hroom.1 hroom.2 hxy)
  exact hrun _ _ ⟨rfl, rfl⟩

theorem SameTerms.route (h : SameTerms a b) (relativePath : String) (content : List Char) :
    detectProjectRoom relativePath content a = detectProjectRoom relativePath content b := by
  have hbest := h.best ((content.take 2000).map Char.toLower)
  have hparts : overlappingRoom a = overlappingRoom b := funext h.overlapping
  unfold detectProjectRoom
  simp only [hparts]
  split
  · rfl
  · split
    · rfl
    · rw [hbest.2]
      have hfilter : ∀ (score : Nat) (best : Option String),
          (best.filter fun _ => 0 < score).map canonicalizeLabel =
            (best.map canonicalizeLabel).filter fun _ => 0 < score := by
        intro score best
        cases best with
        | none => rfl
        | some best => by_cases hscore : 0 < score <;> simp [Option.filter, hscore]
      rw [hfilter, hfilter, hbest.1]

end

/-! ### What the fingerprint decides -/

/-- A room whose name is its label up to case, and whose keywords have no separator. -/
structure ProjectRoomConfig.Plain (room : ProjectRoomConfig) : Prop where
  name : toAsciiLowercase room.name = canonicalizeLabel room.name
  keywords : ∀ keyword ∈ room.keywords, ',' ∉ keyword.toList ∧ ';' ∉ keyword.toList

/-- The characters that the fingerprint puts between its parts. -/
def isSeparator (c : Char) : Bool := c == ',' || c == ';' || c == '|'

theorem canonicalChar_plain (c : Char) : isSeparator (WingId.canonicalChar c) = false := by
  unfold WingId.canonicalChar
  simp only
  split
  · rename_i hc
    by_contra hsep
    simp only [isSeparator, Bool.or_eq_true, beq_iff_eq, Bool.not_eq_false] at hsep
    rcases hsep with (h | h) | h <;> (rw [h] at hc; revert hc; decide)
  · decide

theorem label_plain {value : String} {c : Char} (h : c ∈ (canonicalizeLabel value).toList) :
    isSeparator c = false := by
  unfold canonicalizeLabel at h
  rw [String.toList_ofList] at h
  obtain ⟨d, -, rfl⟩ := List.mem_map.1 h
  exact canonicalChar_plain d

theorem optional_plain {value : Option String} {c : Char}
    (h : c ∈ (canonicalizeOptional value).toList) : isSeparator c = false := by
  cases value with
  | none => cases h
  | some value => exact label_plain h

theorem lower_separator {value : String} {c : Char} (hc : isSeparator c = true)
    (h : c ∈ (toAsciiLowercase value).toList) : c ∈ value.toList := by
  unfold toAsciiLowercase at h
  rw [String.toList_ofList] at h
  obtain ⟨d, hd, rfl⟩ := List.mem_map.1 h
  have hsame : d.toLower = d := by
    by_contra hne
    have hsep : isSeparator d.toLower = false ∨ d.toLower = d :=
      (toLower_cases d).elim .inr fun hlt => by
        have hall : ∀ n < 128, isSeparator (Char.ofNat n).toLower = false ∨
            (Char.ofNat n).toLower = Char.ofNat n := by decide
        have := hall d.toNat hlt
        rwa [Char.ofNat_toNat] at this
    simp_all
  rwa [hsame]

/-- A text is cut at the first separator in one way only. -/
theorem cut_inj {x : Char} {l m l' m' : List Char} (hl : x ∉ l) (hl' : x ∉ l')
    (h : l ++ x :: m = l' ++ x :: m') : l = l' ∧ m = m' := by
  induction l generalizing l' with
  | nil =>
    cases l' with
    | nil => exact ⟨rfl, (List.cons.inj h).2⟩
    | cons c l' => exact absurd (List.cons.inj h).1 fun heq => hl' (heq ▸ List.mem_cons_self)
  | cons c l ih =>
    cases l' with
    | nil => exact absurd (List.cons.inj h).1 fun heq => hl (heq ▸ List.mem_cons_self)
    | cons d l' =>
      obtain ⟨rfl, htail⟩ := List.cons.inj h
      have := ih (fun hx => hl (List.mem_cons_of_mem _ hx)) (fun hx => hl' (List.mem_cons_of_mem _ hx))
        htail
      exact ⟨by rw [this.1], this.2⟩

theorem intercalate_inj {x : Char} {ls ms : List (List Char)} (hl : ∀ l ∈ ls, x ∉ l)
    (hm : ∀ m ∈ ms, x ∉ m) (h : [x].intercalate ls = [x].intercalate ms) :
    ls = ms ∨ (∀ l ∈ ls, l = []) ∧ ∀ m ∈ ms, m = [] := by
  have hempty : ∀ ns : List (List Char), (∀ n ∈ ns, x ∉ n) → [x].intercalate ns = [] →
      ∀ n ∈ ns, n = [] := by
    intro ns hns hnil
    by_cases hne : ns = []
    · simp [hne]
    · have hsplit := List.splitOn_intercalate x hns hne
      rw [hnil] at hsplit
      simp [← hsplit]
  by_cases hls : ls = []
  · subst hls
    exact .inr ⟨by simp, hempty ms hm h.symm⟩
  · by_cases hms : ms = []
    · subst hms
      exact .inr ⟨hempty ls hl h, by simp⟩
    · left
      rw [← List.splitOn_intercalate x hl hls, h, List.splitOn_intercalate x hm hms]

theorem mem_intercalate {x c : Char} {ls : List (List Char)} (h : c ∈ [x].intercalate ls) :
    c = x ∨ ∃ l ∈ ls, c ∈ l := by
  unfold List.intercalate at h
  induction ls with
  | nil => cases h
  | cons l ls ih =>
    cases ls with
    | nil => exact .inr ⟨l, by simp, by simpa using h⟩
    | cons m ls =>
      rw [List.intersperse_cons_cons, List.flatten_cons, List.flatten_cons] at h
      rcases List.mem_append.1 h with h | h
      · exact .inr ⟨l, List.mem_cons_self, h⟩
      · rcases List.mem_append.1 h with h | h
        · exact .inl (by simpa using h)
        · refine (ih h).imp_right fun ⟨n, hn, hc⟩ => ⟨n, List.mem_cons_of_mem _ hn, hc⟩

theorem keyword_plain {room : ProjectRoomConfig} (h : room.Plain) {x : Char} (hx : x = ',' ∨ x = ';') :
    ∀ term ∈ room.keywords.map (fun keyword => (toAsciiLowercase keyword).toList), x ∉ term := by
  intro term hterm hmem
  obtain ⟨keyword, hkeyword, rfl⟩ := List.mem_map.1 hterm
  have hplain := h.keywords keyword hkeyword
  rcases hx with rfl | rfl
  · exact hplain.1 (lower_separator (by decide) hmem)
  · exact hplain.2 (lower_separator (by decide) hmem)

theorem roomText_semicolon {room : ProjectRoomConfig} (h : room.Plain) : ';' ∉ roomText room := by
  intro hmem
  unfold roomText at hmem
  simp only [List.mem_append, List.mem_cons] at hmem
  rcases hmem with hmem | hmem | hmem | hmem | hmem
  · exact absurd (label_plain hmem) (by decide)
  · exact absurd hmem (by decide)
  · exact absurd (optional_plain hmem) (by decide)
  · exact absurd hmem (by decide)
  · rcases mem_intercalate hmem with hmem | ⟨term, hterm, hc⟩
    · exact absurd hmem (by decide)
    · exact keyword_plain h (.inr rfl) term hterm hc

theorem scoredTerms_plain {room : ProjectRoomConfig} (h : room.Plain) :
    scoredTerms room =
      ((canonicalizeLabel room.name).toList ::
        room.keywords.map fun keyword => (toAsciiLowercase keyword).toList).filter
          fun term => trimText term ≠ [] := by
  unfold scoredTerms roomTerms
  rw [List.map_cons, h.name]

theorem roomText_inj {r s : ProjectRoomConfig} (hr : r.Plain) (hs : s.Plain)
    (h : roomText r = roomText s) :
    canonicalizeLabel r.name = canonicalizeLabel s.name ∧ (scoredTerms r).Perm (scoredTerms s) := by
  have hbar : ∀ value, '|' ∉ (canonicalizeLabel value).toList :=
    fun value hmem => absurd (label_plain hmem) (by decide)
  have hoptional : ∀ value, '|' ∉ (canonicalizeOptional value).toList :=
    fun value hmem => absurd (optional_plain hmem) (by decide)
  obtain ⟨hlabel, hrest⟩ := cut_inj (hbar _) (hbar _) h
  obtain ⟨-, hkeywords⟩ := cut_inj (hoptional _) (hoptional _) hrest
  refine ⟨String.toList_inj.1 hlabel, ?_⟩
  rw [scoredTerms_plain hr, scoredTerms_plain hs, hlabel]
  rcases intercalate_inj (keyword_plain hr (.inl rfl)) (keyword_plain hs (.inl rfl)) hkeywords with
    heq | ⟨hl, hm⟩
  · rw [heq]
  · have hblank : ∀ terms : List (List Char), (∀ term ∈ terms, term = []) →
        terms.filter (fun term => trimText term ≠ []) = [] := by
      intro terms hterms
      apply List.filter_eq_nil_iff.2
      intro term hterm
      rw [hterms term hterm]
      decide
    simp only [List.filter_cons, hblank _ hl, hblank _ hm]
    exact .refl _

theorem routingText_inj {a b : List ProjectRoomConfig}
    (ha : ∀ room ∈ a, room.Plain) (hb : ∀ room ∈ b, room.Plain) (h : routingText a = routingText b) :
    SameTerms a b := by
  have hplain : ∀ rooms : List ProjectRoomConfig, (∀ room ∈ rooms, room.Plain) →
      ∀ text ∈ rooms.map roomText, ';' ∉ text := by
    intro rooms hrooms text htext
    obtain ⟨room, hroom, rfl⟩ := List.mem_map.1 htext
    exact roomText_semicolon (hrooms room hroom)
  have htexts : a.map roomText = b.map roomText := by
    rcases intercalate_inj (hplain a ha) (hplain b hb) h with heq | ⟨hl, hm⟩
    · exact heq
    · have hnil : ∀ rooms : List ProjectRoomConfig,
          (∀ text ∈ rooms.map roomText, text = []) → rooms = [] := by
        intro rooms hrooms
        cases rooms with
        | nil => rfl
        | cons room rooms =>
          have := hrooms (roomText room) (by simp)
          simp [roomText] at this
      rw [hnil a hl, hnil b hm]
  unfold SameTerms
  rw [List.forall₂_iff_get]
  have hlen : a.length = b.length := by simpa using congrArg List.length htexts
  refine ⟨hlen, fun i hi hi' => ?_⟩
  apply roomText_inj (ha _ (List.get_mem ..)) (hb _ (List.get_mem ..))
  have := List.getElem_of_eq htexts (i := i) (by simpa using hi)
  simpa using this

/-- **Plain configurations.** Where rooms are named as their labels are and keywords have no
separator, the text of the fingerprint decides where every file goes. -/
theorem sameTerms_of_plain {a b : List ProjectRoomConfig}
    (ha : ∀ room ∈ a, room.Plain) (hb : ∀ room ∈ b, room.Plain) (h : routingText a = routingText b) :
    SameTerms a b ∧ ∀ relativePath content,
      detectProjectRoom relativePath content a = detectProjectRoom relativePath content b :=
  ⟨routingText_inj ha hb h, (routingText_inj ha hb h).route⟩

/-- Both configurations have the same names and keywords, or both are plain. -/
def SpelledAlike (a b : List ProjectRoomConfig) : Prop :=
  List.Forall₂ (fun r s => r.name = s.name ∧ r.keywords = s.keywords) a b ∨
    (∀ room ∈ a, room.Plain) ∧ ∀ room ∈ b, room.Plain

theorem SpelledAlike.sameTerms {a b : List ProjectRoomConfig} (h : SpelledAlike a b)
    (htext : routingText a = routingText b) : SameTerms a b := by
  rcases h with hsame | ⟨ha, hb⟩
  · refine hsame.imp fun r s hrs => ?_
    unfold scoredTerms roomTerms
    rw [hrs.1, hrs.2]
    exact ⟨rfl, .refl _⟩
  · exact routingText_inj ha hb htext

end AgentPalace.Ingest
