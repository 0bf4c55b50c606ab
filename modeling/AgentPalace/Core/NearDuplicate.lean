import AgentPalace.Core.Ids
import AgentPalace.Core.Time
import Mathlib.Data.List.Forall2

/-!
# Near duplicates

A text that differs from a stored one in numbers and timestamps alone is a new run
of a series. `maskTemplate` puts `<t>` and `<n>` for them and compares the rest.
The placeholders stand in the text itself, so a text that says `<n>` where another
has a number has its template too: that is when the masks of two texts agree and
their pieces do not, and the only case (`masks_exact`).

The pieces are those of a syntax of numbers and timestamps (`CutAt`) that does not
mention the scanner.
-/

namespace AgentPalace.NearDuplicate

structure CharTables where
  isAlphanumeric : Char → Bool
  toLowercase : List Char → List Char

/-! ## Timestamps -/

def digitAt (chars : List Char) (index : Nat) : Bool := chars[index]?.any (·.isDigit)

def digitsEnd (chars : List Char) (start : Nat) : Nat :=
  start + ((chars.drop start).takeWhile (·.isDigit)).length

/-- Exactly `count` digits, and what follows them. -/
def fixedDigits (chars : List Char) (start count : Nat) : Option Nat :=
  if start + count ≤ chars.length ∧ ((chars.drop start).take count).all (·.isDigit) then
    some (start + count)
  else none

def expect (chars : List Char) (index : Nat) (c : Char) : Option Unit :=
  if chars[index]? = some c then some () else none

def notDigit (chars : List Char) (index : Nat) : Option Nat :=
  if digitAt chars index then none else some index

def matchDate (chars : List Char) (start : Nat) : Option Nat := do
  let index ← fixedDigits chars start 4
  expect chars index '-'
  let index ← fixedDigits chars (index + 1) 2
  expect chars index '-'
  let index ← fixedDigits chars (index + 1) 2
  notDigit chars index

section
variable (tables : CharTables)

def matchOffset (chars : List Char) (start : Nat) : Option Nat :=
  match chars[start]? with
  | some 'z' => if chars[start + 1]?.any tables.isAlphanumeric then none else some (start + 1)
  | some '+' | some '-' => do
    let index ← fixedDigits chars (start + 1) 2
    expect chars index ':'
    let index ← fixedDigits chars (index + 1) 2
    notDigit chars index
  | _ => none

/-- The end of the fraction of a number, where there is one. -/
def fractionEnd (chars : List Char) (index : Nat) : Nat :=
  if chars[index]? = some '.' ∧ digitAt chars (index + 1) then digitsEnd chars (index + 1)
  else index

def matchTime (chars : List Char) (start : Nat) : Option Nat :=
  let hourEnd := digitsEnd chars start
  if hourEnd = start ∨ 2 < hourEnd - start ∨ chars[hourEnd]? ≠ some ':' then none
  else do
    let index ← fixedDigits chars (hourEnd + 1) 2
    let secondsEnd := if chars[index]? = some ':' then fixedDigits chars (index + 1) 2 else none
    let index := secondsEnd.elim index (fractionEnd chars)
    if digitAt chars index then none else some ((matchOffset tables chars index).getD index)

def matchTimestamp (chars : List Char) (start : Nat) : Option Nat :=
  match matchDate chars start with
  | some dateEnd =>
    let timeEnd :=
      if chars[dateEnd]? = some 't' ∨ chars[dateEnd]? = some ' ' then
        matchTime tables chars (dateEnd + 1)
      else none
    some (timeEnd.getD dateEnd)
  | none => matchTime tables chars start

/-! ## Masking -/

structure MaskedTemplate where
  template : List Char := []
  numbers : List (List Char) := []
  deriving DecidableEq

/-- A `-` before a number is its sign, unless it follows a letter or a digit. -/
def signedAt (chars : List Char) (index : Nat) : Bool :=
  chars[index]? == some '-' && digitAt chars (index + 1) &&
    (index == 0 || !chars[index - 1]?.any tables.isAlphanumeric) &&
    (matchTimestamp tables chars (index + 1)).isNone

def numberEnd (chars : List Char) (index : Nat) : Nat :=
  fractionEnd chars (digitsEnd chars (if signedAt tables chars index then index + 1 else index))

/-- The characters from `start` to `stop`. -/
def slice (chars : List Char) (start stop : Nat) : List Char :=
  (chars.drop start).take (stop - start)

/-- The loop of `mask_template`. Each pass moves on, so the length of the text is enough fuel. -/
def maskFrom (chars : List Char) : Nat → Nat → MaskedTemplate → MaskedTemplate
  | 0, _, mask => mask
  | fuel + 1, index, mask =>
    match chars[index]? with
    | none => mask
    | some c =>
      if !signedAt tables chars index && !c.isDigit then
        maskFrom chars fuel (index + 1) { mask with template := mask.template ++ [c] }
      else
        match matchTimestamp tables chars index with
        | some stop =>
          maskFrom chars fuel stop { mask with template := mask.template ++ ['<', 't', '>'] }
        | none =>
          let stop := numberEnd tables chars index
          maskFrom chars fuel stop {
            template := mask.template ++ ['<', 'n', '>']
            numbers := mask.numbers ++ [slice chars index stop] }

def normalized (text : List Char) : List Char :=
  tables.toLowercase ([' '].intercalate ((text.splitOnP isWhitespace).filter (· ≠ [])))

def maskTemplate (text : List Char) : MaskedTemplate :=
  let chars := normalized tables text
  maskFrom tables chars chars.length 0 {}

/-! ## Classification -/

inductive SeriesReason where
  | valuesChanged
  | sameSourceLater
  deriving DecidableEq

inductive DuplicateRelation where
  | exact
  | seriesUpdate (reason : SeriesReason)
  | nearDuplicate
  deriving DecidableEq

structure IncomingDrawer where
  content : List Char
  contentHash : String
  wing : Option String
  sourceFile : Option String
  now : OffsetDateTime

structure DuplicateCandidate where
  content : List Char
  contentHash : String
  wing : String
  sourceFile : String
  filedAt : Option OffsetDateTime

/-- Six hours. -/
def seriesMinAge : Duration := 21600000000000

def classifyDuplicate (incoming : IncomingDrawer) (candidate : DuplicateCandidate) :
    DuplicateRelation :=
  if incoming.contentHash = candidate.contentHash then .exact
  else
    let incomingMask := maskTemplate tables incoming.content
    let candidateMask := maskTemplate tables candidate.content
    if incomingMask.template ≠ candidateMask.template then .nearDuplicate
    else if incomingMask.numbers ≠ candidateMask.numbers then .seriesUpdate .valuesChanged
    else
      let sameSource := match incoming.wing, incoming.sourceFile with
        | some wing, some source =>
          source != "" && wing == candidate.wing && source == candidate.sourceFile
        | _, _ => false
      let oldEnough := candidate.filedAt.any fun filedAt =>
        seriesMinAge ≤ incoming.now.nanos - filedAt.nanos
      if sameSource && oldEnough then .seriesUpdate .sameSourceLater else .nearDuplicate

/-! ## The pieces of a text -/

inductive Piece where
  | text (c : Char)
  | number (lexeme : List Char)
  | timestamp (lexeme : List Char)

def Piece.lexeme : Piece → List Char
  | .text c => [c]
  | .number lexeme => lexeme
  | .timestamp lexeme => lexeme

def piecesFrom (chars : List Char) : Nat → Nat → List Piece
  | 0, _ => []
  | fuel + 1, index =>
    match chars[index]? with
    | none => []
    | some c =>
      if !signedAt tables chars index && !c.isDigit then .text c :: piecesFrom chars fuel (index + 1)
      else
        match matchTimestamp tables chars index with
        | some stop => .timestamp (slice chars index stop) :: piecesFrom chars fuel stop
        | none =>
          .number (slice chars index (numberEnd tables chars index)) ::
            piecesFrom chars fuel (numberEnd tables chars index)

/-! ### What numbers and timestamps are

`P l rest` says that `l` is a `P` where `rest` follows it. -/

abbrev Syntax := List Char → List Char → Prop

def StartsDigit (chars : List Char) : Prop := ∃ c ∈ chars.head?, c.isDigit = true

/-- The text begins with a `P`. -/
def Syntax.Begins (P : Syntax) (chars : List Char) : Prop := ∃ l rest, chars = l ++ rest ∧ P l rest

/-- A `P`, or nothing where none begins. -/
inductive Syntax.Taken (P : Syntax) : Syntax
  | some {l rest : List Char} (h : P l rest) : Taken P l rest
  | none {rest : List Char} (h : ¬ P.Begins rest) : Taken P [] rest

def Fixed (n : Nat) (l : List Char) : Prop := l.length = n ∧ ∀ c ∈ l, c.isDigit = true

structure Digits (l rest : List Char) : Prop where
  some : l ≠ []
  digits : ∀ c ∈ l, c.isDigit = true
  stop : ¬ StartsDigit rest

/-- `.5` -/
inductive Fraction : Syntax
  | mk {l rest : List Char} (h : Digits l rest) : Fraction ('.' :: l) rest

/-- `12` or `12.5` -/
inductive Numeral : Syntax
  | mk {l f rest : List Char} (h : Digits l (f ++ rest)) (hf : Syntax.Taken Fraction f rest) :
      Numeral (l ++ f) rest

/-- `2026-04-01` -/
inductive Date : Syntax
  | mk {y m d rest : List Char} (hy : Fixed 4 y) (hm : Fixed 2 m) (hd : Fixed 2 d)
      (hstop : ¬ StartsDigit rest) : Date (y ++ '-' :: (m ++ '-' :: d)) rest

/-- `z` or `+02:00` -/
inductive Offset : Syntax
  | utc {rest : List Char} (h : ¬ ∃ c ∈ rest.head?, tables.isAlphanumeric c = true) :
      Offset ['z'] rest
  | clock {sign : Char} {h m rest : List Char} (hsign : sign = '+' ∨ sign = '-') (hh : Fixed 2 h)
      (hm : Fixed 2 m) (hstop : ¬ StartsDigit rest) : Offset (sign :: (h ++ ':' :: m)) rest

/-- `:30` or `:30.5` -/
inductive Seconds : Syntax
  | mk {s f rest : List Char} (hs : Fixed 2 s) (hf : Syntax.Taken Fraction f rest) :
      Seconds (':' :: (s ++ f)) rest

/-- `8:15`, `08:15:30.5` or `08:15z` -/
inductive Clock : Syntax
  | mk {h m s o rest : List Char} (hsome : h ≠ []) (hh : ∀ c ∈ h, c.isDigit = true)
      (htwo : h.length ≤ 2) (hm : Fixed 2 m) (hs : Syntax.Taken Seconds s (o ++ rest))
      (hstop : ¬ StartsDigit (o ++ rest)) (ho : Syntax.Taken (Offset tables) o rest) :
      Clock (h ++ ':' :: (m ++ (s ++ o))) rest

inductive TimeOfDay : Syntax
  | mk {c : Char} {l rest : List Char} (hc : c = 't' ∨ c = ' ') (h : Clock tables l rest) :
      TimeOfDay (c :: l) rest

/-- A date with the time of day that follows, or a clock time. -/
inductive Timestamp : Syntax
  | date {d t rest : List Char} (hd : Date d (t ++ rest))
      (ht : Syntax.Taken (TimeOfDay tables) t rest) : Timestamp (d ++ t) rest
  | clock {l rest : List Char} (h : Clock tables l rest)
      (hnone : ¬ Syntax.Begins Date (l ++ rest)) : Timestamp l rest

/-- A timestamp, or a number where no timestamp begins. A `-` belongs to a number if the character
before it is no letter or digit. -/
inductive Token (before : Option Char) : Piece → List Char → Prop
  | timestamp {l rest : List Char} (h : Timestamp tables l rest) : Token before (.timestamp l) rest
  | number {l rest : List Char} (h : Numeral l rest)
      (hnone : ¬ Syntax.Begins (Timestamp tables) (l ++ rest)) : Token before (.number l) rest
  | signed {l rest : List Char} (h : Numeral l rest)
      (hnone : ¬ Syntax.Begins (Timestamp tables) (l ++ rest))
      (hbefore : ¬ ∃ c ∈ before, tables.isAlphanumeric c = true) :
      Token before (.number ('-' :: l)) rest

/-- The pieces of a text: its tokens, and characters where none begins. -/
inductive CutAt : Option Char → List Char → List Piece → Prop
  | done (before : Option Char) : CutAt before [] []
  | token {before : Option Char} {p : Piece} {rest : List Char} {ps : List Piece}
      (h : Token tables before p rest) (hrest : CutAt p.lexeme.getLast? rest ps) :
      CutAt before (p.lexeme ++ rest) (p :: ps)
  | text {before : Option Char} {c : Char} {rest : List Char} {ps : List Piece}
      (h : ∀ p r, Token tables before p r → p.lexeme ++ r ≠ c :: rest)
      (hrest : CutAt (some c) rest ps) : CutAt before (c :: rest) (.text c :: ps)

/-! ### The scanner finds them -/

section
variable {chars l r : List Char} {start stop index count : Nat}

theorem startsDigit_cons {c : Char} : StartsDigit (c :: r) ↔ c.isDigit = true := by
  simp [StartsDigit]

theorem drop_next (h : chars.drop start = l ++ r) : chars.drop (start + l.length) = r := by
  rw [← List.drop_drop, h, List.drop_left]

theorem getElem?_head (chars : List Char) (index : Nat) :
    chars[index]? = (chars.drop index).head? := by
  rw [List.head?_drop]

theorem digitAt_iff : digitAt chars index = true ↔ StartsDigit (chars.drop index) := by
  rw [digitAt, getElem?_head, Option.any_eq_true]
  rfl

theorem fixedDigits_some (hpos : 0 < count) (hl : Fixed count l) (h : chars.drop start = l ++ r) :
    fixedDigits chars start count = some (start + count) := by
  have hlength := congrArg List.length h
  rw [List.length_append, List.length_drop, hl.1] at hlength
  refine if_pos ⟨by omega, ?_⟩
  rw [h, ← hl.1, List.take_left]
  exact List.all_eq_true.2 hl.2

theorem fixedDigits_sound (h : fixedDigits chars start count = some stop) :
    ∃ l, Fixed count l ∧ chars.drop start = l ++ chars.drop stop ∧ stop = start + count := by
  unfold fixedDigits at h
  split at h
  · rename_i hfits
    obtain rfl := Option.some.inj h
    refine ⟨(chars.drop start).take count, ⟨?_, List.all_eq_true.1 hfits.2⟩, ?_, rfl⟩
    · rw [List.length_take, List.length_drop]
      omega
    · rw [← List.drop_drop, List.take_append_drop]
  · cases h

theorem expect_some {c : Char} : expect chars index c = some () ↔
    ∃ r, chars.drop index = c :: r := by
  unfold expect
  rw [getElem?_head]
  cases chars.drop index <;> simp [eq_comm]

theorem expect_next {c : Char} (h : expect chars index c = some ()) :
    chars.drop index = c :: chars.drop (index + 1) := by
  obtain ⟨r, hr⟩ := expect_some.1 h
  rw [hr, ← List.drop_drop, hr, List.drop_one, List.tail_cons]

theorem notDigit_sound (h : notDigit chars index = some stop) :
    stop = index ∧ ¬ StartsDigit (chars.drop index) := by
  unfold notDigit at h
  split at h
  · cases h
  · rename_i hdigit
    exact ⟨(Option.some.inj h).symm, fun hstarts => hdigit (digitAt_iff.2 hstarts)⟩

theorem notDigit_some (h : ¬ StartsDigit (chars.drop index)) : notDigit chars index = some index :=
  if_neg fun hdigit => h (digitAt_iff.1 hdigit)

theorem digitsEnd_sound (chars : List Char) (start : Nat) : ∃ l, (∀ c ∈ l, c.isDigit = true) ∧
    chars.drop start = l ++ chars.drop (digitsEnd chars start) ∧
    digitsEnd chars start = start + l.length ∧ ¬ StartsDigit (chars.drop (digitsEnd chars start)) := by
  have hsplit : chars.drop start = (chars.drop start).takeWhile (·.isDigit) ++
      (chars.drop start).dropWhile (·.isDigit) := List.takeWhile_append_dropWhile.symm
  have hrest : chars.drop (digitsEnd chars start) = (chars.drop start).dropWhile (·.isDigit) :=
    drop_next hsplit
  refine ⟨_, fun c hc => List.mem_takeWhile_imp hc, hrest ▸ hsplit, rfl, ?_⟩
  rw [hrest]
  rintro ⟨c, hc, hdigit⟩
  have hnot := List.head?_dropWhile_not (·.isDigit) (chars.drop start)
  simp [Option.mem_def.1 hc, hdigit] at hnot

theorem digitsEnd_eq (hl : ∀ c ∈ l, c.isDigit = true) (hr : ¬ StartsDigit r)
    (h : chars.drop start = l ++ r) : digitsEnd chars start = start + l.length := by
  have hnone : r.takeWhile (·.isDigit) = [] := by
    cases r with
    | nil => rfl
    | cons c r => exact List.takeWhile_cons_of_neg fun hc => hr (startsDigit_cons.2 hc)
  rw [digitsEnd, h, List.takeWhile_append_of_pos hl, hnone, List.append_nil]

theorem fractionEnd_sound (chars : List Char) (index : Nat) : ∃ f,
    Syntax.Taken Fraction f (chars.drop (fractionEnd chars index)) ∧
    chars.drop index = f ++ chars.drop (fractionEnd chars index) ∧
    fractionEnd chars index = index + f.length := by
  unfold fractionEnd
  split
  · rename_i hpoint
    have hdrop := expect_next (if_pos hpoint.1)
    obtain ⟨l, hl, hsplit, hend, hstop⟩ := digitsEnd_sound chars (index + 1)
    refine ⟨'.' :: l, .some ⟨⟨?_, hl, hstop⟩⟩, by rw [hdrop, hsplit]; rfl, ?_⟩
    · rintro rfl
      rw [List.nil_append] at hsplit
      exact hstop (hsplit ▸ digitAt_iff.1 hpoint.2)
    · rw [hend, List.length_cons]
      omega
  · rename_i hpoint
    refine ⟨[], .none ?_, rfl, rfl⟩
    rintro ⟨l, r, h, ⟨hl⟩⟩
    refine hpoint ⟨by rw [getElem?_head, h]; rfl, digitAt_iff.2 ?_⟩
    rename_i l
    have hdrop := expect_next (expect_some.2 ⟨_, h⟩)
    rw [h] at hdrop
    rw [← (List.cons.inj hdrop).2]
    obtain ⟨c, l, rfl⟩ := List.exists_cons_of_ne_nil hl.some
    exact startsDigit_cons.2 (hl.digits c List.mem_cons_self)

end

section
variable {chars l r : List Char} {start stop index : Nat}

/-- What the matcher found is a `P` where the text goes on. -/
def Found (P : Syntax) (chars : List Char) (start stop : Nat) : Prop :=
  ∃ l, P l (chars.drop stop) ∧ chars.drop start = l ++ chars.drop stop ∧ stop = start + l.length

theorem Found.begins {P : Syntax} (h : Found P chars start stop) : P.Begins (chars.drop start) := by
  obtain ⟨l, hl, hdrop, -⟩ := h
  exact ⟨l, _, hdrop, hl⟩

/-- An optional part that was matched, or that does not begin. -/
theorem taken_of_found {P : Syntax} {found : Option Nat}
    (hsome : ∀ stop, found = some stop → Found P chars index stop)
    (hnone : P.Begins (chars.drop index) → found ≠ none) :
    Found P.Taken chars index (found.getD index) := by
  cases hfound : found with
  | some stop =>
    obtain ⟨l, hl, hdrop, hstop⟩ := hsome stop hfound
    exact ⟨l, .some hl, hdrop, hstop⟩
  | none => exact ⟨[], .none fun hbegins => hnone hbegins hfound, rfl, rfl⟩

theorem fractionEnd_eq (hf : Syntax.Taken Fraction l r) (h : chars.drop index = l ++ r) :
    fractionEnd chars index = index + l.length := by
  cases hf with
  | some hf =>
    obtain ⟨hdigits⟩ := hf
    rename_i ds
    have hdrop := expect_next (expect_some.2 ⟨_, h⟩)
    rw [h] at hdrop
    have htail : chars.drop (index + 1) = ds ++ r := (List.cons.inj hdrop).2.symm
    obtain ⟨c, ds, rfl⟩ := List.exists_cons_of_ne_nil hdigits.some
    have hdigit : digitAt chars (index + 1) = true := by
      rw [digitAt_iff, htail]
      exact startsDigit_cons.2 (hdigits.digits c List.mem_cons_self)
    rw [fractionEnd, if_pos ⟨by rw [getElem?_head, h]; rfl, hdigit⟩,
      digitsEnd_eq hdigits.digits hdigits.stop htail]
    simp only [List.length_cons]
    omega
  | none hnone =>
    obtain ⟨f, hf, hdrop, hend⟩ := fractionEnd_sound chars index
    cases hf with
    | some hf =>
      rw [List.nil_append] at h
      exact absurd ⟨f, _, hdrop, hf⟩ (h.symm ▸ hnone)
    | none _ => exact hend

theorem matchDate_sound (h : matchDate chars start = some stop) : Found Date chars start stop := by
  unfold matchDate at h
  simp only [Option.bind_eq_bind, Option.bind_eq_some_iff] at h
  obtain ⟨_, hyear, _, hdash, _, hmonth, _, hdash', _, hday, hstop⟩ := h
  obtain ⟨y, hy, hdrop, rfl⟩ := fixedDigits_sound hyear
  obtain ⟨m, hm, hdrop', rfl⟩ := fixedDigits_sound hmonth
  obtain ⟨d, hd, hdrop'', rfl⟩ := fixedDigits_sound hday
  obtain ⟨rfl, hend⟩ := notDigit_sound hstop
  refine ⟨_, .mk hy hm hd hend, ?_, ?_⟩
  · rw [hdrop, expect_next hdash, hdrop', expect_next hdash', hdrop'']
    simp only [List.append_assoc, List.cons_append]
  · simp only [List.length_append, List.length_cons, hy.1, hm.1, hd.1]

theorem matchDate_ne (h : Syntax.Begins Date (chars.drop start)) : matchDate chars start ≠ none := by
  obtain ⟨l, r, h, hdate⟩ := h
  obtain ⟨hy, hm, hd, hstop⟩ := hdate
  rename_i y m d
  simp only [List.append_assoc, List.cons_append] at h
  have hyear := fixedDigits_some (by decide) hy h
  have h₁ : chars.drop (start + 4) = _ := hy.1 ▸ drop_next h
  have hnext₂ := expect_next (expect_some.2 ⟨_, h₁⟩)
  have h₂ : chars.drop (start + 4 + 1) = _ :=
    (List.cons.inj (hnext₂.symm.trans h₁)).2
  have h₃ : chars.drop (start + 4 + 1 + 2) = _ := hm.1 ▸ drop_next h₂
  have hnext₄ := expect_next (expect_some.2 ⟨_, h₃⟩)
  have h₄ : chars.drop (start + 4 + 1 + 2 + 1) = _ :=
    (List.cons.inj (hnext₄.symm.trans h₃)).2
  have h₅ : chars.drop (start + 4 + 1 + 2 + 1 + 2) = _ := hd.1 ▸ drop_next h₄
  unfold matchDate
  simp only [Option.bind_eq_bind, hyear, Option.bind_some, expect_some.2 ⟨_, h₁⟩,
    fixedDigits_some (by decide) hm h₂, expect_some.2 ⟨_, h₃⟩, fixedDigits_some (by decide) hd h₄,
    notDigit_some (h₅ ▸ hstop)]
  nofun

theorem matchOffset_sound (h : matchOffset tables chars start = some stop) :
    Found (Offset tables) chars start stop := by
  have hclock : ∀ {sign : Char} {stop}, sign = '+' ∨ sign = '-' → chars[start]? = some sign → (do
      let index ← fixedDigits chars (start + 1) 2
      expect chars index ':'
      let index ← fixedDigits chars (index + 1) 2
      notDigit chars index) = some stop → Found (Offset tables) chars start stop := by
    intro sign stop hsign hstart h
    simp only [Option.bind_eq_bind, Option.bind_eq_some_iff] at h
    obtain ⟨_, hhour, _, hcolon, _, hminute, hstop⟩ := h
    obtain ⟨hh, hhh, hdrop, rfl⟩ := fixedDigits_sound hhour
    obtain ⟨mm, hmm, hdrop', rfl⟩ := fixedDigits_sound hminute
    obtain ⟨rfl, hend⟩ := notDigit_sound hstop
    refine ⟨_, .clock hsign hhh hmm hend, ?_, ?_⟩
    · rw [expect_next (if_pos hstart), hdrop, expect_next hcolon, hdrop']
      simp only [List.append_assoc, List.cons_append]
    · simp only [List.length_append, List.length_cons, hhh.1, hmm.1]
  unfold matchOffset at h
  split at h
  · rename_i hz
    split at h
    · cases h
    · rename_i hnext
      obtain rfl := Option.some.inj h
      refine ⟨['z'], .utc fun ⟨c, hc, halpha⟩ => hnext ?_, expect_next (if_pos hz), rfl⟩
      rw [getElem?_head, Option.any_eq_true]
      exact ⟨c, hc, halpha⟩
  · rename_i hplus
    exact hclock (.inl rfl) hplus h
  · rename_i hminus
    exact hclock (.inr rfl) hminus h
  · cases h

theorem matchOffset_ne (h : (Offset tables).Begins (chars.drop start)) :
    matchOffset tables chars start ≠ none := by
  obtain ⟨l, r, h, hoffset⟩ := h
  cases hoffset with
  | utc hend =>
    have hhead : chars[start]? = some 'z' := by rw [getElem?_head, h]; rfl
    have hnext := drop_next h
    unfold matchOffset
    rw [hhead, if_neg]
    · nofun
    · intro halpha
      rw [getElem?_head, show chars.drop (start + 1) = r from hnext, Option.any_eq_true] at halpha
      exact hend halpha
  | @clock sign hh mm _ hsign hhh hmm hstop =>
    simp only [List.append_assoc, List.cons_append] at h
    have hhead : chars[start]? = some sign := by rw [getElem?_head, h]; rfl
    have hnext₁ := expect_next (expect_some.2 ⟨_, h⟩)
    have h₁ : chars.drop (start + 1) = _ :=
      (List.cons.inj (hnext₁.symm.trans h)).2
    have h₂ : chars.drop (start + 1 + 2) = _ := hhh.1 ▸ drop_next h₁
    have hnext₃ := expect_next (expect_some.2 ⟨_, h₂⟩)
    have h₃ : chars.drop (start + 1 + 2 + 1) = _ :=
      (List.cons.inj (hnext₃.symm.trans h₂)).2
    have h₄ : chars.drop (start + 1 + 2 + 1 + 2) = _ := hmm.1 ▸ drop_next h₃
    unfold matchOffset
    rw [hhead]
    rcases hsign with rfl | rfl <;>
      simp [fixedDigits_some (by decide) hhh h₁, expect_some.2 ⟨_, h₂⟩, fixedDigits_some (by decide) hmm h₃,
        notDigit_some (h₄ ▸ hstop)]

/-- The end of the seconds of a clock time, or of its minutes. -/
def secondsEnd (chars : List Char) (index : Nat) : Nat :=
  (if chars[index]? = some ':' then fixedDigits chars (index + 1) 2 else none).elim index
    (fractionEnd chars)

theorem secondsEnd_sound (chars : List Char) (index : Nat) :
    Found (Syntax.Taken Seconds) chars index (secondsEnd chars index) := by
  have hseconds : ∀ {second}, chars[index]? = some ':' →
      fixedDigits chars (index + 1) 2 = some second →
      Found Seconds chars index (fractionEnd chars second) := by
    intro second hcolon hsecond
    obtain ⟨s, hs, hdrop, rfl⟩ := fixedDigits_sound hsecond
    obtain ⟨f, hf, hdrop', hend⟩ := fractionEnd_sound chars (index + 1 + 2)
    refine ⟨_, .mk hs hf, ?_, ?_⟩
    · rw [expect_next (if_pos hcolon), hdrop, hdrop']
      simp only [List.append_assoc, List.cons_append]
    · rw [hend, List.length_cons, List.length_append, hs.1]
      omega
  unfold secondsEnd
  split
  · rename_i hcolon
    cases hsecond : fixedDigits chars (index + 1) 2 with
    | some second =>
      obtain ⟨l, hl, hdrop, hend⟩ := hseconds hcolon hsecond
      exact ⟨l, .some hl, hdrop, hend⟩
    | none =>
      refine ⟨[], .none ?_, rfl, rfl⟩
      rintro ⟨_, r, h, hs, -⟩
      simp only [List.append_assoc, List.cons_append, Option.elim_none] at h
      have h₁ := expect_next (expect_some.2 ⟨_, h⟩)
      rw [fixedDigits_some (by decide) hs (List.cons.inj (h₁.symm.trans h)).2] at hsecond
      cases hsecond
  · rename_i hcolon
    refine ⟨[], .none ?_, rfl, rfl⟩
    rintro ⟨_, r, h, hs, -⟩
    rw [Option.elim_none] at h
    exact hcolon (by rw [getElem?_head, h]; rfl)

theorem secondsEnd_eq (hs : Syntax.Taken Seconds l r) (h : chars.drop index = l ++ r) :
    secondsEnd chars index = index + l.length := by
  cases hs with
  | some hs =>
    obtain ⟨hs, hf⟩ := hs
    rename_i s f
    simp only [List.append_assoc, List.cons_append] at h
    have hnext₁ := expect_next (expect_some.2 ⟨_, h⟩)
    have h₁ : chars.drop (index + 1) = _ :=
      (List.cons.inj (hnext₁.symm.trans h)).2
    have h₂ : chars.drop (index + 1 + 2) = _ := hs.1 ▸ drop_next h₁
    have hhead : chars[index]? = some ':' := by rw [getElem?_head, h]; rfl
    rw [secondsEnd, if_pos hhead, fixedDigits_some (by decide) hs h₁, Option.elim_some, fractionEnd_eq hf h₂,
      List.length_cons, List.length_append, hs.1]
    omega
  | none hnone =>
    obtain ⟨s, hs, hdrop, hend⟩ := secondsEnd_sound chars index
    cases hs with
    | some hs =>
      rw [List.nil_append] at h
      exact absurd ⟨s, _, hdrop, hs⟩ (h.symm ▸ hnone)
    | none _ => exact hend

theorem matchTime_sound (h : matchTime tables chars start = some stop) :
    Found (Clock tables) chars start stop := by
  unfold matchTime at h
  dsimp only at h
  split at h
  · cases h
  rename_i hhours
  push Not at hhours
  obtain ⟨hsome, htwo, hcolon⟩ := hhours
  simp only [Option.bind_eq_bind, Option.bind_eq_some_iff, Option.ite_none_left_eq_some] at h
  obtain ⟨minute, hminute, hdigit, hstop⟩ := h
  obtain ⟨hh, hhh, hdrop, hhour, -⟩ := digitsEnd_sound chars start
  obtain ⟨m, hm, hdrop₁, rfl⟩ := fixedDigits_sound hminute
  obtain ⟨s, hs, hdrop₂, hsecond⟩ := secondsEnd_sound chars (digitsEnd chars start + 1 + 2)
  change digitAt chars (secondsEnd chars _) ≠ true at hdigit
  change some ((matchOffset tables chars (secondsEnd chars _)).getD (secondsEnd chars _)) = _ at hstop
  obtain ⟨o, ho, hdrop₃, hend⟩ := @taken_of_found chars
    (secondsEnd chars (digitsEnd chars start + 1 + 2)) _ _
    (fun _ => matchOffset_sound tables) (matchOffset_ne tables)
  rw [Option.some.inj hstop] at ho hdrop₃ hend
  refine ⟨hh ++ ':' :: (m ++ (s ++ o)), .mk ?_ hhh (by omega) hm (hdrop₃ ▸ hs) ?_ ho, ?_, ?_⟩
  · rintro rfl
    exact hsome hhour
  · rw [← hdrop₃]
    exact fun hstarts => hdigit (digitAt_iff.2 hstarts)
  · rw [hdrop, expect_next (if_pos hcolon), hdrop₁, hdrop₂, hdrop₃]
    simp only [List.append_assoc, List.cons_append]
  · simp only [List.length_append, List.length_cons, hm.1]
    omega

theorem matchTime_ne (h : (Clock tables).Begins (chars.drop start)) :
    matchTime tables chars start ≠ none := by
  obtain ⟨l, r, h, hclock⟩ := h
  obtain ⟨hsome, hh, htwo, hm, hs, hstop, ho⟩ := hclock
  rename_i hours m s o
  simp only [List.append_assoc, List.cons_append] at h
  have hcolon : ¬ StartsDigit (':' :: (m ++ (s ++ (o ++ r)))) := by
    rw [startsDigit_cons]
    decide
  have hhour := digitsEnd_eq hh hcolon h
  have h₁ := drop_next h
  have hnext₂ := expect_next (expect_some.2 ⟨_, h₁⟩)
  have h₂ : chars.drop (start + hours.length + 1) = _ :=
    (List.cons.inj (hnext₂.symm.trans h₁)).2
  have h₃ : chars.drop (start + hours.length + 1 + 2) = _ := hm.1 ▸ drop_next h₂
  have hend := secondsEnd_eq hs h₃
  have h₄ := drop_next h₃
  have hdigit : digitAt chars (secondsEnd chars (start + hours.length + 1 + 2)) = false := by
    rw [hend, ← Bool.not_eq_true, digitAt_iff, h₄]
    exact hstop
  have hhead : chars[start + hours.length]? = some ':' := by rw [getElem?_head, h₁]; rfl
  have hlength : hours.length ≠ 0 := fun hzero => hsome (List.length_eq_zero_iff.1 hzero)
  unfold matchTime
  dsimp only
  rw [hhour, if_neg (by rw [hhead]; simp only [ne_eq, not_true, or_false]; omega)]
  simp only [Option.bind_eq_bind, fixedDigits_some (by decide) hm h₂, Option.bind_some]
  change (if digitAt chars (secondsEnd chars _) = true then none else some _) ≠ none
  rw [hdigit]
  nofun

theorem timeOfDay_found {dateEnd : Nat} (h : (if chars[dateEnd]? = some 't' ∨
      chars[dateEnd]? = some ' ' then matchTime tables chars (dateEnd + 1) else none) = some stop) :
    Found (TimeOfDay tables) chars dateEnd stop := by
  split at h
  · rename_i hseparator
    obtain ⟨c, hc, hhead⟩ : ∃ c, (c = 't' ∨ c = ' ') ∧ chars[dateEnd]? = some c :=
      hseparator.elim (fun h => ⟨_, .inl rfl, h⟩) fun h => ⟨_, .inr rfl, h⟩
    obtain ⟨l, hl, hdrop, hend⟩ := matchTime_sound tables h
    refine ⟨c :: l, .mk hc hl, ?_, ?_⟩
    · rw [expect_next (if_pos hhead), hdrop, List.cons_append]
    · rw [hend, List.length_cons]
      omega
  · cases h

theorem timeOfDay_ne {dateEnd : Nat} (h : (TimeOfDay tables).Begins (chars.drop dateEnd)) :
    (if chars[dateEnd]? = some 't' ∨ chars[dateEnd]? = some ' ' then
      matchTime tables chars (dateEnd + 1) else none) ≠ none := by
  obtain ⟨l, r, h, htime⟩ := h
  obtain ⟨hc, hclock⟩ := htime
  rename_i c l
  have hhead : chars[dateEnd]? = some c := by rw [getElem?_head, h]; rfl
  have h₁ := expect_next (expect_some.2 ⟨_, h⟩)
  rw [hhead, if_pos (by rcases hc with rfl | rfl <;> simp)]
  exact matchTime_ne tables ⟨l, r, (List.cons.inj (h₁.symm.trans h)).2, hclock⟩

theorem matchTimestamp_sound (h : matchTimestamp tables chars start = some stop) :
    Found (Timestamp tables) chars start stop := by
  unfold matchTimestamp at h
  split at h
  · rename_i dateEnd hdate
    obtain ⟨d, hd, hdrop, hend⟩ := matchDate_sound hdate
    obtain ⟨t, ht, hdrop', hend'⟩ := @taken_of_found chars dateEnd _ _
      (fun _ => timeOfDay_found tables) (timeOfDay_ne tables)
    rw [Option.some.inj h] at ht hdrop' hend'
    refine ⟨d ++ t, .date (hdrop' ▸ hd) ht, ?_, ?_⟩
    · rw [hdrop, hdrop', List.append_assoc]
    · rw [hend', hend, List.length_append]
      omega
  · rename_i hdate
    obtain ⟨l, hl, hdrop, hend⟩ := matchTime_sound tables h
    exact ⟨l, .clock hl (hdrop ▸ fun hbegins => matchDate_ne hbegins hdate), hdrop, hend⟩

theorem matchTimestamp_ne (h : (Timestamp tables).Begins (chars.drop start)) :
    matchTimestamp tables chars start ≠ none := by
  obtain ⟨l, r, h, htimestamp⟩ := h
  unfold matchTimestamp
  cases htimestamp with
  | date hd ht =>
    rw [List.append_assoc] at h
    obtain ⟨dateEnd, hdate⟩ := Option.ne_none_iff_exists'.1 (matchDate_ne ⟨_, _, h, hd⟩)
    rw [hdate]
    nofun
  | clock hc hnone =>
    have hdate : matchDate chars start = none := by
      by_contra hsome
      obtain ⟨stop, hstop⟩ := Option.ne_none_iff_exists'.1 hsome
      exact hnone (h ▸ (matchDate_sound hstop).begins)
    rw [hdate]
    exact matchTime_ne tables ⟨_, _, h, hc⟩

end

/-! ### The cut -/

section
variable {chars : List Char} {index stop : Nat}

theorem slice_of_drop {l r : List Char} (h : chars.drop index = l ++ r) :
    slice chars index (index + l.length) = l := by
  rw [slice, h, Nat.add_sub_cancel_left, List.take_left]

theorem Found.piece {P : Syntax} (h : Found P chars index stop) :
    P (slice chars index stop) (chars.drop stop) ∧
      chars.drop index = slice chars index stop ++ chars.drop stop ∧
      stop = index + (slice chars index stop).length := by
  obtain ⟨l, hl, hdrop, rfl⟩ := h
  rw [slice_of_drop hdrop]
  exact ⟨hl, hdrop, rfl⟩

theorem numeral_found {index : Nat} (h : digitAt chars index = true) :
    Found Numeral chars index (fractionEnd chars (digitsEnd chars index)) := by
  obtain ⟨l, hl, hdrop, hend, hstop⟩ := digitsEnd_sound chars index
  obtain ⟨f, hf, hdrop', hend'⟩ := fractionEnd_sound chars (digitsEnd chars index)
  refine ⟨l ++ f, .mk ⟨?_, hl, hdrop' ▸ hstop⟩ hf, ?_, ?_⟩
  · rintro rfl
    rw [List.nil_append] at hdrop
    exact hstop (hdrop ▸ digitAt_iff.1 h)
  · rw [hdrop, hdrop', List.append_assoc]
  · rw [hend', hend, List.length_append]
    omega

theorem Numeral.startsDigit {l rest : List Char} (h : Numeral l rest) :
    StartsDigit (l ++ rest) := by
  obtain ⟨hdigits, -⟩ := h
  obtain ⟨c, l, rfl⟩ := List.exists_cons_of_ne_nil hdigits.some
  exact startsDigit_cons.2 (hdigits.digits c List.mem_cons_self)

theorem Timestamp.startsDigit {l rest : List Char} (h : Timestamp tables l rest) :
    StartsDigit (l ++ rest) := by
  cases h with
  | date hd _ =>
    obtain ⟨hy, -, -, -⟩ := hd
    rename_i t _ y m d
    obtain ⟨c, y, rfl⟩ := List.exists_cons_of_ne_nil
      (fun hnil => by rw [hnil] at hy; cases hy.1 : y ≠ [])
    exact startsDigit_cons.2 (hy.2 c List.mem_cons_self)
  | clock hc _ =>
    obtain ⟨hsome, hh, -, -, -, -, -⟩ := hc
    rename_i h m s o
    obtain ⟨c, h, rfl⟩ := List.exists_cons_of_ne_nil hsome
    exact startsDigit_cons.2 (hh c List.mem_cons_self)

def before (chars : List Char) : Nat → Option Char
  | 0 => none
  | index + 1 => chars[index]?

theorem before_add {l r : List Char} (h : chars.drop index = l ++ r) (hsome : l ≠ []) :
    before chars (index + l.length) = l.getLast? := by
  obtain ⟨l, c, rfl⟩ := List.eq_nil_or_concat l |>.resolve_left hsome
  rw [List.concat_eq_append] at h ⊢
  rw [List.append_assoc] at h
  rw [List.getLast?_append_of_ne_nil _ (by simp), List.length_append, List.length_singleton,
    ← Nat.add_assoc]
  show chars[index + l.length]? = _
  rw [getElem?_head, drop_next h]
  rfl

theorem signedAt_iff : signedAt tables chars index = true ↔ chars[index]? = some '-' ∧
    digitAt chars (index + 1) = true ∧
    (¬ ∃ c ∈ before chars index, tables.isAlphanumeric c = true) ∧
    matchTimestamp tables chars (index + 1) = none := by
  unfold signedAt
  simp only [Bool.and_eq_true, beq_iff_eq, Option.isNone_iff_eq_none, and_assoc]
  refine and_congr_right fun _ => and_congr_right fun _ => and_congr_left fun _ => ?_
  cases index with
  | zero => simp [before]
  | succ index =>
    simp only [before, Nat.succ_ne_zero, beq_iff_eq, Nat.add_sub_cancel, Bool.or_eq_true, false_or,
      Bool.not_eq_true', ← Bool.not_eq_true, Option.any_eq_true, Option.mem_def]

/-- No token begins where the scanner takes a character as it is. -/
theorem no_token {c : Char} (hc : chars[index]? = some c)
    (hplain : (!signedAt tables chars index && !c.isDigit) = true) (p : Piece) (r : List Char)
    (h : Token tables (before chars index) p r) : p.lexeme ++ r ≠ c :: chars.drop (index + 1) := by
  obtain ⟨hsigned, hdigit⟩ : signedAt tables chars index = false ∧ c.isDigit = false := by
    simpa using hplain
  have hdrop := expect_next (if_pos hc)
  intro heq
  have hstarts : ¬ StartsDigit (p.lexeme ++ r) := by
    rw [heq, startsDigit_cons, hdigit]
    nofun
  cases h with
  | timestamp h => exact hstarts (h.startsDigit tables)
  | number h _ => exact hstarts h.startsDigit
  | signed h hnone hbefore =>
    obtain ⟨rfl, htail⟩ := List.cons.inj heq
    refine Bool.false_ne_true (hsigned.symm.trans ((signedAt_iff tables).2
      ⟨hc, digitAt_iff.2 (htail ▸ h.startsDigit), hbefore, ?_⟩))
    by_contra hsome
    obtain ⟨stop, hstop⟩ := Option.ne_none_iff_exists'.1 hsome
    have hbegins := (matchTimestamp_sound tables hstop).begins
    rw [← htail] at hbegins
    exact hnone hbegins

theorem token_found {c : Char} (hc : chars[index]? = some c)
    (htoken : ¬(!signedAt tables chars index && !c.isDigit) = true)
    (hnone : matchTimestamp tables chars index = none) :
    Found (fun l => Token tables (before chars index) (.number l)) chars index
      (numberEnd tables chars index) := by
  have hbegins : ∀ {start}, matchTimestamp tables chars start = none →
      ¬ (Timestamp tables).Begins (chars.drop start) := fun h hb => matchTimestamp_ne tables hb h
  unfold numberEnd
  cases hsigned : signedAt tables chars index with
  | true =>
    obtain ⟨hminus, hdigit, hbefore, hnext⟩ := (signedAt_iff tables).1 hsigned
    obtain ⟨l, hl, hdrop, hend⟩ := numeral_found hdigit
    refine ⟨'-' :: l, .signed hl (hdrop ▸ hbegins hnext) hbefore, ?_, ?_⟩
    · rw [expect_next (if_pos hminus), if_pos rfl, hdrop, List.cons_append]
    · rw [if_pos rfl, hend, List.length_cons]
      omega
  | false =>
    rw [hsigned] at htoken
    have hdigit : digitAt chars index = true := by
      rw [digitAt, hc]
      simpa using htoken
    obtain ⟨l, hl, hdrop, hend⟩ := numeral_found hdigit
    exact ⟨l, .number hl (hdrop ▸ hbegins hnone), hdrop, hend⟩

theorem Token.startsPiece {prev : Option Char} {p : Piece} {rest : List Char}
    (h : Token tables prev p rest) : p.lexeme ≠ [] := by
  have hnumeral : ∀ {l rest}, Numeral l rest → l ≠ [] := by
    rintro _ rest ⟨hdigits, -⟩ hnil
    exact hdigits.some (List.append_eq_nil_iff.1 hnil).1
  cases h with
  | number h _ => exact hnumeral h
  | signed h _ _ => nofun
  | timestamp h =>
    cases h with
    | date hd _ =>
      obtain ⟨-, -, -, -⟩ := hd
      simp [Piece.lexeme]
    | clock hc _ =>
      obtain ⟨-, -, -, -, -, -, -⟩ := hc
      simp [Piece.lexeme]

theorem piecesFrom_cutAt {fuel : Nat} (h : chars.length ≤ fuel + index) :
    CutAt tables (before chars index) (chars.drop index) (piecesFrom tables chars fuel index) := by
  induction fuel generalizing index with
  | zero =>
    rw [List.drop_eq_nil_iff.2 (by omega)]
    exact .done _
  | succ fuel ih =>
    have htoken : ∀ {p : Piece} {stop}, Token tables (before chars index) p (chars.drop stop) →
        chars.drop index = p.lexeme ++ chars.drop stop → stop = index + p.lexeme.length →
        CutAt tables (before chars index) (chars.drop index)
          (p :: piecesFrom tables chars fuel stop) := by
      intro p stop hp hdrop hstop
      have hsome := hp.startsPiece tables
      have hpos := List.length_pos_iff.2 hsome
      rw [hdrop]
      refine .token hp ?_
      rw [← before_add hdrop hsome, ← hstop]
      exact ih (by omega)
    unfold piecesFrom
    cases hc : chars[index]? with
    | none =>
      rw [List.drop_eq_nil_iff.2 (List.getElem?_eq_none_iff.1 hc)]
      exact .done _
    | some c =>
      dsimp only
      split
      · rename_i hplain
        rw [expect_next (if_pos hc)]
        refine .text (no_token tables hc hplain) ?_
        have hrest := @ih (index + 1) (by omega)
        rwa [before, hc] at hrest
      · rename_i hnot
        split
        · rename_i stop hstop
          obtain ⟨hp, hdrop, hend⟩ := (matchTimestamp_sound tables hstop).piece
          exact htoken (.timestamp hp) hdrop hend
        · rename_i hnone
          obtain ⟨hp, hdrop, hend⟩ := (token_found tables hc hnot hnone).piece
          exact htoken hp hdrop hend

end

/-- A cut of a text into numbers, timestamps, and characters where none begins. -/
structure Cut (chars : List Char) where
  pieces : List Piece
  cutAt : CutAt tables none chars pieces

def cut (text : List Char) : Cut tables (normalized tables text) where
  pieces := piecesFrom tables (normalized tables text) (normalized tables text).length 0
  cutAt := @piecesFrom_cutAt tables (normalized tables text) 0 _ (Nat.le_refl _)

end

/-! ## Masks and cuts -/

/-- Both are the same text, or both are numbers, or both timestamps. -/
inductive Corresponds : Piece → Piece → Prop
  | text (c : Char) : Corresponds (.text c) (.text c)
  | number (lexeme lexeme' : List Char) : Corresponds (.number lexeme) (.number lexeme')
  | timestamp (lexeme lexeme' : List Char) : Corresponds (.timestamp lexeme) (.timestamp lexeme')

def Piece.shown : Piece → List Char
  | .text c => [c]
  | .number _ => ['<', 'n', '>']
  | .timestamp _ => ['<', 't', '>']

def Piece.IsToken : Piece → Prop
  | .text _ => False
  | _ => True

/-- The pieces correspond, except where one text spells the placeholder of a number or
timestamp of the other; `true` if there is such a place. -/
inductive Aligned : List Piece → List Piece → Bool → Prop
  | nil : Aligned [] [] false
  | cons {p q : Piece} {ps qs : List Piece} {spelled : Bool} (h : Corresponds p q)
      (rest : Aligned ps qs spelled) : Aligned (p :: ps) (q :: qs) spelled
  | left {p : Piece} {ps qs : List Piece} {spelled : Bool} (h : p.IsToken)
      (rest : Aligned ps qs spelled) : Aligned (p :: ps) (p.shown.map .text ++ qs) true
  | right {q : Piece} {ps qs : List Piece} {spelled : Bool} (h : q.IsToken)
      (rest : Aligned ps qs spelled) : Aligned (q.shown.map .text ++ ps) (q :: qs) true

def shownBy (ps : List Piece) : List Char := ps.flatMap Piece.shown

theorem maskFrom_template (tables : CharTables) (chars : List Char) (fuel index : Nat)
    (mask : MaskedTemplate) :
    (maskFrom tables chars fuel index mask).template =
      mask.template ++ shownBy (piecesFrom tables chars fuel index) := by
  induction fuel generalizing index mask with
  | zero => simp [maskFrom, piecesFrom, shownBy]
  | succ fuel ih =>
    unfold maskFrom piecesFrom
    split
    · simp [shownBy]
    · split
      · rw [ih]
        simp [shownBy, Piece.shown]
      · split
        · rw [ih]
          simp [shownBy, Piece.shown]
        · rw [ih]
          simp [shownBy, Piece.shown]

theorem maskTemplate_template (tables : CharTables) (text : List Char) :
    (maskTemplate tables text).template = shownBy (cut tables text).pieces := by
  unfold maskTemplate
  rw [maskFrom_template]
  rfl

section
variable {ps qs : List Piece} {spelled : Bool}

theorem Corresponds.shown {p q : Piece} (h : Corresponds p q) : p.shown = q.shown := by
  cases h <;> rfl

theorem Corresponds.symm {p q : Piece} (h : Corresponds p q) : Corresponds q p := by
  cases h <;> constructor

theorem Aligned.symm (h : Aligned ps qs spelled) : Aligned qs ps spelled := by
  induction h with
  | nil => exact .nil
  | cons h rest ih => exact .cons h.symm ih
  | left h rest ih => exact .right h ih
  | right h rest ih => exact .left h ih

theorem shownBy_text (cs : List Char) : shownBy (cs.map .text) = cs := by
  induction cs with
  | nil => rfl
  | cons c cs ih => exact congrArg (c :: ·) ih

theorem shownBy_append (ps qs : List Piece) : shownBy (ps ++ qs) = shownBy ps ++ shownBy qs :=
  List.flatMap_append

theorem Aligned.shownBy_eq (h : Aligned ps qs spelled) : shownBy ps = shownBy qs := by
  induction h with
  | nil => rfl
  | cons h rest ih =>
    show Piece.shown _ ++ shownBy _ = Piece.shown _ ++ shownBy _
    rw [h.shown, ih]
  | left h rest ih =>
    rw [shownBy_append, shownBy_text, ← ih]
    rfl
  | right h rest ih =>
    rw [shownBy_append, shownBy_text, ih]
    rfl

/-- A placeholder is spelled by characters after its first one. -/
theorem text_of_shownBy {c : Char} {rest : List Char} (hc : c ≠ '<') (h : shownBy ps = c :: rest) :
    ∃ ps', ps = .text c :: ps' ∧ shownBy ps' = rest := by
  cases ps with
  | nil => cases h
  | cons p ps =>
    cases p with
    | text c' =>
      obtain ⟨rfl, hrest⟩ := List.cons.inj h
      exact ⟨ps, rfl, hrest⟩
    | number lexeme => exact absurd (List.cons.inj h).1.symm hc
    | timestamp lexeme => exact absurd (List.cons.inj h).1.symm hc

theorem spelled_of_shownBy {q : Piece} (hq : q.IsToken) {c : Char}
    (h : shownBy (.text c :: ps) = q.shown ++ shownBy qs) :
    ∃ ps', .text c :: ps = q.shown.map .text ++ ps' ∧ shownBy ps' = shownBy qs := by
  have hshown : ∃ x : Char, x ≠ '<' ∧ q.shown = ['<', x, '>'] := by
    cases q with
    | text c => exact hq.elim
    | number lexeme => exact ⟨'n', by decide, rfl⟩
    | timestamp lexeme => exact ⟨'t', by decide, rfl⟩
  obtain ⟨x, hx, hshown⟩ := hshown
  rw [hshown] at h ⊢
  obtain ⟨rfl, hletter⟩ := List.cons.inj h
  obtain ⟨ps₁, rfl, hclose⟩ := text_of_shownBy hx hletter
  obtain ⟨ps₂, rfl, hrest⟩ := text_of_shownBy (by decide) hclose
  exact ⟨ps₂, rfl, hrest⟩

theorem aligned_of_shownBy (h : shownBy ps = shownBy qs) : ∃ spelled, Aligned ps qs spelled := by
  generalize hn : ps.length + qs.length = n
  induction n using Nat.strong_induction_on generalizing ps qs with
  | _ n ih =>
    have htoken : ∀ {ps qs : List Piece} {c : Char} {q : Piece}, q.IsToken →
        (Piece.text c :: ps).length + (q :: qs).length = n →
        shownBy (.text c :: ps) = q.shown ++ shownBy qs →
        ∃ spelled, Aligned (.text c :: ps) (q :: qs) spelled := by
      intro ps qs c q hq hlength hshown
      obtain ⟨ps', hps, hrest⟩ := spelled_of_shownBy hq hshown
      have hshorter := congrArg List.length hps
      rw [List.length_append] at hshorter
      rw [List.length_cons] at hlength hshorter
      rw [List.length_cons] at hlength
      obtain ⟨_, haligned⟩ := ih (ps'.length + qs.length) (by omega) hrest rfl
      exact ⟨true, hps ▸ .right hq haligned⟩
    cases ps with
    | nil =>
      cases qs with
      | nil => exact ⟨false, .nil⟩
      | cons q qs => cases q <;> cases h
    | cons p ps =>
      cases qs with
      | nil => cases p <;> cases h
      | cons q qs =>
        have hshorter : ps.length + qs.length < n := by
          rw [List.length_cons, List.length_cons] at hn
          omega
        have hsame : Corresponds p q → shownBy ps = shownBy qs →
            ∃ spelled, Aligned (p :: ps) (q :: qs) spelled := by
          intro hpq hrest
          obtain ⟨spelled, haligned⟩ := ih _ hshorter hrest rfl
          exact ⟨spelled, .cons hpq haligned⟩
        cases p with
        | text c =>
          cases q with
          | text c' =>
            obtain ⟨rfl, hrest⟩ := List.cons.inj h
            exact hsame (.text c) hrest
          | number lexeme => exact htoken trivial hn h
          | timestamp lexeme => exact htoken trivial hn h
        | number lexeme =>
          cases q with
          | text c =>
            obtain ⟨spelled, haligned⟩ := htoken (q := .number lexeme) trivial
              ((Nat.add_comm _ _).trans hn) h.symm
            exact ⟨spelled, haligned.symm⟩
          | number lexeme' => exact hsame (.number _ _) (List.append_cancel_left h)
          | timestamp lexeme' => exact absurd (List.cons.inj (List.cons.inj h).2).1 (by decide)
        | timestamp lexeme =>
          cases q with
          | text c =>
            obtain ⟨spelled, haligned⟩ := htoken (q := .timestamp lexeme) trivial
              ((Nat.add_comm _ _).trans hn) h.symm
            exact ⟨spelled, haligned.symm⟩
          | number lexeme' => exact absurd (List.cons.inj (List.cons.inj h).2).1 (by decide)
          | timestamp lexeme' => exact hsame (.timestamp _ _) (List.append_cancel_left h)

theorem forall₂_of_aligned (h : Aligned ps qs spelled) (hfalse : spelled = false) :
    List.Forall₂ Corresponds ps qs := by
  induction h with
  | nil => exact .nil
  | cons h rest ih => exact .cons h (ih hfalse)
  | left h rest ih => cases hfalse
  | right h rest ih => cases hfalse

theorem aligned_of_forall₂ (h : List.Forall₂ Corresponds ps qs) : Aligned ps qs false := by
  induction h with
  | nil => exact .nil
  | cons h rest ih => exact .cons h ih

theorem not_forall₂_of_aligned (h : Aligned ps qs spelled) (htrue : spelled = true) :
    ¬List.Forall₂ Corresponds ps qs := by
  induction h with
  | nil => cases htrue
  | cons h rest ih =>
    intro hall
    cases hall with
    | cons _ hrest => exact ih htrue hrest
  | @left p _ _ _ h rest ih =>
    intro hall
    cases p with
    | text c => exact h
    | number lexeme => cases hall with | cons hpq _ => cases hpq
    | timestamp lexeme => cases hall with | cons hpq _ => cases hpq
  | @right q _ _ _ h rest ih =>
    intro hall
    cases q with
    | text c => exact h
    | number lexeme => cases hall with | cons hpq _ => cases hpq
    | timestamp lexeme => cases hall with | cons hpq _ => cases hpq

end

/-- One text spells a placeholder where the other has its number or timestamp, and the
texts correspond in all else. -/
def Spells (tables : CharTables) (a b : List Char) : Prop :=
  Aligned (cut tables a).pieces (cut tables b).pieces true

theorem template_of_seriesUpdate {tables : CharTables} {incoming : IncomingDrawer}
    {candidate : DuplicateCandidate} {reason : SeriesReason}
    (h : classifyDuplicate tables incoming candidate = .seriesUpdate reason) :
    (maskTemplate tables incoming.content).template =
      (maskTemplate tables candidate.content).template := by
  by_contra hne
  unfold classifyDuplicate at h
  split at h
  · cases h
  · rw [if_pos hne] at h
    cases h

/-- **Only numbers and timestamps are forgiven**, that is a series update has the pieces of
the stored text up to its numbers and timestamps, and so has a text with its mask, just if
neither text spells a placeholder where the other has the token. -/
theorem masks_exact (tables : CharTables) (a b : List Char) :
    ((∀ incoming candidate reason, incoming.content = a → candidate.content = b →
        classifyDuplicate tables incoming candidate = .seriesUpdate reason →
        List.Forall₂ Corresponds (cut tables a).pieces (cut tables b).pieces) ∧
      ((maskTemplate tables a).template = (maskTemplate tables b).template ↔
        List.Forall₂ Corresponds (cut tables a).pieces (cut tables b).pieces)) ↔
    ¬Spells tables a b := by
  rw [maskTemplate_template, maskTemplate_template]
  constructor
  · rintro ⟨_, hmask⟩ hspells
    exact not_forall₂_of_aligned hspells rfl (hmask.1 hspells.shownBy_eq)
  · intro hnot
    have hmask : shownBy (cut tables a).pieces = shownBy (cut tables b).pieces →
        List.Forall₂ Corresponds (cut tables a).pieces (cut tables b).pieces := by
      intro hshown
      obtain ⟨spelled, haligned⟩ := aligned_of_shownBy hshown
      cases spelled with
      | false => exact forall₂_of_aligned haligned rfl
      | true => exact absurd haligned hnot
    refine ⟨fun incoming candidate reason hin hcand h => hmask ?_, hmask, fun hall =>
      (aligned_of_forall₂ hall).shownBy_eq⟩
    have htemplate := template_of_seriesUpdate h
    rwa [hin, hcand, maskTemplate_template, maskTemplate_template] at htemplate

def asciiTables : CharTables := ⟨Char.isAlphanum, List.map Char.toLower⟩

def placeholderNote : IncomingDrawer where
  content := "value <n>".toList
  contentHash := "31c5"
  wing := some "wing_ops"
  sourceFile := none
  now := ⟨1790856000000000000, 0⟩

def storedValue : DuplicateCandidate where
  content := "value 5".toList
  contentHash := "9d84"
  wing := "wing_ops"
  sourceFile := ""
  filedAt := none

/-- The note counts as a new run of the value. -/
theorem placeholder_forgiven : ¬ ∀ incoming candidate reason,
    classifyDuplicate asciiTables incoming candidate = .seriesUpdate reason →
      List.Forall₂ Corresponds (cut asciiTables incoming.content).pieces
        (cut asciiTables candidate.content).pieces := by
  intro h
  have hseries : classifyDuplicate asciiTables placeholderNote storedValue =
      .seriesUpdate .valuesChanged := by decide +kernel
  have hlength := (h placeholderNote storedValue .valuesChanged hseries).length_eq
  have hpieces : (cut asciiTables placeholderNote.content).pieces.length ≠
      (cut asciiTables storedValue.content).pieces.length := by decide +kernel
  exact hpieces hlength

end AgentPalace.NearDuplicate
