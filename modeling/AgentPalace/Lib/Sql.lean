import Mathlib.Data.List.Basic

/-!
# Conditions in SQL

A condition on one row, as standard SQL reads its text: `lex` cuts the text into
tokens, `parseOr` reads `OR` over `AND` over `NOT` and the comparisons, and `eval`
gives the truth value, where a comparison with a missing value is neither true nor
false.

A text that is put together from pieces is read piece by piece: `Piece` says what
a piece is cut into, `ReadsPrimary`, `ReadsAnd` and `ReadsOr` what tokens are read as.
-/

namespace AgentPalace.Sql

inductive Token where
  | ident (name : String)
  | lit (s : String)
  | lparen
  | rparen
  | comma
  | eq
  | ne
  | kwAnd
  | kwOr
  | kwNot
  | kwIn
  | kwIs
  | kwNull
  deriving DecidableEq

/-! ## Tokens -/

inductive LexState where
  | idle
  | bang
  | word (acc : List Char)
  | str (acc : List Char)
  /-- Behind a quote inside a literal: its end, or the first half of a quote. -/
  | quote (acc : List Char)

def isWordStart (c : Char) : Bool := c.isAlpha || c == '_'

def isWordChar (c : Char) : Bool := c.isAlphanum || c == '_'

/-- Keywords are read in any case, and names in lower case. -/
def wordToken (w : List Char) : Token :=
  let upper := String.ofList (w.map Char.toUpper)
  if upper = "AND" then .kwAnd
  else if upper = "OR" then .kwOr
  else if upper = "NOT" then .kwNot
  else if upper = "IN" then .kwIn
  else if upper = "IS" then .kwIs
  else if upper = "NULL" then .kwNull
  else .ident (String.ofList (w.map Char.toLower))

namespace LexState

def start (c : Char) : Option (LexState × List Token) :=
  if c = ' ' then some (idle, [])
  else if c = '(' then some (idle, [.lparen])
  else if c = ')' then some (idle, [.rparen])
  else if c = ',' then some (idle, [.comma])
  else if c = '=' then some (idle, [.eq])
  else if c = '!' then some (bang, [])
  else if c = '\'' then some (str [], [])
  else if isWordStart c then some (word [c], [])
  else none

/-- The tokens that are complete at the end of the text, or before a character
that does not continue them. -/
def finish : LexState → Option (List Token)
  | idle => some []
  | word acc => some [wordToken acc.reverse]
  | quote acc => some [.lit (String.ofList acc.reverse)]
  | bang | str _ => none

def step (st : LexState) (c : Char) : Option (LexState × List Token) :=
  let next := do
    let ts ← st.finish
    let (st', us) ← start c
    return (st', ts ++ us)
  match st with
  | idle => start c
  | bang => if c = '=' then some (idle, [.ne]) else none
  | word acc => if isWordChar c then some (word (c :: acc), []) else next
  | str acc => if c = '\'' then some (quote acc, []) else some (str (c :: acc), [])
  | quote acc => if c = '\'' then some (str ('\'' :: acc), []) else next

end LexState

def lexRun : LexState → List Char → Option (LexState × List Token)
  | st, [] => some (st, [])
  | st, c :: cs => do
    let (st', ts) ← st.step c
    let (st'', us) ← lexRun st' cs
    return (st'', ts ++ us)

def lex (text : String) : Option (List Token) := do
  let (st, ts) ← lexRun .idle text.toList
  let us ← st.finish
  return ts ++ us

/-! ## Conditions -/

inductive Expr where
  | eq (column s : String)
  | ne (column s : String)
  | isNull (column : String)
  | isNotNull (column : String)
  | inList (column : String) (values : List String)
  | not (e : Expr)
  | and (e e' : Expr)
  | or (e e' : Expr)

/-- The literals of a list, up to its closing parenthesis. -/
def parseList : List Token → Option (List String × List Token)
  | .lit s :: .rparen :: ts => some ([s], ts)
  | .lit s :: .comma :: ts => do
    let (values, rest) ← parseList ts
    return (s :: values, rest)
  | _ => none

mutual

def parseOr : Nat → List Token → Option (Expr × List Token)
  | 0, _ => none
  | n + 1, ts => do
    let (e, rest) ← parseAnd n ts
    match rest with
    | .kwOr :: rest => do
      let (e', rest) ← parseOr n rest
      return (.or e e', rest)
    | _ => return (e, rest)

def parseAnd : Nat → List Token → Option (Expr × List Token)
  | 0, _ => none
  | n + 1, ts => do
    let (e, rest) ← parsePrimary n ts
    match rest with
    | .kwAnd :: rest => do
      let (e', rest) ← parseAnd n rest
      return (.and e e', rest)
    | _ => return (e, rest)

def parsePrimary : Nat → List Token → Option (Expr × List Token)
  | 0, _ => none
  | n + 1, .kwNot :: ts => do
    let (e, rest) ← parsePrimary n ts
    return (.not e, rest)
  | n + 1, .lparen :: ts => do
    let (e, rest) ← parseOr n ts
    match rest with
    | .rparen :: rest => return (e, rest)
    | _ => none
  | _ + 1, .ident column :: .eq :: .lit s :: ts => some (.eq column s, ts)
  | _ + 1, .ident column :: .ne :: .lit s :: ts => some (.ne column s, ts)
  | _ + 1, .ident column :: .kwIs :: .kwNull :: ts => some (.isNull column, ts)
  | _ + 1, .ident column :: .kwIs :: .kwNot :: .kwNull :: ts => some (.isNotNull column, ts)
  | _ + 1, .ident column :: .kwIn :: .lparen :: ts => do
    let (values, rest) ← parseList ts
    return (.inList column values, rest)
  | _, _ => none

end

def parse (text : String) : Option Expr := do
  let ts ← lex text
  match ← parseOr (3 * ts.length + 2) ts with
  | (e, []) => return e
  | _ => none

/-! ## Truth -/

/-- `none` is unknown. -/
abbrev Truth := Option Bool

namespace Truth

def and : Truth → Truth → Truth
  | some false, _ | _, some false => some false
  | some true, some true => some true
  | _, _ => none

def or : Truth → Truth → Truth
  | some true, _ | _, some true => some true
  | some false, some false => some false
  | _, _ => none

def not (t : Truth) : Truth := Option.map (!·) t

theorem and_true {s t : Truth} : and s t = some true ↔ s = some true ∧ t = some true := by
  rcases s with _ | _ | _ <;> rcases t with _ | _ | _ <;> simp [and]

theorem or_true {s t : Truth} : or s t = some true ↔ s = some true ∨ t = some true := by
  rcases s with _ | _ | _ <;> rcases t with _ | _ | _ <;> simp [or]

end Truth

namespace Expr

def columns : Expr → List String
  | eq c _ | ne c _ | isNull c | isNotNull c | inList c _ => [c]
  | not e => e.columns
  | and e e' | or e e' => e.columns ++ e'.columns

/-- The truth of a condition of a row; a missing value is `none`. -/
def eval (value : String → Option String) : Expr → Truth
  | eq c s => (value c).map (· == s)
  | ne c s => (value c).map (· != s)
  | isNull c => some (value c).isNone
  | isNotNull c => some (value c).isSome
  | inList c values => values.foldr (fun s t => Truth.or ((value c).map (· == s)) t) (some false)
  | not e => Truth.not (e.eval value)
  | and e e' => Truth.and (e.eval value) (e'.eval value)
  | or e e' => Truth.or (e.eval value) (e'.eval value)

variable {value : String → Option String}

theorem eval_eq {c s : String} : (eq c s).eval value = some true ↔ value c = some s := by
  cases h : value c <;> simp [eval, h]

theorem eval_ne {c s : String} :
    (ne c s).eval value = some true ↔ ∃ t, value c = some t ∧ t ≠ s := by
  cases h : value c <;> simp [eval, h]

theorem eval_isNull {c : String} : (isNull c).eval value = some true ↔ value c = none := by
  cases h : value c <;> simp [eval, h]

theorem eval_inList {c : String} {values : List String} :
    (inList c values).eval value = some true ↔ ∃ s ∈ values, value c = some s := by
  rw [eval]
  induction values with
  | nil => simp
  | cons s values ih =>
    rw [List.foldr_cons, Truth.or_true, ih, List.exists_mem_cons_iff]
    cases h : value c <;> simp

theorem eval_and {e e' : Expr} :
    (and e e').eval value = some true ↔ e.eval value = some true ∧ e'.eval value = some true :=
  Truth.and_true

theorem eval_or {e e' : Expr} :
    (or e e').eval value = some true ↔ e.eval value = some true ∨ e'.eval value = some true :=
  Truth.or_true

end Expr

/-! ## Cutting a text into tokens -/

theorem lexRun_append {st st' st'' : LexState} {cs ds : List Char} {ts us : List Token}
    (h : lexRun st cs = some (st', ts)) (h' : lexRun st' ds = some (st'', us)) :
    lexRun st (cs ++ ds) = some (st'', ts ++ us) := by
  induction cs generalizing st ts with
  | nil =>
    cases h
    exact h'
  | cons c cs ih =>
    rw [lexRun] at h
    simp only [Option.bind_eq_bind, Option.bind_eq_some_iff, Option.pure_def, Option.some.injEq,
      Prod.exists, Prod.mk.injEq] at h
    obtain ⟨st₁, ts₁, hstep, st₂, us₁, hrest, rfl, rfl⟩ := h
    rw [List.cons_append, lexRun, hstep]
    simp only [Option.bind_eq_bind, Option.bind_some, ih hrest, Option.pure_def,
      List.append_assoc]

/-- The state has read whole tokens, if no quote follows. -/
def Closed (st : LexState) (post : List Token) : Prop :=
  st.finish = some post ∧ ∀ c ds st' us, c ≠ '\'' → lexRun .idle (c :: ds) = some (st', us) →
    (∀ w, st = .word w → isWordChar c = false) → lexRun st (c :: ds) = some (st', post ++ us)

theorem closed_of_finish {st : LexState} {post : List Token} (h : st.finish = some post) :
    Closed st post := by
  refine ⟨h, fun c ds st' us hc hrun hword => ?_⟩
  rw [lexRun] at hrun
  simp only [Option.bind_eq_bind, Option.bind_eq_some_iff, Option.pure_def, Option.some.injEq,
    Prod.exists, Prod.mk.injEq] at hrun
  obtain ⟨st₁, ts₁, hstep, st₂, us₁, hrest, rfl, rfl⟩ := hrun
  have hstart : LexState.start c = some (st₁, ts₁) := hstep
  have hnext : st.step c = some (st₁, post ++ ts₁) := by
    cases st with
    | idle =>
      cases h
      exact hstart
    | word w =>
      cases h
      simp only [LexState.step, hword w rfl, LexState.finish, hstart]
      rfl
    | quote acc =>
      cases h
      simp only [LexState.step, if_neg hc, LexState.finish, hstart]
      rfl
    | bang => cases h
    | str acc => cases h
  rw [lexRun, hnext]
  simp only [Option.bind_eq_bind, Option.bind_some, hrest, Option.pure_def, List.append_assoc]

/-- A text that is cut into these tokens wherever it stands behind whole tokens;
it ends outside of words. -/
def Piece (text : String) (ts : List Token) : Prop :=
  ∃ st pre post, lexRun .idle text.toList = some (st, pre) ∧ st.finish = some post ∧
    (∀ w, st ≠ .word w) ∧ ts = pre ++ post

theorem Piece.lex {text : String} {ts : List Token} (h : Piece text ts) : lex text = some ts := by
  obtain ⟨st, pre, post, hrun, hfinish, -, rfl⟩ := h
  rw [Sql.lex, hrun]
  simp only [Option.bind_eq_bind, Option.bind_some, hfinish, Option.pure_def]

theorem Piece.of_idle {text : String} {ts : List Token}
    (h : lexRun .idle text.toList = some (.idle, ts)) : Piece text ts :=
  ⟨.idle, ts, [], h, rfl, nofun, by rw [List.append_nil]⟩

theorem Piece.prefixed {front text : String} {ts us : List Token}
    (h : lexRun .idle front.toList = some (.idle, ts)) (h' : Piece text us) :
    Piece (front ++ text) (ts ++ us) := by
  obtain ⟨st, pre, post, hrun, hfinish, hword, rfl⟩ := h'
  refine ⟨st, ts ++ pre, post, ?_, hfinish, hword, (List.append_assoc ..).symm⟩
  rw [String.toList_append]
  exact lexRun_append h hrun

theorem Piece.append {text more : String} {ts us : List Token} (h : Piece text ts)
    (h' : Piece more us) (hquote : more.toList.head? ≠ some '\'') :
    Piece (text ++ more) (ts ++ us) := by
  obtain ⟨st, pre, post, hrun, hfinish, hword, rfl⟩ := h
  obtain ⟨st', pre', post', hrun', hfinish', hword', rfl⟩ := h'
  cases hmore : more.toList with
  | nil =>
    rw [hmore] at hrun'
    cases hrun'
    cases hfinish'
    refine ⟨st, pre, post, ?_, hfinish, hword, by simp⟩
    rw [String.toList_append, hmore, List.append_nil, hrun]
  | cons c ds =>
    rw [hmore] at hrun' hquote
    have hc : c ≠ '\'' := fun h => hquote (by rw [h]; rfl)
    have hcont := (closed_of_finish hfinish).2 c ds st' pre' hc hrun' fun w h => absurd h (hword w)
    refine ⟨st', pre ++ (post ++ pre'), post', ?_, hfinish', hword', by simp⟩
    rw [String.toList_append, hmore]
    exact lexRun_append hrun hcont

/-- `value.replace('\'', "''")` -/
def escape (value : String) : String :=
  String.ofList (value.toList.flatMap fun c => if c = '\'' then ['\'', '\''] else [c])

def quoted (value : String) : String := "'" ++ escape value ++ "'"

theorem lexRun_escape (cs acc : List Char) :
    lexRun (.str acc) (cs.flatMap fun c => if c = '\'' then ['\'', '\''] else [c]) =
      some (.str (cs.reverse ++ acc), []) := by
  induction cs generalizing acc with
  | nil => rfl
  | cons c cs ih =>
    have hchar : lexRun (.str acc) (if c = '\'' then ['\'', '\''] else [c]) =
        some (.str (c :: acc), []) := by
      by_cases hc : c = '\''
      · subst hc
        rfl
      · simp [hc, lexRun, LexState.step]
    rw [List.flatMap_cons, List.reverse_cons, List.append_assoc, List.singleton_append]
    exact lexRun_append hchar (ih (c :: acc))

theorem lexRun_quoted (value : String) :
    lexRun .idle (quoted value).toList = some (.quote value.toList.reverse, []) := by
  have hopen : lexRun .idle "'".toList = some (.str [], []) := rfl
  have hclose : lexRun (.str (value.toList.reverse ++ [])) "'".toList =
      some (.quote (value.toList.reverse ++ []), []) := rfl
  have h := lexRun_append (lexRun_append hopen (lexRun_escape value.toList [])) hclose
  rw [List.append_nil] at h
  have htext : (quoted value).toList = "'".toList ++
      (value.toList.flatMap fun c => if c = '\'' then ['\'', '\''] else [c]) ++ "'".toList := by
    simp only [quoted, escape, String.toList_append, String.toList_ofList]
  rw [htext]
  exact h

/-- A literal is read as the value, whatever its characters. -/
theorem piece_quoted (value : String) : Piece (quoted value) [.lit value] := by
  refine ⟨_, _, _, lexRun_quoted value, rfl, nofun, ?_⟩
  rw [List.reverse_reverse, String.ofList_toList]
  rfl

theorem escape_append (a b : String) : escape (a ++ b) = escape a ++ escape b := by
  rw [escape, String.toList_append, List.flatMap_append, String.ofList_append]
  rfl

def listTokens : List String → List Token
  | [] => []
  | [s] => [.lit s]
  | s :: values => .lit s :: .comma :: listTokens values

theorem piece_list (s : String) (values : List String) :
    Piece (", ".intercalate ((s :: values).map quoted)) (listTokens (s :: values)) := by
  induction values generalizing s with
  | nil => simpa [listTokens] using piece_quoted s
  | cons t values ih =>
    have hsep : lexRun .idle (quoted s ++ ", ").toList = some (.idle, [.lit s, .comma]) := by
      have hcomma : lexRun (.quote s.toList.reverse) ", ".toList =
          some (.idle, [.lit (String.ofList s.toList.reverse.reverse), .comma]) := rfl
      rw [List.reverse_reverse, String.ofList_toList] at hcomma
      rw [String.toList_append]
      exact lexRun_append (lexRun_quoted s) hcomma
    rw [List.map_cons, List.map_cons, String.intercalate_cons_cons]
    exact Piece.prefixed hsep (ih t)

/-! ## Reading tokens -/

/-- The tokens are read as this condition, whatever follows. -/
def ReadsPrimary (ts : List Token) (e : Expr) : Prop :=
  ∀ n rest, 3 * ts.length ≤ n → parsePrimary n (ts ++ rest) = some (e, rest)

def ReadsAnd (ts : List Token) (e : Expr) : Prop :=
  ∀ n rest, 3 * ts.length + 1 ≤ n → (∀ us, rest ≠ .kwAnd :: us) →
    parseAnd n (ts ++ rest) = some (e, rest)

def ReadsOr (ts : List Token) (e : Expr) : Prop :=
  ∀ n rest, 3 * ts.length + 2 ≤ n → (∀ us, rest ≠ .kwAnd :: us) → (∀ us, rest ≠ .kwOr :: us) →
    parseOr n (ts ++ rest) = some (e, rest)

section
variable {ts us : List Token} {e e' : Expr}

theorem ReadsPrimary.and (h : ReadsPrimary ts e) : ReadsAnd ts e := by
  intro n rest hn hand
  obtain ⟨n, rfl⟩ := Nat.exists_eq_add_of_le' (Nat.le_of_add_left_le hn : 1 ≤ n)
  rw [parseAnd, h n rest (by omega)]
  simp only [Option.bind_eq_bind, Option.bind_some]
  rfl

theorem ReadsPrimary.andThen (h : ReadsPrimary ts e) (h' : ReadsAnd us e') :
    ReadsAnd (ts ++ [.kwAnd] ++ us) (.and e e') := by
  intro n rest hn hand
  obtain ⟨n, rfl⟩ := Nat.exists_eq_add_of_le' (Nat.le_of_add_left_le hn : 1 ≤ n)
  simp only [List.length_append, List.length_singleton] at hn
  rw [List.append_assoc, List.append_assoc, parseAnd, h n _ (by omega)]
  simp only [Option.bind_eq_bind, Option.bind_some, List.singleton_append]
  rw [h' n rest (by omega) hand]
  rfl

theorem ReadsAnd.or (h : ReadsAnd ts e) : ReadsOr ts e := by
  intro n rest hn hand hor
  obtain ⟨n, rfl⟩ := Nat.exists_eq_add_of_le' (Nat.le_of_add_left_le hn : 1 ≤ n)
  rw [parseOr, h n rest (by omega) hand]
  simp only [Option.bind_eq_bind, Option.bind_some]
  rfl

theorem ReadsAnd.orElse (h : ReadsAnd ts e) (h' : ReadsOr us e') :
    ReadsOr (ts ++ [.kwOr] ++ us) (.or e e') := by
  intro n rest hn hand hor
  obtain ⟨n, rfl⟩ := Nat.exists_eq_add_of_le' (Nat.le_of_add_left_le hn : 1 ≤ n)
  simp only [List.length_append, List.length_singleton] at hn
  rw [List.append_assoc, List.append_assoc, parseOr, h n _ (by omega) (by simp)]
  simp only [Option.bind_eq_bind, Option.bind_some, List.singleton_append]
  rw [h' n rest (by omega) hand hor]
  rfl

theorem ReadsOr.paren (h : ReadsOr ts e) : ReadsPrimary ([.lparen] ++ ts ++ [.rparen]) e := by
  intro n rest hn
  simp only [List.length_append, List.length_singleton] at hn
  obtain ⟨n, rfl⟩ := Nat.exists_eq_add_of_le' (by omega : 1 ≤ n)
  rw [List.append_assoc, List.append_assoc, List.singleton_append, parsePrimary,
    h n _ (by omega) (by simp) (by simp)]
  rfl

theorem parseList_tokens (s : String) (values : List String) (rest : List Token) :
    parseList (listTokens (s :: values) ++ .rparen :: rest) = some (s :: values, rest) := by
  induction values generalizing s with
  | nil => rfl
  | cons t values ih =>
    have htokens :
        listTokens (s :: t :: values) = .lit s :: .comma :: listTokens (t :: values) := rfl
    rw [htokens, List.cons_append, List.cons_append, parseList, ih t]
    rfl

theorem readsPrimary_eq (c s : String) : ReadsPrimary [.ident c, .eq, .lit s] (.eq c s) := by
  intro n rest hn
  simp only [List.length_cons] at hn
  obtain ⟨n, rfl⟩ := Nat.exists_eq_add_of_le' (by omega : 1 ≤ n)
  rfl

theorem readsPrimary_ne (c s : String) : ReadsPrimary [.ident c, .ne, .lit s] (.ne c s) := by
  intro n rest hn
  simp only [List.length_cons] at hn
  obtain ⟨n, rfl⟩ := Nat.exists_eq_add_of_le' (by omega : 1 ≤ n)
  rfl

theorem readsPrimary_isNull (c : String) : ReadsPrimary [.ident c, .kwIs, .kwNull] (.isNull c) := by
  intro n rest hn
  simp only [List.length_cons] at hn
  obtain ⟨n, rfl⟩ := Nat.exists_eq_add_of_le' (by omega : 1 ≤ n)
  rfl

theorem readsPrimary_inList (c s : String) (values : List String) :
    ReadsPrimary ([.ident c, .kwIn, .lparen] ++ listTokens (s :: values) ++ [.rparen])
      (.inList c (s :: values)) := by
  intro n rest hn
  simp only [List.length_append, List.length_cons] at hn
  obtain ⟨n, rfl⟩ := Nat.exists_eq_add_of_le' (by omega : 1 ≤ n)
  have htokens : [.ident c, .kwIn, .lparen] ++ listTokens (s :: values) ++ [.rparen] ++ rest =
      .ident c :: .kwIn :: .lparen :: (listTokens (s :: values) ++ .rparen :: rest) := by simp
  rw [htokens, parsePrimary, parseList_tokens]
  rfl

theorem parse_of_readsAnd {text : String} (h : Piece text ts) (h' : ReadsAnd ts e) :
    parse text = some e := by
  have hread := h'.or (3 * ts.length + 2) [] (Nat.le_refl _) nofun nofun
  rw [List.append_nil] at hread
  rw [parse, h.lex]
  simp only [Option.bind_eq_bind, Option.bind_some, hread]
  rfl

end

end AgentPalace.Sql
