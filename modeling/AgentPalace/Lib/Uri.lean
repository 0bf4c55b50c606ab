import Mathlib.Data.List.DropRight

/-!
# Reading a URL

The parts of a URL as RFC 3986 reads them, given the text behind `scheme://`:
the authority ends at the first `/`, `?` or `#`, its user info at the last `@`,
and the host at the port or at the closing bracket.
-/

namespace AgentPalace.Uri

def isDelimiter (c : Char) : Bool := decide (c = '/' ∨ c = '?' ∨ c = '#')

def authority (rest : List Char) : List Char := rest.takeWhile fun c => !isDelimiter c

def hostPort (authority : List Char) : List Char := authority.rtakeWhile (· ≠ '@')

def hostOf : List Char → List Char
  | '[' :: literal => literal.takeWhile (· ≠ ']')
  | hostPort => hostPort.takeWhile (· ≠ ':')

def host (rest : List Char) : List Char := hostOf (hostPort (authority rest))

theorem hostOf_plain {cs : List Char} (h : ∀ literal, cs ≠ '[' :: literal) :
    hostOf cs = cs.takeWhile (· ≠ ':') := by
  unfold hostOf
  split
  · rename_i literal
    exact absurd rfl (h literal)
  · rfl

theorem hostPort_eq_self {cs : List Char} (h : '@' ∉ cs) : hostPort cs = cs := by
  apply List.rtakeWhile_eq_self_iff.2
  intro c hc
  simpa using ne_of_mem_of_not_mem hc h

theorem mem_hostPort {c : Char} {cs : List Char} (h : c ∈ hostPort cs) : c ∈ cs :=
  (List.rtakeWhile_suffix _ cs).subset h

theorem delimiter_not_mem {c : Char} {rest : List Char} (h : c ∈ authority rest) :
    isDelimiter c = false := by
  simpa using List.mem_takeWhile_imp h

/-- Cutting a text where none of the wanted characters is does not change what is taken. -/
theorem takeWhile_cut {p q : Char → Bool} {cs : List Char}
    (h : ∀ c ∈ cs.takeWhile q, p c = true) : (cs.takeWhile p).takeWhile q = cs.takeWhile q := by
  induction cs with
  | nil => rfl
  | cons c cs ih =>
    by_cases hq : q c = true
    · have hp : p c = true := h c (by simp [hq])
      have ih := ih fun d hd => h d (by simp [hq, hd])
      simp [hp, hq, ih]
    · by_cases hp : p c = true <;> simp [hp, hq]

theorem hostOf_takeWhile {p : Char → Bool} {cs : List Char} (hopen : p '[' = true)
    (h : ∀ c ∈ hostOf cs, p c = true) : hostOf (cs.takeWhile p) = hostOf cs := by
  cases cs with
  | nil => rfl
  | cons c cs =>
    by_cases hc : c = '['
    · subst hc
      simp only [List.takeWhile_cons, hopen, if_true]
      exact takeWhile_cut h
    · have hplain : ∀ ds, hostOf (c :: ds) = (c :: ds).takeWhile (· ≠ ':') := by
        intro ds
        apply hostOf_plain
        rintro literal h
        exact hc (List.cons.inj h).1
      rw [hplain] at h ⊢
      have hcut := takeWhile_cut h
      by_cases hp : p c = true
      · rw [List.takeWhile_cons_of_pos hp] at hcut ⊢
        rw [hplain, hcut]
      · rw [List.takeWhile_cons_of_neg hp] at hcut ⊢
        exact hcut

end AgentPalace.Uri
