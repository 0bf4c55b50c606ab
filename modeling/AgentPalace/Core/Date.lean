import AgentPalace.Core.TimeText

/-!
# Dates

`Date` is the `time` crate's type: a day of the years -9999 to 9999. Its text,
`[year]-[month]-[day]`, determines it.
-/

namespace AgentPalace

open OffsetDateTime FixedWidth

structure Date where
  /-- Days since 1970-01-01. -/
  days : Int
  range : -4371587 ≤ days ∧ days ≤ 2932896
  deriving DecidableEq

namespace Date

instance : LE Date := ⟨fun a b => a.days ≤ b.days⟩

instance (a b : Date) : Decidable (a ≤ b) := inferInstanceAs (Decidable (_ ≤ _))

/-- `[year]-[month]-[day]`; only a negative year has a sign. -/
def text (d : Date) : String :=
  let (year, month, day) := civilFromDays d.days
  (if year < 0 then "-" else "") ++ padded 4 year ++ "-" ++ padded 2 month ++ "-" ++ padded 2 day

theorem year_range (d : Date) :
    -9999 ≤ (civilFromDays d.days).1 ∧ (civilFromDays d.days).1 ≤ 9999 := by
  have hmonth := civil_range d.days
  have hfirst : monthIndex (-4371587) = -9999 * 12 + 1 := by decide
  have hlast : monthIndex 2932896 = 9999 * 12 + 12 := by decide
  have hlow := monthIndex_mono d.range.1
  have hhigh := monthIndex_mono d.range.2
  rw [hfirst] at hlow
  rw [hlast] at hhigh
  simp only [monthIndex] at hlow hhigh
  omega

theorem toList_text (d : Date) :
    d.text.toList = (if (civilFromDays d.days).1 < 0 then ['-'] else []) ++
      (digits 4 (civilFromDays d.days).1.natAbs ++ '-' ::
        (digits 2 (civilFromDays d.days).2.1.natAbs ++ '-' ::
          digits 2 (dayOfMonth d.days).natAbs)) := by
  have hyear := d.year_range
  have hdate := civil_range d.days
  have htext : d.text = (if (civilFromDays d.days).1 < 0 then "-" else "") ++
      padded 4 (civilFromDays d.days).1 ++ "-" ++ padded 2 (civilFromDays d.days).2.1 ++ "-" ++
      padded 2 (dayOfMonth d.days) := rfl
  rw [htext]
  simp only [String.toList_append]
  rw [toList_padded (by omega), toList_padded (by omega), toList_padded (by omega)]
  simp only [List.append_assoc]
  split <;> rfl

theorem text_inj {d d' : Date} (h : d.text = d'.text) : d = d' := by
  have hyear := d.year_range
  have hyear' := d'.year_range
  have hdate := civil_range d.days
  have hdate' := civil_range d'.days
  have htext := congrArg String.toList h
  rw [toList_text, toList_text] at htext
  have hhead : ∀ (m n : Nat) (xs ys : List Char), digits 4 m ++ xs ≠ '-' :: (digits 4 n ++ ys) := by
    intro m n xs ys heq
    have hmem : '-' ∈ digits 4 m := by
      have hcons : digits 4 m = (m / 10 ^ 3 % 10).digitChar :: digits 3 m := rfl
      rw [hcons, List.cons_append, List.cons.injEq] at heq
      rw [hcons, heq.1]
      exact List.mem_cons_self
    have := isDigit_of_mem_digits hmem
    revert this
    decide
  have hfields : ((civilFromDays d.days).1 < 0 ↔ (civilFromDays d'.days).1 < 0) ∧
      digits 4 (civilFromDays d.days).1.natAbs ++ '-' ::
        (digits 2 (civilFromDays d.days).2.1.natAbs ++ '-' ::
          digits 2 (dayOfMonth d.days).natAbs) =
      digits 4 (civilFromDays d'.days).1.natAbs ++ '-' ::
        (digits 2 (civilFromDays d'.days).2.1.natAbs ++ '-' ::
          digits 2 (dayOfMonth d'.days).natAbs) := by
    by_cases hneg : (civilFromDays d.days).1 < 0 <;>
      by_cases hneg' : (civilFromDays d'.days).1 < 0
    · rw [if_pos hneg, if_pos hneg'] at htext
      exact ⟨iff_of_true hneg hneg', List.append_cancel_left htext⟩
    · rw [if_pos hneg, if_neg hneg'] at htext
      exact absurd htext.symm (hhead _ _ _ _)
    · rw [if_neg hneg, if_pos hneg'] at htext
      exact absurd htext (hhead _ _ _ _)
    · rw [if_neg hneg, if_neg hneg'] at htext
      exact ⟨iff_of_false hneg hneg', List.append_cancel_left htext⟩
  obtain ⟨hsign, heq⟩ := hfields
  obtain ⟨hy, heq⟩ := List.append_inj heq (by simp)
  obtain ⟨hm, heq⟩ := List.append_inj (List.cons.inj heq).2 (by simp)
  have hy := (digits_inj (by omega) (by omega)).1 hy
  have hm := (digits_inj (by omega) (by omega)).1 hm
  have hd := (digits_inj (by omega) (by omega)).1 (List.cons.inj heq).2
  have hdays : d.days = d'.days := by
    rcases Int.lt_trichotomy d.days d'.days with hlt | heq | hlt
    · have := civil_mono hlt
      simp only [monthIndex] at this
      omega
    · exact heq
    · have := civil_mono hlt
      simp only [monthIndex] at this
      omega
  obtain ⟨days, _⟩ := d
  obtain ⟨days', _⟩ := d'
  simp only at hdays
  simp only [hdays]

end Date

end AgentPalace
