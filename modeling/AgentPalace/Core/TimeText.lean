import AgentPalace.Core.Time
import AgentPalace.Lib.FixedWidth
import Mathlib.Algebra.Group.Int.Defs
import Mathlib.Data.List.Lex

/-!
# Text order of times

How two RFC 3339 texts compare (`rfc3339_lt`): by the wall-clock readings, except
that a UTC time comes after the times it is cut from to fewer decimals, since
`Z` comes after every digit; and at equal readings by the zone.
-/

namespace AgentPalace.OffsetDateTime

open FixedWidth

/-! ## Calendar -/

section

variable {doe yoe : Int} (hdoe : 0 ≤ doe ∧ doe < 146097)
  (hyoe : yoe = (doe - doe / 1460 + doe / 36524 - doe / 146096) / 365)
include hdoe hyoe

theorem yearOfEra_range : 0 ≤ yoe ∧ yoe ≤ 399 ∧ 0 ≤ doe - (365 * yoe + yoe / 4 - yoe / 100) ∧
    doe - (365 * yoe + yoe / 4 - yoe / 100) ≤ 365 := by
  have hyear : 0 ≤ yoe ∧ yoe ≤ 399 := by omega
  have hcentury : doe / 36524 = 0 ∨ doe / 36524 = 1 ∨ doe / 36524 = 2 ∨ doe / 36524 = 3 ∨
      doe / 36524 = 4 := by omega
  have hhundred : yoe / 100 = 0 ∨ yoe / 100 = 1 ∨ yoe / 100 = 2 ∨ yoe / 100 = 3 := by omega
  refine ⟨hyear.1, hyear.2, ?_, ?_⟩ <;>
    rcases hcentury with hd | hd | hd | hd | hd <;>
    rcases hhundred with hg | hg | hg | hg <;> omega

end

theorem yearOfEra_mono {doe doe' : Int} (h : doe ≤ doe') :
    (doe - doe / 1460 + doe / 36524 - doe / 146096) / 365 ≤
      (doe' - doe' / 1460 + doe' / 36524 - doe' / 146096) / 365 := by
  have hstep : ∀ n : Nat, doe - doe / 1460 + doe / 36524 - doe / 146096 ≤
      doe + n - (doe + n) / 1460 + (doe + n) / 36524 - (doe + n) / 146096 := by
    intro n
    induction n with
    | zero => simp
    | succ n ih => push_cast; omega
  have := hstep (doe' - doe).toNat
  omega

def monthIndex (days : Int) : Int := (civilFromDays days).1 * 12 + (civilFromDays days).2.1

def dayOfMonth (days : Int) : Int := (civilFromDays days).2.2

/-- A day in eras of 400 years that begin in March: `yoe` and `doe` are the year and the day of
the era, `doy` the day of the year, `mp` its month. -/
structure MarchDay (days era doe yoe doy mp : Int) : Prop where
  eraEq : days + 719468 = era * 146097 + doe
  doeRange : 0 ≤ doe ∧ doe < 146097
  yoeEq : yoe = (doe - doe / 1460 + doe / 36524 - doe / 146096) / 365
  yoeRange : 0 ≤ yoe ∧ yoe ≤ 399
  doyEq : doy = doe - (365 * yoe + yoe / 4 - yoe / 100)
  doyRange : 0 ≤ doy ∧ doy ≤ 365
  mpEq : mp = (5 * doy + 2) / 153
  monthIndex : monthIndex days = (yoe + era * 400) * 12 + mp + 3
  month : (civilFromDays days).2.1 = if mp < 10 then mp + 3 else mp - 9
  day : dayOfMonth days = doy - (153 * mp + 2) / 5 + 1

theorem exists_marchDay (days : Int) : ∃ era doe yoe doy mp, MarchDay days era doe yoe doy mp := by
  have hdoe : 0 ≤ days + 719468 - (days + 719468) / 146097 * 146097 ∧
      days + 719468 - (days + 719468) / 146097 * 146097 < 146097 := by omega
  obtain ⟨h1, h2, h3, h4⟩ := yearOfEra_range hdoe rfl
  refine ⟨(days + 719468) / 146097, _, _, _, _, (by omega), hdoe, rfl, ⟨h1, h2⟩, rfl, ⟨h3, h4⟩, rfl, ?_, rfl, rfl⟩
  simp only [monthIndex, civilFromDays]
  split <;> split <;> omega

theorem civil_range (days : Int) : 1 ≤ (civilFromDays days).2.1 ∧ (civilFromDays days).2.1 ≤ 12 ∧
    1 ≤ dayOfMonth days ∧ dayOfMonth days ≤ 31 := by
  obtain ⟨era, doe, yoe, doy, mp, h⟩ := exists_marchDay days
  have hdoy := h.doyRange
  have hmp := h.mpEq
  rw [h.month, h.day]
  split <;> omega

theorem civil_mono {d d' : Int} (h : d < d') :
    monthIndex d < monthIndex d' ∨ monthIndex d = monthIndex d' ∧ dayOfMonth d < dayOfMonth d' := by
  obtain ⟨era, doe, yoe, doy, mp, hd⟩ := exists_marchDay d
  obtain ⟨era', doe', yoe', doy', mp', hd'⟩ := exists_marchDay d'
  rw [hd.monthIndex, hd'.monthIndex, hd.day, hd'.day]
  have hmp : 0 ≤ mp ∧ mp ≤ 11 := by have := hd.mpEq; have := hd.doyRange; omega
  have hmp' : 0 ≤ mp' ∧ mp' ≤ 11 := by have := hd'.mpEq; have := hd'.doyRange; omega
  have hyoe := hd.yoeRange
  have hyoe' := hd'.yoeRange
  rcases Int.lt_trichotomy era era' with hera | rfl | hera
  · omega
  · have hdoe : doe < doe' := by have := hd.eraEq; have := hd'.eraEq; omega
    have hyear : yoe ≤ yoe' := by
      rw [hd.yoeEq, hd'.yoeEq]
      exact yearOfEra_mono hdoe.le
    rcases hyear.lt_or_eq with hlt | rfl
    · omega
    · have hdoy : doy < doy' := by have := hd.doyEq; have := hd'.doyEq; omega
      have := hd.mpEq
      have := hd'.mpEq
      omega
  · have := hd.eraEq
    have := hd'.eraEq
    have := hd.doeRange
    have := hd'.doeRange
    omega

theorem monthIndex_mono {d d' : Int} (h : d ≤ d') : monthIndex d ≤ monthIndex d' := by
  rcases h.lt_or_eq with hlt | rfl
  · rcases civil_mono hlt with h | ⟨h, _⟩ <;> omega
  · exact le_rfl

theorem year_range {days : Int} (h : -719528 ≤ days ∧ days < 2932897) :
    0 ≤ (civilFromDays days).1 ∧ (civilFromDays days).1 < 10000 := by
  have hmonth := civil_range days
  have hfirst : monthIndex (-719528) = 1 := by decide
  have hlast : monthIndex 2932896 = 9999 * 12 + 12 := by decide
  have hlow := monthIndex_mono h.1
  have hhigh := monthIndex_mono (show days ≤ 2932896 by omega)
  rw [hfirst] at hlow
  rw [hlast] at hhigh
  simp only [monthIndex] at hlow hhigh
  omega

/-! ## The parts of the text -/

theorem toList_padded {width : Nat} {n : Int} (h : n.natAbs < 10 ^ (width + 1)) :
    (padded (width + 1) n).toList = digits (width + 1) n.natAbs := by
  have htext : (toString n.natAbs).toList = Nat.toDigits 10 n.natAbs := Nat.toList_repr
  have hlength : (toString n.natAbs).length = (Nat.toDigits 10 n.natAbs).length := by
    rw [← htext, String.length_toList]
  rw [padded, String.toList_append, String.toList_ofList, hlength, htext, replicate_toDigits h]

/-- The text of a fraction of a second. -/
def fractionChars (f : Nat) : List Char := if f = 0 then [] else '.' :: stripped 9 f

theorem toList_fraction {n : Int} (h : 0 ≤ n ∧ n < 1000000000) :
    (fraction n).toList = fractionChars n.toNat := by
  unfold fraction fractionChars
  have hzero : n.toNat = 0 ↔ n = 0 := by omega
  have habs : n.natAbs = n.toNat := by omega
  simp only [hzero]
  split
  · rfl
  · have hdigits : (padded 9 n).toList = digits 9 n.toNat := by
      rw [toList_padded (by omega), habs]
    rw [String.toList_append, hdigits, ← rdropWhile_digits]
    simp only [String.toList_ofList]
    rfl

def zone (offset : Int) : String :=
  if offset = 0 then "Z"
  else (if offset < 0 then "-" else "+") ++ padded 2 (offset.natAbs / 3600) ++ ":" ++
    padded 2 (offset.natAbs / 60 % 60)

/-- The wall-clock second. -/
def seconds (t : OffsetDateTime) : Int := t.localNanos / 1000000000

/-- The nanosecond of the second. -/
def subsec (t : OffsetDateTime) : Nat := (t.localNanos % 1000000000).toNat

/-- What follows the second in the text. -/
def tailChars (t : OffsetDateTime) : List Char := fractionChars t.subsec ++ (zone t.offset).toList

theorem localNanos_eq (t : OffsetDateTime) : t.localNanos = t.seconds * 1000000000 + t.subsec := by
  simp only [seconds, subsec]
  omega

theorem subsec_lt (t : OffsetDateTime) : t.subsec < 10 ^ 9 := by
  simp only [subsec]
  omega

def dayNumber (t : OffsetDateTime) : Int := t.seconds / 86400

theorem dayNumber_range {t : OffsetDateTime} (h : t.Formattable) :
    -719528 ≤ t.dayNumber ∧ t.dayNumber < 2932897 := by
  have hyear := h.year
  simp only [year0, year10000] at hyear
  simp only [dayNumber, seconds]
  omega

/-- The date and the time of day of a text, and what follows. -/
def stamp (t : OffsetDateTime) (rest : List Char) : List Char :=
  digits 4 (civilFromDays t.dayNumber).1.natAbs ++ '-' ::
  (digits 2 (civilFromDays t.dayNumber).2.1.natAbs ++ '-' ::
  (digits 2 (dayOfMonth t.dayNumber).natAbs ++ 'T' ::
  (digits 2 (t.seconds % 86400 / 3600).natAbs ++ ':' ::
  (digits 2 (t.seconds % 86400 / 60 % 60).natAbs ++ ':' ::
  (digits 2 (t.seconds % 86400 % 60).natAbs ++ rest)))))

theorem toList_stamp {t : OffsetDateTime} (h : t.Formattable) (rest : String) :
    (padded 4 (civilFromDays t.dayNumber).1 ++ "-" ++ padded 2 (civilFromDays t.dayNumber).2.1 ++
      "-" ++ padded 2 (dayOfMonth t.dayNumber) ++ "T" ++ padded 2 (t.seconds % 86400 / 3600) ++
      ":" ++ padded 2 (t.seconds % 86400 / 60 % 60) ++ ":" ++ padded 2 (t.seconds % 86400 % 60) ++
      rest).toList = t.stamp rest.toList := by
  have hyear := year_range (dayNumber_range h)
  have hdate := civil_range t.dayNumber
  simp only [String.toList_append]
  rw [toList_padded (by omega), toList_padded (by omega), toList_padded (by omega),
    toList_padded (by omega), toList_padded (by omega), toList_padded (by omega)]
  simp only [List.append_assoc]
  rfl

theorem toList_rfc3339 {t : OffsetDateTime} (h : t.Formattable) :
    t.rfc3339.toList = t.stamp t.tailChars := by
  have htail : (fraction (t.localNanos % 1000000000) ++ zone t.offset).toList = t.tailChars := by
    rw [String.toList_append, toList_fraction (by omega)]
    rfl
  rw [← htail, ← toList_stamp h, ← String.append_assoc]
  rfl

/-! ## Comparing the texts -/

/-- Hour, minute and second of a day compare as its seconds do. -/
theorem clock_lt {s s' : Int} (h : 0 ≤ s ∧ s < 86400) (h' : 0 ≤ s' ∧ s' < 86400) (P : Prop) :
    ((s / 3600).natAbs < (s' / 3600).natAbs ∨ (s / 3600).natAbs = (s' / 3600).natAbs ∧
      ((s / 60 % 60).natAbs < (s' / 60 % 60).natAbs ∨
        (s / 60 % 60).natAbs = (s' / 60 % 60).natAbs ∧
        ((s % 60).natAbs < (s' % 60).natAbs ∨ (s % 60).natAbs = (s' % 60).natAbs ∧ P))) ↔
      s < s' ∨ s = s' ∧ P := by
  have hsplit : ∀ x : Int, 0 ≤ x ∧ x < 86400 → ∃ hour minute second : Nat,
      (x / 3600).natAbs = hour ∧ (x / 60 % 60).natAbs = minute ∧ (x % 60).natAbs = second ∧
      minute < 60 ∧ second < 60 ∧ x = hour * 3600 + minute * 60 + second := by
    intro x hx
    exact ⟨_, _, _, rfl, rfl, rfl, by omega, by omega, by omega⟩
  obtain ⟨hour, minute, second, h1, h2, h3, hm, hs, heq⟩ := hsplit s h
  obtain ⟨hour', minute', second', h1', h2', h3', hm', hs', heq'⟩ := hsplit s' h'
  rw [h1, h2, h3, h1', h2', h3']
  by_cases hP : P <;> simp only [hP, and_true, and_false, or_false] <;> omega

theorem stamp_lt {a b : OffsetDateTime} (ha : a.Formattable) (hb : b.Formattable)
    {xs ys : List Char} :
    a.stamp xs < b.stamp ys ↔ a.seconds < b.seconds ∨ a.seconds = b.seconds ∧ xs < ys := by
  have hya := year_range (dayNumber_range ha)
  have hyb := year_range (dayNumber_range hb)
  have hda := civil_range a.dayNumber
  have hdb := civil_range b.dayNumber
  rw [stamp, stamp, field_lt (by omega) (by omega),
    cons_lt_same, field_lt (by omega) (by omega), cons_lt_same, field_lt (by omega) (by omega),
    cons_lt_same, field_lt (by omega) (by omega), cons_lt_same, field_lt (by omega) (by omega),
    cons_lt_same, field_lt (by omega) (by omega), clock_lt (by omega) (by omega)]
  have hdays : a.seconds / 86400 = a.dayNumber ∧ b.seconds / 86400 = b.dayNumber := ⟨rfl, rfl⟩
  rcases Int.lt_trichotomy a.dayNumber b.dayNumber with hlt | heq | hgt
  · have hdate := civil_mono hlt
    simp only [monthIndex] at hdate
    have hseconds : a.seconds < b.seconds := by omega
    simp only [hseconds, true_or, iff_true]
    omega
  · simp only [heq, lt_irrefl, false_or, true_and]
    by_cases htail : xs < ys <;>
      simp only [htail, and_true, and_false, or_false] <;> omega
  · have hdate := civil_mono hgt
    simp only [monthIndex] at hdate
    by_cases htail : xs < ys <;>
      simp only [htail, and_true, and_false, or_false] <;> omega

theorem rfc3339_lt_seconds {a b : OffsetDateTime} (ha : a.Formattable) (hb : b.Formattable) :
    a.rfc3339 < b.rfc3339 ↔
      a.seconds < b.seconds ∨ a.seconds = b.seconds ∧ a.tailChars < b.tailChars := by
  rw [String.lt_iff, toList_rfc3339 ha, toList_rfc3339 hb, stamp_lt ha hb]

theorem fractionChars_cut {f g : Nat} (hf : f < 10 ^ 9) (hg : g < 10 ^ 9) (hfg : f < g)
    (hcut : Cut 9 f g) : ∃ d rest, (d = '.' ∨ ∃ n < 10, d = n.digitChar) ∧
      fractionChars g = fractionChars f ++ d :: rest := by
  rw [fractionChars, fractionChars, if_neg (by omega : g ≠ 0)]
  split
  · exact ⟨'.', stripped 9 g, .inl rfl, rfl⟩
  · obtain ⟨n, hn, rest, heq⟩ := stripped_cut hf hg hfg hcut
    exact ⟨n.digitChar, rest, .inr ⟨n, hn, rfl⟩, by rw [heq]; rfl⟩

theorem fractionChars_lt {f g : Nat} (hf : f < 10 ^ 9) (hg : g < 10 ^ 9) (hfg : f < g)
    (hcut : ¬ Cut 9 f g) (ps qs : List Char) : fractionChars f ++ ps < fractionChars g ++ qs := by
  have hpos : f ≠ 0 := by
    rintro rfl
    exact hcut ⟨9, le_rfl, by rw [Nat.mod_eq_of_lt hg, Nat.sub_self]⟩
  rw [fractionChars, fractionChars, if_neg hpos, if_neg (by omega : g ≠ 0), List.cons_append,
    List.cons_append, cons_lt_same]
  exact stripped_lt hf hg hfg hcut ps qs

theorem sign_lt {c d : Char} (hc : c = 'Z' ∨ c = '+' ∨ c = '-')
    (hd : d = '.' ∨ ∃ n < 10, d = n.digitChar) : (c < d ↔ c ≠ 'Z') ∧ (d < c ↔ c = 'Z') := by
  rcases hd with rfl | ⟨n, hn, rfl⟩
  · rcases hc with rfl | rfl | rfl <;> decide
  · have hdigits : ∀ n < 10, (c < n.digitChar ↔ c ≠ 'Z') ∧ (n.digitChar < c ↔ c = 'Z') := by
      rcases hc with rfl | rfl | rfl <;> decide
    exact hdigits n hn

theorem fraction_lt {f g : Nat} (hf : f < 10 ^ 9) (hg : g < 10 ^ 9) (hfg : f < g) {c : Char}
    (hc : c = 'Z' ∨ c = '+' ∨ c = '-') (ps qs : List Char) :
    (fractionChars f ++ c :: ps < fractionChars g ++ qs ↔ ¬ (c = 'Z' ∧ Cut 9 f g)) ∧
    (fractionChars g ++ qs < fractionChars f ++ c :: ps ↔ c = 'Z' ∧ Cut 9 f g) := by
  by_cases hcut : Cut 9 f g
  · obtain ⟨d, rest, hd, heq⟩ := fractionChars_cut hf hg hfg hcut
    rw [heq, List.append_assoc, append_lt_iff rfl, append_lt_iff rfl, List.cons_append,
      List.cons_lt_cons_iff, List.cons_lt_cons_iff, (sign_lt hc hd).1, (sign_lt hc hd).2]
    have hne : c ≠ d := by
      rintro rfl
      have hlt := sign_lt hc hd
      by_cases hz : c = 'Z'
      · exact Char.lt_irrefl c (hlt.2.2 hz)
      · exact Char.lt_irrefl c (hlt.1.2 hz)
    simp [hcut, hne, Ne.symm hne]
  · have hlt := fractionChars_lt hf hg hfg hcut (c :: ps) qs
    have hgt : ¬ fractionChars g ++ qs < fractionChars f ++ c :: ps := List.lt_asymm hlt
    simp [hlt, hgt, hcut]

/-! ## Zones -/

/-- Zones east of UTC come first, then those west of it, each by distance, and UTC is last. -/
def zoneRank (offset : Int) : Int :=
  if offset = 0 then 172800 else if offset < 0 then 86400 - offset else offset

theorem zone_chars (offset : Int) : ∃ c rest, (c = 'Z' ∨ c = '+' ∨ c = '-') ∧
    (c = 'Z' ↔ offset = 0) ∧ (zone offset).toList = c :: rest := by
  unfold zone
  by_cases h0 : offset = 0
  · exact ⟨'Z', [], .inl rfl, by simp [h0], by rw [if_pos h0]; rfl⟩
  · rw [if_neg h0]
    simp only [String.toList_append, List.append_assoc]
    by_cases hneg : offset < 0
    · exact ⟨'-', _, .inr (.inr rfl), by simp [h0], by rw [if_pos hneg]; rfl⟩
    · exact ⟨'+', _, .inr (.inl rfl), by simp [h0], by rw [if_neg hneg]; rfl⟩

def zoneDigits (offset : Int) : List Char :=
  digits 2 (offset.natAbs / 3600) ++ ':' :: digits 2 (offset.natAbs / 60 % 60)

theorem toList_zone {offset : Int} (h : offset.natAbs < 86400) (h0 : offset ≠ 0) :
    (zone offset).toList = (if offset < 0 then '-' else '+') :: zoneDigits offset := by
  have hhour : (padded 2 (offset.natAbs / 3600 : Nat)).toList = digits 2 (offset.natAbs / 3600) :=
    toList_padded (by omega)
  have hminute : (padded 2 (offset.natAbs / 60 % 60 : Nat)).toList =
      digits 2 (offset.natAbs / 60 % 60) := toList_padded (by omega)
  have htext : zone offset = (if offset < 0 then "-" else "+") ++
      padded 2 (offset.natAbs / 3600 : Nat) ++ ":" ++ padded 2 (offset.natAbs / 60 % 60 : Nat) :=
    if_neg h0
  rw [htext]
  simp only [String.toList_append, hhour, hminute, List.append_assoc]
  split <;> rfl

theorem zoneDigits_lt {x y : Int} (hx : x.natAbs < 86400) (hy : y.natAbs < 86400)
    (hy60 : y % 60 = 0) : zoneDigits x < zoneDigits y ↔ x.natAbs < y.natAbs := by
  have hend : ∀ m n : Nat, m < 10 ^ 2 → n < 10 ^ 2 → (digits 2 m < digits 2 n ↔ m < n) :=
    fun _ _ => digits_lt
  rw [zoneDigits, zoneDigits, field_lt (by omega) (by omega), cons_lt_same,
    hend _ _ (by omega) (by omega)]
  omega

theorem zone_lt {a b : OffsetDateTime} (ha : a.Formattable) (hb : b.Formattable) :
    (zone a.offset).toList < (zone b.offset).toList ↔ zoneRank a.offset < zoneRank b.offset := by
  have ha' := ha.hours
  have hb' := hb.hours
  have hdigits := zoneDigits_lt ha' hb' hb.minutes
  have hutc : (zone 0).toList = ['Z'] := rfl
  have hchars : ¬ 'Z' < '-' ∧ ¬ 'Z' < '+' ∧ '-' < 'Z' ∧ '+' < 'Z' ∧ '+' < '-' ∧ ¬ '-' < '+' := by
    decide
  unfold zoneRank
  by_cases ha0 : a.offset = 0 <;> by_cases hb0 : b.offset = 0
  · rw [ha0, hb0, hutc]
    simp
  · rw [ha0, hutc, toList_zone hb' hb0, List.cons_lt_cons_iff]
    by_cases hneg : b.offset < 0 <;> simp [hneg, hb0, hchars] <;> omega
  · rw [hb0, hutc, toList_zone ha' ha0, List.cons_lt_cons_iff]
    by_cases hneg : a.offset < 0 <;> simp [hneg, ha0, hchars] <;> omega
  · rw [toList_zone ha' ha0, toList_zone hb' hb0, List.cons_lt_cons_iff, hdigits, if_neg ha0,
      if_neg hb0]
    by_cases hna : a.offset < 0 <;> by_cases hnb : b.offset < 0 <;>
      simp [hna, hnb, hchars] <;> omega

/-! ## The order of the texts -/

/-- `a` reads like `b` cut to fewer decimals of a second. -/
def CutFrom (a b : OffsetDateTime) : Prop :=
  ∃ k ≤ 9, a.localNanos = b.localNanos - b.localNanos % 10 ^ k

instance (a b : OffsetDateTime) : Decidable (CutFrom a b) :=
  decidable_of_iff (∃ k < 10, a.localNanos = b.localNanos - b.localNanos % 10 ^ k)
    (by simp only [CutFrom, Nat.lt_succ_iff])

theorem cutFrom_iff {a b : OffsetDateTime} :
    CutFrom a b ↔ a.seconds = b.seconds ∧ Cut 9 a.subsec b.subsec := by
  have ha := a.localNanos_eq
  have hb := b.localNanos_eq
  have ha9 := a.subsec_lt
  have hmod : ∀ k ≤ 9, b.localNanos % 10 ^ k = (b.subsec % 10 ^ k : Nat) := by
    intro k hk
    have hdvd : (10 : Int) ^ k ∣ 1000000000 := by
      have hnat : ((10 ^ k : Nat) : Int) ∣ ((10 ^ 9 : Nat) : Int) :=
        Int.natCast_dvd_natCast.2 (Nat.pow_dvd_pow 10 hk)
      rwa [Int.natCast_pow] at hnat
    rw [← Int.emod_emod_of_dvd _ hdvd]
    push_cast
    congr 1
    simp only [subsec]
    omega
  constructor
  · rintro ⟨k, hk, hcut⟩
    rw [hmod k hk] at hcut
    have hle := Nat.mod_le b.subsec (10 ^ k)
    have hb9 := b.subsec_lt
    have hseconds : a.seconds = b.seconds := by omega
    exact ⟨hseconds, k, hk, by omega⟩
  · rintro ⟨hseconds, k, hk, hcut⟩
    refine ⟨k, hk, ?_⟩
    have hle := Nat.mod_le b.subsec (10 ^ k)
    rw [hmod k hk]
    omega

/-- The text of `a` is before that of `b`: its wall clock is behind, unless it is a UTC time that
`b` reads on from; or `b` is such a time for `a`; or their clocks agree and its zone is first. -/
def TextBefore (a b : OffsetDateTime) : Prop :=
  a.localNanos < b.localNanos ∧ ¬ (a.offset = 0 ∧ CutFrom a b) ∨
  b.localNanos < a.localNanos ∧ b.offset = 0 ∧ CutFrom b a ∨
  a.localNanos = b.localNanos ∧ zoneRank a.offset < zoneRank b.offset

instance (a b : OffsetDateTime) : Decidable (TextBefore a b) :=
  inferInstanceAs (Decidable (_ ∨ _ ∨ _))

/-- **Texts**: how RFC 3339 texts of times compare. -/
theorem rfc3339_lt {a b : OffsetDateTime} (ha : a.Formattable) (hb : b.Formattable) :
    a.rfc3339 < b.rfc3339 ↔ TextBefore a b := by
  have hna := a.localNanos_eq
  have hnb := b.localNanos_eq
  have ha9 := a.subsec_lt
  have hb9 := b.subsec_lt
  rw [rfc3339_lt_seconds ha hb, TextBefore, cutFrom_iff, cutFrom_iff]
  rcases Int.lt_trichotomy a.seconds b.seconds with hlt | heq | hgt
  · have hclock : a.localNanos < b.localNanos := by omega
    have hne : a.seconds ≠ b.seconds := by omega
    simp [hlt, hclock, hne]
  · obtain ⟨c, rest, hc, hcz, htext⟩ := zone_chars a.offset
    obtain ⟨c', rest', hc', hcz', htext'⟩ := zone_chars b.offset
    simp only [heq, lt_irrefl, false_or, true_and]
    rw [tailChars, tailChars]
    rcases Nat.lt_trichotomy a.subsec b.subsec with hlt | hsub | hgt
    · have hclock : a.localNanos < b.localNanos := by omega
      rw [htext, (fraction_lt ha9 hb9 hlt hc rest _).1, hcz]
      have hback : ¬ b.localNanos < a.localNanos := by omega
      have hne : a.localNanos ≠ b.localNanos := by omega
      simp only [hclock, hback, hne, true_and, false_and, or_false]
    · have hclock : a.localNanos = b.localNanos := by omega
      rw [hsub, append_lt_iff rfl, zone_lt ha hb]
      simp [hclock]
    · have hclock : b.localNanos < a.localNanos := by omega
      rw [htext', (fraction_lt hb9 ha9 hgt hc' rest' _).2, hcz']
      have hback : ¬ a.localNanos < b.localNanos := by omega
      have hne : a.localNanos ≠ b.localNanos := by omega
      simp only [hclock, hback, hne, true_and, false_and, or_false, false_or]
  · have hclock : b.localNanos < a.localNanos := by omega
    have hne : a.seconds ≠ b.seconds := by omega
    have hne' : b.seconds ≠ a.seconds := by omega
    have hback : ¬ a.seconds < b.seconds := by omega
    have hback' : ¬ a.localNanos < b.localNanos := by omega
    have hneq : a.localNanos ≠ b.localNanos := by omega
    simp only [hne, hne', hback, hback', hneq, false_and, and_false, or_false]

theorem rfc3339_inj {a b : OffsetDateTime} (ha : a.Formattable) (hb : b.Formattable)
    (h : a.rfc3339 = b.rfc3339) : a = b := by
  have hab : ¬ TextBefore a b := by
    rw [← rfc3339_lt ha hb, h]
    exact String.lt_irrefl _
  have hba : ¬ TextBefore b a := by
    rw [← rfc3339_lt hb ha, h]
    exact String.lt_irrefl _
  have hhours := ha.hours
  have hhours' := hb.hours
  unfold TextBefore at hab hba
  rcases Int.lt_trichotomy a.localNanos b.localNanos with hlt | heq | hgt
  · by_cases hcut : a.offset = 0 ∧ CutFrom a b
    · exact absurd (.inr (.inl ⟨hlt, hcut⟩)) hba
    · exact absurd (.inl ⟨hlt, hcut⟩) hab
  · have hzone : a.offset = b.offset := by
      have h1 : ¬ zoneRank a.offset < zoneRank b.offset := fun h => hab (.inr (.inr ⟨heq, h⟩))
      have h2 : ¬ zoneRank b.offset < zoneRank a.offset := fun h => hba (.inr (.inr ⟨heq.symm, h⟩))
      unfold zoneRank at h1 h2
      omega
    obtain ⟨nanos, offset⟩ := a
    obtain ⟨nanos', offset'⟩ := b
    obtain rfl : offset = offset' := hzone
    simp only [localNanos] at heq
    congr 1
    omega
  · by_cases hcut : b.offset = 0 ∧ CutFrom b a
    · exact absurd (.inr (.inl ⟨hgt, hcut⟩)) hab
    · exact absurd (.inl ⟨hgt, hcut⟩) hba

theorem textBefore_utc {a b : OffsetDateTime} (ha : a.offset = 0) (hb : b.offset = 0) :
    TextBefore a b ↔ a < b ∧ ¬ CutFrom a b ∨ b < a ∧ CutFrom b a := by
  have hna : a.localNanos = a.nanos := by simp [localNanos, ha]
  have hnb : b.localNanos = b.nanos := by simp [localNanos, hb]
  simp only [TextBefore, ha, hb, hna, hnb, lt_def, true_and, lt_irrefl, and_false, or_false]

theorem CutFrom.le {a b : OffsetDateTime} (h : CutFrom a b) : a.localNanos ≤ b.localNanos := by
  obtain ⟨k, _, hk⟩ := h
  have hpos : (0 : Int) < 10 ^ k := Int.pow_pos (by omega)
  have := Int.emod_nonneg b.localNanos (by omega : (10 : Int) ^ k ≠ 0)
  omega

end AgentPalace.OffsetDateTime
