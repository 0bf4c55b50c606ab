import Mathlib.Order.Basic
import Mathlib.Data.Int.Order.Basic

/-!
# Time

`OffsetDateTime` is the `time` crate's type: an instant, here its nanoseconds
since the Unix epoch, and the UTC offset it is displayed at; it is ordered by
the instant alone. `checkedAdd` stays inside the representable years.

A stored time is a `Timestamp`: the RFC 3339 text of a column, kept as the time
that text parses back to, together with the proof that this time has such a
text at all. `rfc3339` computes the text.
-/

namespace AgentPalace

structure OffsetDateTime where
  /-- Nanoseconds since 1970-01-01T00:00:00Z. -/
  nanos : Int
  /-- Seconds east of UTC. -/
  offset : Int := 0
  deriving DecidableEq

/-- Nanoseconds. -/
abbrev Duration := Int

namespace OffsetDateTime

instance : Preorder OffsetDateTime where
  le a b := a.nanos ≤ b.nanos
  lt a b := a.nanos < b.nanos
  le_refl a := Int.le_refl a.nanos
  le_trans _ _ _ := Int.le_trans
  lt_iff_le_not_ge a b := by
    show a.nanos < b.nanos ↔ a.nanos ≤ b.nanos ∧ ¬ b.nanos ≤ a.nanos
    omega

theorem le_def {a b : OffsetDateTime} : a ≤ b ↔ a.nanos ≤ b.nanos := Iff.rfl

theorem lt_def {a b : OffsetDateTime} : a < b ↔ a.nanos < b.nanos := Iff.rfl

instance (a b : OffsetDateTime) : Decidable (a ≤ b) := inferInstanceAs (Decidable (_ ≤ _))

instance (a b : OffsetDateTime) : Decidable (a < b) := inferInstanceAs (Decidable (_ < _))

theorem not_le {a b : OffsetDateTime} : ¬ a ≤ b ↔ b < a := by rw [le_def, lt_def]; omega

theorem not_lt {a b : OffsetDateTime} : ¬ a < b ↔ b ≤ a := by rw [le_def, lt_def]; omega

/-- The wall-clock reading at the offset, in nanoseconds. -/
def localNanos (t : OffsetDateTime) : Int := t.nanos + t.offset * 1000000000

/-- 0000-01-01T00:00:00, in nanoseconds. -/
def year0 : Int := -62167219200 * 1000000000

/-- 10000-01-01T00:00:00, in nanoseconds. -/
def year10000 : Int := 253402300800 * 1000000000

/-- -9999-01-01T00:00:00, the earliest date, in nanoseconds. -/
def yearMin : Int := -377705116800 * 1000000000

/-- `OffsetDateTime::checked_add`. -/
def checkedAdd (t : OffsetDateTime) (d : Duration) : Option OffsetDateTime :=
  let t' : OffsetDateTime := { t with nanos := t.nanos + d }
  if yearMin ≤ t'.localNanos ∧ t'.localNanos < year10000 then some t' else none

theorem nanos_checkedAdd {t t' : OffsetDateTime} {d : Duration} (h : t.checkedAdd d = some t') :
    t'.nanos = t.nanos + d := by
  simp only [checkedAdd] at h
  split at h
  · cases h; rfl
  · cases h

/-- The time has an RFC 3339 text: a four-digit year and an offset of whole
minutes below a day. -/
structure Formattable (t : OffsetDateTime) : Prop where
  year : year0 ≤ t.localNanos ∧ t.localNanos < year10000
  hours : t.offset.natAbs < 86400
  minutes : t.offset % 60 = 0

instance (t : OffsetDateTime) : Decidable t.Formattable :=
  decidable_of_iff ((year0 ≤ t.localNanos ∧ t.localNanos < year10000) ∧
    t.offset.natAbs < 86400 ∧ t.offset % 60 = 0)
    ⟨fun h => ⟨h.1, h.2.1, h.2.2⟩, fun h => ⟨h.1, h.2, h.3⟩⟩

/-! ## The text -/

/-- Year, month and day of a day count from the epoch. -/
def civilFromDays (days : Int) : Int × Int × Int :=
  let z := days + 719468
  let era := z / 146097
  let doe := z - era * 146097
  let yoe := (doe - doe / 1460 + doe / 36524 - doe / 146096) / 365
  let doy := doe - (365 * yoe + yoe / 4 - yoe / 100)
  let mp := (5 * doy + 2) / 153
  let day := doy - (153 * mp + 2) / 5 + 1
  let month := if mp < 10 then mp + 3 else mp - 9
  (yoe + era * 400 + (if month ≤ 2 then 1 else 0), month, day)

def padded (width : Nat) (n : Int) : String :=
  let digits := toString n.natAbs
  String.ofList (List.replicate (width - digits.length) '0') ++ digits

/-- The fraction of a second, without trailing zeros. -/
def fraction (nanos : Int) : String :=
  if nanos = 0 then ""
  else "." ++ String.ofList ((padded 9 nanos).toList.reverse.dropWhile (· = '0')).reverse

def rfc3339 (t : OffsetDateTime) : String :=
  let seconds := t.localNanos / 1000000000
  let (year, month, day) := civilFromDays (seconds / 86400)
  let s := seconds % 86400
  let zone :=
    if t.offset = 0 then "Z"
    else (if t.offset < 0 then "-" else "+") ++ padded 2 (t.offset.natAbs / 3600) ++ ":" ++
      padded 2 (t.offset.natAbs / 60 % 60)
  padded 4 year ++ "-" ++ padded 2 month ++ "-" ++ padded 2 day ++ "T" ++ padded 2 (s / 3600) ++
    ":" ++ padded 2 (s / 60 % 60) ++ ":" ++ padded 2 (s % 60) ++
    fraction (t.localNanos % 1000000000) ++ zone

end OffsetDateTime

structure Timestamp where
  time : OffsetDateTime
  formattable : time.Formattable
  deriving DecidableEq

namespace Timestamp

def text (t : Timestamp) : String := t.time.rfc3339

/-- SQLite's `julianday`, in whole milliseconds of the epoch: the fraction of a
second is rounded half up, and there is no day past the year 9999. -/
def julianday (t : Timestamp) : Option Int :=
  let millis := (t.time.nanos + 500000) / 1000000
  if millis < 253402300800000 then some millis else none

/-- `julianday(s) <= julianday(t)`; a comparison with `NULL` is not true. -/
def juliandayLe (s t : Timestamp) : Bool :=
  match s.julianday, t.julianday with
  | some a, some b => a ≤ b
  | _, _ => false

end Timestamp

end AgentPalace
