import Mathlib.Order.Basic

/-!
# Delivery in order, group by group

A queue holds entries, each in a group and at a position. An entry waits, is in
flight, and is then delivered or dropped. New entries, and dropped ones that
come back, go to the end; an entry may only go in flight while it is the head
of its group: no earlier entry of the group is still active.

Whatever moves happen in whatever order, at most one entry of a group is in
flight, and an entry that is delivered has overtaken nothing: what is still
active stands behind it (`Fifo`).
-/

namespace AgentPalace

inductive Stage where
  | waiting | inFlight | delivered | dropped
  deriving DecidableEq

def Stage.active : Stage → Bool
  | .waiting | .inFlight => true
  | .delivered | .dropped => false

structure Entry (γ : Type) where
  position : Int
  group : γ
  stage : Stage

def Queue (ι γ : Type) : Type := ι → Option (Entry γ)

namespace Queue

variable {ι γ : Type}

/-- Nothing active of the group stands before the entry. -/
def Head (q : Queue ι γ) (e : Entry γ) : Prop :=
  ∀ j p, q j = some p → p.group = e.group → p.position < e.position → p.stage.active = false

/-- How the entry under a name becomes `e`. -/
inductive Move (q : Queue ι γ) : Option (Entry γ) → Entry γ → Prop where
  | push {old : Option (Entry γ)} {e : Entry γ} (hlast : ∀ j p, q j = some p → p.position < e.position)
      (hstage : e.stage = .waiting) (hold : ∀ p, old = some p → p.stage = .dropped) : Move q old e
  | keep {e : Entry γ} : Move q (some e) e
  | start {e : Entry γ} (hactive : e.stage.active = true) (hhead : q.Head e) :
      Move q (some e) { e with stage := .inFlight }
  | retry {e : Entry γ} (hflight : e.stage = .inFlight) :
      Move q (some e) { e with stage := .waiting }
  | deliver {e : Entry γ} (hflight : e.stage = .inFlight) :
      Move q (some e) { e with stage := .delivered }
  | drop {e : Entry γ} (hactive : e.stage.active = true) :
      Move q (some e) { e with stage := .dropped }

inductive Step (q q' : Queue ι γ) : Prop where
  | idle (h : q' = q)
  | move {i : ι} {e : Entry γ} (hmove : Move q (q i) e) (hset : q' i = some e)
      (hothers : ∀ j, j ≠ i → q' j = q j)

structure Fifo (q : Queue ι γ) : Prop where
  distinct : ∀ {i j a b}, q i = some a → q j = some b → a.position = b.position → i = j
  head : ∀ {i a}, q i = some a → a.stage = .inFlight → q.Head a
  passed : ∀ {i j a b}, q i = some a → q j = some b → a.group = b.group →
    a.stage = .delivered → b.stage.active = true → a.position < b.position

theorem Fifo.one_in_flight {q : Queue ι γ} (h : q.Fifo) {i j : ι} {a b : Entry γ}
    (ha : q i = some a) (hb : q j = some b) (hg : a.group = b.group) (hfa : a.stage = .inFlight)
    (hfb : b.stage = .inFlight) : i = j := by
  rcases Int.lt_trichotomy a.position b.position with hlt | heq | hgt
  · have := h.head hb hfb i a ha hg hlt
    simp [hfa, Stage.active] at this
  · exact h.distinct ha hb heq
  · have := h.head ha hfa j b hb hg.symm hgt
    simp [hfb, Stage.active] at this

section
variable {q : Queue ι γ} {old : Option (Entry γ)} {e : Entry γ}

theorem Move.place (h : Move q old e) :
    (∃ p, old = some p ∧ p.position = e.position ∧ p.group = e.group ∧
      (e.stage.active = true → p.stage.active = true)) ∨
    ∀ j p, q j = some p → p.position < e.position := by
  cases h with
  | push hlast => exact .inr hlast
  | keep => exact .inl ⟨_, rfl, rfl, rfl, id⟩
  | start hactive => exact .inl ⟨_, rfl, rfl, rfl, fun _ => hactive⟩
  | retry hflight => exact .inl ⟨_, rfl, rfl, rfl, fun _ => by rw [hflight]; rfl⟩
  | deliver => exact .inl ⟨_, rfl, rfl, rfl, nofun⟩
  | drop => exact .inl ⟨_, rfl, rfl, rfl, nofun⟩

theorem Move.head (hq : q.Fifo) {i : ι} (hi : q i = old) (h : Move q old e)
    (he : e.stage = .inFlight) : q.Head e := by
  cases h with
  | push _ hstage => rw [hstage] at he; cases he
  | keep => exact hq.head hi he
  | start _ hhead => exact hhead
  | retry => cases he
  | deliver => cases he
  | drop => cases he

theorem Move.delivered (h : Move q old e) (he : e.stage = .delivered) :
    ∃ p, old = some p ∧ p.position = e.position ∧ p.group = e.group ∧
      (p.stage = .delivered ∨ p.stage = .inFlight) := by
  cases h with
  | push _ hstage => rw [hstage] at he; cases he
  | keep => exact ⟨_, rfl, rfl, rfl, .inl he⟩
  | start => cases he
  | retry => cases he
  | deliver hflight => exact ⟨_, rfl, rfl, rfl, .inr hflight⟩
  | drop => cases he

end

section
variable {q q' : Queue ι γ} {i : ι} {e : Entry γ}

theorem entry_cases (hset : q' i = some e) (hothers : ∀ j, j ≠ i → q' j = q j) {j : ι}
    {p : Entry γ} (hp : q' j = some p) : (j = i ∧ p = e) ∨ (j ≠ i ∧ q j = some p) := by
  by_cases hj : j = i
  · subst hj
    rw [hset] at hp
    exact .inl ⟨rfl, (Option.some.inj hp).symm⟩
  · exact .inr ⟨hj, hothers j hj ▸ hp⟩

theorem Fifo.apart (h : q.Fifo) (hmove : Move q (q i) e) {j : ι} {p : Entry γ} (hj : j ≠ i)
    (hp : q j = some p) : p.position ≠ e.position := by
  intro heq
  rcases hmove.place with ⟨old, hold, hpos, _⟩ | hlast
  · exact hj (h.distinct hp hold (heq.trans hpos.symm))
  · have := hlast j p hp
    omega

theorem Fifo.overtakes_none (h : q.Fifo) (hmove : Move q (q i) e) (he : e.stage = .delivered)
    {j : ι} {b : Entry γ} (hj : j ≠ i) (hb : q j = some b) (hg : e.group = b.group)
    (hactive : b.stage.active = true) : e.position < b.position := by
  obtain ⟨old, hold, hpos, hgroup, hstage⟩ := hmove.delivered he
  have hapart := h.apart hmove hj hb
  rcases hstage with hdone | hflight
  · have := h.passed hold hb (hgroup.trans hg) hdone hactive
    omega
  · by_contra hlt
    have hbefore := h.head hold hflight j b hb (hg.symm.trans hgroup.symm) (by omega)
    rw [hbefore] at hactive
    cases hactive

theorem Fifo.move (h : q.Fifo) (hmove : Move q (q i) e) (hset : q' i = some e)
    (hothers : ∀ j, j ≠ i → q' j = q j) : q'.Fifo where
  distinct := by
    intro j k a b ha hb hpos
    rcases entry_cases hset hothers ha with ⟨rfl, rfl⟩ | ⟨hj, ha⟩ <;>
      rcases entry_cases hset hothers hb with ⟨rfl, rfl⟩ | ⟨hk, hb⟩
    · rfl
    · exact absurd hpos.symm (h.apart hmove hk hb)
    · exact absurd hpos (h.apart hmove hj ha)
    · exact h.distinct ha hb hpos
  head := by
    intro j a ha hflight k p hp hgroup hlt
    rcases entry_cases hset hothers ha with ⟨rfl, rfl⟩ | ⟨hj, ha⟩ <;>
      rcases entry_cases hset hothers hp with ⟨rfl, rfl⟩ | ⟨hk, hp⟩
    · omega
    · exact hmove.head h rfl hflight k p hp hgroup hlt
    · -- the moved entry stands before one in flight, so it was not active
      rcases hmove.place with ⟨old, hold, hpos, hg, hactive⟩ | hlast
      · have := h.head ha hflight k old hold (hg.trans hgroup) (by omega)
        rw [this] at hactive
        simpa using hactive
      · have := hlast j a ha
        omega
    · exact h.head ha hflight k p hp hgroup hlt
  passed := by
    intro j k a b ha hb hgroup hdone hactive
    rcases entry_cases hset hothers ha with ⟨rfl, rfl⟩ | ⟨hj, ha⟩ <;>
      rcases entry_cases hset hothers hb with ⟨rfl, rfl⟩ | ⟨hk, hb⟩
    · rw [hdone] at hactive
      cases hactive
    · exact h.overtakes_none hmove hdone hk hb hgroup hactive
    · rcases hmove.place with ⟨old, hold, hpos, hg, hwas⟩ | hlast
      · have := h.passed ha hold (hgroup.trans hg.symm) hdone (hwas hactive)
        omega
      · exact hlast j a ha
    · exact h.passed ha hb hgroup hdone hactive

end

/-- **No step overtakes.** -/
theorem Fifo.step {q q' : Queue ι γ} (h : q.Fifo) (hs : Step q q') : q'.Fifo := by
  cases hs with
  | idle hq => rw [hq]; exact h
  | move hmove hset hothers => exact h.move hmove hset hothers

def empty : Queue ι γ := fun _ => none

theorem fifo_empty : (empty : Queue ι γ).Fifo where
  distinct := nofun
  head := nofun
  passed := nofun

end Queue

end AgentPalace
