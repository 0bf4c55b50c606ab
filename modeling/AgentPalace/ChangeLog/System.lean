import AgentPalace.ChangeLog.Store
import AgentPalace.Lib.Machine
import Mathlib.Order.CompletePartialOrder
import Mathlib.Order.CompleteBooleanAlgebra

/-!
# The change log as a system

Any processes append to the log in any order, each append in a transaction of
its own. An append is refused, finds its event, or adds its row (`Outcome`).
-/

namespace AgentPalace.ChangeLog

inductive Call where
  | appendEvent (event : ChangeEvent)
  | appendEventWithOperation (event : ChangeEvent) (operationId : String)
  | appendEventIfAbsent (event : ChangeEvent)
  | appendEventIfAbsentWithOperation (event : ChangeEvent) (operationId : String)

/-- What an append answers; the unconditional ones answer nothing, here `true`. -/
abbrev Answer := Except StorageError Bool

namespace Call

def body : Call → CTx Bool
  | appendEvent event => (fun _ => true) <$> ChangeLog.appendEvent event
  | appendEventWithOperation event operationId =>
    (fun _ => true) <$> ChangeLog.appendEventWithOperation event operationId
  | appendEventIfAbsent event => ChangeLog.appendEventIfAbsent event
  | appendEventIfAbsentWithOperation event operationId =>
    ChangeLog.appendEventIfAbsentWithOperation event operationId

def execute (c : Call) (db : ChangeDb) : Answer × ChangeDb := c.body.run db

def payload : Call → ChangeEvent × Option String
  | appendEvent event => (event, none)
  | appendEventWithOperation event operationId => (event, some operationId)
  | appendEventIfAbsent event => (event, none)
  | appendEventIfAbsentWithOperation event operationId => (event, some operationId)

def checks : Call → Bool
  | appendEvent _ => false
  | appendEventWithOperation _ _ => false
  | appendEventIfAbsent _ => true
  | appendEventIfAbsentWithOperation _ _ => true

end Call

def store : TimedStore ChangeDb Call Answer Unit where
  init := .empty
  now _ := ()
  exec := Call.execute

abbrev State := World ChangeDb Unit

abbrev Label := Served Call Answer

def system : Machine State Label := store.machine

theorem init_empty : system.Init ⟨store.init, ()⟩ := rfl

/-! ## What one append can do -/

inductive Outcome (db : ChangeDb) (call : Call) : Answer → ChangeDb → Prop where
  | refused {e : StorageError} : Outcome db call (.error e) db
  /-- The row has the change id of another one. -/
  | ignored (h : call.checks = false) : Outcome db call (.ok true) db
  | present (h : call.checks = true) (hpresent : isPresent db call.payload.1 call.payload.2 = true) :
      Outcome db call (.ok false) db
  | added {rowid : Int} {changes : Series ChangeRow.changeId ChangeRow.rowid}
      (h : call.checks = true → isPresent db call.payload.1 call.payload.2 = false)
      (hrows : changes.rows = db.changes.rows ++ [newRow call.payload.1 call.payload.2 rowid]) :
      Outcome db call (.ok true) { db with changes := changes }

section
open Tx

variable (event : ChangeEvent) (operationId : Option String) (db : ChangeDb) {call : Call}
  (hpayload : call.payload = (event, operationId))
include hpayload

theorem append_outcome (hchecks : call.checks = false) :
    Outcome db call (((fun _ => true) <$> appendEventInner event operationId).run db).1
      (((fun _ => true) <$> appendEventInner event operationId).run db).2 := by
  rw [run_map]
  cases happend : db.changes.append? (newRow event operationId) with
  | ok changes =>
    have hrun : (appendEventInner event operationId).run db =
        (.ok (), { db with changes := changes }) := by
      simp only [appendEventInner, Tx.run, bind, Tx.exec, happend, Tx.commit]
    rw [hrun]
    have hrows := (Series.rows_append? happend).1
    exact .added (fun h => by rw [hchecks] at h; cases h) (by rw [hpayload]; exact hrows)
  | error fault =>
    cases fault with
    | uniqueViolation =>
      have hrun : (appendEventInner event operationId).run db = (.ok (), db) := by
        simp only [appendEventInner, Tx.run, bind, Tx.exec, happend, Tx.commit]
      rw [hrun]
      exact .ignored hchecks
    | full =>
      rw [appendEventInner, run_exec_error (x := .sqlite .full) (by rw [happend])]
      exact .refused
    | columnType =>
      rw [appendEventInner, run_exec_error (x := .sqlite .columnType) (by rw [happend])]
      exact .refused

theorem ifAbsent_outcome (hchecks : call.checks = true) :
    Outcome db call ((appendEventIfAbsentInner event operationId).run db).1
      ((appendEventIfAbsentInner event operationId).run db).2 := by
  rw [appendEventIfAbsentInner, run_query]
  cases hpresent : isPresent db event operationId with
  | true => exact .present hchecks (by rw [hpayload]; exact hpresent)
  | false =>
    rw [if_neg (by simp)]
    cases happend : db.changes.append? (newRow event operationId) with
    | ok changes =>
      rw [run_exec_commit (d := { db with changes := changes }) (a := true) (by rw [happend]; rfl)
        _ fun _ => rfl]
      have hrows := (Series.rows_append? happend).1
      exact .added (fun _ => by rw [hpayload]; exact hpresent) (by rw [hpayload]; exact hrows)
    | error fault =>
      rw [run_exec_error (x := .sqlite fault) (by rw [happend]; rfl)]
      exact .refused

end

theorem execute_outcome (call : Call) (db : ChangeDb) :
    Outcome db call (call.execute db).1 (call.execute db).2 := by
  cases call with
  | appendEvent event => exact append_outcome event none db rfl rfl
  | appendEventWithOperation event operationId =>
    exact append_outcome event (some operationId) db rfl rfl
  | appendEventIfAbsent event => exact ifAbsent_outcome event none db rfl rfl
  | appendEventIfAbsentWithOperation event operationId =>
    exact ifAbsent_outcome event (some operationId) db rfl rfl

theorem step_outcome {w w' : State} {l : Label} (h : system.Step w l w') :
    Outcome w.db l.call l.answer w'.db := by
  obtain ⟨_, hexec, _⟩ := h
  have hexec : l.call.execute w.db = (l.answer, w'.db) := hexec
  have houtcome := execute_outcome l.call w.db
  rwa [hexec] at houtcome

end AgentPalace.ChangeLog
