import AgentPalace.Graph.Outcome
import AgentPalace.Lib.Machine
import Mathlib.Order.CompletePartialOrder
import Mathlib.Order.CompleteBooleanAlgebra

/-!
# The graph as a system

Any processes add and invalidate facts and write the registry, in any order,
each call at a time of its own.
-/

namespace AgentPalace.Graph

inductive Call where
  | addFact (request : AddFactRequest) (now : OffsetDateTime)
      (provenance : Option PersistedProvenance)
  | invalidate (subject predicate object : String) (endedAt : Date) (now : OffsetDateTime)
      (provenance : Option PersistedProvenance)
  | invalidateActiveFact (subjectEntityId predicate objectEntityId : String) (endedAt : Date)
      (now : OffsetDateTime)
  | upsertEntity (entity : EntityRecord)

/-- What a call answers: a fact's id, the number of facts it ended, or nothing. -/
inductive Reply where
  | fact (id : String)
  | ended (count : Nat)
  | done
  deriving DecidableEq

abbrev Answer := Except GraphError Reply

namespace Call

def body : Call → GTx Reply
  | addFact request now provenance => .fact <$> addFactWithProvenance request now provenance
  | invalidate subject predicate object endedAt now provenance =>
    .ended <$> invalidateWithProvenance subject predicate object endedAt now provenance
  | invalidateActiveFact s p o endedAt now => .ended <$> Graph.invalidateActiveFact s p o endedAt now
  | upsertEntity entity => (fun _ => .done) <$> Graph.upsertEntity entity

def execute (c : Call) (db : GraphDb) : Answer × GraphDb := c.body.run db

end Call

def store : TimedStore GraphDb Call Answer Unit where
  init := .empty
  now _ := ()
  exec := Call.execute

abbrev State := World GraphDb Unit

abbrev Label := Served Call Answer

def system : Machine State Label := store.machine

inductive Outcome (db : GraphDb) : Call → Answer → GraphDb → Prop where
  | added {request : AddFactRequest} {now : OffsetDateTime}
      {provenance : Option PersistedProvenance} {answer : Except GraphError String} {db' : GraphDb}
      (h : Added db request now provenance answer db') :
      Outcome db (.addFact request now provenance) (answer.map .fact) db'
  | closed {call : Call} {answer : Answer} {db' : GraphDb} (h : Closes db db') :
      Outcome db call answer db'
  | registry {entity : EntityRecord} {answer : Answer} {db' : GraphDb} (h : db'.facts = db.facts) :
      Outcome db (.upsertEntity entity) answer db'

theorem execute_outcome (call : Call) (db : GraphDb) :
    Outcome db call (call.execute db).1 (call.execute db).2 := by
  cases call with
  | addFact request now provenance =>
    have houtcome := addFact_outcome request now provenance db
    simp only [Call.execute, Call.body, Tx.run_map]
    exact .added houtcome
  | invalidate subject predicate object endedAt now provenance =>
    have houtcome := invalidate_closes subject predicate object endedAt now provenance db
    simp only [Call.execute, Call.body, Tx.run_map]
    exact .closed houtcome
  | invalidateActiveFact s p o endedAt now =>
    have houtcome := invalidateActiveFact_closes s p o endedAt now db
    simp only [Call.execute, Call.body, Tx.run_map]
    exact .closed houtcome
  | upsertEntity entity => exact .registry rfl

theorem step_outcome {w w' : State} {l : Label} (h : system.Step w l w') :
    Outcome w.db l.call l.answer w'.db := by
  obtain ⟨_, hexec, _⟩ := h
  have hexec : l.call.execute w.db = (l.answer, w'.db) := hexec
  have houtcome := execute_outcome l.call w.db
  rwa [hexec] at houtcome

theorem step_addFact {w w' : State} {request : AddFactRequest} {now : OffsetDateTime}
    {provenance : Option PersistedProvenance} {id : String}
    (h : system.Step w ⟨.addFact request now provenance, .ok (.fact id)⟩ w') :
    Added w.db request now provenance (.ok id) w'.db := by
  obtain ⟨_, hexec, _⟩ := h
  have hexec : (Reply.fact <$> addFactWithProvenance request now provenance).run w.db =
    (.ok (.fact id), w'.db) := hexec
  have houtcome := addFact_outcome request now provenance w.db
  rw [Tx.run_map] at hexec
  obtain ⟨hanswer, hdb⟩ := Prod.mk.inj hexec
  rw [hdb] at houtcome
  cases hr : ((addFactWithProvenance request now provenance).run w.db).1 with
  | error e => rw [hr] at hanswer; cases hanswer
  | ok id' =>
    rw [hr] at hanswer houtcome
    cases hanswer
    exact houtcome

end AgentPalace.Graph
