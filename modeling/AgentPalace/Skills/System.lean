import AgentPalace.Lib.Machine
import AgentPalace.Skills.Store
import Mathlib.Order.CompletePartialOrder
import Mathlib.Order.CompleteBooleanAlgebra

/-!
# The skill registry as a system

Any actors call the registry in any order, each call in a transaction of its
own; no call depends on the order of the clock readings, so the system has no
clock.
-/

namespace AgentPalace.Skills

inductive Call where
  | proposeSkill (input : NewSkill)
  | recordOutcome (input : NewSkillOutcome)
  | promoteSkill (id : String) (version expectedRevision : Int) (reviewer reason : String)
  | retireSkill (id : String) (version expectedRevision : Int) (reviewer reason : String)

inductive Reply where
  | skill (value : Skill)
  | outcome (value : SkillOutcome)
  | write (value : RevisionedWrite Skill)
  deriving DecidableEq

abbrev Answer := Except StorageError Reply

structure Request where
  host : Host
  call : Call

namespace Request

def body (r : Request) : STx Reply :=
  match r.call with
  | .proposeSkill input => .skill <$> proposeSkill r.host input
  | .recordOutcome input => .outcome <$> recordOutcome r.host input
  | .promoteSkill id version expectedRevision reviewer reason =>
    .write <$> promoteSkill r.host id version expectedRevision reviewer reason
  | .retireSkill id version expectedRevision reviewer reason =>
    .write <$> retireSkill r.host id version expectedRevision reviewer reason

def execute (r : Request) (db : SkillDb) : Answer × SkillDb := r.body.run db

end Request

def store : TimedStore SkillDb Request Answer Unit where
  init := .empty
  now _ := ()
  exec := Request.execute

abbrev State := World SkillDb Unit

abbrev Label := Served Request Answer

def system : Machine State Label := store.machine

/-! ## A sample registry -/

def sampleHost (uuid : String) : Host :=
  { now := ⟨0, 0⟩, uuid, eventUuid := uuid ++ "e", blake3 := id }

/-- A version of the skill `deploy` by `ada`. -/
def sampleSkill (scope : SkillScope) (key : String) : NewSkill :=
  { skillId := "deploy", scope, wing := none, applicability := "", instructionsRef := "ref"
    requiredCapabilities := [], requiredTools := [], requiredPermissions := [], author := "ada"
    provenance := none, confidence := .finite 1, idempotencyKey := key }

/-- The first version is for the whole organization, tried out and promoted by
`bob`. -/
def samplePromotion : List Request :=
  [⟨sampleHost "1", .proposeSkill (sampleSkill .organization "k1")⟩,
    ⟨sampleHost "2", .recordOutcome
      { skillId := "deploy", version := 1, taskId := none, result := .success, evaluator := "bob"
        notes := "", recordedBy := "bob", idempotencyKey := "o1" }⟩,
    ⟨sampleHost "3", .promoteSkill "deploy" 1 0 "bob" ""⟩]

/-- A second version is proposed and tried out. -/
def sampleSuccessor : List Request :=
  samplePromotion ++ [⟨sampleHost "4", .proposeSkill (sampleSkill .organization "k2")⟩,
    ⟨sampleHost "5", .recordOutcome
      { skillId := "deploy", version := 2, taskId := none, result := .success, evaluator := "bob"
        notes := "", recordedBy := "bob", idempotencyKey := "o2" }⟩]

/-- The registry after the calls of a schedule, and their labels. -/
def played (calls : List Request) : List Label × State := store.play ⟨store.init, ()⟩ calls

/-- The label of one more call, and where it leads. -/
def labelOf (calls : List Request) (r : Request) : Label :=
  ⟨r, (store.exec r (played calls).2.db).1⟩

theorem step_played (calls : List Request) (r : Request) :
    system.Step (played calls).2 (labelOf calls r) ⟨(store.exec r (played calls).2.db).2, ()⟩ :=
  store.step_exec le_rfl

theorem ordered (calls : List Request) : store.Ordered () calls := by
  induction calls with
  | nil => trivial
  | cons c calls ih => exact ⟨le_rfl, ih⟩

theorem init_empty : system.Init ⟨store.init, ()⟩ := rfl

theorem run_played (calls : List Request) :
    Machine.Run system ⟨store.init, ()⟩ (played calls).1 (played calls).2 :=
  store.run_play (ordered calls)

theorem reachable_played (calls : List Request) : system.Reachable (played calls).2 :=
  store.reachable_play (ordered calls)

end AgentPalace.Skills
