import AgentPalace.Outbox.Fencing
import AgentPalace.Remote.Error
import Mathlib.Algebra.Group.Int.Defs

/-!
# The replication dispatcher

Every process of a palace runs a dispatcher, and all of them under one worker
name. A dispatcher claims an operation in up to two calls, first a lease that
ran out and then the next due operation; it delivers what it got, and records
the result in a third. Between these calls anything may happen to the outbox,
and a process may stop at any point. What a delivery does to the remote is left
open: its result is any.
-/

namespace AgentPalace.Replication

open Outbox

def workerId : String := "mcp-replication-worker"

def leaseTtl : Duration := 30 * 1000000000

def maxBackoffSeconds : Int := 300

def maxErrorBytes : Nat := 1024

/-! ## The calls of a dispatcher -/

/-- The first call of `claim_one`. -/
def reclaimCall (remoteName : String) : Call :=
  .reclaimExpiredLease (some remoteName) workerId leaseTtl

/-- The second call of `claim_one`. -/
def claimCall (remoteName : String) : Call := .claimNext remoteName workerId leaseTtl

def hexValue (c : Char) : Nat := if c.isDigit then c.toNat - 48 else c.toNat - 87

/-- The first two bytes of a hash, the low one first. -/
def firstU16 (hex : String) : Nat :=
  match hex.toList with
  | a :: b :: c :: d :: _ => hexValue a * 16 + hexValue b + 256 * (hexValue c * 16 + hexValue d)
  | _ => 0

/-- In nanoseconds: seconds that double with each attempt, and less than a second
that depends on the operation and the attempt. -/
def retryBackoff (blake3 : String → String) (op : OutboxOperation) : Int :=
  let exponent := (max 0 (min op.attemptCount 8)).toNat
  let base : Int := 2 ^ exponent
  let capped := min base maxBackoffSeconds
  let jitterMillis := firstU16 (blake3 s!"{op.operationId}:{op.attemptCount}") % 1000
  capped * 1000000000 + jitterMillis * 1000000

def boundedError (e : RemoteError) : String := prefixWithin maxErrorBytes e.display

/-- The call that records the result of a delivery; `now` is read before it. A time
of the next attempt past the last year stops the process. -/
def outcomeCall (blake3 : String → String) (now : OffsetDateTime) (op : OutboxOperation) :
    Except RemoteError Unit → Option Call
  | .ok () => some (.acknowledge op.operationId workerId op.revision)
  | .error e =>
    if e.isRetryable then
      (now.checkedAdd (retryBackoff blake3 op)).map fun retryAt =>
        .scheduleRetry op.operationId workerId op.revision (boundedError e) retryAt
    else some (.fail op.operationId workerId op.revision (boundedError e))

/-- The result is recorded for the operation and the revision that were claimed. -/
theorem outcomeOf_outcomeCall {blake3 : String → String} {now : OffsetDateTime} {op : OutboxOperation}
    {result : Except RemoteError Unit} {call : Call}
    (h : outcomeCall blake3 now op result = some call) :
    call.outcomeOf = some (op.operationId, workerId, op.revision) := by
  cases result with
  | ok =>
    cases h
    rfl
  | error e =>
    simp only [outcomeCall] at h
    split at h
    · obtain ⟨retryAt, _, rfl⟩ := Option.map_eq_some_iff.1 h
      rfl
    · cases h
      rfl

/-! ## Dispatchers on one outbox -/

inductive Phase where
  | idle
  /-- There was no lease to take over: the next due operation is asked for. -/
  | looking (remoteName : String)
  | delivering (op : OutboxOperation)

def afterReclaim (remoteName : String) : Answer → Phase
  | .ok (.claim (some op)) => .delivering op
  | .ok (.claim none) => .looking remoteName
  | _ => .idle

def afterClaim : Answer → Phase
  | .ok (.claim (some op)) => .delivering op
  | _ => .idle

/-- One call of a dispatcher, and its phase after the answer. -/
inductive Turn (host : Host) : Phase → Call → Answer → Phase → Prop where
  | reclaim (remoteName : String) (answer : Answer) :
      Turn host .idle (reclaimCall remoteName) answer (afterReclaim remoteName answer)
  | claim (remoteName : String) (answer : Answer) :
      Turn host (.looking remoteName) (claimCall remoteName) answer (afterClaim answer)
  | report {now : OffsetDateTime} {op : OutboxOperation} {result : Except RemoteError Unit}
      {call : Call} (hcall : outcomeCall host.blake3 now op result = some call) (answer : Answer) :
      Turn host (.delivering op) call answer .idle

/-- The outbox of a palace and the dispatchers of its processes. -/
structure Palace where
  outbox : Outbox.State
  phase : Nat → Phase

inductive Event where
  | dispatcher (p : Nat) (label : Outbox.Label)
  | crash (p : Nat)
  /-- A call of anyone else. -/
  | other (label : Outbox.Label)

def machine : Machine Palace Event where
  Init w := Outbox.system.Init w.outbox ∧ ∀ p, w.phase p = .idle
  Step w e w' :=
    match e with
    | .dispatcher p label =>
      Outbox.system.Step w.outbox label w'.outbox ∧
        ∃ phase, Turn label.call.host (w.phase p) label.call.call label.answer phase ∧
          w'.phase = Function.update w.phase p phase
    | .crash p => w'.outbox = w.outbox ∧ w'.phase = Function.update w.phase p .idle
    | .other label => Outbox.system.Step w.outbox label w'.outbox ∧ w'.phase = w.phase

end AgentPalace.Replication
