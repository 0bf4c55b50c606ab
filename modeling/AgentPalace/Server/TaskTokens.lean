import AgentPalace.Coordination.Rows
import AgentPalace.Server.Changes
import AgentPalace.Server.TokenFile

/-!
# Tokens and the actors of tasks

A token writes to the coordination store as itself or as `token:claim`
(`resolveCoordinationActor`). A handoff names its next executor in full, and
`routeTransition` takes only executors of the token's own namespace. It looks for
the executor by name, while storage also reads the details by position: details
that are arrays are not checked.

`served` is the store behind the task routes. `authorize` stands for the checks of
wings and scopes that come before the store.
-/

namespace AgentPalace.Server

open Coordination Machine

/-- `claimed` is what the caller says it is, `identity` the name of its token. -/
def resolveCoordinationActor (identity : String) (claimed : Option String) :
    Except ServerError String :=
  match claimed with
  | some claim =>
    if claim ≠ identity then
      if ':' ∈ claim.toList then .error (.invalidParams "claimed actor must not contain `:`")
      else .ok (identity ++ ":" ++ claim)
    else .ok identity
  | none => .ok identity

def inIdentityNamespace (identity candidate : String) : Bool :=
  if candidate = identity then true
  else
    match (stripPrefix identity candidate).bind (stripPrefix ":") with
    | none => false
    | some claim =>
      !isBlank claim &&
        match resolveCoordinationActor identity (some claim) with
        | .ok resolved => resolved = candidate
        | .error _ => false

/-- The actor of a token: its name, or its name and something behind a colon. -/
def ActorOf (identity actor : String) : Prop :=
  actor = identity ∨ ∃ claim, actor = identity ++ ":" ++ claim

/-- The registry takes no token name with a colon. -/
def Colonless (identity : String) : Prop := ':' ∉ identity.toList

theorem actorOf_of_resolve {identity actor : String} {claimed : Option String}
    (h : resolveCoordinationActor identity claimed = .ok actor) : ActorOf identity actor := by
  cases claimed with
  | none =>
    cases h
    exact .inl rfl
  | some claim =>
    simp only [resolveCoordinationActor] at h
    split at h
    · split at h
      · cases h
      · cases h
        exact .inr ⟨claim, rfl⟩
    · cases h
      exact .inl rfl

/-- What stands before the first colon of an actor is its token. -/
theorem takeWhile_actorOf {identity actor : String} (hname : Colonless identity)
    (h : ActorOf identity actor) :
    actor.toList.takeWhile (· ≠ ':') = identity.toList := by
  have hkeep : ∀ c ∈ identity.toList, decide (c ≠ ':') = true := by
    intro c hc
    refine decide_eq_true ?_
    rintro rfl
    exact hname hc
  rcases h with rfl | ⟨claim, rfl⟩
  · exact List.takeWhile_eq_self_iff.2 hkeep
  · rw [String.toList_append, String.toList_append, List.append_assoc,
      List.takeWhile_append_of_pos hkeep]
    show identity.toList ++ (':' :: claim.toList).takeWhile _ = _
    rw [List.takeWhile_cons_of_neg (by simp), List.append_nil]

theorem actorOf_unique {identity other actor : String} (hname : Colonless identity)
    (hother : Colonless other) (h : ActorOf identity actor) (h' : ActorOf other actor) :
    identity = other := by
  rw [← String.toList_inj, ← takeWhile_actorOf hname h, takeWhile_actorOf hother h']

theorem stripPrefix_append (pre s : String) : stripPrefix pre (pre ++ s) = some s := by
  rw [stripPrefix, String.toList_append, if_pos (by simp), List.drop_left, String.ofList_toList]

theorem inIdentityNamespace_iff {identity candidate : String} :
    inIdentityNamespace identity candidate = true ↔
      ∃ claimed, (∀ claim ∈ claimed, isBlank claim = false) ∧
        resolveCoordinationActor identity claimed = .ok candidate := by
  unfold inIdentityNamespace
  by_cases heq : candidate = identity
  · subst heq
    rw [if_pos rfl]
    exact iff_of_true rfl ⟨none, nofun, rfl⟩
  rw [if_neg heq]
  constructor
  · intro h
    split at h
    · cases h
    · rename_i claim hclaim
      rw [Bool.and_eq_true, Bool.not_eq_true'] at h
      refine ⟨some claim, fun c hc => ?_, ?_⟩
      · cases hc
        exact h.1
      · have hresolve := h.2
        split at hresolve
        · rename_i resolved hok
          rw [hok, of_decide_eq_true hresolve]
        · cases hresolve
  · rintro ⟨claimed, hblank, hresolve⟩
    cases claimed with
    | none =>
      cases hresolve
      exact absurd rfl heq
    | some claim =>
      have hresolve' := hresolve
      simp only [resolveCoordinationActor] at hresolve
      split at hresolve
      · split at hresolve
        · cases hresolve
        · cases hresolve
          rw [String.append_assoc, stripPrefix_append, Option.bind_some, stripPrefix_append]
          simp only [hblank claim rfl, Bool.not_false, Bool.true_and]
          rw [hresolve', String.append_assoc]
          exact decide_eq_true rfl
      · cases hresolve
        exact absurd rfl heq

theorem actorOf_of_namespace {identity candidate : String}
    (h : inIdentityNamespace identity candidate = true) : ActorOf identity candidate :=
  let ⟨_, _, hresolve⟩ := inIdentityNamespace_iff.1 h
  actorOf_of_resolve hresolve

/-! ## The task routes -/

def maxLeaseSeconds : Int := 100 * 365 * 24 * 60 * 60

def validateLeaseSeconds (seconds : Int) : Except ServerError Unit :=
  if seconds ≤ 0 ∨ maxLeaseSeconds < seconds then
    .error (.invalidParams s!"lease_seconds must be in 1..={maxLeaseSeconds}")
  else .ok ()

/-- A request of a token. The actor in a body is what `claimed` is recorded as. -/
inductive TaskRequest where
  | create (body : NewTask) (claimed : Option String)
  | claim (id : String) (claimed : Option String) (expectedRevision leaseSeconds : Int)
  | renew (id : String) (claimed : Option String) (expectedRevision leaseSeconds : Int)
  | transition (id : String) (claimed : Option String) (expectedRevision : Int)
      (target : TaskState) (details : Option Json)
  | putArtifact (body : NewArtifact) (claimed : Option String)

/-- The executor of a handoff, where the server looks for it. -/
def namedExecutor (details : Option Json) : Option String :=
  match (details.bind (·.get? "checkpoint_handoff")).bind (·.get? "executor") with
  | some (.str executor) => some executor
  | _ => none

def checkExecutor (identity : String) (details : Option Json) : Except ServerError Unit :=
  match namedExecutor details with
  | some executor =>
    if inIdentityNamespace identity executor then .ok ()
    else .error (.invalidParams (s!"checkpoint_handoff.executor must be {identity} or " ++
      s!"{identity}:<worker> in the authenticated namespace"))
  | none => .ok ()

/-- The call of the store that a request becomes. -/
def TaskRequest.toCall (identity : String) (provenance : Option Json) :
    TaskRequest → Except ServerError Call
  | .create body claimed => do
    let createdBy ← resolveCoordinationActor identity claimed
    return .createTask { body with createdBy := createdBy } provenance
  | .claim id claimed expectedRevision leaseSeconds => do
    validateLeaseSeconds leaseSeconds
    let worker ← resolveCoordinationActor identity claimed
    return .claimTask id worker expectedRevision (leaseSeconds * 1000000000)
  | .renew id claimed expectedRevision leaseSeconds => do
    validateLeaseSeconds leaseSeconds
    let worker ← resolveCoordinationActor identity claimed
    return .renewLease id worker expectedRevision (leaseSeconds * 1000000000)
  | .transition id claimed expectedRevision target details => do
    let actor ← resolveCoordinationActor identity claimed
    checkExecutor identity details
    return .transitionTask id actor expectedRevision target details
  | .putArtifact body claimed => do
    let createdBy ← resolveCoordinationActor identity claimed
    return .putArtifact { body with createdBy := createdBy } provenance

structure TokenRequest where
  host : Host
  /-- The name of the token. -/
  identity : String
  provenance : Option Json := none
  request : TaskRequest

/-- The answer of the store, or of the checks before it. -/
abbrev RouteAnswer := Except ServerError Answer

section
variable (authorize : CoordinationDb → TokenRequest → Except ServerError Unit)

def TokenRequest.serve (r : TokenRequest) (db : CoordinationDb) : RouteAnswer × CoordinationDb :=
  match (authorize db r).bind fun _ => r.request.toCall r.identity r.provenance with
  | .error e => (.error e, db)
  | .ok call =>
    let (answer, db') := Request.execute ⟨r.host, call⟩ db
    (.ok answer, db')

def served : TimedStore CoordinationDb TokenRequest RouteAnswer OffsetDateTime where
  init := .empty
  now r := r.host.now
  exec := TokenRequest.serve authorize

abbrev taskSystem : Machine State (Served TokenRequest RouteAnswer) :=
  (served authorize).machine

end

/-! ## One request -/

/-- The details of a handoff are an object with an object in it, no arrays. -/
def NamedFields (details : Option Json) : Prop :=
  (∀ items, details ≠ some (.arr items)) ∧
    ∀ items, details.bind (·.get? "checkpoint_handoff") ≠ some (.arr items)

def TaskRequest.Named : TaskRequest → Prop
  | .transition _ _ _ _ details => NamedFields details
  | _ => True

theorem field_of_optField {α : Type} {j : Json} {name : String} {read : Json → Except DeError α}
    {o : Option α} {a : α} (h : optField j name read = .ok o) (ha : a ∈ o) :
    ∃ v, j.get? name = some v ∧ read v = .ok a := by
  cases ha
  unfold optField at h
  cases hget : j.get? name with
  | none => rw [hget] at h; cases h
  | some v =>
    rw [hget] at h
    cases hread : read v with
    | error e => simp [hread, Except.map] at h
    | ok b =>
      simp only [hread, Except.map, Except.ok.injEq, Option.some.injEq] at h
      exact ⟨v, rfl, by rw [hread, h]⟩

theorem needField_ok {α : Type} {name : String} {o : Option α} {a : α}
    (h : needField name o = .ok a) : a ∈ o := by
  cases o <;> cases h
  rfl

theorem executor_of_deserialize {j : Json} {handoff : CheckpointHandoff}
    (hobj : ∀ items, j ≠ .arr items) (h : CheckpointHandoff.deserialize j = .ok handoff) :
    j.get? "executor" = some (.str handoff.executor) := by
  cases j with
  | obj fields =>
    simp only [CheckpointHandoff.deserialize, bind, Except.bind] at h
    split at h
    · cases h
    split at h
    · cases h
    rename_i executor hexecutor
    split at h
    · cases h
    rename_i e hneed
    split at h
    · cases h
    cases h
    obtain ⟨v, hget, hv⟩ := field_of_optField hexecutor (needField_ok hneed)
    rw [hget]
    cases v <;> cases hv
    rfl
  | arr items => exact absurd rfl (hobj items)
  | _ => simp [CheckpointHandoff.deserialize] at h

/-- The executor that storage reads from an object is the one the server checks. -/
theorem namedExecutor_of_parse {details : Json} {r : Json × YieldDetails}
    {handoff : CheckpointHandoff} (hnamed : NamedFields (some details))
    (h : parseYield (some details) = .ok r) (hh : r.2.checkpointHandoff = some handoff) :
    namedExecutor (some details) = some handoff.executor := by
  obtain ⟨d, parsed⟩ := r
  simp only [parseYield, okOr, bind, Except.bind] at h
  split at h
  · cases h
  split at h
  · cases h
  rename_i parsed' hparsed
  split at h
  · cases h
  cases h
  cases details with
  | arr items => exact absurd rfl (hnamed.1 items)
  | obj fields =>
    simp only [YieldDetails.deserialize, bind, Except.bind] at hparsed
    split at hparsed
    · cases hparsed
    rename_i found hfound
    split at hparsed
    · cases hparsed
    split at hparsed
    · cases hparsed
    cases hparsed
    cases found with
    | none => cases hh
    | some inner =>
      cases hh
      obtain ⟨v, hget, hv⟩ := field_of_optField hfound rfl
      have hnull : v.isNull = false := by
        by_contra htrue
        rw [CheckpointHandoff.deserializeOption, if_pos (by simpa using htrue)] at hv
        cases hv
      have hread : CheckpointHandoff.deserialize v = .ok handoff := by
        rw [CheckpointHandoff.deserializeOption, hnull] at hv
        cases hd : CheckpointHandoff.deserialize v with
        | error e => simp [hd, Except.map] at hv
        | ok b =>
          simp only [hd, Except.map, Bool.false_eq_true, if_false, Except.ok.injEq,
            Option.some.injEq] at hv
          rw [hv]
      have harr : ∀ items, v ≠ .arr items := by
        rintro items rfl
        exact hnamed.2 items hget
      have hexecutor := executor_of_deserialize harr hread
      simp only [namedExecutor, Option.bind_some, hget, hexecutor]
  | _ => simp [YieldDetails.deserialize, Except.mapError] at hparsed

def callActor : Call → String
  | .createTask input _ | .importTask input _ => input.createdBy
  | .claimTask _ worker _ _ | .renewLease _ worker _ _ => worker
  | .transitionTask _ actor _ _ _ => actor
  | .sendMessage input _ => input.sender
  | .acknowledgeMessage _ actor => actor
  | .putArtifact input _ => input.createdBy
  | .putResult input _ => input.createdBy

theorem taskChange_actor {host : Host} {db : CoordinationDb} {row row' : TaskRow} {ts : Timestamp}
    {call : Call} {answer : Answer} {e : NewEvent}
    (h : TaskChange host db row ts call answer row' e) : e.actor = callActor call := by
  cases h <;> rfl

theorem outcome_actors {host : Host} {db db' : CoordinationDb} {call : Call} {answer : Answer}
    (h : Outcome host db call answer db') (e : Event) (he : e ∈ db'.events.rows) :
    e ∈ db.events.rows ∨ e.actor = callActor call := by
  have hlogged {ts : Timestamp} {new : NewEvent} {events : Series Event.eventId Event.sequence}
      (hlog : Logged host ts new db.events events) (hactor : new.actor = callActor call)
      (he : e ∈ events.rows) : e ∈ db.events.rows ∨ e.actor = callActor call := by
    rw [hlog, List.mem_append, List.mem_singleton] at he
    rcases he with he | rfl
    · exact .inl he
    · exact .inr hactor
  cases h with
  | changed _ _ hchange _ hlog => exact hlogged hlog (taskChange_actor hchange) he
  | created hcall _ _ _ _ _ _ hlog =>
    refine hlogged hlog ?_ he
    rcases hcall with ⟨rfl, -⟩ | ⟨rfl, -⟩ <;> rfl
  | sent hcall _ _ _ _ _ hlog => exact hlogged hlog (by rw [hcall]; rfl) he
  | acknowledged hcall _ _ _ _ _ _ _ hlog => exact hlogged hlog (by rw [hcall]; rfl) he
  | artifactPut hcall _ _ _ _ _ hlog => exact hlogged hlog (by rw [hcall]; rfl) he
  | resultPut hcall _ _ _ _ _ hlog => exact hlogged hlog (by rw [hcall]; rfl) he
  | _ => exact .inl he

/-- The task is held by an actor or reserved for it. -/
def Holds (row : TaskRow) (actor : String) : Prop :=
  row.owner = some actor ∨ row.executorAffinity = some actor

/-- What a request of a token may do to the actors of tasks. -/
structure KeptApart (identity : String) (request : TaskRequest) (x y : State) : Prop where
  /-- It is recorded under an actor of the token. -/
  actors : ∀ e ∈ y.db.events.rows, e ∈ x.db.events.rows ∨ ActorOf identity e.actor
  /-- It gives tasks to actors of the token only. -/
  assigned : ∀ id row', y.db.tasks.get? id = some row' → ∀ actor, Holds row' actor →
    ActorOf identity actor ∨ ∃ row, x.db.tasks.get? id = some row ∧ Holds row actor
  /-- It changes the task of another token only by a claim or a cancellation. -/
  owned : ∀ id row, x.db.tasks.get? id = some row → y.db.tasks.get? id ≠ some row →
    ∀ owner, row.owner = some owner → ActorOf identity owner ∨
      (∃ id claimed rev secs, request = .claim id claimed rev secs) ∨
      ∃ id claimed rev details, request = .transition id claimed rev .cancelled details

theorem KeptApart.of_eq {identity : String} {request : TaskRequest} {x y : State}
    (h : y.db = x.db) : KeptApart identity request x y where
  actors _ he := .inl (h ▸ he)
  assigned _ row' hrow' _ hactor := .inr ⟨row', h ▸ hrow', hactor⟩
  owned _ _ hrow hne := absurd (h ▸ hrow) hne

structure Passed (identity : String) (request : TaskRequest) (call : Call) : Prop where
  actor : ActorOf identity (callActor call)
  claims : ∀ id worker rev ttl, call = .claimTask id worker rev ttl →
    ∃ id claimed rev secs, request = .claim id claimed rev secs
  transitions : ∀ id actor rev target details,
    call = .transitionTask id actor rev target details →
      (∃ claimed, request = .transition id claimed rev target details) ∧
        checkExecutor identity details = .ok ()

theorem passed_of_toCall {identity : String} {provenance : Option Json} {request : TaskRequest}
    {call : Call} (h : request.toCall identity provenance = .ok call) :
    Passed identity request call := by
  cases request with
  | create body claimed =>
    simp only [TaskRequest.toCall, bind, Except.bind] at h
    split at h
    · cases h
    rename_i actor hactor
    cases h
    exact ⟨actorOf_of_resolve hactor, nofun, nofun⟩
  | claim id claimed rev secs =>
    simp only [TaskRequest.toCall, bind, Except.bind] at h
    split at h
    · cases h
    split at h
    · cases h
    rename_i actor hactor
    cases h
    exact ⟨actorOf_of_resolve hactor, fun _ _ _ _ _ => ⟨id, claimed, rev, secs, rfl⟩, nofun⟩
  | renew id claimed rev secs =>
    simp only [TaskRequest.toCall, bind, Except.bind] at h
    split at h
    · cases h
    split at h
    · cases h
    rename_i actor hactor
    cases h
    exact ⟨actorOf_of_resolve hactor, nofun, nofun⟩
  | transition id claimed rev target details =>
    simp only [TaskRequest.toCall, bind, Except.bind] at h
    split at h
    · cases h
    rename_i actor hactor
    split at h
    · cases h
    rename_i hcheck
    cases h
    refine ⟨actorOf_of_resolve hactor, nofun, ?_⟩
    rintro _ _ _ _ _ ⟨⟩
    exact ⟨⟨claimed, rfl⟩, hcheck⟩
  | putArtifact body claimed =>
    simp only [TaskRequest.toCall, bind, Except.bind] at h
    split at h
    · cases h
    rename_i actor hactor
    cases h
    exact ⟨actorOf_of_resolve hactor, nofun, nofun⟩

theorem actorOf_of_check {identity executor : String} {details : Option Json}
    (h : checkExecutor identity details = .ok ()) (hnamed : namedExecutor details = some executor) :
    ActorOf identity executor := by
  rw [checkExecutor, hnamed] at h
  by_cases hspace : inIdentityNamespace identity executor = true
  · exact actorOf_of_namespace hspace
  · simp [hspace] at h

section
variable {authorize : CoordinationDb → TokenRequest → Except ServerError Unit}

/-- A served request changes nothing, or is one call of the store. -/
theorem step_passes {x y : State} {l : Served TokenRequest RouteAnswer}
    (hs : (taskSystem authorize).Step x l y) :
    y.db = x.db ∨ ∃ call answer, Passed l.call.identity l.call.request call ∧
      Outcome l.call.host x.db call answer y.db := by
  obtain ⟨hclock, hexec, hnow⟩ := hs
  replace hexec : l.call.serve authorize x.db = (l.answer, y.db) := hexec
  unfold TokenRequest.serve at hexec
  split at hexec
  · exact .inl (congrArg Prod.snd hexec).symm
  · rename_i call hcall
    have hpassed : l.call.request.toCall l.call.identity l.call.provenance = .ok call := by
      cases hauth : authorize x.db l.call with
      | error e => rw [hauth] at hcall; cases hcall
      | ok u => rw [hauth] at hcall; exact hcall
    have ho := Request.outcome ⟨l.call.host, call⟩ x.db
    have hdb : y.db = (Request.execute ⟨l.call.host, call⟩ x.db).2 :=
      (congrArg Prod.snd hexec).symm
    rw [hdb]
    exact .inr ⟨call, _, passed_of_toCall hpassed, ho⟩

theorem step_keptApart {x y : State} {l : Served TokenRequest RouteAnswer}
    (hnamed : l.call.request.Named) (hs : (taskSystem authorize).Step x l y) :
    KeptApart l.call.identity l.call.request x y := by
  rcases step_passes hs with heq | ⟨call, answer, hpassed, ho⟩
  · exact .of_eq heq
  refine ⟨fun e he => ?_, fun id row' hrow' actor hactor => ?_,
    fun id row hrow hne owner howner => ?_⟩
  · rcases outcome_actors ho e he with hold | hnew
    · exact .inl hold
    · exact .inr (hnew ▸ hpassed.actor)
  · have hstep := ho.rowStep id
    rw [hrow'] at hstep
    generalize hx : x.db.tasks.get? id = r at hstep
    cases hstep with
    | kept => exact .inr ⟨row', rfl, hactor⟩
    | created hfresh =>
      rcases hactor with h | h
      · rw [hfresh.owner] at h
        cases h
      · rw [hfresh.executorAffinity] at h
        cases h
    | @changed row _ _ _ _ hchange =>
      cases hchange with
      | expired => rcases hactor with h | h <;> cases h
      | claimed =>
        rcases hactor with h | h
        · cases h
          exact .inl hpassed.actor
        · exact .inr ⟨row, rfl, .inr h⟩
      | renewed => exact .inr ⟨row, rfl, hactor⟩
      | @yielded _ executor details parsed _ _ _ _ hparsed hexecutor =>
        have hactor : actor = executor := by rcases hactor with h | h <;> cases h <;> rfl
        rw [hactor, hexecutor]
        cases hhandoff : parsed.checkpointHandoff with
        | none => exact .inl hpassed.actor
        | some handoff =>
          obtain ⟨⟨claimed, hrequest⟩, hcheck⟩ := hpassed.transitions _ _ _ _ _ rfl
          rw [hrequest] at hnamed
          exact .inl (actorOf_of_check hcheck (namedExecutor_of_parse hnamed hparsed hhandoff))
      | @moved _ target =>
        have hkeep : Holds row actor := by
          rcases hactor with h | h
          · left
            have h : (if target.terminal = true then none else row.owner) = some actor := h
            split at h
            · cases h
            · exact h
          · right
            have h :
                (if target.terminal = true then none else row.executorAffinity) = some actor := h
            split at h
            · cases h
            · exact h
        exact .inr ⟨row, rfl, hkeep⟩
  · have hstep := ho.rowStep id
    rw [hrow] at hstep
    generalize hy : y.db.tasks.get? id = r at hstep hne
    cases hstep with
    | kept => exact absurd rfl hne
    | changed _ hchange =>
      cases hchange with
      | expired => exact .inr (.inl (hpassed.claims _ _ _ _ rfl))
      | claimed => exact .inr (.inl (hpassed.claims _ _ _ _ rfl))
      | renewed hown =>
        rw [hown] at howner
        cases howner
        exact .inl hpassed.actor
      | yielded _ hown =>
        rw [hown] at howner
        cases howner
        exact .inl hpassed.actor
      | @moved _ target details _ _ _ hown =>
        obtain ⟨⟨claimed, hrequest⟩, -⟩ := hpassed.transitions _ _ _ _ _ rfl
        rcases hown owner howner with rfl | rfl
        · exact .inl hpassed.actor
        · exact .inr (.inr ⟨_, claimed, _, details, hrequest⟩)

theorem run_holds {x w : State} {ls : List (Served TokenRequest RouteAnswer)}
    (h : (taskSystem authorize).Run x ls w) (hnamed : ∀ l ∈ ls, l.call.request.Named) :
    ∀ id row actor, w.db.tasks.get? id = some row → Holds row actor →
      (∃ l ∈ ls, ActorOf l.call.identity actor) ∨
        ∃ row, x.db.tasks.get? id = some row ∧ Holds row actor := by
  induction h with
  | nil => exact fun _ row _ hrow hholds => .inr ⟨row, hrow, hholds⟩
  | @cons a b c l ls hs _ ih =>
    intro id row actor hrow hholds
    rcases ih (fun l hl => hnamed l (List.mem_cons_of_mem _ hl)) id row actor hrow hholds with
      ⟨l', hl', hof⟩ | ⟨row', hrow', hholds'⟩
    · exact .inl ⟨l', List.mem_cons_of_mem _ hl', hof⟩
    · rcases (step_keptApart (hnamed l List.mem_cons_self) hs).assigned id row' hrow' actor hholds'
        with hof | hbefore
      · exact .inl ⟨l, List.mem_cons_self, hof⟩
      · exact .inr hbefore

end

/-- Different tokens are recorded as different actors, and the namespace of a
token is its own actors. In every run whose details are no arrays, a request acts
and hands on only as its own token, so a task is held by a token's actor only
after a request of this token. -/
theorem tokens_kept_apart (authorize : CoordinationDb → TokenRequest → Except ServerError Unit) :
    (∀ identity other claimed claimed' actor actor', Colonless identity → Colonless other →
      identity ≠ other → resolveCoordinationActor identity claimed = .ok actor →
      resolveCoordinationActor other claimed' = .ok actor' → actor ≠ actor') ∧
    (∀ identity candidate, inIdentityNamespace identity candidate = true ↔
      ∃ claimed, (∀ claim ∈ claimed, isBlank claim = false) ∧
        resolveCoordinationActor identity claimed = .ok candidate) ∧
    ∀ x w ls, (taskSystem authorize).Init x → (taskSystem authorize).Run x ls w →
      (∀ l ∈ ls, Colonless l.call.identity ∧ l.call.request.Named) →
      (∀ pre l post y z, ls = pre ++ l :: post → (taskSystem authorize).Run x pre y →
        (taskSystem authorize).Step y l z → KeptApart l.call.identity l.call.request y z) ∧
      ∀ id row actor, w.db.tasks.get? id = some row → Holds row actor →
        ∃ l ∈ ls, ActorOf l.call.identity actor ∧
          ∀ identity, Colonless identity → ActorOf identity actor → identity = l.call.identity := by
  refine ⟨?_, fun _ _ => inIdentityNamespace_iff, ?_⟩
  · rintro identity other claimed claimed' actor actor' hname hother hne h h' rfl
    exact hne (actorOf_unique hname hother (actorOf_of_resolve h) (actorOf_of_resolve h'))
  · intro x w ls hinit hrun hls
    constructor
    · rintro pre l post y z rfl - hs
      exact step_keptApart (hls l (List.mem_append_right pre List.mem_cons_self)).2 hs
    · intro id row actor hrow hholds
      rcases run_holds hrun (fun l hl => (hls l hl).2) id row actor hrow hholds with
        ⟨l, hl, hof⟩ | ⟨row', hrow', -⟩
      · exact ⟨l, hl, hof, fun identity hname hof' =>
          actorOf_unique hname (hls l hl).1 hof' hof⟩
      · have hempty : x.db = .empty := hinit
        rw [hempty] at hrow'
        cases hrow'

/-- The token `ci` creates a task, which `ops` claims and asks about. -/
def twoTokens : List TokenRequest :=
  [⟨sampleHost 0 "1", "ci", none, .create sampleTask none⟩,
    ⟨sampleHost 1 "2", "ops", none, .claim "task_1" none 0 60⟩,
    ⟨sampleHost 2 "3", "ops", none, .transition "task_1" none 1 .inputRequired
      (some (.obj [("prompt", .str "deploy?")]))⟩]

theorem tokens_kept_apart_sample :
    (((served fun _ _ => .ok ()).play ⟨.empty, ⟨0, 0⟩⟩ twoTokens).2.db.tasks.get? "task_1").map
        (fun row => (row.owner, row.revision)) = some (some "ops", 2) ∧
      ∀ id row actor,
        ((served fun _ _ => .ok ()).play ⟨.empty, ⟨0, 0⟩⟩ twoTokens).2.db.tasks.get? id = some row →
          Holds row actor → ActorOf "ci" actor ∨ ActorOf "ops" actor := by
  have hlabels : ∀ l ∈ ((served fun _ _ => .ok ()).play ⟨.empty, ⟨0, 0⟩⟩ twoTokens).1,
      (l.call.identity = "ci" ∨ l.call.identity = "ops") ∧ l.call.request.Named := by
    intro l hl
    simp only [twoTokens, TimedStore.play, List.mem_cons, List.not_mem_nil, or_false] at hl
    rcases hl with rfl | rfl | rfl
    · exact ⟨.inl rfl, trivial⟩
    · exact ⟨.inr rfl, trivial⟩
    · exact ⟨.inr rfl, nofun, nofun⟩
  have hls : ∀ l ∈ ((served fun _ _ => .ok ()).play ⟨.empty, ⟨0, 0⟩⟩ twoTokens).1,
      Colonless l.call.identity ∧ l.call.request.Named := by
    intro l hl
    refine ⟨?_, (hlabels l hl).2⟩
    rcases (hlabels l hl).1 with h | h <;> rw [h] <;> unfold Colonless <;> decide
  refine ⟨by decide +kernel, fun id row actor hrow hholds => ?_⟩
  obtain ⟨l, hl, hof, -⟩ := ((tokens_kept_apart fun _ _ => .ok ()).2.2 ⟨.empty, ⟨0, 0⟩⟩ _ _ rfl
    ((served fun _ _ => .ok ()).run_play (by decide)) hls).2 id row actor hrow hholds
  rcases (hlabels l hl).1 with h | h <;> rw [h] at hof
  · exact .inl hof
  · exact .inr hof

/-- The token `ci` hands its task to the worker of another token, by position. -/
def handoffByPosition : List TokenRequest :=
  [⟨sampleHost 0 "1", "ci", none, .create sampleTask none⟩,
    ⟨sampleHost 1 "2", "ci", none,
      .putArtifact ⟨"task_1", "", "checkpoint", "text/plain", "state", "k2"⟩ none⟩,
    ⟨sampleHost 2 "3", "ci", none, .claim "task_1" none 0 60⟩,
    ⟨sampleHost 3 "4", "ci", none, .transition "task_1" none 1 .pending
      (some (.arr [.str "done",
        .obj [("artifact_id", .str "artifact_2"), ("executor", .str "ops:deployer")]]))⟩]

/-- The server does not see the executor, and storage gives it the task. -/
theorem handed_by_position :
    (((served fun _ _ => .ok ()).play ⟨.empty, ⟨0, 0⟩⟩ handoffByPosition).2.db.tasks.get?
        "task_1").map (·.owner) = some (some "ops:deployer") ∧
      ¬ ActorOf "ci" "ops:deployer" := by
  refine ⟨by decide, ?_⟩
  rintro (h | ⟨claim, h⟩)
  · exact absurd h (by decide)
  · have hhead := congrArg (·.toList.head?) h
    rw [String.append_assoc, String.toList_append] at hhead
    cases hhead

end AgentPalace.Server
