import AgentPalace.Lib.Machine
import AgentPalace.Remote.Error

/-!
# Sign-in of the MCP server

`RemoteAuth` keeps at most one login for a remote: `start` spawns a login task,
waits for the prompt that the task shows, and stores both as the flow of the remote,
under a gate for each remote; `status` looks at the flow and removes one that is
finished. Between two awaits a call is not interrupted; at an await it may be
cancelled, and then an `AbortOnDrop` stops the task that it spawned.

In any run at most one task of a remote is running, and a `start` that ends without
a prompt leaves neither a running task nor a flow (`SignIn.Inv`). The prompt that a
`start` returns is that of a running task if no flow is read whose task has finished
and no task finishes while a `start` has its prompt (`prompts_live`).
-/

namespace AgentPalace.SignIn

inductive AuthPrompt where
  | browser (authorizationUrl : String)
  | device (verificationUri userCode : String)
  deriving DecidableEq

/-- What a task ends with: nothing if it was stopped. -/
abbrev LoginResult := Option (Except RemoteError Unit)

inductive Progress where
  | running
  /-- The task is aborted and stops at its next await. -/
  | aborting
  | finished (result : LoginResult)

structure Login where
  name : String
  startedBy : Nat
  /-- What it sent through the channel of `PromptInteraction`. -/
  prompt : Option AuthPrompt := none
  progress : Progress := .running

/-- `AbortHandle::abort`. -/
def Login.abort (login : Login) : Login :=
  match login.progress with
  | .running => { login with progress := .aborting }
  | _ => login

structure AuthFlow where
  prompt : AuthPrompt
  task : Nat

/-- What `start` returns. A prompt is that of a task. -/
inductive StartAnswer where
  | prompt (task : Nat) (prompt : AuthPrompt)
  | authenticated
  | remoteFailure (error : RemoteError)
  | localFailure (classification message : String)

inductive StatusAnswer where
  | pending
  | authenticated
  | notAuthenticated
  | remoteFailure (error : RemoteError) (next : Option String)
  | localFailure (classification message : String)

/-- Where a `start` is: at an await, on its way out, or ended. -/
inductive StartPoint where
  | gate
  | flows
  | challenge
  | receive (task : Nat)
  | join (task : Nat)
  | store (task : Nat) (prompt : AuthPrompt)
  | returning (answer : StartAnswer)
  | returned (answer : StartAnswer)
  | cancelled

structure Start where
  name : String
  point : StartPoint
  abortOnDrop : Option Nat := none

inductive StatusPoint where
  | flows
  | join (task : Nat)
  | probe
  | returned (answer : StatusAnswer)
  | cancelled

structure Status where
  name : String
  point : StatusPoint

/-- `RemoteAuth`, its tasks and the calls. -/
structure State where
  flows : String → Option AuthFlow
  /-- Which `start` has the gate of a remote. -/
  startGates : String → Option Nat
  tasks : Nat → Option Login
  starts : Nat → Option Start
  statuses : Nat → Option Status

namespace State

def initial : State := ⟨fun _ => none, fun _ => none, fun _ => none, fun _ => none, fun _ => none⟩

def setStart (s : State) (c : Nat) (start : Start) : State :=
  { s with starts := Function.update s.starts c (some start) }

def setStatus (s : State) (c : Nat) (status : Status) : State :=
  { s with statuses := Function.update s.statuses c (some status) }

def setTask (s : State) (t : Nat) (login : Login) : State :=
  { s with tasks := Function.update s.tasks t (some login) }

def setFlow (s : State) (name : String) (flow : Option AuthFlow) : State :=
  { s with flows := Function.update s.flows name flow }

def takeGate (s : State) (name : String) (c : Nat) : State :=
  { s with startGates := Function.update s.startGates name (some c) }

/-- The guard of the gate is dropped, if the call has it. -/
def releaseGate (s : State) (name : String) (c : Nat) : State :=
  if s.startGates name = some c then
    { s with startGates := Function.update s.startGates name none }
  else s

/-- `AbortOnDrop` is dropped. -/
def abort (s : State) : Option Nat → State
  | none => s
  | some t => { s with tasks := Function.update s.tasks t ((s.tasks t).map Login.abort) }

end State

/-! ## The calls -/

def notConfigured (name : String) : String := "remote `" ++ name ++ "` is not configured for OAuth"

def StartPoint.enter (clients : String → Bool) (name : String) : StartPoint :=
  if clients name then .gate else .returning (.localFailure "invalid_config" (notConfigured name))

def StartPoint.lookup : Option AuthFlow → StartPoint
  | some flow => .returning (.prompt flow.task flow.prompt)
  | none => .challenge

/-- What a task that ended without a prompt makes of `start`. -/
def StartAnswer.ofResult : LoginResult → StartAnswer
  | none => .localFailure "local_failure" "remote login task stopped"
  | some (.ok ()) => .localFailure "invalid_response" "remote login ended without a device prompt"
  | some (.error error) => .remoteFailure error

def timedOut : StartAnswer :=
  .localFailure "local_timeout" "remote did not provide a device prompt within 30 seconds"

/-- What `auth_status_failure` adds. -/
def statusNext (name : String) : RemoteError → Option String
  | .authenticationRequired .. => some (clear name)
  | .remoteRejected _ status _ => if status = 401 ∨ status = 403 then some (clear name) else none
  | _ => none
where
  clear (name : String) : String :=
    "Run `agentpalace auth logout --remote " ++ name ++
      "` to clear the refused grant, then start sign-in again."

def authStatusFailure (name : String) (error : RemoteError) : StatusAnswer :=
  .remoteFailure error (statusNext name error)

def StatusPoint.enter (clients : String → Bool) (name : String) : StatusPoint :=
  if clients name then .flows
  else .returned (.localFailure "invalid_config" (notConfigured name))

def StatusPoint.ofResult (name : String) : LoginResult → StatusPoint
  | some (.ok ()) => .probe
  | some (.error error) => .returned (authStatusFailure name error)
  | none => .returned (.localFailure "local_failure" "remote login task stopped")

/-- `probe_status`, of what `login_challenge` answers. -/
def StatusAnswer.probed (name : String) : Except RemoteError (Option String) → StatusAnswer
  | .ok none => .authenticated
  | .ok (some _) => .notAuthenticated
  | .error error => authStatusFailure name error

def StartPoint.atAwait : StartPoint → Bool
  | .returning _ | .returned _ | .cancelled => false
  | _ => true

def StatusPoint.atAwait : StatusPoint → Bool
  | .returned _ | .cancelled => false
  | _ => true

def Progress.isFinished : Progress → Bool
  | .finished _ => true
  | _ => false

inductive Event where
  | start (c : Nat) (name : String)
  | gate (c : Nat)
  | lookup (c : Nat)
  | challenged (c : Nat) (answer : Except RemoteError (Option String))
  | received (c : Nat)
  | notReceived (c : Nat)
  | joined (c : Nat)
  | stored (c : Nat)
  | returned (c : Nat)
  | cancelled (c : Nat)
  | shown (t : Nat) (prompt : AuthPrompt)
  | finished (t : Nat) (result : LoginResult)
  | status (d : Nat) (name : String)
  | statusLookup (d : Nat)
  | statusJoined (d : Nat)
  | probed (d : Nat) (answer : Except RemoteError (Option String))
  | statusCancelled (d : Nat)

inductive Step (clients : String → Bool) : State → Event → State → Prop where
  | start {s : State} {c : Nat} {name : String} (hc : s.starts c = none) :
    Step clients s (.start c name) (s.setStart c ⟨name, .enter clients name, none⟩)
  | gate {s : State} {c : Nat} {name : String} {guard : Option Nat}
    (hc : s.starts c = some ⟨name, .gate, guard⟩) (hgate : s.startGates name = none) :
    Step clients s (.gate c) ((s.takeGate name c).setStart c ⟨name, .flows, guard⟩)
  | lookup {s : State} {c : Nat} {name : String} {guard : Option Nat}
    (hc : s.starts c = some ⟨name, .flows, guard⟩) :
    Step clients s (.lookup c) (s.setStart c ⟨name, .lookup (s.flows name), guard⟩)
  | challengeFailed {s : State} {c : Nat} {name : String} {guard : Option Nat}
    {error : RemoteError} (hc : s.starts c = some ⟨name, .challenge, guard⟩) :
    Step clients s (.challenged c (.error error))
      (s.setStart c ⟨name, .returning (.remoteFailure error), guard⟩)
  | noChallenge {s : State} {c : Nat} {name : String} {guard : Option Nat}
    (hc : s.starts c = some ⟨name, .challenge, guard⟩) :
    Step clients s (.challenged c (.ok none))
      (s.setStart c ⟨name, .returning .authenticated, guard⟩)
  | spawn {s : State} {c t : Nat} {name url : String} {guard : Option Nat}
    (hc : s.starts c = some ⟨name, .challenge, guard⟩) (ht : s.tasks t = none) :
    Step clients s (.challenged c (.ok (some url)))
      ((s.setTask t { name, startedBy := c }).setStart c ⟨name, .receive t, some t⟩)
  | received {s : State} {c t : Nat} {name : String} {guard : Option Nat} {login : Login}
    {prompt : AuthPrompt} (hc : s.starts c = some ⟨name, .receive t, guard⟩)
    (ht : s.tasks t = some login) (hprompt : login.prompt = some prompt) :
    Step clients s (.received c) (s.setStart c ⟨name, .store t prompt, guard⟩)
  | ended {s : State} {c t : Nat} {name : String} {guard : Option Nat} {login : Login}
    (hc : s.starts c = some ⟨name, .receive t, guard⟩) (ht : s.tasks t = some login)
    (hfinished : login.progress.isFinished = true) :
    Step clients s (.notReceived c) (s.setStart c ⟨name, .join t, guard⟩)
  | timedOut {s : State} {c t : Nat} {name : String} {guard : Option Nat} {login : Login}
    (hc : s.starts c = some ⟨name, .receive t, guard⟩) (ht : s.tasks t = some login)
    (hfinished : login.progress.isFinished = false) :
    Step clients s (.notReceived c)
      ((s.setTask t login.abort).setStart c ⟨name, .returning timedOut, guard⟩)
  | joined {s : State} {c t : Nat} {name : String} {guard : Option Nat} {login : Login}
    {result : LoginResult} (hc : s.starts c = some ⟨name, .join t, guard⟩)
    (ht : s.tasks t = some login) (hresult : login.progress = .finished result) :
    Step clients s (.joined c) (s.setStart c ⟨name, .returning (.ofResult result), guard⟩)
  | stored {s : State} {c t : Nat} {name : String} {guard : Option Nat} {prompt : AuthPrompt}
    (hc : s.starts c = some ⟨name, .store t prompt, guard⟩) :
    Step clients s (.stored c)
      ((s.setFlow name (some ⟨prompt, t⟩)).setStart c ⟨name, .returning (.prompt t prompt), none⟩)
  | returned {s : State} {c : Nat} {name : String} {guard : Option Nat} {answer : StartAnswer}
    (hc : s.starts c = some ⟨name, .returning answer, guard⟩) :
    Step clients s (.returned c)
      (((s.abort guard).releaseGate name c).setStart c ⟨name, .returned answer, none⟩)
  | cancelled {s : State} {c : Nat} {name : String} {guard : Option Nat} {point : StartPoint}
    (hc : s.starts c = some ⟨name, point, guard⟩) (hawait : point.atAwait = true) :
    Step clients s (.cancelled c)
      (((s.abort guard).releaseGate name c).setStart c ⟨name, .cancelled, none⟩)
  | shown {s : State} {t : Nat} {login : Login} {prompt : AuthPrompt}
    (ht : s.tasks t = some login) (hfinished : login.progress.isFinished = false)
    (hprompt : login.prompt = none) :
    Step clients s (.shown t prompt) (s.setTask t { login with prompt := some prompt })
  | finished {s : State} {t : Nat} {login : Login} {result : LoginResult}
    (ht : s.tasks t = some login) (hfinished : login.progress.isFinished = false) :
    Step clients s (.finished t result) (s.setTask t { login with progress := .finished result })
  | status {s : State} {d : Nat} {name : String} (hd : s.statuses d = none) :
    Step clients s (.status d name) (s.setStatus d ⟨name, .enter clients name⟩)
  | statusNone {s : State} {d : Nat} {name : String} (hd : s.statuses d = some ⟨name, .flows⟩)
    (hflow : s.flows name = none) :
    Step clients s (.statusLookup d) (s.setStatus d ⟨name, .probe⟩)
  | statusPending {s : State} {d : Nat} {name : String} {flow : AuthFlow} {login : Login}
    (hd : s.statuses d = some ⟨name, .flows⟩) (hflow : s.flows name = some flow)
    (ht : s.tasks flow.task = some login) (hfinished : login.progress.isFinished = false) :
    Step clients s (.statusLookup d) (s.setStatus d ⟨name, .returned .pending⟩)
  | statusFinished {s : State} {d : Nat} {name : String} {flow : AuthFlow} {login : Login}
    (hd : s.statuses d = some ⟨name, .flows⟩) (hflow : s.flows name = some flow)
    (ht : s.tasks flow.task = some login) (hfinished : login.progress.isFinished = true) :
    Step clients s (.statusLookup d) ((s.setFlow name none).setStatus d ⟨name, .join flow.task⟩)
  | statusJoined {s : State} {d t : Nat} {name : String} {login : Login} {result : LoginResult}
    (hd : s.statuses d = some ⟨name, .join t⟩) (ht : s.tasks t = some login)
    (hresult : login.progress = .finished result) :
    Step clients s (.statusJoined d) (s.setStatus d ⟨name, .ofResult name result⟩)
  | probed {s : State} {d : Nat} {name : String} {answer : Except RemoteError (Option String)}
    (hd : s.statuses d = some ⟨name, .probe⟩) :
    Step clients s (.probed d answer) (s.setStatus d ⟨name, .returned (.probed name answer)⟩)
  | statusCancelled {s : State} {d : Nat} {name : String} {point : StatusPoint}
    (hd : s.statuses d = some ⟨name, point⟩) (hawait : point.atAwait = true) :
    Step clients s (.statusCancelled d) (s.setStatus d ⟨name, .cancelled⟩)

/-- Any calls of `start` and `status` for any remotes, and the tasks that they spawn. -/
def machine (clients : String → Bool) : Machine State Event where
  Init s := s = .initial
  Step := Step clients

/-! ## What a call relies on -/

def Start.Answered (start : Start) : Prop :=
  ∃ t prompt,
    start.point = .returning (.prompt t prompt) ∨ start.point = .returned (.prompt t prompt)

/-- A task may go on like this, unless it is aborted. -/
structure Login.Later (login login' : Login) : Prop where
  name : login'.name = login.name
  startedBy : login'.startedBy = login.startedBy
  prompt : ∀ prompt, login.prompt = some prompt → login'.prompt = some prompt
  aborting : login'.progress = .aborting → login.progress = .aborting
  running : login'.progress = .running → login.progress = .running

theorem Login.Later.refl (login : Login) : login.Later login :=
  ⟨rfl, rfl, fun _ => id, id, id⟩

/-- Under the gate a start has spawned a task of its remote, and no flow is stored. -/
structure Owns (s : State) (c : Nat) (name : String) (t : Nat) : Prop where
  gate : s.startGates name = some c
  flow : s.flows name = none
  login : ∃ login, s.tasks t = some login ∧ login.name = name ∧ login.startedBy = c

/-- A task of the remote showed the prompt and is not aborted. -/
def Sent (s : State) (name : String) (t : Nat) (prompt : AuthPrompt) : Prop :=
  ∃ login, s.tasks t = some login ∧ login.name = name ∧ login.prompt = some prompt ∧
    login.progress ≠ .aborting

def NotAborted (s : State) (t : Nat) : Prop :=
  ∀ login, s.tasks t = some login → login.progress ≠ .aborting

def Start.Ok (s : State) (c : Nat) (start : Start) : Prop :=
  match start.point with
  | .gate | .returned _ | .cancelled => start.abortOnDrop = none
  | .flows => start.abortOnDrop = none ∧ s.startGates start.name = some c
  | .challenge =>
    start.abortOnDrop = none ∧ s.startGates start.name = some c ∧ s.flows start.name = none
  | .receive t => start.abortOnDrop = some t ∧ Owns s c start.name t ∧ NotAborted s t
  | .join t => start.abortOnDrop = some t ∧ Owns s c start.name t
  | .store t prompt =>
    start.abortOnDrop = some t ∧ Owns s c start.name t ∧ Sent s start.name t prompt
  | .returning (.prompt t prompt) =>
    start.abortOnDrop = none ∧ s.startGates start.name = some c ∧ Sent s start.name t prompt
  | .returning _ => ∀ t, start.abortOnDrop = some t → Owns s c start.name t

structure Keeps (s s' : State) (name : String) : Prop where
  gate : s'.startGates name = s.startGates name
  flow : s.flows name = none → s'.flows name = none
  task : ∀ t login, s.tasks t = some login → login.name = name →
    ∃ login', s'.tasks t = some login' ∧ login.Later login'

section
variable {s s' : State} {c t : Nat} {name : String} {start : Start} {prompt : AuthPrompt}

theorem Owns.keeps (h : Owns s c name t) (hk : Keeps s s' name) : Owns s' c name t := by
  obtain ⟨login, ht, hname, hc⟩ := h.login
  obtain ⟨login', ht', hlater⟩ := hk.task t login ht hname
  exact ⟨hk.gate.trans h.gate, hk.flow h.flow, login', ht', hlater.name.trans hname,
    hlater.startedBy.trans hc⟩

theorem Sent.keeps (h : Sent s name t prompt) (hk : Keeps s s' name) : Sent s' name t prompt := by
  obtain ⟨login, ht, hname, hprompt, hprogress⟩ := h
  obtain ⟨login', ht', hlater⟩ := hk.task t login ht hname
  exact ⟨login', ht', hlater.name.trans hname, hlater.prompt prompt hprompt,
    fun habort => hprogress (hlater.aborting habort)⟩

/-- The task that a start stops when it is dropped is its own. -/
theorem Start.Ok.owns (h : start.Ok s c) (ht : start.abortOnDrop = some t) :
    Owns s c start.name t := by
  obtain ⟨name, point, guard⟩ := start
  obtain rfl : guard = some t := ht
  match point, h with
  | .receive t', ⟨hguard, howns, _⟩ => exact Option.some.inj hguard ▸ howns
  | .join t', ⟨hguard, howns⟩ => exact Option.some.inj hguard ▸ howns
  | .store t' _, ⟨hguard, howns, _⟩ => exact Option.some.inj hguard ▸ howns
  | .returning (.prompt _ _), ⟨hguard, _⟩ => cases hguard
  | .returning .authenticated, h => exact h t rfl
  | .returning (.remoteFailure _), h => exact h t rfl
  | .returning (.localFailure _ _), h => exact h t rfl

theorem Start.Ok.keeps (h : start.Ok s c)
    (hk : s.startGates start.name = some c → Keeps s s' start.name) : start.Ok s' c := by
  obtain ⟨name, point, guard⟩ := start
  match point, h with
  | .gate, h | .returned _, h | .cancelled, h => exact h
  | .flows, ⟨hguard, hgate⟩ => exact ⟨hguard, (hk hgate).gate.trans hgate⟩
  | .challenge, ⟨hguard, hgate, hflow⟩ =>
    exact ⟨hguard, (hk hgate).gate.trans hgate, (hk hgate).flow hflow⟩
  | .receive t, ⟨hguard, howns, hprogress⟩ =>
    have hkeeps := hk howns.gate
    refine ⟨hguard, howns.keeps hkeeps, fun login' ht' habort => ?_⟩
    obtain ⟨login, ht, hname, _⟩ := howns.login
    obtain ⟨later, hlater', hlater⟩ := hkeeps.task t login ht hname
    obtain rfl := Option.some.inj (hlater'.symm.trans ht')
    exact hprogress login ht (hlater.aborting habort)
  | .join t, ⟨hguard, howns⟩ => exact ⟨hguard, howns.keeps (hk howns.gate)⟩
  | .store t prompt, ⟨hguard, howns, hsent⟩ =>
    exact ⟨hguard, howns.keeps (hk howns.gate), hsent.keeps (hk howns.gate)⟩
  | .returning (.prompt t prompt), ⟨hguard, hgate, hsent⟩ =>
    exact ⟨hguard, (hk hgate).gate.trans hgate, hsent.keeps (hk hgate)⟩
  | .returning .authenticated, h | .returning (.remoteFailure _), h
  | .returning (.localFailure _ _), h =>
    exact fun t ht => (h t ht).keeps (hk (h t ht).gate)

end

/-- Every start relies on what holds; a stored flow has the prompt of its task, whose start
returned it; and a running task has a stored flow or a start that waits for it. -/
structure Inv (s : State) : Prop where
  starts : ∀ c start, s.starts c = some start → start.Ok s c
  flows : ∀ name flow, s.flows name = some flow → ∃ login, s.tasks flow.task = some login ∧
    login.name = name ∧ login.prompt = some flow.prompt ∧ login.progress ≠ .aborting ∧
    ∃ start, s.starts login.startedBy = some start ∧ start.Answered
  running : ∀ t login, s.tasks t = some login → login.progress = .running →
    (∃ prompt, s.flows login.name = some ⟨prompt, t⟩) ∨
    ∃ start, s.starts login.startedBy = some start ∧ start.abortOnDrop = some t

/-! ## What a step keeps -/

section
variable {s : State} {c t : Nat} {name : String} {start : Start} {login login' : Login}

@[simp] theorem starts_setStart_self : (s.setStart c start).starts c = some start :=
  Function.update_self c _ s.starts

theorem starts_setStart_ne {c' : Nat} (h : c' ≠ c) :
    (s.setStart c start).starts c' = s.starts c' :=
  Function.update_of_ne h _ s.starts

/-- A start of the new state is the one that was set, or another one as it was. -/
theorem starts_setStart_cases {c' : Nat} {start' : Start}
    (h : (s.setStart c start).starts c' = some start') :
    c' = c ∧ start' = start ∨ c' ≠ c ∧ s.starts c' = some start' := by
  by_cases heq : c' = c
  · rw [heq, starts_setStart_self] at h
    exact .inl ⟨heq, (Option.some.inj h).symm⟩
  · exact .inr ⟨heq, (starts_setStart_ne heq).symm.trans h⟩

@[simp] theorem tasks_setTask_self : (s.setTask t login).tasks t = some login :=
  Function.update_self t _ s.tasks

theorem tasks_setTask_ne {t' : Nat} (h : t' ≠ t) : (s.setTask t login).tasks t' = s.tasks t' :=
  Function.update_of_ne h _ s.tasks

theorem tasks_setTask_cases {t' : Nat} {old : Login}
    (h : (s.setTask t login).tasks t' = some old) :
    t' = t ∧ old = login ∨ t' ≠ t ∧ s.tasks t' = some old := by
  by_cases heq : t' = t
  · rw [heq, tasks_setTask_self] at h
    exact .inl ⟨heq, (Option.some.inj h).symm⟩
  · exact .inr ⟨heq, (tasks_setTask_ne heq).symm.trans h⟩

theorem flows_setFlow_ne {flow : Option AuthFlow} {name' : String} (h : name' ≠ name) :
    (s.setFlow name flow).flows name' = s.flows name' :=
  Function.update_of_ne h _ s.flows

@[simp] theorem flows_setFlow_self {flow : Option AuthFlow} :
    (s.setFlow name flow).flows name = flow :=
  Function.update_self name _ s.flows

theorem setStart_setStart {start' : Start} :
    (s.setStart c start).setStart c start' = s.setStart c start' := by
  simp only [State.setStart, Function.update_idem]

theorem abort_setStart {guard : Option Nat} :
    (s.setStart c start).abort guard = (s.abort guard).setStart c start := by
  cases guard <;> rfl

theorem releaseGate_setStart :
    (s.setStart c start).releaseGate name c = (s.releaseGate name c).setStart c start := by
  unfold State.releaseGate State.setStart
  split <;> rfl

theorem Keeps.setTask {name' : String} (ht : s.tasks t = some login) (hlater : login.Later login') :
    Keeps s (s.setTask t login') name' where
  gate := rfl
  flow := id
  task t' old hold _ := by
    by_cases heq : t' = t
    · obtain rfl := heq
      obtain rfl := Option.some.inj (ht.symm.trans hold)
      exact ⟨login', tasks_setTask_self, hlater⟩
    · exact ⟨old, (tasks_setTask_ne heq).trans hold, .refl old⟩

theorem Keeps.setStart {name' : String} : Keeps s (s.setStart c start) name' :=
  ⟨rfl, id, fun _ login ht _ => ⟨login, ht, .refl login⟩⟩

theorem Inv.setStart (h : Inv s) (hok : start.Ok s c)
    (hold : ∀ old, s.starts c = some old → (old.Answered → start.Answered) ∧
      ∀ t login, old.abortOnDrop = some t → s.tasks t = some login →
        login.progress = .running → start.abortOnDrop = some t) :
    Inv (s.setStart c start) where
  starts c' start' hc' := by
    rcases starts_setStart_cases hc' with ⟨rfl, rfl⟩ | ⟨_, hother⟩
    · exact hok.keeps fun _ => .setStart
    · exact (h.starts c' start' hother).keeps fun _ => .setStart
  flows name flow hflow := by
    obtain ⟨login, ht, hname, hprompt, hprogress, old, hold', hanswered⟩ := h.flows name flow hflow
    refine ⟨login, ht, hname, hprompt, hprogress, ?_⟩
    by_cases heq : login.startedBy = c
    · rw [heq] at hold' ⊢
      exact ⟨start, starts_setStart_self, (hold old hold').1 hanswered⟩
    · exact ⟨old, (starts_setStart_ne heq).trans hold', hanswered⟩
  running t login ht hrunning := by
    rcases h.running t login ht hrunning with hflow | ⟨old, hold', hguard⟩
    · exact .inl hflow
    · refine .inr ?_
      by_cases heq : login.startedBy = c
      · rw [heq] at hold' ⊢
        exact ⟨start, starts_setStart_self, (hold old hold').2 t login hguard ht hrunning⟩
      · exact ⟨old, (starts_setStart_ne heq).trans hold', hguard⟩

theorem Inv.setStatus (h : Inv s) {d : Nat} {status : Status} : Inv (s.setStatus d status) where
  starts c' start' hc' := (h.starts c' start' hc').keeps fun _ =>
    ⟨rfl, id, fun _ login ht _ => ⟨login, ht, .refl login⟩⟩
  flows := h.flows
  running := h.running

theorem Inv.takeGate (h : Inv s) (hgate : s.startGates name = none) (c : Nat) :
    Inv (s.takeGate name c) where
  starts c' start' hc' := by
    refine (h.starts c' start' hc').keeps fun hheld => ⟨?_, id, fun t login ht _ => ?_⟩
    · refine Function.update_of_ne (fun heq => ?_) _ _
      rw [heq, hgate] at hheld
      cases hheld
    · exact ⟨login, ht, .refl login⟩
  flows := h.flows
  running := h.running

theorem Inv.releaseGate (h : Inv s) (name : String)
    (hc : ∀ start, s.starts c = some start →
      start.abortOnDrop = none ∧ ∀ s : State, start.abortOnDrop = none → start.Ok s c) :
    Inv (s.releaseGate name c) := by
  unfold State.releaseGate
  split
  · rename_i hgate
    refine ⟨fun c' start' hc' => ?_, h.flows, h.running⟩
    by_cases heq : c' = c
    · obtain rfl := heq
      exact (hc start' hc').2 _ (hc start' hc').1
    · refine (h.starts c' start' hc').keeps fun hheld => ⟨?_, id, fun t login ht _ => ?_⟩
      · refine Function.update_of_ne (fun hname => ?_) _ _
        rw [hname, hgate] at hheld
        exact heq (Option.some.inj hheld).symm
      · exact ⟨login, ht, .refl login⟩
  · exact h

theorem Inv.setTask (h : Inv s) (ht : s.tasks t = some login) (hlater : login.Later login') :
    Inv (s.setTask t login') where
  starts c' start' hc' := (h.starts c' start' hc').keeps fun _ => .setTask ht hlater
  flows name flow hflow := by
    obtain ⟨old, ht', hname, hprompt, hprogress, hstart⟩ := h.flows name flow hflow
    by_cases heq : flow.task = t
    · rw [heq] at ht' ⊢
      obtain rfl := Option.some.inj (ht.symm.trans ht')
      refine ⟨login', tasks_setTask_self, hlater.name.trans hname, hlater.prompt _ hprompt,
        fun habort => hprogress (hlater.aborting habort), ?_⟩
      rw [hlater.startedBy]
      exact hstart
    · exact ⟨old, (tasks_setTask_ne heq).trans ht', hname, hprompt, hprogress, hstart⟩
  running t' old hold hrunning := by
    rcases tasks_setTask_cases hold with ⟨rfl, rfl⟩ | ⟨_, hother⟩
    · rw [hlater.name, hlater.startedBy]
      exact h.running t' login ht (hlater.running hrunning)
    · exact h.running t' old hother hrunning

theorem Inv.removeFlow (h : Inv s) {flow : AuthFlow} (hflow : s.flows name = some flow)
    (ht : s.tasks flow.task = some login) (hfinished : login.progress.isFinished = true) :
    Inv (s.setFlow name none) where
  starts c' start' hc' := by
    refine (h.starts c' start' hc').keeps fun _ => ⟨rfl, fun hnone => ?_, fun t old hold _ => ?_⟩
    · by_cases heq : start'.name = name
      · rw [heq]
        exact flows_setFlow_self
      · exact (flows_setFlow_ne heq).trans hnone
    · exact ⟨old, hold, .refl old⟩
  flows name' flow' hflow' := by
    by_cases heq : name' = name
    · rw [heq, flows_setFlow_self] at hflow'
      cases hflow'
    · exact h.flows name' flow' ((flows_setFlow_ne heq).symm.trans hflow')
  running t old hold hrunning := by
    rcases h.running t old hold hrunning with ⟨prompt, hstored⟩ | hstart
    · by_cases heq : old.name = name
      · -- the removed flow is that of a finished task
        rw [heq, hflow] at hstored
        obtain rfl := Option.some.inj hstored
        obtain rfl := Option.some.inj (ht.symm.trans hold)
        rw [hrunning] at hfinished
        cases hfinished
      · exact .inl ⟨prompt, (flows_setFlow_ne heq).trans hstored⟩
    · exact .inr hstart

theorem Inv.abort (h : Inv s) {answer : StartAnswer} {guard : Option Nat}
    (hc : s.starts c = some ⟨name, .returning answer, guard⟩) : Inv (s.abort guard) := by
  cases guard with
  | none => exact h
  | some t =>
    have hok := h.starts c _ hc
    have howns : Owns s c name t := hok.owns rfl
    obtain ⟨login, ht, hname, hstartedBy⟩ := howns.login
    have hself : (s.abort (some t)).tasks t = some login.abort := by
      simp only [State.abort, Function.update_self, ht, Option.map_some]
    have hother : ∀ {t'}, t' ≠ t → (s.abort (some t)).tasks t' = s.tasks t' :=
      fun hne => Function.update_of_ne hne _ s.tasks
    have habort : login.abort.name = login.name ∧ login.abort.startedBy = login.startedBy ∧
        login.abort.progress ≠ .running := by
      unfold Login.abort
      split
      · exact ⟨rfl, rfl, nofun⟩
      · rename_i hnot
        exact ⟨rfl, rfl, hnot⟩
    refine ⟨fun c' start' hc' => ?_, fun name' flow hflow => ?_, fun t' old hold hrunning => ?_⟩
    · by_cases heq : c' = c
      · obtain rfl := heq
        obtain rfl := Option.some.inj (hc.symm.trans hc')
        have hkept : Owns (s.abort (some t)) c' name t :=
          ⟨howns.gate, howns.flow, _, hself, habort.1.trans hname, habort.2.1.trans hstartedBy⟩
        match answer, hok with
        | .prompt _ _, ⟨hguard, _⟩ => cases hguard
        | .authenticated, _ | .remoteFailure _, _ | .localFailure _ _, _ =>
          exact fun t' ht' => Option.some.inj ht' ▸ hkept
      · -- another start has the gate of another remote
        refine (h.starts c' start' hc').keeps fun hgate => ⟨rfl, id, fun t' old hold hold' => ?_⟩
        refine ⟨old, (hother fun ht' => heq ?_).trans hold, .refl old⟩
        rw [ht', ht] at hold
        rw [← hold', ← Option.some.inj hold, hname, howns.gate] at hgate
        exact (Option.some.inj hgate).symm
    · obtain ⟨old, hold, hold', hrest⟩ := h.flows name' flow hflow
      refine ⟨old, (hother fun ht' => ?_).trans hold, hold', hrest⟩
      rw [ht', ht] at hold
      rw [← hold', ← Option.some.inj hold, hname] at hflow
      exact absurd (hflow.symm.trans howns.flow) nofun
    · by_cases heq : t' = t
      · rw [heq] at hold
        obtain rfl := Option.some.inj (hself.symm.trans hold)
        exact absurd hrunning habort.2.2
      · exact h.running t' old ((hother heq).symm.trans hold) hrunning

theorem not_running_abort {guard : Option Nat} (hguard : guard = some t)
    (ht : (s.abort guard).tasks t = some login) : login.progress ≠ .running := by
  rw [hguard] at ht
  simp only [State.abort, Function.update_self, Option.map_eq_some_iff] at ht
  obtain ⟨old, _, rfl⟩ := ht
  unfold Login.abort
  split
  · nofun
  · rename_i hnot
    exact hnot

theorem Inv.leave (h : Inv s) {answer : StartAnswer} {guard : Option Nat} {point : StartPoint}
    (hc : s.starts c = some ⟨name, .returning answer, guard⟩)
    (hpoint : point = .returned answer ∨
      point = .cancelled ∧ ∀ t prompt, answer ≠ .prompt t prompt) :
    Inv (((s.abort guard).releaseGate name c).setStart c ⟨name, point, none⟩) := by
  have hended : ∀ s : State, Start.Ok s c ⟨name, point, none⟩ := by
    rcases hpoint with rfl | ⟨rfl, _⟩ <;> exact fun _ => rfl
  have hstarts : (s.abort guard).starts = s.starts := by cases guard <;> rfl
  have hset : Inv ((s.abort guard).setStart c ⟨name, point, none⟩) := by
    refine (h.abort hc).setStart (hended _) fun old hold => ?_
    rw [hstarts, hc] at hold
    obtain rfl := Option.some.inj hold
    refine ⟨?_, fun t login hguard ht hrunning => absurd hrunning (not_running_abort hguard ht)⟩
    rintro ⟨t, prompt, hanswer | hanswer⟩
    · obtain rfl : answer = .prompt t prompt := StartPoint.returning.inj hanswer
      rcases hpoint with rfl | ⟨_, hnot⟩
      · exact ⟨t, prompt, .inr rfl⟩
      · exact absurd rfl (hnot t prompt)
    · cases hanswer
  have hreleased := hset.releaseGate (c := c) name fun start hstart => by
    obtain rfl := Option.some.inj (starts_setStart_self.symm.trans hstart)
    exact ⟨rfl, fun s _ => hended s⟩
  exact releaseGate_setStart ▸ hreleased

theorem not_answered {point : StartPoint} {guard : Option Nat} (h : point.atAwait = true) :
    ¬Start.Answered ⟨name, point, guard⟩ := by
  rintro ⟨t, prompt, rfl | rfl⟩ <;> cases h

theorem Inv.flow_setStart (h : Inv s) {old : Start} {name : String} {flow : AuthFlow}
    (hc : s.starts c = some old) (hold : ¬old.Answered) (hflow : s.flows name = some flow) :
    ∃ login, s.tasks flow.task = some login ∧ login.name = name ∧
      login.prompt = some flow.prompt ∧ login.progress ≠ .aborting ∧
      ∃ start', (s.setStart c start).starts login.startedBy = some start' ∧ start'.Answered := by
  obtain ⟨login, ht, hname, hprompt, hprogress, start', hstart', hanswered⟩ :=
    h.flows name flow hflow
  refine ⟨login, ht, hname, hprompt, hprogress, start', ?_, hanswered⟩
  refine (starts_setStart_ne fun hby => ?_).trans hstart'
  rw [hby, hc] at hstart'
  obtain rfl := Option.some.inj hstart'
  exact hold hanswered

theorem Inv.spawn (h : Inv s) {guard : Option Nat}
    (hc : s.starts c = some ⟨name, .challenge, guard⟩) (ht : s.tasks t = none) :
    Inv ((s.setTask t { name, startedBy := c }).setStart c ⟨name, .receive t, some t⟩) := by
  obtain ⟨hguard, hgate, hflow⟩ := h.starts c _ hc
  have hfresh : ∀ {t' old}, s.tasks t' = some old → t' ≠ t := by
    rintro t' old hold rfl
    rw [ht] at hold
    cases hold
  have hother : ∀ {t' old}, s.tasks t' = some old →
      (s.setTask t { name, startedBy := c }).tasks t' = some old :=
    fun hold => (tasks_setTask_ne (hfresh hold)).trans hold
  refine ⟨fun c' start' hc' => ?_, fun name' flow hflow' => ?_, fun t' old hold hrunning => ?_⟩
  · rcases starts_setStart_cases hc' with ⟨rfl, rfl⟩ | ⟨_, hold'⟩
    · refine ⟨rfl, ⟨hgate, hflow, _, tasks_setTask_self, rfl, rfl⟩, fun login hlogin => ?_⟩
      obtain rfl := Option.some.inj (tasks_setTask_self.symm.trans hlogin)
      nofun
    · exact (h.starts c' start' hold').keeps fun _ =>
        ⟨rfl, id, fun t' old hold _ => ⟨old, hother hold, .refl old⟩⟩
  · obtain ⟨login, hlogin, hrest⟩ := h.flow_setStart hc (not_answered rfl) hflow'
    exact ⟨login, hother hlogin, hrest⟩
  · rcases tasks_setTask_cases hold with ⟨rfl, rfl⟩ | ⟨_, hold'⟩
    · exact .inr ⟨_, starts_setStart_self, rfl⟩
    · rcases h.running t' old hold' hrunning with hstored | ⟨start', hstart', hguard'⟩
      · exact .inl hstored
      · refine .inr ⟨start', (starts_setStart_ne fun hby => ?_).trans hstart', hguard'⟩
        rw [hby, hc] at hstart'
        obtain rfl := Option.some.inj hstart'
        cases hguard.symm.trans hguard'

theorem Inv.stored (h : Inv s) {guard : Option Nat} {prompt : AuthPrompt}
    (hc : s.starts c = some ⟨name, .store t prompt, guard⟩) :
    Inv ((s.setFlow name (some ⟨prompt, t⟩)).setStart c
      ⟨name, .returning (.prompt t prompt), none⟩) := by
  obtain ⟨hguard, howns, hsent⟩ := h.starts c _ hc
  obtain ⟨login, ht, hname, hstartedBy⟩ := howns.login
  refine ⟨fun c' start' hc' => ?_, fun name' flow hflow' => ?_, fun t' old hold hrunning => ?_⟩
  · rcases starts_setStart_cases hc' with ⟨rfl, rfl⟩ | ⟨heq, hold⟩
    · exact ⟨rfl, howns.gate, hsent⟩
    · refine (h.starts c' start' hold).keeps fun hgate =>
        ⟨rfl, fun hnone => ?_, fun t' old hold _ => ⟨old, hold, .refl old⟩⟩
      refine (flows_setFlow_ne fun hname' => heq ?_).trans hnone
      rw [hname', howns.gate] at hgate
      exact (Option.some.inj hgate).symm
  · by_cases heq : name' = name
    · rw [heq] at hflow' ⊢
      obtain rfl := Option.some.inj (flows_setFlow_self.symm.trans hflow')
      obtain ⟨login', ht', _, hprompt, hprogress⟩ := hsent
      obtain rfl := Option.some.inj (ht.symm.trans ht')
      refine ⟨login, ht, hname, hprompt, hprogress, ?_⟩
      rw [hstartedBy]
      exact ⟨_, starts_setStart_self, t, prompt, .inl rfl⟩
    · exact h.flow_setStart hc (not_answered rfl) ((flows_setFlow_ne heq).symm.trans hflow')
  · rcases h.running t' old hold hrunning with ⟨prompt', hstored⟩ | ⟨start', hstart', hguard'⟩
    · refine .inl ⟨prompt', (flows_setFlow_ne fun hname' => ?_).trans hstored⟩
      rw [hname', howns.flow] at hstored
      cases hstored
    · by_cases hby : old.startedBy = c
      · -- the task that is stored
        rw [hby, hc] at hstart'
        obtain rfl := Option.some.inj hstart'
        obtain rfl : t' = t := Option.some.inj (hguard'.symm.trans hguard)
        obtain rfl := Option.some.inj (ht.symm.trans hold)
        rw [hname]
        exact .inl ⟨prompt, flows_setFlow_self⟩
      · exact .inr ⟨start', (starts_setStart_ne hby).trans hstart', hguard'⟩

theorem Inv.advance (h : Inv s) {point point' : StartPoint} {guard : Option Nat}
    (hc : s.starts c = some ⟨name, point, guard⟩) (hawait : point.atAwait = true)
    (hok : Start.Ok s c ⟨name, point', guard⟩) : Inv (s.setStart c ⟨name, point', guard⟩) := by
  refine h.setStart hok fun old hold => ?_
  obtain rfl := Option.some.inj (hc.symm.trans hold)
  exact ⟨fun hanswered => absurd hanswered (not_answered hawait), fun t login hguard _ _ => hguard⟩

theorem Inv.step {clients : String → Bool} {e : Event} {s' : State} (h : Inv s)
    (hs : Step clients s e s') : Inv s' := by
  cases hs with
  | @start c name hc =>
    refine h.setStart ?_ fun old hold => ?_
    · unfold StartPoint.enter
      split
      · exact rfl
      · exact fun t ht => nomatch ht
    · rw [hc] at hold
      cases hold
  | @gate c name guard hc hgate =>
    exact (h.takeGate hgate c).advance hc rfl ⟨h.starts c _ hc, Function.update_self _ _ _⟩
  | @lookup c name guard hc =>
    obtain ⟨hguard, hgate⟩ := h.starts c _ hc
    refine h.advance hc rfl ?_
    cases hflow : s.flows name with
    | none => exact ⟨hguard, hgate, hflow⟩
    | some flow =>
      obtain ⟨login, ht, hname, hprompt, hprogress, _⟩ := h.flows name flow hflow
      exact ⟨hguard, hgate, login, ht, hname, hprompt, hprogress⟩
  | challengeFailed hc =>
    obtain ⟨hguard, _⟩ := h.starts _ _ hc
    exact h.advance hc rfl fun t ht => nomatch hguard.symm.trans ht
  | noChallenge hc =>
    obtain ⟨hguard, _⟩ := h.starts _ _ hc
    exact h.advance hc rfl fun t ht => nomatch hguard.symm.trans ht
  | spawn hc ht => exact h.spawn hc ht
  | received hc ht hprompt =>
    obtain ⟨hguard, howns, hprogress⟩ := h.starts _ _ hc
    obtain ⟨login, ht', hname, _⟩ := howns.login
    obtain rfl := Option.some.inj (ht.symm.trans ht')
    exact h.advance hc rfl ⟨hguard, howns, _, ht, hname, hprompt, hprogress _ ht⟩
  | ended hc ht hfinished =>
    obtain ⟨hguard, howns, _⟩ := h.starts _ _ hc
    exact h.advance hc rfl ⟨hguard, howns⟩
  | @timedOut c t name guard login hc ht hfinished =>
    have hok := h.starts c _ hc
    obtain ⟨hguard, _⟩ := h.starts c _ hc
    have hset : Inv (s.setStart c ⟨name, .returning timedOut, guard⟩) :=
      h.advance hc rfl fun _ ht' => hok.owns ht'
    have habort := hset.abort starts_setStart_self
    have heq : (s.setStart c ⟨name, .returning timedOut, guard⟩).abort guard =
        (s.setTask t login.abort).setStart c ⟨name, .returning timedOut, guard⟩ := by
      obtain rfl : guard = some t := hguard
      simp only [State.abort, State.setStart, State.setTask, ht, Option.map_some]
    exact heq ▸ habort
  | @joined c t name guard login result hc ht hresult =>
    have hok := h.starts c _ hc
    refine h.advance hc rfl ?_
    match result with
    | none | some (.ok ()) | some (.error _) => exact fun t ht => hok.owns ht
  | stored hc => exact h.stored hc
  | returned hc => exact h.leave hc (.inl rfl)
  | @cancelled c name guard point hc hawait =>
    have hok := h.starts c _ hc
    have hset : Inv (s.setStart c ⟨name, .returning .authenticated, guard⟩) :=
      h.advance hc hawait fun _ ht => hok.owns ht
    have hleave := hset.leave starts_setStart_self (.inr ⟨rfl, nofun⟩)
    rw [abort_setStart, releaseGate_setStart, setStart_setStart] at hleave
    exact hleave
  | shown ht hfinished hprompt =>
    refine h.setTask ht ⟨rfl, rfl, fun prompt hold => ?_, id, id⟩
    rw [hprompt] at hold
    cases hold
  | finished ht hfinished => exact h.setTask ht ⟨rfl, rfl, fun _ => id, nofun, nofun⟩
  | statusFinished hd hflow ht hfinished => exact (h.removeFlow hflow ht hfinished).setStatus
  | status hd | statusNone hd _ | statusPending hd _ _ _ | statusJoined hd _ _ | probed hd
  | statusCancelled hd _ => exact h.setStatus

end

/-! ## Prompts of running tasks -/

/-- A start that has the prompt of the task, or can receive it. -/
def Start.HasPrompt (tasks : Nat → Option Login) (start : Start) (t : Nat) : Prop :=
  match start.point with
  | .receive t' => t' = t ∧ ∃ login prompt, tasks t = some login ∧ login.prompt = some prompt
  | .store t' _ | .returning (.prompt t' _) => t' = t
  | _ => False

/-- No flow is read whose task has finished, and no task finishes whose prompt a start has. -/
def Timely (s : State) : Event → Prop
  | .lookup c => ∀ start flow login, s.starts c = some start → s.flows start.name = some flow →
    s.tasks flow.task = some login → login.progress.isFinished = false
  | .finished t _ => ∀ c start, s.starts c = some start → ¬start.HasPrompt s.tasks t
  | _ => True

/-- The task of a prompt that a start has is not finished. -/
def Live (s : State) : Prop :=
  ∀ c start t login, s.starts c = some start → start.HasPrompt s.tasks t →
    s.tasks t = some login → login.progress.isFinished = false

section
variable {s : State} {c t : Nat} {name : String} {start : Start} {login login' : Login}

theorem Start.HasPrompt.congr {tasks tasks' : Nat → Option Login} (h : start.HasPrompt tasks' t)
    (ht : ∀ login' prompt, tasks' t = some login' → login'.prompt = some prompt →
      ∃ login, tasks t = some login ∧ login.prompt = some prompt) : start.HasPrompt tasks t := by
  obtain ⟨name, point, guard⟩ := start
  match point, h with
  | .receive _, ⟨heq, login', prompt, hlogin, hprompt⟩ =>
    obtain ⟨login, hlogin, hprompt⟩ := ht login' prompt hlogin hprompt
    exact ⟨heq, login, prompt, hlogin, hprompt⟩
  | .store _ _, h => exact h
  | .returning (.prompt _ _), h => exact h

theorem Live.setStart (h : Live s) (hstart : ∀ t login, start.HasPrompt s.tasks t →
    s.tasks t = some login → login.progress.isFinished = false) : Live (s.setStart c start) := by
  intro c' start' t login hc' hprompt ht
  rcases starts_setStart_cases hc' with ⟨rfl, rfl⟩ | ⟨_, hother⟩
  · exact hstart t login hprompt ht
  · exact h c' start' t login hother hprompt ht

theorem Live.setTask (h : Live s) (hfinished : login.progress.isFinished = true →
    ∀ c start, s.starts c = some start → ¬start.HasPrompt (s.setTask t login).tasks t) :
    Live (s.setTask t login) := by
  intro c' start' t' old hc' hprompt ht'
  rcases tasks_setTask_cases ht' with ⟨rfl, rfl⟩ | ⟨heq, hold⟩
  · by_contra hnot
    rw [Bool.not_eq_false] at hnot
    exact hfinished hnot c' start' hc' hprompt
  · refine h c' start' t' old hc' (hprompt.congr fun login' prompt hlogin hprompt => ?_) hold
    exact ⟨login', (tasks_setTask_ne heq).symm.trans hlogin, hprompt⟩

theorem isFinished_abort : login.abort.progress.isFinished = login.progress.isFinished := by
  unfold Login.abort
  split
  · rename_i hrunning
    rw [hrunning]
    rfl
  · rfl

theorem prompt_abort : login.abort.prompt = login.prompt := by
  unfold Login.abort
  split <;> rfl

theorem Live.abort (h : Live s) (guard : Option Nat) : Live (s.abort guard) := by
  cases guard with
  | none => exact h
  | some t =>
    cases ht : s.tasks t with
    | none =>
      have heq : s.abort (some t) = s := by
        simp only [State.abort, ht, Option.map_none]
        rw [← ht, Function.update_eq_self]
      rw [heq]
      exact h
    | some login =>
      have heq : s.abort (some t) = s.setTask t login.abort := by
        simp only [State.abort, State.setTask, ht, Option.map_some]
      rw [heq]
      refine h.setTask fun hfinished c start hc hprompt => ?_
      rw [isFinished_abort] at hfinished
      refine absurd (h c start t login hc (hprompt.congr ?_) ht) (by rw [hfinished]; decide)
      intro login' prompt hlogin hprompt
      obtain rfl := Option.some.inj (tasks_setTask_self.symm.trans hlogin)
      exact ⟨login, ht, prompt_abort.symm.trans hprompt⟩

theorem Live.releaseGate (h : Live s) (name : String) (c : Nat) : Live (s.releaseGate name c) := by
  unfold State.releaseGate
  split <;> exact h

theorem Live.step {clients : String → Bool} {e : Event} {s' : State} (h : Live s)
    (htimely : Timely s e) (hs : Step clients s e s') : Live s' := by
  cases hs with
  | @start c name hc =>
    refine h.setStart fun t login hprompt _ => ?_
    unfold StartPoint.enter at hprompt
    split at hprompt <;> exact hprompt.elim
  | gate hc hgate => exact h.setStart fun _ _ hprompt _ => hprompt.elim
  | @lookup c name guard hc =>
    refine h.setStart fun t login hprompt ht => ?_
    cases hflow : s.flows name with
    | none =>
      rw [hflow] at hprompt
      exact hprompt.elim
    | some flow =>
      rw [hflow] at hprompt
      obtain rfl : flow.task = t := hprompt
      exact htimely _ flow login hc hflow ht
  | challengeFailed hc | noChallenge hc | ended hc _ _ =>
    exact h.setStart fun _ _ hprompt _ => hprompt.elim
  | spawn hc ht =>
    refine (h.setTask fun habsurd => by cases habsurd).setStart fun t' login hprompt ht' => ?_
    obtain ⟨rfl, login', prompt, hlogin, hsent⟩ := hprompt
    obtain rfl := Option.some.inj (tasks_setTask_self.symm.trans hlogin)
    cases hsent
  | received hc ht hsent =>
    refine h.setStart fun t' login hprompt ht' => ?_
    obtain rfl : _ = t' := hprompt
    exact h _ _ _ login hc ⟨rfl, _, _, ht, hsent⟩ ht'
  | timedOut hc ht hfinished =>
    refine (h.setTask fun habort => ?_).setStart fun _ _ hprompt _ => hprompt.elim
    rw [isFinished_abort, hfinished] at habort
    cases habort
  | @joined c t name guard login result hc ht hresult =>
    refine h.setStart fun _ _ hprompt _ => ?_
    match result with
    | none | some (.ok ()) | some (.error _) => exact hprompt.elim
  | @stored c t name guard prompt hc =>
    have hset : Live (s.setFlow name (some ⟨prompt, t⟩)) := h
    refine hset.setStart fun t' login hprompt ht' => ?_
    obtain rfl : _ = t' := hprompt
    exact h _ _ _ login hc rfl ht'
  | returned hc | cancelled hc _ =>
    exact ((h.abort _).releaseGate _ _).setStart fun _ _ hprompt _ => hprompt.elim
  | shown ht hfinished hprompt =>
    refine h.setTask fun habsurd => ?_
    rw [hfinished] at habsurd
    cases habsurd
  | @finished t login result ht hfinished =>
    refine h.setTask fun _ c start hc hprompt => htimely c start hc (hprompt.congr ?_)
    intro login' prompt hlogin hprompt
    obtain rfl := Option.some.inj (tasks_setTask_self.symm.trans hlogin)
    exact ⟨login, ht, hprompt⟩
  | status hd | statusNone hd _ | statusPending hd _ _ _ | statusFinished hd _ _ _
  | statusJoined hd _ _ | probed hd | statusCancelled hd _ => exact h

end

/-! ## Runs -/

section
variable {clients : String → Bool} {s : State}

theorem inv_initial : Inv .initial := ⟨nofun, nofun, nofun⟩

theorem reachable_inv (h : (machine clients).Reachable s) : Inv s :=
  h.invariant (fun _ hinit => hinit ▸ inv_initial) fun _ _ _ _ hinv hstep => hinv.step hstep

/-- A running task is that of the flow of its remote, or a start that has the gate of the
remote will stop it, and there is no flow. -/
theorem Inv.tracked (h : Inv s) {t : Nat} {login : Login} (ht : s.tasks t = some login)
    (hrunning : login.progress = .running) :
    (∃ prompt, s.flows login.name = some ⟨prompt, t⟩) ∨
    s.flows login.name = none ∧ s.startGates login.name = some login.startedBy ∧
      ∃ start, s.starts login.startedBy = some start ∧ start.abortOnDrop = some t := by
  rcases h.running t login ht hrunning with hflow | ⟨start, hstart, hguard⟩
  · exact .inl hflow
  · have howns := (h.starts _ start hstart).owns hguard
    obtain ⟨login', ht', hname, _⟩ := howns.login
    obtain rfl := Option.some.inj (ht.symm.trans ht')
    rw [hname]
    exact .inr ⟨howns.flow, howns.gate, start, hstart, hguard⟩

theorem Inv.unique (h : Inv s) {t t' : Nat} {login login' : Login} (ht : s.tasks t = some login)
    (ht' : s.tasks t' = some login') (hname : login.name = login'.name)
    (hrunning : login.progress = .running) (hrunning' : login'.progress = .running) : t = t' := by
  rcases h.tracked ht hrunning with ⟨prompt, hflow⟩ | ⟨hnone, hgate, start, hstart, hguard⟩ <;>
    rcases h.tracked ht' hrunning' with
      ⟨prompt', hflow'⟩ | ⟨hnone', hgate', start', hstart', hguard'⟩
  · rw [← hname, hflow] at hflow'
    cases hflow'
    rfl
  · rw [← hname, hflow] at hnone'
    cases hnone'
  · rw [← hname, hnone] at hflow'
    cases hflow'
  · rw [← hname, hgate] at hgate'
    rw [← Option.some.inj hgate', hstart] at hstart'
    obtain rfl := Option.some.inj hstart'
    exact Option.some.inj (hguard.symm.trans hguard')

def Start.Without (start : Start) : Prop :=
  start.point = .cancelled ∨
    ∃ answer, start.point = .returned answer ∧ ∀ t prompt, answer ≠ .prompt t prompt

theorem Start.Without.not_answered {start : Start} (h : start.Without) : ¬start.Answered := by
  rintro ⟨t, prompt, hpoint | hpoint⟩ <;> rcases h with h | ⟨answer, h, hnot⟩
  · cases hpoint.symm.trans h
  · cases hpoint.symm.trans h
  · cases hpoint.symm.trans h
  · exact hnot t prompt (StartPoint.returned.inj (h.symm.trans hpoint))

/-- A start that ended without a prompt left no flow and no running task. -/
theorem Inv.left (h : Inv s) {c : Nat} {start : Start} (hc : s.starts c = some start)
    (hwithout : start.Without) {t : Nat} {login : Login} (ht : s.tasks t = some login)
    (hstartedBy : login.startedBy = c) :
    login.progress ≠ .running ∧ ∀ name prompt, s.flows name ≠ some ⟨prompt, t⟩ := by
  have hflow : ∀ name prompt, s.flows name ≠ some ⟨prompt, t⟩ := by
    intro name prompt hflow
    obtain ⟨login', ht', _, _, _, start', hstart', hanswered⟩ := h.flows name _ hflow
    obtain rfl := Option.some.inj (ht.symm.trans ht')
    rw [hstartedBy, hc] at hstart'
    obtain rfl := Option.some.inj hstart'
    exact hwithout.not_answered hanswered
  refine ⟨fun hrunning => ?_, hflow⟩
  rcases h.running t login ht hrunning with ⟨prompt, hstored⟩ | ⟨start', hstart', hguard⟩
  · exact hflow _ prompt hstored
  · rw [hstartedBy, hc] at hstart'
    obtain rfl := Option.some.inj hstart'
    have hok := h.starts c start hc
    obtain ⟨name, point, guard⟩ := start
    rcases hwithout with hpoint | ⟨answer, hpoint, _⟩ <;> obtain rfl : point = _ := hpoint <;>
      cases hguard.symm.trans hok

theorem timely_live (h : ((machine clients).restrict Timely).Reachable s) : Live s := by
  refine h.invariant (fun _ hinit => ?_) fun a e b _ hlive hstep => ?_
  · intro c start t login hc
    rw [hinit] at hc
    cases hc
  · exact hlive.step hstep.2 hstep.1

/-- In every run at most one task of a remote is running, and a start that was cancelled or
returned no prompt left no running task and no flow. In a run whose steps are all `Timely`
a start returns the prompt of a task that is running. -/
theorem prompts_live (h : (machine clients).Reachable s) :
    (∀ t t' login login', s.tasks t = some login → s.tasks t' = some login' →
      login.name = login'.name → login.progress = .running → login'.progress = .running →
      t = t') ∧
    (∀ c start, s.starts c = some start → start.Without →
      ∀ t login, s.tasks t = some login → login.startedBy = c →
        login.progress ≠ .running ∧ ∀ name prompt, s.flows name ≠ some ⟨prompt, t⟩) ∧
    (((machine clients).restrict Timely).Reachable s →
      ∀ c start t prompt s', s.starts c = some start →
        start.point = .returning (.prompt t prompt) → Step clients s (.returned c) s' →
        ∃ login, s'.tasks t = some login ∧ login.name = start.name ∧
          login.prompt = some prompt ∧ login.progress = .running) := by
  have hinv := reachable_inv h
  refine ⟨fun t t' login login' ht ht' hname => hinv.unique ht ht' hname,
    fun c start hc hwithout t login ht hby => hinv.left hc hwithout ht hby, ?_⟩
  intro htimely c start t prompt s' hc hpoint hstep
  obtain ⟨name, point, guard⟩ := start
  obtain rfl : point = .returning (.prompt t prompt) := hpoint
  obtain ⟨hguard, _, login, ht, hname, hsent, hprogress⟩ := hinv.starts c _ hc
  obtain rfl : guard = none := hguard
  have hfinished := timely_live htimely c _ t login hc rfl ht
  have hrunning : login.progress = .running := by
    match hp : login.progress with
    | .running => rfl
    | .aborting => exact absurd hp hprogress
    | .finished _ =>
      rw [hp] at hfinished
      cases hfinished
  have htasks : s'.tasks = s.tasks := by
    cases hstep with
    | @returned _ name' guard' answer hc' =>
      rw [hc] at hc'
      cases hc'
      show (s.releaseGate name c).tasks = s.tasks
      unfold State.releaseGate
      split <;> rfl
  exact ⟨login, htasks ▸ ht, hname, hsent, hrunning⟩

end

theorem demo_run : ∃ s, ((machine fun _ => true).restrict Timely).Reachable s ∧
    s.starts 0 = some ⟨"r", .returning (.prompt 0 (.device "v" "u")), none⟩ := by
  refine ⟨_, ⟨_, [.start 0 "r", .gate 0, .lookup 0, .challenged 0 (.ok (some "c")),
    .shown 0 (.device "v" "u"), .received 0, .stored 0], rfl,
    .cons ⟨.start rfl, trivial⟩ <| .cons ⟨.gate rfl rfl, trivial⟩ <|
    .cons ⟨.lookup rfl, fun _ _ _ _ h => nomatch h⟩ <|
    .cons ⟨@Step.spawn _ _ 0 0 _ _ _ rfl rfl, trivial⟩ <| .cons ⟨.shown rfl rfl rfl, trivial⟩ <|
    .cons ⟨.received rfl rfl rfl, trivial⟩ <| .single ⟨.stored rfl, trivial⟩⟩, rfl⟩

theorem prompts_live_sample : ∃ s s', (machine fun _ => true).Reachable s ∧
    Step (fun _ => true) s (.returned 0) s' ∧
    ∃ login, s'.tasks 0 = some login ∧ login.prompt = some (.device "v" "u") ∧
      login.progress = .running := by
  obtain ⟨s, htimely, hstart⟩ := demo_run
  have hreach := htimely.of_restrict
  obtain ⟨login, ht, _, hprompt, hrunning⟩ :=
    (prompts_live hreach).2.2 htimely 0 _ 0 _ _ hstart rfl (.returned hstart)
  exact ⟨s, _, hreach, .returned hstart, login, ht, hprompt, hrunning⟩

/-- The task of a flow ends well, nobody calls `status`, and the next start is about to
return the prompt of the flow. -/
theorem dead_run : ∃ s, (machine fun _ => true).Reachable s ∧
    s.starts 1 = some ⟨"r", .returning (.prompt 0 (.device "v" "u")), none⟩ ∧
    s.tasks 0 = some ⟨"r", 0, some (.device "v" "u"), .finished (some (.ok ()))⟩ := by
  refine ⟨_, ⟨_, [.start 0 "r", .gate 0, .lookup 0, .challenged 0 (.ok (some "c")),
    .shown 0 (.device "v" "u"), .received 0, .stored 0, .returned 0, .finished 0 (some (.ok ())),
    .start 1 "r", .gate 1, .lookup 1], rfl,
    .cons (.start rfl) <| .cons (.gate rfl rfl) <| .cons (.lookup rfl) <|
    .cons (@Step.spawn _ _ 0 0 _ _ _ rfl rfl) <| .cons (.shown rfl rfl rfl) <|
    .cons (.received rfl rfl rfl) <| .cons (.stored rfl) <| .cons (.returned rfl) <|
    .cons (.finished rfl rfl) <| .cons (.start rfl) <| .cons (.gate rfl rfl) <|
    .single (.lookup rfl)⟩, rfl, rfl⟩

theorem dead_prompt : ¬ ∀ (s s' : State) (c : Nat) (start : Start) (t : Nat) (prompt : AuthPrompt),
    (machine fun _ => true).Reachable s → s.starts c = some start →
    start.point = .returning (.prompt t prompt) → Step (fun _ => true) s (.returned c) s' →
    ∃ login, s'.tasks t = some login ∧ login.progress.isFinished = false := by
  intro h
  obtain ⟨s, hreach, hstart, htask⟩ := dead_run
  obtain ⟨login, ht, hfinished⟩ := h s _ 1 _ 0 _ hreach hstart rfl (.returned hstart)
  have htasks : (s.releaseGate "r" 1).tasks = s.tasks := by
    unfold State.releaseGate
    split <;> rfl
  have hlogin : (s.releaseGate "r" 1).tasks 0 = some login := ht
  rw [htasks, htask] at hlogin
  cases hlogin
  cases hfinished

end AgentPalace.SignIn
