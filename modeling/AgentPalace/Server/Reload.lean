import AgentPalace.Lib.Machine
import AgentPalace.Server.TokenFile

/-!
# Reloading the token file

Any calls of `authenticate` and any atomic replacements of the file, in any
order. A step of a call goes up to its next access to the file or to the lock;
what a call does under the write lock between two accesses nobody sees.
`fresh` marks a call since whose start the file was not replaced. If the file is
not replaced between the accesses of one read, a fresh call decides as the
current version does (`authenticate_current`).
-/

namespace AgentPalace.Server

inductive AuthCall where
  | idle
  | started (presented : String)
  /-- Has read the current modification time. -/
  | comparing (presented : String) (currentMtime : SystemTime)
  | wantsWrite (presented : String) (currentMtime : SystemTime)
  /-- Holds the write lock. -/
  | reading (presented : String) (currentMtime : SystemTime) (read : ReadFile)
  | matching (presented : String)
  | done (presented : String) (result : Option AuthIdentity)

structure AuthThread where
  call : AuthCall := .idle
  fresh : Bool := false

/-- `TokenRegistryInner`. -/
structure Registry where
  entries : List TokenRegistryEntry
  mtime : Option SystemTime

inductive Boot where
  | loading (read : ReadFile)
  | refused
  | serving (registry : Registry)

structure AuthState where
  file : TokenFile
  /-- The modification times of all versions so far. -/
  mtimes : List SystemTime
  boot : Boot
  /-- Who holds the write lock. -/
  writer : Option Nat
  threads : Nat → AuthThread

inductive AuthEvent where
  /-- One access of the first load. -/
  | load
  | begin (thread : Nat) (presented : String)
  | advance (thread : Nat)
  | replace (version : TokenFile)

namespace AuthState

def setCall (w : AuthState) (thread : Nat) (call : AuthCall) : AuthState :=
  { w with threads := Function.update w.threads thread { w.threads thread with call } }

/-- The write lock is released with the registry as it is then. -/
def release (w : AuthState) (thread : Nat) (presented : String) (registry : Registry) :
    AuthState :=
  { w with boot := .serving registry, writer := none }.setCall thread (.matching presented)

end AuthState

/-- What a failed read leaves: no entries, and a time only if the content was at fault. -/
def failedRegistry (currentMtime : SystemTime) (e : ServerError) : Registry :=
  { entries := []
    mtime :=
      match e with
      | .tokenFile _ => some currentMtime
      | _ => none }

def bootAfter : ReadOutcome → Boot
  | .more next => .loading next
  | .loaded entries mtime => .serving ⟨entries, some mtime⟩
  | .failed _ => .refused

def AuthState.readAfter (w : AuthState) (thread : Nat) (presented : String)
    (currentMtime : SystemTime) : ReadOutcome → AuthState
  | .more next => w.setCall thread (.reading presented currentMtime next)
  | .loaded entries mtime => w.release thread presented ⟨entries, some mtime⟩
  | .failed e => w.release thread presented (failedRegistry currentMtime e)

section
variable (fromJson : String → Except String (List TokenEntry)) (blake3 : String → String)

inductive AuthStep : AuthState → AuthEvent → AuthState → Prop where
  | load {w : AuthState} {read : ReadFile} (h : w.boot = .loading read) :
      AuthStep w .load { w with boot := bootAfter (readStep fromJson blake3 w.file read) }
  | begin {w : AuthState} {registry : Registry} {thread : Nat} {presented : String}
      (hserving : w.boot = .serving registry) (h : (w.threads thread).call = .idle) :
      AuthStep w (.begin thread presented)
        { w with threads := Function.update w.threads thread ⟨.started presented, true⟩ }
  | blank {w : AuthState} {thread : Nat} {presented : String}
      (h : (w.threads thread).call = .started presented) (hblank : isBlank presented = true) :
      AuthStep w (.advance thread) (w.setCall thread (.done presented none))
  | stat {w : AuthState} {thread : Nat} {presented : String}
      (h : (w.threads thread).call = .started presented) (hblank : isBlank presented = false) :
      AuthStep w (.advance thread) (w.setCall thread (.comparing presented w.file.mtime))
  /-- Under the read lock. -/
  | compare {w : AuthState} {registry : Registry} {thread : Nat} {presented : String}
      {currentMtime : SystemTime} (h : (w.threads thread).call = .comparing presented currentMtime)
      (hserving : w.boot = .serving registry) (hlock : w.writer = none) :
      AuthStep w (.advance thread) (w.setCall thread
        (if registry.mtime = some currentMtime then .matching presented
        else .wantsWrite presented currentMtime))
  | lock {w : AuthState} {registry : Registry} {thread : Nat} {presented : String}
      {currentMtime : SystemTime} (h : (w.threads thread).call = .wantsWrite presented currentMtime)
      (hserving : w.boot = .serving registry) (hlock : w.writer = none) :
      AuthStep w (.advance thread)
        (if registry.mtime = some currentMtime then w.setCall thread (.matching presented)
        else { w with writer := some thread }.setCall thread
          (.reading presented currentMtime .permissions))
  | read {w : AuthState} {thread : Nat} {presented : String} {currentMtime : SystemTime}
      {read : ReadFile} (h : (w.threads thread).call = .reading presented currentMtime read)
      (hlock : w.writer = some thread) :
      AuthStep w (.advance thread)
        (w.readAfter thread presented currentMtime (readStep fromJson blake3 w.file read))
  /-- Under the read lock. -/
  | accept {w : AuthState} {registry : Registry} {thread : Nat} {presented : String}
      (h : (w.threads thread).call = .matching presented) (hserving : w.boot = .serving registry)
      (hlock : w.writer = none) :
      AuthStep w (.advance thread)
        (w.setCall thread (.done presented (lookupToken blake3 registry.entries presented)))
  /-- Each version has a modification time of its own. -/
  | replace {w : AuthState} {version : TokenFile} (h : version.mtime ∉ w.mtimes) :
      AuthStep w (.replace version)
        { w with
          file := version
          mtimes := version.mtime :: w.mtimes
          threads := fun t => { w.threads t with fresh := false } }

/-- A server that starts on some version of the file. -/
def authenticating : Machine AuthState AuthEvent where
  Init w := w.mtimes = [w.file.mtime] ∧ w.boot = .loading .permissions ∧ w.writer = none ∧
    w.threads = fun _ => {}
  Step := AuthStep fromJson blake3

/-- A read that a replacement by this version would fall into: the content has been read, or the
permissions have and those of the version are refused. -/
def ReadFile.disturbedBy (version : TokenFile) : ReadFile → Prop
  | .permissions => False
  | .content => checkTokenFilePermissions version ≠ .ok ()
  | .modified _ => True

/-- The file is not replaced between the accesses of one read. -/
def Undisturbed (w : AuthState) : AuthEvent → Prop
  | .replace version =>
    (∀ read, w.boot = .loading read → ¬ read.disturbedBy version) ∧
    ∀ thread presented currentMtime read,
      (w.threads thread).call = .reading presented currentMtime read → ¬ read.disturbedBy version
  | _ => True

/-! ## The invariant -/

/-- What was read so far is what the current version says. -/
def ReadFile.Agrees (file : TokenFile) : ReadFile → Prop
  | .permissions => True
  | .content => checkTokenFilePermissions file = .ok ()
  | .modified entries => checkTokenFilePermissions file = .ok () ∧
      readEntries fromJson blake3 file.text = .ok entries

/-- The registry holds what the current version says. -/
def Registry.Current (w : AuthState) (registry : Registry) : Prop :=
  registry.entries = entriesOf fromJson blake3 w.file

structure Registry.Known (w : AuthState) (registry : Registry) : Prop where
  mtime : ∀ m ∈ registry.mtime, m ∈ w.mtimes
  /-- The time of the current version stands for its entries. -/
  current : registry.mtime = some w.file.mtime → registry.Current fromJson blake3 w

/-- What holds of a call; of a fresh one, that it is about the current version. -/
def AuthThread.Ok (w : AuthState) (t : AuthThread) : Prop :=
  match t.call with
  | .idle => True
  | .started _ => True
  | .comparing presented m => m ∈ w.mtimes ∧ isBlank presented = false ∧
      (t.fresh = true → m = w.file.mtime)
  | .wantsWrite presented m => m ∈ w.mtimes ∧ isBlank presented = false ∧
      (t.fresh = true → m = w.file.mtime)
  | .reading presented m read => m ∈ w.mtimes ∧ isBlank presented = false ∧
      read.Agrees fromJson blake3 w.file
  | .matching presented => isBlank presented = false ∧ (t.fresh = true →
      ∀ registry, w.boot = .serving registry → registry.Current fromJson blake3 w)
  | .done presented result => t.fresh = true → result = decides fromJson blake3 w.file presented

structure AuthInv (w : AuthState) : Prop where
  file : w.file.mtime ∈ w.mtimes
  loading : ∀ read, w.boot = .loading read → read.Agrees fromJson blake3 w.file
  serving : ∀ registry, w.boot = .serving registry → registry.Known fromJson blake3 w
  threads : ∀ thread, (w.threads thread).Ok fromJson blake3 w

variable {fromJson blake3}

theorem readStep_agrees {file : TokenFile} {read : ReadFile}
    (h : read.Agrees fromJson blake3 file) :
    (∀ next, readStep fromJson blake3 file read = .more next → next.Agrees fromJson blake3 file) ∧
    (∀ entries mtime, readStep fromJson blake3 file read = .loaded entries mtime →
      entries = entriesOf fromJson blake3 file ∧ mtime = file.mtime) ∧
    ∀ e, readStep fromJson blake3 file read = .failed e → entriesOf fromJson blake3 file = [] := by
  cases read with
  | permissions =>
    cases hmode : checkTokenFilePermissions file with
    | ok u =>
      simp only [readStep, hmode]
      refine ⟨fun next hnext => ?_, fun _ _ hloaded => (by cases hloaded),
        fun _ hfailed => (by cases hfailed)⟩
      cases hnext
      exact hmode
    | error e =>
      simp only [readStep, hmode]
      exact ⟨fun _ hnext => (by cases hnext), fun _ _ hloaded => (by cases hloaded),
        fun _ _ => entriesOf_mode hmode⟩
  | content =>
    cases hread : readEntries fromJson blake3 file.text with
    | ok entries =>
      simp only [readStep, hread]
      refine ⟨fun next hnext => ?_, fun _ _ hloaded => (by cases hloaded),
        fun _ hfailed => (by cases hfailed)⟩
      cases hnext
      exact ⟨h, hread⟩
    | error e =>
      simp only [readStep, hread]
      exact ⟨fun _ hnext => (by cases hnext), fun _ _ hloaded => (by cases hloaded),
        fun _ _ => entriesOf_content hread⟩
  | modified entries =>
    simp only [readStep]
    refine ⟨fun _ hnext => (by cases hnext), fun _ _ hloaded => ?_,
      fun _ hfailed => (by cases hfailed)⟩
    cases hloaded
    exact ⟨(entriesOf_ok h.1 h.2).symm, rfl⟩

/-- A replacement does not change what an undisturbed read has read. -/
theorem agrees_of_undisturbed {version : TokenFile} {read : ReadFile}
    (h : ¬ read.disturbedBy version) : read.Agrees fromJson blake3 version := by
  cases read with
  | permissions => trivial
  | content => exact Classical.not_not.1 h
  | modified _ => exact absurd trivial h

theorem AuthThread.Ok.keep {w w' : AuthState} {t : AuthThread}
    (h : t.Ok fromJson blake3 w) (hfile : w'.file = w.file) (hmtimes : w'.mtimes = w.mtimes)
    (hboot : ∀ registry, w'.boot = .serving registry →
      w.boot = .serving registry ∨ registry.Current fromJson blake3 w') :
    t.Ok fromJson blake3 w' := by
  unfold AuthThread.Ok at h ⊢
  cases hcall : t.call with
  | matching presented =>
    simp only [hcall] at h ⊢
    refine ⟨h.1, fun hfresh registry hserving => ?_⟩
    rcases hboot registry hserving with hsame | hcurrent
    · have := h.2 hfresh registry hsame
      unfold Registry.Current at this ⊢
      rw [this, hfile]
    · exact hcurrent
  | idle => trivial
  | started _ => trivial
  | _ =>
    simp only [hcall] at h ⊢
    simpa only [hfile, hmtimes] using h

theorem AuthInv.setCall {w : AuthState} (hinv : AuthInv fromJson blake3 w) {thread : Nat}
    {call : AuthCall} (h : ({ w.threads thread with call } : AuthThread).Ok fromJson blake3 w) :
    AuthInv fromJson blake3 (w.setCall thread call) := by
  refine ⟨hinv.file, hinv.loading,
    fun r h => ⟨(hinv.serving r h).mtime, (hinv.serving r h).current⟩, fun t => ?_⟩
  have hkeep : ∀ t : AuthThread, t.Ok fromJson blake3 w →
      t.Ok fromJson blake3 (w.setCall thread call) :=
    fun t ht => ht.keep rfl rfl fun _ => .inl
  simp only [AuthState.setCall, Function.update_apply]
  split
  · exact hkeep _ h
  · exact hkeep _ (hinv.threads t)

theorem AuthInv.setWriter {w : AuthState} (hinv : AuthInv fromJson blake3 w)
    (writer : Option Nat) : AuthInv fromJson blake3 { w with writer := writer } :=
  ⟨hinv.file, hinv.loading,
    fun r h => ⟨(hinv.serving r h).mtime, (hinv.serving r h).current⟩,
    fun t => (hinv.threads t).keep rfl rfl fun _ => .inl⟩

theorem AuthInv.release {w : AuthState} (hinv : AuthInv fromJson blake3 w) {thread : Nat}
    {presented : String} (hpresented : isBlank presented = false) {registry : Registry}
    (hcurrent : registry.Current fromJson blake3 w) (hmtime : ∀ m ∈ registry.mtime, m ∈ w.mtimes) :
    AuthInv fromJson blake3 (w.release thread presented registry) := by
  have hwritten : AuthInv fromJson blake3 { w with boot := .serving registry, writer := none } := by
    refine ⟨hinv.file, fun read h => (by cases h), fun r h => ?_, fun t => ?_⟩
    · cases h
      exact ⟨hmtime, fun _ => hcurrent⟩
    · refine (hinv.threads t).keep rfl rfl fun r h => .inr ?_
      cases h
      exact hcurrent
  refine hwritten.setCall ⟨hpresented, fun _ r h => ?_⟩
  cases h
  exact hcurrent

theorem init_inv {w : AuthState} (h : (authenticating fromJson blake3).Init w) :
    AuthInv fromJson blake3 w := by
  obtain ⟨hmtimes, hboot, _, hthreads⟩ := h
  refine ⟨by rw [hmtimes]; simp, fun read h => ?_, fun r h => ?_, fun t => ?_⟩
  · rw [hboot] at h
    cases h
    trivial
  · rw [hboot] at h
    cases h
  · rw [hthreads]
    trivial

theorem load_inv {w : AuthState} (hinv : AuthInv fromJson blake3 w) {read : ReadFile}
    (h : w.boot = .loading read) :
    AuthInv fromJson blake3
      { w with boot := bootAfter (readStep fromJson blake3 w.file read) } := by
  obtain ⟨hmore, hloaded, _⟩ := readStep_agrees (hinv.loading read h)
  cases hstep : readStep fromJson blake3 w.file read with
  | more next =>
    refine ⟨hinv.file, fun r hr => ?_, fun r hr => (by cases hr), fun t => ?_⟩
    · cases hr
      exact hmore next hstep
    · exact (hinv.threads t).keep rfl rfl fun r hr => (by cases hr)
  | loaded entries mtime =>
    obtain ⟨hentries, hmtime⟩ := hloaded entries mtime hstep
    refine ⟨hinv.file, fun r hr => (by cases hr), fun r hr => ?_, fun t => ?_⟩
    · cases hr
      refine ⟨fun m hm => ?_, fun _ => hentries⟩
      cases hm
      exact hmtime ▸ hinv.file
    · refine (hinv.threads t).keep rfl rfl fun r hr => .inr ?_
      cases hr
      exact hentries
  | failed e =>
    exact ⟨hinv.file, fun r hr => (by cases hr), fun r hr => (by cases hr),
      fun t => (hinv.threads t).keep rfl rfl fun r hr => (by cases hr)⟩

theorem replace_inv {w : AuthState} (hinv : AuthInv fromJson blake3 w) {version : TokenFile}
    (hnew : version.mtime ∉ w.mtimes) (hundisturbed : Undisturbed w (.replace version)) :
    AuthInv fromJson blake3 { w with
      file := version
      mtimes := version.mtime :: w.mtimes
      threads := fun t => { w.threads t with fresh := false } } := by
  obtain ⟨hload, hread⟩ := hundisturbed
  refine ⟨List.mem_cons_self, fun read h => agrees_of_undisturbed (hload read h),
    fun registry h => ?_, fun t => ?_⟩
  · have hknown := hinv.serving registry h
    refine ⟨fun m hm => List.mem_cons_of_mem _ (hknown.mtime m hm), fun hm => ?_⟩
    exact absurd (hknown.mtime version.mtime hm) hnew
  · have hok := hinv.threads t
    unfold AuthThread.Ok at hok ⊢
    cases hcall : (w.threads t).call with
    | idle => trivial
    | started _ => trivial
    | comparing presented m =>
      simp only [hcall] at hok ⊢
      exact ⟨List.mem_cons_of_mem _ hok.1, hok.2.1, fun h => (by cases h)⟩
    | wantsWrite presented m =>
      simp only [hcall] at hok ⊢
      exact ⟨List.mem_cons_of_mem _ hok.1, hok.2.1, fun h => (by cases h)⟩
    | reading presented m read =>
      simp only [hcall] at hok ⊢
      exact ⟨List.mem_cons_of_mem _ hok.1, hok.2.1,
        agrees_of_undisturbed (hread t presented m read hcall)⟩
    | matching presented =>
      simp only [hcall] at hok ⊢
      exact ⟨hok.1, fun h => (by cases h)⟩
    | done presented result =>
      exact fun h => (by cases h)

theorem step_inv {w w' : AuthState} {l : AuthEvent} (hinv : AuthInv fromJson blake3 w)
    (hstep : AuthStep fromJson blake3 w l w') (hundisturbed : Undisturbed w l) :
    AuthInv fromJson blake3 w' := by
  -- A call at this point of the code is as its `Ok` says.
  have hok : ∀ {thread : Nat} {call : AuthCall}, (w.threads thread).call = call →
      ({ w.threads thread with call } : AuthThread).Ok fromJson blake3 w := by
    rintro thread call rfl
    exact hinv.threads thread
  cases hstep with
  | load h => exact load_inv hinv h
  | begin hserving h =>
    refine ⟨hinv.file, hinv.loading,
      fun r h => ⟨(hinv.serving r h).mtime, (hinv.serving r h).current⟩, fun t => ?_⟩
    simp only [Function.update_apply]
    split
    · trivial
    · exact (hinv.threads t).keep rfl rfl fun _ => .inl
  | blank h hblank =>
    refine hinv.setCall fun _ => ?_
    rw [decides, if_pos hblank]
  | stat h hblank => exact hinv.setCall ⟨hinv.file, hblank, fun _ => rfl⟩
  | @compare registry thread presented m h hserving hlock =>
    obtain ⟨hmem, hblank, hfresh⟩ := hok h
    refine hinv.setCall ?_
    by_cases hsame : registry.mtime = some m
    · rw [if_pos hsame]
      refine ⟨hblank, fun hf r hr => ?_⟩
      rw [hserving] at hr
      cases hr
      exact (hinv.serving registry hserving).current (hsame.trans (by rw [hfresh hf]))
    · rw [if_neg hsame]
      exact ⟨hmem, hblank, hfresh⟩
  | @lock registry thread presented m h hserving hlock =>
    obtain ⟨hmem, hblank, hfresh⟩ := hok h
    by_cases hsame : registry.mtime = some m
    · rw [if_pos hsame]
      refine hinv.setCall ⟨hblank, fun hf r hr => ?_⟩
      rw [hserving] at hr
      cases hr
      exact (hinv.serving registry hserving).current (hsame.trans (by rw [hfresh hf]))
    · rw [if_neg hsame]
      exact (hinv.setWriter (some thread)).setCall ⟨hmem, hblank, trivial⟩
  | @read thread presented m read h hlock =>
    obtain ⟨hmem, hblank, hagrees⟩ := hok h
    obtain ⟨hmore, hloaded, hfailed⟩ := readStep_agrees hagrees
    cases hr : readStep fromJson blake3 w.file read with
    | more next => exact hinv.setCall ⟨hmem, hblank, hmore next hr⟩
    | loaded entries mtime =>
      obtain ⟨hentries, hmtime⟩ := hloaded entries mtime hr
      refine hinv.release hblank hentries fun m' hm' => ?_
      cases hm'
      exact hmtime ▸ hinv.file
    | failed e =>
      refine hinv.release hblank (hfailed e hr).symm fun m' hm' => ?_
      cases e <;> cases hm'
      exact hmem
  | @accept registry thread presented h hserving hlock =>
    obtain ⟨hblank, hcurrent⟩ := hok h
    refine hinv.setCall fun hf => ?_
    rw [decides, hblank, if_neg Bool.false_ne_true, ← hcurrent hf registry hserving]
  | replace h => exact replace_inv hinv h hundisturbed

theorem reachable_inv {w : AuthState}
    (h : ((authenticating fromJson blake3).restrict Undisturbed).Reachable w) :
    AuthInv fromJson blake3 w := by
  refine h.invariant (fun a hinit => ?_) fun a l b _ hinv hstep => ?_
  · exact init_inv hinit
  · exact step_inv hinv hstep.1 hstep.2

/-- **Reload is linearizable** in a run whose reads are undisturbed: a call since whose start the
file was not replaced decides as the current version does. -/
theorem authenticate_current {w : AuthState}
    (h : ((authenticating fromJson blake3).restrict Undisturbed).Reachable w) {thread : Nat}
    {presented : String} {result : Option AuthIdentity}
    (hdone : w.threads thread = ⟨.done presented result, true⟩) :
    result = decides fromJson blake3 w.file presented := by
  have hok := (reachable_inv h).threads thread
  rw [hdone] at hok
  exact hok rfl

end

/-! ## A replacement between two accesses -/

def sampleTokenText : String := "[\x7b\"token\":\"t\",\"name\":\"ci\",\"enabled\":true\x7d]"

def sampleFromJson (text : String) : Except String (List TokenEntry) :=
  if text = sampleTokenText then .ok [{ token := "t", name := "ci", enabled := true }]
  else if text = "[]" then .ok []
  else .error "expected value"

def sampleVersion (text : String) (mtime : SystemTime) : TokenFile :=
  { path := "server_tokens.json", mode := 0x180, text := some text, mtime }

/-- The server starts on the file with the token. -/
def sampleStart : AuthState :=
  { file := sampleVersion sampleTokenText 1, mtimes := [1], boot := .loading .permissions
    writer := none, threads := fun _ => {} }

def sampleServing : AuthState :=
  { sampleStart with boot := .serving ⟨entriesOf sampleFromJson id sampleStart.file, some 1⟩ }

def AuthState.at (w : AuthState) (thread : Nat) (call : AuthCall) : AuthState :=
  { w with threads := Function.update w.threads thread ⟨call, true⟩ }

theorem setCall_at (w : AuthState) (thread : Nat) (call call' : AuthCall) :
    (w.at thread call).setCall thread call' = w.at thread call' := by
  simp [AuthState.at, AuthState.setCall]

@[simp] theorem threads_at (w : AuthState) (thread : Nat) (call : AuthCall) :
    (w.at thread call).threads thread = ⟨call, true⟩ := by
  simp [AuthState.at]

/-- A call that finds the remembered time is the file's decides by the registry. -/
theorem unchanged_run {fromJson : String → Except String (List TokenEntry)}
    {blake3 : String → String} {P : AuthState → AuthEvent → Prop} {w : AuthState}
    (hreachable : ((authenticating fromJson blake3).restrict P).Reachable w)
    (hP : ∀ w l, (∀ version, l ≠ .replace version) → P w l) {registry : Registry}
    (hserving : w.boot = .serving registry) (hmtime : registry.mtime = some w.file.mtime)
    (hlock : w.writer = none) (thread : Nat) (hidle : (w.threads thread).call = .idle)
    (presented : String) (hblank : isBlank presented = false) :
    ((authenticating fromJson blake3).restrict P).Reachable
      (w.at thread (.done presented (lookupToken blake3 registry.entries presented))) := by
  have hstart : ((authenticating fromJson blake3).restrict P).Reachable
      (w.at thread (.started presented)) :=
    hreachable.step ⟨AuthStep.begin hserving hidle, hP _ (.begin thread presented) (by simp)⟩
  have hstat := hstart.step (M := (authenticating fromJson blake3).restrict P)
    ⟨AuthStep.stat (congrArg AuthThread.call (threads_at ..)) hblank,
      hP _ (.advance thread) (by simp)⟩
  rw [setCall_at] at hstat
  have hcompare := hstat.step (M := (authenticating fromJson blake3).restrict P)
    ⟨AuthStep.compare (congrArg AuthThread.call (threads_at ..)) hserving hlock,
      hP _ (.advance thread) (by simp)⟩
  have hmtime' : registry.mtime = some (w.at thread (.started presented)).file.mtime := hmtime
  rw [setCall_at, if_pos hmtime'] at hcompare
  have haccept := hcompare.step (M := (authenticating fromJson blake3).restrict P)
    ⟨AuthStep.accept (congrArg AuthThread.call (threads_at ..)) hserving hlock,
      hP _ (.advance thread) (by simp)⟩
  rwa [setCall_at] at haccept

theorem sampleServing_reachable {P : AuthState → AuthEvent → Prop}
    (hP : ∀ w l, (∀ version, l ≠ .replace version) → P w l) :
    ((authenticating sampleFromJson id).restrict P).Reachable sampleServing := by
  have h0 : ((authenticating sampleFromJson id).restrict P).Reachable sampleStart :=
    ⟨sampleStart, [], ⟨rfl, rfl, rfl, rfl⟩, .nil _⟩
  have hperm : readStep sampleFromJson id sampleStart.file .permissions = .more .content := rfl
  have hcontent : readStep sampleFromJson id sampleStart.file .content =
      .more (.modified (entriesOf sampleFromJson id sampleStart.file)) := rfl
  have h1 := h0.step (M := (authenticating sampleFromJson id).restrict P)
    ⟨AuthStep.load rfl, hP _ .load (by simp)⟩
  rw [hperm] at h1
  have h2 := h1.step (M := (authenticating sampleFromJson id).restrict P)
    ⟨AuthStep.load rfl, hP _ .load (by simp)⟩
  rw [hcontent] at h2
  have h3 := h2.step (M := (authenticating sampleFromJson id).restrict P)
    ⟨AuthStep.load rfl, hP _ .load (by simp)⟩
  exact h3

/-- The token is removed before a call reads the file: the call reloads it and refuses. -/
theorem authenticate_current_sample : ∃ w,
    ((authenticating sampleFromJson id).restrict Undisturbed).Reachable w ∧
      w.file = sampleVersion "[]" 2 ∧ w.threads 0 = ⟨.done "t" none, true⟩ ∧
      none = decides sampleFromJson id w.file "t" := by
  have hP : ∀ w l, (∀ version, l ≠ .replace version) → Undisturbed w l := by
    intro w l hl
    cases l with
    | replace version => exact absurd rfl (hl version)
    | _ => trivial
  have h1 := (sampleServing_reachable hP).step
    (M := (authenticating sampleFromJson id).restrict Undisturbed)
    ⟨@AuthStep.replace _ _ _ (sampleVersion "[]" 2) (by decide), nofun, nofun⟩
  have h2 := h1.step (M := (authenticating sampleFromJson id).restrict Undisturbed)
    ⟨@AuthStep.begin _ _ _ _ 0 "t" rfl rfl, trivial⟩
  have h3 := h2.step (M := (authenticating sampleFromJson id).restrict Undisturbed)
    ⟨@AuthStep.stat _ _ _ 0 _ rfl (by decide), trivial⟩
  have h4 := h3.step (M := (authenticating sampleFromJson id).restrict Undisturbed)
    ⟨@AuthStep.compare _ _ _ _ 0 "t" 2 rfl rfl rfl, trivial⟩
  have h5 := h4.step (M := (authenticating sampleFromJson id).restrict Undisturbed)
    ⟨@AuthStep.lock _ _ _ _ 0 "t" 2 rfl rfl rfl, trivial⟩
  have h6 := h5.step (M := (authenticating sampleFromJson id).restrict Undisturbed)
    ⟨@AuthStep.read _ _ _ 0 "t" 2 .permissions rfl rfl, trivial⟩
  have h7 := h6.step (M := (authenticating sampleFromJson id).restrict Undisturbed)
    ⟨@AuthStep.read _ _ _ 0 "t" 2 .content rfl rfl, trivial⟩
  have h8 := h7.step (M := (authenticating sampleFromJson id).restrict Undisturbed)
    ⟨@AuthStep.read _ _ _ 0 "t" 2 (.modified []) rfl rfl, trivial⟩
  have h9 := h8.step (M := (authenticating sampleFromJson id).restrict Undisturbed)
    ⟨@AuthStep.accept _ _ _ _ 0 "t" rfl rfl rfl, trivial⟩
  exact ⟨_, h9, rfl, rfl, @authenticate_current sampleFromJson id _ h9 0 "t" none rfl⟩

/-- The token is removed while a call reloads another version: the call has read the content with
the token and then reads the time of the file without it. -/
theorem stale_reachable : ∃ w, (authenticating sampleFromJson id).Reachable w ∧
    w.file = sampleVersion "[]" 3 ∧
    w.boot = .serving ⟨entriesOf sampleFromJson id sampleStart.file, some 3⟩ ∧
    w.writer = none ∧ (w.threads 1).call = .idle := by
  have h0 : (authenticating sampleFromJson id).Reachable sampleServing :=
    (sampleServing_reachable (P := fun _ _ => True) fun _ _ _ => trivial).of_restrict
  have h1 := h0.step (M := authenticating sampleFromJson id)
    (@AuthStep.replace _ _ _ (sampleVersion sampleTokenText 2) (by decide))
  have h2 := h1.step (M := authenticating sampleFromJson id)
    (@AuthStep.begin _ _ _ _ 0 "t" rfl rfl)
  have h3 := h2.step (M := authenticating sampleFromJson id)
    (@AuthStep.stat _ _ _ 0 _ rfl (by decide))
  have h4 := h3.step (M := authenticating sampleFromJson id)
    (@AuthStep.compare _ _ _ _ 0 "t" 2 rfl rfl rfl)
  have h5 := h4.step (M := authenticating sampleFromJson id)
    (@AuthStep.lock _ _ _ _ 0 "t" 2 rfl rfl rfl)
  have h6 := h5.step (M := authenticating sampleFromJson id)
    (@AuthStep.read _ _ _ 0 "t" 2 .permissions rfl rfl)
  have h7 := h6.step (M := authenticating sampleFromJson id)
    (@AuthStep.read _ _ _ 0 "t" 2 .content rfl rfl)
  have h8 := h7.step (M := authenticating sampleFromJson id)
    (@AuthStep.replace _ _ _ (sampleVersion "[]" 3) (by decide))
  have h9 := h8.step (M := authenticating sampleFromJson id)
    (@AuthStep.read _ _ _ 0 "t" 2
      (.modified (entriesOf sampleFromJson id sampleStart.file)) rfl rfl)
  exact ⟨_, h9, rfl, rfl, rfl, rfl⟩

/-- The registry remembers the token under the time of the file without it: every later call
accepts it. -/
theorem removed_token_accepted :
    ¬ ∀ (fromJson : String → Except String (List TokenEntry)) (blake3 : String → String)
      (w : AuthState) (thread : Nat) (presented : String) (result : Option AuthIdentity),
      (authenticating fromJson blake3).Reachable w →
      w.threads thread = ⟨.done presented result, true⟩ →
      result = decides fromJson blake3 w.file presented := by
  intro hclaim
  obtain ⟨w, hreachable, hfile, hserving, hlock, hidle⟩ := stale_reachable
  have hmtime : (some 3 : Option SystemTime) = some w.file.mtime := by rw [hfile]; rfl
  obtain ⟨a, ls, hinit, hrun⟩ := hreachable
  have htrue : ∀ {x y : AuthState} {ks : List AuthEvent},
      (authenticating sampleFromJson id).Run x ks y →
      ((authenticating sampleFromJson id).restrict fun _ _ => True).Run x ks y := by
    intro x y ks h
    induction h with
    | nil => exact .nil _
    | cons hs _ ih => exact .cons ⟨hs, trivial⟩ ih
  have hdone := unchanged_run ⟨a, ls, hinit, htrue hrun⟩
    (fun _ _ _ => trivial) hserving hmtime hlock 1 hidle "t" (by decide)
  have heq := hclaim sampleFromJson id _ 1 "t" _ hdone.of_restrict (threads_at ..)
  have hnone : decides sampleFromJson id w.file "t" = none := by
    rw [hfile]
    decide
  have hsome : lookupToken id (entriesOf sampleFromJson id sampleStart.file) "t" =
      some { name := "ci" } := by decide
  rw [hsome] at heq
  exact Option.some_ne_none _ (heq.trans hnone)

end AgentPalace.Server
