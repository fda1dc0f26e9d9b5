import Mathlib.Algebra.BigOperators.Group.Finset.Basic
import UfsrvRx.Scheduler.Work

namespace UfsrvRx
namespace Pool
namespace Running

open Transition
open UfsrvRx.Scheduler (JobId CallId)

/-!
# A running pool

The pool after `UfsrvSchedulerPoolStart` has returned: any number of threads submit jobs to it,
stop it and wait for it, while each worker runs as the scheduler that it is.  The steps of all of
them come in any order.  Jobs may also be submitted to a worker directly, as a coroutine that is
resumed is.
-/

/-- Program points of `UfsrvSchedulerPoolSubmit` and `UfsrvSchedulerPoolSubmitTo`: the index was
out of range, `is_running` was read, and the worker is chosen. -/
inductive SubmitFrame
  | idle
  | redirected
  | loaded
  | chosen (worker : Nat)
  | returned (accepted : Bool)
deriving DecidableEq, Repr

/-- Program points of the loops of `UfsrvSchedulerPoolStop` and `UfsrvSchedulerPoolJoin`, which
waits for the end of a worker when it is the first to join it. -/
inductive LoopFrame
  | idle
  | visiting (worker : Nat)
  | waiting (worker : Nat)
  | returned
deriving DecidableEq, Repr

/-- `struct UfsrvSchedulerPool` with its workers, and the calls in progress. -/
structure State where
  next : Nat
  isRunning : Bool
  workers : Nat -> Scheduler.State
  submit : JobId -> SubmitFrame
  stop : CallId -> LoopFrame
  join : CallId -> LoopFrame

inductive Event
  | submitLoad (job : JobId)
  | submitToLoad (job : JobId) (workerIndex : Int)
  | submitReload (job : JobId)
  | submitAdvance (job : JobId)
  | submitReturn (job : JobId) (worker : Nat) (accepted : Bool)
  | stopStore (call : CallId)
  | stopNext (call : CallId) (worker : Nat)
  | joinEnter (call : CallId)
  | joinExchange (call : CallId) (worker : Nat)
  | joinReturn (call : CallId) (worker : Nat)
  | worker (worker : Nat) (event : Scheduler.Event)
deriving DecidableEq, Repr

/-- `unsigned`. -/
def unsignedRange : Nat := 2 ^ 32

namespace State

variable (s : State)

/-- No worker has seen the job. -/
def Unseen (job : JobId) : Prop := forall worker, (s.workers worker).submit job = .idle

def setSubmit (job : JobId) (frame : SubmitFrame) : State :=
  { s with submit := Function.update s.submit job frame }

def setWorker (worker : Nat) (state : Scheduler.State) : State :=
  { s with workers := Function.update s.workers worker state }

def setJoin (call : CallId) (frame : LoopFrame) : State :=
  { s with join := Function.update s.join call frame }

end State

/-- Whose step it is: a job is submitted to the worker that was chosen for it, or to one worker
directly, and the worker is stopped when the loop has come to it. -/
def admits (s : State) (worker : Nat) : Scheduler.Event -> Prop
  | .submitRefused job | .submitAlloc job | .submitCheck job | .submitInsert job
  | .submitWrite job => s.submit job = .chosen worker ∨ s.submit job = .idle ∧
      forall other, other ≠ worker -> (s.workers other).submit job = .idle
  | .stopStore call | .stopWrite call => s.stop call = .visiting worker
  | .joinEnter | .joinReturn | .destroyEnter | .destroyStop | .destroyWrite | .destroyJoined
  | .destroyPop => False
  | .workerLoop | .workerPop | .workerJobReturned _ _ | .workerCheck | .workerRead
  | .workerInterrupted | .workerDrain => True

/-- Before which step each event stands. -/
def enabled (size : Nat) (s : State) : Event -> Prop
  | .submitLoad job | .submitToLoad job _ => s.submit job = .idle ∧ s.Unseen job
  | .submitReload job => s.submit job = .redirected
  | .submitAdvance job => s.submit job = .loaded
  | .submitReturn job worker accepted =>
      s.submit job = .chosen worker ∧ (s.workers worker).submit job = .returned accepted
  | .stopStore call => s.stop call = .idle
  | .stopNext call worker =>
      s.stop call = .visiting worker ∧ (s.workers worker).stop call = .returned
  | .joinEnter call => s.join call = .idle
  | .joinExchange call worker =>
      s.join call = .visiting worker ∧ Scheduler.enabled (s.workers worker) .joinEnter
  | .joinReturn call worker =>
      s.join call = .waiting worker ∧ Scheduler.enabled (s.workers worker) .joinReturn
  | .worker worker event =>
      worker < size ∧ Scheduler.enabled (s.workers worker) event ∧ admits s worker event

/-- The next worker of a loop, or its end. -/
def onward (size worker : Nat) : LoopFrame :=
  if worker + 1 < size then .visiting (worker + 1) else .returned

/-- What each event does.  A worker that was joined before is not waited for. -/
def next (size : Nat) (s : State) : Event -> State
  | .submitLoad job | .submitReload job =>
      s.setSubmit job (if s.isRunning then .loaded else .returned false)
  | .submitToLoad job workerIndex =>
      s.setSubmit job <|
        if s.isRunning then
          if workerIndex < 0 ∨ (size : Int) ≤ workerIndex then .redirected
          else .chosen workerIndex.toNat
        else .returned false
  | .submitAdvance job =>
      { s.setSubmit job (.chosen (s.next % size)) with next := (s.next + 1) % unsignedRange }
  | .submitReturn job _ accepted => s.setSubmit job (.returned accepted)
  | .stopStore call =>
      { s with
        isRunning := false
        stop := Function.update s.stop call (.visiting 0) }
  | .stopNext call worker => { s with stop := Function.update s.stop call (onward size worker) }
  | .joinEnter call => s.setJoin call (.visiting 0)
  | .joinExchange call worker =>
      (s.setWorker worker (Scheduler.next (s.workers worker) .joinEnter)).setJoin call
        (if (s.workers worker).isJoined then onward size worker else .waiting worker)
  | .joinReturn call worker =>
      (s.setWorker worker (Scheduler.next (s.workers worker) .joinReturn)).setJoin call
        (onward size worker)
  | .worker worker event => s.setWorker worker (Scheduler.next (s.workers worker) event)

/-- Every worker has been started. -/
structure Start (s : State) : Prop where
  running : s.isRunning = true
  workers : forall worker, s.workers worker = UfsrvRx.Scheduler.start
  submit : forall job, s.submit job = .idle
  stop : forall call, s.stop call = .idle
  join : forall call, s.join call = .idle

def machine (size : Nat) : Machine State Event where
  initial := Start
  enabled := enabled size
  next := next size

variable {size : Nat} {s : State}

/-! ## The workers -/

/-- Each worker takes steps of its scheduler only. -/
theorem simulated (worker : Nat) (s : State) (event : Event)
    (may : (machine size).enabled s event) :
    ((machine size).next s event).workers worker = s.workers worker ∨
      Exists fun inner => Scheduler.machine.enabled (s.workers worker) inner ∧
        ((machine size).next s event).workers worker =
          Scheduler.machine.next (s.workers worker) inner := by
  cases event with
  | worker other event =>
      by_cases same : worker = other
      · subst same
        exact .inr ⟨event, may.2.1, Function.update_self ..⟩
      · exact .inl (Function.update_of_ne same ..)
  | joinExchange call other =>
      by_cases same : worker = other
      · subst same
        exact .inr ⟨.joinEnter, may.2, Function.update_self ..⟩
      · exact .inl (Function.update_of_ne same ..)
  | joinReturn call other =>
      by_cases same : worker = other
      · subst same
        exact .inr ⟨.joinReturn, may.2, Function.update_self ..⟩
      · exact .inl (Function.update_of_ne same ..)
  | _ => exact .inl rfl

theorem reachable_worker (reached : (machine size).Reachable s) (worker : Nat) :
    Scheduler.machine.Reachable (s.workers worker) := by
  refine reached.component Scheduler.machine (fun s => s.workers worker) ?_ (simulated worker)
  exact fun s starts => starts.workers worker

/-- The submission that an event of a worker belongs to. -/
def submits : Scheduler.Event -> Option JobId
  | .submitRefused job | .submitAlloc job | .submitCheck job | .submitInsert job
  | .submitWrite job => some job
  | _ => none

theorem submit_next {state : Scheduler.State} {event : Scheduler.Event} {job : JobId}
    (others : submits event ≠ some job) :
    (Scheduler.next state event).submit job = state.submit job := by
  cases event with
  | submitRefused other | submitAlloc other | submitInsert other | submitWrite other =>
      exact Function.update_of_ne (fun same => others (congrArg some same.symm)) ..
  | submitCheck other =>
      have apart : job ≠ other := fun same => others (congrArg some same.symm)
      simp only [Scheduler.next]
      split <;> exact Function.update_of_ne apart ..
  | workerPop | workerDrain =>
      simp only [Scheduler.next, Scheduler.State.popAndRun]
      split <;> rfl
  | joinEnter | destroyPop =>
      simp only [Scheduler.next]
      split <;> rfl
  | _ => rfl

/-- The call that an event of a worker stops it in. -/
def stops : Scheduler.Event -> Option CallId
  | .stopStore call | .stopWrite call => some call
  | _ => none

theorem stop_next {state : Scheduler.State} {event : Scheduler.Event} {call : CallId}
    (others : stops event ≠ some call) :
    (Scheduler.next state event).stop call = state.stop call := by
  cases event with
  | stopStore other | stopWrite other =>
      exact Function.update_of_ne (fun same => others (congrArg some same.symm)) ..
  | workerPop | workerDrain =>
      simp only [Scheduler.next, Scheduler.State.popAndRun]
      split <;> rfl
  | submitCheck other | joinEnter | destroyPop =>
      simp only [Scheduler.next]
      split <;> rfl
  | _ => rfl

/-- Only the calls that join a worker say who waits for it. -/
theorem join_next {state : Scheduler.State} {event : Scheduler.Event}
    (enters : event ≠ .joinEnter) (returns : event ≠ .joinReturn) :
    (Scheduler.next state event).join = state.join := by
  cases event with
  | joinEnter => exact absurd rfl enters
  | joinReturn => exact absurd rfl returns
  | workerPop | workerDrain =>
      simp only [Scheduler.next, Scheduler.State.popAndRun]
      split <;> rfl
  | submitCheck other | destroyPop =>
      simp only [Scheduler.next]
      split <;> rfl
  | _ => rfl

/-- Only the teardown of a worker changes its own frame. -/
theorem destroy_next {state : Scheduler.State} {event : Scheduler.Event}
    (kept : state.destroy = .idle) (may : Scheduler.enabled state event)
    (enters : event ≠ .destroyEnter) : (Scheduler.next state event).destroy = .idle := by
  cases event with
  | destroyEnter => exact absurd rfl enters
  | destroyStop | destroyWrite | destroyPop => exact absurd (kept.symm.trans may) (by simp)
  | destroyJoined => exact absurd (kept.symm.trans may.1) (by simp)
  | workerPop | workerDrain =>
      simp only [Scheduler.next, Scheduler.State.popAndRun]
      split <;> exact kept
  | submitCheck other | joinEnter =>
      simp only [Scheduler.next]
      split <;> exact kept
  | _ => exact kept

/-! ## Where a job is -/

/-- A job is submitted to one worker at most, and to the one that was chosen for it. -/
structure Placed (size : Nat) (s : State) : Prop where
  home : forall job, Exists fun worker => forall other, other ≠ worker ->
    (s.workers other).submit job = .idle
  unseen : forall job, s.submit job = .redirected ∨ s.submit job = .loaded -> s.Unseen job
  chosen : forall job worker, s.submit job = .chosen worker -> worker < size ∧
    forall other, other ≠ worker -> (s.workers other).submit job = .idle
  refused : forall job, s.submit job = .returned false -> forall worker,
    (s.workers worker).submit job = .idle ∨ (s.workers worker).submit job = .returned false
  accepted : forall job, s.submit job = .returned true -> Exists fun worker => worker < size ∧
    (s.workers worker).submit job = .returned true

namespace Placed

/-- A submission to the pool goes on. -/
theorem setSubmit (ok : Placed size s) (job : JobId) {frame : SubmitFrame}
    (unseen : frame = .redirected ∨ frame = .loaded -> s.Unseen job)
    (chosen : forall worker, frame = .chosen worker -> worker < size ∧
      forall other, other ≠ worker -> (s.workers other).submit job = .idle)
    (refused : frame = .returned false -> forall worker,
      (s.workers worker).submit job = .idle ∨ (s.workers worker).submit job = .returned false)
    (accepted : frame = .returned true -> Exists fun worker => worker < size ∧
      (s.workers worker).submit job = .returned true) : Placed size (s.setSubmit job frame) := by
  have frames (other : JobId) : (s.setSubmit job frame).submit other =
      if other = job then frame else s.submit other := Function.update_apply ..
  refine ⟨ok.home, ?_, ?_, ?_, ?_⟩
  · intro other
    rw [frames]
    split
    next same => exact same ▸ unseen
    next => exact ok.unseen other
  · intro other worker
    rw [frames]
    split
    next same => exact same ▸ chosen worker
    next => exact ok.chosen other worker
  · intro other
    rw [frames]
    split
    next same => exact same ▸ refused
    next => exact ok.refused other
  · intro other
    rw [frames]
    split
    next same => exact same ▸ accepted
    next => exact ok.accepted other

/-- The job of a submission to a worker is on its way there. -/
theorem home_of_admitted (ok : Placed size s) {worker : Nat} {event : Scheduler.Event} {job : JobId}
    (admitted : admits s worker event) (mine : submits event = some job) :
    (s.submit job = .chosen worker ∨ s.submit job = .idle) ∧
      forall other, other ≠ worker -> (s.workers other).submit job = .idle := by
  have cases : s.submit job = .chosen worker ∨ s.submit job = .idle ∧
      forall other, other ≠ worker -> (s.workers other).submit job = .idle := by
    cases event with
    | submitRefused other | submitAlloc other | submitCheck other | submitInsert other
    | submitWrite other =>
        cases mine
        exact admitted
    | _ => cases mine
  rcases cases with chosen | ⟨idle, unseen⟩
  · exact ⟨.inl chosen, (ok.chosen job worker chosen).2⟩
  · exact ⟨.inr idle, unseen⟩

/-- A worker takes a step. -/
theorem setWorker (ok : Placed size s) {worker : Nat} {event : Scheduler.Event}
    (home : forall job, submits event = some job ->
      (s.submit job = .chosen worker ∨ s.submit job = .idle) ∧
        forall other, other ≠ worker -> (s.workers other).submit job = .idle) :
    Placed size (s.setWorker worker (Scheduler.next (s.workers worker) event)) := by
  have elsewhere (job : JobId) {other : Nat} (apart : other ≠ worker) :
      ((s.setWorker worker (Scheduler.next (s.workers worker) event)).workers other).submit job =
        (s.workers other).submit job := by
    simp only [State.setWorker, Function.update_of_ne apart]
  have others (job : JobId) (notMine : submits event ≠ some job) (other : Nat) :
      ((s.setWorker worker (Scheduler.next (s.workers worker) event)).workers other).submit job =
        (s.workers other).submit job := by
    by_cases here : other = worker
    · subst here
      simp only [State.setWorker, Function.update_self]
      exact submit_next notMine
    · exact elsewhere job here
  refine ⟨?_, ?_, ?_, ?_, ?_⟩
  · intro job
    by_cases mine : submits event = some job
    · refine ⟨worker, fun other apart => ?_⟩
      rw [elsewhere job apart]
      exact (home job mine).2 other apart
    · simpa only [others job mine] using ok.home job
  · intro job frame
    have notMine : submits event ≠ some job := by
      intro mine
      have cases := (home job mine).1
      change s.submit job = _ ∨ s.submit job = _ at frame
      grind
    simpa only [State.Unseen, others job notMine] using ok.unseen job frame
  · intro job other frame
    refine ⟨(ok.chosen job other frame).1, fun third apart => ?_⟩
    by_cases mine : submits event = some job
    · have cases := home job mine
      have same : other = worker := by
        change s.submit job = _ at frame
        grind
      rw [elsewhere job (same ▸ apart)]
      exact cases.2 third (same ▸ apart)
    · rw [others job mine]
      exact (ok.chosen job other frame).2 third apart
  · intro job frame
    have notMine : submits event ≠ some job := by
      intro mine
      have cases := (home job mine).1
      change s.submit job = _ at frame
      grind
    simpa only [others job notMine] using ok.refused job frame
  · intro job frame
    have notMine : submits event ≠ some job := by
      intro mine
      have cases := (home job mine).1
      change s.submit job = _ at frame
      grind
    simpa only [others job notMine] using ok.accepted job frame

theorem next (ok : Placed size s) (positive : 0 < size) {event : Event}
    (may : enabled size s event) : Placed size (Running.next size s event) := by
  cases event with
  | submitLoad job =>
      refine ok.setSubmit job (fun _ => may.2) ?_ (fun _ worker => .inl (may.2 worker)) ?_
      · intro worker
        split <;> simp
      · split <;> simp
  | submitReload job =>
      have unseen := ok.unseen job (.inl may)
      refine ok.setSubmit job (fun _ => unseen) ?_ (fun _ worker => .inl (unseen worker)) ?_
      · intro worker
        split <;> simp
      · split <;> simp
  | submitToLoad job workerIndex =>
      refine ok.setSubmit job (fun _ => may.2) ?_ (fun _ worker => .inl (may.2 worker)) ?_
      · intro worker frame
        refine ⟨?_, fun other _ => may.2 other⟩
        split at frame
        · split at frame
          · cases frame
          · cases frame
            omega
        · cases frame
      · split
        · split <;> simp
        · simp
  | submitAdvance job =>
      have unseen := ok.unseen job (.inr may)
      have advanced : Placed size (s.setSubmit job (.chosen (s.next % size))) := by
        refine ok.setSubmit job (by simp) ?_ (by simp) (by simp)
        rintro worker ⟨⟩
        exact ⟨Nat.mod_lt _ positive, fun other _ => unseen other⟩
      exact { advanced with }
  | submitReturn job worker accepted =>
      rcases may with ⟨frame, returned⟩
      have chosen := ok.chosen job worker frame
      refine ok.setSubmit job (by simp) (by simp) ?_ ?_
      · rintro ⟨⟩ other
        by_cases here : other = worker
        · exact .inr (here ▸ returned)
        · exact .inl (chosen.2 other here)
      · rintro ⟨⟩
        exact ⟨worker, chosen.1, returned⟩
  | worker worker event => exact ok.setWorker fun job => ok.home_of_admitted may.2.2
  | joinExchange call worker | joinReturn call worker => exact { ok.setWorker (by simp [submits]) with }
  | stopStore call | stopNext call worker | joinEnter call => exact { ok with }

end Placed

theorem reachable_placed (positive : 0 < size) (reached : (machine size).Reachable s) :
    Placed size s := by
  refine reached.invariant (Placed size) ?_ ?_
  · intro s starts
    have idle : forall job worker, (s.workers worker).submit job = .idle := by
      intro job worker
      rw [starts.workers worker]
      rfl
    refine ⟨fun job => ⟨0, fun other _ => idle job other⟩, fun job _ => idle job, ?_, ?_, ?_⟩
    all_goals simp [starts.submit]
  · intro s event _ ok may
    exact ok.next positive may

/-! ## Stopping and joining -/

/-- A call of `UfsrvSchedulerPoolJoin` has returned, and none is under way. -/
def State.Joined (s : State) : Prop :=
  (Exists fun call => s.join call = .returned) ∧
    forall call, s.join call = .idle ∨ s.join call = .returned

/-- The call has come past the worker. -/
def State.Past (s : State) (call : CallId) (worker : Nat) : Prop :=
  s.join call = .returned ∨ Exists fun current => worker < current ∧
    (s.join call = .visiting current ∨ s.join call = .waiting current)

/-- Workers are stopped and joined by the pool only.  A call that has come past a worker has joined
it, or has found that another call did, and that one waits for the worker until its end. -/
structure Ordered (size : Nat) (s : State) : Prop where
  stopped : forall worker call, (s.workers worker).stop call ≠ .idle -> s.stop call ≠ .idle
  kept : forall worker, (s.workers worker).destroy = .idle
  joined : forall call worker, worker < size -> s.Past call worker ->
    (s.workers worker).join ≠ .idle
  waited : forall worker, (s.workers worker).join = .waiting ->
    Exists fun call => s.join call = .waiting worker

namespace Ordered

/-- A worker takes a step that does not join it. -/
theorem setWorker (ok : Ordered size s) {worker : Nat} {event : Scheduler.Event}
    (may : Scheduler.enabled (s.workers worker) event) (admitted : admits s worker event) :
    Ordered size (s.setWorker worker (Scheduler.next (s.workers worker) event)) := by
  have elsewhere {other : Nat} (apart : other ≠ worker) :
      (s.setWorker worker (Scheduler.next (s.workers worker) event)).workers other =
        s.workers other := Function.update_of_ne apart ..
  have here : (s.setWorker worker (Scheduler.next (s.workers worker) event)).workers worker =
      Scheduler.next (s.workers worker) event := Function.update_self ..
  have join (other : Nat) :
      ((s.setWorker worker (Scheduler.next (s.workers worker) event)).workers other).join =
        (s.workers other).join := by
    by_cases same : other = worker
    · subst same
      rw [here]
      refine join_next ?_ ?_ <;> (rintro rfl; exact admitted)
    · rw [elsewhere same]
  refine ⟨?_, ?_, ?_, ?_⟩
  · intro other call busy
    by_cases same : other = worker
    · subst same
      rw [here] at busy
      by_cases mine : stops event = some call
      · have visiting : s.stop call = .visiting other := by
          cases event with
          | stopStore id | stopWrite id =>
              cases mine
              exact admitted
          | _ => cases mine
        change s.stop call ≠ .idle
        rw [visiting]
        simp
      · rw [stop_next mine] at busy
        exact ok.stopped other call busy
    · rw [elsewhere same] at busy
      exact ok.stopped other call busy
  · intro other
    by_cases same : other = worker
    · subst same
      rw [here]
      refine destroy_next (ok.kept other) may ?_
      rintro rfl
      exact admitted
    · rw [elsewhere same]
      exact ok.kept other
  · intro call other inside past
    rw [join]
    exact ok.joined call other inside past
  · intro other
    rw [join]
    exact ok.waited other

/-- A call goes on from a worker that it has joined, or found joined. -/
theorem setJoin (ok : Ordered size s) {call : CallId} {worker : Nat} {state : Scheduler.State}
    {frame : LoopFrame} (leaves : forall other, s.join call = .waiting other -> other = worker)
    (stop : state.stop = (s.workers worker).stop) (kept : state.destroy = .idle)
    (joined : state.join ≠ .idle)
    (past : forall other, other < size ->
      ((s.setWorker worker state).setJoin call frame).Past call other ->
        other = worker ∨ s.Past call other)
    (waited : state.join = .waiting -> Exists fun other =>
      ((s.setWorker worker state).setJoin call frame).join other = .waiting worker) :
    Ordered size ((s.setWorker worker state).setJoin call frame) := by
  have elsewhere {other : Nat} (apart : other ≠ worker) :
      ((s.setWorker worker state).setJoin call frame).workers other = s.workers other :=
    Function.update_of_ne apart ..
  have here : ((s.setWorker worker state).setJoin call frame).workers worker = state :=
    Function.update_self ..
  have others {other : CallId} (apart : other ≠ call) :
      ((s.setWorker worker state).setJoin call frame).join other = s.join other :=
    Function.update_of_ne apart ..
  refine ⟨?_, ?_, ?_, ?_⟩
  · intro other id busy
    by_cases same : other = worker
    · subst same
      rw [here, stop] at busy
      exact ok.stopped other id busy
    · rw [elsewhere same] at busy
      exact ok.stopped other id busy
  · intro other
    by_cases same : other = worker
    · subst same
      rw [here]
      exact kept
    · rw [elsewhere same]
      exact ok.kept other
  · intro id other inside came
    by_cases same : other = worker
    · subst same
      rw [here]
      exact joined
    · rw [elsewhere same]
      refine ok.joined id other inside ?_
      by_cases mine : id = call
      · subst mine
        exact (past other inside came).resolve_left same
      · simpa only [State.Past, others mine] using came
  · intro other waiting
    by_cases same : other = worker
    · subst same
      rw [here] at waiting
      exact waited waiting
    · rw [elsewhere same] at waiting
      rcases ok.waited other waiting with ⟨id, waits⟩
      refine ⟨id, ?_⟩
      rw [others]
      · exact waits
      · rintro rfl
        exact same (leaves other waits)

/-- The workers before the next one are those before this one, and this one. -/
theorem past_onward {call : CallId} {worker other : Nat} (inside : other < size)
    (frame : s.join call = onward size worker)
    (past : s.Past call other) : other < worker + 1 := by
  simp only [State.Past, frame, onward] at past
  split at past
  · rcases past with returned | ⟨current, before, visiting | waiting⟩
    · cases returned
    · cases visiting
      exact before
    · cases waiting
  · omega

theorem next (ok : Ordered size s) (workers : forall worker, Scheduler.Accounted (s.workers worker))
    {event : Event} (may : enabled size s event) : Ordered size (Running.next size s event) := by
  cases event with
  | worker worker event => exact ok.setWorker may.2.1 may.2.2
  | stopStore call =>
      refine { ok with stopped := ?_ }
      intro worker other busy
      by_cases same : other = call
      · subst same
        simp [Running.next]
      · simp only [Running.next, Function.update_of_ne same]
        exact ok.stopped worker other busy
  | stopNext call worker =>
      refine { ok with stopped := ?_ }
      intro worker other busy
      by_cases same : other = call
      · subst same
        simp only [Running.next, Function.update_self, onward]
        split <;> simp
      · simp only [Running.next, Function.update_of_ne same]
        exact ok.stopped worker other busy
  | joinEnter call =>
      have others {other : CallId} (apart : other ≠ call) :
          (s.setJoin call (.visiting 0)).join other = s.join other := Function.update_of_ne apart ..
      have first : (s.setJoin call (.visiting 0)).join call = .visiting 0 :=
        Function.update_self ..
      refine { ok with joined := ?_, waited := ?_ }
      · intro other worker inside past
        by_cases same : other = call
        · subst same
          rcases past with returned | ⟨current, before, visiting | waiting⟩
          · cases first.symm.trans returned
          · cases first.symm.trans visiting
            exact absurd before (Nat.not_lt_zero _)
          · cases first.symm.trans waiting
        · refine ok.joined other worker inside ?_
          simpa only [Running.next, State.Past, others same] using past
      · intro worker waiting
        rcases ok.waited worker waiting with ⟨other, waits⟩
        refine ⟨other, ?_⟩
        simp only [Running.next]
        rw [others]
        · exact waits
        · rintro rfl
          cases (may : s.join other = .idle).symm.trans waits
  | joinExchange call worker =>
      rcases may with ⟨visiting, entered⟩
      have accounted := workers worker
      have leaves (other : Nat) (waits : s.join call = .waiting other) : other = worker := by
        cases visiting.symm.trans waits
      have before {other : Nat} (less : other < worker) : s.Past call other :=
        .inr ⟨worker, less, .inl visiting⟩
      by_cases joined : (s.workers worker).isJoined = true
      · have same : Scheduler.next (s.workers worker) .joinEnter = s.workers worker := by
          simp [Scheduler.next, joined]
        simp only [Running.next, if_pos joined, same]
        refine ok.setJoin leaves rfl (ok.kept worker) (accounted.joining.mp joined) ?_ ?_
        · intro other inside past
          have reaches := past_onward inside (Function.update_self ..) past
          exact (Nat.lt_succ_iff_lt_or_eq.mp reaches).symm.imp_right before
        · intro waiting
          rcases ok.waited worker waiting with ⟨other, waits⟩
          refine ⟨other, (Function.update_of_ne ?_ ..).trans waits⟩
          rintro rfl
          cases visiting.symm.trans waits
      · have first : Scheduler.next (s.workers worker) .joinEnter =
            { s.workers worker with isJoined := true, join := .waiting } := by
          simp [Scheduler.next, joined, accounted.begun]
        simp only [Running.next, if_neg joined, first]
        refine ok.setJoin leaves rfl (ok.kept worker) (by simp) ?_ ?_
        · intro other inside past
          refine .inr (before ?_)
          simp only [State.Past, State.setJoin, Function.update_self] at past
          rcases past with returned | ⟨current, less, visits | waits⟩
          · cases returned
          · cases visits
          · cases waits
            exact less
        · exact fun _ => ⟨call, Function.update_self ..⟩
  | joinReturn call worker =>
      rcases may with ⟨waiting, _⟩
      refine ok.setJoin ?_ rfl (ok.kept worker) (by simp [Scheduler.next]) ?_ ?_
      · intro other waits
        cases waiting.symm.trans waits
        rfl
      · intro other inside past
        have reaches := past_onward inside (Function.update_self ..) past
        refine (Nat.lt_succ_iff_lt_or_eq.mp reaches).symm.imp_right fun less => ?_
        exact .inr ⟨worker, less, .inr waiting⟩
      · intro returned
        cases returned
  | submitLoad job | submitToLoad job workerIndex | submitReload job | submitAdvance job
  | submitReturn job worker accepted => exact { ok with }

end Ordered

theorem reachable_ordered (reached : (machine size).Reachable s) : Ordered size s := by
  refine reached.invariant (Ordered size) ?_ ?_
  · intro s starts
    refine ⟨?_, ?_, ?_, ?_⟩
    · intro worker call busy
      rw [starts.workers worker] at busy
      exact absurd rfl busy
    · intro worker
      rw [starts.workers worker]
      rfl
    · simp [State.Past, starts.join]
    · intro worker waiting
      rw [starts.workers worker] at waiting
      cases waiting
  · intro s event reached ok may
    exact ok.next (fun worker => Scheduler.reachable_accounted (reachable_worker reached worker)) may

/-- Every worker was joined, and has come to its end, when a call has returned and no other one is
under way. -/
theorem Ordered.joined_all (ok : Ordered size s) (joins : s.Joined) {worker : Nat}
    (inside : worker < size) : (s.workers worker).join = .returned := by
  rcases joins with ⟨⟨call, returned⟩, settled⟩
  have joined := ok.joined call worker inside (.inl returned)
  cases frame : (s.workers worker).join with
  | idle => exact absurd frame joined
  | returned => rfl
  | waiting =>
      rcases ok.waited worker frame with ⟨other, waits⟩
      rcases settled other with idle | returned
      · cases idle.symm.trans waits
      · cases returned.symm.trans waits

/-! ## Every accepted job runs once -/

theorem submitted_of_started (reached : (machine size).Reachable s) {worker : Nat} {job : JobId}
    (started : job ∈ (s.workers worker).started) :
    (s.workers worker).submit job = .inserted ∨
      (s.workers worker).submit job = .returned true := by
  have accounted := Scheduler.reachable_accounted (reachable_worker reached worker)
  exact (accounted.submitted job).mp (accounted.started_inserted started)

/-- What the pool promises about its jobs. -/
structure Contract (size : Nat) (s : State) : Prop where
  once : forall worker, (s.workers worker).started.Nodup
  apart : forall job worker other, job ∈ (s.workers worker).started ->
    job ∈ (s.workers other).started -> worker = other
  refused : forall job, s.submit job = .returned false -> forall worker,
    job ∉ (s.workers worker).started
  accepted : forall job, s.submit job = .returned true -> (forall call, s.stop call = .idle) ->
    forall events after, (machine size).Run s events after -> after.Joined ->
      Exists fun worker => worker < size ∧ (after.workers worker).finished.count job = 1

/-- No job runs twice, on whatever workers, and no refused job runs.  A job that the pool accepts
before it is stopped has run on one of its workers when the calls of `UfsrvSchedulerPoolJoin` have
returned. -/
theorem poolContract (size : Nat) (positive : 0 < size) {s : State}
    (reached : (machine size).Reachable s) : Contract size s := by
  have placed := reachable_placed positive reached
  have ordered := reachable_ordered reached
  refine ⟨?_, ?_, ?_, ?_⟩
  · exact fun worker =>
      (Scheduler.reachable_accounted (reachable_worker reached worker)).started_nodup
  · intro job worker other started also
    rcases placed.home job with ⟨home, elsewhere⟩
    have here {place : Nat} (started : job ∈ (s.workers place).started) : place = home := by
      by_contra away
      have idle := elsewhere place away
      rcases submitted_of_started reached started with inserted | returned
      · exact absurd (idle.symm.trans inserted) (by simp)
      · exact absurd (idle.symm.trans returned) (by simp)
    exact (here started).trans (here also).symm
  · intro job refused worker started
    rcases placed.refused job refused worker with idle | returned
    · rcases submitted_of_started reached started with other | other <;>
        exact absurd (idle.symm.trans other) (by simp)
    · rcases submitted_of_started reached started with other | other <;>
        exact absurd (returned.symm.trans other) (by simp)
  · intro job accepted unstopped events after run returned
    rcases placed.accepted job accepted with ⟨worker, inside, submitted⟩
    refine ⟨worker, inside, ?_⟩
    have before := reachable_worker reached worker
    have accounted := Scheduler.reachable_accounted before
    have alive : (s.workers worker).worker ≠ .exited := by
      intro exited
      have off := accounted.leaving (by rw [exited]; rfl)
      rcases (Scheduler.reachable_announced before).running off with ⟨call, stopped⟩ | torn
      · exact ordered.stopped worker call stopped (unstopped call)
      · exact torn (ordered.kept worker)
    have inserted : job ∈ (s.workers worker).inserted :=
      (accounted.submitted job).mpr (.inr submitted)
    rcases run.component Scheduler.machine (fun s => s.workers worker) (simulated worker) with
      ⟨steps, inner⟩
    have kept := inner.stable
      (fun state => job ∈ state.inserted ∧ (state.worker = .exited -> job ∈ state.finished))
      (fun state event reached ok may =>
        Scheduler.finished_next (Scheduler.reachable_accounted reached) may ok) before
      ⟨inserted, fun gone => absurd gone alive⟩
    have later := Scheduler.reachable_accounted (before.run inner)
    have joined := (reachable_ordered (reached.run run)).joined_all returned inside
    have finished := kept.2 (later.joined joined)
    have once := later.started_nodup
    rw [later.progress] at once
    exact List.count_eq_one_of_mem once.of_append_left finished

/-- Two jobs are dispatched to the two workers of a pool. -/
def begun : State where
  next := 0
  isRunning := true
  workers := fun _ => UfsrvRx.Scheduler.start
  submit := fun _ => .idle
  stop := fun _ => .idle
  join := fun _ => .idle

def dispatch (job : JobId) (worker : Nat) : List Event :=
  [.submitLoad job, .submitAdvance job, .worker worker (.submitAlloc job),
    .worker worker (.submitCheck job), .worker worker (.submitInsert job),
    .worker worker (.submitWrite job), .submitReturn job worker true]

theorem reachable_dispatched :
    (machine 2).Reachable ((machine 2).after begun (dispatch 0 0 ++ dispatch 1 1)) := by
  have may : (machine 2).AllEnabled begun (dispatch 0 0 ++ dispatch 1 1) := by
    repeat' first
      | exact trivial
      | exact rfl
      | exact .inl rfl
      | apply And.intro
      | decide
      | (intro worker; rcases worker with _ | _ | worker <;> rfl)
  have starts : (machine 2).Reachable begun :=
    .start ⟨rfl, fun _ => rfl, fun _ => rfl, fun _ => rfl, fun _ => rfl⟩
  exact starts.run may.run

theorem poolContract_dispatched :
    Contract 2 ((machine 2).after begun (dispatch 0 0 ++ dispatch 1 1)) :=
  poolContract 2 (by decide) reachable_dispatched

/-! ## The workers come to rest -/

/-- A worker may take its own steps at any time. -/
theorem run_worker {worker : Nat} (inside : worker < size) {state last : Scheduler.State}
    {events : List Scheduler.Event} (run : Scheduler.machine.Run state events last)
    (own : forall event, event ∈ events -> event.onWorker = true) (s : State) :
    (machine size).Run (s.setWorker worker state) (events.map (.worker worker))
      (s.setWorker worker last) := by
  induction run with
  | done state => exact .done _
  | @step state event events last may rest inductionHypothesis =>
      have here : (s.setWorker worker state).workers worker = state := Function.update_self ..
      have admitted : admits (s.setWorker worker state) worker event := by
        have mine := own event List.mem_cons_self
        cases event <;> first | exact trivial | cases mine
      have moved : (machine size).next (s.setWorker worker state) (.worker worker event) =
          s.setWorker worker (Scheduler.next state event) := by
        simp only [machine, Running.next, here]
        simp only [State.setWorker, Function.update_idem]
      have later := inductionHypothesis fun event mem => own event (List.mem_cons_of_mem _ mem)
      refine .step ⟨inside, ?_, admitted⟩ ?_
      · rw [here]
        exact may
      · rw [moved]
        exact later

/-- When no call is about to write to the eventfd of a worker and no worker has come to its end,
the workers come to rest by themselves, in a bounded number of steps in all: each has finished its
jobs, and sleeps or, if it was stopped, has come to its end. -/
theorem poolComesToRest (size : Nat) {s : State} (reached : (machine size).Reachable s)
    (quiet : forall worker, worker < size -> ¬(s.workers worker).Signalling)
    (alive : forall worker, worker < size -> (s.workers worker).worker ≠ .exited) :
    Exists fun events => Exists fun last => (machine size).Run s events last ∧
      (forall event, event ∈ events -> Exists fun worker => Exists fun step =>
        event = .worker worker step ∧ step.onWorker = true) ∧
      events.length ≤ ∑ worker ∈ Finset.range size, (s.workers worker).potential ∧
      forall worker, worker < size -> (last.workers worker).AtRest := by
  -- One worker after the other comes to rest, and the later ones stay as they are.
  have firstOnes (k : Nat) (bound : k ≤ size) : Exists fun events => Exists fun last =>
      (machine size).Run s events last ∧
      (forall event, event ∈ events -> Exists fun worker => Exists fun step =>
        event = .worker worker step ∧ step.onWorker = true) ∧
      events.length ≤ ∑ worker ∈ Finset.range k, (s.workers worker).potential ∧
      (forall worker, worker < k -> (last.workers worker).AtRest) ∧
      forall worker, k ≤ worker -> last.workers worker = s.workers worker := by
    induction k with
    | zero => exact ⟨[], s, .done s, by simp, by simp, by simp, fun _ _ => rfl⟩
    | succ k inductionHypothesis =>
        rcases inductionHypothesis (Nat.le_of_succ_le bound) with
          ⟨events, last, run, own, length, rests, same⟩
        rcases Scheduler.comesToRest (reachable_worker reached k) (quiet k bound) (alive k bound)
          with ⟨steps, state, inner, short, mine, rest⟩
        have here : last.setWorker k (s.workers k) = last := by
          rw [State.setWorker, <- same k (Nat.le_refl k), Function.update_eq_self]
        have more := here ▸ run_worker bound inner mine last
        refine ⟨events ++ steps.map (.worker k), last.setWorker k state, run.append more,
          ?_, ?_, ?_, ?_⟩
        · intro event mem
          rcases List.mem_append.mp mem with mem | mem
          · exact own event mem
          · rcases List.mem_map.mp mem with ⟨step, taken, rfl⟩
            exact ⟨k, step, rfl, mine step taken⟩
        · rw [Finset.sum_range_succ, List.length_append, List.length_map]
          exact Nat.add_le_add length short
        · intro worker before
          by_cases newest : worker = k
          · subst newest
            simpa only [State.setWorker, Function.update_self] using rest
          · simp only [State.setWorker, Function.update_of_ne newest]
            exact rests worker (by omega)
        · intro worker after
          simp only [State.setWorker, Function.update_of_ne (Nat.ne_of_gt after)]
          exact same worker (Nat.le_of_succ_le after)
  rcases firstOnes size (Nat.le_refl size) with ⟨events, last, run, own, length, rests, _⟩
  exact ⟨events, last, run, own, length, rests⟩

theorem poolComesToRest_dispatched :
    let s := (machine 2).after begun (dispatch 0 0 ++ dispatch 1 1)
    Exists fun events => Exists fun last => (machine 2).Run s events last ∧
      (forall event, event ∈ events -> Exists fun worker => Exists fun step =>
        event = .worker worker step ∧ step.onWorker = true) ∧
      events.length ≤ ∑ worker ∈ Finset.range 2, (s.workers worker).potential ∧
      forall worker, worker < 2 -> (last.workers worker).AtRest := by
  have idle (job : JobId) (state : Scheduler.State)
      (submitted : state.submit job = .returned true)
      (others : forall other, other ≠ job -> state.submit other = .idle)
      (stop : forall call, state.stop call = .idle) (kept : state.destroy = .idle) :
      ¬state.Signalling := by
    rintro (⟨other, inserted⟩ | ⟨call, stored⟩ | signalling)
    · by_cases same : other = job
      · exact absurd (submitted.symm.trans (same ▸ inserted)) (by simp)
      · exact absurd ((others other same).symm.trans inserted) (by simp)
    · exact absurd ((stop call).symm.trans stored) (by simp)
    · exact absurd (kept.symm.trans signalling) (by simp)
  refine poolComesToRest 2 reachable_dispatched ?_ ?_
  · intro worker inside
    have cases : worker = 0 ∨ worker = 1 := by omega
    rcases cases with rfl | rfl
    · refine idle 0 _ rfl ?_ (fun _ => rfl) rfl
      intro other apart
      simp [Machine.after, machine, dispatch, next, begun, State.setWorker, State.setSubmit,
        Scheduler.next, Scheduler.State.insert, UfsrvRx.Scheduler.start, apart]
    · refine idle 1 _ rfl ?_ (fun _ => rfl) rfl
      intro other apart
      simp [Machine.after, machine, dispatch, next, begun, State.setWorker, State.setSubmit,
        Scheduler.next, Scheduler.State.insert, UfsrvRx.Scheduler.start, apart]
  · intro worker inside
    have cases : worker = 0 ∨ worker = 1 := by omega
    rcases cases with rfl | rfl <;> decide

end Running
end Pool
end UfsrvRx
