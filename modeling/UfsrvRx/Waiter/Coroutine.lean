import UfsrvRx.Waiter.Machine

namespace UfsrvRx
namespace Waiter

/-!
# Coroutines and workers

A coroutine runs on the worker of the scheduler it was spawned on, in at most one
wait at a time, and is suspended exactly while that wait is parked.  The worker is
occupied exactly while the coroutine runs.
-/

/-! ## Tables after compound steps -/

namespace Wait

/-- The waiter after the drain has woken it. -/
def drainWoken (wait : Wait) : Wait :=
  match wait.agent with
  | .coroutine _ _ => { wait with wakes := wait.wakes + 1 }
  | .thread => if wait.blockFd then wait.write else wait

/-- The waiter after the cancel callback has woken it. -/
def callbackWoken (wait : Wait) : Wait :=
  match wait.agent with
  | .coroutine _ _ => { wait with wakes := wait.wakes + 1 }
  | .thread => wait.write

theorem drainWoken_calls (wait : Wait) :
    wait.drainWoken.agent = wait.agent ∧ wait.drainWoken.frame = wait.frame ∧
      wait.drainWoken.callback = wait.callback ∧ wait.drainWoken.token = wait.token ∧
      wait.drainWoken.cancelHandle = wait.cancelHandle ∧
      wait.drainWoken.future = wait.future := by
  unfold drainWoken
  repeat' split
  all_goals exact ⟨rfl, rfl, rfl, rfl, rfl, rfl⟩

theorem callbackWoken_calls (wait : Wait) :
    wait.callbackWoken.agent = wait.agent ∧ wait.callbackWoken.frame = wait.frame ∧
      wait.callbackWoken.callback = wait.callback ∧ wait.callbackWoken.token = wait.token ∧
      wait.callbackWoken.cancelHandle = wait.cancelHandle ∧
      wait.callbackWoken.future = wait.future := by
  unfold callbackWoken
  split <;> exact ⟨rfl, rfl, rfl, rfl, rfl, rfl⟩

end Wait

namespace State

variable (s : State)

section status

variable (agent : Agent) (status : Status)

@[simp] theorem registry_setStatus : (s.setStatus agent status).registry = s.registry := by
  cases agent <;> rfl

@[simp] theorem waits_setStatus : (s.setStatus agent status).waits = s.waits := by
  cases agent <;> rfl

@[simp] theorem futures_setStatus : (s.setStatus agent status).futures = s.futures := by
  cases agent <;> rfl

@[simp] theorem complete_setStatus : (s.setStatus agent status).complete = s.complete := by
  cases agent <;> rfl

@[simp] theorem schedulers_setStatus :
    (s.setStatus agent status).schedulers = s.schedulers := by
  cases agent <;> rfl

end status

variable (wait : WaitId)

section finish

variable (result : Future.Result)

@[simp] theorem registry_finish : (s.finish wait result).registry = s.registry := by
  simp [finish, setFrame, setWait]

@[simp] theorem waits_finish : (s.finish wait result).waits =
    Function.update s.waits wait { s.waits wait with frame := .returned result } := by
  simp [finish, setFrame, setWait]

@[simp] theorem futures_finish : (s.finish wait result).futures = s.futures := by
  simp [finish, setFrame, setWait]

@[simp] theorem complete_finish : (s.finish wait result).complete = s.complete := by
  simp [finish, setFrame, setWait]

@[simp] theorem schedulers_finish : (s.finish wait result).schedulers = s.schedulers := by
  simp [finish, setFrame, setWait]

end finish

@[simp] theorem registry_park : (s.park wait).registry = s.registry := by
  unfold park
  split <;> simp [leave, setScheduler, setFrame, setWait]

@[simp] theorem waits_park : (s.park wait).waits =
    Function.update s.waits wait { s.waits wait with frame := .parked } := by
  unfold park
  split <;> simp [leave, setScheduler, setFrame, setWait]

@[simp] theorem futures_park : (s.park wait).futures = s.futures := by
  unfold park
  split <;> simp [leave, setScheduler, setFrame, setWait]

@[simp] theorem complete_park : (s.park wait).complete = s.complete := by
  unfold park
  split <;> simp [leave, setScheduler, setFrame, setWait]

section drain

@[simp] theorem registry_drainWake : (s.drainWake wait).registry = s.registry := by
  unfold drainWake
  repeat' split
  all_goals rfl

@[simp] theorem waits_drainWake : (s.drainWake wait).waits =
    Function.update s.waits wait (s.waits wait).drainWoken := by
  cases agent : (s.waits wait).agent with
  | coroutine coroutine scheduler =>
      simp [drainWake, Wait.drainWoken, agent, submitResume, setWait, setScheduler]
  | thread =>
      by_cases open_ : (s.waits wait).blockFd = true <;>
        simp [drainWake, Wait.drainWoken, agent, open_, setWait]

@[simp] theorem futures_drainWake : (s.drainWake wait).futures = s.futures := by
  unfold drainWake
  repeat' split
  all_goals rfl

@[simp] theorem complete_drainWake : (s.drainWake wait).complete = s.complete := by
  unfold drainWake
  repeat' split
  all_goals rfl

@[simp] theorem coroutines_drainWake : (s.drainWake wait).coroutines = s.coroutines := by
  unfold drainWake
  repeat' split
  all_goals rfl

/-- The queues after a waiter was woken. -/
def enqueued (s : State) (wait : WaitId) : SchedulerId -> Scheduler :=
  match (s.waits wait).agent with
  | .coroutine coroutine scheduler =>
      Function.update s.schedulers scheduler
        { s.schedulers scheduler with
          queue := (s.schedulers scheduler).queue ++ [.resume coroutine wait] }
  | .thread => s.schedulers

@[simp] theorem schedulers_drainWake : (s.drainWake wait).schedulers = s.enqueued wait := by
  unfold drainWake enqueued
  cases (s.waits wait).agent with
  | coroutine coroutine scheduler => rfl
  | thread =>
      simp only
      split <;> rfl

@[simp] theorem schedulers_callbackWake : (s.callbackWake wait).schedulers = s.enqueued wait := by
  unfold callbackWake enqueued
  cases (s.waits wait).agent <;> rfl

@[simp] theorem registry_callbackWake : (s.callbackWake wait).registry = s.registry := by
  unfold callbackWake
  split <;> rfl

@[simp] theorem waits_callbackWake : (s.callbackWake wait).waits =
    Function.update s.waits wait (s.waits wait).callbackWoken := by
  cases agent : (s.waits wait).agent with
  | coroutine coroutine scheduler =>
      simp [callbackWake, Wait.callbackWoken, agent, submitResume, setWait, setScheduler]
  | thread => simp [callbackWake, Wait.callbackWoken, agent, setWait]

@[simp] theorem futures_callbackWake : (s.callbackWake wait).futures = s.futures := by
  unfold callbackWake
  split <;> rfl

@[simp] theorem complete_callbackWake : (s.callbackWake wait).complete = s.complete := by
  unfold callbackWake
  split <;> rfl

@[simp] theorem coroutines_callbackWake : (s.callbackWake wait).coroutines = s.coroutines := by
  unfold callbackWake
  split <;> rfl

end drain

section resume

variable (scheduler : SchedulerId) (coroutine : CoroutineId) (rest : List Job)

@[simp] theorem registry_resume : (s.resume scheduler coroutine rest).registry = s.registry := by
  unfold resume
  split <;> rfl

@[simp] theorem futures_resume : (s.resume scheduler coroutine rest).futures = s.futures := by
  unfold resume
  split <;> rfl

@[simp] theorem complete_resume : (s.resume scheduler coroutine rest).complete = s.complete := by
  unfold resume
  split <;> rfl

end resume

section react

variable (event : Cancellation.Event)

/-- What the waits do when the registry takes a step. -/
theorem react_cases :
    s.react event = s ∨
      (Exists fun w => event.starts = some w ∧ (s.waits w).Owned ∧
        s.react event = s.setWait w { s.waits w with callback := .entered }) ∨
      Exists fun w => event = .hookCall w ∧ (s.waits w).Owned ∧
        s.react event = s.setWait w (s.waits w).drop := by
  unfold react
  cases starts : event.starts with
  | some w =>
      by_cases owned : (s.waits w).Owned
      · exact Or.inr (Or.inl ⟨w, rfl, owned, if_pos owned⟩)
      · exact Or.inl (if_neg owned)
  | none =>
      cases hook : hookOf event with
      | none => exact Or.inl rfl
      | some w =>
          have called : event = .hookCall w := by
            cases event <;> simp_all [hookOf]
          by_cases owned : (s.waits w).Owned
          · exact Or.inr (Or.inr ⟨w, called, owned, if_pos owned⟩)
          · exact Or.inl (if_neg owned)

end react

end State

/-! ## Seats -/

/-- What a wait means for the coroutine it is made on. -/
inductive Seat
  | outside
  | active
  | parked
  | ended
deriving DecidableEq, Repr

def WaitFrame.seat : WaitFrame -> Seat
  | idle => .outside
  | parked => .parked
  | returned _ => .ended
  | checkingToken | checkingState | allocated | retaining | registering | parking | closing
  | unregistering | awaiting | releasing | rechecking | reading => .active

theorem WaitFrame.seat_parked {frame : WaitFrame} : frame.seat = .parked ↔ frame = .parked := by
  cases frame <;> simp [seat]

namespace Status

@[grind =] def isRunning : Status -> Bool
  | running _ => true
  | absent | spawned | suspended _ | exited => false

/-- The coroutine has been created on its worker. -/
@[grind =] def begun : Status -> Bool
  | running _ | suspended _ | exited => true
  | absent | spawned => false

end Status

/-- Coroutines, the waits they are in, and the workers they occupy. -/
structure Seated (s : State) : Prop where
  worker : forall S c, (s.schedulers S).worker = some c ↔
    (s.coroutines c).scheduler = S ∧ (s.coroutines c).status.isRunning = true
  running : forall c w, (s.coroutines c).status = .running (some w) ->
    (s.waits w).agent = .coroutine c (s.coroutines c).scheduler ∧
      (s.waits w).frame.seat = .active
  suspended : forall c w, (s.coroutines c).status = .suspended w ->
    (s.waits w).agent = .coroutine c (s.coroutines c).scheduler ∧
      (s.waits w).frame.seat = .parked
  seat : forall w c S, (s.waits w).agent = .coroutine c S ->
    (s.waits w).frame.seat ≠ .outside ∧ (s.coroutines c).scheduler = S ∧
      (s.coroutines c).status.begun = true ∧
      ((s.waits w).frame.seat = .parked -> (s.coroutines c).status = .suspended w) ∧
      ((s.waits w).frame.seat = .active -> (s.coroutines c).status = .running (some w))
  spawns : forall S c, (s.schedulers S).queue.count (.spawn c) =
    if s.coroutines c = ⟨S, .spawned⟩ then 1 else 0
  resumes : forall S c w, .resume c w ∈ (s.schedulers S).queue ->
    (s.waits w).agent = .coroutine c S

namespace Seated

variable {s : State}

/-- Only the frame of one wait changes, within its seat. -/
theorem stay (ok : Seated s) (w : WaitId) (entry : Wait) {after : State}
    (waits : after.waits = Function.update s.waits w entry)
    (coroutines : after.coroutines = s.coroutines) (schedulers : after.schedulers = s.schedulers)
    (agent : entry.agent = (s.waits w).agent)
    (seat : entry.frame.seat = (s.waits w).frame.seat) : Seated after := by
  have agents (v : WaitId) : (after.waits v).agent = (s.waits v).agent := by
    rw [waits]
    by_cases mine : v = w
    · subst v
      rw [Function.update_self, agent]
    · rw [Function.update_of_ne mine]
  have seats (v : WaitId) : (after.waits v).frame.seat = (s.waits v).frame.seat := by
    rw [waits]
    by_cases mine : v = w
    · subst v
      rw [Function.update_self, seat]
    · rw [Function.update_of_ne mine]
  constructor
  · simpa only [coroutines, schedulers] using ok.worker
  · simpa only [coroutines, agents, seats] using ok.running
  · simpa only [coroutines, agents, seats] using ok.suspended
  · simpa only [coroutines, agents, seats] using ok.seat
  · simpa only [coroutines, schedulers] using ok.spawns
  · simpa only [schedulers, agents] using ok.resumes

/-- The job is appended to the queue of the coroutine's scheduler. -/
theorem enqueue (ok : Seated s) (w : WaitId) {c : CoroutineId} {S : SchedulerId}
    (agent : (s.waits w).agent = .coroutine c S) :
    Seated (s.setScheduler S
      { s.schedulers S with queue := (s.schedulers S).queue ++ [.resume c w] }) := by
  refine { ok with worker := ?_, spawns := ?_, resumes := ?_ }
  · intro T d
    have before := ok.worker T d
    by_cases mine : T = S
    · subst T
      simpa only [State.setScheduler, Function.update_self] using before
    · simpa only [State.setScheduler, Function.update_of_ne mine] using before
  · intro T d
    have before := ok.spawns T d
    change (Function.update s.schedulers S _ T).queue.count (.spawn d) =
      if s.coroutines d = ⟨T, .spawned⟩ then 1 else 0
    by_cases mine : T = S
    · subst T
      simpa using before
    · rwa [Function.update_of_ne mine]
  · intro T d v queued
    by_cases mine : T = S
    · subst T
      simp only [State.setScheduler, Function.update_self, List.mem_append,
        List.mem_singleton, Job.resume.injEq] at queued
      rcases queued with old | ⟨rfl, rfl⟩
      · exact ok.resumes S d v old
      · exact agent
    · simp only [State.setScheduler, Function.update_of_ne mine] at queued
      exact ok.resumes T d v queued

/-- A waiter is woken. -/
theorem wake (ok : Seated s) (w : WaitId) (entry : Wait) {after : State}
    (waits : after.waits = Function.update s.waits w entry)
    (coroutines : after.coroutines = s.coroutines)
    (schedulers : after.schedulers = s.enqueued w)
    (agent : entry.agent = (s.waits w).agent)
    (seat : entry.frame.seat = (s.waits w).frame.seat) : Seated after := by
  unfold State.enqueued at schedulers
  cases here : (s.waits w).agent with
  | coroutine c S =>
      rw [here] at schedulers
      exact (ok.enqueue w here).stay w entry waits coroutines schedulers agent seat
  | thread =>
      rw [here] at schedulers
      exact ok.stay w entry waits coroutines schedulers agent seat

/-- The agent of a wait, if it is a coroutine, is running in it. -/
theorem running_of_active (ok : Seated s) {w : WaitId} {c : CoroutineId} {S : SchedulerId}
    (agent : (s.waits w).agent = .coroutine c S) (active : (s.waits w).frame.seat = .active) :
    s.coroutines c = ⟨S, .running (some w)⟩ := by
  have seat := ok.seat w c S agent
  cases entry : s.coroutines c with
  | mk scheduler status =>
      rw [entry] at seat
      rw [show scheduler = S from seat.2.1, show status = _ from seat.2.2.2.2 active]

section move

variable {c : CoroutineId} {S : SchedulerId} {status : Status} {queue : List Job}

/-- The worker follows the status of its coroutine. -/
theorem worker_move (ok : Seated s)
    (free : (s.schedulers S).worker = none ∨ (s.schedulers S).worker = some c)
    (home : (s.coroutines c).scheduler = S ∨ (s.coroutines c).status.isRunning = false)
    (T : SchedulerId) (d : CoroutineId) :
    (Function.update s.schedulers S ⟨queue, if status.isRunning then some c else none⟩ T).worker =
        some d ↔
      (Function.update s.coroutines c ⟨S, status⟩ d).scheduler = T ∧
        (Function.update s.coroutines c ⟨S, status⟩ d).status.isRunning = true := by
  have before := ok.worker T d
  by_cases mine : d = c
  · subst d
    rw [Function.update_self]
    by_cases here : T = S
    · subst T
      rw [Function.update_self]
      simp
    · rw [Function.update_of_ne here, before]
      grind -linarith
  · rw [Function.update_of_ne mine]
    by_cases here : T = S
    · subst T
      rw [Function.update_self]
      grind -linarith
    · rw [Function.update_of_ne here]
      exact before

/-- The spawn jobs of the queue follow the status of their coroutines. -/
theorem spawns_move (ok : Seated s)
    (home : (s.coroutines c).scheduler = S ∨ (s.coroutines c).status ≠ .spawned)
    (queued : forall d, queue.count (.spawn d) = if d = c then (if status = .spawned then 1 else 0)
      else (s.schedulers S).queue.count (.spawn d))
    {worker : Option CoroutineId} (T : SchedulerId) (d : CoroutineId) :
    (Function.update s.schedulers S ⟨queue, worker⟩ T).queue.count (.spawn d) =
      if Function.update s.coroutines c ⟨S, status⟩ d = ⟨T, .spawned⟩ then 1 else 0 := by
  have before := ok.spawns T d
  by_cases mine : d = c
  · subst d
    rw [Function.update_self]
    by_cases here : T = S
    · subst T
      rw [Function.update_self]
      simp [queued]
    · rw [Function.update_of_ne here, before]
      grind -linarith
  · rw [Function.update_of_ne mine]
    by_cases here : T = S
    · subst T
      rw [Function.update_self, queued, if_neg mine]
      exact before
    · rw [Function.update_of_ne here]
      exact before

/-- The coroutine is in no wait before or after. -/
theorem moveFree (ok : Seated s) {after : State}
    (coroutines : after.coroutines = Function.update s.coroutines c ⟨S, status⟩)
    (schedulers : after.schedulers = Function.update s.schedulers S
      ⟨queue, if status.isRunning then some c else none⟩)
    (waits : after.waits = s.waits)
    (free : (s.schedulers S).worker = none ∨ (s.schedulers S).worker = some c)
    (home : (s.coroutines c).scheduler = S ∨ (s.coroutines c).status = .absent)
    (spawns : forall d, queue.count (.spawn d) = if d = c then (if status = .spawned then 1 else 0)
      else (s.schedulers S).queue.count (.spawn d))
    (resumes : forall d v, .resume d v ∈ queue -> .resume d v ∈ (s.schedulers S).queue)
    (begun : (s.coroutines c).status.begun = true -> status.begun = true)
    (old : forall v, (s.coroutines c).status ≠ .suspended v ∧
      (s.coroutines c).status ≠ .running (some v))
    (new : forall v, status ≠ .suspended v ∧ status ≠ .running (some v)) : Seated after := by
  constructor
  · rw [coroutines, schedulers]
    exact ok.worker_move free (by grind -linarith)
  · intro d v
    have before := ok.running d v
    rw [coroutines, waits]
    grind -linarith
  · intro d v
    have before := ok.suspended d v
    rw [coroutines, waits]
    grind -linarith
  · intro v d T
    have before := ok.seat v d T
    have stays := old v
    rw [coroutines, waits]
    grind -linarith
  · rw [coroutines, schedulers]
    exact ok.spawns_move (by grind -linarith) spawns
  · intro T d v
    have before := ok.resumes T d v
    have kept := resumes d v
    rw [schedulers, waits]
    grind -linarith

/-- The coroutine is in one wait before or after, which moves with it. -/
theorem moveIn (ok : Seated s) {w : WaitId} {entry : Wait} {after : State}
    (coroutines : after.coroutines = Function.update s.coroutines c ⟨S, status⟩)
    (schedulers : after.schedulers = Function.update s.schedulers S
      ⟨queue, if status.isRunning then some c else none⟩)
    (waits : after.waits = Function.update s.waits w entry)
    (free : (s.schedulers S).worker = none ∨ (s.schedulers S).worker = some c)
    (home : (s.coroutines c).scheduler = S) (begun : (s.coroutines c).status.begun = true)
    (still : status.begun = true)
    (spawns : forall d, queue.count (.spawn d) = (s.schedulers S).queue.count (.spawn d))
    (resumes : forall d v, .resume d v ∈ queue -> .resume d v ∈ (s.schedulers S).queue)
    (old : forall v, (s.coroutines c).status = .suspended v ∨
      (s.coroutines c).status = .running (some v) -> v = w)
    (owner : (s.waits w).agent = .coroutine c S ∨ (s.waits w).frame = .idle)
    (agent : entry.agent = .coroutine c S) (inside : entry.frame.seat ≠ .outside)
    (parked : forall v, status = .suspended v ↔ v = w ∧ entry.frame.seat = .parked)
    (active : forall v, status = .running (some v) ↔ v = w ∧ entry.frame.seat = .active) :
    Seated after := by
  have mine (d : CoroutineId) (T : SchedulerId) (theirs : (s.waits w).agent = .coroutine d T) :
      (s.waits w).agent = .coroutine c S := by
    rcases owner with same | idle
    · exact same
    · exact absurd (by rw [idle]; rfl) (ok.seat w d T theirs).1
  constructor
  · rw [coroutines, schedulers]
    exact ok.worker_move free (Or.inl home)
  · intro d v
    have before := ok.running d v
    have := active v
    have := mine d
    rw [coroutines, waits]
    grind -linarith
  · intro d v
    have before := ok.suspended d v
    have := parked v
    have := mine d
    rw [coroutines, waits]
    grind -linarith
  · intro v d T
    rw [coroutines, waits]
    by_cases same : v = w
    · subst v
      rw [Function.update_self]
      intro theirs
      rw [agent] at theirs
      injection theirs with coroutine scheduler
      subst d T
      rw [Function.update_self]
      exact ⟨inside, rfl, still, fun seat => (parked w).mpr ⟨rfl, seat⟩,
        fun seat => (active w).mpr ⟨rfl, seat⟩⟩
    · rw [Function.update_of_ne same]
      intro theirs
      have before := ok.seat v d T theirs
      have := old v
      grind -linarith
  · rw [coroutines, schedulers]
    refine ok.spawns_move (Or.inl home) ?_
    intro d
    rw [spawns d]
    have before := ok.spawns S d
    grind -linarith
  · intro T d v
    have before := ok.resumes T d v
    have kept := resumes d v
    have := mine d T
    rw [schedulers, waits]
    grind -linarith

end move

/-- A wait of a plain thread concerns no coroutine. -/
theorem elsewhere (ok : Seated s) (w : WaitId) (entry : Wait) {after : State}
    (waits : after.waits = Function.update s.waits w entry)
    (coroutines : after.coroutines = s.coroutines) (schedulers : after.schedulers = s.schedulers)
    (before : (s.waits w).agent = .thread) (agent : entry.agent = .thread) : Seated after := by
  constructor
  · simpa only [coroutines, schedulers] using ok.worker
  · intro c v
    have := ok.running c v
    rw [coroutines, waits]
    grind -linarith
  · intro c v
    have := ok.suspended c v
    rw [coroutines, waits]
    grind -linarith
  · intro v c S
    have := ok.seat v c S
    rw [coroutines, waits]
    grind -linarith
  · simpa only [coroutines, schedulers] using ok.spawns
  · intro S c v
    have := ok.resumes S c v
    rw [schedulers, waits]
    grind -linarith

theorem thread_of_idle (ok : Seated s) {w : WaitId} (idle : (s.waits w).frame = .idle) :
    (s.waits w).agent = .thread := by
  cases agent : (s.waits w).agent with
  | thread => rfl
  | coroutine c S => exact absurd (by rw [idle]; rfl) (ok.seat w c S agent).1

/-- The worker of a running coroutine. -/
theorem worker_of_running (ok : Seated s) {c : CoroutineId} {S : SchedulerId}
    {wait : Option WaitId} (here : s.coroutines c = ⟨S, .running wait⟩) :
    (s.schedulers S).worker = some c :=
  (ok.worker S c).mpr (by rw [here]; exact ⟨rfl, rfl⟩)

/-- As long as its coroutine runs the entry of a scheduler is as it was. -/
theorem schedulers_kept (ok : Seated s) {c : CoroutineId} {S : SchedulerId}
    {wait : Option WaitId} (here : s.coroutines c = ⟨S, .running wait⟩) :
    s.schedulers = Function.update s.schedulers S ⟨(s.schedulers S).queue, some c⟩ := by
  rw [<- ok.worker_of_running here]
  exact (Function.update_eq_self S s.schedulers).symm

theorem start (ok : Seated s) {w : WaitId} {agent : Agent} {f : FutureId}
    {token : Option TokenId} (may : enabled s (.waitStart w agent f token)) :
    Seated (Waiter.next s (.waitStart w agent f token)) := by
  have idle := may.1
  have entered : (if token = none then WaitFrame.checkingState else .checkingToken).seat =
      .active := by
    split <;> rfl
  cases agent with
  | thread =>
      exact ok.elsewhere w _ rfl rfl rfl (ok.thread_of_idle idle) rfl
  | coroutine c S =>
      have here := may.2.2.1 c S rfl
      refine ok.moveIn (show _ = Function.update s.coroutines c ⟨S, .running (some w)⟩ from ?_)
        (ok.schedulers_kept here) rfl (Or.inr (ok.worker_of_running here)) (by rw [here])
        (by rw [here]; rfl) rfl (fun _ => rfl) (fun _ _ => id) (by simp [here]) (Or.inr idle) rfl
        ?_ ?_ ?_
      · change Function.update s.coroutines c { s.coroutines c with status := _ } = _
        rw [here]
      · rw [entered]
        simp
      · intro v
        rw [entered]
        simp
      · intro v
        rw [entered]
        simp [eq_comm]

theorem finish (ok : Seated s) {w : WaitId} (active : (s.waits w).frame.seat = .active)
    (result : Future.Result) : Seated (s.finish w result) := by
  cases agent : (s.waits w).agent with
  | thread =>
      refine ok.elsewhere w _ (State.waits_finish s w result) ?_ (State.schedulers_finish s w result)
        agent agent
      simp [State.finish, agent, State.setStatus, State.setFrame, State.setWait]
  | coroutine c S =>
      have here := ok.running_of_active agent active
      have kept := ok.schedulers_kept here
      refine ok.moveIn (show _ = Function.update s.coroutines c ⟨S, .running none⟩ from ?_)
        ((State.schedulers_finish s w result).trans kept) (State.waits_finish s w result)
        (Or.inr (ok.worker_of_running here)) (by rw [here]) (by rw [here]; rfl) rfl (fun _ => rfl)
        (fun _ _ => id) (by simp [here, eq_comm]) (Or.inl agent) agent (by simp [WaitFrame.seat])
        (by simp [WaitFrame.seat]) (by simp [WaitFrame.seat])
      simp [State.finish, agent, State.setStatus, State.setFrame, State.setWait,
        State.setCoroutine, here]

theorem park (ok : Seated s) {w : WaitId} (here : (s.waits w).frame = .parking) :
    Seated (s.park w) := by
  cases agent : (s.waits w).agent with
  | thread =>
      have parked : s.park w = s.setFrame w .parked := by
        simp [State.park, agent]
      rw [parked]
      exact ok.elsewhere w _ rfl rfl rfl agent agent
  | coroutine c S =>
      have running := ok.running_of_active agent (by rw [here]; rfl)
      refine ok.moveIn (show _ = Function.update s.coroutines c ⟨S, .suspended w⟩ from ?_)
        (show _ = Function.update s.schedulers S ⟨(s.schedulers S).queue, none⟩ from ?_)
        (State.waits_park s w) (Or.inr (ok.worker_of_running running)) (by rw [running])
        (by rw [running]; rfl) rfl (fun _ => rfl) (fun _ _ => id) (by simp [running, eq_comm])
        (Or.inl agent) agent (by simp [WaitFrame.seat]) (by simp [WaitFrame.seat, eq_comm])
        (by simp [WaitFrame.seat])
      · simp [State.park, agent, State.setStatus, State.setFrame, State.setWait,
          State.setCoroutine, State.leave, State.setScheduler, running]
      · simp [State.park, agent, State.setStatus, State.setFrame, State.setWait,
          State.setCoroutine, State.leave, State.setScheduler]

theorem resume (ok : Seated s) {S : SchedulerId} {c : CoroutineId} {w : WaitId} {rest : List Job}
    (may : s.schedulers S = ⟨.resume c w :: rest, none⟩) : Seated (s.resume S c rest) := by
  have queue : (s.schedulers S).queue = .resume c w :: rest := by rw [may]
  have agent := ok.resumes S c w (by rw [queue]; exact List.mem_cons_self)
  have home := (ok.seat w c S agent).2.1
  have spawns (d : CoroutineId) : rest.count (.spawn d) =
      (s.schedulers S).queue.count (.spawn d) := by
    rw [queue]
    simp
  have resumes (d : CoroutineId) (v : WaitId) (queued : .resume d v ∈ rest) :
      .resume d v ∈ (s.schedulers S).queue := by
    rw [queue]
    exact List.mem_cons_of_mem _ queued
  unfold State.resume
  split
  next v suspended =>
    have seat := ok.suspended c v suspended
    rw [home] at seat
    have awake : (s.waits v).awake.seat = .active := by
      unfold Wait.awake
      split <;> rfl
    refine ok.moveIn rfl rfl rfl (Or.inl (by rw [may])) home (by rw [suspended]; rfl) rfl spawns
      resumes (by simp [suspended, eq_comm]) (Or.inl seat.1) seat.1 ?_ ?_ ?_
    · rw [awake]
      simp
    · simp [awake]
    · simp [awake, eq_comm]
  · refine { ok with worker := ?_, spawns := ?_, resumes := ?_ }
    · intro T d
      have before := ok.worker T d
      simp only [State.setScheduler]
      grind -linarith
    · intro T d
      have before := ok.spawns T d
      change (Function.update s.schedulers S _ T).queue.count (.spawn d) =
        if s.coroutines d = ⟨T, .spawned⟩ then 1 else 0
      by_cases mine : T = S
      · subst T
        rw [Function.update_self]
        exact (spawns d).trans before
      · rwa [Function.update_of_ne mine]
    · intro T d v queued
      by_cases mine : T = S
      · subst T
        simp only [State.setScheduler, Function.update_self] at queued
        exact ok.resumes S d v (resumes d v queued)
      · simp only [State.setScheduler, Function.update_of_ne mine] at queued
        exact ok.resumes T d v queued

theorem spawn (ok : Seated s) {c : CoroutineId} (S : SchedulerId)
    (may : (s.coroutines c).status = .absent) : Seated (Waiter.next s (.spawn c S)) := by
  have unseated (w : WaitId) (T : SchedulerId) : (s.waits w).agent ≠ .coroutine c T := by
    intro agent
    have begun := (ok.seat w c T agent).2.2.1
    rw [may] at begun
    cases begun
  have unspawned (T : SchedulerId) : (s.schedulers T).queue.count (.spawn c) = 0 := by
    rw [ok.spawns T c, if_neg]
    intro here
    rw [here] at may
    cases may
  simp only [Waiter.next]
  constructor
  · intro T d
    have before := ok.worker T d
    simp only [State.setScheduler, State.setCoroutine]
    grind -linarith
  · intro d v
    have before := ok.running d v
    simp only [State.setScheduler, State.setCoroutine]
    grind -linarith
  · intro d v
    have before := ok.suspended d v
    simp only [State.setScheduler, State.setCoroutine]
    grind -linarith
  · intro v d T
    have before := ok.seat v d T
    have := unseated v T
    simp only [State.setScheduler, State.setCoroutine]
    grind -linarith
  · intro T d
    have before := ok.spawns T d
    change (Function.update s.schedulers S _ T).queue.count (.spawn d) =
      if Function.update s.coroutines c ⟨S, .spawned⟩ d = ⟨T, .spawned⟩ then 1 else 0
    by_cases mine : d = c
    · subst d
      rw [Function.update_self]
      by_cases here : T = S
      · subst T
        simp [unspawned]
      · rw [Function.update_of_ne here, unspawned, if_neg (by simp [Ne.symm here])]
    · rw [Function.update_of_ne mine, <- before]
      by_cases here : T = S
      · subst T
        simp [Ne.symm mine]
      · rw [Function.update_of_ne here]
  · intro T d v
    have before := ok.resumes T d v
    simp only [State.setScheduler, State.setCoroutine]
    grind -linarith

theorem workerSpawn (ok : Seated s) {S : SchedulerId} {c : CoroutineId} {rest : List Job}
    (may : s.schedulers S = ⟨.spawn c :: rest, none⟩) :
    Seated (Waiter.next s (.workerSpawn S c rest)) := by
  have queue : (s.schedulers S).queue = .spawn c :: rest := by rw [may]
  have counted := ok.spawns S c
  rw [queue, List.count_cons_self] at counted
  have here : s.coroutines c = ⟨S, .spawned⟩ := by
    by_contra other
    rw [if_neg other] at counted
    omega
  rw [if_pos here] at counted
  refine ok.moveFree rfl rfl rfl (Or.inl (by rw [may])) (Or.inl (by rw [here])) ?_ ?_
    (by simp [here, Status.begun]) (by simp [here]) (by simp)
  · intro d
    rw [queue]
    by_cases mine : d = c
    · subst d
      simp only [if_true, reduceCtorEq, if_false]
      omega
    · simp [mine, Ne.symm mine]
  · intro d v queued
    rw [queue]
    exact List.mem_cons_of_mem _ queued

theorem exit (ok : Seated s) {c : CoroutineId}
    (may : (s.coroutines c).status = .running none) :
    Seated (Waiter.next s (.coroutineExit c)) := by
  have here : s.coroutines c = ⟨(s.coroutines c).scheduler, .running none⟩ := by
    rw [<- may]
  refine ok.moveFree rfl rfl rfl (Or.inr (ok.worker_of_running here)) (Or.inl rfl) ?_ (fun _ _ => id)
    (fun _ => rfl) (by simp [may]) (by simp)
  intro d
  have before := ok.spawns (s.coroutines c).scheduler d
  change (s.schedulers (s.coroutines c).scheduler).queue.count (.spawn d) = _
  by_cases mine : d = c
  · subst d
    rw [if_neg (by rw [here]; simp)] at before
    simpa using before
  · rw [if_neg mine]

/-- A step that only moves a wait within its seat. -/
theorem setWait (ok : Seated s) {w : WaitId} {entry : Wait}
    (agent : entry.agent = (s.waits w).agent)
    (seat : entry.frame.seat = (s.waits w).frame.seat) : Seated (s.setWait w entry) :=
  ok.stay w entry rfl rfl rfl agent seat

theorem next (ok : Seated s) {event : Event} (may : enabled s event) :
    Seated (Waiter.next s event) := by
  cases event with
  | registry inner =>
      change Seated { s.react inner with registry := _ }
      rcases s.react_cases inner with same | ⟨w, _, _, moved⟩ | ⟨w, _, _, moved⟩
      · rw [same]
        exact { ok with }
      · rw [moved]
        exact ok.stay w _ rfl rfl rfl rfl rfl
      · rw [moved]
        exact ok.stay w _ rfl rfl rfl rfl rfl
  | waitStart w agent f token => exact ok.start may
  | waitCheckToken w t =>
      have here : (s.waits w).frame = .checkingToken := may.1
      simp only [Waiter.next]
      split
      · exact ok.finish (by rw [here]; rfl) _
      · exact ok.setWait rfl (by rw [here]; rfl)
  | waitCheckState w =>
      have here : (s.waits w).frame = .checkingState := may
      simp only [Waiter.next]
      split
      · exact ok.setWait rfl (by rw [here]; rfl)
      · exact ok.setWait rfl (by rw [here]; rfl)
  | waitPush w =>
      have here : (s.waits w).frame = .allocated := may
      simp only [Waiter.next]
      split
      · exact ok.setWait rfl (by rw [here]; rfl)
      · refine ok.stay w _ rfl rfl rfl rfl ?_
        rw [here]
        split <;> rfl
  | waitRetain w => exact ok.setWait rfl (by rw [show (s.waits w).frame = _ from may]; rfl)
  | waitRegistered w => exact ok.setWait rfl (by rw [show (s.waits w).frame = _ from may.1]; rfl)
  | waitPark w => exact ok.park may
  | waitRead w => exact ok.elsewhere w _ rfl rfl rfl may.2.1 may.2.1
  | waitClose w =>
      refine ok.setWait rfl ?_
      rw [show (s.waits w).frame = _ from may]
      simp only [Wait.awake]
      split <;> rfl
  | waitUnregister w =>
      have here : (s.waits w).frame = .unregistering := may.1
      exact ok.stay w _ rfl rfl rfl rfl (by rw [here]; rfl)
  | waitUnregistered w won => exact ok.setWait rfl (by rw [show (s.waits w).frame = _ from may.1]; rfl)
  | waitRelease w =>
      refine ok.setWait rfl ?_
      rw [show (s.waits w).frame = _ from may]
      split <;> rfl
  | waitRecheck w t =>
      have here : (s.waits w).frame = .rechecking := may.1
      simp only [Waiter.next]
      split
      · exact ok.finish (by rw [here]; rfl) _
      · exact ok.setWait rfl (by rw [here]; rfl)
  | waitReturn w => exact ok.finish (by rw [show (s.waits w).frame = _ from may]; rfl) _
  | callbackClaim w =>
      simp only [Waiter.next]
      split <;> exact ok.setWait rfl rfl
  | callbackWake w =>
      have same := (s.waits w).callbackWoken_calls
      refine ok.wake w { (s.waits w).callbackWoken with callback := .done } ?_ ?_ ?_ same.1 ?_
      · simp [Waiter.next, State.setWait]
      · simp [Waiter.next, State.setWait]
      · simp [Waiter.next, State.setWait]
      · rw [same.2.1]
  | completeExchange k f r =>
      simp only [Waiter.next]
      split <;> exact { ok with }
  | completeClaim k f w rest =>
      simp only [Waiter.next]
      split
      · exact { ok with }
      · exact ok.stay w _ rfl rfl rfl rfl rfl
  | completeWake k f w rest =>
      have same := (s.waits w).drainWoken_calls
      refine ok.wake w (s.waits w).drainWoken ?_ ?_ ?_ same.1 ?_
      · simp [Waiter.next, State.setComplete]
      · simp [Waiter.next, State.setComplete]
      · simp [Waiter.next, State.setComplete]
      · rw [same.2.1]
  | completeRelease k f w rest => exact ok.stay w _ rfl rfl rfl rfl rfl
  | releaseClose f w rest => exact ok.stay w _ rfl rfl rfl rfl rfl
  | releaseDrop f w rest => exact ok.stay w _ rfl rfl rfl rfl rfl
  | spawn c S => exact ok.spawn S may
  | workerSpawn S c rest => exact ok.workerSpawn may
  | workerResume S c w rest => exact ok.resume may
  | coroutineExit c => exact ok.exit may
  | _ => exact { ok with }

end Seated

theorem reachable_seated {s : State} (reached : machine.Reachable s) : Seated s := by
  refine reached.invariant _ ?_ ?_
  · intro s initial
    rw [show s = start from initial]
    constructor <;> simp [start, Status.isRunning]
  · intro s event _ ok may
    exact ok.next may

end Waiter
end UfsrvRx
