import UfsrvRx.Operator.Custody

namespace UfsrvRx
namespace Operator

open Transition
open UfsrvRx.Future (Result ValueId epipe ecanceled einval)

/-!
# What is read of a failed future

A future keeps the result that it was completed with until a move operator clears it.  As long
as one future is not read after it was cleared, the callbacks for a success are called on it
only if it did not fail.
-/

/-! ## Reading a result -/

/-- The future whose result an event reads.  An input that was claimed before is not read, nor
is one that comes after the first of `UfsrvFutureAny`. -/
def reads (s : State) : Event -> Option FutureId
  | .step =>
      match s.stack with
      | .run f (.group .any out) :: _ =>
          if (s.groups out).flag = true ∨ (s.futures f).isConsumed = true then none else some f
      | .run f _ :: _ => some f
      | .claimInput f _ :: _ => if (s.futures f).isConsumed then none else some f
      | _ => none
  | .answer (.future none) =>
      match s.stack with
      | .callback (.recovery f _) :: _ => some f
      | _ => none
  | .call (.get f) => if (s.futures f).isCompleted then some f else none
  | .resume f => some f
  | _ => none

/-- An event that reads the future does so before its result is moved out. -/
def Timely (f : FutureId) (s : State) (event : Event) : Prop :=
  reads s event = some f -> (s.futures f).isMoved = false

/-- The callback is for a success of the future. -/
def Callback.Succeeds (f : FutureId) : Callback -> Prop
  | mapper g _ _ | flatMapper g _ _ | action g _ => g = f
  | zipper _ first second => first = f ∨ second = f
  | observer _ | recovery _ _ | cancelled => False

/-! ## What is recorded -/

/-- What the completion and the moves make of a future. -/
def Cell.core (cell : Cell) : Bool × Result × Option Result × Bool :=
  (cell.isCompleted, cell.result, cell.completed, cell.isMoved)

/-- The future, if it is watched, was completed without an error. -/
def State.Fine (watched : Set FutureId) (s : State) (f : FutureId) : Prop :=
  f ∈ watched -> Exists fun result => (s.futures f).completed = some result ∧ result.error = 0

namespace Zip

def input (zip : Zip) (isSecond : Bool) : FutureId :=
  if isSecond then zip.secondFuture else zip.firstFuture

def half (zip : Zip) (isSecond : Bool) : Result :=
  if isSecond then zip.second else zip.first

end Zip

/-- The input has reported to the context, and an error of it was seen. -/
def State.Reported (watched : Set FutureId) (s : State) (out : FutureId) (isSecond : Bool) : Prop :=
  ((s.zips out).half isSecond).error ≠ 0 ∨ s.Fine watched ((s.zips out).input isSecond)

/-- What a task on the stack says about errors. -/
def Fits (watched : Set FutureId) (s : State) : Task -> Prop
  | .callback (.mapper f _ _) | .callback (.flatMapper f _ _) | .callback (.action f _) =>
      s.Fine watched f
  | .callback (.zipper _ first second) => s.Fine watched first ∧ s.Fine watched second
  | .zipComplete out first second => (s.zips out).remaining = 0 ∧
      first = (s.zips out).input false ∧ second = (s.zips out).input true ∧
      s.Reported watched out false ∧ s.Reported watched out true
  | .run f (.zip out isSecond) | .register f (.zip out isSecond) =>
      f = (s.zips out).input isSecond
  | _ => True

/-- The input is still to report to the context. -/
def Task.reports (out : FutureId) (isSecond : Bool) : Task -> Prop
  | run _ continuation | register _ continuation => continuation = .zip out isSecond
  | _ => False

def State.Awaits (s : State) (out : FutureId) (isSecond : Bool) : Prop :=
  (Exists fun task => task ∈ s.stack ∧ task.reports out isSecond) ∨
    Exists fun f => (f, .zip out isSecond) ∈ s.waiting

structure Recorded (watched : Set FutureId) (s : State) : Prop where
  record : forall f, (s.futures f).isCompleted = (s.futures f).completed.isSome
  result : forall f, (s.futures f).result =
    if (s.futures f).isMoved then .zero else (s.futures f).completed.getD .zero
  moved : forall f, (s.futures f).isMoved = true -> (s.futures f).isCompleted = true
  fits : forall task, task ∈ s.stack -> Fits watched s task
  waits : forall f out isSecond, (f, .zip out isSecond) ∈ s.waiting ->
    f = (s.zips out).input isSecond
  halves : forall out isSecond, 0 < (s.zips out).remaining ->
    s.Awaits out isSecond ∨ s.Reported watched out isSecond

namespace Recorded

variable {watched : Set FutureId} {s after : State} {task : Task} {new : List Task}

/-- Reading a completed future without an error before it is cleared means that it did not fail. -/
theorem fine_of_read (ok : Recorded watched s) {f : FutureId}
    (completed : (s.futures f).isCompleted = true)
    (timely : f ∈ watched -> (s.futures f).isMoved = false)
    (noError : (s.futures f).result.error = 0) : s.Fine watched f := by
  intro same
  have result := ok.result f
  have record := ok.record f
  rw [completed] at record
  cases came : (s.futures f).completed with
  | none =>
      rw [came] at record
      cases record
  | some first =>
      refine ⟨first, rfl, ?_⟩
      rw [timely same, came] at result
      simp only [Bool.false_eq_true, if_false, Option.getD_some] at result
      rw [<- result]
      exact noError

end Recorded

/-- What is said of futures and contexts stays, and the tasks come and go. -/
structure Stays (s after : State) : Prop where
  core : forall f, (after.futures f).core = (s.futures f).core
  zips : after.zips = s.zips

namespace Stays

variable {watched : Set FutureId} {s after : State}

theorem isMoved (stays : Stays s after) (f : FutureId) :
    (after.futures f).isMoved = (s.futures f).isMoved :=
  congrArg (fun core => core.2.2.2) (stays.core f)

theorem completed (stays : Stays s after) (f : FutureId) :
    (after.futures f).completed = (s.futures f).completed :=
  congrArg (fun core => core.2.2.1) (stays.core f)

theorem result (stays : Stays s after) (f : FutureId) :
    (after.futures f).result = (s.futures f).result :=
  congrArg (fun core => core.2.1) (stays.core f)

theorem isCompleted (stays : Stays s after) (f : FutureId) :
    (after.futures f).isCompleted = (s.futures f).isCompleted :=
  congrArg (fun core => core.1) (stays.core f)

theorem fine (stays : Stays s after) (f : FutureId) : after.Fine watched f ↔ s.Fine watched f := by
  simp only [State.Fine, stays.completed]

theorem reported (stays : Stays s after) (out : FutureId) (isSecond : Bool) :
    after.Reported watched out isSecond ↔ s.Reported watched out isSecond := by
  simp only [State.Reported, stays.zips, stays.fine]

theorem fits (stays : Stays s after) (task : Task) : Fits watched after task ↔ Fits watched s task := by
  unfold Fits
  split <;> simp only [stays.fine, stays.reported, stays.zips]

theorem of_futures (futures : after.futures = s.futures) (zips : after.zips = s.zips) :
    Stays s after :=
  ⟨fun f => by rw [futures], zips⟩

theorem setFuture {f : FutureId} {cell : Cell}
    (futures : after.futures = Function.update s.futures f cell)
    (core : cell.core = (s.futures f).core) (zips : after.zips = s.zips) : Stays s after := by
  refine ⟨?_, zips⟩
  intro g
  rw [futures]
  grind

end Stays

namespace Recorded

variable {watched : Set FutureId} {s after : State} {task : Task} {new : List Task}

theorem fits_of_fine (zips : after.zips = s.zips)
    (grows : forall f, s.Fine watched f -> after.Fine watched f) {other : Task} (fits : Fits watched s other) :
    Fits watched after other := by
  have reported : forall out isSecond, s.Reported watched out isSecond -> after.Reported watched out isSecond := by
    intro out isSecond
    simp only [State.Reported, zips]
    exact Or.imp_right (grows _)
  unfold Fits at fits ⊢
  split at fits <;> (try simp only [zips]) <;> grind

/-- Futures are completed and cleared, and the contexts stay. -/
theorem grow (ok : Recorded watched (s.push [task])) (zips : after.zips = s.zips)
    (grows : forall f, s.Fine watched f -> after.Fine watched f)
    (record : forall f, (after.futures f).isCompleted = (after.futures f).completed.isSome)
    (result : forall f, (after.futures f).result =
      if (after.futures f).isMoved then .zero else (after.futures f).completed.getD .zero)
    (moved : forall f, (after.futures f).isMoved = true -> (after.futures f).isCompleted = true)
    (waiting : forall entry, entry ∈ after.waiting -> entry ∈ s.waiting)
    (stack : after.stack = new ++ s.stack) (fits : forall other, other ∈ new -> Fits watched after other)
    (reports : forall out isSecond, task.reports out isSecond ∨
      (Exists fun f => (f, .zip out isSecond) ∈ s.waiting) -> after.Awaits out isSecond) :
    Recorded watched after where
  record := record
  result := result
  moved := moved
  fits := by
    intro other mem
    rw [stack] at mem
    rcases List.mem_append.mp mem with mem | mem
    · exact fits other mem
    · have before : Fits watched s other := ok.fits other (List.mem_cons_of_mem _ mem)
      exact fits_of_fine zips grows before
  waits := by
    intro f out isSecond mem
    rw [zips]
    exact ok.waits f out isSecond (waiting _ mem)
  halves := by
    intro out isSecond remaining
    rw [zips] at remaining
    rcases ok.halves out isSecond remaining with (⟨other, mem, reporting⟩ | waits) | reported
    · rcases List.mem_cons.mp mem with rfl | mem
      · exact .inl (reports out isSecond (.inl reporting))
      · refine .inl (.inl ⟨other, ?_, reporting⟩)
        rw [stack]
        exact List.mem_append_right _ mem
    · exact .inl (reports out isSecond (.inr waits))
    · refine .inr ?_
      simp only [State.Reported, zips] at reported ⊢
      exact reported.imp_right (grows _)

/-- No future is completed or cleared. -/
theorem stay (ok : Recorded watched (s.push [task])) (stays : Stays s after)
    (waiting : after.waiting = s.waiting) (stack : after.stack = new ++ s.stack)
    (fits : forall other, other ∈ new -> Fits watched s other)
    (reports : forall out isSecond, task.reports out isSecond ->
      Exists fun other => other ∈ new ∧ other.reports out isSecond) : Recorded watched after := by
  refine ok.grow stays.zips (fun f => (stays.fine f).mpr) ?_ ?_ ?_ ?_ stack ?_ ?_
  · intro f
    rw [stays.isCompleted, stays.completed]
    exact ok.record f
  · intro f
    rw [stays.result, stays.isMoved, stays.completed]
    exact ok.result f
  · intro f
    rw [stays.isMoved, stays.isCompleted]
    exact ok.moved f
  · intro entry mem
    rw [waiting] at mem
    exact mem
  · intro other mem
    exact (stays.fits other).mpr (fits other mem)
  · rintro out isSecond (reporting | waits)
    · rcases reports out isSecond reporting with ⟨other, mem, reporting⟩
      refine .inl ⟨other, ?_, reporting⟩
      rw [stack]
      exact List.mem_append_left _ mem
    · refine .inr ?_
      rw [waiting]
      exact waits

theorem done (ok : Recorded watched (s.push [task])) (stays : Stays s after)
    (waiting : after.waiting = s.waiting) (stack : after.stack = s.stack)
    (reports : forall out isSecond, ¬task.reports out isSecond) : Recorded watched after := by
  have none : after.stack = [] ++ s.stack := stack
  exact ok.stay stays waiting none (by simp) fun out isSecond reporting =>
    absurd reporting (reports out isSecond)

/-! ## Steps -/

theorem complete {f : FutureId} {result : Result} (ok : Recorded watched (s.push [.complete f result])) :
    Recorded watched (perform s (.complete f result)) := by
  simp only [perform]
  split
  · exact ok.done (.of_futures (State.futures_destroyValue s result)
      (State.zips_destroyValue s result)) (State.waiting_destroyValue s result)
      (State.stack_destroyValue s result) (by simp [Task.reports])
  · rename_i pending
    have record := ok.record
    have results := ok.result
    have moved := ok.moved
    simp only [State.push] at record results moved
    refine ok.grow rfl ?_ ?_ ?_ ?_ (fun _ mem => mem) rfl ?_ ?_
    · intro g
      simp only [State.Fine, State.push, State.setFuture]
      grind
    · intro g
      simp only [State.push, State.setFuture]
      grind
    · intro g
      simp only [State.push, State.setFuture]
      grind
    · intro g
      simp only [State.push, State.setFuture]
      grind
    · split <;> simp [Fits]
    · rintro out isSecond (reporting | waits)
      · exact reporting.elim
      · exact .inr waits

theorem zero {f : FutureId} (ok : Recorded watched (s.push [.zero f]))
    (completed : (s.futures f).isCompleted = true) : Recorded watched (perform s (.zero f)) := by
  have record := ok.record
  have results := ok.result
  have moved := ok.moved
  simp only [State.push] at record results moved
  have none : (perform s (.zero f)).stack = [] ++ s.stack := rfl
  refine ok.grow rfl ?_ ?_ ?_ ?_ (fun _ mem => mem) none (by simp) ?_
  · intro g
    simp only [State.Fine, perform, State.setFuture]
    grind
  · intro g
    simp only [perform, State.setFuture]
    grind
  · intro g
    simp only [perform, State.setFuture]
    grind
  · intro g
    simp only [perform, State.setFuture]
    grind
  · rintro out isSecond (reporting | waits)
    · exact reporting.elim
    · exact .inr waits

theorem drain {f : FutureId} (ok : Recorded watched (s.push [.drain f])) :
    Recorded watched (perform s (.drain f)) := by
  have stays : Stays s (perform s (.drain f)) := .setFuture rfl rfl rfl
  refine ok.grow rfl (fun g => (stays.fine g).mpr) ?_ ?_ ?_ ?_ rfl ?_ ?_
  · intro g
    rw [stays.isCompleted, stays.completed]
    exact ok.record g
  · intro g
    rw [stays.result, stays.isMoved, stays.completed]
    exact ok.result g
  · intro g
    rw [stays.isMoved, stays.isCompleted]
    exact ok.moved g
  · intro entry mem
    exact (List.mem_filter.mp mem).1
  · intro other mem
    rcases List.mem_map.mp mem with ⟨⟨g, continuation⟩, inside, rfl⟩
    rcases List.mem_filter.mp inside with ⟨inside, here⟩
    rw [(stays.fits _)]
    cases continuation with
    | zip out isSecond =>
        have waits := ok.waits g out isSecond inside
        simp only [decide_eq_true_eq] at here
        rw [<- here]
        exact waits
    | _ => trivial
  · rintro out isSecond (reporting | ⟨g, waits⟩)
    · exact reporting.elim
    · by_cases here : g = f
      · refine .inl ⟨.run f (.zip out isSecond), ?_, rfl⟩
        refine List.mem_append_left _ (List.mem_map.mpr ⟨(g, .zip out isSecond), ?_, rfl⟩)
        exact List.mem_filter.mpr ⟨waits, by simpa using here⟩
      · exact .inr ⟨g, List.mem_filter.mpr ⟨waits, by simpa using here⟩⟩

theorem release {f : FutureId} (ok : Recorded watched (s.push [.release f]))
    (sound : Sound (s.push [.release f])) : Recorded watched (s.unref f) := by
  simp only [State.unref]
  split
  · rename_i one
    have last := sound.last one
    have waiting : (s.waiting.filter fun entry => entry.1 ≠ f) = s.waiting :=
      List.filter_eq_self.mpr fun entry mem => by simpa using last.waits entry mem
    refine ok.done (.setFuture (State.futures_destroyValue _ _) rfl (State.zips_destroyValue _ _))
      waiting (State.stack_destroyValue _ _) (by simp [Task.reports])
  · exact ok.done (.setFuture rfl rfl rfl) rfl rfl (by simp [Task.reports])

theorem dropNode {f : FutureId} {references : Nat} (ok : Recorded watched (s.push [task]))
    (quiet : forall out isSecond, ¬task.reports out isSecond) (futures : after.futures = s.futures)
    (zips : after.zips = s.zips) (waiting : after.waiting = s.waiting)
    (stack : after.stack = s.stack) : Recorded watched (after.dropNode f references) := by
  simp only [State.dropNode]
  split
  · have pushed : forall node, ((after.setNode f node).push [.release f]).stack =
        [.release f] ++ s.stack := by
      intro node
      simp only [State.push, State.setNode, stack]
    exact ok.stay (.of_futures futures zips) waiting (pushed _) (by simp [Fits])
      fun out isSecond reporting => absurd reporting (quiet out isSecond)
  · exact ok.done (.of_futures futures zips) waiting stack quiet

theorem half_of_awaits {out : FutureId} {isSecond : Bool} (awaits : s.Awaits out isSecond) :
    0 < s.held.count (.half out) := by
  rcases awaits with ⟨other, mem, reporting⟩ | ⟨f, waits⟩
  · refine held_pos mem ?_
    cases other with
    | run f continuation | register f continuation =>
        change continuation = .zip out isSecond at reporting
        simp [reporting, Task.resources, Continuation.resources]
    | _ => exact reporting.elim
  · rw [List.count_pos_iff]
    refine List.mem_append_right _ (List.mem_flatMap.mpr ⟨_, waits, ?_⟩)
    simp [Continuation.resources]

/-- An input reports: its result is stored, and what was said of the context stays. -/
theorem report {f out : FutureId} {isSecond : Bool} (ok : Recorded watched (s.push [.run f (.zip out isSecond)]))
    (zip : Zip) (sound : Sound (s.push [.run f (.zip out isSecond)]))
    (completed : (s.futures f).isCompleted = true)
    (timely : f ∈ watched -> (s.futures f).isMoved = false)
    (input : forall side, zip.input side = (s.zips out).input side)
    (half : zip.half isSecond = (s.futures f).result)
    (other : zip.half (!isSecond) = (s.zips out).half (!isSecond))
    (remaining : zip.remaining = (s.zips out).remaining - 1)
    (stack : after.stack = new ++ s.stack) (futures : after.futures = s.futures)
    (zips : after.zips = Function.update s.zips out zip) (waiting : after.waiting = s.waiting)
    (only : new = [] ∨ (s.zips out).remaining = 1 ∧
      new = [.zipComplete out (zip.input false) (zip.input true)]) : Recorded watched after := by
  have pending : 0 < (s.zips out).remaining := by
    refine (sound.half_pos (held_pos List.mem_cons_self ?_)).1
    simp [Task.resources, Continuation.resources]
  have still : forall g, after.Fine watched g ↔ s.Fine watched g := by
    intro g
    simp only [State.Fine, futures]
  have inputs : forall other side, (after.zips other).input side = (s.zips other).input side := by
    intro other side
    rw [zips]
    by_cases here : other = out
    · rw [here, Function.update_self, input]
    · rw [Function.update_of_ne here]
  have fits : Fits watched s (.run f (.zip out isSecond)) := ok.fits _ List.mem_cons_self
  have here : f = (s.zips out).input isSecond := fits
  have reportedHere : after.Reported watched out isSecond := by
    simp only [State.Reported, inputs, still]
    rw [zips, Function.update_self, half, <- here]
    by_cases fine : (s.futures f).result.error = 0
    · exact .inr (ok.fine_of_read completed timely fine)
    · exact .inl fine
  have reportedOther : s.Reported watched out (!isSecond) -> after.Reported watched out (!isSecond) := by
    simp only [State.Reported, inputs, still]
    rw [zips, Function.update_self, other]
    exact id
  have reportedElse : forall g side, g ≠ out -> s.Reported watched g side -> after.Reported watched g side := by
    intro g side apart
    simp only [State.Reported, inputs, still]
    rw [zips, Function.update_of_ne apart]
    exact id
  -- the other input has reported before when this report is the last one
  have last : (s.zips out).remaining = 1 -> s.Reported watched out (!isSecond) := by
    intro one
    rcases ok.halves out (!isSecond) pending with awaits | reported
    · have rest : s.Awaits out (!isSecond) := by
        rcases awaits with ⟨task, mem, reporting⟩ | waits
        · rcases List.mem_cons.mp mem with rfl | mem
          · have same : isSecond = !isSecond := (Continuation.zip.inj reporting).2
            cases isSecond <;> cases same
          · exact .inl ⟨task, mem, reporting⟩
        · exact .inr waits
      have held := half_of_awaits rest
      have balanced := sound.balanced (.half out)
      rw [State.held_push, State.extra_push, State.total_push] at balanced
      simp only [State.extra, State.total, one, Task.resources, Continuation.resources,
        List.flatMap_singleton, List.count_append, List.count_singleton_self] at balanced
      omega
    · exact reported
  refine ⟨?_, ?_, ?_, ?_, ?_, ?_⟩
  · rw [futures]
    exact ok.record
  · rw [futures]
    exact ok.result
  · rw [futures]
    exact ok.moved
  · intro task mem
    rw [stack] at mem
    rcases List.mem_append.mp mem with mem | mem
    · rcases only with rfl | ⟨one, rfl⟩
      · cases mem
      · rw [List.mem_singleton.mp mem]
        have both : forall side, after.Reported watched out side := by
          intro side
          by_cases here : side = isSecond
          · rw [here]
            exact reportedHere
          · rw [Bool.eq_not.mpr here]
            exact reportedOther (last one)
        refine ⟨?_, ?_, ?_, both false, both true⟩
        · rw [zips, Function.update_self, remaining, one]
        · rw [zips, Function.update_self]
        · rw [zips, Function.update_self]
    · have before : Fits watched s task := ok.fits task (List.mem_cons_of_mem _ mem)
      cases task with
      | callback client => cases client <;> simp only [Fits, still] at before ⊢ <;> exact before
      | zipComplete g first second =>
          rcases before with ⟨zero, isFirst, isSecond, reportedFirst, reportedSecond⟩
          have apart : g ≠ out := by
            intro here
            rw [here] at zero
            omega
          refine ⟨?_, ?_, ?_, reportedElse g _ apart reportedFirst,
            reportedElse g _ apart reportedSecond⟩
          · rw [zips, Function.update_of_ne apart]
            exact zero
          · rw [inputs]
            exact isFirst
          · rw [inputs]
            exact isSecond
      | run g continuation | register g continuation =>
          cases continuation with
          | zip context side => exact Eq.trans before (inputs context side).symm
          | _ => trivial
      | _ => trivial
  · intro g context side mem
    rw [waiting] at mem
    rw [inputs]
    exact ok.waits g context side mem
  · intro context side more
    have before : 0 < (s.zips context).remaining := by
      rw [zips] at more
      by_cases here : context = out
      · rw [here]
        exact pending
      · rw [Function.update_of_ne here] at more
        exact more
    by_cases here : context = out ∧ side = isSecond
    · rw [here.1, here.2]
      exact .inr reportedHere
    · rcases ok.halves context side before with (⟨task, mem, reporting⟩ | waits) | reported
      · rcases List.mem_cons.mp mem with rfl | mem
        · have same := Continuation.zip.inj reporting
          exact absurd ⟨same.1.symm, same.2.symm⟩ here
        · refine .inl (.inl ⟨task, ?_, reporting⟩)
          rw [stack]
          exact List.mem_append_right _ mem
      · refine .inl (.inr ?_)
        rw [waiting]
        exact waits
      · refine .inr ?_
        by_cases same : context = out
        · have side : side = !isSecond := Bool.eq_not.mpr fun same' => here ⟨same, same'⟩
          rw [same, side] at reported ⊢
          exact reportedOther reported
        · exact reportedElse context side same reported

theorem runContinuation {f : FutureId} {continuation : Continuation}
    (ok : Recorded watched (s.push [.run f continuation])) (sound : Sound (s.push [.run f continuation]))
    (completed : (s.futures f).isCompleted = true)
    (timely : forall g, g ∈ watched -> Timely g (s.push [.run f continuation]) .step) :
    Recorded watched (Operator.runContinuation s f continuation) := by
  have unmoved : reads (s.push [.run f continuation]) .step = some f ->
      f ∈ watched -> (s.futures f).isMoved = false := by
    intro reading mem
    exact timely f mem reading
  cases continuation with
  | observe =>
      exact ok.stay (.of_futures rfl rfl) rfl rfl (by simp [Fits]) (by simp [Task.reports])
  | map out freeValue | flatMap out token =>
      simp only [Operator.runContinuation]
      split
      · exact ok.stay (.of_futures rfl rfl) rfl rfl (by simp [Fits, finish]) (by simp [Task.reports])
      · rename_i fine
        have here : s.Fine watched f := ok.fine_of_read completed (unmoved rfl) (not_not.mp fine)
        refine ok.stay (.of_futures rfl rfl) rfl rfl ?_ (by simp [Task.reports])
        intro other mem
        rw [List.mem_singleton.mp mem]
        exact here
  | doOnSuccess out =>
      simp only [Operator.runContinuation]
      split
      · rename_i fine
        have here : s.Fine watched f := ok.fine_of_read completed (unmoved rfl) fine
        refine ok.stay (.of_futures rfl rfl) rfl rfl ?_ (by simp [Task.reports])
        intro other mem
        rw [List.mem_singleton.mp mem]
        exact here
      · exact ok.stay (.of_futures rfl rfl) rfl rfl (by simp [Fits]) (by simp [Task.reports])
  | onError out =>
      simp only [Operator.runContinuation]
      split <;> exact ok.stay (.of_futures rfl rfl) rfl rfl (by simp [Fits]) (by simp [Task.reports])
  | moveChain out =>
      exact ok.stay (.of_futures rfl rfl) rfl rfl (by simp [Fits, finish]) (by simp [Task.reports])
  | zip out isSecond =>
      simp only [Operator.runContinuation]
      generalize stored : (if isSecond = true then
        { s.zips out with second := (s.futures f).result }
          else { s.zips out with first := (s.futures f).result }) = zip
      have input : forall side, zip.input side = (s.zips out).input side := by
        rw [<- stored]
        cases isSecond <;> exact fun _ => rfl
      have half : zip.half isSecond = (s.futures f).result := by
        rw [<- stored]
        cases isSecond <;> rfl
      have other : zip.half (!isSecond) = (s.zips out).half (!isSecond) := by
        rw [<- stored]
        cases isSecond <;> rfl
      split
      · rename_i one
        refine ok.report { zip with remaining := (s.zips out).remaining - 1 } sound completed (unmoved rfl)
          input half other rfl rfl rfl rfl rfl (.inr ⟨one, ?_⟩)
        have first : zip.firstFuture = (s.zips out).firstFuture := input false
        have second : zip.secondFuture = (s.zips out).secondFuture := input true
        simp only [Zip.input, Bool.false_eq_true, if_true, if_false, first, second]
      · have none : (s.setZip out { zip with remaining := (s.zips out).remaining - 1 }).stack =
            [] ++ s.stack := rfl
        exact ok.report { zip with remaining := (s.zips out).remaining - 1 } sound completed (unmoved rfl)
          input half other rfl none rfl rfl rfl (.inl rfl)
  | group kind out =>
      cases kind with
      | all =>
          simp only [Operator.runContinuation]
          split <;> exact ok.stay (.of_futures rfl rfl) rfl rfl (by simp [Fits, finish])
            (by simp [Task.reports])
      | any =>
          simp only [Operator.runContinuation]
          split
          · exact ok.stay (.of_futures rfl rfl) rfl rfl (by simp [Fits]) (by simp [Task.reports])
          · split
            · exact ok.stay (.of_futures rfl rfl) rfl rfl (by simp [Fits, finish])
                (by simp [Task.reports])
            · exact ok.stay (.setFuture rfl rfl rfl) rfl rfl (by simp [Fits, finish])
                (by simp [Task.reports])

/-- A continuation waits. -/
theorem wait {f : FutureId} {continuation : Continuation}
    (ok : Recorded watched (s.push [.register f continuation])) :
    Recorded watched { s with waiting := (f, continuation) :: s.waiting } where
  record := ok.record
  result := ok.result
  moved := ok.moved
  fits := fun other mem => ok.fits other (List.mem_cons_of_mem _ mem)
  waits := by
    intro g out isSecond mem
    rcases List.mem_cons.mp mem with here | mem
    · cases here
      exact ok.fits _ List.mem_cons_self
    · exact ok.waits g out isSecond mem
  halves := by
    intro out isSecond remaining
    rcases ok.halves out isSecond remaining with (⟨other, mem, reporting⟩ | ⟨g, waits⟩) | reported
    · rcases List.mem_cons.mp mem with rfl | mem
      · refine .inl (.inr ⟨f, ?_⟩)
        change continuation = .zip out isSecond at reporting
        rw [reporting]
        exact List.mem_cons_self
      · exact .inl (.inl ⟨other, mem, reporting⟩)
    · exact .inl (.inr ⟨g, List.mem_cons_of_mem _ waits⟩)
    · exact .inr reported

theorem loop {kind : Kind} {out : FutureId} {entries : List (Option FutureId)}
    (ok : Recorded watched (s.push [.loop kind out entries])) :
    Recorded watched (Operator.perform s (.loop kind out entries)) := by
  cases entries with
  | nil => exact ok.done (.of_futures rfl rfl) rfl rfl (by simp [Task.reports])
  | cons entry entries =>
      have tasks : forall new : List Task,
          ((s.push [.loop kind out entries]).push new).stack =
            (new ++ [.loop kind out entries]) ++ s.stack := by
        intro new
        simp [State.push]
      cases entry with
      | some f =>
          exact ok.stay (.of_futures rfl rfl) rfl (tasks _) (by simp [Fits]) (by simp [Task.reports])
      | none =>
          cases kind with
          | any =>
              exact ok.stay (.of_futures rfl rfl) rfl (tasks _) (by simp [Fits])
                (by simp [Task.reports])
          | all =>
              simp only [Operator.perform, visit]
              split
              · exact ok.stay (.of_futures rfl rfl) rfl (tasks _) (by simp [Fits])
                  (by simp [Task.reports])
              · exact ok.stay (.of_futures rfl rfl) rfl (tasks _) (by simp [Fits, finish])
                  (by simp [Task.reports])

theorem perform (ok : Recorded watched (s.push [task])) (sound : Sound (s.push [task]))
    (valued : Valued (s.push [task])) (runs : forall callback, task ≠ .callback callback)
    (timely : forall f, f ∈ watched -> Timely f (s.push [task]) .step) :
    Recorded watched (Operator.perform s task) := by
  cases task with
  | setResult f result =>
      simp only [Operator.perform]
      split
      · exact ok.done (.of_futures (State.futures_destroyValue s result)
          (State.zips_destroyValue s result)) (State.waiting_destroyValue s result)
          (State.stack_destroyValue s result) (by simp [Task.reports])
      · exact ok.stay (.of_futures rfl rfl) rfl rfl (by simp [Fits]) (by simp [Task.reports])
  | destroyPromise f =>
      simp only [Operator.perform]
      split <;> exact ok.stay (.of_futures rfl rfl) rfl rfl (by simp [Fits])
        (by simp [Task.reports])
  | releasePromise f =>
      refine Recorded.release ?_ sound.endPromise
      exact ok.stay (.of_futures rfl rfl) rfl rfl (by simp [Fits]) (by simp [Task.reports])
  | complete f result => exact ok.complete
  | drain f => exact ok.drain
  | run f continuation =>
      exact ok.runContinuation sound (valued.seen _ List.mem_cons_self f List.mem_cons_self) timely
  | zero f => exact ok.zero (valued.seen _ List.mem_cons_self f List.mem_cons_self)
  | release f => exact ok.release sound
  | unregister f =>
      simp only [Operator.perform]
      split <;> exact ok.dropNode (by simp [Task.reports]) rfl rfl rfl rfl
  | dropNode f => exact ok.dropNode (by simp [Task.reports]) rfl rfl rfl rfl
  | attach f token =>
      simp only [Operator.perform]
      split
      · exact ok.done (.of_futures rfl rfl) rfl rfl (by simp [Task.reports])
      · split <;> exact ok.stay (.setFuture rfl rfl rfl) rfl rfl (by simp [Fits])
          (by simp [Task.reports])
  | attached f =>
      simp only [Operator.perform]
      split
      · exact ok.stay (.of_futures rfl rfl) rfl rfl (by simp [Fits]) (by simp [Task.reports])
      · exact ok.done (.setFuture rfl rfl rfl) rfl rfl (by simp [Task.reports])
  | register f continuation =>
      have fits : Fits watched s (.register f continuation) := ok.fits _ List.mem_cons_self
      simp only [Operator.perform]
      split
      · refine ok.stay (.of_futures rfl rfl) rfl rfl ?_ ?_
        · intro other mem
          rw [List.mem_singleton.mp mem]
          cases continuation with
          | zip out isSecond => exact fits
          | _ => trivial
        · intro out isSecond reporting
          exact ⟨_, List.mem_singleton.mpr rfl, reporting⟩
      · exact ok.wait
  | claimInner out inner =>
      simp only [Operator.perform]
      split
      · exact ok.stay (.of_futures rfl rfl) rfl rfl (by simp [Fits, finish]) (by simp [Task.reports])
      · exact ok.stay (.setFuture rfl rfl rfl) rfl rfl (by simp [Fits]) (by simp [Task.reports])
  | claimInput f out =>
      simp only [Operator.perform]
      split
      · exact ok.stay (.of_futures rfl rfl) rfl rfl (by simp [Fits, finish]) (by simp [Task.reports])
      · exact ok.stay (.setFuture rfl rfl rfl) rfl rfl (by simp [Fits, finish])
          (by simp [Task.reports])
  | inherit f out =>
      simp only [Operator.perform]
      split
      · exact ok.stay (.of_futures rfl rfl) rfl rfl (by simp [Fits]) (by simp [Task.reports])
      · exact ok.done (.of_futures rfl rfl) rfl rfl (by simp [Task.reports])
  | loop kind out entries => exact ok.loop
  | subtract kind out refused =>
      simp only [Operator.perform]
      split
      · cases kind <;> cases refused
        · exact ok.stay (.of_futures rfl rfl) rfl rfl (by simp [Fits, finish])
            (by simp [Task.reports])
        · exact ok.done (.of_futures rfl rfl) rfl rfl (by simp [Task.reports])
        · exact ok.done (.of_futures rfl rfl) rfl rfl (by simp [Task.reports])
        · exact ok.stay (.of_futures rfl rfl) rfl rfl (by simp [Fits, finish])
            (by simp [Task.reports])
      · exact ok.done (.of_futures rfl rfl) rfl rfl (by simp [Task.reports])
  | zipComplete out first second =>
      have fits : Fits watched s (.zipComplete out first second) := ok.fits _ List.mem_cons_self
      rcases fits with ⟨_, isFirst, isSecond, reportedFirst, reportedSecond⟩
      simp only [Operator.perform]
      split
      · exact ok.stay (.of_futures rfl rfl) rfl rfl (by simp [Fits, zipFinish, finish])
          (by simp [Task.reports])
      · rename_i fine
        refine ok.stay (.of_futures rfl rfl) rfl rfl ?_ (by simp [Task.reports])
        intro other mem
        rw [List.mem_singleton.mp mem]
        unfold zipError at fine
        split at fine
        · cases fine
        · rename_i first
          split at fine
          · cases fine
          · rename_i second
            rw [isFirst, isSecond]
            exact ⟨reportedFirst.resolve_left first, reportedSecond.resolve_left second⟩
  | deliver out | leave arguments | leaveSet f =>
      exact ok.done (.of_futures rfl rfl) rfl rfl (by simp [Task.reports])
  | callback callback => exact absurd rfl (runs callback)

theorem answer {callback : Callback} {reply : Reply} (ok : Recorded watched (s.push [.callback callback]))
    (replied : replies (s.push [.callback callback]) callback reply) :
    Recorded watched (afterCallback s callback reply) := by
  have given : forall result new, (forall other, other ∈ new -> Fits watched s other) ->
      Recorded watched ((s.give result).push new) := by
    intro result new fits
    have stack : ((s.give result).push new).stack = new ++ s.stack := by
      simp only [State.push, State.stack_give]
    exact ok.stay (.of_futures (State.futures_give s result) (State.zips_give s result))
      (State.waiting_give s result) stack fits (by simp [Task.reports])
  cases callback with
  | observer f | cancelled =>
      rw [replied]
      exact ok.done (.of_futures rfl rfl) rfl rfl (by simp [Task.reports])
  | action f out =>
      exact ok.stay (.of_futures rfl rfl) rfl rfl (by simp [Fits]) (by simp [Task.reports])
  | mapper f out freeValue =>
      rcases replied with ⟨value, rfl⟩
      exact given _ _ (by simp [Fits, finish])
  | zipper out first second =>
      rcases replied with ⟨value, rfl⟩
      exact given _ _ (by simp [Fits, zipFinish, finish])
  | flatMapper f out token =>
      rcases replied with rfl | ⟨inner, rfl, _⟩
      · exact ok.stay (.of_futures rfl rfl) rfl rfl (by simp [Fits, finish]) (by simp [Task.reports])
      · cases token <;> exact ok.stay (.of_futures rfl rfl) rfl rfl (by simp [Fits])
          (by simp [Task.reports])
  | recovery f out =>
      rcases replied with rfl | ⟨inner, rfl, _⟩
      · exact ok.stay (.of_futures rfl rfl) rfl rfl (by simp [Fits, finish]) (by simp [Task.reports])
      · exact ok.stay (.of_futures rfl rfl) rfl rfl (by simp [Fits]) (by simp [Task.reports])

theorem leaving (ok : Recorded watched s) : Recorded watched (s.push [.leave []]) where
  record := ok.record
  result := ok.result
  moved := ok.moved
  fits := by
    intro other mem
    rcases List.mem_cons.mp mem with rfl | mem
    · trivial
    · exact (Stays.of_futures rfl rfl).fits other |>.mpr (ok.fits other mem)
  waits := ok.waits
  halves := by
    intro out isSecond remaining
    rcases ok.halves out isSecond remaining with (⟨other, mem, reporting⟩ | waits) | reported
    · exact .inl (.inl ⟨other, List.mem_cons_of_mem _ mem, reporting⟩)
    · exact .inl (.inr waits)
    · exact .inr reported

theorem stays_create (sound : Sound s) (isClient : Bool)
    (futures : after.futures = (s.create isClient).futures) (zips : after.zips = s.zips) :
    Stays s after := by
  have blank := (sound.fresh s.count (Nat.le_refl _)).cell
  refine .setFuture futures ?_ zips
  rw [blank]
  rfl

theorem operator (ok : Recorded watched s) (sound : Sound s) (f : FutureId)
    (continuation : FutureId -> Continuation)
    (plain : forall isSecond out, continuation s.count ≠ .zip out isSecond) :
    Recorded watched (Operator.operator s f continuation) := by
  refine ok.leaving.stay (stays_create sound false rfl rfl) rfl rfl ?_ (by simp [Task.reports])
  intro other mem
  simp only [List.mem_cons, List.not_mem_nil, or_false] at mem
  rcases mem with rfl | rfl | rfl | rfl
  · cases made : continuation s.count with
    | zip out isSecond => exact absurd made (plain isSecond out)
    | _ => trivial
  · trivial
  · trivial
  · trivial

/-- Nothing is held of a context that has not been made. -/
theorem unheld (sound : Sound s) : s.held.count (.half s.count) = 0 ∧
    s.held.count (.promise s.count) = 0 := by
  have blank := sound.fresh s.count (Nat.le_refl _)
  have half := sound.balanced (.half s.count)
  have promise := sound.balanced (.promise s.count)
  simp only [State.total, blank.zip, blank.promise] at half promise
  simp only [start, Bool.toNat_false] at half promise
  omega

/-- A context is made, and its inputs are still to report. -/
theorem zip {first second : FutureId} {freeValue : Bool} (ok : Recorded watched s) (sound : Sound s) :
    Recorded watched (Operator.enter s (.zip first second freeValue)) := by
  rcases unheld sound with ⟨noHalf, noPromise⟩
  have created : forall f, ((s.create false).futures f).core = (s.futures f).core :=
    (stays_create sound false rfl rfl).core
  generalize made : Operator.enter s (.zip first second freeValue) = after
  have core : forall f, (after.futures f).core = (s.futures f).core := by
    intro f
    rw [<- created f, <- made]
    simp only [Operator.enter, State.push, State.retain, State.setFuture, State.setZip, Cell.core]
    grind
  have still : forall f, after.Fine watched f ↔ s.Fine watched f := by
    intro f
    have same := core f
    simp only [Cell.core, Prod.mk.injEq] at same
    simp only [State.Fine, same.2.2.1]
  have stack : after.stack = [.register first (.zip s.count false),
      .register second (.zip s.count true), .deliver s.count, .leave [first, second]] ++
        s.stack := by
    rw [<- made]
    rfl
  have waiting : after.waiting = s.waiting := by
    rw [<- made]
    rfl
  have zips : after.zips = Function.update s.zips s.count
      ⟨first, second, .zero, .zero, 2, freeValue⟩ := by
    rw [<- made]
    rfl
  have input : forall out side, out ≠ s.count ->
      (after.zips out).input side = (s.zips out).input side := by
    intro out side apart
    rw [zips, Function.update_of_ne apart]
  have reported : forall out side, out ≠ s.count ->
      s.Reported watched out side -> after.Reported watched out side := by
    intro out side apart
    simp only [State.Reported, still]
    rw [zips, Function.update_of_ne apart]
    exact id
  have apart : forall out side, s.Awaits out side -> out ≠ s.count := by
    intro out side awaits same
    have held := half_of_awaits awaits
    rw [same, noHalf] at held
    exact absurd held (Nat.lt_irrefl 0)
  refine ⟨?_, ?_, ?_, ?_, ?_, ?_⟩
  · intro f
    have same := core f
    simp only [Cell.core, Prod.mk.injEq] at same
    rw [same.1, same.2.2.1]
    exact ok.record f
  · intro f
    have same := core f
    simp only [Cell.core, Prod.mk.injEq] at same
    rw [same.2.1, same.2.2.1, same.2.2.2]
    exact ok.result f
  · intro f
    have same := core f
    simp only [Cell.core, Prod.mk.injEq] at same
    rw [same.1, same.2.2.2]
    exact ok.moved f
  · intro task mem
    rw [stack] at mem
    rcases List.mem_append.mp mem with mem | mem
    · simp only [List.mem_cons, List.not_mem_nil, or_false] at mem
      rcases mem with rfl | rfl | rfl | rfl
      · change first = (after.zips s.count).input false
        rw [zips, Function.update_self]
        rfl
      · change second = (after.zips s.count).input true
        rw [zips, Function.update_self]
        rfl
      · trivial
      · trivial
    · have before : Fits watched s task := ok.fits task mem
      cases task with
      | callback client => cases client <;> simp only [Fits, still] at before ⊢ <;> exact before
      | zipComplete out first second =>
          rcases before with ⟨zero, isFirst, isSecond, reportedFirst, reportedSecond⟩
          have apart : out ≠ s.count := by
            intro same
            have held : 0 < s.held.count (.promise out) := held_pos mem List.mem_cons_self
            rw [same, noPromise] at held
            exact absurd held (Nat.lt_irrefl 0)
          refine ⟨?_, ?_, ?_, reported out _ apart reportedFirst, reported out _ apart reportedSecond⟩
          · rw [zips, Function.update_of_ne apart]
            exact zero
          · rw [input out _ apart]
            exact isFirst
          · rw [input out _ apart]
            exact isSecond
      | run f continuation | register f continuation =>
          cases continuation with
          | zip out side =>
              have here : s.Awaits out side := .inl ⟨_, mem, rfl⟩
              exact Eq.trans before (input out side (apart out side here)).symm
          | _ => trivial
      | _ => trivial
  · intro f out side mem
    rw [waiting] at mem
    rw [input out side (apart out side (.inr ⟨f, mem⟩))]
    exact ok.waits f out side mem
  · intro out side remaining
    by_cases same : out = s.count
    · refine .inl (.inl ?_)
      rw [stack, same]
      cases side
      · exact ⟨.register first (.zip s.count false), by simp, rfl⟩
      · exact ⟨.register second (.zip s.count true), by simp, rfl⟩
    · rw [zips, Function.update_of_ne same] at remaining
      rcases ok.halves out side remaining with (⟨task, mem, reporting⟩ | waits) | before
      · refine .inl (.inl ⟨task, ?_, reporting⟩)
        rw [stack]
        exact List.mem_append_right _ mem
      · refine .inl (.inr ?_)
        rw [waiting]
        exact waits
      · exact .inr (reported out side same before)

theorem enter {api : Api} (ok : Recorded watched s) (sound : Sound s) (allowed : permitted s api) :
    Recorded watched (Operator.enter s api) := by
  have leaving := ok.leaving
  have quiet : forall out isSecond, ¬(Task.leave []).reports out isSecond := by
    simp [Task.reports]
  cases api with
  | create => exact leaving.done (stays_create sound true rfl rfl) rfl rfl quiet
  | fromResult result =>
      have stack : (Operator.enter s (.fromResult result)).stack =
          (finish s.count result ++ [.deliver s.count]) ++ s.stack := by
        simp only [Operator.enter, State.push, State.stack_give]
        rfl
      refine leaving.stay (stays_create sound false ?_ ?_) ?_ stack (by simp [Fits, finish])
        (by simp [Task.reports])
      · exact State.futures_give _ result
      · exact State.zips_give _ result
      · exact State.waiting_give _ result
  | setResult f result =>
      have stack : (Operator.enter s (.setResult f result)).stack =
          [.setResult f result, .leaveSet f] ++ s.stack := by
        simp only [Operator.enter, State.push, State.stack_give]
      exact leaving.stay (.of_futures (State.futures_give s result) (State.zips_give s result))
        (State.waiting_give s result) stack (by simp [Fits]) (by simp [Task.reports])
  | destroy f | observe f | attach f token | release f =>
      exact leaving.stay (.of_futures rfl rfl) rfl rfl (by simp [Fits]) (by simp [Task.reports])
  | get f =>
      simp only [Operator.enter]
      split
      · exact ok
      · exact leaving.done (.setFuture rfl rfl rfl) rfl rfl quiet
  | map f freeValue => exact ok.operator sound f (fun out => .map out freeValue) (by simp)
  | flatMap f =>
      exact ok.operator sound f (fun out => .flatMap out (s.futures f).cancelToken) (by simp)
  | onError f => exact ok.operator sound f .onError (by simp)
  | doOnSuccess f => exact ok.operator sound f .doOnSuccess (by simp)
  | group kind entries =>
      simp only [Operator.enter]
      split
      · exact leaving.stay (stays_create sound false rfl rfl) rfl rfl (by simp [Fits, finish])
          (by simp [Task.reports])
      · exact leaving.stay (stays_create sound false rfl rfl) rfl rfl (by simp [Fits])
          (by simp [Task.reports])
  | zip first second freeValue => exact ok.zip sound
  | cancel token =>
      simp only [Operator.enter]
      split
      · exact ok
      · refine leaving.stay (.of_futures rfl rfl) rfl rfl ?_ (by simp [Task.reports])
        intro other mem
        rcases List.mem_flatMap.mp mem with ⟨entry, _, mem⟩
        cases entry with
        | none =>
            rw [List.mem_singleton.mp mem]
            trivial
        | some f =>
            simp only [cancellation, List.mem_cons, List.not_mem_nil, or_false] at mem
            rcases mem with rfl | rfl <;> trivial
  | registerCallback token =>
      simp only [Operator.enter]
      split
      · exact leaving.stay (.of_futures rfl rfl) rfl rfl (by simp [Fits]) (by simp [Task.reports])
      · exact leaving.done (.of_futures rfl rfl) rfl rfl quiet
  | unregisterCallback token index => exact leaving.done (.of_futures rfl rfl) rfl rfl quiet
  | retain f => exact leaving.done (.setFuture rfl rfl rfl) rfl rfl quiet

theorem next {event : Event} (ok : Recorded watched s) (sound : Sound s) (valued : Valued s)
    (enabled : enabled s event) (timely : forall f, f ∈ watched -> Timely f s event) :
    Recorded watched (Operator.next s event) := by
  cases event with
  | step =>
      rcases enabled with ⟨task, rest, stack, runs⟩
      have pushed : ({ s with stack := rest } : State).push [task] = s := by
        simp only [State.push, List.cons_append, List.nil_append, <- stack]
      simp only [Operator.next, stack]
      exact Recorded.perform (pushed ▸ ok) (pushed ▸ sound) (pushed ▸ valued) runs (pushed ▸ timely)
  | call api => exact ok.enter sound enabled.2
  | answer reply =>
      rcases enabled with ⟨callback, rest, stack, replied⟩
      have pushed : ({ s with stack := rest } : State).push [.callback callback] = s := by
        simp only [State.push, List.cons_append, List.nil_append, <- stack]
      simp only [Operator.next, stack]
      exact Recorded.answer (pushed ▸ ok) (pushed ▸ replied)
  | resume f | abandon f =>
      have quiet : forall out isSecond, ¬(Task.leave []).reports out isSecond := by
        simp [Task.reports]
      exact ok.leaving.done (.of_futures rfl rfl) rfl rfl quiet

end Recorded

theorem recorded_start (watched : Set FutureId) : Recorded watched start where
  record := fun _ => rfl
  result := fun _ => rfl
  moved := by simp [start]
  fits := by simp [start]
  waits := by simp [start]
  halves := by simp [start]

/-- As long as the future is not read after it was cleared. -/
theorem timely_recorded {f : FutureId} {s : State}
    (reached : (machine.restrict (Timely f)).Reachable s) : Recorded {f} s := by
  refine reached.invariant (Recorded {f}) ?_ ?_
  · rintro _ rfl
    exact recorded_start {f}
  · intro before event reached ok enabled
    have sound := reachable_sound reached.of_restrict
    have valued := reachable_valued reached.of_restrict
    refine ok.next sound valued enabled.1 ?_
    rintro g rfl
    exact enabled.2

theorem reachable_recorded {s : State} (reached : machine.Reachable s) : Recorded ∅ s := by
  refine reached.invariant (Recorded ∅) ?_ ?_
  · rintro _ rfl
    exact recorded_start ∅
  · intro before event reached ok enabled
    exact ok.next (reachable_sound reached) (reachable_valued reached) enabled (by simp)

/-! ## A failed future -/

/-- A future that was completed with an error is read as failed, and no callback for a success
is called on it. -/
structure ReadsAsFailed (machine : Machine State Event) (f : FutureId) (s : State) : Prop where
  reads : forall result, (s.futures f).completed = some result -> result.error ≠ 0 ->
    forall event, machine.enabled s event -> reads s event = some f ->
      (s.futures f).result.error = result.error
  callbacks : forall result, (s.futures f).completed = some result -> result.error ≠ 0 ->
    forall callback, .callback callback ∈ s.stack -> ¬callback.Succeeds f

namespace Recorded

theorem readsAsFailed {f : FutureId} {s : State} (ok : Recorded {f} s) :
    ReadsAsFailed (machine.restrict (Timely f)) f s where
  reads := by
    intro result failed _ event enabled reading
    rw [ok.result f, enabled.2 reading, failed]
    rfl
  callbacks := by
    intro result failed error callback mem succeeds
    have fails : ¬s.Fine {f} f := by
      intro fine
      rcases fine rfl with ⟨other, completed, noError⟩
      rw [failed] at completed
      cases completed
      exact error noError
    have fits := ok.fits _ mem
    cases callback with
    | mapper g out freeValue | flatMapper g out token | action g out =>
        cases succeeds
        exact fails fits
    | zipper out first second =>
        rcases succeeds with rfl | rfl
        · exact fails fits.1
        · exact fails fits.2
    | observer g | recovery g out | cancelled => exact succeeds

end Recorded

/-- As long as a future is not read after its result was moved out, a failure of it is read as
such.  A read after that does not see the error. -/
theorem failedReads (f : FutureId) :
    (forall s, (machine.restrict (Timely f)).Reachable s ->
      ReadsAsFailed (machine.restrict (Timely f)) f s) ∧
    forall s, machine.Reachable s -> forall result, (s.futures f).completed = some result ->
      result.error ≠ 0 -> forall event, machine.enabled s event -> reads s event = some f ->
        (Timely f s event ↔ (s.futures f).result.error = result.error) := by
  constructor
  · intro s reached
    exact (timely_recorded reached).readsAsFailed
  · intro s reached result failed error event _ reading
    have kept := (reachable_recorded reached).result f
    constructor
    · intro timely
      rw [kept, timely reading, failed]
      rfl
    · intro same _
      cases moved : (s.futures f).isMoved with
      | false => rfl
      | true =>
          rw [kept, moved] at same
          exact absurd same.symm error

/-- The failure is moved on, and then the future is mapped. -/
def movedThenMapped : List Event :=
  [Event.call (.fromResult (.ofError 5))] ++ List.replicate 6 Event.step ++
    [Event.call (.doOnSuccess 0)] ++ List.replicate 12 Event.step ++ [Event.call (.map 0 true), .step, .step]

theorem failedReads_fails : ¬forall f s, machine.Reachable s -> ReadsAsFailed machine f s := by
  intro always
  have may : machine.AllEnabled start movedThenMapped := by decide
  have asFailed := always 0 _ (.run (.start rfl) may.run)
  have called : .callback (.mapper 0 2 true) ∈ (machine.after start movedThenMapped).stack := by
    decide
  exact asFailed.callbacks (.ofError 5) rfl (by decide) _ called rfl

instance (f : FutureId) (s : State) (event : Event) : Decidable (Timely f s event) :=
  inferInstanceAs (Decidable (_ -> _))

/-- The future is mapped, and then its failure is moved on. -/
def mappedThenMoved : List Event :=
  [Event.call (.fromResult (.ofError 5))] ++ List.replicate 6 Event.step ++
    [Event.call (.map 0 true)] ++ List.replicate 10 Event.step ++ [Event.call (.doOnSuccess 0)]

theorem failedReads_mappedThenMoved :
    ReadsAsFailed (machine.restrict (Timely 0)) 0 (machine.after start mappedThenMoved) ∧
      (Timely 0 (machine.after start movedThenMapped) (.call (.get 0)) ↔
        ((machine.after start movedThenMapped).futures 0).result.error = 5) := by
  have may : (machine.restrict (Timely 0)).AllEnabled start mappedThenMoved := by decide
  have mayMoved : machine.AllEnabled start movedThenMapped := by decide
  constructor
  · exact (failedReads 0).1 _ (.run (.start rfl) may.run)
  · exact (failedReads 0).2 _ (.run (.start rfl) mayMoved.run) (.ofError 5) rfl (by decide)
      (.call (.get 0)) (by decide) (by decide)

end Operator
end UfsrvRx
