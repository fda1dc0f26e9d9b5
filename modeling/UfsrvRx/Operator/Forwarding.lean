import UfsrvRx.Operator.Failure
import UfsrvRx.Operator.Inheritance
import UfsrvRx.Operator.Waiting

namespace UfsrvRx
namespace Operator

open Transition
open UfsrvRx.Future (Result ValueId epipe ecanceled einval)

/-!
# Errors on their way through the continuations

A completed future hands its error on to the outputs of the continuations that wait for it.
Here some pending futures are singled out, those on the way.  As long as the first of them is
cancelled, and no operator between them departs from the error that it reads, each of them is
completed with `ECANCELED`.
-/

/-! ## Ways through the continuations -/

/-- The future is on the way and still pending. -/
def State.Open (way : FutureId -> Prop) (s : State) (f : FutureId) : Prop :=
  way f ∧ (s.futures f).isCompleted = false

/-- The future is on the way and completed. -/
def State.Ended (way : FutureId -> Prop) (s : State) (f : FutureId) : Prop :=
  way f ∧ (s.futures f).isCompleted = true

/-- The future that an event completes with what it reads, or makes a recovery for. -/
def serves (s : State) : Event -> Option FutureId
  | .step =>
      match s.stack with
      | .run _ continuation :: _ => continuation.out
      | .claimInput _ out :: _ | .zipComplete out _ _ :: _ => some out
      | _ => none
  | .answer _ =>
      match s.stack with
      | .callback (.recovery _ out) :: _ => some out
      | _ => none
  | _ => none

/-- The event departs from the error that it is given: an `UfsrvFutureOnError` recovers, an
input was claimed before, or a zip has another error or none. -/
def departs (s : State) : Event -> Bool
  | .step =>
      match s.stack with
      | .run f (.group .any out) :: _ => !(s.groups out).flag && (s.futures f).isConsumed
      | .claimInput f _ :: _ => (s.futures f).isConsumed
      | .zipComplete out _ _ :: _ => zipError (s.zips out) != some ecanceled
      | _ => false
  | .answer (.future (some _)) => true
  | _ => false

/-- The future whose promise the client completes. -/
def Event.completes : Event -> Option FutureId
  | call (.setResult f _) | call (.destroy f) => some f
  | _ => none

/-- The client completes no future on the way, and what is done for a pending one reads a
result that was not moved out, and does not depart from it. -/
def Unhindered (way : FutureId -> Prop) (s : State) (event : Event) : Prop :=
  (forall f, event.completes = some f -> ¬way f) ∧
    forall out, serves s event = some out -> s.Open way out ->
      (forall f, Timely f s event) ∧ departs s event = false

theorem Unhindered.narrow {way narrower : FutureId -> Prop} {s : State} {event : Event}
    (ok : Unhindered way s event) (narrows : forall f, narrower f -> way f) :
    Unhindered narrower s event :=
  ⟨fun f completes here => ok.1 f completes (narrows f here),
    fun out feeds here => ok.2 out feeds ⟨narrows out here.1, here.2⟩⟩

instance (way : FutureId -> Prop) [DecidablePred way] (s : State) (event : Event) :
    Decidable (Unhindered way s event) :=
  decidable_of_iff ((event.completes.all fun f => ¬way f) ∧
      (serves s event).all fun out => (way out ∧ (s.futures out).isCompleted = false) ->
        ((reads s event).all fun f => (s.futures f).isMoved = false) ∧ departs s event = false) <| by
    simp only [Unhindered, State.Open, Timely]
    cases event.completes <;> cases serves s event <;> cases reads s event <;> simp <;> grind

/-! ## What a step leaves -/

/-- How a future ended. -/
def Cell.ending (cell : Cell) : Bool × Option Result := (cell.isCompleted, cell.completed)

/-- The task comes to complete the future, or to make a continuation wait, and nothing else
does. -/
structure Spares (s after : State) (task : Task) : Prop where
  count : s.count ≤ after.count
  waiting : forall f continuation, (f, continuation) ∈ after.waiting ->
    (f, continuation) ∈ s.waiting ∨ task = .register f continuation
  ended : forall f, f < s.count -> (after.futures f).ending = (s.futures f).ending ∨
    (s.futures f).isCompleted = false ∧ Exists fun result => task = .complete f result ∧
      (after.futures f).ending = (true, some result)
  flags : forall out, out < s.count -> (s.groups out).flag = true -> (after.groups out).flag = true
  fulfilled : forall f, f < s.count -> (s.promises f).isFulfilled = true ->
    (after.promises f).isFulfilled = true
  sets : forall f result, task = .setResult f result -> (after.promises f).isFulfilled = true

namespace Spares

variable {s after : State} {task : Task}

theorem of_same (count : after.count = s.count)
    (waiting : forall entry, entry ∈ after.waiting -> entry ∈ s.waiting)
    (futures : forall f, (after.futures f).ending = (s.futures f).ending)
    (groups : forall out, (s.groups out).flag = true -> (after.groups out).flag = true)
    (promises : forall f, (s.promises f).isFulfilled = true -> (after.promises f).isFulfilled = true)
    (sets : forall f result, task ≠ .setResult f result) : Spares s after task where
  count := Nat.le_of_eq count.symm
  waiting := fun f continuation mem => .inl (waiting (f, continuation) mem)
  ended := fun f _ => .inl (futures f)
  flags := fun out _ => groups out
  fulfilled := fun f _ => promises f
  sets := fun f result same => absurd same (sets f result)

/-- Futures, promises and contexts stay. -/
theorem still (count : after.count = s.count)
    (waiting : forall entry, entry ∈ after.waiting -> entry ∈ s.waiting)
    (futures : after.futures = s.futures) (groups : after.groups = s.groups)
    (promises : after.promises = s.promises) (sets : forall f result, task ≠ .setResult f result) :
    Spares s after task := by
  refine of_same count waiting ?_ ?_ ?_ sets
  · rw [futures]
    exact fun _ => rfl
  · rw [groups]
    exact fun _ => id
  · rw [promises]
    exact fun _ => id

theorem ending_setFuture {f : FutureId} {cell : Cell} (same : cell.ending = (s.futures f).ending)
    (g : FutureId) : ((s.setFuture f cell).futures g).ending = (s.futures g).ending := by
  simp only [State.setFuture]
  by_cases mine : g = f
  · subst g
    rw [Function.update_self]
    exact same
  · rw [Function.update_of_ne mine]

theorem destroyValue (s : State) (result : Result) (task : Task)
    (sets : forall f result, task ≠ .setResult f result) : Spares s (s.destroyValue result) task := by
  unfold State.destroyValue
  split <;> exact still rfl (fun _ => id) rfl rfl rfl sets

theorem unref (s : State) (f : FutureId) (task : Task)
    (sets : forall f result, task ≠ .setResult f result) : Spares s (s.unref f) task := by
  simp only [State.unref]
  split
  · refine of_same (State.count_destroyValue _ _) ?_ ?_ ?_ ?_ sets
    · exact fun _ mem => (List.mem_filter.mp mem).1
    · simp only [State.futures_destroyValue]
      exact fun g => ending_setFuture (s := s) (by rfl) g
    · unfold State.destroyValue
      split <;> exact fun _ => id
    · unfold State.destroyValue
      split <;> exact fun _ => id
  · exact of_same rfl (fun _ => id) (fun g => ending_setFuture (by rfl) g) (fun _ => id)
      (fun _ => id) sets

theorem dropNode {before : State} (f : FutureId) (references : Nat)
    (spares : Spares s before task) : Spares s (before.dropNode f references) task := by
  simp only [State.dropNode]
  split <;> exact ⟨spares.count, spares.waiting, spares.ended, spares.flags, spares.fulfilled,
    spares.sets⟩

theorem group {out : FutureId} {group : Group} {tasks : List Task} {futures : FutureId -> Cell}
    (flag : (s.groups out).flag = true -> group.flag = true)
    (cells : forall f, (futures f).ending = (s.futures f).ending)
    (sets : forall f result, task ≠ .setResult f result) :
    Spares s ({ s.setGroup out group with futures := futures }.push tasks) task := by
  refine of_same rfl (fun _ => id) cells ?_ (fun _ => id) sets
  intro g raised
  simp only [State.push, State.setGroup]
  by_cases mine : g = out
  · subst g
    rw [Function.update_self]
    exact flag raised
  · rw [Function.update_of_ne mine]
    exact raised

theorem runContinuation (s : State) (f : FutureId) (continuation : Continuation) (task : Task)
    (sets : forall f result, task ≠ .setResult f result) :
    Spares s (Operator.runContinuation s f continuation) task := by
  cases continuation with
  | group kind out =>
      cases kind with
      | all =>
          simp only [Operator.runContinuation]
          split
          · exact group (fun _ => rfl) (fun _ => rfl) sets
          · exact still rfl (fun _ => id) rfl rfl rfl sets
      | any =>
          simp only [Operator.runContinuation]
          split
          · exact still rfl (fun _ => id) rfl rfl rfl sets
          · split
            · exact group (fun _ => rfl) (fun _ => rfl) sets
            · exact group (fun _ => rfl) (fun g => ending_setFuture (by rfl) g) sets
  | zip out isSecond =>
      simp only [Operator.runContinuation]
      split <;> exact still rfl (fun _ => id) rfl rfl rfl sets
  | observe | moveChain out => exact still rfl (fun _ => id) rfl rfl rfl sets
  | map out freeValue | flatMap out token | onError out | doOnSuccess out =>
      simp only [Operator.runContinuation]
      split <;> exact still rfl (fun _ => id) rfl rfl rfl sets

/-- A promise is marked. -/
theorem promise {f : FutureId} {promise : Promise} {tasks : List Task}
    (marks : (s.promises f).isFulfilled = true -> promise.isFulfilled = true)
    (sets : forall g result, task = .setResult g result -> g = f ∧ promise.isFulfilled = true) :
    Spares s ((s.setPromise f promise).push tasks) task where
  count := Nat.le_refl _
  waiting := fun _ _ => .inl
  ended := fun _ _ => .inl rfl
  flags := fun _ _ => id
  fulfilled := by
    intro g _ before
    simp only [State.push, State.setPromise]
    grind
  sets := by
    intro g result same
    rcases sets g result same with ⟨rfl, marked⟩
    simpa [State.push, State.setPromise] using marked

theorem complete (s : State) (f : FutureId) (result : Result) :
    Spares s (Operator.perform s (.complete f result)) (.complete f result) := by
  simp only [Operator.perform]
  split
  · exact destroyValue s result _ (by simp)
  · rename_i pending
    refine ⟨Nat.le_refl _, fun _ _ => .inl, ?_, fun _ _ => id, fun _ _ => id, (by simp)⟩
    intro g _
    by_cases mine : g = f
    · subst g
      refine .inr ⟨by simpa using pending, result, rfl, ?_⟩
      simp [State.push, State.setFuture, Cell.ending]
    · refine .inl ?_
      simp only [State.push, State.setFuture, Function.update_of_ne mine]

theorem perform (s : State) (task : Task) : Spares s (Operator.perform s task) task := by
  have self (tasks : List Task) (other : Task) (sets : forall f result, other ≠ .setResult f result) :
      Spares s (s.push tasks) other := still rfl (fun _ => id) rfl rfl rfl sets
  cases task with
  | setResult f result =>
      simp only [Operator.perform]
      split
      · rename_i fulfilled
        have spares := destroyValue s result (.leave []) (by simp)
        refine ⟨spares.count, fun g c mem => .inl ?_, fun g inside => .inl ?_, spares.flags,
          spares.fulfilled, ?_⟩
        · rw [State.waiting_destroyValue] at mem
          exact mem
        · rw [State.futures_destroyValue]
        · rintro g other same
          cases same
          unfold State.destroyValue
          split <;> exact fulfilled
      · refine promise (fun _ => rfl) ?_
        rintro g other same
        cases same
        exact ⟨rfl, rfl⟩
  | destroyPromise f =>
      simp only [Operator.perform]
      split
      · exact self _ _ (by simp)
      · exact promise (fun _ => rfl) (by simp)
  | releasePromise f =>
      have spares := unref (s.setPromise f { s.promises f with isLive := false }) f
        (.releasePromise f) (by simp)
      have marked : Spares s ((s.setPromise f { s.promises f with isLive := false }).push [])
          (.releasePromise f) := promise id (by simp)
      exact ⟨spares.count, spares.waiting, spares.ended, spares.flags,
        fun g inside before => spares.fulfilled g inside (marked.fulfilled g inside before), (by simp)⟩
  | complete f result => exact complete s f result
  | drain f =>
      refine of_same rfl ?_ (ending_setFuture (by rfl)) (fun _ => id) (fun _ => id) (by simp)
      exact fun _ mem => (List.mem_filter.mp mem).1
  | run f continuation => exact runContinuation s f continuation _ (by simp)
  | zero f =>
      exact of_same rfl (fun _ => id) (ending_setFuture (by rfl)) (fun _ => id) (fun _ => id) (by simp)
  | release f => exact unref s f _ (by simp)
  | unregister f =>
      simp only [Operator.perform]
      split <;> exact dropNode f _ (still rfl (fun _ => id) rfl rfl rfl (by simp))
  | dropNode f => exact dropNode f _ (self [] _ (by simp))
  | attach f token =>
      simp only [Operator.perform]
      split
      · exact self [] _ (by simp)
      · split <;> exact of_same rfl (fun _ => id) (ending_setFuture (by rfl)) (fun _ => id)
          (fun _ => id) (by simp)
  | attached f =>
      simp only [Operator.perform]
      split
      · exact self _ _ (by simp)
      · exact of_same rfl (fun _ => id) (ending_setFuture (by rfl)) (fun _ => id) (fun _ => id) (by simp)
  | register f continuation =>
      simp only [Operator.perform]
      split
      · exact self _ _ (by simp)
      · refine ⟨Nat.le_refl _, ?_, fun _ _ => .inl rfl, fun _ _ => id, fun _ _ => id, (by simp)⟩
        intro g other mem
        rcases List.mem_cons.mp mem with same | mem
        · cases same
          exact .inr rfl
        · exact .inl mem
  | claimInner out inner =>
      simp only [Operator.perform]
      split
      · exact self _ _ (by simp)
      · exact of_same rfl (fun _ => id) (ending_setFuture (by rfl)) (fun _ => id) (fun _ => id) (by simp)
  | claimInput f out =>
      simp only [Operator.perform]
      split
      · exact self _ _ (by simp)
      · exact of_same rfl (fun _ => id) (ending_setFuture (by rfl)) (fun _ => id) (fun _ => id) (by simp)
  | inherit f out =>
      simp only [Operator.perform]
      split
      · exact self _ _ (by simp)
      · exact self [] _ (by simp)
  | deliver out => exact still rfl (fun _ => id) rfl rfl rfl (by simp)
  | loop kind out entries =>
      cases entries with
      | nil => exact self [] _ (by simp)
      | cons entry entries =>
          cases entry with
          | some f => exact self [.register f (.group kind out), .loop kind out entries] _ (by simp)
          | none =>
              cases kind with
              | any => exact self [.subtract .any out true, .loop .any out entries] _ (by simp)
              | all =>
                  simp only [Operator.perform, visit]
                  split
                  · exact self [.subtract .all out true, .loop .all out entries] _ (by simp)
                  · have refused : Spares s
                        (({ s.setGroup out { s.groups out with flag := true } with
                          futures := s.futures }).push (finish out (.ofError einval) ++
                            [Task.subtract .all out true, Task.loop .all out entries]))
                        (.loop .all out (none :: entries)) :=
                      group (fun _ => rfl) (fun _ => rfl) (by simp)
                    exact refused
  | subtract kind out refused =>
      have subtracted (tasks : List Task) : Spares s
          ((s.setGroup out
            { s.groups out with remaining := (s.groups out).remaining - 1 }).push tasks)
          (.subtract kind out refused) := group id (fun _ => rfl) (by simp)
      simp only [Operator.perform]
      split
      · split
        · exact subtracted _
        · exact subtracted _
        · exact subtracted []
      · exact subtracted []
  | zipComplete out first second =>
      simp only [Operator.perform]
      split <;> exact self _ _ (by simp)
  | callback callback | leave arguments | leaveSet f => exact self [] _ (by simp)

theorem promises_give (s : State) (result : Result) : (s.give result).promises = s.promises := by
  unfold State.give
  split <;> rfl

theorem groups_give (s : State) (result : Result) : (s.give result).groups = s.groups := by
  unfold State.give
  split <;> rfl

/-- What a call of the client makes is new. -/
theorem enter (sound : Sound s) (api : Api) : Spares s (Operator.enter s api) (.leave []) where
  count := by
    cases api with
    | fromResult result | setResult f result =>
        simp [Operator.enter, State.push, State.create, State.count_give]
    | get f | group kind entries | cancel token | registerCallback token =>
        simp only [Operator.enter]
        split <;> simp [State.push, State.create, State.setGroup, State.setFuture, State.setToken]
    | _ => simp [Operator.enter, Operator.operator, State.push, State.create, State.setClientRefs,
        State.setZip, State.retain, State.setFuture, State.setPromise, State.setToken]
  waiting := by
    intro f continuation mem
    refine .inl ?_
    cases api with
    | fromResult result | setResult f result =>
        simpa [Operator.enter, State.push, State.create, State.waiting_give] using mem
    | get f | group kind entries | cancel token | registerCallback token =>
        simp only [Operator.enter] at mem
        split at mem <;> exact mem
    | _ => exact mem
  ended := fun f _ => .inl (view_enter Cell.ending sound api (fun _ _ => rfl) (fun _ _ => rfl) f)
  flags := by
    intro out inside raised
    have other : out ≠ s.count := Nat.ne_of_lt inside
    cases api with
    | fromResult result | setResult f result =>
        simpa [Operator.enter, State.push, State.create, groups_give] using raised
    | group kind entries =>
        simp only [Operator.enter]
        split
        · exact raised
        · simpa only [State.push, State.create, State.setGroup, Function.update_of_ne other] using
            raised
    | get f | cancel token | registerCallback token =>
        simp only [Operator.enter]
        split <;> exact raised
    | _ => exact raised
  fulfilled := by
    intro f inside before
    have other : f ≠ s.count := Nat.ne_of_lt inside
    have created : ((s.create false).promises f).isFulfilled = true := by
      simpa only [State.create, Function.update_of_ne other] using before
    cases api with
    | create => simpa only [Operator.enter, State.create, State.setClientRefs,
        Function.update_of_ne other] using before
    | fromResult result => simpa [Operator.enter, State.push, promises_give] using created
    | setResult f result => simpa [Operator.enter, State.push, promises_give] using before
    | destroy g =>
        simp only [Operator.enter, State.push, State.setPromise]
        grind
    | map g freeValue | flatMap g | onError g | doOnSuccess g | zip first second freeValue =>
        exact created
    | group kind entries =>
        simp only [Operator.enter]
        split <;> exact created
    | get f | cancel token | registerCallback token =>
        simp only [Operator.enter]
        split <;> exact before
    | _ => exact before
  sets := nofun

theorem afterCallback (s : State) (callback : Callback) (reply : Reply) :
    Spares s (Operator.afterCallback s callback reply) (.callback callback) := by
  have given (result : Result) (tasks : List Task) :
      Spares s ((s.give result).push tasks) (.callback callback) := by
    unfold State.give
    split <;> exact still rfl (fun _ => id) rfl rfl rfl nofun
  have same {after : State} (count : after.count = s.count) (waiting : after.waiting = s.waiting)
      (futures : after.futures = s.futures) (groups : after.groups = s.groups)
      (promises : after.promises = s.promises) : Spares s after (.callback callback) := by
    refine still count ?_ futures groups promises nofun
    rw [waiting]
    exact fun _ => id
  cases callback with
  | observer g | action g out | cancelled => exact same rfl rfl rfl rfl rfl
  | mapper g out freeValue | zipper out first second =>
      cases reply with
      | value value => exact given _ _
      | _ => exact same rfl rfl rfl rfl rfl
  | flatMapper g out token =>
      cases reply with
      | future inner => cases inner <;> cases token <;> exact same rfl rfl rfl rfl rfl
      | _ => cases token <;> exact same rfl rfl rfl rfl rfl
  | recovery g out =>
      cases reply with
      | future inner => cases inner <;> exact same rfl rfl rfl rfl rfl
      | _ => exact same rfl rfl rfl rfl rfl

end Spares

/-! ## The tasks on the stack -/

namespace Task

variable (way : FutureId -> Prop)

/-- Every promise on the way is destroyed after it was set. -/
def Paired (fulfilled : FutureId -> Prop) : List Task -> Prop
  | [] => True
  | setResult f _ :: rest => Paired (fun g => g = f ∨ fulfilled g) rest
  | destroyPromise f :: rest => (way f -> fulfilled f) ∧ Paired fulfilled rest
  | _ :: rest => Paired fulfilled rest

variable {way}

theorem Paired.mono {fulfilled more : FutureId -> Prop} {tasks : List Task}
    (ok : Paired way fulfilled tasks) (grows : forall f, way f -> fulfilled f -> more f) :
    Paired way more tasks := by
  induction tasks generalizing fulfilled more with
  | nil => trivial
  | cons task rest inductionHypothesis =>
      cases task with
      | setResult f result =>
          exact inductionHypothesis ok fun g here => Or.imp_right (grows g here)
      | destroyPromise f =>
          exact ⟨fun here => grows f here (ok.1 here), inductionHypothesis ok.2 grows⟩
      | _ => exact inductionHypothesis ok grows

theorem Paired.append {fulfilled : FutureId -> Prop} {above below : List Task}
    (first : Paired way fulfilled above) (second : Paired way fulfilled below) :
    Paired way fulfilled (above ++ below) := by
  induction above generalizing fulfilled with
  | nil => exact second
  | cons task rest inductionHypothesis =>
      cases task with
      | setResult f result =>
          exact inductionHypothesis first (second.mono fun _ _ => .inr)
      | destroyPromise f => exact ⟨first.1, inductionHypothesis first.2 second⟩
      | _ => exact inductionHypothesis first second

/-- The first task is done. -/
theorem Paired.tail {fulfilled more : FutureId -> Prop} {task : Task} {rest : List Task}
    (ok : Paired way fulfilled (task :: rest)) (grows : forall f, way f -> fulfilled f -> more f)
    (sets : forall f result, task = .setResult f result -> more f) : Paired way more rest := by
  cases task with
  | setResult f result =>
      refine Paired.mono ok ?_
      rintro g here (rfl | before)
      · exact sets g result rfl
      · exact grows g here before
  | destroyPromise f => exact Paired.mono ok.2 grows
  | _ => exact Paired.mono ok grows

/-- What is under way for a pending future on the way completes it with `ECANCELED`, or is for
a future on the way that ended. -/
def Aborts (way : FutureId -> Prop) (s : State) : Task -> Prop
  | setResult f result | complete f result => s.Open way f -> result = aborted
  | drain f => way f -> s.Ended way f
  | run f continuation => forall out, continuation.out = some out -> s.Open way out -> s.Ended way f
  | claimInput f out | callback (.recovery f out) => s.Open way out -> s.Ended way f
  | register _ continuation => forall out, continuation.out = some out -> ¬s.Open way out
  | claimInner out _ | loop _ out _ | callback (.mapper _ out _) | callback (.flatMapper _ out _)
  | callback (.action _ out) | callback (.zipper out _ _) => ¬s.Open way out
  | subtract _ out _ => s.Open way out -> (s.groups out).flag = true
  | destroyPromise _ | releasePromise _ | zero _ | release _ | unregister _ | attach _ _
  | attached _ | dropNode _ | inherit _ _ | deliver _ | zipComplete _ _ _
  | callback (.observer _) | callback .cancelled | leave _ | leaveSet _ => True

end Task

/-- On the way futures are completed with `ECANCELED` only, and what the pending ones wait for
is on the way. -/
structure Guarded (way : FutureId -> Prop) (s : State) (tasks : List Task) : Prop where
  inside : forall f, way f -> f < s.count
  outcome : forall f, s.Ended way f -> (s.futures f).completed = some aborted
  edges : forall f continuation out, (f, continuation) ∈ s.waiting ->
    continuation.out = some out -> s.Open way out -> way f
  aborts : forall task, task ∈ tasks -> task.Aborts way s
  paired : Task.Paired way (fun f => (s.promises f).isFulfilled = true) tasks

namespace Guarded

variable {way : FutureId -> Prop} {s after : State} {task : Task} {new rest : List Task}

/-- The tasks that stand for the rest of the stack after a step. -/
def After (way : FutureId -> Prop) (s after : State) (rest : List Task) : Prop :=
  Exists fun new => after.stack = new ++ s.stack ∧ Guarded way after (new ++ rest)

theorem opens (spares : Spares s after task) (inside : forall f, way f -> f < s.count)
    {f : FutureId} (here : after.Open way f) : s.Open way f := by
  refine ⟨here.1, ?_⟩
  rcases spares.ended f (inside f here.1) with same | ⟨pending, _⟩
  · exact (congrArg Prod.fst same).symm.trans here.2
  · exact pending

theorem ends (spares : Spares s after task) (inside : forall f, way f -> f < s.count)
    {f : FutureId} (ended : s.Ended way f) : after.Ended way f := by
  refine ⟨ended.1, ?_⟩
  rcases spares.ended f (inside f ended.1) with same | ⟨pending, _⟩
  · exact (congrArg Prod.fst same).trans ended.2
  · exact absurd (ended.2.symm.trans pending) (by decide)

/-- What a task says of the way stays. -/
theorem later (spares : Spares s after task) (inside : forall f, way f -> f < s.count)
    {other : Task} (aborts : other.Aborts way s) : other.Aborts way after := by
  have pending {f : FutureId} (here : after.Open way f) : s.Open way f := opens spares inside here
  have ended {f : FutureId} (before : s.Ended way f) : after.Ended way f := ends spares inside before
  cases other with
  | setResult f result | complete f result => exact fun here => aborts (pending here)
  | drain f => exact fun here => ended (aborts here)
  | run f continuation => exact fun out feeds here => ended (aborts out feeds (pending here))
  | claimInput f out => exact fun here => ended (aborts (pending here))
  | register f continuation => exact fun out feeds here => aborts out feeds (pending here)
  | claimInner out inner | loop kind out entries => exact fun here => aborts (pending here)
  | subtract kind out refused =>
      exact fun here => spares.flags out (inside out here.1) (aborts (pending here))
  | callback client =>
      cases client with
      | recovery f out => exact fun here => ended (aborts (pending here))
      | mapper f out freeValue | flatMapper f out token | action f out | zipper out first second =>
          exact fun here => aborts (pending here)
      | observer f | cancelled => trivial
  | _ => exact aborts

/-- The first task is done, and others take its place. -/
theorem change (ok : Guarded way s (task :: rest)) (spares : Spares s after task)
    (stack : after.stack = new ++ s.stack)
    (aborts : forall other, other ∈ new -> other.Aborts way after)
    (paired : forall fulfilled, Task.Paired way fulfilled new) : After way s after rest := by
  refine ⟨new, stack, ?_, ?_, ?_, ?_, ?_⟩
  · exact fun f here => Nat.lt_of_lt_of_le (ok.inside f here) spares.count
  · intro f ended
    rcases spares.ended f (ok.inside f ended.1) with same | ⟨pending, result, rfl, ending⟩
    · refine (congrArg Prod.snd same).trans ?_
      exact ok.outcome f ⟨ended.1, (congrArg Prod.fst same).symm.trans ended.2⟩
    · have came : result = aborted := ok.aborts _ List.mem_cons_self ⟨ended.1, pending⟩
      rw [<- came]
      exact congrArg Prod.snd ending
  · intro f continuation out mem feeds here
    have before := opens spares ok.inside here
    rcases spares.waiting f continuation mem with waits | rfl
    · exact ok.edges f continuation out waits feeds before
    · exact absurd before (ok.aborts _ List.mem_cons_self out feeds)
  · intro other mem
    rcases List.mem_append.mp mem with mem | mem
    · exact aborts other mem
    · exact later spares ok.inside (ok.aborts other (List.mem_cons_of_mem _ mem))
  · refine (paired _).append (ok.paired.tail ?_ spares.sets)
    exact fun f here => spares.fulfilled f (ok.inside f here)

/-- The tasks that take the place of the first one fit the state before already. -/
theorem replace (ok : Guarded way s (task :: rest)) (spares : Spares s after task)
    (stack : after.stack = new ++ s.stack)
    (aborts : forall other, other ∈ new -> other.Aborts way s)
    (paired : forall fulfilled, Task.Paired way fulfilled new) : After way s after rest :=
  ok.change spares stack (fun other mem => later spares ok.inside (aborts other mem)) paired

/-- Nothing takes the place of the first task. -/
theorem done (ok : Guarded way s (task :: rest)) (spares : Spares s after task)
    (stack : after.stack = s.stack) : After way s after rest := by
  have pushed : after.stack = [] ++ s.stack := stack
  exact ok.replace spares pushed nofun fun _ => trivial

/-- The output of an operator is completed. -/
theorem conclude {out : FutureId} {result : Result} (ok : Guarded way s (task :: rest))
    (spares : Spares s after task) (stack : after.stack = finish out result ++ new ++ s.stack)
    (delivers : s.Open way out -> result = aborted)
    (aborts : forall other, other ∈ new -> other.Aborts way after)
    (paired : forall fulfilled, Task.Paired way fulfilled new) : After way s after rest := by
  refine ok.change spares stack ?_ fun fulfilled => ⟨fun _ => .inl rfl, paired _⟩
  intro other mem
  simp only [finish, List.cons_append, List.nil_append, List.mem_cons] at mem
  rcases mem with rfl | rfl | mem
  · exact fun here => delivers (opens spares ok.inside here)
  · trivial
  · exact aborts other mem

/-- A future on the way that ended reads as aborted until its result is moved out. -/
theorem read {tasks : List Task} (ok : Guarded way s rest) (recorded : Recorded ∅ (s.push tasks))
    {f : FutureId} (ended : s.Ended way f) (unmoved : (s.futures f).isMoved = false) :
    (s.futures f).result = aborted := by
  have kept : (s.futures f).result =
      if (s.futures f).isMoved then .zero else (s.futures f).completed.getD .zero :=
    recorded.result f
  rw [kept, unmoved, ok.outcome f ended]
  rfl

/-- One task takes the place of the first one. -/
theorem turn {other : Task} (ok : Guarded way s (task :: rest))
    (spares : Spares s (s.push [other]) task) (aborts : other.Aborts way s)
    (paired : forall fulfilled, Task.Paired way fulfilled [other]) :
    After way s (s.push [other]) rest := by
  refine ok.replace spares rfl ?_ paired
  intro member mem
  rw [List.mem_singleton.mp mem]
  exact aborts

theorem stack_unref (s : State) (f : FutureId) : (s.unref f).stack = s.stack := by
  simp only [State.unref]
  split
  · exact State.stack_destroyValue _ _
  · rfl

theorem runContinuation {f : FutureId} {continuation : Continuation}
    (ok : Guarded way s (.run f continuation :: rest))
    (recorded : Recorded ∅ (s.push [.run f continuation]))
    (unhindered : Unhindered way (s.push [.run f continuation]) .step) :
    After way s (Operator.runContinuation s f continuation) rest := by
  have spares : Spares s (Operator.runContinuation s f continuation) (.run f continuation) :=
    Spares.runContinuation s f continuation _ (by simp)
  have ended : forall out, continuation.out = some out -> s.Open way out -> s.Ended way f :=
    ok.aborts _ List.mem_cons_self
  -- The result that is read for a pending future on the way.
  have reads {out : FutureId} (feeds : continuation.out = some out) (here : s.Open way out)
      (reading : Operator.reads (s.push [.run f continuation]) .step = some f) :
      (s.futures f).result = aborted :=
    ok.read recorded (ended out feeds here) ((unhindered.2 out feeds here).1 f reading)
  have fails {out : FutureId} (feeds : continuation.out = some out) (here : s.Open way out)
      (reading : Operator.reads (s.push [.run f continuation]) .step = some f) :
      (s.futures f).result.error ≠ 0 := by
    rw [reads feeds here reading]
    decide
  cases continuation with
  | observe => exact ok.turn spares trivial fun _ => trivial
  | map out freeValue | flatMap out token =>
      by_cases failed : (s.futures f).result.error ≠ 0
      · simp only [Operator.runContinuation, if_pos failed] at spares ⊢
        have stack (tasks : List Task) : tasks ++ s.stack = tasks ++ [] ++ s.stack := by simp
        refine ok.conclude spares (stack _) ?_ (by simp) fun _ => trivial
        intro here
        rw [reads rfl here rfl]
        rfl
      · simp only [Operator.runContinuation, if_neg failed] at spares ⊢
        exact ok.turn spares (fun here => failed (fails rfl here rfl)) fun _ => trivial
  | onError out =>
      by_cases failed : (s.futures f).result.error ≠ 0
      · simp only [Operator.runContinuation, if_pos failed] at spares ⊢
        exact ok.turn spares (ended out rfl) fun _ => trivial
      · simp only [Operator.runContinuation, if_neg failed] at spares ⊢
        exact ok.turn spares (ended out rfl) fun _ => trivial
  | doOnSuccess out =>
      by_cases fine : (s.futures f).result.error = 0
      · simp only [Operator.runContinuation, if_pos fine] at spares ⊢
        exact ok.turn spares (fun here => fails rfl here rfl fine) fun _ => trivial
      · simp only [Operator.runContinuation, if_neg fine] at spares ⊢
        exact ok.turn spares (ended out rfl) fun _ => trivial
  | moveChain out =>
      exact ok.conclude spares rfl (fun here => reads rfl here rfl) (by simp [Task.Aborts])
        fun _ => trivial
  | group kind out =>
      cases kind with
      | all =>
          by_cases first : (s.futures f).result.error ≠ 0 ∧ (s.groups out).flag = false
          · simp only [Operator.runContinuation, if_pos first] at spares ⊢
            refine ok.conclude spares rfl ?_ ?_ fun _ => trivial
            · intro here
              rw [reads rfl here rfl]
              rfl
            · simp [Task.Aborts, State.push, State.setGroup]
          · simp only [Operator.runContinuation, if_neg first] at spares ⊢
            refine ok.turn spares ?_ fun _ => trivial
            intro here
            simpa using not_and.mp first (fails rfl here rfl)
      | any =>
          by_cases claimed : (s.groups out).flag = true
          · simp only [Operator.runContinuation, if_pos claimed] at spares ⊢
            exact ok.turn spares (fun _ => claimed) fun _ => trivial
          · by_cases consumed : (s.futures f).isConsumed = true
            · simp only [Operator.runContinuation, if_neg claimed, if_pos consumed] at spares ⊢
              refine ok.conclude spares rfl ?_ ?_ fun _ => trivial
              · intro here
                exact absurd (unhindered.2 out rfl here).2 (by simp [departs, State.push, claimed, consumed])
              · simp [Task.Aborts, State.push, State.setGroup]
            · simp only [Operator.runContinuation, if_neg claimed, if_neg consumed] at spares ⊢
              refine ok.conclude spares rfl ?_ ?_ fun _ => trivial
              · intro here
                refine reads rfl here ?_
                simp [Operator.reads, State.push, claimed, consumed]
              · simp [Task.Aborts, State.push, State.setGroup, State.consume, State.setFuture]
  | zip out isSecond =>
      by_cases last : (s.zips out).remaining = 1
      · simp only [Operator.runContinuation, if_pos last] at spares ⊢
        exact ok.replace spares rfl (by simp [Task.Aborts]) fun _ => trivial
      · simp only [Operator.runContinuation, if_neg last] at spares ⊢
        exact ok.done spares rfl

theorem complete {f : FutureId} {result : Result}
    (ok : Guarded way s (.complete f result :: rest)) :
    After way s (perform s (.complete f result)) rest := by
  have spares := Spares.perform s (.complete f result)
  revert spares
  simp only [perform]
  split <;> intro spares
  · rename_i completed
    exact ok.done spares (State.stack_destroyValue s result)
  · rename_i pending
    refine ok.change spares rfl ?_ ?_
    · intro other mem
      have member : other = .unregister f ∨ other = .drain f := by
        split at mem
        · simpa using mem
        · exact .inr (List.mem_singleton.mp mem)
      rcases member with rfl | rfl
      · trivial
      · exact fun here => ⟨here, by simp [State.push, State.setFuture]⟩
    · split <;> exact fun _ => trivial

theorem drain {f : FutureId} (ok : Guarded way s (.drain f :: rest)) :
    After way s (perform s (.drain f)) rest := by
  refine ok.replace (Spares.perform s (.drain f)) rfl ?_ ?_
  · intro other mem
    rcases List.mem_map.mp mem with ⟨⟨g, continuation⟩, found, rfl⟩
    rcases List.mem_filter.mp found with ⟨waits, same⟩
    have mine : g = f := of_decide_eq_true same
    subst g
    intro out feeds here
    exact ok.aborts _ List.mem_cons_self (ok.edges f continuation out waits feeds here)
  · generalize s.waiting.filter (fun entry => decide (entry.1 = f)) = entries
    intro fulfilled
    induction entries with
    | nil => trivial
    | cons entry entries inductionHypothesis => exact inductionHypothesis

theorem dropNode {before : State} {f : FutureId} {references : Nat}
    (ok : Guarded way s (task :: rest)) (spares : Spares s (before.dropNode f references) task)
    (stack : before.stack = s.stack) : After way s (before.dropNode f references) rest := by
  revert spares
  simp only [State.dropNode]
  split <;> intro spares
  · have pushed : .release f :: before.stack = [.release f] ++ s.stack :=
      congrArg (List.cons (.release f)) stack
    exact ok.replace spares pushed (by simp [Task.Aborts]) fun _ => trivial
  · exact ok.done spares stack

/-- One entry of the loop of a combinator, whose output is not on the way. -/
theorem loop {kind : Kind} {out : FutureId} {entries : List (Option FutureId)}
    (ok : Guarded way s (.loop kind out entries :: rest)) :
    After way s (perform s (.loop kind out entries)) rest := by
  have aside : ¬s.Open way out := ok.aborts _ List.mem_cons_self
  have spares := Spares.perform s (.loop kind out entries)
  cases entries with
  | nil => exact ok.done spares rfl
  | cons entry entries =>
      cases entry with
      | some f =>
          have stack : (perform s (.loop kind out (some f :: entries))).stack =
              [.register f (.group kind out), .loop kind out entries] ++ s.stack := rfl
          refine ok.replace spares stack ?_ fun _ => trivial
          simp [Task.Aborts, Continuation.out, aside]
      | none =>
          have beside : forall other, other ∈ [Task.subtract kind out true, .loop kind out entries] ->
              other.Aborts way s := by simp [Task.Aborts, aside]
          cases kind with
          | any =>
              have stack : (perform s (.loop .any out (none :: entries))).stack =
                  [.subtract .any out true, .loop .any out entries] ++ s.stack := rfl
              exact ok.replace spares stack beside fun _ => trivial
          | all =>
              by_cases flag : (s.groups out).flag = true
              · have stack : (perform s (.loop .all out (none :: entries))).stack =
                    [.subtract .all out true, .loop .all out entries] ++ s.stack := by
                  simp [perform, visit, State.push, flag]
                exact ok.replace spares stack beside fun _ => trivial
              · have stack : (perform s (.loop .all out (none :: entries))).stack =
                    finish out (.ofError einval) ++
                      [.subtract .all out true, .loop .all out entries] ++ s.stack := by
                  simp [perform, visit, State.push, State.setGroup, flag]
                refine ok.conclude spares stack (fun here => absurd here aside) ?_ fun _ => trivial
                exact fun other mem => later spares ok.inside (beside other mem)

/-- What one step leaves, with the rest of the stack under it. -/
theorem perform (ok : Guarded way s (task :: rest)) (recorded : Recorded ∅ (s.push [task]))
    (unhindered : Unhindered way (s.push [task]) .step)
    (runs : forall callback, task ≠ .callback callback) :
    After way s (Operator.perform s task) rest := by
  have spares := Spares.perform s task
  have aborts : task.Aborts way s := ok.aborts _ List.mem_cons_self
  have alone (tasks : List Task) : tasks ++ s.stack = tasks ++ [] ++ s.stack := by simp
  cases task with
  | setResult f result =>
      revert spares
      simp only [Operator.perform]
      split <;> intro spares
      · exact ok.done spares (State.stack_destroyValue s result)
      · exact ok.replace spares rfl (by simpa [Task.Aborts] using aborts) fun _ => trivial
  | destroyPromise f =>
      revert spares
      simp only [Operator.perform]
      split <;> intro spares
      · exact ok.turn spares trivial fun _ => trivial
      · rename_i unset
        refine ok.replace spares rfl ?_ fun _ => trivial
        have aside : ¬s.Open way f := fun here => unset (ok.paired.1 here.1)
        simp [Task.Aborts, aside]
  | releasePromise f | release f =>
      exact ok.done spares (stack_unref _ f)
  | complete f result => exact ok.complete
  | drain f => exact ok.drain
  | run f continuation => exact ok.runContinuation recorded unhindered
  | zero f => exact ok.done spares rfl
  | unregister f =>
      revert spares
      simp only [Operator.perform]
      split <;> intro spares <;> exact ok.dropNode spares rfl
  | dropNode f => exact ok.dropNode spares rfl
  | attach f token =>
      revert spares
      simp only [Operator.perform]
      split <;> intro spares
      · exact ok.done spares rfl
      · revert spares
        split <;> intro spares <;> exact ok.replace spares rfl (by simp [Task.Aborts, aborted])
          fun _ => trivial
  | attached f =>
      revert spares
      simp only [Operator.perform]
      split <;> intro spares
      · exact ok.turn spares trivial fun _ => trivial
      · exact ok.done spares rfl
  | register f continuation =>
      revert spares
      simp only [Operator.perform]
      split <;> intro spares
      · exact ok.turn spares (fun out feeds here => absurd here (aborts out feeds)) fun _ => trivial
      · exact ok.done spares rfl
  | claimInner out inner =>
      revert spares
      simp only [Operator.perform]
      split <;> intro spares
      · exact ok.conclude spares rfl (fun here => absurd here aborts) (by simp [Task.Aborts])
          fun _ => trivial
      · refine ok.replace spares rfl ?_ fun _ => trivial
        have aside : ¬s.Open way out := aborts
        simp [Task.Aborts, Continuation.out, aside]
  | claimInput f out =>
      revert spares
      simp only [Operator.perform]
      split <;> intro spares
      · rename_i consumed
        refine ok.conclude spares (alone _) ?_ (by simp) fun _ => trivial
        exact fun here => absurd (consumed.symm.trans (unhindered.2 out rfl here).2) (by decide)
      · rename_i unconsumed
        refine ok.conclude spares rfl ?_ (by simp [Task.Aborts]) fun _ => trivial
        intro here
        refine ok.read recorded (aborts here) ((unhindered.2 out rfl here).1 f ?_)
        simp [reads, State.push, unconsumed]
  | inherit f out =>
      revert spares
      simp only [Operator.perform]
      split <;> intro spares
      · exact ok.turn spares trivial fun _ => trivial
      · exact ok.done spares rfl
  | loop kind out entries => exact ok.loop
  | subtract kind out refused =>
      revert spares
      simp only [Operator.perform]
      split <;> intro spares
      · rename_i last
        have aside : s.Open way out -> False := fun here => by
          rw [aborts here] at last
          exact absurd last.2 (by decide)
        revert spares
        split <;> intro spares
        · exact ok.conclude spares (alone _) (fun here => absurd here aside) (by simp) fun _ => trivial
        · exact ok.conclude spares (alone _) (fun here => absurd here aside) (by simp) fun _ => trivial
        · exact ok.done spares rfl
      · exact ok.done spares rfl
  | zipComplete out first second =>
      revert spares
      simp only [Operator.perform]
      split <;> intro spares
      · rename_i error reported
        refine ok.conclude spares rfl ?_ (by simp [Task.Aborts]) fun _ => trivial
        intro here
        have same : (zipError (s.zips out) != some ecanceled) = false := (unhindered.2 out rfl here).2
        rw [reported] at same
        have cancelled : error = ecanceled := by simpa using same
        rw [cancelled]
        rfl
      · rename_i fine
        refine ok.turn spares ?_ fun _ => trivial
        intro here
        have same : (zipError (s.zips out) != some ecanceled) = false := (unhindered.2 out rfl here).2
        rw [fine] at same
        cases same
  | deliver out | leave arguments | leaveSet f => exact ok.done spares rfl
  | callback callback => exact absurd rfl (runs callback)

/-- A callback returns. -/
theorem answer {callback : Callback} {reply : Reply}
    (ok : Guarded way s (.callback callback :: rest))
    (recorded : Recorded ∅ (s.push [.callback callback]))
    (unhindered : Unhindered way (s.push [.callback callback]) (.answer reply)) :
    After way s (afterCallback s callback reply) rest := by
  have spares := Spares.afterCallback s callback reply
  have aborts : Task.Aborts way s (.callback callback) := ok.aborts _ List.mem_cons_self
  have alone (tasks : List Task) : tasks ++ s.stack = tasks ++ [] ++ s.stack := by simp
  cases callback with
  | observer f | cancelled => exact ok.done spares rfl
  | action f out =>
      have aside : ¬s.Open way out := aborts
      exact ok.replace spares rfl (by simp [Task.Aborts, aside]) fun _ => trivial
  | mapper f out freeValue =>
      cases reply with
      | value value =>
          have stack : (afterCallback s (.mapper f out freeValue) (.value value)).stack =
              finish out (produced value freeValue) ++ [] ++ s.stack := by
            simp [afterCallback, State.push]
          exact ok.conclude spares stack (fun here => absurd here aborts) (by simp) fun _ => trivial
      | _ => exact ok.done spares rfl
  | zipper out first second =>
      cases reply with
      | value value =>
          have stack : (afterCallback s (.zipper out first second) (.value value)).stack =
              finish out (produced value (s.zips out).freeValue) ++
                [.release first, .release second] ++ s.stack := by
            simp [afterCallback, State.push, zipFinish]
          exact ok.conclude spares stack (fun here => absurd here aborts) (by simp [Task.Aborts])
            fun _ => trivial
      | _ => exact ok.done spares rfl
  | flatMapper f out token =>
      have aside : ¬s.Open way out := aborts
      cases reply with
      | future inner =>
          cases inner with
          | none =>
              cases token <;> exact ok.conclude spares (alone _) (fun here => absurd here aside) (by simp)
                fun _ => trivial
          | some inner =>
              cases token <;> exact ok.replace spares rfl (by simp [Task.Aborts, aside])
                fun _ => trivial
      | _ => cases token <;> exact ok.done spares rfl
  | recovery f out =>
      cases reply with
      | future inner =>
          cases inner with
          | none =>
              refine ok.conclude spares (alone _) ?_ (by simp) fun _ => trivial
              intro here
              rw [ok.read recorded (aborts here) ((unhindered.2 out rfl here).1 f rfl)]
              rfl
          | some inner =>
              have aside : ¬s.Open way out := fun here =>
                absurd (unhindered.2 out rfl here).2 (by simp [departs])
              exact ok.replace spares rfl (by simp [Task.Aborts, aside]) fun _ => trivial
      | _ => exact ok.done spares rfl

/-- A call is on its way, and returns without doing more. -/
theorem leaving {tasks : List Task} (ok : Guarded way s tasks) :
    Guarded way s (.leave [] :: tasks) where
  inside := ok.inside
  outcome := ok.outcome
  edges := ok.edges
  aborts := by
    intro other mem
    rcases List.mem_cons.mp mem with rfl | mem
    · trivial
    · exact ok.aborts other mem
  paired := ok.paired

/-- The registrations of a token. -/
theorem aborts_cancellation {nodes : List (Option FutureId)} (s : State) (other : Task)
    (mem : other ∈ nodes.flatMap cancellation) : other.Aborts way s := by
  rcases List.mem_flatMap.mp mem with ⟨entry, found, mem⟩
  cases entry with
  | none =>
      rw [List.mem_singleton.mp mem]
      trivial
  | some f =>
      simp only [cancellation, List.mem_cons, List.not_mem_nil, or_false] at mem
      rcases mem with rfl | rfl
      · exact fun _ => rfl
      · trivial

theorem paired_cancellation (nodes : List (Option FutureId)) (fulfilled : FutureId -> Prop) :
    Task.Paired way fulfilled (nodes.flatMap cancellation) := by
  induction nodes with
  | nil => trivial
  | cons entry nodes inductionHypothesis =>
      cases entry <;> exact inductionHypothesis

/-- An operator is built by a callback. -/
theorem operator {f : FutureId} (continuation : FutureId -> Continuation)
    (feeds : forall out, (continuation out).out = some out) (ok : Guarded way s rest)
    (spares : Spares s (Operator.operator s f continuation) (.leave [])) :
    After way s (Operator.operator s f continuation) rest := by
  have aside : ¬s.Open way s.count := fun here => Nat.lt_irrefl _ (ok.inside s.count here.1)
  refine ok.leaving.replace spares rfl ?_ fun _ => trivial
  simp [Task.Aborts, feeds, aside]

/-- A call of the client that completes no future on the way. -/
theorem enter {api : Api} (sound : Sound s) (ok : Guarded way s rest)
    (others : forall f, (Event.call api).completes = some f -> ¬way f) :
    After way s (Operator.enter s api) rest := by
  have spares := Spares.enter sound api
  have leaving := ok.leaving
  have outside : ¬way s.count := fun here => Nat.lt_irrefl _ (ok.inside s.count here)
  have aside : ¬s.Open way s.count := fun here => outside here.1
  cases api with
  | create | retain f | unregisterCallback token index => exact leaving.done spares rfl
  | fromResult result =>
      have stack : (Operator.enter s (.fromResult result)).stack =
          finish s.count result ++ [.deliver s.count] ++ s.stack := by
        simp only [Operator.enter, State.push, State.stack_give]
        rfl
      exact leaving.conclude spares stack (fun here => absurd here aside) (by simp [Task.Aborts])
        fun _ => trivial
  | setResult f result =>
      have stack : (Operator.enter s (.setResult f result)).stack =
          [.setResult f result, .leaveSet f] ++ s.stack := by
        simp only [Operator.enter, State.push, State.stack_give]
      refine leaving.replace spares stack ?_ fun _ => trivial
      have shut : ¬s.Open way f := fun here => others f rfl here.1
      simp [Task.Aborts, shut]
  | destroy f =>
      exact leaving.replace spares rfl (by simp [Task.Aborts])
        fun _ => ⟨fun here => absurd here (others f rfl), trivial⟩
  | observe f =>
      exact leaving.replace spares rfl (by simp [Task.Aborts, Continuation.out]) fun _ => trivial
  | get f =>
      revert spares
      simp only [Operator.enter]
      split <;> intro spares <;> exact leaving.done spares rfl
  | map f freeValue => exact ok.operator (fun out => .map out freeValue) (fun _ => rfl) spares
  | flatMap f =>
      exact ok.operator (fun out => .flatMap out (s.futures f).cancelToken) (fun _ => rfl) spares
  | onError f => exact ok.operator .onError (fun _ => rfl) spares
  | doOnSuccess f => exact ok.operator .doOnSuccess (fun _ => rfl) spares
  | group kind entries =>
      revert spares
      simp only [Operator.enter]
      split <;> intro spares
      · exact leaving.conclude spares rfl (fun here => absurd here aside) (by simp [Task.Aborts])
          fun _ => trivial
      · exact leaving.replace spares rfl (by simp [Task.Aborts, aside]) fun _ => trivial
  | zip first second freeValue =>
      refine leaving.replace spares rfl ?_ fun _ => trivial
      simp [Task.Aborts, Continuation.out, aside]
  | attach f token | release f =>
      exact leaving.replace spares rfl (by simp [Task.Aborts]) fun _ => trivial
  | cancel token =>
      revert spares
      simp only [Operator.enter]
      split <;> intro spares
      · exact leaving.done spares rfl
      · exact leaving.replace spares rfl (aborts_cancellation s) (paired_cancellation _)
  | registerCallback token =>
      revert spares
      simp only [Operator.enter]
      split <;> intro spares
      · exact leaving.replace spares rfl (by simp [Task.Aborts]) fun _ => trivial
      · exact leaving.done spares rfl

end Guarded

end Operator
end UfsrvRx
