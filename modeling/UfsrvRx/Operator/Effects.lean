import UfsrvRx.Operator.Forwarding

namespace UfsrvRx
namespace Operator

open Transition
open UfsrvRx.Future (Result ValueId epipe ecanceled einval)

/-!
# What tasks and calls do to promises, moves and contexts
-/

/-- What a step does to promises, moves and contexts, apart from those that it makes. -/
structure Handles (s after : State) (task : Task) : Prop where
  clients : forall f, f < s.count -> (after.promises f).isClient = true ->
    (s.promises f).isClient = true
  dead : forall f, f < s.count -> (s.promises f).isLive = false -> (after.promises f).isLive = false
  fulfilled : forall f, (after.promises f).isFulfilled = true ->
    (s.promises f).isFulfilled = true ∨
    (Exists fun result => task = .setResult f result) ∨ task = .destroyPromise f
  moved : forall f, (after.futures f).isMoved = true ->
    (s.futures f).isMoved = true ∨ task = .zero f
  zips : forall out, out < s.count -> (forall f isSecond, task ≠ .run f (.zip out isSecond)) ->
    after.zips out = s.zips out

namespace Handles

variable {s after : State} {task : Task}

theorem of_moved (promises : after.promises = s.promises) (zips : after.zips = s.zips)
    (moved : forall f, (after.futures f).isMoved = (s.futures f).isMoved) :
    Handles s after task := by
  refine ⟨?_, ?_, ?_, ?_, fun out _ _ => congrFun zips out⟩
  · rw [promises]
    exact fun _ _ => id
  · rw [promises]
    exact fun _ _ => id
  · rw [promises]
    exact fun _ => .inl
  · intro f before
    exact .inl ((moved f).symm.trans before)

theorem still (promises : after.promises = s.promises) (zips : after.zips = s.zips)
    (futures : after.futures = s.futures) : Handles s after task := by
  refine of_moved promises zips ?_
  rw [futures]
  exact fun _ => rfl

theorem moved_setFuture {f : FutureId} {cell : Cell} (same : cell.isMoved = (s.futures f).isMoved)
    (g : FutureId) : ((s.setFuture f cell).futures g).isMoved = (s.futures g).isMoved := by
  simp only [State.setFuture]
  by_cases mine : g = f
  · subst g
    rw [Function.update_self]
    exact same
  · rw [Function.update_of_ne mine]

theorem destroyValue (s : State) (result : Result) (task : Task) :
    Handles s (s.destroyValue result) task := by
  unfold State.destroyValue
  split <;> exact still rfl rfl rfl

theorem unref (s : State) (f : FutureId) (task : Task) : Handles s (s.unref f) task := by
  simp only [State.unref]
  split
  · refine of_moved ?_ ?_ ?_
    · unfold State.destroyValue
      split <;> rfl
    · unfold State.destroyValue
      split <;> rfl
    · simp only [State.futures_destroyValue]
      exact fun g => moved_setFuture (by rfl) g
  · exact of_moved rfl rfl fun g => moved_setFuture (by rfl) g

theorem dropNode {before : State} (f : FutureId) (references : Nat)
    (handles : Handles s before task) : Handles s (before.dropNode f references) task := by
  simp only [State.dropNode]
  split
  · exact ⟨handles.clients, handles.dead, handles.fulfilled, handles.moved, handles.zips⟩
  · exact ⟨handles.clients, handles.dead, handles.fulfilled, handles.moved, handles.zips⟩

theorem runContinuation (s : State) (f : FutureId) (continuation : Continuation) :
    Handles s (Operator.runContinuation s f continuation) (.run f continuation) := by
  cases continuation with
  | group kind out =>
      cases kind with
      | all =>
          simp only [Operator.runContinuation]
          split <;> exact still rfl rfl rfl
      | any =>
          simp only [Operator.runContinuation]
          split
          · exact still rfl rfl rfl
          · split
            · exact still rfl rfl rfl
            · exact of_moved rfl rfl fun g => moved_setFuture (by rfl) g
  | zip out isSecond =>
      have others (zip : Zip) (tasks : List Task) :
          Handles s ((s.setZip out zip).push tasks) (.run f (.zip out isSecond)) := by
        refine ⟨fun _ _ => id, fun _ _ => id, fun _ => .inl, fun _ => .inl, ?_⟩
        intro other _ apart
        have mine : other ≠ out := by
          rintro rfl
          exact apart f isSecond rfl
        simp only [State.push, State.setZip, Function.update_of_ne mine]
      simp only [Operator.runContinuation]
      split
      · exact others _ _
      · exact others _ []
  | observe | moveChain out => exact still rfl rfl rfl
  | map out freeValue | flatMap out token | onError out | doOnSuccess out =>
      simp only [Operator.runContinuation]
      split <;> exact still rfl rfl rfl

/-- A promise is marked. -/
theorem promise {f : FutureId} {promise : Promise} {tasks : List Task}
    (client : promise.isClient = true -> (s.promises f).isClient = true)
    (dead : (s.promises f).isLive = false -> promise.isLive = false)
    (marks : promise.isFulfilled = true -> (s.promises f).isFulfilled = true ∨
      (Exists fun result => task = .setResult f result) ∨ task = .destroyPromise f) :
    Handles s ((s.setPromise f promise).push tasks) task := by
  have cases (g : FutureId) : g = f ∧
      ((s.setPromise f promise).push tasks).promises g = promise ∨
        ((s.setPromise f promise).push tasks).promises g = s.promises g := by
    by_cases mine : g = f
    · subst g
      exact .inl ⟨rfl, by simp [State.push, State.setPromise]⟩
    · exact .inr (by simp [State.push, State.setPromise, Function.update_of_ne mine])
  refine ⟨?_, ?_, ?_, fun _ => .inl, fun _ _ _ => rfl⟩
  · intro g _
    rcases cases g with ⟨rfl, same⟩ | same <;> rw [same]
    · exact client
    · exact id
  · intro g _
    rcases cases g with ⟨rfl, same⟩ | same <;> rw [same]
    · exact dead
    · exact id
  · intro g
    rcases cases g with ⟨rfl, same⟩ | same <;> rw [same]
    · exact marks
    · exact .inl

/-- The promise is destroyed, and what is done after that leaves promises alone. -/
theorem releasePromise (s : State) (f : FutureId) :
    Handles s (Operator.perform s (.releasePromise f)) (.releasePromise f) := by
  have marked : Handles s ((s.setPromise f { s.promises f with isLive := false }).push [])
      (.releasePromise f) := promise id (fun _ => rfl) .inl
  have dropped := unref (s.setPromise f { s.promises f with isLive := false }) f
    (.releasePromise f)
  refine ⟨?_, ?_, ?_, dropped.moved, dropped.zips⟩
  · exact fun g inside client => marked.clients g inside (dropped.clients g inside client)
  · exact fun g inside before => dropped.dead g inside (marked.dead g inside before)
  · intro g after
    rcases dropped.fulfilled g after with before | set | same
    · exact marked.fulfilled g before
    · exact .inr (.inl set)
    · cases same

theorem perform (s : State) (task : Task) : Handles s (Operator.perform s task) task := by
  cases task with
  | setResult f result =>
      simp only [Operator.perform]
      split
      · exact destroyValue s result _
      · exact promise id id fun _ => .inr (.inl ⟨result, rfl⟩)
  | destroyPromise f =>
      simp only [Operator.perform]
      split
      · exact still rfl rfl rfl
      · exact promise id id fun _ => .inr (.inr rfl)
  | releasePromise f => exact releasePromise s f
  | complete f result =>
      simp only [Operator.perform]
      split
      · exact destroyValue s result _
      · exact of_moved rfl rfl fun g => moved_setFuture (by rfl) g
  | drain f => exact of_moved rfl rfl fun g => moved_setFuture (by rfl) g
  | run f continuation => exact runContinuation s f continuation
  | zero f =>
      refine ⟨fun _ _ => id, fun _ _ => id, fun _ => .inl, ?_, fun _ _ _ => rfl⟩
      intro g moved
      by_cases mine : g = f
      · exact .inr (by rw [mine])
      · simp only [Operator.perform, State.setFuture, Function.update_of_ne mine] at moved
        exact .inl moved
  | release f => exact unref s f _
  | unregister f =>
      simp only [Operator.perform]
      split <;> exact dropNode f _ (still rfl rfl rfl)
  | dropNode f => exact dropNode f _ (still rfl rfl rfl)
  | attach f token =>
      simp only [Operator.perform]
      split
      · exact still rfl rfl rfl
      · split <;> exact of_moved rfl rfl fun g => moved_setFuture (by rfl) g
  | attached f =>
      simp only [Operator.perform]
      split
      · exact still rfl rfl rfl
      · exact of_moved rfl rfl fun g => moved_setFuture (by rfl) g
  | register f continuation =>
      simp only [Operator.perform]
      split <;> exact still rfl rfl rfl
  | claimInner out f | claimInput f out =>
      simp only [Operator.perform]
      split
      · exact still rfl rfl rfl
      · exact of_moved rfl rfl fun g => moved_setFuture (by rfl) g
  | inherit f out =>
      simp only [Operator.perform]
      split <;> exact still rfl rfl rfl
  | loop kind out entries =>
      cases entries with
      | nil => exact still rfl rfl rfl
      | cons entry entries =>
          cases entry with
          | some f => exact still rfl rfl rfl
          | none =>
              cases kind with
              | any => exact still rfl rfl rfl
              | all =>
                  simp only [Operator.perform, visit]
                  split <;> exact still rfl rfl rfl
  | subtract kind out refused =>
      simp only [Operator.perform]
      split
      · split <;> exact still rfl rfl rfl
      · exact still rfl rfl rfl
  | zipComplete out first second =>
      simp only [Operator.perform]
      split <;> exact still rfl rfl rfl
  | deliver out | callback callback | leave arguments | leaveSet f => exact still rfl rfl rfl

end Handles

/-! ## One step -/

theorem count_unref (s : State) (f : FutureId) : (s.unref f).count = s.count := by
  simp only [State.unref]
  split
  · exact State.count_destroyValue _ _
  · rfl

theorem count_perform (s : State) (task : Task) : (perform s task).count = s.count := by
  cases task with
  | setResult f result | complete f result =>
      simp only [perform]
      split
      · exact State.count_destroyValue s result
      · rfl
  | releasePromise f | release f => exact count_unref _ f
  | run f continuation =>
      cases continuation with
      | group kind out =>
          cases kind <;> simp only [perform, runContinuation] <;> split
          · rfl
          · rfl
          · rfl
          · split <;> rfl
      | observe | moveChain out => rfl
      | map out freeValue | flatMap out token | onError out | doOnSuccess out | zip out isSecond =>
          simp only [perform, runContinuation]
          split <;> rfl
  | unregister f =>
      simp only [perform, State.dropNode]
      split <;> split <;> rfl
  | dropNode f =>
      simp only [perform, State.dropNode]
      split <;> rfl
  | attach f token =>
      simp only [perform]
      split
      · rfl
      · split <;> rfl
  | subtract kind out refused =>
      simp only [perform]
      split
      · split <;> rfl
      · rfl
  | loop kind out entries =>
      cases entries with
      | nil => rfl
      | cons entry entries =>
          cases entry with
          | some f => rfl
          | none =>
              cases kind with
              | any => rfl
              | all =>
                  simp only [perform, visit]
                  split <;> rfl
  | destroyPromise f | attached f | register f continuation | claimInner out f | claimInput f out
  | inherit f out | zipComplete out first second =>
      simp only [perform]
      split <;> rfl
  | drain f | zero f | deliver out | callback client | leave arguments | leaveSet f => rfl

/-- A report to a context is stored beside its inputs. -/
theorem input_perform (s : State) (task : Task) (out : FutureId) (isSecond : Bool)
    (inside : out < s.count) :
    ((perform s task).zips out).input isSecond = (s.zips out).input isSecond := by
  by_cases stores : Exists fun f => Exists fun side => task = .run f (.zip out side)
  · rcases stores with ⟨f, side, rfl⟩
    simp only [perform, runContinuation]
    split <;> cases side <;> simp [State.push, State.setZip, Zip.input]
  · rw [(Handles.perform s task).zips out inside]
    exact fun f side same => stores ⟨f, side, same⟩

/-- A step completes a future only with the result that its task has. -/
theorem completed_perform {s : State} {task : Task} (sound : Sound (s.push [task]))
    (recorded : Recorded ∅ (s.push [task])) (later : Sound (perform s task)) (f : FutureId) :
    ((perform s task).futures f).completed = (s.futures f).completed ∨
      (s.futures f).completed = none ∧ Exists fun result => task = .complete f result ∧
        ((perform s task).futures f).completed = some result := by
  by_cases inside : f < s.count
  · rcases (Spares.perform s task).ended f inside with same | ⟨pending, result, rfl, ending⟩
    · exact .inl (congrArg Prod.snd same)
    · have record : (s.futures f).isCompleted = (s.futures f).completed.isSome :=
        recorded.record f
      rw [pending] at record
      exact .inr ⟨Option.not_isSome_iff_eq_none.mp (by rw [<- record]; decide), result, rfl,
        congrArg Prod.snd ending⟩
  · have outside := Nat.le_of_not_lt inside
    have before : s.futures f = start.futures f := (sound.fresh f outside).cell
    rw [before, (later.fresh f ((count_perform s task).symm ▸ outside)).cell]
    exact .inl rfl

/-! ## What takes the place of a task -/

/-- What may follow when a continuation has run. -/
def Continuation.Yields (s : State) (f : FutureId) (other : Task) : Continuation -> Prop
  | observe => other = .callback (.observer f)
  | map out freeValue => other ∈ finish out (.ofError (s.futures f).result.error) ∨
      other = .callback (.mapper f out freeValue)
  | flatMap out token => other ∈ finish out (.ofError (s.futures f).result.error) ∨
      other = .callback (.flatMapper f out token)
  | onError out => other = .callback (.recovery f out) ∨ other = .claimInput f out
  | doOnSuccess out => other = .callback (.action f out) ∨ other = .claimInput f out
  | moveChain out => other ∈ finish out (s.futures f).result ∨ other = .zero f
  | group .all out => other ∈ finish out (.ofError (s.futures f).result.error) ∨
      other = .subtract .all out false
  | group .any out => other ∈ finish out (.ofError einval) ∨
      other ∈ finish out (s.futures f).result ∨ other = .zero f ∨ other = .subtract .any out false
  | zip out _ => other = .zipComplete out (s.zips out).firstFuture (s.zips out).secondFuture

/-- What may follow from a task. -/
def Task.Yields (s : State) : Task -> Task -> Prop
  | setResult f result, other => other = .complete f result
  | destroyPromise f, other => other = .complete f (.ofError epipe) ∨ other = .releasePromise f
  | complete f _, other => other = .unregister f ∨ other = .drain f
  | drain f, other => Exists fun continuation =>
      (f, continuation) ∈ s.waiting ∧ other = .run f continuation
  | run f continuation, other => continuation.Yields s f other
  | unregister f, other | dropNode f, other => other = .release f
  | attach f _, other => other = .complete f (.ofError ecanceled) ∨ other = .attached f
  | attached f, other => other = .unregister f
  | register f continuation, other => other = .run f continuation
  | claimInner out inner, other => other ∈ finish out (.ofError einval) ∨ other = .release inner ∨
      other = .register inner (.moveChain out)
  | claimInput f out, other => other ∈ finish out (.ofError einval) ∨
      other ∈ finish out (s.futures f).result ∨ other = .zero f
  | inherit _ out, other => Exists fun token => other = .attach out token
  | loop kind out entries, other =>
      (Exists fun f => some f ∈ entries ∧ other = .register f (.group kind out)) ∨
        other = .loop kind out entries.tail ∨ other ∈ finish out (.ofError einval) ∨
          other = .subtract kind out true
  | subtract _ out _, other => other ∈ finish out .zero ∨ other ∈ finish out (.ofError einval)
  | zipComplete out first second, other =>
      (Exists fun error => other ∈ zipFinish out first second (.ofError error)) ∨
        other = .callback (.zipper out first second)
  | releasePromise _, _ | zero _, _ | release _, _ | deliver _, _ | callback _, _ | leave _, _
  | leaveSet _, _ => False

theorem yields_run (s : State) (f : FutureId) (continuation : Continuation) :
    Exists fun new => (runContinuation s f continuation).stack = new ++ s.stack ∧
      forall other, other ∈ new -> continuation.Yields s f other := by
  cases continuation with
  | observe | moveChain out => exact ⟨_, rfl, by simp [Continuation.Yields]⟩
  | map out freeValue | flatMap out token | onError out | doOnSuccess out =>
      simp only [runContinuation]
      split <;> exact ⟨_, rfl, by simp +contextual [Continuation.Yields]⟩
  | group kind out =>
      cases kind with
      | all =>
          simp only [runContinuation]
          split <;> exact ⟨_, rfl, by simp +contextual [Continuation.Yields]⟩
      | any =>
          simp only [runContinuation]
          split
          · exact ⟨_, rfl, by simp [Continuation.Yields]⟩
          · split <;> exact ⟨_, rfl, by simp [Continuation.Yields]; tauto⟩
  | zip out isSecond =>
      simp only [runContinuation]
      split
      · exact ⟨_, rfl, by simp [Continuation.Yields]⟩
      · exact ⟨[], rfl, by simp⟩

theorem yields_dropNode (s : State) (f : FutureId) (references : Nat) :
    Exists fun new => (s.dropNode f references).stack = new ++ s.stack ∧
      forall other, other ∈ new -> other = .release f := by
  simp only [State.dropNode]
  split
  · exact ⟨_, rfl, by simp⟩
  · exact ⟨[], rfl, by simp⟩

/-- The first task is replaced by some that may follow from it. -/
theorem yields_perform (s : State) (task : Task) :
    Exists fun new => (perform s task).stack = new ++ s.stack ∧
      forall other, other ∈ new -> task.Yields s other := by
  cases task with
  | setResult f result =>
      simp only [perform]
      split
      · exact ⟨[], by simp [State.stack_destroyValue], by simp⟩
      · exact ⟨_, rfl, by simp [Task.Yields]⟩
  | destroyPromise f =>
      simp only [perform]
      split <;> exact ⟨_, rfl, by simp +contextual [Task.Yields]⟩
  | releasePromise f => exact ⟨[], Guarded.stack_unref _ f, by simp⟩
  | complete f result =>
      simp only [perform]
      split
      · exact ⟨[], by simp [State.stack_destroyValue], by simp⟩
      · refine ⟨_, rfl, ?_⟩
        split <;> simp [Task.Yields]
  | drain f =>
      refine ⟨_, rfl, ?_⟩
      intro other mem
      rcases List.mem_map.mp mem with ⟨⟨g, continuation⟩, waits, rfl⟩
      rcases List.mem_filter.mp waits with ⟨before, here⟩
      have same : g = f := of_decide_eq_true here
      exact ⟨continuation, same ▸ before, rfl⟩
  | run f continuation => exact yields_run s f continuation
  | release f => exact ⟨[], Guarded.stack_unref s f, by simp⟩
  | unregister f =>
      simp only [perform]
      split
      · exact yields_dropNode (s.setToken _ _) f 2
      · exact yields_dropNode s f 1
  | dropNode f => exact yields_dropNode s f 1
  | attach f t =>
      simp only [perform]
      split
      · exact ⟨[], rfl, by simp⟩
      · split <;> exact ⟨_, rfl, by simp [Task.Yields]⟩
  | attached f =>
      simp only [perform]
      split
      · exact ⟨_, rfl, by simp [Task.Yields]⟩
      · exact ⟨[], rfl, by simp⟩
  | register f continuation =>
      simp only [perform]
      split
      · exact ⟨_, rfl, by simp [Task.Yields]⟩
      · exact ⟨[], rfl, by simp⟩
  | claimInner out inner =>
      simp only [perform]
      split
      · exact ⟨_, rfl, by simp [Task.Yields]; tauto⟩
      · exact ⟨_, rfl, by simp [Task.Yields]⟩
  | claimInput f out =>
      simp only [perform]
      split
      · exact ⟨_, rfl, by simp [Task.Yields]; tauto⟩
      · exact ⟨_, rfl, by simp [Task.Yields]; tauto⟩
  | inherit f out =>
      simp only [perform]
      split
      · exact ⟨_, rfl, by simp [Task.Yields]⟩
      · exact ⟨[], rfl, by simp⟩
  | loop kind out entries =>
      cases entries with
      | nil => exact ⟨[], rfl, by simp⟩
      | cons entry entries =>
          cases entry with
          | some f => exact ⟨[.register f (.group kind out), .loop kind out entries], rfl,
              by simp [Task.Yields]⟩
          | none =>
              cases kind with
              | all =>
                  simp only [perform, visit]
                  split
                  · exact ⟨[.subtract .all out true, .loop .all out entries], rfl,
                      by simp [Task.Yields]⟩
                  · exact ⟨finish out (.ofError einval) ++
                      [.subtract .all out true, .loop .all out entries], rfl,
                      by simp [Task.Yields]; tauto⟩
              | any => exact ⟨[.subtract .any out true, .loop .any out entries], rfl,
                  by simp [Task.Yields]⟩
  | subtract kind out refused =>
      simp only [perform]
      split
      · split
        · exact ⟨_, rfl, by simp +contextual [Task.Yields]⟩
        · exact ⟨_, rfl, by simp +contextual [Task.Yields]⟩
        · exact ⟨[], rfl, by simp⟩
      · exact ⟨[], rfl, by simp⟩
  | zipComplete out first second =>
      simp only [perform]
      split
      · exact ⟨_, rfl, fun other mem => .inl ⟨_, mem⟩⟩
      · exact ⟨_, rfl, by simp [Task.Yields]⟩
  | zero f | deliver out | callback client | leave arguments | leaveSet f =>
      exact ⟨[], rfl, by simp⟩

/-! ## One answer -/

/-- A callback that returns leaves memory alone. -/
theorem still_afterCallback (s : State) (callback : Callback) (reply : Reply) :
    (afterCallback s callback reply).count = s.count ∧
      (afterCallback s callback reply).promises = s.promises ∧
        (afterCallback s callback reply).zips = s.zips ∧
          (afterCallback s callback reply).waiting = s.waiting := by
  have given (result : Result) (tasks : List Task) :
      ((s.give result).push tasks).count = s.count ∧
        ((s.give result).push tasks).promises = s.promises ∧
          ((s.give result).push tasks).zips = s.zips ∧
            ((s.give result).push tasks).waiting = s.waiting :=
    ⟨State.count_give s result, Spares.promises_give s result, State.zips_give s result,
      State.waiting_give s result⟩
  cases callback with
  | observer g | action g out | cancelled => exact ⟨rfl, rfl, rfl, rfl⟩
  | mapper g out freeValue | zipper out first second =>
      cases reply with
      | value value => exact given _ _
      | _ => exact ⟨rfl, rfl, rfl, rfl⟩
  | flatMapper g out token =>
      cases reply with
      | future inner => cases inner <;> cases token <;> exact ⟨rfl, rfl, rfl, rfl⟩
      | _ => cases token <;> exact ⟨rfl, rfl, rfl, rfl⟩
  | recovery g out =>
      cases reply with
      | future inner => cases inner <;> exact ⟨rfl, rfl, rfl, rfl⟩
      | _ => exact ⟨rfl, rfl, rfl, rfl⟩

/-! ## One call -/

theorem waiting_enter (s : State) (api : Api) : (enter s api).waiting = s.waiting := by
  cases api with
  | fromResult result | setResult f result =>
      simp [enter, State.push, State.create, State.waiting_give]
  | get f | group kind entries | cancel token | registerCallback token =>
      simp only [enter]
      split <;> rfl
  | _ => rfl

theorem zips_enter (s : State) (api : Api) {out : FutureId} (inside : out < s.count) :
    (enter s api).zips out = s.zips out := by
  have other : out ≠ s.count := Nat.ne_of_lt inside
  cases api with
  | fromResult result | setResult f result =>
      simp [enter, State.push, State.create, State.zips_give]
  | get f | group kind entries | cancel token | registerCallback token =>
      simp only [enter]
      split <;> rfl
  | zip first second freeValue =>
      simp only [enter, State.push, State.retain, State.setFuture, State.setZip,
        Function.update_of_ne other]
      rfl
  | _ => rfl

namespace Handles

variable {s after : State}

/-- A future is made for a promise that nobody has set. -/
theorem created (isClient : Bool) (promises : after.promises = (s.create isClient).promises)
    (zips : forall out, out < s.count -> after.zips out = s.zips out)
    (moved : forall f, (after.futures f).isMoved = (s.futures f).isMoved) :
    Handles s after (.leave []) := by
  refine ⟨?_, ?_, ?_, fun f before => .inl ((moved f).symm.trans before),
    fun out inside _ => zips out inside⟩
  · intro f inside
    rw [promises]
    simp only [State.create, Function.update_of_ne (Nat.ne_of_lt inside)]
    exact id
  · intro f inside
    rw [promises]
    simp only [State.create, Function.update_of_ne (Nat.ne_of_lt inside)]
    exact id
  · intro f
    rw [promises]
    simp only [State.create]
    grind

theorem enter (sound : Sound s) (api : Api) : Handles s (Operator.enter s api) (.leave []) := by
  have moved := fun f => view_enter Cell.isMoved sound api (fun _ _ => rfl) (fun _ _ => rfl) f
  have zips : forall out, out < s.count -> (Operator.enter s api).zips out = s.zips out :=
    fun _ inside => zips_enter s api inside
  cases api with
  | create | map f freeValue | flatMap f | onError f | doOnSuccess f | zip first second freeValue =>
      exact created _ rfl zips moved
  | fromResult result =>
      refine created false ?_ zips moved
      exact Spares.promises_give (s.create false) result
  | group kind entries =>
      refine created false ?_ zips moved
      simp only [Operator.enter]
      split <;> rfl
  | destroy f =>
      have marked : Handles s ((s.setPromise f { s.promises f with isClient := false }).push
          [.destroyPromise f]) (.leave []) := promise (by simp) id .inl
      exact marked
  | setResult f result =>
      exact of_moved (Spares.promises_give s result) (State.zips_give s result) moved
  | get f | cancel token | registerCallback token =>
      refine of_moved ?_ ?_ moved <;> simp only [Operator.enter] <;> split <;> rfl
  | _ => exact of_moved rfl rfl moved

end Handles

end Operator
end UfsrvRx
