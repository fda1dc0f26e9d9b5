import UfsrvRx.Operator.Reach

namespace UfsrvRx
namespace Operator

open Transition
open UfsrvRx.Future (Result ValueId epipe ecanceled einval)

/-!
# References to a future, and its memory when it is freed
-/

/-! ## The memory of a freed future -/

/-- Whatever a future's memory holds, the event does the same, and leaves it there. -/
def State.Ignores (s : State) (event : Event) (f : FutureId) : Prop :=
  forall cell, next (s.setFuture f cell) event = (next s event).setFuture f cell

section Commutes

variable (s : State) (g : FutureId) (cell : Cell)

@[simp] theorem setFuture_count : (s.setFuture g cell).count = s.count := rfl

@[simp] theorem setFuture_promises : (s.setFuture g cell).promises = s.promises := rfl

@[simp] theorem setFuture_nodes : (s.setFuture g cell).nodes = s.nodes := rfl

@[simp] theorem setFuture_groups : (s.setFuture g cell).groups = s.groups := rfl

@[simp] theorem setFuture_zips : (s.setFuture g cell).zips = s.zips := rfl

@[simp] theorem setFuture_tokens : (s.setFuture g cell).tokens = s.tokens := rfl

@[simp] theorem setFuture_clientRefs : (s.setFuture g cell).clientRefs = s.clientRefs := rfl

@[simp] theorem push_setFuture (tasks : List Task) :
    (s.setFuture g cell).push tasks = (s.push tasks).setFuture g cell := rfl

@[simp] theorem setPromise_setFuture (f : FutureId) (promise : Promise) :
    (s.setFuture g cell).setPromise f promise = (s.setPromise f promise).setFuture g cell := rfl

@[simp] theorem fulfil_setFuture (f : FutureId) :
    (s.setFuture g cell).fulfil f = (s.fulfil f).setFuture g cell := rfl

@[simp] theorem setNode_setFuture (f : FutureId) (node : Node) :
    (s.setFuture g cell).setNode f node = (s.setNode f node).setFuture g cell := rfl

@[simp] theorem setGroup_setFuture (out : FutureId) (group : Group) :
    (s.setFuture g cell).setGroup out group = (s.setGroup out group).setFuture g cell := rfl

@[simp] theorem setZip_setFuture (out : FutureId) (zip : Zip) :
    (s.setFuture g cell).setZip out zip = (s.setZip out zip).setFuture g cell := rfl

@[simp] theorem setToken_setFuture (token : TokenId) (other : Token) :
    (s.setFuture g cell).setToken token other = (s.setToken token other).setFuture g cell := rfl

@[simp] theorem setClientRefs_setFuture (f : FutureId) (references : Nat) :
    (s.setFuture g cell).setClientRefs f references =
      (s.setClientRefs f references).setFuture g cell := rfl

@[simp] theorem give_setFuture (result : Result) :
    (s.setFuture g cell).give result = (s.give result).setFuture g cell := by
  unfold State.give
  split <;> rfl

@[simp] theorem destroyValue_setFuture (result : Result) :
    (s.setFuture g cell).destroyValue result = (s.destroyValue result).setFuture g cell := by
  unfold State.destroyValue
  split <;> rfl

@[simp] theorem dropNode_setFuture (f : FutureId) (references : Nat) :
    (s.setFuture g cell).dropNode f references = (s.dropNode f references).setFuture g cell := by
  by_cases last : (s.nodes f).refcount = references <;> simp [State.dropNode, last]

variable {g} {f : FutureId} (other : f ≠ g)

include other

theorem futures_setFuture : (s.setFuture g cell).futures f = s.futures f :=
  Function.update_of_ne other _ _

theorem setFuture_setFuture (first : Cell) :
    (s.setFuture g cell).setFuture f first = (s.setFuture f first).setFuture g cell := by
  simp only [State.setFuture, Function.update_comm other]

theorem consume_setFuture : (s.setFuture g cell).consume f = (s.consume f).setFuture g cell := by
  simp only [State.consume, futures_setFuture s cell other, setFuture_setFuture s cell other]

theorem retain_setFuture : (s.setFuture g cell).retain f = (s.retain f).setFuture g cell := by
  simp only [State.retain, futures_setFuture s cell other, setFuture_setFuture s cell other]

theorem unref_setFuture : (s.setFuture g cell).unref f = (s.unref f).setFuture g cell := by
  simp only [State.unref, futures_setFuture s cell other, setFuture_setFuture s cell other,
    destroyValue_setFuture]
  split <;> rfl

theorem runContinuation_setFuture (continuation : Continuation) :
    runContinuation (s.setFuture g cell) f continuation =
      (runContinuation s f continuation).setFuture g cell := by
  cases continuation with
  | observe => rfl
  | map out freeValue | flatMap out token | onError out | doOnSuccess out =>
      simp only [runContinuation, futures_setFuture s cell other]
      split <;> rfl
  | moveChain out => simp [runContinuation, futures_setFuture s cell other]
  | zip out isSecond =>
      by_cases last : (s.zips out).remaining = 1 <;>
        simp [runContinuation, futures_setFuture s cell other, last]
  | group kind out =>
      cases kind with
      | all =>
          by_cases fails : (s.futures f).result.error ≠ 0 ∧ (s.groups out).flag = false <;>
            simp [runContinuation, futures_setFuture s cell other, fails]
      | any =>
          cases flag : (s.groups out).flag <;> cases consumed : (s.futures f).isConsumed <;>
            simp [runContinuation, futures_setFuture s cell other, flag, consumed,
              consume_setFuture _ cell other]

end Commutes

/-- A task minds no other futures than those that are kept while it is performed. -/
theorem perform_setFuture {task : Task} {g : FutureId} (s : State) (cell : Cell)
    (touches : g ∉ task.touches) (anchors : ¬task.anchors g) :
    perform (s.setFuture g cell) task = (perform s task).setFuture g cell := by
  cases task with
  | setResult f result =>
      cases fulfilled : (s.promises f).isFulfilled <;> simp [perform, fulfilled]
  | destroyPromise f =>
      cases fulfilled : (s.promises f).isFulfilled <;> simp [perform, fulfilled]
  | releasePromise f =>
      have other : f ≠ g := fun here => anchors here
      simp [perform, unref_setFuture _ cell other]
  | release f =>
      have other : f ≠ g := fun here => anchors here
      simp [perform, unref_setFuture _ cell other]
  | complete f result =>
      have other : f ≠ g := by simpa [Task.touches, eq_comm] using touches
      simp only [perform, futures_setFuture s cell other]
      split <;> simp [setFuture_setFuture _ cell other]
  | drain f =>
      have other : f ≠ g := by simpa [Task.touches, eq_comm] using touches
      simp only [perform, futures_setFuture s cell other, setFuture_setFuture s cell other]
      rfl
  | run f continuation =>
      have other : f ≠ g := by simpa [Task.touches, eq_comm] using touches
      exact runContinuation_setFuture s cell other continuation
  | zero f =>
      have other : f ≠ g := by simpa [Task.touches, eq_comm] using touches
      simp [perform, futures_setFuture s cell other, setFuture_setFuture s cell other]
  | unregister f =>
      cases active : (s.nodes f).isActive <;> simp [perform, active]
  | attach f token =>
      have other : f ≠ g := by simpa [Task.touches, eq_comm] using touches
      by_cases ended : (s.futures f).isCompleted = true ∨ (s.futures f).cancelToken ≠ none
      · simp only [perform, futures_setFuture s cell other, if_pos ended]
      · cases cancelled : (s.tokens token).isCancelled <;>
          simp [perform, futures_setFuture s cell other, ended, cancelled,
            setFuture_setFuture _ cell other]
  | attached f =>
      have other : f ≠ g := fun here => anchors here
      simp only [perform, futures_setFuture s cell other]
      split <;> simp [setFuture_setFuture _ cell other]
  | dropNode f => exact dropNode_setFuture s g cell f 1
  | register f continuation =>
      have other : f ≠ g := by simpa [Task.touches, eq_comm] using touches
      simp only [perform, futures_setFuture s cell other]
      split <;> rfl
  | claimInner out inner =>
      have other : inner ≠ g := fun here => anchors here
      simp only [perform, futures_setFuture s cell other]
      split <;> simp [consume_setFuture _ cell other]
  | claimInput f out =>
      have other : f ≠ g := by simpa [Task.touches, eq_comm] using touches
      simp only [perform, futures_setFuture s cell other]
      split <;> simp [consume_setFuture _ cell other]
  | inherit f out =>
      have other : f ≠ g := by
        simp only [Task.touches, List.mem_cons, not_or] at touches
        exact Ne.symm touches.1
      simp only [perform, futures_setFuture s cell other]
      split <;> rfl
  | deliver out => rfl
  | loop kind out entries =>
      cases entries with
      | nil => rfl
      | cons entry entries =>
          cases entry with
          | some f => rfl
          | none =>
              cases kind with
              | any => rfl
              | all =>
                  simp only [perform, visit, push_setFuture, setFuture_groups, setGroup_setFuture]
                  exact (apply_ite (fun after => State.setFuture after g cell) _ _ _).symm
  | subtract kind out refused =>
      by_cases last : (s.groups out).remaining = 1 ∧ (s.groups out).flag = false
      · cases kind <;> cases refused <;> simp [perform, last]
      · simp [perform, last]
  | zipComplete out first second =>
      cases error : zipError (s.zips out) <;> simp [perform, error]
  | callback callback => rfl
  | leave arguments => rfl
  | leaveSet f => rfl

theorem enter_setFuture {api : Api} {g : FutureId} (s : State) (cell : Cell) (ok : Sound s)
    (freed : (s.futures g).refcount = 0) (inside : g < s.count) (allowed : permitted s api) :
    enter (s.setFuture g cell) api = (enter s api).setFuture g cell := by
  have held : forall f, 0 < s.clientRefs f -> f ≠ g := by
    rintro f client rfl
    exact absurd freed (Nat.ne_of_gt (ok.refcount_of_client client))
  have created : forall isClient, (s.setFuture g cell).create isClient =
      (s.create isClient).setFuture g cell := by
    intro isClient
    have other : s.count ≠ g := Nat.ne_of_gt inside
    simp only [State.create, State.setFuture, Function.update_comm other]
  have operators : forall f continuation, operator (s.setFuture g cell) f continuation =
      (operator s f continuation).setFuture g cell := by
    intro f continuation
    simp only [operator, created]
    rfl
  cases api with
  | create =>
      simp only [enter, created]
      rfl
  | fromResult result =>
      simp [enter, created]
  | setResult f result => simp [enter]
  | destroy f => simp [enter]
  | observe f => simp [enter]
  | get f =>
      have other := held f allowed
      simp only [enter, futures_setFuture s cell other, setFuture_setFuture s cell other]
      split <;> rfl
  | map f freeValue => exact operators f fun out => .map out freeValue
  | onError f => exact operators f .onError
  | doOnSuccess f => exact operators f .doOnSuccess
  | flatMap f =>
      have other := held f allowed
      simp only [enter, futures_setFuture s cell other]
      exact operators f fun out => .flatMap out (s.futures f).cancelToken
  | group kind entries =>
      simp only [enter, created]
      split <;> rfl
  | zip first second freeValue =>
      simp [enter, created, retain_setFuture _ cell (held first allowed.1),
        retain_setFuture _ cell (held second allowed.2)]
  | attach f token => simp [enter]
  | cancel token =>
      cases cancelled : (s.tokens token).isCancelled <;> simp [enter, cancelled]
      rfl
  | registerCallback token =>
      cases cancelled : (s.tokens token).isCancelled <;> simp [enter, cancelled]
  | unregisterCallback token index => simp [enter]
  | retain f =>
      have other := held f allowed
      simp [enter, retain_setFuture s cell other]
  | release f => simp [enter]

theorem afterCallback_setFuture {callback : Callback} {g : FutureId} (s : State) (reply : Reply)
    (cell : Cell) (touches : g ∉ callback.touches) :
    afterCallback (s.setFuture g cell) callback reply =
      (afterCallback s callback reply).setFuture g cell := by
  cases callback with
  | observer f | action f out | cancelled => rfl
  | mapper f out freeValue => cases reply <;> simp [afterCallback]
  | zipper out first second => cases reply <;> simp [afterCallback]
  | flatMapper f out token =>
      cases reply with
      | future inner => cases inner <;> cases token <;> simp [afterCallback]
      | _ => rfl
  | recovery f out =>
      have other : f ≠ g := by simpa [Callback.touches, eq_comm] using touches
      cases reply with
      | future inner => cases inner <;> simp [afterCallback, futures_setFuture s cell other]
      | _ => rfl

/-- The memory of a freed future is not used. -/
theorem Sound.ignores {s : State} {event : Event} {g : FutureId} (ok : Sound s)
    (enabled : enabled s event) (freed : 0 < (s.futures g).frees) : s.Ignores event g := by
  have gone : g < s.count ∧ (s.futures g).refcount = 0 := by
    have frees := ok.freed g
    by_contra there
    rw [if_neg there] at frees
    omega
  have unkept : ¬Kept s.stack g := by
    intro kept
    exact absurd gone.2 (Nat.ne_of_gt (ok.refcount_of_kept kept))
  intro cell
  cases event with
  | step =>
      rcases enabled with ⟨task, rest, stack, runs⟩
      have untouched : g ∉ task.touches := by
        intro touched
        have mem : task ∈ s.stack := by simp [stack]
        exact unkept (ok.anchored.kept mem touched)
      have unanchored : ¬task.anchors g := by
        intro anchors
        rw [stack] at unkept
        exact unkept (.head anchors)
      have same := perform_setFuture { s with stack := rest } cell untouched unanchored
      have stepped : Operator.next (s.setFuture g cell) .step =
          Operator.perform (({ s with stack := rest } : State).setFuture g cell) task := by
        have top : (s.setFuture g cell).stack = task :: rest := stack
        simp only [Operator.next, top]
        rfl
      rw [stepped, same]
      simp only [Operator.next, stack]
  | call api => exact enter_setFuture s cell ok gone.2 gone.1 enabled.2
  | answer reply =>
      rcases enabled with ⟨callback, rest, stack, replied⟩
      have untouched : g ∉ callback.touches := by
        intro touched
        have mem : .callback callback ∈ s.stack := by simp [stack]
        exact unkept (ok.anchored.kept mem touched)
      have same := afterCallback_setFuture { s with stack := rest } reply cell untouched
      have stepped : Operator.next (s.setFuture g cell) (.answer reply) =
          afterCallback (({ s with stack := rest } : State).setFuture g cell) callback reply := by
        have top : (s.setFuture g cell).stack = .callback callback :: rest := stack
        simp only [Operator.next, top]
        rfl
      rw [stepped, same]
      simp only [Operator.next, stack]
  | resume f | abandon f => rfl

/-! ## The end of a future -/

/-- What happens to a future that is not freed: it stays completed, and it keeps its token. -/
structure Cell.Steady (cell after : Cell) : Prop where
  frees : after.frees = cell.frees
  completed : cell.isCompleted = true -> after.isCompleted = true
  token : cell.cancelToken ≠ none -> after.cancelToken = cell.cancelToken

theorem Cell.Steady.refl (cell : Cell) : cell.Steady cell := ⟨rfl, id, fun _ => rfl⟩

theorem steady_setFuture (s : State) {g : FutureId} {cell : Cell} (f : FutureId)
    (steady : (s.futures g).Steady cell) :
    (s.futures f).Steady ((s.setFuture g cell).futures f) := by
  simp only [State.setFuture]
  by_cases same : f = g
  · subst same
    rw [Function.update_self]
    exact steady
  · rw [Function.update_of_ne same]
    exact .refl _

theorem steady_unref (s : State) (g f : FutureId) :
    (s.futures f).Steady ((s.unref g).futures f) ∨ g = f ∧ (s.futures f).refcount = 1 := by
  by_cases same : g = f
  · subst same
    by_cases one : (s.futures g).refcount = 1
    · exact .inr ⟨rfl, one⟩
    · refine .inl ?_
      simp only [State.unref, if_neg one]
      exact steady_setFuture s g ⟨rfl, id, fun _ => rfl⟩
  · refine .inl ?_
    have others : (s.unref g).futures f = s.futures f := by
      simp only [State.unref]
      split
      · simp only [State.futures_destroyValue, State.setFuture]
        rw [Function.update_of_ne (Ne.symm same)]
      · simp only [State.setFuture]
        rw [Function.update_of_ne (Ne.symm same)]
    rw [others]
    exact .refl _

theorem steady_dropNode (s : State) (g f : FutureId) (references : Nat) :
    (s.futures f).Steady ((s.dropNode g references).futures f) := by
  simp only [State.dropNode]
  split <;> exact .refl _

theorem steady_runContinuation (s : State) (g f : FutureId) (continuation : Continuation) :
    (s.futures f).Steady ((runContinuation s g continuation).futures f) := by
  cases continuation with
  | group kind out =>
      cases kind with
      | all =>
          simp only [runContinuation]
          split <;> exact .refl _
      | any =>
          simp only [runContinuation]
          split
          · exact .refl _
          · split
            · exact .refl _
            · exact steady_setFuture s f ⟨rfl, id, fun _ => rfl⟩
  | zip out isSecond =>
      simp only [runContinuation]
      split <;> exact .refl _
  | observe | moveChain out => exact .refl _
  | map out freeValue | flatMap out token | onError out | doOnSuccess out =>
      simp only [runContinuation]
      split <;> exact .refl _

/-- Nothing but the last release frees a future. -/
theorem steady_perform (s : State) (task : Task) (f : FutureId) :
    (s.futures f).Steady ((perform s task).futures f) ∨
      (task = .release f ∨ task = .releasePromise f) ∧ (s.futures f).refcount = 1 := by
  cases task with
  | release g =>
      refine (steady_unref s g f).imp_right ?_
      rintro ⟨rfl, one⟩
      exact ⟨.inl rfl, one⟩
  | releasePromise g =>
      let dead := s.setPromise g { s.promises g with isLive := false }
      refine (steady_unref dead g f).imp_right ?_
      rintro ⟨rfl, one⟩
      exact ⟨.inr rfl, one⟩
  | setResult g result =>
      refine .inl ?_
      simp only [perform]
      split
      · rw [State.futures_destroyValue]
        exact .refl _
      · exact .refl _
  | complete g result =>
      refine .inl ?_
      simp only [perform]
      split
      · rw [State.futures_destroyValue]
        exact .refl _
      · exact steady_setFuture s f ⟨rfl, fun _ => rfl, fun _ => rfl⟩
  | run g continuation => exact .inl (steady_runContinuation s g f continuation)
  | unregister g =>
      refine .inl ?_
      simp only [perform]
      split
      · exact steady_dropNode (s.setToken _ _) g f 2
      · exact steady_dropNode s g f 1
  | dropNode g => exact .inl (steady_dropNode s g f 1)
  | drain g | zero g => exact .inl (steady_setFuture s f ⟨rfl, id, fun _ => rfl⟩)
  | attached g | claimInner out g | claimInput g out =>
      refine .inl ?_
      simp only [perform]
      split
      · exact .refl _
      · exact steady_setFuture s f ⟨rfl, id, fun _ => rfl⟩
  | attach g token =>
      refine .inl ?_
      simp only [perform]
      split
      · exact .refl _
      · rename_i free
        have unattached : ¬(s.futures g).cancelToken ≠ none := fun attached => free (.inr attached)
        split <;> exact steady_setFuture s f ⟨rfl, id, fun attached => absurd attached unattached⟩
  | destroyPromise g | register g continuation | inherit g out
  | zipComplete out first second =>
      refine .inl ?_
      simp only [perform]
      split <;> exact .refl _
  | subtract kind out refused =>
      refine .inl ?_
      simp only [perform]
      split
      · split <;> exact .refl _
      · exact .refl _
  | loop kind out entries =>
      refine .inl ?_
      cases entries with
      | nil => exact .refl _
      | cons entry entries =>
          cases entry with
          | some g => exact .refl _
          | none =>
              cases kind with
              | any => exact .refl _
              | all =>
                  simp only [perform, visit]
                  split <;> exact .refl _
  | deliver out | callback callback | leave arguments | leaveSet g => exact .inl (.refl _)

/-- A call of the client changes counts of the futures that there are, and nothing else. -/
theorem view_enter {s : State} {View : Type} (view : Cell -> View) (ok : Sound s) (api : Api)
    (refcount : forall cell references, view { cell with refcount := references } = view cell)
    (waiters : forall cell others, view { cell with waiters := others } = view cell)
    (f : FutureId) : view ((enter s api).futures f) = view (s.futures f) := by
  have create (isClient : Bool) : view ((s.create isClient).futures f) = view (s.futures f) := by
    by_cases here : f = s.count
    · subst f
      rw [(ok.fresh s.count (Nat.le_refl _)).cell]
      simp only [State.create, Function.update_self]
      exact refcount (start.futures s.count) 2
    · simp only [State.create, Function.update_of_ne here]
  have retain (s : State) (g : FutureId) : view ((s.retain g).futures f) = view (s.futures f) := by
    by_cases here : f = g
    · subst f
      simp only [State.retain, State.setFuture, Function.update_self]
      exact refcount _ _
    · simp only [State.retain, State.setFuture, Function.update_of_ne here]
  cases api with
  | create => exact create true
  | map g freeValue | flatMap g | onError g | doOnSuccess g => exact create false
  | fromResult result =>
      simp only [enter]
      change view (((s.create false).give result).futures f) = _
      rw [State.futures_give]
      exact create false
  | setResult g result =>
      simp only [enter]
      change view ((s.give result).futures f) = _
      rw [State.futures_give]
  | group kind entries =>
      simp only [enter]
      split <;> exact create false
  | zip first second freeValue =>
      exact (retain _ second).trans ((retain _ first).trans (create false))
  | get g =>
      simp only [enter]
      split
      · rfl
      · by_cases here : f = g
        · subst f
          simp only [State.setFuture, Function.update_self]
          exact waiters _ _
        · simp only [State.setFuture, Function.update_of_ne here]
  | retain g => exact retain s g
  | cancel token | registerCallback token =>
      simp only [enter]
      split <;> rfl
  | destroy g | observe g | attach g token | unregisterCallback token index | release g => rfl

theorem futures_afterCallback (s : State) (callback : Callback) (reply : Reply) :
    (afterCallback s callback reply).futures = s.futures := by
  have given (result : Result) (tasks : List Task) :
      ((s.give result).push tasks).futures = s.futures :=
    State.futures_give s result
  cases callback with
  | observer g | action g out | cancelled => rfl
  | mapper g out freeValue | zipper out first second =>
      cases reply with
      | value value => exact given _ _
      | _ => rfl
  | flatMapper g out token =>
      cases reply with
      | future inner => cases inner <;> cases token <;> rfl
      | _ => cases token <;> rfl
  | recovery g out =>
      cases reply with
      | future inner => cases inner <;> rfl
      | _ => rfl

/-- The future is completed, and nothing is left on its two stacks. -/
def State.Over (s : State) (f : FutureId) : Prop :=
  (s.futures f).isCompleted = true ∧ (s.futures f).isClosed = true ∧
    (s.futures f).waiters = 0 ∧ forall continuation, (f, continuation) ∉ s.waiting

/-- The task that frees a future finds it completed, with both stacks closed and empty. -/
theorem Sound.last_task {s : State} {task : Task} {f : FutureId} (ok : Sound (s.push [task]))
    (frees : task = .release f ∨ task = .releasePromise f) (one : (s.futures f).refcount = 1) :
    s.Over f := by
  rcases frees with rfl | rfl
  · have last := ok.last one
    exact ⟨last.completed, last.closed, last.idle, fun continuation mem =>
      last.waits _ mem rfl⟩
  · have last := ok.endPromise.last one
    exact ⟨last.completed, last.closed, last.idle, fun continuation mem =>
      last.waits _ mem rfl⟩

/-- The step that frees a future finds it completed, with both stacks closed and empty. -/
theorem Sound.ends {s : State} {event : Event} {f : FutureId} (ok : Sound s)
    (enabled : enabled s event)
    (changed : ((Operator.next s event).futures f).frees ≠ (s.futures f).frees) : s.Over f := by
  cases event with
  | step =>
      rcases enabled with ⟨task, rest, stack, runs⟩
      have pushed : ({ s with stack := rest } : State).push [task] = s := by
        simp only [State.push, List.cons_append, List.nil_append, <- stack]
      simp only [Operator.next, stack] at changed
      have whole : Sound (({ s with stack := rest } : State).push [task]) := pushed ▸ ok
      rcases steady_perform { s with stack := rest } task f with steady | ⟨frees, one⟩
      · exact absurd steady.frees changed
      · exact whole.last_task frees one
  | call api => exact absurd (view_enter Cell.frees ok api (fun _ _ => rfl) (fun _ _ => rfl) f) changed
  | answer reply =>
      rcases enabled with ⟨callback, rest, stack, replied⟩
      simp only [Operator.next, stack] at changed
      rw [futures_afterCallback] at changed
      exact absurd rfl changed
  | resume g | abandon g => exact absurd rfl changed

/-! ## The accounting -/

/-- Between calls the count of a future is that of its references.  It is freed once, by the
step that takes the count to zero; then it is over, and nothing uses its memory any more. -/
structure Accounting (s : State) : Prop where
  counted : s.stack = [] -> forall f, (s.futures f).refcount = s.outstanding f
  freed : forall f, (s.futures f).frees =
    if f < s.count ∧ (s.futures f).refcount = 0 then 1 else 0
  ends : forall event f, enabled s event ->
    ((next s event).futures f).frees ≠ (s.futures f).frees -> s.Over f
  unused : forall event f, enabled s event -> 0 < (s.futures f).frees -> s.Ignores event f

theorem referenceAccounting {s : State} (reached : machine.Reachable s) : Accounting s := by
  have ok := reachable_sound reached
  constructor
  · intro empty f
    exact ok.refcount_outstanding empty f
  · exact ok.freed
  · intro event f enabled changed
    exact ok.ends enabled changed
  · intro event f enabled freed
    exact ok.ignores enabled freed

/-- A future with a token is mapped, completed, and released before its output. -/
def mappedAndReleased : List Event :=
  [Event.call .create, .call (.attach 0 0), .step, .step, .step, .call (.map 0 true)] ++
    List.replicate 6 Event.step ++ [Event.call (.setResult 0 ⟨0, some 7, true⟩)] ++
    List.replicate 6 Event.step ++ [Event.answer (.value (some 8))] ++ List.replicate 8 Event.step ++
    [Event.call (.destroy 0), .step, .step, .call (.release 0), .step]

theorem referenceAccounting_mappedAndReleased :
    Accounting (machine.after start mappedAndReleased) ∧
      ((machine.after start mappedAndReleased).futures 0).frees = 1 ∧
      ((machine.after start mappedAndReleased).futures 1).refcount = 1 := by
  have may : machine.AllEnabled start mappedAndReleased := by decide
  exact ⟨referenceAccounting (.run (.start rfl) may.run), by decide, by decide⟩

end Operator
end UfsrvRx
