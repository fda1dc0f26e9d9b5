import UfsrvRx.Operator.Resource

namespace UfsrvRx
namespace Operator

open Transition
open UfsrvRx.Future (Result ValueId epipe ecanceled einval)

/-!
# The invariant of the operator machine
-/

/-- Nothing has been made of this future. -/
structure State.Blank (s : State) (future : FutureId) : Prop where
  cell : s.futures future = start.futures future
  promise : s.promises future = start.promises future
  node : s.nodes future = start.nodes future
  group : s.groups future = start.groups future
  zip : s.zips future = start.zips future
  clientRefs : s.clientRefs future = 0
  gets : s.gets future = 0

/-- What a task on the stack says about the memory. -/
def Admissible (s : State) : Task -> Prop
  | .releasePromise f => (s.promises f).isFulfilled = true
  | .subtract kind out refused => (kind = .all ↔ refused = true) -> (s.groups out).flag = true
  | .leave arguments => forall f, f ∈ arguments -> 0 < s.clientRefs f
  | .leaveSet f => (s.promises f).isClient = true
  | .drain f => (s.futures f).isCompleted = true
  | .dropNode f => (s.nodes f).isActive = false
  | _ => True

/-- What is held adds up, what is touched is kept, and the flags of a future go with the
progress of the calls on it. -/
structure Sound (s : State) : Prop where
  balanced : s.Balanced
  anchored : Anchored s.stack
  works : forall task, task ∈ s.stack -> Admissible s task
  fresh : forall f, s.count ≤ f -> s.Blank f
  waits : forall f continuation, (f, continuation) ∈ s.waiting ->
    f < s.count ∧ (s.futures f).isClosed = false
  closed : forall f, (s.futures f).isClosed = true -> (s.futures f).isCompleted = true
  drained : forall f, (s.futures f).isCompleted = true ->
    (s.futures f).isClosed = true ∨ .drain f ∈ s.stack
  fulfilled : forall f, (s.promises f).isFulfilled = true -> (s.futures f).isCompleted = true ∨
    Exists fun result => s.stack.head? = some (.complete f result)
  dead : forall f, f < s.count -> (s.promises f).isLive = false ->
    (s.promises f).isFulfilled = true
  freed : forall f, (s.futures f).frees =
    if f < s.count ∧ (s.futures f).refcount = 0 then 1 else 0
  alone : forall t f, (s.tokens t).nodes.count (some f) ≤ 1
  listed : forall t f, some f ∈ (s.tokens t).nodes ↔
    (s.nodes f).isActive = true ∧ (s.nodes f).token = t
  pair : forall f, (s.nodes f).isActive = true -> (s.nodes f).refcount = 2
  handles : forall f, s.stack.count (.attached f) + (s.futures f).cancelHandle.toNat ≤
    (s.futures f).cancelToken.isSome.toNat
  given : forall f, (s.futures f).isCompleted = true -> (s.futures f).cancelHandle = false
  idle : forall f, (s.futures f).isClosed = true -> (s.futures f).waiters = 0
  owned : forall f, (s.futures f).cancelToken = none -> (s.nodes f).refcount = 0
  gets : forall f, 0 < s.gets f -> 0 < s.clientRefs f

theorem held_pos {s : State} {task : Task} (mem : task ∈ s.stack) {resource : Resource}
    (holds : resource ∈ task.resources) : 0 < s.held.count resource := by
  rw [List.count_pos_iff]
  exact List.mem_append_left _ (List.mem_flatMap.mpr ⟨task, mem, holds⟩)

namespace Sound

variable {s : State}

theorem live_of_held (ok : Sound s) {f : FutureId} (held : 0 < s.held.count (.promise f)) :
    (s.promises f).isLive = true := by
  have balanced := ok.balanced (.promise f)
  simp only [State.total] at balanced
  cases live : (s.promises f).isLive with
  | true => rfl
  | false =>
      rw [live, Bool.toNat_false] at balanced
      omega

theorem refcount_of_live (ok : Sound s) {f : FutureId} (live : (s.promises f).isLive = true) :
    0 < (s.futures f).refcount := by
  have balanced := ok.balanced (.reference f)
  simp only [State.total, State.extra, live, Bool.toNat_true] at balanced
  omega

theorem refcount_of_client (ok : Sound s) {f : FutureId} (held : 0 < s.clientRefs f) :
    0 < (s.futures f).refcount := by
  have balanced := ok.balanced (.reference f)
  simp only [State.total, State.extra] at balanced
  omega

theorem live_of_client (ok : Sound s) {f : FutureId} (client : (s.promises f).isClient = true) :
    (s.promises f).isLive = true := by
  have balanced := ok.balanced (.promise f)
  simp only [State.total, State.extra, client, Bool.toNat_true] at balanced
  cases live : (s.promises f).isLive with
  | true => rfl
  | false =>
      rw [live, Bool.toNat_false] at balanced
      omega

/-- A future that is kept by some tasks has a reference that the tasks above them do not hold. -/
theorem share_of_kept {tasks : List Task} (ok : Sound (s.push tasks)) {f : FutureId}
    (kept : Kept s.stack f) : 0 < s.held.count (.reference f) + s.extra (.reference f) := by
  rcases kept with ⟨task, mem, anchors⟩
  have works : Admissible (s.push tasks) task := ok.works task (List.mem_append_right _ mem)
  have above : forall r, s.held.count r ≤ (s.push tasks).held.count r := by
    intro r
    rw [State.held_push, List.count_append]
    omega
  have ofLive : (s.promises f).isLive = true ->
      0 < s.held.count (.reference f) + s.extra (.reference f) := by
    intro live
    simp only [State.extra, live, Bool.toNat_true]
    omega
  have ofNode : .node f ∈ task.resources ->
      0 < s.held.count (.reference f) + s.extra (.reference f) := by
    intro holds
    have held := held_pos mem holds
    have node := ok.balanced (.node f)
    rw [State.total_push] at node
    simp only [State.total] at node
    have share := above (.node f)
    simp only [State.extra]
    rw [if_pos (by omega)]
    omega
  have ofReference : .reference f ∈ task.resources ->
      0 < s.held.count (.reference f) + s.extra (.reference f) := by
    intro holds
    have held := held_pos mem holds
    omega
  cases task with
  | destroyPromise other | releasePromise other =>
      cases anchors
      have held := held_pos mem (List.mem_singleton.mpr rfl)
      exact ofLive (ok.live_of_held (Nat.lt_of_lt_of_le held (above _)))
  | leaveSet other =>
      cases anchors
      exact ofLive (ok.live_of_client works)
  | unregister other | attached other | dropNode other =>
      cases anchors
      exact ofNode (List.mem_singleton.mpr rfl)
  | release other | deliver other =>
      cases anchors
      exact ofReference (List.mem_singleton.mpr rfl)
  | claimInner out other =>
      cases anchors
      exact ofReference (List.mem_cons_of_mem _ (List.mem_singleton.mpr rfl))
  | leave arguments =>
      have client : 0 < s.clientRefs f := works f anchors
      simp only [State.extra]
      omega
  | _ => cases anchors

/-- A future that is kept is not freed. -/
theorem refcount_of_kept (ok : Sound s) {f : FutureId} (kept : Kept s.stack f) :
    0 < (s.futures f).refcount := by
  have unpushed : Sound (s.push []) := ok
  have share := unpushed.share_of_kept kept
  have balanced := ok.balanced (.reference f)
  simp only [State.total] at balanced
  omega

theorem lt_count (ok : Sound s) {f : FutureId} (held : 0 < (s.futures f).refcount) :
    f < s.count := by
  by_contra outside
  have blank := (ok.fresh f (Nat.le_of_not_lt outside)).cell
  rw [blank] at held
  exact absurd held (Nat.lt_irrefl 0)

end Sound

/-! ## Steps that leave most things alone -/

/-- What most tasks leave alone. -/
structure Keeps (s after : State) : Prop where
  count : after.count = s.count
  promises : after.promises = s.promises
  waiting : after.waiting = s.waiting
  tokens : after.tokens = s.tokens
  gets : after.gets = s.gets
  completed : forall f, (after.futures f).isCompleted = (s.futures f).isCompleted
  closed : forall f, (after.futures f).isClosed = (s.futures f).isClosed
  frees : forall f, (after.futures f).frees = (s.futures f).frees
  refcount : forall f, (after.futures f).refcount = 0 ↔ (s.futures f).refcount = 0
  waiters : forall f, (after.futures f).waiters = (s.futures f).waiters
  nodes : after.nodes = s.nodes
  handle : forall f, (after.futures f).cancelHandle = (s.futures f).cancelHandle
  cancelToken : forall f, (after.futures f).cancelToken = (s.futures f).cancelToken
  flag : forall out, (s.groups out).flag = true -> (after.groups out).flag = true
  clientRefs : forall f, 0 < s.clientRefs f -> 0 < after.clientRefs f
  blank : forall f, s.count ≤ f -> s.Blank f -> after.Blank f

namespace Keeps

variable {s : State}

theorem push (s : State) (new : List Task) : Keeps s (s.push new) where
  count := rfl
  promises := rfl
  waiting := rfl
  tokens := rfl
  gets := rfl
  completed := fun _ => rfl
  closed := fun _ => rfl
  frees := fun _ => rfl
  refcount := fun _ => Iff.rfl
  waiters := fun _ => rfl
  nodes := rfl
  handle := fun _ => rfl
  cancelToken := fun _ => rfl
  flag := fun _ flag => flag
  clientRefs := fun _ held => held
  blank := fun _ _ blank => { blank with }

theorem destroyValue (s : State) (result : Result) : Keeps s (s.destroyValue result) := by
  unfold State.destroyValue
  split
  · exact { push s [] with blank := fun _ _ blank => { blank with } }
  · exact push s []

/-- A future changes in what the flags and the counts of others do not depend on. -/
theorem setFuture {future : FutureId} {cell : Cell} (inside : future < s.count)
    (completed : cell.isCompleted = (s.futures future).isCompleted)
    (closed : cell.isClosed = (s.futures future).isClosed)
    (frees : cell.frees = (s.futures future).frees)
    (refcount : cell.refcount = 0 ↔ (s.futures future).refcount = 0)
    (waiters : cell.waiters = (s.futures future).waiters)
    (handle : cell.cancelHandle = (s.futures future).cancelHandle)
    (cancelToken : cell.cancelToken = (s.futures future).cancelToken) :
    Keeps s (s.setFuture future cell) := by
  refine { push s [] with
    completed := ?_, closed := ?_, frees := ?_, refcount := ?_, waiters := ?_, handle := ?_
    cancelToken := ?_, blank := ?_ }
  · intro f
    simp only [State.setFuture]
    grind
  · intro f
    simp only [State.setFuture]
    grind
  · intro f
    simp only [State.setFuture]
    grind
  · intro f
    simp only [State.setFuture]
    grind
  · intro f
    simp only [State.setFuture]
    grind
  · intro f
    simp only [State.setFuture]
    grind
  · intro f
    simp only [State.setFuture]
    grind
  · intro f outside blank
    have other : f ≠ future := Nat.ne_of_gt (Nat.lt_of_lt_of_le inside outside)
    exact { blank with
      cell := by
        simp only [State.setFuture, Function.update_of_ne other]
        exact blank.cell }

theorem setGroup {out : FutureId} {group : Group} (inside : out < s.count)
    (flag : (s.groups out).flag = true -> group.flag = true) : Keeps s (s.setGroup out group) := by
  refine { push s [] with flag := ?_, blank := ?_ }
  · intro other
    simp only [State.setGroup]
    grind
  · intro f outside blank
    have other : f ≠ out := Nat.ne_of_gt (Nat.lt_of_lt_of_le inside outside)
    exact { blank with
      group := by
        simp only [State.setGroup, Function.update_of_ne other]
        exact blank.group }

theorem setZip {out : FutureId} {zip : Zip} (inside : out < s.count) :
    Keeps s (s.setZip out zip) := by
  refine { push s [] with blank := ?_ }
  intro f outside blank
  have other : f ≠ out := Nat.ne_of_gt (Nat.lt_of_lt_of_le inside outside)
  exact { blank with
    zip := by
      simp only [State.setZip, Function.update_of_ne other]
      exact blank.zip }

/-- A reference is taken of a future that has one. -/
theorem retain {f : FutureId} (held : 0 < (s.futures f).refcount) (inside : f < s.count) :
    Keeps s (s.retain f) := by
  refine .setFuture inside rfl rfl rfl ?_ rfl rfl rfl
  change (s.futures f).refcount + 1 = 0 ↔ (s.futures f).refcount = 0
  omega

theorem trans {middle after : State} (first : Keeps s middle) (second : Keeps middle after) :
    Keeps s after where
  count := second.count.trans first.count
  promises := second.promises.trans first.promises
  waiting := second.waiting.trans first.waiting
  tokens := second.tokens.trans first.tokens
  gets := second.gets.trans first.gets
  completed := fun f => (second.completed f).trans (first.completed f)
  closed := fun f => (second.closed f).trans (first.closed f)
  frees := fun f => (second.frees f).trans (first.frees f)
  refcount := fun f => (second.refcount f).trans (first.refcount f)
  waiters := fun f => (second.waiters f).trans (first.waiters f)
  nodes := second.nodes.trans first.nodes
  handle := fun f => (second.handle f).trans (first.handle f)
  cancelToken := fun f => (second.cancelToken f).trans (first.cancelToken f)
  flag := fun out flag => second.flag out (first.flag out flag)
  clientRefs := fun f held => second.clientRefs f (first.clientRefs f held)
  blank := fun f outside blank => second.blank f (first.count ▸ outside) (first.blank f outside blank)

end Keeps

/-- A task that most tasks may put on the stack. -/
def Placed (s : State) (task : Task) : Prop :=
  Admissible s task ∧ forall f, task ≠ .attached f

theorem Keeps.admissible {s after : State} (keeps : Keeps s after) {task : Task}
    (admissible : Admissible s task) : Admissible after task := by
  cases task with
  | releasePromise f | leaveSet f =>
      simp only [Admissible, keeps.promises]
      exact admissible
  | subtract kind out refused =>
      intro given
      exact keeps.flag out (admissible given)
  | leave arguments =>
      intro f mem
      exact keeps.clientRefs f (admissible f mem)
  | drain f =>
      simp only [Admissible, keeps.completed]
      exact admissible
  | dropNode f =>
      simp only [Admissible, keeps.nodes]
      exact admissible
  | _ => trivial

/-- The task is no part of `sFutureComplete` that is still needed. -/
def Ordinary (s : State) : Task -> Prop
  | .complete f _ => (s.futures f).isCompleted = true
  | .drain f => (s.futures f).isClosed = true
  | _ => True

/-- Unless its completion is the task, a future whose promise is fulfilled is completed. -/
theorem Sound.completed_of_fulfilled {s : State} {task : Task} (ok : Sound (s.push [task]))
    (ordinary : Ordinary s task) {f : FutureId} (fulfilled : (s.promises f).isFulfilled = true) :
    (s.futures f).isCompleted = true := by
  rcases ok.fulfilled f fulfilled with completed | ⟨result, head⟩
  · exact completed
  · rw [Option.some.inj head] at ordinary
    exact ordinary

/-- Unless its drain is the task, a future that is completed is closed, or will be. -/
theorem Sound.drained_of_completed {s : State} {task : Task} (ok : Sound (s.push [task]))
    (ordinary : Ordinary s task) {f : FutureId} (completed : (s.futures f).isCompleted = true) :
    (s.futures f).isClosed = true ∨ .drain f ∈ s.stack := by
  rcases ok.drained f completed with closed | mem
  · exact .inl closed
  · rcases List.mem_cons.mp mem with here | mem
    · rw [<- here] at ordinary
      exact .inl ordinary
    · exact .inr mem

/-- A task puts others in its place and leaves most things alone. -/
theorem Sound.transfer {s after : State} {task : Task} {new : List Task}
    (ok : Sound (s.push [task])) (keeps : Keeps s after) (stack : after.stack = new ++ s.stack)
    (ordinary : Ordinary s task) (placed : forall other, other ∈ new -> Placed after other)
    (anchored : Anchored s.stack -> (forall f, f ∈ task.touches -> Kept s.stack f) ->
      Anchored (new ++ s.stack))
    (balanced : (s.push [task]).Balanced -> after.Balanced) : Sound after where
  balanced := balanced ok.balanced
  anchored := by
    rw [stack]
    exact anchored ok.anchored.2 ok.anchored.1
  works := by
    intro other mem
    rw [stack] at mem
    rcases List.mem_append.mp mem with mem | mem
    · exact (placed other mem).1
    · exact keeps.admissible (ok.works other (List.mem_cons_of_mem _ mem))
  fresh := by
    intro f outside
    rw [keeps.count] at outside
    exact keeps.blank f outside { ok.fresh f outside with }
  waits := by
    intro f continuation mem
    rw [keeps.waiting] at mem
    rw [keeps.count, keeps.closed]
    exact ok.waits f continuation mem
  closed := by
    intro f
    rw [keeps.closed, keeps.completed]
    exact ok.closed f
  drained := by
    intro f completed
    rw [keeps.completed] at completed
    rw [keeps.closed, stack]
    rcases ok.drained_of_completed ordinary completed with closed | mem
    · exact .inl closed
    · exact .inr (List.mem_append_right _ mem)
  fulfilled := by
    intro f fulfilled
    rw [keeps.promises] at fulfilled
    rw [keeps.completed]
    exact .inl (ok.completed_of_fulfilled ordinary fulfilled)
  dead := by
    rw [keeps.count, keeps.promises]
    exact ok.dead
  freed := by
    intro f
    simp only [keeps.frees, keeps.count, keeps.refcount]
    exact ok.freed f
  alone := by
    rw [keeps.tokens]
    exact ok.alone
  listed := by
    intro t f
    rw [keeps.tokens, keeps.nodes]
    exact ok.listed t f
  pair := by
    rw [keeps.nodes]
    exact ok.pair
  handles := by
    intro f
    have none : new.count (.attached f) = 0 := by
      rw [List.count_eq_zero]
      intro mem
      exact (placed _ mem).2 f rfl
    have before := ok.handles f
    simp only [State.push, List.cons_append, List.nil_append, List.count_cons] at before
    rw [stack, List.count_append, none, keeps.handle, keeps.cancelToken]
    omega
  given := by
    intro f
    rw [keeps.completed, keeps.handle]
    exact ok.given f
  idle := by
    intro f
    rw [keeps.closed, keeps.waiters]
    exact ok.idle f
  owned := by
    intro f
    rw [keeps.cancelToken, keeps.nodes]
    exact ok.owned f
  gets := by
    intro f
    rw [keeps.gets]
    intro waiting
    exact keeps.clientRefs f (ok.gets f waiting)

theorem Sound.give {s : State} (ok : Sound s) (result : Result) : Sound (s.give result) := by
  unfold State.give
  split
  · exact { ok with fresh := fun f outside => { ok.fresh f outside with } }
  · exact ok

theorem Sound.destroyValue {s : State} (ok : Sound s) (result : Result) :
    Sound (s.destroyValue result) := by
  unfold State.destroyValue
  split
  · exact { ok with fresh := fun f outside => { ok.fresh f outside with } }
  · exact ok

/-- A task puts others in its place that hold what it held. -/
theorem Sound.exchange {s : State} {task : Task} {new : List Task} (ok : Sound (s.push [task]))
    (ordinary : Ordinary s task) (placed : forall other, other ∈ new -> Placed s other)
    (anchored : Anchored s.stack -> (forall f, f ∈ task.touches -> Kept s.stack f) ->
      Anchored (new ++ s.stack))
    (resources : new.flatMap Task.resources = task.resources) : Sound (s.push new) := by
  refine ok.transfer (.push s new) rfl ordinary placed anchored ?_
  intro balanced r
  have before := balanced r
  simp only [State.held_push, List.flatMap_cons, List.flatMap_nil, List.append_nil] at before
  rw [State.held_push, resources]
  exact before

/-- A task is done. -/
theorem Sound.retire {s after : State} {task : Task} (ok : Sound (s.push [task]))
    (keeps : Keeps s after) (stack : after.stack = s.stack) (ordinary : Ordinary s task)
    (changed : forall r, after.extra r + s.total r =
      task.resources.count r + s.extra r + after.total r) : Sound after := by
  have none : after.stack = [] ++ s.stack := stack
  refine ok.transfer keeps none ordinary (by simp) (fun rest _ => rest) ?_
  exact fun balanced => State.balanced_spend balanced stack keeps.waiting changed

end Operator
end UfsrvRx
