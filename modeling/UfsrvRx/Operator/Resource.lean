import Mathlib.Algebra.BigOperators.Group.Finset.Basic
import UfsrvRx.Operator.Machine

namespace UfsrvRx
namespace Operator

open Transition
open Future (Result ValueId)

/-!
# What the calls in progress hold

References to futures, promises, shares in a context, references to a registration and
claims on a result are handed on from task to task, and to continuations that wait for a
future.  What is held by them, together with what is held elsewhere, is what there is.
-/

/-- What can be held, each of a future: a reference to it, its promise, a report that its
context waits for, a reference to its registration, or the right to move its result out. -/
inductive Resource
  | reference (future : FutureId)
  | promise (future : FutureId)
  | report (out : FutureId)
  | half (out : FutureId)
  | node (future : FutureId)
  | claim (future : FutureId)
deriving DecidableEq, Repr

namespace Continuation

def resources (future : FutureId) : Continuation -> List Resource
  | observe => []
  | map out _ | flatMap out _ | onError out | doOnSuccess out => [.promise out]
  | moveChain out => [.promise out, .claim future]
  | group _ out => [.report out]
  | zip out _ => [.half out]

end Continuation

namespace Callback

def resources : Callback -> List Resource
  | observer _ | cancelled => []
  | mapper _ out _ | flatMapper _ out _ | recovery _ out | action _ out => [.promise out]
  | zipper out first second => [.promise out, .reference first, .reference second]

/-- The future whose result was passed to the callback. -/
def touches : Callback -> List FutureId
  | observer future | mapper future _ _ | flatMapper future _ _ | recovery future _
  | action future _ => [future]
  | zipper _ _ _ | cancelled => []

end Callback

namespace Task

def resources : Task -> List Resource
  | destroyPromise future | releasePromise future => [.promise future]
  | run future continuation | register future continuation => continuation.resources future
  | zero future => [.claim future]
  | release future | deliver future => [.reference future]
  | unregister future | attached future | dropNode future => [.node future]
  | claimInner out inner => [.promise out, .reference inner]
  | claimInput _ out => [.promise out]
  | loop _ out entries => List.replicate entries.length (.report out)
  | subtract _ out _ => [.report out]
  | zipComplete out first second => [.promise out, .reference first, .reference second]
  | callback client => client.resources
  | setResult _ _ | complete _ _ | drain _ | attach _ _ | inherit _ _ | leave _ | leaveSet _ => []

/-- The futures that the task reads or writes without holding anything of them. -/
def touches : Task -> List FutureId
  | setResult future _ | complete future _ | drain future | run future _ | zero future
  | register future _ | attach future _ | claimInput future _ => [future]
  | inherit future out => [future, out]
  | loop _ _ entries => entries.filterMap id
  | callback client => client.touches
  | destroyPromise _ | releasePromise _ | release _ | unregister _ | attached _ | dropNode _
  | claimInner _ _ | deliver _ | subtract _ _ _ | zipComplete _ _ _ | leave _ | leaveSet _ => []

/-- While the task is under way, the future is not freed. -/
def anchors (future : FutureId) : Task -> Prop
  | destroyPromise other | releasePromise other | leaveSet other | unregister other
  | attached other | dropNode other | release other | deliver other | claimInner _ other =>
      other = future
  | leave arguments => future ∈ arguments
  | setResult _ _ | complete _ _ | drain _ | run _ _ | zero _ | register _ _ | attach _ _
  | claimInput _ _ | inherit _ _ | loop _ _ _ | subtract _ _ _ | zipComplete _ _ _
  | callback _ => False

end Task

/-! ## Anchored stacks -/

/-- Some task of the stack keeps the future. -/
def Kept (stack : List Task) (future : FutureId) : Prop :=
  Exists fun task => task ∈ stack ∧ task.anchors future

/-- What a task touches is kept by the tasks below it. -/
def Anchored : List Task -> Prop
  | [] => True
  | task :: rest => (forall future, future ∈ task.touches -> Kept rest future) ∧ Anchored rest

namespace Kept

variable {stack : List Task} {future : FutureId}

theorem tail (kept : Kept stack future) (task : Task) : Kept (task :: stack) future := by
  rcases kept with ⟨other, mem, anchors⟩
  exact ⟨other, List.mem_cons_of_mem _ mem, anchors⟩

theorem append (kept : Kept stack future) (tasks : List Task) : Kept (tasks ++ stack) future := by
  rcases kept with ⟨other, mem, anchors⟩
  exact ⟨other, List.mem_append_right _ mem, anchors⟩

theorem head {task : Task} (anchors : task.anchors future) : Kept (task :: stack) future :=
  ⟨task, List.mem_cons_self, anchors⟩

theorem cons {task : Task} : Kept (task :: stack) future ↔ task.anchors future ∨ Kept stack future := by
  constructor
  · rintro ⟨other, mem, anchors⟩
    rcases List.mem_cons.mp mem with rfl | mem
    · exact .inl anchors
    · exact .inr ⟨other, mem, anchors⟩
  · rintro (anchors | kept)
    · exact .head anchors
    · exact kept.tail task

end Kept

namespace Anchored

/-- What is touched anywhere in the stack is kept by it. -/
theorem kept {stack : List Task} (ok : Anchored stack) {task : Task} (mem : task ∈ stack)
    {future : FutureId} (touched : future ∈ task.touches) : Kept stack future := by
  induction stack with
  | nil => cases mem
  | cons first rest inductionHypothesis =>
      rcases List.mem_cons.mp mem with rfl | mem
      · exact (ok.1 future touched).tail _
      · exact (inductionHypothesis ok.2 mem).tail _

/-- Tasks that all touch one future of the rest, or nothing. -/
theorem append {rest : List Task} (ok : Anchored rest) {tasks : List Task}
    (touched : forall task, task ∈ tasks -> forall future, future ∈ task.touches ->
      Kept rest future) : Anchored (tasks ++ rest) := by
  induction tasks with
  | nil => exact ok
  | cons first tasks inductionHypothesis =>
      refine ⟨?_, inductionHypothesis fun task mem => touched task (List.mem_cons_of_mem _ mem)⟩
      intro future mem
      exact (touched first List.mem_cons_self future mem).append tasks

end Anchored

/-! ## What is held -/

/-- A context holds a reference to each of its inputs until both have reported. -/
def Zip.refs (zip : Zip) (future : FutureId) : Nat :=
  if 0 < zip.remaining then
    (if zip.firstFuture = future then 1 else 0) + if zip.secondFuture = future then 1 else 0
  else 0

namespace State

/-- What the tasks and the waiting continuations hold. -/
def held (s : State) : List Resource :=
  s.stack.flatMap Task.resources ++
    s.waiting.flatMap fun entry => entry.2.resources entry.1

/-- The references that the contexts of `sFutureZip` hold. -/
def zipRefs (s : State) (future : FutureId) : Nat :=
  ∑ out ∈ Finset.range s.count, (s.zips out).refs future

/-- What is held by others: by the client, by contexts, by tokens, and by a future of its own
registration.  A promise and a registration hold a reference to their future.  A claim is
spent when the result was moved out. -/
def extra (s : State) : Resource -> Nat
  | .reference future => s.zipRefs future + s.clientRefs future +
      (s.promises future).isLive.toNat + if 0 < (s.nodes future).refcount then 1 else 0
  | .promise future =>
      (if 0 < (s.groups future).remaining ∧ (s.groups future).flag = false then 1 else 0) +
        (if 0 < (s.zips future).remaining then 1 else 0) + (s.promises future).isClient.toNat
  | .report _ | .half _ => 0
  | .node future => (s.nodes future).isActive.toNat + (s.futures future).cancelHandle.toNat
  | .claim future => (s.futures future).isMoved.toNat

/-- What there is. -/
def total (s : State) : Resource -> Nat
  | .reference future => (s.futures future).refcount
  | .promise future => (s.promises future).isLive.toNat
  | .report out => (s.groups out).remaining
  | .half out => (s.zips out).remaining
  | .node future => (s.nodes future).refcount
  | .claim future => (s.futures future).isConsumed.toNat

def Balanced (s : State) : Prop :=
  forall resource, s.held.count resource + s.extra resource = s.total resource

@[simp] theorem held_push (s : State) (tasks : List Task) :
    (s.push tasks).held = tasks.flatMap Task.resources ++ s.held := by
  simp [held, push]

theorem zipRefs_setZip {s : State} {out : FutureId} (inside : out < s.count) (zip : Zip)
    (future : FutureId) : (s.setZip out zip).zipRefs future + (s.zips out).refs future =
      s.zipRefs future + zip.refs future := by
  have mem : out ∈ Finset.range s.count := Finset.mem_range.mpr inside
  have before := Finset.add_sum_erase _ (fun other : Nat => (s.zips other).refs future) mem
  have after := Finset.add_sum_erase _
    (fun other : Nat => (Function.update s.zips out zip other).refs future) mem
  have others : ∑ other ∈ (Finset.range s.count).erase out,
        (Function.update s.zips out zip other).refs future =
      ∑ other ∈ (Finset.range s.count).erase out, (s.zips other).refs future := by
    refine Finset.sum_congr rfl ?_
    intro other mem
    rw [Function.update_of_ne (Finset.ne_of_mem_erase mem)]
  simp only [Function.update_self] at after
  simp only [zipRefs, setZip]
  omega

/-- A half reports to its context.  The last one gives the references of the context back. -/
theorem zipRefs_report {s : State} {out : FutureId} (inside : out < s.count) (zip : Zip)
    (first : zip.firstFuture = (s.zips out).firstFuture)
    (second : zip.secondFuture = (s.zips out).secondFuture)
    (remaining : (s.zips out).remaining = zip.remaining + 1) (future : FutureId) :
    (s.setZip out zip).zipRefs future + (if zip.remaining = 0 then
      [Resource.reference (s.zips out).firstFuture, .reference (s.zips out).secondFuture].count
        (.reference future) else 0) = s.zipRefs future := by
  have changed := zipRefs_setZip inside zip future
  simp only [Zip.refs, first, second, remaining] at changed
  simp only [List.count_cons, List.count_nil, beq_iff_eq, Resource.reference.injEq]
  grind

theorem extra_setZip_reference (s : State) (out : FutureId) (zip : Zip) (future : FutureId) :
    (s.setZip out zip).extra (.reference future) + s.zipRefs future =
      s.extra (.reference future) + (s.setZip out zip).zipRefs future := by
  simp only [extra]
  change _ + s.clientRefs future + (s.promises future).isLive.toNat + _ + _ = _
  change _ + (if 0 < (s.nodes future).refcount then 1 else 0) + _ = _
  omega

@[simp] theorem held_give (s : State) (result : Result) : (s.give result).held = s.held := by
  unfold give
  split <;> rfl

@[simp] theorem extra_give (s : State) (result : Result) (resource : Resource) :
    (s.give result).extra resource = s.extra resource := by
  unfold give
  split <;> rfl

@[simp] theorem total_give (s : State) (result : Result) (resource : Resource) :
    (s.give result).total resource = s.total resource := by
  unfold give
  split <;> rfl

@[simp] theorem extra_destroyValue (s : State) (result : Result) (resource : Resource) :
    (s.destroyValue result).extra resource = s.extra resource := by
  unfold destroyValue
  split <;> rfl

@[simp] theorem total_destroyValue (s : State) (result : Result) (resource : Resource) :
    (s.destroyValue result).total resource = s.total resource := by
  unfold destroyValue
  split <;> rfl

@[simp] theorem count_give (s : State) (result : Result) : (s.give result).count = s.count := by
  unfold give
  split <;> rfl

@[simp] theorem futures_give (s : State) (result : Result) : (s.give result).futures = s.futures := by
  unfold give
  split <;> rfl

@[simp] theorem stack_give (s : State) (result : Result) : (s.give result).stack = s.stack := by
  unfold give
  split <;> rfl

@[simp] theorem destroyed_give (s : State) (result : Result) : (s.give result).destroyed = s.destroyed := by
  unfold give
  split <;> rfl

@[simp] theorem count_destroyValue (s : State) (result : Result) : (s.destroyValue result).count = s.count := by
  unfold destroyValue
  split <;> rfl

@[simp] theorem futures_destroyValue (s : State) (result : Result) : (s.destroyValue result).futures = s.futures := by
  unfold destroyValue
  split <;> rfl

@[simp] theorem given_destroyValue (s : State) (result : Result) : (s.destroyValue result).given = s.given := by
  unfold destroyValue
  split <;> rfl

@[simp] theorem zips_give (s : State) (result : Result) : (s.give result).zips = s.zips := by
  unfold give
  split <;> rfl

@[simp] theorem waiting_give (s : State) (result : Result) : (s.give result).waiting = s.waiting := by
  unfold give
  split <;> rfl

@[simp] theorem zips_destroyValue (s : State) (result : Result) : (s.destroyValue result).zips = s.zips := by
  unfold destroyValue
  split <;> rfl

@[simp] theorem waiting_destroyValue (s : State) (result : Result) : (s.destroyValue result).waiting = s.waiting := by
  unfold destroyValue
  split <;> rfl

@[simp] theorem stack_destroyValue (s : State) (result : Result) :
    (s.destroyValue result).stack = s.stack := by
  unfold destroyValue
  split <;> rfl

@[simp] theorem extra_push (s : State) (tasks : List Task) (resource : Resource) :
    (s.push tasks).extra resource = s.extra resource := by
  cases resource <;> rfl

@[simp] theorem total_push (s : State) (tasks : List Task) (resource : Resource) :
    (s.push tasks).total resource = s.total resource := by
  cases resource <;> rfl

/-- Tasks are replaced by others, and what they held comes and goes with what there is. -/
theorem balanced_change {s after : State} {old new : List Task}
    (balanced : (s.push old).Balanced) (stack : after.stack = new ++ s.stack)
    (waiting : after.waiting = s.waiting)
    (changed : forall resource,
      (new.flatMap Task.resources).count resource + after.extra resource + s.total resource =
        (old.flatMap Task.resources).count resource + s.extra resource + after.total resource) :
    after.Balanced := by
  intro resource
  have before := balanced resource
  have change := changed resource
  have held : after.held = new.flatMap Task.resources ++ s.held := by
    rw [held, held, stack, waiting, List.flatMap_append, List.append_assoc]
  rw [held_push, extra_push, total_push, List.count_append] at before
  rw [held, List.count_append]
  omega

/-- A task is done. -/
theorem balanced_spend {s after : State} {task : Task} (balanced : (s.push [task]).Balanced)
    (stack : after.stack = s.stack) (waiting : after.waiting = s.waiting)
    (changed : forall resource, after.extra resource + s.total resource =
      task.resources.count resource + s.extra resource + after.total resource) :
    after.Balanced := by
  have none : after.stack = [] ++ s.stack := stack
  refine balanced_change balanced none waiting ?_
  intro resource
  rw [List.flatMap_nil, List.count_nil, Nat.zero_add, List.flatMap_singleton]
  exact changed resource

end State

end Operator
end UfsrvRx
