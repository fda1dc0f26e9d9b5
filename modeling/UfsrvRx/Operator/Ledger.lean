import Mathlib.Algebra.GroupWithZero.Nat
import UfsrvRx.Operator.Reach

namespace UfsrvRx
namespace Operator

open Transition
open UfsrvRx.Future (Result ValueId epipe ecanceled einval)

/-!
# Where the values are

A value that was handed to the library with its destructor is on its way to a future, or is the
result of a future, or was destroyed.  When a result is moved out, it is on its way until the
output has it, and the input is cleared last.
-/

/-- The result owns the value. -/
def holds (result : Result) (value : ValueId) : Nat :=
  if result.owned = some value then 1 else 0

@[simp] theorem holds_zero (value : ValueId) : holds .zero value = 0 := rfl

@[simp] theorem holds_ofError (error : Int) (value : ValueId) : holds (.ofError error) value = 0 :=
  rfl

namespace Task

/-- A result is on its way in the task. -/
def holds (value : ValueId) : Task -> Nat
  | setResult _ result | complete _ result => Operator.holds result value
  | _ => 0

/-- The futures whose results the task has seen. -/
def results : Task -> List FutureId
  | run future _ | claimInput future _ | zero future => [future]
  | callback client => client.touches
  | _ => []

end Task

namespace State

variable (s : State) (value : ValueId)

def travelling : Nat :=
  (s.stack.map (Task.holds value)).sum

/-- A future that is freed holds nothing, and one that is about to be cleared not any more. -/
def cellHolds (future : FutureId) : Nat :=
  if (s.futures future).refcount = 0 ∨ .zero future ∈ s.stack then 0
  else holds (s.futures future).result value

def resting : Nat :=
  ∑ future ∈ Finset.range s.count, s.cellHolds value future

/-- Everything that was handed to the library is somewhere, or was destroyed. -/
def Conserved : Prop :=
  forall value, s.travelling value + s.resting value + s.destroyed value = s.given value

/-- Only one future holds more or less than before. -/
theorem resting_change (after : State) {f : FutureId} (count : after.count = s.count)
    (inside : f < s.count)
    (others : forall g, g ≠ f -> after.cellHolds value g = s.cellHolds value g) :
    after.resting value + s.cellHolds value f = s.resting value + after.cellHolds value f := by
  have mem : f ∈ Finset.range s.count := Finset.mem_range.mpr inside
  have before := Finset.add_sum_erase _ (fun other : Nat => s.cellHolds value other) mem
  have afterwards := Finset.add_sum_erase _ (fun other : Nat => after.cellHolds value other) mem
  have same : ∑ g ∈ (Finset.range s.count).erase f, after.cellHolds value g =
      ∑ g ∈ (Finset.range s.count).erase f, s.cellHolds value g := by
    refine Finset.sum_congr rfl ?_
    intro g mem
    exact others g (Finset.ne_of_mem_erase mem)
  simp only [resting, count] at before afterwards same ⊢
  omega

theorem resting_congr (after : State) (count : after.count = s.count)
    (same : forall f, after.cellHolds value f = s.cellHolds value f) :
    after.resting value = s.resting value := by
  simp only [resting, count, same]

end State

/-- Nothing is lost; a future that is not completed has no result; and what has been seen is
the result of a completed future. -/
structure Valued (s : State) : Prop where
  conserved : s.Conserved
  blank : forall f, (s.futures f).isCompleted = false -> (s.futures f).result = .zero
  seen : forall task, task ∈ s.stack -> forall f, f ∈ task.results ->
    (s.futures f).isCompleted = true

/-- No result and no life of a future changes, and no value comes or goes. -/
structure Quiet (s after : State) : Prop where
  count : after.count = s.count
  given : after.given = s.given
  destroyed : after.destroyed = s.destroyed
  result : forall f, (after.futures f).result = (s.futures f).result
  refcount : forall f, (after.futures f).refcount = 0 ↔ (s.futures f).refcount = 0
  completed : forall f, (after.futures f).isCompleted = (s.futures f).isCompleted

namespace Quiet

variable {s : State}

theorem of_futures {after : State} (count : after.count = s.count) (given : after.given = s.given)
    (destroyed : after.destroyed = s.destroyed) (futures : after.futures = s.futures) :
    Quiet s after := by
  refine ⟨count, given, destroyed, ?_, ?_, ?_⟩ <;> intro f <;> rw [futures]

theorem setFuture {f : FutureId} {cell : Cell} {after : State} (count : after.count = s.count)
    (given : after.given = s.given) (destroyed : after.destroyed = s.destroyed)
    (futures : after.futures = Function.update s.futures f cell)
    (result : cell.result = (s.futures f).result)
    (refcount : cell.refcount = 0 ↔ (s.futures f).refcount = 0)
    (completed : cell.isCompleted = (s.futures f).isCompleted) : Quiet s after := by
  refine ⟨count, given, destroyed, ?_, ?_, ?_⟩ <;> intro g <;> rw [futures] <;> grind

theorem cellHolds {after : State} (quiet : Quiet s after) {value : ValueId} {f : FutureId}
    (zero : .zero f ∈ after.stack ↔ .zero f ∈ s.stack) :
    after.cellHolds value f = s.cellHolds value f := by
  simp only [State.cellHolds, quiet.refcount, quiet.result, zero]

end Quiet

/-- A task that carries no value and clears no future. -/
def Task.IsLight (task : Task) : Prop :=
  (forall value, task.holds value = 0) ∧ forall f, task ≠ .zero f

theorem travelling_light {new : List Task} (light : forall task, task ∈ new -> task.IsLight)
    (value : ValueId) : (new.map (Task.holds value)).sum = 0 := by
  refine List.sum_eq_zero ?_
  intro amount mem
  rcases List.mem_map.mp mem with ⟨task, inside, rfl⟩
  exact (light task inside).1 value

theorem destroyed_destroyValue (s : State) (result : Result) (value : ValueId) :
    (s.destroyValue result).destroyed value = s.destroyed value + holds result value := by
  unfold State.destroyValue holds
  split
  · rename_i owned same
    simp only [same, Option.some.injEq]
    grind
  · rename_i same
    simp [same]

theorem given_give (s : State) (result : Result) (value : ValueId) :
    (s.give result).given value = s.given value + holds result value := by
  unfold State.give holds
  split
  · rename_i owned same
    simp only [same, Option.some.injEq]
    grind
  · rename_i same
    simp [same]

namespace Valued

variable {s after : State} {task : Task} {new : List Task}

/-- A task makes room for others that carry what it carried. -/
theorem carry (ok : Valued (s.push [task])) (quiet : Quiet s after) (clears : forall f, task ≠ .zero f)
    (stack : after.stack = new ++ s.stack) (zeros : forall f, .zero f ∉ new)
    (carries : forall value, (new.map (Task.holds value)).sum = task.holds value)
    (seen : forall other, other ∈ new -> forall f, f ∈ other.results ->
      (s.futures f).isCompleted = true) : Valued after where
  conserved := by
    intro value
    have before := ok.conserved value
    have same : forall f, .zero f ∈ after.stack ↔ .zero f ∈ (s.push [task]).stack := by
      intro f
      have other := clears f
      have none := zeros f
      simp only [stack, State.push, List.mem_append, List.mem_cons, List.not_mem_nil, or_false]
      grind
    have pushed : Quiet (s.push [task]) after := { quiet with }
    have resting := State.resting_congr _ value _ pushed.count fun f => pushed.cellHolds (same f)
    have carried := carries value
    simp only [State.travelling, stack, List.map_append, List.sum_append]
    rw [quiet.destroyed, quiet.given, resting]
    simp only [State.travelling, State.push, List.cons_append, List.nil_append, List.map_cons,
      List.sum_cons] at before ⊢
    omega
  blank := by
    intro f
    rw [quiet.completed, quiet.result]
    exact ok.blank f
  seen := by
    intro other mem f sees
    rw [stack] at mem
    rw [quiet.completed]
    rcases List.mem_append.mp mem with mem | mem
    · exact seen other mem f sees
    · exact ok.seen other (List.mem_cons_of_mem _ mem) f sees

/-- A task that carries nothing makes room for others that carry nothing. -/
theorem quiet (ok : Valued (s.push [task])) (quiet : Quiet s after) (light : task.IsLight)
    (stack : after.stack = new ++ s.stack) (lights : forall other, other ∈ new -> other.IsLight)
    (seen : forall other, other ∈ new -> forall f, f ∈ other.results ->
      (s.futures f).isCompleted = true) : Valued after := by
  refine ok.carry quiet light.2 stack (fun f mem => (lights _ mem).2 f rfl) ?_ seen
  intro value
  rw [travelling_light lights value, light.1 value]

theorem retire (ok : Valued (s.push [task])) (quiet : Quiet s after) (light : task.IsLight)
    (stack : after.stack = s.stack) : Valued after := by
  have none : after.stack = [] ++ s.stack := stack
  exact ok.quiet quiet light none (by simp) (by simp)

/-- The value in the task's hands is destroyed. -/
theorem destroy {result : Result} (ok : Valued (s.push [task]))
    (carries : forall value, task.holds value = holds result value)
    (clears : forall f, task ≠ .zero f) : Valued (s.destroyValue result) where
  conserved := by
    intro value
    have before := ok.conserved value
    have resting : (s.destroyValue result).resting value = (s.push [task]).resting value := by
      refine State.resting_congr _ value _ (State.count_destroyValue s result) ?_
      intro f
      have other := clears f
      simp only [State.cellHolds, State.futures_destroyValue, State.stack_destroyValue, State.push,
        List.cons_append, List.nil_append, List.mem_cons]
      grind
    rw [resting, State.given_destroyValue, destroyed_destroyValue, <- carries]
    simp only [State.travelling, State.stack_destroyValue, State.push, List.cons_append,
      List.nil_append, List.map_cons, List.sum_cons] at before ⊢
    omega
  blank := by
    rw [State.futures_destroyValue]
    exact ok.blank
  seen := by
    intro other mem f sees
    rw [State.stack_destroyValue] at mem
    rw [State.futures_destroyValue]
    exact ok.seen other (List.mem_cons_of_mem _ mem) f sees

/-- A value is handed to the library, and the tasks carry it. -/
theorem give {result : Result} (ok : Valued (s.push [task])) (light : task.IsLight)
    (zeros : forall f, .zero f ∉ new)
    (carries : forall value, (new.map (Task.holds value)).sum = holds result value)
    (seen : forall other, other ∈ new -> other.results = []) :
    Valued ((s.give result).push new) where
  conserved := by
    intro value
    have before := ok.conserved value
    have carried := carries value
    have nothing := light.1 value
    have resting : ((s.give result).push new).resting value = (s.push [task]).resting value := by
      refine State.resting_congr _ value _ (State.count_give s result) ?_
      intro f
      have other := light.2 f
      have none := zeros f
      simp only [State.cellHolds, State.push, State.futures_give, State.stack_give,
        List.cons_append, List.nil_append, List.mem_cons, List.mem_append]
      grind
    rw [resting]
    change _ + _ + (s.give result).destroyed value = (s.give result).given value
    rw [State.destroyed_give, given_give]
    simp only [State.travelling, State.push, State.stack_give, List.map_append, List.sum_append,
      List.cons_append, List.nil_append, List.map_cons, List.sum_cons] at before ⊢
    omega
  blank := by
    intro f
    change ((s.give result).futures f).isCompleted = false ->
      ((s.give result).futures f).result = .zero
    rw [State.futures_give]
    exact ok.blank f
  seen := by
    intro other mem f sees
    change ((s.give result).futures f).isCompleted = true
    rw [State.futures_give]
    rcases List.mem_append.mp mem with mem | mem
    · rw [seen other mem] at sees
      cases sees
    · rw [State.stack_give] at mem
      exact ok.seen other (List.mem_cons_of_mem _ mem) f sees

/-- The result of a future moves on, and the future is cleared later. -/
theorem move {f : FutureId} (ok : Valued (s.push [task])) (quiet : Quiet s after)
    (light : task.IsLight) (live : (s.futures f).refcount ≠ 0) (inside : f < s.count)
    (unmoved : .zero f ∉ s.stack) (sees : f ∈ task.results) (out : FutureId) {more : List Task}
    (stack : after.stack = finish out (s.futures f).result ++ .zero f :: more ++ s.stack)
    (lights : forall other, other ∈ more -> other.IsLight)
    (seen : forall other, other ∈ more -> other.results = []) : Valued after where
  conserved := by
    intro value
    have before := ok.conserved value
    have zeros : forall g, g ≠ f -> (.zero g ∈ after.stack ↔ .zero g ∈ (s.push [task]).stack) := by
      intro g other
      have none : .zero g ∉ more := fun mem => (lights _ mem).2 g rfl
      have clears := light.2 g
      simp only [stack, finish, State.push, List.mem_append, List.mem_cons, List.not_mem_nil,
        or_false]
      grind
    have pushed : Quiet (s.push [task]) after := { quiet with }
    have resting := State.resting_change _ value _ pushed.count inside fun g other =>
      pushed.cellHolds (zeros g other)
    have cleared : after.cellHolds value f = 0 := by
      refine if_pos (.inr ?_)
      rw [stack]
      simp
    have full : (s.push [task]).cellHolds value f = holds (s.futures f).result value := by
      refine if_neg ?_
      rintro (dead | mem)
      · exact live dead
      · rcases List.mem_cons.mp mem with here | mem
        · exact light.2 f here.symm
        · exact unmoved mem
    have none := travelling_light lights value
    have nothing := light.1 value
    have moved : ((finish out (s.futures f).result ++ .zero f :: more).map (Task.holds value)).sum =
        holds (s.futures f).result value := by
      simp [finish, Task.holds, none]
    rw [quiet.destroyed, quiet.given]
    simp only [State.travelling, State.push, List.cons_append, List.nil_append, List.map_cons,
      List.sum_cons, nothing] at before resting full
    simp only [State.travelling, stack]
    rw [List.map_append, List.sum_append, moved]
    omega
  blank := by
    intro g
    rw [quiet.completed, quiet.result]
    exact ok.blank g
  seen := by
    intro other mem g saw
    rw [quiet.completed]
    have completed : (s.futures f).isCompleted = true := ok.seen task List.mem_cons_self f sees
    rw [stack] at mem
    simp only [finish, List.cons_append, List.nil_append, List.mem_cons, List.mem_append] at mem
    rcases mem with rfl | rfl | rfl | mem | mem
    · cases saw
    · cases saw
    · rw [List.mem_singleton.mp saw]
      exact completed
    · rw [seen other mem] at saw
      cases saw
    · exact ok.seen other (List.mem_cons_of_mem _ mem) g saw

/-- A future that was moved from is cleared. -/
theorem zero {f : FutureId} (ok : Valued (s.push [.zero f])) (inside : f < s.count) :
    Valued (perform s (.zero f)) where
  conserved := by
    intro value
    have before := ok.conserved value
    have resting := State.resting_change (s.push [.zero f]) value (perform s (.zero f))
      rfl inside ?_
    · have cleared : (s.push [.zero f]).cellHolds value f = 0 := if_pos (.inr List.mem_cons_self)
      have empty : (perform s (.zero f)).cellHolds value f = 0 := by
        simp [State.cellHolds, perform, State.setFuture]
      simp only [State.travelling, State.push, List.cons_append, List.nil_append, List.map_cons,
        List.sum_cons, Task.holds, perform, State.setFuture] at before resting cleared empty ⊢
      omega
    · intro g other
      simp only [State.cellHolds, perform, State.setFuture, Function.update_of_ne other, State.push,
        List.cons_append, List.nil_append, List.mem_cons]
      grind
  blank := by
    intro g
    have blank := ok.blank g
    simp only [State.push, perform, State.setFuture] at blank ⊢
    grind
  seen := by
    intro other mem g saw
    have seen := ok.seen other (List.mem_cons_of_mem _ mem) g saw
    simp only [State.push, perform, State.setFuture] at seen ⊢
    grind

/-- A result arrives. -/
theorem arrive {f : FutureId} {result : Result} (ok : Valued (s.push [.complete f result]))
    (inside : f < s.count) (live : (s.futures f).refcount ≠ 0)
    (pending : (s.futures f).isCompleted = false)
    (lights : forall other, other ∈ new -> other.IsLight)
    (seen : forall other, other ∈ new -> other.results = []) :
    Valued ((s.setFuture f
      { s.futures f with
        isCompleted := true
        result := result
        cancelHandle := false
        completed := some result }).push new) where
  conserved := by
    intro value
    have before := ok.conserved value
    have none := travelling_light lights value
    have unseen : .zero f ∉ s.stack := by
      intro mem
      have completed : (s.futures f).isCompleted = true :=
        ok.seen _ (List.mem_cons_of_mem _ mem) f List.mem_cons_self
      rw [pending] at completed
      cases completed
    have zeros : forall g, .zero g ∉ new := fun g mem => (lights _ mem).2 g rfl
    generalize moved : ((s.setFuture f
      { s.futures f with
        isCompleted := true
        result := result
        cancelHandle := false
        completed := some result }).push new) = after
    have resting := State.resting_change (s.push [.complete f result]) value after
      (by rw [<- moved]; rfl) inside ?_
    · have empty : (s.push [.complete f result]).cellHolds value f = 0 := by
        have blank : (s.futures f).result = .zero := ok.blank f pending
        simp [State.cellHolds, State.push, blank]
      have full : after.cellHolds value f = holds result value := by
        rw [<- moved]
        simp [State.cellHolds, State.push, State.setFuture, live, unseen, zeros]
      rw [<- moved] at resting full ⊢
      simp only [State.travelling, State.push, State.setFuture, List.cons_append, List.nil_append,
        List.map_cons, List.map_append, List.sum_append, List.sum_cons, Task.holds,
        none] at before resting empty full ⊢
      omega
    · intro g other
      have zeros := zeros g
      rw [<- moved]
      simp only [State.cellHolds, State.push, State.setFuture, Function.update_of_ne other,
        List.cons_append, List.nil_append, List.mem_cons, List.mem_append]
      grind
  blank := by
    intro g
    have blank := ok.blank g
    simp only [State.push, State.setFuture] at blank ⊢
    grind
  seen := by
    intro other mem g saw
    rcases List.mem_append.mp mem with mem | mem
    · rw [seen other mem] at saw
      cases saw
    · have completed := ok.seen other (List.mem_cons_of_mem _ mem) g saw
      simp only [State.push, State.setFuture] at completed ⊢
      grind

/-- The last reference takes the value with it. -/
theorem release {f : FutureId} (ok : Valued (s.push [.release f]))
    (sound : Sound (s.push [.release f])) : Valued (s.unref f) := by
  have held : 0 < (s.futures f).refcount := sound.refcount_of_kept (.head rfl)
  have inside : f < s.count := sound.lt_count held
  have light : Task.IsLight (.release f) := ⟨fun _ => rfl, by simp⟩
  simp only [State.unref]
  split
  · rename_i one
    have last := sound.last one
    have unmoved : .zero f ∉ s.stack := fun mem =>
      last.free (sound.anchored.2.kept mem (List.mem_singleton.mpr rfl))
    generalize cleared : { s.futures f with
      refcount := 0, waiters := 0, cancelToken := none, frees := (s.futures f).frees + 1 } = cell
    have result : cell.result = (s.futures f).result := by rw [<- cleared]
    have dead : cell.refcount = 0 := by rw [<- cleared]
    have completed : cell.isCompleted = (s.futures f).isCompleted := by rw [<- cleared]
    constructor
    · intro value
      have before := ok.conserved value
      have resting := State.resting_change (s.push [.release f]) value (s.setFuture f cell) rfl
        inside ?_
      · have full : (s.push [.release f]).cellHolds value f = holds (s.futures f).result value := by
          simp [State.cellHolds, State.push, one, unmoved]
        have empty : (s.setFuture f cell).cellHolds value f = 0 := by
          simp [State.cellHolds, State.setFuture, dead]
        have same : ({ (s.setFuture f cell).destroyValue (s.futures f).result with
            waiting := s.waiting.filter fun entry => entry.1 ≠ f } : State).resting value =
            (s.setFuture f cell).resting value := by
          refine State.resting_congr _ value _ (State.count_destroyValue _ _) ?_
          intro g
          simp only [State.cellHolds, State.futures_destroyValue, State.stack_destroyValue]
        rw [same]
        change ((s.setFuture f cell).destroyValue (s.futures f).result).travelling value + _ +
          ((s.setFuture f cell).destroyValue (s.futures f).result).destroyed value =
          ((s.setFuture f cell).destroyValue (s.futures f).result).given value
        rw [destroyed_destroyValue, State.given_destroyValue]
        simp only [State.travelling, State.stack_destroyValue, State.push, State.setFuture,
          List.cons_append, List.nil_append, List.map_cons, List.sum_cons,
          Task.holds] at before resting full empty ⊢
        omega
      · intro g other
        simp only [State.cellHolds, State.push, State.setFuture, Function.update_of_ne other,
          List.cons_append, List.nil_append, List.mem_cons]
        grind
    · intro g
      have blank := ok.blank g
      simp only [State.futures_destroyValue, State.setFuture]
      simp only [State.push] at blank
      grind
    · intro other mem g saw
      simp only [State.stack_destroyValue] at mem
      have seen := ok.seen other (List.mem_cons_of_mem _ mem) g saw
      simp only [State.futures_destroyValue, State.setFuture]
      simp only [State.push] at seen
      grind
  · rename_i more
    refine ok.retire (.setFuture rfl rfl rfl rfl rfl ?_ rfl) light rfl
    change (s.futures f).refcount - 1 = 0 ↔ (s.futures f).refcount = 0
    omega

/-- A future is made, and it has no value. -/
theorem created (ok : Valued s) (sound : Sound s) (count : after.count = s.count + 1)
    (given : after.given = s.given) (destroyed : after.destroyed = s.destroyed)
    (made : (after.futures s.count).result = .zero)
    (result : forall f, f ≠ s.count -> (after.futures f).result = (s.futures f).result)
    (refcount : forall f, f ≠ s.count ->
      ((after.futures f).refcount = 0 ↔ (s.futures f).refcount = 0))
    (completed : forall f, f ≠ s.count ->
      (after.futures f).isCompleted = (s.futures f).isCompleted)
    (stack : after.stack = new ++ s.stack) (lights : forall other, other ∈ new -> other.IsLight)
    (seen : forall other, other ∈ new -> other.results = []) : Valued after where
  conserved := by
    intro value
    have before := ok.conserved value
    have none := travelling_light lights value
    have resting : after.resting value = s.resting value := by
      have empty : after.cellHolds value s.count = 0 := by
        simp [State.cellHolds, made]
      simp only [State.resting, count, Finset.sum_range_succ, empty, Nat.add_zero]
      refine Finset.sum_congr rfl ?_
      intro f mem
      have other : f ≠ s.count := Nat.ne_of_lt (Finset.mem_range.mp mem)
      have zeros : .zero f ∈ after.stack ↔ .zero f ∈ s.stack := by
        rw [stack, List.mem_append, or_iff_right]
        exact fun mem => (lights _ mem).2 f rfl
      simp only [State.cellHolds, refcount f other, result f other, zeros]
    rw [resting, given, destroyed]
    simp only [State.travelling, stack, List.map_append, List.sum_append, none] at before ⊢
    omega
  blank := by
    intro f pending
    by_cases here : f = s.count
    · rw [here]
      exact made
    · rw [result f here]
      rw [completed f here] at pending
      exact ok.blank f pending
  seen := by
    intro other mem f saw
    rw [stack] at mem
    rcases List.mem_append.mp mem with mem | mem
    · rw [seen other mem] at saw
      cases saw
    · have before := ok.seen other mem f saw
      have here : f ≠ s.count := by
        intro here
        rw [here, (sound.fresh s.count (Nat.le_refl _)).cell] at before
        cases before
      rw [completed f here]
      exact before

end Valued

end Operator
end UfsrvRx
