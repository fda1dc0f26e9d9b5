import UfsrvRx.Operator.Steps

namespace UfsrvRx
namespace Operator

open Transition
open UfsrvRx.Future (Result ValueId epipe ecanceled einval)

/-!
# A future from its promise to its end
-/

/-- The works of the rest of the stack are not disturbed, and the new tasks are admissible. -/
theorem Sound.works_after {s after : State} {task : Task} {new : List Task}
    (ok : Sound (s.push [task])) (stack : after.stack = new ++ s.stack)
    (mono : forall other, other ∈ s.stack -> Admissible s other -> Admissible after other)
    (admissible : forall other, other ∈ new -> Admissible after other) :
    forall other, other ∈ after.stack -> Admissible after other := by
  intro other mem
  rw [stack] at mem
  rcases List.mem_append.mp mem with mem | mem
  · exact admissible other mem
  · exact mono other mem (ok.works other (List.mem_cons_of_mem _ mem))

namespace Sound

variable {s : State}

/-! ## The promise -/

/-- A promise is fulfilled, and its future is about to be completed. -/
theorem fulfil {task : Task} {more : List Task} {f : FutureId} {result : Result}
    (ok : Sound (s.push [task])) (inside : f < s.count) (ordinary : Ordinary s task)
    (placed : forall other, other ∈ more -> Placed (s.fulfil f) other)
    (anchored : Anchored s.stack -> (forall g, g ∈ task.touches -> Kept s.stack g) ->
      Anchored (.complete f result :: more ++ s.stack))
    (resources : more.flatMap Task.resources = task.resources) :
    Sound ((s.fulfil f).push (.complete f result :: more)) := by
  have before := ok.balanced
  exact { ok with
    balanced := by
      refine State.balanced_change before rfl rfl ?_
      intro r
      rw [List.flatMap_cons, resources]
      cases r <;>
        simp only [State.extra, State.total, State.push, State.fulfil, State.setPromise,
          State.zipRefs, Task.resources, List.nil_append, List.flatMap_singleton,
          Function.update_apply] <;> grind
    anchored := anchored ok.anchored.2 ok.anchored.1
    works := by
      refine ok.works_after rfl ?_ ?_
      · intro other mem works
        cases other with
        | releasePromise g | leaveSet g =>
            simp only [Admissible, State.push, State.fulfil, State.setPromise] at works ⊢
            grind
        | _ => exact works
      · intro other mem
        rcases List.mem_cons.mp mem with rfl | mem
        · trivial
        · exact (placed other mem).1
    fresh := by
      intro g outside
      have other : g ≠ f := Nat.ne_of_gt (Nat.lt_of_lt_of_le inside outside)
      have blank := ok.fresh g outside
      exact { blank with
        promise := by
          simp only [State.push, State.fulfil, State.setPromise, Function.update_of_ne other]
          exact blank.promise }
    drained := by
      intro g completed
      rcases ok.drained_of_completed ordinary completed with closed | mem
      · exact .inl closed
      · exact .inr (List.mem_append_right _ mem)
    fulfilled := by
      intro g fulfilled
      by_cases here : g = f
      · exact .inr ⟨result, by rw [here]; rfl⟩
      · refine .inl (ok.completed_of_fulfilled ordinary ?_)
        simpa only [State.push, State.fulfil, State.setPromise,
          Function.update_of_ne here] using fulfilled
    dead := by
      intro g lt dead
      have before := ok.dead g lt
      simp only [State.push, State.fulfil, State.setPromise] at dead before ⊢
      grind
    handles := by
      intro g
      have handles := ok.handles g
      have none : more.count (.attached g) = 0 := by
        rw [List.count_eq_zero]
        intro mem
        exact (placed _ mem).2 g rfl
      simp only [State.push, State.fulfil, State.setPromise, List.cons_append, List.nil_append,
        List.count_cons, List.count_append, none] at handles ⊢
      grind }

theorem setResult {f : FutureId} {result : Result} (ok : Sound (s.push [.setResult f result])) :
    Sound (perform s (.setResult f result)) := by
  have inside := (ok.touched (f := f) (by simp [Task.touches])).2
  simp only [perform]
  split
  · exact ok.retire (.destroyValue s result) (State.stack_destroyValue s result) trivial
      fun _ => by simp [Task.resources]
  · refine ok.fulfil inside trivial (by simp) ?_ rfl
    intro rest kept
    exact ⟨kept, rest⟩

theorem destroyPromise {f : FutureId} (ok : Sound (s.push [.destroyPromise f])) :
    Sound (perform s (.destroyPromise f)) := by
  have inside : f < s.count := ok.lt_count (ok.refcount_of_kept (.head rfl))
  simp only [perform]
  split
  · rename_i fulfilled
    refine ok.exchange trivial (by simp [Placed, Admissible, fulfilled]) ?_ rfl
    intro rest _
    exact ⟨by simp [Task.touches], rest⟩
  · refine ok.fulfil inside trivial ?_ ?_ rfl
    · simp [Placed, Admissible, State.fulfil, State.setPromise]
    · intro rest _
      simp [Anchored, Task.touches, Kept.cons, Task.anchors, rest]

/-- The promise is destroyed, and its reference is to be released. -/
theorem endPromise {f : FutureId} (ok : Sound (s.push [.releasePromise f])) :
    Sound ((s.setPromise f { s.promises f with isLive := false }).push [.release f]) := by
  have inside : f < s.count := ok.lt_count (ok.refcount_of_kept (.head rfl))
  have fulfilled : (s.promises f).isFulfilled = true := ok.works _ List.mem_cons_self
  have live : (s.promises f).isLive = true :=
    ok.live_of_held (held_pos List.mem_cons_self (List.mem_singleton.mpr rfl))
  have before := ok.balanced
  exact { ok with
    balanced := by
      refine State.balanced_change before rfl rfl ?_
      intro r
      cases r <;>
        simp only [State.extra, State.total, State.push, State.setPromise, State.zipRefs,
          Task.resources, List.flatMap_singleton, List.count_cons, Function.update_apply] <;> grind
    anchored := ⟨by simp [Task.touches], ok.anchored.2⟩
    works := by
      refine ok.works_after rfl ?_ (by simp [Admissible])
      intro other mem works
      cases other with
      | releasePromise g | leaveSet g =>
          simp only [Admissible, State.push, State.setPromise] at works ⊢
          grind
      | _ => exact works
    fresh := by
      intro g outside
      have other : g ≠ f := Nat.ne_of_gt (Nat.lt_of_lt_of_le inside outside)
      have blank := ok.fresh g outside
      exact { blank with
        promise := by
          simp only [State.push, State.setPromise, Function.update_of_ne other]
          exact blank.promise }
    drained := by
      intro g completed
      rcases ok.drained_of_completed trivial completed with closed | mem
      · exact .inl closed
      · exact .inr (List.mem_cons_of_mem _ mem)
    fulfilled := by
      intro g before
      refine .inl (ok.completed_of_fulfilled trivial ?_)
      simp only [State.push, State.setPromise] at before
      grind
    dead := by
      intro g lt dead
      have before := ok.dead g lt
      simp only [State.push, State.setPromise] at dead before ⊢
      grind
    handles := by
      intro g
      have handles := ok.handles g
      simp only [State.push, State.setPromise, List.cons_append, List.nil_append,
        List.count_cons] at handles ⊢
      grind }

/-! ## Completion -/

/-- The future is completed, and its registration and its stacks are to be taken care of. -/
theorem completeFirst {f : FutureId} {result : Result} {new : List Task}
    (ok : Sound (s.push [.complete f result]))
    (drain : .drain f ∈ new) (only : forall task, task ∈ new -> task = .unregister f ∨ task = .drain f)
    (holds : new.flatMap Task.resources =
      if (s.futures f).cancelHandle = true then [.node f] else []) :
    Sound ((s.setFuture f
      { s.futures f with
        isCompleted := true
        result := result
        cancelHandle := false
        completed := some result }).push new) := by
  have inside := (ok.touched (f := f) (by simp [Task.touches])).2
  have before := ok.balanced
  exact { ok with
    balanced := by
      refine State.balanced_change before rfl rfl ?_
      intro r
      rw [holds]
      cases r <;>
        simp only [State.extra, State.total, State.push, State.setFuture, State.zipRefs,
          Task.resources, List.flatMap_singleton, Function.update_apply] <;> grind
    anchored := by
      refine ok.anchored.2.append ?_
      intro task mem g touched
      rcases only task mem with rfl | rfl
      · simp [Task.touches] at touched
      · rw [List.mem_singleton.mp touched]
        exact ok.anchored.1 f (by simp [Task.touches])
    works := by
      refine ok.works_after rfl ?_ ?_
      · intro other mem works
        cases other with
        | drain g =>
            simp only [Admissible, State.push, State.setFuture] at works ⊢
            grind
        | _ => exact works
      · intro other mem
        rcases only other mem with rfl | rfl
        · trivial
        · simp [Admissible, State.push, State.setFuture]
    fresh := by
      intro g outside
      have other : g ≠ f := Nat.ne_of_gt (Nat.lt_of_lt_of_le inside outside)
      have blank := ok.fresh g outside
      exact { blank with
        cell := by
          simp only [State.push, State.setFuture, Function.update_of_ne other]
          exact blank.cell }
    waits := by
      intro g continuation mem
      have waits := ok.waits g continuation mem
      simp only [State.push, State.setFuture] at waits ⊢
      grind
    closed := by
      intro g
      have closed := ok.closed g
      simp only [State.push, State.setFuture] at closed ⊢
      grind
    drained := by
      intro g completed
      by_cases here : g = f
      · exact .inr (List.mem_append_left _ (here ▸ drain))
      · have drained := ok.drained g
        simp only [State.push, State.setFuture, Function.update_of_ne here, List.cons_append,
          List.nil_append, List.mem_cons, List.mem_append] at completed drained ⊢
        grind
    fulfilled := by
      intro g fulfilled
      by_cases here : g = f
      · exact .inl (by simp [here, State.push, State.setFuture])
      · refine .inl ?_
        simp only [State.push, State.setFuture, Function.update_of_ne here]
        rcases ok.fulfilled g fulfilled with completed | ⟨result, head⟩
        · exact completed
        · exact absurd (by cases head; rfl) here
    freed := by
      intro g
      have freed := ok.freed g
      simp only [State.push, State.setFuture] at freed ⊢
      grind
    handles := by
      intro g
      have handles := ok.handles g
      have none : new.count (.attached g) = 0 := by
        rw [List.count_eq_zero]
        intro mem
        rcases only _ mem with same | same <;> cases same
      simp only [State.push, State.setFuture, List.cons_append, List.nil_append, List.count_cons,
        List.count_append, none] at handles ⊢
      grind
    given := by
      intro g
      have given := ok.given g
      simp only [State.push, State.setFuture] at given ⊢
      grind
    idle := by
      intro g
      have idle := ok.idle g
      simp only [State.push, State.setFuture] at idle ⊢
      grind
    owned := by
      intro g
      have owned := ok.owned g
      simp only [State.push, State.setFuture] at owned ⊢
      grind }

theorem complete {f : FutureId} {result : Result} (ok : Sound (s.push [.complete f result])) :
    Sound (perform s (.complete f result)) := by
  simp only [perform]
  split
  · rename_i completed
    exact ok.retire (.destroyValue s result) (State.stack_destroyValue s result) completed
      fun _ => by simp [Task.resources]
  · refine ok.completeFirst ?_ ?_ ?_
    · split <;> simp
    · split <;> simp
    · split <;> rfl

/-- What waits is run, or waits for another future. -/
theorem count_waiting (waiting : List (FutureId × Continuation)) (f : FutureId) (r : Resource) :
    ((((waiting.filter fun entry => entry.1 = f).map
        fun entry => Task.run f entry.2).flatMap Task.resources).count r +
      ((waiting.filter fun entry => entry.1 ≠ f).flatMap
        fun entry => entry.2.resources entry.1).count r) =
      (waiting.flatMap fun entry => entry.2.resources entry.1).count r := by
  induction waiting with
  | nil => rfl
  | cons entry waiting inductionHypothesis =>
      by_cases here : entry.1 = f
      · simp only [List.filter_cons, here, decide_true, decide_false, ne_eq, not_true, if_true,
          if_false, List.map_cons, List.flatMap_cons, List.count_append, Task.resources,
          Bool.false_eq_true] at inductionHypothesis ⊢
        omega
      · simp only [List.filter_cons, here, decide_true, decide_false, ne_eq, not_false_eq_true,
          if_true, if_false, List.flatMap_cons, List.count_append,
          Bool.false_eq_true] at inductionHypothesis ⊢
        omega

theorem drain {f : FutureId} (ok : Sound (s.push [.drain f])) :
    Sound (perform s (.drain f)) := by
  have inside := (ok.touched (f := f) (by simp [Task.touches])).2
  have completed : (s.futures f).isCompleted = true := ok.works _ List.mem_cons_self
  have before := ok.balanced
  exact { ok with
    balanced := by
      intro r
      have before := before r
      have waiting := count_waiting s.waiting f r
      have extra : (perform s (.drain f)).extra r = s.extra r := by
        cases r <;>
          simp only [State.extra, State.setFuture, State.zipRefs, perform,
            Function.update_apply] <;> grind
      have total : (perform s (.drain f)).total r = s.total r := by
        cases r <;> simp only [State.total, State.setFuture, perform, Function.update_apply] <;> grind
      rw [State.extra_push, State.total_push] at before
      rw [extra, total]
      simp only [State.held, State.push, perform, List.flatMap_append, List.flatMap_cons,
        List.flatMap_nil, Task.resources, List.nil_append, List.count_append] at before waiting ⊢
      omega
    anchored := by
      refine ok.anchored.2.append ?_
      intro task mem g touched
      rcases List.mem_map.mp mem with ⟨entry, _, rfl⟩
      rw [List.mem_singleton.mp touched]
      exact ok.anchored.1 f (by simp [Task.touches])
    works := by
      refine ok.works_after rfl ?_ ?_
      · intro other mem works
        cases other with
        | drain g =>
            simp only [Admissible, perform, State.setFuture] at works ⊢
            grind
        | _ => exact works
      · intro other mem
        rcases List.mem_map.mp mem with ⟨entry, _, rfl⟩
        trivial
    fresh := by
      intro g outside
      have other : g ≠ f := Nat.ne_of_gt (Nat.lt_of_lt_of_le inside outside)
      have blank := ok.fresh g outside
      exact { blank with
        cell := by
          simp only [perform, State.setFuture, Function.update_of_ne other]
          exact blank.cell }
    waits := by
      intro g continuation mem
      rcases List.mem_filter.mp mem with ⟨mem, other⟩
      have waits := ok.waits g continuation mem
      simp only [ne_eq, decide_eq_true_eq] at other
      simp only [perform, State.setFuture, Function.update_of_ne other]
      exact waits
    closed := by
      intro g
      have closed := ok.closed g
      simp only [State.push, perform, State.setFuture] at closed ⊢
      grind
    drained := by
      intro g completed
      by_cases here : g = f
      · exact .inl (by simp [here, perform, State.setFuture])
      · have drained := ok.drained g
        simp only [State.push, perform, State.setFuture, Function.update_of_ne here,
          List.cons_append, List.nil_append, List.mem_cons, List.mem_append] at completed drained ⊢
        grind
    fulfilled := by
      intro g fulfilled
      rcases ok.fulfilled g fulfilled with completed | ⟨result, head⟩
      · refine .inl ?_
        simp only [State.push, perform, State.setFuture] at completed ⊢
        grind
      · cases head
    freed := by
      intro g
      have freed := ok.freed g
      simp only [State.push, perform, State.setFuture] at freed ⊢
      grind
    handles := by
      intro g
      have handles := ok.handles g
      have none : ((s.waiting.filter fun entry => entry.1 = f).map
          fun entry => Task.run f entry.2).count (.attached g) = 0 := by
        rw [List.count_eq_zero]
        intro mem
        rcases List.mem_map.mp mem with ⟨entry, _, same⟩
        cases same
      simp only [State.push, perform, State.setFuture, List.cons_append, List.nil_append,
        List.count_cons, List.count_append, none] at handles ⊢
      grind
    given := by
      intro g
      have given := ok.given g
      simp only [State.push, perform, State.setFuture] at given ⊢
      grind
    idle := by
      intro g
      have idle := ok.idle g
      simp only [State.push, perform, State.setFuture] at idle ⊢
      grind
    owned := by
      intro g
      have owned := ok.owned g
      simp only [State.push, perform, State.setFuture] at owned ⊢
      grind }

/-! ## The last reference -/

/-- A future whose last reference is about to be released. -/
structure Last (s : State) (f : FutureId) : Prop where
  completed : (s.futures f).isCompleted = true
  closed : (s.futures f).isClosed = true
  idle : (s.futures f).waiters = 0
  waits : forall entry, entry ∈ s.waiting -> entry.1 ≠ f
  free : ¬Kept s.stack f
  none : s.held.count (.reference f) + s.extra (.reference f) = 0

theorem last {f : FutureId} (ok : Sound (s.push [.release f])) (one : (s.futures f).refcount = 1) :
    Last s f := by
  have inside : f < s.count := ok.lt_count (ok.refcount_of_kept (.head rfl))
  have balanced := ok.balanced (.reference f)
  rw [State.held_push, State.extra_push, State.total_push] at balanced
  simp only [Task.resources, List.flatMap_singleton, List.count_append,
    List.count_singleton_self, State.total, one] at balanced
  have none : s.held.count (.reference f) + s.extra (.reference f) = 0 := by omega
  have free : ¬Kept s.stack f := by
    intro kept
    have share := ok.share_of_kept kept
    omega
  have dead : (s.promises f).isLive = false := by
    simp only [State.extra] at none
    cases live : (s.promises f).isLive with
    | false => rfl
    | true =>
        rw [live, Bool.toNat_true] at none
        omega
  have completed : (s.futures f).isCompleted = true :=
    ok.completed_of_fulfilled trivial (ok.dead f inside dead)
  have closed : (s.futures f).isClosed = true := by
    rcases ok.drained_of_completed trivial completed with closed | mem
    · exact closed
    · exact absurd (ok.anchored.2.kept mem (List.mem_singleton.mpr rfl)) free
  refine ⟨completed, closed, ok.idle f closed, ?_, free, none⟩
  intro entry mem here
  have waits := (ok.waits entry.1 entry.2 mem).2
  rw [here] at waits
  exact absurd (closed.symm.trans waits) (by simp)

theorem release {f : FutureId} (ok : Sound (s.push [.release f])) : Sound (s.unref f) := by
  have held : 0 < (s.futures f).refcount := ok.refcount_of_kept (.head rfl)
  have inside : f < s.count := ok.lt_count held
  have before := ok.balanced
  simp only [State.unref]
  split
  · rename_i one
    have last := ok.last one
    have unowned : (s.nodes f).refcount = 0 := by
      have none := last.none
      simp only [State.extra] at none
      grind
    have unheld : (s.futures f).cancelHandle = false := ok.given f last.completed
    have unattached : s.stack.count (.attached f) = 0 := by
      rw [List.count_eq_zero]
      intro mem
      exact last.free ⟨_, mem, rfl⟩
    have waiting : (s.waiting.filter fun entry => entry.1 ≠ f) = s.waiting :=
      List.filter_eq_self.mpr fun entry mem => by simpa using last.waits entry mem
    have same : forall cell : Cell, { (s.setFuture f cell).destroyValue (s.futures f).result with
        waiting := s.waiting.filter fun entry => entry.1 ≠ f } =
        (s.setFuture f cell).destroyValue (s.futures f).result := by
      intro cell
      rw [waiting]
      unfold State.destroyValue
      split <;> rfl
    rw [same]
    refine Sound.destroyValue ?_ _
    exact { ok with
      balanced := by
        refine State.balanced_spend before rfl rfl ?_
        intro r
        cases r <;>
          simp only [State.extra, State.total, State.setFuture, State.zipRefs, Task.resources,
            List.count_cons, Function.update_apply] <;> grind
      anchored := ok.anchored.2
      works := by
        intro other mem
        have works : Admissible s other := ok.works other (List.mem_cons_of_mem _ mem)
        cases other with
        | drain g =>
            simp only [Admissible, State.setFuture] at works ⊢
            grind
        | _ => exact works
      fresh := by
        intro g outside
        have other : g ≠ f := Nat.ne_of_gt (Nat.lt_of_lt_of_le inside outside)
        have blank := ok.fresh g outside
        exact { blank with
          cell := by
            simp only [State.setFuture, Function.update_of_ne other]
            exact blank.cell }
      waits := by
        intro g continuation mem
        have waits := ok.waits g continuation mem
        simp only [State.push, State.setFuture] at waits ⊢
        grind
      closed := by
        intro g
        have closed := ok.closed g
        simp only [State.push, State.setFuture] at closed ⊢
        grind
      drained := by
        intro g completed
        have drained := ok.drained_of_completed trivial (f := g)
        simp only [State.setFuture] at completed drained ⊢
        grind
      fulfilled := by
        intro g fulfilled
        have completed := ok.completed_of_fulfilled trivial fulfilled
        simp only [State.setFuture] at completed ⊢
        grind
      freed := by
        intro g
        have freed := ok.freed g
        simp only [State.push, State.setFuture] at freed ⊢
        grind
      handles := by
        intro g
        have handles := ok.handles g
        simp only [State.push, State.setFuture, List.cons_append, List.nil_append,
          List.count_cons] at handles ⊢
        grind
      given := by
        intro g
        have given := ok.given g
        simp only [State.push, State.setFuture] at given ⊢
        grind
      idle := by
        intro g
        have idle := ok.idle g
        simp only [State.push, State.setFuture] at idle ⊢
        grind
      owned := by
        intro g
        have owned := ok.owned g
        simp only [State.push, State.setFuture] at owned ⊢
        grind }
  · rename_i more
    refine ok.retire (.setFuture inside rfl rfl rfl ?_ rfl rfl rfl) rfl trivial ?_
    · change (s.futures f).refcount - 1 = 0 ↔ (s.futures f).refcount = 0
      omega
    · intro r
      cases r <;>
        simp only [State.extra, State.total, State.setFuture, State.zipRefs, Task.resources,
          List.count_cons, Function.update_apply] <;> grind

theorem releasePromise {f : FutureId} (ok : Sound (s.push [.releasePromise f])) :
    Sound (perform s (.releasePromise f)) :=
  ok.endPromise.release

end Sound

end Operator
end UfsrvRx
