import UfsrvRx.Operator.Lifecycle

namespace UfsrvRx
namespace Operator

open Transition
open UfsrvRx.Future (Result ValueId epipe ecanceled einval)

/-!
# Registrations with futures and with tokens
-/

namespace Sound

variable {s : State}

/-! ## Registrations with a future -/

theorem register {f : FutureId} {continuation : Continuation}
    (ok : Sound (s.push [.register f continuation])) :
    Sound (perform s (.register f continuation)) := by
  have inside := (ok.touched (f := f) (by simp [Task.touches])).2
  have before := ok.balanced
  simp only [perform]
  split
  · refine ok.exchange trivial (by simp [Placed, Admissible]) ?_ ?_
    · intro rest kept
      exact ⟨kept, rest⟩
    · simp [Task.resources]
  · rename_i pending
    exact { ok with
      balanced := by
        intro r
        have before := before r
        have extra : ({ s with waiting := (f, continuation) :: s.waiting } : State).extra r =
            s.extra r := by
          cases r <;> rfl
        have total : ({ s with waiting := (f, continuation) :: s.waiting } : State).total r =
            s.total r := by
          cases r <;> rfl
        rw [State.extra_push, State.total_push] at before
        rw [extra, total]
        simp only [State.held, State.push, List.flatMap_cons, List.nil_append,
          List.cons_append, Task.resources, List.count_append] at before ⊢
        omega
      anchored := ok.anchored.2
      works := fun other mem => ok.works other (List.mem_cons_of_mem _ mem)
      fresh := fun g outside => { ok.fresh g outside with }
      waits := by
        intro g other mem
        rcases List.mem_cons.mp mem with here | mem
        · cases here
          exact ⟨inside, by simpa using fun closed => pending (.inr closed)⟩
        · exact ok.waits g other mem
      drained := fun g completed => ok.drained_of_completed trivial completed
      fulfilled := fun g fulfilled => .inl (ok.completed_of_fulfilled trivial fulfilled)
      handles := by
        intro g
        have handles := ok.handles g
        simpa [State.push] using handles }

/-! ## The registration with a token -/

/-- References to the registration of a future are dropped, and the token has it no more. -/
theorem dropReferences {task : Task} {f : FutureId} {references : Nat} {tokens : TokenId -> Token}
    (ok : Sound (s.push [task])) (ordinary : Ordinary s task) (holds : task.resources = [.node f])
    (spent : references = 1 + (s.nodes f).isActive.toNat)
    (alone : forall t g, (tokens t).nodes.count (some g) ≤ 1)
    (listed : forall t g, some g ∈ (tokens t).nodes ↔ g ≠ f ∧ some g ∈ (s.tokens t).nodes) :
    Sound (({ s with tokens := tokens } : State).dropNode f references) := by
  have held : 0 < (s.push [task]).held.count (.node f) :=
    held_pos List.mem_cons_self (by rw [holds]; exact List.mem_singleton.mpr rfl)
  have node := ok.balanced (.node f)
  rw [State.held_push, State.extra_push, State.total_push, List.flatMap_singleton, holds] at node
  simp only [List.count_append, List.count_singleton_self, State.extra, State.total] at node
  have inside : f < s.count := by
    by_contra outside
    have blank : s.nodes f = start.nodes f := (ok.fresh f (Nat.le_of_not_lt outside)).node
    rw [blank] at node
    simp only [start] at node
    omega
  have pair := ok.pair f
  change (s.nodes f).isActive = true -> (s.nodes f).refcount = 2 at pair
  have owned := ok.owned f
  change (s.futures f).cancelToken = none -> (s.nodes f).refcount = 0 at owned
  have before := ok.balanced
  generalize made : (if (s.nodes f).refcount = references then [Task.release f] else []) = new
  have only : forall other, other ∈ new -> other = .release f := by
    rw [<- made]
    split <;> simp
  have resources : new.flatMap Task.resources =
      if (s.nodes f).refcount = references then [.reference f] else [] := by
    rw [<- made]
    split <;> rfl
  have same : ({ s with tokens := tokens } : State).dropNode f references =
      (({ s with tokens := tokens } : State).setNode f { s.nodes f with
        refcount := (s.nodes f).refcount - references, isActive := false }).push new := by
    rw [<- made]
    simp only [State.dropNode]
    split <;> rfl
  rw [same]
  exact { ok with
    balanced := by
      refine State.balanced_change before rfl rfl ?_
      intro r
      rw [resources, List.flatMap_singleton, holds]
      cases r <;>
        simp only [State.extra, State.total, State.push, State.setNode, State.zipRefs,
          List.count_cons, Function.update_apply] <;> grind
    anchored := by
      refine ok.anchored.2.append ?_
      intro other mem g touched
      rw [only other mem] at touched
      simp [Task.touches] at touched
    works := by
      refine ok.works_after rfl ?_ ?_
      · intro other mem works
        cases other with
        | dropNode g =>
            simp only [Admissible, State.push, State.setNode] at works ⊢
            grind
        | _ => exact works
      · intro other mem
        rw [only other mem]
        trivial
    fresh := by
      intro g outside
      have other : g ≠ f := Nat.ne_of_gt (Nat.lt_of_lt_of_le inside outside)
      have blank := ok.fresh g outside
      exact { blank with
        node := by
          simp only [State.push, State.setNode, Function.update_of_ne other]
          exact blank.node }
    drained := by
      intro g completed
      rcases ok.drained_of_completed ordinary completed with closed | mem
      · exact .inl closed
      · exact .inr (List.mem_append_right _ mem)
    fulfilled := fun g fulfilled => .inl (ok.completed_of_fulfilled ordinary fulfilled)
    alone := alone
    listed := by
      intro t g
      have before := ok.listed t g
      have after := listed t g
      simp only [State.push, State.setNode] at before after ⊢
      grind
    pair := by
      intro g
      have pair := ok.pair g
      simp only [State.push, State.setNode] at pair ⊢
      grind
    handles := by
      intro g
      have handles := ok.handles g
      have none : new.count (.attached g) = 0 := by
        rw [List.count_eq_zero]
        intro mem
        cases only _ mem
      simp only [State.push, State.setNode, List.cons_append, List.nil_append, List.count_cons,
        List.count_append, none] at handles ⊢
      omega
    owned := by
      intro g
      have owned := ok.owned g
      simp only [State.push, State.setNode] at owned ⊢
      grind }

theorem dropNode {f : FutureId} (ok : Sound (s.push [.dropNode f])) :
    Sound (perform s (.dropNode f)) := by
  have inactive : (s.nodes f).isActive = false := ok.works _ List.mem_cons_self
  refine ok.dropReferences trivial rfl (by simp [inactive]) ok.alone ?_
  intro t g
  have listed := ok.listed t g
  simp only [State.push] at listed
  grind

theorem unregister {f : FutureId} (ok : Sound (s.push [.unregister f])) :
    Sound (perform s (.unregister f)) := by
  simp only [perform]
  split
  · rename_i active
    refine ok.dropReferences trivial rfl (by simp [active]) ?_ ?_
    · intro t g
      have alone := ok.alone t g
      simp only [State.push] at alone
      by_cases here : t = (s.nodes f).token
      · subst here
        have fewer := List.Sublist.count_le (some g)
          (List.erase_sublist (a := some f) (l := (s.tokens (s.nodes f).token).nodes))
        simp only [Function.update_self]
        omega
      · simpa [here] using alone
    · intro t g
      have listed := ok.listed t g
      have alone := ok.alone t f
      simp only [State.push] at listed alone
      by_cases here : t = (s.nodes f).token
      · subst here
        by_cases same : g = f
        · subst same
          simp only [Function.update_self, ne_eq, not_true, false_and, iff_false]
          rw [<- List.count_eq_zero, List.count_erase_self]
          omega
        · simp only [Function.update_self, ne_eq, same, not_false_eq_true, true_and]
          exact List.mem_erase_of_ne (by simpa using same)
      · simp only [Function.update_of_ne here]
        grind
  · rename_i inactive
    refine ok.dropReferences trivial rfl (by simp [inactive]) ok.alone ?_
    intro t g
    have listed := ok.listed t g
    simp only [State.push] at listed
    grind

theorem attached {f : FutureId} (ok : Sound (s.push [.attached f])) :
    Sound (perform s (.attached f)) := by
  have inside : f < s.count := ok.lt_count (ok.refcount_of_kept (.head rfl))
  have before := ok.balanced
  have here := ok.handles f
  simp only [State.push, List.cons_append, List.nil_append, List.count_cons_self] at here
  have bound := (s.futures f).cancelToken.isSome.toNat_le
  have unheld : (s.futures f).cancelHandle = false := by
    cases handle : (s.futures f).cancelHandle with
    | false => rfl
    | true =>
        rw [handle, Bool.toNat_true] at here
        omega
  have alone : s.stack.count (.attached f) = 0 := by omega
  have token : (s.futures f).cancelToken.isSome = true := by
    cases some : (s.futures f).cancelToken.isSome with
    | true => rfl
    | false =>
        rw [some, Bool.toNat_false] at here
        omega
  simp only [perform]
  split
  · refine ok.exchange trivial (by simp [Placed, Admissible]) ?_ rfl
    intro rest _
    exact ⟨by simp [Task.touches], rest⟩
  · rename_i pending
    exact { ok with
      balanced := by
        refine State.balanced_spend before rfl rfl ?_
        intro r
        cases r <;>
          simp only [State.extra, State.total, State.setFuture, State.zipRefs, Task.resources,
            List.count_cons, Function.update_apply] <;> grind
      anchored := ok.anchored.2
      works := by
        intro other mem
        have works : Admissible s other := ok.works other (List.mem_cons_of_mem _ mem)
        cases other with
        | drain g =>
            simp only [Admissible, State.setFuture] at works ⊢
            grind
        | _ => exact works
      fresh := by
        intro g outside
        have other : g ≠ f := Nat.ne_of_gt (Nat.lt_of_lt_of_le inside outside)
        have blank := ok.fresh g outside
        exact { blank with
          cell := by
            simp only [State.setFuture, Function.update_of_ne other]
            exact blank.cell }
      waits := by
        intro g continuation mem
        have waits := ok.waits g continuation mem
        simp only [State.push, State.setFuture] at waits ⊢
        grind
      closed := by
        intro g
        have closed := ok.closed g
        simp only [State.push, State.setFuture] at closed ⊢
        grind
      drained := by
        intro g completed
        have drained := ok.drained_of_completed trivial (f := g)
        simp only [State.setFuture] at completed drained ⊢
        grind
      fulfilled := by
        intro g fulfilled
        have completed := ok.completed_of_fulfilled trivial fulfilled
        simp only [State.setFuture] at completed ⊢
        grind
      freed := by
        intro g
        have freed := ok.freed g
        simp only [State.push, State.setFuture] at freed ⊢
        grind
      handles := by
        intro g
        have handles := ok.handles g
        simp only [State.push, State.setFuture, List.cons_append, List.nil_append,
          List.count_cons] at handles ⊢
        grind
      given := by
        intro g
        have given := ok.given g
        simp only [State.push, State.setFuture] at given ⊢
        grind
      idle := by
        intro g
        have idle := ok.idle g
        simp only [State.push, State.setFuture] at idle ⊢
        grind
      owned := by
        intro g
        have owned := ok.owned g
        simp only [State.push, State.setFuture] at owned ⊢
        grind }

/-- A token is attached to a future that has none. -/
theorem attachToken {f : FutureId} {token : TokenId} {new : List Task}
    (ok : Sound (s.push [.attach f token])) (active : Bool) (tokens : TokenId -> Token)
    (pending : (s.futures f).isCompleted = false) (free : (s.futures f).cancelToken = none)
    (alone : forall t g, (tokens t).nodes.count (some g) ≤ 1)
    (listed : forall t g, some g ∈ (tokens t).nodes ↔
      some g ∈ (s.tokens t).nodes ∨ active = true ∧ t = token ∧ g = f)
    (only : new = [.attached f] ∨ Exists fun result => new = [.complete f result, .attached f]) :
    Sound (((({ s with tokens := tokens } : State).setFuture f
      { s.futures f with
        cancelToken := some token
        refcount := (s.futures f).refcount + 1 }).setNode f
          ⟨token, 1 + active.toNat, active⟩).push new) := by
  have inside := (ok.touched (f := f) (by simp [Task.touches])).2
  have held : 0 < (s.futures f).refcount := (ok.touched (f := f) (by simp [Task.touches])).1
  have unowned : (s.nodes f).refcount = 0 := ok.owned f free
  have node := ok.balanced (.node f)
  rw [State.held_push, State.extra_push, State.total_push] at node
  simp only [State.extra, State.total, unowned, Task.resources, List.flatMap_singleton,
    List.nil_append] at node
  have inactive : (s.nodes f).isActive = false := by
    cases active : (s.nodes f).isActive with
    | false => rfl
    | true =>
        rw [active, Bool.toNat_true] at node
        omega
  have handles := ok.handles f
  simp only [State.push, free, List.cons_append, List.nil_append, List.count_cons,
    Option.isSome_none, Bool.toNat_false] at handles
  have unattached : s.stack.count (.attached f) = 0 := by omega
  have before := ok.balanced
  have resources : new.flatMap Task.resources = [.node f] := by
    rcases only with rfl | ⟨result, rfl⟩ <;> rfl
  have attaches : forall g, new.count (.attached g) = if f = g then 1 else 0 := by
    intro g
    rcases only with rfl | ⟨result, rfl⟩ <;>
      simp only [List.count_cons, List.count_nil, beq_iff_eq, Task.attached.injEq, reduceCtorEq,
        if_false, Nat.zero_add, Nat.add_zero]
  have members : forall task, task ∈ new -> task = .attached f ∨
      Exists fun result => task = .complete f result := by
    rcases only with rfl | ⟨result, rfl⟩ <;> simp
  exact { ok with
    balanced := by
      refine State.balanced_change before rfl rfl ?_
      intro r
      rw [resources]
      cases r <;>
        simp only [State.extra, State.total, State.push, State.setNode, State.setFuture,
          State.zipRefs, Task.resources, List.flatMap_singleton, List.count_cons,
          Function.update_apply] <;> grind
    anchored := by
      refine ok.anchored.2.append ?_
      intro task mem g touched
      rcases members task mem with rfl | ⟨result, rfl⟩
      · simp [Task.touches] at touched
      · rw [List.mem_singleton.mp touched]
        exact ok.anchored.1 f (by simp [Task.touches])
    works := by
      refine ok.works_after rfl ?_ ?_
      · intro other mem works
        cases other with
        | drain g =>
            simp only [Admissible, State.push, State.setNode, State.setFuture] at works ⊢
            grind
        | dropNode g =>
            have other : g ≠ f := by
              intro here
              have node := held_pos mem (List.mem_singleton.mpr rfl)
              have balanced := ok.balanced (.node f)
              rw [State.held_push, State.extra_push, State.total_push] at balanced
              simp only [State.total, unowned, Task.resources, List.flatMap_singleton,
                List.nil_append] at balanced
              rw [here] at node
              omega
            simp only [Admissible, State.push, State.setNode, State.setFuture,
              Function.update_of_ne other] at works ⊢
            exact works
        | _ => exact works
      · intro other mem
        rcases members other mem with rfl | ⟨result, rfl⟩ <;> trivial
    fresh := by
      intro g outside
      have other : g ≠ f := Nat.ne_of_gt (Nat.lt_of_lt_of_le inside outside)
      have blank := ok.fresh g outside
      exact { blank with
        cell := by
          simp only [State.push, State.setNode, State.setFuture, Function.update_of_ne other]
          exact blank.cell
        node := by
          simp only [State.push, State.setNode, State.setFuture, Function.update_of_ne other]
          exact blank.node }
    waits := by
      intro g continuation mem
      have waits := ok.waits g continuation mem
      simp only [State.push, State.setNode, State.setFuture] at waits ⊢
      grind
    closed := by
      intro g
      have closed := ok.closed g
      simp only [State.push, State.setNode, State.setFuture] at closed ⊢
      grind
    drained := by
      intro g completed
      have drained := ok.drained_of_completed trivial (f := g)
      simp only [State.push, State.setNode, State.setFuture, List.mem_append] at completed drained ⊢
      grind
    fulfilled := by
      intro g fulfilled
      have completed := ok.completed_of_fulfilled trivial fulfilled
      simp only [State.push, State.setNode, State.setFuture] at completed ⊢
      grind
    freed := by
      intro g
      have freed := ok.freed g
      simp only [State.push, State.setNode, State.setFuture] at freed ⊢
      grind
    alone := alone
    listed := by
      intro t g
      have before := ok.listed t g
      have after := listed t g
      simp only [State.push, State.setNode, State.setFuture] at before after ⊢
      grind
    pair := by
      intro g
      have pair := ok.pair g
      simp only [State.push, State.setNode, State.setFuture] at pair ⊢
      grind
    handles := by
      intro g
      have handles := ok.handles g
      simp only [State.push, State.setNode, State.setFuture, List.cons_append, List.nil_append,
        List.count_cons, List.count_append, attaches] at handles ⊢
      grind
    given := by
      intro g
      have given := ok.given g
      simp only [State.push, State.setNode, State.setFuture] at given ⊢
      grind
    idle := by
      intro g
      have idle := ok.idle g
      simp only [State.push, State.setNode, State.setFuture] at idle ⊢
      grind
    owned := by
      intro g
      have owned := ok.owned g
      simp only [State.push, State.setNode, State.setFuture] at owned ⊢
      grind }

theorem attach {f : FutureId} {token : TokenId} (ok : Sound (s.push [.attach f token])) :
    Sound (perform s (.attach f token)) := by
  simp only [perform]
  split
  · exact ok.retire (.push s []) rfl trivial fun _ => by simp [Task.resources]
  · rename_i effective
    rcases not_or.mp effective with ⟨pending, free⟩
    have pending : (s.futures f).isCompleted = false := by simpa using pending
    have free : (s.futures f).cancelToken = none := by simpa using free
    split
    · exact ok.attachToken false s.tokens pending free ok.alone (by simp) (.inr ⟨_, rfl⟩)
    · have unlisted : forall t, some f ∉ (s.tokens t).nodes := by
        intro t mem
        have active : (s.nodes f).isActive = true := ((ok.listed t f).mp mem).1
        have pair := ok.pair f active
        have owned := ok.owned f free
        omega
      refine ok.attachToken true (Function.update s.tokens token
        { s.tokens token with nodes := some f :: (s.tokens token).nodes }) pending free ?_ ?_
        (.inl rfl)
      · intro t g
        have alone : (s.tokens t).nodes.count (some g) ≤ 1 := ok.alone t g
        have none := List.count_eq_zero.mpr (unlisted t)
        by_cases here : t = token
        · subst here
          simp only [Function.update_self, List.count_cons, beq_iff_eq, Option.some.injEq]
          grind
        · simpa [here] using alone
      · intro t g
        by_cases here : t = token
        · subst here
          simp [or_comm]
        · simp [here]

end Sound

end Operator
end UfsrvRx
