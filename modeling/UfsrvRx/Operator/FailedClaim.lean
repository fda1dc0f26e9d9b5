import UfsrvRx.Operator.Instead

namespace UfsrvRx
namespace Operator

open Transition
open UfsrvRx.Future (Result ValueId einval ecanceled)

/-!
# What a failed claim leaves behind

A move operator claims a future before it takes its result.  When another operator has claimed
it, the output is completed with `EINVAL`, and nothing else should be seen of the operator.  So a
run in which its claims fail is compared with one in which it was never applied, and the client
has made and completed the output.
-/

instance (o : FutureId) (s : State) (event : Event) : Decidable (Fails o s event) :=
  match event with
  | .step => inferInstanceAs (Decidable (forall task, task ∈ s.stack.head? ->
      forall f, f ∈ s.claimed o task -> (s.futures f).isConsumed = true))
  | .call _ | .answer _ | .resume _ | .abandon _ => isTrue trivial

instance (o : FutureId) (s : State) (event : Event) : Decidable (Harmless o s event) :=
  match event with
  | .step => inferInstanceAs (Decidable (forall inner, inner ∈ s.attaches o ->
      (s.futures inner).isCompleted = true ∨ (s.futures inner).cancelToken ≠ none))
  | .call _ => inferInstanceAs (Decidable (_ = _))
  | .answer _ | .resume _ | .abandon _ => isTrue trivial

/-- The continuation is an observer's, or passes a result on. -/
def Continuation.Plain : Continuation -> Prop
  | observe | moveChain _ => True
  | _ => False

/-- The task does not come to attach a token to the future. -/
def Task.Plain (f : FutureId) : Task -> Prop
  | run _ continuation | register _ continuation => continuation.Plain
  | attach g _ => g ≠ f
  | callback (.observer _) | callback .cancelled => True
  | claimInner _ _ | claimInput _ _ | inherit _ _ | deliver _ | loop _ _ _ | subtract _ _ _
  | zipComplete _ _ _ | callback _ => False
  | _ => True

/-- The client does not come to attach a token to the future. -/
def Event.Plain (f : FutureId) : Event -> Prop
  | step | answer _ => True
  | call api =>
      match api with
      | .attach g _ => g ≠ f
      | .create | .observe _ | .setResult _ _ | .destroy _ | .release _ | .retain _
      | .cancel _ => True
      | _ => False
  | _ => False

/-- The future has no token, and nothing comes to attach one. -/
structure State.Tokenless (s : State) (f : FutureId) : Prop where
  inside : f < s.count
  token : (s.futures f).cancelToken = none
  works : forall task, task ∈ s.stack -> task.Plain f
  waits : forall g continuation, (g, continuation) ∈ s.waiting -> continuation.Plain

section

variable {s : State} {f : FutureId}

theorem cancelToken_unref (loose : (s.futures f).cancelToken = none) (g : FutureId) :
    ((s.unref g).futures f).cancelToken = none := by
  simp only [State.unref]
  split
  · simp only [State.futures_destroyValue, State.setFuture]
    grind
  · simp only [State.setFuture]
    grind

theorem cancelToken_dropNode (loose : (s.futures f).cancelToken = none) (g : FutureId)
    (references : Nat) : ((s.dropNode g references).futures f).cancelToken = none := by
  simp only [State.dropNode]
  split <;> exact loose

/-- A task that attaches no token to the future. -/
theorem cancelToken_perform {task : Task} (plain : task.Plain f)
    (loose : (s.futures f).cancelToken = none) :
    ((perform s task).futures f).cancelToken = none := by
  have changed (g : FutureId) (cell : Cell) (same : cell.cancelToken = (s.futures g).cancelToken) :
      ((s.setFuture g cell).futures f).cancelToken = none := by
    simp only [State.setFuture, Function.update_apply]
    split
    next here => exact same.trans (here ▸ loose)
    next => exact loose
  have destroyed (result : Result) : ((s.destroyValue result).futures f).cancelToken = none := by
    rw [State.futures_destroyValue]
    exact loose
  cases task with
  | setResult g result =>
      simp only [perform]
      split
      · exact destroyed result
      · exact loose
  | destroyPromise g | register g continuation =>
      simp only [perform]
      split <;> exact loose
  | releasePromise g => exact @cancelToken_unref (s.setPromise g _) f loose g
  | release g => exact cancelToken_unref loose g
  | complete g result =>
      simp only [perform]
      split
      · exact destroyed result
      · exact changed g _ rfl
  | drain g | zero g => exact changed g _ rfl
  | run g continuation =>
      cases continuation with
      | observe | moveChain out => exact loose
      | _ => cases plain
  | unregister g =>
      simp only [perform]
      split
      · exact @cancelToken_dropNode (s.setToken _ _) f loose g 2
      · exact cancelToken_dropNode loose g 1
  | dropNode g => exact cancelToken_dropNode loose g 1
  | attach g token =>
      have other : f ≠ g := plain.symm
      simp only [perform]
      split
      · exact loose
      · split <;> simpa only [State.push, State.setNode, State.setToken, State.setFuture,
          Function.update_of_ne other] using loose
  | attached g =>
      simp only [perform]
      split
      · exact loose
      · exact changed g _ rfl
  | callback client | leave arguments | leaveSet g => exact loose
  | _ => cases plain

theorem plain_finish {out : FutureId} {result : Result} {task : Task}
    (mem : task ∈ finish out result) : task.Plain f := by
  rcases List.mem_pair.mp mem with rfl | rfl <;> trivial

theorem plain_yields {task other : Task} (plain : task.Plain f)
    (waits : forall g continuation, (g, continuation) ∈ s.waiting -> continuation.Plain)
    (yields : task.Yields s other) : other.Plain f := by
  cases task with
  | setResult g result | unregister g | dropNode g | attached g =>
      cases yields
      trivial
  | destroyPromise g | complete g result | attach g token => rcases yields with rfl | rfl <;> trivial
  | drain g =>
      rcases yields with ⟨continuation, mem, rfl⟩
      exact waits g continuation mem
  | register g continuation =>
      cases yields
      exact plain
  | run g continuation =>
      cases continuation with
      | observe =>
          cases yields
          trivial
      | moveChain out =>
          rcases yields with mem | rfl
          · exact plain_finish mem
          · trivial
      | _ => cases plain
  | releasePromise g | zero g | release g | callback client | leave arguments | leaveSet g =>
      exact yields.elim
  | _ => cases plain

namespace State.Tokenless

theorem perform {task : Task} (ok : (s.push [task]).Tokenless f) :
    (Operator.perform s task).Tokenless f := by
  have plain : task.Plain f := ok.works task List.mem_cons_self
  rcases yields_perform s task with ⟨new, stack, yields⟩
  refine ⟨(count_perform s task).symm ▸ ok.inside, cancelToken_perform plain ok.token, ?_, ?_⟩
  · intro other mem
    rw [stack] at mem
    rcases List.mem_append.mp mem with mem | mem
    · exact plain_yields plain ok.waits (yields other mem)
    · exact ok.works other (List.mem_cons_of_mem _ mem)
  · intro g continuation mem
    rcases (Spares.perform s task).waiting g continuation mem with before | rfl
    · exact ok.waits g continuation before
    · exact plain

/-- Tasks that attach no token to the future are pushed after some change of the memory. -/
theorem pushed {after : State} (ok : s.Tokenless f) (new : List Task) (count : s.count ≤ after.count)
    (token : (after.futures f).cancelToken = (s.futures f).cancelToken)
    (stack : after.stack = new ++ s.stack) (waiting : after.waiting = s.waiting)
    (plain : forall task, task ∈ new -> task.Plain f) : after.Tokenless f := by
  refine ⟨Nat.lt_of_lt_of_le ok.inside count, token.trans ok.token, ?_, waiting ▸ ok.waits⟩
  intro task mem
  rw [stack] at mem
  rcases List.mem_append.mp mem with mem | mem
  · exact plain task mem
  · exact ok.works task mem

theorem enter {api : Api} (ok : s.Tokenless f) (plain : Event.Plain f (.call api)) :
    (Operator.enter s api).Tokenless f := by
  have other : f ≠ s.count := Nat.ne_of_lt ok.inside
  cases api with
  | create =>
      refine ok.pushed [] (Nat.le_succ _) ?_ rfl rfl (by simp)
      simp only [Operator.enter, State.setClientRefs, State.create, Function.update_of_ne other]
  | observe g => exact ok.pushed _ (le_refl _) rfl rfl rfl (by simp [Task.Plain, Continuation.Plain])
  | setResult g result =>
      refine ok.pushed [.setResult g result, .leaveSet g] ?_ ?_ ?_ ?_ (by simp [Task.Plain])
      · exact (State.count_give s result).ge
      · simp only [Operator.enter, State.push, State.futures_give]
      · simp only [Operator.enter, State.push, State.stack_give]
      · exact State.waiting_give s result
  | destroy g | release g => exact ok.pushed _ (le_refl _) rfl rfl rfl (by simp [Task.Plain])
  | retain g =>
      refine ok.pushed [] (le_refl _) ?_ rfl rfl (by simp)
      simp only [Operator.enter, State.setClientRefs, State.retain, State.setFuture]
      grind
  | attach g token =>
      have other : g ≠ f := plain
      exact ok.pushed _ (le_refl _) rfl rfl rfl (by simpa [Task.Plain] using other)
  | cancel token =>
      simp only [Operator.enter]
      split
      · exact ok
      · refine ok.pushed _ (le_refl _) rfl rfl rfl ?_
        intro task mem
        rcases List.mem_flatMap.mp mem with ⟨node, _, mem⟩
        cases node with
        | none =>
            cases List.mem_singleton.mp mem
            trivial
        | some g => rcases List.mem_pair.mp mem with rfl | rfl <;> trivial
  | _ => cases plain

theorem next {event : Event} (ok : s.Tokenless f) (plain : event.Plain f)
    (may : machine.enabled s event) : (Operator.next s event).Tokenless f := by
  cases event with
  | step =>
      rcases may with ⟨task, rest, stack, _⟩
      have pushed : ({ s with stack := rest } : State).push [task] = s := by
        simp only [State.push, List.cons_append, List.nil_append, <- stack]
      simp only [Operator.next, stack]
      exact perform (pushed ▸ ok)
  | call api => exact ok.enter plain
  | answer reply =>
      rcases may with ⟨client, rest, stack, _⟩
      have here := ok.works (.callback client) (by simp [stack])
      have below : ({ s with stack := rest } : State).Tokenless f :=
        ⟨ok.inside, ok.token, fun task mem => ok.works task (by simp [stack, mem]), ok.waits⟩
      simp only [Operator.next, stack]
      cases client with
      | observer g | cancelled => exact below
      | _ => cases here
  | resume g | abandon g => cases plain

theorem run {last : State} {events : List Event} (ok : s.Tokenless f)
    (plain : forall event, event ∈ events -> event.Plain f) (run : machine.Run s events last) :
    last.Tokenless f := by
  induction run with
  | done => exact ok
  | step may _ inductionHypothesis =>
      exact inductionHypothesis (ok.next (plain _ List.mem_cons_self) may)
        fun event mem => plain event (List.mem_cons_of_mem _ mem)

end State.Tokenless

end

end Operator
end UfsrvRx
