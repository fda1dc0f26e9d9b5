import UfsrvRx.Operator.References

namespace UfsrvRx
namespace Operator

open Transition
open UfsrvRx.Future (Result epipe ecanceled einval)

/-!
# Which futures carry a token

An operator hands the token of its input to its output when the output is pending by then.  A
pending future that carries a token is on the list of the token, or is about to be completed
with `ECANCELED`.
-/

/-! ## What a step does to registrations -/

namespace Task

/-- The task attaches a token to the future. -/
def Attaches (future : FutureId) : Task -> Prop
  | attach f _ => f = future
  | _ => False

/-- The task changes the registration of the future. -/
def Enrols (future : FutureId) : Task -> Prop
  | attach f _ | unregister f | dropNode f => f = future
  | _ => False

/-- The task gives the future to the client or a token to the future. -/
def Hands (future : FutureId) : Task -> Prop
  | deliver f | attach f _ | inherit _ f => f = future
  | _ => False

end Task

/-- A future keeps its token or is freed, and stays completed as it was. -/
structure Cell.Enduring (cell after : Cell) : Prop where
  completed : cell.isCompleted = true -> after.isCompleted = true
  token : after.cancelToken = cell.cancelToken ∨ after.cancelToken = none
  outcome : cell.isCompleted = true -> after.completed = cell.completed

theorem Cell.Enduring.refl (cell : Cell) : cell.Enduring cell := ⟨id, .inl rfl, fun _ => rfl⟩

theorem Cell.Enduring.trans {cell middle after : Cell} (first : cell.Enduring middle)
    (second : middle.Enduring after) : cell.Enduring after where
  completed := fun completed => second.completed (first.completed completed)
  token := by
    rcases second.token with same | none
    · rw [same]
      exact first.token
    · exact .inr none
  outcome := fun completed =>
    (second.outcome (first.completed completed)).trans (first.outcome completed)

/-- What a task does to registrations, and what it may be followed by. -/
structure Registers (s after : State) (task : Task) (new : List Task) : Prop where
  stack : after.stack = new ++ s.stack
  cells : forall f, ¬task.Attaches f -> (s.futures f).Enduring (after.futures f)
  nodes : forall f, ¬task.Enrols f -> after.nodes f = s.nodes f
  tokens : forall t, (after.tokens t).isCancelled = (s.tokens t).isCancelled ∧
    ((s.tokens t).isCancelled = true -> (s.tokens t).nodes = [] -> (after.tokens t).nodes = [])
  clientRefs : forall f, task ≠ .deliver f -> after.clientRefs f = s.clientRefs f
  delivers : forall f, .deliver f ∉ new
  inherits : forall p f, .inherit p f ∉ new
  attaches : forall f t, .attach f t ∈ new ->
    Exists fun p => task = .inherit p f ∧ (s.futures p).cancelToken = some t
  unregisters : forall f, .unregister f ∈ new -> (after.futures f).isCompleted = true

namespace Registers

variable {s after : State} {task : Task} {new : List Task}

theorem enduring_setFuture {f : FutureId} {cell : Cell} (enduring : (s.futures f).Enduring cell)
    (g : FutureId) : (s.futures g).Enduring ((s.setFuture f cell).futures g) := by
  simp only [State.setFuture]
  by_cases mine : g = f
  · subst g
    rw [Function.update_self]
    exact enduring
  · rw [Function.update_of_ne mine]
    exact .refl _

theorem enduring_unref (s : State) (f g : FutureId) :
    (s.futures g).Enduring ((s.unref f).futures g) := by
  simp only [State.unref]
  split
  · simp only [State.futures_destroyValue]
    refine enduring_setFuture ?_ g
    exact ⟨id, .inr rfl, fun _ => rfl⟩
  · refine enduring_setFuture ?_ g
    exact ⟨id, .inl rfl, fun _ => rfl⟩

/-- The task has nothing to do with registrations. -/
theorem plain (stack : after.stack = new ++ s.stack) (nodes : after.nodes = s.nodes)
    (tokens : after.tokens = s.tokens) (clientRefs : after.clientRefs = s.clientRefs)
    (cells : forall f, (s.futures f).Enduring (after.futures f))
    (hands : forall f other, other ∈ new -> ¬other.Hands f)
    (unregisters : forall f, .unregister f ∉ new) : Registers s after task new where
  stack := stack
  cells := fun f _ => cells f
  nodes := fun f _ => congrFun nodes f
  tokens := by
    intro t
    rw [tokens]
    exact ⟨rfl, fun _ empty => empty⟩
  clientRefs := fun f _ => congrFun clientRefs f
  delivers := fun f mem => hands f _ mem rfl
  inherits := fun p f mem => hands f _ mem rfl
  attaches := fun f t mem => absurd rfl (hands f _ mem)
  unregisters := fun f mem => absurd mem (unregisters f)

theorem still (stack : after.stack = s.stack) (nodes : after.nodes = s.nodes)
    (tokens : after.tokens = s.tokens) (clientRefs : after.clientRefs = s.clientRefs)
    (cells : forall f, (s.futures f).Enduring (after.futures f)) : Registers s after task [] :=
  plain stack nodes tokens clientRefs cells nofun nofun

theorem destroyValue (s : State) (result : Result) (task : Task) :
    Registers s (s.destroyValue result) task [] := by
  unfold State.destroyValue
  split <;> exact still rfl rfl rfl rfl fun _ => .refl _

theorem unref (s : State) (f : FutureId) (task : Task) : Registers s (s.unref f) task [] := by
  have cells := enduring_unref s f
  refine still ?_ ?_ ?_ ?_ cells
  · simp only [State.unref]
    split
    · exact State.stack_destroyValue _ _
    · rfl
  · simp only [State.unref, State.destroyValue]
    split
    · split <;> rfl
    · rfl
  · simp only [State.unref, State.destroyValue]
    split
    · split <;> rfl
    · rfl
  · simp only [State.unref, State.destroyValue]
    split
    · split <;> rfl
    · rfl

theorem runContinuation (s : State) (f : FutureId) (continuation : Continuation) (task : Task) :
    Exists fun new => Registers s (Operator.runContinuation s f continuation) task new := by
  have consumed (g : FutureId) : (s.futures g).Enduring ((s.consume f).futures g) := by
    refine enduring_setFuture ?_ g
    exact ⟨id, .inl rfl, fun _ => rfl⟩
  cases continuation with
  | group kind out =>
      cases kind with
      | all =>
          simp only [Operator.runContinuation]
          split <;> exact ⟨_, plain rfl rfl rfl rfl (fun _ => .refl _)
            (by simp [finish, Task.Hands]) (by simp [finish])⟩
      | any =>
          simp only [Operator.runContinuation]
          split
          · exact ⟨_, plain rfl rfl rfl rfl (fun _ => .refl _) (by simp [Task.Hands]) (by simp)⟩
          · split
            · exact ⟨_, plain rfl rfl rfl rfl (fun _ => .refl _)
                (by simp [finish, Task.Hands]) (by simp [finish])⟩
            · exact ⟨_, plain rfl rfl rfl rfl consumed
                (by simp [finish, Task.Hands]) (by simp [finish])⟩
  | zip out isSecond =>
      simp only [Operator.runContinuation]
      split
      · exact ⟨_, plain rfl rfl rfl rfl (fun _ => .refl _) (by simp [Task.Hands]) (by simp)⟩
      · exact ⟨[], still rfl rfl rfl rfl fun _ => .refl _⟩
  | observe | moveChain out =>
      exact ⟨_, plain rfl rfl rfl rfl (fun _ => .refl _) (by simp [finish, Task.Hands])
        (by simp [finish])⟩
  | map out freeValue | flatMap out token | onError out | doOnSuccess out =>
      simp only [Operator.runContinuation]
      split <;> exact ⟨_, plain rfl rfl rfl rfl (fun _ => .refl _)
        (by simp [finish, Task.Hands]) (by simp [finish])⟩

theorem dropNode {before : State} {f : FutureId} (references : Nat) (enrols : task.Enrols f)
    (tokens : forall t, (before.tokens t).isCancelled = (s.tokens t).isCancelled ∧
      ((s.tokens t).isCancelled = true -> (s.tokens t).nodes = [] -> (before.tokens t).nodes = []))
    (nodes : before.nodes = s.nodes) (clientRefs : before.clientRefs = s.clientRefs)
    (stack : before.stack = s.stack) (futures : before.futures = s.futures) :
    Exists fun new => Registers s (before.dropNode f references) task new := by
  have others (node : Node) (g : FutureId) (aside : ¬task.Enrols g) :
      (before.setNode f node).nodes g = s.nodes g := by
    have mine : g ≠ f := by
      rintro rfl
      exact aside enrols
    simp only [State.setNode, Function.update_of_ne mine, nodes]
  have cells (g : FutureId) : (s.futures g).Enduring (before.futures g) := by
    rw [futures]
    exact .refl _
  simp only [State.dropNode]
  split
  · have pushed : .release f :: before.stack = [.release f] ++ s.stack :=
      congrArg (List.cons (.release f)) stack
    exact ⟨[.release f], pushed, fun g _ => cells g, others _, tokens,
      fun g _ => congrFun clientRefs g, by simp, by simp, by simp, by simp⟩
  · refine ⟨[], stack, fun g _ => cells g, others _, tokens, fun g _ => congrFun clientRefs g,
      (by simp), (by simp), (by simp), (by simp)⟩

theorem attach (s : State) (f : FutureId) (token : TokenId) :
    Exists fun new => Registers s (perform s (.attach f token)) (.attach f token) new := by
  have others (cell : Cell) (g : FutureId) (aside : ¬Task.Attaches g (.attach f token)) :
      (s.futures g).Enduring ((s.setFuture f cell).futures g) := by
    have mine : g ≠ f := by
      rintro rfl
      exact aside rfl
    simp only [State.setFuture, Function.update_of_ne mine]
    exact .refl _
  have enrolled (node : Node) (g : FutureId) (aside : ¬Task.Enrols g (.attach f token)) :
      Function.update s.nodes f node g = s.nodes g := by
    have mine : g ≠ f := by
      rintro rfl
      exact aside rfl
    exact Function.update_of_ne mine _ _
  simp only [perform]
  split
  · exact ⟨[], still rfl rfl rfl rfl fun _ => .refl _⟩
  · split
    · exact ⟨_, rfl, others _, enrolled _, fun t => ⟨rfl, fun _ empty => empty⟩, fun _ _ => rfl,
        by simp, by simp, by simp, by simp⟩
    · rename_i active
      refine ⟨_, rfl, others _, enrolled _, ?_, fun _ _ => rfl, by simp, by simp, by simp, by simp⟩
      intro t
      simp only [State.push, State.setToken, State.setNode, State.setFuture]
      grind

theorem perform (s : State) (task : Task) :
    Exists fun new => Registers s (Operator.perform s task) task new := by
  cases task with
  | setResult f result =>
      simp only [Operator.perform]
      split
      · exact ⟨[], destroyValue s result _⟩
      · exact ⟨_, plain rfl rfl rfl rfl (fun _ => .refl _) (by simp [Task.Hands]) (by simp)⟩
  | destroyPromise f =>
      simp only [Operator.perform]
      split <;> exact ⟨_, plain rfl rfl rfl rfl (fun _ => .refl _) (by simp [Task.Hands]) (by simp)⟩
  | releasePromise f =>
      have dropped := unref (s.setPromise f { s.promises f with isLive := false }) f (.releasePromise f)
      exact ⟨[], dropped.stack, dropped.cells, dropped.nodes, dropped.tokens, dropped.clientRefs,
        dropped.delivers, dropped.inherits, (by simp), (by simp)⟩
  | complete f result =>
      simp only [Operator.perform]
      split
      · exact ⟨[], destroyValue s result _⟩
      · rename_i pending
        refine ⟨_, rfl, ?_, fun _ _ => rfl, fun _ => ⟨rfl, fun _ empty => empty⟩, fun _ _ => rfl,
          ?_, ?_, ?_, ?_⟩
        · intro g _
          refine enduring_setFuture ?_ g
          exact ⟨fun _ => rfl, .inl rfl, fun completed => absurd completed pending⟩
        · intro g mem
          split at mem <;> simp at mem
        · intro p g mem
          split at mem <;> simp at mem
        · intro g t mem
          split at mem <;> simp at mem
        · intro g mem
          have mine : g = f := by
            split at mem
            · simpa using mem
            · simp at mem
          subst g
          simp [State.push, State.setFuture]
  | drain f =>
      refine ⟨_, plain rfl rfl rfl rfl ?_ ?_ ?_⟩
      · intro g
        refine enduring_setFuture ?_ g
        exact ⟨id, .inl rfl, fun _ => rfl⟩
      · intro g other mem hands
        rcases List.mem_map.mp mem with ⟨entry, _, rfl⟩
        cases hands
      · intro g mem
        rcases List.mem_map.mp mem with ⟨entry, _, same⟩
        cases same
  | run f continuation => exact runContinuation s f continuation _
  | zero f =>
      refine ⟨[], still rfl rfl rfl rfl fun g => enduring_setFuture ?_ g⟩
      exact ⟨id, .inl rfl, fun _ => rfl⟩
  | release f => exact ⟨[], unref s f _⟩
  | unregister f =>
      simp only [Operator.perform]
      split
      · refine dropNode 2 rfl ?_ rfl rfl rfl rfl
        intro t
        simp only [State.setToken]
        grind
      · exact dropNode 1 rfl (fun _ => ⟨rfl, fun _ empty => empty⟩) rfl rfl rfl rfl
  | dropNode f => exact dropNode 1 rfl (fun _ => ⟨rfl, fun _ empty => empty⟩) rfl rfl rfl rfl
  | attach f token => exact attach s f token
  | attached f =>
      simp only [Operator.perform]
      split
      · rename_i completed
        refine ⟨[.unregister f], rfl, fun _ _ => .refl _, fun _ _ => rfl,
          fun _ => ⟨rfl, fun _ empty => empty⟩, fun _ _ => rfl, by simp, by simp, by simp, ?_⟩
        intro g mem
        cases List.mem_singleton.mp mem
        exact completed
      · refine ⟨[], still rfl rfl rfl rfl fun g => enduring_setFuture ?_ g⟩
        exact ⟨id, .inl rfl, fun _ => rfl⟩
  | register f continuation =>
      simp only [Operator.perform]
      split
      · exact ⟨_, plain rfl rfl rfl rfl (fun _ => .refl _) (by simp [Task.Hands]) (by simp)⟩
      · exact ⟨[], still rfl rfl rfl rfl fun _ => .refl _⟩
  | claimInner out inner =>
      simp only [Operator.perform]
      split
      · exact ⟨_, plain rfl rfl rfl rfl (fun _ => .refl _) (by simp [finish, Task.Hands])
          (by simp [finish])⟩
      · refine ⟨_, plain rfl rfl rfl rfl (fun g => enduring_setFuture ?_ g) (by simp [Task.Hands])
          (by simp)⟩
        exact ⟨id, .inl rfl, fun _ => rfl⟩
  | claimInput f out =>
      simp only [Operator.perform]
      split
      · exact ⟨_, plain rfl rfl rfl rfl (fun _ => .refl _) (by simp [finish, Task.Hands])
          (by simp [finish])⟩
      · refine ⟨_, plain rfl rfl rfl rfl (fun g => enduring_setFuture ?_ g)
          (by simp [finish, Task.Hands]) (by simp [finish])⟩
        exact ⟨id, .inl rfl, fun _ => rfl⟩
  | inherit f out =>
      simp only [Operator.perform]
      split
      · rename_i token carries
        refine ⟨[.attach out token], rfl, fun _ _ => .refl _, fun _ _ => rfl,
          fun _ => ⟨rfl, fun _ empty => empty⟩, fun _ _ => rfl, by simp, by simp, ?_, by simp⟩
        intro g t mem
        cases List.mem_singleton.mp mem
        exact ⟨f, rfl, carries⟩
      · exact ⟨[], still rfl rfl rfl rfl fun _ => .refl _⟩
  | deliver out =>
      refine ⟨[], rfl, fun _ _ => .refl _, fun _ _ => rfl, fun _ => ⟨rfl, fun _ empty => empty⟩, ?_,
        (by simp), (by simp), (by simp), (by simp)⟩
      intro g other
      have mine : g ≠ out := by
        rintro rfl
        exact other rfl
      simp only [Operator.perform, State.setClientRefs, Function.update_of_ne mine]
  | loop kind out entries =>
      cases entries with
      | nil => exact ⟨[], still rfl rfl rfl rfl fun _ => .refl _⟩
      | cons entry entries =>
          cases entry with
          | some f =>
              have stack : (Operator.perform s (.loop kind out (some f :: entries))).stack =
                  [.register f (.group kind out), .loop kind out entries] ++ s.stack := rfl
              exact ⟨_, plain stack rfl rfl rfl (fun _ => .refl _) (by simp [Task.Hands]) (by simp)⟩
          | none =>
              cases kind with
              | any =>
                  have stack : (Operator.perform s (.loop .any out (none :: entries))).stack =
                      [.subtract .any out true, .loop .any out entries] ++ s.stack := rfl
                  exact ⟨_, plain stack rfl rfl rfl (fun _ => .refl _) (by simp [Task.Hands])
                    (by simp)⟩
              | all =>
                  simp only [Operator.perform, visit]
                  split
                  · have stack : ((s.push [.loop .all out entries]).push [.subtract .all out true]).stack =
                        [.subtract .all out true, .loop .all out entries] ++ s.stack := rfl
                    exact ⟨_, plain stack rfl rfl rfl (fun _ => .refl _) (by simp [Task.Hands])
                      (by simp)⟩
                  · have stack : finish out (.ofError einval) ++ [.subtract .all out true] ++
                        .loop .all out entries :: s.stack = finish out (.ofError einval) ++
                          [.subtract .all out true, .loop .all out entries] ++ s.stack := rfl
                    exact ⟨_, plain stack rfl rfl rfl (fun _ => .refl _)
                      (by simp [finish, Task.Hands]) (by simp [finish])⟩
  | subtract kind out refused =>
      simp only [Operator.perform]
      split
      · cases kind <;> cases refused
        · exact ⟨_, plain rfl rfl rfl rfl (fun _ => .refl _) (by simp [finish, Task.Hands])
            (by simp [finish])⟩
        · exact ⟨[], still rfl rfl rfl rfl fun _ => .refl _⟩
        · exact ⟨[], still rfl rfl rfl rfl fun _ => .refl _⟩
        · exact ⟨_, plain rfl rfl rfl rfl (fun _ => .refl _) (by simp [finish, Task.Hands])
            (by simp [finish])⟩
      · exact ⟨[], still rfl rfl rfl rfl fun _ => .refl _⟩
  | zipComplete out first second =>
      simp only [Operator.perform]
      split <;> exact ⟨_, plain rfl rfl rfl rfl (fun _ => .refl _)
        (by simp [zipFinish, finish, Task.Hands]) (by simp [zipFinish, finish])⟩
  | callback callback | leave arguments | leaveSet f =>
      exact ⟨[], still rfl rfl rfl rfl fun _ => .refl _⟩

end Registers

/-! ## Pending futures that carry a token -/

/-- The outcome of a future that is cancelled. -/
def aborted : Result := .ofError ecanceled

/-- A future that carries a token is completed, on the list of the token, or about to be
completed with `ECANCELED`. -/
structure Enlisted (s : State) : Prop where
  carried : forall f t, (s.futures f).cancelToken = some t -> (s.futures f).isCompleted = true ∨
    ((s.nodes f).isActive = true ∧ (s.nodes f).token = t) ∨ .complete f aborted ∈ s.stack
  empty : forall t, (s.tokens t).isCancelled = true -> (s.tokens t).nodes = []
  finished : forall f, .unregister f ∈ s.stack -> (s.futures f).isCompleted = true

namespace Enlisted

variable {s after : State} {task : Task} {new : List Task}

/-- A step that attaches no token to the future. -/
theorem carried_next (ok : Enlisted (s.push [task])) (sound : Sound (s.push [task]))
    (registers : Registers s after task new) {f : FutureId} (aside : ¬task.Attaches f)
    (completes : forall result, task = .complete f result -> (after.futures f).isCompleted = true)
    {t : TokenId} (carries : (after.futures f).cancelToken = some t) :
    (after.futures f).isCompleted = true ∨
      ((after.nodes f).isActive = true ∧ (after.nodes f).token = t) ∨
        .complete f aborted ∈ after.stack := by
  have enduring := registers.cells f aside
  have before : (s.futures f).cancelToken = some t := by
    rcases enduring.token with same | none
    · rw [<- same]
      exact carries
    · rw [none] at carries
      cases carries
  rcases ok.carried f t before with completed | active | pending
  · exact .inl (enduring.completed completed)
  · by_cases enrols : task.Enrols f
    · cases task with
      | attach g token => exact absurd enrols aside
      | unregister g =>
          have mine : g = f := enrols
          subst mine
          exact .inl (enduring.completed (ok.finished g List.mem_cons_self))
      | dropNode g =>
          have mine : g = f := enrols
          subst mine
          have dropped : (s.nodes g).isActive = false := sound.works (.dropNode g) List.mem_cons_self
          exact absurd (active.1.symm.trans dropped) (by decide)
      | _ => cases enrols
    · rw [registers.nodes f enrols]
      exact .inr (.inl active)
  · rcases List.mem_cons.mp pending with same | mem
    · exact .inl (completes aborted same.symm)
    · rw [registers.stack]
      exact .inr (.inr (List.mem_append_right _ mem))

theorem completed_complete (s : State) (f : FutureId) (result : Result) :
    ((Operator.perform s (.complete f result)).futures f).isCompleted = true := by
  simp only [Operator.perform]
  split
  · rename_i completed
    rw [State.futures_destroyValue]
    exact completed
  · simp [State.push, State.setFuture]

theorem attach {f : FutureId} {token : TokenId} (ok : Enlisted (s.push [.attach f token])) {t : TokenId}
    (carries : ((Operator.perform s (.attach f token)).futures f).cancelToken = some t) :
    ((Operator.perform s (.attach f token)).futures f).isCompleted = true ∨
      (((Operator.perform s (.attach f token)).nodes f).isActive = true ∧
        ((Operator.perform s (.attach f token)).nodes f).token = t) ∨
          .complete f aborted ∈ (Operator.perform s (.attach f token)).stack := by
  have before := ok.carried f t
  simp only [Operator.perform] at carries ⊢
  split
  · rename_i refused
    rw [if_pos refused] at carries
    rcases before carries with completed | active | pending
    · exact .inl completed
    · exact .inr (.inl active)
    · exact .inr (.inr ((List.mem_cons.mp pending).resolve_left (by simp)))
  · rename_i admitted
    rw [if_neg admitted] at carries
    split
    · exact .inr (.inr (List.mem_append_left _ List.mem_cons_self))
    · rename_i unfired
      rw [if_neg unfired] at carries
      simp only [State.push, State.setToken, State.setNode, State.setFuture,
        Function.update_self] at carries ⊢
      exact .inr (.inl ⟨trivial, Option.some.inj carries⟩)

theorem perform (ok : Enlisted (s.push [task])) (sound : Sound (s.push [task])) :
    Enlisted (Operator.perform s task) := by
  rcases Registers.perform s task with ⟨new, registers⟩
  refine ⟨?_, ?_, ?_⟩
  · intro f t carries
    by_cases attaches : task.Attaches f
    · cases task with
      | attach g token =>
          have mine : g = f := attaches
          subst mine
          exact ok.attach carries
      | _ => cases attaches
    · refine ok.carried_next sound registers attaches ?_ carries
      rintro result rfl
      exact completed_complete s f result
  · intro t cancelled
    rw [(registers.tokens t).1] at cancelled
    exact (registers.tokens t).2 cancelled (ok.empty t cancelled)
  · intro f mem
    rw [registers.stack] at mem
    rcases List.mem_append.mp mem with mem | mem
    · exact registers.unregisters f mem
    · have completed : (s.futures f).isCompleted = true := ok.finished f (List.mem_cons_of_mem _ mem)
      by_cases attaches : task.Attaches f
      · cases task with
        | attach g token =>
            have mine : g = f := attaches
            subst mine
            simp only [Operator.perform]
            rw [if_pos (.inl completed)]
            exact completed
        | _ => cases attaches
      · exact (registers.cells f attaches).completed completed

/-- The client calls, or a callback returns, and no registration changes. -/
theorem add (ok : Enlisted s) (nodes : after.nodes = s.nodes) (stack : after.stack = new ++ s.stack)
    (cells : forall f, (s.futures f).Enduring (after.futures f))
    (tokens : forall t, (after.tokens t).isCancelled = true -> (after.tokens t).nodes = [])
    (unregisters : forall f, .unregister f ∉ new) : Enlisted after where
  carried := by
    intro f t carries
    have enduring := cells f
    have before : (s.futures f).cancelToken = some t := by
      rcases enduring.token with same | none
      · rw [<- same]
        exact carries
      · rw [none] at carries
        cases carries
    rw [nodes, stack]
    rcases ok.carried f t before with completed | active | pending
    · exact .inl (enduring.completed completed)
    · exact .inr (.inl active)
    · exact .inr (.inr (List.mem_append_right _ pending))
  empty := tokens
  finished := by
    intro f mem
    rw [stack] at mem
    rcases List.mem_append.mp mem with mem | mem
    · exact absurd mem (unregisters f)
    · exact (cells f).completed (ok.finished f mem)

theorem answer {callback : Callback} {reply : Reply} (ok : Enlisted (s.push [.callback callback])) :
    Enlisted (afterCallback s callback reply) := by
  have popped : Enlisted s := by
    refine ⟨?_, ok.empty, fun f mem => ok.finished f (List.mem_cons_of_mem _ mem)⟩
    intro f t carries
    rcases ok.carried f t carries with completed | active | pending
    · exact .inl completed
    · exact .inr (.inl active)
    · exact .inr (.inr ((List.mem_cons.mp pending).resolve_left nofun))
  have given (result : Result) (tasks : List Task) (unregisters : forall f, .unregister f ∉ tasks) :
      Enlisted ((s.give result).push tasks) := by
    unfold State.give
    split <;> exact popped.add rfl rfl (fun _ => .refl _) popped.empty unregisters
  cases callback with
  | observer f | cancelled => exact popped
  | action f out => exact popped.add rfl rfl (fun _ => .refl _) popped.empty (by simp)
  | mapper f out freeValue | zipper out first second =>
      cases reply with
      | value value => exact given _ _ (by simp [zipFinish, finish])
      | _ => exact popped
  | flatMapper f out token =>
      cases reply with
      | future inner =>
          cases inner <;> cases token <;> exact popped.add rfl rfl (fun _ => .refl _) popped.empty
            (by simp [finish])
      | _ => cases token <;> exact popped
  | recovery f out =>
      cases reply with
      | future inner =>
          cases inner <;> exact popped.add rfl rfl (fun _ => .refl _) popped.empty (by simp [finish])
      | _ => exact popped

/-- What the client makes is new. -/
theorem enduring_create (sound : Sound s) (cell : Cell) (unattached : cell.cancelToken = none)
    (f : FutureId) : (s.futures f).Enduring (Function.update s.futures s.count cell f) := by
  by_cases here : f = s.count
  · subst f
    rw [Function.update_self, (sound.fresh s.count (Nat.le_refl _)).cell]
    exact ⟨nofun, .inr unattached, nofun⟩
  · rw [Function.update_of_ne here]
    exact .refl _

theorem cancel {token : TokenId} (ok : Enlisted s) :
    Enlisted (enter s (.cancel token)) := by
  simp only [Operator.enter]
  split
  · exact ok
  · refine ⟨?_, ?_, ?_⟩
    · intro f t carries
      rcases ok.carried f t carries with completed | active | pending
      · exact .inl completed
      · by_cases mem : some f ∈ (s.tokens token).nodes
        · refine .inr (.inr (List.mem_append_left _ ?_))
          exact List.mem_flatMap.mpr ⟨some f, mem, List.mem_cons_self⟩
        · refine .inr (.inl ?_)
          simp only [if_neg mem]
          exact active
      · exact .inr (.inr (List.mem_append_right _ pending))
    · intro t cancelled
      simp only [State.setToken] at cancelled ⊢
      by_cases here : t = token
      · rw [here, Function.update_self]
      · rw [Function.update_of_ne here] at cancelled ⊢
        exact ok.empty t cancelled
    · intro f mem
      rcases List.mem_append.mp mem with mem | mem
      · rcases List.mem_flatMap.mp mem with ⟨entry, _, mem⟩
        cases entry <;> simp [cancellation] at mem
      · exact ok.finished f mem

theorem enter {api : Api} (ok : Enlisted s) (sound : Sound s) : Enlisted (Operator.enter s api) := by
  have made (isClient : Bool) (f : FutureId) :
      (s.futures f).Enduring ((s.create isClient).futures f) :=
    enduring_create sound _ rfl f
  have retained (s : State) (f g : FutureId) : (s.futures g).Enduring ((s.retain f).futures g) := by
    refine Registers.enduring_setFuture ?_ g
    exact ⟨id, .inl rfl, fun _ => rfl⟩
  cases api with
  | create =>
      have stack : (Operator.enter s .create).stack = [] ++ s.stack := rfl
      exact ok.add rfl stack (made true) ok.empty nofun
  | map f freeValue | flatMap f | onError f | doOnSuccess f =>
      exact ok.add rfl rfl (made false) ok.empty (by simp)
  | fromResult result =>
      simp only [Operator.enter]
      unfold State.give
      split <;> exact ok.add rfl rfl (made false) ok.empty (by simp [finish])
  | setResult f result =>
      simp only [Operator.enter]
      unfold State.give
      split <;> exact ok.add rfl rfl (fun _ => .refl _) ok.empty (by simp)
  | destroy f | observe f | attach f token | release f =>
      exact ok.add rfl rfl (fun _ => .refl _) ok.empty (by simp)
  | get f =>
      simp only [Operator.enter]
      split
      · exact ok
      · have stack : s.stack = [] ++ s.stack := rfl
        refine ok.add rfl stack (fun g => Registers.enduring_setFuture ?_ g) ok.empty nofun
        exact ⟨id, .inl rfl, fun _ => rfl⟩
  | group kind entries =>
      simp only [Operator.enter]
      split <;> exact ok.add rfl rfl (made false) ok.empty (by simp [finish])
  | zip first second freeValue =>
      refine ok.add rfl rfl (fun f => ?_) ok.empty (by simp)
      exact ((made false f).trans (retained _ first f)).trans (retained _ second f)
  | cancel token => exact ok.cancel
  | registerCallback token =>
      simp only [Operator.enter]
      split
      · exact ok.add rfl rfl (fun _ => .refl _) ok.empty (by simp)
      · rename_i unfired
        have stack : s.stack = [] ++ s.stack := rfl
        refine ok.add rfl stack (fun _ => .refl _) ?_ nofun
        intro t cancelled
        simp only [State.setToken] at cancelled ⊢
        by_cases here : t = token
        · rw [here, Function.update_self] at cancelled
          exact absurd cancelled unfired
        · rw [Function.update_of_ne here] at cancelled ⊢
          exact ok.empty t cancelled
  | unregisterCallback token index =>
      have stack : s.stack = [] ++ s.stack := rfl
      refine ok.add rfl stack (fun _ => .refl _) ?_ nofun
      intro t cancelled
      simp only [Operator.enter, State.setToken] at cancelled ⊢
      by_cases here : t = token
      · rw [here, Function.update_self] at cancelled ⊢
        rw [ok.empty token cancelled]
        rfl
      · rw [Function.update_of_ne here] at cancelled ⊢
        exact ok.empty t cancelled
  | retain f =>
      have stack : s.stack = [] ++ s.stack := rfl
      exact ok.add rfl stack (retained s f) ok.empty nofun

theorem next {event : Event} (ok : Enlisted s) (sound : Sound s) (enabled : enabled s event) :
    Enlisted (Operator.next s event) := by
  cases event with
  | step =>
      rcases enabled with ⟨task, rest, stack, _⟩
      have pushed : ({ s with stack := rest } : State).push [task] = s := by
        simp only [State.push, List.cons_append, List.nil_append, <- stack]
      simp only [Operator.next, stack]
      exact Enlisted.perform (pushed ▸ ok) (pushed ▸ sound)
  | call api => exact ok.enter sound
  | answer reply =>
      rcases enabled with ⟨callback, rest, stack, _⟩
      have pushed : ({ s with stack := rest } : State).push [.callback callback] = s := by
        simp only [State.push, List.cons_append, List.nil_append, <- stack]
      simp only [Operator.next, stack]
      exact Enlisted.answer (pushed ▸ ok)
  | resume f | abandon f => exact ⟨ok.carried, ok.empty, ok.finished⟩

end Enlisted

theorem reachable_enlisted {s : State} (reached : machine.Reachable s) : Enlisted s := by
  refine reached.invariant Enlisted ?_ ?_
  · rintro _ rfl
    exact ⟨nofun, nofun, nofun⟩
  · intro before event reached ok enabled
    exact ok.next (reachable_sound reached) enabled

/-! ## Chains of operators -/

/-- The call builds an operator with this input. -/
def Api.Builds (future : FutureId) : Api -> Prop
  | map f _ | flatMap f | onError f | doOnSuccess f => f = future
  | _ => False

/-- The futures of a chain, the last one first.  The source carries the token, and each operator
is built on the output of the one before while the source does.  The steps in between meet a
condition. -/
inductive Chain (condition : List FutureId -> State -> Event -> Prop) (token : TokenId)
    (source : FutureId) : List FutureId -> State -> Prop
  | source {s : State} : machine.Reachable s -> (s.futures source).cancelToken = some token ->
      Chain condition token source [source] s
  | operator {s : State} {future : FutureId} {earlier : List FutureId} {api : Api} :
      Chain condition token source (future :: earlier) s -> api.Builds future ->
      machine.enabled s (.call api) -> (s.futures source).cancelToken = some token ->
      Chain condition token source (s.count :: future :: earlier) (machine.next s (.call api))
  | step {s : State} {chain : List FutureId} {event : Event} :
      Chain condition token source chain s -> machine.enabled s event -> condition chain s event ->
      Chain condition token source chain (machine.next s event)

/-- The output of an operator that comes to hand its token on. -/
def inheritor (s : State) : Event -> Option FutureId
  | .step =>
      match s.stack with
      | .inherit _ out :: _ => some out
      | _ => none
  | _ => none

/-- An operator of the chain leaves its output pending until it hands the token on. -/
def LeavesPending (chain : List FutureId) (s : State) (event : Event) : Prop :=
  forall out, inheritor s event = some out -> out ∈ chain -> (s.futures out).isCompleted = false

instance (chain : List FutureId) (s : State) (event : Event) :
    Decidable (LeavesPending chain s event) :=
  decidable_of_iff ((inheritor s event).all fun out =>
      out ∈ chain -> (s.futures out).isCompleted = false) <| by
    simp only [LeavesPending]
    cases inheritor s event <;> simp
    tauto

namespace Chain

variable {condition : List FutureId -> State -> Event -> Prop} {token : TokenId} {source : FutureId}
  {chain : List FutureId} {s : State}

theorem reachable (built : Chain condition token source chain s) : machine.Reachable s := by
  induction built with
  | source reached _ => exact reached
  | operator _ _ may _ inductionHypothesis => exact .step inductionHypothesis may
  | step _ may _ inductionHypothesis => exact .step inductionHypothesis may

theorem weaken {weaker : List FutureId -> State -> Event -> Prop}
    (built : Chain condition token source chain s)
    (weakens : forall chain s event, condition chain s event -> weaker chain s event) :
    Chain weaker token source chain s := by
  induction built with
  | source reached carries => exact .source reached carries
  | operator _ builds may carries inductionHypothesis =>
      exact .operator inductionHypothesis builds may carries
  | step _ may met inductionHypothesis => exact .step inductionHypothesis may (weakens _ _ _ met)

/-- The chain stays while other calls are made and return. -/
theorem run {events : List Event} {last : State}
    (built : Chain condition token source chain s)
    (run : (machine.restrict (condition chain)).Run s events last) :
    Chain condition token source chain last := by
  induction run with
  | done => exact built
  | step may _ inductionHypothesis => exact inductionHypothesis (.step built may.1 may.2)

end Chain

/-- The operator of this output has not handed on the token yet. -/
inductive Building (token : TokenId) (s : State) (out : FutureId) : Prop
  | waits (input : FutureId) (above below : List Task) :
      s.stack = above ++ .inherit input out :: below ->
      (forall task, task ∈ above -> ¬task.Hands out) ->
      (s.futures input).cancelToken = some token -> s.clientRefs out = 0 ->
      (s.futures out).cancelToken = none -> Building token s out
  | attaches (rest : List Task) : s.stack = .attach out token :: rest ->
      (s.futures out).isCompleted = false -> (s.futures out).cancelToken = none ->
      Building token s out

/-- The future carries the token, will carry it, or is freed. -/
def Carries (token : TokenId) (s : State) (f : FutureId) : Prop :=
  0 < (s.futures f).frees ∨ (s.futures f).cancelToken = some token ∨ Building token s f

namespace Carries

variable {token : TokenId} {s : State} {f : FutureId}

/-- What the client calls does not concern a future that it does not have. -/
theorem enter {api : Api} (allowed : permitted s api) (inside : f < s.count)
    (unheld : s.clientRefs f = 0) : Exists fun new => (Operator.enter s api).stack = new ++ s.stack ∧
      (forall task, task ∈ new -> ¬task.Hands f) ∧ (Operator.enter s api).clientRefs f = 0 := by
  have outside : s.count ≠ f := Nat.ne_of_gt inside
  have plain {after : State} {new : List Task} (stack : after.stack = new ++ s.stack)
      (clientRefs : after.clientRefs = s.clientRefs)
      (hands : forall task, task ∈ new -> ¬task.Hands f) :
      Exists fun new => after.stack = new ++ s.stack ∧ (forall task, task ∈ new -> ¬task.Hands f) ∧
        after.clientRefs f = 0 :=
    ⟨new, stack, hands, clientRefs ▸ unheld⟩
  have still {after : State} (stack : after.stack = s.stack)
      (clientRefs : after.clientRefs f = 0) :
      Exists fun new => after.stack = new ++ s.stack ∧ (forall task, task ∈ new -> ¬task.Hands f) ∧
        after.clientRefs f = 0 :=
    ⟨[], stack, nofun, clientRefs⟩
  cases api with
  | create =>
      refine still rfl ?_
      simp only [Operator.enter, State.setClientRefs, State.create,
        Function.update_of_ne (Ne.symm outside)]
      exact unheld
  | map g freeValue | flatMap g | onError g | doOnSuccess g =>
      exact plain rfl rfl (by simp [Task.Hands, outside])
  | fromResult result =>
      simp only [Operator.enter]
      unfold State.give
      split <;> exact plain rfl rfl (by simp [finish, Task.Hands, outside])
  | setResult g result =>
      simp only [Operator.enter]
      unfold State.give
      split <;> exact plain rfl rfl (by simp [Task.Hands])
  | destroy g | observe g => exact plain rfl rfl (by simp [Task.Hands])
  | get g =>
      simp only [Operator.enter]
      split <;> exact still rfl unheld
  | group kind entries =>
      simp only [Operator.enter]
      split <;> exact plain rfl rfl (by simp [finish, Task.Hands, outside])
  | zip first second freeValue => exact plain rfl rfl (by simp [Task.Hands, outside])
  | attach g t =>
      have other : g ≠ f := by
        rintro rfl
        exact absurd allowed (by simp [permitted, unheld])
      exact plain rfl rfl (by simp [Task.Hands, other])
  | cancel t =>
      simp only [Operator.enter]
      split
      · exact still rfl unheld
      · refine plain rfl rfl ?_
        intro task mem
        rcases List.mem_flatMap.mp mem with ⟨entry, _, mem⟩
        cases entry with
        | none => simp_all [cancellation, Task.Hands]
        | some g =>
            simp only [cancellation, List.mem_cons, List.not_mem_nil, or_false] at mem
            rcases mem with rfl | rfl <;> exact id
  | registerCallback t =>
      simp only [Operator.enter]
      split
      · exact plain rfl rfl (by simp [Task.Hands])
      · exact still rfl unheld
  | unregisterCallback t index => exact still rfl unheld
  | retain g =>
      have other : f ≠ g := by
        rintro rfl
        exact absurd allowed (by simp [permitted, unheld])
      refine still rfl ?_
      simp only [Operator.enter, State.setClientRefs, Function.update_of_ne other]
      exact unheld
  | release g =>
      refine ⟨[.release g], rfl, by simp [Task.Hands], ?_⟩
      simp only [Operator.enter, State.push, State.setClientRefs]
      grind

theorem answer (s : State) (callback : Callback) {reply : Reply}
    (other : forall inner, reply = .future (some inner) -> inner ≠ f) (unheld : s.clientRefs f = 0) :
    Exists fun new => (afterCallback s callback reply).stack = new ++ s.stack ∧
      (forall task, task ∈ new -> ¬task.Hands f) ∧
        (afterCallback s callback reply).clientRefs f = 0 := by
  have plain {after : State} {new : List Task} (stack : after.stack = new ++ s.stack)
      (clientRefs : after.clientRefs = s.clientRefs)
      (hands : forall task, task ∈ new -> ¬task.Hands f) :
      Exists fun new => after.stack = new ++ s.stack ∧ (forall task, task ∈ new -> ¬task.Hands f) ∧
        after.clientRefs f = 0 :=
    ⟨new, stack, hands, clientRefs ▸ unheld⟩
  have still : Exists fun new => s.stack = new ++ s.stack ∧
      (forall task, task ∈ new -> ¬task.Hands f) ∧ s.clientRefs f = 0 :=
    ⟨[], rfl, nofun, unheld⟩
  have given (result : Result) (tasks : List Task) (hands : forall task, task ∈ tasks -> ¬task.Hands f) :
      Exists fun new => ((s.give result).push tasks).stack = new ++ s.stack ∧
        (forall task, task ∈ new -> ¬task.Hands f) ∧
          ((s.give result).push tasks).clientRefs f = 0 := by
    unfold State.give
    split <;> exact plain rfl rfl hands
  have taken {inner : FutureId} (mine : inner ≠ f) :
      (s.setClientRefs inner (s.clientRefs inner - 1)).clientRefs f = 0 := by
    simp only [State.setClientRefs, Function.update_of_ne (Ne.symm mine)]
    exact unheld
  cases callback with
  | observer g | cancelled => exact still
  | action g out => exact plain rfl rfl (by simp [Task.Hands])
  | mapper g out freeValue | zipper out first second =>
      cases reply with
      | value value => exact given _ _ (by simp [zipFinish, finish, Task.Hands])
      | _ => exact still
  | flatMapper g out token =>
      cases reply with
      | future inner =>
          cases inner with
          | none => cases token <;> exact plain rfl rfl (by simp [finish, Task.Hands])
          | some inner =>
              have mine := other inner rfl
              cases token <;> exact ⟨_, rfl, by simp [Task.Hands, mine], taken mine⟩
      | _ => cases token <;> exact still
  | recovery g out =>
      cases reply with
      | future inner =>
          cases inner with
          | none => exact plain rfl rfl (by simp [finish, Task.Hands])
          | some inner => exact ⟨_, rfl, by simp [Task.Hands], taken (other inner rfl)⟩
      | _ => exact still

/-- A callback returns futures that the client has. -/
theorem held_of_replies {callback : Callback} {reply : Reply} {inner : FutureId}
    (replied : replies s callback reply) (returns : reply = .future (some inner)) :
    0 < s.clientRefs inner := by
  subst returns
  have spare : s.Spare inner := by
    cases callback with
    | flatMapper g out token | recovery g out => simpa [replies] using replied
    | _ => simp [replies] at replied
  rcases spare with many | ⟨held, _⟩
  · exact Nat.lt_of_succ_lt many
  · exact held

/-- The tasks above an operator that is built change. -/
theorem under {after : State} {new above below : List Task} {input : FutureId}
    (stack : after.stack = new ++ (above ++ .inherit input f :: below))
    (hands : forall task, task ∈ new -> ¬task.Hands f)
    (aside : forall task, task ∈ above -> ¬task.Hands f)
    (carries : (after.futures input).cancelToken = some token) (unheld : after.clientRefs f = 0)
    (unattached : (after.futures f).cancelToken = none) : Building token after f := by
  refine .waits input (new ++ above) below ?_ ?_ carries unheld unattached
  · rw [stack, List.append_assoc]
  · intro task mem
    rcases List.mem_append.mp mem with mem | mem
    · exact hands task mem
    · exact aside task mem

theorem freed_of_last {task : Task} (frees : task = .release f ∨ task = .releasePromise f)
    (one : (s.futures f).refcount = 1) : 0 < ((perform s task).futures f).frees := by
  rcases frees with rfl | rfl <;>
    simp [perform, State.unref, State.setPromise, State.setFuture, one]

/-- An input that a task touches is not freed by the task on top. -/
theorem kept_token {task : Task} {input : FutureId}
    (sound : Sound (s.push [task])) (mem : .inherit input f ∈ s.stack)
    (carries : (s.futures input).cancelToken = some token) :
    ((perform s task).futures input).cancelToken = some token := by
  rcases steady_perform s task input with steady | ⟨frees, one⟩
  · rw [steady.token (by simp [carries])]
    exact carries
  · have kept : Kept s.stack input := sound.anchored.2.kept mem List.mem_cons_self
    rcases frees with rfl | rfl
    · exact absurd kept (sound.last one).free
    · exact absurd kept (sound.endPromise.last one).free

theorem step {task : Task} (ok : Carries token (s.push [task]) f) (sound : Sound (s.push [task]))
    (leaves : forall input, task = .inherit input f -> (s.futures f).isCompleted = false) :
    Carries token (perform s task) f := by
  rcases steady_perform s task f with steady | ⟨frees, one⟩
  · rcases ok with freed | carries | building
    · refine .inl ?_
      rw [steady.frees]
      exact freed
    · refine .inr (.inl ?_)
      rw [steady.token (by rw [show (s.futures f).cancelToken = some token from carries]; nofun)]
      exact carries
    · cases building with
      | waits input above below stack aside carries unheld unattached =>
          cases above with
          | nil =>
              have top : task = .inherit input f := (List.cons.inj stack).1
              subst task
              have handed : perform s (.inherit input f) = s.push [.attach f token] := by
                have reads : (s.futures input).cancelToken = some token := carries
                simp only [perform, reads]
              rw [handed]
              exact .inr (.inr (.attaches s.stack rfl (leaves input rfl) unattached))
          | cons first above =>
              have top : task = first := (List.cons.inj stack).1
              have under : s.stack = above ++ .inherit input f :: below := (List.cons.inj stack).2
              subst first
              have apart : ¬task.Hands f := aside task List.mem_cons_self
              rcases Registers.perform s task with ⟨new, registers⟩
              have after : (perform s task).stack = new ++ (above ++ .inherit input f :: below) := by
                rw [registers.stack, under]
              have below : .inherit input f ∈ s.stack := by
                rw [under]
                exact List.mem_append_right _ List.mem_cons_self
              refine .inr (.inr (Carries.under after ?_ ?_ (kept_token sound below carries) ?_ ?_))
              · intro other mem hands
                cases other with
                | deliver g =>
                    have mine : g = f := hands
                    exact registers.delivers g mem
                | inherit p g => exact registers.inherits p g mem
                | attach g t =>
                    have mine : g = f := hands
                    subst g
                    rcases registers.attaches f t mem with ⟨p, rfl, _⟩
                    exact apart rfl
                | _ => cases hands
              · exact fun other mem => aside other (List.mem_cons_of_mem _ mem)
              · rw [registers.clientRefs f (fun same => apart (same ▸ rfl))]
                exact unheld
              · have stays : ¬task.Attaches f := by
                  intro attaches
                  cases task with
                  | attach g t => exact apart attaches
                  | _ => cases attaches
                rcases (registers.cells f stays).token with same | none
                · rw [same]
                  exact unattached
                · exact none
      | attaches rest stack pending unattached =>
          have top : task = .attach f token := (List.cons.inj stack).1
          subst task
          have admitted : ¬((s.futures f).isCompleted = true ∨ (s.futures f).cancelToken ≠ none) := by
            rintro (completed | attached)
            · exact absurd (completed.symm.trans pending) (by decide)
            · exact attached unattached
          refine .inr (.inl ?_)
          simp only [perform, if_neg admitted]
          split <;> simp [State.push, State.setToken, State.setNode, State.setFuture]
  · exact .inl (freed_of_last frees one)

/-- The future has been made. -/
theorem inside (ok : Carries token s f) (sound : Sound s) : f < s.count := by
  have touched {task : Task} (mem : task ∈ s.stack) (touches : f ∈ task.touches) : f < s.count :=
    sound.lt_count (sound.refcount_of_kept (sound.anchored.kept mem touches))
  rcases ok with freed | carries | building
  · by_contra outside
    rw [sound.freed f, if_neg fun both => outside both.1] at freed
    exact absurd freed (Nat.lt_irrefl 0)
  · by_contra outside
    rw [(sound.fresh f (Nat.le_of_not_lt outside)).cell] at carries
    cases carries
  · cases building with
    | waits input above below stack _ _ _ _ =>
        have mem : .inherit input f ∈ s.stack := by
          rw [stack]
          exact List.mem_append_right _ List.mem_cons_self
        exact touched mem (List.mem_cons_of_mem _ List.mem_cons_self)
    | attaches rest stack _ _ =>
        have mem : .attach f token ∈ s.stack := by
          rw [stack]
          exact List.mem_cons_self
        exact touched mem List.mem_cons_self

theorem next {event : Event} (ok : Carries token s f) (sound : Sound s) (may : enabled s event)
    (leaves : forall input rest, event = .step -> s.stack = .inherit input f :: rest ->
      (s.futures f).isCompleted = false) : Carries token (Operator.next s event) f := by
  have inside := ok.inside sound
  cases event with
  | resume g | abandon g =>
      rcases ok with freed | carries | building
      · exact .inl freed
      · exact .inr (.inl carries)
      · cases building with
        | waits input above below stack aside carries unheld unattached =>
            exact .inr (.inr (.waits input above below stack aside carries unheld unattached))
        | attaches rest stack pending unattached =>
            exact .inr (.inr (.attaches rest stack pending unattached))
  | step =>
      rcases may with ⟨task, rest, stack, _⟩
      have pushed : ({ s with stack := rest } : State).push [task] = s := by
        simp only [State.push, List.cons_append, List.nil_append, <- stack]
      simp only [Operator.next, stack]
      refine Carries.step (pushed ▸ ok) (pushed ▸ sound) ?_
      rintro input rfl
      exact leaves input rest rfl stack
  | call api =>
      have frees := view_enter Cell.frees sound api (fun _ _ => rfl) (fun _ _ => rfl)
      have tokens := view_enter Cell.cancelToken sound api (fun _ _ => rfl) (fun _ _ => rfl)
      rcases ok with freed | carries | building
      · exact .inl ((frees f).symm ▸ freed)
      · exact .inr (.inl ((tokens f).trans carries))
      · cases building with
        | waits input above below stack aside carries unheld unattached =>
            rcases Carries.enter may.2 inside unheld with ⟨new, pushed, hands, still⟩
            rw [stack] at pushed
            exact .inr (.inr (Carries.under pushed hands aside ((tokens input).trans carries) still
              ((tokens f).trans unattached)))
        | attaches rest stack pending unattached =>
            rcases may.1 with empty | ⟨callback, below, top⟩
            · rw [empty] at stack
              cases stack
            · rw [top] at stack
              cases stack
  | answer reply =>
      rcases may with ⟨callback, rest, top, replied⟩
      have futures := futures_afterCallback { s with stack := rest } callback reply
      simp only [Operator.next, top]
      rcases ok with freed | carries | building
      · refine .inl ?_
        rw [futures]
        exact freed
      · refine .inr (.inl ?_)
        rw [futures]
        exact carries
      · cases building with
        | waits input above below stack aside carries unheld unattached =>
            cases above with
            | nil =>
                rw [top] at stack
                cases stack
            | cons first above =>
                rw [top] at stack
                cases (List.cons.inj stack).2
                have other : forall inner, reply = .future (some inner) -> inner ≠ f := by
                  rintro inner same rfl
                  exact absurd (held_of_replies replied same) (by simp [unheld])
                rcases Carries.answer { s with stack := above ++ .inherit input f :: below } callback
                  other unheld with ⟨new, pushed, hands, still⟩
                refine .inr (.inr (Carries.under pushed hands ?_ ?_ still ?_))
                · exact fun task mem => aside task (List.mem_cons_of_mem _ mem)
                · rw [futures]
                  exact carries
                · rw [futures]
                  exact unattached
        | attaches rest stack pending unattached =>
            rw [top] at stack
            cases stack

/-- What the client passes to a call carries the token by then. -/
theorem passed (ok : Carries token s f) (sound : Sound s) (runs : s.ClientRuns)
    (held : 0 < s.clientRefs f) : (s.futures f).cancelToken = some token := by
  rcases ok with freed | carries | building
  · have live := sound.refcount_of_client held
    rw [sound.freed f, if_neg fun both => Nat.ne_of_gt live both.2] at freed
    exact absurd freed (Nat.lt_irrefl 0)
  · exact carries
  · cases building with
    | waits input above below stack aside carries unheld unattached =>
        exact absurd held (Nat.not_lt_of_ge (Nat.le_of_eq unheld))
    | attaches rest stack pending unattached =>
        rcases runs with empty | ⟨callback, below, top⟩
        · rw [empty] at stack
          cases stack
        · rw [top] at stack
          cases stack

/-- An operator is built on a future that carries the token. -/
theorem operator (sound : Sound s) {input : FutureId} (continuation : FutureId -> Continuation)
    (carries : (s.futures input).cancelToken = some token) :
    Carries token (Operator.operator s input continuation) s.count := by
  have blank := sound.fresh s.count (Nat.le_refl _)
  have other : input ≠ s.count := by
    rintro rfl
    rw [blank.cell] at carries
    cases carries
  refine .inr (.inr (.waits input [.register input (continuation s.count)] _ rfl ?_ ?_ ?_ ?_))
  · simp [Task.Hands]
  · simp only [Operator.operator, State.push, State.create, Function.update_of_ne other]
    exact carries
  · exact blank.clientRefs
  · simp only [Operator.operator, State.push, State.create, Function.update_self]

end Carries

/-- In a chain whose operators leave their outputs pending, every future carries the token of
the source until it is freed. -/
theorem Chain.carries {token : TokenId} {source : FutureId} {chain : List FutureId} {s : State}
    (built : Chain LeavesPending token source chain s) (f : FutureId) (mem : f ∈ chain) :
    Carries token s f := by
  induction built generalizing f with
  | source reached carries =>
      rw [List.mem_singleton.mp mem]
      exact .inr (.inl carries)
  | @operator s future earlier api built builds may _ inductionHypothesis =>
      have sound := reachable_sound built.reachable
      rcases List.mem_cons.mp mem with rfl | mem
      · have inherits := (inductionHypothesis future List.mem_cons_self).passed sound may.1
        have allowed := may.2
        cases api with
        | map g freeValue =>
            cases builds
            exact Carries.operator sound (fun out => .map out freeValue) (inherits allowed)
        | flatMap g =>
            cases builds
            exact Carries.operator sound (fun out => .flatMap out (s.futures future).cancelToken)
              (inherits allowed)
        | onError g =>
            cases builds
            exact Carries.operator sound .onError (inherits allowed)
        | doOnSuccess g =>
            cases builds
            exact Carries.operator sound .doOnSuccess (inherits allowed)
        | _ => cases builds
      · exact (inductionHypothesis f mem).next sound may nofun
  | @step s chain event built may leaves inductionHypothesis =>
      refine (inductionHypothesis f mem).next (reachable_sound built.reachable) may ?_
      rintro input rest rfl stack
      exact leaves f (by simp only [inheritor, stack]) mem

end Operator
end UfsrvRx
