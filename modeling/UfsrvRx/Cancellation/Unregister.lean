import UfsrvRx.Cancellation.Contract

namespace UfsrvRx
namespace Cancellation

/-!
# What the answer of `Unregister` means

`Unregister` is documented to answer true when it neutralised the callback and
false when the callback has already run.  `Cancel` marks the whole detached list
inactive under the lock and runs the callbacks one by one after it, so between
the two the answer false is given for a callback that is still to come.  This
module states the documented meaning, shows the run that breaks it, and shows
that this window is the only way to break it.
-/

/-- A `Cancel` call has taken the node off the list and not yet finished its
callback. -/
def State.InDispatch (s : State) (n : NodeId) : Prop :=
  Exists fun k => n ∈ (s.cancel k).pending ∨ (s.cancel k).runningNode = some n

/-- A step is settled unless it is an `Unregister` that takes the lock while the
callback of its node is being dispatched. -/
def Settled (s : State) : Event -> Prop
  | .unregisterLock n => ¬ s.InDispatch n
  | _ => True

/-- After `Unregister` has returned the callback never starts; it did not start
if the answer was true, and it is over if the answer was false. -/
def UnregisterMeans (s : State) (n : NodeId) : Prop :=
  forall won, (s.registrations n).unregister = .returned won ->
    (forall events after, machine.Run s events after ->
      (after.registrations n).started = (s.registrations n).started) ∧
    (won = true -> (s.registrations n).started = 0) ∧
    (won = false -> (s.registrations n).started = 1 ∧ (s.registrations n).finished = 1)

/-- The answer false has been decided. -/
def Registration.Lost (entry : Registration) : Prop :=
  entry.unregister = .reclaiming false ∨ entry.unregister = .returned false

theorem lost_next {s : State} {event : Event} (may : enabled s event) {n : NodeId}
    (other : event ≠ .unregisterLock n) (lost : ((next s event).registrations n).Lost) :
    (s.registrations n).Lost := by
  unfold Registration.Lost at lost ⊢
  rcases unregister_next may other with same | ⟨won, reclaiming, returned⟩
  · rwa [same] at lost
  · rw [returned] at lost
    simp only [reduceCtorEq, UnregisterFrame.returned.injEq, false_or] at lost
    subst won
    exact Or.inl reclaiming

namespace Consistent

variable {s : State} {life : NodeId -> Life} {owners : TokenId -> Finset NodeId}
  {fate : TokenId -> Fate}

/-- A handle that is still unused and whose node is neither listed nor in
dispatch belongs to a callback that is over. -/
theorem ended (ok : Consistent s life owners fate) {n : NodeId}
    (made : (s.registrations n).register = .returned)
    (unused : (s.registrations n).unregister = .idle)
    (inactive : (s.registrations n).cb.active = false) (settled : ¬ s.InDispatch n) :
    (s.registrations n).finished = 1 := by
  have entry := ok.entries n
  have outside := entry.returned made
  rw [entry.finished]
  cases phase : life n with
  | absent => exact absurd phase outside.1
  | entering => exact absurd phase outside.2.1
  | calling => exact absurd phase outside.2.2.1
  | inlineRunning => exact absurd phase outside.2.2.2
  | listed =>
      have active := entry.active.mpr phase
      simp [inactive] at active
  | removed =>
      have answered := entry.removed.mp phase
      simp [unused] at answered
  | detached k => exact absurd ⟨k, Or.inl ((ok.lists.pendingMem k n).mpr phase)⟩ settled
  | running k => exact absurd ⟨k, Or.inr ((ok.lists.running k n).mpr phase)⟩ settled
  | ran k => rfl
  | dropped => rfl
  | inlineRan => rfl

/-- The window itself: the answer is false at once and the callback is not over. -/
theorem window (ok : Consistent s life owners fate) {n : NodeId}
    (unused : (s.registrations n).unregister = .idle) (inside : s.InDispatch n) :
    ((s.unregisterSection n).registrations n).unregister = .returned false ∧
      ((s.unregisterSection n).registrations n).finished = 0 := by
  have entry := ok.entries n
  rcases inside with ⟨k, held⟩
  have phase : life n = .detached k ∨ life n = .running k := by
    rcases held with pending | running
    · exact Or.inl ((ok.lists.pendingMem k n).mp pending)
    · exact Or.inr ((ok.lists.running k n).mp running)
  have inactive : ¬ (s.registrations n).cb.active = true := by
    rw [entry.active]
    rcases phase with phase | phase <;> simp [phase]
  have refcount : (s.registrations n).cb.refcount = 2 := by
    rw [entry.refcount (by rcases phase with phase | phase <;> simp [phase]), if_pos unused]
    rcases phase with phase | phase <;> simp [phase, Life.listRef]
  have finished : (s.registrations n).finished = 0 := by
    rw [entry.finished]
    rcases phase with phase | phase <;> simp [phase, Life.finished]
  simp only [State.unregisterSection, if_neg inactive, State.setRegistration,
    Function.update_self, refcount, finished]
  simp

end Consistent

/-- In a settled run the answer false is decided after the callback is over. -/
theorem lost_finished {s : State} (reached : (machine.restrict Settled).Reachable s) (n : NodeId)
    (lost : (s.registrations n).Lost) : (s.registrations n).finished = 1 := by
  induction reached with
  | start initial =>
      rw [show _ = start from initial] at lost
      rcases lost with reclaiming | returned
      · cases reclaiming
      · cases returned
  | @step s event reached may inductionHypothesis =>
      have plain := reached.of_restrict
      have step : enabled s event := may.1
      have reachedNext : machine.Reachable (next s event) := .step plain step
      rcases reachable_consistent reachedNext with ⟨life, _, _, after⟩
      have finished : 1 ≤ ((next s event).registrations n).finished := by
        by_cases mine : event = .unregisterLock n
        · subst event
          rcases reachable_consistent plain with ⟨_, _, _, ok⟩
          have made := may.1.1
          have unused := may.1.2
          by_cases active : (s.registrations n).cb.active = true
          · change ((s.unregisterSection n).registrations n).Lost at lost
            simp only [State.unregisterSection, if_pos active, State.setRegistration,
              Function.update_self, Registration.Lost] at lost
            split at lost <;> simp at lost
          · rw [<- ok.ended made unused (by simpa using active) may.2]
            exact (evolves_next step n).finished
        · rw [<- inductionHypothesis (lost_next step mine lost)]
          exact (evolves_next step n).finished
      have most : ((next s event).registrations n).finished ≤ 1 := by
        rw [(after.entries n).finished]
        cases life n <;> simp [Life.finished]
      exact Nat.le_antisymm most finished

/-- The answer means what is documented in every run in which no `Unregister`
takes the lock inside the window, and an `Unregister` that does is answered
wrongly. -/
theorem unregisterMeans_of_settled (s : State) (n : NodeId) :
    ((machine.restrict Settled).Reachable s -> UnregisterMeans s n) ∧
    (machine.Reachable s -> enabled s (.unregisterLock n) -> s.InDispatch n ->
      ¬ UnregisterMeans (next s (.unregisterLock n)) n) := by
  constructor
  · intro reached won answered
    have plain := reached.of_restrict
    rcases reachable_consistent plain with ⟨life, _, _, ok⟩
    cases won with
    | true =>
        have neutral : s.Neutralised n := Or.inr answered
        refine ⟨fun _ _ run => started_run plain run (Or.inl neutral),
          fun _ => ok.neutralised_started neutral, ?_⟩
        intro impossible
        cases impossible
    | false =>
        have finished := lost_finished reached n (Or.inr answered)
        have started : (s.registrations n).started = 1 := by
          have entry := ok.entries n
          rw [entry.finished] at finished
          rw [entry.started]
          cases phase : life n <;> simp_all [Life.started, Life.finished]
        refine ⟨fun _ _ run => started_run plain run (Or.inr started), ?_,
          fun _ => ⟨started, finished⟩⟩
        intro impossible
        cases impossible
  · intro reached may inside means
    rcases reachable_consistent reached with ⟨_, _, _, ok⟩
    have window := ok.window may.2 inside
    have ended := ((means false window.1).2.2 rfl).2
    exact absurd (window.2.symm.trans ended) Nat.zero_ne_one

/-- Registrations 0 and 1 are on one token.  `Cancel` runs the newer one first,
and from inside it, or from another thread, registration 0 is unregistered. -/
def unregisterInDispatch : List Event :=
  [.create 0, .registerAlloc 0 0 false, .registerRetain 0, .registerLock 0,
    .registerAlloc 1 0 false, .registerRetain 1, .registerLock 1, .cancelLock 0 0,
    .cancelCall 0 0 1 [0], .unregisterLock 0]

theorem unregisterInDispatch_enabled : machine.AllEnabled start unregisterInDispatch := by
  repeat' first | exact trivial | exact rfl | apply And.intro | exact Nat.one_pos

/-- The rest of the dispatch loop starts the callback after the answer. -/
def dispatchAfterAnswer : List Event :=
  [.cancelCallReturned 0 0 1 [0], .cancelDrop 0 0 1 [0], .cancelCall 0 0 0 []]

theorem unregisterMeans_fails :
    ¬ forall s, machine.Reachable s -> forall n, UnregisterMeans s n := by
  intro means
  have reached := Transition.Machine.Reachable.run (.start rfl) unregisterInDispatch_enabled.run
  have rest : machine.AllEnabled (machine.after start unregisterInDispatch)
      dispatchAfterAnswer := by
    repeat' first | exact trivial | exact rfl | apply And.intro
  have never := (means _ reached 0 false rfl).1 _ _ rest.run
  cases never

/-- The same calls with `Unregister` after the callback are answered correctly. -/
theorem unregisterMeans_cancelThenUnregister :
    ((machine.after start cancelThenUnregister).registrations 0).unregister = .returned false ∧
      UnregisterMeans (machine.after start cancelThenUnregister) 0 := by
  have run : (machine.restrict Settled).AllEnabled start cancelThenUnregister := by
    repeat' first | exact trivial | exact rfl | exact Nat.one_pos | apply And.intro
    rintro ⟨k, held⟩
    cases k with
    | zero =>
        change 0 ∈ ([] : List NodeId) ∨ (none : Option NodeId) = some 0 at held
        simp at held
    | succ k =>
        change 0 ∈ ([] : List NodeId) ∨ (none : Option NodeId) = some 0 at held
        simp at held
  exact ⟨rfl, (unregisterMeans_of_settled _ 0).1 (.run (.start rfl) run.run)⟩

end Cancellation
end UfsrvRx
