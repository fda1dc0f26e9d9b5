import Mathlib.Logic.Function.Basic
import Mathlib.Data.List.Basic

namespace UfsrvRx
namespace Transition

/-!
# Machines of guarded events

A concurrent program is presented here by its atomic steps.  Each step is an
*event*: a guard that says in which states some agent stands before that step,
and the state that the step leaves behind.  Any enabled event may be taken
next, so a run is an arbitrary interleaving of the agents' steps.

The rules below are the whole interface of the later proofs.  An invariant is
established once per event and holds in every reachable state; a condition on
the steps of a run is expressed by restricting the machine; and a machine that
contains another one as a component inherits the component's invariants.
-/

universe u v w

/-- A machine is given by its initial states and its guarded events. -/
structure Machine (State : Type u) (Event : Type v) where
  initial : State -> Prop
  enabled : State -> Event -> Prop
  next : State -> Event -> State

namespace Machine

variable {State : Type u} {Event : Type v} (machine : Machine State Event)

/-- The events of a run in order, from its first to its last state. -/
inductive Run : State -> List Event -> State -> Prop
  | done (state) : Run state [] state
  | step {state event events final} :
      machine.enabled state event ->
      Run (machine.next state event) events final ->
      Run state (event :: events) final

/-- A state is reachable when some run leads to it from an initial state. -/
inductive Reachable : State -> Prop
  | start {state} : machine.initial state -> Reachable state
  | step {state event} : Reachable state -> machine.enabled state event ->
      Reachable (machine.next state event)

variable {machine}

theorem Run.append {first middle last : State} {before after : List Event}
    (left : machine.Run first before middle) (right : machine.Run middle after last) :
    machine.Run first (before ++ after) last := by
  induction left with
  | done => exact right
  | step enabled _ inductionHypothesis => exact .step enabled (inductionHypothesis right)

theorem Reachable.run {first last : State} {events : List Event}
    (reached : machine.Reachable first) (run : machine.Run first events last) :
    machine.Reachable last := by
  induction run with
  | done => exact reached
  | step enabled _ inductionHypothesis => exact inductionHypothesis (.step reached enabled)

/-- What holds initially and is kept by every enabled event always holds.
The event may use that its source state is itself reachable, so invariants
can be proved one after another. -/
theorem Reachable.invariant (property : State -> Prop)
    (initially : forall state, machine.initial state -> property state)
    (kept : forall state event, machine.Reachable state -> property state ->
      machine.enabled state event -> property (machine.next state event))
    {state : State} (reached : machine.Reachable state) : property state := by
  induction reached with
  | start initial => exact initially _ initial
  | step reached enabled inductionHypothesis => exact kept _ _ reached inductionHypothesis enabled

/-- What every event keeps is kept by every run.  Unlike an invariant this
needs no initial state, so it speaks about what happens after a given point. -/
theorem Run.stable (property : State -> Prop)
    (kept : forall state event, machine.Reachable state -> property state ->
      machine.enabled state event -> property (machine.next state event))
    {first last : State} {events : List Event} (reached : machine.Reachable first)
    (run : machine.Run first events last) (holds : property first) : property last := by
  induction run with
  | done => exact holds
  | step enabled _ inductionHypothesis =>
      exact inductionHypothesis (.step reached enabled) (kept _ _ reached holds enabled)

/-! ## Concrete runs -/

/-- The state after the displayed events, whether or not they were enabled. -/
def after (machine : Machine State Event) (state : State) (events : List Event) : State :=
  events.foldl machine.next state

/-- Each of the displayed events is enabled when its turn comes. -/
def AllEnabled (machine : Machine State Event) : State -> List Event -> Prop
  | _, [] => True
  | state, event :: events =>
      machine.enabled state event ∧ AllEnabled machine (machine.next state event) events

instance decidableAllEnabled (machine : Machine State Event)
    [forall state event, Decidable (machine.enabled state event)] :
    forall state events, Decidable (machine.AllEnabled state events)
  | _, [] => isTrue trivial
  | state, event :: events =>
      @instDecidableAnd _ _ _ (decidableAllEnabled machine (machine.next state event) events)

theorem AllEnabled.run {state : State} {events : List Event}
    (may : machine.AllEnabled state events) : machine.Run state events (machine.after state events) := by
  induction events generalizing state with
  | nil => exact .done state
  | cons event events inductionHypothesis => exact .step may.1 (inductionHypothesis may.2)

/-! ## Runs whose steps meet a condition -/

/-- Keep only the steps that meet a condition on the state before them. -/
def restrict (machine : Machine State Event) (condition : State -> Event -> Prop) :
    Machine State Event where
  initial := machine.initial
  enabled := fun state event => machine.enabled state event ∧ condition state event
  next := machine.next

instance decidableRestrict {condition : State -> Event -> Prop} (state : State) (event : Event)
    [Decidable (machine.enabled state event)] [Decidable (condition state event)] :
    Decidable ((machine.restrict condition).enabled state event) :=
  inferInstanceAs (Decidable (_ ∧ _))

theorem Reachable.of_restrict {condition : State -> Event -> Prop} {state : State}
    (reached : (machine.restrict condition).Reachable state) : machine.Reachable state := by
  induction reached with
  | start initial => exact .start initial
  | step _ enabled inductionHypothesis => exact .step inductionHypothesis enabled.1

theorem Run.of_restrict {condition : State -> Event -> Prop} {first last : State}
    {events : List Event} (run : (machine.restrict condition).Run first events last) :
    machine.Run first events last := by
  induction run with
  | done => exact .done _
  | step enabled _ inductionHypothesis => exact .step enabled.1 inductionHypothesis

/-- Steps that meet a condition meet a weaker one. -/
theorem Run.weaken {condition weaker : State -> Event -> Prop} {first last : State}
    {events : List Event} (run : (machine.restrict condition).Run first events last)
    (weakens : forall state event, condition state event -> weaker state event) :
    (machine.restrict weaker).Run first events last := by
  induction run with
  | done => exact .done _
  | step enabled _ inductionHypothesis =>
      exact .step ⟨enabled.1, weakens _ _ enabled.2⟩ inductionHypothesis

/-- If a property survives exactly the steps that meet a condition and is never regained, then
it holds after the runs all of whose steps meet the condition. -/
theorem Run.restrict_iff {condition : State -> Event -> Prop} (property : State -> Prop)
    (kept : forall state event, machine.Reachable state -> machine.enabled state event ->
      property state -> (property (machine.next state event) ↔ condition state event))
    (lost : forall state event, machine.Reachable state -> machine.enabled state event ->
      ¬property state -> ¬property (machine.next state event))
    {first last : State} {events : List Event} (reached : machine.Reachable first)
    (run : machine.Run first events last) (holds : property first) :
    property last ↔ (machine.restrict condition).Run first events last := by
  have gone : forall {first events last}, machine.Reachable first ->
      machine.Run first events last -> ¬property first -> ¬property last := by
    intro first events last reached run
    exact run.stable (fun state => ¬property state)
      (fun state event reached before may => lost state event reached may before) reached
  induction run with
  | done state => exact iff_of_true holds (.done state)
  | @step state event events last may rest inductionHypothesis =>
      have reached' := reached.step may
      by_cases meets : condition state event
      · have before := (kept state event reached may holds).mpr meets
        refine (inductionHypothesis reached' before).trans ⟨?_, ?_⟩
        · exact fun rest => .step ⟨may, meets⟩ rest
        · intro run
          cases run with
          | step _ rest => exact rest
      · refine iff_of_false (gone reached' rest ?_) ?_
        · exact mt (kept state event reached may holds).mp meets
        · intro run
          cases run with
          | step both _ => exact meets both.2

/-! ## A machine inside another one -/

variable {Inner : Type w} {InnerEvent : Type v}

/-- If every step of the outer machine either leaves its component alone or
takes one guarded step of the component, then the component only ever visits
states that the inner machine reaches by itself. -/
theorem Reachable.component (inner : Machine Inner InnerEvent) (view : State -> Inner)
    (initially : forall state, machine.initial state -> inner.initial (view state))
    (simulated : forall state event, machine.enabled state event ->
      view (machine.next state event) = view state ∨
      Exists fun innerEvent => inner.enabled (view state) innerEvent ∧
        view (machine.next state event) = inner.next (view state) innerEvent)
    {state : State} (reached : machine.Reachable state) : inner.Reachable (view state) := by
  induction reached with
  | start initial => exact .start (initially _ initial)
  | step _ enabled inductionHypothesis =>
      rcases simulated _ _ enabled with same | ⟨innerEvent, innerEnabled, stepped⟩
      · rw [same]
        exact inductionHypothesis
      · rw [stepped]
        exact .step inductionHypothesis innerEnabled

theorem Run.component (inner : Machine Inner InnerEvent) (view : State -> Inner)
    (simulated : forall state event, machine.enabled state event ->
      view (machine.next state event) = view state ∨
      Exists fun innerEvent => inner.enabled (view state) innerEvent ∧
        view (machine.next state event) = inner.next (view state) innerEvent)
    {first last : State} {events : List Event} (run : machine.Run first events last) :
    Exists fun innerEvents => inner.Run (view first) innerEvents (view last) := by
  induction run with
  | done state => exact ⟨[], .done _⟩
  | step enabled _ inductionHypothesis =>
      rcases inductionHypothesis with ⟨innerEvents, rest⟩
      rcases simulated _ _ enabled with same | ⟨innerEvent, innerEnabled, stepped⟩
      · rw [same] at rest
        exact ⟨innerEvents, rest⟩
      · rw [stepped] at rest
        exact ⟨innerEvent :: innerEvents, .step innerEnabled rest⟩

end Machine

end Transition
end UfsrvRx
