import UfsrvRx.Transition.Machine

namespace UfsrvRx
namespace Transition
namespace Machine

/-!
# Simulations

A specification is a machine with few actions, each of which takes effect at once.  A machine
implements it when every one of its events is one action of the specification or none.  The
actions of a run, in the order of the events that are them, are then a run of the specification.
-/

universe u v w x

variable {State : Type u} {Event : Type v} {Abstract : Type w} {Action : Type x}

/-- The specification takes the action, or stays where it is. -/
def Does (spec : Machine Abstract Action) (abstract : Abstract) : Option Action -> Abstract -> Prop
  | none, after => after = abstract
  | some action, after => spec.enabled abstract action ∧ after = spec.next abstract action

/-- The actions of the displayed events. -/
def trace (machine : Machine State Event) (action : State -> Event -> Option Action) :
    State -> List Event -> List Action
  | _, [] => []
  | state, event :: events =>
      (action state event).toList ++ trace machine action (machine.next state event) events

theorem trace_restrict (machine : Machine State Event) (condition : State -> Event -> Prop)
    (action : State -> Event -> Option Action) (state : State) (events : List Event) :
    (machine.restrict condition).trace action state events = machine.trace action state events := by
  induction events generalizing state with
  | nil => rfl
  | cons event events inductionHypothesis =>
      exact congrArg ((action state event).toList ++ ·) (inductionHypothesis _)

/-- Every event of the machine is an action of the specification, or nothing. -/
structure Simulates (machine : Machine State Event) (spec : Machine Abstract Action)
    (action : State -> Event -> Option Action) (related : State -> Abstract -> Prop) : Prop where
  initially : forall state, machine.initial state ->
    Exists fun abstract => spec.initial abstract ∧ related state abstract
  step : forall state event abstract, machine.Reachable state -> machine.enabled state event ->
    related state abstract -> Exists fun after =>
      spec.Does abstract (action state event) after ∧ related (machine.next state event) after

namespace Simulates

variable {machine : Machine State Event} {spec : Machine Abstract Action}
  {action : State -> Event -> Option Action} {related : State -> Abstract -> Prop}

/-- The actions of a run are a run of the specification. -/
theorem run (simulates : Simulates machine spec action related) {first last : State}
    {events : List Event} {abstract : Abstract} (reached : machine.Reachable first)
    (here : related first abstract) (run : machine.Run first events last) :
    Exists fun after => spec.Run abstract (machine.trace action first events) after ∧
      related last after := by
  induction run generalizing abstract with
  | done state => exact ⟨abstract, .done abstract, here⟩
  | @step state event events last may rest inductionHypothesis =>
      rcases simulates.step state event abstract reached may here with ⟨middle, does, there⟩
      rcases inductionHypothesis (reached.step may) there with ⟨after, follows, related⟩
      refine ⟨after, ?_, related⟩
      rw [trace]
      cases acts : action state event with
      | none =>
          rw [acts] at does
          rw [show middle = abstract from does] at follows
          exact follows
      | some act =>
          rw [acts] at does
          rw [show middle = spec.next abstract act from does.2] at follows
          exact .step does.1 follows

end Simulates

end Machine
end Transition
end UfsrvRx
