import Mathlib.Algebra.BigOperators.Group.List.Basic
import Mathlib.Algebra.GroupWithZero.Nat
import UfsrvRx.Transition.Machine

namespace UfsrvRx
namespace Transition
namespace Machine

/-!
# Potentials of machines

A potential is what an agent may still do.  When each step of the agent takes some of it away, and
no other event adds more than it brings with it, the steps of the agent in a whole run are bounded
by what the events have brought, in whatever order they come.
-/

universe u v

variable {State : Type u} {Event : Type v} {machine : Machine State Event}

/-- The steps of an agent are paid by the first state and by what the events of the run bring. -/
theorem Run.amortised (potential : State -> Nat) (own : Event -> Bool) (income : Event -> Nat)
    (pays : forall state event, machine.Reachable state -> machine.enabled state event ->
      (own event).toNat + potential (machine.next state event) ≤ potential state + income event)
    {first last : State} {events : List Event} (reached : machine.Reachable first)
    (run : machine.Run first events last) :
    events.countP own + potential last ≤ potential first + (events.map income).sum := by
  induction run with
  | done state => simp
  | @step state event events last may rest inductionHypothesis =>
      have now := pays state event reached may
      have later := inductionHypothesis (reached.step may)
      have first : (event :: events).countP own = events.countP own + (own event).toNat := by
        cases mine : own event <;> simp [mine]
      rw [first, List.map_cons, List.sum_cons]
      omega

/-- When some event of an agent lowers the potential as long as the goal is not reached, the agent
reaches it alone, in no more steps than the potential. -/
theorem Reachable.settles (potential : State -> Nat) (ready goal : State -> Prop)
    (own : Event -> Prop)
    (lowers : forall state, machine.Reachable state -> ready state -> ¬goal state ->
      Exists fun event => own event ∧ machine.enabled state event ∧
        ready (machine.next state event) ∧ potential (machine.next state event) < potential state)
    {first : State} (reached : machine.Reachable first) (begun : ready first) :
    Exists fun events => Exists fun last => machine.Run first events last ∧
      events.length ≤ potential first ∧ (forall event, event ∈ events -> own event) ∧
        ready last ∧ goal last := by
  induction same : potential first using Nat.strongRecOn generalizing first with
  | ind owed inductionHypothesis =>
      by_cases there : goal first
      · exact ⟨[], first, .done first, Nat.zero_le _, by simp, begun, there⟩
      · rcases lowers first reached begun there with ⟨event, mine, may, stays, less⟩
        rcases inductionHypothesis _ (same ▸ less) (reached.step may) stays rfl with
          ⟨events, last, run, bound, owns, ends⟩
        refine ⟨event :: events, last, .step may run, ?_, ?_, ends⟩
        · rw [List.length_cons]
          omega
        · exact List.forall_mem_cons.mpr ⟨mine, owns⟩

end Machine
end Transition
end UfsrvRx
