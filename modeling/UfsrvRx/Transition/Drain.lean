import Mathlib.Data.List.Nodup
import Mathlib.Logic.Function.Basic

namespace UfsrvRx
namespace Transition

/-!
# Draining stolen lists

Several agents take whole lists of nodes away from a shared structure and work
them off node by node: start the node, finish it, give it up.  At every moment
a node is in the hands of at most one agent and at one point of its loop.  The
invariant below says so from both sides, and the four steps of such a loop keep
it.
-/

/-- Where a node is with respect to all drains. -/
inductive Place (Agent : Type)
  | outside
  | stolen (agent : Agent)
  | running (agent : Agent)
  | ran (agent : Agent)
deriving DecidableEq, Repr

/-- What one agent has in its hands. -/
structure Segment (Node : Type) where
  pending : List Node
  running : Option Node
  releasing : Option Node
deriving DecidableEq, Repr

/-- An agent outside its loop. -/
def Segment.none {Node : Type} : Segment Node := ⟨[], .none, .none⟩

variable {Agent Node : Type} [DecidableEq Agent] [DecidableEq Node]

/-- The hands of the agents and the places of the nodes tell the same story. -/
structure Drains (segment : Agent -> Segment Node) (place : Node -> Place Agent) : Prop where
  nodup : forall agent, (segment agent).pending.Nodup
  pending : forall agent node, node ∈ (segment agent).pending ↔ place node = .stolen agent
  running : forall agent node, (segment agent).running = some node ↔ place node = .running agent
  releasing : forall agent node, (segment agent).releasing = some node ↔ place node = .ran agent

namespace Drains

variable {segment : Agent -> Segment Node} {place : Node -> Place Agent}

/-- An agent with empty hands takes a list of nodes that nobody has. -/
theorem steal (ok : Drains segment place) (agent : Agent) {list : List Node}
    (empty : segment agent = .none) (nodup : list.Nodup)
    (outside : forall node, node ∈ list -> place node = .outside) :
    Drains (Function.update segment agent ⟨list, .none, .none⟩)
      (fun node => if node ∈ list then .stolen agent else place node) := by
  constructor
  · intro other
    have := ok.nodup other
    grind
  · intro other node
    have := ok.pending other node
    have := outside node
    by_cases mine : other = agent
    · subst other
      simp only [empty, Segment.none, List.not_mem_nil, false_iff] at this
      grind [Segment.none]
    · grind
  · intro other node
    have := ok.running other node
    have := outside node
    grind [Segment.none]
  · intro other node
    have := ok.releasing other node
    have := outside node
    grind [Segment.none]

/-- The agent starts its next node. -/
theorem begin (ok : Drains segment place) (agent : Agent) {node : Node} {rest : List Node}
    (here : segment agent = ⟨node :: rest, .none, .none⟩) :
    Drains (Function.update segment agent ⟨rest, some node, .none⟩)
      (Function.update place node (.running agent)) := by
  have stolen := ok.pending agent node
  have nodup := ok.nodup agent
  constructor
  · intro other
    have := ok.nodup other
    grind
  · intro other n
    have := ok.pending other n
    grind
  · intro other n
    have := ok.running other n
    grind
  · intro other n
    have := ok.releasing other n
    grind

/-- The agent has finished its node. -/
theorem finish (ok : Drains segment place) (agent : Agent) {node : Node} {rest : List Node}
    (here : segment agent = ⟨rest, some node, .none⟩) :
    Drains (Function.update segment agent ⟨rest, .none, some node⟩)
      (Function.update place node (.ran agent)) := by
  have running := ok.running agent node
  constructor
  · intro other
    have := ok.nodup other
    grind
  · intro other n
    have := ok.pending other n
    grind
  · intro other n
    have := ok.running other n
    grind
  · intro other n
    have := ok.releasing other n
    grind

/-- The agent passes its next node over. -/
theorem skip (ok : Drains segment place) (agent : Agent) {node : Node} {rest : List Node}
    (here : segment agent = ⟨node :: rest, .none, .none⟩) :
    Drains (Function.update segment agent ⟨rest, .none, some node⟩)
      (Function.update place node (.ran agent)) := by
  have begun := ok.begin agent here
  have finished := begun.finish agent (Function.update_self agent _ segment)
  simpa only [Function.update_idem] using finished

/-- The agent gives its node up. -/
theorem settle (ok : Drains segment place) (agent : Agent) {node : Node} {rest : List Node}
    (here : segment agent = ⟨rest, .none, some node⟩) :
    Drains (Function.update segment agent ⟨rest, .none, .none⟩)
      (Function.update place node .outside) := by
  have ran := ok.releasing agent node
  constructor
  · intro other
    have := ok.nodup other
    grind
  · intro other n
    have := ok.pending other n
    grind
  · intro other n
    have := ok.running other n
    grind
  · intro other n
    have := ok.releasing other n
    grind

omit [DecidableEq Agent] [DecidableEq Node] in
/-- When no agent has anything in its hands, every node is outside. -/
theorem all_outside (ok : Drains segment place) (node : Node)
    (empty : forall agent, node ∉ (segment agent).pending ∧
      (segment agent).running ≠ some node ∧ (segment agent).releasing ≠ some node) :
    place node = .outside := by
  cases here : place node with
  | outside => rfl
  | stolen agent => exact absurd ((ok.pending agent node).mpr here) (empty agent).1
  | running agent => exact absurd ((ok.running agent node).mpr here) (empty agent).2.1
  | ran agent => exact absurd ((ok.releasing agent node).mpr here) (empty agent).2.2

end Drains

end Transition
end UfsrvRx
