import Mathlib.Logic.Function.Basic

namespace UfsrvRx
namespace Transition

/-!
# Tables

The state of a machine is mostly a set of tables, and a step changes one entry.
A property of the entries is kept if the new entry has it, and a view of the
entries is a table of its own that changes at the same place or not at all.
-/

variable {Key : Type} [DecidableEq Key]

section entries

variable {First Second : Type} {property : First -> Second -> Prop} {first : Key -> First}
  {second : Key -> Second}

theorem forall_update (all : forall key, property (first key) (second key)) (key : Key)
    {left : First} {right : Second} (new : property left right) (other : Key) :
    property (Function.update first key left other) (Function.update second key right other) := by
  by_cases same : other = key
  · subst other
    simpa only [Function.update_self] using new
  · simpa only [Function.update_of_ne same] using all other

theorem forall_update_right (all : forall key, property (first key) (second key)) (key : Key)
    {right : Second} (new : property (first key) right) (other : Key) :
    property (first other) (Function.update second key right other) := by
  by_cases same : other = key
  · subst other
    simpa only [Function.update_self] using new
  · simpa only [Function.update_of_ne same] using all other

end entries

section views

variable {Value Seen : Type} (view : Value -> Seen) (table : Key -> Value)

theorem view_update (key : Key) (value : Value) :
    (fun other => view (Function.update table key value other)) =
      Function.update (fun other => view (table other)) key (view value) := by
  funext other
  by_cases same : other = key
  · subst other
    simp only [Function.update_self]
  · simp only [Function.update_of_ne same]

theorem view_update_same {key : Key} {value : Value} (same : view value = view (table key)) :
    (fun other => view (Function.update table key value other)) =
      fun other => view (table other) := by
  rw [view_update, same]
  exact Function.update_eq_self key _

end views

end Transition
end UfsrvRx
