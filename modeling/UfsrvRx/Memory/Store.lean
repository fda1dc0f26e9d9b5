import Mathlib.Logic.Function.Basic

namespace UfsrvRx
namespace Memory

/-!
# Stores of objects

An address holds an object or is free.  A store knows an address from which on everything is
free, so that a new object can be placed without a search, and taking it away again brings
the old contents back.
-/

universe u

abbrev Address := Nat

/-- The objects, and an address above all of them. -/
structure Store (Object : Type u) where
  read : Address -> Option Object
  top : Nat
  above : forall address, top ≤ address -> read address = none

namespace Store

variable {Object : Type u}

def empty : Store Object := ⟨fun _ => none, 0, fun _ _ => rfl⟩

/-- Place a new object at `top`. -/
def place (store : Store Object) (object : Object) : Store Object where
  read := Function.update store.read store.top (some object)
  top := store.top + 1
  above := by
    intro address above
    rw [Function.update_of_ne (Nat.ne_of_gt above)]
    exact store.above address (Nat.le_of_succ_le above)

/-- Change an object.  A free address stays free. -/
def modify (store : Store Object) (address : Address) (change : Object -> Object) :
    Store Object where
  read := Function.update store.read address ((store.read address).map change)
  top := store.top
  above := by
    intro other above
    by_cases same : other = address
    · subst other
      rw [Function.update_self, store.above address above, Option.map_none]
    · rw [Function.update_of_ne same]
      exact store.above other above

/-- Take an object away. -/
def erase (store : Store Object) (address : Address) : Store Object where
  read := Function.update store.read address none
  top := store.top
  above := by
    intro other above
    by_cases same : other = address
    · subst other
      rw [Function.update_self]
    · rw [Function.update_of_ne same]
      exact store.above other above

@[simp] theorem read_place (store : Store Object) (object : Object) :
    (store.place object).read = Function.update store.read store.top (some object) := rfl

@[simp] theorem read_modify (store : Store Object) (address : Address)
    (change : Object -> Object) : (store.modify address change).read =
      Function.update store.read address ((store.read address).map change) := rfl

@[simp] theorem read_erase (store : Store Object) (address : Address) :
    (store.erase address).read = Function.update store.read address none := rfl

@[simp] theorem top_place (store : Store Object) (object : Object) :
    (store.place object).top = store.top + 1 := rfl

@[simp] theorem top_modify (store : Store Object) (address : Address)
    (change : Object -> Object) : (store.modify address change).top = store.top := rfl

@[simp] theorem top_erase (store : Store Object) (address : Address) :
    (store.erase address).top = store.top := rfl

theorem read_top (store : Store Object) : store.read store.top = none :=
  store.above _ (Nat.le_refl _)

end Store

end Memory
end UfsrvRx
