import Mathlib.Logic.Function.Basic

namespace UfsrvRx
namespace Future

/-!
# Results

`UfsrvFutureResult` is passed by value.  A value is a pointer, here its identity
or nothing for NULL, and it belongs to the result that carries it when there is a
destructor for it.
-/

abbrev ValueId := Nat

/-- `UfsrvFutureResult`: error, value, and whether `free_value` is non-NULL. -/
structure Result where
  error : Int
  value : Option ValueId
  freeValue : Bool
deriving DecidableEq, Repr

namespace Result

/-- `(UfsrvFutureResult){0}`, the result of a future whose value was moved out. -/
def zero : Result := ⟨0, none, false⟩

/-- The argument of `UfsrvPromiseSetError`. -/
def ofError (error : Int) : Result := ⟨error, none, false⟩

/-- The value for which `free_value` is called when the result is dropped. -/
def owned (result : Result) : Option ValueId :=
  if result.freeValue then result.value else none

/-- The value, or the error. -/
def outcome (result : Result) : Except Int (Option ValueId) :=
  if result.error = 0 then .ok result.value else .error result.error

end Result

def epipe : Int := 32

def ecanceled : Int := 125

def einval : Int := 22

def edeadlk : Int := 35

end Future
end UfsrvRx
