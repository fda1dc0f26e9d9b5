import UfsrvRx.Transition.Drain
import UfsrvRx.Transition.Table
import UfsrvRx.Waiter.Completion

namespace UfsrvRx
namespace Waiter

open Transition

/-!
# Waiter nodes

The node of a wait has up to three references: of the wait itself, of the stack
and whoever takes the node off it, and of the cancel registration.  Its claim goes
to one of the drain and the cancel callback, and the claimer wakes the wait once.
The life of a node is described by where it is with respect to the stack; the rest
follows from the program points of the wait and of its registration.
-/

/-- Who takes the waiters of a future off its stack. -/
inductive Drainer
  | completer (call : CallId)
  | releaser (future : FutureId)
deriving DecidableEq, Repr

/-- Where a node is with respect to the stack of its future. -/
inductive Spot
  | absent
  | own
  | refused
  | listed
  | stolen (who : Drainer)
  | waking (who : Drainer)
  | settling (who : Drainer)
  | gone
deriving DecidableEq, Repr

namespace Spot

/-- The node was pushed. -/
@[grind =] def linked : Spot -> Bool
  | listed | stolen _ | waking _ | settling _ | gone => true
  | absent | own | refused => false

/-- The reference of the stack, which the drain takes over. -/
@[grind =] def stackRef : Spot -> Int
  | own | listed | stolen _ | waking _ | settling _ => 1
  | absent | refused | gone => 0

theorem stackRef_nonneg (spot : Spot) : 0 ≤ spot.stackRef := by
  cases spot <;> simp [stackRef]

/-- The drain has claimed the node and not woken the wait yet. -/
@[grind =] def wakes : Spot -> Nat
  | waking _ => 1
  | absent | own | refused | listed | stolen _ | settling _ | gone => 0

/-- The drain is past the claim. -/
@[grind =] def settled : Spot -> Bool
  | settling _ | gone => true
  | absent | own | refused | listed | stolen _ | waking _ => false

@[grind =] def place : Spot -> Place Drainer
  | stolen who => .stolen who
  | waking who => .running who
  | settling who => .ran who
  | absent | own | refused | listed | gone => .outside

/-- Who has the node in its hands. -/
@[grind =] def holder : Spot -> Option Drainer
  | stolen who | waking who | settling who => some who
  | absent | own | refused | listed | gone => none

end Spot

/-- What the program point of a wait says about its node. -/
inductive Link
  | unallocated
  | own
  | linked
  | either
deriving DecidableEq, Repr

namespace WaitFrame

@[grind =] def link : WaitFrame -> Link
  | idle | checkingToken | checkingState => .unallocated
  | allocated => .own
  | retaining | registering | parking | parked | closing | unregistering | awaiting | releasing
  | rechecking => .linked
  | reading | returned _ => .either

/-- The reference of the wait itself. -/
@[grind =] def ownRef : WaitFrame -> Int
  | allocated | retaining | registering | parking | parked | closing | unregistering | awaiting
  | releasing => 1
  | idle | checkingToken | checkingState | rechecking | reading | returned _ => 0

theorem ownRef_nonneg (frame : WaitFrame) : 0 ≤ frame.ownRef := by
  cases frame <;> simp [ownRef]

/-- The wait has been woken, if its node was pushed. -/
@[grind =] def woken : WaitFrame -> Bool
  | closing | unregistering | awaiting | releasing | rechecking | reading | returned _ => true
  | idle | checkingToken | checkingState | allocated | retaining | registering | parking
  | parked => false

/-- A thread has not closed its descriptor yet. -/
@[grind =] def hasFd : WaitFrame -> Bool
  | allocated | retaining | registering | parking | parked | closing => true
  | idle | checkingToken | checkingState | unregistering | awaiting | releasing | rechecking
  | reading | returned _ => false

end WaitFrame

/-- The reference of the registration, until its release hook is called. -/
@[grind =] def Wait.cancelRef (wait : Wait) (released : Nat) : Int :=
  if (wait.frame = .registering ∨ wait.cancelHandle = true) ∧ released = 0 then 1 else 0

theorem Wait.cancelRef_nonneg (wait : Wait) (released : Nat) : 0 ≤ wait.cancelRef released := by
  unfold Wait.cancelRef
  split <;> decide

/-- How a wait and its node look at each spot. -/
structure NodeOk (spot : Spot) (wait : Wait) (released : Nat) : Prop where
  unallocated : wait.frame.link = .unallocated -> spot = .absent
  own : wait.frame.link = .own ↔ spot = .own
  linked : wait.frame.link = .linked -> spot.linked = true
  handle : wait.cancelHandle = true -> spot.linked = true
  callback : wait.callback ≠ .idle -> spot.linked = true
  allocated : wait.allocated = true ↔ spot ≠ .absent
  refcount : spot ≠ .absent -> wait.refcount =
    if spot = .refused then 0 else wait.frame.ownRef + spot.stackRef + wait.cancelRef released
  freed : wait.freed = if spot ≠ .absent ∧ wait.refcount = 0 then 1 else 0
  claim : wait.wakes + spot.wakes + (if wait.callback = .waking then 1 else 0) =
    if wait.claimed then 1 else 0
  fresh : spot.linked = false -> wait.claimed = false
  woken : spot.linked = true -> wait.frame.woken = true -> wait.wakes = 1
  settled : spot.settled = true -> wait.claimed = true
  done : wait.callback = .done -> wait.claimed = true
  fd : wait.agent = .thread -> wait.frame.hasFd = true -> wait.fdOpen = true ∧ wait.blockFd = true
  counter : wait.agent = .thread -> wait.frame.hasFd = true -> wait.frame ≠ .closing ->
    wait.counter = wait.wakes
  late : wait.lateWrites = 0

namespace NodeOk

variable {spot : Spot} {wait : Wait} {released : Nat}

theorem start (ok : NodeOk spot wait released) (here : wait.frame = .idle) (agent : Agent)
    (future : FutureId) (token : Option TokenId) (later : Nat) :
    NodeOk spot
      { wait with
        agent := agent
        future := future
        token := token
        frame := if token = none then .checkingState else .checkingToken } later := by
  cases ok
  constructor <;> grind -linarith

theorem allocate (ok : NodeOk spot wait released) (here : wait.frame = .checkingState) :
    NodeOk .own
      { wait with
        frame := .allocated
        allocated := true
        refcount := 2
        claimed := false
        blockFd := decide (wait.agent = .thread)
        fdOpen := decide (wait.agent = .thread)
        counter := 0
        cancelHandle := false } released := by
  cases ok
  constructor <;> grind -linarith

theorem refuse (ok : NodeOk spot wait released) (here : wait.frame = .allocated) (blockFd : Bool) :
    NodeOk .refused
      { { wait with refcount := wait.refcount - 1 }.drop with
        frame := .reading
        fdOpen := false
        blockFd := blockFd } released := by
  cases ok
  constructor <;> grind -linarith [Wait.drop]

theorem push (ok : NodeOk spot wait released) (here : wait.frame = .allocated) :
    NodeOk .listed
      { wait with frame := if wait.token = none then .parking else .retaining } released := by
  cases ok
  constructor <;> grind -linarith

theorem retain (ok : NodeOk spot wait released) (here : wait.frame = .retaining)
    (unhandled : wait.cancelHandle = false) (unreleased : released = 0) :
    NodeOk spot { wait with refcount := wait.refcount + 1, frame := .registering } released := by
  have := spot.stackRef_nonneg
  cases ok
  constructor <;> grind -linarith

theorem register (ok : NodeOk spot wait released) (here : wait.frame = .registering) :
    NodeOk spot { wait with cancelHandle := true, frame := .parking } released := by
  cases ok
  constructor <;> grind -linarith

theorem park (ok : NodeOk spot wait released) (here : wait.frame = .parking) :
    NodeOk spot { wait with frame := .parked } released := by
  cases ok
  constructor <;> grind -linarith

theorem read (ok : NodeOk spot wait released) (here : wait.frame = .parked)
    (thread : wait.agent = .thread) (written : 0 < wait.counter) :
    NodeOk spot { wait with counter := 0, frame := .closing } released := by
  cases ok
  constructor <;> grind -linarith

/-- A woken wait goes on, a thread after it has closed its descriptor. -/
theorem awake (ok : NodeOk spot wait released)
    (here : wait.frame = .closing ∨ wait.frame = .parked ∧ wait.wakes = 1) (fdOpen blockFd : Bool) :
    NodeOk spot { wait with fdOpen := fdOpen, blockFd := blockFd, frame := wait.awake }
      released := by
  cases ok
  constructor <;> grind -linarith

/-- The wait moves on with the references it has. -/
theorem advance (ok : NodeOk spot wait released) (moved : WaitFrame)
    (link : moved.link = wait.frame.link ∨ wait.frame.link ≠ .own ∧ moved.link = .either)
    (ownRef : moved.ownRef = wait.frame.ownRef)
    (woken : spot.linked = true -> moved.woken = wait.frame.woken)
    (hasFd : moved.hasFd = false)
    (other : moved ≠ .registering ∧ wait.frame ≠ .registering) :
    NodeOk spot { wait with frame := moved } released := by
  cases ok
  constructor <;> grind -linarith

theorem release (ok : NodeOk spot wait released) (here : wait.frame = .releasing) :
    NodeOk spot
      { wait.drop with frame := if wait.token = none then .reading else .rechecking }
      released := by
  have := spot.stackRef_nonneg
  have := wait.cancelRef_nonneg released
  cases ok
  constructor <;> grind -linarith [Wait.drop]

/-- As long as a claimer has not woken the wait, it is on its way to be parked. -/
theorem waiting (ok : NodeOk spot wait released)
    (claimer : spot.wakes = 1 ∨ wait.callback = .waking) :
    wait.frame.woken = false ∧ wait.frame.hasFd = true := by
  have pushed : spot.linked = true := by
    rcases claimer with drain | callback
    · cases spot <;> simp_all [Spot.wakes, Spot.linked]
    · exact ok.callback (by simp [callback])
  have claim := ok.claim
  have unwoken : wait.frame.woken = false := by
    by_contra woken
    have once := ok.woken pushed (by simpa using woken)
    grind -linarith
  refine ⟨unwoken, ?_⟩
  have unallocated := ok.unallocated
  have own := ok.own
  cases frame : wait.frame <;>
    simp_all [WaitFrame.hasFd, WaitFrame.woken, WaitFrame.link, Spot.linked]

/-! ### The cancel callback and the release hook -/

theorem called (ok : NodeOk spot wait released) (pushed : spot.linked = true)
    (idle : wait.callback = .idle) : NodeOk spot { wait with callback := .entered } released := by
  cases ok
  constructor <;> grind -linarith

theorem callbackLost (ok : NodeOk spot wait released) (here : wait.callback = .entered)
    (lost : wait.claimed = true) :
    NodeOk spot { wait with callback := .done } released := by
  cases ok
  constructor <;> grind -linarith

theorem callbackClaim (ok : NodeOk spot wait released) (here : wait.callback = .entered)
    (free : wait.claimed = false) :
    NodeOk spot { wait with claimed := true, callback := .waking } released := by
  cases ok
  constructor <;> grind -linarith

theorem callbackWake (ok : NodeOk spot wait released) (here : wait.callback = .waking) :
    NodeOk spot { wait.callbackWoken with callback := .done } released := by
  have waiting := ok.waiting (Or.inr here)
  unfold Wait.callbackWoken
  cases agent : wait.agent with
  | coroutine c S =>
      cases ok
      constructor <;> grind -linarith
  | thread =>
      cases ok
      constructor <;> grind -linarith [Wait.write]

/-- `sWaiterCancelRelease`. -/
theorem hook (ok : NodeOk spot wait 0) (held : wait.cancelHandle = true)
    (other : wait.frame ≠ .registering) : NodeOk spot wait.drop 1 := by
  have := spot.stackRef_nonneg
  have := wait.frame.ownRef_nonneg
  cases ok
  constructor <;> grind -linarith [Wait.drop]

/-- A registration that is not the wait's own does not count. -/
theorem foreign (ok : NodeOk spot wait released) (unhandled : wait.cancelHandle = false)
    (other : wait.frame ≠ .registering) (later : Nat) : NodeOk spot wait later := by
  cases ok
  constructor <;> grind -linarith

/-- The wait has registered, so its node was pushed. -/
theorem linked_of_begun (ok : NodeOk spot wait released) {entry : Cancellation.Registration}
    (hook : HookOk wait entry) (owned : wait.Owned) (begun : entry.register ≠ .idle) :
    spot.linked = true := by
  have fits := hook.fits owned
  have linked := ok.linked
  have handle := ok.handle
  cases frame : wait.frame <;> simp_all [WaitFrame.stage, WaitFrame.link, Fits, Wait.Owned]

/-! ### The drains -/

theorem steal (ok : NodeOk .listed wait released) (who : Drainer) :
    NodeOk (.stolen who) wait released := by
  cases ok
  constructor <;> grind -linarith

/-- The drain finds the node claimed. -/
theorem skip {who : Drainer} (ok : NodeOk (.stolen who) wait released)
    (claimed : wait.claimed = true) : NodeOk (.settling who) wait released := by
  cases ok
  constructor <;> grind -linarith

theorem drainClaim {who : Drainer} (ok : NodeOk (.stolen who) wait released)
    (free : wait.claimed = false) :
    NodeOk (.waking who) { wait with claimed := true } released := by
  cases ok
  constructor <;> grind -linarith

theorem drainWake {who : Drainer} (ok : NodeOk (.waking who) wait released) :
    NodeOk (.settling who) wait.drainWoken released := by
  have waiting := ok.waiting (Or.inl rfl)
  unfold Wait.drainWoken
  cases agent : wait.agent with
  | coroutine c S =>
      cases ok
      constructor <;> grind -linarith
  | thread =>
      cases ok
      constructor <;> grind -linarith [Wait.write]

/-- The last release closes the descriptor of a waiter it takes. -/
theorem closed (ok : NodeOk spot wait released) (ended : wait.frame.hasFd = false) (fdOpen : Bool) :
    NodeOk spot { wait with fdOpen := fdOpen } released := by
  cases ok
  constructor <;> grind -linarith

theorem settle {who : Drainer} (ok : NodeOk (.settling who) wait released) :
    NodeOk .gone wait.drop released := by
  have := wait.cancelRef_nonneg released
  have := wait.frame.ownRef_nonneg
  cases ok
  constructor <;> grind -linarith [Wait.drop]

end NodeOk

end Waiter
end UfsrvRx
