import UfsrvRx.Cancellation.Contract
import UfsrvRx.Future.Result

namespace UfsrvRx
namespace Future

/-!
# One future, its promise and its attachment

The model of the part of `ufsrv_future.c` that concerns a single pair of promise
and future: the calls that set and destroy the promise, `sFutureComplete` with the
drain of the continuations, `UfsrvFutureThen`, and
`UfsrvFutureAttachCancellation`.  Tokens and registrations are those of the
registry, which is a component of the state.  Every access to an atomic cell is
one step, and so is every operation on the continuation stack.

Calls are not tied to threads, as in the registry.  The waiters of the future are
treated by themselves; between the release of the handle and the drain of the
continuations they are only a point that the completing call passes.

The stack of continuations is the one of the library below: a node starts with
two references and no claim, a push fails exactly when the stack is closed, the
drain empties and closes it at once, one claim succeeds, and the last release
says so.
-/

abbrev TokenId := Cancellation.TokenId

abbrev NodeId := Cancellation.NodeId

abbrev CallId := Cancellation.CallId

/-- A continuation is named by its `UfsrvFutureThen` call. -/
abbrev ThenId := Nat

/-- Who calls `sFutureComplete`: one of the calls that set the promise, the call
that destroys it, or the cancel callback of an attachment. -/
inductive Completer
  | set (call : CallId)
  | destroy
  | cancel (node : NodeId)
deriving DecidableEq, Repr

/-- Program points of `sFutureComplete`.  The list is the part of the stolen stack
that the drain has not reached. -/
inductive CompleteFrame
  | idle
  | entered
  | writing
  | storing
  | taking
  | unregistering (node : NodeId)
  | awaiting (node : NodeId)
  | waking
  | closing
  | draining (rest : List ThenId)
  | running (node : ThenId) (rest : List ThenId)
  | releasing (node : ThenId) (rest : List ThenId)
  | returned (won : Bool)
deriving DecidableEq, Repr

/-- Program points of `UfsrvPromiseSetResult`. -/
inductive SetFrame
  | idle
  | completing
  | dropping
  | returned
deriving DecidableEq, Repr

/-- Program points of `UfsrvPromiseDestroy`. -/
inductive DestroyFrame
  | idle
  | completing
  | releasing
  | returned
deriving DecidableEq, Repr

/-- The two ways in which `sFutureThen` runs the callback itself: the future is
ready, or the stack has been closed. -/
inductive ThenPath
  | ready
  | refused
deriving DecidableEq, Repr

/-- Program points of `sFutureThen`. -/
inductive ThenFrame
  | idle
  | allocated
  | calling (path : ThenPath)
  | running (path : ThenPath)
  | discarding
  | linked
  | returned (accepted : Bool)
deriving DecidableEq, Repr

/-- Program points of `UfsrvFutureAttachCancellation`. -/
inductive AttachFrame
  | idle
  | claiming
  | retainingToken
  | retainingFuture
  | registering
  | storing
  | checking
  | taking
  | unregistering (node : NodeId)
  | awaiting (node : NodeId)
  | rollingBack
  | destroyingToken (call : CallId)
  | releasingFuture
  | returned (attached : Bool)
deriving DecidableEq, Repr

/-- A call that sets the promise, with its argument and how often it destroyed
its own value. -/
structure SetCall where
  result : Result
  frame : SetFrame
  destroyed : Nat
deriving DecidableEq, Repr

/-- `struct UfsrvContinuation` and the call that registers it.  `allocated` says
that there is a node; the counters are history. -/
structure Continuation where
  refcount : Int
  claimed : Bool
  frame : ThenFrame
  allocated : Bool
  started : Nat
  finished : Nat
  freed : Nat
deriving DecidableEq, Repr

structure AttachCall where
  token : TokenId
  frame : AttachFrame
deriving DecidableEq, Repr

/-- `struct UfsrvFuture`, `struct UfsrvPromise`, the registry and every call in
progress.  `winner`, `moved` and `consumed` are history: the completer that won
the exchange, whether the result was moved out, and how often each handle was
passed to `Unregister`. -/
structure State where
  isCompleted : Bool
  isReady : Bool
  result : Result
  refcount : Int
  isFulfilled : Bool
  continuations : List ThenId
  closed : Bool
  cancelToken : Option TokenId
  cancelHandle : Option NodeId
  registry : Cancellation.State
  complete : Completer -> CompleteFrame
  sets : CallId -> SetCall
  destroy : DestroyFrame
  thens : ThenId -> Continuation
  attach : NodeId -> AttachCall
  winner : Option Completer
  moved : Bool
  consumed : NodeId -> Nat

inductive Event
  | registry (event : Cancellation.Event)
  | setExchange (call : CallId) (result : Result)
  | setCompleted (call : CallId) (won : Bool)
  | setDrop (call : CallId)
  | destroyExchange
  | destroyCompleted (won : Bool)
  | destroyRelease
  | completeExchange (who : Completer)
  | completeWrite (who : Completer)
  | completeReady (who : Completer)
  | completeTake (who : Completer)
  | completeUnregister (who : Completer) (node : NodeId)
  | completeUnregistered (who : Completer) (node : NodeId) (won : Bool)
  | completeWake (who : Completer)
  | completeClose (who : Completer)
  | completeClaim (who : Completer) (node : ThenId) (rest : List ThenId)
  | completeRan (who : Completer) (node : ThenId) (rest : List ThenId)
  | completeRelease (who : Completer) (node : ThenId) (rest : List ThenId)
  | completeReturn (who : Completer)
  | thenFailed (node : ThenId)
  | thenLoad (node : ThenId)
  | thenPush (node : ThenId)
  | thenCall (node : ThenId) (path : ThenPath)
  | thenCallReturned (node : ThenId) (path : ThenPath)
  | thenDiscard (node : ThenId)
  | thenRelease (node : ThenId)
  | attachLoad (node : NodeId) (token : TokenId)
  | attachClaim (node : NodeId)
  | attachRetainToken (node : NodeId)
  | attachRetainFuture (node : NodeId)
  | attachRegistered (node : NodeId)
  | attachStore (node : NodeId)
  | attachCheck (node : NodeId)
  | attachTake (node : NodeId)
  | attachUnregister (node : NodeId) (handle : NodeId)
  | attachUnregistered (node : NodeId) (handle : NodeId) (won : Bool)
  | attachRefused (node : NodeId)
  | attachDestroyToken (node : NodeId) (call : CallId)
  | attachTokenDestroyed (node : NodeId) (call : CallId)
  | attachReleaseFuture (node : NodeId)
  | move
deriving DecidableEq, Repr

/-- The registration whose release hook the step calls. -/
def hookOf : Cancellation.Event -> Option NodeId
  | .hookCall node => some node
  | _ => none

namespace State

/-- Registration `node` was made, or is being made, by attachment `node`. -/
def Attached (s : State) (node : NodeId) : Prop :=
  (s.attach node).frame ≠ .idle

instance (s : State) (node : NodeId) : Decidable (s.Attached node) :=
  inferInstanceAs (Decidable (_ ≠ _))

def setComplete (s : State) (who : Completer) (frame : CompleteFrame) : State :=
  { s with complete := Function.update s.complete who frame }

def setThen (s : State) (node : ThenId) (entry : Continuation) : State :=
  { s with thens := Function.update s.thens node entry }

def setAttach (s : State) (node : NodeId) (frame : AttachFrame) : State :=
  { s with attach := Function.update s.attach node { s.attach node with frame := frame } }

/-- The argument of each call of `sFutureComplete`. -/
def argument (s : State) : Completer -> Result
  | .set call => (s.sets call).result
  | .destroy => .ofError epipe
  | .cancel _ => .ofError ecanceled

/-- `sFutureCancelCallback` is entered when the callback of an attachment is
called, and `sFutureCancelRelease` drops the cancel reference.  The registrations
of others do not concern the future. -/
def react (s : State) (event : Cancellation.Event) : State :=
  match event.starts, hookOf event with
  | some node, _ => if s.Attached node then s.setComplete (.cancel node) .entered else s
  | none, some node => if s.Attached node then { s with refcount := s.refcount - 1 } else s
  | none, none => s

/-- A handle is passed to `Unregister`.  A second time there would be no
registration behind it. -/
def passHandle (s : State) (node : NodeId) : State :=
  { s with
    consumed := Function.update s.consumed node (s.consumed node + 1)
    registry :=
      if (s.registry.registrations node).register = .returned ∧
          (s.registry.registrations node).unregister = .idle then
        Cancellation.next s.registry (.unregisterLock node)
      else s.registry }

end State

/-- Which steps of the registry the future leaves to others, and in which order it
takes its own: an attachment makes its own registration and nobody else consumes
the handle, and a callback returns when its `sFutureComplete` has returned. -/
def admits (s : State) : Cancellation.Event -> Prop
  | .registerRefused node token =>
      s.Attached node ->
        (s.attach node).frame = .registering ∧ (s.attach node).token = token
  | .registerAlloc node token releaseContext =>
      s.Attached node ->
        (s.attach node).frame = .registering ∧ (s.attach node).token = token ∧
          releaseContext = true
  | .unregisterLock node => ¬ s.Attached node
  | .registerCallReturned node | .cancelCallReturned _ _ node _ =>
      s.Attached node -> Exists fun won => s.complete (.cancel node) = .returned won
  | _ => True

/-- Before which step each event stands.  The promise is set only before it is
destroyed, and destroyed when the calls that set it have returned. -/
def enabled (s : State) : Event -> Prop
  | .registry event => Cancellation.enabled s.registry event ∧ admits s event
  | .setExchange call _ => (s.sets call).frame = .idle ∧ s.destroy = .idle
  | .setCompleted call won =>
      (s.sets call).frame = .completing ∧ s.complete (.set call) = .returned won
  | .setDrop call => (s.sets call).frame = .dropping
  | .destroyExchange => s.destroy = .idle ∧
      forall call, (s.sets call).frame = .idle ∨ (s.sets call).frame = .returned
  | .destroyCompleted won => s.destroy = .completing ∧ s.complete .destroy = .returned won
  | .destroyRelease => s.destroy = .releasing
  | .completeExchange who => s.complete who = .entered
  | .completeWrite who => s.complete who = .writing
  | .completeReady who => s.complete who = .storing
  | .completeTake who => s.complete who = .taking
  | .completeUnregister who node => s.complete who = .unregistering node
  | .completeUnregistered who node won => s.complete who = .awaiting node ∧
      (s.registry.registrations node).unregister = .returned won
  | .completeWake who => s.complete who = .waking
  | .completeClose who => s.complete who = .closing
  | .completeClaim who node rest => s.complete who = .draining (node :: rest)
  | .completeRan who node rest => s.complete who = .running node rest
  | .completeRelease who node rest => s.complete who = .releasing node rest
  | .completeReturn who => s.complete who = .draining []
  | .thenFailed node => (s.thens node).frame = .idle
  | .thenLoad node => (s.thens node).frame = .idle
  | .thenPush node => (s.thens node).frame = .allocated
  | .thenCall node path => (s.thens node).frame = .calling path
  | .thenCallReturned node path => (s.thens node).frame = .running path
  | .thenDiscard node => (s.thens node).frame = .discarding
  | .thenRelease node => (s.thens node).frame = .linked
  | .attachLoad node token => (s.attach node).frame = .idle ∧
      (s.registry.registrations node).register = .idle ∧
      0 < (s.registry.tokens token).clientRefs
  | .attachClaim node => (s.attach node).frame = .claiming
  | .attachRetainToken node => (s.attach node).frame = .retainingToken ∧
      Cancellation.enabled s.registry (.retain (s.attach node).token)
  | .attachRetainFuture node => (s.attach node).frame = .retainingFuture
  | .attachRegistered node => (s.attach node).frame = .registering ∧
      (s.registry.registrations node).register = .returned
  | .attachStore node => (s.attach node).frame = .storing
  | .attachCheck node => (s.attach node).frame = .checking
  | .attachTake node => (s.attach node).frame = .taking
  | .attachUnregister node handle => (s.attach node).frame = .unregistering handle
  | .attachUnregistered node handle won => (s.attach node).frame = .awaiting handle ∧
      (s.registry.registrations handle).unregister = .returned won
  | .attachRefused node => (s.attach node).frame = .registering ∧
      (s.registry.registrations node).register = .refused
  | .attachDestroyToken node call => (s.attach node).frame = .rollingBack ∧
      Cancellation.enabled s.registry (.destroyRelease call (s.attach node).token)
  | .attachTokenDestroyed node call => (s.attach node).frame = .destroyingToken call ∧
      s.registry.destroy call = .returned (s.attach node).token
  | .attachReleaseFuture node => (s.attach node).frame = .releasingFuture
  | .move => s.isReady = true

/-- What each event does. -/
def next (s : State) : Event -> State
  | .registry event =>
      { s.react event with registry := Cancellation.next s.registry event }
  -- `UfsrvPromiseSetResult`: the loser of the first exchange drops its value at once.
  | .setExchange call result =>
      if s.isFulfilled then
        { s with sets := Function.update s.sets call ⟨result, .dropping, 0⟩ }
      else
        { s.setComplete (.set call) .entered with
          isFulfilled := true
          sets := Function.update s.sets call ⟨result, .completing, 0⟩ }
  | .setCompleted call won =>
      { s with
        sets := Function.update s.sets call
          { s.sets call with frame := if won then .returned else .dropping } }
  | .setDrop call =>
      let entry := s.sets call
      { s with
        sets := Function.update s.sets call
          { entry with
            frame := .returned
            destroyed := entry.destroyed + if entry.result.owned = none then 0 else 1 } }
  | .destroyExchange =>
      if s.isFulfilled then
        { s with destroy := .releasing }
      else
        { s.setComplete .destroy .entered with
          isFulfilled := true
          destroy := .completing }
  | .destroyCompleted _ => { s with destroy := .releasing }
  | .destroyRelease =>
      { s with
        refcount := s.refcount - 1
        destroy := .returned }
  | .completeExchange who =>
      if s.isCompleted then
        s.setComplete who (.returned false)
      else
        { s.setComplete who .writing with
          isCompleted := true
          winner := some who }
  | .completeWrite who => { s.setComplete who .storing with result := s.argument who }
  | .completeReady who => { s.setComplete who .taking with isReady := true }
  | .completeTake who =>
      match s.cancelHandle with
      | none => s.setComplete who .waking
      | some handle => { s.setComplete who (.unregistering handle) with cancelHandle := none }
  | .completeUnregister who node => (s.passHandle node).setComplete who (.awaiting node)
  | .completeUnregistered who _ _ => s.setComplete who .waking
  | .completeWake who => s.setComplete who .closing
  | .completeClose who =>
      { s.setComplete who (.draining s.continuations) with
        continuations := []
        closed := true }
  | .completeClaim who node rest =>
      let entry := s.thens node
      if entry.claimed then
        s.setComplete who (.releasing node rest)
      else
        (s.setThen node { entry with claimed := true, started := entry.started + 1 }).setComplete
          who (.running node rest)
  | .completeRan who node rest =>
      let entry := s.thens node
      (s.setThen node { entry with finished := entry.finished + 1 }).setComplete
        who (.releasing node rest)
  | .completeRelease who node rest =>
      let entry := s.thens node
      (s.setThen node
        { entry with
          refcount := entry.refcount - 1
          freed := entry.freed + if entry.refcount = 1 then 1 else 0 }).setComplete
        who (.draining rest)
  | .completeReturn who => s.setComplete who (.returned true)
  -- `sFutureThen`: a NULL argument, or no memory for the node.
  | .thenFailed node => s.setThen node { s.thens node with frame := .returned false }
  | .thenLoad node =>
      if s.isReady then
        s.setThen node { s.thens node with frame := .calling .ready }
      else
        s.setThen node
          { s.thens node with
            refcount := 2
            claimed := false
            allocated := true
            frame := .allocated }
  | .thenPush node =>
      if s.closed then
        s.setThen node { s.thens node with frame := .calling .refused }
      else
        { s.setThen node { s.thens node with frame := .linked } with
          continuations := node :: s.continuations }
  | .thenCall node path =>
      let entry := s.thens node
      s.setThen node { entry with started := entry.started + 1, frame := .running path }
  | .thenCallReturned node path =>
      let entry := s.thens node
      s.setThen node
        { entry with
          finished := entry.finished + 1
          frame := match path with
            | .ready => .returned true
            | .refused => .discarding }
  -- `sNodeDiscard` drops both references, and only the second release may free.
  | .thenDiscard node =>
      let entry := s.thens node
      s.setThen node
        { entry with
          refcount := entry.refcount - 1 - 1
          freed := entry.freed + if entry.refcount - 1 = 1 then 1 else 0
          frame := .returned true }
  | .thenRelease node =>
      let entry := s.thens node
      s.setThen node
        { entry with
          refcount := entry.refcount - 1
          freed := entry.freed + if entry.refcount = 1 then 1 else 0
          frame := .returned true }
  | .attachLoad node token =>
      { s with
        attach := Function.update s.attach node
          ⟨token, if s.isCompleted then .returned false else .claiming⟩ }
  | .attachClaim node =>
      if s.cancelToken = none then
        { s.setAttach node .retainingToken with cancelToken := some (s.attach node).token }
      else s.setAttach node (.returned false)
  | .attachRetainToken node =>
      { s.setAttach node .retainingFuture with
        registry := Cancellation.next s.registry (.retain (s.attach node).token) }
  | .attachRetainFuture node =>
      { s.setAttach node .registering with refcount := s.refcount + 1 }
  | .attachRegistered node => s.setAttach node .storing
  | .attachStore node => { s.setAttach node .checking with cancelHandle := some node }
  | .attachCheck node =>
      s.setAttach node (if s.isCompleted then .taking else .returned true)
  | .attachTake node =>
      match s.cancelHandle with
      | none => s.setAttach node (.returned true)
      | some stale => { s.setAttach node (.unregistering stale) with cancelHandle := none }
  | .attachUnregister node handle => (s.passHandle handle).setAttach node (.awaiting handle)
  | .attachUnregistered node _ _ => s.setAttach node (.returned true)
  -- The registration failed: roll back the token and the two references.
  | .attachRefused node => { s.setAttach node .rollingBack with cancelToken := none }
  | .attachDestroyToken node call =>
      { s.setAttach node (.destroyingToken call) with
        registry := Cancellation.next s.registry (.destroyRelease call (s.attach node).token) }
  | .attachTokenDestroyed node _ => s.setAttach node .releasingFuture
  | .attachReleaseFuture node =>
      { s.setAttach node (.returned false) with refcount := s.refcount - 1 }
  -- A move operator has copied the result and clears the source.
  | .move =>
      { s with
        result := .zero
        moved := true }

/-- `UfsrvPromiseCreate` has returned; the registry has not been used. -/
def start : State where
  isCompleted := false
  isReady := false
  result := .zero
  refcount := 2
  isFulfilled := false
  continuations := []
  closed := false
  cancelToken := none
  cancelHandle := none
  registry := Cancellation.start
  complete := fun _ => .idle
  sets := fun _ => ⟨.zero, .idle, 0⟩
  destroy := .idle
  thens := fun _ => ⟨0, false, .idle, false, 0, 0, 0⟩
  attach := fun _ => ⟨0, .idle⟩
  winner := none
  moved := false
  consumed := fun _ => 0

/-- The future as a machine. -/
def machine : Transition.Machine State Event where
  initial := fun s => s = start
  enabled := enabled
  next := next

end Future
end UfsrvRx
