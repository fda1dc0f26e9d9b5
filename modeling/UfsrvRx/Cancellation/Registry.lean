import UfsrvRx.Transition.Machine
import Mathlib.Tactic.Simps.Basic

namespace UfsrvRx
namespace Cancellation

/-!
# The cancellation registry

The model of `ufsrv_cancellation.c`: tokens, their registration nodes, and every
public call on them, cut into the steps that other threads can observe.  A
section under the token's mutex is one step, and so is every access to an
atomic cell outside it.  Calls are not tied to threads.  Any call may start
while any other one stands at any of its program points, in particular while a
callback or a release hook is running; a call made from inside a callback is
a run in which the enclosing call does not move until the nested one returned.

The list of a token is kept as the sequence of its nodes, newest first.  The
links that realise that sequence carry no further information here.
-/

abbrev TokenId := Nat

/-- A registration is named by its `UfsrvCancellationTokenRegisterEx` call. -/
abbrev NodeId := Nat

abbrev CallId := Nat

/-- `struct UfsrvCancellationCallback`, less its links.  The function and the
context are represented by the identity of the node. -/
structure Node where
  token : TokenId
  refcount : Int
  active : Bool
  claimed : Bool
  releaseContext : Bool
deriving DecidableEq, Repr

/-- `struct UfsrvCancellationToken`. -/
structure Token where
  refcount : Int
  isCancelled : Bool
  head : List NodeId
deriving DecidableEq, Repr

/-- Program points of `UfsrvCancellationTokenRegisterEx`. -/
inductive RegisterFrame
  | idle
  | allocated
  | retained
  | calling
  | running
  | returned
  | refused
deriving DecidableEq, Repr

/-- Program points of `UfsrvCancellationTokenUnregister`. -/
inductive UnregisterFrame
  | idle
  | reclaiming (won : Bool)
  | returned (won : Bool)
deriving DecidableEq, Repr

/-- Program points of `UfsrvCancellationTokenCancel`.  The list is the part of
the detached segment that the dispatch loop has not started yet. -/
inductive CancelFrame
  | idle
  | dispatching (token : TokenId) (rest : List NodeId)
  | running (token : TokenId) (node : NodeId) (rest : List NodeId)
  | dropping (token : TokenId) (node : NodeId) (rest : List NodeId)
  | reclaiming (token : TokenId) (node : NodeId) (rest : List NodeId)
  | returned (token : TokenId) (setFlag : Bool)
deriving DecidableEq, Repr

/-- Program points of `sNodeFree`, reached at most once for each node. -/
inductive ReclaimFrame
  | idle
  | freeing
  | hook
  | hookRunning
  | releasing
  | walking
  | done
deriving DecidableEq, Repr

/-- Program points of `UfsrvCancellationTokenDestroy`. -/
inductive DestroyFrame
  | idle
  | walking (token : TokenId)
  | returned (token : TokenId)
deriving DecidableEq, Repr

/-- Everything about one registration: its node, the calls on it, and what has
been observed of it so far.  How often the callback was started and finished,
the release hook called and the node freed is history; no guard reads it. -/
structure Registration where
  cb : Node
  register : RegisterFrame
  unregister : UnregisterFrame
  reclaim : ReclaimFrame
  started : Nat
  finished : Nat
  released : Nat
  freed : Nat
deriving DecidableEq, Repr

/-- A token with the references its clients hold and the number of times it
was freed. -/
structure TokenCell where
  token : Token
  created : Bool
  clientRefs : Nat
  freed : Nat
deriving DecidableEq, Repr

/-- The shared memory and every call in progress. -/
structure State where
  tokens : TokenId -> TokenCell
  registrations : NodeId -> Registration
  cancel : CallId -> CancelFrame
  destroy : CallId -> DestroyFrame

inductive Event
  | create (token : TokenId)
  | retain (token : TokenId)
  | registerRefused (node : NodeId) (token : TokenId)
  | registerAlloc (node : NodeId) (token : TokenId) (releaseContext : Bool)
  | registerRetain (node : NodeId)
  | registerLock (node : NodeId)
  | registerCall (node : NodeId)
  | registerCallReturned (node : NodeId)
  | unregisterLock (node : NodeId)
  | unregisterReturn (node : NodeId) (won : Bool)
  | cancelLock (call : CallId) (token : TokenId)
  | cancelCall (call : CallId) (token : TokenId) (node : NodeId) (rest : List NodeId)
  | cancelCallReturned (call : CallId) (token : TokenId) (node : NodeId) (rest : List NodeId)
  | cancelDrop (call : CallId) (token : TokenId) (node : NodeId) (rest : List NodeId)
  | cancelReclaimed (call : CallId) (token : TokenId) (node : NodeId) (rest : List NodeId)
  | cancelReturn (call : CallId) (token : TokenId)
  | nodeFree (node : NodeId)
  | hookCall (node : NodeId)
  | hookReturned (node : NodeId)
  | nodeTokenRelease (node : NodeId)
  | nodeTokenWalk (node : NodeId)
  | destroyRelease (call : CallId) (token : TokenId)
  | destroyWalk (call : CallId) (token : TokenId)
deriving DecidableEq, Repr

namespace RegisterFrame

/-- The call has started and not returned. -/
def inFlight : RegisterFrame -> Bool
  | allocated | retained | calling | running => true
  | idle | returned | refused => false

end RegisterFrame

namespace CancelFrame

/-- The token a started and not yet returned call works on. -/
def inFlight : CancelFrame -> Option TokenId
  | dispatching token _ | running token _ _ | dropping token _ _ | reclaiming token _ _ =>
      some token
  | idle | returned _ _ => none

/-- The detached nodes whose callback has not been started. -/
def pending : CancelFrame -> List NodeId
  | dispatching _ rest | running _ _ rest | dropping _ _ rest | reclaiming _ _ rest => rest
  | idle | returned _ _ => []

end CancelFrame

/-- `Cancel` takes a node off the list before it runs the callback. -/
def Registration.detach (entry : Registration) : Registration :=
  { entry with cb := { entry.cb with active := false, claimed := true } }

namespace State

/-- The token a registration was made on. -/
def tokenOf (s : State) (node : NodeId) : TokenId :=
  (s.registrations node).cb.token

@[simps] def setToken (s : State) (token : TokenId) (cell : TokenCell) : State :=
  { s with tokens := Function.update s.tokens token cell }

@[simps] def setRegistration (s : State) (node : NodeId) (registration : Registration) : State :=
  { s with registrations := Function.update s.registrations node registration }

@[simps] def setCancel (s : State) (call : CallId) (frame : CancelFrame) : State :=
  { s with cancel := Function.update s.cancel call frame }

@[simps] def setDestroy (s : State) (call : CallId) (frame : DestroyFrame) : State :=
  { s with destroy := Function.update s.destroy call frame }

attribute [grind =] setToken_tokens setToken_registrations setToken_cancel setToken_destroy
  setRegistration_tokens setRegistration_registrations setRegistration_cancel
  setRegistration_destroy setCancel_tokens setCancel_registrations setCancel_cancel
  setCancel_destroy setDestroy_tokens setDestroy_registrations setDestroy_cancel
  setDestroy_destroy

/-- Some call on the token is in progress, so its thread holds a reference. -/
def Busy (s : State) (token : TokenId) : Prop :=
  (Exists fun node => s.tokenOf node = token ∧
    (s.registrations node).register.inFlight = true) ∨
    Exists fun call => (s.cancel call).inFlight = some token

/-- `UfsrvCancellationTokenRetainInternal`. -/
def retainToken (s : State) (token : TokenId) : State :=
  let cell := s.tokens token
  s.setToken token
    { cell with token := { cell.token with refcount := cell.token.refcount + 1 } }

/-- `sTokenRelease` up to its atomic decrement. -/
def dropTokenRef (s : State) (token : TokenId) : State :=
  let cell := s.tokens token
  s.setToken token
    { cell with token := { cell.token with refcount := cell.token.refcount - 1 } }

/-- The rest of `sTokenRelease` after the last decrement: take the list, give
back the context of each node still on it, free those nodes and the token. -/
def walkToken (s : State) (token : TokenId) : State :=
  let cell := s.tokens token
  { s with
    tokens := Function.update s.tokens token
      { cell with token := { cell.token with head := [] }, freed := cell.freed + 1 }
    registrations := fun node =>
      let entry := s.registrations node
      if node ∈ cell.token.head then
        { entry with
          released := entry.released + if entry.cb.releaseContext then 1 else 0
          freed := entry.freed + 1 }
      else entry }

/-- The section of `UfsrvCancellationTokenRegisterEx` under the mutex. -/
def registerSection (s : State) (node : NodeId) : State :=
  let entry := s.registrations node
  let cell := s.tokens (s.tokenOf node)
  if cell.token.isCancelled then
    s.setRegistration node
      { entry with
        cb := { entry.cb with claimed := true, refcount := 1 }
        register := .calling }
  else
    (s.setToken (s.tokenOf node)
      { cell with token := { cell.token with head := node :: cell.token.head } }).setRegistration
      node { entry with cb := { entry.cb with active := true }, register := .returned }

/-- The section of `UfsrvCancellationTokenUnregister` under the mutex.  The
answer is decided here; the node is reclaimed outside if this was its last
reference. -/
def unregisterSection (s : State) (node : NodeId) : State :=
  let entry := s.registrations node
  let cell := s.tokens (s.tokenOf node)
  if entry.cb.active then
    let refcount := entry.cb.refcount - 1 - 1
    (s.setToken (s.tokenOf node)
      { cell with token := { cell.token with head := cell.token.head.erase node } }).setRegistration
      node
      { entry with
        cb := { entry.cb with active := false, claimed := true, refcount := refcount }
        unregister := if refcount = 0 then .reclaiming true else .returned true
        reclaim := if refcount = 0 then .freeing else entry.reclaim }
  else
    let refcount := entry.cb.refcount - 1
    s.setRegistration node
      { entry with
        cb := { entry.cb with refcount := refcount }
        unregister := if refcount = 0 then .reclaiming false else .returned false
        reclaim := if refcount = 0 then .freeing else entry.reclaim }

/-- The section of `UfsrvCancellationTokenCancel` under the mutex. -/
def cancelSection (s : State) (call : CallId) (token : TokenId) : State :=
  let cell := s.tokens token
  if cell.token.isCancelled then
    s.setCancel call (.returned token false)
  else
    { s with
      tokens := Function.update s.tokens token
        { cell with token := { cell.token with isCancelled := true, head := [] } }
      registrations := fun walk =>
        if walk ∈ cell.token.head then (s.registrations walk).detach else s.registrations walk
      cancel := Function.update s.cancel call (.dispatching token cell.token.head) }

/-- `sNodeDropRef`: one reference less, and the node is reclaimed at zero. -/
def dropSection (s : State) (call : CallId) (token : TokenId) (node : NodeId)
    (rest : List NodeId) : State :=
  let entry := s.registrations node
  let refcount := entry.cb.refcount - 1
  (s.setRegistration node
    { entry with
      cb := { entry.cb with refcount := refcount }
      reclaim := if refcount = 0 then .freeing else entry.reclaim }).setCancel
    call (if refcount = 0 then .reclaiming token node rest else .dispatching token rest)

end State

/-- Before which step each event stands.  A thread uses a token only through a
reference it holds, and keeps that reference while its call is in progress; it
passes a handle to `Unregister` once, after the registration returned it. -/
def enabled (s : State) : Event -> Prop
  | .create token => (s.tokens token).created = false
  | .retain token => 0 < (s.tokens token).clientRefs
  | .registerRefused node token =>
      (s.registrations node).register = .idle ∧ 0 < (s.tokens token).clientRefs
  | .registerAlloc node token _ =>
      (s.registrations node).register = .idle ∧ 0 < (s.tokens token).clientRefs
  | .registerRetain node => (s.registrations node).register = .allocated
  | .registerLock node => (s.registrations node).register = .retained
  | .registerCall node => (s.registrations node).register = .calling
  | .registerCallReturned node => (s.registrations node).register = .running
  | .unregisterLock node =>
      (s.registrations node).register = .returned ∧ (s.registrations node).unregister = .idle
  | .unregisterReturn node won =>
      (s.registrations node).unregister = .reclaiming won ∧
        (s.registrations node).reclaim = .done
  | .cancelLock call token => s.cancel call = .idle ∧ 0 < (s.tokens token).clientRefs
  | .cancelCall call token node rest => s.cancel call = .dispatching token (node :: rest)
  | .cancelCallReturned call token node rest => s.cancel call = .running token node rest
  | .cancelDrop call token node rest => s.cancel call = .dropping token node rest
  | .cancelReclaimed call token node rest =>
      s.cancel call = .reclaiming token node rest ∧ (s.registrations node).reclaim = .done
  | .cancelReturn call token => s.cancel call = .dispatching token []
  | .nodeFree node => (s.registrations node).reclaim = .freeing
  | .hookCall node => (s.registrations node).reclaim = .hook
  | .hookReturned node => (s.registrations node).reclaim = .hookRunning
  | .nodeTokenRelease node => (s.registrations node).reclaim = .releasing
  | .nodeTokenWalk node => (s.registrations node).reclaim = .walking
  | .destroyRelease call token => s.destroy call = .idle ∧
      (1 < (s.tokens token).clientRefs ∨ (s.tokens token).clientRefs = 1 ∧ ¬ s.Busy token)
  | .destroyWalk call token => s.destroy call = .walking token

/-- What each event does. -/
def next (s : State) : Event -> State
  | .create token => s.setToken token ⟨⟨1, false, []⟩, true, 1, 0⟩
  | .retain token =>
      let cell := s.tokens token
      (s.retainToken token).setToken token
        { (s.retainToken token).tokens token with clientRefs := cell.clientRefs + 1 }
  | .registerRefused node _ =>
      s.setRegistration node { s.registrations node with register := .refused }
  | .registerAlloc node token releaseContext =>
      s.setRegistration node
        { s.registrations node with
          cb := ⟨token, 2, false, false, releaseContext⟩
          register := .allocated }
  | .registerRetain node =>
      (s.retainToken (s.tokenOf node)).setRegistration node
        { s.registrations node with register := .retained }
  | .registerLock node => s.registerSection node
  | .registerCall node =>
      let entry := s.registrations node
      s.setRegistration node { entry with started := entry.started + 1, register := .running }
  | .registerCallReturned node =>
      let entry := s.registrations node
      s.setRegistration node { entry with finished := entry.finished + 1, register := .returned }
  | .unregisterLock node => s.unregisterSection node
  | .unregisterReturn node won =>
      s.setRegistration node { s.registrations node with unregister := .returned won }
  | .cancelLock call token => s.cancelSection call token
  | .cancelCall call token node rest =>
      let entry := s.registrations node
      (s.setRegistration node { entry with started := entry.started + 1 }).setCancel
        call (.running token node rest)
  | .cancelCallReturned call token node rest =>
      let entry := s.registrations node
      (s.setRegistration node { entry with finished := entry.finished + 1 }).setCancel
        call (.dropping token node rest)
  | .cancelDrop call token node rest => s.dropSection call token node rest
  | .cancelReclaimed call token _ rest => s.setCancel call (.dispatching token rest)
  | .cancelReturn call token => s.setCancel call (.returned token true)
  | .nodeFree node =>
      let entry := s.registrations node
      s.setRegistration node
        { entry with
          freed := entry.freed + 1
          reclaim := if entry.cb.releaseContext then .hook else .releasing }
  | .hookCall node =>
      let entry := s.registrations node
      s.setRegistration node
        { entry with released := entry.released + 1, reclaim := .hookRunning }
  | .hookReturned node =>
      s.setRegistration node { s.registrations node with reclaim := .releasing }
  | .nodeTokenRelease node =>
      let last := (s.tokens (s.tokenOf node)).token.refcount = 1
      (s.dropTokenRef (s.tokenOf node)).setRegistration node
        { s.registrations node with reclaim := if last then .walking else .done }
  | .nodeTokenWalk node =>
      let walked := s.walkToken (s.tokenOf node)
      walked.setRegistration node { walked.registrations node with reclaim := .done }
  | .destroyRelease call token =>
      let cell := s.tokens token
      let dropped := s.dropTokenRef token
      (dropped.setToken token
        { dropped.tokens token with clientRefs := cell.clientRefs - 1 }).setDestroy
        call (if cell.token.refcount = 1 then .walking token else .returned token)
  | .destroyWalk call token => (s.walkToken token).setDestroy call (.returned token)

/-- No token exists and no call has been made. -/
def start : State where
  tokens := fun _ => ⟨⟨0, false, []⟩, false, 0, 0⟩
  registrations := fun _ => ⟨⟨0, 0, false, false, false⟩, .idle, .idle, .idle, 0, 0, 0, 0⟩
  cancel := fun _ => .idle
  destroy := fun _ => .idle

/-- The registry as a machine. -/
def machine : Transition.Machine State Event where
  initial := fun s => s = start
  enabled := enabled
  next := next

end Cancellation
end UfsrvRx
