import UfsrvRx.Transition.Machine
import UfsrvRx.Future.Result

namespace UfsrvRx
namespace Operator

open Transition
open Future (Result ValueId epipe ecanceled einval)

/-!
# Operators and combinators in one thread

The client calls the library from one thread, and the callbacks that the library calls may
call it again before they return.  The calls in progress are a stack of tasks, each a piece
of a library function up to the next call that it makes.  A task is taken off the stack,
does its work, and puts the tasks that follow from it in its place, so that what it called
is done before what it has left to do.

A promise, a registration with a token and the context of a combinator exist once for each
future, and are named by it.  `is_completed`, the result and READY are stored with nothing in
between, and so are closed the two stacks of a future.  No allocation fails.  The reference
count of a token is left out: every registration holds a reference to its token, so a token
is never freed before its registrations.
-/

abbrev FutureId := Nat

abbrev TokenId := Nat

/-- `UfsrvFutureAll` and `UfsrvFutureAny`. -/
inductive Kind
  | all
  | any
deriving DecidableEq, Repr

/-- A continuation with its context.  The context of an operator holds the promise of its
output; the input of an operator is the future that the continuation is registered with. -/
inductive Continuation
  | observe
  | map (out : FutureId) (freeValue : Bool)
  | flatMap (out : FutureId) (token : Option TokenId)
  | onError (out : FutureId)
  | doOnSuccess (out : FutureId)
  | moveChain (out : FutureId)
  | group (kind : Kind) (out : FutureId)
  | zip (out : FutureId) (isSecond : Bool)
deriving DecidableEq, Repr

/-- A callback of the client that has not returned. -/
inductive Callback
  | observer (future : FutureId)
  | mapper (future out : FutureId) (freeValue : Bool)
  | flatMapper (future out : FutureId) (token : Option TokenId)
  | recovery (future out : FutureId)
  | action (future out : FutureId)
  | zipper (out first second : FutureId)
  | cancelled
deriving DecidableEq, Repr

/-- The rest of a call. -/
inductive Task
  | setResult (future : FutureId) (result : Result)
  | destroyPromise (future : FutureId)
  | releasePromise (future : FutureId)
  | complete (future : FutureId) (result : Result)
  | drain (future : FutureId)
  | run (future : FutureId) (continuation : Continuation)
  | zero (future : FutureId)
  | release (future : FutureId)
  | unregister (future : FutureId)
  | attach (future : FutureId) (token : TokenId)
  | attached (future : FutureId)
  | dropNode (future : FutureId)
  | register (future : FutureId) (continuation : Continuation)
  | claimInner (out inner : FutureId)
  | claimInput (future out : FutureId)
  | inherit (future out : FutureId)
  | deliver (out : FutureId)
  | loop (kind : Kind) (out : FutureId) (entries : List (Option FutureId))
  | subtract (kind : Kind) (out : FutureId) (refused : Bool)
  | zipComplete (out first second : FutureId)
  | callback (callback : Callback)
  | leave (arguments : List FutureId)
  | leaveSet (future : FutureId)
deriving DecidableEq, Repr

/-- `struct UfsrvFuture`.  The handle is that of the future's own registration.  How the
future was completed, whether its result was moved out and how often it was freed is
history. -/
structure Cell where
  isCompleted : Bool
  isConsumed : Bool
  isClosed : Bool
  result : Result
  refcount : Nat
  cancelToken : Option TokenId
  cancelHandle : Bool
  waiters : Nat
  completed : Option Result
  isMoved : Bool
  frees : Nat
deriving DecidableEq, Repr

/-- `struct UfsrvPromise`, and whether it is the client's. -/
structure Promise where
  isLive : Bool
  isFulfilled : Bool
  isClient : Bool
deriving DecidableEq, Repr

/-- `struct UfsrvCancellationCallback` of a future. -/
structure Node where
  token : TokenId
  refcount : Nat
  isActive : Bool
deriving DecidableEq, Repr

/-- `struct UfsrvCancellationToken`: the registrations of futures, and of callbacks of the
client. -/
structure Token where
  isCancelled : Bool
  nodes : List (Option FutureId)
deriving DecidableEq, Repr

/-- `struct UfsrvAllContext` with the failed flag, `struct UfsrvAnyContext` with the claimed
flag. -/
structure Group where
  remaining : Nat
  flag : Bool
deriving DecidableEq, Repr

/-- `struct UfsrvZipContext`. -/
structure Zip where
  firstFuture : FutureId
  secondFuture : FutureId
  first : Result
  second : Result
  remaining : Nat
  freeValue : Bool
deriving DecidableEq, Repr

/-- The memory of the library, the calls in progress, and what the client has: references
to futures, and calls of `UfsrvFutureGet` that wait.  The continuation stacks of all futures
are one list, newest first.  Which values were handed to the library and how often each was
destroyed is history. -/
structure State where
  count : Nat
  futures : FutureId -> Cell
  promises : FutureId -> Promise
  nodes : FutureId -> Node
  groups : FutureId -> Group
  zips : FutureId -> Zip
  tokens : TokenId -> Token
  waiting : List (FutureId × Continuation)
  stack : List Task
  clientRefs : FutureId -> Nat
  gets : FutureId -> Nat
  given : ValueId -> Nat
  destroyed : ValueId -> Nat

/-- The calls of the client. -/
inductive Api
  | create
  | fromResult (result : Result)
  | setResult (future : FutureId) (result : Result)
  | destroy (future : FutureId)
  | observe (future : FutureId)
  | get (future : FutureId)
  | map (future : FutureId) (freeValue : Bool)
  | flatMap (future : FutureId)
  | onError (future : FutureId)
  | doOnSuccess (future : FutureId)
  | group (kind : Kind) (entries : List (Option FutureId))
  | zip (first second : FutureId) (freeValue : Bool)
  | attach (future : FutureId) (token : TokenId)
  | cancel (token : TokenId)
  | registerCallback (token : TokenId)
  | unregisterCallback (token : TokenId) (index : Nat)
  | retain (future : FutureId)
  | release (future : FutureId)
deriving DecidableEq, Repr

/-- What a callback returns. -/
inductive Reply
  | nothing
  | value (value : Option ValueId)
  | future (inner : Option FutureId)
deriving DecidableEq, Repr

inductive Event
  | step
  | call (api : Api)
  | answer (reply : Reply)
  | resume (future : FutureId)
  | abandon (future : FutureId)
deriving DecidableEq, Repr

/-! ## Memory -/

namespace State

variable (s : State)

def push (tasks : List Task) : State := { s with stack := tasks ++ s.stack }

def setFuture (future : FutureId) (cell : Cell) : State :=
  { s with futures := Function.update s.futures future cell }

def setPromise (future : FutureId) (promise : Promise) : State :=
  { s with promises := Function.update s.promises future promise }

def setNode (future : FutureId) (node : Node) : State :=
  { s with nodes := Function.update s.nodes future node }

def setGroup (out : FutureId) (group : Group) : State :=
  { s with groups := Function.update s.groups out group }

def setZip (out : FutureId) (zip : Zip) : State :=
  { s with zips := Function.update s.zips out zip }

def setToken (token : TokenId) (cell : Token) : State :=
  { s with tokens := Function.update s.tokens token cell }

def setClientRefs (future : FutureId) (references : Nat) : State :=
  { s with clientRefs := Function.update s.clientRefs future references }

/-- A value comes to the library with its destructor. -/
def give (result : Result) : State :=
  match result.owned with
  | some value => { s with given := Function.update s.given value (s.given value + 1) }
  | none => s

/-- `free_value(value)`. -/
def destroyValue (result : Result) : State :=
  match result.owned with
  | some value => { s with destroyed := Function.update s.destroyed value (s.destroyed value + 1) }
  | none => s

def consume (future : FutureId) : State :=
  s.setFuture future { s.futures future with isConsumed := true }

def fulfil (future : FutureId) : State :=
  s.setPromise future { s.promises future with isFulfilled := true }

/-- `UfsrvPromiseCreate`: the future has a reference for its promise and one for the caller. -/
def create (isClient : Bool) : State :=
  { s with
    count := s.count + 1
    futures := Function.update s.futures s.count
      { isCompleted := false
        isConsumed := false
        isClosed := false
        result := .zero
        refcount := 2
        cancelToken := none
        cancelHandle := false
        waiters := 0
        completed := none
        isMoved := false
        frees := 0 }
    promises := Function.update s.promises s.count ⟨true, false, isClient⟩ }

def retain (future : FutureId) : State :=
  s.setFuture future { s.futures future with refcount := (s.futures future).refcount + 1 }

/-- `UfsrvFutureRelease`: the last reference destroys the value, drops what is left on the
stacks, and frees the future. -/
def unref (future : FutureId) : State :=
  let cell := s.futures future
  if cell.refcount = 1 then
    { (s.setFuture future
        { cell with
          refcount := 0
          waiters := 0
          cancelToken := none
          frees := cell.frees + 1 }).destroyValue cell.result with
      waiting := s.waiting.filter fun entry => entry.1 ≠ future }
  else s.setFuture future { cell with refcount := cell.refcount - 1 }

/-- Drop references of a node.  The last one frees it and releases its future. -/
def dropNode (future : FutureId) (references : Nat) : State :=
  let node := s.nodes future
  let left := { node with refcount := node.refcount - references, isActive := false }
  if node.refcount = references then (s.setNode future left).push [.release future]
  else s.setNode future left

end State

/-! ## Tasks -/

/-- The end of an operator: complete the output and destroy its promise. -/
def finish (out : FutureId) (result : Result) : List Task :=
  [.setResult out result, .destroyPromise out]

/-- The bodies of the continuations. -/
def runContinuation (s : State) (future : FutureId) : Continuation -> State
  | .observe => s.push [.callback (.observer future)]
  | .map out freeValue =>
      let result := (s.futures future).result
      if result.error ≠ 0 then s.push (finish out (.ofError result.error))
      else s.push [.callback (.mapper future out freeValue)]
  | .flatMap out token =>
      let result := (s.futures future).result
      if result.error ≠ 0 then s.push (finish out (.ofError result.error))
      else s.push [.callback (.flatMapper future out token)]
  | .onError out =>
      if (s.futures future).result.error ≠ 0 then s.push [.callback (.recovery future out)]
      else s.push [.claimInput future out]
  | .doOnSuccess out =>
      if (s.futures future).result.error = 0 then s.push [.callback (.action future out)]
      else s.push [.claimInput future out]
  | .moveChain out => s.push (finish out (s.futures future).result ++ [.zero future])
  | .group .all out =>
      let result := (s.futures future).result
      if result.error ≠ 0 ∧ (s.groups out).flag = false then
        (s.setGroup out { s.groups out with flag := true }).push
          (finish out (.ofError result.error) ++ [.subtract .all out false])
      else s.push [.subtract .all out false]
  | .group .any out =>
      if (s.groups out).flag then s.push [.subtract .any out false]
      else
        let claimed := s.setGroup out { s.groups out with flag := true }
        if (s.futures future).isConsumed then
          claimed.push (finish out (.ofError einval) ++ [.subtract .any out false])
        else
          (claimed.consume future).push
            (finish out (s.futures future).result ++ [.zero future, .subtract .any out false])
  | .zip out isSecond =>
      let zip := s.zips out
      let result := (s.futures future).result
      let stored := if isSecond then { zip with second := result } else { zip with first := result }
      let subtracted := s.setZip out { stored with remaining := zip.remaining - 1 }
      if zip.remaining = 1 then
        subtracted.push [.zipComplete out zip.firstFuture zip.secondFuture]
      else subtracted

/-- One entry of the loop of `UfsrvFutureAll` or `UfsrvFutureAny`; a NULL entry is refused. -/
def visit (s : State) (kind : Kind) (out : FutureId) : Option FutureId -> State
  | some future => s.push [.register future (.group kind out)]
  | none =>
      match kind with
      | .all =>
          if (s.groups out).flag then s.push [.subtract .all out true]
          else
            (s.setGroup out { s.groups out with flag := true }).push
              (finish out (.ofError einval) ++ [.subtract .all out true])
      | .any => s.push [.subtract .any out true]

/-- What follows from the two halves of a zip, before the zipper is called. -/
def zipError (zip : Zip) : Option Int :=
  if zip.first.error ≠ 0 then some zip.first.error
  else if zip.second.error ≠ 0 then some zip.second.error
  else none

/-- `sZipComplete` after the result is known. -/
def zipFinish (out first second : FutureId) (result : Result) : List Task :=
  finish out result ++ [.release first, .release second]

/-- A new value, or -1 for NULL. -/
def produced (value : Option ValueId) (freeValue : Bool) : Result :=
  if value = none then .ofError (-1) else ⟨0, value, freeValue⟩

/-- What a task does. -/
def perform (s : State) : Task -> State
  | .setResult future result =>
      if (s.promises future).isFulfilled then s.destroyValue result
      else (s.fulfil future).push [.complete future result]
  | .destroyPromise future =>
      if (s.promises future).isFulfilled then s.push [.releasePromise future]
      else (s.fulfil future).push [.complete future (.ofError epipe), .releasePromise future]
  | .releasePromise future =>
      (s.setPromise future { s.promises future with isLive := false }).unref future
  | .complete future result =>
      let cell := s.futures future
      if cell.isCompleted then s.destroyValue result
      else
        (s.setFuture future
          { cell with
            isCompleted := true
            result := result
            cancelHandle := false
            completed := some result }).push
          (if cell.cancelHandle then [.unregister future, .drain future] else [.drain future])
  | .drain future =>
      { s.setFuture future { s.futures future with isClosed := true, waiters := 0 } with
        waiting := s.waiting.filter fun entry => entry.1 ≠ future
        stack := (s.waiting.filter fun entry => entry.1 = future).map
          (fun entry => .run future entry.2) ++ s.stack }
  | .run future continuation => runContinuation s future continuation
  | .zero future => s.setFuture future { s.futures future with result := .zero, isMoved := true }
  | .release future => s.unref future
  | .unregister future =>
      let node := s.nodes future
      if node.isActive then
        let token := s.tokens node.token
        (s.setToken node.token { token with nodes := token.nodes.erase (some future) }).dropNode future 2
      else s.dropNode future 1
  | .attach future token =>
      let cell := s.futures future
      if cell.isCompleted = true ∨ cell.cancelToken ≠ none then s
      else
        let held := s.setFuture future
          { cell with cancelToken := some token, refcount := cell.refcount + 1 }
        if (s.tokens token).isCancelled then
          (held.setNode future ⟨token, 1, false⟩).push
            [.complete future (.ofError ecanceled), .attached future]
        else
          ((held.setNode future ⟨token, 2, true⟩).setToken token
            { s.tokens token with nodes := some future :: (s.tokens token).nodes }).push
            [.attached future]
  | .attached future =>
      let cell := s.futures future
      if cell.isCompleted then s.push [.unregister future]
      else s.setFuture future { cell with cancelHandle := true }
  | .dropNode future => s.dropNode future 1
  | .register future continuation =>
      let cell := s.futures future
      if cell.isCompleted = true ∨ cell.isClosed = true then s.push [.run future continuation]
      else { s with waiting := (future, continuation) :: s.waiting }
  | .claimInner out inner =>
      if (s.futures inner).isConsumed then s.push (finish out (.ofError einval) ++ [.release inner])
      else (s.consume inner).push [.register inner (.moveChain out), .release inner]
  | .claimInput future out =>
      if (s.futures future).isConsumed then s.push (finish out (.ofError einval))
      else (s.consume future).push (finish out (s.futures future).result ++ [.zero future])
  | .inherit future out =>
      match (s.futures future).cancelToken with
      | some token => s.push [.attach out token]
      | none => s
  | .deliver out => s.setClientRefs out (s.clientRefs out + 1)
  | .loop _ _ [] => s
  | .loop kind out (entry :: entries) => visit (s.push [.loop kind out entries]) kind out entry
  | .subtract kind out refused =>
      let group := s.groups out
      let subtracted := s.setGroup out { group with remaining := group.remaining - 1 }
      if group.remaining = 1 ∧ group.flag = false then
        match kind, refused with
        | .all, false => subtracted.push (finish out .zero)
        | .any, true => subtracted.push (finish out (.ofError einval))
        | _, _ => subtracted
      else subtracted
  | .zipComplete out first second =>
      match zipError (s.zips out) with
      | some error => s.push (zipFinish out first second (.ofError error))
      | none => s.push [.callback (.zipper out first second)]
  | .callback _ | .leave _ | .leaveSet _ => s

/-- What follows when a callback returns. -/
def afterCallback (s : State) : Callback -> Reply -> State
  | .mapper _ out freeValue, .value value =>
      (s.give (produced value freeValue)).push (finish out (produced value freeValue))
  | .flatMapper _ out _, .future none => s.push (finish out (.ofError (-1)))
  | .flatMapper _ out none, .future (some inner) =>
      (s.setClientRefs inner (s.clientRefs inner - 1)).push [.claimInner out inner]
  | .flatMapper _ out (some token), .future (some inner) =>
      (s.setClientRefs inner (s.clientRefs inner - 1)).push
        [.attach inner token, .claimInner out inner]
  | .recovery future out, .future none =>
      s.push (finish out (.ofError (s.futures future).result.error))
  | .recovery _ out, .future (some inner) =>
      (s.setClientRefs inner (s.clientRefs inner - 1)).push [.claimInner out inner]
  | .action future out, _ => s.push [.claimInput future out]
  | .zipper out first second, .value value =>
      let result := produced value (s.zips out).freeValue
      (s.give result).push (zipFinish out first second result)
  | _, _ => s

/-! ## The client -/

/-- An operator with one input: the output, the continuation, and the inherited token. -/
def operator (s : State) (future : FutureId) (continuation : FutureId -> Continuation) : State :=
  (s.create false).push
    [.register future (continuation s.count), .inherit future s.count, .deliver s.count,
      .leave [future]]

/-- The callback of a registration is called, and the reference of the token's list dropped. -/
def cancellation : Option FutureId -> List Task
  | some future => [.complete future (.ofError ecanceled), .dropNode future]
  | none => [.callback .cancelled]

/-- What a call of the client does first. -/
def enter (s : State) : Api -> State
  | .create => (s.create true).setClientRefs s.count 1
  | .fromResult result =>
      ((s.create false).give result).push (finish s.count result ++ [.deliver s.count])
  | .setResult future result => (s.give result).push [.setResult future result, .leaveSet future]
  | .destroy future =>
      (s.setPromise future { s.promises future with isClient := false }).push
        [.destroyPromise future]
  | .observe future => s.push [.register future .observe, .leave [future]]
  | .get future =>
      let cell := s.futures future
      if cell.isCompleted then s
      else
        { s.setFuture future { cell with waiters := cell.waiters + 1 } with
          gets := Function.update s.gets future (s.gets future + 1) }
  | .map future freeValue => operator s future fun out => .map out freeValue
  | .flatMap future => operator s future fun out => .flatMap out (s.futures future).cancelToken
  | .onError future => operator s future .onError
  | .doOnSuccess future => operator s future .doOnSuccess
  | .group kind entries =>
      if entries = [] then (s.create false).push (finish s.count .zero ++ [.deliver s.count])
      else
        ((s.create false).setGroup s.count ⟨entries.length, false⟩).push
          [.loop kind s.count entries, .deliver s.count, .leave (entries.filterMap id)]
  | .zip first second freeValue =>
      ((((s.create false).setZip s.count ⟨first, second, .zero, .zero, 2, freeValue⟩).retain
        first).retain second).push
          [.register first (.zip s.count false), .register second (.zip s.count true),
            .deliver s.count, .leave [first, second]]
  | .attach future token => s.push [.attach future token, .leave [future]]
  | .cancel token =>
      let cell := s.tokens token
      if cell.isCancelled then s
      else
        { s.setToken token ⟨true, []⟩ with
          nodes := fun future =>
            if some future ∈ cell.nodes then { s.nodes future with isActive := false }
            else s.nodes future
          stack := cell.nodes.flatMap cancellation ++ s.stack }
  | .registerCallback token =>
      let cell := s.tokens token
      if cell.isCancelled then s.push [.callback .cancelled]
      else s.setToken token { cell with nodes := none :: cell.nodes }
  | .unregisterCallback token index =>
      s.setToken token
        { s.tokens token with nodes := (s.tokens token).nodes.eraseIdx index }
  | .retain future => (s.retain future).setClientRefs future (s.clientRefs future + 1)
  | .release future =>
      (s.setClientRefs future (s.clientRefs future - 1)).push [.release future]

/-- A call with this argument has not returned. -/
def State.InUse (s : State) (future : FutureId) : Prop :=
  0 < s.gets future ∨ Exists fun arguments => .leave arguments ∈ s.stack ∧ future ∈ arguments

/-- The client can give a reference away and still hold those that it has passed to a call. -/
def State.Spare (s : State) (future : FutureId) : Prop :=
  1 < s.clientRefs future ∨ 0 < s.clientRefs future ∧ ¬s.InUse future

/-- The client has the control: no call is in progress, or a callback runs. -/
def State.ClientRuns (s : State) : Prop :=
  s.stack = [] ∨ Exists fun callback => Exists fun rest => s.stack = .callback callback :: rest

/-- What the client may pass.  It holds a reference to each future that it passes; it
destroys a promise once, after the calls that set it have returned. -/
def permitted (s : State) : Api -> Prop
  | .create | .fromResult _ | .cancel _ | .registerCallback _ => True
  | .unregisterCallback token index => (s.tokens token).nodes[index]? = some none
  | .setResult future _ => (s.promises future).isClient = true
  | .destroy future => (s.promises future).isClient = true ∧ .leaveSet future ∉ s.stack
  | .observe future | .get future | .map future _ | .flatMap future | .onError future
  | .doOnSuccess future | .attach future _ | .retain future => 0 < s.clientRefs future
  | .group _ entries => forall future, some future ∈ entries -> 0 < s.clientRefs future
  | .zip first second _ => 0 < s.clientRefs first ∧ 0 < s.clientRefs second
  | .release future => s.Spare future

/-- What a callback may return.  A future is returned with a reference of the client's. -/
def replies (s : State) : Callback -> Reply -> Prop
  | .observer _, reply | .action _ _, reply | .cancelled, reply => reply = .nothing
  | .mapper _ _ _, reply | .zipper _ _ _, reply => Exists fun value => reply = .value value
  | .flatMapper _ _ _, reply | .recovery _ _, reply => reply = .future none ∨
      Exists fun inner => reply = .future (some inner) ∧ s.Spare inner

/-! ## The machine -/

def enabled (s : State) : Event -> Prop
  | .step => Exists fun task => Exists fun rest => s.stack = task :: rest ∧
      forall callback, task ≠ .callback callback
  | .call api => s.ClientRuns ∧ permitted s api
  | .answer reply => Exists fun callback => Exists fun rest =>
      s.stack = .callback callback :: rest ∧ replies s callback reply
  | .resume future => 0 < s.gets future ∧ (s.futures future).isCompleted = true
  | .abandon future => 0 < s.gets future

/-- A call of `UfsrvFutureGet` returns when it is resumed; one of
`UfsrvFutureGetWithCancellation` may be abandoned, and leaves its waiter behind. -/
def next (s : State) : Event -> State
  | .step =>
      match s.stack with
      | task :: rest => perform { s with stack := rest } task
      | [] => s
  | .call api => enter s api
  | .answer reply =>
      match s.stack with
      | .callback callback :: rest => afterCallback { s with stack := rest } callback reply
      | _ => s
  | .resume future | .abandon future =>
      { s with gets := Function.update s.gets future (s.gets future - 1) }

/-- Nothing has been made. -/
def start : State where
  count := 0
  futures := fun _ => ⟨false, false, false, .zero, 0, none, false, 0, none, false, 0⟩
  promises := fun _ => ⟨false, false, false⟩
  nodes := fun _ => ⟨0, 0, false⟩
  groups := fun _ => ⟨0, false⟩
  zips := fun _ => ⟨0, 0, .zero, .zero, 0, false⟩
  tokens := fun _ => ⟨false, []⟩
  waiting := []
  stack := []
  clientRefs := fun _ => 0
  gets := fun _ => 0
  given := fun _ => 0
  destroyed := fun _ => 0

def machine : Machine State Event where
  initial := fun s => s = start
  enabled := enabled
  next := next

/-! ## What is enabled can be computed -/

/-- The task is the end of a call with this argument. -/
def Task.leaves (future : FutureId) : Task -> Bool
  | .leave arguments => future ∈ arguments
  | _ => false

/-- The callback that the client is in. -/
def Task.asked : Task -> Option Callback
  | .callback client => some client
  | _ => none

instance (s : State) (future : FutureId) : Decidable (s.InUse future) :=
  decidable_of_iff (0 < s.gets future ∨ s.stack.any (Task.leaves future) = true) <| by
    refine or_congr Iff.rfl ?_
    rw [List.any_eq_true]
    constructor
    · rintro ⟨task, mem, argument⟩
      cases task with
      | leave arguments => exact ⟨arguments, mem, of_decide_eq_true argument⟩
      | _ => cases argument
    · rintro ⟨arguments, mem, argument⟩
      exact ⟨_, mem, decide_eq_true argument⟩

instance (s : State) (future : FutureId) : Decidable (s.Spare future) :=
  inferInstanceAs (Decidable (_ ∨ _ ∧ _))

instance (s : State) : Decidable s.ClientRuns :=
  decidable_of_iff (s.stack.head?.all (fun task => task.asked.isSome) = true) <| by
    unfold State.ClientRuns
    cases s.stack with
    | nil => simp
    | cons task rest => cases task <;> simp [Task.asked]

instance (s : State) (api : Api) : Decidable (permitted s api) :=
  match api with
  | .create | .fromResult _ | .cancel _ | .registerCallback _ => isTrue trivial
  | .unregisterCallback token index =>
      inferInstanceAs (Decidable ((s.tokens token).nodes[index]? = some none))
  | .setResult future _ => inferInstanceAs (Decidable ((s.promises future).isClient = true))
  | .destroy _ => inferInstanceAs (Decidable (_ ∧ _))
  | .observe future | .get future | .map future _ | .flatMap future | .onError future
  | .doOnSuccess future | .attach future _ | .retain future =>
      inferInstanceAs (Decidable (0 < s.clientRefs future))
  | .group _ entries =>
      decidable_of_iff (forall future, future ∈ entries.filterMap id -> 0 < s.clientRefs future) <| by
        simp [permitted]
  | .zip _ _ _ => inferInstanceAs (Decidable (_ ∧ _))
  | .release future => inferInstanceAs (Decidable (s.Spare future))

instance (s : State) (callback : Callback) (reply : Reply) : Decidable (replies s callback reply) :=
  match callback, reply with
  | .observer _, reply | .action _ _, reply | .cancelled, reply =>
      inferInstanceAs (Decidable (reply = .nothing))
  | .mapper _ _ _, .value value | .zipper _ _ _, .value value => isTrue ⟨value, rfl⟩
  | .flatMapper _ _ _, .future none | .recovery _ _, .future none => isTrue (.inl rfl)
  | .flatMapper _ _ _, .future (some inner) | .recovery _ _, .future (some inner) =>
      decidable_of_iff (s.Spare inner) <| by simp [replies]
  | .mapper _ _ _, .nothing | .mapper _ _ _, .future _ | .zipper _ _ _, .nothing
  | .zipper _ _ _, .future _ | .flatMapper _ _ _, .nothing | .flatMapper _ _ _, .value _
  | .recovery _ _, .nothing | .recovery _ _, .value _ => isFalse <| by simp [replies]

instance (s : State) (event : Event) : Decidable (machine.enabled s event) :=
  match event with
  | .step =>
      decidable_of_iff (s.stack.head?.any (fun task => task.asked.isNone) = true) <| by
        change _ ↔ enabled s .step
        unfold enabled
        cases s.stack with
        | nil => simp
        | cons task rest => cases task <;> simp [Task.asked]
  | .call api => inferInstanceAs (Decidable (s.ClientRuns ∧ permitted s api))
  | .answer reply =>
      match asked : s.stack.head?.bind Task.asked with
      | some callback =>
          decidable_of_iff (replies s callback reply) <| by
            change _ ↔ enabled s (.answer reply)
            unfold enabled
            revert asked
            cases stack : s.stack with
            | nil => simp
            | cons task rest =>
                cases task <;> simp only [List.head?_cons, Option.bind_some, Task.asked] <;>
                  simp
                rintro rfl
                rfl
      | none => isFalse <| by
          change ¬enabled s (.answer reply)
          rintro ⟨callback, rest, stack, _⟩
          rw [stack] at asked
          cases asked
  | .resume future => inferInstanceAs (Decidable (0 < s.gets future ∧
      (s.futures future).isCompleted = true))
  | .abandon future => inferInstanceAs (Decidable (0 < s.gets future))

end Operator
end UfsrvRx
