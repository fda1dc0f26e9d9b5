import UfsrvRx.Memory.Store
import UfsrvRx.Future.Result

namespace UfsrvRx
namespace Operator
namespace Rollback

open Memory
open Future (Result ValueId epipe)

/-!
# The operators with one input when memory runs out

`UfsrvFutureMap`, `UfsrvFutureMapEx`, `UfsrvFutureFlatMap`, `UfsrvFutureOnError` and
`UfsrvFutureDoOnSuccess` on a store of objects.  They differ in the context that they make and
in the continuation that they register; only the flat map takes a reference for its context.
An allocation of the call may fail, whichever it is, and each call has its own way back.
-/

abbrev CallbackId := Nat

abbrev UserData := Nat

/-- `struct UfsrvFuture`. -/
structure FutureObject where
  refcount : Nat
  isCompleted : Bool
  isConsumed : Bool
  isReady : Bool
  result : Result
  continuations : Option Address
  waiters : Option Address
  cancelToken : Option Address
  cancelHandle : Option Address
deriving DecidableEq, Repr

/-- What `calloc` returns. -/
def FutureObject.zero : FutureObject :=
  ⟨0, false, false, false, .zero, none, none, none, none⟩

/-- The contexts, each with its out promise, its callback and its user data. -/
inductive Context
  | map (outPromise : Address) (mapper : CallbackId) (user : UserData) (freeValue : Bool)
  | flatMap (outPromise : Address) (mapper : CallbackId) (user : UserData)
      (token : Option Address)
  | onError (outPromise : Address) (recovery : CallbackId) (user : UserData)
      (inFuture : Address)
  | doOnSuccess (outPromise : Address) (action : CallbackId) (user : UserData)
      (inFuture : Address)
deriving DecidableEq, Repr

/-- The continuations of the operators. -/
inductive Continuation
  | sMapContinuation
  | sFlatMapContinuation
  | sOnErrorContinuation
  | sDoOnSuccessContinuation
deriving DecidableEq, Repr

/-- `struct UfsrvContinuation`, with the references to it. -/
structure Node where
  fn : Continuation
  user : Address
  refcount : Nat
  isClaimed : Bool
deriving DecidableEq, Repr

/-- The objects on the heap.  A waiter is known by its place in a stack only. -/
inductive Object
  | future (future : FutureObject)
  | promise (isFulfilled : Bool) (future : Option Address)
  | stack (nodes : List Address) (isClosed : Bool)
  | context (context : Context)
  | node (node : Node)
  | token (refcount : Nat)
deriving DecidableEq, Repr

/-- A change of a future. -/
def Object.onFuture (change : FutureObject -> FutureObject) : Object -> Object
  | .future cell => .future (change cell)
  | object => object

/-- One more reference to a token. -/
def Object.retain : Object -> Object
  | .token refcount => .token (refcount + 1)
  | object => object

/-- The objects, and how many allocations were asked for.  The contexts with which a
continuation was called are history. -/
structure World where
  store : Store Object
  attempts : Nat
  called : List Address

/-- What is done by callbacks of the client and by functions that the calls below reach with
other objects than their own: the body of a continuation, `free_value`, the waiters of a
future, `UfsrvCancellationTokenUnregister`, the last reference to a token, and
`UfsrvFutureAttachCancellation`. -/
structure Outside where
  run : Continuation -> Address -> Address -> World -> World
  freeValue : ValueId -> World -> World
  wake : Address -> World -> World
  dropWaiter : Address -> World -> World
  unregister : Address -> World -> World
  freeToken : Address -> World -> World
  attachCancellation : Address -> Address -> World -> World

namespace World

def free (w : World) (address : Address) : World :=
  { w with store := w.store.erase address }

def modify (w : World) (address : Address) (change : Object -> Object) : World :=
  { w with store := w.store.modify address change }

def setFuture (w : World) (address : Address) (change : FutureObject -> FutureObject) : World :=
  w.modify address (Object.onFuture change)

def future (w : World) (address : Address) : Option FutureObject :=
  match w.store.read address with
  | some (.future future) => some future
  | _ => none

/-- `UfsrvCancellationTokenRetainInternal`. -/
def tokenRetain (w : World) (token : Address) : World :=
  w.modify token Object.retain

/-- `lockless_treiber_stack_steal_all_and_close`. -/
def stealAll (w : World) (stack : Option Address) : List Address × World :=
  match stack with
  | none => ([], w)
  | some address =>
      match w.store.read address with
      | some (.stack nodes _) => (nodes, w.modify address fun _ => .stack [] true)
      | _ => ([], w)

/-- `lockless_treiber_stack_destroy`. -/
def freeStack (w : World) (stack : Option Address) : World :=
  match stack with
  | none => w
  | some address => w.free address

/-- `sNodeRelease`. -/
def nodeRelease (w : World) (address : Address) : World :=
  match w.store.read address with
  | some (.node node) =>
      if node.refcount = 1 then w.free address
      else w.modify address fun _ => .node { node with refcount := node.refcount - 1 }
  | _ => w

/-- `sPushContinuation`. -/
def push (w : World) (stack : Option Address) (node : Address) : Bool × World :=
  match stack with
  | none => (false, w)
  | some address =>
      match w.store.read address with
      | some (.stack nodes false) => (true, w.modify address fun _ => .stack (node :: nodes) false)
      | _ => (false, w)

section fields

variable (w : World) (address : Address)

@[simp] theorem store_free : (w.free address).store = w.store.erase address := rfl

@[simp] theorem attempts_free : (w.free address).attempts = w.attempts := rfl

@[simp] theorem called_free : (w.free address).called = w.called := rfl

@[simp] theorem store_modify (change : Object -> Object) :
    (w.modify address change).store = w.store.modify address change := rfl

@[simp] theorem attempts_modify (change : Object -> Object) :
    (w.modify address change).attempts = w.attempts := rfl

@[simp] theorem called_modify (change : Object -> Object) :
    (w.modify address change).called = w.called := rfl

@[simp] theorem setFuture_eq_modify (change : FutureObject -> FutureObject) :
    w.setFuture address change = w.modify address (Object.onFuture change) := rfl

@[simp] theorem freeStack_none : w.freeStack none = w := rfl

@[simp] theorem freeStack_some : w.freeStack (some address) = w.free address := rfl

end fields

end World

section outside

variable (outside : Outside)

/-- The continuation is called with the result of the future and its context. -/
def call (fn : Continuation) (future context : Address) (w : World) : World :=
  outside.run fn future context { w with called := context :: w.called }

/-- `sRunContinuation`. -/
def runContinuation (future node : Address) (w : World) : World :=
  match w.store.read node with
  | some (.node object) =>
      if object.isClaimed then w
      else
        call outside object.fn future object.user
          (w.modify node fun _ => .node { object with isClaimed := true })
  | _ => w

/-- `UfsrvCancellationTokenDestroy`. -/
def tokenDestroy (token : Address) (w : World) : World :=
  match w.store.read token with
  | some (.token refcount) =>
      if refcount = 1 then outside.freeToken token w
      else w.modify token fun _ => .token (refcount - 1)
  | _ => w

/-- `sDrainWaiters`. -/
def drainWaiters (future : FutureObject) (w : World) : World :=
  let stolen := w.stealAll future.waiters
  stolen.1.foldl (fun w waiter => outside.wake waiter w) stolen.2

/-- `sDrainContinuations`. -/
def drainContinuations (address : Address) (future : FutureObject) (w : World) : World :=
  let stolen := w.stealAll future.continuations
  stolen.1.foldl (fun w node => (runContinuation outside address node w).nodeRelease node) stolen.2

/-- `sFutureComplete`. -/
def futureComplete (address : Address) (result : Result) (w : World) : Bool × World :=
  match w.future address with
  | none => (false, w)
  | some future =>
      if future.isCompleted then (false, w)
      else
        let w := w.setFuture address fun future =>
          { future with
            isCompleted := true
            result := result
            isReady := true
            cancelHandle := none }
        let w :=
          match future.cancelHandle with
          | none => w
          | some handle => outside.unregister handle w
        (true, drainContinuations outside address future (drainWaiters outside future w))

/-- `UfsrvFutureRelease`. -/
def futureRelease (address : Address) (w : World) : World :=
  match w.future address with
  | none => w
  | some future =>
      let w := w.setFuture address fun future => { future with refcount := future.refcount - 1 }
      if future.refcount ≠ 1 then w
      else
        let w :=
          match future.result.owned with
          | none => w
          | some value => outside.freeValue value w
        let nodes := w.stealAll future.continuations
        let w := nodes.1.foldl World.nodeRelease nodes.2
        let waiters := w.stealAll future.waiters
        let w := waiters.1.foldl (fun w waiter => outside.dropWaiter waiter w) waiters.2
        let w := (w.freeStack future.continuations).freeStack future.waiters
        let w :=
          match future.cancelToken with
          | none => w
          | some token => tokenDestroy outside token w
        w.free address

/-- `UfsrvPromiseDestroy`. -/
def promiseDestroy (address : Address) (w : World) : World :=
  match w.store.read address with
  | some (.promise isFulfilled (some future)) =>
      let w := w.modify address fun _ => .promise true (some future)
      let w := if isFulfilled then w else (futureComplete outside future (.ofError epipe) w).2
      (futureRelease outside future w).free address
  | _ => w

end outside

section memory

variable (memory : Nat -> Bool)

/-- `malloc` and `calloc`. -/
def allocate (object : Object) (w : World) : Option Address × World :=
  if memory w.attempts then
    (some w.store.top, { w with store := w.store.place object, attempts := w.attempts + 1 })
  else (none, { w with attempts := w.attempts + 1 })

/-- `UfsrvPromiseCreate`: the promise and the future. -/
def promiseCreate (w : World) : Option (Address × Address) × World :=
  match allocate memory (.future .zero) w with
  | (none, w) => (none, w)
  | (some future, w) =>
      match allocate memory (.promise false none) w with
      | (none, w) => (none, w.free future)
      | (some promise, w) =>
          let continuations := allocate memory (.stack [] false) w
          let waiters := allocate memory (.stack [] false) continuations.2
          let w := waiters.2.setFuture future fun future =>
            { future with continuations := continuations.1, waiters := waiters.1 }
          if continuations.1 = none ∨ waiters.1 = none then
            (none, (((w.freeStack continuations.1).freeStack waiters.1).free promise).free future)
          else
            let w := w.setFuture future fun future => { future with refcount := 2 }
            (some (promise, future), w.modify promise fun _ => .promise false (some future))

variable (outside : Outside)

/-- `sFutureThen`. -/
def futureThen (address : Address) (fn : Continuation) (context : Address) (w : World) :
    Bool × World :=
  match w.future address with
  | none => (false, w)
  | some future =>
      if future.isReady then (true, call outside fn address context w)
      else
        match allocate memory (.node ⟨fn, context, 2, false⟩) w with
        | (none, w) => (false, w)
        | (some node, w) =>
            match w.push future.continuations node with
            | (true, w) => (true, w.nodeRelease node)
            | (false, w) =>
                (true, ((call outside fn address context w).nodeRelease node).nodeRelease node)

/-- The token of the input is attached to the output. -/
def attach (input output : Address) (w : World) : World :=
  match w.future input with
  | some future =>
      match future.cancelToken with
      | none => w
      | some token => outside.attachCancellation output token w
  | none => w

/-- The way back of a call that has its promise. -/
def abandon (promise out : Address) (w : World) : World :=
  futureRelease outside out (promiseDestroy outside promise w)

/-- What the five operators have in common.  `context` is made for the input, the out promise
and the callback, and `acquire` is what the operator takes for it. -/
def operator (fn : Continuation) (context : World -> Address -> Address -> CallbackId -> Context)
    (acquire : Address -> World -> World) (input : Option Address) (callback : Option CallbackId)
    (w : World) : Option Address × World :=
  match input, callback with
  | some input, some callback =>
      match promiseCreate memory w with
      | (none, w) => (none, w)
      | (some (promise, out), w) =>
          match allocate memory (.context (context w input promise callback)) w with
          | (none, w) => (none, abandon outside promise out w)
          | (some ctx, w) =>
              match futureThen memory outside input fn ctx (acquire input w) with
              | (false, w) => (none, abandon outside promise out (w.free ctx))
              | (true, w) => (some out, attach outside input out w)
  | _, _ => (none, w)

/-- The token that is attached to a future. -/
def World.cancelToken (w : World) (address : Address) : Option Address :=
  (w.future address).bind fun future => future.cancelToken

/-- Nothing is acquired. -/
def acquireNone (_ : Address) (w : World) : World := w

/-- The flat map retains the token that it keeps in the context. -/
def acquireToken (input : Address) (w : World) : World :=
  match w.cancelToken input with
  | none => w
  | some token => w.tokenRetain token

/-- `sFutureMap`. -/
def sFutureMap (input : Option Address) (mapper : Option CallbackId) (user : UserData)
    (freeValue : Bool) : World -> Option Address × World :=
  operator memory outside .sMapContinuation
    (fun _ _ promise mapper => .map promise mapper user freeValue) acquireNone input mapper

/-- `UfsrvFutureMap` passes `free`. -/
def futureMap (input : Option Address) (mapper : Option CallbackId) (user : UserData) :
    World -> Option Address × World :=
  sFutureMap memory outside input mapper user true

/-- `UfsrvFutureMapEx`. -/
def futureMapEx (input : Option Address) (mapper : Option CallbackId) (user : UserData)
    (freeValue : Bool) : World -> Option Address × World :=
  sFutureMap memory outside input mapper user freeValue

/-- `UfsrvFutureFlatMap`. -/
def futureFlatMap (input : Option Address) (mapper : Option CallbackId) (user : UserData) :
    World -> Option Address × World :=
  operator memory outside .sFlatMapContinuation
    (fun w input promise mapper => .flatMap promise mapper user (w.cancelToken input))
    acquireToken input mapper

/-- `UfsrvFutureOnError`. -/
def futureOnError (input : Option Address) (recovery : Option CallbackId) (user : UserData) :
    World -> Option Address × World :=
  operator memory outside .sOnErrorContinuation
    (fun _ input promise recovery => .onError promise recovery user input) acquireNone input
    recovery

/-- `UfsrvFutureDoOnSuccess`. -/
def futureDoOnSuccess (input : Option Address) (action : Option CallbackId) (user : UserData) :
    World -> Option Address × World :=
  operator memory outside .sDoOnSuccessContinuation
    (fun _ input promise action => .doOnSuccess promise action user input) acquireNone input
    action

end memory

/-- A call of one of the operators. -/
inductive Request
  | map (mapper : Option CallbackId) (user : UserData)
  | mapEx (mapper : Option CallbackId) (user : UserData) (freeValue : Bool)
  | flatMap (mapper : Option CallbackId) (user : UserData)
  | onError (recovery : Option CallbackId) (user : UserData)
  | doOnSuccess (action : Option CallbackId) (user : UserData)
deriving DecidableEq, Repr

def Request.perform (memory : Nat -> Bool) (outside : Outside) (input : Option Address) :
    Request -> World -> Option Address × World
  | map mapper user => futureMap memory outside input mapper user
  | mapEx mapper user freeValue => futureMapEx memory outside input mapper user freeValue
  | flatMap mapper user => futureFlatMap memory outside input mapper user
  | onError recovery user => futureOnError memory outside input recovery user
  | doOnSuccess action user => futureDoOnSuccess memory outside input action user

/-! ## What a failed call leaves behind -/

/-- The same objects with the same contents, and no continuation was called. -/
structure World.Same (after before : World) : Prop where
  read : after.store.read = before.store.read
  called : after.called = before.called

/-- The objects of `UfsrvPromiseCreate`, as it has left them. -/
structure Pristine (w : World) (promise out continuations waiters : Address) : Prop where
  distinct : [promise, out, continuations, waiters].Nodup
  promise : w.store.read promise = some (.promise false (some out))
  out : w.store.read out = some (.future
    { FutureObject.zero with
      refcount := 2
      continuations := some continuations
      waiters := some waiters })
  continuations : w.store.read continuations = some (.stack [] false)
  waiters : w.store.read waiters = some (.stack [] false)

theorem allocate_some {memory : Nat -> Bool} {object : Object} {w : World}
    (granted : memory w.attempts = true) : allocate memory object w =
      (some w.store.top,
        { w with store := w.store.place object, attempts := w.attempts + 1 }) := by
  rw [allocate, if_pos granted]

theorem allocate_none {memory : Nat -> Bool} {object : Object} {w : World}
    (refused : memory w.attempts = false) : allocate memory object w =
      (none, { w with attempts := w.attempts + 1 }) := by
  rw [allocate, if_neg (by simp [refused])]

/-- The addresses from `top` on are free. -/
theorem read_above (w : World) (i : Nat) : w.store.read (w.store.top + i) = none :=
  w.store.above _ (Nat.le_add_right _ _)

/-- `UfsrvPromiseCreate` makes four allocations. -/
def Granted (memory : Nat -> Bool) (count : Nat) (w : World) : Prop :=
  forall i, i < count -> memory (w.attempts + i) = true

/-- A failed `UfsrvPromiseCreate` frees what it has allocated. -/
theorem promiseCreate_none {memory : Nat -> Bool} {w : World}
    (failed : (promiseCreate memory w).1 = none) : (promiseCreate memory w).2.Same w ∧
      ¬Granted memory 4 w := by
  have zeroth := read_above w 0
  have first := read_above w 1
  have second := read_above w 2
  have third := read_above w 3
  have refused : forall i, i < 4 -> memory (w.attempts + i) = false -> ¬Granted memory 4 w := by
    intro i inside refused granted
    exact absurd (refused.symm.trans (granted i inside)) nofun
  unfold promiseCreate allocate at failed ⊢
  cases future : memory w.attempts with
  | false => exact ⟨⟨rfl, rfl⟩, refused 0 (by decide) future⟩
  | true =>
      cases promise : memory (w.attempts + 1) with
      | false =>
          refine ⟨⟨?_, ?_⟩, refused 1 (by decide) promise⟩
          · funext address
            simp [promise]
            grind
          · simp [promise]
      | true =>
          cases continuations : memory (w.attempts + 2) with
          | false =>
              refine ⟨⟨?_, ?_⟩, refused 2 (by decide) continuations⟩
              · funext address
                cases waiters : memory (w.attempts + 3) <;>
                  simp [promise, continuations, waiters] <;> grind
              · cases waiters : memory (w.attempts + 3) <;>
                  simp [promise, continuations, waiters]
          | true =>
              cases waiters : memory (w.attempts + 3) with
              | false =>
                  refine ⟨⟨?_, ?_⟩, refused 3 (by decide) waiters⟩
                  · funext address
                    simp [promise, continuations, waiters]
                    grind
                  · simp [promise, continuations, waiters]
              | true => simp [future, promise, continuations, waiters] at failed

/-- What `UfsrvPromiseCreate` returns, and what it has changed. -/
structure Created (memory : Nat -> Bool) (before after : World) (promise out : Address) : Prop where
  granted : Granted memory 4 before
  attempts : after.attempts = before.attempts + 4
  called : after.called = before.called
  objects : Exists fun continuations => Exists fun waiters =>
    Pristine after promise out continuations waiters ∧
    forall address, before.store.read address =
      if address ∈ [promise, out, continuations, waiters] then none else after.store.read address

theorem promiseCreate_some {memory : Nat -> Bool} {w : World} {promise out : Address}
    (made : (promiseCreate memory w).1 = some (promise, out)) :
    Created memory w (promiseCreate memory w).2 promise out := by
  have zeroth := read_above w 0
  have first := read_above w 1
  have second := read_above w 2
  have third := read_above w 3
  unfold promiseCreate allocate at made ⊢
  cases future : memory w.attempts with
  | false => simp [future] at made
  | true =>
  cases promise : memory (w.attempts + 1) with
  | false => simp [future, promise] at made
  | true =>
  cases continuations : memory (w.attempts + 2) with
  | false => simp [future, promise, continuations] at made
  | true =>
  cases waiters : memory (w.attempts + 3) with
  | false => simp [future, promise, continuations, waiters] at made
  | true =>
      simp [future, promise, continuations, waiters] at made
      rcases made with ⟨rfl, rfl⟩
      constructor
      · intro i inside
        have : i = 0 ∨ i = 1 ∨ i = 2 ∨ i = 3 := by omega
        rcases this with rfl | rfl | rfl | rfl <;> assumption
      · simp [promise, continuations, waiters]
      · simp [promise, continuations, waiters]
      · refine ⟨w.store.top + 2, w.store.top + 3, ?_, ?_⟩
        · constructor
          · simp
          · simp [promise, continuations, waiters]
          · have place : w.store.top ≠ w.store.top + 1 ∧ w.store.top ≠ w.store.top + 2 ∧
                w.store.top ≠ w.store.top + 3 := by omega
            simp [promise, continuations, waiters, Object.onFuture, place]
          · simp [promise, continuations, waiters]
          · simp [promise, continuations, waiters]
        · intro address
          simp [promise, continuations, waiters]
          grind

/-- The out promise is destroyed before anybody has registered with its future. -/
theorem promiseDestroy_pristine (outside : Outside) {w : World}
    {promise out continuations waiters : Address}
    (fresh : Pristine w promise out continuations waiters) :
    (promiseDestroy outside promise w).called = w.called ∧ forall address,
      (promiseDestroy outside promise w).store.read address =
        if address = promise then none
        else if address = out then some (.future
          { FutureObject.zero with
            refcount := 1
            isCompleted := true
            isReady := true
            result := .ofError epipe
            continuations := some continuations
            waiters := some waiters })
        else if address = continuations ∨ address = waiters then some (.stack [] true)
        else w.store.read address := by
  rcases fresh with ⟨distinct, promiseHere, outHere, continuationsHere, waitersHere⟩
  simp only [List.nodup_cons, List.mem_cons, List.not_mem_nil, or_false, not_or, List.nodup_nil,
    not_false_eq_true, and_true] at distinct
  rcases distinct with ⟨⟨promiseOut, promiseContinuations, promiseWaiters⟩,
    ⟨outContinuations, outWaiters⟩, continuationsWaiters⟩
  constructor
  · simp [promiseDestroy, futureComplete, futureRelease, drainWaiters, drainContinuations,
      World.stealAll, World.future, promiseHere, outHere, continuationsHere, waitersHere,
      outContinuations, outWaiters, continuationsWaiters, Ne.symm promiseOut,
      Ne.symm outContinuations, Ne.symm outWaiters, Ne.symm promiseContinuations,
      Ne.symm promiseWaiters, Object.onFuture, FutureObject.zero]
  · intro address
    simp [promiseDestroy, futureComplete, futureRelease, drainWaiters, drainContinuations,
      World.stealAll, World.future, promiseHere, outHere, continuationsHere, waitersHere,
      outContinuations, outWaiters, continuationsWaiters, Ne.symm promiseOut,
      Ne.symm outContinuations, Ne.symm outWaiters, Ne.symm promiseContinuations,
      Ne.symm promiseWaiters, Object.onFuture, FutureObject.zero]
    grind

/-- The last reference to a future that nobody waits for. -/
theorem futureRelease_last (outside : Outside) {w : World} {out continuations waiters : Address}
    {future : FutureObject} (here : w.store.read out = some (.future future))
    (last : future.refcount = 1) (empty : future.result.owned = none)
    (token : future.cancelToken = none) (first : future.continuations = some continuations)
    (second : future.waiters = some waiters)
    (continuationsHere : w.store.read continuations = some (.stack [] true))
    (waitersHere : w.store.read waiters = some (.stack [] true))
    (distinct : continuations ≠ waiters) :
    (futureRelease outside out w).called = w.called ∧ forall address,
      (futureRelease outside out w).store.read address =
        if address ∈ [out, continuations, waiters] then none else w.store.read address := by
  have outContinuations : continuations ≠ out := by
    rintro rfl
    simp [here] at continuationsHere
  have outWaiters : waiters ≠ out := by
    rintro rfl
    simp [here] at waitersHere
  constructor
  · simp [futureRelease, World.future, World.stealAll, here, last, empty, token, first, second,
      outContinuations, outWaiters, continuationsHere, waitersHere, Ne.symm distinct]
  · intro address
    simp [futureRelease, World.future, World.stealAll, here, last, empty, token, first, second,
      outContinuations, outWaiters, continuationsHere, waitersHere, Ne.symm distinct]
    grind

/-- The way back frees the four objects and touches nothing else. -/
theorem abandon_pristine (outside : Outside) {w : World}
    {promise out continuations waiters : Address}
    (fresh : Pristine w promise out continuations waiters) :
    (abandon outside promise out w).called = w.called ∧ forall address,
      (abandon outside promise out w).store.read address =
        if address ∈ [promise, out, continuations, waiters] then none
        else w.store.read address := by
  rcases promiseDestroy_pristine outside fresh with ⟨called, read⟩
  have distinct := fresh.distinct
  simp only [List.nodup_cons, List.mem_cons, List.not_mem_nil, or_false, not_or, List.nodup_nil,
    not_false_eq_true, and_true] at distinct
  have outHere := read out
  rw [if_neg (Ne.symm distinct.1.1), if_pos rfl] at outHere
  have released := futureRelease_last outside outHere rfl rfl rfl rfl rfl
    (by rw [read]; grind) (by rw [read]; grind) distinct.2.2
  refine ⟨released.1.trans called, ?_⟩
  intro address
  rw [abandon, released.2, read]
  grind

/-! ## The operators -/

/-- A refused registration has allocated nothing and called nothing. -/
theorem futureThen_false {memory : Nat -> Bool} {outside : Outside} {address context : Address}
    {fn : Continuation} {w : World}
    (refused : (futureThen memory outside address fn context w).1 = false) :
    (futureThen memory outside address fn context w).2.store = w.store ∧
      (futureThen memory outside address fn context w).2.called = w.called := by
  unfold futureThen at refused ⊢
  cases future : w.future address with
  | none => exact ⟨rfl, rfl⟩
  | some object =>
      simp only [future] at refused ⊢
      by_cases ready : object.isReady = true
      · simp [ready] at refused
      · simp only [ready, Bool.false_eq_true, if_false] at refused ⊢
        cases granted : memory w.attempts with
        | false =>
            rw [allocate_none granted]
            exact ⟨rfl, rfl⟩
        | true =>
            rw [allocate_some granted] at refused
            simp only at refused
            split at refused <;> cases refused

/-- What an operator takes for its context: a reference to a token, if there is one. -/
structure Acquired (before after : World) (token : Option Address) : Prop where
  called : after.called = before.called
  read : forall address, after.store.read address =
    if token = some address then (before.store.read address).map Object.retain
    else before.store.read address

theorem acquireNone_acquired (input : Address) (w : World) :
    Acquired w (acquireNone input w) none := by
  exact ⟨rfl, fun _ => rfl⟩

theorem acquireToken_acquired (input : Address) (w : World) :
    Acquired w (acquireToken input w) (w.cancelToken input) := by
  unfold acquireToken
  cases w.cancelToken input with
  | none => exact ⟨rfl, fun _ => rfl⟩
  | some token =>
      refine ⟨rfl, ?_⟩
      intro address
      by_cases same : token = address
      · subst token
        simp [World.tokenRetain]
      · simp [World.tokenRetain, same, Ne.symm same]

/-- None of the new objects is a token. -/
theorem Acquired.pristine {before after : World} {token : Option Address}
    (acquired : Acquired before after token) {promise out continuations waiters : Address}
    (fresh : Pristine before promise out continuations waiters) :
    Pristine after promise out continuations waiters := by
  have kept : forall {address object}, before.store.read address = some object ->
      Object.retain object = object -> after.store.read address = some object := by
    intro address object here still
    rw [acquired.read]
    split
    · rw [here, Option.map_some, still]
    · exact here
  exact ⟨fresh.distinct, kept fresh.promise rfl, kept fresh.out rfl, kept fresh.continuations rfl,
    kept fresh.waiters rfl⟩

/-- The old objects are as they were, and a new future has no token. -/
def Extends (before after : World) : Prop :=
  forall address, after.store.read address = before.store.read address ∨
    before.store.read address = none ∧
      forall future, after.store.read address = some (.future future) -> future.cancelToken = none

theorem Extends.cancelToken {before after : World} (grown : Extends before after)
    (input : Address) : after.cancelToken input = before.cancelToken input := by
  rcases grown input with same | ⟨free, fresh⟩
  · simp only [World.cancelToken, World.future, same]
  · simp only [World.cancelToken, World.future, free]
    split
    · rename_i future here
      exact fresh future here
    · rfl

section operator

variable {memory : Nat -> Bool} {outside : Outside} {fn : Continuation}
  {context : World -> Address -> Address -> CallbackId -> Context}
  {acquire : Address -> World -> World} {input : Address} {callback : CallbackId} {w : World}

/-- The calls that fail before the registration. -/
theorem operator_early {w' : World} {promise out : Address}
    (created : Created memory w w' promise out) (attempts : Nat) :
    (abandon outside promise out { w' with attempts := attempts }).Same w := by
  rcases created.objects with ⟨continuations, waiters, fresh, before⟩
  have still : Pristine { w' with attempts := attempts } promise out continuations waiters :=
    ⟨fresh.distinct, fresh.promise, fresh.out, fresh.continuations, fresh.waiters⟩
  rcases abandon_pristine outside still with ⟨called, read⟩
  refine ⟨?_, called.trans created.called⟩
  funext address
  rw [read, before]

/-- The calls that fail at the registration. -/
theorem operator_late {w' acquired refused : World} {promise out : Address} {ctx : Context}
    {attempts : Nat} {token : Option Address} (created : Created memory w w' promise out)
    (taken : Acquired
      { w' with store := w'.store.place (.context ctx), attempts := attempts } acquired token)
    (store : refused.store = acquired.store) (called : refused.called = acquired.called) :
    (abandon outside promise out (refused.free w'.store.top)).called = w.called ∧
      forall address,
        (abandon outside promise out (refused.free w'.store.top)).store.read address =
          if token = some address then (w.store.read address).map Object.retain
          else w.store.read address := by
  rcases created.objects with ⟨continuations, waiters, fresh, before⟩
  have free := w'.store.read_top
  have old : forall {address}, address ∈ [promise, out, continuations, waiters] ->
      address ≠ w'.store.top := by
    intro address mem same
    rw [same] at mem
    simp only [List.mem_cons, List.not_mem_nil, or_false] at mem
    rcases mem with rfl | rfl | rfl | rfl
    · simp [fresh.promise] at free
    · simp [fresh.out] at free
    · simp [fresh.continuations] at free
    · simp [fresh.waiters] at free
  have placed : Pristine { w' with store := w'.store.place (.context ctx), attempts := attempts }
      promise out continuations waiters := by
    constructor
    · exact fresh.distinct
    · simpa [old] using fresh.promise
    · simpa [old] using fresh.out
    · simpa [old] using fresh.continuations
    · simpa [old] using fresh.waiters
  have retained := taken.pristine placed
  have still : Pristine (refused.free w'.store.top) promise out continuations waiters := by
    constructor
    · exact retained.distinct
    · simpa [store, old] using retained.promise
    · simpa [store, old] using retained.out
    · simpa [store, old] using retained.continuations
    · simpa [store, old] using retained.waiters
  rcases abandon_pristine outside still with ⟨uncalled, read⟩
  refine ⟨uncalled.trans (called.trans (taken.called.trans created.called)), ?_⟩
  intro address
  rw [read, World.store_free, store, Store.read_erase, before]
  by_cases new : address = w'.store.top
  · subst address
    simp [free]
  · rw [Function.update_of_ne new, taken.read, Store.read_place, Function.update_of_ne new]
    split <;> simp

/-- The objects that are new when the operator acquires its token. -/
theorem created_extends {w' : World} {promise out : Address} {ctx : Context} {attempts : Nat}
    (created : Created memory w w' promise out) :
    Extends w { w' with store := w'.store.place (.context ctx), attempts := attempts } := by
  rcases created.objects with ⟨continuations, waiters, fresh, before⟩
  intro address
  rw [before]
  by_cases top : address = w'.store.top
  · subst address
    refine .inr ⟨?_, ?_⟩
    · rw [w'.store.read_top, ite_self]
    · intro future here
      simp at here
  · simp only [Store.read_place, Function.update_of_ne top]
    by_cases new : address ∈ [promise, out, continuations, waiters]
    · refine .inr ⟨if_pos new, ?_⟩
      intro future here
      simp only [List.mem_cons, List.not_mem_nil, or_false] at new
      rcases new with rfl | rfl | rfl | rfl
      · simp [fresh.promise] at here
      · rw [fresh.out] at here
        cases here
        rfl
      · simp [fresh.continuations] at here
      · simp [fresh.waiters] at here
    · exact .inl (if_neg new).symm

/-- A call that returns NULL leaves everything as it was, unless it has acquired a token and
fails afterwards. -/
theorem operator_null {tokenOf : World -> Option Address}
    (acquires : forall w, Acquired w (acquire input w) (tokenOf w))
    (null : (operator memory outside fn context acquire (some input) (some callback) w).1 = none) :
    ((operator memory outside fn context acquire (some input) (some callback) w).2.Same w ∧
      ¬Granted memory 5 w) ∨
    Granted memory 5 w ∧
      (operator memory outside fn context acquire (some input) (some callback) w).2.called =
        w.called ∧
      Exists fun made => Extends w made ∧ forall address,
        (operator memory outside fn context acquire (some input) (some callback) w).2.store.read
            address =
          if tokenOf made = some address then (w.store.read address).map Object.retain
          else w.store.read address := by
  unfold operator at null ⊢
  cases ends : promiseCreate memory w with
  | mk made w1 =>
  cases made with
  | none =>
      have failed := promiseCreate_none (congrArg Prod.fst ends)
      rw [ends] at failed
      refine .inl ⟨failed.1, ?_⟩
      intro granted
      exact failed.2 fun i inside => granted i (Nat.lt_succ_of_lt inside)
  | some pair =>
      rcases pair with ⟨promise, out⟩
      have created := promiseCreate_some (congrArg Prod.fst ends)
      rw [ends] at created
      simp only [ends] at null ⊢
      cases fifth : memory w1.attempts with
      | false =>
          rw [allocate_none fifth]
          refine .inl ⟨operator_early created _, ?_⟩
          intro granted
          have := granted 4 (by decide)
          rw [<- created.attempts, fifth] at this
          cases this
      | true =>
          rw [allocate_some fifth] at null ⊢
          simp only at null ⊢
          have granted : Granted memory 5 w := by
            intro i inside
            rcases Nat.lt_succ_iff_lt_or_eq.mp inside with lower | rfl
            · exact created.granted i lower
            · rw [<- created.attempts, fifth]
          split at null
          · rename_i w4 refused
            have registered := futureThen_false (congrArg Prod.fst refused)
            simp only [refused] at registered ⊢
            have taken := acquires
              { w1 with
                store := w1.store.place (.context (context w1 input promise callback))
                attempts := w1.attempts + 1 }
            rcases operator_late created taken registered.1 registered.2 with ⟨called, read⟩
            exact .inr ⟨granted, called, _, created_extends created, read⟩
          · cases null

end operator

/-! ## The calls that return NULL -/

/-- A flat map over a future with a token, where the first five allocations are made. -/
def Request.Leaks (request : Request) (memory : Nat -> Bool) (input : Option Address) (w : World) :
    Prop :=
  (Exists fun mapper => Exists fun user => request = .flatMap (some mapper) user) ∧
    Granted memory 5 w ∧ Exists fun address => Exists fun token => Exists fun refcount =>
      input = some address ∧ w.cancelToken address = some token ∧
      w.store.read token = some (.token refcount)

/-- An operator that acquires nothing. -/
theorem operator_clean {memory : Nat -> Bool} {outside : Outside} {fn : Continuation}
    {context : World -> Address -> Address -> CallbackId -> Context} {input : Option Address}
    {callback : Option CallbackId} {w : World}
    (null : (operator memory outside fn context acquireNone input callback w).1 = none) :
    (operator memory outside fn context acquireNone input callback w).2.Same w := by
  cases input with
  | none => exact ⟨rfl, rfl⟩
  | some input =>
      cases callback with
      | none => exact ⟨rfl, rfl⟩
      | some callback =>
          rcases operator_null (acquireNone_acquired input) null with
            ⟨same, _⟩ | ⟨_, called, made, _, read⟩
          · exact same
          · exact ⟨funext read, called⟩

theorem retain_of_ne {object : Object} (other : forall refcount, object ≠ .token refcount) :
    object.retain = object := by
  cases object with
  | token refcount => exact absurd rfl (other refcount)
  | _ => rfl

/-- The flat map does not drop the token of its context when the registration is refused. -/
theorem flatMap_null {memory : Nat -> Bool} {outside : Outside} {input : Option Address}
    {mapper : Option CallbackId} {user : UserData} {w : World}
    (null : (futureFlatMap memory outside input mapper user w).1 = none) :
    (futureFlatMap memory outside input mapper user w).2.Same w ↔
      ¬(Request.flatMap mapper user).Leaks memory input w := by
  cases input with
  | none =>
      refine iff_of_true ⟨rfl, rfl⟩ ?_
      rintro ⟨_, _, _, _, _, absent, _⟩
      cases absent
  | some input =>
      cases mapper with
      | none =>
          refine iff_of_true ⟨rfl, rfl⟩ ?_
          rintro ⟨⟨_, _, absent⟩, _⟩
          cases absent
      | some mapper =>
          rcases operator_null (acquireToken_acquired input) null with
            ⟨same, refused⟩ | ⟨granted, called, made, grown, read⟩
          · refine iff_of_true same ?_
            intro leaks
            exact refused leaks.2.1
          · rw [grown.cancelToken] at read
            constructor
            · rintro same ⟨_, _, address, token, refcount, here, attached, live⟩
              cases here
              have changed := (congrFun same.read token).symm.trans (read token)
              rw [if_pos attached, live] at changed
              simp [Object.retain] at changed
            · intro clean
              refine ⟨funext fun address => (read address).trans ?_, called⟩
              split
              · rename_i attached
                cases here : w.store.read address with
                | none => rfl
                | some object =>
                    refine congrArg some (retain_of_ne ?_)
                    rintro refcount rfl
                    exact clean ⟨⟨mapper, user, rfl⟩, granted, input, address, refcount, rfl,
                      attached, here⟩
              · rfl

/-- For every operator, input and pattern of allocation failures.  Whatever goes on outside. -/
theorem operatorsFail (memory : Nat -> Bool) (outside : Outside) (request : Request)
    (input : Option Address) (w : World)
    (null : (request.perform memory outside input w).1 = none) :
    (request.perform memory outside input w).2.Same w ↔ ¬request.Leaks memory input w := by
  have others : (forall mapper user, request ≠ .flatMap mapper user) ->
      ¬request.Leaks memory input w := by
    rintro other ⟨⟨mapper, user, same⟩, _⟩
    exact other _ _ same
  cases request with
  | map | mapEx | onError | doOnSuccess =>
      exact iff_of_true (operator_clean null) (others nofun)
  | flatMap mapper user => exact flatMap_null null

/-- Nothing happens outside. -/
def quiet : Outside where
  run := fun _ _ _ w => w
  freeValue := fun _ w => w
  wake := fun _ w => w
  dropWaiter := fun _ w => w
  unregister := fun _ w => w
  freeToken := fun _ w => w
  attachCancellation := fun _ _ w => w

/-- A pending future at address 3 with its stacks and a token that the client holds too. -/
def pending : World where
  store := (((Store.empty.place (.stack [] false)).place (.stack [] false)).place (.token 2)).place
    (.future ⟨2, false, false, false, .zero, some 0, some 1, some 2, none⟩)
  attempts := 0
  called := []

/-- There is no memory for the node. -/
theorem operatorsFail_map :
    ((Request.map (some 0) 0).perform (fun i => i != 5) quiet (some 3) pending).2.Same pending ↔
      ¬(Request.map (some 0) 0).Leaks (fun i => i != 5) (some 3) pending :=
  operatorsFail (fun i => i != 5) quiet (.map (some 0) 0) (some 3) pending rfl

theorem operatorsFail_flatMap :
    ((Request.flatMap (some 0) 0).perform (fun i => i != 5) quiet (some 3) pending).1 = none ∧
      ((Request.flatMap (some 0) 0).perform (fun i => i != 5) quiet (some 3)
        pending).2.store.read 2 = some (.token 3) ∧
      ¬((Request.flatMap (some 0) 0).perform (fun i => i != 5) quiet (some 3) pending).2.Same
        pending := by
  refine ⟨rfl, rfl, ?_⟩
  intro same
  exact absurd (congrFun same.read 2) nofun

end Rollback
end Operator
end UfsrvRx
