import UfsrvRx.Network.Net
import UfsrvRx.Operator.Forwarding

namespace UfsrvRx
namespace Operator

open Transition
open UfsrvRx.Future (Result ValueId epipe ecanceled einval)

/-!
# Futures that are labelled with networks

Each future of a client that builds networks of operators stands for a network, and each
callback for a function of what it is passed.  A future that is given to a move operator, or
returned by a callback, has no other operator on it.
-/

/-- What reads the result of a future: operators that leave it there, or one operator that moves
it out, either as its input or as the future that a callback of it has returned. -/
inductive Use
  | shared
  | input (out : FutureId)
  | inner (out : FutureId)
deriving DecidableEq, Repr

/-- What each future stands for, by whom it is read, and where each source is. -/
structure Labels (Source : Type) where
  net : FutureId -> Net Source (Option ValueId) Int
  use : FutureId -> Use
  place : Source -> FutureId
  placed : forall name, net (place name) = .source name
  unique : forall f name, net f = .source name -> place name = f

namespace State

variable (s : State)

/-- The outcome of a future, once it is completed. -/
def outcome (f : FutureId) : Option (Except Int (Option ValueId)) :=
  (s.futures f).completed.map Result.outcome

/-- The future has an outcome. -/
def HasOutcome (f : FutureId) : Prop := Exists fun outcome => s.outcome f = some outcome

/-- A result was set for the promise of the output, or is about to be. -/
def Spent (out : FutureId) : Prop :=
  (s.promises out).isFulfilled = true ∨ Exists fun result => .setResult out result ∈ s.stack

/-- The promise of the output is destroyed, or about to be. -/
def Ending (out : FutureId) : Prop :=
  (s.promises out).isLive = false ∨ .destroyPromise out ∈ s.stack ∨
    .releasePromise out ∈ s.stack

end State

namespace Labels

variable {Source : Type} (labels : Labels Source)

/-- The outcomes of the sources. -/
def known (s : State) (name : Source) : Option (Except Int (Option ValueId)) :=
  s.outcome (labels.place name)

/-- The outcome that a future has by the sources. -/
def meaning (s : State) (f : FutureId) : Option (Except Int (Option ValueId)) :=
  (labels.net f).eval (labels.known s)

/-- A call that makes a future makes the one that the label says. -/
def Builds (s : State) : Api -> Prop
  | .create => Exists fun name => labels.net s.count = .source name
  | .fromResult result => labels.net s.count = .constant result.outcome
  | .map f _ => labels.use f = .shared ∧
      Exists fun mapper => labels.net s.count = .map (labels.net f) mapper
  | .flatMap f => labels.use f = .shared ∧
      Exists fun mapper => labels.net s.count = .flatMap (labels.net f) mapper
  | .onError f => labels.use f = .input s.count ∧
      Exists fun recovery => labels.net s.count = .recover (labels.net f) recovery
  | .doOnSuccess f => labels.use f = .input s.count ∧
      labels.net s.count = .through (labels.net f)
  | .zip first second _ => labels.use first = .shared ∧ labels.use second = .shared ∧
      Exists fun zipper => labels.net s.count = .zip (labels.net first) (labels.net second) zipper
  | .group _ _ | .attach _ _ => False
  | .setResult _ _ | .destroy _ | .observe _ | .get _ | .cancel _ | .registerCallback _
  | .unregisterCallback _ _ | .retain _ | .release _ => True

/-- The callback returns a future for the network, or NULL where the network is this error. -/
def Returns (out : FutureId) (error : Int) (net : Net Source (Option ValueId) Int) : Reply -> Prop
  | .future none => net = .constant (.error error)
  | .future (some inner) => labels.use inner = .inner out ∧ labels.net inner = net
  | .nothing | .value _ => False

/-- A callback returns what the label of the output says. -/
def Answers (s : State) (reply : Reply) : Callback -> Prop
  | .mapper f out freeValue => Exists fun input => Exists fun mapper => Exists fun value =>
      labels.net out = .map input mapper ∧ reply = .value value ∧
        mapper (s.futures f).result.value = (produced value freeValue).outcome
  | .flatMapper f out _ => Exists fun input => Exists fun mapper =>
      labels.net out = .flatMap input mapper ∧
        labels.Returns out (-1) (mapper (s.futures f).result.value) reply
  | .recovery f out => Exists fun input => Exists fun recovery =>
      labels.net out = .recover input recovery ∧
        labels.Returns out (s.futures f).result.error (recovery (s.futures f).result.error) reply
  | .zipper out _ _ => Exists fun first => Exists fun second => Exists fun zipper =>
      Exists fun value => labels.net out = .zip first second zipper ∧ reply = .value value ∧
        zipper (s.zips out).first.value (s.zips out).second.value =
          (produced value (s.zips out).freeValue).outcome
  | .observer _ | .action _ _ | .cancelled => True

/-- The client builds the labelled networks, and its callbacks are the functions of the labels. -/
def Follows (s : State) : Event -> Prop
  | .call api => labels.Builds s api
  | .answer reply => forall callback rest, s.stack = .callback callback :: rest ->
      labels.Answers s reply callback
  | .step | .resume _ | .abandon _ => True

/-! ## What is said of the tasks -/

/-- The future is not made by the client, but by an operator. -/
def Internal (f : FutureId) : Prop := forall name, labels.net f ≠ .source name

/-- The continuation goes from the future to its output as the labels say. -/
def Feeds (s : State) (f : FutureId) : Continuation -> Prop
  | .observe => True
  | .map out _ => labels.use f = .shared ∧
      Exists fun mapper => labels.net out = .map (labels.net f) mapper
  | .flatMap out token => token = none ∧ labels.use f = .shared ∧
      Exists fun mapper => labels.net out = .flatMap (labels.net f) mapper
  | .onError out => labels.use f = .input out ∧
      Exists fun recovery => labels.net out = .recover (labels.net f) recovery
  | .doOnSuccess out => labels.use f = .input out ∧ labels.net out = .through (labels.net f)
  | .moveChain out => labels.use f = .inner out ∧ labels.Internal out ∧
      Net.Continues (labels.known s) (labels.net out) (labels.net f)
  | .zip out isSecond => labels.use f = .shared ∧ f = (s.zips out).input isSecond ∧
      out < s.count ∧ Exists fun first => Exists fun second => Exists fun zipper =>
        labels.net out = .zip first second zipper
  | .group _ _ => False

/-- A callback was called with what the labels say. -/
def Asked (s : State) : Callback -> Prop
  | .observer _ | .cancelled => True
  | .mapper f out _ => labels.use f = .shared ∧ Exists fun mapper => Exists fun value =>
      labels.net out = .map (labels.net f) mapper ∧ s.outcome f = some (.ok value)
  | .flatMapper f out token => token = none ∧ labels.use f = .shared ∧
      Exists fun mapper => Exists fun value =>
        labels.net out = .flatMap (labels.net f) mapper ∧ s.outcome f = some (.ok value)
  | .recovery f out => labels.use f = .input out ∧ Exists fun recovery => Exists fun error =>
      labels.net out = .recover (labels.net f) recovery ∧ s.outcome f = some (.error error)
  | .action f out => labels.use f = .input out ∧ labels.net out = .through (labels.net f) ∧
      s.HasOutcome f
  | .zipper out _ _ => out < s.count ∧ Exists fun first => Exists fun second =>
      Exists fun zipper => labels.net out = .zip first second zipper ∧
        first.eval (labels.known s) = some (.ok (s.zips out).first.value) ∧
          second.eval (labels.known s) = some (.ok (s.zips out).second.value)

/-- What a task on the stack is about to do agrees with the labels. -/
def Fits (s : State) : Task -> Prop
  | .setResult f result | .complete f result => labels.Internal f ->
      labels.meaning s f = some result.outcome
  | .drain f => s.HasOutcome f
  | .run f continuation => s.HasOutcome f ∧ labels.Feeds s f continuation
  | .register f continuation => labels.Feeds s f continuation
  | .claimInput f out => labels.use f = .input out ∧ labels.Internal out ∧
      Exists fun outcome => s.outcome f = some outcome ∧ labels.meaning s out = some outcome
  | .claimInner out inner => labels.use inner = .inner out ∧ labels.Internal out ∧
      Net.Continues (labels.known s) (labels.net out) (labels.net inner)
  | .zipComplete out _ _ => out < s.count ∧ Exists fun first => Exists fun second =>
      Exists fun zipper => labels.net out = .zip first second zipper ∧
        first.eval (labels.known s) = some (s.zips out).first.outcome ∧
          second.eval (labels.known s) = some (s.zips out).second.outcome
  | .callback client => labels.Asked s client
  | .attach _ _ | .attached _ | .unregister _ | .dropNode _ | .loop _ _ _ | .subtract _ _ _ => False
  | .destroyPromise _ | .releasePromise _ | .zero _ | .release _ | .inherit _ _ | .deliver _
  | .leave _ | .leaveSet _ => True

end Labels

/-- Completed futures have the outcome of their networks, and what is under way leads there.  The
result of a future is moved out for the one output that it is for, and that output is completed
then. -/
structure Settled {Source : Type} (labels : Labels Source) (s : State) : Prop where
  sources : forall f, (s.promises f).isClient = true -> ¬labels.Internal f
  tokens : forall f, (s.futures f).cancelToken = none
  settled : forall f outcome, f < s.count -> s.outcome f = some outcome ->
    labels.meaning s f = some outcome
  fits : forall task, task ∈ s.stack -> labels.Fits s task
  waits : forall f continuation, (f, continuation) ∈ s.waiting -> labels.Feeds s f continuation
  paired : Task.Paired labels.Internal (fun f => (s.promises f).isFulfilled = true) s.stack
  inputs : forall out first second zipper, out < s.count ->
    labels.net out = .zip first second zipper ->
      first = labels.net (s.zips out).firstFuture ∧ second = labels.net (s.zips out).secondFuture
  halves : forall out first second zipper isSecond, out < s.count ->
    labels.net out = .zip first second zipper -> s.Awaits out isSecond ∨
      s.outcome ((s.zips out).input isSecond) = some ((s.zips out).half isSecond).outcome
  spent : forall out, labels.Internal out -> s.Spent out -> s.Ending out
  moved : forall f, (s.futures f).isMoved = true ∨ .zero f ∈ s.stack -> Exists fun out =>
    (labels.use f = .input out ∨ labels.use f = .inner out) ∧ s.Spent out

end Operator
end UfsrvRx
