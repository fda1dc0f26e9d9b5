import UfsrvRx.Operator.Custody
import UfsrvRx.Operator.Inheritance
import UfsrvRx.Operator.Waiting

namespace UfsrvRx
namespace Operator

open Transition
open UfsrvRx.Future (Result ValueId epipe ecanceled einval)

/-!
# Nothing is left behind

Between calls the list of a token has the pending futures that carry it, and no others.  When the
client has destroyed its promises and released its references, everything that the library has
made is freed, unless continuations wait for each other in a circle.
-/

/-! ## Registrations -/

theorem held_node {s : State} (between : s.stack = []) (f : FutureId) :
    s.held.count (.node f) = 0 := by
  refine held_between between ?_
  intro continuation g
  cases continuation <;> simp [Continuation.resources]

/-- A registration that is on a list has its handle, so its future is pending. -/
theorem Sound.pending_of_active {s : State} {f : FutureId} (sound : Sound s)
    (between : s.stack = []) (active : (s.nodes f).isActive = true) :
    (s.futures f).isCompleted = false := by
  have balanced := sound.balanced (.node f)
  simp only [State.extra, State.total, held_node between, active, sound.pair f active,
    Bool.toNat_true] at balanced
  rw [<- Bool.not_eq_true]
  intro completed
  rw [sound.given f completed, Bool.toNat_false] at balanced
  omega

/-- What the lists of a token have. -/
structure Registered (s : State) (t : TokenId) : Prop where
  pending : forall f, some f ∈ (s.tokens t).nodes ↔
    (s.futures f).cancelToken = some t ∧ (s.futures f).isCompleted = false
  once : forall f, (s.tokens t).nodes.count (some f) ≤ 1
  cancelled : (s.tokens t).isCancelled = true -> forall f, (s.futures f).cancelToken = some t ->
    (s.futures f).isCompleted = true

/-- Between calls the list of a token has the pending futures that carry the token, each of them
once, and no future that carries a cancelled token is pending. -/
theorem registrationsExact {s : State} (reached : machine.Reachable s) (between : s.stack = [])
    (t : TokenId) : Registered s t := by
  have sound := reachable_sound reached
  have enlisted := reachable_enlisted reached
  have listed {f : FutureId} {other : TokenId} (carries : (s.futures f).cancelToken = some other)
      (pending : (s.futures f).isCompleted = false) : some f ∈ (s.tokens other).nodes := by
    rcases enlisted.carried f other carries with completed | active | mem
    · exact absurd (completed.symm.trans pending) (by decide)
    · exact (sound.listed other f).mpr active
    · rw [between] at mem
      cases mem
  refine ⟨?_, sound.alone t, ?_⟩
  · intro f
    refine ⟨?_, fun ⟨carries, pending⟩ => listed carries pending⟩
    intro mem
    rcases (sound.listed t f).mp mem with ⟨active, onToken⟩
    have pending := sound.pending_of_active between active
    refine ⟨?_, pending⟩
    cases carries : (s.futures f).cancelToken with
    | none =>
        have none := sound.owned f carries
        rw [sound.pair f active] at none
        cases none
    | some other => rw [<- ((sound.listed other f).mp (listed carries pending)).2, onToken]
  · intro cancelled f carries
    by_contra pending
    have mem := listed carries (Bool.eq_false_iff.mpr pending)
    rw [enlisted.empty t cancelled] at mem
    cases mem

/-- A source with a token, and an operator that inherits it. -/
def inherits : List Event :=
  [Event.call .create, .call (.attach 0 0)] ++ List.replicate 3 Event.step ++
    [Event.call (.flatMap 0)] ++ List.replicate 6 Event.step

theorem registrationsExact_inherits : Registered (machine.after start inherits) 0 := by
  have may : machine.AllEnabled start inherits := by decide
  exact registrationsExact (.run (.start rfl) may.run) (by decide) 0

/-! ## Everything is freed -/

namespace Sound

variable {s : State}

/-- Without promises of the client every future is completed, where no continuations wait in a
circle. -/
theorem completed_of_straight (sound : Sound s) (between : s.stack = [])
    (promises : forall f, (s.promises f).isClient = false)
    (straight : forall f, ¬Relation.TransGen s.WaitsFor f f) {f : FutureId} (inside : f < s.count) :
    (s.futures f).isCompleted = true := by
  by_contra pending
  rcases sound.client_or_circle between inside (Bool.eq_false_iff.mpr pending) with
    ⟨g, _, _, client | circle⟩
  · exact absurd (client.symm.trans (promises g)) (by decide)
  · exact straight g circle

theorem waiting_of_completed (sound : Sound s) (between : s.stack = [])
    (completed : forall f, f < s.count -> (s.futures f).isCompleted = true) : s.waiting = [] := by
  rw [List.eq_nil_iff_forall_not_mem]
  rintro ⟨f, continuation⟩ waits
  rcases sound.pending_of_waiting between waits with ⟨inside, pending⟩
  exact absurd ((completed f inside).symm.trans pending) (by decide)

theorem dead_of_unheld (sound : Sound s) (unheld : s.held = [])
    (promises : forall f, (s.promises f).isClient = false) (f : FutureId) :
    (s.promises f).isLive = false := by
  have promise := sound.balanced (.promise f)
  have report := sound.balanced (.report f)
  have half := sound.balanced (.half f)
  simp only [State.extra, State.total, unheld, List.count_nil, Nat.zero_add] at promise report half
  simp only [<- report, <- half, promises f, Nat.lt_irrefl, false_and, if_false,
    Bool.toNat_false] at promise
  exact Bool.toNat_eq_zero.mp promise.symm

end Sound

/-- The client has destroyed its promises and released its references. -/
structure State.Dismissed (s : State) : Prop where
  promises : forall f, (s.promises f).isClient = false
  references : forall f, s.clientRefs f = 0

namespace Sound

variable {s : State}

theorem dismissed (sound : Sound s) (destroyed : forall f, f < s.count ->
    (s.promises f).isClient = false) (released : forall f, f < s.count -> s.clientRefs f = 0) :
    s.Dismissed := by
  constructor
  · intro f
    by_cases inside : f < s.count
    · exact destroyed f inside
    · rw [(sound.fresh f (Nat.le_of_not_lt inside)).promise]
      rfl
  · intro f
    by_cases inside : f < s.count
    · exact released f inside
    · exact (sound.fresh f (Nat.le_of_not_lt inside)).clientRefs

/-- Then nothing waits any more, and all futures are freed, where no continuations wait in a
circle. -/
theorem freed_of_straight (sound : Sound s) (between : s.stack = []) (dismissed : s.Dismissed)
    (straight : forall f, ¬Relation.TransGen s.WaitsFor f f) :
    s.waiting = [] ∧ forall f, (s.futures f).refcount = 0 := by
  have completed : forall f, f < s.count -> (s.futures f).isCompleted = true :=
    fun f => sound.completed_of_straight between dismissed.promises straight
  have waiting := sound.waiting_of_completed between completed
  have unheld : s.held = [] := by
    rw [State.held, between, waiting]
    rfl
  have dead := sound.dead_of_unheld unheld dismissed.promises
  exact ⟨waiting, sound.refcount_zero between dead dismissed.references⟩

end Sound

/-- Values that were each handed over once.  None is destroyed twice; between calls each is the
result of one future, or was destroyed; and when the client has destroyed its promises and
released its references, each was destroyed, unless continuations wait for each other in a
circle. -/
structure Ledger (s : State) : Prop where
  once : forall value, s.destroyed value ≤ 1
  held : s.stack = [] -> forall value, s.given value = 1 -> s.destroyed value = 0 ->
    Exists fun f => s.Has f value ∧ forall other, s.Has other value -> other = f
  ended : s.stack = [] -> s.Dismissed -> (forall f, ¬Relation.TransGen s.WaitsFor f f) ->
    forall value, s.given value = 1 -> s.destroyed value = 1

theorem valueLedger {s : State} (reached : machine.Reachable s)
    (distinct : forall value, s.given value ≤ 1) : Ledger s := by
  have valued := reachable_valued reached
  have sound := reachable_sound reached
  constructor
  · intro value
    have conserved := valued.conserved value
    have distinct := distinct value
    omega
  · exact fun between value => valued.held_once between
  · intro between dismissed straight value given
    have free := (sound.freed_of_straight between dismissed straight).2
    exact (valued.destroyed_of_freed between free value).trans given

/-- A value is mapped to another one, and both futures are released. -/
def mappedToTheEnd : List Event :=
  [Event.call .create, .call (.map 0 true)] ++ List.replicate 4 Event.step ++
    [Event.call (.setResult 0 ⟨0, some 7, true⟩)] ++ List.replicate 4 Event.step ++
    [Event.answer (.value (some 8))] ++ List.replicate 6 Event.step ++
    [Event.call (.destroy 0), .step, .step, .call (.release 0), .step, .call (.release 1), .step]

theorem valueLedger_mappedToTheEnd :
    Ledger (machine.after start mappedToTheEnd) ∧
      (machine.after start mappedToTheEnd).destroyed 7 = 1 ∧
      (machine.after start mappedToTheEnd).destroyed 8 = 1 := by
  have may : machine.AllEnabled start mappedToTheEnd := by decide
  have given : (machine.after start mappedToTheEnd).given =
      Function.update (Function.update (fun _ => 0) 7 1) 8 1 := rfl
  refine ⟨valueLedger (.run (.start rfl) may.run) ?_, by decide, by decide⟩
  intro value
  rw [given]
  simp only [Function.update_apply]
  grind

/-- The mapper of a flatMap returns its own output, which is an input of a zip.  The other input
of the zip has a value. -/
def ownOutput : List Event :=
  [Event.call .create, .call (.flatMap 0)] ++ List.replicate 4 Event.step ++
    [Event.call (.fromResult ⟨0, some 9, true⟩)] ++ List.replicate 6 Event.step ++
    [Event.call (.zip 2 1 true)] ++ List.replicate 5 Event.step ++
    [Event.call (.setResult 0 ⟨0, some 7, true⟩)] ++ List.replicate 4 Event.step ++
    [Event.answer (.future (some 1))] ++ List.replicate 4 Event.step ++
    [Event.call (.destroy 0), .step, .step, .call (.release 0), .step, .call (.release 2), .step,
      .call (.release 3), .step]

/-- The zip waits for ever, and keeps the future that has the value. -/
theorem valueLedger_fails :
    ¬forall s : State, machine.Reachable s -> (forall value, s.given value ≤ 1) -> s.stack = [] ->
      s.Dismissed -> forall value, s.given value = 1 -> s.destroyed value = 1 := by
  intro always
  have may : machine.AllEnabled start ownOutput := by decide
  have reached : machine.Reachable (machine.after start ownOutput) := .run (.start rfl) may.run
  have dismissed := (reachable_sound reached).dismissed (by decide) (by decide)
  have given : (machine.after start ownOutput).given =
      Function.update (Function.update (fun _ => 0) 9 1) 7 1 := rfl
  have once : forall value, (machine.after start ownOutput).given value ≤ 1 := by
    intro value
    rw [given]
    simp only [Function.update_apply]
    grind
  exact absurd (always _ reached once (by decide) dismissed 9 (by decide)) (by decide)

/-- All futures are freed once, no continuation and no registration of a future is left, and each
value was destroyed as often as it was handed over. -/
structure State.Cleared (s : State) : Prop where
  freed : forall f, f < s.count -> (s.futures f).refcount = 0 ∧ (s.futures f).frees = 1
  waiting : s.waiting = []
  registrations : forall t f, some f ∉ (s.tokens t).nodes
  values : forall value, s.destroyed value = s.given value

/-- When the client has destroyed its promises and released its references, nothing is left behind
if and only if no continuations wait for each other in a circle. -/
theorem leakFree {s : State} (reached : machine.Reachable s) (between : s.stack = [])
    (destroyed : forall f, f < s.count -> (s.promises f).isClient = false)
    (released : forall f, f < s.count -> s.clientRefs f = 0) :
    s.Cleared ↔ forall f, ¬Relation.TransGen s.WaitsFor f f := by
  have sound := reachable_sound reached
  constructor
  · intro cleared f circle
    rcases Relation.TransGen.head'_iff.mp circle with ⟨g, ⟨continuation, waits, _⟩, _⟩
    rw [cleared.waiting] at waits
    cases waits
  · intro straight
    have dismissed := sound.dismissed destroyed released
    rcases sound.freed_of_straight between dismissed straight with ⟨waiting, free⟩
    refine ⟨?_, waiting, ?_, (reachable_valued reached).destroyed_of_freed between free⟩
    · intro f inside
      refine ⟨free f, ?_⟩
      rw [sound.freed f, if_pos ⟨inside, free f⟩]
    · intro t f mem
      have active := ((sound.listed t f).mp mem).1
      have pending := sound.pending_of_active between active
      have completed := sound.completed_of_straight between dismissed.promises straight (f := f)
      by_cases inside : f < s.count
      · exact absurd ((completed inside).symm.trans pending) (by decide)
      · rw [(sound.fresh f (Nat.le_of_not_lt inside)).node] at active
        cases active

/-- The promise of the input is destroyed while it is pending, and everything is released. -/
def abandoned : List Event :=
  inherits ++ [Event.call (.destroy 0)] ++ List.replicate 14 Event.step ++
    [Event.call (.release 0), .step] ++ [Event.call (.release 1), .step]

theorem leakFree_abandoned :
    let s := machine.after start abandoned
    s.Cleared ↔ forall f, ¬Relation.TransGen s.WaitsFor f f := by
  have may : machine.AllEnabled start abandoned := by decide
  exact leakFree (.run (.start rfl) may.run) (by decide) (by decide) (by decide)

end Operator
end UfsrvRx
