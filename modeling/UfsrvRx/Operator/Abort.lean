import UfsrvRx.Operator.Forwarding

namespace UfsrvRx
namespace Operator

open Transition
open UfsrvRx.Future (Result epipe ecanceled einval)

/-!
# Cancelling a chain of operators

`UfsrvCancellationTokenCancel` completes the last future of a chain when it comes to the
registration of that future.  A registration that was made after it, such as that of the inner
future of a `flatMap`, may have completed the future by then, by way of the operators between
the two.
-/

/-- The futures whose completion is handed on, from one to the next, to the last one. -/
inductive Leads (s : State) (last : FutureId) : FutureId -> Prop
  | last : Leads s last last
  | next {f out : FutureId} {continuation : Continuation} : (f, continuation) ∈ s.waiting ->
      continuation.out = some out -> Leads s last out -> Leads s last f

/-- Ready with `ECANCELED`.  The result is there until a move operator on the future takes it. -/
structure State.Aborted (s : State) (f : FutureId) : Prop where
  ready : (s.futures f).isCompleted = true
  outcome : (s.futures f).completed = some aborted
  result : (s.futures f).isMoved = false -> (s.futures f).result = aborted

/-! ## The cancellation -/

/-- The outcome of a future stays. -/
theorem completed_next {s : State} {event : Event} {f : FutureId} (ok : Recorded ∅ s)
    (sound : Sound s) (may : enabled s event)
    (outcome : (s.futures f).completed = some aborted) :
    ((next s event).futures f).completed = some aborted := by
  have completed : (s.futures f).isCompleted = true := by
    rw [ok.record, outcome]
    rfl
  cases event with
  | resume g | abandon g => exact outcome
  | call api =>
      have same := view_enter Cell.completed sound api (fun _ _ => rfl) (fun _ _ => rfl) f
      exact same.trans outcome
  | answer reply =>
      rcases may with ⟨callback, rest, stack, _⟩
      simp only [next, stack]
      rw [futures_afterCallback]
      exact outcome
  | step =>
      rcases may with ⟨task, rest, stack, _⟩
      have inside : f < s.count := by
        by_contra outside
        rw [(sound.fresh f (Nat.le_of_not_lt outside)).cell] at outcome
        cases outcome
      simp only [next, stack]
      rcases (Spares.perform { s with stack := rest } task).ended f inside with same | ⟨pending, _⟩
      · exact (congrArg Prod.snd same).trans outcome
      · exact absurd (completed.symm.trans pending) (by decide)

/-- Until the cancellation comes to the last future, what is above it in the stack is guarded. -/
def Nearing (way : FutureId -> Prop) (last : FutureId) (s : State) : Prop :=
  (s.futures last).completed = some aborted ∨ Exists fun tasks => Exists fun base =>
    s.stack = tasks ++ .complete last aborted :: base ∧ Guarded way s tasks

/-- Nothing is said about the stack itself. -/
theorem Guarded.restack {way : FutureId -> Prop} {s : State} {tasks stack : List Task}
    {gets : FutureId -> Nat} (ok : Guarded way s tasks) :
    Guarded way { s with stack := stack, gets := gets } tasks where
  inside := ok.inside
  outcome := ok.outcome
  edges := ok.edges
  aborts := ok.aborts
  paired := ok.paired

namespace Nearing

variable {way : FutureId -> Prop} {last : FutureId} {s : State}

theorem of_after {after : State} {tasks base : List Task}
    (stack : s.stack = tasks ++ .complete last aborted :: base)
    (guarded : Guarded.After way s after tasks) : Nearing way last after := by
  rcases guarded with ⟨new, pushed, guarded⟩
  refine .inr ⟨new ++ tasks, base, ?_, guarded⟩
  rw [pushed, stack, List.append_assoc]

theorem next {event : Event} (ok : Nearing way last s) (sound : Sound s)
    (recorded : Recorded ∅ s) (onWay : way last) (may : enabled s event)
    (unhindered : Unhindered way s event) : Nearing way last (Operator.next s event) := by
  rcases ok with outcome | ⟨tasks, base, stack, guarded⟩
  · exact .inl (completed_next recorded sound may outcome)
  have pushed {task : Task} {rest : List Task} (top : s.stack = task :: rest) :
      ({ s with stack := rest } : State).push [task] = s := by
    simp only [State.push, List.cons_append, List.nil_append, <- top]
  cases event with
  | resume f | abandon f => exact .inr ⟨tasks, base, stack, guarded.restack⟩
  | call api => exact of_after stack (guarded.enter sound unhindered.1)
  | answer reply =>
      rcases may with ⟨callback, rest, top, _⟩
      have same := pushed top
      rw [top] at stack
      simp only [Operator.next, top]
      cases tasks with
      | nil => cases stack
      | cons task tasks =>
          cases stack
          exact of_after rfl (guarded.restack.answer (same ▸ recorded) (same ▸ unhindered))
  | step =>
      rcases may with ⟨task, rest, top, runs⟩
      have same := pushed top
      rw [top] at stack
      simp only [Operator.next, top]
      cases tasks with
      | nil =>
          cases stack
          refine .inl ?_
          simp only [perform]
          split
          · rename_i completed
            rw [State.futures_destroyValue]
            exact guarded.outcome last ⟨onWay, completed⟩
          · simp [State.push, State.setFuture]
      | cons first tasks =>
          cases stack
          exact of_after rfl (guarded.restack.perform (same ▸ recorded) (same ▸ unhindered) runs)

theorem run {events : List Event} {after : State} (ok : Nearing way last s)
    (reached : machine.Reachable s) (onWay : way last)
    (run : (machine.restrict (Unhindered way)).Run s events after) : Nearing way last after := by
  induction run with
  | done => exact ok
  | step may _ inductionHypothesis =>
      refine inductionHypothesis ?_ (.step reached may.1)
      exact ok.next (reachable_sound reached) (reachable_recorded reached) onWay may.1 may.2

end Nearing

/-- A pending future that carries the token is on its list between calls. -/
theorem listed_between {s : State} {token : TokenId} {f : FutureId} (reached : machine.Reachable s)
    (between : s.stack = []) (pending : (s.futures f).isCompleted = false)
    (carries : (s.futures f).cancelToken = some token) : some f ∈ (s.tokens token).nodes := by
  rcases (reachable_enlisted reached).carried f token carries with completed | active | mem
  · exact absurd (completed.symm.trans pending) (by decide)
  · exact ((reachable_sound reached).listed token f).mpr active
  · rw [between] at mem
    cases mem

/-- A pending future is not freed between calls. -/
theorem unfreed_of_pending {s : State} {f : FutureId} (sound : Sound s) (between : s.stack = [])
    (pending : (s.futures f).isCompleted = false) : (s.futures f).frees = 0 := by
  rw [sound.freed f, if_neg]
  rintro ⟨inside, free⟩
  exact Nat.ne_of_gt (sound.refcount_of_live (sound.live_of_pending between inside pending)) free

/-- What leads to a pending future between calls is pending. -/
theorem pending_of_leads {s : State} {last f : FutureId} (sound : Sound s) (between : s.stack = [])
    (pending : (s.futures last).isCompleted = false) (leads : Leads s last f) :
    (s.futures f).isCompleted = false := by
  cases leads with
  | last => exact pending
  | next mem _ _ => exact (sound.pending_of_waiting between mem).2

/-- The cancellation starts with the registrations that were made last. -/
theorem nearing_cancel {s : State} {token : TokenId} {last : FutureId}
    (reached : machine.Reachable s) (between : s.stack = [])
    (pending : (s.futures last).isCompleted = false)
    (carries : (s.futures last).cancelToken = some token) :
    Nearing (Leads s last) last (enter s (.cancel token)) := by
  have sound := reachable_sound reached
  have mem := listed_between reached between pending carries
  have unfired : ¬(s.tokens token).isCancelled = true := by
    intro cancelled
    rw [(reachable_enlisted reached).empty token cancelled] at mem
    cases mem
  rcases List.append_of_mem mem with ⟨later, earlier, nodes⟩
  refine .inr ⟨later.flatMap cancellation, .dropNode last :: earlier.flatMap cancellation, ?_, ?_⟩
  · simp only [enter, if_neg unfired]
    rw [nodes, between, List.flatMap_append, List.append_nil]
    rfl
  · simp only [enter, if_neg unfired]
    refine ⟨?_, ?_, ?_, Guarded.aborts_cancellation _, Guarded.paired_cancellation later _⟩
    · intro f leads
      cases leads with
      | last =>
          by_contra outside
          rw [(sound.fresh last (Nat.le_of_not_lt outside)).cell] at carries
          cases carries
      | next mem _ _ => exact (sound.waits f _ mem).1
    · rintro f ⟨leads, completed⟩
      have before : (s.futures f).isCompleted = false :=
        pending_of_leads sound between pending leads
      exact absurd (completed.symm.trans before) (by decide)
    · exact fun f continuation out mem feeds here => .next mem feeds here.1

/-- When the operators of a chain leave their outputs pending until they hand the token on, and
nothing departs from the error of the cancellation on the way to the last future, that future is
ready with `ECANCELED` when the cancellation has returned. -/
theorem chainAborted {token : TokenId} {source last : FutureId} {earlier : List FutureId}
    {s after : State} {events : List Event}
    (chain : Chain LeavesPending token source (last :: earlier) s) (between : s.stack = [])
    (pending : (s.futures last).isCompleted = false)
    (run : (machine.restrict (Unhindered (Leads s last))).Run
      (machine.next s (.call (.cancel token))) events after)
    (returned : after.stack = []) : after.Aborted last := by
  have reached := chain.reachable
  have sound := reachable_sound reached
  have may : machine.enabled s (.call (.cancel token)) := ⟨.inl between, trivial⟩
  have carries : (s.futures last).cancelToken = some token := by
    rcases chain.carries last List.mem_cons_self with freed | carries | building
    · rw [unfreed_of_pending sound between pending] at freed
      exact absurd freed (Nat.lt_irrefl 0)
    · exact carries
    · cases building with
      | waits input above below stack _ _ _ _ => simp [between] at stack
      | attaches rest stack _ _ => simp [between] at stack
  have start := nearing_cancel reached between pending carries
  have near := start.run (.step reached may) .last run
  have outcome : (after.futures last).completed = some aborted := by
    rcases near with outcome | ⟨tasks, base, stack, _⟩
    · exact outcome
    · simp [returned] at stack
  have recorded := reachable_recorded ((Machine.Reachable.step reached may).run run.of_restrict)
  refine ⟨?_, outcome, ?_⟩
  · rw [recorded.record, outcome]
    rfl
  · intro unmoved
    rw [recorded.result, unmoved, outcome]
    rfl

/-- A source with a token. -/
def chained : List Event :=
  [Event.call .create, .call (.attach 0 0), .step, .step, .step]

/-- A flatMap on the source is built, and its mapper returns a new future that is pending. -/
def innerPending : List Event :=
  List.replicate 6 Event.step ++ [Event.call (.setResult 0 ⟨0, some 7, true⟩)] ++
    List.replicate 6 Event.step ++ [Event.call .create, .answer (.future (some 2))] ++
    List.replicate 6 Event.step

theorem chainAborted_innerPending :
    let s := machine.after (machine.next (machine.after start chained) (.call (.flatMap 0))) innerPending
    (machine.after (machine.next s (.call (.cancel 0))) (List.replicate 16 .step)).Aborted 1 := by
  intro s
  have may : machine.AllEnabled start chained := by decide
  have source : Chain LeavesPending 0 0 [0] (machine.after start chained) :=
    .source (.run (.start rfl) may.run) (by decide)
  have built : Chain LeavesPending 0 0 [1, 0]
      (machine.next (machine.after start chained) (.call (.flatMap 0))) :=
    .operator source rfl (by decide) (by decide)
  have mayPend : (machine.restrict (LeavesPending [1, 0])).AllEnabled
      (machine.next (machine.after start chained) (.call (.flatMap 0))) innerPending := by decide
  have chain : Chain LeavesPending 0 0 [1, 0] s := built.run mayPend.run
  have mayAbort : (machine.restrict (Unhindered fun _ => True)).AllEnabled
      (machine.next s (.call (.cancel 0))) (List.replicate 16 .step) := by decide
  have unhindered : (machine.restrict (Unhindered (Leads s 1))).Run
      (machine.next s (.call (.cancel 0))) (List.replicate 16 .step) _ :=
    mayAbort.run.weaken fun _ _ ok => ok.narrow fun _ _ => trivial
  exact chainAborted chain (by decide) (by decide) unhindered (by decide)

/-! ## The chains that are not aborted -/

/-- The cancellation leaves the last future of every chain aborted, when the chain was built with
such steps, and such steps follow until the cancellation returns. -/
def Aborts (building : List FutureId -> State -> Event -> Prop)
    (cancelling : (FutureId -> Prop) -> State -> Event -> Prop) : Prop :=
  forall (token : TokenId) (source last : FutureId) (earlier : List FutureId) (s after : State)
    (events : List Event), Chain building token source (last :: earlier) s -> s.stack = [] ->
    (s.futures last).isCompleted = false -> (machine.restrict (cancelling (Leads s last))).Run
      (machine.next s (.call (.cancel token))) events after -> after.stack = [] ->
    after.Aborted last

/-- Whatever happens. -/
def Anyhow (_ : List FutureId) (_ : State) (_ : Event) : Prop := True

/-- The client completes no future. -/
def Uncompleted (_ : FutureId -> Prop) (_ : State) (event : Event) : Prop := event.completes = none

/-- Nothing departs from the error on the way, but a result may be read that was moved out. -/
def Undeparted (way : FutureId -> Prop) (s : State) (event : Event) : Prop :=
  event.completes = none ∧
    forall out, serves s event = some out -> s.Open way out -> departs s event = false

instance (way : FutureId -> Prop) (s : State) (event : Event) :
    Decidable (Uncompleted way s event) :=
  inferInstanceAs (Decidable (event.completes = none))

instance (way : FutureId -> Prop) [DecidablePred way] (s : State) (event : Event) :
    Decidable (Undeparted way s event) :=
  decidable_of_iff (event.completes = none ∧ (serves s event).all fun out =>
      (way out ∧ (s.futures out).isCompleted = false) -> departs s event = false) <| by
    simp only [Undeparted, State.Open]
    cases serves s event <;> simp
    grind

theorem Undeparted.narrow {way narrower : FutureId -> Prop} {s : State} {event : Event}
    (ok : Undeparted way s event) (narrows : forall f, narrower f -> way f) :
    Undeparted narrower s event :=
  ⟨ok.1, fun out feeds here => ok.2 out feeds ⟨narrows out here.1, here.2⟩⟩

instance (chain : List FutureId) (s : State) (event : Event) : Decidable (Anyhow chain s event) :=
  isTrue trivial

theorem Aborts.narrow {building narrower : List FutureId -> State -> Event -> Prop}
    {cancelling : (FutureId -> Prop) -> State -> Event -> Prop} (aborts : Aborts building cancelling)
    (narrows : forall chain s event, narrower chain s event -> building chain s event) :
    Aborts narrower cancelling := by
  intro token source last earlier s after events chain
  exact aborts token source last earlier s after events (chain.weaken narrows)

/-- A source with a token, a flatMap on it and a second operator on that, and what follows. -/
def twoOperators (second : Api) (events : List Event) : State :=
  let first := machine.next (machine.after start chained) (.call (.flatMap 0))
  machine.after (machine.next (machine.after first (List.replicate 6 .step)) (.call second)) events

theorem chain_twoOperators (second : Api) (events : List Event) (builds : second.Builds 1)
    (held : machine.enabled (machine.after (machine.next (machine.after start chained)
      (.call (.flatMap 0))) (List.replicate 6 .step)) (.call second))
    (may : (machine.restrict (LeavesPending [2, 1, 0])).AllEnabled (twoOperators second []) events) :
    Chain LeavesPending 0 0 [2, 1, 0] (twoOperators second events) := by
  have made : machine.AllEnabled start chained := by decide
  have source : Chain LeavesPending 0 0 [0] (machine.after start chained) :=
    .source (.run (.start rfl) made.run) (by decide)
  have first : Chain LeavesPending 0 0 [1, 0]
      (machine.next (machine.after start chained) (.call (.flatMap 0))) :=
    .operator source rfl (by decide) (by decide)
  have returns : (machine.restrict (LeavesPending [1, 0])).AllEnabled
      (machine.next (machine.after start chained) (.call (.flatMap 0)))
      (List.replicate 6 .step) := by decide
  have both : Chain LeavesPending 0 0 [2, 1, 0] (twoOperators second []) :=
    .operator (first.run returns.run) builds held (by decide)
  exact both.run may.run

/-- The mapper returns a new future, which gets the token last. -/
def innerLast (inner : FutureId) : List Event :=
  List.replicate 6 Event.step ++ [Event.call (.setResult 0 ⟨0, some 7, true⟩)] ++
    List.replicate 6 Event.step ++ [Event.call .create, .answer (.future (some inner))] ++
    List.replicate 6 Event.step

/-- The recovery of an `UfsrvFutureOnError` is called with the error of the inner future, and makes
a future with a value. -/
def recovers : List Event :=
  List.replicate 9 Event.step ++ [Event.call (.fromResult ⟨0, some 8, true⟩)] ++
    List.replicate 6 Event.step ++ [Event.answer (.future (some 4))] ++ List.replicate 22 Event.step

theorem recovers_departs : ¬Aborts LeavesPending Uncompleted := by
  intro aborts
  have chain := chain_twoOperators (.onError 1) (innerLast 3) rfl (by decide) (by decide)
  have may : (machine.restrict (Uncompleted fun _ => True)).AllEnabled
      (machine.next (twoOperators (.onError 1) (innerLast 3)) (.call (.cancel 0))) recovers := by
    decide
  have outcome := (aborts 0 0 2 [1, 0] _ _ recovers chain (by decide) (by decide) may.run
    (by decide)).outcome
  exact absurd outcome (by decide)

/-- An `UfsrvFutureDoOnSuccess` beside the second operator takes the result of the first one. -/
def takenBeside : List Event :=
  List.replicate 6 Event.step ++ [Event.call (.doOnSuccess 1)] ++ innerLast 4

/-- The mapper is called as if the first operator had succeeded. -/
def mapsZero : List Event :=
  List.replicate 18 Event.step ++ [Event.answer (.value (some 8))] ++ List.replicate 20 Event.step

theorem takenBeside_untimely : ¬Aborts LeavesPending Undeparted := by
  intro aborts
  have chain := chain_twoOperators (.map 1 true) takenBeside rfl (by decide) (by decide)
  have may : (machine.restrict (Undeparted fun _ => True)).AllEnabled
      (machine.next (twoOperators (.map 1 true) takenBeside) (.call (.cancel 0))) mapsZero := by
    decide
  have undeparted : (machine.restrict (Undeparted
      (Leads (twoOperators (.map 1 true) takenBeside) 2))).Run _ mapsZero _ := may.run.weaken fun _ _ ok => ok.narrow fun _ _ => trivial
  have outcome := (aborts 0 0 2 [1, 0] _ _ mapsZero chain (by decide) (by decide) undeparted
    (by decide)).outcome
  exact absurd outcome (by decide)

/-- A source with a token is completed. -/
def succeeds : List Event :=
  chained ++ [Event.call (.setResult 0 ⟨0, some 7, true⟩)] ++ List.replicate 6 Event.step

/-- A map on it completes its output before the token is handed on. -/
def mapsAtOnce : List Event :=
  [Event.step, .step, .answer (.value (some 8))] ++ List.replicate 9 Event.step

/-- A flatMap on that output waits for a new future. -/
def waitsForInner : List Event :=
  [Event.step, .step, .call .create, .answer (.future (some 3))] ++ List.replicate 6 Event.step

theorem mapsAtOnce_unhanded : ¬Aborts Anyhow Unhindered := by
  intro aborts
  let mapped := machine.after (machine.next (machine.after start succeeds) (.call (.map 0 true)))
    mapsAtOnce
  let s := machine.after (machine.next mapped (.call (.flatMap 1))) waitsForInner
  have made : machine.AllEnabled start succeeds := by decide
  have source : Chain Anyhow 0 0 [0] (machine.after start succeeds) :=
    .source (.run (.start rfl) made.run) (by decide)
  have first : Chain Anyhow 0 0 [1, 0]
      (machine.next (machine.after start succeeds) (.call (.map 0 true))) :=
    .operator source rfl (by decide) (by decide)
  have maps : (machine.restrict (Anyhow [1, 0])).AllEnabled
      (machine.next (machine.after start succeeds) (.call (.map 0 true))) mapsAtOnce := by decide
  have both : Chain Anyhow 0 0 [2, 1, 0] (machine.next mapped (.call (.flatMap 1))) :=
    .operator (first.run maps.run) rfl (by decide) (by decide)
  have waits : (machine.restrict (Anyhow [2, 1, 0])).AllEnabled
      (machine.next mapped (.call (.flatMap 1))) waitsForInner := by decide
  have chain : Chain Anyhow 0 0 [2, 1, 0] s := both.run waits.run
  have aborted := aborts 0 0 2 [1, 0] s _ [] chain (by decide) (by decide) (.done _) (by decide)
  exact absurd aborted.ready (by decide)

/-- Neither the conditions on how a chain is built nor those on the cancellation can be left out. -/
theorem chainAborted_fails : ¬Aborts Anyhow Uncompleted ∧ ¬Aborts Anyhow Unhindered ∧
    ¬Aborts LeavesPending Uncompleted ∧ ¬Aborts LeavesPending Undeparted := by
  have narrows : forall chain s event, LeavesPending chain s event -> Anyhow chain s event :=
    fun _ _ _ _ => trivial
  exact ⟨fun aborts => recovers_departs (aborts.narrow narrows), mapsAtOnce_unhanded,
    recovers_departs, takenBeside_untimely⟩

end Operator
end UfsrvRx
