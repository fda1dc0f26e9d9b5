import UfsrvRx.Operator.Effects

namespace UfsrvRx
namespace Operator

open Transition
open UfsrvRx.Future (Result ValueId epipe ecanceled einval)

/-!
# Callbacks are called once

The callback of an operator belongs to its output.  Whatever may still come to call it holds the
promise of the output, or a half of its zip.  While it runs it has the promise itself, and what
follows when it returns does not call it again.
-/

/-- The output that the callback was passed for. -/
def Callback.out : Callback -> Option FutureId
  | observer _ | cancelled => none
  | mapper _ out _ | flatMapper _ out _ | recovery _ out | action _ out | zipper out _ _ => some out

/-- The output whose callback the continuation comes to call. -/
def Continuation.asks : Continuation -> Option FutureId
  | map out _ | flatMap out _ | onError out | doOnSuccess out | zip out _ => some out
  | observe | moveChain _ | group _ _ => none

namespace Task

/-- The output whose callback runs. -/
def called : Task -> Option FutureId
  | callback client => client.out
  | _ => none

/-- The output whose callback runs, or is still to be called. -/
def asks : Task -> Option FutureId
  | run _ continuation | register _ continuation => continuation.asks
  | zipComplete out _ _ => some out
  | callback client => client.out
  | _ => none

end Task

/-- Nothing comes to call the callback of the output. -/
structure State.Silent (s : State) (out : FutureId) : Prop where
  inside : out < s.count
  works : forall task, task ∈ s.stack -> task.asks ≠ some out
  waits : forall f continuation, (f, continuation) ∈ s.waiting -> continuation.asks ≠ some out

variable {s : State} {out : FutureId}

/-! ## Who may call it -/

theorem Continuation.holds_of_asks {continuation : Continuation} (f : FutureId)
    (asks : continuation.asks = some out) :
    .promise out ∈ continuation.resources f ∨ .half out ∈ continuation.resources f := by
  cases continuation with
  | observe | moveChain _ | group _ _ => cases asks
  | map _ _ | flatMap _ _ | onError _ | doOnSuccess _ | zip _ _ =>
      cases asks
      simp [resources]

theorem Callback.holds_of_out {callback : Callback} (same : callback.out = some out) :
    .promise out ∈ callback.resources := by
  cases callback with
  | observer _ | cancelled => cases same
  | mapper _ _ _ | flatMapper _ _ _ | recovery _ _ | action _ _ | zipper _ _ _ =>
      cases same
      exact List.mem_cons_self

theorem Task.holds_of_asks {task : Task} (asks : task.asks = some out) :
    .promise out ∈ task.resources ∨ .half out ∈ task.resources := by
  cases task with
  | run f continuation | register f continuation => exact continuation.holds_of_asks f asks
  | zipComplete _ _ _ =>
      cases asks
      exact .inl List.mem_cons_self
  | callback client => exact .inl (Callback.holds_of_out asks)
  | _ => cases asks

/-- Only one can have the promise of the output, and a zip has its halves before. -/
theorem Sound.silent_of_callback {callback : Callback} (sound : Sound (s.push [.callback callback]))
    (same : callback.out = some out) : s.Silent out := by
  have mine : 0 < callback.resources.count (.promise out) :=
    List.count_pos_iff.mpr (Callback.holds_of_out same)
  have held (r : Resource) :
      callback.resources.count r + s.held.count r + s.extra r = s.total r := by
    have balanced := sound.balanced r
    rw [State.held_push, State.extra_push, State.total_push, List.count_append] at balanced
    simpa [Task.resources] using balanced
  have promise := held (.promise out)
  have half := held (.half out)
  simp only [State.extra, State.total] at promise half
  have live := Bool.toNat_le (s.promises out).isLive
  have alone : s.held.count (.promise out) = 0 := by omega
  have reported : s.held.count (.half out) = 0 := by
    by_contra left
    have remains : 0 < (s.zips out).remaining := by omega
    rw [if_pos remains] at promise
    omega
  refine ⟨?_, ?_, ?_⟩
  · have top : .callback callback ∈ (s.push [.callback callback]).stack := List.mem_cons_self
    exact sound.lt_count
      (sound.refcount_of_live (sound.live_of_held (held_pos top (Callback.holds_of_out same))))
  · intro task mem asks
    rcases Task.holds_of_asks asks with holds | holds
    · exact Nat.ne_of_gt (held_pos mem holds) alone
    · exact Nat.ne_of_gt (held_pos mem holds) reported
  · intro f continuation mem asks
    have held {r : Resource} (holds : r ∈ continuation.resources f) : 0 < s.held.count r :=
      List.count_pos_iff.mpr
        (List.mem_append_right _ (List.mem_flatMap.mpr ⟨(f, continuation), mem, holds⟩))
    rcases Continuation.holds_of_asks f asks with holds | holds
    · exact Nat.ne_of_gt (held holds) alone
    · exact Nat.ne_of_gt (held holds) reported

/-! ## Steps -/

theorem asks_finish {result : Result} {other : Task} (mem : other ∈ finish out result) :
    other.asks = none := by
  rcases List.mem_pair.mp mem with rfl | rfl <;> rfl

/-- What follows from a task calls what the task was about to call, or what a continuation that
waited was. -/
theorem asks_yields {task other : Task} (yields : task.Yields s other)
    (asks : other.asks = some out) : task.asks = some out ∨ Exists fun f =>
      Exists fun continuation => (f, continuation) ∈ s.waiting ∧ continuation.asks = some out := by
  have failed {f : FutureId} {result : Result} (mem : other ∈ finish f result) : False := by
    rw [asks_finish mem] at asks
    cases asks
  cases task with
  | setResult f result | unregister f | dropNode f | attached f =>
      cases yields
      cases asks
  | destroyPromise f | complete f result | attach f t =>
      rcases yields with rfl | rfl <;> cases asks
  | drain f =>
      rcases yields with ⟨continuation, waits, rfl⟩
      exact .inr ⟨f, continuation, waits, asks⟩
  | register f continuation =>
      cases yields
      exact .inl asks
  | run f continuation =>
      refine .inl ?_
      cases continuation with
      | observe =>
          cases yields
          cases asks
      | map _ _ | flatMap _ _ =>
          rcases yields with mem | rfl
          · exact (failed mem).elim
          · exact asks
      | onError _ | doOnSuccess _ =>
          rcases yields with rfl | rfl
          · exact asks
          · cases asks
      | moveChain _ =>
          rcases yields with mem | rfl
          · exact (failed mem).elim
          · cases asks
      | group kind _ =>
          cases kind with
          | all =>
              rcases yields with mem | rfl
              · exact (failed mem).elim
              · cases asks
          | any =>
              rcases yields with mem | mem | rfl | rfl
              · exact (failed mem).elim
              · exact (failed mem).elim
              · cases asks
              · cases asks
      | zip _ _ =>
          cases yields
          exact asks
  | claimInner _ _ =>
      rcases yields with mem | rfl | rfl
      · exact (failed mem).elim
      · cases asks
      · cases asks
  | claimInput _ _ =>
      rcases yields with mem | mem | rfl
      · exact (failed mem).elim
      · exact (failed mem).elim
      · cases asks
  | inherit _ _ =>
      rcases yields with ⟨_, rfl⟩
      cases asks
  | loop _ _ _ =>
      rcases yields with ⟨_, _, rfl⟩ | rfl | mem | rfl
      · cases asks
      · cases asks
      · exact (failed mem).elim
      · cases asks
  | subtract _ _ _ => rcases yields with mem | mem <;> exact (failed mem).elim
  | zipComplete _ _ _ =>
      rcases yields with ⟨_, mem⟩ | rfl
      · rcases List.mem_append.mp mem with mem | mem
        · exact (failed mem).elim
        · rcases List.mem_pair.mp mem with rfl | rfl <;> cases asks
      · exact .inl asks
  | releasePromise _ | zero _ | release _ | deliver _ | callback _ | leave _ | leaveSet _ =>
      exact yields.elim

/-- A call of the client comes to call back only for the output that it makes. -/
theorem asks_enter (s : State) (api : Api) : Exists fun new => (enter s api).stack = new ++ s.stack ∧
    forall other, other ∈ new -> forall out, other.asks = some out -> out = s.count := by
  have quiet {tasks : List Task} (none : forall other, other ∈ tasks -> other.asks = none) :
      forall other, other ∈ tasks -> forall out, other.asks = some out -> out = s.count := by
    intro other mem out asks
    rw [none other mem] at asks
    cases asks
  cases api with
  | create | retain f | unregisterCallback t index => exact ⟨[], rfl, by simp⟩
  | fromResult result =>
      refine ⟨finish s.count result ++ [.deliver s.count], ?_, quiet (by simp [finish, Task.asks])⟩
      simp only [enter, State.push, State.stack_give]
      rfl
  | setResult f result =>
      refine ⟨[.setResult f result, .leaveSet f], ?_, quiet (by simp [Task.asks])⟩
      simp only [enter, State.push, State.stack_give]
  | get f =>
      simp only [enter]
      split <;> exact ⟨[], rfl, by simp⟩
  | destroy f | attach f t | release f | observe f =>
      exact ⟨_, rfl, quiet (by simp [Task.asks, Continuation.asks])⟩
  | map f freeValue | flatMap f | onError f | doOnSuccess f | zip first second freeValue =>
      refine ⟨_, rfl, ?_⟩
      simp [Task.asks, Continuation.asks]
  | group kind entries =>
      simp only [enter]
      split <;> exact ⟨_, rfl, quiet (by simp [finish, Task.asks])⟩
  | cancel t =>
      simp only [enter]
      split
      · exact ⟨[], rfl, by simp⟩
      · refine ⟨_, rfl, quiet ?_⟩
        intro other mem
        rcases List.mem_flatMap.mp mem with ⟨node, _, mem⟩
        cases node with
        | none =>
            cases List.mem_singleton.mp mem
            rfl
        | some f => rcases List.mem_pair.mp mem with rfl | rfl <;> rfl
  | registerCallback t =>
      simp only [enter]
      split
      · exact ⟨_, rfl, quiet (by simp [Task.asks, Callback.out])⟩
      · exact ⟨[], rfl, by simp⟩

theorem asks_afterCallback (s : State) (callback : Callback) (reply : Reply) :
    Exists fun new => (afterCallback s callback reply).stack = new ++ s.stack ∧
      forall other, other ∈ new -> other.asks = none := by
  cases callback with
  | observer f | cancelled => exact ⟨[], rfl, by simp⟩
  | action f out => exact ⟨_, rfl, by simp [Task.asks]⟩
  | mapper f out freeValue =>
      cases reply with
      | nothing | future inner => exact ⟨[], rfl, by simp⟩
      | value value =>
          refine ⟨finish out (produced value freeValue), ?_, fun _ => asks_finish⟩
          simp only [afterCallback, State.push, State.stack_give]
  | zipper out first second =>
      cases reply with
      | nothing | future inner => exact ⟨[], rfl, by simp⟩
      | value value =>
          refine ⟨zipFinish out first second (produced value (s.zips out).freeValue), ?_, ?_⟩
          · simp only [afterCallback, State.push, State.stack_give]
          · simp [zipFinish, finish, Task.asks]
  | flatMapper f out token =>
      cases reply with
      | nothing | value value => cases token <;> exact ⟨[], rfl, by simp⟩
      | future inner =>
          cases inner <;> cases token <;> exact ⟨_, rfl, by simp [finish, Task.asks]⟩
  | recovery f out =>
      cases reply with
      | nothing | value value => exact ⟨[], rfl, by simp⟩
      | future inner => cases inner <;> exact ⟨_, rfl, by simp [finish, Task.asks]⟩

namespace State.Silent

/-- Tasks that do not come to call back are put on the stack. -/
theorem add {after : State} {new : List Task} (silent : s.Silent out) (count : s.count ≤ after.count)
    (stack : after.stack = new ++ s.stack)
    (waits : forall f continuation, (f, continuation) ∈ after.waiting -> continuation.asks ≠ some out)
    (works : forall task, task ∈ new -> task.asks ≠ some out) : after.Silent out := by
  refine ⟨Nat.lt_of_lt_of_le silent.inside count, ?_, waits⟩
  intro task mem
  rw [stack] at mem
  rcases List.mem_append.mp mem with mem | mem
  · exact works task mem
  · exact silent.works task mem

theorem perform {task : Task} (silent : (s.push [task]).Silent out) :
    (Operator.perform s task).Silent out := by
  have here : task.asks ≠ some out := silent.works task List.mem_cons_self
  have rest : s.Silent out :=
    ⟨silent.inside, fun other mem => silent.works other (List.mem_cons_of_mem _ mem), silent.waits⟩
  rcases yields_perform s task with ⟨new, stack, yields⟩
  refine rest.add (Nat.le_of_eq (count_perform s task).symm) stack ?_ ?_
  · intro f continuation mem
    rcases (Spares.perform s task).waiting f continuation mem with before | rfl
    · exact silent.waits f continuation before
    · exact here
  · intro other mem asks
    rcases asks_yields (yields other mem) asks with same | ⟨f, continuation, waits, same⟩
    · exact here same
    · exact silent.waits f continuation waits same

theorem enter (silent : s.Silent out) (sound : Sound s) (api : Api) :
    (Operator.enter s api).Silent out := by
  rcases asks_enter s api with ⟨new, stack, news⟩
  refine silent.add (Spares.enter sound api).count stack ?_ ?_
  · rw [waiting_enter]
    exact silent.waits
  · intro other mem asks
    exact Nat.ne_of_lt silent.inside (news other mem out asks)

theorem afterCallback (silent : s.Silent out) (callback : Callback) (reply : Reply) :
    (Operator.afterCallback s callback reply).Silent out := by
  rcases asks_afterCallback s callback reply with ⟨new, stack, news⟩
  have spares := Spares.afterCallback s callback reply
  refine silent.add spares.count stack ?_ ?_
  · intro f continuation mem
    exact silent.waits f continuation ((spares.waiting f continuation mem).resolve_right (by simp))
  · intro other mem asks
    rw [news other mem] at asks
    cases asks

theorem next {event : Event} (silent : s.Silent out) (sound : Sound s)
    (may : machine.enabled s event) : (Operator.next s event).Silent out := by
  cases event with
  | step =>
      rcases may with ⟨task, rest, stack, _⟩
      have pushed : ({ s with stack := rest } : State).push [task] = s := by
        simp only [State.push, List.cons_append, List.nil_append, <- stack]
      simp only [Operator.next, stack]
      exact State.Silent.perform (pushed ▸ silent)
  | call api => exact silent.enter sound api
  | answer reply =>
      rcases may with ⟨callback, rest, stack, _⟩
      have below : ({ s with stack := rest } : State).Silent out := by
        refine ⟨silent.inside, fun task mem => silent.works task ?_, silent.waits⟩
        rw [stack]
        exact List.mem_cons_of_mem _ mem
      simp only [Operator.next, stack]
      exact below.afterCallback callback reply
  | resume f | abandon f => exact ⟨silent.inside, silent.works, silent.waits⟩

end State.Silent

/-! ## Whole runs -/

/-- How many callbacks for the output have not returned. -/
def State.running (s : State) (out : FutureId) : Nat :=
  s.stack.countP fun task => task.called = some out

/-- How many callbacks for the output return in the course of the events. -/
def returned (out : FutureId) : State -> List Event -> Nat
  | _, [] => 0
  | s, .answer reply :: events =>
      (if s.stack.head?.bind Task.called = some out then 1 else 0) +
        returned out (next s (.answer reply)) events
  | s, event :: events => returned out (next s event) events

theorem asks_of_called {task : Task} (called : task.called = some out) : task.asks = some out := by
  cases task with
  | callback client => exact called
  | _ => cases called

theorem State.Silent.running (silent : s.Silent out) : s.running out = 0 := by
  rw [State.running, List.countP_eq_zero]
  intro task mem called
  exact silent.works task mem (asks_of_called (of_decide_eq_true called))

/-- A callback that nothing comes to call is never called. -/
theorem State.Silent.run {events : List Event} {last : State} (silent : s.Silent out)
    (reached : machine.Reachable s) (run : machine.Run s events last) :
    returned out s events + last.running out = 0 := by
  induction run with
  | done s => rw [returned, silent.running]
  | @step s event events last enabled _ inductionHypothesis =>
      have none := inductionHypothesis (silent.next (reachable_sound reached) enabled)
        (.step reached enabled)
      cases event with
      | answer reply =>
          rcases enabled with ⟨callback, rest, stack, _⟩
          have other : callback.out ≠ some out :=
            silent.works (.callback callback) (stack ▸ List.mem_cons_self)
          rw [returned, if_neg (by simpa [stack, Task.called] using other), Nat.zero_add]
          exact none
      | _ => exact none

/-- Each callback that runs has the promise of its output. -/
theorem running_le (s : State) (out : FutureId) : s.running out ≤ s.held.count (.promise out) := by
  rw [State.held, List.count_append, State.running]
  refine Nat.le_trans ?_ (Nat.le_add_right _ _)
  induction s.stack with
  | nil => exact Nat.le_refl 0
  | cons task rest inductionHypothesis =>
      rw [List.countP_cons, List.flatMap_cons, List.count_append, Nat.add_comm]
      refine Nat.add_le_add ?_ inductionHypothesis
      split
      · rename_i called
        cases task with
        | callback client =>
            exact List.count_pos_iff.mpr (Callback.holds_of_out (of_decide_eq_true called))
        | _ => cases of_decide_eq_true called
      · exact Nat.zero_le _

theorem Sound.running_le_one (sound : Sound s) (out : FutureId) : s.running out ≤ 1 := by
  have balanced := sound.balanced (.promise out)
  have holds := running_le s out
  have live := Bool.toNat_le (s.promises out).isLive
  simp only [State.total] at balanced
  omega

/-- When a callback returns, nothing is left that calls it again. -/
theorem silent_of_returned {callback : Callback} {rest : List Task} (sound : Sound s)
    (stack : s.stack = .callback callback :: rest) (same : callback.out = some out)
    (reply : Reply) : (next s (.answer reply)).Silent out := by
  have pushed : ({ s with stack := rest } : State).push [.callback callback] = s := by
    simp only [State.push, List.cons_append, List.nil_append, <- stack]
  have below : ({ s with stack := rest } : State).Silent out :=
    Sound.silent_of_callback (pushed ▸ sound) same
  simp only [next, stack]
  exact below.afterCallback callback reply

/-- A mapper, a recovery, an action or a zipper is called at most once for its output, in every
run and whatever the callbacks call before they return. -/
theorem callbackOnce {s last : State} {events : List Event} (reached : machine.Reachable s)
    (run : machine.Run s events last) (out : FutureId) :
    returned out s events + last.running out ≤ 1 := by
  induction run with
  | done s => simpa [returned] using (reachable_sound reached).running_le_one out
  | @step s event events last enabled run inductionHypothesis =>
      have later := inductionHypothesis (.step reached enabled)
      cases event with
      | answer reply =>
          have answered : machine.Reachable (next s (.answer reply)) := .step reached enabled
          rcases enabled with ⟨callback, rest, stack, _⟩
          by_cases same : callback.out = some out
          · have silent := silent_of_returned (reachable_sound reached) stack same reply
            have none := silent.run answered run
            rw [returned, if_pos (by simpa [stack, Task.called] using same), Nat.add_assoc]
            exact Nat.add_le_add_left (Nat.le_of_eq none) 1
          · rw [returned, if_neg (by simpa [stack, Task.called] using same), Nat.zero_add]
            exact later
      | _ => exact later

/-- The mapper of a map completes another promise, and the map is called for that one too. -/
def nestedMaps : List Event :=
  [Event.call .create, .call .create, .call (.map 0 false)] ++ List.replicate 4 Event.step ++
    [Event.call (.map 1 false)] ++ List.replicate 4 Event.step ++
    [Event.call (.setResult 0 ⟨0, some 7, false⟩)] ++ List.replicate 4 Event.step ++
    [Event.call (.setResult 1 ⟨0, some 8, false⟩)] ++ List.replicate 4 Event.step ++
    [Event.answer (.value (some 9)), .step]

theorem callbackOnce_nestedMaps :
    let last := machine.after start nestedMaps
    returned 3 start nestedMaps = 1 ∧ last.running 2 = 1 ∧
      (returned 2 start nestedMaps + last.running 2 ≤ 1) ∧
        returned 3 start nestedMaps + last.running 3 ≤ 1 := by
  have may : machine.AllEnabled start nestedMaps := by decide
  exact ⟨by decide, by decide, callbackOnce (.start rfl) may.run 2,
    callbackOnce (.start rfl) may.run 3⟩

end Operator
end UfsrvRx
