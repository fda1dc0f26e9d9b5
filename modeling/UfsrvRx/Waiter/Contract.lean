import UfsrvRx.Waiter.Progress

namespace UfsrvRx
namespace Waiter

open Transition

/-!
# The contract of waiting

What the caller of `UfsrvFutureGet` and `UfsrvFutureGetWithCancellation` can rely on,
in every reachable state.
-/

/-- A completing call or a last release has taken the node off the stack and not
dropped it yet. -/
def State.InHands (s : State) (w : WaitId) : Prop :=
  Exists fun who => w ∈ (s.segment who).pending ∨ (s.segment who).running = some w ∨
    (s.segment who).releasing = some w

/-- Waiters are woken once and not too early. -/
structure WakeContract (s : State) : Prop where
  wokenOnce : forall w, (s.waits w).wakes ≤ 1
  openWrites : forall w, (s.waits w).lateWrites = 0
  resumed : forall S c w rest, enabled s (.workerResume S c w rest) ->
    s.coroutines c = ⟨S, .suspended w⟩ ∧ (s.waits w).frame = .parked
  awoken : s.AtRest -> forall w, s.Suspended w ->
    (s.futures (s.waits w).future).isCompleted = false ∧
      forall t, (s.waits w).token = some t -> (s.registry.tokens t).token.isCancelled = false
  outcome : forall w r, (s.waits w).frame = .returned r ->
    (r = .ofError Future.ecanceled ∧ Exists fun t => (s.waits w).token = some t ∧
      (s.registry.tokens t).token.isCancelled = true) ∨
    (s.futures (s.waits w).future).isReady = true ∧
      r = (s.futures (s.waits w).future).result
  freedOnce : forall w, (s.waits w).freed ≤ 1
  freedLast : forall w, (s.waits w).freed = 1 ->
    (s.waits w).frame.ownRef = 0 ∧ (forall f, w ∉ (s.futures f).waiters) ∧ ¬ s.InHands w ∧
      ((s.waits w).callback = .idle ∨ (s.waits w).callback = .done)
  freed : forall w r, (s.waits w).frame = .returned r -> (s.waits w).allocated = true ->
    w ∉ (s.futures (s.waits w).future).waiters -> ¬ s.InHands w ->
    (forall k, ¬ (s.registry.cancel k).Owns w) -> (s.waits w).freed = 1

theorem not_inHands {s : State} {spot : WaitId -> Spot} (noded : Noded s spot) {w : WaitId}
    (outside : (spot w).place = .outside) : ¬ s.InHands w := by
  rintro ⟨who, pending | running | releasing⟩
  · rw [(noded.drains.pending who w).mp pending] at outside
    cases outside
  · rw [(noded.drains.running who w).mp running] at outside
    cases outside
  · rw [(noded.drains.releasing who w).mp releasing] at outside
    cases outside

theorem inHands_of_holder {s : State} {spot : WaitId -> Spot} (noded : Noded s spot) {w : WaitId}
    (unheld : ¬ s.InHands w) : (spot w).holder = none := by
  cases place : spot w with
  | stolen who =>
      exact absurd ⟨who, Or.inl ((noded.drains.pending who w).mpr (by rw [place]; rfl))⟩ unheld
  | waking who =>
      exact absurd ⟨who, Or.inr (Or.inl ((noded.drains.running who w).mpr (by rw [place]; rfl)))⟩
        unheld
  | settling who =>
      exact absurd ⟨who, Or.inr (Or.inr ((noded.drains.releasing who w).mpr (by rw [place]; rfl)))⟩
        unheld
  | _ => rfl

section

variable {s : State} (reached : machine.Reachable s)
include reached

theorem resume_suspended {S : SchedulerId} {c : CoroutineId} {w : WaitId} {rest : List Job}
    (may : enabled s (.workerResume S c w rest)) :
    s.coroutines c = ⟨S, .suspended w⟩ ∧ (s.waits w).frame = .parked := by
  have seated := reachable_seated reached
  have head := (reachable_noded reached).1.head seated may
  have seat := seated.seat w c S head.1.1
  refine ⟨?_, WaitFrame.seat_parked.mp (seated.suspended c w head.2).2⟩
  cases entry : s.coroutines c with
  | mk scheduler status =>
      rw [entry] at head seat
      rw [show scheduler = S from seat.2.1, show status = _ from head.2]

/-- A callback in progress still has the reference of its registration. -/
theorem unreleased_of_called {w : WaitId} (called : (s.waits w).callback ≠ .idle)
    (unfinished : (s.waits w).callback ≠ .done) :
    (s.registry.registrations w).released = 0 := by
  have hook := reachable_hooked reached w
  have owned : (s.waits w).Owned :=
    ⟨fun idle => called (hook.outside idle).1, fun none => called (hook.plain none).1⟩
  rcases Cancellation.reachable_consistent (reachable_registry reached) with ⟨_, _, _, ok⟩
  by_contra released
  have settled := (ok.released_settled released).2.1
  have started : (s.registry.registrations w).started ≠ 0 :=
    fun zero => called ((hook.started owned).mpr zero)
  exact unfinished (hook.finished owned (by rw [<- settled]; exact started))

/-- The registration of a wait that was called back has been entered or has returned. -/
theorem registered_of_called {w : WaitId} (called : (s.waits w).callback ≠ .idle) :
    (s.waits w).frame = .registering ∨ (s.waits w).cancelHandle = true := by
  have hook := reachable_hooked reached w
  have owned : (s.waits w).Owned :=
    ⟨fun idle => called (hook.outside idle).1, fun none => called (hook.plain none).1⟩
  have started : (s.registry.registrations w).started ≠ 0 :=
    fun zero => called ((hook.started owned).mpr zero)
  have begun : (s.registry.registrations w).register ≠ .idle := by
    rcases Cancellation.reachable_consistent (reachable_registry reached) with ⟨_, _, _, ok⟩
    intro idle
    have entry := ok.entries w
    apply started
    rw [entry.started, entry.absent.mpr (Or.inl idle)]
    rfl
  have fits := hook.fits owned
  cases frame : (s.waits w).frame <;> simp_all [WaitFrame.stage, Fits, Wait.Owned]

/-- The registration of a wait that has returned was reclaimed. -/
theorem cancelRef_returned {w : WaitId} {r : Future.Result}
    (returned : (s.waits w).frame = .returned r)
    (unowned : forall k, ¬ (s.registry.cancel k).Owns w) :
    (s.waits w).cancelRef (s.registry.registrations w).released = 0 := by
  have hook := reachable_hooked reached w
  cases handle : (s.waits w).cancelHandle with
  | false => simp [Wait.cancelRef, returned, handle]
  | true =>
      have token : (s.waits w).token ≠ none := by
        intro none
        simp [(hook.plain none).2.1] at handle
      have owned : (s.waits w).Owned := ⟨by simp [returned], token⟩
      have fits := hook.fits owned
      rw [returned, handle] at fits
      have answered : answered (s.registry.registrations w).unregister = true := fits
      have made := hook.made owned (by simp [hook.handle handle])
      rcases Cancellation.reachable_consistent (reachable_registry reached) with ⟨_, _, _, ok⟩
      cases unregister : (s.registry.registrations w).unregister with
      | returned won =>
          have released := ok.released_once unregister unowned
          rw [if_pos made.2] at released
          simp [Wait.cancelRef, released]
      | idle => simp [unregister, Waiter.answered] at answered
      | reclaiming won => simp [unregister, Waiter.answered] at answered

/-- The node is freed after its last user is gone. -/
theorem freed_last {w : WaitId} (freed : (s.waits w).freed = 1) :
    (s.waits w).frame.ownRef = 0 ∧ (forall f, w ∉ (s.futures f).waiters) ∧ ¬ s.InHands w ∧
      ((s.waits w).callback = .idle ∨ (s.waits w).callback = .done) := by
  rcases (reachable_noded reached).2 with ⟨spot, noded⟩
  have node := noded.nodes w
  have counted := node.freed
  rw [freed] at counted
  have gone : spot w ≠ .absent ∧ (s.waits w).refcount = 0 := by
    by_contra alive
    rw [if_neg alive] at counted
    cases counted
  have refcount := node.refcount gone.1
  have := (s.waits w).frame.ownRef_nonneg
  have := (spot w).stackRef_nonneg
  have := (s.waits w).cancelRef_nonneg (s.registry.registrations w).released
  rw [gone.2] at refcount
  -- Either the push was refused, or the last of the three references was dropped.
  have unlinked : spot w = .refused ∨ spot w = .gone ∧ (s.waits w).frame.ownRef = 0 ∧
      (s.waits w).cancelRef (s.registry.registrations w).released = 0 := by
    by_cases refused : spot w = .refused
    · exact Or.inl refused
    · rw [if_neg refused] at refcount
      have none : (spot w).stackRef = 0 := by omega
      refine Or.inr ⟨?_, by omega, by omega⟩
      cases place : spot w with
      | gone => rfl
      | absent => exact absurd place gone.1
      | refused => exact absurd place refused
      | _ => simp [place, Spot.stackRef] at none
  have outside : (spot w).place = .outside ∧ spot w ≠ .listed := by
    rcases unlinked with refused | ⟨place, _⟩
    · simp [refused, Spot.place]
    · simp [place, Spot.place]
  refine ⟨?_, ?_, not_inHands noded outside.1, ?_⟩
  · rcases unlinked with refused | ⟨_, ownRef, _⟩
    · have link : (s.waits w).frame.link = .either := by
        have unallocated := node.unallocated
        have own := node.own
        have linked := node.linked
        rw [refused] at unallocated own linked
        cases here : (s.waits w).frame.link <;> simp [here, Spot.linked] at unallocated own linked
        rfl
      cases frame : (s.waits w).frame <;> simp [frame, WaitFrame.link] at link
      · rfl
      · rfl
    · exact ownRef
  · intro f mem
    exact outside.2 ((noded.listed f w).mp mem).1
  · by_contra busy
    push Not at busy
    have linked := node.callback busy.1
    rcases unlinked with refused | ⟨_, _, cancelRef⟩
    · simp [refused, Spot.linked] at linked
    · have pending := registered_of_called reached busy.1
      have released := unreleased_of_called reached busy.1 busy.2
      simp [Wait.cancelRef, pending, released] at cancelRef

/-- Once the wait has returned and nobody else has the node, it has been freed. -/
theorem freed_returned {w : WaitId} {r : Future.Result}
    (returned : (s.waits w).frame = .returned r) (allocated : (s.waits w).allocated = true)
    (unlisted : w ∉ (s.futures (s.waits w).future).waiters) (unheld : ¬ s.InHands w)
    (unowned : forall k, ¬ (s.registry.cancel k).Owns w) : (s.waits w).freed = 1 := by
  rcases (reachable_noded reached).2 with ⟨spot, noded⟩
  have node := noded.nodes w
  have present := node.allocated.mp allocated
  have apart := inHands_of_holder noded unheld
  have unlisted : spot w ≠ .listed := fun place => unlisted ((noded.listed _ w).mpr ⟨place, rfl⟩)
  have disowned : spot w ≠ .own := by
    intro own
    have link := node.own.mpr own
    rw [returned] at link
    cases link
  have cancelRef := cancelRef_returned reached returned unowned
  have refcount := node.refcount present
  rw [returned] at refcount
  have zero : (s.waits w).refcount = 0 := by
    rw [refcount, cancelRef]
    cases place : spot w <;> simp_all [Spot.stackRef, Spot.holder, WaitFrame.ownRef]
  rw [node.freed, if_pos ⟨present, zero⟩]

/-- Whatever coroutines and threads wait, and whoever completes and cancels. -/
theorem wakeContract : WakeContract s := by
  rcases reachable_noded reached with ⟨_, spot, noded⟩
  constructor
  · intro w
    have claim := (noded.nodes w).claim
    have bound : (if (s.waits w).claimed = true then 1 else 0) ≤ 1 := by split <;> decide
    omega
  · exact fun w => (noded.nodes w).late
  · exact fun S c w rest may => resume_suspended reached may
  · exact fun rest w suspended => ⟨suspended_uncompleted reached rest suspended,
      fun t token => suspended_uncancelled reached rest suspended token⟩
  · exact fun w => (reachable_outcome reached w).returned
  · intro w
    rw [(noded.nodes w).freed]
    split <;> simp
  · exact fun w => freed_last reached
  · exact fun w r => freed_returned reached

end

/-- A coroutine waits with a token and is parked; the token is cancelled, and the
worker resumes the coroutine. -/
def cancelWhileParked : List Event :=
  [.registry (.create 0), .spawn 0 0, .workerSpawn 0 0 [], .waitStart 0 (.coroutine 0 0) 0 (some 0),
    .waitCheckToken 0 0, .waitCheckState 0, .waitPush 0, .waitRetain 0,
    .registry (.registerAlloc 0 0 true), .registry (.registerRetain 0), .registry (.registerLock 0),
    .waitRegistered 0, .waitPark 0, .registry (.cancelLock 0 0), .registry (.cancelCall 0 0 0 []),
    .callbackClaim 0, .callbackWake 0, .workerResume 0 0 0 []]

theorem wakeContract_cancelWhileParked :
    WakeContract (machine.after start cancelWhileParked) ∧
      ((machine.after start cancelWhileParked).waits 0).wakes = 1 ∧
      ((machine.after start cancelWhileParked).waits 0).frame = .unregistering := by
  have may : machine.AllEnabled start cancelWhileParked := by
    refine ⟨⟨rfl, trivial⟩, rfl, rfl, ⟨rfl, rfl, ?_, ?_⟩, ⟨rfl, rfl⟩, rfl, rfl, rfl,
      ⟨⟨rfl, Nat.one_pos⟩, fun _ => ⟨rfl, rfl, rfl⟩⟩, ⟨rfl, trivial⟩, ⟨rfl, trivial⟩, ⟨rfl, rfl⟩, rfl,
      ⟨⟨rfl, Nat.one_pos⟩, trivial⟩, ⟨rfl, trivial⟩, rfl, rfl, rfl, trivial⟩
    · intro coroutine scheduler same
      cases same
      rfl
    · intro t same
      cases same
      exact ⟨rfl, Nat.one_pos⟩
  exact ⟨wakeContract (.run (.start rfl) may.run), rfl, rfl⟩

end Waiter
end UfsrvRx
