import UfsrvRx.Waiter.Machine

namespace UfsrvRx
namespace Waiter
namespace Abandoned

open Transition

/-!
# A wait whose registration is refused

`UfsrvFutureGetWithCancellation` and `sFutureGetBlockingCancellable` from where the waiter was
pushed, when `UfsrvCancellationTokenRegisterEx` has no memory.  The call takes its references
back and returns -1 while the future may complete in another thread.  The waiter stays on the
stack of the future until the drain of the completing call finds it, or the last
`UfsrvFutureRelease` of a future that is never completed.  No cancel callback knows it.
-/

/-- Program points of the call.  Only a plain thread closes a descriptor. -/
inductive Frame
  | retaining
  | registering
  | releasingCancel
  | closing
  | clearing
  | releasingPusher
  | returned (error : Int)
deriving DecidableEq, Repr

/-- Where the waiter is: on the stack, in the hands of the drain, in the hands of the last
release, or nowhere. -/
inductive Spot
  | listed
  | stolen
  | waking
  | settling
  | dropping
  | discarding
  | gone
deriving DecidableEq, Repr

/-- The waiter, and what the threads are at.  The resume jobs, the writes to the descriptor and
the frees are history. -/
structure State where
  agent : Agent
  frame : Frame
  spot : Spot
  isReady : Bool
  refcount : Nat
  isClaimed : Bool
  blockFd : Bool
  fdOpen : Bool
  resumes : Nat
  writes : Nat
  frees : Nat
deriving DecidableEq, Repr

inductive Event
  | retain
  | refuse
  | releaseCancel
  | close
  | clear
  | releasePusher
  | complete
  | steal
  | claim
  | wake
  | settle
  | drop
  | closeDropped
  | discard
deriving DecidableEq, Repr

/-- The future is not released for the last time while somebody waits on it or completes it,
and nobody completes it afterwards. -/
def enabled (s : State) : Event -> Prop
  | .retain => s.frame = .retaining
  | .refuse => s.frame = .registering
  | .releaseCancel => s.frame = .releasingCancel
  | .close => s.frame = .closing
  | .clear => s.frame = .clearing
  | .releasePusher => s.frame = .releasingPusher
  | .complete => s.isReady = false ∧ s.spot = .listed
  | .steal => s.isReady = true ∧ s.spot = .listed
  | .claim => s.spot = .stolen
  | .wake => s.spot = .waking
  | .settle => s.spot = .settling
  | .drop => s.isReady = false ∧ s.spot = .listed ∧ s.frame = .returned (-1)
  | .closeDropped => s.spot = .dropping
  | .discard => s.spot = .discarding

instance : DecidableRel enabled
  | _, .retain | _, .refuse | _, .releaseCancel | _, .close | _, .clear | _, .releasePusher
  | _, .claim | _, .wake | _, .settle | _, .closeDropped | _, .discard =>
      inferInstanceAs (Decidable (_ = _))
  | _, .complete | _, .steal => inferInstanceAs (Decidable (_ ∧ _))
  | _, .drop => inferInstanceAs (Decidable (_ ∧ _ ∧ _))

namespace State

/-- `lockless_treiber_stack_release` without a look at its result. -/
def release (s : State) : State :=
  { s with refcount := s.refcount - 1 }

/-- `lockless_treiber_stack_release`, and `free` if this was the last reference. -/
def releaseFree (s : State) : State :=
  { s.release with frees := s.frees + if s.refcount = 1 then 1 else 0 }

/-- The drain wakes a waiter it has claimed. -/
def wakeWaiter (s : State) : State :=
  match s.agent with
  | .coroutine _ _ => { s with resumes := s.resumes + 1 }
  | .thread => if s.blockFd then { s with writes := s.writes + 1 } else s

end State

def next (s : State) : Event -> State
  | .retain => { s with frame := .registering, refcount := s.refcount + 1 }
  | .refuse => { s with frame := .releasingCancel }
  | .releaseCancel =>
      match s.agent with
      | .coroutine _ _ => { s.release with frame := .releasingPusher }
      | .thread => { s.release with frame := .closing }
  | .close => { s with frame := .clearing, fdOpen := false }
  | .clear => { s with frame := .releasingPusher, blockFd := false }
  | .releasePusher => { s.release with frame := .returned (-1) }
  | .complete => { s with isReady := true }
  | .steal => { s with spot := .stolen }
  | .claim =>
      if s.isClaimed then { s with spot := .settling }
      else { s with spot := .waking, isClaimed := true }
  | .wake => { s.wakeWaiter with spot := .settling }
  | .settle => { s.releaseFree with spot := .gone }
  | .drop => { s with spot := .dropping }
  | .closeDropped =>
      if s.blockFd then { s with spot := .discarding, fdOpen := false }
      else { s with spot := .discarding }
  | .discard => { s.releaseFree with spot := .gone }

/-- The waiter was pushed, before or after the completing call has stored READY. -/
def start (agent : Agent) (isReady : Bool) : State where
  agent := agent
  frame := .retaining
  spot := .listed
  isReady := isReady
  refcount := 2
  isClaimed := false
  blockFd := agent = .thread
  fdOpen := agent = .thread
  resumes := 0
  writes := 0
  frees := 0

def machine : Machine State Event where
  initial := fun s => Exists fun agent => Exists fun isReady => s = start agent isReady
  enabled := enabled
  next := next

instance (s : State) (event : Event) : Decidable (machine.enabled s event) :=
  inferInstanceAs (Decidable (enabled s event))

/-! ## The references -/

namespace Frame

/-- The references of the call. -/
@[grind =] def refs : Frame -> Nat
  | registering | releasingCancel => 2
  | retaining | closing | clearing | releasingPusher => 1
  | returned _ => 0

/-- `block_fd` of a plain thread has not been reset. -/
@[grind =] def hasFd : Frame -> Bool
  | retaining | registering | releasingCancel | closing | clearing => true
  | releasingPusher | returned _ => false

end Frame

namespace Spot

/-- The reference of the stack, which the drain or the last release takes over. -/
@[grind =] def refs : Spot -> Nat
  | listed | stolen | waking | settling | dropping | discarding => 1
  | gone => 0

/-- The last release has the waiter, after the call has returned. -/
@[grind =] def dropped : Spot -> Bool
  | dropping | discarding => true
  | listed | stolen | waking | settling | gone => false

end Spot

structure Inv (s : State) : Prop where
  refcount : s.refcount = s.frame.refs + s.spot.refs
  blockFd : s.blockFd = true ↔ s.agent = .thread ∧ s.frame.hasFd = true
  closing : s.frame = .closing ∨ s.frame = .clearing -> s.agent = .thread
  unclaimed : s.spot = .listed ∨ s.spot = .stolen -> s.isClaimed = false
  frees : s.spot ≠ .gone -> s.frees = 0
  once : s.frees ≤ 1
  error : forall error, s.frame = .returned error -> error = -1
  dropped : s.spot.dropped = true -> s.frame = .returned (-1)

theorem inv_start (agent : Agent) (isReady : Bool) : Inv (start agent isReady) := by
  constructor <;> simp [start, Frame.refs, Spot.refs, Frame.hasFd, Spot.dropped]

namespace Inv

variable {s after : State}

/-- The call goes on. -/
theorem call (ok : Inv s) (agent : after.agent = s.agent) (spot : after.spot = s.spot)
    (isClaimed : after.isClaimed = s.isClaimed) (frees : after.frees = s.frees)
    (inside : forall error, s.frame ≠ .returned error)
    (refcount : after.refcount = after.frame.refs + s.spot.refs)
    (blockFd : after.blockFd = true ↔ s.agent = .thread ∧ after.frame.hasFd = true)
    (closing : after.frame = .closing ∨ after.frame = .clearing -> s.agent = .thread)
    (error : forall error, after.frame = .returned error -> error = -1) : Inv after where
  refcount := by rw [refcount, spot]
  blockFd := by rw [blockFd, agent]
  closing := by simpa only [agent] using closing
  unclaimed := by simpa only [spot, isClaimed] using ok.unclaimed
  frees := by simpa only [spot, frees] using ok.frees
  once := by simpa only [frees] using ok.once
  error := error
  dropped := by
    intro dropped
    rw [spot] at dropped
    exact absurd (ok.dropped dropped) (inside (-1))

/-- The waiter goes from one hand to another. -/
theorem move (ok : Inv s) (agent : after.agent = s.agent) (frame : after.frame = s.frame)
    (blockFd : after.blockFd = s.blockFd) (refcount : after.refcount + s.spot.refs =
      s.refcount + after.spot.refs)
    (unclaimed : after.spot = .listed ∨ after.spot = .stolen -> after.isClaimed = false)
    (frees : after.spot ≠ .gone -> after.frees = 0) (once : after.frees ≤ 1)
    (dropped : after.spot.dropped = true -> s.frame = .returned (-1)) : Inv after where
  refcount := by
    have before := ok.refcount
    rw [frame]
    omega
  blockFd := by simpa only [agent, frame, blockFd] using ok.blockFd
  closing := by simpa only [agent, frame] using ok.closing
  unclaimed := unclaimed
  frees := frees
  once := once
  error := by simpa only [frame] using ok.error
  dropped := by simpa only [frame] using dropped

theorem retain (ok : Inv s) (may : enabled s .retain) : Inv (next s .retain) := by
  simp only [enabled] at may
  have refcount := ok.refcount
  have blockFd := ok.blockFd
  rw [may] at refcount blockFd
  refine ok.call rfl rfl rfl rfl (by simp [may]) ?_ blockFd (by simp [next]) (by simp [next])
  simp only [next, Frame.refs] at refcount ⊢
  omega

theorem refuse (ok : Inv s) (may : enabled s .refuse) : Inv (next s .refuse) := by
  simp only [enabled] at may
  have refcount := ok.refcount
  have blockFd := ok.blockFd
  rw [may] at refcount blockFd
  exact ok.call rfl rfl rfl rfl (by simp [may]) refcount blockFd (by simp [next]) (by simp [next])

theorem releaseCancel (ok : Inv s) (may : enabled s .releaseCancel) :
    Inv (next s .releaseCancel) := by
  simp only [enabled] at may
  have refcount := ok.refcount
  have blockFd := ok.blockFd
  rw [may] at refcount blockFd
  simp only [Frame.refs] at refcount
  simp only [next]
  cases agent : s.agent with
  | coroutine coroutine scheduler =>
      refine ok.call rfl rfl rfl rfl (by simp [may]) ?_ ?_ (by simp) (by simp)
      · simp only [State.release, Frame.refs]
        omega
      · simpa [State.release, Frame.hasFd, agent] using blockFd
  | thread =>
      refine ok.call rfl rfl rfl rfl (by simp [may]) ?_ blockFd (fun _ => agent) (by simp)
      simp only [State.release, Frame.refs]
      omega

theorem close (ok : Inv s) (may : enabled s .close) : Inv (next s .close) := by
  simp only [enabled] at may
  have refcount := ok.refcount
  have blockFd := ok.blockFd
  rw [may] at refcount blockFd
  exact ok.call rfl rfl rfl rfl (by simp [may]) refcount blockFd
    (fun _ => ok.closing (.inl may)) (by simp [next])

theorem clear (ok : Inv s) (may : enabled s .clear) : Inv (next s .clear) := by
  simp only [enabled] at may
  have refcount := ok.refcount
  rw [may] at refcount
  exact ok.call rfl rfl rfl rfl (by simp [may]) refcount (by simp [next, Frame.hasFd])
    (by simp [next]) (by simp [next])

theorem releasePusher (ok : Inv s) (may : enabled s .releasePusher) :
    Inv (next s .releasePusher) := by
  simp only [enabled] at may
  have refcount := ok.refcount
  have blockFd := ok.blockFd
  rw [may] at refcount blockFd
  refine ok.call rfl rfl rfl rfl (by simp [may]) ?_ blockFd (by simp [next]) (by simp [next])
  simp only [next, State.release, Frame.refs] at refcount ⊢
  omega

/-- The steps of the drain and of the last release that give no reference up. -/
theorem carry (ok : Inv s) (here : s.spot ≠ .gone) (there : after.spot ≠ .gone)
    (agent : after.agent = s.agent) (frame : after.frame = s.frame)
    (blockFd : after.blockFd = s.blockFd) (refcount : after.refcount = s.refcount)
    (frees : after.frees = s.frees)
    (unclaimed : after.spot = .listed ∨ after.spot = .stolen -> after.isClaimed = false)
    (dropped : after.spot.dropped = true -> s.frame = .returned (-1)) : Inv after := by
  have one : forall {spot : Spot}, spot ≠ .gone -> spot.refs = 1 := by
    intro spot held
    cases spot <;> first | rfl | exact absurd rfl held
  refine ok.move agent frame blockFd ?_ unclaimed ?_ ?_ dropped
  · rw [refcount, one here, one there]
  · intro _
    rw [frees, ok.frees here]
  · rw [frees]
    exact ok.once

/-- The reference of the stack is given up. -/
theorem giveUp (ok : Inv s) (here : s.spot ≠ .gone) (one : s.spot.refs = 1) :
    Inv { s.releaseFree with spot := .gone } := by
  have frees := ok.frees here
  have refcount := ok.refcount
  refine ok.move rfl rfl rfl ?_ (by simp) (fun still => absurd rfl still) ?_ (by simp [Spot.dropped])
  · change s.refcount - 1 + s.spot.refs = s.refcount + 0
    omega
  · simp only [State.releaseFree, State.release, frees]
    split <;> omega

end Inv

theorem inv_next {s : State} (ok : Inv s) (event : Event) (may : enabled s event) :
    Inv (next s event) := by
  cases event with
  | retain => exact ok.retain may
  | refuse => exact ok.refuse may
  | releaseCancel => exact ok.releaseCancel may
  | close => exact ok.close may
  | clear => exact ok.clear may
  | releasePusher => exact ok.releasePusher may
  | complete =>
      have here : s.spot ≠ .gone := by simp [may.2]
      exact ok.carry here here rfl rfl rfl rfl rfl ok.unclaimed ok.dropped
  | steal =>
      exact ok.carry (by simp [may.2]) nofun rfl rfl rfl rfl rfl
        (fun _ => ok.unclaimed (.inl may.2)) nofun
  | claim =>
      simp only [enabled] at may
      simp only [next]
      split <;> exact ok.carry (by simp [may]) nofun rfl rfl rfl rfl rfl (by simp) nofun
  | wake =>
      simp only [enabled] at may
      simp only [next, State.wakeWaiter]
      split
      · exact ok.carry (by simp [may]) nofun rfl rfl rfl rfl rfl (by simp) nofun
      · split <;> exact ok.carry (by simp [may]) nofun rfl rfl rfl rfl rfl (by simp) nofun
  | settle =>
      simp only [enabled] at may
      exact ok.giveUp (by simp [may]) (by rw [may]; rfl)
  | drop =>
      exact ok.carry (by simp [may.2.1]) nofun rfl rfl rfl rfl rfl nofun (fun _ => may.2.2)
  | closeDropped =>
      simp only [enabled] at may
      have returned := ok.dropped (by rw [may]; rfl)
      simp only [next]
      split <;>
        exact ok.carry (by simp [may]) nofun rfl rfl rfl rfl rfl (by simp) (fun _ => returned)
  | discard =>
      simp only [enabled] at may
      exact ok.giveUp (by simp [may]) (by rw [may]; rfl)

theorem reachable_inv {s : State} (reached : machine.Reachable s) : Inv s := by
  refine reached.invariant Inv ?_ ?_
  · rintro s ⟨agent, isReady, rfl⟩
    exact inv_start agent isReady
  · intro s event _ ok may
    exact inv_next ok event may

/-! ## Nothing left behind -/

/-- Nobody was woken for this wait, and the waiter was freed if the stack has given it up. -/
structure State.Clean (s : State) : Prop where
  resumes : s.resumes = 0
  writes : s.writes = 0
  frees : s.frees = if s.spot = .gone then 1 else 0
  error : forall error, s.frame = .returned error -> error = -1

/-- The drain takes a waiter of a plain thread only, when its descriptor was reset, and gives
its reference up when the call has returned. -/
def Late (s : State) : Event -> Prop
  | .wake => s.agent = .thread ∧ s.blockFd = false
  | .settle => s.frame = .returned (-1)
  | _ => True

/-- The call returns -1 in any case. -/
theorem clean_iff {s : State} (ok : Inv s) : s.Clean ↔
    s.resumes = 0 ∧ s.writes = 0 ∧ s.frees = if s.spot = .gone then 1 else 0 := by
  constructor
  · rintro ⟨resumes, writes, frees, _⟩
    exact ⟨resumes, writes, frees⟩
  · rintro ⟨resumes, writes, frees⟩
    exact ⟨resumes, writes, frees, ok.error⟩

/-- The steps that wake the wait or give the reference of the stack up. -/
def Event.decides : Event -> Bool
  | wake | settle | discard => true
  | retain | refuse | releaseCancel | close | clear | releasePusher | complete | steal | claim
  | drop | closeDropped => false

/-- The other steps. -/
theorem clean_of_not_decides {s : State} (ok : Inv s) {event : Event} (may : enabled s event)
    (other : event.decides = false) : (next s event).Clean ↔ s.Clean := by
  have same : (next s event).resumes = s.resumes ∧ (next s event).writes = s.writes ∧
      (next s event).frees = s.frees ∧ ((next s event).spot = .gone ↔ s.spot = .gone) := by
    cases event with
    | wake | settle | discard => cases other
    | releaseCancel | claim | closeDropped =>
        simp only [enabled] at may
        simp only [next, State.release]
        split <;> simp [may]
    | _ =>
        simp only [enabled] at may
        simp [next, State.release, may]
  rcases same with ⟨resumes, writes, frees, spot⟩
  rw [clean_iff ok, clean_iff (inv_next ok event may), resumes, writes, frees]
  simp only [spot]

theorem clean_wake {s : State} (ok : Inv s) (may : enabled s .wake) (clean : s.Clean) :
    (next s .wake).Clean ↔ Late s .wake := by
  have kept := inv_next ok .wake may
  simp only [enabled] at may
  have before := (clean_iff ok).mp clean
  rw [clean_iff kept]
  simp only [next, Late, State.wakeWaiter]
  cases agent : s.agent with
  | coroutine => simp
  | thread =>
      cases fd : s.blockFd with
      | true => simp
      | false => simp [before.1, before.2.1, before.2.2, may]

/-- The call has given its references up when it has returned. -/
theorem Inv.refs_eq_zero {s : State} (ok : Inv s) :
    s.frame.refs = 0 ↔ s.frame = .returned (-1) := by
  have error := ok.error
  cases frame : s.frame with
  | returned value => simp [Frame.refs, error value frame]
  | _ => simp [Frame.refs]

theorem clean_settle {s : State} (ok : Inv s) (may : enabled s .settle) (clean : s.Clean) :
    (next s .settle).Clean ↔ Late s .settle := by
  have kept := inv_next ok .settle may
  simp only [enabled] at may
  have before := (clean_iff ok).mp clean
  have refcount := ok.refcount
  have frame := ok.refs_eq_zero
  rw [clean_iff kept]
  simp only [next, Late, State.releaseFree, State.release]
  grind

theorem clean_discard {s : State} (ok : Inv s) (may : enabled s .discard) (clean : s.Clean) :
    (next s .discard).Clean := by
  have kept := inv_next ok .discard may
  simp only [enabled] at may
  have before := (clean_iff ok).mp clean
  have refcount := ok.refcount
  have returned := ok.dropped (by rw [may]; rfl)
  rw [clean_iff kept]
  simp only [next, State.releaseFree, State.release]
  grind

/-- What the steps do to a clean state. -/
theorem clean_next {s : State} (ok : Inv s) (event : Event) (may : enabled s event)
    (clean : s.Clean) : (next s event).Clean ↔ Late s event := by
  cases event with
  | wake => exact clean_wake ok may clean
  | settle => exact clean_settle ok may clean
  | discard => exact iff_of_true (clean_discard ok may clean) trivial
  | _ => exact iff_of_true ((clean_of_not_decides ok may rfl).mpr clean) trivial

/-- What was done for an abandoned wait is not undone. -/
theorem unclean_next {s : State} (ok : Inv s) (event : Event) (may : enabled s event)
    (unclean : ¬s.Clean) : ¬(next s event).Clean := by
  by_cases other : event.decides = false
  · exact mt (clean_of_not_decides ok may other).mp unclean
  · have kept := inv_next ok event may
    have frees := ok.frees
    rw [clean_iff ok] at unclean
    rw [clean_iff kept]
    cases event with
    | wake =>
        simp only [enabled] at may
        simp only [next, State.wakeWaiter]
        split
        · grind
        · split <;> grind
    | settle | discard =>
        simp only [enabled] at may
        simp only [next, State.release, State.releaseFree]
        grind
    | _ => exact absurd rfl other

/-- In every run from where the waiter was pushed, and in each state of it. -/
theorem abandonedWait (agent : Agent) (isReady : Bool) {s : State} {events : List Event}
    (run : machine.Run (start agent isReady) events s) :
    s.Clean ↔ (machine.restrict Late).Run (start agent isReady) events s := by
  have begins : machine.Reachable (start agent isReady) := .start ⟨agent, isReady, rfl⟩
  refine run.restrict_iff State.Clean ?_ ?_ begins ?_
  · intro s event reached may clean
    exact clean_next (reachable_inv reached) event may clean
  · intro s event reached may unclean
    exact unclean_next (reachable_inv reached) event may unclean
  · exact (clean_iff (inv_start agent isReady)).mpr ⟨rfl, rfl, rfl⟩

/-- A plain thread has returned before the future completes. -/
def completedLate : List Event :=
  [.retain, .refuse, .releaseCancel, .close, .clear, .releasePusher, .complete, .steal, .claim,
    .wake, .settle]

theorem abandonedWait_completedLate :
    (machine.after (start .thread false) completedLate).Clean ↔
      (machine.restrict Late).Run (start .thread false) completedLate
        (machine.after (start .thread false) completedLate) := by
  have may : machine.AllEnabled (start .thread false) completedLate := by decide
  exact abandonedWait .thread false may.run

/-- A coroutine has returned from the call before the future completes.  The drain submits a
resume job for it. -/
def resumedLate : List Event :=
  [.retain, .refuse, .releaseCancel, .releasePusher, .complete, .steal, .claim, .wake, .settle]

theorem abandonedWait_resumedLate :
    let s := machine.after (start (.coroutine 0 0) false) resumedLate
    machine.Reachable s ∧ s.frame = .returned (-1) ∧ s.resumes = 1 ∧ ¬s.Clean := by
  have may : machine.AllEnabled (start (.coroutine 0 0) false) resumedLate := by decide
  refine ⟨.run (.start ⟨_, _, rfl⟩) may.run, rfl, rfl, ?_⟩
  intro clean
  exact absurd clean.resumes nofun

end Abandoned
end Waiter
end UfsrvRx
