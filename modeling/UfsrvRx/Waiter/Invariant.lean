import UfsrvRx.Waiter.Stack

namespace UfsrvRx
namespace Waiter

open Transition

/-!
# Every reachable state

The description of nodes, stacks, drains and queues holds after every step.
-/

/-! ## What the registry contributes -/

section registry

variable {s : State} (reached : machine.Reachable s)
include reached

/-- A cancel callback runs only for a wait whose token is cancelled. -/
theorem called_token {w : WaitId} (called : (s.waits w).callback ≠ .idle) :
    Exists fun t => (s.waits w).token = some t ∧
      (s.registry.tokens t).token.isCancelled = true := by
  have hook := reachable_hooked reached w
  have owned : (s.waits w).Owned :=
    ⟨fun idle => called (hook.outside idle).1, fun none => called (hook.plain none).1⟩
  have started : (s.registry.registrations w).started ≠ 0 := by
    intro zero
    exact called ((hook.started owned).mpr zero)
  have begun : (s.registry.registrations w).register ≠ .idle := by
    rcases Cancellation.reachable_consistent (reachable_registry reached) with ⟨_, _, _, ok⟩
    intro idle
    have entry := ok.entries w
    apply started
    rw [entry.started, entry.absent.mpr (Or.inl idle)]
    rfl
  exact ⟨_, (hook.made owned begun).1,
    Cancellation.called_flag (reachable_registry reached) w (Or.inr started)⟩

/-- A wait that has not registered has no released context. -/
theorem unreleased {w : WaitId} (idle : (s.registry.registrations w).register = .idle) :
    (s.registry.registrations w).released = 0 := by
  rcases Cancellation.reachable_consistent (reachable_registry reached) with ⟨_, _, _, ok⟩
  by_contra released
  have entry := ok.entries w
  have handle := entry.handle (ok.released_settled released).1
  simp [idle] at handle

/-- The release hook is called once, after the wait has given up its handle. -/
theorem hook_once {w : WaitId} (owned : (s.waits w).Owned)
    (may : Cancellation.enabled s.registry (.hookCall w)) :
    (s.waits w).cancelHandle = true ∧ (s.waits w).frame ≠ .registering ∧
      (s.registry.registrations w).released = 0 := by
  rcases Cancellation.reachable_consistent (reachable_registry reached) with ⟨_, _, _, ok⟩
  have entry := ok.entries w
  have here : (s.registry.registrations w).reclaim = .hook := may
  have consumed := entry.consumed (by simp [here])
  have fits := (reachable_hooked reached w).fits owned
  have released := entry.released
  rw [here] at released
  refine ⟨?_, ?_, ?_⟩
  · cases frame : (s.waits w).frame <;> simp_all [WaitFrame.stage, Fits, Wait.Owned]
  · intro registering
    rw [registering] at fits
    exact consumed.1 fits.2
  · simpa [Cancellation.ReclaimFrame.released] using released

end registry

namespace Noded

variable {s : State} {spot : WaitId -> Spot}

/-- A release hook of a registration that belongs to no wait. -/
theorem foreignHook (ok : Noded s spot) (hooked : Hooked s) {w : WaitId}
    (foreign : ¬ (s.waits w).Owned) (later : Nat) : NodeOk (spot w) (s.waits w) later := by
  have hook := hooked w
  by_cases none : (s.waits w).token = none
  · have plain := hook.plain none
    refine (ok.nodes w).foreign plain.2.1 ?_ later
    intro registering
    simp [registering, WaitFrame.tokened] at plain
  · have idle : (s.waits w).frame = .idle := by
      by_contra busy
      exact foreign ⟨busy, none⟩
    exact (ok.nodes w).foreign (hook.outside idle).2 (by simp [idle]) later

theorem registryStep (ok : Noded s spot) (reached : machine.Reachable s)
    {event : Cancellation.Event} (may : Cancellation.enabled s.registry event) :
    Noded (Waiter.next s (.registry event)) spot := by
  have registry := reachable_registry reached
  have hooked := reachable_hooked reached
  rcases Cancellation.reachable_consistent registry with ⟨_, _, _, consistent⟩
  have flags (t : TokenId) : (s.registry.tokens t).token.isCancelled = true ->
      ((Cancellation.next s.registry event).tokens t).token.isCancelled = true :=
    Cancellation.flag_next consistent may
  have released := Cancellation.released_next registry may
  -- One wait reacts, and its node stays where it is.
  have reacts (w : WaitId) (entry : Wait)
      (moved : s.react event = s.setWait w entry)
      (others : forall v, v ≠ w -> event ≠ .hookCall v)
      (new : NodeOk (spot w) entry ((Cancellation.next s.registry event).registrations w).released)
      (future : entry.future = (s.waits w).future) (token : entry.token = (s.waits w).token)
      (frame : entry.frame = (s.waits w).frame) (claimed : entry.claimed = (s.waits w).claimed) :
      Noded (Waiter.next s (.registry event)) spot := by
    have stepped : Waiter.next s (.registry event) =
        { s.setWait w entry with registry := Cancellation.next s.registry event } := by
      rw [<- moved]
      rfl
    rw [stepped, <- Function.update_eq_self w spot]
    refine ok.work w entry (spot w) rfl (fun f => ⟨rfl, rfl⟩) (fun f => id) ?_ flags ?_ new
      (Or.inl future) Iff.rfl (fun flight => Or.inl (frame ▸ flight)) (Or.inr rfl) ?_
    · intro v other
      rw [released v, if_neg (others v other)]
      rfl
    · rw [Function.update_eq_self]
      exact ok.drains
    · intro now
      rcases ok.seen w (claimed ▸ now) with ready | ⟨t, mine, cancelled⟩
      · exact Or.inl (future ▸ ready)
      · exact Or.inr ⟨t, token.trans mine, flags t cancelled⟩
  by_cases hook : Exists fun w => event = .hookCall w ∧ (s.waits w).Owned
  · rcases hook with ⟨w, rfl, owned⟩
    have once := hook_once reached owned may
    refine reacts w (s.waits w).drop
      (by simp [State.react, Cancellation.Event.starts, hookOf, owned]) ?_ ?_ rfl rfl rfl rfl
    · rintro v other same
      injection same with same
      exact other same.symm
    · rw [released w, if_pos rfl, once.2.2]
      have node := ok.nodes w
      rw [once.2.2] at node
      exact node.hook once.1 once.2.1
  by_cases starts : Exists fun w => event.starts = some w ∧ (s.waits w).Owned
  · rcases starts with ⟨w, starts, owned⟩
    have silent (v : WaitId) : event ≠ .hookCall v := by
      rintro rfl
      cases starts
    have begun : (s.registry.registrations w).register ≠ .idle := by
      refine Hooked.begun_of_subject registry may ?_ ?_ ?_
      · cases event <;> simp_all [Cancellation.Event.starts, Cancellation.Event.subject]
      · rintro t rfl
        cases starts
      · rintro t withHook rfl
        cases starts
    refine reacts w { s.waits w with callback := .entered } (by simp [State.react, starts, owned])
      (fun v _ => silent v) ?_ rfl rfl rfl rfl
    rw [released w, if_neg (silent w)]
    have node := ok.nodes w
    exact node.called (node.linked_of_begun (hooked w) owned begun)
      (hooked.uncalled registry may starts owned)
  · have still : s.react event = s := by
      unfold State.react
      cases here : event.starts with
      | some w => exact if_neg fun owned => starts ⟨w, here, owned⟩
      | none =>
          cases called : hookOf event with
          | none => rfl
          | some w =>
              refine if_neg fun owned => hook ⟨w, ?_, owned⟩
              cases event <;> simp_all [hookOf]
    have stepped : Waiter.next s (.registry event) =
        { s with registry := Cancellation.next s.registry event } := by
      simp only [Waiter.next, still]
    rw [stepped]
    refine ok.frame rfl rfl (fun f => ⟨rfl, rfl⟩) (fun f => id) ?_ flags
    intro v
    by_cases mine : event = .hookCall v
    · exact ok.foreignHook hooked (fun owned => hook ⟨v, mine, owned⟩) _
    · rw [released v, if_neg mine]
      exact ok.nodes v

/-- A drainer works on the node in its hands. -/
theorem drainStep (ok : Noded s spot) (who : Drainer) (w : WaitId) (entry : Wait) (phase : Spot)
    {after : State} {segment : Segment WaitId}
    (waits : after.waits = Function.update s.waits w entry)
    (segments : after.segment = Function.update s.segment who segment)
    (drained : Drains (Function.update s.segment who segment)
      (Function.update (fun v => (spot v).place) w phase.place))
    (futures : forall f, (after.futures f).waiters = (s.futures f).waiters ∧
      (after.futures f).closed = (s.futures f).closed ∧
      (after.futures f).isReady = (s.futures f).isReady)
    (registry : after.registry = s.registry)
    (held : (spot w).holder = some who)
    (holder : phase.holder = none ∨ phase.holder = some who) (unlisted : phase ≠ .listed)
    (new : NodeOk (spot w) (s.waits w) (s.registry.registrations w).released ->
      NodeOk phase entry (s.registry.registrations w).released)
    (future : entry.future = (s.waits w).future) (token : entry.token = (s.waits w).token)
    (frame : entry.frame = (s.waits w).frame)
    (claimed : (s.waits w).claimed = true ∨ s.Due (s.waits w)) :
    Noded after (Function.update spot w phase) := by
  have taken : spot w ≠ .listed := by
    intro listed
    simp [listed, Spot.holder] at held
  refine ok.work w entry phase waits (fun f => ⟨(futures f).1, (futures f).2.1⟩)
    (fun f ready => (futures f).2.2.trans ready) (fun v _ => by rw [registry])
    (fun t => by simp [registry]) ?_ ?_ (Or.inl future) (by simp [unlisted, taken])
    (fun flight => Or.inl (frame ▸ flight)) (by rw [held]; exact holder) ?_
  · rw [view_update Spot.place spot w phase, segments]
    exact drained
  · rw [registry]
    exact new (ok.nodes w)
  · intro _
    have due : s.Due (s.waits w) := by
      rcases claimed with before | due
      · exact ok.seen w before
      · exact due
    simpa only [State.Due, (futures _).2.2, registry, future, token] using due

section hands

variable {k : CallId} {f : FutureId} {w : WaitId} {rest : List WaitId}

theorem taken_completer (ok : Noded s spot) (here : s.complete k = .draining f (w :: rest)) :
    spot w = .stolen (.completer k) := by
  have place := (ok.drains.pending (.completer k) w).mp (by simp [State.segment, here,
    CompleteFrame.segment])
  cases spotted : spot w <;> simp_all [Spot.place]

theorem waking_completer (ok : Noded s spot) (here : s.complete k = .waking f w rest) :
    spot w = .waking (.completer k) := by
  have place := (ok.drains.running (.completer k) w).mp (by simp [State.segment, here,
    CompleteFrame.segment])
  cases spotted : spot w <;> simp_all [Spot.place]

theorem settling_completer (ok : Noded s spot) (here : s.complete k = .releasing f w rest) :
    spot w = .settling (.completer k) := by
  have place := (ok.drains.releasing (.completer k) w).mp (by simp [State.segment, here,
    CompleteFrame.segment])
  cases spotted : spot w <;> simp_all [Spot.place]

theorem taken_releaser (ok : Noded s spot) (here : (s.futures f).release = .draining (w :: rest)) :
    spot w = .stolen (.releaser f) := by
  have place := (ok.drains.pending (.releaser f) w).mp (by simp [State.segment, here,
    ReleaseFrame.segment])
  cases spotted : spot w <;> simp_all [Spot.place]

theorem settling_releaser (ok : Noded s spot) (here : (s.futures f).release = .dropping w rest) :
    spot w = .settling (.releaser f) := by
  have place := (ok.drains.releasing (.releaser f) w).mp (by simp [State.segment, here,
    ReleaseFrame.segment])
  cases spotted : spot w <;> simp_all [Spot.place]

theorem completeClaim (ok : Noded s spot) (here : s.complete k = .draining f (w :: rest)) :
    Exists (Noded (Waiter.next s (.completeClaim k f w rest))) := by
  have taken := ok.taken_completer here
  have held : (spot w).holder = some (.completer k) := by
    rw [taken]
    rfl
  have segment : s.segment (.completer k) = ⟨w :: rest, none, none⟩ := by
    simp [State.segment, here, CompleteFrame.segment]
  by_cases claimed : (s.waits w).claimed = true
  · have stepped : Waiter.next s (.completeClaim k f w rest) =
        s.setComplete k (.releasing f w rest) := by
      simp [Waiter.next, claimed]
    rw [stepped]
    refine ⟨_, ok.drainStep (.completer k) w (s.waits w) (.settling (.completer k))
      (Function.update_eq_self w s.waits).symm
      (State.segment_setComplete rfl fun _ => rfl) (ok.drains.skip _ segment)
      (fun _ => ⟨rfl, rfl, rfl⟩) rfl held (Or.inr rfl) (by simp) ?_ rfl rfl rfl (Or.inl claimed)⟩
    rw [taken]
    exact fun node => node.skip claimed
  · have stepped : Waiter.next s (.completeClaim k f w rest) =
        (s.setComplete k (.waking f w rest)).setWait w { s.waits w with claimed := true } := by
      simp [Waiter.next, claimed]
    rw [stepped]
    refine ⟨_, ok.drainStep (.completer k) w _ (.waking (.completer k)) rfl
      (State.segment_setComplete rfl fun _ => rfl) (ok.drains.begin _ segment)
      (fun _ => ⟨rfl, rfl, rfl⟩) rfl held (Or.inr rfl) (by simp) ?_ rfl rfl rfl
      (Or.inr (Or.inl (ok.ready w k held)))⟩
    rw [taken]
    exact fun node => node.drainClaim (by simpa using claimed)

theorem completeWake (ok : Noded s spot) (here : s.complete k = .waking f w rest) :
    Exists (Noded (Waiter.next s (.completeWake k f w rest))) := by
  have waking := ok.waking_completer here
  have held : (spot w).holder = some (.completer k) := by
    rw [waking]
    rfl
  have segment : s.segment (.completer k) = ⟨rest, some w, none⟩ := by
    simp [State.segment, here, CompleteFrame.segment]
  have same := (s.waits w).drainWoken_calls
  have complete : (Waiter.next s (.completeWake k f w rest)).complete =
      Function.update s.complete k (.releasing f w rest) := by
    simp [Waiter.next, State.setComplete]
  refine ⟨_, ok.drainStep (.completer k) w (s.waits w).drainWoken (.settling (.completer k))
    ?_ (State.segment_setComplete complete (by simp [Waiter.next, State.setComplete]))
    (ok.drains.finish _ segment) ?_ ?_ held (Or.inr rfl) (by simp) ?_ same.2.2.2.2.2
    same.2.2.2.1 same.2.1 (Or.inr (Or.inl (ok.ready w k held)))⟩
  · simp [Waiter.next, State.setComplete]
  · simp [Waiter.next, State.setComplete]
  · simp [Waiter.next, State.setComplete]
  · rw [waking]
    exact fun node => node.drainWake

theorem completeRelease (ok : Noded s spot) (here : s.complete k = .releasing f w rest) :
    Exists (Noded (Waiter.next s (.completeRelease k f w rest))) := by
  have settling := ok.settling_completer here
  have segment : s.segment (.completer k) = ⟨rest, none, some w⟩ := by
    simp [State.segment, here, CompleteFrame.segment]
  refine ⟨_, ok.drainStep (.completer k) w _ .gone rfl (State.segment_setComplete rfl fun _ => rfl)
    (ok.drains.settle _ segment) (fun _ => ⟨rfl, rfl, rfl⟩) rfl (by rw [settling]; rfl) (Or.inl rfl)
    (by simp) ?_ rfl rfl rfl (Or.inl ((ok.nodes w).settled (by rw [settling]; rfl)))⟩
  rw [settling]
  exact fun node => node.settle

/-- What the last release takes off the stack has been claimed by a cancel callback. -/
theorem stale (ok : Noded s spot) (taken : spot w = .stolen (.releaser f)) :
    (s.waits w).claimed = true ∧ (s.waits w).frame.hasFd = false := by
  have node := ok.nodes w
  have ended := ok.ended w f (by rw [taken]; rfl)
  have woken := node.woken (by rw [taken]; rfl)
  have unallocated := node.unallocated
  have claim := node.claim
  have fresh := node.fresh
  cases frame : (s.waits w).frame <;>
    simp_all [WaitFrame.inFlight, WaitFrame.link, WaitFrame.woken, WaitFrame.hasFd, Spot.wakes]
  by_contra free
  simp [free] at claim

theorem cells_kept {s : State} {frame : ReleaseFrame} (g : FutureId) :
    let after := s.setFuture f { s.futures f with release := frame }
    (after.futures g).waiters = (s.futures g).waiters ∧
      (after.futures g).closed = (s.futures g).closed ∧
      (after.futures g).isReady = (s.futures g).isReady := by
  by_cases same : g = f
  · subst g
    simp [State.setFuture]
  · simp [State.setFuture, same]

theorem segment_release {s after : State} {frame : ReleaseFrame}
    (complete : after.complete = s.complete)
    (futures : after.futures =
      Function.update s.futures f { s.futures f with release := frame }) :
    after.segment = Function.update s.segment (.releaser f) frame.segment := by
  refine State.segment_setRelease complete ?_ ?_
  · rw [futures, Function.update_self]
  · intro g other
    rw [futures, Function.update_of_ne other]

theorem releaseClose (ok : Noded s spot) (here : (s.futures f).release = .draining (w :: rest)) :
    Exists (Noded (Waiter.next s (.releaseClose f w rest))) := by
  have taken := ok.taken_releaser here
  have segment : s.segment (.releaser f) = ⟨w :: rest, none, none⟩ := by
    simp [State.segment, here, ReleaseFrame.segment]
  have stale := ok.stale taken
  refine ⟨_, ok.drainStep (.releaser f) w _ (.settling (.releaser f)) rfl
    (segment_release rfl rfl) (ok.drains.skip _ segment) cells_kept rfl (by rw [taken]; rfl)
    (Or.inr rfl) (by simp) ?_ rfl rfl rfl (Or.inl stale.1)⟩
  rw [taken]
  exact fun node => (node.skip stale.1).closed stale.2 _

theorem releaseDrop (ok : Noded s spot) (here : (s.futures f).release = .dropping w rest) :
    Exists (Noded (Waiter.next s (.releaseDrop f w rest))) := by
  have settling := ok.settling_releaser here
  have segment : s.segment (.releaser f) = ⟨rest, none, some w⟩ := by
    simp [State.segment, here, ReleaseFrame.segment]
  refine ⟨_, ok.drainStep (.releaser f) w _ .gone rfl (segment_release rfl rfl)
    (ok.drains.settle _ segment) cells_kept rfl (by rw [settling]; rfl) (Or.inl rfl) (by simp) ?_
    rfl rfl rfl (Or.inl ((ok.nodes w).settled (by rw [settling]; rfl)))⟩
  rw [settling]
  exact fun node => node.settle

theorem completeClose (ok : Noded s spot) (completing : Completing s)
    (here : s.complete k = .closing f) : Exists (Noded (Waiter.next s (.completeClose k f))) := by
  have ready : (s.futures f).isReady = true := by
    by_contra unready
    have unpublished := (completing.published k f (by rw [here]; rfl)).mpr (by simpa using unready)
    simp [here, CompleteFrame.unpublished] at unpublished
  have others (g : FutureId) (other : g ≠ f) :
      (Waiter.next s (.completeClose k f)).futures g = s.futures g := by
    simp [Waiter.next, State.setFuture, State.setComplete, other]
  have complete : (Waiter.next s (.completeClose k f)).complete =
      Function.update s.complete k (.draining f (s.futures f).waiters) := rfl
  refine ⟨_, ok.steal (.completer k) f rfl rfl (State.segment_setComplete complete ?_) ?_ ?_ ?_ ?_
    (fun _ _ => ready) (by simp)⟩
  · intro g
    by_cases same : g = f
    · subst g
      simp [Waiter.next, State.setFuture]
    · rw [others g same]
  · simp [State.segment, here, CompleteFrame.segment]
  · simp [Waiter.next, State.setFuture]
  · intro g other
    rw [others g other]
    exact ⟨rfl, rfl⟩
  · intro g
    by_cases same : g = f
    · subst g
      simp [Waiter.next, State.setFuture]
    · rw [others g same]

theorem releaseSteal (ok : Noded s spot) (may : enabled s (.releaseSteal f)) :
    Exists (Noded (Waiter.next s (.releaseSteal f))) := by
  have others (g : FutureId) (other : g ≠ f) :
      (Waiter.next s (.releaseSteal f)).futures g = s.futures g := by
    simp [Waiter.next, State.setFuture, other]
  have release : ((Waiter.next s (.releaseSteal f)).futures f).release =
      .draining (s.futures f).waiters := by
    simp [Waiter.next, State.setFuture]
  have complete : (Waiter.next s (.releaseSteal f)).complete = s.complete := rfl
  refine ⟨_, ok.steal (.releaser f) f rfl rfl
    (State.segment_setRelease complete release fun g other => by rw [others g other]) ?_ ?_ ?_ ?_
    (by simp) (fun _ _ => may.2.1)⟩
  · simp [State.segment, may.1, ReleaseFrame.segment]
  · simp [Waiter.next, State.setFuture]
  · intro g other
    rw [others g other]
    exact ⟨rfl, rfl⟩
  · intro g
    by_cases same : g = f
    · subst g
      simp [Waiter.next, State.setFuture]
    · rw [others g same]

end hands

/-- A completing call moves outside its drain. -/
theorem call (ok : Noded s spot) {k : CallId} {frame : CompleteFrame} {after : State}
    (outside : (s.complete k).segment = .none) (none : frame.segment = .none)
    (complete : after.complete = Function.update s.complete k frame)
    (waits : after.waits = s.waits) (registry : after.registry = s.registry)
    (futures : forall f, (after.futures f).waiters = (s.futures f).waiters ∧
      (after.futures f).closed = (s.futures f).closed ∧
      (after.futures f).release = (s.futures f).release)
    (readied : forall f, (s.futures f).isReady = true -> (after.futures f).isReady = true) :
    Noded after spot := by
  refine ok.publish waits registry ?_ (fun f => ⟨(futures f).1, (futures f).2.1⟩) readied
  rw [State.segment_setComplete complete fun f => (futures f).2.2, none, <- outside]
  exact Function.update_eq_self (.completer k) s.segment

theorem setFuture_kept (s : State) (f : FutureId) (cell : FutureCell)
    (waiters : cell.waiters = (s.futures f).waiters) (closed : cell.closed = (s.futures f).closed)
    (release : cell.release = (s.futures f).release)
    (ready : (s.futures f).isReady = true -> cell.isReady = true) :
    (forall g, (Function.update s.futures f cell g).waiters = (s.futures g).waiters ∧
      (Function.update s.futures f cell g).closed = (s.futures g).closed ∧
      (Function.update s.futures f cell g).release = (s.futures g).release) ∧
    forall g, (s.futures g).isReady = true -> (Function.update s.futures f cell g).isReady = true := by
  constructor
  · intro g
    by_cases same : g = f
    · subst g
      rw [Function.update_self]
      exact ⟨waiters, closed, release⟩
    · rw [Function.update_of_ne same]
      exact ⟨rfl, rfl, rfl⟩
  · intro g
    by_cases same : g = f
    · subst g
      rw [Function.update_self]
      exact ready
    · rw [Function.update_of_ne same]
      exact id

/-- A call of the wait itself. -/
theorem advance (ok : Noded s spot) (w : WaitId) {frame : WaitFrame} (moved : WaitFrame)
    {after : State} (here : (s.waits w).frame = frame)
    (waits : after.waits = Function.update s.waits w { s.waits w with frame := moved })
    (futures : after.futures = s.futures)
    (complete : after.complete = s.complete) (registry : after.registry = s.registry)
    (link : moved.link = frame.link ∨ frame.link ≠ .own ∧ moved.link = .either)
    (ownRef : moved.ownRef = frame.ownRef)
    (woken : (spot w).linked = true -> moved.woken = frame.woken) (hasFd : moved.hasFd = false)
    (other : moved ≠ .registering ∧ frame ≠ .registering)
    (flight : frame.inFlight = true) : Noded after spot := by
  refine ok.move w _ waits futures complete registry ?_ rfl rfl (fun _ => by rw [here]; exact flight)
    Or.inl
  intro node
  subst frame
  exact node.advance moved link ownRef woken hasFd other

theorem unregister (ok : Noded s spot) (reached : machine.Reachable s) {w : WaitId}
    (may : enabled s (.waitUnregister w)) : Noded (Waiter.next s (.waitUnregister w)) spot := by
  have registry := reachable_registry reached
  rcases Cancellation.reachable_consistent registry with ⟨_, _, _, consistent⟩
  have here : (s.waits w).frame = .unregistering := may.1
  have released (v : WaitId) := Cancellation.released_next registry may.2 v
  simp only [reduceCtorEq, if_false, Nat.add_zero] at released
  have flags (t : TokenId) := fun set => @Cancellation.flag_next _ _ _ _ consistent _ may.2 t set
  rw [<- Function.update_eq_self w spot]
  refine ok.work w { s.waits w with frame := .awaiting } (spot w) rfl (fun f => ⟨rfl, rfl⟩)
    (fun f => id) (fun v _ => released v) flags ?_ ?_ (Or.inl rfl) Iff.rfl
    (fun _ => Or.inl (by rw [here]; rfl)) (Or.inr rfl) ?_
  · rw [Function.update_eq_self]
    exact ok.drains
  · have node := (ok.nodes w).advance .awaiting (by rw [here]; exact Or.inl rfl) (by rw [here]; rfl)
      (by rw [here]; exact fun _ => rfl) rfl (by rw [here]; simp)
    rw [<- released w] at node
    exact node
  · intro now
    rcases ok.seen w now with ready | ⟨t, mine, cancelled⟩
    · exact Or.inl ready
    · exact Or.inr ⟨t, mine, flags t cancelled⟩

theorem start (ok : Noded s spot) {w : WaitId} {agent : Agent} {f : FutureId}
    {token : Option TokenId} (may : enabled s (.waitStart w agent f token)) :
    Noded (Waiter.next s (.waitStart w agent f token)) spot := by
  have node := ok.nodes w
  have unlinked := node.unlinked may.1 (Or.inl rfl)
  have segments : (Waiter.next s (.waitStart w agent f token)).segment = s.segment := by
    funext who
    cases who <;> simp [State.segment, Waiter.next, State.setWait]
  rw [<- Function.update_eq_self w spot]
  refine ok.work w _ (spot w) (State.waits_setStatus _ _ _) ?_ ?_ ?_ ?_ ?_
    (node.start may.1 agent f token _) (Or.inr unlinked) Iff.rfl (fun _ => Or.inr unlinked)
    (Or.inr rfl) ?_
  · simp [Waiter.next, State.setWait]
  · simp [Waiter.next, State.setWait]
  · simp [Waiter.next, State.setWait]
  · simp [Waiter.next, State.setWait]
  · rw [Function.update_eq_self, segments]
    exact ok.drains
  · intro claimed
    have free := node.fresh unlinked
    exact absurd claimed (by simp [free])

/-- The wait gets its node, or the push is refused. -/
theorem outside (ok : Noded s spot) {w : WaitId} {frame : WaitFrame}
    (here : (s.waits w).frame = frame) (early : frame.link = .unallocated ∨ frame.link = .own)
    (flight : frame.inFlight = true) (entry : Wait) (phase : Spot)
    (unlinked : phase.linked = false) (future : entry.future = (s.waits w).future)
    (new : NodeOk (spot w) (s.waits w) (s.registry.registrations w).released ->
      NodeOk phase entry (s.registry.registrations w).released) :
    Noded (s.setWait w entry) (Function.update spot w phase) := by
  have node := ok.nodes w
  have before := node.unlinked here early
  have apart {at_ : Spot} (free : at_.linked = false) :
      at_.place = .outside ∧ at_ ≠ .listed ∧ at_.holder = none := by
    cases at_ <;> first | cases free; done | exact ⟨rfl, by simp, rfl⟩
  have places : phase.place = (spot w).place := by
    rw [(apart unlinked).1, (apart before).1]
  refine ok.work w entry phase rfl (fun f => ⟨rfl, rfl⟩) (fun f => id) (fun _ _ => rfl) (fun _ => id)
    ?_ (new node) (Or.inl future) ?_ (fun _ => Or.inl (by rw [here]; exact flight))
    (Or.inl (apart unlinked).2.2) ?_
  · rw [view_update_same Spot.place spot places]
    exact ok.drains
  · simp [(apart unlinked).2.1, (apart before).2.1]
  · intro claimed
    have free := (new node).fresh unlinked
    exact absurd claimed (by simp [free])

theorem next (ok : Noded s spot) (queued : Queued s) (reached : machine.Reachable s)
    {event : Event} (may : enabled s event) : Exists (Noded (Waiter.next s event)) := by
  have seated := reachable_seated reached
  have hooked := reachable_hooked reached
  have completing := reachable_completing reached
  cases event with
  | registry inner => exact ⟨spot, ok.registryStep reached may.1⟩
  | waitStart w agent f token => exact ⟨spot, ok.start may⟩
  | waitCheckToken w t =>
      have unlinked := (ok.nodes w).unlinked may.1 (Or.inl rfl)
      simp only [Waiter.next]
      split
      · exact ⟨spot, ok.advance w _ may.1 (State.waits_finish s w _) (by simp) (by simp) (by simp)
          (Or.inr ⟨by simp [WaitFrame.link], rfl⟩) rfl (by simp [unlinked]) rfl (by simp) rfl⟩
      · exact ⟨spot, ok.advance w .checkingState may.1 rfl rfl rfl rfl (Or.inl rfl) rfl
          (fun _ => rfl) rfl (by simp) rfl⟩
  | waitCheckState w =>
      have unlinked := (ok.nodes w).unlinked may (Or.inl rfl)
      simp only [Waiter.next]
      split
      · exact ⟨spot, ok.advance w .reading may rfl rfl rfl rfl
          (Or.inr ⟨by simp [WaitFrame.link], rfl⟩) rfl (by simp [unlinked]) rfl (by simp) rfl⟩
      · exact ⟨_, ok.outside may (Or.inl rfl) rfl _ .own rfl rfl fun node => node.allocate may⟩
  | waitPush w =>
      simp only [Waiter.next]
      split
      · exact ⟨_, ok.outside may (Or.inr rfl) rfl _ .refused rfl rfl fun node => node.refuse may _⟩
      · exact ⟨_, ok.push may (by simp_all) rfl rfl rfl rfl⟩
  | waitRetain w =>
      have here : (s.waits w).frame = .retaining := may
      have token := (hooked w).token here rfl
      have fits := (hooked w).fits ⟨by simp [here], token⟩
      rw [here] at fits
      exact ⟨spot, ok.move w _ rfl rfl rfl rfl
        (fun node => node.retain here fits.1 (unreleased reached fits.2.1)) rfl rfl
        (fun _ => by rw [here]; rfl) Or.inl⟩
  | waitRegistered w =>
      have here : (s.waits w).frame = .registering := may.1
      exact ⟨spot, ok.move w _ rfl rfl rfl rfl (fun node => node.register here) rfl rfl
        (fun _ => by rw [here]; rfl) Or.inl⟩
  | waitPark w =>
      have here : (s.waits w).frame = .parking := may
      exact ⟨spot, ok.move w _ (State.waits_park s w) (by simp [Waiter.next]) (by simp [Waiter.next])
        (by simp [Waiter.next]) (fun node => node.park here) rfl rfl (fun _ => by rw [here]; rfl)
        Or.inl⟩
  | waitRead w =>
      have here : (s.waits w).frame = .parked := may.1
      exact ⟨spot, ok.move w _ rfl rfl rfl rfl (fun node => node.read here may.2.1 may.2.2) rfl rfl
        (fun _ => by rw [here]; rfl) Or.inl⟩
  | waitClose w =>
      have here : (s.waits w).frame = .closing := may
      exact ⟨spot, ok.move w _ rfl rfl rfl rfl (fun node => node.awake (Or.inl here) _ _) rfl rfl
        (fun _ => by rw [here]; rfl) Or.inl⟩
  | waitUnregister w => exact ⟨spot, ok.unregister reached may⟩
  | waitUnregistered w won =>
      exact ⟨spot, ok.advance w .releasing may.1 rfl rfl rfl rfl (Or.inl rfl) rfl (fun _ => rfl) rfl
        (by simp) rfl⟩
  | waitRelease w =>
      have here : (s.waits w).frame = .releasing := may
      exact ⟨spot, ok.move w _ rfl rfl rfl rfl (fun node => node.release here) rfl rfl
        (fun _ => by rw [here]; rfl) Or.inl⟩
  | waitRecheck w t =>
      simp only [Waiter.next]
      split
      · exact ⟨spot, ok.advance w _ may.1 (State.waits_finish s w _) (by simp) (by simp) (by simp)
          (Or.inr ⟨by simp [WaitFrame.link], rfl⟩) rfl (fun _ => rfl) rfl (by simp) rfl⟩
      · exact ⟨spot, ok.advance w .reading may.1 rfl rfl rfl rfl
          (Or.inr ⟨by simp [WaitFrame.link], rfl⟩) rfl (fun _ => rfl) rfl (by simp) rfl⟩
  | waitReturn w =>
      exact ⟨spot, ok.advance w _ may (State.waits_finish s w _) (by simp [Waiter.next])
        (by simp [Waiter.next]) (by simp [Waiter.next]) (Or.inl rfl) rfl (fun _ => rfl) rfl
        (by simp) rfl⟩
  | callbackClaim w =>
      have here : (s.waits w).callback = .entered := may
      have due : s.Due (s.waits w) := Or.inr (called_token reached (by simp [here]))
      simp only [Waiter.next]
      split
      · exact ⟨spot, ok.move w _ rfl rfl rfl rfl (fun node => node.callbackLost here (by simp_all)) rfl rfl id
          Or.inl⟩
      · exact ⟨spot, ok.move w _ rfl rfl rfl rfl
          (fun node => node.callbackClaim here (by simp_all)) rfl rfl id fun _ => Or.inr due⟩
  | callbackWake w =>
      have here : (s.waits w).callback = .waking := may
      have same := (s.waits w).callbackWoken_calls
      have due : s.Due (s.waits w) := Or.inr (called_token reached (by simp [here]))
      refine ⟨spot, ok.move w { (s.waits w).callbackWoken with callback := .done } ?_ ?_ ?_ ?_
        (fun node => node.callbackWake here) same.2.2.2.2.2 same.2.2.2.1 ?_ fun _ => Or.inr due⟩
      · simp [Waiter.next, State.setWait]
      · simp [Waiter.next, State.setWait]
      · simp [Waiter.next, State.setWait]
      · simp [Waiter.next, State.setWait]
      · rw [same.2.1]
        exact id
  | completeEnter k f r =>
      have here : (s.complete k).segment = .none := by
        rw [show s.complete k = _ from may.1]
        rfl
      exact ⟨spot, ok.call here rfl rfl rfl rfl (fun _ => ⟨rfl, rfl, rfl⟩) fun _ => id⟩
  | completeExchange k f r =>
      have here : (s.complete k).segment = .none := by
        rw [show s.complete k = _ from may]
        rfl
      simp only [Waiter.next]
      split
      · exact ⟨spot, ok.call here rfl rfl rfl rfl (fun _ => ⟨rfl, rfl, rfl⟩) fun _ => id⟩
      · have kept := setFuture_kept s f { s.futures f with isCompleted := true } rfl rfl rfl id
        exact ⟨spot, ok.call here rfl rfl rfl rfl kept.1 kept.2⟩
  | completeWrite k f r =>
      have here : (s.complete k).segment = .none := by
        rw [show s.complete k = _ from may]
        rfl
      have kept := setFuture_kept s f { s.futures f with result := r } rfl rfl rfl id
      exact ⟨spot, ok.call here rfl rfl rfl rfl kept.1 kept.2⟩
  | completeReady k f =>
      have here : (s.complete k).segment = .none := by
        rw [show s.complete k = _ from may]
        rfl
      have kept := setFuture_kept s f { s.futures f with isReady := true } rfl rfl rfl fun _ => rfl
      exact ⟨spot, ok.call here rfl rfl rfl rfl kept.1 kept.2⟩
  | completeClose k f => exact ok.completeClose completing may
  | completeClaim k f w rest => exact ok.completeClaim may
  | completeWake k f w rest => exact ok.completeWake may
  | completeRelease k f w rest => exact ok.completeRelease may
  | completeReturn k f =>
      have here : (s.complete k).segment = .none := by
        rw [show s.complete k = _ from may]
        rfl
      exact ⟨spot, ok.call here rfl rfl rfl rfl (fun _ => ⟨rfl, rfl, rfl⟩) fun _ => id⟩
  | releaseSteal f => exact ok.releaseSteal may
  | releaseClose f w rest => exact ok.releaseClose may
  | releaseDrop f w rest => exact ok.releaseDrop may
  | releaseReturn f =>
      have here : (s.futures f).release = .draining [] := may
      have kept := @cells_kept f s .returned
      have segments : (Waiter.next s (.releaseReturn f)).segment = s.segment := by
        have moved : (Waiter.next s (.releaseReturn f)).segment =
            Function.update s.segment (.releaser f) ReleaseFrame.returned.segment :=
          segment_release rfl rfl
        have same : ReleaseFrame.returned.segment = s.segment (.releaser f) := by
          simp only [State.segment, here]
          rfl
        rw [moved, same, Function.update_eq_self]
      exact ⟨spot, ok.publish rfl rfl segments (fun g => ⟨(kept g).1, (kept g).2.1⟩)
        fun g ready => (kept g).2.2.trans ready⟩
  | workerResume S c w rest =>
      have suspended := (queued.head seated may).2
      have pending := (queued.head seated may).1
      have here := WaitFrame.seat_parked.mp (seated.suspended c w suspended).2
      simp only [Waiter.next, State.resume, suspended]
      refine ⟨spot, ok.move w _ rfl rfl rfl rfl ?_ rfl rfl (fun _ => by rw [here]; rfl) Or.inl⟩
      exact fun node => node.awake (Or.inr ⟨here, pending.2.1⟩) _ _
  | spawn c S => exact ⟨spot, ok.publish rfl rfl rfl (fun _ => ⟨rfl, rfl⟩) fun _ => id⟩
  | workerSpawn S c rest => exact ⟨spot, ok.publish rfl rfl rfl (fun _ => ⟨rfl, rfl⟩) fun _ => id⟩
  | coroutineExit c => exact ⟨spot, ok.publish rfl rfl rfl (fun _ => ⟨rfl, rfl⟩) fun _ => id⟩

end Noded

theorem reachable_noded {s : State} (reached : machine.Reachable s) :
    Queued s ∧ Exists (Noded s) := by
  refine reached.invariant (fun s => Queued s ∧ Exists (Noded s)) ?_ ?_
  · intro s initial
    rw [show s = Waiter.start from initial]
    refine ⟨?_, fun _ => .absent, ?_⟩
    · intro S c w
      simp [Waiter.start, Wait.Pending]
    · constructor
      · intro w
        constructor <;> simp [Waiter.start, WaitFrame.link, WaitFrame.hasFd, Spot.wakes, Spot.linked,
          Spot.settled]
      · simp [Waiter.start]
      · simp [Waiter.start]
      · simp [Waiter.start]
      · constructor <;> intro who <;> cases who <;>
          simp [State.segment, Waiter.start, CompleteFrame.segment, ReleaseFrame.segment,
            Segment.none, Spot.place]
      · simp [Spot.holder]
      · simp [Spot.holder]
      · simp [Waiter.start]
  · intro s event reached ok may
    rcases ok with ⟨queued, spot, noded⟩
    refine ⟨queued.next (reachable_seated reached) noded.nodes ?_ may, noded.next queued reached may⟩
    intro k f w rest here
    rw [noded.waking_completer here]
    rfl

end Waiter
end UfsrvRx
