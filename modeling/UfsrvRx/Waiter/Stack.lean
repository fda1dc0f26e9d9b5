import UfsrvRx.Waiter.Queue

namespace UfsrvRx
namespace Waiter

open Transition

/-!
# Stacks of waiters

The nodes on the stacks, in the hands of completing calls and of last releases,
and the waits they belong to.
-/

/-- What the drain of a completing call has in its hands. -/
@[grind =] def CompleteFrame.segment : CompleteFrame -> Segment WaitId
  | draining _ rest => ⟨rest, none, none⟩
  | waking _ wait rest => ⟨rest, some wait, none⟩
  | releasing _ wait rest => ⟨rest, none, some wait⟩
  | idle | entered _ _ | writing _ _ | storing _ | closing _ | returned _ => .none

/-- What the drain of a last release has in its hands. -/
@[grind =] def ReleaseFrame.segment : ReleaseFrame -> Segment WaitId
  | draining rest => ⟨rest, none, none⟩
  | dropping wait rest => ⟨rest, none, some wait⟩
  | idle | returned => .none

namespace State

def segment (s : State) : Drainer -> Segment WaitId
  | .completer call => (s.complete call).segment
  | .releaser future => (s.futures future).release.segment

/-- The future of the wait is READY, or its token is cancelled. -/
def Due (s : State) (wait : Wait) : Prop :=
  (s.futures wait.future).isReady = true ∨ Exists fun t => wait.token = some t ∧
    (s.registry.tokens t).token.isCancelled = true

theorem segment_setComplete {s after : State} {k : CallId} {frame : CompleteFrame}
    (complete : after.complete = Function.update s.complete k frame)
    (release : forall f, (after.futures f).release = (s.futures f).release) :
    after.segment = Function.update s.segment (.completer k) frame.segment := by
  funext who
  cases who with
  | completer j =>
      simp only [segment, complete]
      by_cases mine : j = k
      · subst j
        simp
      · have apart : Drainer.completer j ≠ .completer k := by simpa using mine
        rw [Function.update_of_ne mine, Function.update_of_ne apart]
        rfl
  | releaser f => simp [segment, release]

theorem segment_setRelease {s after : State} {f : FutureId} {frame : ReleaseFrame}
    (complete : after.complete = s.complete) (mine : (after.futures f).release = frame)
    (others : forall g, g ≠ f -> (after.futures g).release = (s.futures g).release) :
    after.segment = Function.update s.segment (.releaser f) frame.segment := by
  funext who
  cases who with
  | completer k => simp [segment, complete]
  | releaser g =>
      simp only [segment]
      by_cases same : g = f
      · subst g
        simp [mine]
      · have apart : Drainer.releaser g ≠ .releaser f := by simpa using same
        rw [others g same, Function.update_of_ne apart]
        rfl

end State

/-- The state of all stacks and drains described by the spots of the nodes. -/
structure Noded (s : State) (spot : WaitId -> Spot) : Prop where
  nodes : forall w, NodeOk (spot w) (s.waits w) (s.registry.registrations w).released
  nodup : forall f, (s.futures f).waiters.Nodup
  listed : forall f w, w ∈ (s.futures f).waiters ↔ spot w = .listed ∧ (s.waits w).future = f
  empty : forall f, (s.futures f).closed = true -> (s.futures f).waiters = []
  drains : Drains s.segment (fun w => (spot w).place)
  ready : forall w k, (spot w).holder = some (.completer k) ->
    (s.futures (s.waits w).future).isReady = true
  ended : forall w f, (spot w).holder = some (.releaser f) ->
    (s.waits w).frame.inFlight = false
  seen : forall w, (s.waits w).claimed = true -> s.Due (s.waits w)

namespace Noded

variable {s : State} {spot : WaitId -> Spot}

/-- One wait and its node move, and the drains with them. -/
theorem work (ok : Noded s spot) (w : WaitId) (entry : Wait) (phase : Spot) {after : State}
    (waits : after.waits = Function.update s.waits w entry)
    (piles : forall f, (after.futures f).waiters = (s.futures f).waiters ∧
      (after.futures f).closed = (s.futures f).closed)
    (readied : forall f, (s.futures f).isReady = true -> (after.futures f).isReady = true)
    (released : forall v, v ≠ w -> (after.registry.registrations v).released =
      (s.registry.registrations v).released)
    (flags : forall t, (s.registry.tokens t).token.isCancelled = true ->
      (after.registry.tokens t).token.isCancelled = true)
    (drains : Drains after.segment (fun v => (Function.update spot w phase v).place))
    (new : NodeOk phase entry (after.registry.registrations w).released)
    (future : entry.future = (s.waits w).future ∨ (spot w).linked = false)
    (listed : phase = .listed ↔ spot w = .listed)
    (flight : entry.frame.inFlight = true -> (s.waits w).frame.inFlight = true ∨
      (spot w).linked = false)
    (holder : phase.holder = none ∨ phase.holder = (spot w).holder)
    (seen : entry.claimed = true -> after.Due entry) :
    Noded after (Function.update spot w phase) := by
  have linked (drainer : Drainer) (held : (spot w).holder = some drainer) :
      (spot w).linked = true := by
    cases here : spot w <;> simp_all [Spot.holder, Spot.linked]
  constructor
  · intro v
    rw [waits]
    by_cases mine : v = w
    · subst v
      rw [Function.update_self, Function.update_self]
      exact new
    · rw [Function.update_of_ne mine, Function.update_of_ne mine, released v mine]
      exact ok.nodes v
  · intro f
    rw [(piles f).1]
    exact ok.nodup f
  · intro f v
    have before := ok.listed f v
    rw [(piles f).1, waits]
    by_cases mine : v = w
    · subst v
      rw [Function.update_self, Function.update_self, before, listed]
      rcases future with same | unlinked
      · rw [same]
      · have unlisted : spot w ≠ .listed := by
          intro here
          simp [here, Spot.linked] at unlinked
        simp [unlisted]
    · rw [Function.update_of_ne mine, Function.update_of_ne mine]
      exact before
  · intro f
    rw [(piles f).1, (piles f).2]
    exact ok.empty f
  · exact drains
  · intro v k held
    rw [waits]
    by_cases mine : v = w
    · subst v
      rw [Function.update_self] at held ⊢
      have before : (spot w).holder = some (.completer k) := by
        rcases holder with none | same
        · rw [none] at held
          cases held
        · rw [<- same]
          exact held
      rcases future with same | unlinked
      · rw [same]
        exact readied _ (ok.ready w k before)
      · rw [linked _ before] at unlinked
        cases unlinked
    · rw [Function.update_of_ne mine] at held ⊢
      exact readied _ (ok.ready v k held)
  · intro v f held
    rw [waits]
    by_cases mine : v = w
    · subst v
      rw [Function.update_self] at held ⊢
      have before : (spot w).holder = some (.releaser f) := by
        rcases holder with none | same
        · rw [none] at held
          cases held
        · rw [<- same]
          exact held
      by_contra flying
      rcases flight (by simpa using flying) with old | unlinked
      · rw [ok.ended w f before] at old
        cases old
      · rw [linked _ before] at unlinked
        cases unlinked
    · rw [Function.update_of_ne mine] at held ⊢
      exact ok.ended v f held
  · intro v claimed
    rw [waits] at claimed ⊢
    by_cases mine : v = w
    · subst v
      rw [Function.update_self] at claimed ⊢
      exact seen claimed
    · rw [Function.update_of_ne mine] at claimed ⊢
      rcases ok.seen v claimed with ready | ⟨t, token, cancelled⟩
      · exact Or.inl (readied _ ready)
      · exact Or.inr ⟨t, token, flags t cancelled⟩

/-- One wait moves, its node stays where it is. -/
theorem move (ok : Noded s spot) (w : WaitId) (entry : Wait) {after : State}
    (waits : after.waits = Function.update s.waits w entry) (futures : after.futures = s.futures)
    (complete : after.complete = s.complete) (registry : after.registry = s.registry)
    (new : NodeOk (spot w) (s.waits w) (s.registry.registrations w).released ->
      NodeOk (spot w) entry (s.registry.registrations w).released)
    (future : entry.future = (s.waits w).future) (token : entry.token = (s.waits w).token)
    (flight : entry.frame.inFlight = true -> (s.waits w).frame.inFlight = true)
    (claimed : entry.claimed = true -> (s.waits w).claimed = true ∨ s.Due (s.waits w)) :
    Noded after spot := by
  have segments : after.segment = s.segment := by
    funext who
    cases who <;> simp [State.segment, complete, futures]
  rw [<- Function.update_eq_self w spot]
  refine ok.work w entry (spot w) waits (fun f => by simp [futures]) (fun f => by simp [futures])
    (fun v _ => by rw [registry]) (fun t => by simp [registry]) ?_ ?_ (Or.inl future) Iff.rfl
    (fun now => Or.inl (flight now)) (Or.inr rfl) ?_
  · rw [segments, Function.update_eq_self]
    exact ok.drains
  · rw [registry]
    exact new (ok.nodes w)
  · intro now
    have due : s.Due (s.waits w) := by
      rcases claimed now with before | due
      · exact ok.seen w before
      · exact due
    simpa only [State.Due, futures, registry, future, token] using due

/-- No wait moves and no stack changes. -/
theorem frame (ok : Noded s spot) {after : State} (waits : after.waits = s.waits)
    (segments : after.segment = s.segment)
    (piles : forall f, (after.futures f).waiters = (s.futures f).waiters ∧
      (after.futures f).closed = (s.futures f).closed)
    (readied : forall f, (s.futures f).isReady = true -> (after.futures f).isReady = true)
    (released : forall v, NodeOk (spot v) (s.waits v) (after.registry.registrations v).released)
    (flags : forall t, (s.registry.tokens t).token.isCancelled = true ->
      (after.registry.tokens t).token.isCancelled = true) : Noded after spot := by
  constructor
  · intro v
    rw [waits]
    exact released v
  · intro f
    rw [(piles f).1]
    exact ok.nodup f
  · intro f v
    rw [(piles f).1, waits]
    exact ok.listed f v
  · intro f
    rw [(piles f).1, (piles f).2]
    exact ok.empty f
  · rw [segments]
    exact ok.drains
  · intro v k held
    rw [waits]
    exact readied _ (ok.ready v k held)
  · rw [waits]
    exact ok.ended
  · intro v claimed
    rw [waits] at claimed ⊢
    rcases ok.seen v claimed with ready | ⟨t, token, cancelled⟩
    · exact Or.inl (readied _ ready)
    · exact Or.inr ⟨t, token, flags t cancelled⟩

/-- Only flags and results of futures and calls without waiters in hand change. -/
theorem publish (ok : Noded s spot) {after : State} (waits : after.waits = s.waits)
    (registry : after.registry = s.registry) (segments : after.segment = s.segment)
    (piles : forall f, (after.futures f).waiters = (s.futures f).waiters ∧
      (after.futures f).closed = (s.futures f).closed)
    (readied : forall f, (s.futures f).isReady = true -> (after.futures f).isReady = true) :
    Noded after spot :=
  ok.frame waits segments piles readied (fun v => by rw [registry]; exact ok.nodes v)
    (fun t => by simp [registry])

/-- A drainer with empty hands takes the whole stack of a future. -/
theorem steal (ok : Noded s spot) (who : Drainer) (f : FutureId) {after : State}
    (waits : after.waits = s.waits) (registry : after.registry = s.registry)
    (segments : after.segment =
      Function.update s.segment who ⟨(s.futures f).waiters, none, none⟩)
    (free : s.segment who = .none) (empty : (after.futures f).waiters = [])
    (others : forall g, g ≠ f -> (after.futures g).waiters = (s.futures g).waiters ∧
      (after.futures g).closed = (s.futures g).closed)
    (readied : forall g, (after.futures g).isReady = (s.futures g).isReady)
    (ready : forall k, who = .completer k -> (s.futures f).isReady = true)
    (ended : forall g, who = .releaser g -> forall w, (s.waits w).future = f ->
      (s.waits w).frame.inFlight = false) :
    Noded after (fun w => if w ∈ (s.futures f).waiters then .stolen who else spot w) := by
  have listed (w : WaitId) : w ∈ (s.futures f).waiters ↔
      spot w = .listed ∧ (s.waits w).future = f := ok.listed f w
  constructor
  · intro w
    rw [waits, registry]
    have node := ok.nodes w
    split
    next here =>
      rw [((listed w).mp here).1] at node
      exact node.steal who
    next => exact node
  · intro g
    by_cases same : g = f
    · subst g
      rw [empty]
      exact List.nodup_nil
    · rw [(others g same).1]
      exact ok.nodup g
  · intro g w
    have before := ok.listed g w
    have here := listed w
    rw [waits]
    by_cases same : g = f
    · subst g
      rw [empty]
      grind
    · rw [(others g same).1]
      grind
  · intro g
    by_cases same : g = f
    · subst g
      exact fun _ => empty
    · rw [(others g same).1, (others g same).2]
      exact ok.empty g
  · have outside (w : WaitId) (here : w ∈ (s.futures f).waiters) : (spot w).place = .outside := by
      rw [((listed w).mp here).1]
      rfl
    have stolen := ok.drains.steal who free (ok.nodup f) outside
    rw [segments]
    have places : (fun w => (if w ∈ (s.futures f).waiters then Spot.stolen who else spot w).place) =
        fun w => if w ∈ (s.futures f).waiters then Place.stolen who else (spot w).place := by
      funext w
      split <;> rfl
    rw [places]
    exact stolen
  · intro w k
    have before := ok.ready w k
    have here := listed w
    rw [waits, readied]
    split
    next mine =>
      intro held
      rw [(here.mp mine).2]
      exact ready k (by simpa [Spot.holder] using held)
    next => exact before
  · intro w g
    have before := ok.ended w g
    have here := listed w
    rw [waits]
    split
    next mine =>
      intro held
      exact ended g (by simpa [Spot.holder] using held) w (here.mp mine).2
    next => exact before
  · intro w
    rw [waits]
    intro claimed
    simpa only [State.Due, readied, registry] using ok.seen w claimed

/-- The wait pushes its node on the stack of its future. -/
theorem push (ok : Noded s spot) {w : WaitId} (here : (s.waits w).frame = .allocated)
    (open_ : (s.futures (s.waits w).future).closed = false) {after : State}
    (waits : after.waits = Function.update s.waits w
      { s.waits w with frame := if (s.waits w).token = none then .parking else .retaining })
    (futures : after.futures = Function.update s.futures (s.waits w).future
      { s.futures (s.waits w).future with
        waiters := w :: (s.futures (s.waits w).future).waiters })
    (complete : after.complete = s.complete) (registry : after.registry = s.registry) :
    Noded after (Function.update spot w .listed) := by
  have own : spot w = .own := (ok.nodes w).own.mp (by rw [here]; rfl)
  have unlisted (f : FutureId) : w ∉ (s.futures f).waiters := by
    intro mem
    simp [((ok.listed f w).mp mem).1] at own
  have segments : after.segment = s.segment := by
    funext who
    cases who with
    | completer k => simp [State.segment, complete]
    | releaser f =>
        simp only [State.segment, futures]
        by_cases mine : f = (s.waits w).future
        · rw [mine, Function.update_self]
        · rw [Function.update_of_ne mine]
  have readied (f : FutureId) : (after.futures f).isReady = (s.futures f).isReady := by
    rw [futures]
    by_cases mine : f = (s.waits w).future
    · rw [mine, Function.update_self]
    · rw [Function.update_of_ne mine]
  constructor
  · intro v
    rw [waits, registry]
    by_cases mine : v = w
    · subst v
      rw [Function.update_self, Function.update_self]
      exact (ok.nodes w).push here
    · rw [Function.update_of_ne mine, Function.update_of_ne mine]
      exact ok.nodes v
  · intro f
    have before := ok.nodup f
    have := unlisted f
    rw [futures]
    by_cases mine : f = (s.waits w).future
    · subst f
      rw [Function.update_self]
      exact List.nodup_cons.mpr ⟨this, before⟩
    · rw [Function.update_of_ne mine]
      exact before
  · intro f v
    have before := ok.listed f v
    rw [futures, waits]
    grind
  · intro f
    have before := ok.empty f
    rw [futures]
    grind
  · have place : (spot w).place = Spot.listed.place := by
      rw [own]
      rfl
    rw [segments, view_update_same Spot.place spot place.symm]
    exact ok.drains
  · intro v k
    have before := ok.ready v k
    rw [readied, waits]
    grind
  · intro v f
    have before := ok.ended v f
    rw [waits]
    grind
  · intro v
    have before := ok.seen v
    rw [waits]
    by_cases mine : v = w
    · subst v
      rw [Function.update_self]
      simpa only [State.Due, readied, registry] using before
    · rw [Function.update_of_ne mine]
      simpa only [State.Due, readied, registry] using before

end Noded

end Waiter
end UfsrvRx
