import UfsrvRx.Future.Completion
import UfsrvRx.Transition.Drain

namespace UfsrvRx
namespace Future

open Transition

/-!
# Delivery of continuations

A continuation reaches its callback on one of three ways: the future is ready
when it is registered, it is pushed and found by the drain, or the push is
refused because the drain has closed the stack.  Each registration is described
by one phase of an automaton with these three branches, as the registrations of
the registry are.
-/

/-- The phases of a continuation. -/
inductive Way
  | absent
  | failed
  | ready
  | readyRunning
  | readyRan
  | allocated
  | listed
  | stolen (who : Completer)
  | running (who : Completer)
  | ran (who : Completer)
  | released
  | refused
  | refusedRunning
  | refusedRan
  | discarded
deriving DecidableEq, Repr

namespace Way

@[grind =] def started : Way -> Nat
  | readyRunning | readyRan | running _ | ran _ | released | refusedRunning | refusedRan
  | discarded => 1
  | absent | failed | ready | allocated | listed | stolen _ | refused => 0

@[grind =] def finished : Way -> Nat
  | readyRan | ran _ | released | refusedRan | discarded => 1
  | absent | failed | ready | readyRunning | allocated | listed | stolen _ | running _ | refused
  | refusedRunning => 0

/-- There is a node for the continuation. -/
@[grind =] def node : Way -> Bool
  | allocated | listed | stolen _ | running _ | ran _ | released | refused | refusedRunning
  | refusedRan | discarded => true
  | absent | failed | ready | readyRunning | readyRan => false

/-- The node was pushed. -/
@[grind =] def linked : Way -> Bool
  | listed | stolen _ | running _ | ran _ | released => true
  | absent | failed | ready | readyRunning | readyRan | allocated | refused | refusedRunning
  | refusedRan | discarded => false

/-- Where the registering call stands, as long as the node is its own. -/
@[grind =] def frame : Way -> ThenFrame
  | absent => .idle
  | failed => .returned false
  | ready => .calling .ready
  | readyRunning => .running .ready
  | allocated => .allocated
  | listed | stolen _ | running _ | ran _ | released => .linked
  | refused => .calling .refused
  | refusedRunning => .running .refused
  | refusedRan => .discarding
  | readyRan | discarded => .returned true

@[grind =] def claimed : Way -> Bool
  | running _ | ran _ | released => true
  | absent | failed | ready | readyRunning | readyRan | allocated | listed | stolen _ | refused
  | refusedRunning | refusedRan | discarded => false

/-- The reference of the stack, which the drain takes over. -/
@[grind =] def stackRef : Way -> Int
  | allocated | listed | stolen _ | running _ | ran _ | refused | refusedRunning
  | refusedRan => 1
  | absent | failed | ready | readyRunning | readyRan | released | discarded => 0

/-- Only a completed future can have brought the continuation here. -/
@[grind =] def seen : Way -> Bool
  | ready | readyRunning | readyRan | stolen _ | running _ | ran _ | released | refused
  | refusedRunning | refusedRan | discarded => true
  | absent | failed | allocated | listed => false

theorem node_of_linked {way : Way} (pushed : way.linked = true) :
    way.node = true ∧ way ≠ .discarded ∧ 0 ≤ way.stackRef := by
  cases way <;> simp_all [linked, node, stackRef]

/-- Before the push the phase can be read off the registering call. -/
theorem eq_of_frame {way phase : Way} (own : way.linked = false) (unlinked : phase.linked = false)
    (same : way.frame = phase.frame) (open_ : phase.frame ≠ .returned true) : way = phase := by
  cases way <;> cases phase <;> simp_all [frame, linked]

/-- Where the node is with respect to the drains. -/
@[grind =] def place : Way -> Place Completer
  | stolen who => .stolen who
  | running who => .running who
  | ran who => .ran who
  | absent | failed | ready | readyRunning | readyRan | allocated | listed | released | refused
  | refusedRunning | refusedRan | discarded => .outside

end Way

namespace CompleteFrame

/-- What the drain of a completing call has in its hands. -/
@[grind =] def segment : CompleteFrame -> Segment ThenId
  | draining rest => ⟨rest, none, none⟩
  | running node rest => ⟨rest, some node, none⟩
  | releasing node rest => ⟨rest, none, some node⟩
  | idle | entered | writing | storing | taking | unregistering _ | awaiting _ | waking | closing
  | returned _ => .none

/-- The call has closed the stack. -/
@[grind =] def hasClosed : CompleteFrame -> Bool
  | draining _ | running _ _ | releasing _ _ => true
  | returned won => won
  | idle | entered | writing | storing | taking | unregistering _ | awaiting _ | waking
  | closing => false

theorem published_of_hasClosed {frame : CompleteFrame} (closed : frame.hasClosed = true) :
    frame.progress = .published := by
  cases frame with
  | returned won =>
      cases won with
      | true => rfl
      | false => cases closed
  | draining rest => rfl
  | running node rest => rfl
  | releasing node rest => rfl
  | _ => cases closed

end CompleteFrame

/-- How a continuation looks at each phase.  The registering call drops its own
reference after the push; either party may be the last. -/
structure ThenOk (way : Way) (entry : Continuation) : Prop where
  own : way.linked = false -> entry.frame = way.frame
  shared : way.linked = true -> entry.frame = .linked ∨ entry.frame = .returned true
  allocated : entry.allocated = way.node
  claimed : way.node = true -> entry.claimed = way.claimed
  started : entry.started = way.started
  finished : entry.finished = way.finished
  refcount : way.node = true -> entry.refcount =
    (if way = .discarded ∨ way.linked = true ∧ entry.frame = .returned true then 0 else 1) +
      way.stackRef
  freed : entry.freed = if way.node = true ∧ entry.refcount = 0 then 1 else 0

theorem ThenOk.steal {entry : Continuation} (ok : ThenOk .listed entry) (who : Completer) :
    ThenOk (.stolen who) entry := by
  cases ok
  constructor <;> grind -linarith

/-- The registering call drops its own reference after the push. -/
theorem ThenOk.drop {way : Way} {entry : Continuation} (ok : ThenOk way entry)
    (pushed : way.linked = true) (here : entry.frame = .linked) :
    ThenOk way
      { entry with
        refcount := entry.refcount - 1
        freed := entry.freed + if entry.refcount = 1 then 1 else 0
        frame := .returned true } := by
  have node := Way.node_of_linked pushed
  cases ok
  constructor <;> grind -linarith

namespace ThenOk

variable {entry : Continuation}

theorem fail (ok : ThenOk .absent entry) :
    ThenOk .failed { entry with frame := .returned false } := by
  cases ok
  constructor <;> grind -linarith

theorem ready (ok : ThenOk .absent entry) :
    ThenOk .ready { entry with frame := .calling .ready } := by
  cases ok
  constructor <;> grind -linarith

theorem allocate (ok : ThenOk .absent entry) :
    ThenOk .allocated
      { entry with refcount := 2, claimed := false, allocated := true, frame := .allocated } := by
  cases ok
  constructor <;> grind -linarith

theorem refuse (ok : ThenOk .allocated entry) :
    ThenOk .refused { entry with frame := .calling .refused } := by
  cases ok
  constructor <;> grind -linarith

theorem callReady (ok : ThenOk .ready entry) :
    ThenOk .readyRunning
      { entry with started := entry.started + 1, frame := .running .ready } := by
  cases ok
  constructor <;> grind -linarith

theorem callRefused (ok : ThenOk .refused entry) :
    ThenOk .refusedRunning
      { entry with started := entry.started + 1, frame := .running .refused } := by
  cases ok
  constructor <;> grind -linarith

theorem returnReady (ok : ThenOk .readyRunning entry) :
    ThenOk .readyRan
      { entry with finished := entry.finished + 1, frame := .returned true } := by
  cases ok
  constructor <;> grind -linarith

theorem returnRefused (ok : ThenOk .refusedRunning entry) :
    ThenOk .refusedRan
      { entry with finished := entry.finished + 1, frame := .discarding } := by
  cases ok
  constructor <;> grind -linarith

theorem discard (ok : ThenOk .refusedRan entry) :
    ThenOk .discarded
      { entry with
        refcount := entry.refcount - 1 - 1
        freed := entry.freed + if entry.refcount - 1 = 1 then 1 else 0
        frame := .returned true } := by
  cases ok
  constructor <;> grind -linarith

end ThenOk

/-- The state of the future described by the phases of its continuations. -/
structure Delivered (s : State) (way : ThenId -> Way) : Prop where
  entries : forall n, ThenOk (way n) (s.thens n)
  nodup : s.continuations.Nodup
  listed : forall n, n ∈ s.continuations ↔ way n = .listed
  drains : Drains (fun who => (s.complete who).segment) (fun n => (way n).place)
  shut : s.closed = true ↔ Exists fun who => (s.complete who).hasClosed = true
  empty : s.closed = true -> s.continuations = []
  seen : forall n, (way n).seen = true -> s.isReady = true

namespace Delivered

variable {s : State} {way : ThenId -> Way}

/-- A completing call moves on without touching the stack. -/
theorem reframe (ok : Delivered s way) (who : Completer) (frame : CompleteFrame)
    (segment : frame.segment = (s.complete who).segment)
    (hasClosed : frame.hasClosed = (s.complete who).hasClosed) :
    Delivered (s.setComplete who frame) way := by
  have sameSegment := view_update_same CompleteFrame.segment s.complete segment
  have sameClosed := view_update_same CompleteFrame.hasClosed s.complete hasClosed
  refine { ok with drains := ?_, shut := ?_ }
  · simp only [State.setComplete, sameSegment]
    exact ok.drains
  · have shut := ok.shut
    simp only [State.setComplete]
    simpa only [congrFun sameClosed] using shut

/-- A continuation moves on, away from the stack and the drains. -/
theorem relabel (ok : Delivered s way) {node : ThenId} (phase : Way) {entry : Continuation}
    (described : ThenOk phase entry) (place : phase.place = (way node).place)
    (listed : phase = .listed ↔ way node = .listed)
    (seen : phase.seen = true -> s.isReady = true) :
    Delivered (s.setThen node entry) (Function.update way node phase) := by
  have samePlace := view_update_same Way.place way place
  refine { ok with entries := ?_, listed := ?_, drains := ?_, seen := ?_ }
  · exact forall_update ok.entries node described
  · intro n
    by_cases mine : n = node
    · subst n
      rw [Function.update_self, listed]
      exact ok.listed node
    · rw [Function.update_of_ne mine]
      exact ok.listed n
  · rw [samePlace]
    exact ok.drains
  · intro n
    by_cases mine : n = node
    · subst n
      rw [Function.update_self]
      exact seen
    · rw [Function.update_of_ne mine]
      exact ok.seen n

theorem way_of_frame (ok : Delivered s way) {n : ThenId} (phase : Way)
    (here : (s.thens n).frame = phase.frame)
    (own : phase.linked = false ∧ phase.frame ≠ .linked ∧ phase.frame ≠ .returned true) :
    way n = phase := by
  have entry := ok.entries n
  cases pushed : (way n).linked with
  | true =>
      rcases entry.shared pushed with shared | shared
      · exact absurd (here.symm.trans shared) own.2.1
      · exact absurd (here.symm.trans shared) own.2.2
  | false => exact Way.eq_of_frame pushed own.1 ((entry.own pushed).symm.trans here) own.2.2

/-- The registering call moves its own node on. -/
theorem advance (ok : Delivered s way) {node : ThenId} (before : Way) {phase : Way}
    {entry : Continuation} (here : (s.thens node).frame = before.frame)
    (own : before.linked = false ∧ before.frame ≠ .linked ∧ before.frame ≠ .returned true)
    (described : ThenOk before (s.thens node) -> ThenOk phase entry)
    (place : phase.place = before.place) (unlisted : phase ≠ .listed)
    (seen : phase.seen = true -> before.seen = true ∨ s.isReady = true) :
    Delivered (s.setThen node entry) (Function.update way node phase) := by
  have current := ok.way_of_frame _ here own
  have entryOk := ok.entries node
  rw [current] at entryOk
  refine ok.relabel _ (described entryOk) (by rw [current, place]) ?_ ?_
  · rw [current]
    simp only [unlisted, false_iff]
    rintro rfl
    cases own.1
  · intro visible
    rcases seen visible with earlier | ready
    · exact ok.seen node (by rw [current, earlier])
    · exact ready

theorem push (ok : Delivered s way) {node : ThenId} (allocated : way node = .allocated)
    (accepted : s.closed = false) :
    Delivered { s.setThen node { s.thens node with frame := .linked } with
      continuations := node :: s.continuations } (Function.update way node .listed) := by
  have entry := ok.entries node
  have samePlace := view_update_same Way.place way
    (show Way.place .listed = (way node).place by rw [allocated]; rfl)
  rw [allocated] at entry
  constructor
  · refine forall_update ok.entries node ?_
    cases entry
    constructor <;> grind -linarith
  · refine List.nodup_cons.mpr ⟨?_, ok.nodup⟩
    rw [ok.listed, allocated]
    simp
  · intro n
    have before := ok.listed n
    by_cases mine : n = node
    · subst n
      simp
    · simpa only [Function.update_of_ne mine, List.mem_cons, mine, false_or] using before
  · rw [samePlace]
    exact ok.drains
  · exact ok.shut
  · intro closed
    have impossible : s.closed = true := closed
    simp [accepted] at impossible
  · intro n
    by_cases mine : n = node
    · subst n
      simp [Way.seen]
    · rw [Function.update_of_ne mine]
      exact ok.seen n

/-- The drain steals the whole stack and closes it. -/
theorem close (ok : Delivered s way) {who : Completer} (closing : s.complete who = .closing)
    (ready : s.isReady = true) :
    Delivered { s.setComplete who (.draining s.continuations) with
      continuations := [], closed := true }
      (fun n => if n ∈ s.continuations then .stolen who else way n) := by
  have segments := view_update CompleteFrame.segment s.complete who (.draining s.continuations)
  have places : (fun n => Way.place (if n ∈ s.continuations then .stolen who else way n)) =
      fun n => if n ∈ s.continuations then .stolen who else (way n).place := by
    funext n
    split <;> rfl
  constructor
  · intro n
    by_cases inside : n ∈ s.continuations
    · have entry := ok.entries n
      rw [(ok.listed n).mp inside] at entry
      simp only [inside, if_true]
      exact entry.steal who
    · simp only [inside, if_false]
      exact ok.entries n
  · exact List.nodup_nil
  · intro n
    have before := ok.listed n
    by_cases inside : n ∈ s.continuations
    · simp [inside]
    · simpa [inside] using before
  · simp only [State.setComplete, segments, places]
    refine ok.drains.steal who (by rw [closing]; rfl) ok.nodup ?_
    intro n inside
    rw [(ok.listed n).mp inside]
    rfl
  · simp only [State.setComplete, true_iff]
    exact ⟨who, by simp [CompleteFrame.hasClosed]⟩
  · exact fun _ => rfl
  · exact fun _ _ => ready

/-- The drain works on one node. -/
theorem work (ok : Delivered s way) {who : Completer} {frame : CompleteFrame} {node : ThenId}
    {phase : Way} {entry : Continuation} (described : ThenOk phase entry)
    (drains : Drains (Function.update (fun who => (s.complete who).segment) who frame.segment)
      (Function.update (fun n => (way n).place) node phase.place))
    (hasClosed : frame.hasClosed = (s.complete who).hasClosed) (unlisted : phase ≠ .listed)
    (taken : (way node).seen = true ∧ way node ≠ .listed) :
    Delivered ((s.setThen node entry).setComplete who frame) (Function.update way node phase) := by
  have sameClosed := view_update_same CompleteFrame.hasClosed s.complete hasClosed
  constructor
  · exact forall_update ok.entries node described
  · exact ok.nodup
  · intro n
    by_cases mine : n = node
    · subst n
      have before := ok.listed node
      simp only [taken.2, iff_false] at before
      simp only [Function.update_self, unlisted, iff_false]
      exact before
    · rw [Function.update_of_ne mine]
      exact ok.listed n
  · rw [<- view_update CompleteFrame.segment, <- view_update Way.place] at drains
    exact drains
  · have shut := ok.shut
    simp only [State.setComplete, State.setThen]
    simpa only [congrFun sameClosed] using shut
  · exact ok.empty
  · intro n
    by_cases mine : n = node
    · subst n
      exact fun _ => ok.seen node taken.1
    · rw [Function.update_of_ne mine]
      exact ok.seen n

/-- The phases after an event. -/
def wayNext (s : State) (way : ThenId -> Way) : Event -> ThenId -> Way
  | .completeClose who => fun n => if n ∈ s.continuations then .stolen who else way n
  | .completeClaim who node _ => Function.update way node (.running who)
  | .completeRan who node _ => Function.update way node (.ran who)
  | .completeRelease _ node _ => Function.update way node .released
  | .thenFailed node => Function.update way node .failed
  | .thenLoad node => Function.update way node (if s.isReady then .ready else .allocated)
  | .thenPush node => Function.update way node (if s.closed then .refused else .listed)
  | .thenCall node path => Function.update way node (match path with
      | .ready => .readyRunning
      | .refused => .refusedRunning)
  | .thenCallReturned node path => Function.update way node (match path with
      | .ready => .readyRan
      | .refused => .refusedRan)
  | .thenDiscard node => Function.update way node .discarded
  | _ => way

/-- The drain claims its next node, which nobody else has claimed. -/
theorem claim (ok : Delivered s way) {who : Completer} {n : ThenId} {rest : List ThenId}
    (here : s.complete who = .draining (n :: rest)) :
    Delivered (Future.next s (.completeClaim who n rest))
      (Function.update way n (.running who)) := by
  have segment : (s.complete who).segment = ⟨n :: rest, none, none⟩ := by rw [here]; rfl
  have place := (ok.drains.pending who n).mp (by rw [segment]; exact List.mem_cons_self)
  have stolen : way n = .stolen who := by
    cases phase : way n <;> simp_all [Way.place]
  have entry := ok.entries n
  rw [stolen] at entry
  have unclaimed : (s.thens n).claimed = false := entry.claimed rfl
  simp only [Future.next, unclaimed, Bool.false_eq_true, if_false]
  refine ok.work ?_ (ok.drains.begin who segment) (by rw [here]; rfl) (by simp)
    (by simp [stolen, Way.seen])
  cases entry
  constructor <;> grind -linarith

theorem ran (ok : Delivered s way) {who : Completer} {n : ThenId} {rest : List ThenId}
    (here : s.complete who = .running n rest) :
    Delivered (Future.next s (.completeRan who n rest)) (Function.update way n (.ran who)) := by
  have segment : (s.complete who).segment = ⟨rest, some n, none⟩ := by rw [here]; rfl
  have place := (ok.drains.running who n).mp (by rw [segment])
  have running : way n = .running who := by
    cases phase : way n <;> simp_all [Way.place]
  have entry := ok.entries n
  rw [running] at entry
  refine ok.work ?_ (ok.drains.finish who segment) (by rw [here]; rfl) (by simp)
    (by simp [running, Way.seen])
  cases entry
  constructor <;> grind -linarith

theorem release (ok : Delivered s way) {who : Completer} {n : ThenId} {rest : List ThenId}
    (here : s.complete who = .releasing n rest) :
    Delivered (Future.next s (.completeRelease who n rest))
      (Function.update way n .released) := by
  have segment : (s.complete who).segment = ⟨rest, none, some n⟩ := by rw [here]; rfl
  have place := (ok.drains.releasing who n).mp (by rw [segment])
  have ran : way n = .ran who := by
    cases phase : way n <;> simp_all [Way.place]
  have entry := ok.entries n
  rw [ran] at entry
  refine ok.work ?_ (ok.drains.settle who segment) (by rw [here]; rfl) (by simp)
    (by simp [ran, Way.seen])
  cases entry
  constructor <;> grind -linarith

theorem react (ok : Delivered s way) (linked : Linked s)
    (reached : Cancellation.machine.Reachable s.registry) {event : Cancellation.Event}
    (may : Cancellation.enabled s.registry event) :
    Delivered { s.react event with registry := Cancellation.next s.registry event } way := by
  rcases react_cases s event with same | ⟨n, starts, attached, same⟩ | same
  · rw [same]
    exact { ok with }
  · have idle := linked.uncalled reached may starts attached
    have entered := ok.reframe (.cancel n) .entered (by rw [idle]; rfl)
      (by rw [idle]; rfl)
    rw [same]
    exact { entered with }
  · rw [same]
    exact { ok with }

theorem next (ok : Delivered s way) (decided : Decided s) (linked : Linked s)
    (reached : Cancellation.machine.Reachable s.registry) {event : Event} (may : enabled s event) :
    Delivered (Future.next s event) (wayNext s way event) := by
  have moving {who : Completer} {before : CompleteFrame} (after : CompleteFrame)
      (here : s.complete who = before)
      (segment : after.segment = before.segment) (hasClosed : after.hasClosed = before.hasClosed) :
      Delivered (s.setComplete who after) way := by
    subst before
    exact ok.reframe _ _ segment hasClosed
  cases event with
  | registry event => exact ok.react linked reached may.1
  | setExchange call result =>
      rcases decided.2 with ⟨_, promised⟩
      have idle := (promised.sets call).idle may.1
      simp only [Future.next]
      split
      · exact { ok with }
      · exact { moving .entered idle rfl rfl with }
  | destroyExchange =>
      rcases decided.2 with ⟨_, promised⟩
      have idle := promised.destroyIdle may.1
      simp only [Future.next]
      split
      · exact { ok with }
      · exact { moving .entered idle rfl rfl with }
  | completeExchange who =>
      simp only [Future.next]
      split
      · exact moving _ may rfl rfl
      · exact { moving .writing may rfl rfl with }
  | completeWrite who => exact { moving .storing may rfl rfl with }
  | completeReady who =>
      exact { moving .taking may rfl rfl with seen := fun _ _ => rfl }
  | completeTake who =>
      simp only [Future.next]
      split
      · exact moving _ may rfl rfl
      next handle _ => exact { moving (.unregistering handle) may rfl rfl with }
  | completeUnregister who node =>
      have passed : Delivered (s.passHandle node) way := { ok with }
      have here : (s.passHandle node).complete who = .unregistering node := may
      exact passed.reframe _ _ (by rw [here]; rfl) (by rw [here]; rfl)
  | completeUnregistered who node won => exact moving _ may.1 rfl rfl
  | completeWake who => exact moving _ may rfl rfl
  | completeClose who =>
      have here : s.complete who = .closing := may
      exact ok.close here (decided.1.ready.mpr ⟨who, by rw [here]; rfl⟩)
  | completeClaim who node rest => exact ok.claim may
  | completeRan who node rest => exact ok.ran may
  | completeRelease who node rest => exact ok.release may
  | completeReturn who => exact moving _ may rfl rfl
  | thenFailed node =>
      exact ok.advance .absent may (by simp [Way.frame, Way.linked]) ThenOk.fail rfl (by simp)
        (by simp [Way.seen])
  | thenLoad node =>
      by_cases ready : s.isReady = true
      · simp only [Future.next, wayNext, ready, if_true]
        exact ok.advance .absent may (by simp [Way.frame, Way.linked]) ThenOk.ready rfl (by simp)
          (fun _ => Or.inr ready)
      · simp only [Future.next, wayNext, ready, Bool.false_eq_true, if_false]
        exact ok.advance .absent may (by simp [Way.frame, Way.linked]) ThenOk.allocate rfl (by simp)
          (by simp [Way.seen])
  | thenPush node =>
      by_cases closed : s.closed = true
      · rcases ok.shut.mp closed with ⟨who, hasClosed⟩
        have ready := decided.1.ready.mpr ⟨who, CompleteFrame.published_of_hasClosed hasClosed⟩
        simp only [Future.next, wayNext, closed, if_true]
        exact ok.advance .allocated may (by simp [Way.frame, Way.linked]) ThenOk.refuse rfl (by simp)
          (fun _ => Or.inr ready)
      · have allocated := ok.way_of_frame .allocated may
          (by simp [Way.frame, Way.linked])
        simp only [Future.next, wayNext, closed, Bool.false_eq_true, if_false]
        exact ok.push allocated (by simpa using closed)
  | thenCall node path =>
      cases path with
      | ready =>
          exact ok.advance .ready may (by simp [Way.frame, Way.linked]) ThenOk.callReady rfl
            (by simp) (fun _ => Or.inl rfl)
      | refused =>
          exact ok.advance .refused may (by simp [Way.frame, Way.linked]) ThenOk.callRefused rfl
            (by simp) (fun _ => Or.inl rfl)
  | thenCallReturned node path =>
      cases path with
      | ready =>
          exact ok.advance .readyRunning may (by simp [Way.frame, Way.linked]) ThenOk.returnReady
            rfl (by simp) (fun _ => Or.inl rfl)
      | refused =>
          exact ok.advance .refusedRunning may (by simp [Way.frame, Way.linked])
            ThenOk.returnRefused rfl (by simp) (fun _ => Or.inl rfl)
  | thenDiscard node =>
      exact ok.advance .refusedRan may (by simp [Way.frame, Way.linked]) ThenOk.discard rfl
        (by simp) (fun _ => Or.inl rfl)
  | thenRelease node =>
      have here : (s.thens node).frame = .linked := may
      have entry := ok.entries node
      have pushed : (way node).linked = true := by
        by_contra own
        have frame := entry.own (by simpa using own)
        cases phase : way node <;> simp_all [Way.frame, Way.linked]
      have kept := ok.relabel (way node) (entry.drop pushed here) rfl Iff.rfl
        (ok.seen node)
      rw [Function.update_eq_self] at kept
      exact kept
  | attachClaim node =>
      simp only [Future.next]
      split <;> exact { ok with }
  | attachTake node =>
      simp only [Future.next]
      split <;> exact { ok with }
  | _ => exact { ok with }

end Delivered

theorem delivered_start : Delivered start (fun _ => .absent) := by
  constructor <;> try simp [start, CompleteFrame.hasClosed, Way.seen]
  · constructor <;> simp [Way.linked, Way.frame, Way.node, Way.started, Way.finished]
  · constructor <;> simp [Way.place, CompleteFrame.segment, Segment.none]

theorem reachable_delivered {s : State} (reached : machine.Reachable s) :
    Exists fun way => Delivered s way := by
  refine reached.invariant (fun s => Exists fun way => Delivered s way) ?_ ?_
  · intro s initial
    rw [show s = start from initial]
    exact ⟨_, delivered_start⟩
  · intro s event reached described may
    rcases described with ⟨way, ok⟩
    exact ⟨_, ok.next (reachable_decided reached) (reachable_linked reached)
      (reachable_registry reached) may⟩

/-! ## The contract -/

/-- Exactly-once delivery. -/
structure ExactlyOnce (s : State) : Prop where
  /-- A callback is invoked at most once. -/
  atMostOnce : forall n, (s.thens n).started ≤ 1
  /-- It is not invoked before the result has been published. -/
  afterReady : forall n, (s.thens n).started ≠ 0 -> s.isReady = true
  /-- It is never invoked when the registration returned false. -/
  refusedNever : forall n, (s.thens n).frame = .returned false -> (s.thens n).started = 0
  /-- When the completion and the registration have returned, an accepted callback
  has run, and its node, if it has one, has been freed. -/
  acceptedRan : forall who, s.complete who = .returned true -> forall n,
    (s.thens n).frame = .returned true ->
      (s.thens n).started = 1 ∧ (s.thens n).finished = 1 ∧
        (s.thens n).freed = if (s.thens n).allocated then 1 else 0
  /-- No node is freed twice, and a freed one has run and is on no list. -/
  freedOnce : forall n, (s.thens n).freed ≤ 1 ∧
    ((s.thens n).freed ≠ 0 -> (s.thens n).allocated = true ∧ (s.thens n).finished = 1 ∧
      n ∉ s.continuations ∧ forall who, n ∉ (s.complete who).segment.pending)

theorem exactlyOnce {s : State} (reached : machine.Reachable s) : ExactlyOnce s := by
  rcases reachable_delivered reached with ⟨way, ok⟩
  have completed := (reachable_decided reached).1
  constructor
  · intro n
    rw [(ok.entries n).started]
    cases way n <;> simp [Way.started]
  · intro n started
    rw [(ok.entries n).started] at started
    refine ok.seen n ?_
    cases phase : way n <;> simp_all [Way.started, Way.seen]
  · intro n refused
    have entry := ok.entries n
    have failed := ok.way_of_frame .failed refused (by simp [Way.frame, Way.linked])
    rw [entry.started, failed]
    rfl
  · intro who ended n accepted
    have entry := ok.entries n
    have closed : s.closed = true := ok.shut.mpr ⟨who, by rw [ended]; rfl⟩
    have unlisted : way n ≠ .listed := by
      rw [ne_eq, <- ok.listed n, ok.empty closed]
      exact List.not_mem_nil
    -- Only the winner has a drain, and it has finished its own.
    have empty (other : Completer) : (s.complete other).segment = .none := by
      by_cases mine : other = who
      · rw [mine, ended]
        rfl
      · have won : (s.complete who).progress ≠ .outside := by simp [ended, CompleteFrame.progress]
        have outside := completed.others won mine
        cases frame : s.complete other <;>
          simp_all [CompleteFrame.progress, CompleteFrame.segment]
    have outside := ok.drains.all_outside n (by
      intro other
      simp [empty other, Segment.none])
    have own := entry.own
    have refcount := entry.refcount
    rw [entry.started, entry.finished, entry.freed, entry.allocated]
    cases phase : way n <;>
      simp_all [Way.started, Way.finished, Way.node, Way.linked, Way.frame, Way.place,
        Way.stackRef]
  · intro n
    have entry := ok.entries n
    have refcount := entry.refcount
    refine ⟨by rw [entry.freed]; split <;> simp, ?_⟩
    intro freed
    rw [entry.freed] at freed
    have gone : (way n).node = true ∧ (s.thens n).refcount = 0 := by
      by_contra kept
      exact freed (if_neg kept)
    have last : way n = .released ∨ way n = .discarded := by
      have counted := refcount gone.1
      have node := gone.1
      rw [gone.2] at counted
      cases phase : way n <;> grind -linarith
    refine ⟨by rw [entry.allocated, gone.1], ?_, ?_, ?_⟩
    · rw [entry.finished]
      rcases last with last | last <;> rw [last] <;> rfl
    · rw [ok.listed n]
      rcases last with last | last <;> simp [last]
    · intro who
      rw [ok.drains.pending who n]
      rcases last with last | last <;> simp [last, Way.place]

/-- Continuation 0 is pushed, continuation 1 is registered while the future is
being drained. -/
def thenDuringDrain : List Event :=
  [.thenLoad 0, .thenPush 0, .thenRelease 0, .setExchange 0 ⟨0, some 7, true⟩,
    .completeExchange (.set 0), .completeWrite (.set 0), .thenLoad 2, .completeReady (.set 0),
    .completeTake (.set 0), .completeWake (.set 0), .completeClose (.set 0),
    .completeClaim (.set 0) 0 [], .thenLoad 1, .thenCall 1 .ready, .thenCallReturned 1 .ready,
    .thenPush 2, .thenCall 2 .refused, .thenCallReturned 2 .refused, .thenDiscard 2,
    .completeRan (.set 0) 0 [], .completeRelease (.set 0) 0 [], .completeReturn (.set 0)]

theorem exactlyOnce_thenDuringDrain :
    ExactlyOnce (machine.after start thenDuringDrain) ∧
      ((machine.after start thenDuringDrain).thens 0).freed = 1 ∧
      ((machine.after start thenDuringDrain).thens 1).finished = 1 ∧
      ((machine.after start thenDuringDrain).thens 2).freed = 1 := by
  have may : machine.AllEnabled start thenDuringDrain := by
    repeat' first | exact trivial | exact rfl | apply And.intro
  exact ⟨exactlyOnce (.run (.start rfl) may.run), rfl, rfl, rfl⟩

end Future
end UfsrvRx
