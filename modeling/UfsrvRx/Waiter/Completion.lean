import UfsrvRx.Waiter.Registration

namespace UfsrvRx
namespace Waiter

/-!
# Completions and releases

Of all calls that complete a future one wins, publishes the result and closes the
stack of waiters.  The last release of the future comes after every wait on it.
-/

namespace CompleteFrame

/-- The call has won the future and is not done with it. -/
@[grind =] def wins : CompleteFrame -> Option FutureId
  | writing future _ | storing future | closing future | draining future _ | waking future _ _
  | releasing future _ _ => some future
  | idle | entered _ _ | returned _ => none

/-- The call has won the future and has not published its result. -/
@[grind =] def unpublished : CompleteFrame -> Option FutureId
  | writing future _ | storing future => some future
  | idle | entered _ _ | closing _ | draining _ _ | waking _ _ _ | releasing _ _ _
  | returned _ => none

/-- The call will close the stack of the future. -/
@[grind =] def willClose : CompleteFrame -> Option FutureId
  | writing future _ | storing future | closing future => some future
  | idle | entered _ _ | draining _ _ | waking _ _ _ | releasing _ _ _ | returned _ => none

attribute [grind =] inFlight

end CompleteFrame

/-- What one step does to the waits: it starts one, or it moves one that keeps its
future and its token and is not brought back into flight. -/
theorem waits_next {s : State} (seated : Seated s) {event : Event} (may : enabled s event) :
    (next s event).waits = s.waits ∨ Exists fun w => Exists fun entry =>
      (next s event).waits = Function.update s.waits w entry ∧
        ((Exists fun agent => event = .waitStart w agent entry.future entry.token) ∨
          entry.future = (s.waits w).future ∧ entry.token = (s.waits w).token ∧
            (entry.frame.inFlight = true -> (s.waits w).frame.inFlight = true)) := by
  have moved {after : State} (w : WaitId) (entry : Wait)
      (waits : after.waits = Function.update s.waits w entry)
      (future : entry.future = (s.waits w).future) (token : entry.token = (s.waits w).token)
      (flight : entry.frame.inFlight = true -> (s.waits w).frame.inFlight = true) :
      after.waits = s.waits ∨ Exists fun w => Exists fun entry =>
        after.waits = Function.update s.waits w entry ∧
          ((Exists fun agent => event = .waitStart w agent entry.future entry.token) ∨
            entry.future = (s.waits w).future ∧ entry.token = (s.waits w).token ∧
              (entry.frame.inFlight = true -> (s.waits w).frame.inFlight = true)) :=
    Or.inr ⟨w, entry, waits, Or.inr ⟨future, token, flight⟩⟩
  cases event with
  | registry inner =>
      simp only [next]
      rcases s.react_cases inner with same | ⟨w, _, _, reacted⟩ | ⟨w, _, _, reacted⟩
      · rw [same]
        exact Or.inl rfl
      · rw [reacted]
        exact moved w _ rfl rfl rfl id
      · rw [reacted]
        exact moved w _ rfl rfl rfl id
  | waitStart w agent f token =>
      refine Or.inr ⟨w, _, State.waits_setStatus _ _ _, Or.inl ⟨agent, rfl⟩⟩
  | waitCheckToken w t =>
      simp only [next]
      split
      · exact moved w _ (State.waits_finish s w _) rfl rfl (by simp [WaitFrame.inFlight])
      · exact moved w _ rfl rfl rfl (fun _ => by rw [show (s.waits w).frame = _ from may.1]; rfl)
  | waitCheckState w =>
      have flight : (s.waits w).frame.inFlight = true := by
        rw [show (s.waits w).frame = _ from may]
        rfl
      simp only [next]
      split <;> exact moved w _ rfl rfl rfl (fun _ => flight)
  | waitPush w =>
      have flight : (s.waits w).frame.inFlight = true := by
        rw [show (s.waits w).frame = _ from may]
        rfl
      simp only [next]
      split <;> exact moved w _ rfl rfl rfl (fun _ => flight)
  | waitRetain w =>
      exact moved w _ rfl rfl rfl (fun _ => by rw [show (s.waits w).frame = _ from may]; rfl)
  | waitRegistered w =>
      exact moved w _ rfl rfl rfl (fun _ => by rw [show (s.waits w).frame = _ from may.1]; rfl)
  | waitPark w =>
      exact moved w _ (State.waits_park s w) rfl rfl
        (fun _ => by rw [show (s.waits w).frame = _ from may]; rfl)
  | waitRead w =>
      exact moved w _ rfl rfl rfl (fun _ => by rw [show (s.waits w).frame = _ from may.1]; rfl)
  | waitClose w =>
      exact moved w _ rfl rfl rfl (fun _ => by rw [show (s.waits w).frame = _ from may]; rfl)
  | waitUnregister w =>
      exact moved w _ rfl rfl rfl (fun _ => by rw [show (s.waits w).frame = _ from may.1]; rfl)
  | waitUnregistered w won =>
      exact moved w _ rfl rfl rfl (fun _ => by rw [show (s.waits w).frame = _ from may.1]; rfl)
  | waitRelease w =>
      exact moved w _ rfl rfl rfl (fun _ => by rw [show (s.waits w).frame = _ from may]; rfl)
  | waitRecheck w t =>
      simp only [next]
      split
      · exact moved w _ (State.waits_finish s w _) rfl rfl (by simp [WaitFrame.inFlight])
      · exact moved w _ rfl rfl rfl (fun _ => by rw [show (s.waits w).frame = _ from may.1]; rfl)
  | waitReturn w => exact moved w _ (State.waits_finish s w _) rfl rfl (by simp [WaitFrame.inFlight])
  | callbackClaim w =>
      simp only [next]
      split <;> exact moved w _ rfl rfl rfl id
  | callbackWake w =>
      have same := (s.waits w).callbackWoken_calls
      refine moved w { (s.waits w).callbackWoken with callback := .done } ?_ same.2.2.2.2.2 same.2.2.2.1 ?_
      · simp [next, State.setWait]
      · rw [same.2.1]
        exact id
  | completeExchange k f r =>
      simp only [next]
      split <;> exact Or.inl rfl
  | completeClaim k f w rest =>
      simp only [next]
      split
      · exact Or.inl rfl
      · exact moved w _ rfl rfl rfl id
  | completeWake k f w rest =>
      have same := (s.waits w).drainWoken_calls
      refine moved w (s.waits w).drainWoken ?_ same.2.2.2.2.2 same.2.2.2.1 ?_
      · simp [next, State.setComplete]
      · rw [same.2.1]
        exact id
  | completeRelease k f w rest => exact moved w _ rfl rfl rfl id
  | releaseClose f w rest => exact moved w _ rfl rfl rfl id
  | releaseDrop f w rest => exact moved w _ rfl rfl rfl id
  | workerResume S c w rest =>
      simp only [next, State.resume]
      split
      next v suspended =>
        have here := WaitFrame.seat_parked.mp (seated.suspended c v suspended).2
        exact moved v _ rfl rfl rfl (fun _ => by rw [here]; rfl)
      · exact Or.inl rfl
  | _ => exact Or.inl rfl

/-- Completing calls, and what they have done to their futures. -/
structure Completing (s : State) : Prop where
  won : forall k f, (s.complete k).wins = some f -> (s.futures f).isCompleted = true
  unique : forall j k f, (s.complete j).wins = some f -> (s.complete k).wins = some f -> j = k
  published : forall k f, (s.complete k).wins = some f ->
    ((s.complete k).unpublished = some f ↔ (s.futures f).isReady = false)
  ready : forall f, (s.futures f).isReady = true -> (s.futures f).isCompleted = true
  closed : forall f, (s.futures f).closed = true ->
    (s.futures f).isReady = true ∨ (s.futures f).release ≠ .idle
  closing : forall f, (s.futures f).isCompleted = true ->
    (s.futures f).closed = true ∨ Exists fun k => (s.complete k).willClose = some f
  waits : forall w, (s.waits w).frame.inFlight = true ->
    (s.futures (s.waits w).future).release = .idle
  calls : forall k f, (s.complete k).inFlight = some f -> (s.futures f).release = .idle
  shut : forall f, (s.futures f).release ≠ .idle -> (s.futures f).closed = true

namespace Completing

variable {s : State}

/-- The flags of a future. -/
def SameFlags (before after : FutureCell) : Prop :=
  after.isCompleted = before.isCompleted ∧ after.isReady = before.isReady ∧
    after.closed = before.closed ∧ after.release = before.release

/-- The future of a wait was open before the step. -/
theorem waits_other (ok : Completing s) (seated : Seated s) {event : Event} (may : enabled s event)
    (w : WaitId) (flight : ((Waiter.next s event).waits w).frame.inFlight = true) :
    (s.futures ((Waiter.next s event).waits w).future).release = .idle := by
  rcases waits_next seated may with same | ⟨v, entry, moved, started | ⟨future, _, kept⟩⟩
  · rw [same] at flight ⊢
    exact ok.waits w flight
  · rcases started with ⟨agent, rfl⟩
    by_cases mine : w = v
    · subst w
      rw [moved, Function.update_self]
      exact may.2.1
    · rw [moved, Function.update_of_ne mine] at flight ⊢
      exact ok.waits w flight
  · by_cases mine : w = v
    · subst w
      rw [moved, Function.update_self] at flight ⊢
      rw [future]
      exact ok.waits v (kept flight)
    · rw [moved, Function.update_of_ne mine] at flight ⊢
      exact ok.waits w flight

/-- A wait keeps its future open. -/
theorem waits_kept (ok : Completing s) (seated : Seated s) {event : Event} (may : enabled s event)
    (release : forall f, (s.futures f).release = .idle ->
      ((Waiter.next s event).futures f).release = .idle) (w : WaitId)
    (flight : ((Waiter.next s event).waits w).frame.inFlight = true) :
    ((Waiter.next s event).futures ((Waiter.next s event).waits w).future).release = .idle :=
  release _ (ok.waits_other seated may w flight)

/-- A step that does not touch the flags of the futures or the completing calls. -/
theorem frame (ok : Completing s) (seated : Seated s) {event : Event} (may : enabled s event)
    (flags : forall f, SameFlags (s.futures f) ((Waiter.next s event).futures f))
    (complete : (Waiter.next s event).complete = s.complete) :
    Completing (Waiter.next s event) := by
  constructor
  · intro k f
    rw [complete, (flags f).1]
    exact ok.won k f
  · rw [complete]
    exact ok.unique
  · intro k f
    rw [complete, (flags f).2.1]
    exact ok.published k f
  · intro f
    rw [(flags f).1, (flags f).2.1]
    exact ok.ready f
  · intro f
    rw [(flags f).2.1, (flags f).2.2.1, (flags f).2.2.2]
    exact ok.closed f
  · intro f
    rw [(flags f).1, (flags f).2.2.1, complete]
    exact ok.closing f
  · exact ok.waits_kept seated may fun f idle => (flags f).2.2.2.trans idle
  · intro k f
    rw [complete, (flags f).2.2.2]
    exact ok.calls k f
  · intro f
    rw [(flags f).2.2.1, (flags f).2.2.2]
    exact ok.shut f

/-- A completing call leaves, or moves on within the stack of a future it has closed. -/
theorem drain (ok : Completing s) (seated : Seated s) {event : Event} (may : enabled s event)
    {k : CallId} {frame : CompleteFrame}
    (futures : (Waiter.next s event).futures = s.futures)
    (complete : (Waiter.next s event).complete = Function.update s.complete k frame)
    (wins : frame.wins = none ∨ frame.wins = (s.complete k).wins)
    (unpublished : frame.unpublished = none) (published : (s.complete k).unpublished = none)
    (closed : (s.complete k).willClose = none)
    (inFlight : frame.inFlight = none ∨ frame.inFlight = (s.complete k).inFlight) :
    Completing (Waiter.next s event) := by
  constructor
  · intro j f
    have := ok.won j f
    rw [futures, complete]
    grind -linarith
  · intro i j f
    have := ok.unique i j f
    rw [complete]
    grind -linarith
  · intro j f
    have := ok.published j f
    rw [futures, complete]
    grind -linarith
  · rw [futures]
    exact ok.ready
  · rw [futures]
    exact ok.closed
  · intro f
    rw [futures, complete]
    intro completed
    rcases ok.closing f completed with done | ⟨j, will⟩
    · exact Or.inl done
    · refine Or.inr ⟨j, ?_⟩
      by_cases mine : j = k
      · subst j
        rw [closed] at will
        cases will
      · rw [Function.update_of_ne mine]
        exact will
  · exact ok.waits_kept seated may fun f idle => by rw [futures, idle]
  · intro j f
    have := ok.calls j f
    rw [futures, complete]
    grind -linarith
  · rw [futures]
    exact ok.shut

/-- A completing call that has won moves on and changes a flag of its future. -/
theorem publish (ok : Completing s) (seated : Seated s) {event : Event} (may : enabled s event)
    {k : CallId} {f : FutureId} {frame : CompleteFrame} {cell : FutureCell}
    (futures : (Waiter.next s event).futures = Function.update s.futures f cell)
    (complete : (Waiter.next s event).complete = Function.update s.complete k frame)
    (alone : (s.complete k).wins = some f ∨ (s.futures f).isCompleted = false)
    (flight : (s.complete k).inFlight = some f) (wins : frame.wins = some f)
    (completed : cell.isCompleted = true) (release : cell.release = (s.futures f).release)
    (published : frame.unpublished = some f ↔ cell.isReady = false)
    (closed : cell.closed = true -> cell.isReady = true ∨ (s.futures f).closed = true)
    (kept : (s.futures f).isReady = true -> cell.isReady = true)
    (closing : cell.closed = true ∨ frame.willClose = some f) (inFlight : frame.inFlight = some f) :
    Completing (Waiter.next s event) := by
  have idle := ok.calls k f flight
  have others (j : CallId) (g : FutureId) (theirs : (s.complete j).wins = some g) (apart : j ≠ k) :
      g ≠ f := by
    rintro rfl
    rcases alone with mine | fresh
    · exact apart (ok.unique j k g theirs mine)
    · have := ok.won j g theirs
      simp [fresh] at this
  have mine (g : FutureId) (before : (s.complete k).willClose = some g) : g = f := by
    cases here : s.complete k <;> simp_all [CompleteFrame.willClose, CompleteFrame.inFlight]
  constructor
  · intro j g
    have := ok.won j g
    rw [futures, complete]
    grind -linarith
  · intro i j g
    have := ok.unique i j g
    have := others i g
    have := others j g
    rw [complete]
    grind -linarith
  · intro j g
    have := ok.published j g
    have := others j g
    rw [futures, complete]
    grind -linarith
  · intro g
    have := ok.ready g
    rw [futures]
    grind -linarith
  · intro g
    have := ok.closed g
    rw [futures]
    grind -linarith
  · intro g
    rw [futures, complete]
    by_cases same : g = f
    · subst g
      rw [Function.update_self]
      intro _
      rcases closing with done | will
      · exact Or.inl done
      · exact Or.inr ⟨k, by rw [Function.update_self]; exact will⟩
    · rw [Function.update_of_ne same]
      intro before
      rcases ok.closing g before with done | ⟨j, will⟩
      · exact Or.inl done
      · refine Or.inr ⟨j, ?_⟩
        by_cases apart : j = k
        · subst j
          exact absurd (mine g will) same
        · rw [Function.update_of_ne apart]
          exact will
  · refine ok.waits_kept seated may ?_
    intro g before
    rw [futures]
    grind -linarith
  · intro j g
    have := ok.calls j g
    rw [futures, complete]
    grind -linarith
  · intro g
    have := ok.shut g
    rw [futures]
    grind -linarith

/-- The last release of a future that no wait and no completing call uses. -/
theorem release (ok : Completing s) (seated : Seated s) {event : Event} (may : enabled s event)
    {f : FutureId} {cell : FutureCell}
    (futures : (Waiter.next s event).futures = Function.update s.futures f cell)
    (complete : (Waiter.next s event).complete = s.complete)
    (waits : forall w, ((Waiter.next s event).waits w).frame.inFlight = true ->
      ((Waiter.next s event).waits w).future ≠ f)
    (calls : forall k, (s.complete k).inFlight ≠ some f)
    (completed : cell.isCompleted = (s.futures f).isCompleted)
    (ready : cell.isReady = (s.futures f).isReady) (closed : cell.closed = true)
    (released : cell.release ≠ .idle) : Completing (Waiter.next s event) := by
  have unwon (k : CallId) : (s.complete k).wins ≠ some f := by
    have := calls k
    cases here : s.complete k <;> simp_all [CompleteFrame.wins, CompleteFrame.inFlight]
  constructor
  · intro k g
    have := ok.won k g
    have := unwon k
    rw [futures, complete]
    grind -linarith
  · rw [complete]
    exact ok.unique
  · intro k g
    have := ok.published k g
    have := unwon k
    rw [futures, complete]
    grind -linarith
  · intro g
    have := ok.ready g
    rw [futures]
    grind -linarith
  · intro g
    have := ok.closed g
    rw [futures]
    grind -linarith
  · intro g
    have := ok.closing g
    rw [futures, complete]
    grind -linarith
  · intro w flight
    have apart := waits w flight
    have kept := ok.waits_other seated may w flight
    rw [futures, Function.update_of_ne apart]
    exact kept
  · intro k g
    have := ok.calls k g
    have := calls k
    rw [futures, complete]
    grind -linarith
  · intro g
    have := ok.shut g
    rw [futures]
    grind -linarith

/-- The release goes on. -/
theorem releasing (ok : Completing s) (seated : Seated s) {event : Event} (may : enabled s event)
    {f : FutureId} {frame : ReleaseFrame} (begun : (s.futures f).release ≠ .idle)
    (futures : (Waiter.next s event).futures =
      Function.update s.futures f { s.futures f with release := frame })
    (complete : (Waiter.next s event).complete = s.complete) (still : frame ≠ .idle) :
    Completing (Waiter.next s event) := by
  refine ok.release seated may futures complete ?_ ?_ rfl rfl (ok.shut f begun) still
  · rintro w flight rfl
    exact begun (ok.waits_other seated may w flight)
  · intro k inFlight
    exact begun (ok.calls k f inFlight)

theorem enter (ok : Completing s) {k : CallId} {f : FutureId} {r : Future.Result}
    (may : enabled s (.completeEnter k f r)) : Completing (s.setComplete k (.entered f r)) := by
  have idle : s.complete k = .idle := may.1
  have open_ : (s.futures f).release = .idle := may.2
  refine { ok with won := ?_, unique := ?_, published := ?_, closing := ?_, calls := ?_ }
  · intro j g
    have := ok.won j g
    simp only [State.setComplete]
    grind -linarith
  · intro i j g
    have := ok.unique i j g
    simp only [State.setComplete]
    grind -linarith
  · intro j g
    have := ok.published j g
    simp only [State.setComplete]
    grind -linarith
  · intro g completed
    rcases ok.closing g completed with done | ⟨j, will⟩
    · exact Or.inl done
    · refine Or.inr ⟨j, ?_⟩
      have apart : j ≠ k := by
        rintro rfl
        simp [idle, CompleteFrame.willClose] at will
      simpa only [State.setComplete, Function.update_of_ne apart] using will
  · intro j g
    have := ok.calls j g
    simp only [State.setComplete]
    grind -linarith

/-! ## Steps that leave futures alone -/

/-- The step belongs to a completing call or to the last release of a future. -/
def drains : Event -> Bool
  | .completeEnter _ _ _ | .completeExchange _ _ _ | .completeWrite _ _ _ | .completeReady _ _
  | .completeClose _ _ | .completeClaim _ _ _ _ | .completeWake _ _ _ _ | .completeRelease _ _ _ _
  | .completeReturn _ _ | .releaseSteal _ | .releaseClose _ _ _ | .releaseDrop _ _ _
  | .releaseReturn _ => true
  | _ => false

/-- What the registry does leaves futures and completing calls alone. -/
theorem react_kept (s : State) (event : Cancellation.Event) :
    (s.react event).futures = s.futures ∧ (s.react event).complete = s.complete := by
  rcases s.react_cases event with same | ⟨w, _, _, moved⟩ | ⟨w, _, _, moved⟩
  · rw [same]
    exact ⟨rfl, rfl⟩
  · rw [moved]
    exact ⟨rfl, rfl⟩
  · rw [moved]
    exact ⟨rfl, rfl⟩

/-- Only completing calls and last releases change the flags of a future. -/
theorem flags_next (s : State) {event : Event} (outside : drains event = false) :
    (forall f, SameFlags (s.futures f) ((Waiter.next s event).futures f)) ∧
      (Waiter.next s event).complete = s.complete := by
  have same (f : FutureId) : SameFlags (s.futures f) (s.futures f) := ⟨rfl, rfl, rfl, rfl⟩
  cases event with
  | registry inner =>
      have kept := react_kept s inner
      refine ⟨?_, kept.2⟩
      intro f
      change SameFlags _ ((s.react inner).futures f)
      rw [kept.1]
      exact same f
  | waitStart w agent f token =>
      refine ⟨?_, ?_⟩
      · intro g
        simpa [Waiter.next, State.setWait] using same g
      · simp [Waiter.next, State.setWait]
  | waitCheckToken w t | waitRecheck w t =>
      refine ⟨?_, ?_⟩
      · intro g
        simp only [Waiter.next]
        split
        · simpa using same g
        · exact same g
      · simp only [Waiter.next]
        split <;> simp [State.setFrame, State.setWait]
  | waitCheckState w | callbackClaim w =>
      refine ⟨?_, ?_⟩
      · intro g
        simp only [Waiter.next]
        split <;> exact same g
      · simp only [Waiter.next]
        split <;> rfl
  | waitPush w =>
      refine ⟨?_, ?_⟩
      · intro g
        simp only [Waiter.next]
        split
        · exact same g
        · by_cases mine : g = (s.waits w).future
          · subst g
            simp only [State.setFuture, Function.update_self]
            exact same _
          · simp only [State.setFuture, Function.update_of_ne mine]
            exact same g
      · simp only [Waiter.next]
        split <;> rfl
  | waitPark w | waitReturn w | workerResume S c w rest =>
      exact ⟨by simpa [Waiter.next] using same, by simp [Waiter.next]⟩
  | callbackWake w =>
      refine ⟨?_, ?_⟩
      · simpa [Waiter.next, State.setWait] using same
      · simp [Waiter.next, State.setWait]
  | completeEnter k f r | completeExchange k f r | completeWrite k f r | completeReady k f
  | completeClose k f | completeClaim k f w rest | completeWake k f w rest
  | completeRelease k f w rest | completeReturn k f | releaseSteal f | releaseClose f w rest
  | releaseDrop f w rest | releaseReturn f => cases outside
  | _ => exact ⟨same, rfl⟩

/-! ## Steps of a completing call -/

section

variable {k : CallId} {f : FutureId} {r : Future.Result} {w : WaitId} {rest : List WaitId}

/-- The first call to come wins. -/
theorem exchange (ok : Completing s) (seated : Seated s)
    (may : enabled s (.completeExchange k f r)) :
    Completing (Waiter.next s (.completeExchange k f r)) := by
  have here : s.complete k = .entered f r := may
  by_cases done : (s.futures f).isCompleted = true
  · have stepped : Waiter.next s (.completeExchange k f r) = s.setComplete k (.returned false) := by
      simp [Waiter.next, done]
    exact ok.drain seated may (by rw [stepped]; rfl) (by rw [stepped]; rfl) (Or.inl rfl) rfl
      (by rw [here]; rfl) (by rw [here]; rfl) (Or.inl rfl)
  · have fresh : (s.futures f).isCompleted = false := by simpa using done
    have unready : (s.futures f).isReady = false := by
      by_contra ready
      exact done (ok.ready f (by simpa using ready))
    have stepped : Waiter.next s (.completeExchange k f r) =
        (s.setComplete k (.writing f r)).setFuture f
          { s.futures f with isCompleted := true } := by
      simp [Waiter.next, fresh]
    have futures : (Waiter.next s (.completeExchange k f r)).futures =
        Function.update s.futures f { s.futures f with isCompleted := true } := by
      rw [stepped]
      rfl
    exact ok.publish seated may futures (by rw [stepped]; rfl) (Or.inr fresh)
      (by rw [here]; rfl) rfl rfl rfl (by simp [CompleteFrame.unpublished, unready])
      Or.inr id (Or.inr rfl) rfl

theorem write (ok : Completing s) (seated : Seated s) (may : enabled s (.completeWrite k f r)) :
    Completing (Waiter.next s (.completeWrite k f r)) := by
  have here : s.complete k = .writing f r := may
  have unready := (ok.published k f (by rw [here]; rfl)).mp (by rw [here]; rfl)
  exact ok.publish seated may rfl rfl (Or.inl (by rw [here]; rfl)) (by rw [here]; rfl) rfl
    (ok.won k f (by rw [here]; rfl)) rfl (by simp [CompleteFrame.unpublished, unready])
    Or.inr id (Or.inr rfl) rfl

theorem storeReady (ok : Completing s) (seated : Seated s) (may : enabled s (.completeReady k f)) :
    Completing (Waiter.next s (.completeReady k f)) := by
  have here : s.complete k = .storing f := may
  exact ok.publish seated may rfl rfl (Or.inl (by rw [here]; rfl)) (by rw [here]; rfl) rfl
    (ok.won k f (by rw [here]; rfl)) rfl (by simp [CompleteFrame.unpublished])
    (fun _ => Or.inl rfl) (fun _ => rfl) (Or.inr rfl) rfl

theorem closeWaiters (ok : Completing s) (seated : Seated s) (may : enabled s (.completeClose k f)) :
    Completing (Waiter.next s (.completeClose k f)) := by
  have here : s.complete k = .closing f := may
  have ready : (s.futures f).isReady = true := by
    by_contra unready
    have unpublished := (ok.published k f (by rw [here]; rfl)).mpr (by simpa using unready)
    simp [here, CompleteFrame.unpublished] at unpublished
  exact ok.publish seated may rfl rfl (Or.inl (by rw [here]; rfl)) (by rw [here]; rfl) rfl
    (ok.won k f (by rw [here]; rfl)) rfl (by simp [CompleteFrame.unpublished, ready])
    (fun _ => Or.inl ready) id (Or.inl rfl) rfl

theorem claim (ok : Completing s) (seated : Seated s)
    (may : enabled s (.completeClaim k f w rest)) :
    Completing (Waiter.next s (.completeClaim k f w rest)) := by
  have here : s.complete k = .draining f (w :: rest) := may
  by_cases claimed : (s.waits w).claimed = true
  · have stepped : Waiter.next s (.completeClaim k f w rest) =
        s.setComplete k (.releasing f w rest) := by
      simp [Waiter.next, claimed]
    exact ok.drain seated may (by rw [stepped]; rfl) (by rw [stepped]; rfl)
      (Or.inr (by rw [here]; rfl)) rfl (by rw [here]; rfl) (by rw [here]; rfl)
      (Or.inr (by rw [here]; rfl))
  · have stepped : Waiter.next s (.completeClaim k f w rest) =
        (s.setComplete k (.waking f w rest)).setWait w
          { s.waits w with claimed := true } := by
      simp [Waiter.next, claimed]
    exact ok.drain seated may (by rw [stepped]; rfl) (by rw [stepped]; rfl)
      (Or.inr (by rw [here]; rfl)) rfl (by rw [here]; rfl) (by rw [here]; rfl)
      (Or.inr (by rw [here]; rfl))

theorem wake (ok : Completing s) (seated : Seated s) (may : enabled s (.completeWake k f w rest)) :
    Completing (Waiter.next s (.completeWake k f w rest)) := by
  have here : s.complete k = .waking f w rest := may
  have complete : (Waiter.next s (.completeWake k f w rest)).complete =
      Function.update s.complete k (.releasing f w rest) := by
    simp [Waiter.next, State.setComplete]
  exact ok.drain seated may (by simp [Waiter.next, State.setComplete]) complete
    (Or.inr (by rw [here]; rfl)) rfl (by rw [here]; rfl) (by rw [here]; rfl)
    (Or.inr (by rw [here]; rfl))

end

theorem next (ok : Completing s) (seated : Seated s) {event : Event} (may : enabled s event) :
    Completing (Waiter.next s event) := by
  have outside (quiet : drains event = false) : Completing (Waiter.next s event) :=
    ok.frame seated may (flags_next s quiet).1 (flags_next s quiet).2
  cases event with
  | completeEnter k f r => exact ok.enter may
  | completeExchange k f r => exact ok.exchange seated may
  | completeWrite k f r => exact ok.write seated may
  | completeReady k f => exact ok.storeReady seated may
  | completeClose k f => exact ok.closeWaiters seated may
  | completeClaim k f w rest => exact ok.claim seated may
  | completeWake k f w rest => exact ok.wake seated may
  | completeRelease k f w rest =>
      have here : s.complete k = .releasing f w rest := may
      exact ok.drain seated may rfl rfl (Or.inr (by rw [here]; rfl)) rfl (by rw [here]; rfl)
        (by rw [here]; rfl) (Or.inr (by rw [here]; rfl))
  | completeReturn k f =>
      have here : s.complete k = .draining f [] := may
      exact ok.drain seated may rfl rfl (Or.inl rfl) rfl (by rw [here]; rfl) (by rw [here]; rfl)
        (Or.inl rfl)
  | releaseSteal f =>
      refine ok.release seated may rfl rfl ?_ may.2.2 rfl rfl rfl (by simp)
      intro w flight on
      have ended : (s.waits w).frame.inFlight = false := may.2.1 w on
      exact Bool.false_ne_true (ended.symm.trans flight)
  | releaseClose f w rest | releaseDrop f w rest | releaseReturn f =>
      exact ok.releasing seated may (by rw [show (s.futures f).release = _ from may]; simp) rfl rfl
        (by simp)
  | _ => exact outside rfl

end Completing

theorem reachable_completing {s : State} (reached : machine.Reachable s) : Completing s := by
  refine reached.invariant _ ?_ ?_
  · intro s initial
    rw [show s = start from initial]
    constructor <;> simp [start, CompleteFrame.wins, CompleteFrame.inFlight, WaitFrame.inFlight]
  · intro s event reached ok may
    exact ok.next (reachable_seated reached) may

end Waiter
end UfsrvRx
