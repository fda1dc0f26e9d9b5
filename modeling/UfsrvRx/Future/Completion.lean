import UfsrvRx.Future.Callback

namespace UfsrvRx
namespace Future

/-!
# Single completion

Two exchanges decide who completes the future: the one on the promise, among the
calls that set or destroy it, and the one on the future, between the winner of
the first and the cancel callback.  This module follows the winner from the
exchange to the publication of its result, and the losers to the point where
they have dropped their own values.
-/

/-- How far a call of `sFutureComplete` that won the exchange has come. -/
inductive Progress
  | outside
  | claimed
  | written
  | published
deriving DecidableEq, Repr

namespace CompleteFrame

@[grind =] def progress : CompleteFrame -> Progress
  | idle | entered | returned false => .outside
  | writing => .claimed
  | storing => .written
  | taking | unregistering _ | awaiting _ | waking | closing | draining _ | running _ _
  | releasing _ _ | returned true => .published

end CompleteFrame

/-! ## The winner -/

structure Completed (s : State) : Prop where
  completed : s.isCompleted = true ↔ s.winner ≠ none
  won : forall who, (s.complete who).progress ≠ .outside ↔ s.winner = some who
  ready : s.isReady = true ↔ Exists fun who => (s.complete who).progress = .published
  kept : s.moved = false -> forall who,
    (s.complete who).progress = .written ∨ (s.complete who).progress = .published ->
      s.result = s.argument who
  lost : forall who, s.complete who = .returned false -> s.isCompleted = true

namespace Completed

variable {s : State}

theorem argument_setComplete (s : State) (who : Completer) (frame : CompleteFrame) :
    (s.setComplete who frame).argument = s.argument := by
  funext other
  cases other <;> rfl

theorem lost_update (ok : Completed s) {who : Completer} {frame : CompleteFrame}
    (lost : frame = .returned false -> s.isCompleted = true) (other : Completer)
    (returned : Function.update s.complete who frame other = .returned false) :
    s.isCompleted = true := by
  by_cases mine : other = who
  · subst other
    rw [Function.update_self] at returned
    exact lost returned
  · rw [Function.update_of_ne mine] at returned
    exact ok.lost other returned

/-- A completing call moves on without passing one of the decisive steps. -/
theorem advance (ok : Completed s) (who : Completer) (frame : CompleteFrame)
    (same : frame.progress = (s.complete who).progress)
    (lost : frame = .returned false -> s.isCompleted = true) :
    Completed (s.setComplete who frame) := by
  have progress (other : Completer) :
      ((s.setComplete who frame).complete other).progress = (s.complete other).progress := by
    by_cases mine : other = who
    · subst other
      simpa only [State.setComplete, Function.update_self] using same
    · simp only [State.setComplete, Function.update_of_ne mine]
  constructor
  · exact ok.completed
  · intro other
    rw [progress other]
    exact ok.won other
  · simp only [progress]
    exact ok.ready
  · intro unmoved other
    rw [progress other, argument_setComplete]
    exact ok.kept unmoved other
  · exact ok.lost_update lost

/-- The argument of a call that has entered `sFutureComplete` does not change. -/
theorem setSets (ok : Completed s) (call : CallId) (entry : SetCall)
    (same : (s.complete (.set call)).progress = .outside ∨
      entry.result = (s.sets call).result) :
    Completed { s with sets := Function.update s.sets call entry } := by
  refine { ok with kept := ?_ }
  intro unmoved who written
  rw [ok.kept unmoved who written]
  cases who with
  | destroy => rfl
  | cancel n => rfl
  | set other =>
      by_cases mine : other = call
      · subst other
        rcases same with outside | same
        · simp [outside] at written
        · simp only [State.argument, Function.update_self, same]
      · simp only [State.argument, Function.update_of_ne mine]

theorem exchange (ok : Completed s) (who : Completer) (first : s.isCompleted = false) :
    Completed { s.setComplete who .writing with isCompleted := true, winner := some who } := by
  have fresh : s.winner = none := by
    by_contra won
    have completed := ok.completed.mpr won
    simp [first] at completed
  have outside (other : Completer) : (s.complete other).progress = .outside := by
    by_contra won
    have winner := (ok.won other).mp won
    simp [fresh] at winner
  have progress (other : Completer) :
      (Function.update s.complete who .writing other).progress =
        if other = who then .claimed else .outside := by
    by_cases mine : other = who
    · subst other
      simp [CompleteFrame.progress]
    · simp [mine, outside]
  constructor
  · simp
  · intro other
    simp only [State.setComplete, progress]
    by_cases mine : other = who
    · simp [mine]
    · simp [mine, Ne.symm mine]
  · simp only [State.setComplete, progress]
    have ready := ok.ready
    simp only [outside, reduceCtorEq, exists_false] at ready
    simp only [ready, false_iff, not_exists]
    intro other
    split <;> simp
  · intro _ other
    simp only [State.setComplete, progress]
    split <;> simp
  · exact fun _ _ => rfl

/-- The winner is the only call past the exchange. -/
theorem others (ok : Completed s) {who other : Completer}
    (won : (s.complete who).progress ≠ .outside) (different : other ≠ who) :
    (s.complete other).progress = .outside := by
  by_contra past
  have mine := (ok.won who).mp won
  have theirs := (ok.won other).mp past
  rw [mine] at theirs
  exact different (Option.some.inj theirs).symm

theorem write (ok : Completed s) {who : Completer} (writing : s.complete who = .writing) :
    Completed { s.setComplete who .storing with result := s.argument who } := by
  have mine : (s.complete who).progress = .claimed := by rw [writing]; rfl
  have apart {other : Completer} (different : other ≠ who) :=
    ok.others (by simp [mine]) different
  have progress (other : Completer) :
      (Function.update s.complete who .storing other).progress =
        if other = who then .written else .outside := by
    by_cases same : other = who
    · simp [same, CompleteFrame.progress]
    · simp [same, apart same]
  constructor
  · exact ok.completed
  · intro other
    have before := ok.won other
    simp only [State.setComplete, progress]
    by_cases same : other = who
    · subst other
      simpa [mine] using before
    · simpa [same, apart same] using before
  · have before := ok.ready
    simp only [State.setComplete, progress]
    have unready : ¬ Exists fun other => (s.complete other).progress = .published := by
      rintro ⟨other, published⟩
      by_cases same : other = who
      · subst other
        simp [mine] at published
      · simp [apart same] at published
    simp only [before, unready, false_iff, not_exists]
    intro other
    split <;> simp
  · intro _ other
    simp only [State.setComplete, progress]
    by_cases same : other = who
    · subst other
      intro _
      cases who <;> rfl
    · simp [same]
  · exact ok.lost_update (by simp)

theorem publish (ok : Completed s) {who : Completer} (storing : s.complete who = .storing) :
    Completed { s.setComplete who .taking with isReady := true } := by
  have mine : (s.complete who).progress = .written := by rw [storing]; rfl
  have apart {other : Completer} (different : other ≠ who) :=
    ok.others (by simp [mine]) different
  have progress (other : Completer) :
      (Function.update s.complete who .taking other).progress =
        if other = who then .published else .outside := by
    by_cases same : other = who
    · simp [same, CompleteFrame.progress]
    · simp [same, apart same]
  constructor
  · exact ok.completed
  · intro other
    have before := ok.won other
    simp only [State.setComplete, progress]
    by_cases same : other = who
    · subst other
      simpa [mine] using before
    · simpa [same, apart same] using before
  · simp only [State.setComplete, progress, true_iff]
    exact ⟨who, if_pos rfl⟩
  · intro unmoved other
    have before := ok.kept unmoved who (Or.inl mine)
    simp only [State.setComplete, progress]
    by_cases same : other = who
    · subst other
      intro _
      rw [before]
      cases who <;> rfl
    · simp [same]
  · exact ok.lost_update (by simp)

end Completed

/-! ## The promise -/

/-- A call that sets the promise, and its call of `sFutureComplete`. -/
structure SetOk (entry : SetCall) (frame : CompleteFrame) : Prop where
  idle : entry.frame = .idle -> frame = .idle
  completing : entry.frame = .completing -> frame ≠ .idle
  dropping : entry.frame = .dropping -> frame = .idle ∨ frame = .returned false
  returned : entry.frame = .returned -> frame = .idle ∨ Exists fun won => frame = .returned won
  destroyed : entry.destroyed = if entry.frame = .returned ∧ frame ≠ .returned true ∧
    entry.result.owned ≠ none then 1 else 0

theorem SetOk.setFrame {entry : SetCall} {frame moved : CompleteFrame} (ok : SetOk entry frame)
    (busy : frame ≠ .idle) (open_ : forall won, frame ≠ .returned won) (still : moved ≠ .idle) :
    SetOk entry moved := by
  have completing : entry.frame = .completing := by
    cases now : entry.frame with
    | idle => exact absurd (ok.idle now) busy
    | completing => rfl
    | dropping =>
        rcases ok.dropping now with idle | lost
        · exact absurd idle busy
        · exact absurd lost (open_ false)
    | returned =>
        rcases ok.returned now with idle | ⟨won, ended⟩
        · exact absurd idle busy
        · exact absurd ended (open_ won)
  have destroyed := ok.destroyed
  simp only [completing, reduceCtorEq, false_and, if_false] at destroyed
  constructor <;> simp [completing, still, destroyed]

/-- The promise: `fulfiller` is the call that won the exchange on it. -/
structure Promised (s : State) (fulfiller : Option Completer) : Prop where
  fulfilled : s.isFulfilled = true ↔ fulfiller ≠ none
  entered : forall who, (forall n, who ≠ .cancel n) ->
    (s.complete who ≠ .idle ↔ fulfiller = some who)
  sets : forall call, SetOk (s.sets call) (s.complete (.set call))
  promise : forall n, fulfiller ≠ some (.cancel n)
  destroyIdle : s.destroy = .idle -> s.complete .destroy = .idle
  destroyOver : s.destroy = .releasing ∨ s.destroy = .returned ->
    s.complete .destroy = .idle ∨ Exists fun won => s.complete .destroy = .returned won
  after : s.destroy ≠ .idle -> s.isFulfilled = true ∧
    forall call, (s.sets call).frame = .idle ∨ (s.sets call).frame = .returned

namespace Promised

variable {s : State} {fulfiller : Option Completer}

/-- A completing call moves on. -/
theorem setComplete (ok : Promised s fulfiller) (who : Completer) (frame : CompleteFrame)
    (busy : s.complete who ≠ .idle) (open_ : forall won, s.complete who ≠ .returned won)
    (still : frame ≠ .idle) : Promised (s.setComplete who frame) fulfiller := by
  refine { ok with entered := ?_, sets := ?_, destroyIdle := ?_, destroyOver := ?_ }
  · intro other promise
    have before := ok.entered other promise
    by_cases mine : other = who
    · subst other
      simp only [State.setComplete, Function.update_self]
      simpa [still, busy] using before
    · simpa only [State.setComplete, Function.update_of_ne mine] using before
  · intro call
    by_cases mine : Completer.set call = who
    · subst who
      simp only [State.setComplete, Function.update_self]
      exact (ok.sets call).setFrame busy open_ still
    · simp only [State.setComplete, Function.update_of_ne mine]
      exact ok.sets call
  · intro idle
    have before := ok.destroyIdle idle
    by_cases mine : Completer.destroy = who
    · subst who
      exact absurd before busy
    · simpa only [State.setComplete, Function.update_of_ne mine] using before
  · intro ended
    have before := ok.destroyOver ended
    by_cases mine : Completer.destroy = who
    · subst who
      rcases before with idle | ⟨won, returned⟩
      · exact absurd idle busy
      · exact absurd returned (open_ won)
    · simpa only [State.setComplete, Function.update_of_ne mine] using before

/-- The cancel callback does not concern the promise. -/
theorem callback (ok : Promised s fulfiller) (n : NodeId) (frame : CompleteFrame) :
    Promised (s.setComplete (.cancel n) frame) fulfiller := by
  refine { ok with entered := ?_, sets := ?_, destroyIdle := ?_, destroyOver := ?_ }
  · intro who promise
    simpa only [State.setComplete, Function.update_of_ne (promise n)] using ok.entered who promise
  · intro call
    simpa [State.setComplete] using ok.sets call
  · simpa [State.setComplete] using ok.destroyIdle
  · simpa [State.setComplete] using ok.destroyOver

/-- A call that sets the promise moves on by itself. -/
theorem setSets (ok : Promised s fulfiller) {call : CallId} {entry : SetCall}
    (new : SetOk entry (s.complete (.set call)))
    (early : s.destroy = .idle ∨ entry.frame = .idle ∨ entry.frame = .returned) :
    Promised { s with sets := Function.update s.sets call entry } fulfiller := by
  refine { ok with sets := ?_, after := ?_ }
  · intro other
    by_cases mine : other = call
    · subst other
      simpa only [Function.update_self] using new
    · simpa only [Function.update_of_ne mine] using ok.sets other
  · intro begun
    have before := ok.after begun
    refine ⟨before.1, ?_⟩
    intro other
    by_cases mine : other = call
    · subst other
      simpa only [Function.update_self] using early.resolve_left begun
    · simpa only [Function.update_of_ne mine] using before.2 other

theorem setExchange (ok : Promised s fulfiller) {call : CallId} (result : Result)
    (early : s.destroy = .idle) (first : s.isFulfilled = false) :
    Promised { s.setComplete (.set call) .entered with
      isFulfilled := true, sets := Function.update s.sets call ⟨result, .completing, 0⟩ }
      (some (.set call)) := by
  have fresh : fulfiller = none := by
    by_contra some
    have fulfilled := ok.fulfilled.mpr some
    simp [first] at fulfilled
  constructor
  · simp
  · intro who promise
    have before := ok.entered who promise
    by_cases mine : who = .set call
    · subst who
      simp [State.setComplete]
    · simp only [State.setComplete, Function.update_of_ne mine]
      simpa [fresh, Ne.symm mine] using before
  · intro other
    by_cases mine : other = call
    · subst other
      simp only [State.setComplete, Function.update_self]
      constructor <;> simp
    · have apart : Completer.set other ≠ .set call := by simpa using mine
      simpa only [State.setComplete, Function.update_of_ne mine, Function.update_of_ne apart]
        using ok.sets other
  · simp
  · intro _
    simpa [State.setComplete] using ok.destroyIdle early
  · simp [State.setComplete, early]
  · intro begun
    exact absurd early begun

theorem destroyExchange (ok : Promised s fulfiller)
    (first : s.isFulfilled = false)
    (ended : forall call, (s.sets call).frame = .idle ∨ (s.sets call).frame = .returned) :
    Promised { s.setComplete .destroy .entered with isFulfilled := true, destroy := .completing }
      (some .destroy) := by
  have fresh : fulfiller = none := by
    by_contra some
    have fulfilled := ok.fulfilled.mpr some
    simp [first] at fulfilled
  constructor
  · simp
  · intro who promise
    have before := ok.entered who promise
    by_cases mine : who = .destroy
    · subst who
      simp [State.setComplete]
    · simp only [State.setComplete, Function.update_of_ne mine]
      simpa [fresh, Ne.symm mine] using before
  · intro call
    simpa [State.setComplete] using ok.sets call
  · simp
  · simp
  · simp
  · intro _
    exact ⟨rfl, ended⟩

end Promised

/-! ## Every reachable state -/

/-- Both exchanges are decided as described. -/
def Decided (s : State) : Prop :=
  Completed s ∧ Exists fun fulfiller => Promised s fulfiller

namespace Decided

variable {s : State}

/-- A completing call moves on without passing one of the decisive steps. -/
theorem advance (ok : Decided s) {who : Completer} {before : CompleteFrame}
    (after : CompleteFrame)
    (here : s.complete who = before)
    (busy : before ≠ .idle ∧ (forall won, before ≠ .returned won) ∧ after ≠ .idle)
    (same : after.progress = before.progress)
    (lost : after = .returned false -> s.isCompleted = true) :
    Decided (s.setComplete who after) := by
  rcases ok with ⟨completed, fulfiller, promised⟩
  subst before
  exact ⟨completed.advance _ _ same lost, fulfiller, promised.setComplete _ _ busy.1 busy.2.1 busy.2.2⟩

theorem react (ok : Decided s) (linked : Linked s)
    (reached : Cancellation.machine.Reachable s.registry) {event : Cancellation.Event}
    (may : Cancellation.enabled s.registry event) :
    Decided { s.react event with registry := Cancellation.next s.registry event } := by
  rcases ok with ⟨completed, fulfiller, promised⟩
  rcases react_cases s event with same | ⟨n, starts, attached, same⟩ | same
  · rw [same]
    exact ⟨{ completed with }, fulfiller, { promised with }⟩
  · have idle := linked.uncalled reached may starts attached
    have entered := completed.advance (.cancel n) .entered (by rw [idle]; rfl)
      (by simp)
    have kept := promised.callback n .entered
    rw [same]
    exact ⟨{ entered with }, fulfiller, { kept with }⟩
  · rw [same]
    exact ⟨{ completed with }, fulfiller, { promised with }⟩

theorem next (ok : Decided s) (linked : Linked s)
    (reached : Cancellation.machine.Reachable s.registry) {event : Event} (may : enabled s event) :
    Decided (Future.next s event) := by
  rcases ok with ⟨completed, fulfiller, promised⟩
  have ok : Decided s := ⟨completed, fulfiller, promised⟩
  cases event with
  | registry event => exact ok.react linked reached may.1
  | setExchange call result =>
      have idle := (promised.sets call).idle may.1
      have outside : (s.complete (.set call)).progress = .outside := by rw [idle]; rfl
      simp only [Future.next]
      split
      · refine ⟨completed.setSets _ _ (Or.inl outside), fulfiller,
          promised.setSets ?_ (Or.inl may.2)⟩
        constructor <;> simp [idle]
      next first =>
          have entered := completed.advance (.set call) .entered
            (by rw [outside]; rfl) (by simp)
          have kept := entered.setSets call ⟨result, .completing, 0⟩
            (Or.inl (by simp [State.setComplete, CompleteFrame.progress]))
          exact ⟨{ kept with }, _,
            promised.setExchange result may.2 (by simpa using first)⟩
  | setCompleted call won =>
      have here := may.1
      have ended := may.2
      have entry := promised.sets call
      have destroyed : (s.sets call).destroyed = 0 := by
        rw [entry.destroyed, here]
        simp
      have early : s.destroy = .idle := by
        by_contra begun
        rcases (promised.after begun).2 call with idle | returned
        · simp [here] at idle
        · simp [here] at returned
      refine ⟨completed.setSets _ _ (Or.inr rfl), fulfiller, promised.setSets ?_ (Or.inl early)⟩
      rw [ended]
      cases won <;> constructor <;> simp [destroyed]
  | setDrop call =>
      have here : (s.sets call).frame = .dropping := may
      have entry := promised.sets call
      have destroyed : (s.sets call).destroyed = 0 := by
        rw [entry.destroyed, here]
        simp
      have lost := entry.dropping here
      refine ⟨completed.setSets _ _ (Or.inr rfl), fulfiller,
        promised.setSets ?_ (Or.inr (Or.inr rfl))⟩
      rcases lost with idle | lost
      · rw [idle]
        constructor <;> simp [destroyed]
      · rw [lost]
        constructor <;> simp [destroyed]
  | destroyExchange =>
      have idle := promised.destroyIdle may.1
      simp only [Future.next]
      split
      next set =>
          refine ⟨{ completed with }, fulfiller, { promised with
            destroyIdle := ?_, destroyOver := ?_, after := ?_ }⟩
          · simp
          · exact fun _ => Or.inl idle
          · exact fun _ => ⟨set, may.2⟩
      next first =>
          have entered := completed.advance .destroy .entered
            (by rw [idle]; rfl) (by simp)
          exact ⟨{ entered with }, _,
            promised.destroyExchange (by simpa using first) may.2⟩
  | destroyCompleted won =>
      refine ⟨{ completed with }, fulfiller, { promised with
        destroyIdle := ?_, destroyOver := ?_, after := ?_ }⟩
      · simp [Future.next]
      · exact fun _ => Or.inr ⟨won, may.2⟩
      · exact fun _ => promised.after (by rw [may.1]; simp)
  | destroyRelease =>
      have here : s.destroy = .releasing := may
      refine ⟨{ completed with }, fulfiller, { promised with
        destroyIdle := ?_, destroyOver := ?_, after := ?_ }⟩
      · simp [Future.next]
      · exact fun _ => promised.destroyOver (Or.inl here)
      · exact fun _ => promised.after (by rw [here]; simp)
  | completeExchange who =>
      have here : s.complete who = .entered := may
      simp only [Future.next]
      split
      next done => exact ok.advance _ here (by simp) rfl (fun _ => done)
      next first =>
          have entered := promised.setComplete who .writing (by simp [here])
            (by simp [here]) (by simp)
          exact ⟨completed.exchange who (by simpa using first), fulfiller, { entered with }⟩
  | completeWrite who =>
      have here : s.complete who = .writing := may
      have entered := promised.setComplete who .storing (by simp [here])
        (by simp [here]) (by simp)
      exact ⟨completed.write here, fulfiller, { entered with }⟩
  | completeReady who =>
      have here : s.complete who = .storing := may
      have entered := promised.setComplete who .taking (by simp [here])
        (by simp [here]) (by simp)
      exact ⟨completed.publish here, fulfiller, { entered with }⟩
  | completeTake who =>
      simp only [Future.next]
      split
      · exact ok.advance _ may (by simp) rfl (by simp)
      next handle _ =>
          have advanced := ok.advance (.unregistering handle) may (by simp) rfl (by simp)
          exact ⟨{ advanced.1 with }, advanced.2.imp fun _ kept => { kept with }⟩
  | completeUnregister who node =>
      have passed : Decided (s.passHandle node) :=
        ⟨{ completed with }, fulfiller, { promised with }⟩
      exact passed.advance _ may (by simp) rfl (by simp)
  | completeUnregistered who node won => exact ok.advance _ may.1 (by simp) rfl (by simp)
  | completeWake who => exact ok.advance _ may (by simp) rfl (by simp)
  | completeClose who =>
      have advanced := ok.advance (.draining s.continuations) may (by simp) rfl (by simp)
      exact ⟨{ advanced.1 with }, advanced.2.imp fun _ kept => { kept with }⟩
  | completeClaim who node rest =>
      simp only [Future.next]
      split
      · exact ok.advance _ may (by simp) rfl (by simp)
      · have advanced := ok.advance (.running node rest) may (by simp) rfl (by simp)
        exact ⟨{ advanced.1 with }, advanced.2.imp fun _ kept => { kept with }⟩
  | completeRan who node rest =>
      have advanced := ok.advance (.releasing node rest) may (by simp) rfl (by simp)
      exact ⟨{ advanced.1 with }, advanced.2.imp fun _ kept => { kept with }⟩
  | completeRelease who node rest =>
      have advanced := ok.advance (.draining rest) may (by simp) rfl (by simp)
      exact ⟨{ advanced.1 with }, advanced.2.imp fun _ kept => { kept with }⟩
  | completeReturn who => exact ok.advance _ may (by simp) rfl (by simp)
  | thenLoad node =>
      simp only [Future.next]
      split <;> exact ⟨{ completed with }, fulfiller, { promised with }⟩
  | thenPush node =>
      simp only [Future.next]
      split <;> exact ⟨{ completed with }, fulfiller, { promised with }⟩
  | attachClaim node =>
      simp only [Future.next]
      split <;> exact ⟨{ completed with }, fulfiller, { promised with }⟩
  | attachTake node =>
      simp only [Future.next]
      split <;> exact ⟨{ completed with }, fulfiller, { promised with }⟩
  | move =>
      refine ⟨{ completed with kept := ?_ }, fulfiller, { promised with }⟩
      intro unmoved
      cases unmoved
  | _ => exact ⟨{ completed with }, fulfiller, { promised with }⟩

end Decided

theorem decided_start : Decided start := by
  refine ⟨?_, none, ?_⟩
  · constructor <;> simp [start, CompleteFrame.progress]
  · constructor <;> simp [start]
    constructor <;> simp

theorem reachable_decided {s : State} (reached : machine.Reachable s) : Decided s := by
  refine reached.invariant _ ?_ ?_
  · intro s initial
    rw [show s = start from initial]
    exact decided_start
  · intro s event reached ok may
    exact ok.next (reachable_linked reached) (reachable_registry reached) may

/-! ## The contract -/

/-- The call has won the exchange on `is_completed`. -/
def CompleteFrame.Won (frame : CompleteFrame) : Prop :=
  frame.progress ≠ .outside

/-- Every `Cancel` call and every attachment that was begun has returned. -/
def State.CancelsReturned (s : State) : Prop :=
  (forall k, s.registry.cancel k = .idle ∨
    Exists fun t => Exists fun setFlag => s.registry.cancel k = .returned t setFlag) ∧
  forall n, (s.attach n).frame = .idle ∨
    Exists fun attached => (s.attach n).frame = .returned attached

/-- After the publication the result changes only by being moved out. -/
theorem result_next {s : State} {event : Event} (ok : Completed s) (ready : s.isReady = true)
    (may : enabled s event) : (next s event).isReady = true ∧
      ((next s event).moved = false -> s.moved = false ∧ (next s event).result = s.result) := by
  rcases ok.ready.mp ready with ⟨winner, published⟩
  have winning {who : Completer} {frame : CompleteFrame} (here : s.complete who = frame)
      (won : frame.progress ≠ .outside) : frame.progress = .published := by
    rw [<- here] at won ⊢
    by_contra other
    have apart : who ≠ winner := by
      rintro rfl
      exact other published
    exact won (ok.others (by simp [published]) apart)
  have unchanged : s.isReady = true ∧ (s.moved = false -> s.moved = false ∧ s.result = s.result) :=
    ⟨ready, fun unmoved => ⟨unmoved, rfl⟩⟩
  cases event with
  | registry event =>
      rcases react_cases s event with same | ⟨n, _, _, same⟩ | same <;>
        simp [next, same, ready, State.setComplete]
  | completeWrite who =>
      have impossible := winning may (by simp [CompleteFrame.progress])
      cases impossible
  | completeReady who => exact ⟨rfl, fun unmoved => ⟨unmoved, rfl⟩⟩
  | move =>
      refine ⟨ready, ?_⟩
      intro unmoved
      cases unmoved
  | setExchange call result => simp only [next]; split <;> exact unchanged
  | destroyExchange => simp only [next]; split <;> exact unchanged
  | completeExchange who => simp only [next]; split <;> exact unchanged
  | completeTake who => simp only [next]; split <;> exact unchanged
  | completeClaim who node rest => simp only [next]; split <;> exact unchanged
  | thenLoad node => simp only [next]; split <;> exact unchanged
  | thenPush node => simp only [next]; split <;> exact unchanged
  | attachClaim node => simp only [next]; split <;> exact unchanged
  | attachTake node => simp only [next]; split <;> exact unchanged
  | _ => exact unchanged

/-- A callback that has been entered and not left is being run by a `Cancel` call
or by its own attachment. -/
theorem callback_over {s : State} (reached : machine.Reachable s) (idle : s.CancelsReturned)
    {n : NodeId} (entered : s.complete (.cancel n) ≠ .idle) :
    Exists fun won => s.complete (.cancel n) = .returned won := by
  have linked := reachable_linked reached n
  have attached : (s.attach n).frame ≠ .idle := fun outside => entered (linked.outside outside)
  apply linked.finished attached
  intro unfinished
  rcases Cancellation.reachable_consistent (reachable_registry reached) with ⟨life, _, _, ok⟩
  have entry := ok.entries n
  have started : (s.registry.registrations n).started ≠ 0 :=
    fun zero => entered ((linked.started attached).mpr zero)
  rw [entry.started] at started
  rw [entry.finished] at unfinished
  cases phase : life n with
  | running k =>
      have running := (ok.lists.running k n).mpr phase
      rcases idle.1 k with none | ⟨t, setFlag, returned⟩
      · simp [none] at running
      · simp [returned] at running
  | inlineRunning =>
      have running := entry.inlineRunning.mp phase
      rcases idle.2 n with none | ⟨won, returned⟩
      · exact attached none
      · cases won with
        | true =>
            have register := linked.after (by rw [returned]; rfl)
            simp [running] at register
        | false =>
            have register := linked.failed (by rw [returned]; rfl)
            simp [running] at register
  | _ => simp [phase, Cancellation.Life.started, Cancellation.Life.finished] at started unfinished

/-- The contract of completion. -/
structure SingleCompletion (s : State) : Prop where
  /-- At most one call has won the exchange. -/
  oneWinner : forall who other, (s.complete who).Won -> (s.complete other).Won -> who = other
  /-- The future is ready only after the winner has stored its result. -/
  readyStored : s.isReady = true -> Exists fun who => (s.complete who).progress = .published
  /-- What is stored is the winner's argument, until it is moved out. -/
  winnersResult : s.isReady = true -> s.moved = false -> forall who, (s.complete who).Won ->
    s.result = s.argument who
  /-- It never changes again, until it is moved out. -/
  neverChanges : s.isReady = true -> forall events after, machine.Run s events after ->
    after.moved = false -> after.result = s.result
  /-- Every losing call that sets the promise destroys its own value exactly once. -/
  loserDestroys : forall call, (s.sets call).frame = .returned -> ¬ (s.complete (.set call)).Won ->
    (s.sets call).destroyed = if (s.sets call).result.owned = none then 0 else 1
  /-- A call destroys its value at most once, and never the winning one. -/
  winnerKeeps : forall call, (s.sets call).destroyed ≤ 1 ∧
    ((s.complete (.set call)).Won -> (s.sets call).destroyed = 0)
  /-- When the promise is destroyed and nothing is being cancelled the future is ready. -/
  readyAtEnd : s.destroy = .returned -> s.CancelsReturned -> s.isReady = true

theorem singleCompletion {s : State} (reached : machine.Reachable s) : SingleCompletion s := by
  rcases reachable_decided reached with ⟨completed, fulfiller, promised⟩
  constructor
  · intro who other first second
    have mine := (completed.won who).mp first
    have theirs := (completed.won other).mp second
    rw [mine] at theirs
    exact Option.some.inj theirs
  · intro ready
    exact completed.ready.mp ready
  · intro ready unmoved who won
    rcases completed.ready.mp ready with ⟨winner, published⟩
    have same : who = winner := by
      by_contra different
      exact won (completed.others (by simp [published]) different)
    subst winner
    exact completed.kept unmoved who (Or.inr published)
  · intro ready events after run unmoved
    have stable : after.isReady = true ∧ (after.moved = false -> after.result = s.result) := by
      refine run.stable (fun t => t.isReady = true ∧
        (t.moved = false -> t.result = s.result)) ?_ reached ⟨ready, fun _ => rfl⟩
      intro t event reached kept may
      have step := result_next (reachable_decided reached).1 kept.1 may
      refine ⟨step.1, ?_⟩
      intro unmoved
      have same := step.2 unmoved
      exact same.2.trans (kept.2 same.1)
    exact stable.2 unmoved
  · intro call returned lost
    have entry := promised.sets call
    have notWon : s.complete (.set call) ≠ .returned true := by
      intro won
      exact lost (by rw [won]; simp [CompleteFrame.Won, CompleteFrame.progress])
    rw [entry.destroyed]
    by_cases unowned : (s.sets call).result.owned = none <;> simp [returned, notWon, unowned]
  · intro call
    have entry := promised.sets call
    refine ⟨by rw [entry.destroyed]; split <;> simp, ?_⟩
    intro won
    rw [entry.destroyed, if_neg]
    rintro ⟨returned, notWon, _⟩
    rcases entry.returned returned with idle | ⟨answer, ended⟩
    · simp [idle, CompleteFrame.Won, CompleteFrame.progress] at won
    · cases answer with
      | true => exact notWon ended
      | false => simp [ended, CompleteFrame.Won, CompleteFrame.progress] at won
  · intro destroyed idle
    have ended := promised.after (by simp [destroyed])
    rcases Option.ne_none_iff_exists'.mp (promised.fulfilled.mp ended.1) with ⟨first, fulfiller⟩
    -- The call that fulfilled the promise has returned, so somebody has won.
    have promiseOver (who : Completer) (promise : forall n, who ≠ .cancel n)
        (entered : s.complete who ≠ .idle) : Exists fun won => s.complete who = .returned won := by
      cases who with
      | destroy => exact (promised.destroyOver (Or.inr destroyed)).resolve_left entered
      | cancel n => exact absurd rfl (promise n)
      | set call =>
          rcases ended.2 call with fresh | returned
          · exact absurd ((promised.sets call).idle fresh) entered
          · exact ((promised.sets call).returned returned).resolve_left entered
    have allOver (who : Completer) (entered : s.complete who ≠ .idle) :
        Exists fun won => s.complete who = .returned won := by
      cases who with
      | cancel n => exact callback_over reached idle entered
      | set call => exact promiseOver _ (by simp) entered
      | destroy => exact promiseOver _ (by simp) entered
    have promise : forall n, first ≠ .cancel n := by
      rintro n rfl
      exact promised.promise n fulfiller
    rcases allOver first ((promised.entered first promise).mpr fulfiller) with ⟨won, returned⟩
    have done : s.isCompleted = true := by
      cases won with
      | false => exact completed.lost first returned
      | true =>
          have winner := (completed.won first).mp (by simp [returned, CompleteFrame.progress])
          exact completed.completed.mpr (by simp [winner])
    rcases Option.ne_none_iff_exists'.mp (completed.completed.mp done) with ⟨winner, decided⟩
    have past := (completed.won winner).mpr decided
    rcases allOver winner (fun idle => past (by simp [idle, CompleteFrame.progress])) with
      ⟨answer, finished⟩
    refine completed.ready.mpr ⟨winner, ?_⟩
    cases answer with
    | true => rw [finished]; rfl
    | false => exact absurd (by rw [finished]; rfl) past

/-- Two calls set the promise, the second one too late. -/
def setTwice : List Event :=
  [.setExchange 0 ⟨0, some 7, true⟩, .completeExchange (.set 0), .completeWrite (.set 0),
    .completeReady (.set 0), .completeTake (.set 0), .completeWake (.set 0),
    .completeClose (.set 0), .completeReturn (.set 0), .setCompleted 0 true,
    .setExchange 1 ⟨0, some 8, true⟩, .setDrop 1]

theorem singleCompletion_setTwice :
    SingleCompletion (machine.after start setTwice) ∧
      (machine.after start setTwice).result = ⟨0, some 7, true⟩ ∧
      ((machine.after start setTwice).sets 1).destroyed = 1 := by
  have may : machine.AllEnabled start setTwice := by
    repeat' first | exact trivial | exact rfl | apply And.intro
  exact ⟨singleCompletion (.run (.start rfl) may.run), rfl, rfl⟩

end Future
end UfsrvRx
