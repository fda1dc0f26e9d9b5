import UfsrvRx.Future.Completion

namespace UfsrvRx
namespace Future

open Transition

/-!
# The attachment protocol

At most one attachment gets past the exchange on the token cell.  The handle it
obtains travels: from the attaching call into the handle cell, and from there to
whoever takes it out, the completing call or the attaching call itself, which
passes it to `Unregister`.  The invariant names the holder of the handle, and
says why a handle that is left in the cell of a completed future will be found.
-/

/-- Who has the handle of a registration. -/
inductive Holder
  | nobody
  | cell
  | completer (who : Completer)
  | attacher (node : NodeId)
  | consumed
deriving DecidableEq, Repr

namespace CompleteFrame

/-- The handle in the hands of the call. -/
@[grind =] def handle : CompleteFrame -> Option NodeId
  | unregistering node => some node
  | idle | entered | writing | storing | taking | awaiting _ | waking | closing | draining _
  | running _ _ | releasing _ _ | returned _ => none

/-- The handle whose `Unregister` the call is making. -/
@[grind =] def awaited : CompleteFrame -> Option NodeId
  | awaiting node => some node
  | idle | entered | writing | storing | taking | unregistering _ | waking | closing | draining _
  | running _ _ | releasing _ _ | returned _ => none

/-- The call has won the exchange and has not yet looked into the handle cell. -/
@[grind =] def willTake : CompleteFrame -> Bool
  | writing | storing | taking => true
  | idle | entered | unregistering _ | awaiting _ | waking | closing | draining _ | running _ _
  | releasing _ _ | returned _ => false

end CompleteFrame

namespace AttachFrame

@[grind =] def handle : AttachFrame -> Option NodeId
  | unregistering node => some node
  | idle | claiming | retainingToken | retainingFuture | registering | storing | checking | taking
  | awaiting _ | rollingBack | destroyingToken _ | releasingFuture | returned _ => none

@[grind =] def awaited : AttachFrame -> Option NodeId
  | awaiting node => some node
  | idle | claiming | retainingToken | retainingFuture | registering | storing | checking | taking
  | unregistering _ | rollingBack | destroyingToken _ | releasingFuture | returned _ => none

/-- The call has put the handle into the cell and will look at the future again. -/
@[grind =] def willCheck : AttachFrame -> Bool
  | checking | taking => true
  | idle | claiming | retainingToken | retainingFuture | registering | storing | unregistering _
  | awaiting _ | rollingBack | destroyingToken _ | releasingFuture | returned _ => false

/-- The handle has been put into the cell. -/
@[grind =] def stored : AttachFrame -> Bool
  | checking | taking | unregistering _ | awaiting _ => true
  | returned attached => attached
  | idle | claiming | retainingToken | retainingFuture | registering | storing | rollingBack
  | destroyingToken _ | releasingFuture => false

/-- The call owns the token cell. -/
@[grind =] def inside : AttachFrame -> Bool
  | retainingToken | retainingFuture | registering | storing | checking | taking
  | unregistering _ | awaiting _ => true
  | returned attached => attached
  | idle | claiming | rollingBack | destroyingToken _ | releasingFuture => false

theorem inside_of_stored {frame : AttachFrame} (kept : frame.stored = true) :
    frame.inside = true := by
  cases frame <;> simp_all [stored, inside]

theorem after_of_stored {frame : AttachFrame} (kept : frame.stored = true) :
    frame.stage = .after := by
  cases frame <;> simp_all [stored, stage]

end AttachFrame

/-- Where the handles are. -/
structure Handled (s : State) (holder : NodeId -> Holder) : Prop where
  cell : forall n, s.cancelHandle = some n ↔ holder n = .cell
  completer : forall who n, (s.complete who).handle = some n ↔ holder n = .completer who
  attacher : forall a n, (s.attach a).frame.handle = some n ↔ holder n = .attacher a
  consumed : forall n, s.consumed n = if holder n = .consumed then 1 else 0
  stored : forall n, holder n ≠ .nobody ↔ (s.attach n).frame.stored = true
  unregister : forall n, s.Attached n ->
    ((s.registry.registrations n).unregister = .idle ↔ holder n ≠ .consumed)
  settled : forall n, holder n = .consumed ->
    (Exists fun won => (s.registry.registrations n).unregister = .returned won) ∨
    (Exists fun who => (s.complete who).awaited = some n) ∨
    Exists fun a => (s.attach a).frame.awaited = some n
  one : forall a b, (s.attach a).frame.inside = true -> (s.attach b).frame.inside = true -> a = b
  token : forall a, (s.attach a).frame.inside = true -> s.cancelToken = some (s.attach a).token
  due : forall n, holder n = .cell -> s.isCompleted = true ->
    (Exists fun who => (s.complete who).willTake = true) ∨ (s.attach n).frame.willCheck = true
  taken : forall n, holder n ≠ .nobody -> holder n ≠ .cell -> s.isCompleted = true
  taking : forall a, (s.attach a).frame = .taking -> s.isCompleted = true

namespace Handled

variable {s : State} {holder : NodeId -> Holder}

theorem attach_setAttach (s : State) (a : NodeId) (frame : AttachFrame) (b : NodeId) :
    ((s.setAttach a frame).attach b).frame = (if b = a then frame else (s.attach b).frame) ∧
      ((s.setAttach a frame).attach b).token = (s.attach b).token := by
  by_cases mine : b = a
  · subst b
    simp [State.setAttach]
  · simp [State.setAttach, mine]

/-- A completing call moves on without touching a handle. -/
theorem reframe (ok : Handled s holder) (who : Completer) (frame : CompleteFrame)
    (handle : frame.handle = (s.complete who).handle)
    (awaited : forall n, (s.complete who).awaited = some n -> frame.awaited = some n ∨
      Exists fun won => (s.registry.registrations n).unregister = .returned won)
    (willTake : (s.complete who).willTake = true -> frame.willTake = true ∨ s.cancelHandle = none) :
    Handled (s.setComplete who frame) holder := by
  have sameHandle := view_update_same CompleteFrame.handle s.complete handle
  refine { ok with completer := ?_, settled := ?_, due := ?_ }
  · intro other n
    have before := ok.completer other n
    simp only [State.setComplete]
    rwa [congrFun sameHandle other]
  · intro n consumed
    rcases ok.settled n consumed with returned | ⟨other, waiting⟩ | attaching
    · exact Or.inl returned
    · by_cases mine : other = who
      · subst other
        rcases awaited n waiting with still | returned
        · exact Or.inr (Or.inl ⟨who, by simpa [State.setComplete] using still⟩)
        · exact Or.inl returned
      · exact Or.inr (Or.inl ⟨other, by simpa [State.setComplete, mine] using waiting⟩)
    · exact Or.inr (Or.inr attaching)
  · intro n inCell completed
    rcases ok.due n inCell completed with ⟨other, takes⟩ | checks
    · by_cases mine : other = who
      · subst other
        rcases willTake takes with still | empty
        · exact Or.inl ⟨who, by simpa [State.setComplete] using still⟩
        · have full := (ok.cell n).mpr inCell
          rw [empty] at full
          cases full
      · exact Or.inl ⟨other, by simpa [State.setComplete, mine] using takes⟩
    · exact Or.inr checks

/-- An attaching call moves on without touching a handle or the token cell. -/
theorem reattach (ok : Handled s holder) {a : NodeId} {frame : AttachFrame}
    (busy : s.Attached a) (handle : frame.handle = (s.attach a).frame.handle)
    (awaited : forall n, (s.attach a).frame.awaited = some n -> frame.awaited = some n ∨
      Exists fun won => (s.registry.registrations n).unregister = .returned won)
    (stored : frame.stored = (s.attach a).frame.stored)
    (inside : frame.inside = (s.attach a).frame.inside)
    (willCheck : (s.attach a).frame.willCheck = true ->
      frame.willCheck = true ∨ s.isCompleted = false ∨ s.cancelHandle = none)
    (taking : frame = .taking -> s.isCompleted = true) :
    Handled (s.setAttach a frame) holder := by
  have attach (b : NodeId) := (attach_setAttach s a frame b).1
  have token (b : NodeId) := (attach_setAttach s a frame b).2
  have sameInside (b : NodeId) : ((s.setAttach a frame).attach b).frame.inside =
      (s.attach b).frame.inside := by
    rw [attach b]
    split
    next mine => rw [mine, inside]
    next => rfl
  constructor
  · exact ok.cell
  · exact ok.completer
  · intro b n
    rw [attach b, <- ok.attacher b n]
    split
    next mine => rw [mine, handle]
    next => rfl
  · exact ok.consumed
  · intro n
    rw [attach n, ok.stored n]
    split
    next mine => rw [mine, stored]
    next => rfl
  · intro n attached
    refine ok.unregister n ?_
    unfold State.Attached at attached
    rw [attach n] at attached
    split at attached
    next mine => rw [mine]; exact busy
    next => exact attached
  · intro n consumed
    rcases ok.settled n consumed with returned | completing | ⟨b, waiting⟩
    · exact Or.inl returned
    · exact Or.inr (Or.inl completing)
    · by_cases mine : b = a
      · subst b
        rcases awaited n waiting with still | returned
        · exact Or.inr (Or.inr ⟨a, by rw [attach a, if_pos rfl]; exact still⟩)
        · exact Or.inl returned
      · exact Or.inr (Or.inr ⟨b, by rw [attach b, if_neg mine]; exact waiting⟩)
  · intro b c
    rw [sameInside b, sameInside c]
    exact ok.one b c
  · intro b
    rw [sameInside b, token b]
    exact ok.token b
  · intro n inCell completed
    rcases ok.due n inCell completed with takes | checks
    · exact Or.inl takes
    · by_cases mine : n = a
      · subst n
        rcases willCheck checks with still | early | empty
        · exact Or.inr (by rw [attach a, if_pos rfl]; exact still)
        · exact absurd completed (by
            change ¬ s.isCompleted = true
            simp [early])
        · have full := (ok.cell a).mpr inCell
          rw [empty] at full
          cases full
      · exact Or.inr (by rw [attach n, if_neg mine]; exact checks)
  · exact ok.taken
  · intro b
    rw [attach b]
    split
    next mine => exact taking
    next => exact ok.taking b

/-- The winner of the exchange has yet to look into the cell. -/
theorem exchange (ok : Handled s holder) {who : Completer} (entered : s.complete who = .entered) :
    Handled { s.setComplete who .writing with isCompleted := true, winner := some who }
      holder := by
  have moved := ok.reframe who .writing (by rw [entered]; rfl)
    (by simp [entered, CompleteFrame.awaited]) (by simp [entered, CompleteFrame.willTake])
  refine { moved with due := ?_, taken := ?_, taking := ?_ }
  · intro n _ _
    exact Or.inl ⟨who, by simp [State.setComplete, CompleteFrame.willTake]⟩
  · exact fun _ _ _ => rfl
  · exact fun _ _ => rfl

/-- The completing call takes the handle out of the cell. -/
theorem take (ok : Handled s holder) {who : Completer} {h : NodeId}
    (here : s.complete who = .taking) (full : s.cancelHandle = some h)
    (completed : s.isCompleted = true) :
    Handled { s.setComplete who (.unregistering h) with cancelHandle := none }
      (Function.update holder h (.completer who)) := by
  have inCell := (ok.cell h).mp full
  have single (n : NodeId) (other : holder n = .cell) : n = h := by
    have same := (ok.cell n).mpr other
    rw [full] at same
    exact (Option.some.inj same).symm
  have handles (other : Completer) : (Function.update s.complete who (.unregistering h) other).handle =
      if other = who then some h else (s.complete other).handle := by
    by_cases mine : other = who
    · subst other
      simp [CompleteFrame.handle]
    · simp [mine]
  have mineBefore : (s.complete who).handle = none := by rw [here]; rfl
  constructor
  · intro n
    have := single n
    grind -linarith
  · intro other n
    have before := ok.completer other n
    simp only [State.setComplete, handles]
    grind -linarith
  · intro a n
    have before := ok.attacher a n
    simp only [State.setComplete]
    grind -linarith
  · intro n
    have before := ok.consumed n
    simp only [State.setComplete]
    grind -linarith
  · intro n
    have before := ok.stored n
    simp only [State.setComplete]
    grind -linarith
  · intro n attached
    have before := ok.unregister n attached
    simp only [State.setComplete]
    grind -linarith
  · intro n consumed
    have apart : n ≠ h := by
      rintro rfl
      simp at consumed
    rw [Function.update_of_ne apart] at consumed
    rcases ok.settled n consumed with returned | ⟨other, waiting⟩ | attaching
    · exact Or.inl returned
    · have different : other ≠ who := by
        rintro rfl
        simp [here, CompleteFrame.awaited] at waiting
      exact Or.inr (Or.inl ⟨other, by simpa [State.setComplete, different] using waiting⟩)
    · exact Or.inr (Or.inr attaching)
  · exact ok.one
  · exact ok.token
  · intro n still
    have := single n
    grind -linarith
  · exact fun _ _ _ => completed
  · exact ok.taking

/-- The attaching call takes the handle back out of the cell. -/
theorem takeBack (ok : Handled s holder) {a h : NodeId} (here : (s.attach a).frame = .taking)
    (full : s.cancelHandle = some h) :
    Handled { s.setAttach a (.unregistering h) with cancelHandle := none }
      (Function.update holder h (.attacher a)) := by
  have inCell := (ok.cell h).mp full
  have completed := ok.taking a here
  have single (n : NodeId) (other : holder n = .cell) : n = h := by
    have same := (ok.cell n).mpr other
    rw [full] at same
    exact (Option.some.inj same).symm
  have frames (b : NodeId) := (attach_setAttach s a (.unregistering h) b).1
  have tokens (b : NodeId) := (attach_setAttach s a (.unregistering h) b).2
  constructor
  · intro n
    have := single n
    grind -linarith
  · intro who n
    have before := ok.completer who n
    change (s.complete who).handle = some n ↔ _
    grind -linarith
  · intro b n
    have before := ok.attacher b n
    simp only [frames b]
    by_cases mine : b = a
    · subst b
      simp only [here, AttachFrame.handle, if_true] at before ⊢
      grind -linarith
    · simp only [mine, if_false]
      grind -linarith
  · intro n
    have before := ok.consumed n
    change s.consumed n = _
    grind -linarith
  · intro n
    have before := ok.stored n
    simp only [frames n]
    by_cases mine : n = a
    · subst n
      simp only [here, AttachFrame.stored, if_true] at before ⊢
      grind -linarith
    · simp only [mine, if_false]
      grind -linarith
  · intro n attached
    have before := ok.unregister n
    have earlier : s.Attached n := by
      unfold State.Attached at attached ⊢
      simp only [frames n] at attached
      by_cases mine : n = a
      · rw [mine, here]
        simp
      · simpa only [mine, if_false] using attached
    change (s.registry.registrations n).unregister = .idle ↔ _
    grind -linarith
  · intro n consumed
    have apart : n ≠ h := by
      rintro rfl
      simp at consumed
    rw [Function.update_of_ne apart] at consumed
    rcases ok.settled n consumed with returned | completing | ⟨b, waiting⟩
    · exact Or.inl returned
    · exact Or.inr (Or.inl completing)
    · have different : b ≠ a := by
        rintro rfl
        simp [here, AttachFrame.awaited] at waiting
      exact Or.inr (Or.inr ⟨b, by simp only [frames b, different, if_false]; exact waiting⟩)
  · intro b c
    have before := ok.one b c
    simp only [frames b, frames c]
    grind -linarith
  · intro b
    have before := ok.token b
    simp only [frames b, tokens b]
    change _ -> s.cancelToken = _
    grind -linarith
  · intro n still
    have := single n
    grind -linarith
  · exact fun _ _ _ => completed
  · exact fun _ _ => completed

/-- The attaching call publishes the handle. -/
theorem store (ok : Handled s holder) {a : NodeId} (here : (s.attach a).frame = .storing) :
    Handled { s.setAttach a .checking with cancelHandle := some a }
      (Function.update holder a .cell) := by
  have nobody : holder a = .nobody := by
    by_contra held
    have stored := (ok.stored a).mp held
    simp [here, AttachFrame.stored] at stored
  -- Only an attachment that owns the token cell has put a handle into the other one.
  have empty (n : NodeId) : holder n ≠ .cell := by
    intro inCell
    have stored := (ok.stored n).mp (by simp [inCell])
    have same := ok.one n a (AttachFrame.inside_of_stored stored) (by rw [here]; rfl)
    rw [same, nobody] at inCell
    cases inCell
  have frames (b : NodeId) := (attach_setAttach s a .checking b).1
  have tokens (b : NodeId) := (attach_setAttach s a .checking b).2
  constructor
  · intro n
    have := empty n
    change some a = some n ↔ _
    grind -linarith
  · intro who n
    have before := ok.completer who n
    change (s.complete who).handle = some n ↔ _
    grind -linarith
  · intro b n
    have before := ok.attacher b n
    simp only [frames b]
    grind -linarith
  · intro n
    have before := ok.consumed n
    change s.consumed n = _
    grind -linarith
  · intro n
    have before := ok.stored n
    simp only [frames n]
    grind -linarith
  · intro n attached
    have before := ok.unregister n
    have earlier : s.Attached n := by
      unfold State.Attached at attached ⊢
      simp only [frames n] at attached
      grind -linarith
    change (s.registry.registrations n).unregister = .idle ↔ _
    grind -linarith
  · intro n consumed
    have apart : n ≠ a := by
      rintro rfl
      simp at consumed
    rw [Function.update_of_ne apart] at consumed
    rcases ok.settled n consumed with returned | completing | ⟨b, waiting⟩
    · exact Or.inl returned
    · exact Or.inr (Or.inl completing)
    · have different : b ≠ a := by
        rintro rfl
        simp [here, AttachFrame.awaited] at waiting
      exact Or.inr (Or.inr ⟨b, by simp only [frames b, different, if_false]; exact waiting⟩)
  · intro b c
    have before := ok.one b c
    simp only [frames b, frames c]
    grind -linarith
  · intro b
    have before := ok.token b
    simp only [frames b, tokens b]
    change _ -> s.cancelToken = _
    grind -linarith
  · intro n inCell _
    have same : n = a := by
      by_contra apart
      rw [Function.update_of_ne apart] at inCell
      exact empty n inCell
    subst n
    exact Or.inr (by simp only [frames a, if_true]; rfl)
  · intro n held outside
    have before := ok.taken n
    change s.isCompleted = true
    grind -linarith
  · intro b
    have before := ok.taking b
    simp only [frames b]
    change _ -> s.isCompleted = true
    grind -linarith

/-- A handle that somebody has in hand leads to a registration that is still there. -/
theorem registration_live (ok : Handled s holder) (linked : Linked s) {h : NodeId}
    (stored : holder h ≠ .nobody) (unused : holder h ≠ .consumed) :
    (s.registry.registrations h).register = .returned ∧
      (s.registry.registrations h).unregister = .idle := by
  have kept := (ok.stored h).mp stored
  have attached : s.Attached h := by
    intro idle
    simp [idle, AttachFrame.stored] at kept
  exact ⟨(linked h).after (AttachFrame.after_of_stored kept), (ok.unregister h attached).mpr unused⟩

theorem registry_passLive {h : NodeId}
    (live : (s.registry.registrations h).register = .returned ∧
      (s.registry.registrations h).unregister = .idle) :
    (s.passHandle h).registry = Cancellation.next s.registry (.unregisterLock h) :=
  if_pos live

/-- The two states of an attachment differ at most in what it has in hand. -/
structure SameAttach (before after : AttachCall) : Prop where
  token : after.token = before.token
  inside : after.frame.inside = before.frame.inside
  stored : after.frame.stored = before.frame.stored
  willCheck : after.frame.willCheck = before.frame.willCheck
  taking : after.frame = .taking ↔ before.frame = .taking
  idle : after.frame = .idle ↔ before.frame = .idle

/-- The holder of a handle passes it to `Unregister`.  `after` differs from the
state so far only in the frame of the holder, which now waits for the answer. -/
theorem pass (ok : Handled s holder) (linked : Linked s) {h : NodeId} {after : State}
    (held : (Exists fun who => holder h = .completer who) ∨ Exists fun a => holder h = .attacher a)
    (cell : after.cancelHandle = s.cancelHandle) (token : after.cancelToken = s.cancelToken)
    (completed : after.isCompleted = s.isCompleted)
    (registry : after.registry = (s.passHandle h).registry)
    (consumed : after.consumed = (s.passHandle h).consumed)
    (completers : forall who, (after.complete who).handle =
      if holder h = .completer who then none else (s.complete who).handle)
    (attachers : forall a, (after.attach a).frame.handle =
      if holder h = .attacher a then none else (s.attach a).frame.handle)
    (frames : forall a, SameAttach (s.attach a) (after.attach a))
    (takes : forall who, (after.complete who).willTake = (s.complete who).willTake)
    (waits : forall n, ((Exists fun who => (s.complete who).awaited = some n) ∨
        Exists fun a => (s.attach a).frame.awaited = some n) ->
      (Exists fun who => (after.complete who).awaited = some n) ∨
        Exists fun a => (after.attach a).frame.awaited = some n)
    (waiting : (Exists fun who => (after.complete who).awaited = some h) ∨
        Exists fun a => (after.attach a).frame.awaited = some h) :
    Handled after (Function.update holder h .consumed) := by
  have stored : holder h ≠ .nobody := by
    rcases held with ⟨who, held⟩ | ⟨a, held⟩ <;> simp [held]
  have unused : holder h ≠ .consumed := by
    rcases held with ⟨who, held⟩ | ⟨a, held⟩ <;> simp [held]
  have outside : holder h ≠ .cell := by
    rcases held with ⟨who, held⟩ | ⟨a, held⟩ <;> simp [held]
  have live := ok.registration_live linked stored unused
  rw [registry_passLive live] at registry
  have others (n : NodeId) (apart : n ≠ h) : (after.registry.registrations n).unregister =
      (s.registry.registrations n).unregister := by
    rw [registry]
    have quiet : Cancellation.Event.subject (.unregisterLock h) ≠ some n := by
      simpa [Cancellation.Event.subject] using Ne.symm apart
    exact (Cancellation.sameCalls_next s.registry quiet).unregister
  constructor
  · intro n
    have before := ok.cell n
    rw [cell]
    grind -linarith
  · intro who n
    have before := ok.completer who n
    have mine := ok.completer who h
    rw [completers who]
    grind -linarith
  · intro a n
    have before := ok.attacher a n
    have mine := ok.attacher a h
    rw [attachers a]
    grind -linarith
  · intro n
    have before := ok.consumed n
    have mine := ok.consumed h
    rw [consumed]
    simp only [State.passHandle]
    by_cases same : n = h
    · subst n
      simp [mine, unused]
    · simpa [same] using before
  · intro n
    have before := ok.stored n
    rw [(frames n).stored]
    grind -linarith
  · intro n attached
    have earlier : s.Attached n := fun idle => attached ((frames n).idle.mpr idle)
    by_cases same : n = h
    · subst n
      have answered := Cancellation.unregister_answers s.registry h
      rw [registry]
      simp [answered]
    · rw [others n same, Function.update_of_ne same]
      exact ok.unregister n earlier
  · intro n gone
    by_cases same : n = h
    · subst n
      exact Or.inr waiting
    · rw [Function.update_of_ne same] at gone
      rw [others n same]
      rcases ok.settled n gone with returned | waited
      · exact Or.inl returned
      · exact Or.inr (waits n waited)
  · intro b c
    rw [(frames b).inside, (frames c).inside]
    exact ok.one b c
  · intro b
    rw [(frames b).inside, (frames b).token, token]
    exact ok.token b
  · intro n inCell
    have same : n ≠ h := by
      rintro rfl
      simp at inCell
    rw [Function.update_of_ne same] at inCell
    rw [completed, (frames n).willCheck]
    simp only [takes]
    exact ok.due n inCell
  · intro n held outsideCell
    rw [completed]
    by_cases same : n = h
    · subst n
      exact ok.taken h stored outside
    · rw [Function.update_of_ne same] at held outsideCell
      exact ok.taken n held outsideCell
  · intro b
    rw [(frames b).taking, completed]
    exact ok.taking b

theorem passByCompleter (ok : Handled s holder) (linked : Linked s) {who : Completer} {h : NodeId}
    (here : s.complete who = .unregistering h) :
    Handled ((s.passHandle h).setComplete who (.awaiting h)) (Function.update holder h .consumed) := by
  have mine : holder h = .completer who := (ok.completer who h).mp (by rw [here]; rfl)
  have frames (other : Completer) : ((s.passHandle h).setComplete who (.awaiting h)).complete other =
      if other = who then .awaiting h else s.complete other := by
    by_cases same : other = who
    · subst other
      simp [State.setComplete]
    · simp [State.setComplete, State.passHandle, same]
  refine ok.pass linked (Or.inl ⟨who, mine⟩) rfl rfl rfl rfl rfl ?_ ?_ ?_ ?_ ?_ ?_
  · intro other
    rw [frames other, mine]
    by_cases same : other = who
    · subst other
      simp [CompleteFrame.handle]
    · simp [same, Ne.symm same]
  · intro a
    simp [mine, State.setComplete, State.passHandle]
  · intro a
    exact ⟨rfl, rfl, rfl, rfl, Iff.rfl, Iff.rfl⟩
  · intro other
    rw [frames other]
    by_cases same : other = who
    · subst other
      simp [here, CompleteFrame.willTake]
    · simp [same]
  · rintro n (⟨other, waited⟩ | attaching)
    · refine Or.inl ⟨other, ?_⟩
      have different : other ≠ who := by
        rintro rfl
        simp [here, CompleteFrame.awaited] at waited
      rw [frames other, if_neg different]
      exact waited
    · exact Or.inr attaching
  · exact Or.inl ⟨who, by rw [frames who, if_pos rfl]; rfl⟩

theorem passByAttacher (ok : Handled s holder) (linked : Linked s) {a h : NodeId}
    (here : (s.attach a).frame = .unregistering h) :
    Handled ((s.passHandle h).setAttach a (.awaiting h)) (Function.update holder h .consumed) := by
  have mine : holder h = .attacher a := (ok.attacher a h).mp (by rw [here]; rfl)
  have frames (b : NodeId) := (attach_setAttach (s.passHandle h) a (.awaiting h) b).1
  have tokens (b : NodeId) := (attach_setAttach (s.passHandle h) a (.awaiting h) b).2
  have passed (b : NodeId) : (s.passHandle h).attach b = s.attach b := rfl
  refine ok.pass linked (Or.inr ⟨a, mine⟩) rfl rfl rfl rfl rfl ?_ ?_ ?_ ?_ ?_ ?_
  · intro who
    simp [mine, State.setAttach, State.passHandle]
  · intro b
    rw [frames b, mine]
    by_cases same : b = a
    · subst b
      simp [AttachFrame.handle]
    · simp [same, Ne.symm same, passed b]
  · intro b
    by_cases same : b = a
    · subst b
      constructor <;> simp [frames a, tokens a, passed a, here, AttachFrame.inside,
        AttachFrame.stored, AttachFrame.willCheck]
    · constructor <;> simp [frames b, tokens b, passed b, same]
  · exact fun _ => rfl
  · rintro n (completing | ⟨b, waited⟩)
    · exact Or.inl completing
    · refine Or.inr ⟨b, ?_⟩
      have different : b ≠ a := by
        rintro rfl
        simp [here, AttachFrame.awaited] at waited
      rw [frames b, if_neg different]
      exact waited
  · exact Or.inr ⟨a, by rw [frames a, if_pos rfl]; rfl⟩

/-- The attaching call wins or gives back the token cell. -/
theorem occupy (ok : Handled s holder) {a : NodeId} (frame : AttachFrame) (token : Option TokenId)
    (busy : s.Attached a) (handle : frame.handle = (s.attach a).frame.handle)
    (awaited : frame.awaited = (s.attach a).frame.awaited)
    (stored : frame.stored = (s.attach a).frame.stored)
    (willCheck : frame.willCheck = (s.attach a).frame.willCheck) (taking : frame ≠ .taking)
    (alone : forall b, b ≠ a -> (s.attach b).frame.inside = false)
    (held : frame.inside = true -> token = some (s.attach a).token) :
    Handled { s.setAttach a frame with cancelToken := token } holder := by
  have frames (b : NodeId) := (attach_setAttach s a frame b).1
  have tokens (b : NodeId) := (attach_setAttach s a frame b).2
  constructor
  · exact ok.cell
  · exact ok.completer
  · intro b n
    simp only [frames b]
    rw [<- ok.attacher b n]
    split
    next mine => rw [mine, handle]
    next => rfl
  · exact ok.consumed
  · intro n
    simp only [frames n]
    rw [ok.stored n]
    split
    next mine => rw [mine, stored]
    next => rfl
  · intro n attached
    refine ok.unregister n ?_
    unfold State.Attached at attached
    simp only [frames n] at attached
    split at attached
    next mine => rw [mine]; exact busy
    next => exact attached
  · intro n consumed
    rcases ok.settled n consumed with returned | completing | ⟨b, waiting⟩
    · exact Or.inl returned
    · exact Or.inr (Or.inl completing)
    · refine Or.inr (Or.inr ⟨b, ?_⟩)
      simp only [frames b]
      split
      next mine => rw [awaited, <- mine]; exact waiting
      next => exact waiting
  · intro b c insideB insideC
    simp only [frames b] at insideB
    simp only [frames c] at insideC
    by_cases mineB : b = a
    · by_cases mineC : c = a
      · rw [mineB, mineC]
      · simp [mineC, alone c mineC] at insideC
    · simp [mineB, alone b mineB] at insideB
  · intro b inside
    simp only [frames b] at inside
    by_cases mine : b = a
    · subst b
      simp only [tokens a]
      exact held (by simpa using inside)
    · simp [mine, alone b mine] at inside
  · intro n inCell completed
    rcases ok.due n inCell completed with takes | checks
    · exact Or.inl takes
    · refine Or.inr ?_
      simp only [frames n]
      split
      next mine => rw [willCheck, <- mine]; exact checks
      next => exact checks
  · exact ok.taken
  · intro b
    simp only [frames b]
    split
    next => exact fun impossible => absurd impossible taking
    next => exact ok.taking b

/-- The registry moves by itself.  The handle of an attachment is consumed only by
the calls above. -/
theorem registryStep (ok : Handled s holder) {event : Cancellation.Event}
    (may : Cancellation.enabled s.registry event)
    (foreign : forall n, s.Attached n -> event ≠ .unregisterLock n) :
    Handled { s with registry := Cancellation.next s.registry event } holder := by
  have answer (n : NodeId) (attached : s.Attached n) :=
    Cancellation.unregister_next may (foreign n attached)
  refine { ok with unregister := ?_, settled := ?_ }
  · intro n attached
    rw [<- ok.unregister n attached]
    rcases answer n attached with same | ⟨won, reclaiming, returned⟩
    · rw [same]
    · simp [reclaiming, returned]
  · intro n consumed
    rcases ok.settled n consumed with ⟨won, returned⟩ | waited
    · exact Or.inl ⟨won, (Cancellation.evolves_next may n).unregister won returned⟩
    · exact Or.inr waited

theorem react (ok : Handled s holder) (linked : Linked s)
    (reached : Cancellation.machine.Reachable s.registry) {event : Cancellation.Event}
    (may : Cancellation.enabled s.registry event) (admitted : admits s event) :
    Handled { s.react event with registry := Cancellation.next s.registry event } holder := by
  have foreign : forall n, s.Attached n -> event ≠ .unregisterLock n := by
    rintro n attached rfl
    exact admitted attached
  have stepped := ok.registryStep may foreign
  rcases react_cases s event with same | ⟨n, starts, attached, same⟩ | same
  · rw [same]
    exact stepped
  · have idle := linked.uncalled reached may starts attached
    rw [same]
    have entered := stepped.reframe (.cancel n) .entered (by
        change _ = (s.complete (.cancel n)).handle
        rw [idle]
        rfl) (by
        intro m
        change (s.complete (.cancel n)).awaited = some m -> _
        rw [idle]
        simp [CompleteFrame.awaited]) (by
        change (s.complete (.cancel n)).willTake = true -> _
        rw [idle]
        simp [CompleteFrame.willTake])
    exact { entered with }
  · rw [same]
    exact { stepped with }

theorem load (ok : Handled s holder) (reached : Cancellation.machine.Reachable s.registry)
    {a : NodeId} (token : TokenId) {frame : AttachFrame} (idle : (s.attach a).frame = .idle)
    (fresh : (s.registry.registrations a).register = .idle)
    (outside : frame = .returned false ∨ frame = .claiming) :
    Handled { s with attach := Function.update s.attach a ⟨token, frame⟩ } holder := by
  have nobody : holder a = .nobody := by
    by_contra held
    have stored := (ok.stored a).mp held
    simp [idle, AttachFrame.stored] at stored
  have unused : (s.registry.registrations a).unregister = .idle := by
    rcases Cancellation.reachable_consistent reached with ⟨_, _, _, consistent⟩
    by_contra answered
    have made := ((consistent.entries a).handle answered).1
    simp [fresh] at made
  have frames (b : NodeId) : (Function.update s.attach a ⟨token, frame⟩ b).frame =
      if b = a then frame else (s.attach b).frame := by
    by_cases mine : b = a
    · subst b
      simp
    · simp [mine]
  have values : frame.handle = none ∧ frame.awaited = none ∧ frame.stored = false ∧
      frame.inside = false ∧ frame ≠ .taking := by
    rcases outside with rfl | rfl <;>
      simp [AttachFrame.handle, AttachFrame.awaited, AttachFrame.stored, AttachFrame.inside]
  refine { ok with attacher := ?_, stored := ?_, unregister := ?_, settled := ?_, one := ?_,
                   token := ?_, due := ?_, taking := ?_ }
  · intro b n
    have before := ok.attacher b n
    simp only [frames b]
    grind -linarith
  · intro n
    have before := ok.stored n
    simp only [frames n]
    grind -linarith
  · intro n attached
    by_cases mine : n = a
    · subst n
      simp [unused, nobody]
    · refine ok.unregister n ?_
      unfold State.Attached at attached ⊢
      simpa only [frames n, mine, if_false] using attached
  · intro n consumed
    rcases ok.settled n consumed with returned | completing | ⟨b, waiting⟩
    · exact Or.inl returned
    · exact Or.inr (Or.inl completing)
    · have different : b ≠ a := by
        rintro rfl
        simp [idle, AttachFrame.awaited] at waiting
      exact Or.inr (Or.inr ⟨b, by simpa only [frames b, different, if_false] using waiting⟩)
  · intro b c
    have before := ok.one b c
    simp only [frames b, frames c]
    grind -linarith
  · intro b inside
    simp only [frames b] at inside
    have different : b ≠ a := by
      rintro rfl
      simp [values.2.2.2.1] at inside
    simp only [different, if_false] at inside
    simpa only [Function.update_of_ne different] using ok.token b inside
  · intro n inCell completed
    have different : n ≠ a := by
      rintro rfl
      simp [nobody] at inCell
    simpa only [frames n, different, if_false] using ok.due n inCell completed
  · intro b
    have before := ok.taking b
    simp only [frames b]
    grind -linarith

/-! ## Steps of completing calls -/

/-- A completing call that waits for no registration goes on. -/
theorem goOn (ok : Handled s holder) {who : Completer} {before : CompleteFrame}
    (after : CompleteFrame) (here : s.complete who = before)
    (handle : after.handle = before.handle) (awaited : before.awaited = none)
    (willTake : before.willTake = true -> after.willTake = true ∨ s.cancelHandle = none) :
    Handled (s.setComplete who after) holder := by
  subst before
  refine ok.reframe _ _ handle ?_ willTake
  intro n waiting
  rw [awaited] at waiting
  cases waiting

/-- A call that fulfils the promise, by whoever it is made, comes to complete the future. -/
theorem enter (ok : Handled s holder) {who : Completer} (idle : s.complete who = .idle) :
    Handled (s.setComplete who .entered) holder :=
  ok.goOn .entered idle rfl rfl (by simp [CompleteFrame.willTake])

theorem takeNext (ok : Handled s holder) (decided : Decided s) {who : Completer}
    (here : s.complete who = .taking) :
    Exists fun after => Handled (Future.next s (.completeTake who)) after := by
  have winner := (decided.1.won who).mp (by simp [here, CompleteFrame.progress])
  have completed := decided.1.completed.mpr (by simp [winner])
  cases full : s.cancelHandle with
  | none =>
      simp only [Future.next, full]
      exact ⟨holder, ok.goOn .waking here rfl rfl (fun _ => Or.inr full)⟩
  | some handle =>
      simp only [Future.next, full]
      exact ⟨_, ok.take here full completed⟩

theorem exchangeNext (ok : Handled s holder) {who : Completer} (here : s.complete who = .entered) :
    Handled (Future.next s (.completeExchange who)) holder := by
  simp only [Future.next]
  split
  · exact ok.goOn _ here rfl rfl (by simp [CompleteFrame.willTake])
  · exact ok.exchange here

theorem claimNext (ok : Handled s holder) {who : Completer} {node : NodeId} {rest : List NodeId}
    (here : s.complete who = .draining (node :: rest)) :
    Handled (Future.next s (.completeClaim who node rest)) holder := by
  simp only [Future.next]
  split
  · exact ok.goOn _ here rfl rfl (by simp [CompleteFrame.willTake])
  · exact { ok.goOn (.running node rest) here rfl rfl (by simp [CompleteFrame.willTake]) with }

/-- `UfsrvCancellationUnregister` has returned to a completing call. -/
theorem unregisteredByCompleter (ok : Handled s holder) {who : Completer} {node : NodeId} {won : Bool}
    (here : s.complete who = .awaiting node)
    (returned : (s.registry.registrations node).unregister = .returned won) :
    Handled (s.setComplete who .waking) holder := by
  refine ok.reframe _ _ (by rw [here]; rfl) ?_ (by simp [here, CompleteFrame.willTake])
  intro n waiting
  have same : node = n := by simpa [here, CompleteFrame.awaited] using waiting
  subst n
  exact Or.inr ⟨won, returned⟩

/-! ## Steps of attaching calls -/

/-- An attaching call that waits for no registration goes on. -/
theorem goOnAttaching (ok : Handled s holder) {a : NodeId} {before : AttachFrame}
    (after : AttachFrame) (here : (s.attach a).frame = before)
    (busy : before ≠ .idle) (handle : after.handle = before.handle)
    (awaited : before.awaited = none) (stored : after.stored = before.stored)
    (inside : after.inside = before.inside)
    (willCheck : before.willCheck = true ->
      after.willCheck = true ∨ s.isCompleted = false ∨ s.cancelHandle = none)
    (taking : after = .taking -> s.isCompleted = true) :
    Handled (s.setAttach a after) holder := by
  subst before
  refine ok.reattach busy handle ?_ stored inside willCheck taking
  intro n waiting
  rw [awaited] at waiting
  cases waiting

/-- The token cell is free, or another call has it. -/
theorem claimTokenNext (ok : Handled s holder) {a : NodeId} (here : (s.attach a).frame = .claiming) :
    Handled (Future.next s (.attachClaim a)) holder := by
  simp only [Future.next]
  split
  next empty =>
      refine ok.occupy _ _ (fun idle => by simp [here] at idle) (by rw [here]; rfl)
        (by rw [here]; rfl) (by rw [here]; rfl) (by rw [here]; rfl) (by simp) ?_
        (fun _ => rfl)
      intro other _
      by_contra inside
      have full := ok.token other (by simpa using inside)
      rw [empty] at full
      cases full
  next =>
      exact ok.goOnAttaching _ here (by simp) rfl rfl rfl rfl (by simp [AttachFrame.willCheck])
        (by simp)

/-- A reference of the token is taken or dropped on the way. -/
theorem retainTokenNext (ok : Handled s holder) {a : NodeId} (may : enabled s (.attachRetainToken a)) :
    Handled (Future.next s (.attachRetainToken a)) holder := by
  have here : (s.attach a).frame = .retainingToken := may.1
  have stepped := ok.registryStep may.2 (by simp)
  refine stepped.reattach (fun idle => by simp [here] at idle) ?_ ?_ ?_ ?_ ?_ (by simp)
  all_goals simp [here, AttachFrame.handle, AttachFrame.awaited, AttachFrame.stored,
    AttachFrame.inside, AttachFrame.willCheck]

theorem destroyTokenNext (ok : Handled s holder) {a : NodeId} {call : CallId}
    (may : enabled s (.attachDestroyToken a call)) :
    Handled (Future.next s (.attachDestroyToken a call)) holder := by
  have here : (s.attach a).frame = .rollingBack := may.1
  have stepped := ok.registryStep may.2 (by simp)
  refine stepped.reattach (fun idle => by simp [here] at idle) ?_ ?_ ?_ ?_ ?_ (by simp)
  all_goals simp [here, AttachFrame.handle, AttachFrame.awaited, AttachFrame.stored,
    AttachFrame.inside, AttachFrame.willCheck]

/-- The call sees whether the future was completed while it stored its handle. -/
theorem checkNext (ok : Handled s holder) {a : NodeId} (here : (s.attach a).frame = .checking) :
    Handled (Future.next s (.attachCheck a)) holder := by
  simp only [Future.next]
  split
  next completed =>
      exact ok.goOnAttaching _ here (by simp) rfl rfl rfl rfl (fun _ => Or.inl rfl)
        (fun _ => completed)
  next early =>
      exact ok.goOnAttaching _ here (by simp) rfl rfl rfl rfl
        (fun _ => Or.inr (Or.inl (by simpa using early))) (by simp)

theorem takeBackNext (ok : Handled s holder) {a : NodeId} (here : (s.attach a).frame = .taking) :
    Exists fun after => Handled (Future.next s (.attachTake a)) after := by
  cases full : s.cancelHandle with
  | none =>
      simp only [Future.next, full]
      exact ⟨holder, ok.goOnAttaching (.returned true) here (by simp) rfl rfl rfl rfl
        (fun _ => Or.inr (Or.inr full)) (by simp)⟩
  | some stale =>
      simp only [Future.next, full]
      exact ⟨_, ok.takeBack here full⟩

/-- `UfsrvCancellationUnregister` has returned to an attaching call. -/
theorem unregisteredByAttacher (ok : Handled s holder) {a handle : NodeId} {won : Bool}
    (may : enabled s (.attachUnregistered a handle won)) :
    Handled (Future.next s (.attachUnregistered a handle won)) holder := by
  have here : (s.attach a).frame = .awaiting handle := may.1
  refine ok.reattach (fun idle => by simp [here] at idle) (by rw [here]; rfl) ?_
    (by rw [here]; rfl) (by rw [here]; rfl) (by simp [here, AttachFrame.willCheck]) (by simp)
  intro n waiting
  have same : handle = n := by simpa [here, AttachFrame.awaited] using waiting
  subst n
  exact Or.inr ⟨won, may.2⟩

/-- The registration is refused, and the token cell emptied. -/
theorem refusedNext (ok : Handled s holder) {a : NodeId} (may : enabled s (.attachRefused a)) :
    Handled (Future.next s (.attachRefused a)) holder := by
  have here : (s.attach a).frame = .registering := may.1
  refine ok.occupy .rollingBack none (fun idle => by simp [here] at idle)
    (by rw [here]; rfl) (by rw [here]; rfl) (by rw [here]; rfl) (by rw [here]; rfl) (by simp)
    ?_ (by simp [AttachFrame.inside])
  intro other different
  by_contra inside
  exact different (ok.one other a (by simpa using inside) (by rw [here]; rfl))

end Handled

theorem Handled.next {s : State} {holder : NodeId -> Holder} (ok : Handled s holder)
    (decided : Decided s) (linked : Linked s)
    (reached : Cancellation.machine.Reachable s.registry) {event : Event} (may : enabled s event) :
    Exists fun after => Handled (Future.next s event) after := by
  rcases decided.2 with ⟨_, promised⟩
  cases event with
  | registry event => exact ⟨holder, ok.react linked reached may.1 may.2⟩
  | setExchange call result =>
      refine ⟨holder, ?_⟩
      simp only [Future.next]
      split
      · exact { ok with }
      · exact { ok.enter ((promised.sets call).idle may.1) with }
  | destroyExchange =>
      refine ⟨holder, ?_⟩
      simp only [Future.next]
      split
      · exact { ok with }
      · exact { ok.enter (promised.destroyIdle may.1) with }
  | completeExchange who => exact ⟨holder, ok.exchangeNext may⟩
  | completeWrite who =>
      exact ⟨holder, { ok.goOn .storing may rfl rfl (fun _ => Or.inl rfl) with }⟩
  | completeReady who =>
      exact ⟨holder, { ok.goOn .taking may rfl rfl (fun _ => Or.inl rfl) with }⟩
  | completeTake who => exact ok.takeNext decided may
  | completeUnregister who node => exact ⟨_, ok.passByCompleter linked may⟩
  | completeUnregistered who node won => exact ⟨holder, ok.unregisteredByCompleter may.1 may.2⟩
  | completeWake who =>
      exact ⟨holder, ok.goOn _ may rfl rfl (by simp [CompleteFrame.willTake])⟩
  | completeClose who =>
      refine ⟨holder, ?_⟩
      exact { ok.goOn (.draining s.continuations) may rfl rfl
        (by simp [CompleteFrame.willTake]) with }
  | completeClaim who node rest => exact ⟨holder, ok.claimNext may⟩
  | completeRan who node rest =>
      refine ⟨holder, ?_⟩
      exact { ok.goOn (.releasing node rest) may rfl rfl (by simp [CompleteFrame.willTake]) with }
  | completeRelease who node rest =>
      refine ⟨holder, ?_⟩
      exact { ok.goOn (.draining rest) may rfl rfl (by simp [CompleteFrame.willTake]) with }
  | completeReturn who =>
      exact ⟨holder, ok.goOn _ may rfl rfl (by simp [CompleteFrame.willTake])⟩
  | thenLoad node | thenPush node =>
      refine ⟨holder, ?_⟩
      simp only [Future.next]
      split <;> exact { ok with }
  | attachLoad node token =>
      refine ⟨holder, ok.load reached token may.1 may.2.1 ?_⟩
      split
      · exact Or.inl rfl
      · exact Or.inr rfl
  | attachClaim node => exact ⟨holder, ok.claimTokenNext may⟩
  | attachRetainToken node => exact ⟨holder, ok.retainTokenNext may⟩
  | attachRetainFuture node =>
      refine ⟨holder, ?_⟩
      exact { ok.goOnAttaching .registering may (by simp) rfl rfl rfl rfl
        (by simp [AttachFrame.willCheck]) (by simp) with }
  | attachRegistered node =>
      refine ⟨holder, ?_⟩
      exact ok.goOnAttaching _ may.1 (by simp) rfl rfl rfl rfl (by simp [AttachFrame.willCheck])
        (by simp)
  | attachStore node => exact ⟨_, ok.store may⟩
  | attachCheck node => exact ⟨holder, ok.checkNext may⟩
  | attachTake node => exact ok.takeBackNext may
  | attachUnregister node handle => exact ⟨_, ok.passByAttacher linked may⟩
  | attachUnregistered node handle won => exact ⟨holder, ok.unregisteredByAttacher may⟩
  | attachRefused node => exact ⟨holder, ok.refusedNext may⟩
  | attachDestroyToken node call => exact ⟨holder, ok.destroyTokenNext may⟩
  | attachTokenDestroyed node call =>
      refine ⟨holder, ?_⟩
      exact ok.goOnAttaching _ may.1 (by simp) rfl rfl rfl rfl (by simp [AttachFrame.willCheck])
        (by simp)
  | attachReleaseFuture node =>
      refine ⟨holder, ?_⟩
      exact { ok.goOnAttaching (.returned false) may (by simp) rfl rfl rfl rfl
        (by simp [AttachFrame.willCheck]) (by simp) with }
  | _ => exact ⟨holder, { ok with }⟩

theorem handled_start : Handled start (fun _ => .nobody) := by
  constructor <;> simp [start, CompleteFrame.handle, AttachFrame.handle, AttachFrame.stored,
    AttachFrame.inside, State.Attached]

theorem reachable_handled {s : State} (reached : machine.Reachable s) :
    Exists fun holder => Handled s holder := by
  refine reached.invariant (fun s => Exists fun holder => Handled s holder) ?_ ?_
  · intro s initial
    rw [show s = start from initial]
    exact ⟨_, handled_start⟩
  · intro s event reached described may
    rcases described with ⟨holder, ok⟩
    exact ok.next (reachable_decided reached) (reachable_linked reached)
      (reachable_registry reached) may

/-! ## The contract -/

/-- Every call on the future and every `Cancel` that was begun has returned. -/
def State.AllReturned (s : State) : Prop :=
  (forall who, s.complete who = .idle ∨ Exists fun won => s.complete who = .returned won) ∧
    s.CancelsReturned

theorem completed_of_returned {s : State} (ok : Completed s) {who : Completer} {won : Bool}
    (returned : s.complete who = .returned won) : s.isCompleted = true := by
  cases won with
  | false => exact ok.lost who returned
  | true =>
      have winner := (ok.won who).mp (by simp [returned, CompleteFrame.progress])
      exact ok.completed.mpr (by simp [winner])

/-- When nothing is in progress any more, the handle of a completed future has
been consumed. -/
theorem Handled.consumed_of_returned {s : State} {holder : NodeId -> Holder} (ok : Handled s holder)
    {n : NodeId} (attached : (s.attach n).frame = .returned true) (completed : s.isCompleted = true)
    (idle : s.AllReturned) : holder n = .consumed := by
  have stored := (ok.stored n).mpr (by rw [attached]; rfl)
  cases held : holder n with
  | nobody => exact absurd held stored
  | consumed => rfl
  | cell =>
      rcases ok.due n held completed with ⟨who, takes⟩ | checks
      · rcases idle.1 who with none | ⟨won, returned⟩
        · simp [none, CompleteFrame.willTake] at takes
        · simp [returned, CompleteFrame.willTake] at takes
      · simp [attached, AttachFrame.willCheck] at checks
  | completer who =>
      have handle := (ok.completer who n).mpr held
      rcases idle.1 who with none | ⟨won, returned⟩
      · simp [none, CompleteFrame.handle] at handle
      · simp [returned, CompleteFrame.handle] at handle
  | attacher a =>
      have handle := (ok.attacher a n).mpr held
      rcases idle.2.2 a with none | ⟨won, returned⟩
      · simp [none, AttachFrame.handle] at handle
      · simp [returned, AttachFrame.handle] at handle

theorem Handled.unregistered_of_returned {s : State} {holder : NodeId -> Holder}
    (ok : Handled s holder) {n : NodeId} (consumed : holder n = .consumed) (idle : s.AllReturned) :
    Exists fun won => (s.registry.registrations n).unregister = .returned won := by
  rcases ok.settled n consumed with answered | ⟨who, waiting⟩ | ⟨a, waiting⟩
  · exact answered
  · rcases idle.1 who with none | ⟨won, returned⟩
    · simp [none, CompleteFrame.awaited] at waiting
    · simp [returned, CompleteFrame.awaited] at waiting
  · rcases idle.2.2 a with none | ⟨won, returned⟩
    · simp [none, AttachFrame.awaited] at waiting
    · simp [returned, AttachFrame.awaited] at waiting

/-- The contract of attachments.  The release hook of an attachment's registration
is `sFutureCancelRelease`, which drops the cancel reference. -/
structure AttachProtocol (s : State) : Prop where
  /-- At most one attachment succeeds. -/
  oneAttached : forall a b, (s.attach a).frame = .returned true ->
    (s.attach b).frame = .returned true -> a = b
  /-- A handle is passed to `Unregister` at most once. -/
  handleOnce : forall n, s.consumed n ≤ 1
  /-- It has been, and the cancel reference has been released, when the future is
  completed and all calls have returned. -/
  handleConsumed : forall n, (s.attach n).frame = .returned true -> s.isCompleted = true ->
    s.AllReturned -> s.consumed n = 1 ∧ (s.registry.registrations n).released = 1
  /-- The cancel reference is released once, and only when the callback can no
  longer run. -/
  releasedLate : forall n, s.Attached n -> (s.registry.registrations n).released ≤ 1 ∧
    ((s.registry.registrations n).released ≠ 0 ->
      s.consumed n = 1 ∧
      (s.registry.registrations n).started = (s.registry.registrations n).finished ∧
      forall events after, machine.Run s events after ->
        (after.registry.registrations n).started = (s.registry.registrations n).started)
  /-- When the `Cancel` that set the flag of the attached token has returned, the
  future is completed. -/
  cancelled : forall n k, (s.attach n).frame = .returned true ->
    s.registry.cancel k = .returned (s.attach n).token true -> s.isCompleted = true

theorem attachProtocol {s : State} (reached : machine.Reachable s) : AttachProtocol s := by
  rcases reachable_handled reached with ⟨holder, ok⟩
  have completed := (reachable_decided reached).1
  have linked := reachable_linked reached
  have registry := reachable_registry reached
  rcases Cancellation.reachable_consistent registry with ⟨_, _, _, lifecycle⟩
  constructor
  · intro a b first second
    exact ok.one a b (by rw [first]; rfl) (by rw [second]; rfl)
  · intro n
    rw [ok.consumed n]
    split <;> simp
  · intro n attached done idle
    have consumed := ok.consumed_of_returned attached done idle
    rcases ok.unregistered_of_returned consumed idle with ⟨won, answered⟩
    have made := (linked n).after (by rw [attached]; rfl)
    have hook := ((linked n).made (by simp [attached]) (by simp [made]) (by simp [made])).2
    have unowned (k : CallId) : ¬ (s.registry.cancel k).Owns n := by
      rcases idle.2.1 k with none | ⟨t, setFlag, returned⟩
      · simp [none, Cancellation.CancelFrame.Owns]
      · simp [returned, Cancellation.CancelFrame.Owns]
    have released := lifecycle.released_once answered unowned
    rw [hook] at released
    exact ⟨by rw [ok.consumed n, if_pos consumed], released⟩
  · intro n attached
    refine ⟨lifecycle.released_le n, ?_⟩
    intro released
    have settled := lifecycle.released_settled released
    have consumed : holder n = .consumed := by
      by_contra unused
      exact settled.1 ((ok.unregister n attached).mpr unused)
    refine ⟨by rw [ok.consumed n, if_pos consumed], settled.2.1, ?_⟩
    intro events after run
    rcases run_registry run with ⟨inner, innerRun⟩
    exact Cancellation.started_run registry innerRun settled.2.2
  · intro n k attached returned
    have here : s.Attached n := fun idle => by simp [attached] at idle
    have made := (linked n).after (by rw [attached]; rfl)
    have token := ((linked n).made here (by simp [made]) (by simp [made])).1
    by_cases neutral : s.registry.Neutralised n
    · have consumed : holder n = .consumed := by
        by_contra unused
        have idle := (ok.unregister n here).mpr unused
        rcases neutral with reclaiming | answered
        · simp [idle] at reclaiming
        · simp [idle] at answered
      exact ok.taken n (by simp [consumed]) (by simp [consumed])
    · have ran := (lifecycle.dispatched returned token made).resolve_left neutral
      rcases (linked n).finished here (by simp [ran.2]) with ⟨won, ended⟩
      exact completed_of_returned completed ended

/-- A token is attached and cancelled afterwards. -/
def attachThenCancel : List Event :=
  [.registry (.create 0), .attachLoad 0 0, .attachClaim 0, .attachRetainToken 0,
    .attachRetainFuture 0, .registry (.registerAlloc 0 0 true), .registry (.registerRetain 0),
    .registry (.registerLock 0), .attachRegistered 0, .attachStore 0, .attachCheck 0,
    .registry (.cancelLock 0 0), .registry (.cancelCall 0 0 0 []),
    .completeExchange (.cancel 0), .completeWrite (.cancel 0), .completeReady (.cancel 0),
    .completeTake (.cancel 0), .completeUnregister (.cancel 0) 0,
    .completeUnregistered (.cancel 0) 0 false, .completeWake (.cancel 0),
    .completeClose (.cancel 0), .completeReturn (.cancel 0),
    .registry (.cancelCallReturned 0 0 0 []), .registry (.cancelDrop 0 0 0 []),
    .registry (.nodeFree 0), .registry (.hookCall 0), .registry (.hookReturned 0),
    .registry (.nodeTokenRelease 0), .registry (.cancelReclaimed 0 0 0 []),
    .registry (.cancelReturn 0 0)]

theorem attachProtocol_attachThenCancel :
    AttachProtocol (machine.after start attachThenCancel) ∧
      (machine.after start attachThenCancel).isCompleted = true ∧
      (machine.after start attachThenCancel).consumed 0 = 1 ∧
      (machine.after start attachThenCancel).refcount = 2 := by
  have may : machine.AllEnabled start attachThenCancel := by
    repeat' first
      | exact trivial
      | exact rfl
      | exact Nat.one_pos
      | exact Nat.two_pos
      | apply And.intro
    all_goals intro _
    · exact ⟨rfl, rfl, rfl⟩
    · exact ⟨true, rfl⟩
  exact ⟨attachProtocol (.run (.start rfl) may.run), rfl, rfl, rfl⟩

end Future
end UfsrvRx
