import UfsrvRx.Cancellation.Client
import UfsrvRx.Waiter.Coroutine

namespace UfsrvRx
namespace Waiter

/-!
# Waits and their registrations

The registry is a component of the machine, and each wait with a token makes one
registration in it.  This module relates the program points of the two, and the
callback of the registration to the calls that the registry has counted.
-/

/-! ## The component -/

/-- The registry takes its own steps, and the waits consume their handles. -/
theorem registry_step (s : State) (event : Event) (may : enabled s event) :
    (next s event).registry = s.registry ∨
      Exists fun inner => Cancellation.enabled s.registry inner ∧
        (next s event).registry = Cancellation.next s.registry inner ∧
        (event = .registry inner ∨ Exists fun w => inner = .unregisterLock w) := by
  cases event with
  | registry inner => exact Or.inr ⟨inner, may.1, rfl, Or.inl rfl⟩
  | waitUnregister w => exact Or.inr ⟨_, may.2, rfl, Or.inr ⟨w, rfl⟩⟩
  | waitStart w agent f token => exact Or.inl (by simp [next, State.setWait])
  | waitCheckToken w t => exact Or.inl (by simp only [next]; split <;> simp [State.setFrame, State.setWait])
  | waitCheckState w => exact Or.inl (by simp only [next]; split <;> rfl)
  | waitPush w => exact Or.inl (by simp only [next]; split <;> rfl)
  | waitPark w => exact Or.inl (by simp [next])
  | waitRecheck w t => exact Or.inl (by simp only [next]; split <;> simp [State.setFrame, State.setWait])
  | waitReturn w => exact Or.inl (by simp [next])
  | callbackClaim w => exact Or.inl (by simp only [next]; split <;> rfl)
  | callbackWake w => exact Or.inl (by simp [next, State.setWait])
  | completeExchange k f r => exact Or.inl (by simp only [next]; split <;> rfl)
  | completeClaim k f w rest => exact Or.inl (by simp only [next]; split <;> rfl)
  | completeWake k f w rest => exact Or.inl (by simp [next, State.setComplete])
  | workerResume S c w rest => exact Or.inl (by simp [next])
  | _ => exact Or.inl rfl

theorem registry_next (s : State) (event : Event) (may : enabled s event) :
    (next s event).registry = s.registry ∨
      Exists fun inner => Cancellation.enabled s.registry inner ∧
        (next s event).registry = Cancellation.next s.registry inner := by
  rcases registry_step s event may with same | ⟨inner, mayInner, stepped, _⟩
  · exact Or.inl same
  · exact Or.inr ⟨inner, mayInner, stepped⟩

theorem reachable_registry {s : State} (reached : machine.Reachable s) :
    Cancellation.machine.Reachable s.registry := by
  refine reached.component Cancellation.machine State.registry ?_ registry_next
  intro s initial
  rw [show s = start from initial]
  exact rfl

/-! ## Program points -/

/-- How far a wait has come, seen from its registration.  A wait that has ended
may have left before it registered. -/
inductive Stage
  | outside
  | before
  | during
  | held
  | consumed
  | after
  | ended
deriving DecidableEq, Repr

namespace WaitFrame

@[grind =] def stage : WaitFrame -> Stage
  | idle => .outside
  | checkingToken | checkingState | allocated | retaining => .before
  | registering => .during
  | parking | parked | closing | unregistering => .held
  | awaiting => .consumed
  | releasing | rechecking => .after
  | reading | returned _ => .ended

/-- Only a wait with a token comes here. -/
@[grind =] def tokened : WaitFrame -> Bool
  | checkingToken | retaining | registering | unregistering | awaiting | rechecking => true
  | idle | checkingState | allocated | parking | parked | closing | releasing | reading
  | returned _ => false

end WaitFrame

/-- `Unregister` has returned. -/
@[grind =] def answered : Cancellation.UnregisterFrame -> Bool
  | .returned _ => true
  | .idle | .reclaiming _ => false

attribute [grind =] Wait.Owned Wait.awake

/-- What the stage of a wait says about its handle and its registration. -/
@[grind =] def Fits (stage : Stage) (cancelHandle : Bool) (entry : Cancellation.Registration) :
    Prop :=
  match stage with
  | .outside => cancelHandle = false
  | .before => cancelHandle = false ∧ entry.register = .idle ∧ entry.unregister = .idle
  | .during => cancelHandle = false ∧ entry.unregister = .idle
  | .held => cancelHandle = true ∧ entry.unregister = .idle
  | .consumed => cancelHandle = true ∧ entry.unregister ≠ .idle
  | .after => cancelHandle = true ∧ answered entry.unregister = true
  | .ended => if cancelHandle then answered entry.unregister = true else entry.register = .idle

/-- A wait and its registration. -/
structure HookOk (wait : Wait) (entry : Cancellation.Registration) : Prop where
  outside : wait.frame = .idle -> wait.callback = .idle ∧ wait.cancelHandle = false
  plain : wait.token = none ->
    wait.callback = .idle ∧ wait.cancelHandle = false ∧ wait.frame.tokened = false
  fits : wait.Owned -> Fits wait.frame.stage wait.cancelHandle entry
  handle : wait.cancelHandle = true -> entry.register = .returned
  made : wait.Owned -> entry.register ≠ .idle ->
    wait.token = some entry.cb.token ∧ entry.cb.releaseContext = true
  accepted : wait.Owned -> entry.register ≠ .refused
  started : wait.Owned -> (wait.callback = .idle ↔ entry.started = 0)
  finished : wait.Owned -> entry.finished ≠ 0 -> wait.callback = .done

def Hooked (s : State) : Prop :=
  forall w, HookOk (s.waits w) (s.registry.registrations w)

namespace HookOk

variable {wait : Wait} {before after : Cancellation.Registration}

/-- A step of the registry that does not concern the registration of the wait. -/
theorem sameCalls (ok : HookOk wait before) (same : Cancellation.SameCalls before after) :
    HookOk wait after := by
  constructor
  · exact ok.outside
  · exact ok.plain
  · simpa only [Fits, same.register, same.unregister] using ok.fits
  · simpa only [same.register] using ok.handle
  · simpa only [same.register, same.token, same.hook] using ok.made
  · simpa only [same.register] using ok.accepted
  · simpa only [same.started] using ok.started
  · simpa only [same.finished] using ok.finished

/-- A registration that has begun goes on. -/
theorem evolve (ok : HookOk wait before) {cancelled : Bool}
    (evolves : Cancellation.Evolves cancelled before after)
    (begun : before.register ≠ .idle)
    (unregister : after.unregister = before.unregister ∨
      Exists fun won => before.unregister = .reclaiming won ∧ after.unregister = .returned won)
    {callback : CallbackFrame}
    (plain : wait.Owned ∨ callback = wait.callback)
    (started : wait.Owned -> (callback = .idle ↔ after.started = 0))
    (finished : wait.Owned -> after.finished ≠ 0 -> callback = .done) :
    HookOk { wait with callback := callback } after := by
  have accepted : before.register ≠ .refused -> after.register ≠ .refused := by
    have := evolves.allocated
    have := evolves.retained
    have := evolves.calling
    have := evolves.running
    have := evolves.returned
    cases register : before.register <;> grind -linarith
  have fits : wait.Owned -> Fits wait.frame.stage wait.cancelHandle after := by
    intro owned
    have before := ok.fits owned
    cases stage : wait.frame.stage <;> grind -linarith
  have := evolves.returned
  have := evolves.begun
  have := evolves.token
  have := evolves.hook
  refine { ok with outside := ?_, plain := ?_, fits := fits, handle := ?_, made := ?_,
                   accepted := ?_, started := started, finished := finished }
  all_goals cases ok
  all_goals grind -linarith

/-- The wait moves on. -/
theorem setFrame (ok : HookOk wait before) (moved : WaitFrame) (busy : wait.frame ≠ .idle)
    (still : moved ≠ .idle) (tokened : moved.tokened = true -> wait.token ≠ none)
    (fits : wait.token ≠ none -> Fits wait.frame.stage wait.cancelHandle before ->
      Fits moved.stage wait.cancelHandle before) :
    HookOk { wait with frame := moved } before := by
  have owned (mine : Wait.Owned { wait with frame := moved }) : wait.Owned := ⟨busy, mine.2⟩
  constructor
  · exact fun idle => absurd idle still
  · intro none
    have plain := ok.plain none
    refine ⟨plain.1, plain.2.1, ?_⟩
    by_contra token
    exact tokened (by simpa using token) none
  · exact fun mine => fits mine.2 (ok.fits (owned mine))
  · exact ok.handle
  · exact fun mine => ok.made (owned mine)
  · exact fun mine => ok.accepted (owned mine)
  · exact fun mine => ok.started (owned mine)
  · exact fun mine => ok.finished (owned mine)

/-- The callback moves on after it was entered. -/
theorem setCallback (ok : HookOk wait before) (moved : CallbackFrame)
    (busy : wait.callback ≠ .idle) (open_ : wait.callback ≠ .done) (still : moved ≠ .idle) :
    HookOk { wait with callback := moved } before := by
  refine { ok with outside := ?_, plain := ?_, started := ?_, finished := ?_ }
  · exact fun idle => absurd (ok.outside idle).1 busy
  · exact fun none => absurd (ok.plain none).1 busy
  · intro owned
    have started := ok.started owned
    simp only [still, false_iff]
    exact fun zero => busy (started.mpr zero)
  · exact fun owned finished => absurd (ok.finished owned finished) open_

/-- Only these four fields of a wait concern the registration. -/
theorem congr (ok : HookOk wait before) {other : Wait} (frame : other.frame = wait.frame)
    (callback : other.callback = wait.callback) (token : other.token = wait.token)
    (handle : other.cancelHandle = wait.cancelHandle) : HookOk other before := by
  cases ok
  constructor <;> simp_all [Wait.Owned]

theorem token (ok : HookOk wait before) {frame : WaitFrame} (here : wait.frame = frame)
    (tokened : frame.tokened = true) : wait.token ≠ none := by
  intro none
  have plain := (ok.plain none).2.2
  rw [here, tokened] at plain
  cases plain

theorem unhandled (ok : HookOk wait before) {frame : WaitFrame} (here : wait.frame = frame)
    (early : frame.stage = .before) : wait.cancelHandle = false := by
  by_cases token : wait.token = none
  · exact (ok.plain token).2.1
  · have busy : wait.frame ≠ .idle := by
      intro idle
      rw [here] at idle
      rw [idle] at early
      cases early
    have fits := ok.fits ⟨busy, token⟩
    rw [here, early] at fits
    exact fits.1

/-- `RegisterEx` has returned the handle. -/
theorem register (ok : HookOk wait before) (here : wait.frame = .registering)
    (made : before.register = .returned) :
    HookOk { wait with cancelHandle := true, frame := .parking } before := by
  have token := ok.token here rfl
  have owned : wait.Owned := ⟨by rw [here]; simp, token⟩
  have unused := ok.fits owned
  rw [here] at unused
  constructor
  · exact fun idle => absurd idle (by simp)
  · exact fun none => absurd none token
  · exact fun _ => ⟨rfl, unused.2⟩
  · exact fun _ => made
  · exact fun _ => ok.made owned
  · exact fun _ => ok.accepted owned
  · exact fun _ => ok.started owned
  · exact fun _ => ok.finished owned

/-- A registration with the number of a wait that does not own it. -/
theorem unowned (ok : HookOk wait before) (foreign : ¬ wait.Owned) : HookOk wait after := by
  cases ok
  constructor <;> grind -linarith

end HookOk

namespace Hooked

variable {s : State}

/-- The callback of a wait is called when it has not been called before. -/
theorem uncalled (ok : Hooked s) (reached : Cancellation.machine.Reachable s.registry)
    {event : Cancellation.Event} (may : Cancellation.enabled s.registry event) {w : WaitId}
    (starts : event.starts = some w) (owned : (s.waits w).Owned) :
    (s.waits w).callback = .idle := by
  have reachedNext : Cancellation.machine.Reachable (Cancellation.next s.registry event) :=
    .step reached may
  rcases Cancellation.reachable_consistent reachedNext with ⟨_, _, _, consistent⟩
  have once := consistent.started_le w
  rw [(Cancellation.history_next s.registry event w).1, if_pos starts] at once
  exact ((ok w).started owned).mpr (by omega)

/-- The calls of a registration that has not begun are not moved by others. -/
theorem begun_of_subject (reached : Cancellation.machine.Reachable s.registry)
    {event : Cancellation.Event} (may : Cancellation.enabled s.registry event) {w : WaitId}
    (subject : event.subject = some w)
    (unrefused : forall t, event ≠ .registerRefused w t)
    (unallocated : forall t hook, event ≠ .registerAlloc w t hook) :
    (s.registry.registrations w).register ≠ .idle := by
  rcases Cancellation.reachable_consistent reached with ⟨life, _, _, ok⟩
  have entry := ok.entries w
  intro idle
  have absent := entry.absent.mpr (Or.inl idle)
  cases event <;> simp only [Cancellation.Event.subject, reduceCtorEq, Option.some.injEq] at subject
    <;> subst subject
  case registerRefused t => exact unrefused t rfl
  case registerAlloc t hook => exact unallocated t hook rfl
  case unregisterReturn won =>
    have handle := (entry.handle (by rw [may.1]; simp)).1
    simp [idle] at handle
  case cancelCall k t n rest =>
    have detached := (ok.lists.pendingMem k n).mp (by
      rw [show s.registry.cancel k = _ from may]
      exact List.mem_cons_self)
    simp [absent] at detached
  case cancelCallReturned k t n rest =>
    have running := (ok.lists.running k n).mp (by
      rw [show s.registry.cancel k = _ from may]
      rfl)
    simp [absent] at running
  all_goals simp [Cancellation.enabled, idle] at may

/-- A step of the registry, seen from the wait with its number. -/
theorem registryStep (ok : Hooked s) (reached : Cancellation.machine.Reachable s.registry)
    {event : Cancellation.Event} (may : Cancellation.enabled s.registry event)
    (admitted : admits s event) (w : WaitId) :
    HookOk
      { s.waits w with
        callback := if event.starts = some w ∧ (s.waits w).Owned then .entered
          else (s.waits w).callback }
      ((Cancellation.next s.registry event).registrations w) := by
  by_cases owned : (s.waits w).Owned
  case neg =>
    rw [if_neg (fun both => owned both.2)]
    exact (ok w).unowned owned
  by_cases subject : event.subject = some w
  case neg =>
    have silent : event.starts ≠ some w := by
      cases event <;> simp_all [Cancellation.Event.starts, Cancellation.Event.subject]
    rw [if_neg (fun both => silent both.1)]
    exact (ok w).sameCalls (Cancellation.sameCalls_next s.registry subject)
  by_cases allocates : Exists fun t => Exists fun hook => event = .registerAlloc w t hook
  · rcases allocates with ⟨t, hook, rfl⟩
    have mine := admitted owned
    have here := ok w
    simp only [Cancellation.next, Cancellation.State.setRegistration, Function.update_self]
    cases here
    constructor <;> grind -linarith [Cancellation.Event.starts]
  · have unrefused (t : TokenId) : event ≠ .registerRefused w t := by
      rintro rfl
      exact admitted owned
    have unlocked : event ≠ .unregisterLock w := by
      rintro rfl
      exact admitted owned
    have begun := begun_of_subject reached may subject unrefused
      (fun t hook same => allocates ⟨t, hook, same⟩)
    have history := Cancellation.history_next s.registry event w
    refine (ok w).evolve (Cancellation.evolves_next may w) begun
      (Cancellation.unregister_next may unlocked) (Or.inl owned) ?_ ?_
    · intro _
      have started := (ok w).started owned
      rw [history.1]
      by_cases starts : event.starts = some w
      · rw [if_pos ⟨starts, owned⟩, if_pos starts]
        simp
      · rw [if_neg (fun both => starts both.1), if_neg starts]
        exact started
    · intro _ finished
      rw [history.2] at finished
      by_cases starts : event.starts = some w
      · have idle := ok.uncalled reached may starts owned
        have ends : event.finishes ≠ some w := by
          cases event <;> simp_all [Cancellation.Event.starts, Cancellation.Event.finishes]
        rw [if_neg ends, Nat.add_zero] at finished
        simp [(ok w).finished owned finished] at idle
      · rw [if_neg (fun both => starts both.1)]
        by_cases ends : event.finishes = some w
        · cases event <;>
            simp only [Cancellation.Event.finishes, reduceCtorEq, Option.some.injEq] at ends
          all_goals
            subst ends
            exact admitted owned
        · rw [if_neg ends, Nat.add_zero] at finished
          exact (ok w).finished owned finished

theorem update (ok : Hooked s) (w : WaitId) (entry : Wait) {after : State}
    (waits : after.waits = Function.update s.waits w entry) (registry : after.registry = s.registry)
    (new : HookOk (s.waits w) (s.registry.registrations w) ->
      HookOk entry (s.registry.registrations w)) : Hooked after := by
  intro other
  rw [waits, registry]
  by_cases mine : other = w
  · subst other
    rw [Function.update_self]
    exact new (ok w)
  · rw [Function.update_of_ne mine]
    exact ok other

/-- The step of the registry and the reaction of the wait it concerns. -/
theorem react (ok : Hooked s) (reached : Cancellation.machine.Reachable s.registry)
    {event : Cancellation.Event} (may : Cancellation.enabled s.registry event)
    (admitted : admits s event) :
    Hooked { s.react event with registry := Cancellation.next s.registry event } := by
  intro w
  have stepped := ok.registryStep reached may admitted w
  rcases s.react_cases event with same | ⟨v, starts, owned, moved⟩ | ⟨v, rfl, owned, moved⟩
  · have silent : ¬ (event.starts = some w ∧ (s.waits w).Owned) := by
      rintro ⟨starts, owned⟩
      have changed := congrArg (fun t => (t.waits w).callback) same
      simp only [State.react, starts, if_pos owned, State.setWait, Function.update_self] at changed
      have idle := ok.uncalled reached may starts owned
      rw [<- changed] at idle
      cases idle
    rw [if_neg silent] at stepped
    rw [same]
    exact stepped
  · rw [moved]
    by_cases mine : w = v
    · subst w
      rw [if_pos ⟨starts, owned⟩] at stepped
      simpa only [State.setWait, Function.update_self] using stepped
    · have silent : ¬ (event.starts = some w ∧ (s.waits w).Owned) := by
        rintro ⟨other, _⟩
        rw [starts] at other
        exact mine (Option.some.inj other).symm
      rw [if_neg silent] at stepped
      simpa only [State.setWait, Function.update_of_ne mine] using stepped
  · rw [if_neg (by simp [Cancellation.Event.starts])] at stepped
    rw [moved]
    by_cases mine : w = v
    · subst w
      simp only [State.setWait, Function.update_self]
      exact { stepped with }
    · simpa only [State.setWait, Function.update_of_ne mine] using stepped

theorem start (ok : Hooked s) (reached : Cancellation.machine.Reachable s.registry) {w : WaitId}
    {agent : Agent} {f : FutureId} {token : Option TokenId}
    (may : enabled s (.waitStart w agent f token)) :
    Hooked (Waiter.next s (.waitStart w agent f token)) := by
  rcases Cancellation.reachable_consistent reached with ⟨life, _, _, registry⟩
  have entry := registry.entries w
  refine ok.update w
    { s.waits w with
      agent := agent
      future := f
      token := token
      frame := if token = none then .checkingState else .checkingToken } ?_ ?_ ?_
  · simp [Waiter.next, State.setWait]
  · simp [Waiter.next, State.setWait]
  · intro here
    have clean := here.outside may.1
    cases token with
    | none => constructor <;> simp_all [Wait.Owned, WaitFrame.tokened, WaitFrame.stage]
    | some t =>
        have idle := (may.2.2.2 t rfl).1
        have absent := entry.absent.mpr (Or.inl idle)
        have started := entry.started
        have finished := entry.finished
        have unused : (s.registry.registrations w).unregister = .idle := by
          by_contra used
          have handle := (entry.handle used).1
          simp [idle] at handle
        rw [absent] at started finished
        constructor <;>
          simp_all [Wait.Owned, WaitFrame.tokened, WaitFrame.stage, Fits,
            Cancellation.Life.started, Cancellation.Life.finished]

/-- The wait passes its handle to `Unregister`. -/
theorem unregister (ok : Hooked s) {w : WaitId} (may : enabled s (.waitUnregister w)) :
    Hooked (Waiter.next s (.waitUnregister w)) := by
  intro v
  have here := ok v
  by_cases mine : v = w
  · subst v
    have unused := Cancellation.unregister_answers s.registry w
    have evolves := Cancellation.evolves_next may.2 w
    have history := Cancellation.history_next s.registry (.unregisterLock w) w
    have made := may.2.1
    have := evolves.returned made
    have := evolves.token
    have := evolves.hook
    simp only [Waiter.next, State.setFrame, State.setWait, Function.update_self]
    cases here
    constructor <;> grind -linarith [enabled, Cancellation.Event.starts, Cancellation.Event.finishes]
  · have other : (Cancellation.Event.unregisterLock w).subject ≠ some v := by
      simpa [Cancellation.Event.subject] using Ne.symm mine
    simp only [Waiter.next, State.setFrame, State.setWait, Function.update_of_ne mine]
    exact here.sameCalls (Cancellation.sameCalls_next s.registry other)

/-- The wait returns early or late. -/
theorem finish (ok : Hooked s) {w : WaitId} (result : Future.Result)
    (busy : (s.waits w).frame ≠ .idle)
    (fits : Fits (s.waits w).frame.stage (s.waits w).cancelHandle (s.registry.registrations w) ->
      Fits .ended (s.waits w).cancelHandle (s.registry.registrations w)) :
    Hooked (s.finish w result) :=
  ok.update w _ (State.waits_finish s w _) (State.registry_finish s w _) fun here =>
    here.setFrame (.returned result) busy (by simp) (by simp [WaitFrame.tokened]) fun _ => fits

/-- The wait moves on to another frame; whatever else changes is its own business. -/
theorem setFrame (ok : Hooked s) (w : WaitId) {frame : WaitFrame} (moved : WaitFrame)
    (here : (s.waits w).frame = frame) (busy : frame ≠ .idle) (still : moved ≠ .idle)
    (tokened : moved.tokened = true -> (s.waits w).token ≠ none)
    (fits : (s.waits w).token ≠ none ->
      Fits frame.stage (s.waits w).cancelHandle (s.registry.registrations w) ->
      Fits moved.stage (s.waits w).cancelHandle (s.registry.registrations w)) :
    HookOk { s.waits w with frame := moved } (s.registry.registrations w) := by
  subst frame
  exact (ok w).setFrame moved busy still tokened fits

/-- A woken wait goes on. -/
theorem awake (ok : Hooked s) (w : WaitId) {frame : WaitFrame} (here : (s.waits w).frame = frame)
    (held : frame.stage = .held) :
    HookOk { s.waits w with frame := (s.waits w).awake } (s.registry.registrations w) := by
  refine ok.setFrame w _ here ?_ ?_ ?_ ?_
  · rintro rfl
    cases held
  · unfold Wait.awake
    split <;> simp
  · unfold Wait.awake
    split <;> simp_all [WaitFrame.tokened]
  · intro token
    rw [held, Wait.awake, if_neg token]
    exact id

theorem next (ok : Hooked s) (reached : Cancellation.machine.Reachable s.registry)
    (seated : Seated s) {event : Event} (may : enabled s event) : Hooked (Waiter.next s event) := by
  cases event with
  | registry inner => exact ok.react reached may.1 may.2
  | waitStart w agent f token => exact ok.start reached may
  | waitCheckToken w t =>
      have here : (s.waits w).frame = .checkingToken := may.1
      simp only [Waiter.next]
      split
      · refine ok.finish _ (by simp [here]) ?_
        rw [here]
        exact fun early => by simp [Fits, early.1, early.2.1]
      · exact ok.update w _ rfl rfl fun _ =>
          ok.setFrame w .checkingState here (by simp) (by simp) (by simp [WaitFrame.tokened])
            fun _ => id
  | waitCheckState w =>
      simp only [Waiter.next]
      split
      · refine ok.update w _ rfl rfl fun _ =>
          ok.setFrame w .reading may (by simp) (by simp) (by simp [WaitFrame.tokened]) ?_
        exact fun _ early => by simp [WaitFrame.stage, Fits, early.1, early.2.1]
      · have kept := ok.setFrame w .allocated may (by simp) (by simp) (by simp [WaitFrame.tokened])
          fun _ => id
        have unhandled := (ok w).unhandled may rfl
        exact ok.update w _ rfl rfl fun _ => kept.congr rfl rfl rfl unhandled.symm
  | waitPush w =>
      simp only [Waiter.next]
      split
      · have kept := ok.setFrame w .reading may (by simp) (by simp) (by simp [WaitFrame.tokened])
          fun _ early => by simp [WaitFrame.stage, Fits, early.1, early.2.1]
        exact ok.update w _ rfl rfl fun _ => { kept with }
      · refine ok.update w _ rfl rfl fun _ => ok.setFrame w _ may (by simp) ?_ ?_ ?_
        · split <;> simp
        · split <;> simp_all [WaitFrame.tokened]
        · intro token
          rw [if_neg token]
          exact id
  | waitRetain w =>
      have token : (s.waits w).token ≠ none := (ok w).token may rfl
      have kept := ok.setFrame w .registering may (by simp) (by simp) (fun _ => token)
        fun _ early => ⟨early.1, early.2.2⟩
      exact ok.update w _ rfl rfl fun _ => { kept with }
  | waitRegistered w =>
      exact ok.update w _ rfl rfl fun here => here.register may.1 may.2
  | waitPark w =>
      exact ok.update w _ (State.waits_park s w) (State.registry_park s w) fun _ =>
        ok.setFrame w .parked may (by simp) (by simp) (by simp [WaitFrame.tokened]) fun _ => id
  | waitRead w =>
      have kept := ok.setFrame w .closing may.1 (by simp) (by simp) (by simp [WaitFrame.tokened])
        fun _ => id
      exact ok.update w _ rfl rfl fun _ => { kept with }
  | waitClose w =>
      have kept := ok.awake w may rfl
      exact ok.update w _ rfl rfl fun _ => { kept with }
  | waitUnregister w => exact ok.unregister may
  | waitUnregistered w won =>
      refine ok.update w _ rfl rfl fun _ =>
        ok.setFrame w .releasing may.1 (by simp) (by simp) (by simp [WaitFrame.tokened]) ?_
      exact fun _ consumed => ⟨consumed.1, by rw [may.2]; rfl⟩
  | waitRelease w =>
      have kept : HookOk { s.waits w with frame := if (s.waits w).token = none then .reading
          else .rechecking } (s.registry.registrations w) := by
        refine ok.setFrame w _ may (by simp) ?_ ?_ ?_
        · split <;> simp
        · split <;> simp_all [WaitFrame.tokened]
        · intro token
          rw [if_neg token]
          exact id
      exact ok.update w _ rfl rfl fun _ => { kept with }
  | waitRecheck w t =>
      have here : (s.waits w).frame = .rechecking := may.1
      simp only [Waiter.next]
      split
      · refine ok.finish _ (by simp [here]) ?_
        rw [here]
        exact fun late => by simp [Fits, late.1, late.2]
      · refine ok.update w _ rfl rfl fun _ =>
          ok.setFrame w .reading here (by simp) (by simp) (by simp [WaitFrame.tokened]) ?_
        exact fun _ late => by simp [WaitFrame.stage, Fits, late.1, late.2]
  | waitReturn w =>
      have here : (s.waits w).frame = .reading := may
      refine ok.finish _ (by simp [here]) ?_
      rw [here]
      exact id
  | callbackClaim w =>
      have here : (s.waits w).callback = .entered := may
      simp only [Waiter.next]
      split
      · exact ok.update w _ rfl rfl fun hook =>
          hook.setCallback .done (by simp [here]) (by simp [here]) (by simp)
      · have kept := (ok w).setCallback .waking (by simp [here]) (by simp [here]) (by simp)
        exact ok.update w _ rfl rfl fun _ => { kept with }
  | callbackWake w =>
      have here : (s.waits w).callback = .waking := may
      have kept := (ok w).setCallback .done (by simp [here]) (by simp [here]) (by simp)
      refine ok.update w { (s.waits w).callbackWoken with callback := .done } ?_ ?_ ?_
      · simp [Waiter.next, State.setWait]
      · simp [Waiter.next, State.setWait]
      · intro _
        have same := (s.waits w).callbackWoken_calls
        exact kept.congr same.2.1 rfl same.2.2.2.1 same.2.2.2.2.1
  | completeExchange k f r =>
      simp only [Waiter.next]
      split <;> exact ok
  | completeClaim k f w rest =>
      simp only [Waiter.next]
      split
      · exact ok
      · exact ok.update w _ rfl rfl fun here => { here with }
  | completeWake k f w rest =>
      refine ok.update w (s.waits w).drainWoken ?_ ?_ ?_
      · simp [Waiter.next, State.setComplete]
      · simp [Waiter.next, State.setComplete]
      · intro here
        have same := (s.waits w).drainWoken_calls
        exact here.congr same.2.1 same.2.2.1 same.2.2.2.1 same.2.2.2.2.1
  | completeRelease k f w rest => exact ok.update w _ rfl rfl fun here => { here with }
  | releaseClose f w rest => exact ok.update w _ rfl rfl fun here => { here with }
  | releaseDrop f w rest => exact ok.update w _ rfl rfl fun here => { here with }
  | workerResume S c w rest =>
      simp only [Waiter.next, State.resume]
      split
      next v suspended =>
        have here := WaitFrame.seat_parked.mp (seated.suspended c v suspended).2
        exact ok.update v _ rfl rfl fun _ => ok.awake v here rfl
      · exact ok
  | _ => exact ok

end Hooked

theorem reachable_hooked {s : State} (reached : machine.Reachable s) : Hooked s := by
  refine reached.invariant _ ?_ ?_
  · intro s initial w
    rw [show s = start from initial]
    constructor <;> simp [start, Wait.Owned, WaitFrame.tokened]
  · intro s event reached ok may
    exact ok.next (reachable_registry reached) (reachable_seated reached) may

end Waiter
end UfsrvRx
