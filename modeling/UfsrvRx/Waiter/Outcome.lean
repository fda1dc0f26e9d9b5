import UfsrvRx.Waiter.Invariant

namespace UfsrvRx
namespace Waiter

/-!
# What waits return

A wait reads the result of its future only when that future is READY, and otherwise
returns `ECANCELED` for a token that is cancelled.  While it is in flight its token
is alive.
-/

/-- The result of a READY future does not change any more. -/
def Settles (before after : FutureCell) : Prop :=
  before.isReady = true -> after.isReady = true ∧ after.result = before.result

theorem settles_update {s after : State} (f : FutureId) {cell : FutureCell}
    (futures : after.futures = Function.update s.futures f cell)
    (new : Settles (s.futures f) cell) (g : FutureId) :
    Settles (s.futures g) (after.futures g) := by
  rw [futures]
  exact Transition.forall_update_right (fun _ ready => ⟨ready, rfl⟩) f new g

theorem settles_next {s : State} (completing : Completing s) {event : Event}
    (may : enabled s event) (f : FutureId) : Settles (s.futures f) ((next s event).futures f) := by
  have same : Settles (s.futures f) (s.futures f) := fun ready => ⟨ready, rfl⟩
  cases event with
  | registry inner =>
      change Settles _ ((s.react inner).futures f)
      rcases s.react_cases inner with still | ⟨w, _, _, moved⟩ | ⟨w, _, _, moved⟩
      · rw [still]
        exact same
      · rw [moved]
        exact same
      · rw [moved]
        exact same
  | waitStart w agent g token => simpa [next, State.setWait] using same
  | waitCheckToken w t =>
      simp only [next]
      split
      · simpa using same
      · exact same
  | waitCheckState w =>
      simp only [next]
      split <;> exact same
  | waitPush w =>
      simp only [next]
      split
      · exact same
      · exact settles_update _ rfl (by exact fun ready => ⟨ready, rfl⟩) f
  | waitPark w => simpa [next] using same
  | waitRecheck w t =>
      simp only [next]
      split
      · simpa using same
      · exact same
  | waitReturn w => simpa [next] using same
  | callbackClaim w =>
      simp only [next]
      split <;> exact same
  | callbackWake w => simpa [next, State.setWait] using same
  | completeExchange k g r =>
      simp only [next]
      split
      · exact same
      · exact settles_update g rfl (by exact fun ready => ⟨ready, rfl⟩) f
  | completeWrite k g r =>
      have here : s.complete k = .writing g r := may
      have unready := (completing.published k g (by rw [here]; rfl)).mp (by rw [here]; rfl)
      exact settles_update g rfl (fun ready => by simp [unready] at ready) f
  | completeReady k g => exact settles_update g rfl (by exact fun _ => ⟨rfl, rfl⟩) f
  | completeClose k g => exact settles_update g rfl (by exact fun ready => ⟨ready, rfl⟩) f
  | completeClaim k g w rest =>
      simp only [next]
      split <;> exact same
  | completeWake k g w rest => simpa [next, State.setComplete] using same
  | releaseSteal g => exact settles_update g rfl (by exact fun ready => ⟨ready, rfl⟩) f
  | releaseClose g w rest => exact settles_update g rfl (by exact fun ready => ⟨ready, rfl⟩) f
  | releaseDrop g w rest => exact settles_update g rfl (by exact fun ready => ⟨ready, rfl⟩) f
  | releaseReturn g => exact settles_update g rfl (by exact fun ready => ⟨ready, rfl⟩) f
  | workerResume S c w rest => simpa [next] using same
  | _ => exact same

theorem cancelled_next {s : State} (reached : machine.Reachable s) {event : Event}
    (may : enabled s event) {t : TokenId}
    (cancelled : (s.registry.tokens t).token.isCancelled = true) :
    ((next s event).registry.tokens t).token.isCancelled = true := by
  rcases Cancellation.reachable_consistent (reachable_registry reached) with ⟨_, _, _, ok⟩
  rcases registry_next s event may with same | ⟨inner, mayInner, stepped⟩
  · rw [same]
    exact cancelled
  · rw [stepped]
    exact Cancellation.flag_next ok mayInner cancelled

/-- A wait keeps the reference of its client to the token. -/
theorem held_next {s : State} (seated : Seated s)
    (ok : forall w t, (s.waits w).frame.inFlight = true -> (s.waits w).token = some t ->
      0 < (s.registry.tokens t).clientRefs)
    {event : Event} (may : enabled s event) (w : WaitId) (t : TokenId)
    (flight : ((next s event).waits w).frame.inFlight = true)
    (token : ((next s event).waits w).token = some t) :
    0 < ((next s event).registry.tokens t).clientRefs := by
  have before : 0 < (s.registry.tokens t).clientRefs ∧
      ((s.waits w).frame.inFlight = true ∧ (s.waits w).token = some t ∨
        Exists fun agent => Exists fun f => event = .waitStart w agent f (some t)) := by
    rcases waits_next seated may with same | ⟨v, entry, moved, started | ⟨_, kept, still⟩⟩
    · rw [same] at flight token
      exact ⟨ok w t flight token, Or.inl ⟨flight, token⟩⟩
    · rcases started with ⟨agent, rfl⟩
      by_cases mine : w = v
      · subst w
        rw [moved, Function.update_self] at token
        refine ⟨(may.2.2.2 t token).2, Or.inr ⟨agent, entry.future, ?_⟩⟩
        rw [token]
      · rw [moved, Function.update_of_ne mine] at flight token
        exact ⟨ok w t flight token, Or.inl ⟨flight, token⟩⟩
    · by_cases mine : w = v
      · subst w
        rw [moved, Function.update_self] at flight token
        have flew := still flight
        rw [kept] at token
        exact ⟨ok v t flew token, Or.inl ⟨flew, token⟩⟩
      · rw [moved, Function.update_of_ne mine] at flight token
        exact ⟨ok w t flight token, Or.inl ⟨flight, token⟩⟩
  rcases before with ⟨held, origin⟩
  rcases registry_step s event may with same | ⟨inner, _, stepped, rfl | ⟨v, rfl⟩⟩
  · rw [same]
    exact held
  · rw [stepped]
    refine Cancellation.clients_next held ?_
    rintro d rfl
    rcases origin with ⟨flew, mine⟩ | ⟨_, _, starts⟩
    · rcases may.2 with more | none
      · exact more
      · rw [none w mine] at flew
        cases flew
    · cases starts
  · rw [stepped]
    refine Cancellation.clients_next held ?_
    intro d same
    cases same

theorem reachable_held {s : State} (reached : machine.Reachable s) (w : WaitId) (t : TokenId)
    (flight : (s.waits w).frame.inFlight = true) (token : (s.waits w).token = some t) :
    0 < (s.registry.tokens t).clientRefs := by
  refine reached.invariant (fun s => forall w t, (s.waits w).frame.inFlight = true ->
    (s.waits w).token = some t -> 0 < (s.registry.tokens t).clientRefs) ?_ ?_ w t flight token
  · intro s initial w t flight
    rw [show s = start from initial] at flight
    cases flight
  · intro s event reached ok may
    exact held_next (reachable_seated reached) ok may

/-! ## Outcomes -/

/-- A wait that reads a result, or has returned one, was entitled to it. -/
structure State.Outcome (s : State) (wait : Wait) : Prop where
  reading : wait.frame = .reading -> (s.futures wait.future).isReady = true
  returned : forall r, wait.frame = .returned r ->
    (r = .ofError Future.ecanceled ∧ Exists fun t => wait.token = some t ∧
      (s.registry.tokens t).token.isCancelled = true) ∨
    (s.futures wait.future).isReady = true ∧ r = (s.futures wait.future).result

namespace State.Outcome

variable {s after : State} {wait : Wait}

theorem kept (ok : s.Outcome wait)
    (settles : forall f, Settles (s.futures f) (after.futures f))
    (flags : forall t, (s.registry.tokens t).token.isCancelled = true ->
      (after.registry.tokens t).token.isCancelled = true)
    {entry : Wait} (frame : entry.frame = wait.frame) (future : entry.future = wait.future)
    (token : entry.token = wait.token) : after.Outcome entry := by
  constructor
  · intro here
    rw [future]
    exact (settles _ (ok.reading (frame ▸ here))).1
  · intro r here
    rw [future, token]
    rcases ok.returned r (frame ▸ here) with ⟨error, t, mine, cancelled⟩ | ⟨ready, same⟩
    · exact Or.inl ⟨error, t, mine, flags t cancelled⟩
    · have settled := settles _ ready
      exact Or.inr ⟨settled.1, same.trans settled.2.symm⟩

theorem early (reading : wait.frame ≠ .reading) (returned : forall r, wait.frame ≠ .returned r) :
    s.Outcome wait :=
  ⟨fun here => absurd here reading, fun r here => absurd here (returned r)⟩

theorem read (here : wait.frame = .reading) (ready : (s.futures wait.future).isReady = true) :
    s.Outcome wait :=
  ⟨fun _ => ready, by simp [here]⟩

theorem cancelled {t : TokenId} (here : wait.frame = .returned (.ofError Future.ecanceled))
    (token : wait.token = some t) (set : (s.registry.tokens t).token.isCancelled = true) :
    s.Outcome wait := by
  refine ⟨by simp [here], ?_⟩
  intro r returned
  rw [here] at returned
  injection returned with same
  exact Or.inl ⟨same.symm, t, token, set⟩

end State.Outcome

/-- A woken wait has a READY future or a cancelled token. -/
theorem woken_due {s : State} {spot : WaitId -> Spot} (noded : Noded s spot) {w : WaitId}
    {frame : WaitFrame} (here : (s.waits w).frame = frame) (link : frame.link = .linked)
    (woken : frame.woken = true) : s.Due (s.waits w) := by
  have node := noded.nodes w
  subst frame
  have once := node.woken (node.linked link) woken
  have claim := node.claim
  refine noded.seen w ?_
  by_contra free
  simp only [free, once] at claim
  simp at claim

theorem outcome_next {s : State} (reached : machine.Reachable s)
    (ok : forall w, s.Outcome (s.waits w)) {event : Event} (may : enabled s event) (w : WaitId) :
    (next s event).Outcome ((next s event).waits w) := by
  have seated := reachable_seated reached
  have completing := reachable_completing reached
  rcases (reachable_noded reached).2 with ⟨spot, noded⟩
  have settles := settles_next completing may
  have flags (t : TokenId) := fun set => @cancelled_next s reached event may t set
  have kept (v : WaitId) {entry : Wait} (frame : entry.frame = (s.waits v).frame)
      (future : entry.future = (s.waits v).future) (token : entry.token = (s.waits v).token) :
      (next s event).Outcome entry :=
    (ok v).kept settles flags frame future token
  have same (waits : (next s event).waits = s.waits) :
      (next s event).Outcome ((next s event).waits w) := by
    rw [waits]
    exact kept w rfl rfl rfl
  -- Only the entry that the step writes has to be looked at.
  have moved (v : WaitId) (entry : Wait)
      (waits : (next s event).waits = Function.update s.waits v entry)
      (new : (next s event).Outcome entry) : (next s event).Outcome ((next s event).waits w) := by
    rw [waits]
    by_cases mine : w = v
    · subst w
      rw [Function.update_self]
      exact new
    · rw [Function.update_of_ne mine]
      exact kept w rfl rfl rfl
  have step (v : WaitId) (entry : Wait)
      (waits : (next s event).waits = Function.update s.waits v entry)
      (reading : entry.frame ≠ .reading) (returned : forall r, entry.frame ≠ .returned r) :
      (next s event).Outcome ((next s event).waits w) :=
    moved v entry waits (.early reading returned)
  cases event with
  | registry inner =>
      rcases s.react_cases inner with still | ⟨v, _, _, reacted⟩ | ⟨v, _, _, reacted⟩
      · exact same (by simp only [next, still])
      · exact moved v { s.waits v with callback := .entered } (by simp only [next, reacted]; rfl)
          (kept v rfl rfl rfl)
      · exact moved v (s.waits v).drop (by simp only [next, reacted]; rfl) (kept v rfl rfl rfl)
  | waitStart v agent f token =>
      refine step v _ (State.waits_setStatus _ _ _) ?_ ?_
      · simp only
        split <;> simp
      · intro r
        simp only
        split <;> simp
  | waitCheckToken v t =>
      by_cases cancelled : (s.registry.tokens t).token.isCancelled = true
      · refine moved v { s.waits v with frame := .returned (.ofError Future.ecanceled) }
          (by simp [next, cancelled]) (.cancelled rfl may.2 (flags t cancelled))
      · exact step v { s.waits v with frame := .checkingState }
          (by simp [next, cancelled, State.setFrame, State.setWait]) (by simp) (by simp)
  | waitCheckState v =>
      by_cases ready : (s.futures (s.waits v).future).isReady = true
      · exact moved v { s.waits v with frame := .reading }
          (by simp [next, ready, State.setFrame, State.setWait]) (.read rfl (settles _ ready).1)
      · refine step v _ (by simp only [next, ready]; rfl) (by simp) (by simp)
  | waitPush v =>
      have here : (s.waits v).frame = .allocated := may
      by_cases closed : (s.futures (s.waits v).future).closed = true
      · have ready : (s.futures (s.waits v).future).isReady = true := by
          rcases completing.closed _ closed with ready | released
          · exact ready
          · exact absurd (completing.waits v (by rw [here]; rfl)) released
        exact moved v
          { { s.waits v with refcount := (s.waits v).refcount - 1 }.drop with
            frame := .reading
            fdOpen := false
            blockFd := if (s.waits v).token = none then (s.waits v).blockFd else false }
          (by simp only [next, closed, if_true]; rfl) (.read rfl (settles _ ready).1)
      · refine step v { s.waits v with
          frame := if (s.waits v).token = none then .parking else .retaining }
          (by simp only [next, closed]; rfl) ?_ ?_
        · simp only
          split <;> simp
        · intro r
          simp only
          split <;> simp
  | waitRetain v => exact step v _ rfl (by simp) (by simp)
  | waitRegistered v => exact step v _ rfl (by simp) (by simp)
  | waitPark v => exact step v _ (State.waits_park s v) (by simp) (by simp)
  | waitRead v => exact step v _ rfl (by simp) (by simp)
  | waitClose v =>
      refine step v _ rfl ?_ ?_
      · simp only [Wait.awake]
        split <;> simp
      · intro r
        simp only [Wait.awake]
        split <;> simp
  | waitUnregister v => exact step v _ rfl (by simp) (by simp)
  | waitUnregistered v won => exact step v _ rfl (by simp) (by simp)
  | waitRelease v =>
      have due := woken_due noded (show (s.waits v).frame = _ from may) rfl rfl
      by_cases plain : (s.waits v).token = none
      · have ready : (s.futures (s.waits v).future).isReady = true := by
          rcases due with ready | ⟨t, token, _⟩
          · exact ready
          · rw [plain] at token
            cases token
        exact moved v _ rfl (.read (if_pos plain) (settles _ ready).1)
      · exact step v _ rfl (by simp [plain]) (by simp [plain])
  | waitRecheck v t =>
      have here : (s.waits v).frame = .rechecking := may.1
      by_cases cancelled : (s.registry.tokens t).token.isCancelled = true
      · exact moved v { s.waits v with frame := .returned (.ofError Future.ecanceled) }
          (by simp [next, cancelled]) (.cancelled rfl may.2 (flags t cancelled))
      · have ready : (s.futures (s.waits v).future).isReady = true := by
          rcases woken_due noded here rfl rfl with ready | ⟨u, token, set⟩
          · exact ready
          · have same : u = t := by simpa [may.2] using token.symm
            exact absurd (same ▸ set) cancelled
        exact moved v { s.waits v with frame := .reading }
          (by simp [next, cancelled, State.setFrame, State.setWait]) (.read rfl (settles _ ready).1)
  | waitReturn v =>
      have ready := (ok v).reading may
      have settled := settles _ ready
      refine moved v _ (State.waits_finish s v _) ⟨by simp, ?_⟩
      intro r returned
      injection returned with result
      exact Or.inr ⟨settled.1, result.symm.trans settled.2.symm⟩
  | callbackClaim v =>
      by_cases claimed : (s.waits v).claimed = true
      · exact moved v { s.waits v with callback := .done } (by simp only [next, claimed]; rfl)
          (kept v rfl rfl rfl)
      · exact moved v { s.waits v with claimed := true, callback := .waking }
          (by simp only [next, claimed]; rfl) (kept v rfl rfl rfl)
  | callbackWake v =>
      have calls := (s.waits v).callbackWoken_calls
      exact moved v { (s.waits v).callbackWoken with callback := .done }
        (by simp [next, State.setWait]) (kept v calls.2.1 calls.2.2.2.2.2 calls.2.2.2.1)
  | completeExchange k f r =>
      refine same ?_
      simp only [next]
      split <;> rfl
  | completeClaim k f v rest =>
      by_cases claimed : (s.waits v).claimed = true
      · exact same (by simp only [next, claimed]; rfl)
      · exact moved v { s.waits v with claimed := true } (by simp only [next, claimed]; rfl)
          (kept v rfl rfl rfl)
  | completeWake k f v rest =>
      have calls := (s.waits v).drainWoken_calls
      exact moved v (s.waits v).drainWoken (by simp [next, State.setComplete])
        (kept v calls.2.1 calls.2.2.2.2.2 calls.2.2.2.1)
  | completeRelease k f v rest => exact moved v (s.waits v).drop rfl (kept v rfl rfl rfl)
  | releaseClose f v rest => exact moved v _ rfl (kept v rfl rfl rfl)
  | releaseDrop f v rest => exact moved v (s.waits v).drop rfl (kept v rfl rfl rfl)
  | workerResume S c v rest =>
      have suspended := ((reachable_noded reached).1.head seated may).2
      refine step v { s.waits v with frame := (s.waits v).awake }
        (by simp only [next, State.resume, suspended]; rfl) ?_ ?_
      · simp only [Wait.awake]
        split <;> simp
      · intro r
        simp only [Wait.awake]
        split <;> simp
  | _ => exact same rfl

theorem reachable_outcome {s : State} (reached : machine.Reachable s) (w : WaitId) :
    s.Outcome (s.waits w) := by
  refine reached.invariant (fun s => forall w, s.Outcome (s.waits w)) ?_ ?_ w
  · intro s initial w
    rw [show s = start from initial]
    exact .early (by simp [start]) (by simp [start])
  · intro s event reached ok may
    exact outcome_next reached ok may

end Waiter
end UfsrvRx
