import UfsrvRx.Cancellation.Refinement

namespace UfsrvRx
namespace Cancellation

open Transition

/-!
# What the registry promises

The contract of registrations and tokens, read off the description of the
reachable states.  Nothing here depends on the order in which threads take
their steps, nor on what the callbacks and release hooks do.
-/

/-! ## What one step does to a registration -/

/-- The registration whose calls the step moves: its `RegisterEx`, its `Unregister`
or its callback. -/
def Event.subject : Event -> Option NodeId
  | registerRefused node _ | registerAlloc node _ _ | registerRetain node | registerLock node
  | registerCall node | registerCallReturned node | unregisterLock node
  | unregisterReturn node _ | cancelCall _ _ node _ | cancelCallReturned _ _ node _ => some node
  | create _ | retain _ | cancelLock _ _ | cancelDrop _ _ _ _ | cancelReclaimed _ _ _ _
  | cancelReturn _ _ | nodeFree _ | hookCall _ | hookReturned _ | nodeTokenRelease _
  | nodeTokenWalk _ | destroyRelease _ _ | destroyWalk _ _ => none

/-- The two states of a registration differ at most in the reclamation of the node. -/
structure SameCalls (before after : Registration) : Prop where
  register : after.register = before.register
  unregister : after.unregister = before.unregister
  token : after.cb.token = before.cb.token
  hook : after.cb.releaseContext = before.cb.releaseContext
  started : after.started = before.started
  finished : after.finished = before.finished

theorem SameCalls.refl (entry : Registration) : SameCalls entry entry :=
  ⟨rfl, rfl, rfl, rfl, rfl, rfl⟩

theorem sameCalls_walkToken (s : State) (t : TokenId) (n : NodeId) :
    SameCalls (s.registrations n) ((s.walkToken t).registrations n) := by
  simp only [State.walkToken]
  split <;> exact ⟨rfl, rfl, rfl, rfl, rfl, rfl⟩

/-- A step leaves the calls of every registration alone but those of its subject. -/
theorem sameCalls_next (s : State) {event : Event} {n : NodeId}
    (other : event.subject ≠ some n) :
    SameCalls (s.registrations n) ((next s event).registrations n) := by
  have unchanged (m : NodeId) := SameCalls.refl (s.registrations m)
  have changed (m : NodeId) {entry : Registration} (new : SameCalls (s.registrations m) entry) :
      SameCalls (s.registrations n) (Function.update s.registrations m entry n) :=
    @forall_update_right _ _ _ _ _ s.registrations _ unchanged m _ new n
  have moved (m : NodeId) {entry : Registration} (apart : m ≠ n) :
      SameCalls (s.registrations n) (Function.update s.registrations m entry n) := by
    rw [Function.update_of_ne apart.symm]
    exact unchanged n
  have apart {m : NodeId} (subject : event.subject = some m) : m ≠ n := by
    intro same
    exact other (by rw [subject, same])
  cases event with
  | create t => exact unchanged n
  | retain t => exact unchanged n
  | registerRefused m t => exact moved m (apart rfl)
  | registerAlloc m t hook => exact moved m (apart rfl)
  | registerRetain m => exact moved m (apart rfl)
  | registerLock m =>
      simp only [next, State.registerSection]
      split
      · exact moved m (apart rfl)
      · exact moved m (apart rfl)
  | registerCall m => exact moved m (apart rfl)
  | registerCallReturned m => exact moved m (apart rfl)
  | unregisterLock m =>
      simp only [next, State.unregisterSection]
      split
      · exact moved m (apart rfl)
      · exact moved m (apart rfl)
  | unregisterReturn m won => exact moved m (apart rfl)
  | cancelLock k t =>
      simp only [next, State.cancelSection]
      split
      · exact unchanged n
      · simp only
        split <;> exact ⟨rfl, rfl, rfl, rfl, rfl, rfl⟩
  | cancelCall k t m rest => exact moved m (apart rfl)
  | cancelCallReturned k t m rest => exact moved m (apart rfl)
  | cancelDrop k t m rest => exact changed m ⟨rfl, rfl, rfl, rfl, rfl, rfl⟩
  | cancelReclaimed k t m rest => exact unchanged n
  | cancelReturn k t => exact unchanged n
  | nodeFree m => exact changed m ⟨rfl, rfl, rfl, rfl, rfl, rfl⟩
  | hookCall m => exact changed m ⟨rfl, rfl, rfl, rfl, rfl, rfl⟩
  | hookReturned m => exact changed m ⟨rfl, rfl, rfl, rfl, rfl, rfl⟩
  | nodeTokenRelease m => exact changed m ⟨rfl, rfl, rfl, rfl, rfl, rfl⟩
  | nodeTokenWalk m =>
      have walked := sameCalls_walkToken s (s.tokenOf m)
      refine forall_update_right walked m ?_ n
      exact { walked m with }
  | destroyRelease d t => exact unchanged n
  | destroyWalk d t => exact sameCalls_walkToken s t n

/-- The history of a registration only grows, the answer of `Unregister` is
final, and a registration that finds the flag set calls back before it returns. -/
structure Evolves (cancelled : Bool) (before after : Registration) : Prop where
  unregister : forall won, before.unregister = .returned won -> after.unregister = .returned won
  neutralised : before.unregister = .reclaiming true ∨ before.unregister = .returned true ->
    after.unregister = .reclaiming true ∨ after.unregister = .returned true
  started : before.started ≤ after.started
  finished : before.finished ≤ after.finished
  token : before.register ≠ .idle -> after.cb.token = before.cb.token
  hook : before.register ≠ .idle -> after.cb.releaseContext = before.cb.releaseContext
  begun : before.register ≠ .idle -> after.register ≠ .idle
  allocated : before.register = .allocated ->
    after.register = .allocated ∨ after.register = .retained
  retained : before.register = .retained ->
    after.register = .retained ∨
      after.register = if cancelled then .calling else .returned
  calling : before.register = .calling -> after.register = .calling ∨ after.register = .running
  running : before.register = .running ->
    after.register = .running ∨
      after.register = .returned ∧ after.finished = before.finished + 1
  returned : before.register = .returned -> after.register = .returned
  refused : before.register = .refused -> after.register = .refused

theorem SameCalls.evolves {before after : Registration} (same : SameCalls before after)
    (cancelled : Bool) : Evolves cancelled before after := by
  rcases same with ⟨register, unregister, token, hook, started, finished⟩
  constructor <;> grind

theorem evolves_next {s : State} {event : Event} (may : enabled s event) (n : NodeId) :
    Evolves (s.tokens (s.tokenOf n)).token.isCancelled (s.registrations n)
      ((next s event).registrations n) := by
  by_cases subject : event.subject = some n
  case neg => exact (sameCalls_next s subject).evolves _
  cases event <;> simp only [Event.subject, reduceCtorEq, Option.some.injEq] at subject <;>
    subst subject
  case registerLock =>
    simp only [next, State.registerSection]
    split <;> simp only [State.setRegistration, Function.update_self] <;> constructor <;>
      grind [enabled]
  case unregisterLock =>
    simp only [next, State.unregisterSection]
    split <;> simp only [State.setRegistration, Function.update_self] <;> constructor <;>
      grind [enabled]
  all_goals
    simp only [next, State.setRegistration, State.setCancel, Function.update_self]
    constructor <;> grind [enabled]

/-- What the callback of each registration has done, counted by the steps that
start and end it. -/
def Event.starts : Event -> Option NodeId
  | registerCall node | cancelCall _ _ node _ => some node
  | _ => none

def Event.finishes : Event -> Option NodeId
  | registerCallReturned node | cancelCallReturned _ _ node _ => some node
  | _ => none

theorem history_next (s : State) (event : Event) (n : NodeId) :
    ((next s event).registrations n).started =
        (s.registrations n).started + (if event.starts = some n then 1 else 0) ∧
      ((next s event).registrations n).finished =
        (s.registrations n).finished + if event.finishes = some n then 1 else 0 := by
  by_cases subject : event.subject = some n
  · cases event <;> simp only [Event.subject, reduceCtorEq, Option.some.injEq] at subject <;>
      subst subject
    case registerLock =>
      simp only [next, State.registerSection]
      split <;> simp [Event.starts, Event.finishes]
    case unregisterLock =>
      simp only [next, State.unregisterSection]
      split <;> simp [Event.starts, Event.finishes]
    all_goals simp [next, Event.starts, Event.finishes]
  · have same := sameCalls_next s subject
    rw [same.started, same.finished]
    cases event <;> simp_all [Event.starts, Event.finishes, Event.subject]

/-- Only the section of `Unregister` decides an answer. -/
theorem unregister_next {s : State} {event : Event} (may : enabled s event) {n : NodeId}
    (other : event ≠ .unregisterLock n) :
    ((next s event).registrations n).unregister = (s.registrations n).unregister ∨
      Exists fun won => (s.registrations n).unregister = .reclaiming won ∧
        ((next s event).registrations n).unregister = .returned won := by
  by_cases subject : event.subject = some n
  · cases event <;> simp only [Event.subject, reduceCtorEq, Option.some.injEq] at subject <;>
      subst subject
    case unregisterLock => exact absurd rfl other
    case unregisterReturn won => exact Or.inr ⟨won, may.1, by simp [next]⟩
    case registerLock =>
      simp only [next, State.registerSection]
      split <;> simp
    all_goals simp [next]
  · exact Or.inl (sameCalls_next s subject).unregister

theorem unregister_answers (s : State) (n : NodeId) :
    ((next s (.unregisterLock n)).registrations n).unregister ≠ .idle := by
  simp only [next, State.unregisterSection]
  split <;> simp only [State.setRegistration, Function.update_self] <;> split <;> simp

/-- A registration begins with its own first step. -/
theorem register_idle_next {s : State} {event : Event} (may : enabled s event) {n : NodeId}
    (idle : (s.registrations n).register = .idle) :
    ((next s event).registrations n).register = .idle ∨
      (Exists fun t => event = .registerRefused n t) ∨
      Exists fun t => Exists fun hook => event = .registerAlloc n t hook := by
  by_cases subject : event.subject = some n
  · cases event <;> simp only [Event.subject, reduceCtorEq, Option.some.injEq] at subject <;>
      subst subject
    case registerRefused t => exact Or.inr (Or.inl ⟨t, rfl⟩)
    case registerAlloc t hook => exact Or.inr (Or.inr ⟨t, hook, rfl⟩)
    case registerRetain => simp [enabled, idle] at may
    case registerLock => simp [enabled, idle] at may
    case registerCall => simp [enabled, idle] at may
    case registerCallReturned => simp [enabled, idle] at may
    case unregisterLock => simp [enabled, idle] at may
    all_goals exact Or.inl (by simp [next, idle])
  · rw [(sameCalls_next s subject).register]
    exact Or.inl idle

theorem flag_update {table : TokenId -> TokenCell} {t : TokenId}
    (set : (table t).token.isCancelled = true) (u : TokenId) {cell : TokenCell}
    (kept : (table u).token.isCancelled = true -> cell.token.isCancelled = true) :
    (Function.update table u cell t).token.isCancelled = true :=
  @forall_update_right _ _ _ _
    (fun old new : TokenCell => old.token.isCancelled = true -> new.token.isCancelled = true)
    table _ (fun _ => id) u _ kept t set

/-- A set flag stays set. -/
theorem flag_next {s : State} {life : NodeId -> Life} {owners : TokenId -> Finset NodeId}
    {fate : TokenId -> Fate} (ok : Consistent s life owners fate) {event : Event}
    (may : enabled s event) {t : TokenId} (set : (s.tokens t).token.isCancelled = true) :
    ((next s event).tokens t).token.isCancelled = true := by
  cases event with
  | create u =>
      have unflagged := ok.unflagged u ((ok.absent u).mp may)
      exact flag_update set u fun cancelled => absurd cancelled (by simp [unflagged])
  | retain u =>
      refine flag_update ?_ u id
      exact flag_update set u id
  | registerRetain n => exact flag_update set (s.tokenOf n) id
  | registerLock n =>
      simp only [next, State.registerSection]
      split
      · exact set
      · exact flag_update set (s.tokenOf n) id
  | unregisterLock n =>
      simp only [next, State.unregisterSection]
      split
      · exact flag_update set (s.tokenOf n) id
      · exact set
  | cancelLock k u =>
      simp only [next, State.cancelSection]
      split
      · exact set
      · exact flag_update set u fun _ => rfl
  | nodeTokenRelease n => exact flag_update set (s.tokenOf n) id
  | nodeTokenWalk n => exact flag_update set (s.tokenOf n) id
  | destroyRelease d u =>
      refine flag_update ?_ u id
      exact flag_update set u id
  | destroyWalk d u => exact flag_update set u id
  | registerRefused n u => exact set
  | registerAlloc n u hook => exact set
  | registerCall n => exact set
  | registerCallReturned n => exact set
  | unregisterReturn n won => exact set
  | cancelCall k u n rest => exact set
  | cancelCallReturned k u n rest => exact set
  | cancelDrop k u n rest => exact set
  | cancelReclaimed k u n rest => exact set
  | cancelReturn k u => exact set
  | nodeFree n => exact set
  | hookCall n => exact set
  | hookReturned n => exact set

/-! ## What a run does to a registration -/

namespace State

/-- `Unregister` took the node off its list, and has answered or will answer true. -/
def Neutralised (s : State) (n : NodeId) : Prop :=
  (s.registrations n).unregister = .reclaiming true ∨
    (s.registrations n).unregister = .returned true

/-- A registration that was made, whether or not its call has returned. -/
def Registered (s : State) (n : NodeId) : Prop :=
  (s.registrations n).register ≠ .idle ∧ (s.registrations n).register ≠ .refused

/-- Some agent dropped the last reference of the token. -/
def Condemned (s : State) (t : TokenId) : Prop :=
  (Exists fun d => s.destroy d = .walking t) ∨
    (Exists fun n => (s.registrations n).reclaim = .walking ∧ s.tokenOf n = t) ∨
    0 < (s.tokens t).freed

end State

/-- A `Cancel` call still has the node in its hands. -/
def CancelFrame.Owns (frame : CancelFrame) (n : NodeId) : Prop :=
  n ∈ frame.pending ∨ frame.runningNode = some n ∨ frame.droppingNode = some n ∨
    frame.reclaimingNode = some n

/-- A returned registration has been listed or has called back. -/
theorem LocalOk.returned {life : Life} {entry : Registration} (ok : LocalOk life entry)
    (made : entry.register = .returned) :
    life ≠ .absent ∧ life ≠ .entering ∧ life ≠ .calling ∧ life ≠ .inlineRunning := by
  rw [ne_eq, ne_eq, ne_eq, ne_eq, ok.absent, ok.entering, ok.calling, ok.inlineRunning, made]
  simp

namespace Consistent

variable {s : State} {life : NodeId -> Life} {owners : TokenId -> Finset NodeId}
  {fate : TokenId -> Fate}

theorem started_le (ok : Consistent s life owners fate) (n : NodeId) :
    (s.registrations n).started ≤ 1 := by
  rw [(ok.entries n).started]
  cases life n <;> simp [Life.started]

theorem neutralised_iff (ok : Consistent s life owners fate) (n : NodeId) :
    life n = .removed ↔ s.Neutralised n :=
  (ok.entries n).removed

theorem neutralised_started (ok : Consistent s life owners fate) {n : NodeId}
    (neutral : s.Neutralised n) : (s.registrations n).started = 0 := by
  rw [(ok.entries n).started, (ok.neutralised_iff n).mpr neutral]
  rfl

/-- After the dispatch loop of the flag-setting call nothing of its token is
listed or detached any more. -/
theorem dispatched (ok : Consistent s life owners fate) {k : CallId} {t : TokenId}
    (returned : s.cancel k = .returned t true) {n : NodeId} (on : s.tokenOf n = t)
    (made : (s.registrations n).register = .returned) :
    s.Neutralised n ∨ (s.registrations n).started = 1 ∧ (s.registrations n).finished = 1 := by
  have flagged : (s.cancel k).flagged = some t := by rw [returned]; rfl
  have cancelled := ok.lists.flagged k t flagged
  have entry := ok.entries n
  have owner (j : CallId) (held : life n = .detached j ∨ life n = .running j ∨ life n = .ran j) :
      False := by
    have mine := ok.lists.token j n held
    rw [on] at mine
    have same := ok.lists.unique j k t mine flagged
    subst j
    have pending := ok.lists.pendingMem k n
    have running := ok.lists.running k n
    have dropping := ok.lists.dropping k n
    rw [returned] at pending running dropping
    grind
  have outside := entry.returned made
  rw [entry.started, entry.finished, <- ok.neutralised_iff]
  cases phase : life n with
  | absent => exact absurd phase outside.1
  | entering => exact absurd phase outside.2.1
  | calling => exact absurd phase outside.2.2.1
  | inlineRunning => exact absurd phase outside.2.2.2
  | listed =>
      have unset := ok.lists.listed n phase
      rw [on] at unset
      exact absurd cancelled (by simp [unset])
  | removed => exact Or.inl rfl
  | detached j => exact (owner j (Or.inl phase)).elim
  | running j => exact (owner j (Or.inr (Or.inl phase))).elim
  | ran j => exact (owner j (Or.inr (Or.inr phase))).elim
  | dropped => exact Or.inr ⟨rfl, rfl⟩
  | inlineRan => exact Or.inr ⟨rfl, rfl⟩

/-- A node is given back only when its callback is over or was prevented. -/
theorem released_settled (ok : Consistent s life owners fate) {n : NodeId}
    (released : (s.registrations n).released ≠ 0) :
    (s.registrations n).unregister ≠ .idle ∧
      (s.registrations n).started = (s.registrations n).finished ∧
      (s.Neutralised n ∨ (s.registrations n).started = 1) := by
  have entry := ok.entries n
  have reclaimed : (s.registrations n).reclaim ≠ .idle := by
    intro idle
    apply released
    rw [entry.released, idle]
    simp [ReclaimFrame.released]
  have consumed := entry.consumed reclaimed
  have outside := entry.returned consumed.2.1
  refine ⟨consumed.1, ?_⟩
  have noList := consumed.2.2
  rw [entry.started, entry.finished, <- ok.neutralised_iff]
  cases phase : life n <;> simp_all [Life.started, Life.finished, Life.listRef]

/-- Once the handle is consumed and no dispatch loop has the node, `sNodeFree`
has run to its end. -/
theorem reclaimed (ok : Consistent s life owners fate) {n : NodeId} {won : Bool}
    (answered : (s.registrations n).unregister = .returned won)
    (unowned : forall k, ¬ (s.cancel k).Owns n) : (s.registrations n).reclaim = .done := by
  have entry := ok.entries n
  have handle := entry.handle (by simp [answered])
  have outside := entry.returned handle.1
  have counted := entry.refcount outside.1
  have reclaim := entry.reclaim
  have noList : (life n).listRef = 0 := by
    cases phase : life n with
    | absent => rfl
    | entering => exact absurd phase outside.2.1
    | listed => exact absurd phase handle.2
    | detached k =>
        exact absurd (Or.inl ((ok.lists.pendingMem k n).mpr phase)) (unowned k)
    | running k =>
        exact absurd (Or.inr (Or.inl ((ok.lists.running k n).mpr phase))) (unowned k)
    | ran k =>
        exact absurd (Or.inr (Or.inr (Or.inl ((ok.lists.dropping k n).mpr phase)))) (unowned k)
    | removed => rfl
    | dropped => rfl
    | calling => rfl
    | inlineRunning => rfl
    | inlineRan => rfl
  have begun : (s.registrations n).reclaim ≠ .idle := by
    rw [noList, answered] at counted
    grind
  have ended : (s.registrations n).reclaim.inFlight = false := by
    by_contra inFlight
    rcases ok.reclaimer n (by simpa using inFlight) with ⟨other, reclaiming⟩ | ⟨k, reclaiming⟩
    · rw [answered] at reclaiming
      cases reclaiming
    · exact unowned k (Or.inr (Or.inr (Or.inr reclaiming)))
  cases frame : (s.registrations n).reclaim <;> simp_all [ReclaimFrame.inFlight]

theorem released_once (ok : Consistent s life owners fate) {n : NodeId} {won : Bool}
    (answered : (s.registrations n).unregister = .returned won)
    (unowned : forall k, ¬ (s.cancel k).Owns n) :
    (s.registrations n).released = if (s.registrations n).cb.releaseContext then 1 else 0 := by
  rw [(ok.entries n).released, ok.reclaimed answered unowned]
  rfl

theorem released_le (ok : Consistent s life owners fate) (n : NodeId) :
    (s.registrations n).released ≤ 1 := by
  rw [(ok.entries n).released]
  cases (s.registrations n).reclaim <;> simp [ReclaimFrame.released] <;> split <;> simp

theorem condemned_refcount (ok : Consistent s life owners fate) {t : TokenId}
    (condemned : s.Condemned t) : (s.tokens t).token.refcount = 0 := by
  have dead : fate t ≠ .live := by
    rcases condemned with ⟨d, walking⟩ | ⟨n, walking, on⟩ | freed
    · rw [(ok.tokens.byCall t d).mpr walking]
      simp
    · rw [(ok.tokens.byNode t n).mpr ⟨by simp [State.walkers, walking], on⟩]
      simp
    · have once := ok.tokens.freedOnce t
      intro live
      rw [live] at once
      simp [State.frees] at once
      omega
  have counted := ok.tokens.counted t
  have alive := ok.tokens.alive t
  change (s.tokens t).token.refcount = _ at counted
  change _ ↔ 0 < (s.tokens t).token.refcount at alive
  grind

/-- The token goes after every node that was registered on it. -/
theorem condemned_nodes (ok : Consistent s life owners fate) {t : TokenId}
    (condemned : s.Condemned t) {n : NodeId} (on : s.tokenOf n = t) (made : s.Registered n) :
    (s.registrations n).freed = 1 := by
  have zero := ok.condemned_refcount condemned
  have none := ok.tokens.owners_empty t zero
  have free : ¬ s.holds n = true := by
    intro holds
    have owner := (ok.tokens.owned t n).mpr ⟨holds, on⟩
    rw [none] at owner
    exact Finset.notMem_empty n owner
  have idleRegister : (s.registrations n).register.inFlight ≠ true := by
    intro inFlight
    have client := ok.registering n inFlight
    have counted := ok.tokens.counted t
    change (s.tokens t).token.refcount = ((s.tokens t).clientRefs : Int) + _ at counted
    rw [on] at client
    omega
  have entry := ok.entries n
  rw [entry.freed]
  unfold State.Registered at made
  unfold State.holds Registration.holdsToken at free
  cases register : (s.registrations n).register <;>
    cases reclaim : (s.registrations n).reclaim <;>
      simp_all [RegisterFrame.inFlight, ReclaimFrame.freed]

/-- Without clients, and with every node reclaimed, the token is gone. -/
theorem abandoned_freed (ok : Consistent s life owners fate) {t : TokenId}
    (created : (s.tokens t).created = true) (clients : (s.tokens t).clientRefs = 0)
    (nodes : forall n, s.tokenOf n = t -> (s.registrations n).register = .returned ->
      (s.registrations n).reclaim = .done)
    (calls : forall d, s.destroy d ≠ .walking t) : (s.tokens t).freed = 1 := by
  have idleRegister (n : NodeId) (on : s.tokenOf n = t) :
      (s.registrations n).register.inFlight ≠ true := by
    intro inFlight
    have client := ok.registering n inFlight
    rw [on] at client
    omega
  have none : owners t = ∅ := by
    apply Finset.eq_empty_of_forall_notMem
    intro n owner
    have held := (ok.tokens.owned t n).mp owner
    have idle := idleRegister n held.2
    have done := nodes n held.2
    have holds := held.1
    unfold State.holds Registration.holdsToken at holds
    cases register : (s.registrations n).register <;> simp_all [RegisterFrame.inFlight]
  have counted := ok.tokens.counted t
  change (s.tokens t).token.refcount = ((s.tokens t).clientRefs : Int) + _ at counted
  have zero : (s.tokens t).token.refcount = 0 := by
    rw [counted, clients, none]
    rfl
  have once := ok.tokens.freedOnce t
  change (s.tokens t).freed = _ at once
  rw [once]
  cases fortune : fate t with
  | freed => rfl
  | absent =>
      have missing := (ok.absent t).mpr fortune
      change (s.tokens t).created = false at missing
      simp [created] at missing
  | live =>
      have positive := (ok.tokens.alive t).mp fortune
      change 0 < (s.tokens t).token.refcount at positive
      omega
  | condemnedByCall d => exact absurd ((ok.tokens.byCall t d).mp fortune) (calls d)
  | condemnedByNode n =>
      have walking := (ok.tokens.byNode t n).mp fortune
      have frame : (s.registrations n).reclaim = .walking := by
        simpa [State.walkers] using walking.1
      have consumed := (ok.entries n).consumed (by simp [frame])
      have done := nodes n walking.2 consumed.2.1
      simp [frame] at done

end Consistent

/-- Nothing starts the callback of a neutralised registration, or starts a
callback a second time. -/
theorem started_run {s after : State} {events : List Event} (reached : machine.Reachable s)
    (run : machine.Run s events after) {n : NodeId}
    (settled : s.Neutralised n ∨ (s.registrations n).started = 1) :
    (after.registrations n).started = (s.registrations n).started := by
  rcases settled with neutral | once
  · have still : after.Neutralised n := by
      refine run.stable (fun s => s.Neutralised n) ?_ reached neutral
      intro s event _ neutral may
      exact (evolves_next may n).neutralised neutral
    rcases reachable_consistent reached with ⟨_, _, _, before⟩
    rcases reachable_consistent (reached.run run) with ⟨_, _, _, later⟩
    rw [before.neutralised_started neutral, later.neutralised_started still]
  · have least : 1 ≤ (after.registrations n).started := by
      refine run.stable (fun s => 1 ≤ (s.registrations n).started) ?_ reached
        (Nat.le_of_eq once.symm)
      intro s event _ least may
      exact least.trans (evolves_next may n).started
    rcases reachable_consistent (reached.run run) with ⟨_, _, _, later⟩
    have most := later.started_le n
    omega

/-- A registration in progress on a cancelled token has not returned, or has
called back. -/
def Answered (n : NodeId) (s : State) : Prop :=
  (s.tokens (s.tokenOf n)).token.isCancelled = true ∧
    (s.registrations n).register ≠ .idle ∧ (s.registrations n).register ≠ .refused ∧
    ((s.registrations n).register = .returned -> 1 ≤ (s.registrations n).finished)

theorem answered_next {s : State} {event : Event} (reached : machine.Reachable s) {n : NodeId}
    (answered : Answered n s) (may : enabled s event) : Answered n (next s event) := by
  rcases answered with ⟨cancelled, begun, accepted, called⟩
  rcases reachable_consistent reached with ⟨_, _, _, ok⟩
  have evolves := evolves_next may n
  have token : (next s event).tokenOf n = s.tokenOf n := evolves.token begun
  refine ⟨?_, evolves.begun begun, ?_, ?_⟩
  · rw [token]
    exact flag_next ok may cancelled
  · have := evolves.allocated
    have := evolves.retained
    have := evolves.calling
    have := evolves.running
    have := evolves.returned
    cases register : (s.registrations n).register <;> grind
  · have := evolves.allocated
    have := evolves.retained
    have := evolves.calling
    have := evolves.running
    have := evolves.finished
    cases register : (s.registrations n).register <;> grind

/-! ## The contract -/

/-- The lifecycle contract of the registry. -/
structure LifecycleContract (s : State) : Prop where
  /-- A callback runs at most once. -/
  runsOnce : forall n, (s.registrations n).started ≤ 1
  /-- It has not run, and never will, if its `Unregister` returned true. -/
  neutralised : forall n, (s.registrations n).unregister = .returned true ->
    (s.registrations n).started = 0 ∧
      forall events after, machine.Run s events after -> (after.registrations n).started = 0
  /-- When the `Cancel` that set the flag has returned, every registration that
  no `Unregister` neutralised has run exactly once. -/
  cancelled : forall k t, s.cancel k = .returned t true ->
    forall n, s.tokenOf n = t -> (s.registrations n).register = .returned -> ¬ s.Neutralised n ->
      (s.registrations n).started = 1 ∧ (s.registrations n).finished = 1
  /-- A registration on a cancelled token has run exactly once when it returns. -/
  alreadyCancelled : forall n, (s.tokens (s.tokenOf n)).token.isCancelled = true ->
    (s.registrations n).register = .allocated ∨ (s.registrations n).register = .retained ->
    forall events after, machine.Run s events after ->
      (after.registrations n).register = .returned ->
        (after.registrations n).started = 1 ∧ (after.registrations n).finished = 1
  /-- The release hook is called at most once, for a consumed handle only, while
  the callback is not running, and the callback does not start afterwards. -/
  releasedLate : forall n, (s.registrations n).released ≤ 1 ∧
    ((s.registrations n).released ≠ 0 ->
      (s.registrations n).unregister ≠ .idle ∧
      (s.registrations n).started = (s.registrations n).finished ∧
      forall events after, machine.Run s events after ->
        (after.registrations n).started = (s.registrations n).started)
  /-- It has been called, if there is one, when the handle is consumed and no
  `Cancel` call has the node in its hands. -/
  releasedOnce : forall n won, (s.registrations n).unregister = .returned won ->
    (forall k, ¬ (s.cancel k).Owns n) ->
      (s.registrations n).released = if (s.registrations n).cb.releaseContext then 1 else 0
  /-- A token is freed at most once. -/
  freedAtMostOnce : forall t, (s.tokens t).freed ≤ 1
  /-- From the last release on no node of the token is alive, so the walk that
  precedes the free finds an empty list. -/
  freedLast : forall t, s.Condemned t -> (s.tokens t).token.head = [] ∧
    forall n, s.tokenOf n = t -> s.Registered n -> (s.registrations n).freed = 1
  /-- A token without clients and without live nodes has been freed, unless
  the `Destroy` that dropped the last reference is about to do it. -/
  freedOnce : forall t, (s.tokens t).created = true -> (s.tokens t).clientRefs = 0 ->
    (forall n, s.tokenOf n = t -> (s.registrations n).register = .returned ->
      (s.registrations n).reclaim = .done) ->
    (forall d, s.destroy d ≠ .walking t) -> (s.tokens t).freed = 1

/-- Every interleaving of any number of calls keeps the contract. -/
theorem lifecycleContract {s : State} (reached : machine.Reachable s) : LifecycleContract s := by
  rcases reachable_consistent reached with ⟨life, owners, fate, ok⟩
  constructor
  · exact ok.started_le
  · intro n won
    have neutral : s.Neutralised n := Or.inr won
    refine ⟨ok.neutralised_started neutral, ?_⟩
    intro events after run
    rw [started_run reached run (Or.inl neutral), ok.neutralised_started neutral]
  · intro k t returned n on made unneutralised
    exact (ok.dispatched returned on made).resolve_left unneutralised
  · intro n cancelled inside events after run made
    have answered : Answered n after := by
      refine run.stable _ (fun _ _ reached => answered_next reached) reached ⟨cancelled, ?_⟩
      rcases inside with allocated | retained
      · simp [allocated]
      · simp [retained]
    rcases reachable_consistent (reached.run run) with ⟨later, _, _, okLater⟩
    have finished := answered.2.2.2 made
    have entry := okLater.entries n
    rw [entry.finished] at finished
    rw [entry.started, entry.finished]
    cases phase : later n <;> simp_all [Life.started, Life.finished]
  · intro n
    refine ⟨ok.released_le n, ?_⟩
    intro released
    have settled := ok.released_settled released
    exact ⟨settled.1, settled.2.1, fun _ _ run => started_run reached run settled.2.2⟩
  · intro n won answered unowned
    exact ok.released_once answered unowned
  · intro t
    have once := ok.tokens.freedOnce t
    change (s.tokens t).freed = _ at once
    rw [once]
    split <;> simp
  · intro t condemned
    exact ⟨ok.heads_nil (ok.condemned_refcount condemned),
      fun n on made => ok.condemned_nodes condemned on made⟩
  · intro t created clients nodes calls
    exact ok.abandoned_freed created clients nodes calls

/-- One registration, cancelled from another thread and unregistered after it. -/
def cancelThenUnregister : List Event :=
  [.create 0, .registerAlloc 0 0 true, .registerRetain 0, .registerLock 0, .cancelLock 0 0,
    .cancelCall 0 0 0 [], .cancelCallReturned 0 0 0 [], .cancelDrop 0 0 0 [], .cancelReturn 0 0,
    .unregisterLock 0, .nodeFree 0, .hookCall 0, .hookReturned 0, .nodeTokenRelease 0,
    .unregisterReturn 0 false]

theorem lifecycleContract_cancelThenUnregister :
    LifecycleContract (machine.after start cancelThenUnregister) ∧
      ((machine.after start cancelThenUnregister).registrations 0).released = 1 := by
  have run : machine.AllEnabled start cancelThenUnregister := by
    repeat' first | exact trivial | exact rfl | apply And.intro | exact Nat.one_pos
  exact ⟨lifecycleContract (.run (.start rfl) run.run), rfl⟩

end Cancellation
end UfsrvRx
