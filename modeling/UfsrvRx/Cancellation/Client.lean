import UfsrvRx.Cancellation.Contract

namespace UfsrvRx
namespace Cancellation

open Transition

/-!
# The registry inside other machines

What a machine that contains the registry needs to know about its steps beyond the
contract: which step calls a release hook, that only a cancelled token calls back,
and when the references of the clients go down.
-/

/-- Only its own step calls a release hook: the walk that frees a token finds no
node any more. -/
theorem released_next {s : State} {event : Event} (reached : machine.Reachable s)
    (may : enabled s event) (n : NodeId) :
    ((next s event).registrations n).released =
      (s.registrations n).released + if event = .hookCall n then 1 else 0 := by
  rcases reachable_consistent reached with ⟨_, _, _, ok⟩
  have changed (m : NodeId) {entry : Registration}
      (same : entry.released = (s.registrations m).released) :
      (Function.update s.registrations m entry n).released = (s.registrations n).released := by
    by_cases mine : n = m
    · subst m
      rw [Function.update_self]
      exact same
    · rw [Function.update_of_ne mine]
  cases event with
  | registerLock m =>
      simp only [next, State.registerSection]
      split <;> exact changed m rfl
  | unregisterLock m =>
      simp only [next, State.unregisterSection]
      split <;> exact changed m rfl
  | cancelLock k t =>
      simp only [next, State.cancelSection]
      split
      · rfl
      · simp only
        split <;> rfl
  | hookCall m =>
      by_cases mine : n = m
      · subst m
        simp [next]
      · simp [next, mine, Ne.symm mine]
  | nodeTokenWalk m =>
      have zero := ok.condemned_refcount (Or.inr (Or.inl ⟨m, may, rfl⟩))
      simp only [next, ok.walkToken_eq zero]
      exact changed m rfl
  | destroyWalk d t =>
      have zero := ok.condemned_refcount (Or.inl ⟨d, may⟩)
      simp only [next, ok.walkToken_eq zero]
      rfl
  | registerRefused m t => exact changed m rfl
  | registerAlloc m t hook => exact changed m rfl
  | registerRetain m => exact changed m rfl
  | registerCall m => exact changed m rfl
  | registerCallReturned m => exact changed m rfl
  | unregisterReturn m won => exact changed m rfl
  | cancelCall k t m rest => exact changed m rfl
  | cancelCallReturned k t m rest => exact changed m rfl
  | cancelDrop k t m rest => exact changed m rfl
  | nodeFree m => exact changed m rfl
  | hookReturned m => exact changed m rfl
  | nodeTokenRelease m => exact changed m rfl
  | create t => rfl
  | retain t => rfl
  | cancelReclaimed k t m rest => rfl
  | cancelReturn k t => rfl
  | destroyRelease d t => rfl

/-- A registration that has called back, or is about to, is on a cancelled token. -/
theorem called_flag {s : State} (reached : machine.Reachable s) (n : NodeId)
    (called : (s.registrations n).register = .calling ∨ (s.registrations n).started ≠ 0) :
    (s.tokens (s.tokenOf n)).token.isCancelled = true := by
  induction reached with
  | start initial =>
      rw [show _ = start from initial] at called
      simp [start] at called
  | @step s event reached may inductionHypothesis =>
      change ((next s event).registrations n).register = .calling ∨
        ((next s event).registrations n).started ≠ 0 at called
      rcases reachable_consistent reached with ⟨_, _, _, ok⟩
      rcases reachable_consistent (.step reached may) with ⟨life, _, _, after⟩
      have evolves := evolves_next may n
      have kept (begun : (s.registrations n).register ≠ .idle)
          (set : (s.tokens (s.tokenOf n)).token.isCancelled = true) :
          ((next s event).tokens ((next s event).tokenOf n)).token.isCancelled = true := by
        rw [show (next s event).tokenOf n = s.tokenOf n from evolves.token begun]
        exact flag_next ok may set
      by_cases before : (s.registrations n).register = .calling ∨ (s.registrations n).started ≠ 0
      · refine kept ?_ (inductionHypothesis before)
        intro idle
        have entry := ok.entries n
        have absent := entry.absent.mpr (Or.inl idle)
        have started := entry.started
        simp_all [Life.started]
      · push Not at before
        rcases called with calling | started
        · have retained : (s.registrations n).register = .retained := by
            have := evolves.allocated
            have := evolves.running
            have := evolves.returned
            have := evolves.refused
            have unbegun : (s.registrations n).register ≠ .idle := by
              intro idle
              rcases register_idle_next may idle with same | ⟨t, rfl⟩ | ⟨t, hook, rfl⟩
              · rw [same] at calling
                cases calling
              · simp [next] at calling
              · simp [next] at calling
            cases register : (s.registrations n).register <;> simp_all
          refine kept (by simp [retained]) ?_
          by_contra unset
          rcases evolves.retained retained with same | moved
          · rw [same] at calling
            cases calling
          · simp only [unset, if_false] at moved
            rw [moved] at calling
            cases calling
        · have history := (history_next s event n).1
          rw [before.2] at history
          have starts : event.starts = some n := by
            by_contra other
            rw [if_neg other] at history
            exact started history
          cases event <;> simp only [Event.starts, reduceCtorEq, Option.some.injEq] at starts <;>
            subst starts
          case registerCall => exact absurd may before.1
          case cancelCall k t m rest =>
            have running : life m = .running k := (after.lists.running k m).mp (by
              change (Function.update s.cancel k (.running t m rest) k).runningNode = some m
              simp)
            exact after.lists.flagged k _ (after.lists.token k m (Or.inr (Or.inl running)))

/-! ## Reclaiming calls -/

/-- Some call is waiting for the end of `sNodeFree`. -/
def State.Reclaiming (s : State) (n : NodeId) : Prop :=
  (Exists fun won => (s.registrations n).unregister = .reclaiming won) ∨
    Exists fun k => (s.cancel k).reclaimingNode = some n

theorem reclaim_begun_next (s : State) (event : Event) {n : NodeId}
    (begun : (s.registrations n).reclaim ≠ .idle) :
    ((next s event).registrations n).reclaim ≠ .idle := by
  have changed (m : NodeId) {entry : Registration}
      (kept : (s.registrations m).reclaim ≠ .idle -> entry.reclaim ≠ .idle) :
      (Function.update s.registrations m entry n).reclaim ≠ .idle :=
    @forall_update_right _ _ _ _
      (fun old new : Registration => old.reclaim ≠ .idle -> new.reclaim ≠ .idle)
      s.registrations _ (fun _ => id) m _ kept n begun
  have walked (t : TokenId) : ((s.walkToken t).registrations n).reclaim ≠ .idle := by
    simp only [State.walkToken]
    split <;> exact begun
  cases event with
  | registerLock m =>
      simp only [next, State.registerSection]
      split <;> exact changed m id
  | unregisterLock m =>
      simp only [next, State.unregisterSection]
      split
      · refine changed m ?_
        simp only
        split <;> simp
      · refine changed m ?_
        simp only
        split <;> simp
  | cancelLock k t =>
      simp only [next, State.cancelSection]
      split
      · exact begun
      · simp only
        split <;> exact begun
  | cancelDrop k t m rest =>
      refine changed m ?_
      simp only
      split <;> simp
  | nodeFree m =>
      refine changed m ?_
      simp only
      split <;> simp
  | nodeTokenRelease m =>
      refine changed m ?_
      simp only
      split <;> simp
  | nodeTokenWalk m =>
      by_cases mine : n = m
      · subst m
        simp [next]
      · simp only [next, State.setRegistration, Function.update_of_ne mine]
        exact walked (s.tokenOf m)
  | destroyWalk d t => exact walked t
  | hookCall m => exact changed m (by simp)
  | hookReturned m => exact changed m (by simp)
  | registerRefused m t => exact changed m id
  | registerAlloc m t hook => exact changed m id
  | registerRetain m => exact changed m id
  | registerCall m => exact changed m id
  | registerCallReturned m => exact changed m id
  | unregisterReturn m won => exact changed m id
  | cancelCall k t m rest => exact changed m id
  | cancelCallReturned k t m rest => exact changed m id
  | create t => exact begun
  | retain t => exact begun
  | cancelReclaimed k t m rest => exact begun
  | cancelReturn k t => exact begun
  | destroyRelease d t => exact begun

/-- A call enters `sNodeFree` with the step that drops the last reference. -/
theorem reclaiming_next {s : State} {event : Event} (may : enabled s event) {n : NodeId}
    (reclaiming : (next s event).Reclaiming n) :
    s.Reclaiming n ∨ ((next s event).registrations n).reclaim ≠ .idle := by
  rcases reclaiming with ⟨won, mine⟩ | ⟨k, mine⟩
  · by_cases locks : event = .unregisterLock n
    · subst locks
      right
      simp only [next, State.unregisterSection] at mine ⊢
      split at mine <;> grind
    · rcases unregister_next may locks with same | ⟨answer, _, returned⟩
      · rw [same] at mine
        exact Or.inl (Or.inl ⟨won, mine⟩)
      · rw [returned] at mine
        cases mine
  · have kept (same : (next s event).cancel k = s.cancel k) : s.Reclaiming n := by
      rw [same] at mine
      exact Or.inr ⟨k, mine⟩
    have moved (j : CallId) (frame : CancelFrame)
        (cancel : (next s event).cancel = Function.update s.cancel j frame)
        (leaves : frame.reclaimingNode = none) : s.Reclaiming n := by
      have other : k ≠ j := by
        rintro rfl
        rw [cancel, Function.update_self, leaves] at mine
        cases mine
      exact kept (by rw [cancel, Function.update_of_ne other])
    cases event with
    | registerLock m =>
        refine Or.inl (kept ?_)
        simp only [next, State.registerSection]
        split <;> rfl
    | unregisterLock m =>
        refine Or.inl (kept ?_)
        simp only [next, State.unregisterSection]
        split <;> rfl
    | cancelLock j t =>
        by_cases cancelled : (s.tokens t).token.isCancelled = true
        · exact Or.inl (moved j (.returned t false)
            (by simp [next, State.cancelSection, cancelled, State.setCancel]) rfl)
        · exact Or.inl (moved j (.dispatching t (s.tokens t).token.head)
            (by simp [next, State.cancelSection, cancelled]) rfl)
    | cancelCall j t m rest => exact Or.inl (moved j _ rfl rfl)
    | cancelCallReturned j t m rest => exact Or.inl (moved j _ rfl rfl)
    | cancelDrop j t m rest =>
        by_cases last : (s.registrations m).cb.refcount - 1 = 0
        · by_cases same : k = j
          · subst j
            have node : m = n := by
              simpa [next, State.dropSection, last] using mine
            subst m
            exact Or.inr (by simp [next, State.dropSection, last])
          · exact Or.inl (kept (by simp [next, State.dropSection, same]))
        · exact Or.inl (moved j (.dispatching t rest) (by
            simp [next, State.dropSection, last, State.setCancel, State.setRegistration]) rfl)
    | cancelReclaimed j t m rest => exact Or.inl (moved j _ rfl rfl)
    | cancelReturn j t => exact Or.inl (moved j _ rfl rfl)
    | _ => exact Or.inl (kept rfl)

theorem reclaiming_begun {s : State} (reached : machine.Reachable s) {n : NodeId}
    (reclaiming : s.Reclaiming n) : (s.registrations n).reclaim ≠ .idle := by
  induction reached with
  | start initial =>
      rw [show _ = start from initial] at reclaiming
      rcases reclaiming with ⟨won, mine⟩ | ⟨k, mine⟩
      · cases mine
      · cases mine
  | @step s event reached may inductionHypothesis =>
      rcases reclaiming_next may reclaiming with before | begun
      · exact reclaim_begun_next s event (inductionHypothesis before)
      · exact begun

/-! ## References of clients -/

theorem clients_update {table : TokenId -> TokenCell} {t : TokenId}
    (held : 0 < (table t).clientRefs) (u : TokenId) {cell : TokenCell}
    (kept : 0 < (table u).clientRefs -> 0 < cell.clientRefs) :
    0 < (Function.update table u cell t).clientRefs :=
  @forall_update_right _ _ _ _
    (fun old new : TokenCell => 0 < old.clientRefs -> 0 < new.clientRefs)
    table _ (fun _ => id) u _ kept t held

/-- Only `Destroy` gives up the reference of a client. -/
theorem clients_next {s : State} {event : Event} {t : TokenId}
    (held : 0 < (s.tokens t).clientRefs)
    (kept : forall d, event = .destroyRelease d t -> 1 < (s.tokens t).clientRefs) :
    0 < ((next s event).tokens t).clientRefs := by
  cases event with
  | create u => exact clients_update held u fun _ => Nat.one_pos
  | retain u =>
      refine clients_update ?_ u fun _ => Nat.succ_pos _
      exact clients_update held u id
  | registerRetain n => exact clients_update held (s.tokenOf n) id
  | registerLock n =>
      simp only [next, State.registerSection]
      split
      · exact held
      · exact clients_update held (s.tokenOf n) id
  | unregisterLock n =>
      simp only [next, State.unregisterSection]
      split
      · exact clients_update held (s.tokenOf n) id
      · exact held
  | cancelLock k u =>
      simp only [next, State.cancelSection]
      split
      · exact held
      · exact clients_update held u id
  | nodeTokenRelease n => exact clients_update held (s.tokenOf n) id
  | nodeTokenWalk n => exact clients_update held (s.tokenOf n) id
  | destroyRelease d u =>
      by_cases mine : u = t
      · subst u
        have more := kept d rfl
        simp only [next, State.setDestroy, State.setToken, Function.update_self]
        omega
      · simp only [next, State.setDestroy, State.setToken, State.dropTokenRef,
          Function.update_of_ne (Ne.symm mine)]
        exact held
  | destroyWalk d u => exact clients_update held u id
  | registerRefused n u => exact held
  | registerAlloc n u hook => exact held
  | registerCall n => exact held
  | registerCallReturned n => exact held
  | unregisterReturn n won => exact held
  | cancelCall k u n rest => exact held
  | cancelCallReturned k u n rest => exact held
  | cancelDrop k u n rest => exact held
  | cancelReclaimed k u n rest => exact held
  | cancelReturn k u => exact held
  | nodeFree n => exact held
  | hookCall n => exact held
  | hookReturned n => exact held

end Cancellation
end UfsrvRx
