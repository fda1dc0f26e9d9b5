import UfsrvRx.Operator.Beside

namespace UfsrvRx
namespace Operator

open Transition
open UfsrvRx.Future (Result ValueId epipe ecanceled einval)

/-!
# What the client does for the operator
-/

variable {s : State} {o f : FutureId} {isClient : Bool} {context : Group} {lent : FutureId -> Nat}
  {rest : List Task}

/-! ## What is the operator's alone -/

section

variable (s o isClient context lent rest)

theorem disguise_setGroup (entry : Group) :
    (s.setGroup o entry).disguise o isClient context lent rest =
      s.disguise o isClient context lent rest := by
  simp only [State.disguise, State.setGroup, State.mk.injEq, true_and, and_true]
  funext f
  by_cases here : f = o
  · rw [if_pos here, if_pos here]
  · rw [if_neg here, if_neg here, Function.update_of_ne here]

/-- The client has a reference in both runs, and no longer one more in the second. -/
theorem disguise_setClientRefs {f : FutureId} {references : Nat} (more : FutureId -> Nat)
    (others : forall g, g ≠ f -> more g = lent g)
    (same : references + lent f = s.clientRefs f + more f) :
    (s.setClientRefs f references).disguise o isClient context lent rest =
      s.disguise o isClient context more rest := by
  simp only [State.disguise, State.setClientRefs, State.mk.injEq, true_and, and_true]
  funext g
  by_cases here : g = f
  · subst g
    rw [Function.update_self]
    exact same
  · rw [Function.update_of_ne here, others g here]

theorem disguise_destroy : (s.disguise o isClient context lent rest).setPromise o
    { (s.disguise o isClient context lent rest).promises o with isClient := false } =
      s.disguise o false context lent rest := by
  simp only [State.disguise, State.setPromise, State.mk.injEq, true_and, and_true]
  funext f
  by_cases here : f = o
  · subst f
    simp only [Function.update_self, if_true]
  · rw [Function.update_of_ne here, if_neg here, if_neg here]

end

/-- The output is to be completed and its promise to be destroyed. -/
theorem Stacks.finish {stack : List Task} (beside : Stacks o lent stack rest) (ready : Ready rest)
    {result : Result} (unowned : result.owned = none) :
    Stacks o lent (Operator.finish o result ++ stack) rest := by
  have destroys : Task.Late o lent stack (.destroyPromise o) := rfl
  have sets : Task.Late o lent (.destroyPromise o :: stack) (.setResult o result) :=
    ⟨rfl, unowned, List.mem_cons_self⟩
  exact (beside.late destroys ready).late sets ready

theorem lend_release : lend lent (.release f) f = lent f + 1 := by
  simp only [lend, Function.update_self]

/-- What the operator would give back, the client has to spare. -/
theorem Stacks.spare (beside : Stacks o lent s.stack rest) (sound : Sound (s.push [.release f])) :
    (s.disguise o isClient context (lend lent (.release f)) rest).Spare f := by
  have refs : (s.disguise o isClient context (lend lent (.release f)) rest).clientRefs f =
      s.clientRefs f + (lent f + 1) := congrArg (s.clientRefs f + ·) lend_release
  by_cases more : 0 < s.clientRefs f + lent f
  · exact .inl (by omega)
  · refine .inr ⟨by omega, ?_⟩
    rintro (waits | ⟨arguments, mem, argument⟩)
    · have held : 0 < s.clientRefs f := sound.gets f waits
      omega
    · rcases beside.uses mem argument with lent | ⟨others, mem, argument⟩
      · omega
      · have held : 0 < s.clientRefs f := sound.works _ (List.mem_cons_of_mem _ mem) f argument
        omega

/-- The client gives back what was lent to it. -/
theorem disguise_release :
    (s.disguise o isClient context (lend lent (.release f)) rest).setClientRefs f
        (s.clientRefs f + lend lent (.release f) f - 1) =
      s.disguise o isClient context lent rest := by
  simp only [State.disguise, State.setClientRefs, State.mk.injEq, true_and, and_true]
  funext g
  by_cases here : g = f
  · subst g
    rw [Function.update_self, lend_release]
    omega
  · simp only [lend, Function.update_of_ne here]

theorem stand_register {continuation : Continuation} (out : continuation.out = some o) :
    Task.stand o (.register f continuation) = .register f .observe :=
  congrArg (Task.register f) (if_pos out)

namespace Comes

/-- The client need not do anything. -/
theorem still {after : State} {more : FutureId -> Nat}
    (same : after.disguise o isClient context more rest = s.disguise o isClient context lent rest)
    (beside : Stacks o more after.stack rest) (hosted : Hosted o isClient after) :
    Comes o [] (s.disguise o isClient context lent rest) after :=
  .stay ⟨isClient, context, more, rest, same.symm, beside, hosted⟩

/-- A task that both runs have now. -/
theorem same {task : Task} (shared : task.Shared o) (apart : task.Apart o)
    (beside : Stacks o lent s.stack rest) (hosted : Hosted o isClient (Operator.perform s task))
    (waits : forall g continuation, (g, continuation) ∈ s.waiting -> continuation.out = some o ->
      continuation.Claims) :
    Mirrors o (perform s task) (perform (s.disguise o isClient context lent rest) (task.stand o)) :=
  .of_same (.perform apart) beside hosted (shared_perform shared apart waits)

theorem setResult {result : Result} (sound : Sound (s.push [.setResult o result]))
    (hosted : Hosted o isClient (s.push [.setResult o result]))
    (beside : Stacks o lent s.stack rest) (ready : Ready rest) (unowned : result.owned = none)
    (mem : .destroyPromise o ∈ s.stack) :
    Comes o [] (s.disguise o isClient context lent rest) (perform s (.setResult o result)) := by
  have owns : isClient = true := hosted.owns sound (List.mem_cons_of_mem _ mem)
  refine .call ready (.setResult result) rfl rfl ?_ ?_
  · simp only [permitted, State.disguise, if_pos, owns]
  · have given : (s.disguise o isClient context lent rest).give result =
        s.disguise o isClient context lent rest := by
      simp only [State.give, unowned]
    simp only [Operator.enter, given]
    change Comes o [] (s.disguise o isClient context lent
      (.setResult o result :: .leaveSet o :: rest)) _
    refine .step (by simp) (.stay ?_)
    have set : Task.Lags o lent s.stack (.leaveSet o) := ⟨rfl, mem⟩
    exact same trivial trivial (beside.lag set) (hosted.perform (by simp)) hosted.waits

theorem destroyPromise (sound : Sound (s.push [.destroyPromise o]))
    (hosted : Hosted o isClient (s.push [.destroyPromise o]))
    (beside : Stacks o lent s.stack rest) (ready : Ready rest) :
    Comes o [] (s.disguise o isClient context lent rest) (perform s (.destroyPromise o)) := by
  have owns : isClient = true := hosted.owns sound List.mem_cons_self
  have unset : .leaveSet o ∉ rest := by
    intro mem
    rcases beside.leaves mem with mem | ⟨_, mem⟩
    · have client := sound.works _ (List.mem_cons_of_mem _ mem)
      exact absurd (hosted.foreign.symm.trans client) (by decide)
    · have two : [.destroyPromise o, .destroyPromise o].Subperm (s.push [.destroyPromise o]).stack :=
        ((List.singleton_sublist.mpr mem).cons_cons _).subperm
      exact sound.promise_alone two List.mem_cons_self List.mem_cons_self
  refine .call ready .destroy rfl rfl ?_ ?_
  · refine ⟨?_, unset⟩
    simp only [State.disguise, if_pos, owns]
  · simp only [Operator.enter, disguise_destroy]
    change Comes o [] (s.disguise o false context lent (.destroyPromise o :: rest)) _
    refine .step (by simp) (.stay ?_)
    exact same trivial trivial beside hosted.destroyed hosted.waits

theorem deliver (hosted : Hosted o isClient (s.push [.deliver o]))
    (beside : Stacks o lent s.stack rest) :
    Comes o [] (s.disguise o isClient context (lend lent (.deliver o)) rest)
      (perform s (.deliver o)) := by
  refine still ?_ beside (hosted.perform (by simp))
  refine disguise_setClientRefs s o isClient context lent rest _ ?_ ?_
  · exact fun g other => Function.update_of_ne other _ _
  · simp only [lend, Function.update_self]
    omega

theorem claimInput {g : FutureId} (hosted : Hosted o isClient (s.push [.claimInput g o]))
    (beside : Stacks o lent s.stack rest) (ready : Ready rest)
    (fails : Fails o (s.push [.claimInput g o]) .step) :
    Comes o [] (s.disguise o isClient context lent rest) (perform s (.claimInput g o)) := by
  have consumed : (s.futures g).isConsumed = true := fails _ rfl g (by simp [State.claimed])
  have refused : perform s (.claimInput g o) = s.push (finish o (.ofError einval)) :=
    if_pos consumed
  have after := hosted.perform (by simp)
  rw [refused] at after ⊢
  exact still rfl (beside.finish ready rfl) after

theorem claimInner {g : FutureId} (hosted : Hosted o isClient (s.push [.claimInner o g]))
    (beside : Stacks o lent s.stack rest) (ready : Ready rest)
    (fails : Fails o (s.push [.claimInner o g]) .step) :
    Comes o [] (s.disguise o isClient context (lend lent (.claimInner o g)) rest)
      (perform s (.claimInner o g)) := by
  have consumed : (s.futures g).isConsumed = true := fails _ rfl g (by simp [State.claimed])
  have refused : perform s (.claimInner o g) =
      s.push (finish o (.ofError einval) ++ [.release g]) := if_pos consumed
  have after := hosted.perform (by simp)
  rw [refused] at after ⊢
  have released : Stacks o (lend lent (.release g)) (.release g :: s.stack) rest :=
    beside.late trivial ready
  exact still rfl (released.finish ready rfl) after

/-- The token was not attached. -/
theorem attach {inner g : FutureId} {token : TokenId} {more : List Task}
    (hosted : Hosted o isClient (s.push [.attach inner token]))
    (beside : Stacks o lent s.stack rest) (above : s.stack = .claimInner o g :: more)
    (harmless : Harmless o (s.push [.attach inner token]) .step) :
    Comes o [] (s.disguise o isClient context lent rest) (perform s (.attach inner token)) := by
  have settled := harmless inner (by simp [State.attaches, State.push, above])
  have refused : perform s (.attach inner token) = s := if_pos settled
  have after := hosted.perform (by simp)
  rw [refused] at after ⊢
  exact still rfl beside after

theorem inherit {g : FutureId} (hosted : Hosted o isClient (s.push [.inherit g o]))
    (beside : Stacks o lent s.stack rest) (ready : Ready rest) (lends : 0 < lent o) :
    Comes o [] (s.disguise o isClient context lent rest) (perform s (.inherit g o)) := by
  have after := hosted.perform (by simp)
  cases carried : (s.futures g).cancelToken with
  | none =>
      have nothing : perform s (.inherit g o) = s := by simp only [perform, carried]
      rw [nothing] at after ⊢
      exact still rfl beside after
  | some token =>
      have passed : perform s (.inherit g o) = s.push [.attach o token] := by
        simp only [perform, carried]
      rw [passed] at after ⊢
      refine .call ready (.attach token) rfl rfl (Nat.lt_of_lt_of_le lends (Nat.le_add_left _ _)) ?_
      have left : Task.Lags o lent s.stack (.leave [o]) := by
        intro f mem
        rw [List.mem_singleton.mp mem]
        exact .inl lends
      have common : Stacks o lent (.attach o token :: s.stack)
          (.attach o token :: .leave [o] :: rest) := (beside.lag left).same trivial
      exact .stay ⟨isClient, context, lent, _, rfl, common, after⟩

theorem loop {entries : List (Option FutureId)} (sound : Sound (s.push [.loop .any o entries]))
    (hosted : Hosted o isClient (s.push [.loop .any o entries]))
    (beside : Stacks o lent s.stack rest) (ready : Ready rest)
    (passed : forall g, some g ∈ entries -> Exists fun arguments =>
      .leave arguments ∈ s.stack ∧ g ∈ arguments) :
    Comes o [] (s.disguise o isClient context lent rest) (perform s (.loop .any o entries)) := by
  have after := hosted.perform (by simp)
  cases entries with
  | nil => exact still rfl beside after
  | cons entry entries =>
      have goesOn : Task.Late o lent s.stack (.loop .any o entries) :=
        ⟨rfl, fun g mem => passed g (List.mem_cons_of_mem _ mem)⟩
      have others : Stacks o lent (.loop .any o entries :: s.stack) rest :=
        beside.late goesOn ready
      cases entry with
      | none =>
          have refused : Task.Late o lent (.loop .any o entries :: s.stack)
              (.subtract .any o true) := rfl
          exact still rfl (others.late refused ready) after
      | some g =>
          rcases passed g List.mem_cons_self with ⟨arguments, mem, argument⟩
          have held : 0 < s.clientRefs g := sound.works _ (List.mem_cons_of_mem _ mem) g argument
          refine .call ready (.observe g) rfl rfl (Nat.lt_of_lt_of_le held (Nat.le_add_right _ _)) ?_
          have left : Task.Lags o lent (.loop .any o entries :: s.stack) (.leave [g]) := by
            intro f here
            rw [List.mem_singleton.mp here]
            exact .inr ⟨arguments, List.mem_cons_of_mem _ mem, argument⟩
          have shared : Task.Shared o (.register g (.group .any o)) := fun _ => trivial
          have common := (others.lag left).same shared
          rw [stand_register rfl] at common
          exact .stay ⟨isClient, context, lent, _, rfl, common, after⟩

theorem subtract {refused : Bool} (hosted : Hosted o isClient (s.push [.subtract .any o refused]))
    (beside : Stacks o lent s.stack rest) (ready : Ready rest) :
    Comes o [] (s.disguise o isClient context lent rest)
      (perform s (.subtract .any o refused)) := by
  have after := hosted.perform (by simp)
  have same (tasks : List Task) (entry : Group) :
      ((s.setGroup o entry).push tasks).disguise o isClient context lent rest =
        s.disguise o isClient context lent rest :=
    disguise_setGroup s o isClient context lent rest entry
  simp only [perform] at after ⊢
  split at after
  next last =>
    rw [if_pos last]
    cases refused with
    | false => exact still (same [] _) beside after
    | true => exact still (same _ _) (beside.finish ready rfl) after
  next more =>
    rw [if_neg more]
    exact still (same [] _) beside after

theorem release (sound : Sound (s.push [.release f]))
    (hosted : Hosted o isClient (s.push [.release f]))
    (beside : Stacks o lent s.stack rest) (ready : Ready rest) :
    Comes o [] (s.disguise o isClient context (lend lent (.release f)) rest)
      (perform s (.release f)) := by
  refine .call ready (.release f) rfl rfl (beside.spare sound) ?_
  change Comes o [] (((s.disguise o isClient context (lend lent (.release f)) rest).setClientRefs f
    (s.clientRefs f + lend lent (.release f) f - 1)).push [.release f]) _
  rw [disguise_release]
  change Comes o [] (s.disguise o isClient context lent (.release f :: rest)) _
  refine .step (by simp) (.stay ?_)
  exact same trivial trivial beside (hosted.perform (by simp)) hosted.waits

/-- Whatever the operator does, the client comes to do it. -/
theorem late {task : Task} (sound : Sound (s.push [task]))
    (hosted : Hosted o isClient (s.push [task])) (beside : Stacks o lent s.stack rest)
    (ready : Ready rest) (late : task.Late o lent s.stack)
    (fails : Fails o (s.push [task]) .step) (harmless : Harmless o (s.push [task]) .step) :
    Comes o [] (s.disguise o isClient context (lend lent task) rest) (perform s task) := by
  cases task with
  | setResult g result =>
      rcases late with ⟨rfl, unowned, mem⟩
      exact setResult sound hosted beside ready unowned mem
  | destroyPromise g =>
      cases late
      exact destroyPromise sound hosted beside ready
  | deliver g =>
      cases late
      exact deliver hosted beside
  | claimInput g out =>
      cases late
      exact claimInput hosted beside ready fails
  | claimInner out g =>
      cases late
      exact claimInner hosted beside ready fails
  | attach inner token =>
      rcases late with ⟨g, more, above⟩
      exact attach hosted beside above harmless
  | inherit g out =>
      rcases late with ⟨rfl, lends⟩
      exact inherit hosted beside ready lends
  | loop kind out entries =>
      cases kind with
      | all => cases late
      | any =>
          rcases late with ⟨rfl, passed⟩
          exact loop sound hosted beside ready passed
  | subtract kind out refused =>
      cases kind with
      | all => cases late
      | any =>
          cases late
          exact subtract hosted beside ready
  | release g => exact release sound hosted beside ready
  | leave arguments => exact still rfl beside (hosted.perform (by simp))
  | _ => cases late

/-! ## The operator's continuations and callbacks -/

/-- A continuation of the operator runs, where the client looks at the input. -/
theorem run {continuation : Continuation} (hosted : Hosted o isClient (s.push [.run f continuation]))
    (out : continuation.out = some o) (claims : continuation.Claims)
    (beside : Stacks o lent s.stack rest) (fails : Fails o (s.push [.run f continuation]) .step) :
    Comes o [] (s.disguise o isClient context lent (.run f .observe :: rest))
      (perform s (.run f continuation)) := by
  refine .step (by simp) ?_
  change Comes o [] (s.disguise o isClient context lent (.callback (.observer f) :: rest)) _
  have after := hosted.perform (by simp)
  have looked : Stacks o lent s.stack (.callback (.observer f) :: rest) := beside.lag trivial
  have ready := ready_observer f rest
  have asked (client : Callback) (asks : client.Asks o) :
      Stacks o lent (.callback client :: s.stack) (.callback (.observer f) :: rest) :=
    beside.ask asks
  have claim : Task.Late o lent s.stack (.claimInput f o) := rfl
  simp only [perform] at after ⊢
  cases continuation with
  | flatMap out token =>
      cases out
      simp only [runContinuation] at after ⊢
      split at after
      next failed =>
        rw [if_pos failed]
        exact still rfl (looked.finish ready rfl) after
      next succeeded =>
        rw [if_neg succeeded]
        exact still rfl (asked _ rfl) after
  | onError out | doOnSuccess out =>
      cases out
      simp only [runContinuation] at after ⊢
      split at after
      next calls =>
        rw [if_pos calls]
        exact still rfl (asked _ rfl) after
      next passes =>
        rw [if_neg passes]
        exact still rfl (looked.late claim ready) after
  | group kind out =>
      cases kind with
      | all => cases claims
      | any =>
          cases out
          have reports : Task.Late o lent s.stack (.subtract .any o false) := rfl
          simp only [runContinuation] at after ⊢
          split at after
          next decided =>
            rw [if_pos decided]
            exact still rfl (looked.late reports ready) after
          next first =>
            have consumed : (s.futures f).isConsumed = true :=
              fails _ rfl f (by simpa [State.claimed, State.push] using first)
            rw [if_pos consumed] at after
            rw [if_neg first, if_pos consumed]
            have same := disguise_setGroup s o isClient context lent
              (.callback (.observer f) :: rest) { s.groups o with flag := true }
            exact still same ((looked.late reports ready).finish ready rfl) after
  | _ => cases claims

/-- A callback of the operator returns, and the client goes on from its observer. -/
theorem answer {client : Callback} {reply : Reply} {g : FutureId} (asks : client.Asks o)
    (hosted : Hosted o isClient (s.push [.callback client]))
    (beside : Stacks o lent s.stack rest) (may : replies (s.push [.callback client]) client reply) :
    Comes o [] (s.disguise o isClient context lent (.callback (.observer g) :: rest))
      (Operator.afterCallback s client reply) := by
  have looked : Stacks o lent s.stack (.callback (.observer g) :: rest) := beside.lag trivial
  have ready := ready_observer g rest
  have after := hosted.afterCallback reply
  -- the client keeps the reference that it would have returned
  have returned {inner : FutureId} (held : 0 < s.clientRefs inner) (tasks : List Task)
      (claims : Stacks o (lend lent (.claimInner o inner)) (tasks ++ s.stack)
        (.callback (.observer g) :: rest))
      (hosted : Hosted o isClient
        ((s.setClientRefs inner (s.clientRefs inner - 1)).push tasks)) :
      Comes o [] (s.disguise o isClient context lent (.callback (.observer g) :: rest))
        ((s.setClientRefs inner (s.clientRefs inner - 1)).push tasks) := by
    refine still ?_ claims hosted
    refine disguise_setClientRefs s o isClient context _ _ lent ?_ ?_
    · exact fun other differs => (Function.update_of_ne differs _ _).symm
    · simp only [lend, Function.update_self]
      omega
  have claim (inner : FutureId) : Stacks o (lend lent (.claimInner o inner))
      (.claimInner o inner :: s.stack) (.callback (.observer g) :: rest) :=
    looked.late rfl ready
  have spare {inner : FutureId} (spare : (s.push [.callback client]).Spare inner) :
      0 < s.clientRefs inner := by
    rcases spare with more | ⟨held, _⟩
    · exact Nat.lt_of_succ_lt more
    · exact held
  cases client with
  | flatMapper f out token =>
      cases asks
      rcases may with rfl | ⟨inner, rfl, spared⟩
      · cases token <;> exact still rfl (looked.finish ready rfl) after
      · cases token with
        | none => exact returned (spare spared) _ (claim inner) after
        | some token =>
            have attaches : Task.Late o (lend lent (.claimInner o inner))
                (.claimInner o inner :: s.stack) (.attach inner token) := ⟨inner, s.stack, rfl⟩
            exact returned (spare spared) _ ((claim inner).late attaches ready) after
  | recovery f out =>
      cases asks
      rcases may with rfl | ⟨inner, rfl, spared⟩
      · exact still rfl (looked.finish ready rfl) after
      · exact returned (spare spared) _ (claim inner) after
  | action f out =>
      cases asks
      have claims : Task.Late o lent s.stack (.claimInput f o) := rfl
      exact still rfl (looked.late claims ready) after
  | _ => cases asks

end Comes

/-! ## Each event -/

theorem Stacks.inUse (beside : Stacks o lent s.stack rest) (f : FutureId)
    (used : (s.disguise o isClient context lent rest).InUse f) : s.InUse f ∨ 0 < lent f := by
  rcases used with waits | ⟨arguments, mem, argument⟩
  · exact .inl (.inl waits)
  · exact (beside.uses mem argument).symm.imp_left .inr

theorem Stacks.fresh (beside : Stacks o lent s.stack rest) (sound : Sound s) :
    lent s.count = 0 := by
  by_contra lends
  rcases beside.held_of_lent (Nat.pos_of_ne_zero lends) with ⟨task, mem, holds⟩
  have balanced := sound.balanced (.reference s.count)
  have held := held_pos mem holds
  simp only [State.total] at balanced
  exact Nat.lt_irrefl _ (sound.lt_count (show 0 < (s.futures s.count).refcount by omega))

theorem stand_asked (task : Task) : (task.stand o).asked = task.asked := by
  cases task <;> rfl

theorem runs_of_asked {task : Task} (none : task.asked = none) (client : Callback) :
    task ≠ .callback client := by
  rintro rfl
  cases none

namespace Comes

/-- The client makes a call in both runs. -/
theorem enter {api : Api} (sound : Sound s) (hosted : Hosted o isClient s)
    (beside : Stacks o lent s.stack rest) (ready : Ready rest) (may : permitted s api) :
    Comes o [.call api] (s.disguise o isClient context lent rest) (Operator.enter s api) := by
  have leaves : forall f, .leaveSet f ∈ rest -> f ≠ o -> .leaveSet f ∈ s.stack :=
    fun f mem other => (beside.leaves mem).resolve_right fun mine => other mine.1
  refine .client ⟨ready, permitted_disguise beside.inUse hosted.foreign leaves may⟩ ?_
  exact .of_same (.enter hosted.inside (beside.fresh sound) hosted.foreign may) beside
    (hosted.enter sound api) (shared_enter hosted.inside api)

theorem nextStep {stack : List Task} (beside : Stacks o lent stack rest)
    (sound : Sound { s with stack := stack }) (hosted : Hosted o isClient { s with stack := stack })
    (may : enabled { s with stack := stack } .step) (fails : Fails o { s with stack := stack } .step)
    (harmless : Harmless o { s with stack := stack } .step) :
    Comes o [] (s.disguise o isClient context lent rest) (next { s with stack := stack } .step) := by
  induction beside with
  | nil =>
      rcases may with ⟨task, rest, stack, _⟩
      cases stack
  | lag _ lags inductionHypothesis =>
      exact .lag lags (inductionHypothesis sound hosted may fails harmless)
  | @same lent stack rest task below shared _ =>
      rcases may with ⟨first, others, here, runs⟩
      cases here
      have asked : task.asked = none := by
        cases task with
        | callback client => exact absurd rfl (runs client)
        | _ => rfl
      have hosted : Hosted o isClient (({ s with stack := stack } : State).push [task]) := hosted
      by_cases apart : task.Apart o
      · have after : Hosted o isClient (perform { s with stack := stack } task) := by
          refine hosted.perform ?_
          rintro g continuation rfl
          exact shared
        refine .step (runs_of_asked ((stand_asked task).trans asked)) (.stay ?_)
        exact same (s := { s with stack := stack }) shared apart below after hosted.waits
      · cases task with
        | run f continuation =>
            have out : continuation.out = some o := not_not.mp apart
            rw [show Task.stand o (.run f continuation) = .run f .observe from
              congrArg (Task.run f) (if_pos out)]
            exact run hosted out (shared out) below fails
        | register f continuation => exact absurd trivial apart
        | _ => exact absurd shared apart
  | ask _ _ _ =>
      rcases may with ⟨task, rest, stack, runs⟩
      cases stack
      exact absurd rfl (runs _)
  | @late lent stack rest task below late ready _ =>
      exact Comes.late (s := { s with stack := stack }) sound hosted below ready late fails harmless

theorem nextCall {stack : List Task} {api : Api} (beside : Stacks o lent stack rest)
    (sound : Sound { s with stack := stack }) (hosted : Hosted o isClient { s with stack := stack })
    (may : enabled { s with stack := stack } (.call api)) :
    Comes o [.call api] (s.disguise o isClient context lent rest)
      (next { s with stack := stack } (.call api)) := by
  have entered {lent : FutureId -> Nat} {stack rest : List Task}
      (beside : Stacks o lent stack rest) (ready : Ready rest)
      (sound : Sound { s with stack := stack })
      (hosted : Hosted o isClient { s with stack := stack })
      (may : enabled { s with stack := stack } (.call api)) :
      Comes o [.call api] (s.disguise o isClient context lent rest)
        (next { s with stack := stack } (.call api)) :=
    enter (s := { s with stack := stack }) sound hosted beside ready may.2
  induction beside with
  | nil => exact entered .nil (.inl rfl) sound hosted may
  | lag _ lags inductionHypothesis => exact .lag lags (inductionHypothesis sound hosted may)
  | same below shared _ =>
      rcases may.1 with none | ⟨client, others, here⟩
      · cases none
      · cases here
        exact entered (below.same shared) (.inr ⟨client, _, rfl⟩) sound hosted may
  | ask below asks _ => exact entered (below.ask asks) (ready_observer _ _) sound hosted may
  | late below late ready _ =>
      rcases may.1 with none | ⟨client, others, here⟩
      · cases none
      · cases here
        cases late

theorem nextAnswer {stack : List Task} {reply : Reply} (beside : Stacks o lent stack rest)
    (sound : Sound { s with stack := stack }) (hosted : Hosted o isClient { s with stack := stack })
    (may : enabled { s with stack := stack } (.answer reply)) :
    Comes o (clientEvents o { s with stack := stack } [.answer reply])
      (s.disguise o isClient context lent rest)
      (next { s with stack := stack } (.answer reply)) := by
  induction beside with
  | nil =>
      rcases may with ⟨client, others, here, _⟩
      cases here
  | lag _ lags inductionHypothesis => exact .lag lags (inductionHypothesis sound hosted may)
  | @same lent stack rest task below shared _ =>
      rcases may with ⟨client, others, here, replies⟩
      cases here
      have foreign :
          Served o { s with stack := .callback client :: stack } (.answer reply) = false :=
        decide_eq_false shared
      have held : forall inner, reply = .future (some inner) -> 0 < s.clientRefs inner := by
        rintro inner rfl
        cases client with
        | flatMapper g out token | recovery g out =>
            rcases replies with none | ⟨other, same, spare⟩
            · cases none
            · cases same
              exact spare.elim Nat.lt_of_succ_lt And.left
        | mapper g out freeValue | zipper out first second =>
            rcases replies with ⟨value, same⟩
            cases same
        | observer g | action g out | cancelled => cases replies
      rw [clientEvents, foreign, if_neg Bool.false_ne_true, clientEvents]
      refine .client ⟨client, rest, rfl, ?_⟩ ?_
      · exact replies_disguise (s := { s with stack := .callback client :: stack })
          (below.same shared).inUse replies
      · exact .of_same (Same.afterCallback (s := { s with stack := stack }) shared held) below
          (hosted.afterCallback (s := { s with stack := stack }) reply)
          (shared_afterCallback shared reply)
  | @ask lent stack rest client f below asks _ =>
      rcases may with ⟨client, others, here, replies⟩
      cases here
      have own : Served o { s with stack := .callback client :: stack } (.answer reply) = true := by
        refine decide_eq_true ?_
        cases client <;> cases asks <;> rfl
      rw [clientEvents, own, if_pos rfl, clientEvents]
      exact answer (s := { s with stack := stack }) asks hosted below replies
  | late below late ready _ =>
      rcases may with ⟨client, others, here, _⟩
      cases here
      cases late

end Comes

theorem clientEvents_cons (s : State) (event : Event) (events : List Event) :
    clientEvents o s (event :: events) =
      clientEvents o s [event] ++ clientEvents o (machine.next s event) events := by
  simp only [clientEvents]
  split <;> rfl

theorem clientMoves_append (first second : List Move) :
    clientMoves (first ++ second) = clientMoves first ++ clientMoves second :=
  List.filterMap_append

namespace Mirrors

variable {other : State}

/-- One event of the run with the operator. -/
theorem next {event : Event} (reached : machine.Reachable s) (mirrors : Mirrors o s other)
    (may : machine.enabled s event) (fails : Fails o s event) (harmless : Harmless o s event) :
    Comes o (clientEvents o s [event]) other (machine.next s event) := by
  rcases mirrors with ⟨isClient, context, lent, rest, rfl, beside, hosted⟩
  have sound := reachable_sound reached
  have own : Served o s event = false -> clientEvents o s [event] = [event] := by
    intro foreign
    rw [clientEvents, foreign, if_neg Bool.false_ne_true, clientEvents]
  cases event with
  | step => exact Comes.nextStep (s := s) beside sound hosted may fails harmless
  | call api =>
      rw [own harmless]
      exact Comes.nextCall (s := s) beside sound hosted may
  | answer reply => exact Comes.nextAnswer (s := s) beside sound hosted may
  | resume f | abandon f =>
      refine .client may ⟨isClient, context, lent, rest, rfl, beside, ?_⟩
      exact ⟨hosted.inside, hosted.foreign, hosted.owned, hosted.waits⟩

/-- A run in which each claim of the operator fails. -/
theorem run {last : State} {events : List Event} (reached : machine.Reachable s)
    (mirrors : Mirrors o s other)
    (run : (machine.restrict fun state event => Fails o state event ∧ Harmless o state event).Run
      s events last) : Comes o (clientEvents o s events) other last := by
  induction run generalizing other with
  | done => exact .stay mirrors
  | @step s event events last may _ inductionHypothesis =>
      rcases mirrors.next reached may.1 may.2.1 may.2.2 with ⟨moves, middle, first, same, mirrors⟩
      rcases inductionHypothesis (reached.step may.1) mirrors with ⟨more, after, second, rest, ends⟩
      refine ⟨moves ++ more, after, ?_, ?_, ends⟩
      · rw [List.map_append]
        exact first.append second
      · rw [clientMoves_append, same, rest]
        exact (clientEvents_cons s event events).symm

end Mirrors

/-! ## The call that applies the operator -/

namespace Sound

theorem inside_of_promise (sound : Sound s) (held : 0 < s.held.count (.promise f)) : f < s.count :=
  sound.lt_count (sound.refcount_of_live (sound.live_of_held held))

theorem inside_of_out (sound : Sound s) {g : FutureId} {continuation : Continuation}
    (out : continuation.out = some f)
    (held : forall r, r ∈ continuation.resources g -> 0 < s.held.count r) : f < s.count := by
  cases continuation with
  | observe => cases out
  | map _ _ | flatMap _ _ | onError _ | doOnSuccess _ | moveChain _ =>
      cases out
      exact sound.inside_of_promise (held _ List.mem_cons_self)
  | group kind _ =>
      cases out
      exact (sound.report_pos (held _ List.mem_cons_self)).2
  | zip _ isSecond =>
      cases out
      exact (sound.half_pos (held _ List.mem_cons_self)).2

/-- Nothing that waits belongs to a future that is still to be made. -/
theorem apart_of_waiting (sound : Sound s) {g : FutureId} {continuation : Continuation}
    (mem : (g, continuation) ∈ s.waiting) : continuation.out ≠ some s.count := by
  intro out
  refine Nat.lt_irrefl _ (sound.inside_of_out (g := g) out ?_)
  intro r holds
  exact List.count_pos_iff.mpr (List.mem_append_right _ (List.mem_flatMap.mpr ⟨_, mem, holds⟩))

/-- No task belongs to a future that is still to be made. -/
theorem apart_of_task (sound : Sound s) {task : Task} (mem : task ∈ s.stack) :
    task.Shared s.count ∧ task.stand s.count = task := by
  have held {r : Resource} (holds : r ∈ task.resources) : 0 < s.held.count r := held_pos mem holds
  have promise {out : FutureId} (holds : .promise out ∈ task.resources) : out ≠ s.count :=
    Nat.ne_of_lt (sound.inside_of_promise (held holds))
  have report {out : FutureId} (holds : .report out ∈ task.resources) : out ≠ s.count :=
    Nat.ne_of_lt (sound.report_pos (held holds)).2
  cases task with
  | run g continuation | register g continuation =>
      have apart : continuation.out ≠ some s.count :=
        fun out => Nat.lt_irrefl _ (sound.inside_of_out out fun r holds => held holds)
      exact ⟨fun out => absurd out apart, congrArg _ (stand_apart apart)⟩
  | claimInner out inner | claimInput g out | zipComplete out first second =>
      exact ⟨promise List.mem_cons_self, rfl⟩
  | inherit g out =>
      have touched : out ∈ (Task.inherit g out).touches := by simp [Task.touches]
      have kept := sound.refcount_of_kept (sound.anchored.kept mem touched)
      exact ⟨Nat.ne_of_lt (sound.lt_count kept), rfl⟩
  | deliver out =>
      have kept := sound.refcount_of_kept (f := out) ⟨_, mem, rfl⟩
      exact ⟨Nat.ne_of_lt (sound.lt_count kept), rfl⟩
  | subtract kind out refused => exact ⟨report List.mem_cons_self, rfl⟩
  | loop kind out entries =>
      cases entries with
      | nil => exact ⟨.inl rfl, rfl⟩
      | cons entry entries => exact ⟨.inr (report (by simp [Task.resources])), rfl⟩
  | callback client =>
      refine ⟨?_, rfl⟩
      intro out
      exact promise (Callback.holds_of_out out) rfl
  | _ => exact ⟨trivial, rfl⟩

/-- The run without the operator starts from the state before the call. -/
theorem disguise_create (sound : Sound s) (stack : List Task) :
    (s.create false).disguise s.count true (s.groups s.count)
        (Function.update (fun _ => 0) s.count 1) stack =
      { (s.create true).setClientRefs s.count 1 with stack := stack } := by
  have waiting : s.waiting.map (fun entry => (entry.1, entry.2.stand s.count)) = s.waiting := by
    refine (List.map_congr_left ?_).trans (List.map_id _)
    rintro ⟨g, continuation⟩ mem
    exact congrArg (g, ·) (stand_apart (sound.apart_of_waiting mem))
  have none := (sound.fresh s.count (le_refl _)).clientRefs
  simp only [State.disguise, State.create, State.setClientRefs, State.mk.injEq, waiting, true_and,
    and_true]
  refine ⟨?_, ?_, ?_⟩
  · funext f
    by_cases new : f = s.count
    · subst f
      simp only [if_true, Function.update_self]
    · simp only [if_neg new, Function.update_of_ne new]
  · funext f
    by_cases new : f = s.count
    · subst f
      rw [if_pos rfl]
    · rw [if_neg new]
  · funext f
    by_cases new : f = s.count
    · subst f
      simp only [Function.update_self, none]
    · simp only [Function.update_of_ne new, Nat.add_zero]

end Sound

/-- The output belongs to the operator. -/
theorem Hosted.created {after : State} (sound : Sound s) (count : after.count = s.count + 1)
    (promises : after.promises = (s.create false).promises) (waiting : after.waiting = s.waiting) :
    Hosted s.count true after where
  inside := count ▸ Nat.lt_succ_self _
  foreign := by
    rw [promises]
    simp only [State.create, Function.update_self]
  owned := by simp
  waits := by
    intro g continuation mem out
    exact absurd out (sound.apart_of_waiting (waiting ▸ mem))

theorem Stacks.before (sound : Sound s) : Stacks s.count (fun _ => 0) s.stack s.stack :=
  .diagonal (fun _ mem => (sound.apart_of_task mem).1) fun _ mem => (sound.apart_of_task mem).2

namespace Comes

/-- An operator with one input. -/
theorem applied {continuation : FutureId -> Continuation} (sound : Sound s) (ready : Ready s.stack)
    (held : 0 < s.clientRefs f) (out : (continuation s.count).out = some s.count)
    (claims : (continuation s.count).Claims) : Comes s.count [] s (operator s f continuation) := by
  refine .move .create rfl ⟨ready, trivial⟩ ?_
  have given : 0 < ((s.create true).setClientRefs s.count 1).clientRefs f := by
    simp only [State.setClientRefs, Function.update_apply]
    split
    · exact Nat.one_pos
    · exact held
  refine .move (.observe f) rfl ⟨ready, given⟩ (.stay ?_)
  refine ⟨true, s.groups s.count, Function.update (fun _ => 0) s.count 1,
    .register f .observe :: .leave [f] :: s.stack, ?_, ?_, .created sound rfl rfl rfl⟩
  · exact (sound.disguise_create _).symm
  · have leaves : Task.Late s.count (fun _ => 0) s.stack (.leave [f]) := trivial
    have delivers : Task.Late s.count (fun _ => 0) (.leave [f] :: s.stack) (.deliver s.count) := rfl
    have inherits : Task.Late s.count (Function.update (fun _ => 0) s.count 1)
        (.deliver s.count :: .leave [f] :: s.stack) (.inherit f s.count) := by
      refine ⟨rfl, ?_⟩
      rw [Function.update_self]
      exact Nat.one_pos
    have left : Task.Lags s.count (Function.update (fun _ => 0) s.count 1)
        (.inherit f s.count :: .deliver s.count :: .leave [f] :: s.stack) (.leave [f]) := by
      intro g mem
      exact .inr ⟨[f], by simp, mem⟩
    have delivered := ((Stacks.before sound).late leaves ready).late delivers ready
    have shared : Task.Shared s.count (.register f (continuation s.count)) := fun _ => claims
    have common := ((delivered.late inherits ready).lag left).same shared
    rwa [stand_register out] at common

/-- `UfsrvFutureAny`. -/
theorem appliedAny {entries : List (Option FutureId)} (sound : Sound s) (ready : Ready s.stack)
    (some : entries ≠ []) : Comes s.count [] s (Operator.enter s (.group .any entries)) := by
  have made : Operator.enter s (.group .any entries) =
      ((s.create false).setGroup s.count ⟨entries.length, false⟩).push
        [.loop .any s.count entries, .deliver s.count, .leave (entries.filterMap id)] := if_neg some
  rw [made]
  refine .move .create rfl ⟨ready, trivial⟩ (.stay ?_)
  refine ⟨true, s.groups s.count, Function.update (fun _ => 0) s.count 1, s.stack, ?_, ?_,
    .created sound rfl rfl rfl⟩
  · have same := sound.disguise_create s.stack
    rw [<- disguise_setGroup (s.create false) s.count _ _ _ _ ⟨entries.length, false⟩] at same
    exact same.symm
  · have leaves : Task.Late s.count (fun _ => 0) s.stack (.leave (entries.filterMap id)) := trivial
    have delivers : Task.Late s.count (fun _ => 0) (.leave (entries.filterMap id) :: s.stack)
        (.deliver s.count) := rfl
    have visits : Task.Late s.count (Function.update (fun _ => 0) s.count 1)
        (.deliver s.count :: .leave (entries.filterMap id) :: s.stack)
        (.loop .any s.count entries) := by
      refine ⟨rfl, ?_⟩
      intro g mem
      exact ⟨entries.filterMap id, by simp, List.mem_filterMap.mpr ⟨_, mem, rfl⟩⟩
    exact (((Stacks.before sound).late leaves ready).late delivers ready).late visits ready

/-- The client makes the future that the operator would have made, and looks at the input. -/
theorem apply {api : Api} (sound : Sound s) (claims : api.Claims) (may : enabled s (.call api)) :
    Comes s.count [] s (Operator.enter s api) := by
  rcases may with ⟨ready, may⟩
  cases api with
  | flatMap f =>
      exact @applied s f (fun out => .flatMap out _) sound ready may rfl trivial
  | onError f => exact @applied s f .onError sound ready may rfl trivial
  | doOnSuccess f => exact @applied s f .doOnSuccess sound ready may rfl trivial
  | group kind entries =>
      cases kind with
      | all => cases claims
      | any => exact appliedAny sound ready claims
  | _ => cases claims

end Comes

end Operator
end UfsrvRx
