import UfsrvRx.Operator.Sound

namespace UfsrvRx
namespace Operator

open Transition
open UfsrvRx.Future (Result ValueId epipe ecanceled einval)

/-!
# The tasks keep the invariant
-/

namespace Sound

variable {s : State}

/-! ## Contexts -/

theorem report_pos (ok : Sound s) {out : FutureId} (held : 0 < s.held.count (.report out)) :
    0 < (s.groups out).remaining ∧ out < s.count := by
  have balanced := ok.balanced (.report out)
  simp only [State.extra, State.total] at balanced
  refine ⟨by omega, ?_⟩
  by_contra outside
  rw [(ok.fresh out (Nat.le_of_not_lt outside)).group] at balanced
  simp only [start] at balanced
  omega

theorem half_pos (ok : Sound s) {out : FutureId} (held : 0 < s.held.count (.half out)) :
    0 < (s.zips out).remaining ∧ out < s.count := by
  have balanced := ok.balanced (.half out)
  simp only [State.extra, State.total] at balanced
  refine ⟨by omega, ?_⟩
  by_contra outside
  rw [(ok.fresh out (Nat.le_of_not_lt outside)).zip] at balanced
  simp only [start] at balanced
  omega

/-- A future that the performed task touches. -/
theorem touched {task : Task} (ok : Sound (s.push [task])) {f : FutureId}
    (touches : f ∈ task.touches) : 0 < (s.futures f).refcount ∧ f < s.count := by
  have held : 0 < (s.futures f).refcount :=
    ok.refcount_of_kept ((ok.anchored.1 f touches).tail task)
  exact ⟨held, ok.lt_count held⟩

/-! ## Continuations -/

theorem runObserve {f : FutureId} (ok : Sound (s.push [.run f .observe])) :
    Sound (runContinuation s f .observe) := by
  refine ok.exchange trivial (by simp [Placed, Admissible]) ?_ rfl
  intro rest kept
  exact ⟨kept, rest⟩

/-- The task that ends an operator early, with nothing but the promise in its hands. -/
theorem finishEarly {task : Task} {out : FutureId} (ok : Sound (s.push [task])) (result : Result)
    (ordinary : Ordinary s task) (holds : task.resources = [.promise out]) :
    Sound (s.push (finish out result)) := by
  refine ok.exchange ordinary (by simp [Placed, Admissible, finish]) ?_ (by rw [holds]; rfl)
  intro rest _
  simp [finish, Anchored, Task.touches, Kept.cons, Task.anchors, rest]

theorem runMap {f out : FutureId} {freeValue : Bool} (ok : Sound (s.push [.run f (.map out freeValue)])) :
    Sound (runContinuation s f (.map out freeValue)) := by
  simp only [runContinuation]
  split
  · exact ok.finishEarly _ trivial rfl
  · refine ok.exchange trivial (by simp [Placed, Admissible]) ?_ rfl
    intro rest kept
    exact ⟨kept, rest⟩

theorem runFlatMap {f out : FutureId} {token : Option TokenId}
    (ok : Sound (s.push [.run f (.flatMap out token)])) :
    Sound (runContinuation s f (.flatMap out token)) := by
  simp only [runContinuation]
  split
  · exact ok.finishEarly _ trivial rfl
  · refine ok.exchange trivial (by simp [Placed, Admissible]) ?_ rfl
    intro rest kept
    exact ⟨kept, rest⟩

theorem runOnError {f out : FutureId} (ok : Sound (s.push [.run f (.onError out)])) :
    Sound (runContinuation s f (.onError out)) := by
  simp only [runContinuation]
  split
  · refine ok.exchange trivial (by simp [Placed, Admissible]) ?_ rfl
    intro rest kept
    exact ⟨kept, rest⟩
  · refine ok.exchange trivial (by simp [Placed, Admissible]) ?_ rfl
    intro rest kept
    exact ⟨kept, rest⟩

theorem runDoOnSuccess {f out : FutureId} (ok : Sound (s.push [.run f (.doOnSuccess out)])) :
    Sound (runContinuation s f (.doOnSuccess out)) := by
  simp only [runContinuation]
  split
  · refine ok.exchange trivial (by simp [Placed, Admissible]) ?_ rfl
    intro rest kept
    exact ⟨kept, rest⟩
  · refine ok.exchange trivial (by simp [Placed, Admissible]) ?_ rfl
    intro rest kept
    exact ⟨kept, rest⟩

theorem runMoveChain {f out : FutureId} (ok : Sound (s.push [.run f (.moveChain out)])) :
    Sound (runContinuation s f (.moveChain out)) := by
  refine ok.exchange trivial (by simp [Placed, Admissible, finish]) ?_ rfl
  intro rest kept
  simp [finish, Anchored, Task.touches, Kept.cons, Task.anchors, rest, kept f (by simp [Task.touches])]

/-- The flag of a group is taken, and with it the promise. -/
theorem takeFlag {task : Task} {kind : Kind} {out : FutureId} {refused : Bool} {result : Result}
    (ok : Sound (s.push [task])) (ordinary : Ordinary s task)
    (holds : task.resources = [.report out]) (flag : (s.groups out).flag = false) :
    Sound ((s.setGroup out { s.groups out with flag := true }).push
      (finish out result ++ [.subtract kind out refused])) := by
  have report : 0 < (s.push [task]).held.count (.report out) := by
    simp [State.held_push, holds]
  rcases ok.report_pos report with ⟨remaining, inside⟩
  change 0 < (s.groups out).remaining at remaining
  change out < s.count at inside
  refine ok.transfer ((Keeps.setGroup inside fun _ => rfl).trans (.push _ _)) rfl ordinary ?_ ?_ ?_
  · simp [Placed, Admissible, finish, State.push, State.setGroup]
  · intro rest _
    simp [finish, Anchored, Task.touches, Kept.cons, Task.anchors, rest]
  · intro balanced
    refine State.balanced_change balanced rfl rfl ?_
    intro r
    rw [List.flatMap_singleton, holds]
    cases r <;>
      simp only [State.extra, State.total, State.push, State.setGroup, State.zipRefs, finish,
        List.flatMap_cons, List.flatMap_nil, List.append_nil, List.cons_append, List.nil_append,
        Task.resources, List.count_cons, Function.update_apply] <;> grind

theorem runAll {f out : FutureId} (ok : Sound (s.push [.run f (.group .all out)])) :
    Sound (runContinuation s f (.group .all out)) := by
  simp only [runContinuation]
  split
  · rename_i fails
    exact ok.takeFlag trivial rfl fails.2
  · refine ok.exchange trivial (by simp [Placed, Admissible]) ?_ rfl
    intro rest _
    exact ⟨by simp [Task.touches], rest⟩

/-- The claim on an unconsumed future is taken, to move its result out. -/
theorem balanced_consume {task : Task} {new : List Task} {f : FutureId}
    (balanced : (s.push [task]).Balanced) (fresh : (s.futures f).isConsumed = false)
    (resources : forall r, (new.flatMap Task.resources).count r =
      (Resource.claim f :: task.resources).count r) : ((s.consume f).push new).Balanced := by
  refine State.balanced_change balanced rfl rfl ?_
  intro r
  have same := resources r
  cases r <;>
    simp only [State.extra, State.total, State.push, State.consume, State.setFuture, State.zipRefs,
      List.flatMap_cons, List.flatMap_nil, List.append_nil, List.count_cons,
      Function.update_apply] at same ⊢ <;> grind

theorem keeps_consume {f : FutureId} (inside : f < s.count) : Keeps s (s.consume f) :=
  Keeps.setFuture inside rfl rfl rfl Iff.rfl rfl rfl rfl

theorem claimInput {f out : FutureId} (ok : Sound (s.push [.claimInput f out])) :
    Sound (perform s (.claimInput f out)) := by
  have inside := (ok.touched (f := f) (by simp [Task.touches])).2
  simp only [perform]
  split
  · exact ok.finishEarly _ trivial rfl
  · rename_i fresh
    refine ok.transfer ((keeps_consume inside).trans (.push _ _)) rfl trivial ?_ ?_ ?_
    · simp [Placed, Admissible, finish]
    · intro rest kept
      simp [finish, Anchored, Task.touches, Kept.cons, Task.anchors, rest,
        kept f (by simp [Task.touches])]
    · intro balanced
      refine balanced_consume balanced (by simpa using fresh) ?_
      intro r
      simp [finish, Task.resources, List.count_cons]
      omega

theorem claimInner {out inner : FutureId} (ok : Sound (s.push [.claimInner out inner])) :
    Sound (perform s (.claimInner out inner)) := by
  have held : 0 < (s.futures inner).refcount :=
    ok.refcount_of_kept (.head (by simp [Task.anchors]))
  have inside : inner < s.count := ok.lt_count held
  simp only [perform]
  split
  · refine ok.exchange trivial (by simp [Placed, Admissible, finish]) ?_ rfl
    intro rest _
    simp [finish, Anchored, Task.touches, Kept.cons, Task.anchors, rest]
  · rename_i fresh
    refine ok.transfer ((keeps_consume inside).trans (.push _ _)) rfl trivial ?_ ?_ ?_
    · simp [Placed, Admissible]
    · intro rest _
      simp [Anchored, Task.touches, Kept.cons, Task.anchors, rest]
    · intro balanced
      refine balanced_consume balanced (by simpa using fresh) ?_
      intro r
      simp [Task.resources, Continuation.resources, List.count_cons]
      omega

theorem runAny {f out : FutureId} (ok : Sound (s.push [.run f (.group .any out)])) :
    Sound (runContinuation s f (.group .any out)) := by
  have inside := (ok.touched (f := f) (by simp [Task.touches])).2
  have report : 0 < (s.push [.run f (.group .any out)]).held.count (.report out) := by
    simp [State.held_push, Task.resources, Continuation.resources]
  rcases ok.report_pos report with ⟨remaining, insideOut⟩
  change 0 < (s.groups out).remaining at remaining
  change out < s.count at insideOut
  simp only [runContinuation]
  split
  · rename_i flag
    refine ok.exchange trivial ?_ ?_ rfl
    · simp [Placed, Admissible, flag]
    · intro rest _
      exact ⟨by simp [Task.touches], rest⟩
  · rename_i flag
    split
    · exact ok.takeFlag trivial rfl (by simpa using flag)
    · rename_i fresh
      refine ok.transfer (((Keeps.setGroup insideOut fun _ => rfl).trans (keeps_consume inside)).trans
        (.push _ _)) rfl trivial ?_ ?_ ?_
      · simp [Placed, Admissible, finish, State.push, State.consume, State.setFuture, State.setGroup]
      · intro rest kept
        simp [finish, Anchored, Task.touches, Kept.cons, Task.anchors, rest,
          kept f (by simp [Task.touches])]
      · intro balanced
        refine State.balanced_change balanced rfl rfl ?_
        intro r
        cases r <;>
          simp only [State.extra, State.total, State.push, State.setGroup, State.consume,
            State.setFuture, State.zipRefs, finish, Task.resources, Continuation.resources,
            List.flatMap_cons, List.flatMap_nil, List.append_nil, List.cons_append,
            List.nil_append, List.count_cons, Function.update_apply] <;> grind

theorem runZip {f out : FutureId} {isSecond : Bool}
    (ok : Sound (s.push [.run f (.zip out isSecond)])) :
    Sound (runContinuation s f (.zip out isSecond)) := by
  have half : 0 < (s.push [.run f (.zip out isSecond)]).held.count (.half out) := by
    simp [State.held_push, Task.resources, Continuation.resources]
  rcases ok.half_pos half with ⟨remaining, inside⟩
  change 0 < (s.zips out).remaining at remaining
  change out < s.count at inside
  simp only [runContinuation]
  generalize stored : (if isSecond = true then
    { s.zips out with second := (s.futures f).result }
      else { s.zips out with first := (s.futures f).result }) = zip
  have first : zip.firstFuture = (s.zips out).firstFuture := by
    rw [<- stored]
    split <;> rfl
  have second : zip.secondFuture = (s.zips out).secondFuture := by
    rw [<- stored]
    split <;> rfl
  generalize reported : { zip with remaining := (s.zips out).remaining - 1 } = after
  have left : after.remaining = (s.zips out).remaining - 1 := by rw [<- reported]
  have refs := State.zipRefs_report inside after (by rw [<- reported, <- first])
    (by rw [<- reported, <- second]) (by omega)
  split
  · rename_i last
    refine ok.transfer ((Keeps.setZip inside).trans (.push _ _)) rfl trivial ?_ ?_ ?_
    · simp [Placed, Admissible]
    · intro rest _
      exact ⟨by simp [Task.touches], rest⟩
    · intro balanced
      refine State.balanced_change balanced rfl rfl ?_
      intro r
      cases r with
      | reference future =>
          have refs := refs future
          have extra := State.extra_setZip_reference s out after future
          rw [if_pos (by omega)] at refs
          rw [State.extra_push, State.total_push]
          simp only [State.total, State.setZip, Task.resources, Continuation.resources,
            List.flatMap_cons, List.flatMap_nil, List.append_nil, List.count_cons] at refs extra ⊢
          grind
      | _ =>
          simp only [State.extra, State.total, State.push, State.setZip, Task.resources,
            Continuation.resources, List.flatMap_cons, List.flatMap_nil, List.append_nil,
            List.count_cons, Function.update_apply]
          grind
  · rename_i more
    refine ok.retire (Keeps.setZip inside) rfl trivial ?_
    intro r
    cases r with
    | reference future =>
        have refs := refs future
        have extra := State.extra_setZip_reference s out after future
        rw [if_neg (by omega)] at refs
        simp only [State.total, State.setZip, Task.resources, Continuation.resources,
          List.count_cons] at refs extra ⊢
        grind
    | _ =>
        simp only [State.extra, State.total, State.setZip, Task.resources,
          Continuation.resources, List.count_cons, Function.update_apply]
        grind

theorem runContinuation {f : FutureId} {continuation : Continuation}
    (ok : Sound (s.push [.run f continuation])) :
    Sound (Operator.runContinuation s f continuation) := by
  cases continuation with
  | observe => exact ok.runObserve
  | map out freeValue => exact ok.runMap
  | flatMap out token => exact ok.runFlatMap
  | onError out => exact ok.runOnError
  | doOnSuccess out => exact ok.runDoOnSuccess
  | moveChain out => exact ok.runMoveChain
  | group kind out =>
      cases kind with
      | all => exact ok.runAll
      | any => exact ok.runAny
  | zip out isSecond => exact ok.runZip

/-! ## Combinators -/

theorem subtract {kind : Kind} {out : FutureId} {refused : Bool}
    (ok : Sound (s.push [.subtract kind out refused])) :
    Sound (perform s (.subtract kind out refused)) := by
  have report : 0 < (s.push [.subtract kind out refused]).held.count (.report out) := by
    simp [State.held_push, Task.resources]
  rcases ok.report_pos report with ⟨remaining, inside⟩
  change 0 < (s.groups out).remaining at remaining
  change out < s.count at inside
  have flagged := ok.works _ List.mem_cons_self
  change (kind = .all ↔ refused = true) -> (s.groups out).flag = true at flagged
  have keeps : Keeps s (s.setGroup out { s.groups out with
      remaining := (s.groups out).remaining - 1 }) :=
    Keeps.setGroup inside fun flag => flag
  -- the promise is in nobody's hands when the last report finds the flag unset
  have last : forall result, (s.groups out).remaining = 1 -> (s.groups out).flag = false ->
      Sound ((s.setGroup out { s.groups out with
        remaining := (s.groups out).remaining - 1 }).push (finish out result)) := by
    intro result one unset
    refine ok.transfer (keeps.trans (.push _ _)) rfl trivial ?_ ?_ ?_
    · simp [Placed, Admissible, finish]
    · intro rest _
      simp [finish, Anchored, Task.touches, Kept.cons, Task.anchors, rest]
    · intro balanced
      refine State.balanced_change balanced rfl rfl ?_
      intro r
      cases r <;>
        simp only [State.extra, State.total, State.push, State.setGroup, State.zipRefs, finish,
          Task.resources, List.flatMap_cons, List.flatMap_nil, List.append_nil, List.count_cons,
          Function.update_apply] <;> grind
  have others : ((s.groups out).remaining = 1 -> (s.groups out).flag = true) ->
      Sound (s.setGroup out { s.groups out with
        remaining := (s.groups out).remaining - 1 }) := by
    intro flag
    refine ok.retire keeps rfl trivial ?_
    intro r
    cases r <;>
      simp only [State.extra, State.total, State.setGroup, State.zipRefs, Task.resources,
        List.count_cons, Function.update_apply] <;> grind
  simp only [perform]
  split
  · rename_i decides
    cases kind <;> cases refused
    · exact last _ decides.1 decides.2
    · exact others fun _ => flagged (by simp)
    · exact others fun _ => flagged (by simp)
    · exact last _ decides.1 decides.2
  · rename_i undecided
    refine others ?_
    intro one
    by_contra unset
    exact undecided ⟨one, by simpa using unset⟩

/-- The loop takes its next entry, and the share of that entry. -/
theorem takeEntry {kind : Kind} {out : FutureId} {entry : Option FutureId}
    {entries : List (Option FutureId)} {task : Task}
    (ok : Sound (s.push [.loop kind out (entry :: entries)])) (placed : Placed s task)
    (touches : forall f, f ∈ task.touches -> entry = some f)
    (resources : task.resources = [.report out]) :
    Sound ((s.push [.loop kind out entries]).push [task]) := by
  change Sound (s.push [task, .loop kind out entries])
  refine ok.exchange trivial ?_ ?_ ?_
  · intro other mem
    rcases List.mem_cons.mp mem with rfl | mem
    · exact placed
    · rw [List.mem_singleton.mp mem]
      simp [Placed, Admissible]
  · intro rest kept
    refine ⟨?_, ?_, rest⟩
    · intro f mem
      refine (kept f ?_).tail _
      simp [Task.touches, touches f mem]
    · intro f mem
      refine kept f ?_
      simp only [Task.touches, List.mem_filterMap, id_eq, exists_eq_right] at mem ⊢
      exact List.mem_cons_of_mem _ mem
  · rw [List.flatMap_cons, resources]
    simp [Task.resources, List.replicate_succ]

theorem loop {kind : Kind} {out : FutureId} {entries : List (Option FutureId)}
    (ok : Sound (s.push [.loop kind out entries])) :
    Sound (perform s (.loop kind out entries)) := by
  cases entries with
  | nil =>
      refine ok.retire (.push s []) rfl trivial ?_
      intro r
      simp [perform, Task.resources]
  | cons entry entries =>
      simp only [perform]
      cases entry with
      | some f =>
          refine ok.takeEntry (by simp [Placed, Admissible]) ?_ rfl
          intro other mem
          rw [List.mem_singleton.mp mem]
      | none =>
          cases kind with
          | all =>
              simp only [visit]
              split
              · rename_i flag
                refine ok.takeEntry ?_ (by simp [Task.touches]) rfl
                exact ⟨fun _ => flag, by simp⟩
              · rename_i flag
                have entered : Sound ((s.push [.loop .all out entries]).push
                    [.subtract .all out false]) :=
                  ok.takeEntry (by simp [Placed, Admissible]) (by simp [Task.touches]) rfl
                exact entered.takeFlag trivial rfl (by simpa using flag)
          | any =>
              refine ok.takeEntry ?_ (by simp [Task.touches]) rfl
              simp [Placed, Admissible]

theorem zipComplete {out first second : FutureId} (ok : Sound (s.push [.zipComplete out first second])) :
    Sound (perform s (.zipComplete out first second)) := by
  simp only [perform]
  split
  · refine ok.exchange trivial (by simp [Placed, Admissible, zipFinish, finish]) ?_ rfl
    intro rest _
    simp [zipFinish, finish, Anchored, Task.touches, Kept.cons, Task.anchors, rest]
  · refine ok.exchange trivial (by simp [Placed, Admissible]) ?_ rfl
    intro rest _
    exact ⟨by simp [Task.touches, Callback.touches], rest⟩

/-! ## The ends of calls -/

theorem inherit {f out : FutureId} (ok : Sound (s.push [.inherit f out])) :
    Sound (perform s (.inherit f out)) := by
  simp only [perform]
  split
  · refine ok.exchange trivial (by simp [Placed, Admissible]) ?_ rfl
    intro rest kept
    refine ⟨?_, rest⟩
    intro other mem
    refine kept other ?_
    rw [List.mem_singleton.mp mem]
    simp [Task.touches]
  · exact ok.retire (.push s []) rfl trivial fun _ => by simp [Task.resources]

theorem deliver {out : FutureId} (ok : Sound (s.push [.deliver out])) :
    Sound (perform s (.deliver out)) := by
  have held : 0 < (s.futures out).refcount := ok.refcount_of_kept (.head rfl)
  have inside : out < s.count := ok.lt_count held
  simp only [perform]
  refine ok.retire { Keeps.push s [] with clientRefs := ?_, blank := ?_ } rfl trivial ?_
  · intro f held
    simp only [State.setClientRefs, Function.update_apply]
    split
    · omega
    · exact held
  · intro f outside blank
    have other : f ≠ out := Nat.ne_of_gt (Nat.lt_of_lt_of_le inside outside)
    exact { blank with
      clientRefs := by
        simp only [State.setClientRefs, Function.update_of_ne other]
        exact blank.clientRefs }
  · intro r
    cases r <;>
      simp only [State.extra, State.total, State.setClientRefs, State.zipRefs, Task.resources,
        List.count_cons, Function.update_apply] <;> grind

theorem leave {arguments : List FutureId} (ok : Sound (s.push [.leave arguments])) : Sound s :=
  ok.retire (.push s []) rfl trivial fun _ => by simp [Task.resources]

theorem leaveSet {f : FutureId} (ok : Sound (s.push [.leaveSet f])) : Sound s :=
  ok.retire (.push s []) rfl trivial fun _ => by simp [Task.resources]

theorem zero {f : FutureId} (ok : Sound (s.push [.zero f])) : Sound (perform s (.zero f)) := by
  have inside := (ok.touched (f := f) (by simp [Task.touches])).2
  have claim := ok.balanced (.claim f)
  simp only [State.held_push, Task.resources, List.flatMap_singleton, List.count_append,
    List.count_singleton_self, State.extra, State.total] at claim
  change 1 + _ + (s.futures f).isMoved.toNat = (s.futures f).isConsumed.toNat at claim
  have unmoved : (s.futures f).isMoved = false := by
    have bound := (s.futures f).isConsumed.toNat_le
    cases moved : (s.futures f).isMoved with
    | false => rfl
    | true =>
        rw [moved, Bool.toNat_true] at claim
        omega
  simp only [perform]
  refine ok.retire (Keeps.setFuture inside rfl rfl rfl Iff.rfl rfl rfl rfl) rfl trivial ?_
  intro r
  cases r <;>
    simp only [State.extra, State.total, State.setFuture, State.zipRefs, Task.resources,
      List.count_cons, Function.update_apply] <;> grind

end Sound

end Operator
end UfsrvRx
