import UfsrvRx.Operator.Settled

namespace UfsrvRx
namespace Operator

open Transition
open UfsrvRx.Future (Result ValueId epipe ecanceled einval)

/-!
# Every task keeps to the labels

What the proofs rest on is that a result is read before it is moved out: a future that is shared
is never moved, and one that a single operator moves is read for an output whose promise nothing
else holds.
-/

variable {Source : Type} {labels : Labels Source}

/-! ## What a task reads -/

/-- A task is about to be done. -/
structure Poised (labels : Labels Source) (s : State) (task : Task) : Prop where
  settled : Settled labels (s.push [task])
  sound : Sound (s.push [task])
  recorded : Recorded ∅ (s.push [task])

/-- The task is an operator that completes the output. -/
structure Task.Serves (task : Task) (out : FutureId) : Prop where
  holds : .promise out ∈ task.resources
  keeps : task ≠ .destroyPromise out ∧ task ≠ .releasePromise out

namespace Poised

variable {s after : State} {task : Task} {new : List Task}

theorem fits (ok : Poised labels s task) : labels.Fits s task :=
  ok.settled.fits _ List.mem_cons_self

theorem means (ok : Poised labels s task) {f : FutureId} {outcome : Except Int (Option ValueId)}
    (read : s.outcome f = some outcome) : labels.meaning s f = some outcome := by
  refine ok.settled.settled f outcome ?_ read
  by_contra outside
  have blank : s.futures f = start.futures f := (ok.sound.fresh f (Nat.le_of_not_lt outside)).cell
  simp only [State.outcome, blank] at read
  cases read

/-- Nothing else holds the promise that the task holds. -/
theorem alone (ok : Poised labels s task) {out : FutureId}
    (holds : .promise out ∈ task.resources) :
    s.held.count (.promise out) = 0 := by
  have balanced := ok.sound.balanced (.promise out)
  rw [State.held_push, State.total_push] at balanced
  simp only [State.total, List.flatMap_singleton, List.count_append] at balanced
  have mine := List.count_pos_iff.mpr holds
  have most := (s.promises out).isLive.toNat_le
  omega

/-- The output of the operator has no result yet. -/
theorem unspent (ok : Poised labels s task) {out : FutureId} (internal : labels.Internal out)
    (serves : task.Serves out) : ¬(s.push [task]).Spent out := by
  intro spent
  have other {task' : Task} (mem : task' ∈ s.stack) (holds : .promise out ∈ task'.resources) :
      False := by
    have held := held_pos mem holds
    rw [ok.alone serves.holds] at held
    exact Nat.lt_irrefl 0 held
  rcases ok.settled.spent out internal spent with dead | mem | mem
  · have live := ok.sound.live_of_held (held_pos List.mem_cons_self serves.holds)
    exact absurd (live.symm.trans dead) (by decide)
  · rcases List.mem_cons.mp mem with same | mem
    · exact serves.keeps.1 same.symm
    · exact other mem (List.mem_singleton.mpr rfl)
  · rcases List.mem_cons.mp mem with same | mem
    · exact serves.keeps.2 same.symm
    · exact other mem (List.mem_singleton.mpr rfl)

/-- The input of the operator has not been moved out. -/
theorem unmoved (ok : Poised labels s task) {f out : FutureId}
    (use : labels.use f = .input out ∨ labels.use f = .inner out)
    (internal : labels.Internal out) (serves : task.Serves out) :
    ¬((s.futures f).isMoved = true ∨ .zero f ∈ (s.push [task]).stack) := by
  intro moved
  rcases ok.settled.moved f moved with ⟨other, used, spent⟩
  have same : other = out := by
    rcases use with use | use <;> rcases used with used | used <;> rw [use] at used <;> cases used
    · rfl
    · rfl
  rw [same] at spent
  exact ok.unspent internal serves spent

/-- A future that is shared is never moved out. -/
theorem unmoved_shared (ok : Poised labels s task) {f : FutureId} (use : labels.use f = .shared) :
    (s.futures f).isMoved = false := by
  cases moved : (s.futures f).isMoved with
  | false => rfl
  | true =>
      rcases ok.settled.moved f (.inl moved) with ⟨out, used | used, _⟩
      · rw [use] at used
        cases used
      · rw [use] at used
        cases used

theorem read (ok : Poised labels s task) {f : FutureId} {outcome : Except Int (Option ValueId)}
    (came : s.outcome f = some outcome) (unmoved : (s.futures f).isMoved = false) :
    (s.futures f).result.outcome = outcome := by
  have kept : (s.futures f).result =
      if (s.futures f).isMoved then .zero else (s.futures f).completed.getD .zero :=
    ok.recorded.result f
  rw [kept, unmoved]
  simp only [State.outcome] at came
  cases completed : (s.futures f).completed with
  | none =>
      rw [completed] at came
      cases came
  | some result =>
      rw [completed] at came
      exact Option.some.inj came

theorem read_shared (ok : Poised labels s task) {f : FutureId}
    {outcome : Except Int (Option ValueId)} (came : s.outcome f = some outcome)
    (use : labels.use f = .shared) : (s.futures f).result.outcome = outcome :=
  ok.read came (ok.unmoved_shared use)

theorem read_served (ok : Poised labels s task) {f out : FutureId}
    {outcome : Except Int (Option ValueId)} (came : s.outcome f = some outcome)
    (use : labels.use f = .input out ∨ labels.use f = .inner out)
    (internal : labels.Internal out) (serves : task.Serves out) :
    (s.futures f).result.outcome = outcome := by
  refine ok.read came ?_
  exact Bool.eq_false_iff.mpr fun moved => ok.unmoved use internal serves (.inl moved)

theorem moveChain_of_claim {continuation : Continuation} {f g : FutureId}
    (claims : .claim f ∈ continuation.resources g) : Exists fun out =>
      continuation = .moveChain out ∧ g = f := by
  cases continuation with
  | moveChain out =>
      simp only [Continuation.resources, List.mem_cons, List.not_mem_nil, or_false,
        Resource.claim.injEq] at claims
      rcases claims with impossible | same
      · cases impossible
      · exact ⟨out, rfl, same.symm⟩
  | _ => simp [Continuation.resources] at claims

/-- Nothing else has claimed the input of the operator. -/
theorem unconsumed (ok : Poised labels s task) {f out : FutureId}
    (use : labels.use f = .input out ∨ labels.use f = .inner out)
    (internal : labels.Internal out) (serves : task.Serves out)
    (unclaimed : .claim f ∉ task.resources) : (s.futures f).isConsumed = false := by
  have unmoved := ok.unmoved use internal serves
  have alone {continuation : Continuation} (feeds : labels.Feeds s f continuation)
      (claims : .claim f ∈ continuation.resources f)
      (held : forall r, r ∈ continuation.resources f -> 0 < s.held.count r) : False := by
    rcases moveChain_of_claim claims with ⟨other, rfl, _⟩
    have same : other = out := by
      rcases use with use | use <;> have used := feeds.1 <;> rw [use] at used <;> cases used
      rfl
    have twice := held (.promise other) List.mem_cons_self
    rw [same, ok.alone serves.holds] at twice
    exact Nat.lt_irrefl 0 twice
  have none : s.held.count (.claim f) = 0 := by
    rw [List.count_eq_zero]
    intro mem
    rcases List.mem_append.mp mem with mem | mem
    · rcases List.mem_flatMap.mp mem with ⟨other, inside, claims⟩
      have fits : labels.Fits s other := ok.settled.fits other (List.mem_cons_of_mem _ inside)
      have held : forall r, r ∈ other.resources -> 0 < s.held.count r :=
        fun r => held_pos inside
      cases other with
      | run g continuation =>
          rcases moveChain_of_claim claims with ⟨_, _, rfl⟩
          exact alone fits.2 claims held
      | register g continuation =>
          rcases moveChain_of_claim claims with ⟨_, _, rfl⟩
          exact alone fits claims held
      | zero g =>
          rw [Resource.claim.inj (List.mem_singleton.mp claims)] at unmoved
          exact unmoved (.inr (List.mem_cons_of_mem _ inside))
      | callback client => cases client <;> simp [Task.resources, Callback.resources] at claims
      | loop kind out entries => simp [Task.resources] at claims
      | _ => simp [Task.resources] at claims
    · rcases List.mem_flatMap.mp mem with ⟨⟨g, continuation⟩, waits, claims⟩
      rcases moveChain_of_claim claims with ⟨_, _, same⟩
      change g = f at same
      subst g
      refine alone (ok.settled.waits f continuation waits) claims ?_
      intro r holds
      rw [List.count_pos_iff]
      exact List.mem_append_right _ (List.mem_flatMap.mpr ⟨_, waits, holds⟩)
  have balanced := ok.sound.balanced (.claim f)
  rw [State.held_push, State.extra_push, State.total_push] at balanced
  simp only [State.extra, State.total, List.flatMap_singleton, List.count_append, none,
    List.count_eq_zero.mpr unclaimed] at balanced
  have still : (s.futures f).isMoved = false :=
    Bool.eq_false_iff.mpr fun moved => unmoved (.inl moved)
  rw [still] at balanced
  exact Bool.toNat_eq_zero.mp balanced.symm

end Poised

/-! ## What takes the place of a task -/

/-- A step that makes no future and stores no report. -/
structure Passes (s after : State) (task : Task) : Prop extends Advances s after task where
  made : after.count = s.count
  tokens : forall f, (s.futures f).cancelToken = none -> (after.futures f).cancelToken = none
  unmade : forall f, s.count ≤ f -> (after.promises f).isClient = false
  stored : forall out, out < s.count -> after.zips out = s.zips out

/-- The task has nothing to do with promises and moves. -/
def Task.IsPlain : Task -> Prop
  | setResult _ _ | destroyPromise _ | releasePromise _ | zero _ => False
  | _ => True

theorem Task.paired_plain {way : FutureId -> Prop} {new : List Task}
    (plain : forall other, other ∈ new -> other.IsPlain) (fulfilled : FutureId -> Prop) :
    Task.Paired way fulfilled new := by
  induction new with
  | nil => trivial
  | cons other rest inductionHypothesis =>
      have tail := inductionHypothesis fun task mem => plain task (List.mem_cons_of_mem _ mem)
      have head := plain other List.mem_cons_self
      cases other with
      | setResult f result | destroyPromise f => exact head.elim
      | _ => exact tail

namespace Poised

variable {s after : State} {task : Task} {new : List Task}

theorem passes (ok : Poised labels s task) (runs : forall callback, task ≠ .callback callback)
    (unstored : forall f out isSecond, task ≠ .run f (.zip out isSecond)) :
    Passes s (perform s task) task := by
  have later := ok.sound.perform runs
  refine ⟨.perform ok.sound ok.recorded later, count_perform s task, ?_, ?_, ?_⟩
  · intro f unattached
    rcases Registers.perform s task with ⟨_, registers⟩
    have attaches : ¬task.Attaches f := by
      intro attaches
      have fits := ok.fits
      cases task with
      | attach g token => exact fits
      | _ => exact attaches
    rcases (registers.cells f attaches).token with same | none
    · rw [same, unattached]
    · exact none
  · intro f outside
    rw [(later.fresh f ((count_perform s task).symm ▸ outside)).promise]
    rfl
  · intro out inside
    exact (Handles.perform s task).zips out inside fun f side => unstored f out side

/-- Tasks take the place of the first one. -/
theorem exchange (ok : Poised labels s task) (passes : Passes s after task)
    (stack : after.stack = new ++ s.stack)
    (fits : forall other, other ∈ new -> labels.Fits after other)
    (paired : forall fulfilled, Task.Paired labels.Internal fulfilled new)
    (ends : forall out result, .setResult out result ∈ new -> labels.Internal out ->
      .destroyPromise out ∈ new)
    (ending : forall out, task = .destroyPromise out ∨ task = .releasePromise out ->
      after.Ending out)
    (zeros : forall f, .zero f ∈ new -> Exists fun out =>
      (labels.use f = .input out ∨ labels.use f = .inner out) ∧ after.Spent out)
    (awaits : forall out isSecond, task.reports out isSecond ∨
      (Exists fun f => (f, .zip out isSecond) ∈ s.waiting) -> after.Awaits out isSecond) :
    Settled labels after := by
  refine ok.settled.change ok.sound passes.toAdvances ?_ ?_ stack fits ?_ paired ends ending zeros
    ?_ ?_
  · exact fun f => passes.tokens f (ok.settled.tokens f)
  · intro f outside client
    rw [passes.unmade f outside] at client
    cases client
  · rintro out first second (mem | mem)
    · have fits : labels.Fits s (.zipComplete out first second) :=
        ok.settled.fits _ (List.mem_cons_of_mem _ mem)
      exact passes.stored out fits.1
    · have fits : labels.Fits s (.callback (.zipper out first second)) :=
        ok.settled.fits _ (List.mem_cons_of_mem _ mem)
      exact passes.stored out fits.1
  · intro out first second zipper inside net
    rw [passes.made] at inside
    rw [passes.stored out inside]
    exact ok.settled.inputs out first second zipper inside net
  · intro out first second zipper isSecond inside net
    rw [passes.made] at inside
    rw [passes.stored out inside]
    rcases ok.settled.halves out first second zipper isSecond inside net with
      (⟨other, mem, reporting⟩ | waits) | reported
    · rcases List.mem_cons.mp mem with rfl | mem
      · exact .inl (awaits out isSecond (.inl reporting))
      · refine .inl (.inl ⟨other, ?_, reporting⟩)
        rw [stack]
        exact List.mem_append_right _ mem
    · exact .inl (awaits out isSecond (.inr waits))
    · exact .inr (passes.grows.outcomes _ _ reported)

/-- Plain tasks take the place of a plain one. -/
theorem swap (ok : Poised labels s task) (passes : Passes s after task)
    (stack : after.stack = new ++ s.stack) (waiting : after.waiting = s.waiting)
    (fits : forall other, other ∈ new -> labels.Fits after other)
    (plain : forall other, other ∈ new -> other.IsPlain)
    (stays : forall out, task ≠ .destroyPromise out ∧ task ≠ .releasePromise out)
    (quiet : forall out isSecond, ¬task.reports out isSecond) : Settled labels after := by
  refine ok.exchange passes stack fits (Task.paired_plain plain) ?_ ?_ ?_ ?_
  · exact fun out result mem => (plain _ mem).elim
  · rintro out (same | same)
    · exact absurd same (stays out).1
    · exact absurd same (stays out).2
  · exact fun f mem => (plain _ mem).elim
  · rintro out isSecond (reporting | waits)
    · exact absurd reporting (quiet out isSecond)
    · rw [<- waiting] at waits
      exact .inr waits

/-- Nothing takes the place of a plain task. -/
theorem done (ok : Poised labels s task) (passes : Passes s after task)
    (stack : after.stack = s.stack) (waiting : after.waiting = s.waiting)
    (stays : forall out, task ≠ .destroyPromise out ∧ task ≠ .releasePromise out)
    (quiet : forall out isSecond, ¬task.reports out isSecond) : Settled labels after := by
  have none : after.stack = [] ++ s.stack := stack
  exact ok.swap passes none waiting nofun nofun stays quiet

/-- The output is completed, and then its input is cleared. -/
theorem conclude (ok : Poised labels s task) (passes : Passes s after task) {out : FutureId}
    {result : Result} (serves : task.Serves out)
    (stack : after.stack = finish out result ++ new ++ s.stack)
    (waiting : after.waiting = s.waiting)
    (delivers : labels.meaning s out = some result.outcome)
    (fits : forall other, other ∈ new -> labels.Fits after other)
    (clears : forall other, other ∈ new -> other.IsPlain ∨ Exists fun f => other = .zero f ∧
      (labels.use f = .input out ∨ labels.use f = .inner out))
    (quiet : forall context isSecond, ¬task.reports context isSecond) : Settled labels after := by
  have spent : after.Spent out := by
    refine .inr ⟨result, ?_⟩
    rw [stack]
    exact List.mem_cons_self
  refine ok.exchange passes stack ?_ ?_ ?_ ?_ ?_ ?_
  · intro other mem
    simp only [finish, List.cons_append, List.nil_append, List.mem_cons] at mem
    rcases mem with rfl | rfl | mem
    · exact fun _ => passes.grows.meaning delivers
    · trivial
    · exact fits other mem
  · refine fun fulfilled => ⟨fun _ => .inl rfl, ?_⟩
    clear stack fits
    induction new with
    | nil => trivial
    | cons other rest inductionHypothesis =>
        have tail := inductionHypothesis fun task mem => clears task (List.mem_cons_of_mem _ mem)
        rcases clears other List.mem_cons_self with plain | ⟨f, rfl, _⟩
        · cases other with
          | setResult f result | destroyPromise f => exact plain.elim
          | _ => exact tail
        · exact tail
  · intro other given mem _
    simp only [finish, List.cons_append, List.nil_append, List.mem_cons] at mem ⊢
    rcases mem with same | impossible | mem
    · cases same
      exact .inr (.inl rfl)
    · cases impossible
    · rcases clears _ mem with plain | ⟨f, impossible, _⟩
      · exact plain.elim
      · cases impossible
  · rintro other (rfl | rfl)
    · rw [Resource.promise.inj (List.mem_singleton.mp serves.holds)] at serves
      exact absurd rfl serves.keeps.1
    · rw [Resource.promise.inj (List.mem_singleton.mp serves.holds)] at serves
      exact absurd rfl serves.keeps.2
  · intro f mem
    simp only [finish, List.cons_append, List.nil_append, List.mem_cons] at mem
    rcases mem with impossible | impossible | mem
    · cases impossible
    · cases impossible
    · rcases clears _ mem with plain | ⟨g, same, use⟩
      · exact plain.elim
      · cases same
        exact ⟨out, use, spent⟩
  · rintro context isSecond (reporting | waits)
    · exact absurd reporting (quiet context isSecond)
    · rw [<- waiting] at waits
      exact .inr waits

end Poised

/-! ## Every task keeps to the labels -/

theorem outcome_error {result : Result} (failed : result.error ≠ 0) :
    result.outcome = .error result.error := if_neg failed

theorem outcome_ok {result : Result} (fine : result.error = 0) :
    result.outcome = .ok result.value := if_pos fine

theorem outcome_ofError {error : Int} (failed : error ≠ 0) :
    (Result.ofError error).outcome = .error error := if_neg failed

theorem nothing_more (tasks rest : List Task) : tasks ++ rest = tasks ++ [] ++ rest := by
  rw [List.append_nil]

namespace Poised

variable {s after : State} {f out : FutureId}

theorem runMap {freeValue : Bool} (ok : Poised labels s (.run f (.map out freeValue))) :
    Settled labels (perform s (.run f (.map out freeValue))) := by
  rcases ok.fits with ⟨⟨outcome, came⟩, shared, mapper, net⟩
  have read := ok.read_shared came shared
  have known : (labels.net f).eval (labels.known s) = some outcome := ok.means came
  have passes := ok.passes (by simp) (by simp)
  by_cases failed : (s.futures f).result.error ≠ 0
  · simp only [perform, runContinuation, if_pos failed] at passes ⊢
    have serves : (Task.run f (.map out freeValue)).Serves out :=
      ⟨List.mem_cons_self, (by simp), (by simp)⟩
    refine ok.conclude passes serves (nothing_more _ _) rfl ?_ (by simp) (by simp) (by simp [Task.reports])
    rw [<- read, outcome_error failed] at known
    rw [outcome_ofError failed]
    simp only [Labels.meaning, net, Net.eval, known, Option.map_some]
    rfl
  · simp only [perform, runContinuation, if_neg failed] at passes ⊢
    refine ok.swap passes rfl rfl ?_ (by simp [Task.IsPlain]) (by simp) (by simp [Task.reports])
    intro other mem
    rw [List.mem_singleton.mp mem]
    rw [<- read, outcome_ok (not_not.mp failed)] at came
    exact ⟨shared, mapper, _, net, came⟩

theorem runFlatMap {token : Option TokenId} (ok : Poised labels s (.run f (.flatMap out token))) :
    Settled labels (perform s (.run f (.flatMap out token))) := by
  rcases ok.fits with ⟨⟨outcome, came⟩, free, shared, mapper, net⟩
  have read := ok.read_shared came shared
  have known : (labels.net f).eval (labels.known s) = some outcome := ok.means came
  have passes := ok.passes (by simp) (by simp)
  by_cases failed : (s.futures f).result.error ≠ 0
  · simp only [perform, runContinuation, if_pos failed] at passes ⊢
    have serves : (Task.run f (.flatMap out token)).Serves out :=
      ⟨List.mem_cons_self, (by simp), (by simp)⟩
    refine ok.conclude passes serves (nothing_more _ _) rfl ?_ (by simp) (by simp) (by simp [Task.reports])
    rw [<- read, outcome_error failed] at known
    rw [outcome_ofError failed]
    simp only [Labels.meaning, net, Net.eval, known]
  · simp only [perform, runContinuation, if_neg failed] at passes ⊢
    refine ok.swap passes rfl rfl ?_ (by simp [Task.IsPlain]) (by simp) (by simp [Task.reports])
    intro other mem
    rw [List.mem_singleton.mp mem]
    rw [<- read, outcome_ok (not_not.mp failed)] at came
    exact ⟨free, shared, mapper, _, net, came⟩

theorem runOnError (ok : Poised labels s (.run f (.onError out))) :
    Settled labels (perform s (.run f (.onError out))) := by
  rcases ok.fits with ⟨⟨outcome, came⟩, use, recovery, net⟩
  have internal := Labels.internal net nofun
  have serves : (Task.run f (.onError out)).Serves out := ⟨List.mem_cons_self, nofun, nofun⟩
  have read := ok.read_served came (.inl use) internal serves
  have known : (labels.net f).eval (labels.known s) = some outcome := ok.means came
  have passes := ok.passes nofun nofun
  by_cases failed : (s.futures f).result.error ≠ 0
  · simp only [perform, runContinuation, if_pos failed] at passes ⊢
    refine ok.swap passes rfl rfl ?_ (by simp [Task.IsPlain]) (by simp) (by simp [Task.reports])
    intro other mem
    rw [List.mem_singleton.mp mem]
    rw [<- read, outcome_error failed] at came
    exact ⟨use, recovery, _, net, came⟩
  · simp only [perform, runContinuation, if_neg failed] at passes ⊢
    refine ok.swap passes rfl rfl ?_ (by simp [Task.IsPlain]) (by simp) (by simp [Task.reports])
    intro other mem
    rw [List.mem_singleton.mp mem]
    refine ⟨use, internal, outcome, came, ?_⟩
    rw [<- read, outcome_ok (not_not.mp failed)] at known ⊢
    change (labels.net out).eval (labels.known s) = _
    simp only [net, Net.eval, known]

theorem runDoOnSuccess (ok : Poised labels s (.run f (.doOnSuccess out))) :
    Settled labels (perform s (.run f (.doOnSuccess out))) := by
  rcases ok.fits with ⟨⟨outcome, came⟩, use, net⟩
  have known : (labels.net f).eval (labels.known s) = some outcome := ok.means came
  have passes := ok.passes (by simp) (by simp)
  by_cases fine : (s.futures f).result.error = 0
  · simp only [perform, runContinuation, if_pos fine] at passes ⊢
    refine ok.swap passes rfl rfl ?_ (by simp [Task.IsPlain]) (by simp) (by simp [Task.reports])
    intro other mem
    rw [List.mem_singleton.mp mem]
    exact ⟨use, net, outcome, came⟩
  · simp only [perform, runContinuation, if_neg fine] at passes ⊢
    refine ok.swap passes rfl rfl ?_ (by simp [Task.IsPlain]) (by simp) (by simp [Task.reports])
    intro other mem
    rw [List.mem_singleton.mp mem]
    refine ⟨use, Labels.internal net (by simp), outcome, came, ?_⟩
    change (labels.net out).eval (labels.known s) = _
    simp only [net, Net.eval, known]

theorem runMoveChain (ok : Poised labels s (.run f (.moveChain out))) :
    Settled labels (perform s (.run f (.moveChain out))) := by
  rcases ok.fits with ⟨⟨outcome, came⟩, use, internal, continues⟩
  have serves : (Task.run f (.moveChain out)).Serves out := ⟨List.mem_cons_self, nofun, nofun⟩
  have read := ok.read_served came (.inr use) internal serves
  have known : (labels.net f).eval (labels.known s) = some outcome := ok.means came
  have passes := ok.passes nofun nofun
  refine ok.conclude passes serves rfl rfl ?_ (by simp [Labels.Fits]) ?_ (by simp [Task.reports])
  · rw [read]
    exact continues.same.trans known
  · intro other mem
    exact .inr ⟨f, List.mem_singleton.mp mem, .inr use⟩

/-- An input reports to its context.  The last one finds the other half there. -/
theorem report {isSecond : Bool} {new : List Task}
    (ok : Poised labels s (.run f (.zip out isSecond))) (zip : Zip)
    (input : forall side, zip.input side = (s.zips out).input side)
    (half : zip.half isSecond = (s.futures f).result)
    (other : zip.half (!isSecond) = (s.zips out).half (!isSecond))
    (zips : after.zips = Function.update s.zips out zip) (futures : after.futures = s.futures)
    (waiting : after.waiting = s.waiting) (stack : after.stack = new ++ s.stack)
    (only : new = [] ∨ (s.zips out).remaining = 1 ∧ Exists fun one => Exists fun two =>
      new = [.zipComplete out one two])
    (same : perform s (.run f (.zip out isSecond)) = after) : Settled labels after := by
  rcases ok.fits with ⟨⟨outcome, came⟩, shared, here, inside, first, second, zipper, net⟩
  have read := ok.read_shared came shared
  have runs : forall callback, Task.run f (.zip out isSecond) ≠ .callback callback := by simp
  have later := ok.sound.perform runs
  have advances := Advances.perform ok.sound ok.recorded later
  have count := count_perform s (.run f (.zip out isSecond))
  rw [same] at later advances count
  have share : 0 < (s.push [.run f (.zip out isSecond)]).held.count (.half out) := by
    refine held_pos List.mem_cons_self ?_
    simp [Task.resources, Continuation.resources]
  have pending : 0 < (s.zips out).remaining := (ok.sound.half_pos share).1
  have outcomes : forall g, after.outcome g = s.outcome g := by
    intro g
    simp only [State.outcome, futures]
  -- The promise is still with the context, so the zipper was not called.
  have unheld : s.held.count (.promise out) = 0 := by
    have balanced := ok.sound.balanced (.promise out)
    rw [State.held_push, State.extra_push, State.total_push] at balanced
    simp only [State.extra, State.total, if_pos pending, List.count_append] at balanced
    have most := (s.promises out).isLive.toNat_le
    omega
  have elsewhere {task : Task} {context : FutureId} (mem : task ∈ s.stack)
      (holds : .promise context ∈ task.resources) : after.zips context = s.zips context := by
    rw [zips, Function.update_of_ne]
    rintro rfl
    have held := held_pos mem holds
    rw [unheld] at held
    exact Nat.lt_irrefl 0 held
  have inputs : forall context side,
      (after.zips context).input side = (s.zips context).input side := by
    intro context side
    rw [zips]
    by_cases mine : context = out
    · rw [mine, Function.update_self, input]
    · rw [Function.update_of_ne mine]
  have mine : after.outcome ((after.zips out).input isSecond) =
      some ((after.zips out).half isSecond).outcome := by
    rw [outcomes, inputs, <- here, came, zips, Function.update_self, half, read]
  have awaits {context : FutureId} {side : Bool} (apart : ¬(context = out ∧ side = isSecond))
      (before : (s.push [.run f (.zip out isSecond)]).Awaits context side) :
      s.Awaits context side := by
    rcases before with ⟨task, mem, reporting⟩ | waits
    · rcases List.mem_cons.mp mem with rfl | mem
      · have same := Continuation.zip.inj reporting
        exact absurd ⟨same.1.symm, same.2.symm⟩ apart
      · exact .inl ⟨task, mem, reporting⟩
    · exact .inr waits
  have still {context : FutureId} {side : Bool} (before : s.Awaits context side) :
      after.Awaits context side := by
    rcases before with ⟨task, mem, reporting⟩ | waits
    · refine .inl ⟨task, ?_, reporting⟩
      rw [stack]
      exact List.mem_append_right _ mem
    · rw [<- waiting] at waits
      exact .inr waits
  have stays {context : FutureId} {side : Bool} (apart : ¬(context = out ∧ side = isSecond)) :
      (after.zips context).half side = (s.zips context).half side := by
    rw [zips]
    by_cases mine : context = out
    · have side : side = !isSecond := Bool.eq_not.mpr fun equal => apart ⟨mine, equal⟩
      rw [mine, side, Function.update_self, other]
    · rw [Function.update_of_ne mine]
  have halves : forall context one two zipper side, context < s.count ->
      labels.net context = .zip one two zipper -> after.Awaits context side ∨
        after.outcome ((after.zips context).input side) =
          some ((after.zips context).half side).outcome := by
    intro context one two zipper side made net
    by_cases here : context = out ∧ side = isSecond
    · rw [here.1, here.2]
      exact .inr mine
    · rcases ok.settled.halves context one two zipper side made net with before | reported
      · exact .inl (still (awaits here before))
      · rw [outcomes, inputs, stays here]
        exact .inr reported
  -- The last report is the only one, so the other half is there.
  have both (last : (s.zips out).remaining = 1) (side : Bool) :
      labels.meaning after ((after.zips out).input side) =
        some ((after.zips out).half side).outcome := by
    have stored : after.outcome ((after.zips out).input side) =
        some ((after.zips out).half side).outcome := by
      by_cases equal : side = isSecond
      · rw [equal]
        exact mine
      · rcases ok.settled.halves out first second zipper side inside net with before | reported
        · have held := Recorded.half_of_awaits (awaits (fun both => equal both.2) before)
          have balanced := ok.sound.balanced (.half out)
          rw [State.held_push, State.extra_push, State.total_push] at balanced
          simp only [State.extra, State.total, last, Task.resources, Continuation.resources,
            List.flatMap_singleton, List.count_append, List.count_singleton_self] at balanced
          omega
        · rw [outcomes, inputs, stays fun both => equal both.2]
          exact reported
    rw [outcomes] at stored
    exact advances.grows.meaning (ok.means stored)
  refine ok.settled.change ok.sound advances ?_ ?_ stack ?_ ?_ ?_ ?_ (by simp) ?_ ?_ ?_
  · rw [futures]
    exact ok.settled.tokens
  · intro g outside client
    rw [(later.fresh g (count.symm ▸ outside)).promise] at client
    cases client
  · intro task mem
    rcases only with rfl | ⟨last, one, two, rfl⟩
    · cases mem
    · rw [List.mem_singleton.mp mem]
      have nets := ok.settled.inputs out first second zipper inside net
      refine ⟨count.symm ▸ inside, first, second, zipper, net, ?_, ?_⟩
      · rw [nets.1]
        exact (congrArg (labels.meaning after) (inputs out false)).symm.trans (both last false)
      · rw [nets.2]
        exact (congrArg (labels.meaning after) (inputs out true)).symm.trans (both last true)
  · rintro context one two (mem | mem)
    · exact elsewhere mem List.mem_cons_self
    · exact elsewhere mem List.mem_cons_self
  · refine Task.paired_plain fun task mem => ?_
    rcases only with rfl | ⟨_, one, two, rfl⟩
    · cases mem
    · rw [List.mem_singleton.mp mem]
      trivial
  · intro context result mem
    rcases only with rfl | ⟨_, one, two, rfl⟩ <;> simp at mem
  · intro g mem
    rcases only with rfl | ⟨_, one, two, rfl⟩ <;> simp at mem
  · intro context one two zipper made net
    have nets := ok.settled.inputs context one two zipper (count ▸ made) net
    exact ⟨nets.1.trans (congrArg labels.net (inputs context false)).symm,
      nets.2.trans (congrArg labels.net (inputs context true)).symm⟩
  · intro context one two zipper side made
    exact halves context one two zipper side (count ▸ made)

theorem runZip {isSecond : Bool} (ok : Poised labels s (.run f (.zip out isSecond))) :
    Settled labels (perform s (.run f (.zip out isSecond))) := by
  generalize same : perform s (.run f (.zip out isSecond)) = after
  have unfolded := same
  simp only [perform, runContinuation] at unfolded
  revert unfolded
  generalize stored : (if isSecond = true then
    { s.zips out with second := (s.futures f).result }
      else { s.zips out with first := (s.futures f).result }) = zip
  have input : forall side, zip.input side = (s.zips out).input side := by
    rw [<- stored]
    cases isSecond <;> exact fun _ => rfl
  have half : zip.half isSecond = (s.futures f).result := by
    rw [<- stored]
    cases isSecond <;> rfl
  have other : zip.half (!isSecond) = (s.zips out).half (!isSecond) := by
    rw [<- stored]
    cases isSecond <;> rfl
  split <;> rintro unfolded
  · rename_i last
    have stack : after.stack =
        [.zipComplete out (s.zips out).firstFuture (s.zips out).secondFuture] ++ s.stack := by
      rw [<- unfolded]
      rfl
    refine ok.report { zip with remaining := (s.zips out).remaining - 1 } input half other ?_ ?_ ?_
      stack (.inr ⟨last, _, _, rfl⟩) same <;> rw [<- unfolded] <;> rfl
  · have stack : after.stack = [] ++ s.stack := by
      rw [<- unfolded]
      rfl
    refine ok.report { zip with remaining := (s.zips out).remaining - 1 } input half other ?_ ?_ ?_
      stack (.inl rfl) same <;> rw [<- unfolded] <;> rfl

theorem run {continuation : Continuation} (ok : Poised labels s (.run f continuation)) :
    Settled labels (perform s (.run f continuation)) := by
  cases continuation with
  | observe =>
      refine ok.swap (ok.passes nofun nofun) rfl rfl ?_ (by simp [Task.IsPlain]) (by simp)
        (by simp [Task.reports])
      intro other mem
      rw [List.mem_singleton.mp mem]
      trivial
  | map out freeValue => exact ok.runMap
  | flatMap out token => exact ok.runFlatMap
  | onError out => exact ok.runOnError
  | doOnSuccess out => exact ok.runDoOnSuccess
  | moveChain out => exact ok.runMoveChain
  | zip out isSecond => exact ok.runZip
  | group kind out => exact ok.fits.2.elim

theorem setResult {result : Result} (ok : Poised labels s (.setResult f result)) :
    Settled labels (perform s (.setResult f result)) := by
  have passes := ok.passes nofun nofun
  revert passes
  simp only [perform]
  split <;> intro passes
  · exact ok.done passes (State.stack_destroyValue s result) (State.waiting_destroyValue s result)
      (by simp) (by simp [Task.reports])
  · refine ok.swap passes rfl rfl ?_ (by simp [Task.IsPlain]) (by simp) (by simp [Task.reports])
    intro other mem
    rw [List.mem_singleton.mp mem]
    exact fun internal => passes.grows.meaning (ok.fits internal)

/-- What waits goes on waiting. -/
theorem awaits_of_waiting {task : Task} (s after : State) (waiting : after.waiting = s.waiting)
    (quiet : forall out isSecond, ¬task.reports out isSecond) (out : FutureId) (isSecond : Bool)
    (before : task.reports out isSecond ∨ Exists fun f => (f, .zip out isSecond) ∈ s.waiting) :
    after.Awaits out isSecond := by
  rcases before with reporting | waits
  · exact absurd reporting (quiet out isSecond)
  · rw [<- waiting] at waits
    exact .inr waits

theorem destroyPromise (ok : Poised labels s (.destroyPromise f)) :
    Settled labels (perform s (.destroyPromise f)) := by
  have passes := ok.passes nofun nofun
  have ending {tasks : List Task} (mem : .releasePromise f ∈ tasks) (rest : State)
      (stack : rest.stack = tasks ++ s.stack) (out : FutureId)
      (same : Task.destroyPromise f = .destroyPromise out ∨
        Task.destroyPromise f = .releasePromise out) :
      rest.Ending out := by
    rcases same with same | impossible
    · cases same
      refine .inr (.inr ?_)
      rw [stack]
      exact List.mem_append_left _ mem
    · cases impossible
  have quiet : forall out isSecond, ¬(Task.destroyPromise f).reports out isSecond := by
    simp [Task.reports]
  revert passes
  simp only [perform]
  split <;> intro passes
  · exact ok.exchange passes rfl (by simp [Labels.Fits]) (fun _ => trivial) (by simp)
      (ending List.mem_cons_self _ rfl) (by simp)
      (awaits_of_waiting s (s.push _) rfl quiet)
  · rename_i unset
    refine ok.exchange passes rfl ?_ (fun _ => trivial) (by simp)
      (ending (List.mem_cons_of_mem _ List.mem_cons_self) _ rfl) (by simp)
      (awaits_of_waiting s ((s.fulfil f).push _) rfl quiet)
    intro other mem
    simp only [List.mem_cons, List.not_mem_nil, or_false] at mem
    rcases mem with rfl | rfl
    · exact fun internal => absurd (ok.settled.paired.1 internal) unset
    · trivial

theorem waiting_unref (sound : Sound (s.push [.release f])) : (s.unref f).waiting = s.waiting := by
  simp only [State.unref]
  split
  · rename_i one
    have last := sound.last one
    exact List.filter_eq_self.mpr fun entry mem => by simpa using last.waits entry mem
  · rfl

theorem promises_unref (s : State) (f : FutureId) : (s.unref f).promises = s.promises := by
  simp only [State.unref, State.destroyValue]
  split
  · split <;> rfl
  · rfl

theorem releasePromise (ok : Poised labels s (.releasePromise f)) :
    Settled labels (perform s (.releasePromise f)) := by
  have passes := ok.passes nofun nofun
  have stack : (perform s (.releasePromise f)).stack = [] ++ s.stack := Guarded.stack_unref _ f
  have waiting : (perform s (.releasePromise f)).waiting = s.waiting :=
    waiting_unref ok.sound.endPromise
  refine ok.exchange passes stack nofun (fun _ => trivial) nofun ?_ nofun
    (awaits_of_waiting s _ waiting (by simp [Task.reports]))
  rintro out (impossible | same)
  · cases impossible
  · cases same
    refine .inl ?_
    simp [perform, promises_unref, State.setPromise]

theorem release (ok : Poised labels s (.release f)) : Settled labels (perform s (.release f)) :=
  ok.done (ok.passes nofun nofun) (Guarded.stack_unref s f) (waiting_unref ok.sound) (by simp)
    (by simp [Task.reports])

theorem complete {result : Result} (ok : Poised labels s (.complete f result)) :
    Settled labels (perform s (.complete f result)) := by
  have passes := ok.passes nofun nofun
  have unregistered : (s.futures f).cancelHandle = false := by
    have handles : (s.push [.complete f result]).stack.count (.attached f) +
        (s.futures f).cancelHandle.toNat ≤ (s.futures f).cancelToken.isSome.toNat :=
      ok.sound.handles f
    have token : (s.futures f).cancelToken = none := ok.settled.tokens f
    rw [token, Option.isSome_none, Bool.toNat_false] at handles
    exact Bool.toNat_eq_zero.mp (by omega)
  revert passes
  simp only [perform, unregistered, Bool.false_eq_true, if_false]
  split <;> intro passes
  · exact ok.done passes (State.stack_destroyValue s result) (State.waiting_destroyValue s result)
      (by simp) (by simp [Task.reports])
  · refine ok.swap passes rfl rfl ?_ (by simp [Task.IsPlain]) (by simp) (by simp [Task.reports])
    intro other mem
    rw [List.mem_singleton.mp mem]
    refine ⟨result.outcome, ?_⟩
    simp [State.outcome, State.push, State.setFuture]

theorem drain (ok : Poised labels s (.drain f)) : Settled labels (perform s (.drain f)) := by
  have passes := ok.passes nofun nofun
  refine ok.exchange passes rfl ?_ (Task.paired_plain ?_) ?_ (by simp) ?_ ?_
  · intro other mem
    rcases List.mem_map.mp mem with ⟨⟨g, continuation⟩, inside, rfl⟩
    rcases List.mem_filter.mp inside with ⟨waits, here⟩
    have same : g = f := by simpa using here
    rw [same] at waits
    have feeds := ok.settled.waits f continuation waits
    exact ⟨passes.grows.hasOutcome ok.fits, passes.grows.feeds feeds⟩
  · intro other mem
    rcases List.mem_map.mp mem with ⟨entry, _, rfl⟩
    trivial
  · intro out result mem
    rcases List.mem_map.mp mem with ⟨entry, _, impossible⟩
    cases impossible
  · intro g mem
    rcases List.mem_map.mp mem with ⟨entry, _, impossible⟩
    cases impossible
  · rintro out isSecond (impossible | ⟨g, waits⟩)
    · exact impossible.elim
    · by_cases here : g = f
      · refine .inl ⟨.run f (.zip out isSecond), ?_, rfl⟩
        refine List.mem_append_left _ (List.mem_map.mpr ⟨(g, .zip out isSecond), ?_, rfl⟩)
        exact List.mem_filter.mpr ⟨waits, by simpa using here⟩
      · exact .inr ⟨g, List.mem_filter.mpr ⟨waits, by simpa using here⟩⟩

theorem register {continuation : Continuation} (ok : Poised labels s (.register f continuation)) :
    Settled labels (perform s (.register f continuation)) := by
  have passes := ok.passes (by simp) (by simp)
  revert passes
  simp only [perform]
  split <;> intro passes
  · rename_i ready
    have completed : (s.futures f).isCompleted = true := ready.elim id (ok.sound.closed f)
    have has : s.HasOutcome f := by
      have record : (s.futures f).isCompleted = (s.futures f).completed.isSome :=
        ok.recorded.record f
      rw [completed] at record
      rcases Option.isSome_iff_exists.mp record.symm with ⟨result, came⟩
      exact ⟨result.outcome, by simp only [State.outcome, came, Option.map_some]⟩
    refine ok.exchange passes rfl ?_ (fun _ => trivial) (by simp) (by simp) (by simp) ?_
    · intro other mem
      rw [List.mem_singleton.mp mem]
      exact ⟨has, ok.fits⟩
    · rintro out isSecond (reporting | waits)
      · exact .inl ⟨_, List.mem_cons_self, reporting⟩
      · exact .inr waits
  · have stack : ({ s with waiting := (f, continuation) :: s.waiting } : State).stack =
        [] ++ s.stack := rfl
    refine ok.exchange passes stack (by simp) (fun _ => trivial) (by simp) (by simp) (by simp) ?_
    rintro out isSecond (reporting | ⟨g, waits⟩)
    · change continuation = .zip out isSecond at reporting
      rw [reporting]
      exact .inr ⟨f, List.mem_cons_self⟩
    · exact .inr ⟨g, List.mem_cons_of_mem _ waits⟩

theorem claimInner {inner : FutureId} (ok : Poised labels s (.claimInner out inner)) :
    Settled labels (perform s (.claimInner out inner)) := by
  rcases ok.fits with ⟨use, internal, continues⟩
  have passes := ok.passes nofun nofun
  have serves : (Task.claimInner out inner).Serves out := ⟨List.mem_cons_self, nofun, nofun⟩
  have unconsumed := ok.unconsumed (.inr use) internal serves (by simp [Task.resources])
  simp only [perform, unconsumed, Bool.false_eq_true, if_false] at passes ⊢
  refine ok.swap passes rfl rfl ?_ (by simp [Task.IsPlain]) (by simp) (by simp [Task.reports])
  intro other mem
  simp only [List.mem_cons, List.not_mem_nil, or_false] at mem
  rcases mem with rfl | rfl
  · exact ⟨use, internal, continues.later passes.grows.known⟩
  · trivial

theorem claimInput (ok : Poised labels s (.claimInput f out)) :
    Settled labels (perform s (.claimInput f out)) := by
  rcases ok.fits with ⟨use, internal, outcome, came, means⟩
  have passes := ok.passes nofun nofun
  have serves : (Task.claimInput f out).Serves out := ⟨List.mem_cons_self, nofun, nofun⟩
  have unconsumed := ok.unconsumed (.inl use) internal serves (by simp [Task.resources])
  have read := ok.read_served came (.inl use) internal serves
  simp only [perform, unconsumed, Bool.false_eq_true, if_false] at passes ⊢
  refine ok.conclude passes serves rfl rfl ?_ (by simp [Labels.Fits]) ?_ (by simp [Task.reports])
  · rw [read]
    exact means
  · intro other mem
    exact .inr ⟨f, List.mem_singleton.mp mem, .inl use⟩

theorem inherit (ok : Poised labels s (.inherit f out)) :
    Settled labels (perform s (.inherit f out)) := by
  have passes := ok.passes nofun nofun
  have token : (s.futures f).cancelToken = none := ok.settled.tokens f
  simp only [perform, token] at passes ⊢
  exact ok.done passes rfl rfl (by simp) (by simp [Task.reports])

/-- The halves of a zip, with the error of the first before that of the second. -/
theorem zip_outcome (zip : Zip)
    (zipper : Option ValueId -> Option ValueId -> Except Int (Option ValueId)) :
    (zip.first.outcome >>= fun value => zip.second.outcome >>= zipper value) =
      match zipError zip with
      | some error => .error error
      | none => zipper zip.first.value zip.second.value := by
  unfold zipError
  by_cases first : zip.first.error = 0
  · rw [outcome_ok first]
    by_cases second : zip.second.error = 0
    · rw [outcome_ok second]
      simp only [first, second, ne_eq, not_true, if_false]
      rfl
    · rw [outcome_error second]
      simp only [first, second, ne_eq, not_true, not_false_eq_true, if_false, if_true]
      rfl
  · rw [outcome_error first]
    simp only [first, ne_eq, not_false_eq_true, if_true]
    rfl

theorem zipError_ne_zero {zip : Zip} {error : Int} (reported : zipError zip = some error) :
    error ≠ 0 := by
  unfold zipError at reported
  split at reported
  · rename_i failed
    cases reported
    exact failed
  · split at reported
    · rename_i failed
      cases reported
      exact failed
    · cases reported

theorem zipComplete {first second : FutureId}
    (ok : Poised labels s (.zipComplete out first second)) :
    Settled labels (perform s (.zipComplete out first second)) := by
  rcases ok.fits with ⟨inside, one, two, zipper, net, left, right⟩
  have means : labels.meaning s out = some ((s.zips out).first.outcome >>= fun value =>
      (s.zips out).second.outcome >>= zipper value) := by
    simp only [Labels.meaning, net, Net.eval, left, right]
  rw [zip_outcome] at means
  have passes := ok.passes (by simp) (by simp)
  revert passes
  simp only [perform]
  split <;> intro passes
  · rename_i error reported
    have serves : (Task.zipComplete out first second).Serves out :=
      ⟨List.mem_cons_self, (by simp), (by simp)⟩
    refine ok.conclude passes serves rfl rfl ?_ (by simp [Labels.Fits]) (by simp [Task.IsPlain])
      (by simp [Task.reports])
    rw [means, reported, outcome_ofError (zipError_ne_zero reported)]
  · rename_i fine
    refine ok.swap passes rfl rfl ?_ (by simp [Task.IsPlain]) (by simp) (by simp [Task.reports])
    intro other mem
    rw [List.mem_singleton.mp mem]
    have errors : (s.zips out).first.error = 0 ∧ (s.zips out).second.error = 0 := by
      unfold zipError at fine
      split at fine
      · cases fine
      · rename_i first
        split at fine
        · cases fine
        · rename_i second
          exact ⟨not_not.mp first, not_not.mp second⟩
    rw [outcome_ok errors.1] at left
    rw [outcome_ok errors.2] at right
    exact ⟨inside, one, two, zipper, net, left, right⟩

theorem perform {task : Task} (ok : Poised labels s task)
    (runs : forall callback, task ≠ .callback callback) :
    Settled labels (Operator.perform s task) := by
  cases task with
  | setResult f result => exact ok.setResult
  | destroyPromise f => exact ok.destroyPromise
  | releasePromise f => exact ok.releasePromise
  | complete f result => exact ok.complete
  | drain f => exact ok.drain
  | run f continuation => exact ok.run
  | release f => exact ok.release
  | register f continuation => exact ok.register
  | claimInner out inner => exact ok.claimInner
  | claimInput f out => exact ok.claimInput
  | inherit f out => exact ok.inherit
  | zipComplete out first second => exact ok.zipComplete
  | attach f token | attached f | unregister f | dropNode f | loop kind out entries
  | subtract kind out refused => exact ok.fits.elim
  | zero f | deliver out | leave arguments | leaveSet f =>
      exact ok.done (ok.passes (by simp) (by simp)) rfl rfl (by simp) (by simp [Task.reports])
  | callback client => exact absurd rfl (runs client)

end Poised

/-! ## Callbacks return -/

theorem value_of_outcome {result : Result} {value : Option ValueId}
    (fine : result.outcome = .ok value) : result.value = value := by
  unfold Result.outcome at fine
  split at fine
  · exact Except.ok.inj fine
  · cases fine

theorem error_of_outcome {result : Result} {error : Int} (failed : result.outcome = .error error) :
    result.error = error ∧ error ≠ 0 := by
  unfold Result.outcome at failed
  split at failed
  · cases failed
  · rename_i other
    cases failed
    exact ⟨rfl, other⟩

namespace Poised

variable {s : State} {callback : Callback} {reply : Reply}

theorem passes_answer (ok : Poised labels s (.callback callback)) (reply : Reply) :
    Passes s (afterCallback s callback reply) (.callback callback) := by
  rcases still_afterCallback s callback reply with ⟨count, promises, zips, _⟩
  have futures := futures_afterCallback s callback reply
  have outcomes : forall f, (afterCallback s callback reply).outcome f = s.outcome f := by
    intro f
    simp only [State.outcome, futures]
  refine ⟨⟨⟨Nat.le_of_eq count.symm, ?_, ?_⟩, Spares.afterCallback s callback reply,
    .still promises zips futures, ?_⟩, count, ?_, ?_, ?_⟩
  · intro f outcome
    rw [outcomes]
    exact id
  · intro out isSecond _
    rw [zips]
  · intro f outcome
    rw [outcomes]
    exact .inl
  · rw [futures]
    exact fun _ => id
  · intro f outside
    have blank : s.promises f = start.promises f := (ok.sound.fresh f outside).promise
    rw [promises, blank]
    rfl
  · intro out _
    rw [zips]

theorem answerMapper {f out : FutureId} {freeValue : Bool}
    (ok : Poised labels s (.callback (.mapper f out freeValue)))
    (answers : labels.Answers s reply (.mapper f out freeValue)) :
    Settled labels (afterCallback s (.mapper f out freeValue) reply) := by
  rcases ok.fits with ⟨shared, mapper, value, net, came⟩
  rcases answers with ⟨input, function, produces, label, rfl, returns⟩
  rw [net] at label
  cases label
  have serves : (Task.callback (.mapper f out freeValue)).Serves out :=
    ⟨List.mem_cons_self, (by simp), (by simp)⟩
  have stack : (afterCallback s (.mapper f out freeValue) (.value produces)).stack =
      finish out (produced produces freeValue) ++ [] ++ s.stack := by
    simp [afterCallback, State.push]
  refine ok.conclude (ok.passes_answer _) serves stack (still_afterCallback _ _ _).2.2.2 ?_ (by simp)
    (by simp) (by simp [Task.reports])
  have known : (labels.net f).eval (labels.known s) = some (.ok value) := ok.means came
  rw [<- returns, value_of_outcome (ok.read_shared came shared)]
  simp only [Labels.meaning, net, Net.eval, known, Option.map_some]
  rfl

theorem answerZipper {out first second : FutureId}
    (ok : Poised labels s (.callback (.zipper out first second)))
    (answers : labels.Answers s reply (.zipper out first second)) :
    Settled labels (afterCallback s (.zipper out first second) reply) := by
  rcases ok.fits with ⟨inside, one, two, zipper, net, left, right⟩
  rcases answers with ⟨_, _, function, produces, label, rfl, returns⟩
  rw [net] at label
  cases label
  have serves : (Task.callback (.zipper out first second)).Serves out :=
    ⟨List.mem_cons_self, nofun, nofun⟩
  have stack : (afterCallback s (.zipper out first second) (.value produces)).stack =
      finish out (produced produces (s.zips out).freeValue) ++ [.release first, .release second] ++
        s.stack := by
    simp [afterCallback, State.push, zipFinish]
  refine ok.conclude (ok.passes_answer _) serves stack (still_afterCallback _ _ _).2.2.2 ?_
    (by simp [Labels.Fits]) (by simp [Task.IsPlain]) (by simp [Task.reports])
  rw [<- returns]
  have known : one.eval (labels.known s) = some (.ok (s.zips out).first.value) := left
  have known' : two.eval (labels.known s) = some (.ok (s.zips out).second.value) := right
  simp only [Labels.meaning, net, Net.eval, known, known']
  rfl

/-- A callback returns a future, or NULL. -/
theorem answerFuture {out : FutureId} {error : Int} {net : Net Source (Option ValueId) Int}
    (ok : Poised labels s (.callback callback)) (serves : (Task.callback callback).Serves out)
    (internal : labels.Internal out) (failed : error ≠ 0)
    (continues : Net.Continues (labels.known s) (labels.net out) net)
    (returns : labels.Returns out error net reply)
    (missing : reply = .future none -> (afterCallback s callback reply).stack =
      finish out (.ofError error) ++ s.stack)
    (chained : forall inner, reply = .future (some inner) ->
      (afterCallback s callback reply).stack = [.claimInner out inner] ++ s.stack) :
    Settled labels (afterCallback s callback reply) := by
  have passes := ok.passes_answer reply
  cases reply with
  | nothing | value value => exact returns.elim
  | future inner =>
      cases inner with
      | none =>
          refine ok.conclude passes serves ((missing rfl).trans (nothing_more _ _))
            (still_afterCallback _ _ _).2.2.2 ?_ nofun nofun (by simp [Task.reports])
          have same : net = .constant (.error error) := returns
          rw [outcome_ofError failed]
          refine continues.same.trans ?_
          rw [same]
          rfl
      | some inner =>
          refine ok.swap passes (chained inner rfl) (still_afterCallback _ _ _).2.2.2 ?_
            (by simp [Task.IsPlain]) (by simp) (by simp [Task.reports])
          intro other mem
          rw [List.mem_singleton.mp mem]
          refine ⟨returns.1, internal, ?_⟩
          rw [returns.2]
          exact continues.later passes.grows.known

theorem answer (ok : Poised labels s (.callback callback))
    (replied : replies (s.push [.callback callback]) callback reply)
    (answers : labels.Answers s reply callback) :
    Settled labels (afterCallback s callback reply) := by
  have quiet : forall out isSecond, ¬(Task.callback callback).reports out isSecond := by
    simp [Task.reports]
  cases callback with
  | observer f | cancelled => exact ok.done (ok.passes_answer reply) rfl rfl (by simp) quiet
  | mapper f out freeValue => exact ok.answerMapper answers
  | zipper out first second => exact ok.answerZipper answers
  | action f out =>
      have fits := ok.fits
      rcases fits with ⟨use, net, outcome, came⟩
      refine ok.swap (ok.passes_answer reply) rfl rfl ?_ (by simp [Task.IsPlain]) (by simp) quiet
      intro other mem
      rw [List.mem_singleton.mp mem]
      have known : (labels.net f).eval (labels.known s) = some outcome := ok.means came
      refine ⟨use, Labels.internal net (by simp), outcome, came, ?_⟩
      change (labels.net out).eval (labels.known s) = _
      simp only [net, Net.eval, known]
  | flatMapper f out token =>
      rcases ok.fits with ⟨rfl, shared, mapper, value, net, came⟩
      rcases answers with ⟨input, function, label, returns⟩
      rw [net] at label
      cases label
      rw [value_of_outcome (ok.read_shared came shared)] at returns
      have known : (labels.net f).eval (labels.known s) = some (.ok value) := ok.means came
      refine ok.answerFuture ⟨List.mem_cons_self, (by simp), (by simp)⟩ (Labels.internal net (by simp))
        (by decide) ?_ returns ?_ ?_
      · rw [net]
        exact .flatMap known
      · rintro rfl
        rfl
      · rintro inner rfl
        rfl
  | recovery f out =>
      rcases ok.fits with ⟨use, recovery, error, net, came⟩
      rcases answers with ⟨input, function, label, returns⟩
      rw [net] at label
      cases label
      have internal := Labels.internal net (by simp)
      have serves : (Task.callback (.recovery f out)).Serves out :=
        ⟨List.mem_cons_self, (by simp), (by simp)⟩
      have read := ok.read_served came (.inl use) internal serves
      rcases error_of_outcome read with ⟨same, failed⟩
      rw [same] at returns
      have known : (labels.net f).eval (labels.known s) = some (.error error) := ok.means came
      refine ok.answerFuture serves internal failed ?_ returns ?_ ?_
      · rw [net]
        exact .recover known
      · rintro rfl
        rw [<- same]
        rfl
      · rintro inner rfl
        rfl

end Poised

end Operator
end UfsrvRx
