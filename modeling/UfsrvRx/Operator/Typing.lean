import UfsrvRx.Operator.Effects

namespace UfsrvRx
namespace Operator

open Transition
open UfsrvRx.Future (Result ValueId epipe ecanceled einval)

/-!
# Types of values

Values are passed as `void *`, and each future has values of some type.  When the client completes
its promises with values of their types, its mappers and zippers return values of the types of
the outputs, and what is moved from one future to another one has the type of both, then no
callback is ever passed a value of a wrong type.
-/

/-- The values of each future. -/
abbrev Typing := FutureId -> ValueId -> Prop

namespace Typing

variable (types : Typing)

/-- The value of the result, if it has one, is of the type of the future. -/
def Fits (f : FutureId) (result : Result) : Prop :=
  forall value, result.value = some value -> types f value

/-- The values of the one future are values of the other one. -/
def Within (f out : FutureId) : Prop := forall value, types f value -> types out value

/-! ## The client -/

/-- What the client passes to a call, and what it moves by it. -/
def Passes (s : State) : Api -> Prop
  | .fromResult result => types.Fits s.count result
  | .setResult f result => types.Fits f result
  | .onError f | .doOnSuccess f => types.Within f s.count
  | .group .any entries => forall f, some f ∈ entries -> types.Within f s.count
  | _ => True

/-- What a callback returns. -/
def Returns (reply : Reply) : Callback -> Prop
  | .mapper _ out _ | .zipper out _ _ => forall value, reply = .value (some value) -> types out value
  | .flatMapper _ out _ | .recovery _ out =>
      forall inner, reply = .future (some inner) -> types.Within inner out
  | .observer _ | .action _ _ | .cancelled => True

def Respects (s : State) : Event -> Prop
  | .call api => types.Passes s api
  | .answer reply => forall callback rest, s.stack = .callback callback :: rest ->
      types.Returns reply callback
  | _ => True

/-! ## What is on its way -/

/-- What a continuation moves from the future. -/
def Moves (f : FutureId) : Continuation -> Prop
  | .onError out | .doOnSuccess out | .moveChain out | .group .any out => types.Within f out
  | _ => True

/-- What a task moves, or is about to complete. -/
def Carries : Task -> Prop
  | .setResult f result | .complete f result => types.Fits f result
  | .run f continuation | .register f continuation => types.Moves f continuation
  | .claimInner out f | .claimInput f out | .callback (.action f out) => types.Within f out
  | .loop .any out entries => forall f, some f ∈ entries -> types.Within f out
  | _ => True

end Typing

/-- Every outcome and every half of a zip has the type of its future. -/
structure Typed (types : Typing) (s : State) : Prop where
  outcomes : forall f result, (s.futures f).completed = some result -> types.Fits f result
  halves : forall out isSecond, types.Fits ((s.zips out).input isSecond) ((s.zips out).half isSecond)
  works : forall task, task ∈ s.stack -> types.Carries task
  waits : forall f continuation, (f, continuation) ∈ s.waiting -> types.Moves f continuation

namespace Typed

variable {types : Typing} {s after : State} {task : Task} {new : List Task}

theorem fits_ofError (f : FutureId) (error : Int) : types.Fits f (.ofError error) := nofun

theorem fits_zero (f : FutureId) : types.Fits f .zero := nofun

theorem fits_produced {f : FutureId} {value : Option ValueId} (freeValue : Bool)
    (fits : forall v, value = some v -> types f v) : types.Fits f (produced value freeValue) := by
  unfold produced
  split
  · exact fits_ofError f _
  · exact fits

theorem fits_within {f out : FutureId} {result : Result} (fits : types.Fits f result)
    (within : types.Within f out) : types.Fits out result :=
  fun value same => within value (fits value same)

theorem carries_finish {out : FutureId} {result : Result} (fits : types.Fits out result) :
    forall task, task ∈ finish out result -> types.Carries task := by
  simpa [finish, Typing.Carries] using fits

/-- The result of a future is its outcome, or was moved out. -/
theorem fits_result (ok : Typed types s) (recorded : Recorded ∅ s) (f : FutureId) :
    types.Fits f (s.futures f).result := by
  rw [recorded.result f]
  split
  · exact fits_zero f
  · cases came : (s.futures f).completed with
    | none => exact fits_zero f
    | some result => exact ok.outcomes f result came

/-- Tasks take the place of the first one. -/
theorem change (ok : Typed types (s.push [task])) (stack : after.stack = new ++ s.stack)
    (completed : forall f result, (after.futures f).completed = some result ->
      (s.futures f).completed = some result ∨ task = .complete f result)
    (waiting : forall f continuation, (f, continuation) ∈ after.waiting ->
      (f, continuation) ∈ s.waiting ∨ task = .register f continuation)
    (halves : forall out isSecond,
      types.Fits ((after.zips out).input isSecond) ((after.zips out).half isSecond))
    (carries : forall other, other ∈ new -> types.Carries other) : Typed types after := by
  have first : types.Carries task := ok.works task List.mem_cons_self
  refine ⟨?_, halves, ?_, ?_⟩
  · intro f result came
    rcases completed f result came with before | rfl
    · exact ok.outcomes f result before
    · exact first
  · intro other mem
    rw [stack] at mem
    rcases List.mem_append.mp mem with mem | mem
    · exact carries other mem
    · exact ok.works other (List.mem_cons_of_mem _ mem)
  · intro f continuation mem
    rcases waiting f continuation mem with before | rfl
    · exact ok.waits f continuation before
    · exact first

/-! ## Steps -/

/-- What may follow from a task carries what is of the right type. -/
theorem carries_yields (ok : Typed types (s.push [task])) (recorded : Recorded ∅ (s.push [task]))
    {other : Task} (yields : task.Yields s other) : types.Carries other := by
  have carries : types.Carries task := ok.works task List.mem_cons_self
  have result (f : FutureId) : types.Fits f (s.futures f).result := ok.fits_result recorded f
  have failed {out : FutureId} {error : Int} (mem : other ∈ finish out (.ofError error)) :
      types.Carries other := carries_finish (fits_ofError out error) other mem
  have moved {f out : FutureId} (within : types.Within f out)
      (mem : other ∈ finish out (s.futures f).result) : types.Carries other :=
    carries_finish (fits_within (result f) within) other mem
  cases task with
  | setResult f result | register f continuation =>
      cases yields
      exact carries
  | destroyPromise f | attach f t =>
      rcases yields with rfl | rfl
      · exact fits_ofError f _
      · trivial
  | complete f result =>
      rcases yields with rfl | rfl <;> trivial
  | drain f =>
      rcases yields with ⟨continuation, waits, rfl⟩
      exact ok.waits f continuation waits
  | run f continuation =>
      cases continuation with
      | observe | zip out isSecond =>
          cases yields
          trivial
      | map out freeValue | flatMap out token =>
          rcases yields with mem | rfl
          · exact failed mem
          · trivial
      | onError out =>
          rcases yields with rfl | rfl
          · trivial
          · exact carries
      | doOnSuccess out => rcases yields with rfl | rfl <;> exact carries
      | moveChain out =>
          rcases yields with mem | rfl
          · exact moved carries mem
          · trivial
      | group kind out =>
          cases kind with
          | all =>
              rcases yields with mem | rfl
              · exact failed mem
              · trivial
          | any =>
              rcases yields with mem | mem | rfl | rfl
              · exact failed mem
              · exact moved carries mem
              · trivial
              · trivial
  | unregister f | dropNode f | attached f =>
      cases yields
      trivial
  | claimInner out inner =>
      rcases yields with mem | rfl | rfl
      · exact failed mem
      · trivial
      · exact carries
  | claimInput f out =>
      rcases yields with mem | mem | rfl
      · exact failed mem
      · exact moved carries mem
      · trivial
  | inherit f out =>
      rcases yields with ⟨t, rfl⟩
      trivial
  | loop kind out entries =>
      rcases yields with ⟨f, mem, rfl⟩ | rfl | mem | rfl
      · cases kind with
        | all => trivial
        | any => exact carries f mem
      · cases kind with
        | all => trivial
        | any => exact fun f mem => carries f (List.mem_of_mem_tail mem)
      · exact failed mem
      · trivial
  | subtract kind out refused =>
      rcases yields with mem | mem
      · exact carries_finish (fits_zero out) other mem
      · exact failed mem
  | zipComplete out first second =>
      rcases yields with ⟨error, mem⟩ | rfl
      · rcases List.mem_append.mp mem with mem | mem
        · exact failed mem
        · rcases List.mem_pair.mp mem with rfl | rfl <;> trivial
      · trivial
  | releasePromise f | zero f | release f | deliver f | callback client | leave arguments
  | leaveSet f => exact yields.elim

/-- A half is the result of its input. -/
theorem halves_perform (ok : Typed types (s.push [task])) (recorded : Recorded ∅ (s.push [task]))
    (later : Sound (perform s task)) (out : FutureId) (isSecond : Bool) :
    types.Fits (((perform s task).zips out).input isSecond)
      (((perform s task).zips out).half isSecond) := by
  have before : types.Fits ((s.zips out).input isSecond) ((s.zips out).half isSecond) :=
    ok.halves out isSecond
  by_cases stores : Exists fun f => Exists fun side => task = .run f (.zip out side)
  · rcases stores with ⟨f, side, rfl⟩
    have input : f = (s.zips out).input side := recorded.fits _ List.mem_cons_self
    have result : types.Fits f (s.futures f).result := ok.fits_result recorded f
    simp only [perform, runContinuation]
    split <;> cases side <;> cases isSecond <;>
      simp [State.push, State.setZip, Zip.input, Zip.half] at before input result ⊢ <;>
      first | exact before | exact input ▸ result
  · by_cases inside : out < s.count
    · rw [(Handles.perform s task).zips out inside fun f side same => stores ⟨f, side, same⟩]
      exact before
    · have outside : (perform s task).count ≤ out :=
        (count_perform s task).symm ▸ Nat.le_of_not_lt inside
      rw [(later.fresh out outside).zip]
      cases isSecond <;> exact fits_zero _

theorem perform (ok : Typed types (s.push [task])) (sound : Sound (s.push [task]))
    (recorded : Recorded ∅ (s.push [task])) (later : Sound (Operator.perform s task)) :
    Typed types (Operator.perform s task) := by
  rcases yields_perform s task with ⟨new, stack, yields⟩
  refine ok.change stack ?_ (Spares.perform s task).waiting (ok.halves_perform recorded later)
    fun other mem => ok.carries_yields recorded (yields other mem)
  intro f result came
  rcases completed_perform sound recorded later f with same | ⟨_, other, completes, ended⟩
  · exact .inl (same.symm.trans came)
  · rw [ended] at came
    cases came
    exact .inr completes

/-! ## The client -/

/-- What the client's calls make. -/
theorem carries_enter (api : Api) (passes : types.Passes s api) :
    Exists fun new => (enter s api).stack = new ++ s.stack ∧
      forall other, other ∈ new -> types.Carries other := by
  cases api with
  | create | retain f | unregisterCallback t index => exact ⟨[], rfl, by simp⟩
  | fromResult result =>
      refine ⟨finish s.count result ++ [.deliver s.count], ?_, ?_⟩
      · simp only [enter, State.push, State.stack_give]
        rfl
      · exact List.forall_mem_append.mpr ⟨carries_finish passes, by simp [Typing.Carries]⟩
  | setResult f result =>
      refine ⟨[.setResult f result, .leaveSet f], ?_, ?_⟩
      · simp only [enter, State.push, State.stack_give]
      · exact List.forall_mem_cons.mpr ⟨passes, by simp [Typing.Carries]⟩
  | get f =>
      simp only [enter]
      split <;> exact ⟨[], rfl, by simp⟩
  | destroy f | observe f | map f freeValue | flatMap f | zip first second freeValue | attach f t
  | release f => exact ⟨_, rfl, by simp [Typing.Carries, Typing.Moves]⟩
  | onError f | doOnSuccess f =>
      have within : types.Within f s.count := passes
      exact ⟨_, rfl, by simp [Typing.Carries, Typing.Moves, within]⟩
  | group kind entries =>
      simp only [enter]
      split
      · exact ⟨_, rfl, List.forall_mem_append.mpr
          ⟨carries_finish (fits_zero s.count), by simp [Typing.Carries]⟩⟩
      · refine ⟨_, rfl, List.forall_mem_cons.mpr ⟨?_, by simp [Typing.Carries]⟩⟩
        cases kind with
        | all => trivial
        | any => exact passes
  | cancel t =>
      simp only [enter]
      split
      · exact ⟨[], rfl, by simp⟩
      · refine ⟨_, rfl, ?_⟩
        intro other mem
        rcases List.mem_flatMap.mp mem with ⟨node, _, mem⟩
        cases node with
        | none => simp_all [cancellation, Typing.Carries]
        | some f =>
            rcases List.mem_cons.mp mem with rfl | mem
            · exact fits_ofError f ecanceled
            · cases List.mem_singleton.mp mem
              trivial
  | registerCallback t =>
      simp only [enter]
      split
      · exact ⟨_, rfl, by simp [Typing.Carries]⟩
      · exact ⟨[], rfl, by simp⟩

/-- The halves of a new zip are empty. -/
theorem half_enter (sound : Sound s) (api : Api) {out : FutureId} (outside : s.count ≤ out)
    (isSecond : Bool) : ((enter s api).zips out).half isSecond = .zero := by
  have blank : (s.zips out).half isSecond = .zero := by
    rw [(sound.fresh out outside).zip]
    cases isSecond <;> rfl
  cases api with
  | zip first second freeValue =>
      by_cases new : out = s.count
      · subst new
        simp only [Operator.enter, State.push, State.retain, State.setFuture, State.setZip,
          Function.update_self]
        cases isSecond <;> rfl
      · simp only [Operator.enter, State.push, State.retain, State.setFuture, State.setZip,
          Function.update_of_ne new]
        exact blank
  | fromResult result | setResult f result =>
      simpa [Operator.enter, State.push, State.create, State.zips_give] using blank
  | get f | group kind entries | cancel t | registerCallback t =>
      simp only [Operator.enter]
      split <;> exact blank
  | _ => exact blank

theorem enter {api : Api} (ok : Typed types s) (sound : Sound s) (passes : types.Passes s api) :
    Typed types (Operator.enter s api) := by
  rcases carries_enter api passes with ⟨new, stack, carries⟩
  have completed := fun f => view_enter Cell.completed sound api (fun _ _ => rfl) (fun _ _ => rfl) f
  refine ⟨?_, ?_, ?_, ?_⟩
  · exact fun f result came => ok.outcomes f result ((completed f).symm.trans came)
  · intro out isSecond
    by_cases inside : out < s.count
    · rw [zips_enter s api inside]
      exact ok.halves out isSecond
    · rw [half_enter sound api (Nat.le_of_not_lt inside) isSecond]
      exact fits_zero _
  · intro other mem
    rw [stack] at mem
    rcases List.mem_append.mp mem with mem | mem
    · exact carries other mem
    · exact ok.works other mem
  · rw [waiting_enter]
    exact ok.waits

/-- What follows from the answer of a callback. -/
theorem answer {callback : Callback} {reply : Reply}
    (ok : Typed types (s.push [.callback callback]))
    (replied : replies (s.push [.callback callback]) callback reply)
    (returns : types.Returns reply callback) :
    Typed types (afterCallback s callback reply) := by
  have follows : Exists fun new => (afterCallback s callback reply).stack = new ++ s.stack ∧
      forall other, other ∈ new -> types.Carries other := by
    have failed (out : FutureId) (error : Int) :
        forall task, task ∈ finish out (.ofError error) -> types.Carries task :=
      carries_finish (fits_ofError out error)
    cases callback with
    | observer f | cancelled => exact ⟨[], rfl, by simp⟩
    | action f out =>
        have within : types.Within f out := ok.works _ List.mem_cons_self
        exact ⟨[.claimInput f out], rfl, List.forall_mem_singleton.mpr within⟩
    | mapper f out freeValue =>
        rcases replied with ⟨value, rfl⟩
        refine ⟨finish out (produced value freeValue), ?_, ?_⟩
        · simp only [afterCallback, State.push, State.stack_give]
        · refine carries_finish (fits_produced freeValue ?_)
          rintro v rfl
          exact returns v rfl
    | zipper out first second =>
        rcases replied with ⟨value, rfl⟩
        refine ⟨zipFinish out first second (produced value (s.zips out).freeValue), ?_, ?_⟩
        · simp only [afterCallback, State.push, State.stack_give]
        · refine List.forall_mem_append.mpr ⟨carries_finish (fits_produced _ ?_), ?_⟩
          · rintro v rfl
            exact returns v rfl
          · simp [Typing.Carries]
    | flatMapper f out token =>
        rcases replied with rfl | ⟨inner, rfl, _⟩
        · exact ⟨_, rfl, failed out _⟩
        · have within : types.Within inner out := returns inner rfl
          cases token with
          | none => exact ⟨[.claimInner out inner], rfl, List.forall_mem_singleton.mpr within⟩
          | some t => exact ⟨[.attach inner t, .claimInner out inner], rfl,
              List.forall_mem_cons.mpr ⟨trivial, List.forall_mem_singleton.mpr within⟩⟩
    | recovery f out =>
        rcases replied with rfl | ⟨inner, rfl, _⟩
        · exact ⟨_, rfl, failed out _⟩
        · have within : types.Within inner out := returns inner rfl
          exact ⟨[.claimInner out inner], rfl, List.forall_mem_singleton.mpr within⟩
  rcases follows with ⟨new, stack, carries⟩
  rcases still_afterCallback s callback reply with ⟨_, _, zips, _⟩
  refine ok.change stack ?_ (Spares.afterCallback s callback reply).waiting ?_ carries
  · rw [futures_afterCallback]
    exact fun f result came => .inl came
  · rw [zips]
    exact ok.halves

theorem next {event : Event} (ok : Typed types s) (reached : machine.Reachable s)
    (may : machine.enabled s event) (respects : types.Respects s event) :
    Typed types (Operator.next s event) := by
  have sound := reachable_sound reached
  have recorded := reachable_recorded reached
  have later : Sound (Operator.next s event) := reachable_sound (reached.step may)
  cases event with
  | step =>
      rcases may with ⟨task, rest, stack, runs⟩
      have pushed : ({ s with stack := rest } : State).push [task] = s := by
        simp only [State.push, List.cons_append, List.nil_append, <- stack]
      simp only [Operator.next, stack] at later ⊢
      exact Typed.perform (pushed ▸ ok) (pushed ▸ sound) (pushed ▸ recorded) later
  | call api => exact ok.enter sound respects
  | answer reply =>
      rcases may with ⟨callback, rest, stack, replied⟩
      have pushed : ({ s with stack := rest } : State).push [.callback callback] = s := by
        simp only [State.push, List.cons_append, List.nil_append, <- stack]
      simp only [Operator.next, stack]
      exact Typed.answer (pushed ▸ ok) (pushed ▸ replied) (respects callback rest stack)
  | resume f | abandon f => exact ⟨ok.outcomes, ok.halves, ok.works, ok.waits⟩

theorem start (types : Typing) : Typed types Operator.start where
  outcomes := nofun
  halves := by
    intro out isSecond
    cases isSecond <;> exact fits_zero _
  works := nofun
  waits := nofun

end Typed

theorem reachable_typed {types : Typing} {s : State}
    (reached : (machine.restrict types.Respects).Reachable s) : Typed types s := by
  refine reached.invariant (Typed types) ?_ ?_
  · rintro _ rfl
    exact .start types
  · intro before event reached ok enabled
    exact ok.next reached.of_restrict enabled.1 enabled.2

/-! ## No value is mistaken for another one -/

/-- What a callback is passed: the result of its future, or the two halves of its zip. -/
def Typing.Passed (types : Typing) (s : State) : Callback -> Prop
  | .observer f | .mapper f _ _ | .flatMapper f _ _ | .recovery f _ | .action f _ =>
      types.Fits f (s.futures f).result
  | .zipper out _ _ => types.Fits (s.zips out).firstFuture (s.zips out).first ∧
      types.Fits (s.zips out).secondFuture (s.zips out).second
  | .cancelled => True

/-- Every outcome has the type of its future, and every callback is passed values of the types of
its inputs. -/
theorem typeSound (types : Typing) {s : State}
    (reached : (machine.restrict types.Respects).Reachable s) :
    (forall f result, (s.futures f).completed = some result -> types.Fits f result) ∧
      forall callback, .callback callback ∈ s.stack -> types.Passed s callback := by
  have ok := reachable_typed reached
  have results := ok.fits_result (reachable_recorded reached.of_restrict)
  refine ⟨ok.outcomes, ?_⟩
  intro callback _
  cases callback with
  | observer f | mapper f out freeValue | flatMapper f out token | recovery f out | action f out =>
      exact results f
  | zipper out first second => exact ⟨ok.halves out false, ok.halves out true⟩
  | cancelled => trivial

/-- The input has the value 7 and the output of the map the value 8. -/
def byPlace : Typing := fun f value => value = 7 + f

def mappedByPlace : List Event :=
  [Event.call .create, .call (.map 0 true)] ++ List.replicate 4 Event.step ++
    [Event.call (.setResult 0 ⟨0, some 7, true⟩)] ++ List.replicate 4 Event.step ++
    [Event.answer (.value (some 8))] ++ List.replicate 6 Event.step

theorem typeSound_mappedByPlace :
    let s := machine.after start mappedByPlace
    (forall f result, (s.futures f).completed = some result -> byPlace.Fits f result) ∧
      forall callback, .callback callback ∈ s.stack -> byPlace.Passed s callback := by
  have may : (machine.restrict byPlace.Respects).AllEnabled start mappedByPlace := by
    repeat' first
      | exact trivial
      | apply And.intro
      | decide
      | (rintro _ ⟨⟩; rfl)
      | (rintro _ _ ⟨⟩ _ ⟨⟩; rfl)
  exact typeSound byPlace (.run (.start rfl) may.run)

end Operator
end UfsrvRx
