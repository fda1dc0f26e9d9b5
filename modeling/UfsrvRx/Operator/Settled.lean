import UfsrvRx.Operator.Effects
import UfsrvRx.Operator.Labels

namespace UfsrvRx
namespace Operator

open Transition
open UfsrvRx.Future (Result ValueId epipe ecanceled einval)

/-!
# What a step changes of a labelled network

Whatever a step does, outcomes stay, and a future that it completes has the outcome that the
labels say.  What is said of the tasks below the first one goes on to hold.
-/

variable {Source : Type} {labels : Labels Source}

/-! ## What stays -/

/-- Outcomes stay, and so do the inputs of a zip. -/
structure Grows (s after : State) : Prop where
  count : s.count ≤ after.count
  outcomes : forall f outcome, s.outcome f = some outcome -> after.outcome f = some outcome
  inputs : forall out isSecond, out < s.count ->
    (after.zips out).input isSecond = (s.zips out).input isSecond

namespace Grows

variable {s after : State}

theorem known (grows : Grows s after) : Net.Extends (labels.known s) (labels.known after) :=
  fun name outcome => grows.outcomes (labels.place name) outcome

theorem meaning (grows : Grows s after) {f : FutureId} {outcome : Except Int (Option ValueId)}
    (before : labels.meaning s f = some outcome) : labels.meaning after f = some outcome :=
  Net.eval_extends grows.known before

theorem hasOutcome (grows : Grows s after) {f : FutureId} (before : s.HasOutcome f) :
    after.HasOutcome f := by
  rcases before with ⟨outcome, same⟩
  exact ⟨outcome, grows.outcomes f outcome same⟩

theorem feeds (grows : Grows s after) {f : FutureId} {continuation : Continuation}
    (feeds : labels.Feeds s f continuation) : labels.Feeds after f continuation := by
  cases continuation with
  | moveChain out => exact ⟨feeds.1, feeds.2.1, feeds.2.2.later grows.known⟩
  | zip out isSecond =>
      rcases feeds with ⟨shared, input, inside, zipped⟩
      exact ⟨shared, input.trans (grows.inputs out isSecond inside).symm,
        Nat.lt_of_lt_of_le inside grows.count, zipped⟩
  | _ => exact feeds

theorem asked (grows : Grows s after) {callback : Callback} (asked : labels.Asked s callback)
    (zips : forall out first second, callback = .zipper out first second ->
      after.zips out = s.zips out) : labels.Asked after callback := by
  cases callback with
  | observer f | cancelled => trivial
  | mapper f out freeValue =>
      rcases asked with ⟨shared, mapper, value, net, read⟩
      exact ⟨shared, mapper, value, net, grows.outcomes f _ read⟩
  | flatMapper f out token =>
      rcases asked with ⟨free, shared, mapper, value, net, read⟩
      exact ⟨free, shared, mapper, value, net, grows.outcomes f _ read⟩
  | recovery f out =>
      rcases asked with ⟨use, recovery, error, net, read⟩
      exact ⟨use, recovery, error, net, grows.outcomes f _ read⟩
  | action f out => exact ⟨asked.1, asked.2.1, grows.hasOutcome asked.2.2⟩
  | zipper out left right =>
      rcases asked with ⟨inside, first, second, zipper, net, one, other⟩
      rw [<- zips out left right rfl] at one other
      exact ⟨Nat.lt_of_lt_of_le inside grows.count, first, second, zipper, net,
        Net.eval_extends grows.known one, Net.eval_extends grows.known other⟩

theorem fits (grows : Grows s after) {task : Task} (fits : labels.Fits s task)
    (zips : forall out first second, task = .zipComplete out first second ∨
      task = .callback (.zipper out first second) -> after.zips out = s.zips out) :
    labels.Fits after task := by
  cases task with
  | setResult f result | complete f result => exact fun internal => grows.meaning (fits internal)
  | drain f => exact grows.hasOutcome fits
  | run f continuation => exact ⟨grows.hasOutcome fits.1, grows.feeds fits.2⟩
  | register f continuation => exact grows.feeds fits
  | claimInput f out =>
      rcases fits with ⟨use, internal, outcome, read, means⟩
      exact ⟨use, internal, outcome, grows.outcomes f _ read, grows.meaning means⟩
  | claimInner out inner => exact ⟨fits.1, fits.2.1, fits.2.2.later grows.known⟩
  | zipComplete out left right =>
      rcases fits with ⟨inside, first, second, zipper, net, one, other⟩
      rw [<- zips out left right (.inl rfl)] at one other
      exact ⟨Nat.lt_of_lt_of_le inside grows.count, first, second, zipper, net,
        Net.eval_extends grows.known one, Net.eval_extends grows.known other⟩
  | callback client =>
      refine grows.asked fits ?_
      rintro out left right rfl
      exact zips out left right (.inr rfl)
  | _ => exact fits

end Grows

/-! ## One step -/

/-- What one step may change. -/
structure Advances (s after : State) (task : Task) : Prop where
  grows : Grows s after
  spares : Spares s after task
  handles : Handles s after task
  ended : forall f outcome, after.outcome f = some outcome -> s.outcome f = some outcome ∨
    Exists fun result => task = .complete f result ∧ result.outcome = outcome

namespace Advances

variable {s after : State} {task : Task}

theorem perform (sound : Sound (s.push [task])) (recorded : Recorded ∅ (s.push [task]))
    (later : Sound (Operator.perform s task)) : Advances s (Operator.perform s task) task := by
  have spares := Spares.perform s task
  have cases := completed_perform sound recorded later
  refine ⟨⟨spares.count, ?_, ?_⟩, spares, Handles.perform s task, ?_⟩
  · intro f outcome before
    rcases cases f with same | ⟨none, _⟩
    · simpa only [State.outcome, same] using before
    · simp [State.outcome, none] at before
  · exact fun out isSecond inside => input_perform s task out isSecond inside
  · intro f outcome read
    rcases cases f with same | ⟨_, result, completes, completed⟩
    · simp only [State.outcome, same] at read
      exact .inl read
    · refine .inr ⟨result, completes, ?_⟩
      simpa only [State.outcome, completed, Option.map_some, Option.some.injEq] using read

end Advances

/-! ## Keeping to the labels -/

theorem Labels.internal {f : FutureId} {net : Net Source (Option ValueId) Int}
    (same : labels.net f = net) (other : forall name, net ≠ .source name) : labels.Internal f :=
  fun name source => other name (same.symm.trans source)

/-- The label of a source says nothing. -/
theorem Labels.meaning_source {s : State} {f : FutureId} (source : ¬labels.Internal f) :
    labels.meaning s f = s.outcome f := by
  simp only [Labels.Internal, not_forall, not_not] at source
  rcases source with ⟨name, same⟩
  simp only [Labels.meaning, same, Net.eval, Labels.known, labels.unique f name same]

namespace Settled

variable {s after : State} {task : Task} {new : List Task}

/-- A result is set for promises that there are. -/
theorem spent_inside (sound : Sound s) {out : FutureId} (spent : s.Spent out) : out < s.count := by
  rcases spent with fulfilled | ⟨result, mem⟩
  · by_contra outside
    rw [(sound.fresh out (Nat.le_of_not_lt outside)).promise] at fulfilled
    cases fulfilled
  · exact sound.lt_count (sound.refcount_of_kept
      (sound.anchored.kept mem (List.mem_singleton.mpr rfl)))

/-- What was spent stays so. -/
theorem spent_later (sound : Sound (s.push [task])) (spares : Spares s after task)
    (stack : after.stack = new ++ s.stack) {out : FutureId} (spent : (s.push [task]).Spent out) :
    after.Spent out := by
  have inside : out < s.count := spent_inside sound spent
  rcases spent with fulfilled | ⟨result, mem⟩
  · exact .inl (spares.fulfilled out inside fulfilled)
  · rcases List.mem_cons.mp mem with same | mem
    · exact .inl (spares.sets out result same.symm)
    · refine .inr ⟨result, ?_⟩
      rw [stack]
      exact List.mem_append_right _ mem

/-- The first task is done, and others take its place. -/
theorem change (ok : Settled labels (s.push [task])) (sound : Sound (s.push [task]))
    (advances : Advances s after task)
    (tokens : forall f, (after.futures f).cancelToken = none)
    (clients : forall f, s.count ≤ f -> (after.promises f).isClient = true -> ¬labels.Internal f)
    (stack : after.stack = new ++ s.stack)
    (fits : forall other, other ∈ new -> labels.Fits after other)
    (apart : forall out first second, .zipComplete out first second ∈ s.stack ∨
      .callback (.zipper out first second) ∈ s.stack -> after.zips out = s.zips out)
    (paired : forall fulfilled, Task.Paired labels.Internal fulfilled new)
    (ends : forall out result, .setResult out result ∈ new -> labels.Internal out ->
      .destroyPromise out ∈ new)
    (ending : forall out, task = .destroyPromise out ∨ task = .releasePromise out ->
      after.Ending out)
    (zeros : forall f, .zero f ∈ new -> Exists fun out =>
      (labels.use f = .input out ∨ labels.use f = .inner out) ∧ after.Spent out)
    (inputs : forall out first second zipper, out < after.count ->
      labels.net out = .zip first second zipper ->
        first = labels.net (after.zips out).firstFuture ∧
          second = labels.net (after.zips out).secondFuture)
    (halves : forall out first second zipper isSecond, out < after.count ->
      labels.net out = .zip first second zipper -> after.Awaits out isSecond ∨
        after.outcome ((after.zips out).input isSecond) =
          some ((after.zips out).half isSecond).outcome) : Settled labels after where
  sources := by
    intro f client
    by_cases inside : f < s.count
    · exact ok.sources f (advances.handles.clients f inside client)
    · exact clients f (Nat.le_of_not_lt inside) client
  tokens := tokens
  settled := by
    intro f outcome _ read
    rcases advances.ended f outcome read with before | ⟨result, rfl, same⟩
    · refine advances.grows.meaning (ok.settled f outcome ?_ before)
      by_contra outside
      have blank : s.futures f = start.futures f := (sound.fresh f (Nat.le_of_not_lt outside)).cell
      simp only [State.outcome, blank] at before
      cases before
    · by_cases internal : labels.Internal f
      · rw [<- same]
        exact advances.grows.meaning (ok.fits _ List.mem_cons_self internal)
      · rw [Labels.meaning_source internal]
        exact read
  fits := by
    intro other mem
    rw [stack] at mem
    rcases List.mem_append.mp mem with mem | mem
    · exact fits other mem
    · have before : labels.Fits s other := ok.fits other (List.mem_cons_of_mem _ mem)
      refine advances.grows.fits before ?_
      rintro out first second (rfl | rfl)
      · exact apart out first second (.inl mem)
      · exact apart out first second (.inr mem)
  waits := by
    intro f continuation mem
    rcases advances.spares.waiting f continuation mem with waits | rfl
    · exact advances.grows.feeds (ok.waits f continuation waits)
    · exact advances.grows.feeds (ok.fits _ List.mem_cons_self)
  paired := by
    rw [stack]
    refine (paired _).append (ok.paired.tail ?_ advances.spares.sets)
    intro f _ fulfilled
    exact advances.spares.fulfilled f (spent_inside sound (.inl fulfilled)) fulfilled
  inputs := inputs
  halves := halves
  spent := by
    intro out internal spent
    have before : (s.push [task]).Spent out ∨ task = .destroyPromise out ∨
        .destroyPromise out ∈ new := by
      rcases spent with fulfilled | ⟨result, mem⟩
      · rcases advances.handles.fulfilled out fulfilled with fulfilled | ⟨result, rfl⟩ | same
        · exact .inl (.inl fulfilled)
        · exact .inl (.inr ⟨result, List.mem_cons_self⟩)
        · exact .inr (.inl same)
      · rw [stack] at mem
        rcases List.mem_append.mp mem with mem | mem
        · exact .inr (.inr (ends out result mem internal))
        · exact .inl (.inr ⟨result, List.mem_cons_of_mem _ mem⟩)
    have kept : forall other, other ∈ s.stack -> other ∈ after.stack := by
      intro other mem
      rw [stack]
      exact List.mem_append_right _ mem
    rcases before with spent | same | destroys
    · rcases ok.spent out internal spent with dead | mem | mem
      · exact .inl (advances.handles.dead out (spent_inside sound spent) dead)
      · rcases List.mem_cons.mp mem with same | mem
        · exact ending out (.inl same.symm)
        · exact .inr (.inl (kept _ mem))
      · rcases List.mem_cons.mp mem with same | mem
        · exact ending out (.inr same.symm)
        · exact .inr (.inr (kept _ mem))
    · exact ending out (.inl same)
    · refine .inr (.inl ?_)
      rw [stack]
      exact List.mem_append_left _ destroys
  moved := by
    have later {f : FutureId} (before : ((s.push [task]).futures f).isMoved = true ∨
        .zero f ∈ (s.push [task]).stack) : Exists fun out =>
          (labels.use f = .input out ∨ labels.use f = .inner out) ∧ after.Spent out := by
      rcases ok.moved f before with ⟨out, use, spent⟩
      exact ⟨out, use, spent_later sound advances.spares stack spent⟩
    rintro f (moved | mem)
    · rcases advances.handles.moved f moved with before | rfl
      · exact later (.inl before)
      · exact later (.inr List.mem_cons_self)
    · rw [stack] at mem
      rcases List.mem_append.mp mem with mem | mem
      · exact zeros f mem
      · exact later (.inr (List.mem_cons_of_mem _ mem))

end Settled

end Operator
end UfsrvRx
