import UfsrvRx.Operator.Reading

namespace UfsrvRx
namespace Operator

open Transition
open UfsrvRx.Future (Result ValueId epipe ecanceled einval)

/-!
# What a network of operators computes

In whatever order the sources complete and the calls are made, a completed future has the
outcome that its network has by the sources, and a future is pending between calls only if its
network has no outcome yet.
-/

variable {Source : Type} {labels : Labels Source}

/-! ## The client calls -/

theorem Advances.enter {s : State} (sound : Sound s) (api : Api) :
    Advances s (Operator.enter s api) (.leave []) := by
  have outcomes := fun f => view_enter (fun cell => cell.completed.map Result.outcome) sound api
    (fun _ _ => rfl) (fun _ _ => rfl) f
  have spares := Spares.enter sound api
  refine ⟨⟨spares.count, ?_, ?_⟩, spares, .enter sound api, ?_⟩
  · exact fun f outcome before => (outcomes f).trans before
  · intro out isSecond inside
    rw [zips_enter s api inside]
  · exact fun f outcome read => .inl ((outcomes f).symm.trans read)

namespace Poised

variable {s : State} {new : List Task}

theorem leaving (ok : Settled labels s) (sound : Sound s) (recorded : Recorded ∅ s)
    (runs : s.ClientRuns) : Poised labels s (.leave []) := by
  refine ⟨?_, sound.leaving runs.plain nofun, recorded.leaving⟩
  exact {
    sources := ok.sources
    tokens := ok.tokens
    settled := ok.settled
    fits := by
      intro other mem
      rcases List.mem_cons.mp mem with rfl | mem
      · trivial
      · exact ok.fits other mem
    waits := ok.waits
    paired := ok.paired
    inputs := ok.inputs
    halves := by
      intro out first second zipper isSecond inside net
      rcases ok.halves out first second zipper isSecond inside net with
        (⟨other, mem, reporting⟩ | waits) | reported
      · exact .inl (.inl ⟨other, List.mem_cons_of_mem _ mem, reporting⟩)
      · exact .inl (.inr waits)
      · exact .inr reported
    spent := by
      intro out internal spent
      have before : s.Spent out := by
        rcases spent with fulfilled | ⟨result, mem⟩
        · exact .inl fulfilled
        · exact .inr ⟨result, List.mem_of_ne_of_mem (by simp) mem⟩
      rcases ok.spent out internal before with dead | mem | mem
      · exact .inl dead
      · exact .inr (.inl (List.mem_cons_of_mem _ mem))
      · exact .inr (.inr (List.mem_cons_of_mem _ mem))
    moved := by
      intro f moved
      have before : (s.futures f).isMoved = true ∨ .zero f ∈ s.stack :=
        moved.imp_right (List.mem_of_ne_of_mem (by simp))
      rcases ok.moved f before with ⟨out, use, fulfilled | ⟨result, mem⟩⟩
      · exact ⟨out, use, .inl fulfilled⟩
      · exact ⟨out, use, .inr ⟨result, List.mem_cons_of_mem _ mem⟩⟩ }

/-- A call puts its first tasks on the stack, and may make a future. -/
theorem begins (ok : Poised labels s (.leave [])) (sound : Sound s) (api : Api)
    (stack : (enter s api).stack = new ++ s.stack)
    (fits : forall other, other ∈ new -> labels.Fits (enter s api) other)
    (paired : forall fulfilled, Task.Paired labels.Internal fulfilled new)
    (ends : forall out result, .setResult out result ∈ new -> labels.Internal out ->
      .destroyPromise out ∈ new)
    (zeros : forall f, .zero f ∉ new)
    (clients : forall f, s.count ≤ f -> ((enter s api).promises f).isClient = true ->
      ¬labels.Internal f)
    (zipped : forall out first second zipper, s.count ≤ out -> out < (enter s api).count ->
      labels.net out = .zip first second zipper ->
        (first = labels.net ((enter s api).zips out).firstFuture ∧
          second = labels.net ((enter s api).zips out).secondFuture) ∧
        forall isSecond, (enter s api).Awaits out isSecond) : Settled labels (enter s api) := by
  have advances := Advances.enter sound api
  refine ok.settled.change ok.sound advances ?_ clients stack fits ?_ paired ends (by simp)
    (fun f mem => absurd mem (zeros f)) ?_ ?_
  · intro f
    have same := view_enter Cell.cancelToken sound api (fun _ _ => rfl) (fun _ _ => rfl) f
    exact same.trans (ok.settled.tokens f)
  · rintro out first second (mem | mem)
    · have fits : labels.Fits s (.zipComplete out first second) :=
        ok.settled.fits _ (List.mem_cons_of_mem _ mem)
      exact zips_enter s api fits.1
    · have fits : labels.Fits s (.callback (.zipper out first second)) :=
        ok.settled.fits _ (List.mem_cons_of_mem _ mem)
      exact zips_enter s api fits.1
  · intro out first second zipper inside net
    by_cases before : out < s.count
    · rw [zips_enter s api before]
      exact ok.settled.inputs out first second zipper before net
    · exact (zipped out first second zipper (Nat.le_of_not_lt before) inside net).1
  · intro out first second zipper isSecond inside net
    by_cases before : out < s.count
    · rw [zips_enter s api before]
      rcases ok.settled.halves out first second zipper isSecond before net with
        (⟨other, mem, reporting⟩ | waits) | reported
      · rcases List.mem_cons.mp mem with rfl | mem
        · exact reporting.elim
        · refine .inl (.inl ⟨other, ?_, reporting⟩)
          rw [stack]
          exact List.mem_append_right _ mem
      · refine .inl (.inr ?_)
        rw [waiting_enter]
        exact waits
      · exact .inr (advances.grows.outcomes _ _ reported)
    · exact .inl ((zipped out first second zipper (Nat.le_of_not_lt before) inside net).2 isSecond)

/-- A call that makes no future. -/
theorem calls (ok : Poised labels s (.leave [])) (sound : Sound s) (api : Api)
    (count : (enter s api).count = s.count)
    (promises : forall f, ((enter s api).promises f).isClient = true ->
      (s.promises f).isClient = true)
    (stack : (enter s api).stack = new ++ s.stack)
    (fits : forall other, other ∈ new -> labels.Fits (enter s api) other)
    (paired : forall fulfilled, Task.Paired labels.Internal fulfilled new)
    (ends : forall out result, .setResult out result ∈ new -> ¬labels.Internal out)
    (zeros : forall f, .zero f ∉ new) : Settled labels (enter s api) := by
  refine ok.begins sound api stack fits paired ?_ zeros ?_ ?_
  · exact fun out result mem internal => absurd internal (ends out result mem)
  · exact fun f _ client => ok.settled.sources f (promises f client)
  · intro out first second zipper outside inside
    rw [count] at inside
    exact absurd inside (Nat.not_lt_of_le outside)

/-- A call that makes the output of an operator, or a completed future. -/
theorem makes (ok : Poised labels s (.leave [])) (sound : Sound s) (api : Api)
    (count : (enter s api).count = s.count + 1)
    (promises : (enter s api).promises = (s.create false).promises)
    (stack : (enter s api).stack = new ++ s.stack)
    (fits : forall other, other ∈ new -> labels.Fits (enter s api) other)
    (paired : forall fulfilled, Task.Paired labels.Internal fulfilled new)
    (ends : forall out result, .setResult out result ∈ new -> .destroyPromise out ∈ new)
    (zeros : forall f, .zero f ∉ new)
    (zipped : forall first second zipper, labels.net s.count = .zip first second zipper ->
      (first = labels.net ((enter s api).zips s.count).firstFuture ∧
        second = labels.net ((enter s api).zips s.count).secondFuture) ∧
      forall isSecond, (enter s api).Awaits s.count isSecond) : Settled labels (enter s api) := by
  refine ok.begins sound api stack fits paired ?_ zeros ?_ ?_
  · exact fun out result mem _ => ends out result mem
  · intro f outside client
    have blank := (sound.fresh f outside).promise
    rw [promises] at client
    simp only [State.create] at client
    by_cases here : f = s.count
    · rw [here, Function.update_self] at client
      cases client
    · rw [Function.update_of_ne here, blank] at client
      cases client
  · intro out first second zipper outside inside net
    have here : out = s.count := by omega
    rw [here] at net ⊢
    exact zipped first second zipper net

/-- An operator is built on a future. -/
theorem operator (ok : Poised labels s (.leave [])) (sound : Sound s) (api : Api) {f : FutureId}
    (continuation : FutureId -> Continuation)
    (same : enter s api = Operator.operator s f continuation)
    (feeds : labels.Feeds (enter s api) f (continuation s.count))
    (plain : forall first second zipper, labels.net s.count ≠ .zip first second zipper) :
    Settled labels (enter s api) := by
  have stack : (enter s api).stack =
      [.register f (continuation s.count), .inherit f s.count, .deliver s.count, .leave [f]] ++
        s.stack := by
    rw [same]
    rfl
  have count : (enter s api).count = s.count + 1 := by
    rw [same]
    rfl
  have promises : (enter s api).promises = (s.create false).promises := by
    rw [same]
    rfl
  refine ok.makes sound api count promises stack ?_ ?_ (by simp) (by simp) ?_
  · intro other mem
    simp only [List.mem_cons, List.not_mem_nil, or_false] at mem
    rcases mem with rfl | rfl | rfl | rfl
    · exact feeds
    · trivial
    · trivial
    · trivial
  · exact fun _ => trivial
  · exact fun first second zipper net => absurd net (plain first second zipper)

theorem enterZip {first second : FutureId} {freeValue : Bool} (ok : Poised labels s (.leave []))
    (sound : Sound s) (builds : labels.Builds s (.zip first second freeValue)) :
    Settled labels (enter s (.zip first second freeValue)) := by
  rcases builds with ⟨sharedFirst, sharedSecond, zipper, net⟩
  have stack : (enter s (.zip first second freeValue)).stack =
      [.register first (.zip s.count false), .register second (.zip s.count true),
        .deliver s.count, .leave [first, second]] ++ s.stack := rfl
  have zip : (enter s (.zip first second freeValue)).zips s.count =
      ⟨first, second, .zero, .zero, 2, freeValue⟩ := by
    simp [enter, State.push, State.retain, State.setFuture, State.setZip]
  have inside : s.count < (enter s (.zip first second freeValue)).count := Nat.lt_succ_self _
  refine ok.makes sound _ rfl rfl stack ?_ (fun _ => trivial) (by simp) (by simp) ?_
  · intro other mem
    simp only [List.mem_cons, List.not_mem_nil, or_false] at mem
    rcases mem with rfl | rfl | rfl | rfl
    · exact ⟨sharedFirst, by rw [zip]; rfl, inside, _, _, _, net⟩
    · exact ⟨sharedSecond, by rw [zip]; rfl, inside, _, _, _, net⟩
    · trivial
    · trivial
  · intro one two function label
    rw [net] at label
    cases label
    rw [zip]
    refine ⟨⟨rfl, rfl⟩, ?_⟩
    intro isSecond
    refine .inl ?_
    rw [stack]
    cases isSecond
    · exact ⟨_, List.mem_cons_self, rfl⟩
    · exact ⟨_, List.mem_cons_of_mem _ List.mem_cons_self, rfl⟩

/-- No future is registered with a token. -/
theorem unlisted (ok : Poised labels s (.leave [])) (sound : Sound s) (token : TokenId)
    (f : FutureId) : some f ∉ (s.tokens token).nodes := by
  intro mem
  have active := ((sound.listed token f).mp mem).1
  have none := sound.owned f (ok.settled.tokens f)
  have two := sound.pair f active
  omega

theorem cancel {token : TokenId} (ok : Poised labels s (.leave [])) (sound : Sound s) :
    Settled labels (enter s (.cancel token)) := by
  have promises : (enter s (.cancel token)).promises = s.promises := by
    simp only [enter]
    split <;> rfl
  have tasks : forall other, other ∈ (s.tokens token).nodes.flatMap cancellation ->
      other = .callback .cancelled := by
    intro other mem
    rcases List.mem_flatMap.mp mem with ⟨entry, found, mem⟩
    cases entry with
    | none => exact List.mem_singleton.mp mem
    | some f => exact absurd found (ok.unlisted sound token f)
  have stack : Exists fun new => (enter s (.cancel token)).stack = new ++ s.stack ∧
      forall other, other ∈ new -> other = .callback .cancelled := by
    simp only [enter]
    split
    · exact ⟨[], rfl, (by simp)⟩
    · exact ⟨_, rfl, tasks⟩
  rcases stack with ⟨new, stack, only⟩
  refine ok.calls sound _ ?_ ?_ stack ?_ (Task.paired_plain ?_) ?_ ?_
  · simp only [enter]
    split <;> rfl
  · rw [promises]
    exact fun _ => id
  · intro other mem
    rw [only other mem]
    trivial
  · intro other mem
    rw [only other mem]
    trivial
  · intro out result mem
    cases only _ mem
  · intro f mem
    cases only _ mem

theorem enter {api : Api} (ok : Poised labels s (.leave [])) (sound : Sound s)
    (allowed : permitted s api) (builds : labels.Builds s api) :
    Settled labels (Operator.enter s api) := by
  cases api with
  | create =>
      rcases builds with ⟨name, net⟩
      have stack : (Operator.enter s .create).stack = [] ++ s.stack := rfl
      refine ok.begins sound _ stack (by simp) (fun _ => trivial) (by simp) (by simp) ?_ ?_
      · intro f outside client internal
        by_cases here : f = s.count
        · rw [here] at internal
          exact internal name net
        · have blank := (sound.fresh f outside).promise
          simp only [Operator.enter, State.setClientRefs, State.create, Function.update_of_ne here,
            blank] at client
          cases client
      · intro out first second zipper outside inside label
        have here : out = s.count := Nat.le_antisymm (Nat.le_of_lt_succ inside) outside
        rw [here, net] at label
        cases label
  | fromResult result =>
      have net : labels.net s.count = .constant result.outcome := builds
      have stack : (Operator.enter s (.fromResult result)).stack =
          finish s.count result ++ [.deliver s.count] ++ s.stack := by
        simp only [Operator.enter, State.push, State.stack_give]
        rfl
      refine ok.makes sound _ ?_ (Spares.promises_give _ result) stack ?_ ?_ ?_ ?_ ?_
      · simp [Operator.enter, State.push, State.create, State.count_give]
      · simp only [finish, List.cons_append, List.nil_append, List.mem_cons, List.not_mem_nil,
          or_false]
        rintro other (rfl | rfl | rfl)
        · intro _
          simp only [Labels.meaning, net, Net.eval]
        · trivial
        · trivial
      · exact fun fulfilled => ⟨fun _ => .inl rfl, trivial⟩
      · simp [finish]
      · simp [finish]
      · intro first second zipper label
        rw [net] at label
        cases label
  | setResult f result =>
      have stack : (Operator.enter s (.setResult f result)).stack =
          [.setResult f result, .leaveSet f] ++ s.stack := by
        simp only [Operator.enter, State.push, State.stack_give]
      have source : ¬labels.Internal f := ok.settled.sources f allowed
      refine ok.calls sound _ (State.count_give s result) ?_ stack ?_ (fun _ => trivial) ?_
        (by simp)
      · intro g
        change ((s.give result).promises g).isClient = true -> _
        rw [Spares.promises_give]
        exact id
      · simp only [List.mem_cons, List.not_mem_nil, or_false]
        rintro other (rfl | rfl)
        · exact fun internal => absurd internal source
        · trivial
      · simp only [List.mem_cons, List.not_mem_nil, or_false]
        rintro out other (same | impossible)
        · cases same
          exact source
        · cases impossible
  | destroy f =>
      have source : ¬labels.Internal f := ok.settled.sources f allowed.1
      refine ok.calls sound _ rfl ?_ rfl (by simp [Labels.Fits]) ?_ (by simp) (by simp)
      · intro g
        simp only [Operator.enter, State.push, State.setPromise]
        grind
      · exact fun fulfilled => ⟨fun internal => absurd internal source, trivial⟩
  | observe f =>
      exact ok.calls sound _ rfl (fun _ => id) rfl (by simp [Labels.Fits, Labels.Feeds])
        (fun _ => trivial) (by simp) (by simp)
  | get f =>
      have stack : (Operator.enter s (.get f)).stack = [] ++ s.stack := by
        simp only [Operator.enter]
        split <;> rfl
      refine ok.calls sound _ ?_ ?_ stack (by simp) (fun _ => trivial) (by simp) (by simp)
      · simp only [Operator.enter]
        split <;> rfl
      · intro g
        simp only [Operator.enter]
        split <;> exact id
  | map f freeValue =>
      rcases builds with ⟨shared, mapper, net⟩
      refine ok.operator sound _ (fun out => .map out freeValue) rfl ⟨shared, mapper, net⟩ ?_
      rw [net]
      exact (by simp)
  | flatMap f =>
      rcases builds with ⟨shared, mapper, net⟩
      refine ok.operator sound _ (fun out => .flatMap out (s.futures f).cancelToken) rfl
        ⟨ok.settled.tokens f, shared, mapper, net⟩ ?_
      rw [net]
      exact (by simp)
  | onError f =>
      rcases builds with ⟨use, recovery, net⟩
      refine ok.operator sound _ .onError rfl ⟨use, recovery, net⟩ ?_
      rw [net]
      exact (by simp)
  | doOnSuccess f =>
      rcases builds with ⟨use, net⟩
      refine ok.operator sound _ .doOnSuccess rfl ⟨use, net⟩ ?_
      rw [net]
      exact (by simp)
  | zip first second freeValue => exact ok.enterZip sound builds
  | group kind entries | attach f token => exact builds.elim
  | cancel token => exact ok.cancel sound
  | registerCallback token =>
      have stack : Exists fun new => (Operator.enter s (.registerCallback token)).stack =
          new ++ s.stack ∧ forall other, other ∈ new -> other = .callback .cancelled := by
        simp only [Operator.enter]
        split
        · exact ⟨_, rfl, by simp⟩
        · exact ⟨[], rfl, (by simp)⟩
      rcases stack with ⟨new, stack, only⟩
      refine ok.calls sound _ ?_ ?_ stack ?_ (Task.paired_plain ?_) ?_ ?_
      · simp only [Operator.enter]
        split <;> rfl
      · intro g
        simp only [Operator.enter]
        split <;> exact id
      · intro other mem
        rw [only other mem]
        trivial
      · intro other mem
        rw [only other mem]
        trivial
      · intro out result mem
        cases only _ mem
      · intro f mem
        cases only _ mem
  | unregisterCallback token index | retain f =>
      have stack : s.stack = [] ++ s.stack := rfl
      exact ok.calls sound _ rfl (fun _ => id) stack (by simp) (fun _ => trivial) (by simp) (by simp)
  | release f =>
      exact ok.calls sound _ rfl (fun _ => id) rfl (by simp [Labels.Fits]) (fun _ => trivial)
        (by simp) (by simp)

end Poised

namespace Settled

variable {s : State}

theorem next {event : Event} (ok : Settled labels s) (sound : Sound s) (recorded : Recorded ∅ s)
    (may : enabled s event) (follows : labels.Follows s event) :
    Settled labels (Operator.next s event) := by
  cases event with
  | step =>
      rcases may with ⟨task, rest, stack, runs⟩
      have pushed : ({ s with stack := rest } : State).push [task] = s := by
        simp only [State.push, List.cons_append, List.nil_append, <- stack]
      simp only [Operator.next, stack]
      have poised : Poised labels { s with stack := rest } task :=
        ⟨pushed ▸ ok, pushed ▸ sound, pushed ▸ recorded⟩
      exact poised.perform runs
  | call api => exact (Poised.leaving ok sound recorded may.1).enter sound may.2 follows
  | answer reply =>
      rcases may with ⟨callback, rest, stack, replied⟩
      have pushed : ({ s with stack := rest } : State).push [.callback callback] = s := by
        simp only [State.push, List.cons_append, List.nil_append, <- stack]
      simp only [Operator.next, stack]
      have poised : Poised labels { s with stack := rest } (.callback callback) :=
        ⟨pushed ▸ ok, pushed ▸ sound, pushed ▸ recorded⟩
      exact poised.answer (pushed ▸ replied) (follows callback rest stack)
  | resume f | abandon f =>
      exact ⟨ok.sources, ok.tokens, ok.settled, ok.fits, ok.waits, ok.paired, ok.inputs,
        ok.halves, ok.spent, ok.moved⟩

theorem start (labels : Labels Source) : Settled labels Operator.start where
  sources := nofun
  tokens := fun _ => rfl
  settled := fun _ _ inside => absurd inside (Nat.not_lt_zero _)
  fits := nofun
  waits := nofun
  paired := trivial
  inputs := fun _ _ _ _ inside => absurd inside (Nat.not_lt_zero _)
  halves := fun _ _ _ _ _ inside => absurd inside (Nat.not_lt_zero _)
  spent := by
    rintro out _ (impossible | ⟨result, mem⟩)
    · cases impossible
    · cases mem
  moved := by
    rintro f (impossible | mem)
    · cases impossible
    · cases mem

end Settled

theorem reachable_settled {s : State} (reached : (machine.restrict labels.Follows).Reachable s) :
    Settled labels s := by
  refine reached.invariant (Settled labels) ?_ ?_
  · rintro _ rfl
    exact .start labels
  · intro before event reached ok enabled
    exact ok.next (reachable_sound reached.of_restrict) (reachable_recorded reached.of_restrict)
      enabled.1 enabled.2

/-! ## Between calls -/

theorem outcome_none {s : State} (recorded : Recorded ∅ s) {f : FutureId} :
    s.outcome f = none ↔ (s.futures f).isCompleted = false := by
  rw [recorded.record f, Option.isSome_eq_false_iff, State.outcome, Option.map_eq_none_iff,
    Option.isNone_iff_eq_none]

namespace Settled

variable {s : State} {f : FutureId}

/-- What a continuation waits for is needed for its output. -/
theorem needs_of_feeds (ok : Settled labels s) {g : FutureId} {continuation : Continuation}
    (feeds : labels.Feeds s g continuation) (completes : continuation.out = some f) :
    Net.Needs (labels.known s) (labels.net f) (labels.net g) := by
  cases continuation with
  | observe => cases completes
  | map out freeValue =>
      cases completes
      rcases feeds with ⟨_, mapper, net⟩
      rw [net]
      exact .map
  | flatMap out token =>
      cases completes
      rcases feeds with ⟨_, _, mapper, net⟩
      rw [net]
      exact .flatMap
  | onError out =>
      cases completes
      rcases feeds with ⟨_, recovery, net⟩
      rw [net]
      exact .recover
  | doOnSuccess out =>
      cases completes
      rw [feeds.2]
      exact .through
  | moveChain out =>
      cases completes
      exact .rest feeds.2.2
  | zip out isSecond =>
      cases completes
      rcases feeds with ⟨_, input, inside, first, second, zipper, net⟩
      rcases ok.inputs f first second zipper inside net with ⟨isFirst, isSecond'⟩
      rw [net, input]
      cases isSecond with
      | false =>
          rw [isFirst]
          exact .first
      | true =>
          rw [isSecond']
          exact .second
  | group kind out => exact feeds.elim

/-- A future that is pending between calls is the client's to complete, or waits for another
one that its network needs. -/
theorem waits_for (ok : Settled labels s) (sound : Sound s) (recorded : Recorded ∅ s)
    (between : s.stack = []) (inside : f < s.count) (pending : s.outcome f = none) :
    (s.promises f).isClient = true ∨ Exists fun g => g < s.count ∧ s.outcome g = none ∧
      Net.Needs (labels.known s) (labels.net f) (labels.net g) := by
  rcases sound.waits_or_client between inside ((outcome_none recorded).mp pending) with
    client | ⟨g, ⟨made, waiting⟩, continuation, waits, completes⟩
  · exact .inl client
  · exact .inr ⟨g, made, (outcome_none recorded).mpr waiting,
      ok.needs_of_feeds (ok.waits g continuation waits) completes⟩

/-- A network whose future is pending has no outcome. -/
theorem meaning_none (ok : Settled labels s) (sound : Sound s) (recorded : Recorded ∅ s)
    (between : s.stack = []) (inside : f < s.count) (pending : s.outcome f = none) :
    labels.meaning s f = none := by
  generalize same : labels.net f = net
  induction net using Net.Needs.induction (labels.known s) generalizing f with
  | step net inductionHypothesis =>
      subst same
      rcases ok.waits_for sound recorded between inside pending with
        client | ⟨g, made, waiting, needs⟩
      · rw [Labels.meaning_source (ok.sources f client)]
        exact pending
      · exact needs.pending (inductionHypothesis _ needs made waiting rfl)

end Settled

/-! ## Two programs for one network -/

/-- The state after an event and some steps. -/
def round (s : State) (event : Event) (steps : Nat) : State :=
  machine.after s (event :: List.replicate steps .step)

theorem reachable_steps {s : State} (reached : (machine.restrict labels.Follows).Reachable s)
    {steps : Nat} (may : machine.AllEnabled s (List.replicate steps .step)) :
    (machine.restrict labels.Follows).Reachable (machine.after s (List.replicate steps .step)) := by
  induction steps generalizing s with
  | zero => exact reached
  | succ steps inductionHypothesis =>
      have stepped : (machine.restrict labels.Follows).Reachable (machine.next s .step) :=
        reached.step ⟨may.1, trivial⟩
      exact inductionHypothesis stepped may.2

theorem reachable_call {s : State} (reached : (machine.restrict labels.Follows).Reachable s)
    (api : Api) (steps : Nat)
    (may : machine.AllEnabled s (.call api :: List.replicate steps .step))
    (builds : labels.Builds s api) :
    (machine.restrict labels.Follows).Reachable (round s (.call api) steps) := by
  have called : (machine.restrict labels.Follows).Reachable (machine.next s (.call api)) :=
    reached.step ⟨may.1, builds⟩
  exact reachable_steps called may.2

theorem reachable_answer {s : State} (reached : (machine.restrict labels.Follows).Reachable s)
    (reply : Reply) (steps : Nat)
    (may : machine.AllEnabled s (.answer reply :: List.replicate steps .step))
    (callback : Callback) (head : s.stack.head? = some (.callback callback))
    (answers : labels.Answers s reply callback) :
    (machine.restrict labels.Follows).Reachable (round s (.answer reply) steps) := by
  have follows : labels.Follows s (.answer reply) := by
    intro other rest stack
    rw [stack] at head
    cases head
    exact answers
  have answered : (machine.restrict labels.Follows).Reachable (machine.next s (.answer reply)) :=
    reached.step ⟨may.1, follows⟩
  exact reachable_steps answered may.2

/-- The value of a source is mapped to another source, and errors are kept. -/
def recovered : Net Bool (Option ValueId) Int :=
  .recover (.flatMap (.source true) fun _ => .source false) fun error => .constant (.error error)

/-- The operators are built before the sources complete. -/
def builtFirst : Labels Bool where
  net
    | 0 => .source true
    | 1 => .flatMap (.source true) fun _ => .source false
    | 2 => recovered
    | 3 => .source false
    | _ => .constant (.ok none)
  use
    | 1 => .input 2
    | 3 => .inner 1
    | _ => .shared
  place name := if name then 0 else 3
  placed name := by cases name <;> rfl
  unique f name same := by
    match f with
    | 0 | 3 =>
        cases same
        rfl

/-- The first source completes, and the mapper makes the second one. -/
def firstCompleted : State :=
  let built := round (round (round start (.call .create) 0) (.call (.flatMap 0)) 4)
    (.call (.onError 1)) 4
  let set := round built (.call (.setResult 0 ⟨0, some 7, false⟩)) 4
  round (round set (.call .create) 0) (.answer (.future (some 3))) 4

/-- The second source fails. -/
def bothCompleted : State :=
  round (round firstCompleted (.call (.setResult 3 (.ofError 5))) 8) (.answer (.future none)) 9

theorem reachable_firstCompleted :
    (machine.restrict builtFirst.Follows).Reachable firstCompleted := by
  have first : (machine.restrict builtFirst.Follows).Reachable (round start (.call .create) 0) :=
    reachable_call (.start rfl) .create 0 (by decide) ⟨true, rfl⟩
  have second := reachable_call first (.flatMap 0) 4 (by decide) ⟨rfl, _, rfl⟩
  have third := reachable_call second (.onError 1) 4 (by decide) ⟨rfl, _, rfl⟩
  have fourth := reachable_call third (.setResult 0 ⟨0, some 7, false⟩) 4 (by decide) trivial
  have fifth := reachable_call fourth .create 0 (by decide) ⟨false, rfl⟩
  exact reachable_answer fifth (.future (some 3)) 4 (by decide) (.flatMapper 0 1 none) (by decide)
    ⟨_, _, rfl, rfl, rfl⟩

theorem reachable_bothCompleted :
    (machine.restrict builtFirst.Follows).Reachable bothCompleted := by
  have failed := reachable_call reachable_firstCompleted (.setResult 3 (.ofError 5)) 8 (by decide)
    trivial
  exact reachable_answer failed (.future none) 9 (by decide) (.recovery 1 2) (by decide)
    ⟨_, _, rfl, rfl⟩

/-- The sources complete before the operators are built. -/
def completedFirst : Labels Bool where
  net
    | 0 => .source true
    | 1 => .source false
    | 2 => .flatMap (.source true) fun _ => .source false
    | 3 => recovered
    | _ => .constant (.ok none)
  use
    | 1 => .inner 2
    | 2 => .input 3
    | _ => .shared
  place name := if name then 0 else 1
  placed name := by cases name <;> rfl
  unique f name same := by
    match f with
    | 0 | 1 =>
        cases same
        rfl
    | 2 | 3 | f + 4 => cases same

def builtAfter : State :=
  let made := round (round start (.call .create) 0) (.call .create) 0
  let set := round (round made (.call (.setResult 1 (.ofError 5))) 4)
    (.call (.setResult 0 ⟨0, some 7, false⟩)) 4
  let mapped := round (round set (.call (.flatMap 0)) 2) (.answer (.future (some 1))) 13
  round (round mapped (.call (.onError 2)) 2) (.answer (.future none)) 8

theorem reachable_builtAfter : (machine.restrict completedFirst.Follows).Reachable builtAfter := by
  have first : (machine.restrict completedFirst.Follows).Reachable
      (round start (.call .create) 0) :=
    reachable_call (.start rfl) .create 0 (by decide) ⟨true, rfl⟩
  have second := reachable_call first .create 0 (by decide) ⟨false, rfl⟩
  have third := reachable_call second (.setResult 1 (.ofError 5)) 4 (by decide) trivial
  have fourth := reachable_call third (.setResult 0 ⟨0, some 7, false⟩) 4 (by decide) trivial
  have fifth := reachable_call fourth (.flatMap 0) 2 (by decide) ⟨rfl, _, rfl⟩
  have sixth := reachable_answer fifth (.future (some 1)) 13 (by decide) (.flatMapper 0 2 none)
    (by decide) ⟨_, _, rfl, rfl, rfl⟩
  have seventh := reachable_call sixth (.onError 2) 2 (by decide) ⟨rfl, _, rfl⟩
  exact reachable_answer seventh (.future none) 8 (by decide) (.recovery 2 3) (by decide)
    ⟨_, _, rfl, rfl⟩

/-! ## What a network means -/

theorem meaning_of_between {s : State} (reached : (machine.restrict labels.Follows).Reachable s)
    (between : s.stack = []) {f : FutureId} (inside : f < s.count) :
    s.outcome f = labels.meaning s f := by
  have ok := reachable_settled reached
  have sound := reachable_sound reached.of_restrict
  have recorded := reachable_recorded reached.of_restrict
  cases read : s.outcome f with
  | some outcome => exact (ok.settled f outcome inside read).symm
  | none => exact (ok.meaning_none sound recorded between inside read).symm

/-- At any time a completed future has the outcome of its network.  Between calls it has that of
the reference evaluation, and is ready once the sources that the network needs are completed. -/
theorem networkMeaning (labels : Labels Source) {s : State}
    (reached : (machine.restrict labels.Follows).Reachable s) {f : FutureId}
    (inside : f < s.count) :
    (forall outcome, s.outcome f = some outcome -> labels.meaning s f = some outcome) ∧
      (s.stack = [] -> s.outcome f = labels.meaning s f ∧
        ((forall name, Relation.ReflTransGen (Net.Needs (labels.known s)) (labels.net f)
          (.source name) -> labels.known s name ≠ none) -> s.HasOutcome f)) := by
  refine ⟨fun outcome => (reachable_settled reached).settled f outcome inside, ?_⟩
  intro between
  have same := meaning_of_between reached between inside
  refine ⟨same, ?_⟩
  intro completed
  cases read : s.outcome f with
  | some outcome => exact ⟨outcome, read⟩
  | none =>
      rcases Net.missing_source (same.symm.trans read) with ⟨name, needed, unknown⟩
      exact absurd unknown (completed name needed)

theorem networkMeaning_bothCompleted : bothCompleted.outcome 2 = some (.error 5) ∧
    bothCompleted.outcome 2 = builtFirst.meaning bothCompleted 2 :=
  ⟨rfl, ((networkMeaning builtFirst reachable_bothCompleted (by decide)).2 (by decide)).1⟩

/-- Two programs that build the same network have the same outcome of it by the same outcomes of
the sources, whatever the orders in which they build it and complete the sources. -/
theorem outcomesAgree (labels other : Labels Source) {s t : State}
    (reached : (machine.restrict labels.Follows).Reachable s) (between : s.stack = [])
    (reached' : (machine.restrict other.Follows).Reachable t) (between' : t.stack = [])
    (same : forall name, labels.known s name = other.known t name) {f g : FutureId}
    (inside : f < s.count) (inside' : g < t.count) (net : labels.net f = other.net g) :
    s.outcome f = t.outcome g := by
  have known : labels.known s = other.known t := funext same
  rw [meaning_of_between reached between inside, meaning_of_between reached' between' inside']
  simp only [Labels.meaning, net, known]

theorem outcomesAgree_builtAfter : bothCompleted.outcome 2 = builtAfter.outcome 3 := by
  refine outcomesAgree builtFirst completedFirst reachable_bothCompleted (by decide)
    reachable_builtAfter (by decide) ?_ (by decide) (by decide) rfl
  intro name
  have left : builtFirst.known bothCompleted name =
      some (if name then .ok (some 7) else .error 5) := by cases name <;> rfl
  have right : completedFirst.known builtAfter name =
      some (if name then .ok (some 7) else .error 5) := by cases name <;> rfl
  exact left.trans right.symm

end Operator
end UfsrvRx
