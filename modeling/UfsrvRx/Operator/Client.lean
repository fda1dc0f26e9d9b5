import UfsrvRx.Operator.Attachment

namespace UfsrvRx
namespace Operator

open Transition
open UfsrvRx.Future (Result ValueId epipe ecanceled einval)

/-!
# The client keeps the invariant
-/

/-- No completion is about to be performed. -/
def State.Plain (s : State) : Prop :=
  forall f result, s.stack.head? ≠ some (.complete f result)

theorem State.ClientRuns.plain {s : State} (runs : s.ClientRuns) : s.Plain := by
  intro f result head
  rcases runs with empty | ⟨callback, rest, stack⟩
  · rw [empty] at head
    cases head
  · rw [stack] at head
    cases head

namespace Sound

variable {s : State}

/-! ## Calls that hold nothing -/

/-- Tasks that hold nothing are pushed. -/
theorem pushes {new : List Task} (ok : Sound s) (plain : s.Plain)
    (placed : forall task, task ∈ new -> Placed s task)
    (anchored : Anchored s.stack -> Anchored (new ++ s.stack))
    (resources : new.flatMap Task.resources = []) : Sound (s.push new) :=
  { ok with
    balanced := by
      intro r
      rw [State.held_push, resources, State.extra_push, State.total_push]
      exact ok.balanced r
    anchored := anchored ok.anchored
    works := by
      intro task mem
      rcases List.mem_append.mp mem with mem | mem
      · exact (placed task mem).1
      · exact ok.works task mem
    fresh := fun f outside => { ok.fresh f outside with }
    drained := by
      intro f completed
      rcases ok.drained f completed with closed | mem
      · exact .inl closed
      · exact .inr (List.mem_append_right _ mem)
    fulfilled := by
      intro f fulfilled
      rcases ok.fulfilled f fulfilled with completed | ⟨result, head⟩
      · exact .inl completed
      · exact absurd head (plain f result)
    handles := by
      intro f
      have handles := ok.handles f
      have none : new.count (.attached f) = 0 := by
        rw [List.count_eq_zero]
        intro mem
        exact (placed _ mem).2 f rfl
      simp only [State.push, List.count_append, none]
      omega }

/-- A call begins that is over when all that it does is done. -/
theorem leaving (ok : Sound s) (plain : s.Plain) {arguments : List FutureId}
    (held : forall f, f ∈ arguments -> 0 < s.clientRefs f) : Sound (s.push [.leave arguments]) := by
  refine ok.pushes plain ?_ ?_ rfl
  · intro task mem
    rw [List.mem_singleton.mp mem]
    exact ⟨held, by simp⟩
  · exact fun rest => ⟨by simp [Task.touches], rest⟩

theorem observe {f : FutureId} (ok : Sound s) (plain : s.Plain) (held : 0 < s.clientRefs f) :
    Sound (enter s (.observe f)) := by
  refine ok.pushes plain ?_ ?_ rfl
  · simp [Placed, Admissible, held]
  · intro rest
    simp [Anchored, Task.touches, Kept.cons, Task.anchors, rest]

theorem attachApi {f : FutureId} {token : TokenId} (ok : Sound s) (plain : s.Plain)
    (held : 0 < s.clientRefs f) : Sound (enter s (.attach f token)) := by
  refine ok.pushes plain ?_ ?_ rfl
  · simp [Placed, Admissible, held]
  · intro rest
    simp [Anchored, Task.touches, Kept.cons, Task.anchors, rest]

theorem give_push (s : State) (tasks : List Task) (result : Result) :
    (s.push tasks).give result = (s.give result).push tasks := by
  unfold State.give
  split <;> rfl

theorem setResultApi {f : FutureId} {result : Result} (ok : Sound s) (plain : s.Plain)
    (client : (s.promises f).isClient = true) : Sound (enter s (.setResult f result)) := by
  have pushed : Sound (s.push [.setResult f result, .leaveSet f]) := by
    refine ok.pushes plain ?_ ?_ rfl
    · simp [Placed, Admissible, client]
    · intro rest
      simp [Anchored, Task.touches, Kept.cons, Task.anchors, rest]
  have given := pushed.give result
  rw [give_push] at given
  exact given

/-! ## New futures -/

/-- No context holds a reference to a future that was not made. -/
theorem zipRefs_fresh (ok : Sound s) : s.zipRefs s.count = 0 := by
  have balanced := ok.balanced (.reference s.count)
  simp only [State.extra, State.total, (ok.fresh s.count (Nat.le_refl _)).cell] at balanced
  simp only [start] at balanced
  omega

/-- A promise is made.  It and the other reference to its future are the client's, or tasks
hold them. -/
theorem created (ok : Sound s) (isClient : Bool) (new : List Task) (plain : s.Plain)
    (refs : FutureId -> Nat) (others : forall f, f ≠ s.count -> refs f = s.clientRefs f)
    (placed : forall task, task ∈ new -> task.touches = [] ∧ forall after, Placed after task)
    (resources : forall r, (new.flatMap Task.resources).count r =
      (if r = .reference s.count then 1 - refs s.count else 0) +
        if r = .promise s.count then 1 - isClient.toNat else 0)
    (one : refs s.count ≤ 1) :
    Sound { s.create isClient with clientRefs := refs, stack := new ++ s.stack } := by
  have blank := ok.fresh s.count (Nat.le_refl _)
  have unreferenced := ok.zipRefs_fresh
  have cell := blank.cell
  have promise := blank.promise
  have node := blank.node
  have group := blank.group
  have zip := blank.zip
  have client := blank.clientRefs
  have gets := blank.gets
  simp only [start] at cell promise node group zip
  have zipRefs : forall f, ({ s.create isClient with clientRefs := refs, stack := new ++ s.stack } :
      State).zipRefs f = s.zipRefs f := by
    intro f
    have none : (s.zips s.count).refs f = 0 := by
      rw [zip]
      rfl
    simp only [State.zipRefs, State.create, Finset.sum_range_succ, none, Nat.add_zero]
  have bound := isClient.toNat_le
  exact { ok with
    balanced := by
      intro r
      have before := ok.balanced r
      have added := resources r
      have held : ({ s.create isClient with clientRefs := refs, stack := new ++ s.stack } :
          State).held = new.flatMap Task.resources ++ s.held := by
        simp [State.held, State.create]
      rw [held, List.count_append, added]
      cases r with
      | reference f =>
          simp only [State.extra, State.total, zipRefs] at before ⊢
          simp only [State.create, Function.update_apply] at before ⊢
          have other := others f
          grind
      | _ =>
          simp only [State.extra, State.total, State.create, Function.update_apply] at before ⊢
          grind
    anchored := by
      refine ok.anchored.append ?_
      intro task mem f touched
      rw [(placed task mem).1] at touched
      cases touched
    works := by
      intro task mem
      rcases List.mem_append.mp mem with mem | mem
      · exact ((placed task mem).2 _).1
      · have works := ok.works task mem
        cases task with
        | releasePromise f | leaveSet f | drain f =>
            simp only [Admissible, State.create] at works ⊢
            grind
        | leave arguments =>
            intro f argument
            have held : 0 < s.clientRefs f := works f argument
            have other := others f
            change 0 < refs f
            grind
        | _ => exact works
    fresh := by
      intro f outside
      change s.count + 1 ≤ f at outside
      have other : f ≠ s.count := Nat.ne_of_gt outside
      have blank := ok.fresh f (Nat.le_of_succ_le outside)
      exact { blank with
        cell := by
          simp only [State.create, Function.update_of_ne other]
          exact blank.cell
        promise := by
          simp only [State.create, Function.update_of_ne other]
          exact blank.promise
        clientRefs := (others f other).trans blank.clientRefs }
    waits := by
      intro f continuation mem
      have waits := ok.waits f continuation mem
      have other : f ≠ s.count := Nat.ne_of_lt waits.1
      simp only [State.create, Function.update_of_ne other]
      exact ⟨Nat.lt_succ_of_lt waits.1, waits.2⟩
    closed := by
      intro f
      have closed := ok.closed f
      simp only [State.create]
      grind
    drained := by
      intro f completed
      have drained := ok.drained f
      simp only [State.create, List.mem_append] at completed ⊢
      grind
    fulfilled := by
      intro f fulfilled
      refine .inl ?_
      simp only [State.create] at fulfilled ⊢
      by_cases here : f = s.count
      · simp [here] at fulfilled
      · simp only [Function.update_of_ne here] at fulfilled ⊢
        rcases ok.fulfilled f fulfilled with completed | ⟨result, head⟩
        · exact completed
        · exact absurd head (plain f result)
    dead := by
      intro f lt
      have dead := ok.dead f
      have inside : f = s.count ∨ f < s.count := Nat.lt_succ_iff_lt_or_eq.mp lt |>.symm
      simp only [State.create]
      grind
    freed := by
      intro f
      have freed := ok.freed f
      have inside : f < s.count + 1 ↔ f = s.count ∨ f < s.count :=
        Nat.lt_succ_iff_lt_or_eq.trans or_comm
      simp only [State.create, inside]
      grind
    handles := by
      intro f
      have handles := ok.handles f
      have none : new.count (.attached f) = 0 := by
        rw [List.count_eq_zero]
        intro mem
        exact ((placed _ mem).2 s).2 f rfl
      simp only [State.create, List.count_append, none]
      grind
    given := by
      intro f
      have given := ok.given f
      simp only [State.create]
      grind
    idle := by
      intro f
      have idle := ok.idle f
      simp only [State.create]
      grind
    owned := by
      intro f
      have owned := ok.owned f
      simp only [State.create]
      grind
    gets := by
      intro f
      have waits := ok.gets f
      have other := others f
      change 0 < s.gets f -> 0 < refs f
      grind }

theorem createApi (ok : Sound s) (plain : s.Plain) : Sound (enter s .create) := by
  refine ok.created true [] plain
    (Function.update s.clientRefs s.count 1) ?_ (by simp) ?_ (by simp)
  · intro f other
    exact Function.update_of_ne other _ _
  · intro r
    simp

/-- A promise and the reference of the caller, both in the hands of the library. -/
theorem createdInside (ok : Sound s) (plain : s.Plain) :
    Sound (((s.create false).push [.deliver s.count]).push [.destroyPromise s.count]) := by
  have blank := (ok.fresh s.count (Nat.le_refl _)).clientRefs
  refine ok.created false [.destroyPromise s.count, .deliver s.count] plain
    s.clientRefs (fun _ _ => rfl) ?_ ?_ (by omega)
  · simp [Task.touches, Placed, Admissible]
  · intro r
    simp only [Task.resources, List.flatMap_cons, List.flatMap_nil, List.cons_append,
      List.nil_append, List.count_cons, List.count_nil, blank, Bool.toNat_false]
    grind

/-- A new promise is used up at once. -/
theorem finishNew (ok : Sound s) (plain : s.Plain) (result : Result) :
    Sound (((s.create false).push [.deliver s.count]).push (finish s.count result)) := by
  refine (ok.createdInside plain).exchange trivial (by simp [Placed, Admissible, finish]) ?_ rfl
  intro rest _
  simp [finish, Anchored, Task.touches, Kept.cons, Task.anchors, rest]

theorem fromResult {result : Result} (ok : Sound s) (plain : s.Plain) :
    Sound (enter s (.fromResult result)) := by
  have given := (ok.finishNew plain result).give result
  rw [give_push, give_push] at given
  exact given

theorem operator {f : FutureId} (continuation : FutureId -> Continuation) (ok : Sound s)
    (plain : s.Plain) (held : 0 < s.clientRefs f)
    (holds : (continuation s.count).resources f = [.promise s.count]) :
    Sound (Operator.operator s f continuation) := by
  have leaving : Sound (s.push [.leave [f]]) := ok.leaving plain (by simpa using held)
  have made := leaving.createdInside (by simp [State.Plain, State.push])
  change Sound ((((s.push [.leave [f]]).create false).push [.deliver s.count]).push
    [.register f (continuation s.count), .inherit f s.count])
  refine made.exchange trivial (by simp [Placed, Admissible]) ?_ ?_
  · intro rest _
    change Anchored (.deliver s.count :: .leave [f] :: s.stack) at rest
    refine ⟨?_, ?_, rest⟩ <;> simp [Task.touches, Kept.cons, Task.anchors, State.push, State.create]
  · simp [Task.resources, holds, State.push]

theorem group {kind : Kind} {entries : List (Option FutureId)} (ok : Sound s) (plain : s.Plain)
    (held : forall f, some f ∈ entries -> 0 < s.clientRefs f) :
    Sound (enter s (.group kind entries)) := by
  have blank := (ok.fresh s.count (Nat.le_refl _)).group
  simp only [start] at blank
  simp only [enter]
  split
  · exact ok.finishNew plain .zero
  · rename_i nonempty
    have leaving : Sound (s.push [.leave (entries.filterMap id)]) :=
      ok.leaving plain (by simpa using held)
    have made : Sound ((((s.push [.leave (entries.filterMap id)]).create false).push
        [.deliver s.count]).push [.destroyPromise s.count]) :=
      leaving.createdInside (by simp [State.Plain, State.push])
    generalize rest : ((s.push [.leave (entries.filterMap id)]).create false).push
      [.deliver s.count] = base at made
    have inside : s.count < base.count := by
      rw [<- rest]
      exact Nat.lt_succ_self _
    have unset : base.groups s.count = ⟨0, false⟩ := by
      rw [<- rest]
      exact blank
    have stack : base.stack = .deliver s.count :: .leave (entries.filterMap id) :: s.stack := by
      rw [<- rest]
      rfl
    have same : ((s.create false).setGroup s.count ⟨entries.length, false⟩).push
        [.loop kind s.count entries, .deliver s.count, .leave (entries.filterMap id)] =
        (base.setGroup s.count ⟨entries.length, false⟩).push [.loop kind s.count entries] := by
      rw [<- rest]
      rfl
    have length : 0 < entries.length := List.length_pos_iff.mpr nonempty
    rw [same]
    refine made.transfer ((Keeps.setGroup inside ?_).trans (.push _ _)) rfl trivial
      (by simp [Placed, Admissible]) ?_ ?_
    · rw [unset]
      simp
    · intro anchored _
      refine ⟨?_, anchored⟩
      intro f touched
      rw [stack]
      exact Kept.cons.mpr (.inr (.head touched))
    · intro balanced
      refine State.balanced_change balanced rfl rfl ?_
      intro r
      cases r <;>
        simp only [State.extra, State.total, State.push, State.setGroup, State.zipRefs,
          Task.resources, List.flatMap_singleton, List.count_cons, List.count_replicate,
          Function.update_apply] <;> grind

theorem zip {first second : FutureId} {freeValue : Bool} (ok : Sound s) (plain : s.Plain)
    (heldFirst : 0 < s.clientRefs first) (heldSecond : 0 < s.clientRefs second) :
    Sound (enter s (.zip first second freeValue)) := by
  have blank := (ok.fresh s.count (Nat.le_refl _)).zip
  simp only [start] at blank
  have leaving : Sound (s.push [.leave [first, second]]) :=
    ok.leaving plain (by simp [heldFirst, heldSecond])
  have made : Sound ((((s.push [.leave [first, second]]).create false).push
      [.deliver s.count]).push [.destroyPromise s.count]) :=
    leaving.createdInside (by simp [State.Plain, State.push])
  generalize rest : ((s.push [.leave [first, second]]).create false).push
    [.deliver s.count] = base at made
  have inside : s.count < base.count := by
    rw [<- rest]
    exact Nat.lt_succ_self _
  have unset : base.zips s.count = ⟨0, 0, .zero, .zero, 0, false⟩ := by
    rw [<- rest]
    exact blank
  have stack : base.stack = .deliver s.count :: .leave [first, second] :: s.stack := by
    rw [<- rest]
    rfl
  have clientRefs : base.clientRefs = s.clientRefs := by
    rw [<- rest]
    rfl
  have held : forall f, 0 < s.clientRefs f -> 0 < (base.futures f).refcount ∧ f < base.count := by
    intro f client
    have client : 0 < (base.push [.destroyPromise s.count]).clientRefs f := by
      change 0 < base.clientRefs f
      rw [clientRefs]
      exact client
    exact ⟨made.refcount_of_client client, made.lt_count (made.refcount_of_client client)⟩
  generalize context : (⟨first, second, .zero, .zero, 2, freeValue⟩ : Zip) = zip
  have same : enter s (.zip first second freeValue) =
      (((base.setZip s.count zip).retain first).retain second).push
        [.register first (.zip s.count false), .register second (.zip s.count true)] := by
    rw [<- rest, <- context]
    rfl
  rw [same]
  have keepsZip : Keeps base (base.setZip s.count zip) := .setZip inside
  have keepsFirst : Keeps (base.setZip s.count zip) ((base.setZip s.count zip).retain first) :=
    .retain (held first heldFirst).1 (held first heldFirst).2
  have keepsSecond : Keeps ((base.setZip s.count zip).retain first)
      (((base.setZip s.count zip).retain first).retain second) := by
    refine .retain ?_ (held second heldSecond).2
    have positive := keepsFirst.refcount second
    have before : 0 < ((base.setZip s.count zip).futures second).refcount :=
      (held second heldSecond).1
    omega
  refine made.transfer (((keepsZip.trans keepsFirst).trans keepsSecond).trans (.push _ _)) rfl trivial
    (by simp [Placed, Admissible]) ?_ ?_
  · intro anchored _
    refine ⟨?_, ?_, anchored⟩ <;> simp [Task.touches, Kept.cons, Task.anchors, stack]
  · intro balanced
    refine State.balanced_change balanced rfl rfl ?_
    intro r
    cases r with
    | reference f =>
        have refs := State.zipRefs_setZip inside zip f
        have extra := State.extra_setZip_reference base s.count zip f
        have none : (base.zips s.count).refs f = 0 := by
          rw [unset]
          rfl
        have both : zip.refs f = (if first = f then 1 else 0) + if second = f then 1 else 0 := by
          rw [<- context]
          rfl
        have total : (((base.setZip s.count zip).retain first).retain second).total (.reference f) =
            base.total (.reference f) + (if first = f then 1 else 0) +
              if second = f then 1 else 0 := by
          simp only [State.total, State.retain, State.setFuture, State.setZip]
          grind
        rw [State.total_push, total]
        change _ + (base.setZip s.count zip).extra (.reference f) + _ = _
        simp only [Task.resources, Continuation.resources, List.flatMap_cons, List.flatMap_nil,
          List.append_nil, List.cons_append, List.nil_append, List.count_cons, List.count_nil]
        simp
        omega
    | _ =>
        simp only [State.extra, State.total, State.push, State.retain, State.setFuture,
          State.setZip, Task.resources, Continuation.resources, List.flatMap_cons,
          List.flatMap_nil, List.append_nil, List.cons_append, List.nil_append, List.count_cons,
          Function.update_apply]
        grind

/-! ## References and waiting -/

theorem get {f : FutureId} (ok : Sound s) (held : 0 < s.clientRefs f) : Sound (enter s (.get f)) := by
  have inside : f < s.count := ok.lt_count (ok.refcount_of_client held)
  simp only [enter]
  split
  · exact ok
  · rename_i pending
    have closed := ok.closed f
    exact { ok with
      balanced := by
        intro r
        have before := ok.balanced r
        cases r <;>
          simp only [State.extra, State.total, State.setFuture, State.zipRefs, State.held,
            Function.update_apply] at before ⊢ <;> grind
      works := by
        intro other mem
        have works := ok.works other mem
        cases other with
        | drain g =>
            simp only [Admissible, State.setFuture] at works ⊢
            grind
        | _ => exact works
      fresh := by
        intro g outside
        have other : g ≠ f := Nat.ne_of_gt (Nat.lt_of_lt_of_le inside outside)
        have blank := ok.fresh g outside
        exact { blank with
          cell := by
            simp only [State.setFuture, Function.update_of_ne other]
            exact blank.cell
          gets := by
            simp only [Function.update_of_ne other]
            exact blank.gets }
      waits := by
        intro g continuation mem
        have waits := ok.waits g continuation mem
        simp only [State.setFuture]
        grind
      closed := by
        intro g
        have closed := ok.closed g
        simp only [State.setFuture]
        grind
      drained := by
        intro g
        have drained := ok.drained g
        simp only [State.setFuture]
        grind
      fulfilled := by
        intro g
        have fulfilled := ok.fulfilled g
        simp only [State.setFuture]
        grind
      freed := by
        intro g
        have freed := ok.freed g
        simp only [State.setFuture]
        grind
      handles := by
        intro g
        have handles := ok.handles g
        simp only [State.setFuture]
        grind
      given := by
        intro g
        have given := ok.given g
        simp only [State.setFuture]
        grind
      idle := by
        intro g
        have idle := ok.idle g
        simp only [State.setFuture]
        grind
      owned := by
        intro g
        have owned := ok.owned g
        simp only [State.setFuture]
        grind
      gets := by
        intro g waiting
        have gets := ok.gets g
        simp only [State.setFuture] at waiting ⊢
        grind }

/-- A call that waits returns. -/
theorem resume {f : FutureId} (ok : Sound s) : Sound (next s (.resume f)) :=
  { ok with
    fresh := by
      intro g outside
      have blank := ok.fresh g outside
      have gets := blank.gets
      exact { blank with
        gets := by
          simp only [next]
          grind }
    gets := by
      intro g waiting
      have gets := ok.gets g
      simp only [next] at waiting ⊢
      grind }

theorem retain {f : FutureId} (ok : Sound s) (plain : s.Plain) (held : 0 < s.clientRefs f) :
    Sound (enter s (.retain f)) := by
  have inside : f < s.count := ok.lt_count (ok.refcount_of_client held)
  have leaving : Sound (s.push [.leave []]) := ok.leaving plain (by simp)
  have keeps : Keeps s (s.retain f) := .retain (ok.refcount_of_client held) inside
  have after : Keeps (s.retain f) ((s.retain f).setClientRefs f (s.clientRefs f + 1)) := by
    refine { Keeps.push (s.retain f) [] with clientRefs := ?_, blank := ?_ }
    · intro g held
      simp only [State.retain, State.setFuture, State.setClientRefs] at held ⊢
      grind
    · intro g outside blank
      have other : g ≠ f := Nat.ne_of_gt (Nat.lt_of_lt_of_le inside outside)
      exact { blank with
        clientRefs := by
          simp only [State.setClientRefs, Function.update_of_ne other]
          exact blank.clientRefs }
  refine leaving.retire (keeps.trans after) rfl trivial ?_
  intro r
  cases r <;>
    simp only [enter, State.extra, State.total, State.retain, State.setFuture,
      State.setClientRefs, State.zipRefs, Task.resources, List.count_nil,
      Function.update_apply] <;> grind

/-- The client gives a reference away that its calls do not need. -/
theorem giveAway {task : Task} {new : List Task} {f : FutureId} (ok : Sound (s.push [task]))
    (spare : s.Spare f) (ordinary : Ordinary s task)
    (placed : forall after other, other ∈ new -> Placed after other)
    (anchored : Anchored s.stack -> (forall g, g ∈ task.touches -> Kept s.stack g) ->
      Anchored (new ++ s.stack))
    (resources : forall r, (new.flatMap Task.resources).count r =
      task.resources.count r + if r = .reference f then 1 else 0) :
    Sound ((s.setClientRefs f (s.clientRefs f - 1)).push new) := by
  have held : 0 < s.clientRefs f := by
    rcases spare with more | ⟨held, _⟩
    · omega
    · exact held
  have inside : f < s.count := ok.lt_count (ok.refcount_of_client held)
  have before := ok.balanced
  exact { ok with
    balanced := by
      refine State.balanced_change before rfl rfl ?_
      intro r
      rw [resources, List.flatMap_singleton]
      cases r <;>
        simp only [State.extra, State.total, State.push, State.setClientRefs, State.zipRefs,
          Function.update_apply] <;> grind
    anchored := anchored ok.anchored.2 ok.anchored.1
    works := by
      refine ok.works_after rfl ?_ (fun other mem => (placed _ other mem).1)
      intro other mem works
      cases other with
      | leave arguments =>
          intro g argument
          have held : 0 < s.clientRefs g := works g argument
          simp only [State.push, State.setClientRefs, Function.update_apply]
          split
          · rename_i here
            rcases spare with more | ⟨_, unused⟩
            · omega
            · exact absurd (.inr ⟨arguments, mem, here ▸ argument⟩) unused
          · exact held
      | _ => exact works
    fresh := by
      intro g outside
      have other : g ≠ f := Nat.ne_of_gt (Nat.lt_of_lt_of_le inside outside)
      have blank := ok.fresh g outside
      exact { blank with
        clientRefs := by
          simp only [State.push, State.setClientRefs, Function.update_of_ne other]
          exact blank.clientRefs }
    drained := by
      intro g completed
      rcases ok.drained_of_completed ordinary completed with closed | mem
      · exact .inl closed
      · exact .inr (List.mem_append_right _ mem)
    fulfilled := fun g fulfilled => .inl (ok.completed_of_fulfilled ordinary fulfilled)
    handles := by
      intro g
      have handles := ok.handles g
      have none : new.count (.attached g) = 0 := by
        rw [List.count_eq_zero]
        intro mem
        exact (placed s _ mem).2 g rfl
      simp only [State.push, State.setClientRefs, List.cons_append, List.nil_append,
        List.count_cons, List.count_append, none] at handles ⊢
      omega
    gets := by
      intro g waiting
      have held : 0 < s.clientRefs g := ok.gets g waiting
      simp only [State.push, State.setClientRefs, Function.update_apply]
      split
      · rename_i here
        rcases spare with more | ⟨_, unused⟩
        · omega
        · exact absurd (.inl (here ▸ waiting)) unused
      · exact held }

theorem releaseApi {f : FutureId} (ok : Sound s) (plain : s.Plain) (spare : s.Spare f) :
    Sound (enter s (.release f)) := by
  have leaving : Sound (s.push [.leave []]) := ok.leaving plain (by simp)
  refine leaving.giveAway spare trivial (by simp [Placed, Admissible]) ?_ ?_
  · intro rest _
    exact ⟨by simp [Task.touches], rest⟩
  · intro r
    simp only [Task.resources, List.flatMap_singleton, List.count_cons, List.count_nil]
    grind

theorem destroyApi {f : FutureId} (ok : Sound s) (plain : s.Plain)
    (client : (s.promises f).isClient = true) (unused : .leaveSet f ∉ s.stack) :
    Sound (enter s (.destroy f)) := by
  have inside : f < s.count := ok.lt_count (ok.refcount_of_live (ok.live_of_client client))
  have leaving : Sound (s.push [.leave []]) := ok.leaving plain (by simp)
  have before := leaving.balanced
  exact { ok with
    balanced := by
      refine State.balanced_change before rfl rfl ?_
      intro r
      cases r <;>
        simp only [enter, State.extra, State.total, State.push, State.setPromise, State.zipRefs,
          Task.resources, List.flatMap_singleton, List.count_cons, List.count_nil,
          Function.update_apply] <;> grind
    anchored := ⟨by simp [Task.touches], ok.anchored⟩
    works := by
      intro other mem
      rcases List.mem_cons.mp mem with rfl | mem
      · trivial
      · have works := ok.works other mem
        cases other with
        | releasePromise g =>
            simp only [Admissible, enter, State.push, State.setPromise] at works ⊢
            grind
        | leaveSet g =>
            have other : g ≠ f := by
              intro here
              rw [here] at mem
              exact unused mem
            simp only [Admissible, enter, State.push, State.setPromise,
              Function.update_of_ne other] at works ⊢
            exact works
        | _ => exact works
    fresh := by
      intro g outside
      have other : g ≠ f := Nat.ne_of_gt (Nat.lt_of_lt_of_le inside outside)
      have blank := ok.fresh g outside
      exact { blank with
        promise := by
          simp only [enter, State.push, State.setPromise, Function.update_of_ne other]
          exact blank.promise }
    drained := by
      intro g completed
      rcases ok.drained g completed with closed | mem
      · exact .inl closed
      · exact .inr (List.mem_cons_of_mem _ mem)
    fulfilled := by
      intro g fulfilled
      have before := ok.fulfilled g
      have plain := plain g
      simp only [enter, State.push, State.setPromise] at fulfilled ⊢
      grind
    dead := by
      intro g lt
      have before := ok.dead g lt
      simp only [enter, State.push, State.setPromise]
      grind
    handles := by
      intro g
      have handles := ok.handles g
      simp only [enter, State.push, State.setPromise, List.cons_append, List.nil_append,
        List.count_cons]
      grind }

/-! ## Cancellation -/

/-- The cancellation holds a reference to each registration that it runs. -/
theorem resources_cancel (nodes : List (Option FutureId)) (r : Resource) :
    ((nodes.flatMap cancellation).flatMap Task.resources).count r =
      match r with
      | .node f => nodes.count (some f)
      | _ => 0 := by
  induction nodes with
  | nil => cases r <;> rfl
  | cons entry nodes inductionHypothesis =>
      rw [List.flatMap_cons, List.flatMap_append, List.count_append, inductionHypothesis]
      cases entry with
      | none => cases r <;> simp [cancellation, Task.resources, Callback.resources]
      | some g =>
          cases r <;> simp only [cancellation, Task.resources, List.flatMap_cons,
            List.flatMap_nil, List.nil_append, List.append_nil, List.count_cons, List.count_nil] <;>
            grind

theorem anchored_cancel {rest : List Task} (nodes : List (Option FutureId)) (ok : Anchored rest) :
    Anchored (nodes.flatMap cancellation ++ rest) := by
  induction nodes with
  | nil => exact ok
  | cons entry nodes inductionHypothesis =>
      rw [List.flatMap_cons, List.append_assoc]
      cases entry with
      | none => exact ⟨by simp [Task.touches, Callback.touches], inductionHypothesis⟩
      | some f =>
          refine ⟨?_, ?_, inductionHypothesis⟩ <;> simp [Task.touches, Kept.cons, Task.anchors]

theorem cancel {token : TokenId} (ok : Sound s) (plain : s.Plain) :
    Sound (enter s (.cancel token)) := by
  simp only [enter]
  split
  · exact ok
  · have members : forall task, task ∈ (s.tokens token).nodes.flatMap cancellation ->
        task = .callback .cancelled ∨ Exists fun f => some f ∈ (s.tokens token).nodes ∧
          (task = .complete f (.ofError ecanceled) ∨ task = .dropNode f) := by
      intro task mem
      rcases List.mem_flatMap.mp mem with ⟨entry, inside, mem⟩
      cases entry with
      | none => exact .inl (List.mem_singleton.mp mem)
      | some f =>
          refine .inr ⟨f, inside, ?_⟩
          simpa [cancellation] using mem
    have resources := resources_cancel (s.tokens token).nodes
    have listed := ok.listed token
    have count : forall f, (s.tokens token).nodes.count (some f) =
        if some f ∈ (s.tokens token).nodes then 1 else 0 := by
      intro f
      have alone := ok.alone token f
      split
      · rename_i mem
        have positive := List.count_pos_iff.mpr mem
        omega
      · rename_i mem
        exact List.count_eq_zero.mpr mem
    have anchored := anchored_cancel (s.tokens token).nodes ok.anchored
    generalize (s.tokens token).nodes.flatMap cancellation = new at members resources anchored
    exact { ok with
      balanced := by
        intro r
        have before := ok.balanced r
        have added := resources r
        simp only [State.held, List.flatMap_append, List.count_append] at before ⊢
        rw [added]
        cases r <;>
          simp only [State.extra, State.total, State.setToken, State.zipRefs] at before ⊢ <;> grind
      anchored := anchored
      works := by
        intro other mem
        rcases List.mem_append.mp mem with mem | mem
        · rcases members other mem with rfl | ⟨f, inside, rfl | rfl⟩
          · trivial
          · trivial
          · simp only [Admissible, if_pos inside]
        · have works := ok.works other mem
          cases other with
          | dropNode g =>
              simp only [Admissible] at works ⊢
              grind
          | _ => exact works
      fresh := by
        intro f outside
        have blank := ok.fresh f outside
        have node := blank.node
        have unlisted : some f ∉ (s.tokens token).nodes := by
          rw [listed f, node]
          simp [start]
        exact { blank with
          node := by
            simp only [if_neg unlisted]
            exact blank.node }
      drained := by
        intro f completed
        rcases ok.drained f completed with closed | mem
        · exact .inl closed
        · exact .inr (List.mem_append_right _ mem)
      fulfilled := by
        intro f fulfilled
        rcases ok.fulfilled f fulfilled with completed | ⟨result, head⟩
        · exact .inl completed
        · exact absurd head (plain f result)
      alone := by
        intro t f
        have alone := ok.alone t f
        simp only [State.setToken]
        grind
      listed := by
        intro t f
        have before := ok.listed t f
        have here := listed f
        simp only [State.setToken]
        grind
      pair := by
        intro f
        have pair := ok.pair f
        simp only
        grind
      handles := by
        intro f
        have handles := ok.handles f
        have none : new.count (.attached f) = 0 := by
          rw [List.count_eq_zero]
          intro mem
          rcases members _ mem with same | ⟨g, _, same | same⟩ <;> cases same
        simp only [State.setToken, List.count_append, none]
        omega
      owned := by
        intro f
        have owned := ok.owned f
        simp only [State.setToken]
        grind }

theorem count_eraseIdx {nodes : List (Option FutureId)} {index : Nat}
    (none : nodes[index]? = some none) (f : FutureId) :
    (nodes.eraseIdx index).count (some f) = nodes.count (some f) := by
  induction nodes generalizing index with
  | nil => rfl
  | cons entry nodes inductionHypothesis =>
      cases index with
      | zero =>
          rw [List.getElem?_cons_zero, Option.some.injEq] at none
          rw [List.eraseIdx_cons_zero, none, List.count_cons_of_ne (by simp)]
      | succ index =>
          rw [List.getElem?_cons_succ] at none
          rw [List.eraseIdx_cons_succ, List.count_cons, List.count_cons, inductionHypothesis none]

/-- The client registers a callback, or takes it back. -/
theorem setNodes {token : TokenId} {nodes : List (Option FutureId)} (ok : Sound s)
    (same : forall f, nodes.count (some f) = (s.tokens token).nodes.count (some f)) :
    Sound (s.setToken token { s.tokens token with nodes := nodes }) := by
  have mem : forall f, some f ∈ nodes ↔ some f ∈ (s.tokens token).nodes := by
    intro f
    rw [<- List.count_pos_iff, <- List.count_pos_iff, same f]
  exact { ok with
    fresh := fun f outside => { ok.fresh f outside with }
    alone := by
      intro t f
      have alone := ok.alone t f
      simp only [State.setToken]
      grind
    listed := by
      intro t f
      have listed := ok.listed t f
      simp only [State.setToken]
      grind }

theorem registerCallback {token : TokenId} (ok : Sound s) (plain : s.Plain) :
    Sound (enter s (.registerCallback token)) := by
  simp only [enter]
  split
  · refine ok.pushes plain (by simp [Placed, Admissible]) ?_ rfl
    exact fun rest => ⟨by simp [Task.touches, Callback.touches], rest⟩
  · exact ok.setNodes fun f => List.count_cons_of_ne (by simp)

theorem unregisterCallback {token : TokenId} {index : Nat} (ok : Sound s)
    (registered : (s.tokens token).nodes[index]? = some none) :
    Sound (enter s (.unregisterCallback token index)) := by
  exact ok.setNodes fun f => count_eraseIdx registered f

/-! ## The answers of callbacks -/

/-- A value is made and passed on. -/
theorem answerValue {callback : Callback} {new : List Task} {result : Result}
    (ok : Sound (s.push [.callback callback]))
    (placed : forall task, task ∈ new -> Placed s task)
    (anchored : Anchored s.stack -> Anchored (new ++ s.stack))
    (resources : new.flatMap Task.resources = callback.resources) :
    Sound ((s.give result).push new) := by
  have exchanged := ok.exchange trivial placed (fun rest _ => anchored rest) resources
  rw [<- give_push]
  exact exchanged.give result

/-- A future is returned, and the reference with it. -/
theorem answerFuture {callback : Callback} {new : List Task} {inner out : FutureId}
    (ok : Sound (s.push [.callback callback])) (spare : s.Spare inner)
    (holds : callback.resources = [.promise out])
    (only : new = [.claimInner out inner] ∨
      Exists fun token => new = [.attach inner token, .claimInner out inner]) :
    Sound ((s.setClientRefs inner (s.clientRefs inner - 1)).push new) := by
  refine ok.giveAway spare trivial ?_ ?_ ?_
  · rcases only with rfl | ⟨token, rfl⟩ <;> simp [Placed, Admissible]
  · intro rest _
    rcases only with rfl | ⟨token, rfl⟩ <;>
      simp [Anchored, Task.touches, Kept.cons, Task.anchors, rest]
  · intro r
    simp only [Task.resources, holds]
    rcases only with rfl | ⟨token, rfl⟩ <;>
      simp only [Task.resources, List.flatMap_cons, List.flatMap_nil, List.nil_append,
        List.append_nil, List.count_cons, List.count_nil] <;> grind

theorem spare_of_push {task : Task} {f : FutureId} (spare : (s.push [task]).Spare f) :
    s.Spare f := by
  rcases spare with more | ⟨held, unused⟩
  · exact .inl more
  · refine .inr ⟨held, ?_⟩
    rintro (waiting | ⟨arguments, mem, argument⟩)
    · exact unused (.inl waiting)
    · exact unused (.inr ⟨arguments, List.mem_cons_of_mem _ mem, argument⟩)

theorem answer {callback : Callback} {reply : Reply} (ok : Sound (s.push [.callback callback]))
    (replied : replies (s.push [.callback callback]) callback reply) :
    Sound (afterCallback s callback reply) := by
  cases callback with
  | observer f | cancelled =>
      rw [replied]
      exact ok.retire (.push s []) rfl trivial fun _ => by
        simp [Task.resources, Callback.resources, afterCallback]
  | action f out =>
      rw [replied]
      refine ok.exchange trivial (by simp [Placed, Admissible]) ?_ rfl
      intro rest kept
      exact ⟨kept, rest⟩
  | mapper f out freeValue =>
      rcases replied with ⟨value, rfl⟩
      refine ok.answerValue (by simp [Placed, Admissible, finish]) ?_ rfl
      intro rest
      simp [finish, Anchored, Task.touches, Kept.cons, Task.anchors, rest]
  | zipper out first second =>
      rcases replied with ⟨value, rfl⟩
      refine ok.answerValue (by simp [Placed, Admissible, zipFinish, finish]) ?_ rfl
      intro rest
      simp [zipFinish, finish, Anchored, Task.touches, Kept.cons, Task.anchors, rest]
  | flatMapper f out token =>
      rcases replied with rfl | ⟨inner, rfl, spare⟩
      · exact ok.finishEarly _ trivial rfl
      · cases token with
        | none => exact ok.answerFuture (spare_of_push spare) rfl (.inl rfl)
        | some token => exact ok.answerFuture (spare_of_push spare) rfl (.inr ⟨token, rfl⟩)
  | recovery f out =>
      rcases replied with rfl | ⟨inner, rfl, spare⟩
      · exact ok.finishEarly _ trivial rfl
      · exact ok.answerFuture (spare_of_push spare) rfl (.inl rfl)

end Sound

end Operator
end UfsrvRx
