import Mathlib.Data.Fintype.EquivFin
import Mathlib.Order.WellFounded
import Mathlib.Data.Set.Finite.Basic
import UfsrvRx.Operator.Reach

namespace UfsrvRx
namespace Operator

open Transition
open UfsrvRx.Future (Result ValueId epipe ecanceled einval)

/-!
# What pending futures wait for

The promise of an output is held by the continuations that come to complete it, so no output is
left behind.  Only a circle of continuations, such as that of a `flatMap` whose mapper returns
its own output, keeps futures pending that nobody can complete.
-/

section

universe u

variable {Place : Type u} {leads : Place -> Place -> Prop} {inside ended : Place -> Prop}

/-- From a place one goes on to another one until one has come to an end.  Where there are finitely
many places, some path leads to an end or into a circle. -/
theorem end_or_circle (finite : {place | inside place}.Finite)
    (goes : forall place, inside place ->
      ended place ∨ Exists fun other => inside other ∧ leads place other)
    {first : Place} (starts : inside first) :
    Exists fun last => inside last ∧ Relation.ReflTransGen leads first last ∧
      (ended last ∨ Relation.TransGen leads last last) := by
  by_contra none
  have unending : forall place, inside place -> Relation.ReflTransGen leads first place ->
      ¬ended place ∧ ¬Relation.TransGen leads place place := by
    intro place here path
    exact ⟨fun ends => none ⟨place, here, path, .inl ends⟩,
      fun circle => none ⟨place, here, path, .inr circle⟩⟩
  -- Where there is no circle, one of the places that are met is the last.
  let Met := {place : Place // inside place ∧ Relation.ReflTransGen leads first place}
  let beyond : Met -> Met -> Prop := fun place other => Relation.TransGen leads other.1 place.1
  have : Finite Met := finite.subset (fun _ met => met.1) |>.to_subtype
  have : IsTrans Met beyond := ⟨fun _ _ _ left right => right.trans left⟩
  have : Std.Irrefl beyond := ⟨fun place => (unending place.1 place.2.1 place.2.2).2⟩
  have founded : WellFounded beyond := Finite.wellFounded_of_trans_of_irrefl beyond
  rcases founded.has_min Set.univ ⟨⟨first, starts, .refl⟩, trivial⟩ with
    ⟨⟨last, here, path⟩, _, least⟩
  rcases goes last here with ends | ⟨other, there, step⟩
  · exact (unending last here path).1 ends
  · exact least ⟨other, there, path.tail step⟩ trivial (.single step)

end

/-- The future that the continuation completes. -/
def Continuation.out : Continuation -> Option FutureId
  | observe => none
  | map out _ | flatMap out _ | onError out | doOnSuccess out | moveChain out | group _ out
  | zip out _ => some out

/-- A continuation waits for the other future to complete this one. -/
def State.WaitsFor (s : State) (f g : FutureId) : Prop :=
  Exists fun continuation => (g, continuation) ∈ s.waiting ∧ continuation.out = some f

theorem waiting_of_held {s : State} (between : s.stack = []) {r : Resource}
    (held : 0 < s.held.count r) : Exists fun f => Exists fun continuation =>
      (f, continuation) ∈ s.waiting ∧ r ∈ Continuation.resources f continuation := by
  rw [List.count_pos_iff, State.held, between, List.flatMap_nil, List.nil_append] at held
  rcases List.mem_flatMap.mp held with ⟨⟨f, continuation⟩, mem, holds⟩
  exact ⟨f, continuation, mem, holds⟩

namespace Sound

variable {s : State} {f : FutureId}

/-- A future that something waits for is pending. -/
theorem pending_of_waiting (sound : Sound s) (between : s.stack = [])
    {continuation : Continuation} (waits : (f, continuation) ∈ s.waiting) :
    f < s.count ∧ (s.futures f).isCompleted = false := by
  rcases sound.waits f continuation waits with ⟨inside, opened⟩
  refine ⟨inside, ?_⟩
  cases completed : (s.futures f).isCompleted with
  | false => rfl
  | true =>
      rcases sound.drained f completed with closed | mem
      · exact absurd (closed.symm.trans opened) (by decide)
      · rw [between] at mem
        cases mem

/-- The promise of a pending future is there. -/
theorem live_of_pending (sound : Sound s) (between : s.stack = []) (inside : f < s.count)
    (pending : (s.futures f).isCompleted = false) : (s.promises f).isLive = true := by
  by_contra dead
  have fulfilled := sound.dead f inside (Bool.eq_false_iff.mpr dead)
  rcases sound.fulfilled f fulfilled with completed | head
  · exact absurd (completed.symm.trans pending) (by decide)
  · rw [between] at head
    rcases head with ⟨result, impossible⟩
    cases impossible

/-- A future that is pending between calls is the client's to complete, or a continuation that
waits for another pending one completes it. -/
theorem waits_or_client (sound : Sound s) (between : s.stack = []) (inside : f < s.count)
    (pending : (s.futures f).isCompleted = false) : (s.promises f).isClient = true ∨
      Exists fun g => (g < s.count ∧ (s.futures g).isCompleted = false) ∧ s.WaitsFor f g := by
  have live := sound.live_of_pending between inside pending
  have balanced := sound.balanced (.promise f)
  simp only [State.total, State.extra, live, Bool.toNat_true] at balanced
  have waiting {r : Resource} (held : 0 < s.held.count r)
      (completes : forall (continuation : Continuation) g, r ∈ continuation.resources g ->
        continuation.out = some f) :
      Exists fun g => (g < s.count ∧ (s.futures g).isCompleted = false) ∧ s.WaitsFor f g := by
    rcases waiting_of_held between held with ⟨g, continuation, waits, holds⟩
    exact ⟨g, sound.pending_of_waiting between waits, continuation, waits,
      completes continuation g holds⟩
  by_cases mine : 0 < s.held.count (.promise f)
  · refine .inr (waiting mine ?_)
    intro continuation g
    cases continuation <;> simp [Continuation.resources, Continuation.out] <;> exact Eq.symm
  · by_cases group : 0 < (s.groups f).remaining
    · refine .inr (waiting (r := .report f) ?_ ?_)
      · have report := sound.balanced (.report f)
        simp only [State.total, State.extra] at report
        omega
      · intro continuation g
        cases continuation <;> simp [Continuation.resources, Continuation.out]
        exact Eq.symm
    · by_cases zip : 0 < (s.zips f).remaining
      · refine .inr (waiting (r := .half f) ?_ ?_)
        · have half := sound.balanced (.half f)
          simp only [State.total, State.extra] at half
          omega
        · intro continuation g
          cases continuation <;> simp [Continuation.resources, Continuation.out]
          exact Eq.symm
      · refine .inl (Bool.eq_true_of_not_eq_false ?_)
        intro client
        simp only [client, Bool.toNat_false, group, zip, false_and, if_false] at balanced
        omega

/-- What a pending future waits for comes to a promise of the client's, or into a circle. -/
theorem client_or_circle (sound : Sound s) (between : s.stack = []) (inside : f < s.count)
    (pending : (s.futures f).isCompleted = false) :
    Exists fun g => (g < s.count ∧ (s.futures g).isCompleted = false) ∧
      Relation.ReflTransGen s.WaitsFor f g ∧
        ((s.promises g).isClient = true ∨ Relation.TransGen s.WaitsFor g g) := by
  have finite : {g : FutureId | g < s.count ∧ (s.futures g).isCompleted = false}.Finite :=
    (Set.finite_lt_nat s.count).subset fun _ here => here.1
  exact end_or_circle finite (fun g here => sound.waits_or_client between here.1 here.2)
    ⟨inside, pending⟩

end Sound

/-- No future is orphaned.  What is pending between calls leads, through the continuations that
wait, to a pending future whose promise the client has, or into a circle of continuations. -/
theorem noOrphan {s : State} (reached : machine.Reachable s) (between : s.stack = [])
    {f : FutureId} (inside : f < s.count) (pending : (s.futures f).isCompleted = false) :
    Exists fun g => (g < s.count ∧ (s.futures g).isCompleted = false) ∧
      Relation.ReflTransGen s.WaitsFor f g ∧
        ((s.promises g).isClient = true ∨ Relation.TransGen s.WaitsFor g g) :=
  (reachable_sound reached).client_or_circle between inside pending

/-- A flatMap whose mapper returns a future that is still pending. -/
def innerWaits (inner : FutureId) : List Event :=
  [Event.call .create, .call (.flatMap 0)] ++ List.replicate 4 Event.step ++
    [Event.call (.setResult 0 ⟨0, some 7, true⟩)] ++ List.replicate 4 Event.step ++
    [Event.call .create, .answer (.future (some inner))] ++ List.replicate 4 Event.step

theorem noOrphan_innerWaits :
    let s := machine.after start (innerWaits 2)
    Exists fun g => (g < s.count ∧ (s.futures g).isCompleted = false) ∧
      Relation.ReflTransGen s.WaitsFor 1 g ∧
        ((s.promises g).isClient = true ∨ Relation.TransGen s.WaitsFor g g) := by
  have may : machine.AllEnabled start (innerWaits 2) := by decide
  exact noOrphan (.run (.start rfl) may.run) (by decide) (by decide) (by decide)

/-- The mapper returns the output itself, which then waits for itself. -/
example : machine.AllEnabled start (innerWaits 1) ∧
    (machine.after start (innerWaits 1)).waiting = [(1, .moveChain 1)] := by decide

end Operator
end UfsrvRx
