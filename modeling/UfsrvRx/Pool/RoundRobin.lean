import Mathlib.Data.List.Perm.Basic
import UfsrvRx.Counter.Residue
import UfsrvRx.Transition.Machine

namespace UfsrvRx
namespace Pool
namespace RoundRobin

open Transition Counter

/-!
# Round robin over the workers

`UfsrvSchedulerPoolSubmit` and `UfsrvSchedulerPoolSubmitTo` may be called from any number of
threads at once.  A step is one atomic operation on the pool or the call of
`UfsrvSchedulerSubmit` on the worker that was chosen; the steps of different calls come in any
order.  It does not matter which thread makes a call, so the calls in progress are a list.
-/

/-- How far a call has come: `UfsrvSchedulerPoolSubmitTo` is about to read `is_running`,
`UfsrvSchedulerPoolSubmit` is about to read it, it is about to advance the counter, or the
worker is chosen. -/
inductive Stage
  | enter
  | load
  | advance
  | submit (worker : Nat)
deriving DecidableEq, Repr

/-- A call of `UfsrvSchedulerPoolSubmit`, or of `UfsrvSchedulerPoolSubmitTo` with an index. -/
structure Call where
  workerIndex : Option Int
  stage : Stage
deriving DecidableEq, Repr

/-- What is shared of `struct UfsrvSchedulerPool`, and the calls in progress.  Where the counter
started, how often it was advanced and how often it wrapped, which worker was chosen how often,
and how many round-robin dispatches it has received is history. -/
structure State where
  next : Nat
  isRunning : Bool
  calls : List Call
  first : Nat
  dispatches : Nat
  wraps : Nat
  chosen : Nat -> Nat
  received : Nat -> Nat

inductive Event
  | submit (hasCallback : Bool)
  | submitTo (workerIndex : Int) (hasCallback : Bool)
  | setRunning (isRunning : Bool)
  | step (call : Call)
deriving DecidableEq, Repr

/-- `UfsrvSchedulerPoolSubmitTo` does not leave the choice to round robin. -/
def Pinned (workerPoolSz : Int) : Option Int -> Prop
  | none => False
  | some workerIndex => ¬(workerIndex < 0 ∨ workerPoolSz ≤ workerIndex)

instance (workerPoolSz : Int) (workerIndex : Option Int) :
    Decidable (Pinned workerPoolSz workerIndex) :=
  match workerIndex with
  | none => isFalse id
  | some _ => inferInstanceAs (Decidable (¬_))

/-! ## The calls -/

/-- The values of `unsigned`. -/
def unsignedRange : Nat := 2 ^ 32

/-- `(unsigned)worker_pool_sz`. -/
def unsigned (value : Int) : Nat :=
  (value % unsignedRange).toNat

namespace State

def push (s : State) (call : Call) : State := { s with calls := call :: s.calls }

/-- `atomic_fetch_add_explicit(&pool_ptr->next, 1u, memory_order_relaxed)`, and the choice. -/
def fetchAdd (workerPoolSz : Int) (s : State) : State :=
  let idx := s.next % unsigned workerPoolSz
  { s with
    next := (s.next + 1) % unsignedRange
    dispatches := s.dispatches + 1
    wraps := if s.next + 1 = unsignedRange then s.wraps + 1 else s.wraps
    chosen := Function.update s.chosen idx (s.chosen idx + 1) }

/-- `UfsrvSchedulerSubmit` is called on a worker. -/
def receive (s : State) (worker : Nat) : State :=
  { s with received := Function.update s.received worker (s.received worker + 1) }

end State

/-- The next step of a call.  A call that is left out after it has returned. -/
def perform (workerPoolSz : Int) (s : State) (workerIndex : Option Int) : Stage -> State
  | .enter =>
      if s.isRunning then
        match workerIndex with
        | none => s
        | some index =>
            if index < 0 ∨ workerPoolSz ≤ index then s.push ⟨workerIndex, .load⟩
            else s.push ⟨workerIndex, .submit index.toNat⟩
      else s
  | .load => if s.isRunning then s.push ⟨workerIndex, .advance⟩ else s
  | .advance =>
      (s.fetchAdd workerPoolSz).push ⟨workerIndex, .submit (s.next % unsigned workerPoolSz)⟩
  | .submit worker => if Pinned workerPoolSz workerIndex then s else s.receive worker

def enabled (s : State) : Event -> Prop
  | .step call => call ∈ s.calls
  | _ => True

def next (workerPoolSz : Int) (s : State) : Event -> State
  | .submit hasCallback => if hasCallback then s.push ⟨none, .load⟩ else s
  | .submitTo workerIndex hasCallback =>
      if hasCallback then s.push ⟨some workerIndex, .enter⟩ else s
  | .setRunning isRunning => { s with isRunning := isRunning }
  | .step call =>
      perform workerPoolSz { s with calls := s.calls.erase call } call.workerIndex call.stage

/-- The counter may stand anywhere before the first call. -/
structure Start (s : State) : Prop where
  inside : s.next < unsignedRange
  calls : s.calls = []
  first : s.first = s.next
  dispatches : s.dispatches = 0
  wraps : s.wraps = 0
  chosen : s.chosen = fun _ => 0
  received : s.received = fun _ => 0

def machine (workerPoolSz : Int) : Machine State Event where
  initial := Start
  enabled := enabled
  next := next workerPoolSz

instance (workerPoolSz : Int) (s : State) (event : Event) :
    Decidable ((machine workerPoolSz).enabled s event) :=
  match event with
  | .step call => inferInstanceAs (Decidable (call ∈ s.calls))
  | .submit _ | .submitTo _ _ | .setRunning _ => isTrue trivial

/-! ## What the choices add up to -/

section Counted

variable {workerPoolSz : Int}

theorem unsigned_eq (positive : 1 ≤ workerPoolSz) (fits : workerPoolSz ≤ 2147483647) :
    (unsigned workerPoolSz : Int) = workerPoolSz := by
  simp only [unsigned, unsignedRange]
  omega

/-- A round-robin dispatch is on its way to this worker. -/
def Call.sends (workerPoolSz : Int) (worker : Nat) (call : Call) : Bool :=
  decide (call.stage = .submit worker ∧ ¬Pinned workerPoolSz call.workerIndex)

theorem Call.sends_unchosen {call : Call} (unchosen : forall worker, call.stage ≠ .submit worker)
    (worker : Nat) : call.sends workerPoolSz worker = false :=
  decide_eq_false fun sends => unchosen worker sends.1

theorem Call.sends_pinned {call : Call} (pinned : Pinned workerPoolSz call.workerIndex)
    (worker : Nat) : call.sends workerPoolSz worker = false :=
  decide_eq_false fun sends => sends.2 pinned

/-- What the stage of a call says. -/
structure Call.Ok (workerPoolSz : Int) (call : Call) : Prop where
  inside : forall worker, call.stage = .submit worker -> (worker : Int) < workerPoolSz
  unpinned : call.stage = .load ∨ call.stage = .advance -> ¬Pinned workerPoolSz call.workerIndex

def State.tally (s : State) : Tally := ⟨s.next, s.dispatches, s.wraps, s.chosen⟩

/-- The counter and the choices, and the dispatches that these calls still owe. -/
structure Counted (workerPoolSz : Int) (s : State) (calls : List Call) : Prop where
  since : s.tally.Since unsignedRange (unsigned workerPoolSz) s.first
  works : forall call, call ∈ calls -> call.Ok workerPoolSz
  sent : forall worker,
    s.received worker + calls.countP (Call.sends workerPoolSz worker) = s.chosen worker

namespace Counted

variable {s : State} {call new : Call} {calls : List Call}

theorem start (starts : Start s) : Counted workerPoolSz s s.calls := by
  have fresh : s.tally = Tally.fresh s.first := by
    simp only [State.tally, Tally.fresh, starts.first, starts.dispatches, starts.wraps,
      starts.chosen]
  constructor
  · rw [fresh, starts.first]
    exact .fresh starts.inside
  · simp [starts.calls]
  · simp [starts.calls, starts.chosen, starts.received]

/-- A call in progress may be put before the others. -/
theorem bring (counted : Counted workerPoolSz s s.calls) (mem : call ∈ s.calls) :
    Counted workerPoolSz { s with calls := s.calls.erase call } (call :: s.calls.erase call) := by
  have perm := List.perm_cons_erase mem
  refine ⟨counted.since, ?_, ?_⟩
  · intro other mem
    exact counted.works other (perm.mem_iff.mpr mem)
  · intro worker
    rw [<- perm.countP_eq]
    exact counted.sent worker

theorem push (counted : Counted workerPoolSz s (call :: s.calls)) :
    Counted workerPoolSz (s.push call) (s.push call).calls :=
  ⟨counted.since, counted.works, counted.sent⟩

/-- A call goes on, with the same dispatch on its way. -/
theorem exchange (counted : Counted workerPoolSz s (call :: calls)) (ok : new.Ok workerPoolSz)
    (same : forall worker, new.sends workerPoolSz worker = call.sends workerPoolSz worker) :
    Counted workerPoolSz s (new :: calls) := by
  refine ⟨counted.since, ?_, ?_⟩
  · intro other mem
    rcases List.mem_cons.mp mem with rfl | mem
    · exact ok
    · exact counted.works other (List.mem_cons_of_mem _ mem)
  · intro worker
    rw [List.countP_cons, same worker, <- List.countP_cons]
    exact counted.sent worker

/-- A call returns with no dispatch on its way. -/
theorem drop (counted : Counted workerPoolSz s (call :: calls))
    (none : forall worker, call.sends workerPoolSz worker = false) :
    Counted workerPoolSz s calls := by
  refine ⟨counted.since, ?_, ?_⟩
  · intro other mem
    exact counted.works other (List.mem_cons_of_mem _ mem)
  · intro worker
    have sent := counted.sent worker
    rw [List.countP_cons_of_neg (ne_true_of_eq_false (none worker))] at sent
    exact sent

theorem enter (counted : Counted workerPoolSz s calls) (ok : new.Ok workerPoolSz)
    (none : forall worker, new.sends workerPoolSz worker = false) :
    Counted workerPoolSz s (new :: calls) := by
  refine ⟨counted.since, ?_, ?_⟩
  · intro other mem
    rcases List.mem_cons.mp mem with rfl | mem
    · exact ok
    · exact counted.works other mem
  · intro worker
    rw [List.countP_cons_of_neg (ne_true_of_eq_false (none worker))]
    exact counted.sent worker

/-- The counter is advanced, and a dispatch is on its way to the worker that it pointed at. -/
theorem fetchAdd {workerIndex : Option Int}
    (counted : Counted workerPoolSz s (⟨workerIndex, .advance⟩ :: calls))
    (positive : 1 ≤ workerPoolSz) (fits : workerPoolSz ≤ 2147483647) :
    Counted workerPoolSz (s.fetchAdd workerPoolSz)
      (⟨workerIndex, .submit (s.next % unsigned workerPoolSz)⟩ :: calls) := by
  have size := unsigned_eq positive fits
  have unpinned : ¬Pinned workerPoolSz workerIndex :=
    (counted.works _ List.mem_cons_self).unpinned (.inr rfl)
  refine ⟨counted.since.take, ?_, ?_⟩
  · intro other mem
    rcases List.mem_cons.mp mem with rfl | mem
    · refine ⟨?_, fun stage => absurd stage (by simp)⟩
      rintro worker ⟨⟩
      have inside := Nat.mod_lt s.next (show 0 < unsigned workerPoolSz by omega)
      omega
    · exact counted.works other (List.mem_cons_of_mem _ mem)
  · intro worker
    have sent := counted.sent worker
    have none : forall worker,
        (Call.mk workerIndex .advance).sends workerPoolSz worker = false :=
      Call.sends_unchosen nofun
    rw [List.countP_cons_of_neg (ne_true_of_eq_false (none worker))] at sent
    have chosen := Tally.taken_take unsignedRange (unsigned workerPoolSz) worker s.tally
    change s.received worker + _ =
      (s.tally.take unsignedRange (unsigned workerPoolSz)).taken worker
    rw [chosen, List.countP_cons]
    change s.received worker + (_ + _) = s.chosen worker + if s.next % _ = worker then 1 else 0
    simp only [Call.sends, unpinned, not_false_eq_true, and_true, Stage.submit.injEq,
      decide_eq_true_eq]
    omega

/-- A worker receives a dispatch. -/
theorem receive {workerIndex : Option Int} {worker : Nat}
    (counted : Counted workerPoolSz s (⟨workerIndex, .submit worker⟩ :: calls))
    (unpinned : ¬Pinned workerPoolSz workerIndex) :
    Counted workerPoolSz (s.receive worker) calls := by
  refine ⟨counted.since, ?_, ?_⟩
  · intro other mem
    exact counted.works other (List.mem_cons_of_mem _ mem)
  · intro other
    have sent := counted.sent other
    rw [List.countP_cons] at sent
    simp only [Call.sends, unpinned, not_false_eq_true, and_true, Stage.submit.injEq,
      decide_eq_true_eq] at sent
    simp only [State.receive]
    by_cases same : worker = other
    · subst same
      rw [Function.update_self]
      rw [if_pos rfl] at sent
      exact (by omega : _ + 1 + _ = _ + (_ + 1)).trans sent
    · rw [Function.update_of_ne (Ne.symm same)]
      rw [if_neg same] at sent
      exact sent

theorem perform {workerIndex : Option Int} {stage : Stage} (positive : 1 ≤ workerPoolSz)
    (fits : workerPoolSz ≤ 2147483647)
    (counted : Counted workerPoolSz s (⟨workerIndex, stage⟩ :: s.calls)) :
    Counted workerPoolSz (perform workerPoolSz s workerIndex stage)
      (RoundRobin.perform workerPoolSz s workerIndex stage).calls := by
  have works := counted.works _ List.mem_cons_self
  cases stage with
  | enter =>
      have none : forall worker, (Call.mk workerIndex .enter).sends workerPoolSz worker = false :=
        Call.sends_unchosen nofun
      simp only [RoundRobin.perform]
      split
      · cases workerIndex with
        | none => exact counted.drop none
        | some index =>
            by_cases outside : index < 0 ∨ workerPoolSz ≤ index
            · simp only [if_pos outside]
              have ok : (Call.mk (some index) .load).Ok workerPoolSz :=
                ⟨nofun, fun _ pinned => pinned outside⟩
              have unsent : forall worker,
                  (Call.mk (some index) .load).sends workerPoolSz worker = false :=
                Call.sends_unchosen nofun
              refine (counted.exchange ok ?_).push
              exact fun worker => (unsent worker).trans (none worker).symm
            · simp only [if_neg outside]
              have pinned : Pinned workerPoolSz (some index) := outside
              have ok : (Call.mk (some index) (.submit index.toNat)).Ok workerPoolSz := by
                refine ⟨?_, fun early => absurd early (by simp)⟩
                rintro worker ⟨⟩
                omega
              refine (counted.exchange ok ?_).push
              exact fun worker => (Call.sends_pinned pinned worker).trans (none worker).symm
      · exact counted.drop none
  | load =>
      have none : forall worker, (Call.mk workerIndex .load).sends workerPoolSz worker = false :=
        Call.sends_unchosen nofun
      simp only [RoundRobin.perform]
      split
      · have ok : (Call.mk workerIndex .advance).Ok workerPoolSz :=
          ⟨nofun, fun _ => works.unpinned (.inl rfl)⟩
        have unsent : forall worker,
            (Call.mk workerIndex .advance).sends workerPoolSz worker = false :=
          Call.sends_unchosen nofun
        refine (counted.exchange ok ?_).push
        exact fun worker => (unsent worker).trans (none worker).symm
      · exact counted.drop none
  | advance => exact push (s := s.fetchAdd workerPoolSz) (counted.fetchAdd positive fits)
  | submit worker =>
      simp only [RoundRobin.perform]
      split
      · rename_i pinned
        exact counted.drop (Call.sends_pinned pinned)
      · rename_i unpinned
        exact counted.receive unpinned

theorem next {event : Event} (positive : 1 ≤ workerPoolSz) (fits : workerPoolSz ≤ 2147483647)
    (counted : Counted workerPoolSz s s.calls) (enabled : enabled s event) :
    Counted workerPoolSz (RoundRobin.next workerPoolSz s event)
      (RoundRobin.next workerPoolSz s event).calls := by
  cases event with
  | submit hasCallback =>
      simp only [RoundRobin.next]
      split
      · have ok : (Call.mk none .load).Ok workerPoolSz := ⟨nofun, fun _ => id⟩
        exact (counted.enter ok (Call.sends_unchosen nofun)).push
      · exact counted
  | submitTo workerIndex hasCallback =>
      simp only [RoundRobin.next]
      split
      · have ok : (Call.mk (some workerIndex) .enter).Ok workerPoolSz :=
          ⟨nofun, fun early => absurd early (by simp)⟩
        exact (counted.enter ok (Call.sends_unchosen nofun)).push
      · exact counted
  | setRunning isRunning => exact ⟨counted.since, counted.works, counted.sent⟩
  | step call => exact (counted.bring enabled).perform positive fits

end Counted

end Counted

theorem reachable_counted {workerPoolSz : Int} {s : State} (positive : 1 ≤ workerPoolSz)
    (fits : workerPoolSz ≤ 2147483647) (reached : (machine workerPoolSz).Reachable s) :
    Counted workerPoolSz s s.calls := by
  refine reached.invariant (fun s => Counted workerPoolSz s s.calls) ?_ ?_
  · exact fun s starts => .start starts
  · exact fun s event _ counted enabled => counted.next positive fits enabled

/-! ## Balance -/

/-- No round-robin dispatch is between its choice and `UfsrvSchedulerSubmit`. -/
def State.Delivered (workerPoolSz : Int) (s : State) : Prop :=
  forall call worker, call ∈ s.calls -> call.stage = .submit worker ->
    Pinned workerPoolSz call.workerIndex

/-- Every choice is a worker of the pool; only a dispatch that is left to round robin moves the
counter, by one each; and the workers get equally many of these, up to one and one more for each
time that the counter wrapped. -/
structure Balanced (workerPoolSz : Int) (s : State) : Prop where
  inside : forall call worker, call ∈ s.calls -> call.stage = .submit worker ->
    (worker : Int) < workerPoolSz
  pinned : forall event, enabled s event ->
    (forall call, event = .step call -> Pinned workerPoolSz call.workerIndex) ->
    (next workerPoolSz s event).next = s.next
  wraps : s.next + s.wraps * 2 ^ 32 = s.first + s.dispatches
  chosen : forall left right : Nat, left < workerPoolSz -> right < workerPoolSz ->
    s.chosen left ≤ s.chosen right + (s.wraps + 1)
  received : s.Delivered workerPoolSz -> forall left right : Nat, left < workerPoolSz ->
    right < workerPoolSz -> s.received left ≤ s.received right + (s.wraps + 1)

theorem next_pinned {workerPoolSz : Int} {s : State} {call : Call}
    (counted : Counted workerPoolSz s s.calls) (mem : call ∈ s.calls)
    (pinned : Pinned workerPoolSz call.workerIndex) :
    (next workerPoolSz s (.step call)).next = s.next := by
  have works := counted.works call mem
  cases call with
  | mk workerIndex stage =>
      cases stage with
      | enter =>
          simp only [next, perform]
          split
          · cases workerIndex with
            | none => rfl
            | some index =>
                have inside : ¬(index < 0 ∨ workerPoolSz ≤ index) := pinned
                simp only [if_neg inside, State.push]
          · rfl
      | load => exact absurd pinned (works.unpinned (.inl rfl))
      | advance => exact absurd pinned (works.unpinned (.inr rfl))
      | submit worker =>
          have mine : Pinned workerPoolSz workerIndex := pinned
          simp only [next, perform, if_pos mine]

theorem received_delivered {workerPoolSz : Int} {s : State}
    (counted : Counted workerPoolSz s s.calls) (delivered : s.Delivered workerPoolSz)
    (worker : Nat) : s.received worker = s.chosen worker := by
  have none : s.calls.countP (Call.sends workerPoolSz worker) = 0 := by
    rw [List.countP_eq_zero]
    intro call mem sends
    have both := of_decide_eq_true sends
    exact both.2 (delivered call worker mem both.1)
  have sent := counted.sent worker
  rw [none] at sent
  exact sent

theorem roundRobin (workerPoolSz : Int) (positive : 1 ≤ workerPoolSz)
    (fits : workerPoolSz ≤ 2147483647) (s : State)
    (reached : (machine workerPoolSz).Reachable s) : Balanced workerPoolSz s := by
  have counted := reachable_counted positive fits reached
  have size := unsigned_eq positive fits
  have chosen : forall left right : Nat, left < workerPoolSz -> right < workerPoolSz ->
      s.chosen left ≤ s.chosen right + (s.wraps + 1) := by
    intro left right leftInside rightInside
    have leftLess : left < unsigned workerPoolSz := by omega
    have rightLess : right < unsigned workerPoolSz := by omega
    exact counted.since.balanced leftLess rightLess
  constructor
  · intro call worker mem stage
    exact (counted.works call mem).inside worker stage
  · intro event enabled pinned
    cases event with
    | submit hasCallback | submitTo workerIndex hasCallback => cases hasCallback <;> rfl
    | setRunning isRunning => rfl
    | step call => exact next_pinned counted enabled (pinned call rfl)
  · exact counted.since.total
  · exact chosen
  · intro delivered left right leftInside rightInside
    rw [received_delivered counted delivered, received_delivered counted delivered]
    exact chosen left right leftInside rightInside

/-- The counter is about to wrap when the pool is started. -/
def aboutToWrap : State :=
  ⟨4294967295, true, [], 4294967295, 0, 0, fun _ => 0, fun _ => 0⟩

/-- Two dispatches of three workers, one of them through an index out of range, and one that is
pinned. -/
def acrossTheWrap : List Event :=
  [.submit true, .submitTo 7 true, .submitTo 2 true, .step ⟨none, .load⟩, .step ⟨none, .advance⟩,
    .step ⟨some 7, .enter⟩, .step ⟨some 2, .enter⟩, .step ⟨some 7, .load⟩,
    .step ⟨some 7, .advance⟩, .step ⟨some 2, .submit 2⟩, .step ⟨some 7, .submit 0⟩,
    .step ⟨none, .submit 0⟩]

theorem roundRobin_acrossTheWrap :
    Balanced 3 ((machine 3).after aboutToWrap acrossTheWrap) ∧
      ((machine 3).after aboutToWrap acrossTheWrap).wraps = 1 ∧
      ((machine 3).after aboutToWrap acrossTheWrap).received 0 = 2 := by
  have starts : Start aboutToWrap := ⟨by decide, rfl, rfl, rfl, rfl, rfl, rfl⟩
  have may : (machine 3).AllEnabled aboutToWrap acrossTheWrap := by decide
  exact ⟨roundRobin 3 (by decide) (by decide) _ (.run (.start starts) may.run), by decide,
    by decide⟩

end RoundRobin
end Pool
end UfsrvRx
