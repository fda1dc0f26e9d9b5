import UfsrvRx.Combinator.Zip

namespace UfsrvRx
namespace Combinator
namespace Zip
namespace Failure

open Transition
open Future (Result ValueId)

/-!
# `UfsrvFutureZip` when memory runs out

The call with the outcome of each of its allocations.  Up to the registrations it works on
objects that nobody else knows, so that part is made in one step; from there on its steps
are those of the previous module, and a registration may be refused.  Then the call returns
NULL at once, whether or not the continuation of the first input was registered.
-/

/-- The allocations of the call.  `UfsrvPromiseCreate` makes the first four. -/
inductive Allocation
  | future
  | promise
  | continuations
  | waiters
  | context
  | node (slot : Slot)
deriving DecidableEq, Repr

/-- The objects of the call other than its context: the references and frees of the out
future, and the frees of the out promise. -/
structure Objects where
  outRefs : Nat
  outFrees : Nat
  promiseFrees : Nat
deriving DecidableEq, Repr

namespace Objects

/-- `UfsrvFutureRelease` of the out future. -/
def release (objects : Objects) : Objects :=
  { objects with
    outRefs := objects.outRefs - 1
    outFrees := objects.outFrees + if objects.outRefs = 1 then 1 else 0 }

/-- `UfsrvPromiseDestroy` of the out promise, less the completion. -/
def destroy (objects : Objects) : Objects :=
  { objects.release with promiseFrees := objects.promiseFrees + 1 }

end Objects

/-- The state of `Zip` with the outcomes of the allocations and the other objects. -/
structure State where
  memory : Allocation -> Bool
  zip : Zip.State
  objects : Objects

section Early

variable (memory : Allocation -> Bool)

/-- `UfsrvPromiseCreate` returns a promise. -/
def promiseCreated : Bool :=
  memory .future && memory .promise && memory .continuations && memory .waiters

/-- The call gets to its registrations. -/
def registers : Bool :=
  promiseCreated memory && memory .context

/-- What `UfsrvPromiseCreate` has made when it returns. -/
def promiseCreate : Objects :=
  if memory .future then
    if memory .promise then
      if memory .continuations && memory .waiters then ⟨2, 0, 0⟩
      else ⟨0, 1, 1⟩
    else ⟨0, 1, 0⟩
  else ⟨0, 0, 0⟩

/-- The objects when the call stands before its registrations or has returned NULL. -/
def created : Objects :=
  if promiseCreated memory then
    if memory .context then promiseCreate memory
    else (promiseCreate memory).destroy.release
  else promiseCreate memory

/-- The output, completed by `UfsrvPromiseDestroy` if there was no memory for the context. -/
def createdOutput : Output :=
  if promiseCreated memory && !memory .context then Output.create.destroy else .create

end Early

/-- An allocation of the call was made. -/
def State.made (s : State) : Allocation -> Bool
  | .future => s.memory .future
  | .promise => s.memory .future && s.memory .promise
  | .continuations | .waiters => s.memory .future && s.memory .promise
  | .context => promiseCreated s.memory && s.memory .context
  | .node slot => s.memory (.node slot)

/-- The call has returned NULL. -/
def State.Failed (s : State) : Prop :=
  registers s.memory = false ∨ Exists fun slot => (s.zip.layer.slots slot).refused = some true

/-- The call has returned. -/
def State.Returned (s : State) : Prop :=
  s.Failed ∨ s.zip.layer.loop = .returned

/-- A node is allocated after READY was not seen.  A continuation returns when it has done
its work. -/
def admits (s : State) : Combinator.Event -> Prop
  | .drainDone _ slot _ | .loopDone slot => s.zip.frames slot = .done
  | .refuse slot => registers s.memory = true ∧ s.zip.layer.loop = .pushing slot ∧
      s.memory (.node slot) = false
  | .push slot _ => registers s.memory = true ∧ s.memory (.node slot) = true
  | .check _ _ | .loopReturn => registers s.memory = true
  | _ => True

section arguments

variable (arguments : Arguments)

/-- The client keeps its references until the call has returned. -/
def enabled (s : State) : Event -> Prop
  | .layer event => Combinator.enabled arguments.call s.zip.layer event ∧ admits s event
  | .release future => 0 < s.zip.others future ∧ (s.zip.others future = 1 ->
      (s.zip.layer.cells future).drain = .returned ∧ s.Returned)
  | event => Zip.enabled arguments s.zip event

def next (s : State) (event : Event) : State :=
  { s with
    zip := Zip.next arguments s.zip event
    objects :=
      match event with
      | .destroy _ => s.objects.destroy
      | _ => s.objects }

/-- The call before its registrations, or after it has failed before them. -/
def start (others : FutureId -> Nat) (memory : Allocation -> Bool) : State where
  memory := memory
  zip :=
    if registers memory then Zip.start arguments others
    else
      { Zip.start arguments others with
        output := createdOutput memory
        refcount := others }
  objects := created memory

def machine : Machine State Event where
  initial := fun s => Exists fun others => Exists fun memory =>
    (forall future, 0 < others future) ∧ s = start arguments others memory
  enabled := enabled arguments
  next := next arguments

/-! ## Nothing left -/

/-- Both inputs have completed, and nobody but the call holds a reference. -/
def State.Abandoned (s : State) : Prop :=
  forall future, future = arguments.first ∨ future = arguments.second ->
    (s.zip.layer.cells future).drain = .returned ∧ s.zip.others future = 0

/-- The inputs were freed, and so was what the call has allocated, each once. -/
structure State.Clean (s : State) : Prop where
  first : s.zip.freed arguments.first = 1
  second : s.zip.freed arguments.second = 1
  context : s.zip.frees = if s.made .context then 1 else 0
  promise : s.objects.promiseFrees = if s.made .promise then 1 else 0
  future : s.objects.outFrees = if s.made .future then 1 else 0

end arguments

/-! ## While the counter is above zero -/

/-- The references that the call has taken when it stands before its registrations. -/
def kept (arguments : Arguments) (memory : Allocation -> Bool) (future : FutureId) : Nat :=
  if registers memory then
    (if arguments.first = future then 1 else 0) + if arguments.second = future then 1 else 0
  else 0

/-- `sZipComplete` has not begun: the context, its promise and the references of the call are
as the call has left them. -/
structure Untouched (arguments : Arguments) (s : State) : Prop where
  frees : s.zip.frees = 0
  objects : s.objects = created s.memory
  refcount : forall f, s.zip.refcount f = s.zip.others f + kept arguments s.memory f
  freed : forall f, s.zip.freed f = if s.zip.refcount f = 0 then 1 else 0

theorem Frame.waiting_of_late {frame : Frame} (late : frame.late = true) :
    frame.waiting = false := by
  cases frame <;> first | rfl | cases late

/-- A continuation that was refused is never run, so its share of the counter stays. -/
structure Inv (arguments : Arguments) (s : State) : Prop where
  early : registers s.memory = false -> s.zip.layer.loop = .visiting 0
  works : forall i, Works (s.zip.frames i = .entered) (s.zip.frames i = .done)
    (s.zip.layer.slots i)
  refused : forall i, (s.zip.layer.slots i).refused = some true -> s.zip.frames i = .entered
  counts : Counts 2 (fun i => (s.zip.frames i).waiting) s.zip.remaining
  late : forall i, (s.zip.frames i).late = true -> s.zip.remaining = 0
  untouched : 0 < s.zip.remaining -> Untouched arguments s

namespace Inv

variable {arguments : Arguments} {s : State}

theorem start (arguments : Arguments) {others : FutureId -> Nat} (memory : Allocation -> Bool)
    (held : forall future, 0 < others future) :
    Inv arguments (start arguments others memory) := by
  have zip : (Failure.start arguments others memory).zip.layer = Combinator.start ∧
      (Failure.start arguments others memory).zip.frames = (fun _ => .entered) ∧
      (Failure.start arguments others memory).zip.remaining = 2 := by
    unfold Failure.start
    cases registers memory <;> exact ⟨rfl, rfl, rfl⟩
  rcases zip with ⟨layer, frames, remaining⟩
  constructor
  · rw [layer]
    exact fun _ => rfl
  · rw [layer, frames]
    exact fun i => ⟨fun _ => rfl, by simp [Combinator.start]⟩
  · rw [layer]
    simp [Combinator.start, SlotFrame.refused]
  · rw [frames, remaining]
    exact .all 2
  · rw [frames]
    simp [Frame.late]
  · intro _
    constructor
    · unfold Failure.start
      cases registers memory <;> rfl
    · rfl
    · intro f
      simp only [Failure.start, kept]
      cases registers memory <;> rfl
    · intro f
      have := held f
      simp only [Failure.start]
      cases registers memory <;> simp only [Zip.start] <;> grind

/-- The registrations go on. -/
theorem layer (ok : Inv arguments s) (placed : Placed arguments.call s.zip.layer)
    {event : Combinator.Event} (may : enabled arguments s (.layer event)) :
    Inv arguments (next arguments s (.layer event)) where
  early := by
    intro none
    change registers s.memory = false at none
    have here := ok.early none
    rcases may with ⟨may, admitted⟩
    cases event with
    | refuse | push => simp [admits, none] at admitted
    | check | loopReturn => simp [admits, none] at admitted
    | loopDone => simp [Combinator.enabled, here] at may
    | drainDone =>
        simp only [next, Zip.next, Combinator.next, State.finish_loop]
        exact here
    | _ => exact here
  works := by
    intro i
    refine (ok.works i).next (advances_next placed event may.1 i) ?_
    intro ends
    have admitted := may.2
    cases event <;> simp only [Combinator.Event.ends] at ends
    · subst ends
      exact admitted
    · subst ends
      exact admitted
  refused := by
    intro i here
    have advances := advances_next placed event may.1 i
    have fresh := (ok.works i).fresh
    have before := ok.refused i
    change ((Combinator.next s.zip.layer event).slots i).refused = some true at here
    change s.zip.frames i = .entered
    generalize s.zip.layer.slots i = old at advances fresh before
    generalize (Combinator.next s.zip.layer event).slots i = new at advances here
    cases advances with
    | same => exact before here
    | link => exact fresh (.inl rfl)
    | run => exact fresh (.inl rfl)
    | drain => exact fresh (.inr rfl)
    | finish => exact before here
  counts := ok.counts
  late := ok.late
  untouched := fun positive => ⟨(ok.untouched positive).frees, (ok.untouched positive).objects,
    (ok.untouched positive).refcount, (ok.untouched positive).freed⟩

/-- Somebody else takes or gives up a reference. -/
theorem frame (ok : Inv arguments s) {after : State} (memory : after.memory = s.memory)
    (layer : after.zip.layer = s.zip.layer) (frames : after.zip.frames = s.zip.frames)
    (remaining : after.zip.remaining = s.zip.remaining)
    (untouched : Untouched arguments s -> Untouched arguments after) : Inv arguments after := by
  constructor
  · simpa only [memory, layer] using ok.early
  · simpa only [layer, frames] using ok.works
  · simpa only [layer, frames] using ok.refused
  · simpa only [frames, remaining] using ok.counts
  · simpa only [frames, remaining] using ok.late
  · intro positive
    rw [remaining] at positive
    exact untouched (ok.untouched positive)

theorem retain (ok : Inv arguments s) {future : FutureId}
    (may : enabled arguments s (.retain future)) :
    Inv arguments (next arguments s (.retain future)) := by
  change 0 < s.zip.others future at may
  refine ok.frame rfl rfl rfl rfl ?_
  intro before
  refine ⟨before.frees, before.objects, ?_, ?_⟩
  · intro f
    have := before.refcount f
    simp only [next, Zip.next]
    grind
  · intro f
    have := before.refcount f
    have := before.freed f
    simp only [next, Zip.next]
    grind

theorem release (ok : Inv arguments s) {future : FutureId}
    (may : enabled arguments s (.release future)) :
    Inv arguments (next arguments s (.release future)) := by
  have positive := may.1
  refine ok.frame rfl rfl rfl rfl ?_
  intro before
  refine ⟨before.frees, before.objects, ?_, ?_⟩
  · intro f
    have := before.refcount f
    simp only [next, Zip.next, Zip.State.drop]
    grind
  · intro f
    have := before.refcount f
    have := before.freed f
    simp only [next, Zip.next, Zip.State.drop]
    grind

/-- A continuation at work was not refused, and it goes on to another point. -/
theorem work (ok : Inv arguments s) {slot : Slot} {frame : Frame} {after : State}
    (running : s.zip.layer.slots slot = .running false) (memory : after.memory = s.memory)
    (layer : after.zip.layer = s.zip.layer)
    (frames : after.zip.frames = Function.update s.zip.frames slot frame)
    (counts : Counts 2 (fun i => (after.zip.frames i).waiting) after.zip.remaining)
    (late : forall i, (after.zip.frames i).late = true -> after.zip.remaining = 0)
    (untouched : 0 < after.zip.remaining -> Untouched arguments after) : Inv arguments after := by
  constructor
  · simpa only [memory, layer] using ok.early
  · intro i
    rw [layer, frames]
    by_cases mine : i = slot
    · subst i
      exact .of_running running
    · simpa only [Function.update_of_ne mine] using ok.works i
  · intro i here
    rw [layer] at here
    rw [frames]
    by_cases mine : i = slot
    · subst i
      simp [running, SlotFrame.refused] at here
    · simpa only [Function.update_of_ne mine] using ok.refused i here
  · exact counts
  · exact late
  · exact untouched

/-- An entry that has begun its work runs and was not refused. -/
theorem running (ok : Inv arguments s) {slot : Slot} (begun : s.zip.frames slot ≠ .entered)
    (unfinished : s.zip.frames slot ≠ .done) : s.zip.layer.slots slot = .running false := by
  rcases (ok.works slot).running begun unfinished with ⟨refused, here⟩
  cases refused with
  | false => exact here
  | true => exact absurd (ok.refused slot (by rw [here]; rfl)) begun

theorem store (ok : Inv arguments s) {slot : Slot} {future : FutureId}
    (may : enabled arguments s (.store slot future)) :
    Inv arguments (next arguments s (.store slot future)) := by
  rcases may with ⟨running, entered, _⟩
  refine ok.work running rfl rfl rfl ?_ ?_ ?_
  · refine ok.counts.congr ?_
    intro i _
    simp only [next, Zip.next, Zip.State.setFrame]
    grind
  · intro i
    have := ok.late i
    simp only [next, Zip.next, Zip.State.setFrame]
    grind
  · intro positive
    have before := ok.untouched positive
    exact ⟨before.frees, before.objects, before.refcount, before.freed⟩

theorem subtract (ok : Inv arguments s) (placed : Placed arguments.call s.zip.layer) {slot : Slot}
    (may : enabled arguments s (.subtract slot)) :
    Inv arguments (next arguments s (.subtract slot)) := by
  change s.zip.frames slot = .subtracting at may
  have running : s.zip.layer.slots slot = .running false :=
    ok.running (by simp [may]) (by simp [may])
  have inside : slot < 2 := placed.lt_count slot (by rw [running]; simp)
  have counted := ok.counts.report inside (by rw [may]; rfl)
  refine ok.work running rfl rfl rfl ?_ ?_ ?_
  · refine counted.2.congr ?_
    intro i _
    simp only [next, Zip.next, Zip.State.setFrame]
    grind
  · intro i
    have := ok.late i
    simp only [next, Zip.next, Zip.State.setFrame]
    grind
  · intro positive
    have before := ok.untouched counted.1
    exact ⟨before.frees, before.objects, before.refcount, before.freed⟩

/-- `sZipComplete` goes on. -/
theorem finish (ok : Inv arguments s) {slot : Slot} {frame : Frame} {after : State}
    (late : (s.zip.frames slot).late = true) (memory : after.memory = s.memory)
    (layer : after.zip.layer = s.zip.layer)
    (frames : after.zip.frames = Function.update s.zip.frames slot frame)
    (remaining : after.zip.remaining = s.zip.remaining)
    (goes : frame.late = true ∨ frame = .done) : Inv arguments after := by
  have zero := ok.late slot late
  have running : s.zip.layer.slots slot = .running false := by
    refine ok.running ?_ ?_
    · intro here
      simp [here, Frame.late] at late
    · intro here
      simp [here, Frame.late] at late
  refine ok.work running memory layer frames ?_ ?_ ?_
  · rw [frames, remaining]
    refine ok.counts.congr ?_
    intro i _
    have before := Frame.waiting_of_late late
    have still : frame.waiting = false := by
      rcases goes with isLate | done
      · exact Frame.waiting_of_late isLate
      · rw [done]
        rfl
    grind
  · intro i _
    rw [remaining, zero]
  · intro positive
    rw [remaining, zero] at positive
    cases positive

end Inv

theorem reachable_layer {arguments : Arguments} {s : State}
    (reached : (machine arguments).Reachable s) :
    (Combinator.machine arguments.call).Reachable s.zip.layer := by
  refine reached.component (Combinator.machine arguments.call) (fun s => s.zip.layer) ?_ ?_
  · rintro s ⟨others, memory, _, rfl⟩
    change (start arguments others memory).zip.layer = Combinator.start
    unfold start
    cases registers memory <;> rfl
  · intro s event may
    cases event with
    | layer event => exact .inr ⟨event, may.1, rfl⟩
    | decide slot =>
        refine .inl ?_
        change (Zip.next arguments s.zip (.decide slot)).layer = s.zip.layer
        simp only [Zip.next]
        split
        · rfl
        · split <;> rfl
    | _ => exact .inl rfl

theorem inv_next {arguments : Arguments} {s : State} (ok : Inv arguments s)
    (placed : Placed arguments.call s.zip.layer) (event : Event)
    (may : enabled arguments s event) : Inv arguments (next arguments s event) := by
  have late : forall {slot frame}, s.zip.frames slot = frame -> frame.late = true ->
      (s.zip.frames slot).late = true := by
    intro slot frame here isLate
    rwa [here]
  cases event with
  | layer event => exact ok.layer placed may
  | retain future => exact ok.retain may
  | release future => exact ok.release may
  | store slot future => exact ok.store may
  | subtract slot => exact ok.subtract placed may
  | decide slot =>
      have isLate := late may rfl
      simp only [next, Zip.next]
      split
      · exact ok.finish isLate rfl rfl rfl rfl (.inl rfl)
      · split <;> exact ok.finish isLate rfl rfl rfl rfl (.inl rfl)
  | zip | set | destroy | free | releaseFirst =>
      exact ok.finish (late may rfl) rfl rfl rfl rfl (.inl rfl)
  | releaseSecond => exact ok.finish (late may rfl) rfl rfl rfl rfl (.inr rfl)

theorem reachable_inv {arguments : Arguments} {s : State}
    (reached : (machine arguments).Reachable s) : Inv arguments s := by
  refine reached.invariant (Inv arguments) ?_ ?_
  · rintro s ⟨others, memory, held, rfl⟩
    exact .start arguments memory held
  · intro s event reached ok may
    exact inv_next ok (reachable_placed (reachable_layer reached)) event may

/-! ## A call that returns NULL -/

/-- What was made before the registrations is freed when the call returns NULL there. -/
theorem created_freed {memory : Allocation -> Bool} (none : registers memory = false) :
    (created memory).promiseFrees = (if memory .future && memory .promise then 1 else 0) ∧
      (created memory).outFrees = (if memory .future then 1 else 0) ∧
      (promiseCreated memory && memory .context) = false := by
  revert none
  unfold registers created promiseCreate promiseCreated
  generalize memory .future = future, memory .promise = promise,
    memory .continuations = continuations, memory .waiters = waiters, memory .context = context
  revert future promise continuations waiters context
  decide

namespace Inv

variable {arguments : Arguments} {s : State}

/-- The call has returned NULL before its registrations. -/
theorem untouched_of_early (ok : Inv arguments s) (placed : Placed arguments.call s.zip.layer)
    (none : registers s.memory = false) : Untouched arguments s := by
  refine ok.untouched ?_
  have here := ok.early none
  have entered : s.zip.frames 0 = .entered := by
    refine (ok.works 0).fresh (.inl ?_)
    refine (placed.entries 0).idle.mpr ?_
    rw [here]
    exact Nat.le_refl 0
  exact (ok.counts.report Nat.two_pos (by rw [entered]; rfl)).1

/-- The share of a refused continuation is never subtracted. -/
theorem untouched_of_refused (ok : Inv arguments s) (placed : Placed arguments.call s.zip.layer)
    {slot : Slot} (refused : (s.zip.layer.slots slot).refused = some true) :
    Untouched arguments s := by
  refine ok.untouched ?_
  have entered := ok.refused slot refused
  have inside : slot < 2 := by
    refine placed.lt_count slot ?_
    intro idle
    simp [idle, SlotFrame.refused] at refused
  exact (ok.counts.report inside (by rw [entered]; rfl)).1

end Inv

/-- In every state that the call and the rest of the program can reach: if the call has
returned NULL and everybody else has given the inputs up, then nothing is left exactly if
the call failed before its registrations. -/
theorem zipFailure (arguments : Arguments) {s : State}
    (reached : (machine arguments).Reachable s) (failed : s.Failed)
    (abandoned : s.Abandoned arguments) : s.Clean arguments ↔ registers s.memory = false := by
  have ok := reachable_inv reached
  have placed := reachable_placed (reachable_layer reached)
  constructor
  · intro clean
    rcases failed with none | ⟨slot, refused⟩
    · exact none
    · have untouched := ok.untouched_of_refused placed refused
      by_contra registered
      have counted := untouched.refcount arguments.first
      have freed := untouched.freed arguments.first
      rw [clean.first] at freed
      have held : 0 < kept arguments s.memory arguments.first := by
        unfold kept
        rw [if_pos (Bool.eq_true_of_not_eq_false registered), if_pos rfl]
        exact Nat.lt_of_lt_of_le Nat.one_pos (Nat.le_add_right 1 _)
      have positive : s.zip.refcount arguments.first ≠ 0 := by omega
      rw [if_neg positive] at freed
      cases freed
  · intro none
    have untouched := ok.untouched_of_early placed none
    have gone : forall f, f = arguments.first ∨ f = arguments.second -> s.zip.freed f = 1 := by
      intro f input
      have counted := untouched.refcount f
      rw [(abandoned f input).2, kept, if_neg (by simp [none])] at counted
      rw [untouched.freed, if_pos counted]
    have objects := created_freed none
    constructor
    · exact gone _ (.inl rfl)
    · exact gone _ (.inr rfl)
    · rw [untouched.frees, State.made, objects.2.2]
      rfl
    · rw [untouched.objects, objects.1]
      rfl
    · rw [untouched.objects, objects.2.1]
      rfl

/-- There is no memory for the context.  Then both inputs complete and are released. -/
def contextRefused : List Event :=
  [.layer (.complete 0 ⟨0, some 7, true⟩), .layer (.close 0), .layer (.drainReturn 0), .release 0,
    .layer (.complete 1 ⟨0, some 8, true⟩), .layer (.close 1), .layer (.drainReturn 1), .release 1]

theorem zipFailure_contextRefused :
    let s := (machine twoInputs).after
      (start twoInputs (fun _ => 1) fun allocation => allocation != .context) contextRefused
    s.Clean twoInputs ↔ registers s.memory = false := by
  have may : (machine twoInputs).AllEnabled
      (start twoInputs (fun _ => 1) fun allocation => allocation != .context) contextRefused := by
    refine ⟨⟨rfl, trivial⟩, ⟨rfl, trivial⟩, ⟨rfl, trivial⟩, ⟨Nat.one_pos, ?_⟩, ⟨rfl, trivial⟩,
      ⟨rfl, trivial⟩, ⟨rfl, trivial⟩, ⟨Nat.one_pos, ?_⟩, trivial⟩
    · exact fun _ => ⟨rfl, .inl (.inl rfl)⟩
    · exact fun _ => ⟨rfl, .inl (.inl rfl)⟩
  have begins : (machine twoInputs).initial
      (start twoInputs (fun _ => 1) fun allocation => allocation != .context) :=
    ⟨fun _ => 1, _, fun _ => Nat.one_pos, rfl⟩
  refine zipFailure twoInputs (.run (.start begins) may.run) (.inl rfl) ?_
  rintro future (rfl | rfl) <;> exact ⟨rfl, rfl⟩

/-- There is no memory for the continuation of the second input.  The one of the first input
runs when that completes. -/
def secondRefused : List Event :=
  [.layer (.check 0 0), .layer (.push 0 0), .layer (.check 1 1), .layer (.refuse 1),
    .layer (.complete 0 ⟨0, some 7, true⟩), .layer (.close 0), .layer (.drainNext 0 0 []),
    .store 0 0, .subtract 0, .layer (.drainDone 0 0 []), .layer (.drainReturn 0), .release 0,
    .layer (.complete 1 ⟨0, some 8, true⟩), .layer (.close 1), .layer (.drainReturn 1), .release 1]

theorem zipFailure_secondRefused :
    let s := (machine twoInputs).after
      (start twoInputs (fun _ => 1) fun allocation => allocation != .node 1) secondRefused
    (machine twoInputs).Reachable s ∧ s.Failed ∧ s.Abandoned twoInputs ∧ ¬s.Clean twoInputs ∧
      s.zip.freed 0 = 0 ∧ s.zip.freed 1 = 0 ∧ s.zip.frees = 0 ∧ s.objects.promiseFrees = 0 ∧
      s.objects.outFrees = 0 := by
  have may : (machine twoInputs).AllEnabled
      (start twoInputs (fun _ => 1) fun allocation => allocation != .node 1) secondRefused := by
    refine ⟨⟨⟨by decide, rfl, rfl⟩, rfl⟩, ⟨⟨rfl, rfl⟩, rfl, rfl⟩, ⟨⟨by decide, rfl, rfl⟩, rfl⟩,
      ⟨⟨by decide, .inr rfl⟩, rfl, rfl, rfl⟩, ⟨rfl, trivial⟩, ⟨rfl, trivial⟩, ⟨rfl, trivial⟩,
      ⟨rfl, rfl, rfl⟩, rfl, ⟨rfl, rfl⟩, ⟨rfl, trivial⟩, ⟨Nat.one_pos, ?_⟩, ⟨rfl, trivial⟩,
      ⟨rfl, trivial⟩, ⟨rfl, trivial⟩, ⟨Nat.one_pos, ?_⟩, trivial⟩
    · exact fun _ => ⟨rfl, .inl (.inr ⟨1, rfl⟩)⟩
    · exact fun _ => ⟨rfl, .inl (.inr ⟨1, rfl⟩)⟩
  have begins : (machine twoInputs).initial
      (start twoInputs (fun _ => 1) fun allocation => allocation != .node 1) :=
    ⟨fun _ => 1, _, fun _ => Nat.one_pos, rfl⟩
  refine ⟨.run (.start begins) may.run, .inr ⟨1, rfl⟩, ?_, ?_, rfl, rfl, rfl, rfl, rfl⟩
  · rintro future (rfl | rfl) <;> exact ⟨rfl, rfl⟩
  · intro clean
    exact absurd clean.first nofun

end Failure
end Zip
end Combinator
end UfsrvRx
