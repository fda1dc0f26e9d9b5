import UfsrvRx.Linked.Edit
import UfsrvRx.Transition.Machine

namespace UfsrvRx
namespace Coroutine

open Linked Transition

/-!
# Coroutines that were never resumed

The coroutines of one thread, from `ufsrv_coroutine.c`.  A coroutine is created
with a start record that is linked into the thread's list.  Its first resume
enters the trampoline, which takes the record off the list and frees it; the
cleanup of the thread takes the records that are left.  What libaco does is
assumed: it switches to a coroutine and back, and it creates and destroys.
-/

/-- A coroutine and its start record are named by their `UfsrvCoroutineCreate` call. -/
abbrev CoroutineId := Nat

abbrev EntryPoint := Nat

abbrev Argument := Nat

/-- What `co->arg` points to. -/
inductive Pointer
  | start (record : CoroutineId)
  | user (argument : Argument)
deriving DecidableEq, Repr

/-- `struct UfsrvCoroutineStart`, less its links.  How often it was freed is history. -/
structure StartRecord where
  coroutine : Option CoroutineId
  entry : EntryPoint
  arg : Argument
  freed : Nat
deriving DecidableEq, Repr

/-- `aco_t`.  It enters its function when it is resumed for the first time.  The argument it was
created with and how often it was destroyed are history. -/
structure Aco where
  arg : Pointer
  isEnd : Bool
  isResumed : Bool
  given : Argument
  destroyed : Nat
deriving DecidableEq, Repr

/-- The state of one thread.  No current coroutine means that its main one runs.  The coroutines
created since the last cleanup, newest first, are history. -/
structure Thread where
  initialized : Bool
  mainCo : Bool
  shareStack : Bool
  head : Option CoroutineId
  links : Links CoroutineId
  starts : CoroutineId -> StartRecord
  coroutines : CoroutineId -> Option Aco
  count : Nat
  current : Option CoroutineId
  created : List CoroutineId

/-- What the allocations of `UfsrvCoroutineCreate` return. -/
inductive Allocation
  | refused
  | recordOnly
  | both
deriving DecidableEq, Repr

inductive Event
  | create (entry : Option EntryPoint) (argument : Argument) (memory : Allocation)
  | resume (coroutine : Option CoroutineId)
  | yield
  | exit
  | cleanup
deriving DecidableEq, Repr

def StartRecord.free (record : StartRecord) : StartRecord :=
  { record with freed := record.freed + 1 }

def Aco.destroy (co : Aco) : Aco :=
  { co with destroyed := co.destroyed + 1 }

namespace Thread

/-- `sEnsureThreadInit`. -/
def ensureInit (s : Thread) : Thread :=
  if s.initialized then s
  else { s with mainCo := true, shareStack := true, initialized := true }

/-- `sUnstartedLink`. -/
def unstartedLink (s : Thread) (record : CoroutineId) : Thread :=
  { s with
    links := (s.links.setPrev record none).link s.head record
    head := some record }

/-- `sUnstartedUnlink`. -/
def unstartedUnlink (s : Thread) (record : CoroutineId) : Thread :=
  { s with
    links := s.links.unlink record
    head := s.links.headAfter s.head record }

def freeRecord (s : Thread) (record : CoroutineId) : Thread :=
  { s with starts := Function.update s.starts record (s.starts record).free }

/-- `aco_destroy`, skipped for NULL. -/
def acoDestroy (s : Thread) : Option CoroutineId -> Thread
  | some co =>
      { s with coroutines := Function.update s.coroutines co ((s.coroutines co).map Aco.destroy) }
  | none => s

/-- One round of the loop of `sReclaimUnstarted`. -/
def reclaimOne (s : Thread) (record : CoroutineId) : Thread :=
  ((s.unstartedUnlink record).acoDestroy (s.starts record).coroutine).freeRecord record

/-- The loop of `sReclaimUnstarted`, with as many rounds as there is fuel. -/
def reclaimUnstarted : Nat -> Thread -> Thread
  | 0, s => s
  | rounds + 1, s =>
      match s.head with
      | none => s
      | some record => reclaimUnstarted rounds (s.reclaimOne record)

/-- `sFreeThreadState`.  There are no more records than calls that created one. -/
def freeThreadState (s : Thread) : Thread :=
  { s.reclaimUnstarted s.count with
    shareStack := false
    mainCo := false
    initialized := false
    created := [] }

/-- `UfsrvCoroutineThreadCleanup`. -/
def threadCleanup (s : Thread) : Thread :=
  if s.initialized then s.freeThreadState else s

/-- The end of `UfsrvCoroutineCreate` when `aco_create` returned NULL. -/
def discardRecord (s : Thread) (record : StartRecord) : Thread :=
  { s with
    starts := Function.update s.starts s.count record.free
    count := s.count + 1 }

/-- The end of `UfsrvCoroutineCreate` when `aco_create` returned a coroutine. -/
def addCoroutine (s : Thread) (record : StartRecord) : Thread :=
  let id := s.count
  unstartedLink
    { s with
      starts := Function.update s.starts id { record with coroutine := some id }
      coroutines := Function.update s.coroutines id
        (some ⟨.start id, false, false, record.arg, 0⟩)
      count := id + 1
      created := id :: s.created } id

/-- `UfsrvCoroutineCreate`. -/
def create (s : Thread) (entry : Option EntryPoint) (argument : Argument) (memory : Allocation) :
    Thread :=
  match entry, memory with
  | none, _ => s
  | some _, .refused => s.ensureInit
  | some entry, .recordOnly => s.ensureInit.discardRecord ⟨none, entry, argument, 0⟩
  | some entry, .both => s.ensureInit.addCoroutine ⟨none, entry, argument, 0⟩

/-- `sCoroutineTrampoline`, up to the call of the entry. -/
def trampoline (s : Thread) (id : CoroutineId) (co : Aco) : Thread :=
  match co.arg with
  | .start record =>
      let argument := (s.starts record).arg
      let s := (s.unstartedUnlink record).freeRecord record
      { s with
        coroutines := Function.update s.coroutines id (some { co with arg := .user argument }) }
  | .user _ => { s with coroutines := Function.update s.coroutines id (some co) }

/-- `UfsrvCoroutineResume`, up to the coroutine's own code. -/
def resume (s : Thread) : Option CoroutineId -> Thread
  | none => s
  | some id =>
      let s := { s.ensureInit with current := some id }
      match s.coroutines id with
      | none => s
      | some co => if co.isResumed then s else s.trampoline id { co with isResumed := true }

/-- `aco_exit`, and the end of the `UfsrvCoroutineResume` call that it returns to. -/
def exit (s : Thread) : Thread :=
  match s.current with
  | none => s
  | some id =>
      { s with
        coroutines := Function.update s.coroutines id
          ((s.coroutines id).map fun co => { co with isEnd := true }.destroy)
        current := none }

/-- `UfsrvCoroutineGetArg` in a coroutine. -/
def getArg (s : Thread) : Option Pointer :=
  s.current.bind fun id => (s.coroutines id).map Aco.arg

/-- The coroutines created since the last cleanup that were never resumed. -/
def unstarted (s : Thread) : List CoroutineId :=
  s.created.filter fun id => (s.coroutines id).any fun co => !co.isResumed

end Thread

/-- `Resume` and `ThreadCleanup` are called outside coroutines, and a handle only until its
coroutine ended or was reclaimed.  A cleanup waits for the coroutines that were resumed. -/
def enabled (s : Thread) : Event -> Prop
  | .create _ _ _ => True
  | .resume none => s.current = none
  | .resume (some id) => s.current = none ∧
      Exists fun co => s.coroutines id = some co ∧ co.destroyed = 0
  | .yield | .exit => s.current.isSome = true
  | .cleanup => s.current = none ∧
      forall id co, s.coroutines id = some co -> co.isResumed = true -> co.isEnd = true

def next (s : Thread) : Event -> Thread
  | .create entry argument memory => s.create entry argument memory
  | .resume coroutine => s.resume coroutine
  | .yield => { s with current := none }
  | .exit => s.exit
  | .cleanup => s.threadCleanup

def start : Thread :=
  ⟨false, false, false, none, ⟨fun _ => none, fun _ => none⟩, fun _ => ⟨none, 0, 0, 0⟩,
    fun _ => none, 0, none, []⟩

/-- One thread as a machine. -/
def machine : Machine Thread Event where
  initial := fun s => s = start
  enabled := enabled
  next := next

/-! ## The life of a coroutine -/

/-- What has happened to a coroutine and its start record.  `listed` says that the coroutine was
created since the last cleanup. -/
inductive Stage (id : CoroutineId) (listed : Prop) : StartRecord -> Aco -> Prop
  | unstarted (entry given) : listed ->
      Stage id listed ⟨some id, entry, given, 0⟩ ⟨.start id, false, false, given, 0⟩
  | started (record given) : record.freed = 1 ->
      Stage id listed record ⟨.user given, false, true, given, 0⟩
  | ended (record given) : record.freed = 1 ->
      Stage id listed record ⟨.user given, true, true, given, 1⟩
  | reclaimed (record given) : ¬ listed -> record.freed = 1 ->
      Stage id listed record ⟨.start id, false, false, given, 1⟩

namespace Stage

variable {id : CoroutineId} {listed : Prop} {record : StartRecord} {co : Aco}

/-- A coroutine that may be used has not ended. -/
theorem unended (stage : Stage id listed record co) (live : co.destroyed = 0) :
    co.isEnd = false := by
  cases stage with
  | unstarted | started => rfl
  | ended | reclaimed => cases live

/-- A coroutine that may be used and was never resumed is on the list. -/
theorem inside (stage : Stage id listed record co) (live : co.destroyed = 0)
    (fresh : co.isResumed = false) : listed := by
  cases stage with
  | unstarted _ _ inside => exact inside
  | started | ended => cases fresh
  | reclaimed => cases live

theorem exit (stage : Stage id listed record co) (resumed : co.isResumed = true)
    (unended : co.isEnd = false) : Stage id listed record { co with isEnd := true }.destroy := by
  cases stage with
  | unstarted | reclaimed => cases resumed
  | ended => cases unended
  | started _ given freed => exact .ended _ given freed

theorem fresh (stage : Stage id listed record co) (inside : listed)
    (fresh : co.isResumed = false) : Exists fun entry => Exists fun given =>
      record = ⟨some id, entry, given, 0⟩ ∧ co = ⟨.start id, false, false, given, 0⟩ := by
  cases stage with
  | unstarted entry given _ => exact ⟨entry, given, rfl, rfl⟩
  | started | ended => cases fresh
  | reclaimed _ _ outside => exact absurd inside outside

/-- A resumed coroutine has nothing to do with the list. -/
theorem resumed {other : Prop} (stage : Stage id listed record co) (resumed : co.isResumed = true) :
    Stage id other record co := by
  cases stage with
  | unstarted | reclaimed => cases resumed
  | started _ given freed => exact .started _ given freed
  | ended _ given freed => exact .ended _ given freed

theorem arg (stage : Stage id listed record co) (resumed : co.isResumed = true) :
    co.arg = .user co.given := by
  cases stage with
  | unstarted | reclaimed => cases resumed
  | started | ended => rfl

theorem once (stage : Stage id listed record co) : co.destroyed ≤ 1 ∧ record.freed ≤ 1 := by
  cases stage with
  | unstarted => exact ⟨Nat.zero_le _, Nat.zero_le _⟩
  | started _ _ freed => exact ⟨Nat.zero_le _, Nat.le_of_eq freed⟩
  | ended _ _ freed => exact ⟨Nat.le_refl _, Nat.le_of_eq freed⟩
  | reclaimed _ _ _ freed => exact ⟨Nat.le_refl _, Nat.le_of_eq freed⟩

/-- A coroutine that was never resumed and is not on the list was reclaimed. -/
theorem left (stage : Stage id listed record co) (fresh : co.isResumed = false)
    (outside : ¬ listed) : Stage id (id ∈ []) record co := by
  cases stage with
  | unstarted _ _ inside => exact absurd inside outside
  | started | ended => cases fresh
  | reclaimed _ given _ freed => exact .reclaimed _ given List.not_mem_nil freed

end Stage

structure Tracked (s : Thread) : Prop where
  listed : Listed s.links s.head s.unstarted
  idle : s.initialized = false -> s.created = []
  below : forall id, id ∈ s.created -> id < s.count
  nodup : s.created.Nodup
  bound : s.created.length ≤ s.count
  absent : forall id, s.count ≤ id -> s.coroutines id = none
  stage : forall id co, s.coroutines id = some co -> Stage id (id ∈ s.created) (s.starts id) co
  current : forall id, s.current = some id -> Exists fun co => s.coroutines id = some co ∧
    co.isResumed = true ∧ co.isEnd = false

theorem mem_unstarted {s : Thread} {id : CoroutineId} : id ∈ s.unstarted ↔ id ∈ s.created ∧
    Exists fun co => s.coroutines id = some co ∧ co.isResumed = false := by
  unfold Thread.unstarted
  rw [List.mem_filter]
  cases s.coroutines id <;> simp

namespace Tracked

variable {s : Thread}

theorem start : Tracked start where
  listed := ⟨List.nodup_nil, none, rfl, rfl⟩
  idle := fun _ => rfl
  below := by simp [Coroutine.start]
  nodup := List.nodup_nil
  bound := Nat.zero_le _
  absent := fun _ _ => rfl
  stage := fun _ _ absent => nomatch absent
  current := fun _ absent => nomatch absent

theorem ensureInit (ok : Tracked s) : Tracked s.ensureInit := by
  unfold Thread.ensureInit
  split
  · exact ok
  · exact { ok with idle := nofun }

/-- A coroutine on the list has not been resumed. -/
theorem unresumed (ok : Tracked s) {id : CoroutineId} (mem : id ∈ s.unstarted) :
    Exists fun entry => Exists fun given => s.starts id = ⟨some id, entry, given, 0⟩ ∧
      s.coroutines id = some ⟨.start id, false, false, given, 0⟩ := by
  rcases mem_unstarted.mp mem with ⟨inside, co, found, fresh⟩
  rcases (ok.stage id co found).fresh inside fresh with ⟨entry, given, record, rfl⟩
  exact ⟨entry, given, record, found⟩

theorem unused (ok : Tracked s) : s.coroutines s.count = none :=
  ok.absent _ (Nat.le_refl _)

theorem discardRecord (ok : Tracked s) (record : StartRecord) : Tracked (s.discardRecord record) := by
  refine ⟨ok.listed, ok.idle, ?_, ok.nodup, Nat.le_succ_of_le ok.bound, ?_, ?_, ok.current⟩
  · exact fun id mem => Nat.lt_succ_of_lt (ok.below id mem)
  · exact fun id above => ok.absent id (Nat.le_of_succ_le above)
  · intro id co found
    have different : id ≠ s.count := by
      rintro rfl
      exact absurd (ok.unused.symm.trans found) nofun
    change Stage id (id ∈ s.created) (Function.update s.starts s.count record.free id) co
    rw [Function.update_of_ne different]
    exact ok.stage id co found

/-- The new coroutine is listed in front. -/
theorem addCoroutine_unstarted (ok : Tracked s) (record : StartRecord) :
    (s.addCoroutine record).unstarted = s.count :: s.unstarted := by
  have rest : s.created.filter (fun id => ((s.addCoroutine record).coroutines id).any
      fun co => !co.isResumed) = s.unstarted := by
    apply List.filter_congr
    intro id mem
    have different : id ≠ s.count := Nat.ne_of_lt (ok.below id mem)
    change ((Function.update s.coroutines s.count _ id).any _) = _
    rw [Function.update_of_ne different]
  have first : (s.addCoroutine record).coroutines s.count =
      some ⟨.start s.count, false, false, record.arg, 0⟩ := Function.update_self _ _ _
  change (s.count :: s.created).filter _ = _
  rw [List.filter_cons, rest, first]
  rfl

theorem addCoroutine (ok : Tracked s) (initialized : s.initialized = true) {record : StartRecord}
    (unfreed : record.freed = 0) : Tracked (s.addCoroutine record) := by
  have fresh : s.count ∉ s.created := fun mem => Nat.lt_irrefl _ (ok.below _ mem)
  have unlisted : s.count ∉ s.unstarted := fun mem => fresh (mem_unstarted.mp mem).1
  constructor
  · rw [ok.addCoroutine_unstarted]
    have alone : (s.links.setPrev s.count none).prev s.count = none := Function.update_self _ _ _
    refine Listed.link (ok.listed.congr (fun _ _ => rfl) fun cell mem => ?_) unlisted alone
    refine setPrev_of_ne ?_ _
    rintro rfl
    exact unlisted mem
  · intro idle
    exact absurd (initialized.symm.trans idle) nofun
  · intro id mem
    rcases List.mem_cons.mp mem with rfl | mem
    · exact Nat.lt_succ_self _
    · exact Nat.lt_succ_of_lt (ok.below id mem)
  · exact List.nodup_cons.mpr ⟨fresh, ok.nodup⟩
  · exact Nat.succ_le_succ ok.bound
  · intro id above
    change Function.update s.coroutines s.count _ id = none
    rw [Function.update_of_ne (Nat.ne_of_gt above)]
    exact ok.absent id (Nat.le_of_succ_le above)
  · intro id co found
    change Function.update s.coroutines s.count _ id = some co at found
    change Stage id (id ∈ s.count :: s.created) (Function.update s.starts s.count _ id) co
    by_cases same : id = s.count
    · subst same
      rw [Function.update_self] at found
      cases found
      rw [Function.update_self, unfreed]
      exact .unstarted _ _ List.mem_cons_self
    · rw [Function.update_of_ne same] at found
      rw [Function.update_of_ne same]
      have listed : id ∈ s.count :: s.created ↔ id ∈ s.created := by
        rw [List.mem_cons, or_iff_right same]
      rw [listed]
      exact ok.stage id co found
  · intro id here
    rcases ok.current id here with ⟨co, found, resumed⟩
    have different : id ≠ s.count := by
      rintro rfl
      exact absurd (ok.unused.symm.trans found) nofun
    exact ⟨co, (Function.update_of_ne different _ _).trans found, resumed⟩

/-- `UfsrvCoroutineCreate`. -/
theorem create (ok : Tracked s) (entry : Option EntryPoint) (argument : Argument)
    (memory : Allocation) : Tracked (s.create entry argument memory) := by
  have ready := ok.ensureInit
  have initialized : s.ensureInit.initialized = true := by
    unfold Thread.ensureInit
    split
    · assumption
    · rfl
  cases entry with
  | none => exact ok
  | some entry =>
      cases memory with
      | refused => exact ready
      | recordOnly => exact ready.discardRecord _
      | both => exact ready.addCoroutine initialized rfl

/-- The first resume takes the coroutine's own record off the list. -/
theorem trampoline_unstarted (ok : Tracked s) {id : CoroutineId} {entry : EntryPoint}
    {given : Argument} (record : s.starts id = ⟨some id, entry, given, 0⟩) :
    (s.trampoline id ⟨.start id, false, true, given, 0⟩).unstarted = s.unstarted.erase id := by
  have resumed : (s.trampoline id ⟨.start id, false, true, given, 0⟩).coroutines =
      Function.update s.coroutines id (some ⟨.user given, false, true, given, 0⟩) := by
    simp only [Thread.trampoline, record]
    rfl
  rw [ok.listed.nodup.erase_eq_filter]
  change s.created.filter _ = (s.created.filter _).filter _
  rw [List.filter_filter]
  apply List.filter_congr
  intro other mem
  rw [resumed]
  by_cases same : other = id
  · subst same
    simp
  · simp [same]

theorem trampoline (ok : Tracked s) {id : CoroutineId} {entry : EntryPoint} {given : Argument}
    (record : s.starts id = ⟨some id, entry, given, 0⟩)
    (found : s.coroutines id = some ⟨.start id, false, false, given, 0⟩) (mem : id ∈ s.created) :
    Tracked (Thread.trampoline { s with current := some id } id
      ⟨.start id, false, true, given, 0⟩) := by
  have resumed : (Thread.trampoline { s with current := some id } id
      ⟨.start id, false, true, given, 0⟩).coroutines =
      Function.update s.coroutines id (some ⟨.user given, false, true, given, 0⟩) := by
    simp only [Thread.trampoline, record]
    rfl
  constructor
  · change Listed _ _ (s.trampoline id ⟨.start id, false, true, given, 0⟩).unstarted
    rw [ok.trampoline_unstarted record]
    exact ok.listed.unlink (mem_unstarted.mpr ⟨mem, _, found, rfl⟩)
  · exact ok.idle
  · exact ok.below
  · exact ok.nodup
  · exact ok.bound
  · intro other above
    have different : other ≠ id := by
      rintro rfl
      exact Nat.lt_irrefl _ (Nat.lt_of_lt_of_le (ok.below other mem) above)
    rw [resumed, Function.update_of_ne different]
    exact ok.absent other above
  · intro other co inside
    rw [resumed] at inside
    change Stage other (other ∈ s.created) (Function.update s.starts id (s.starts id).free other) co
    by_cases same : other = id
    · subst same
      rw [Function.update_self] at inside
      cases inside
      rw [Function.update_self, record]
      exact .started _ _ rfl
    · rw [Function.update_of_ne same] at inside
      rw [Function.update_of_ne same]
      exact ok.stage other co inside
  · intro other running
    cases running
    rw [resumed, Function.update_self]
    exact ⟨_, rfl, rfl, rfl⟩

/-- `UfsrvCoroutineResume` enters a coroutine or goes on with it. -/
theorem resume (ok : Tracked s) (coroutine : Option CoroutineId)
    (may : enabled s (.resume coroutine)) : Tracked (s.resume coroutine) := by
  cases coroutine with
  | none => exact ok
  | some id =>
      rcases may with ⟨_, co, found, live⟩
      have same : s.ensureInit.coroutines = s.coroutines := by
        unfold Thread.ensureInit
        split <;> rfl
      have ready := ok.ensureInit
      rw [<- same] at found
      simp only [Thread.resume, found]
      generalize s.ensureInit = s at ready found
      cases resumed : co.isResumed with
      | true =>
          rw [if_pos rfl]
          refine { ready with current := ?_ }
          rintro other ⟨⟩
          exact ⟨co, found, resumed, (ready.stage id co found).unended live⟩
      | false =>
          rw [if_neg Bool.false_ne_true]
          have stage := ready.stage id co found
          have inside := stage.inside live resumed
          rcases stage.fresh inside resumed with ⟨entry, given, record, rfl⟩
          exact ready.trampoline record found inside

/-- A coroutine that runs ends. -/
theorem exit (ok : Tracked s) : Tracked s.exit := by
  unfold Thread.exit
  cases here : s.current with
  | none => exact ok
  | some id =>
      rcases ok.current id here with ⟨co, found, resumed, unended⟩
      have stage := ok.stage id co found
      have after : (s.coroutines id).map (fun co => { co with isEnd := true }.destroy) =
          some { co with isEnd := true }.destroy := by rw [found]; rfl
      simp only [after]
      constructor
      · have same : Thread.unstarted { s with
            coroutines := Function.update s.coroutines id (some { co with isEnd := true }.destroy)
            current := none } = s.unstarted := by
          apply List.filter_congr
          intro other mem
          by_cases same : other = id
          · subst same
            simp [found, Aco.destroy]
          · simp [same]
        rw [same]
        exact ok.listed
      · exact ok.idle
      · exact ok.below
      · exact ok.nodup
      · exact ok.bound
      · intro other above
        have different : other ≠ id := by
          rintro rfl
          exact absurd ((ok.absent other above).symm.trans found) nofun
        exact (Function.update_of_ne different _ _).trans (ok.absent other above)
      · intro other co inside
        change Function.update s.coroutines id _ other = some co at inside
        by_cases same : other = id
        · subst same
          rw [Function.update_self] at inside
          cases inside
          exact stage.exit resumed unended
        · rw [Function.update_of_ne same] at inside
          exact ok.stage other co inside
      · exact fun _ running => nomatch running

end Tracked

/-! ## Cleanup -/

/-- The loop destroyed these coroutines and freed their records. -/
structure Reclaimed (before after : Thread) (cells : List CoroutineId) : Prop where
  head : after.head = none
  coroutines : forall id, after.coroutines id =
    if id ∈ cells then (before.coroutines id).map Aco.destroy else before.coroutines id
  starts : forall id, after.starts id =
    if id ∈ cells then (before.starts id).free else before.starts id
  count : after.count = before.count
  current : after.current = before.current

theorem reclaimed {s : Thread} {cells : List CoroutineId} {rounds : Nat}
    (listed : Listed s.links s.head cells)
    (records : forall id, id ∈ cells -> (s.starts id).coroutine = some id)
    (enough : cells.length ≤ rounds) : Reclaimed s (s.reclaimUnstarted rounds) cells := by
  induction cells generalizing s rounds with
  | nil =>
      have head : s.head = none := listed.chain
      have stays : s.reclaimUnstarted rounds = s := by
        cases rounds with
        | zero => rfl
        | succ rounds => simp only [Thread.reclaimUnstarted, head]
      rw [stays]
      exact ⟨head, fun _ => rfl, fun _ => rfl, rfl, rfl⟩
  | cons id cells inductionHypothesis =>
      have head : s.head = some id := listed.chain.1
      have fresh := (List.nodup_cons.mp listed.nodup).1
      have own := records id List.mem_cons_self
      have coroutines : (s.reclaimOne id).coroutines =
          Function.update s.coroutines id ((s.coroutines id).map Aco.destroy) := by
        simp only [Thread.reclaimOne, own]
        rfl
      have starts : (s.reclaimOne id).starts =
          Function.update s.starts id (s.starts id).free := by
        simp only [Thread.reclaimOne, own]
        rfl
      have links : Listed (s.reclaimOne id).links (s.reclaimOne id).head cells := by
        simp only [Thread.reclaimOne, own]
        have shorter := listed.unlink List.mem_cons_self
        rw [List.erase_cons_head] at shorter
        exact shorter
      have others : forall other, other ∈ cells -> other ≠ id := by
        rintro other mem rfl
        exact fresh mem
      cases rounds with
      | zero => exact absurd enough (Nat.not_succ_le_zero _)
      | succ rounds =>
          have rest : Reclaimed (s.reclaimOne id)
              (Thread.reclaimUnstarted rounds (s.reclaimOne id)) cells := by
            refine inductionHypothesis links ?_ (Nat.le_of_succ_le_succ enough)
            intro other mem
            rw [starts, Function.update_of_ne (others other mem)]
            exact records other (List.mem_cons_of_mem _ mem)
          simp only [Thread.reclaimUnstarted, head]
          refine ⟨rest.head, ?_, ?_, ?_, ?_⟩
          · intro other
            rw [rest.coroutines, coroutines]
            by_cases same : other = id
            · subst same
              rw [if_neg fresh, Function.update_self, if_pos List.mem_cons_self]
            · simp [same]
          · intro other
            rw [rest.starts, starts]
            by_cases same : other = id
            · subst same
              rw [if_neg fresh, Function.update_self, if_pos List.mem_cons_self]
            · simp [same]
          · rw [rest.count]
            simp only [Thread.reclaimOne, own]
            rfl
          · rw [rest.current]
            simp only [Thread.reclaimOne, own]
            rfl

namespace Tracked

variable {s : Thread}

theorem reclaims (ok : Tracked s) : Reclaimed s (s.reclaimUnstarted s.count) s.unstarted := by
  refine reclaimed ok.listed ?_ ?_
  · intro id mem
    rcases ok.unresumed mem with ⟨entry, given, record, _⟩
    rw [record]
  · exact Nat.le_trans (List.length_filter_le _ _) ok.bound

theorem freeThreadState (ok : Tracked s) (outside : s.current = none) :
    Tracked s.freeThreadState := by
  have reclaims := ok.reclaims
  constructor
  · exact ⟨List.nodup_nil, none, reclaims.head, rfl⟩
  · exact fun _ => rfl
  · exact fun id mem => absurd mem List.not_mem_nil
  · exact List.nodup_nil
  · exact Nat.zero_le _
  · intro id above
    change (s.reclaimUnstarted s.count).count ≤ id at above
    rw [reclaims.count] at above
    change (s.reclaimUnstarted s.count).coroutines id = none
    rw [reclaims.coroutines, ok.absent id above]
    split <;> rfl
  · intro id co found
    change (s.reclaimUnstarted s.count).coroutines id = some co at found
    change Stage id (id ∈ []) ((s.reclaimUnstarted s.count).starts id) co
    rw [reclaims.coroutines] at found
    rw [reclaims.starts]
    by_cases mem : id ∈ s.unstarted
    · rcases ok.unresumed mem with ⟨entry, given, record, before⟩
      rw [if_pos mem, before] at found
      cases found
      rw [if_pos mem, record]
      exact .reclaimed _ _ List.not_mem_nil rfl
    · rw [if_neg mem] at found
      rw [if_neg mem]
      have stage := ok.stage id co found
      cases resumed : co.isResumed with
      | true => exact stage.resumed resumed
      | false =>
          refine stage.left resumed fun inside => mem (mem_unstarted.mpr ⟨inside, co, found, resumed⟩)
  · intro id running
    change (s.reclaimUnstarted s.count).current = some id at running
    rw [reclaims.current, outside] at running
    cases running

/-- `UfsrvCoroutineThreadCleanup`. -/
theorem threadCleanup (ok : Tracked s) (outside : s.current = none) : Tracked s.threadCleanup := by
  unfold Thread.threadCleanup
  split
  · exact ok.freeThreadState outside
  · exact ok

theorem next (ok : Tracked s) (event : Event) (may : enabled s event) :
    Tracked (Coroutine.next s event) := by
  cases event with
  | create entry argument memory => exact ok.create entry argument memory
  | resume coroutine => exact ok.resume coroutine may
  | yield => exact { ok with current := nofun }
  | exit => exact ok.exit
  | cleanup => exact ok.threadCleanup may.1

end Tracked

theorem reachable_tracked {s : Thread} (reached : machine.Reachable s) : Tracked s := by
  refine reached.invariant Tracked ?_ ?_
  · intro s initial
    rw [show s = start from initial]
    exact .start
  · exact fun s event _ ok may => ok.next event may

/-! ## The contract -/

/-- The effect of `UfsrvCoroutineThreadCleanup`. -/
structure CleanedUp (before after : Thread) : Prop where
  reclaimed : forall id, id ∈ before.unstarted -> Exists fun co =>
    before.coroutines id = some co ∧ co.destroyed = 0 ∧
      after.coroutines id = some co.destroy ∧
      (before.starts id).freed = 0 ∧ after.starts id = (before.starts id).free
  untouched : forall id, id ∉ before.unstarted ->
    after.coroutines id = before.coroutines id ∧ after.starts id = before.starts id
  empty : after.head = none ∧ after.unstarted = []
  settled : next after .cleanup = after

/-- What the thread's list says about its coroutines. -/
structure Tracking (s : Thread) : Prop where
  /-- The list is well formed and consists of the coroutines created since the last cleanup and
  never resumed, once each. -/
  listed : Listed s.links s.head s.unstarted
  /-- A first resume takes exactly the coroutine's own entry off the list, and frees its record. -/
  first : forall id co, enabled s (.resume (some id)) -> s.coroutines id = some co ->
    co.isResumed = false -> id ∈ s.unstarted ∧
      (next s (.resume (some id))).unstarted = s.unstarted.erase id ∧
      (next s (.resume (some id))).getArg = some (.user co.given) ∧
      (s.starts id).freed = 0 ∧ ((next s (.resume (some id))).starts id).freed = 1 ∧
      forall other, other ≠ id -> (next s (.resume (some id))).starts other = s.starts other
  /-- The code of a coroutine always sees the argument it was created with. -/
  argument : forall id, s.current = some id -> Exists fun co =>
    s.coroutines id = some co ∧ s.getArg = some (.user co.given)
  /-- A cleanup takes all that is left. -/
  cleanup : enabled s .cleanup -> CleanedUp s (next s .cleanup)
  /-- Nothing is destroyed or freed twice. -/
  once : forall id co, s.coroutines id = some co -> co.destroyed ≤ 1 ∧ (s.starts id).freed ≤ 1

namespace Tracked

variable {s : Thread}

theorem first (ok : Tracked s) {id : CoroutineId} {co : Aco}
    (may : enabled s (.resume (some id))) (found : s.coroutines id = some co)
    (fresh : co.isResumed = false) : id ∈ s.unstarted ∧
      (Coroutine.next s (.resume (some id))).unstarted = s.unstarted.erase id ∧
      (Coroutine.next s (.resume (some id))).getArg = some (.user co.given) ∧
      (s.starts id).freed = 0 ∧ ((Coroutine.next s (.resume (some id))).starts id).freed = 1 ∧
      forall other, other ≠ id ->
        (Coroutine.next s (.resume (some id))).starts other = s.starts other := by
  rcases may with ⟨_, other, found', live⟩
  cases found.symm.trans found'
  have inside := (ok.stage id co found).inside live fresh
  have listed := mem_unstarted.mpr ⟨inside, co, found, fresh⟩
  rcases (ok.stage id co found).fresh inside fresh with ⟨entry, given, record, rfl⟩
  have ready : Tracked s.ensureInit := ok.ensureInit
  have same : s.ensureInit.coroutines = s.coroutines ∧ s.ensureInit.starts = s.starts ∧
      s.ensureInit.unstarted = s.unstarted := by
    unfold Thread.ensureInit
    split <;> exact ⟨rfl, rfl, rfl⟩
  have resumed : Coroutine.next s (.resume (some id)) =
      Thread.trampoline { s.ensureInit with current := some id } id
        ⟨.start id, false, true, given, 0⟩ := by
    simp only [Coroutine.next, Thread.resume, same.1, found]
    rfl
  rw [<- same.2.1] at record
  rw [resumed, <- same.2.2, <- same.2.1, record]
  refine ⟨same.2.2 ▸ listed, ?_, ?_, rfl, ?_, ?_⟩
  · exact ready.trampoline_unstarted record
  · simp only [Thread.trampoline, record, Thread.getArg]
    simp [Thread.freeRecord, Thread.unstartedUnlink]
  · simp [Thread.trampoline, record, Thread.freeRecord, Thread.unstartedUnlink, StartRecord.free]
  · intro other different
    simp [Thread.trampoline, Thread.freeRecord, Thread.unstartedUnlink, different]

theorem argument (ok : Tracked s) {id : CoroutineId} (running : s.current = some id) :
    Exists fun co => s.coroutines id = some co ∧ s.getArg = some (.user co.given) := by
  rcases ok.current id running with ⟨co, found, resumed, _⟩
  refine ⟨co, found, ?_⟩
  simp only [Thread.getArg, running, Option.bind_some, found, Option.map_some]
  exact congrArg some ((ok.stage id co found).arg resumed)

theorem cleanedUp (ok : Tracked s) : CleanedUp s s.threadCleanup := by
  cases initialized : s.initialized with
  | false =>
      have stays : s.threadCleanup = s := by simp [Thread.threadCleanup, initialized]
      have empty : s.unstarted = [] := by simp [Thread.unstarted, ok.idle initialized]
      have listed := ok.listed
      rw [empty] at listed
      rw [stays]
      refine ⟨?_, fun _ _ => ⟨rfl, rfl⟩, ⟨listed.chain, empty⟩, stays⟩
      intro id mem
      rw [empty] at mem
      exact absurd mem List.not_mem_nil
  | true =>
      have frees : s.threadCleanup = s.freeThreadState := by simp [Thread.threadCleanup, initialized]
      have reclaims := ok.reclaims
      rw [frees]
      refine ⟨?_, ?_, ⟨reclaims.head, rfl⟩, rfl⟩
      · intro id mem
        rcases ok.unresumed mem with ⟨entry, given, record, found⟩
        have destroyed := reclaims.coroutines id
        have freed := reclaims.starts id
        rw [if_pos mem, found] at destroyed
        rw [if_pos mem] at freed
        exact ⟨_, found, rfl, destroyed, by rw [record], freed⟩
      · intro id outside
        have kept := reclaims.coroutines id
        have held := reclaims.starts id
        rw [if_neg outside] at kept held
        exact ⟨kept, held⟩

end Tracked

/-- The contract of the list holds after any calls on the thread. -/
theorem unstartedTracking {s : Thread} (reached : machine.Reachable s) : Tracking s := by
  have ok := reachable_tracked reached
  constructor
  · exact ok.listed
  · exact fun id co may found fresh => ok.first may found fresh
  · exact fun id running => ok.argument running
  · exact fun _ => ok.cleanedUp
  · exact fun id co found => (ok.stage id co found).once

/-- Three coroutines; the second is resumed and ends, the other two are left to the cleanup. -/
def abandonTwo : List Event :=
  [.create (some 7) 10 .both, .create (some 7) 11 .both, .create (some 7) 12 .both,
    .resume (some 1), .exit]

theorem unstartedTracking_abandonTwo :
    Exists fun s => machine.Reachable s ∧ s.unstarted = [2, 0] ∧
      CleanedUp s (next s .cleanup) := by
  have may : machine.AllEnabled start abandonTwo := by
    refine ⟨trivial, trivial, trivial, ⟨rfl, _, rfl, rfl⟩, rfl, trivial⟩
  have reached : machine.Reachable _ := .run (.start rfl) may.run
  refine ⟨_, reached, rfl, (unstartedTracking reached).cleanup ⟨rfl, ?_⟩⟩
  intro id co found resumed
  match id with
  | 0 | 2 =>
      cases found
      cases resumed
  | 1 =>
      cases found
      rfl
  | _ + 3 => cases found

end Coroutine
end UfsrvRx
