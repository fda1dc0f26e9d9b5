import Mathlib.Data.List.Nodup
import UfsrvRx.Text.Decimal

namespace UfsrvRx
namespace Pool

open Text

/-!
# The names of the workers

`UfsrvSchedulerPoolCreate` prints the name of each worker into a buffer of 64 bytes.
`ListSchedulerWorkers` returns the names, and `DescribeScheduler` finds a worker by its name.
-/

/-- `struct UfsrvScheduler`, less the queue, the thread and the event descriptor's counter. -/
structure Worker where
  name : Option CString
  isRunning : Bool
  isStarted : Bool
  isJoined : Bool
  isWorkerIdReady : Bool
  workerId : Nat
  eventFd : Int
deriving DecidableEq

/-- `struct UfsrvSchedulerPool`. -/
structure SchedulerPool where
  workers : List Worker
  next : Nat
  isRunning : Bool
deriving DecidableEq

/-! ## Creation -/

/-- `snprintf` into a buffer of that size, without the NUL. -/
def snprintf (size : Nat) (text : List Byte) : List Byte :=
  text.take (size - 1)

/-- What stands before the number: the prefix, or `worker` for NULL, and a hyphen. -/
def nameStem (namePrefix : Option CString) : List Byte :=
  (namePrefix.elim (ascii "worker") CString.bytes) ++ ascii "-"

theorem nameStem_nulFree (namePrefix : Option CString) : 0 ∉ nameStem namePrefix := by
  cases namePrefix with
  | none => decide
  | some text =>
      intro mem
      rcases List.mem_append.mp mem with mem | mem
      · exact text.nulFree mem
      · exact absurd mem (by decide)

theorem decimal_nulFree (number : Nat) : 0 ∉ decimal number := by
  intro mem
  exact absurd (isDigit_of_mem mem) (by decide)

/-- `"%s-%d"`, printed into `char name[64]`. -/
def workerName (namePrefix : Option CString) (index : Nat) : CString where
  bytes := snprintf 64 (nameStem namePrefix ++ decimal index)
  nulFree := by
    intro mem
    rcases List.mem_append.mp (List.mem_of_mem_take mem) with mem | mem
    · exact nameStem_nulFree namePrefix mem
    · exact decimal_nulFree index mem

/-- `UfsrvSchedulerCreate`, with the descriptor that `eventfd` returned. -/
def schedulerCreate (name : CString) (eventFd : Int) : Worker where
  name := some name
  isRunning := false
  isStarted := false
  isJoined := false
  isWorkerIdReady := false
  workerId := 0
  eventFd := eventFd

/-- `UfsrvSchedulerPoolCreate` when no allocation fails. -/
def poolCreate (workerCount : Int) (namePrefix : Option CString) (eventFd : Nat -> Int) :
    Option SchedulerPool :=
  if workerCount ≤ 0 then none
  else
    some
      { workers := (List.range workerCount.toNat).map fun index =>
          schedulerCreate (workerName namePrefix index) (eventFd index)
        next := 0
        isRunning := false }

/-! ## Introspection -/

/-- The names that `ListSchedulerWorkers` returns. -/
def listSchedulerWorkers (pool : SchedulerPool) : List CString :=
  pool.workers.filterMap Worker.name

/-- `DescribeScheduler` does not skip the worker: `strcmp` finds its name to be the one that was
asked for. -/
def Worker.chosen (asked : Option CString) (worker : Worker) : Bool :=
  match asked with
  | none => true
  | some name => worker.name == some name

/-- The positions of the workers that `DescribeScheduler` describes. -/
def described (pool : SchedulerPool) (asked : Option CString) : List Nat :=
  (List.range pool.workers.length).filter fun index =>
    (pool.workers[index]?).any (Worker.chosen asked)

/-- The names are distinct, and each of those listed selects the worker that it was listed for. -/
structure Identified (pool : SchedulerPool) : Prop where
  distinct : (pool.workers.map Worker.name).Nodup
  selects : forall index name, (listSchedulerWorkers pool)[index]? = some name ->
    described pool (some name) = [index]

/-! ## When names differ -/

theorem name_of_fits {namePrefix : Option CString} {index : Nat}
    (fits : (nameStem namePrefix).length + (decimal index).length ≤ 63) :
    (workerName namePrefix index).bytes = nameStem namePrefix ++ decimal index := by
  refine List.take_of_length_le ?_
  rw [List.length_append]
  exact fits

/-- A number that does not fit is cut to a number that does. -/
theorem name_of_cut {namePrefix : Option CString} {index : Nat}
    (stem : (nameStem namePrefix).length < 63)
    (cut : 63 < (nameStem namePrefix).length + (decimal index).length) :
    Exists fun other => other < index ∧ workerName namePrefix other = workerName namePrefix index := by
  generalize room : 63 - (nameStem namePrefix).length = kept
  have some : 0 < kept := by omega
  have fewer : kept < (decimal index).length := by omega
  have taken := take_decimal some fewer
  have length := congrArg List.length taken
  rw [List.length_take, Nat.min_eq_left (Nat.le_of_lt fewer)] at length
  generalize (decimal index).length - kept = dropped at taken length
  have smaller : (index / 10 ^ dropped) < index := by
    have le : index / 10 ^ dropped ≤ index := Nat.div_le_self _ _
    have apart : index / 10 ^ dropped ≠ index := by
      intro same
      rw [same] at length
      omega
    omega
  refine ⟨index / 10 ^ dropped, smaller, ?_⟩
  rw [CString.ext_iff, name_of_fits (by omega)]
  change _ = (nameStem namePrefix ++ decimal index).take 63
  rw [List.take_append, List.take_of_length_le (Nat.le_of_lt stem), room, taken]

theorem name_of_long {namePrefix : Option CString} (stem : 63 ≤ (nameStem namePrefix).length)
    (left right : Nat) : workerName namePrefix left = workerName namePrefix right := by
  rw [CString.ext_iff]
  change (nameStem namePrefix ++ decimal left).take 63 = (nameStem namePrefix ++ decimal right).take 63
  rw [List.take_append_of_le_length stem, List.take_append_of_le_length stem]

/-- The names of so many workers differ if the last of them fits into the buffer. -/
theorem name_injective {namePrefix : Option CString} {last left right : Nat}
    (fits : (nameStem namePrefix).length + (decimal last).length ≤ 63) (leftLe : left ≤ last)
    (rightLe : right ≤ last) (same : workerName namePrefix left = workerName namePrefix right) :
    left = right := by
  have leftLength := length_decimal_le leftLe
  have rightLength := length_decimal_le rightLe
  rw [CString.ext_iff, name_of_fits (by omega), name_of_fits (by omega)] at same
  exact decimal_injective (List.append_cancel_left same)

/-- Two of the names are the same if the last one does not fit. -/
theorem name_collision {namePrefix : Option CString} {last : Nat} (several : 0 < last)
    (cut : 63 < (nameStem namePrefix).length + (decimal last).length) :
    Exists fun left => left < last ∧ workerName namePrefix left = workerName namePrefix last := by
  by_cases stem : (nameStem namePrefix).length < 63
  · exact name_of_cut stem cut
  · exact ⟨0, several, name_of_long (Nat.le_of_not_lt stem) 0 last⟩

/-! ## Workers and their names -/

section Created

variable {workerCount : Int} {namePrefix : Option CString} {eventFd : Nat -> Int}
  {pool : SchedulerPool}

theorem names_created (created : poolCreate workerCount namePrefix eventFd = some pool) :
    pool.workers.map Worker.name =
      (List.range workerCount.toNat).map fun index => some (workerName namePrefix index) := by
  unfold poolCreate at created
  split at created
  · cases created
  · cases created
    rw [List.map_map]
    rfl

theorem listed_created (created : poolCreate workerCount namePrefix eventFd = some pool) :
    listSchedulerWorkers pool = (List.range workerCount.toNat).map (workerName namePrefix) := by
  have names := names_created created
  unfold listSchedulerWorkers
  rw [show pool.workers.filterMap Worker.name = (pool.workers.map Worker.name).filterMap id by
    simp [List.filterMap_map], names, List.filterMap_map]
  simp

theorem described_created (created : poolCreate workerCount namePrefix eventFd = some pool)
    (name : CString) : described pool (some name) =
      (List.range workerCount.toNat).filter fun index => workerName namePrefix index = name := by
  unfold poolCreate at created
  split at created
  · cases created
  · cases created
    simp only [described, List.length_map, List.length_range]
    refine List.filter_congr ?_
    intro index mem
    simp only [List.mem_range] at mem
    rw [List.getElem?_map, List.getElem?_range mem]
    rfl

theorem positive_created (created : poolCreate workerCount namePrefix eventFd = some pool) :
    0 < workerCount.toNat := by
  unfold poolCreate at created
  split at created
  · cases created
  · omega

end Created

/-- The names identify the workers if and only if there is only one, or the longest name fits
into the buffer. -/
theorem namesIdentify (workerCount : Int) (namePrefix : Option CString) (eventFd : Nat -> Int)
    (pool : SchedulerPool) (created : poolCreate workerCount namePrefix eventFd = some pool) :
    Identified pool ↔ workerCount = 1 ∨
      (nameStem namePrefix).length + (decimal (workerCount.toNat - 1)).length ≤ 63 := by
  have names := names_created created
  have positive := positive_created created
  generalize count : workerCount.toNat = workers at names positive
  constructor
  · intro identified
    by_contra neither
    have several : 0 < workers - 1 := by omega
    have cut : 63 < (nameStem namePrefix).length + (decimal (workers - 1)).length := by omega
    rcases name_collision several cut with ⟨left, less, same⟩
    have distinct := identified.distinct
    rw [names] at distinct
    have injective := List.inj_on_of_nodup_map distinct
    have equal := injective (List.mem_range.mpr (Nat.lt_of_lt_of_le less (Nat.sub_le _ _)))
      (List.mem_range.mpr (Nat.sub_lt positive Nat.one_pos)) (congrArg some same)
    omega
  · intro fits
    have injective : forall left right, left < workers -> right < workers ->
        workerName namePrefix left = workerName namePrefix right -> left = right := by
      intro left right leftLess rightLess same
      rcases fits with one | fits
      · omega
      · exact name_injective fits (by omega) (by omega) same
    constructor
    · rw [names]
      refine List.Nodup.map_on ?_ List.nodup_range
      intro left leftMem right rightMem same
      exact injective left right (List.mem_range.mp leftMem) (List.mem_range.mp rightMem)
        (Option.some.inj same)
    · intro index name listed
      rw [listed_created created, count, List.getElem?_map] at listed
      rcases Option.map_eq_some_iff.mp listed with ⟨position, at_, rfl⟩
      rcases List.getElem?_eq_some_iff.mp at_ with ⟨inside, rfl⟩
      rw [List.length_range] at inside
      rw [List.getElem_range, described_created created, count]
      have only : forall other, other ∈ List.range workers ->
          decide (workerName namePrefix other = workerName namePrefix index) =
            decide (other = index) := by
        intro other mem
        refine decide_eq_decide.mpr ?_
        constructor
        · exact injective other index (List.mem_range.mp mem) inside
        · rintro rfl
          rfl
      rw [List.filter_congr only, List.filter_eq, List.count_range, if_pos inside]
      rfl

/-- Sixty-two letters leave room for the hyphen only. -/
def longPrefix : CString :=
  ⟨List.replicate 62 97, by decide⟩

theorem namesIdentify_fails : ¬forall workerCount namePrefix eventFd pool,
    poolCreate workerCount namePrefix eventFd = some pool -> Identified pool := by
  intro always
  have identified := always 2 (some longPrefix) (fun _ => 0) _ rfl
  have same : workerName (some longPrefix) 0 = workerName (some longPrefix) 1 :=
    name_of_long (by decide) 0 1
  have distinct := identified.distinct
  simp [List.range_succ, schedulerCreate, same] at distinct

theorem namesIdentify_three : Identified
    { workers := (List.range 3).map fun index =>
        schedulerCreate (workerName (some ⟨ascii "ws", by decide⟩) index) index
      next := 0
      isRunning := false } :=
  (namesIdentify 3 (some ⟨ascii "ws", by decide⟩) (fun index => index) _ rfl).mpr
    (.inr (by decide))

end Pool
end UfsrvRx
