import UfsrvRx.Memory.Bytes
import UfsrvRx.Pool.Names

namespace UfsrvRx
namespace Pool

open Text Memory

/-!
# The slab of `ListSchedulerWorkers`

The descriptor, the array of pointers and the copies of the names are carved out of one block.
A first pass counts the names and their bytes, and a second one copies them behind a cursor.
Sizes are of type `size_t`, and wrap; addresses are numbers, and are stored as words.
-/

/-- `sizeof` and `offsetof` of `CollectionDescriptor`.  Its fields, `size_t` and pointers are
words. -/
structure Layout where
  word : Nat
  header : Nat
  collection : Nat
  collectionSz : Nat
  collectionBaseOffset : Nat
  collectionInside : collection + word ≤ header
  sizeInside : collectionSz + word ≤ header
  offsetInside : collectionBaseOffset + word ≤ header
  collectionSize : (Region.mk collection word).Apart ⟨collectionSz, word⟩
  collectionOffset : (Region.mk collection word).Apart ⟨collectionBaseOffset, word⟩
  sizeOffset : (Region.mk collectionSz word).Apart ⟨collectionBaseOffset, word⟩

/-- The values of `size_t`, and the addresses. -/
def Layout.range (layout : Layout) : Nat := 256 ^ layout.word

/-- `malloc`: NULL, or a block that lies in the range of the addresses. -/
structure Allocator (layout : Layout) where
  malloc : Nat -> Option Nat
  room : forall size block, malloc size = some block -> block + size ≤ layout.range

/-- The name of a worker, if there is a worker and it has one. -/
def nameOf (worker : Option Worker) : Option CString :=
  worker.bind Worker.name

/-- `strlen(name) + 1`. -/
def nameSize (name : CString) : Nat := name.bytes.length + 1

/-! ## The two passes -/

/-- The sums of the first pass. -/
structure Measure where
  n : Nat
  strBytes : Nat
deriving DecidableEq, Repr

/-- Count named workers and total name bytes. -/
def measure (layout : Layout) : List (Option Worker) -> Measure -> Measure
  | [], sums => sums
  | worker :: workers, sums =>
      match nameOf worker with
      | none => measure layout workers sums
      | some name =>
          measure layout workers
            ⟨(sums.n + 1) % layout.range, (sums.strBytes + nameSize name) % layout.range⟩

/-- The memory, the cursor and the index of the second pass. -/
structure Copying where
  memory : Bytes
  str : Nat
  i : Nat

/-- `memcpy` of a name with its NUL to the cursor, and `cd->collection[i++] = str`. -/
def copyName (layout : Layout) (cd : Nat) (copying : Copying) (name : CString) : Copying :=
  let copied := copying.memory.store copying.str (name.bytes ++ [0])
  let collection := copied.loadWord (cd + layout.collection) layout.word
  { memory := copied.storeWord (collection + copying.i * layout.word) layout.word copying.str
    str := copying.str + nameSize name
    i := copying.i + 1 }

/-- Copy the worker names into the same slab. -/
def copyNames (layout : Layout) (cd n : Nat) : List (Option Worker) -> Copying -> Copying
  | [], copying => copying
  | worker :: workers, copying =>
      if copying.i < n then
        match nameOf worker with
        | none => copyNames layout cd n workers copying
        | some name => copyNames layout cd n workers (copyName layout cd copying name)
      else copying

/-- The fields of the descriptor. -/
def writeHeader (layout : Layout) (memory : Bytes) (cd n : Nat) : Bytes :=
  let collected := memory.storeWord (cd + layout.collection) layout.word
    (if 0 < n then cd + layout.header else 0)
  let sized := collected.storeWord (cd + layout.collectionSz) layout.word n
  sized.storeWord (cd + layout.collectionBaseOffset) layout.word 0

/-- `ListSchedulerWorkers`: the descriptor, unless it is NULL, and the memory. -/
def listSchedulerWorkersSlab (layout : Layout) (allocator : Allocator layout) (memory : Bytes)
    (pool : Option (List (Option Worker))) : Option (Nat × Bytes) :=
  match pool with
  | none => none
  | some workers =>
      let sums := measure layout workers ⟨0, 0⟩
      let arrBytes := sums.n * layout.word % layout.range
      let total := (layout.header + arrBytes + sums.strBytes) % layout.range
      match allocator.malloc total with
      | none => none
      | some block =>
          let copying := copyNames layout block sums.n workers
            ⟨writeHeader layout memory block sums.n, block + layout.header + arrBytes, 0⟩
          some (block, copying.memory)

/-! ## What the slab is for -/

/-- The bytes that the names take. -/
def stringBytes (names : List CString) : Nat := (names.map nameSize).sum

/-- The size of the slab. -/
def slabBytes (layout : Layout) (names : List CString) : Nat :=
  layout.header + names.length * layout.word + stringBytes names

/-- `cd->collection[i]`. -/
def entry (layout : Layout) (memory : Bytes) (cd i : Nat) : Nat :=
  memory.loadWord (memory.loadWord (cd + layout.collection) layout.word + i * layout.word)
    layout.word

/-- The copies, where the entries point at. -/
def copies (layout : Layout) (memory : Bytes) (cd : Nat) (names : List CString) : List Region :=
  names.mapIdx fun i name => ⟨entry layout memory cd i, nameSize name⟩

/-- The descriptor, the array of pointers, and the copies. -/
def parts (layout : Layout) (memory : Bytes) (cd : Nat) (names : List CString) : List Region :=
  ⟨cd, layout.header⟩ :: ⟨cd + layout.header, names.length * layout.word⟩ ::
    copies layout memory cd names

/-- A descriptor of these names that is laid out in one block without overlaps, and whose copies
fill the rest of the block.  Nothing else was written. -/
structure Slab (layout : Layout) (names : List CString) (cd : Nat) (before after : Bytes) :
    Prop where
  collectionSz : after.loadWord (cd + layout.collectionSz) layout.word = names.length
  baseOffset : after.loadWord (cd + layout.collectionBaseOffset) layout.word = 0
  array : names ≠ [] ->
    after.loadWord (cd + layout.collection) layout.word = cd + layout.header
  empty : names = [] -> after.loadWord (cd + layout.collection) layout.word = 0
  texts : forall i name, names[i]? = some name ->
    after.load (entry layout after cd i) (nameSize name) = name.bytes ++ [0]
  apart : (parts layout after cd names).Pairwise Region.Apart
  within : forall part, part ∈ parts layout after cd names ->
    part.Within ⟨cd, slabBytes layout names⟩
  filled : forall place, cd + layout.header + names.length * layout.word ≤ place ->
    ((Exists fun copy => copy ∈ copies layout after cd names ∧ copy.Has place) ↔
      place < cd + slabBytes layout names)
  frame : forall place, ¬(Region.mk cd (slabBytes layout names)).Has place ->
    after place = before place

/-! ## The first pass -/

section Passes

variable {layout : Layout}

theorem measure_eq (layout : Layout) (workers : List (Option Worker)) (sums : Measure) :
    ((measure layout workers sums).n % layout.range =
      (sums.n + (workers.filterMap nameOf).length) % layout.range) ∧
    ((measure layout workers sums).strBytes % layout.range =
      (sums.strBytes + stringBytes (workers.filterMap nameOf)) % layout.range) := by
  induction workers generalizing sums with
  | nil => simp [measure, stringBytes]
  | cons worker workers inductionHypothesis =>
      cases named : nameOf worker with
      | none =>
          simp only [measure, named, List.filterMap_cons]
          exact inductionHypothesis sums
      | some name =>
          simp only [measure, named, List.filterMap_cons]
          rcases inductionHypothesis ⟨(sums.n + 1) % layout.range,
            (sums.strBytes + nameSize name) % layout.range⟩ with ⟨count, bytes⟩
          rw [count, bytes]
          constructor
          · rw [Nat.mod_add_mod, List.length_cons]
            congr 1
            omega
          · rw [Nat.mod_add_mod]
            simp only [stringBytes, List.map_cons, List.sum_cons, Nat.add_assoc]

theorem measure_lt (workers : List (Option Worker)) (sums : Measure) (n : sums.n < layout.range)
    (strBytes : sums.strBytes < layout.range) :
    (measure layout workers sums).n < layout.range ∧
      (measure layout workers sums).strBytes < layout.range := by
  have positive : 0 < layout.range := Nat.lt_of_le_of_lt (Nat.zero_le _) n
  induction workers generalizing sums with
  | nil => exact ⟨n, strBytes⟩
  | cons worker workers inductionHypothesis =>
      simp only [measure]
      split
      · exact inductionHypothesis sums n strBytes
      · exact inductionHypothesis _ (Nat.mod_lt _ positive) (Nat.mod_lt _ positive)

/-- Sums that fit are the true ones. -/
theorem measure_fits {workers : List (Option Worker)}
    (count : (workers.filterMap nameOf).length < layout.range)
    (bytes : stringBytes (workers.filterMap nameOf) < layout.range) :
    measure layout workers ⟨0, 0⟩ =
      ⟨(workers.filterMap nameOf).length, stringBytes (workers.filterMap nameOf)⟩ := by
  have positive : 0 < layout.range := Nat.lt_of_le_of_lt (Nat.zero_le _) count
  have sums := measure_eq layout workers ⟨0, 0⟩
  have less := measure_lt workers ⟨0, 0⟩ positive positive
  rw [Nat.mod_eq_of_lt less.1, Nat.mod_eq_of_lt less.2, Nat.zero_add, Nat.zero_add,
    Nat.mod_eq_of_lt count, Nat.mod_eq_of_lt bytes] at sums
  cases measured : measure layout workers ⟨0, 0⟩ with
  | mk n strBytes =>
      rw [measured] at sums
      exact congrArg₂ Measure.mk sums.1 sums.2

/-! ## The second pass -/

/-- The second pass finds every name that was counted. -/
theorem copyNames_eq {cd n : Nat} {workers : List (Option Worker)} {copying : Copying}
    (room : copying.i + (workers.filterMap nameOf).length = n) :
    copyNames layout cd n workers copying =
      (workers.filterMap nameOf).foldl (copyName layout cd) copying := by
  induction workers generalizing copying with
  | nil => rfl
  | cons worker workers inductionHypothesis =>
      cases named : nameOf worker with
      | none =>
          simp only [List.filterMap_cons, named] at room ⊢
          simp only [copyNames, named]
          split
          · exact inductionHypothesis room
          · have none : workers.filterMap nameOf = [] := List.length_eq_zero_iff.mp (by omega)
            rw [none]
            rfl
      | some name =>
          simp only [List.filterMap_cons, named, List.length_cons] at room ⊢
          simp only [copyNames, named, List.foldl_cons]
          rw [if_pos (by omega)]
          refine inductionHypothesis ?_
          simp only [copyName]
          omega

/-- What the second pass leaves behind: slots from `i` on that point at a row of copies. -/
structure Copied (layout : Layout) (array i str : Nat) (names : List CString)
    (before after : Bytes) : Prop where
  slots : names.mapIdx (fun j name => Region.mk
      (after.loadWord (array + (i + j) * layout.word) layout.word) (nameSize name)) =
    Region.row str (names.map nameSize)
  texts : forall j name, names[j]? = some name ->
    after.load (after.loadWord (array + (i + j) * layout.word) layout.word) (nameSize name) =
      name.bytes ++ [0]
  frame : forall place,
    (place < array + i * layout.word ∨ array + (i + names.length) * layout.word ≤ place) ->
    (place < str ∨ str + stringBytes names ≤ place) -> after place = before place

theorem length_text (name : CString) : (name.bytes ++ [0]).length = nameSize name := by
  simp [nameSize]

/-- The memory after one name. -/
theorem memory_copyName {cd array : Nat} {copying : Copying} {name : CString}
    (collection : copying.memory.loadWord (cd + layout.collection) layout.word = array)
    (under : cd + layout.collection + layout.word ≤ copying.str) :
    (copyName layout cd copying name).memory =
      (copying.memory.store copying.str (name.bytes ++ [0])).storeWord
        (array + copying.i * layout.word) layout.word copying.str := by
  have same : (copying.memory.store copying.str (name.bytes ++ [0])).loadWord
      (cd + layout.collection) layout.word = array := by
    rw [<- collection]
    refine Bytes.loadWord_congr ?_
    intro place _ less
    exact Bytes.store_outside (.inl (by omega))
  simp only [copyName, same]

theorem copied {cd array : Nat} {names : List CString} {copying : Copying}
    (collection : copying.memory.loadWord (cd + layout.collection) layout.word = array)
    (under : cd + layout.collection + layout.word ≤ array)
    (below : array + (copying.i + names.length) * layout.word ≤ copying.str)
    (room : copying.str + stringBytes names ≤ layout.range) :
    Copied layout array copying.i copying.str names copying.memory
      (names.foldl (copyName layout cd) copying).memory := by
  induction names generalizing copying with
  | nil => exact ⟨rfl, by simp, fun _ _ _ => rfl⟩
  | cons name names inductionHypothesis =>
      have slot : array + copying.i * layout.word + layout.word ≤ copying.str := by
        rw [List.length_cons, Nat.add_mul, Nat.add_mul] at below
        omega
      have memory := @memory_copyName layout cd array copying name collection (by omega)
      generalize middle : copyName layout cd copying name = next at memory
      have i : next.i = copying.i + 1 := by
        rw [<- middle]
        rfl
      have str : next.str = copying.str + nameSize name := by
        rw [<- middle]
        rfl
      have bytes : stringBytes (name :: names) = nameSize name + stringBytes names := by
        simp [stringBytes]
      have positive : 0 < nameSize name := Nat.succ_pos _
      have outside : forall place,
          (place < array + copying.i * layout.word ∨
            array + copying.i * layout.word + layout.word ≤ place) ->
          (place < copying.str ∨ copying.str + nameSize name ≤ place) ->
          next.memory place = copying.memory place := by
        intro place offSlot offText
        rw [memory, Bytes.storeWord_outside offSlot, Bytes.store_outside]
        rw [length_text]
        exact offText
      have rest : Copied layout array next.i next.str names next.memory
          (names.foldl (copyName layout cd) next).memory := by
        refine inductionHypothesis ?_ ?_ ?_
        · rw [<- collection]
          refine Bytes.loadWord_congr ?_
          intro place _ less
          exact outside place (.inl (by omega)) (.inl (by omega))
        · rw [i, str]
          rw [List.length_cons] at below
          have same : copying.i + 1 + names.length = copying.i + (names.length + 1) := by omega
          rw [same]
          omega
        · rw [str]
          omega
      rw [List.foldl_cons, middle]
      generalize (names.foldl (copyName layout cd) next).memory = last at rest
      rw [i, str] at rest
      have next_i : (copying.i + 1) * layout.word = copying.i * layout.word + layout.word :=
        Nat.succ_mul _ _
      have pointer : last.loadWord (array + copying.i * layout.word) layout.word = copying.str := by
        have fits : copying.str < 256 ^ layout.word := by
          have range : layout.range = 256 ^ layout.word := rfl
          omega
        have stored : next.memory.loadWord (array + copying.i * layout.word) layout.word =
            copying.str := by
          rw [memory]
          exact Bytes.loadWord_storeWord fits
        refine (Bytes.loadWord_congr ?_).trans stored
        intro place _ less
        exact rest.frame place (.inl (by omega)) (.inl (by omega))
      have text : last.load copying.str (nameSize name) = name.bytes ++ [0] := by
        have stored := Bytes.load_store copying.memory copying.str (name.bytes ++ [0])
        rw [length_text] at stored
        refine (Bytes.load_congr ?_).trans stored
        intro place above less
        have shift : copying.i + (names.length + 1) = copying.i + 1 + names.length := by omega
        rw [List.length_cons, shift] at below
        rw [rest.frame place (.inr (by omega)) (.inl (by omega)), memory,
          Bytes.storeWord_outside (.inr (by omega))]
      constructor
      · have tail : (fun j name => Region.mk (last.loadWord
            (array + (copying.i + (j + 1)) * layout.word) layout.word) (nameSize name)) =
            fun j name => Region.mk (last.loadWord
              (array + (copying.i + 1 + j) * layout.word) layout.word) (nameSize name) := by
          funext j other
          have shift : copying.i + (j + 1) = copying.i + 1 + j := by omega
          rw [shift]
        rw [List.mapIdx_cons, List.map_cons, Region.row, Nat.add_zero, pointer, tail, rest.slots]
      · intro j other here
        cases j with
        | zero =>
            cases here
            rw [Nat.add_zero, pointer]
            exact text
        | succ j =>
            have shift : copying.i + (j + 1) = copying.i + 1 + j := by omega
            rw [shift]
            exact rest.texts j other here
      · intro place offSlots offTexts
        rw [List.length_cons] at offSlots
        have shift : copying.i + (names.length + 1) = copying.i + 1 + names.length := by omega
        rw [shift] at offSlots
        have more : (copying.i + 1) * layout.word ≤ (copying.i + 1 + names.length) * layout.word :=
          Nat.mul_le_mul_right _ (Nat.le_add_right _ _)
        rw [rest.frame place (by omega) (by omega)]
        exact outside place (by omega) (by omega)

/-! ## The slab -/

/-- The fields of the descriptor are read as they were written. -/
theorem header_fields (layout : Layout) (memory : Bytes) (cd n : Nat)
    (room : 0 < n -> cd + layout.header < layout.range) (count : n < layout.range) :
    (writeHeader layout memory cd n).loadWord (cd + layout.collection) layout.word =
      (if 0 < n then cd + layout.header else 0) ∧
    (writeHeader layout memory cd n).loadWord (cd + layout.collectionSz) layout.word = n ∧
    (writeHeader layout memory cd n).loadWord (cd + layout.collectionBaseOffset) layout.word = 0 := by
  have pointer : (if 0 < n then cd + layout.header else 0) < 256 ^ layout.word := by
    change _ < layout.range
    split
    · exact room ‹0 < n›
    · exact Nat.lt_of_le_of_lt (Nat.zero_le _) count
  refine ⟨?_, ?_, ?_⟩
  · rw [writeHeader, Bytes.loadWord_storeWord_apart layout.collectionOffset.shift,
      Bytes.loadWord_storeWord_apart layout.collectionSize.shift,
      Bytes.loadWord_storeWord pointer]
  · rw [writeHeader, Bytes.loadWord_storeWord_apart layout.sizeOffset.shift,
      Bytes.loadWord_storeWord count]
  · have zero : 0 < layout.range := Nat.lt_of_le_of_lt (Nat.zero_le _) count
    rw [writeHeader, Bytes.loadWord_storeWord zero]

theorem header_frame (memory : Bytes) {cd n place : Nat}
    (outside : place < cd ∨ cd + layout.header ≤ place) :
    writeHeader layout memory cd n place = memory place := by
  have collection := layout.collectionInside
  have size := layout.sizeInside
  have offset := layout.offsetInside
  rw [writeHeader, Bytes.storeWord_outside (by omega), Bytes.storeWord_outside (by omega),
    Bytes.storeWord_outside (by omega)]

theorem length_le_stringBytes (names : List CString) : names.length ≤ stringBytes names := by
  induction names with
  | nil => exact Nat.le_refl _
  | cons name names inductionHypothesis =>
      simp only [stringBytes, List.length_cons, List.map_cons, List.sum_cons, nameSize] at *
      omega

/-- A filled header and copied names are a slab. -/
theorem Copied.slab {names : List CString} {cd : Nat} {before after : Bytes}
    (room : cd + slabBytes layout names ≤ layout.range) (fits : slabBytes layout names < layout.range)
    (copied : Copied layout (cd + layout.header) 0
      (cd + layout.header + names.length * layout.word) names
      (writeHeader layout before cd names.length) after) :
    Slab layout names cd before after := by
  have atLeast := length_le_stringBytes names
  have size : slabBytes layout names =
      layout.header + names.length * layout.word + stringBytes names := rfl
  have fields := header_fields layout before cd names.length (by omega) (by omega)
  have kept : forall offset, offset + layout.word ≤ layout.header ->
      after.loadWord (cd + offset) layout.word =
        (writeHeader layout before cd names.length).loadWord (cd + offset) layout.word := by
    intro offset inside
    refine Bytes.loadWord_congr ?_
    intro place _ less
    exact copied.frame place (.inl (by omega)) (.inl (by omega))
  have collection := kept layout.collection layout.collectionInside
  rw [fields.1] at collection
  -- The array is where the descriptor points to, unless there is nothing in it.
  have entries : forall i, i < names.length -> entry layout after cd i =
      after.loadWord (cd + layout.header + (0 + i) * layout.word) layout.word := by
    intro i inside
    rw [if_pos (Nat.lt_of_le_of_lt (Nat.zero_le i) inside)] at collection
    rw [entry, collection, Nat.zero_add]
  have row : copies layout after cd names =
      Region.row (cd + layout.header + names.length * layout.word) (names.map nameSize) := by
    rw [<- copied.slots]
    refine List.mapIdx_eq_mapIdx_iff.mpr ?_
    intro i inside
    rw [entries i inside]
  have inRow : forall copy, copy ∈ copies layout after cd names ->
      copy.Within ⟨cd + layout.header + names.length * layout.word, stringBytes names⟩ := by
    intro copy mem
    rw [row] at mem
    exact Region.row_within mem
  constructor
  · rw [kept layout.collectionSz layout.sizeInside, fields.2.1]
  · rw [kept layout.collectionBaseOffset layout.offsetInside, fields.2.2]
  · intro some
    rw [collection, if_pos (List.length_pos_iff.mpr some)]
  · intro none
    rw [collection, none]
    rfl
  · intro i name here
    rw [entries i (List.getElem?_eq_some_iff.mp here).1]
    exact copied.texts i name here
  · refine .cons ?_ (.cons ?_ ?_)
    · intro part mem
      rcases List.mem_cons.mp mem with rfl | mem
      · exact .inl (Nat.le_refl _)
      · have within := (inRow part mem).1
        refine .inl ?_
        simp only at within ⊢
        omega
    · intro part mem
      exact .inl (inRow part mem).1
    · rw [row]
      exact Region.row_apart _ _
  · intro part mem
    simp only [Region.Within]
    rcases List.mem_cons.mp mem with rfl | mem
    · simp only
      omega
    · rcases List.mem_cons.mp mem with rfl | mem
      · simp only
        omega
      · have within := inRow part mem
        simp only [Region.Within] at within
        omega
  · intro place above
    rw [row, Region.row_has]
    simp only [Region.Has]
    change _ ∧ place < _ + stringBytes names ↔ _
    omega
  · intro place outside
    simp only [Region.Has] at outside
    have frame := copied.frame place
    rw [Nat.zero_add] at frame
    rw [frame (by omega) (by omega)]
    exact header_frame before (by omega)

end Passes

/-! ## The result -/

theorem slab_of_returned {layout : Layout} {allocator : Allocator layout} {memory after : Bytes}
    {workers : List (Option Worker)} {cd : Nat}
    (fits : slabBytes layout (workers.filterMap nameOf) < layout.range)
    (returned : listSchedulerWorkersSlab layout allocator memory (some workers) = some (cd, after)) :
    allocator.malloc (slabBytes layout (workers.filterMap nameOf)) = some cd ∧
      Slab layout (workers.filterMap nameOf) cd memory after := by
  generalize names : workers.filterMap nameOf = listed at fits
  have size : slabBytes layout listed =
      layout.header + listed.length * layout.word + stringBytes listed := rfl
  have atLeast := length_le_stringBytes listed
  have measured : measure layout workers ⟨0, 0⟩ = ⟨listed.length, stringBytes listed⟩ := by
    have count : (workers.filterMap nameOf).length < layout.range := by
      rw [names]
      omega
    have bytes : stringBytes (workers.filterMap nameOf) < layout.range := by
      rw [names]
      omega
    rw [measure_fits count bytes, names]
  have arrBytes : listed.length * layout.word % layout.range = listed.length * layout.word :=
    Nat.mod_eq_of_lt (by omega)
  have total : (layout.header + listed.length * layout.word + stringBytes listed) % layout.range =
      slabBytes layout listed := Nat.mod_eq_of_lt fits
  simp only [listSchedulerWorkersSlab, measured, arrBytes, total] at returned
  split at returned
  · cases returned
  · rename_i block allocated
    have pass := @copyNames_eq layout block listed.length workers
      ⟨writeHeader layout memory block listed.length,
        block + layout.header + listed.length * layout.word, 0⟩ (by rw [names, Nat.zero_add])
    rw [names] at pass
    rw [pass] at returned
    cases returned
    have room := allocator.room _ _ allocated
    refine ⟨allocated, Copied.slab room fits ?_⟩
    cases listed with
    | nil => exact ⟨rfl, by simp, fun _ _ _ => rfl⟩
    | cons name rest =>
        have some : 0 < (name :: rest).length := Nat.succ_pos _
        have fields := header_fields layout memory cd (name :: rest).length (by omega) (by omega)
        let copying : Copying := ⟨writeHeader layout memory cd (name :: rest).length,
          cd + layout.header + (name :: rest).length * layout.word, 0⟩
        refine @copied layout cd _ (name :: rest) copying ?_ ?_ ?_ ?_
        · exact fields.1.trans (if_pos some)
        · have inside := layout.collectionInside
          omega
        · change _ + (0 + (name :: rest).length) * layout.word ≤ _
          rw [Nat.zero_add]
        · change cd + layout.header + (name :: rest).length * layout.word + _ ≤ _
          omega

/-- The names that there are in a pool. -/
def namesIn (pool : Option (List (Option Worker))) : List CString :=
  (pool.getD []).filterMap nameOf

/-- `ListSchedulerWorkers` asks for a block of the size of its parts, and lays it out. -/
theorem slabExact (layout : Layout) (allocator : Allocator layout) (memory after : Bytes)
    (pool : Option (List (Option Worker))) (cd : Nat)
    (fits : slabBytes layout (namesIn pool) < layout.range)
    (returned : listSchedulerWorkersSlab layout allocator memory pool = some (cd, after)) :
    allocator.malloc (slabBytes layout (namesIn pool)) = some cd ∧
      Slab layout (namesIn pool) cd memory after := by
  cases pool with
  | none => cases returned
  | some workers => exact slab_of_returned fits returned

/-- Three words. -/
def threeWords : Layout where
  word := 8
  header := 24
  collection := 0
  collectionSz := 8
  collectionBaseOffset := 16
  collectionInside := by decide
  sizeInside := by decide
  offsetInside := by decide
  collectionSize := .inl (by decide)
  collectionOffset := .inl (by decide)
  sizeOffset := .inl (by decide)

/-- Small blocks are placed at one address. -/
def onePlace : Allocator threeWords where
  malloc := fun size => if size ≤ 65536 then some 4096 else none
  room := by
    intro size block allocated
    split at allocated
    · cases allocated
      have range : threeWords.range = 18446744073709551616 := by decide
      omega
    · cases allocated

/-- A worker that was only created. -/
def idleWorker (name : Option CString) : Worker :=
  ⟨name, false, false, false, false, 0, 0⟩

/-- A named worker, one without a name, none, and one with an empty name. -/
def fourWorkers : List (Option Worker) :=
  [some (idleWorker (some ⟨ascii "ws-0", by decide⟩)), some (idleWorker none), none,
    some (idleWorker (some ⟨[], by decide⟩))]

theorem slabExact_fourWorkers : Exists fun after =>
    listSchedulerWorkersSlab threeWords onePlace (fun _ => 0) (some fourWorkers) =
        some (4096, after) ∧
      Slab threeWords (namesIn (some fourWorkers)) 4096 (fun _ => 0) after ∧
      after.load 4136 6 = ascii "ws-0" ++ [0, 0] := by
  refine ⟨_, rfl, ?_, by decide⟩
  exact (slabExact threeWords onePlace (fun _ => 0) _ (some fourWorkers) 4096 (by decide) rfl).2

/-! ## The names of a pool -/

theorem names_listed (pool : SchedulerPool) :
    (pool.workers.map some).filterMap nameOf = listSchedulerWorkers pool := by
  rw [List.filterMap_map]
  rfl

/-- The slab of a pool lists the names of its workers. -/
theorem slab_listed {layout : Layout} {allocator : Allocator layout} {memory after : Bytes}
    {pool : SchedulerPool} {cd : Nat}
    (fits : slabBytes layout (listSchedulerWorkers pool) < layout.range)
    (returned : listSchedulerWorkersSlab layout allocator memory (some (pool.workers.map some)) =
      some (cd, after)) : Slab layout (listSchedulerWorkers pool) cd memory after := by
  rw [<- names_listed] at fits ⊢
  exact (slab_of_returned fits returned).2

end Pool
end UfsrvRx
