import Mathlib.Data.List.Basic
import Mathlib.Data.List.Nodup
import Mathlib.Logic.Function.Basic

namespace UfsrvRx
namespace Linked

/-!
# Doubly linked lists

Links between the cells of a memory, and the few operations that programs make
on them: a cell is linked in front of the head, a cell is unlinked wherever it
stands, a loop follows one direction.  Several lists may live in one memory.
A list is described by the sequence of its cells; an operation keeps the
description of its own list and does not touch the cells of any other one.
-/

universe u

variable {Id : Type u}

/-- The two links of every cell. -/
structure Links (Id : Type u) where
  next : Id -> Option Id
  prev : Id -> Option Id

/-- Following `next` from `head` visits exactly these cells, in this order. -/
def Chain (next : Id -> Option Id) : Option Id -> List Id -> Prop
  | head, [] => head = none
  | head, cell :: cells => head = some cell ∧ Chain next (next cell) cells

/-- A stretch of a list.  It is entered at `head` from `before`, and left from `last` to
`rest`. -/
def Span (links : Links Id) : Option Id -> Option Id -> List Id -> Option Id -> Option Id -> Prop
  | before, head, [], last, rest => head = rest ∧ last = before
  | before, head, cell :: cells, last, rest => head = some cell ∧ links.prev cell = before ∧
      Span links (some cell) (links.next cell) cells last rest

/-- A whole list: its cells are different, and both ends are marked. -/
structure Listed (links : Links Id) (head : Option Id) (cells : List Id) : Prop where
  nodup : cells.Nodup
  span : Exists fun last => Span links none head cells last none

/-! ## Reading -/

theorem Chain.congr {first second : Id -> Option Id} {head : Option Id} {cells : List Id}
    (chain : Chain first head cells) (same : forall cell, cell ∈ cells -> second cell = first cell) :
    Chain second head cells := by
  induction cells generalizing head with
  | nil => exact chain
  | cons cell cells inductionHypothesis =>
      refine ⟨chain.1, ?_⟩
      rw [same cell List.mem_cons_self]
      exact inductionHypothesis chain.2 fun other mem => same other (List.mem_cons_of_mem _ mem)

/-- The links of the cells of a chain depend on the chain alone. -/
theorem Chain.next_eq {first second : Id -> Option Id} {head other : Option Id} {cells : List Id}
    (left : Chain first head cells) (right : Chain second other cells) {cell : Id}
    (mem : cell ∈ cells) : first cell = second cell := by
  induction cells generalizing head other with
  | nil => cases mem
  | cons start cells inductionHypothesis =>
      rcases List.mem_cons.mp mem with rfl | mem
      · cases cells with
        | nil => rw [show first cell = none from left.2, show second cell = none from right.2]
        | cons following cells => rw [left.2.1, right.2.1]
      · exact inductionHypothesis left.2 right.2 mem

/-- The cells that a loop along `next` visits, if it ends within so many rounds. -/
def visited (next : Id -> Option Id) : Nat -> Option Id -> List Id
  | 0, _ => []
  | _ + 1, none => []
  | rounds + 1, some cell => cell :: visited next rounds (next cell)

theorem Chain.visited {next : Id -> Option Id} {head : Option Id} {cells : List Id}
    (chain : Chain next head cells) {rounds : Nat} (enough : cells.length ≤ rounds) :
    Linked.visited next rounds head = cells := by
  induction cells generalizing head rounds with
  | nil => cases rounds <;> cases chain <;> rfl
  | cons cell cells inductionHypothesis =>
      cases rounds with
      | zero => exact absurd enough (Nat.not_succ_le_zero _)
      | succ rounds =>
          rw [chain.1, Linked.visited]
          exact congrArg (cell :: ·) (inductionHypothesis chain.2 (Nat.le_of_succ_le_succ enough))

section Span

variable {links other : Links Id} {before head last rest : Option Id} {cells : List Id}

theorem Span.congr (span : Span links before head cells last rest)
    (next : forall cell, cell ∈ cells -> other.next cell = links.next cell)
    (prev : forall cell, cell ∈ cells -> other.prev cell = links.prev cell) :
    Span other before head cells last rest := by
  induction cells generalizing before head with
  | nil => exact span
  | cons cell cells inductionHypothesis =>
      refine ⟨span.1, (prev cell List.mem_cons_self).trans span.2.1, ?_⟩
      rw [next cell List.mem_cons_self]
      exact inductionHypothesis span.2.2
        (fun other mem => next other (List.mem_cons_of_mem _ mem))
        fun other mem => prev other (List.mem_cons_of_mem _ mem)

theorem Span.chain (span : Span links before head cells last none) :
    Chain links.next head cells := by
  induction cells generalizing before head with
  | nil => exact span.1
  | cons cell cells inductionHypothesis => exact ⟨span.1, inductionHypothesis span.2.2⟩

theorem Listed.congr (listed : Listed links head cells)
    (next : forall cell, cell ∈ cells -> other.next cell = links.next cell)
    (prev : forall cell, cell ∈ cells -> other.prev cell = links.prev cell) :
    Listed other head cells := by
  rcases listed.span with ⟨last, span⟩
  exact ⟨listed.nodup, last, span.congr next prev⟩

theorem Listed.chain (listed : Listed links head cells) : Chain links.next head cells := by
  rcases listed.span with ⟨last, span⟩
  exact span.chain

theorem span_append {front back : List Id} :
    Span links before head (front ++ back) last rest ↔ Exists fun left => Exists fun right =>
      Span links before head front left right ∧ Span links left right back last rest := by
  induction front generalizing before head with
  | nil =>
      constructor
      · intro span
        exact ⟨before, head, ⟨rfl, rfl⟩, span⟩
      · rintro ⟨left, right, ⟨rfl, rfl⟩, span⟩
        exact span
  | cons cell front inductionHypothesis =>
      constructor
      · rintro ⟨start, back, span⟩
        rcases inductionHypothesis.mp span with ⟨left, right, first, second⟩
        exact ⟨left, right, ⟨start, back, first⟩, second⟩
      · rintro ⟨left, right, ⟨start, back, first⟩, second⟩
        exact ⟨start, back, inductionHypothesis.mpr ⟨left, right, first, second⟩⟩

end Span

/-! ## The two directions -/

section Directions

variable {links : Links Id} {before head last rest : Option Id} {cells front back : List Id} {cell : Id}

theorem Span.next_eq {following : Id}
    (span : Span links before head (front ++ cell :: following :: back) last rest) :
    links.next cell = some following := by
  rcases span_append.mp span with ⟨_, _, _, _, _, enters, _⟩
  exact enters

theorem Span.prev_eq {following : Id}
    (span : Span links before head (front ++ cell :: following :: back) last rest) :
    links.prev following = some cell := by
  rcases span_append.mp span with ⟨_, _, _, _, _, _, back, _⟩
  exact back

/-- The links of a cell of a list lead to its neighbours. -/
theorem Listed.split (listed : Listed links head (front ++ cell :: back)) :
    links.prev cell = front.getLast? ∧ links.next cell = back.head? := by
  rcases listed.span with ⟨last, span⟩
  rcases span_append.mp span with ⟨left, right, start, rfl, entry, tail⟩
  constructor
  · rcases List.eq_nil_or_concat front with rfl | ⟨front, before, rfl⟩
    · exact entry.trans start.2
    · rw [List.concat_eq_append, List.append_assoc] at span
      rw [List.concat_eq_append, List.getLast?_concat]
      exact span.prev_eq
  · cases back with
    | nil => exact tail.1
    | cons following back => exact tail.1

theorem Listed.prev_mem (listed : Listed links head cells) (mem : cell ∈ cells) {other : Id}
    (leads : links.prev cell = some other) : other ∈ cells ∧ other ≠ cell := by
  rcases List.append_of_mem mem with ⟨front, back, rfl⟩
  have inside := List.mem_of_getLast? (listed.split.1.symm.trans leads)
  refine ⟨List.mem_append_left _ inside, ?_⟩
  exact (List.nodup_append.mp listed.nodup).2.2 other inside cell List.mem_cons_self

theorem Listed.next_mem (listed : Listed links head cells) (mem : cell ∈ cells) {other : Id}
    (leads : links.next cell = some other) : other ∈ cells := by
  rcases List.append_of_mem mem with ⟨front, back, rfl⟩
  have inside := List.mem_of_head? (listed.split.2.symm.trans leads)
  exact List.mem_append_right _ (List.mem_cons_of_mem _ inside)

/-- On a whole list the two links are inverse to each other. -/
theorem Listed.inverse (listed : Listed links head cells) {first second : Id}
    (firstMem : first ∈ cells) (secondMem : second ∈ cells) :
    links.next first = some second ↔ links.prev second = some first := by
  rcases listed.span with ⟨last, span⟩
  constructor
  · intro forward
    rcases List.append_of_mem firstMem with ⟨front, back, rfl⟩
    cases back with
    | nil => exact absurd (listed.split.2.symm.trans forward) nofun
    | cons following back =>
        cases listed.split.2.symm.trans forward
        exact span.prev_eq
  · intro backward
    rcases List.append_of_mem secondMem with ⟨front, back, rfl⟩
    rcases List.getLast?_eq_some_iff.mp (listed.split.1.symm.trans backward) with ⟨front, rfl⟩
    rw [List.append_assoc] at span
    exact span.next_eq

theorem Listed.head_mem (listed : Listed links head cells) {first : Id}
    (start : head = some first) : first ∈ cells := by
  rcases listed.span with ⟨last, span⟩
  cases cells with
  | nil => exact absurd (start.symm.trans span.1) nofun
  | cons cell cells =>
      cases start.symm.trans span.1
      exact List.mem_cons_self

/-- The first cell has none before it. -/
theorem Listed.first (listed : Listed links head cells) {first : Id} (start : head = some first) :
    links.prev first = none := by
  rcases listed.span with ⟨last, span⟩
  cases cells with
  | nil => exact absurd (start.symm.trans span.1) nofun
  | cons cell cells =>
      cases start.symm.trans span.1
      exact span.2.1

end Directions

end Linked
end UfsrvRx
