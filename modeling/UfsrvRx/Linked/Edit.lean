import UfsrvRx.Linked.Span

namespace UfsrvRx
namespace Linked

/-!
# Linking and unlinking

The two editing operations, written assignment by assignment as programs make
them.  Each keeps the description of the list it works on, and leaves the cells
of all other lists alone.
-/

universe u

variable {Id : Type u} [DecidableEq Id]

namespace Links

variable (links : Links Id)

def setNext (cell : Id) (target : Option Id) : Links Id :=
  { links with next := Function.update links.next cell target }

def setPrev (cell : Id) (target : Option Id) : Links Id :=
  { links with prev := Function.update links.prev cell target }

/-- Nothing is linked to a fresh cell. -/
def reset (cell : Id) : Links Id :=
  (links.setPrev cell none).setNext cell none

/-- The cell goes in front of the head. -/
def link (head : Option Id) (cell : Id) : Links Id :=
  let links := links.setNext cell head
  match head with
  | some first => links.setPrev first (some cell)
  | none => links

/-- A cell, if there is one, leads to the target. -/
def forward (before target : Option Id) : Links Id :=
  match before with
  | some before => links.setNext before target
  | none => links

/-- A cell, if there is one, leads back to the target. -/
def backward (following target : Option Id) : Links Id :=
  match following with
  | some following => links.setPrev following target
  | none => links

/-- The cell leaves its list: the cells before and after it are led past it. -/
def unlink (cell : Id) : Links Id :=
  let links := links.forward (links.prev cell) (links.next cell)
  let links := links.backward (links.next cell) (links.prev cell)
  links.reset cell

/-- Where a list is entered, if what leads to its rest is redirected. -/
def entry (before head target : Option Id) : Option Id :=
  match before with
  | some _ => head
  | none => target

/-- The head of the list that the cell leaves. -/
def headAfter (head : Option Id) (cell : Id) : Option Id :=
  entry (links.prev cell) head (links.next cell)

@[simp] theorem setNext_prev (cell : Id) (target : Option Id) :
    (links.setNext cell target).prev = links.prev := rfl

@[simp] theorem setPrev_next (cell : Id) (target : Option Id) :
    (links.setPrev cell target).next = links.next := rfl

@[simp] theorem setNext_next (cell : Id) (target : Option Id) :
    (links.setNext cell target).next = Function.update links.next cell target := rfl

@[simp] theorem setPrev_prev (cell : Id) (target : Option Id) :
    (links.setPrev cell target).prev = Function.update links.prev cell target := rfl

end Links

variable {links : Links Id} {head before last rest : Option Id} {cells : List Id} {cell : Id}

/-! ## Which cells an operation touches -/

theorem setNext_of_ne {other : Id} (different : other ≠ cell) (target : Option Id) :
    (links.setNext cell target).next other = links.next other :=
  Function.update_of_ne different _ _

theorem setPrev_of_ne {other : Id} (different : other ≠ cell) (target : Option Id) :
    (links.setPrev cell target).prev other = links.prev other :=
  Function.update_of_ne different _ _

theorem reset_of_ne {other : Id} (different : other ≠ cell) :
    (links.reset cell).next other = links.next other ∧
      (links.reset cell).prev other = links.prev other :=
  ⟨setNext_of_ne different _, setPrev_of_ne different _⟩

theorem link_next {other : Id} (different : other ≠ cell) :
    (links.link head cell).next other = links.next other := by
  cases head <;> exact setNext_of_ne different _

theorem link_prev {other : Id} (different : head ≠ some other) :
    (links.link head cell).prev other = links.prev other := by
  cases head with
  | none => rfl
  | some first => exact setPrev_of_ne (fun same => different (congrArg some same.symm)) _

theorem forward_prev (target : Option Id) : (links.forward before target).prev = links.prev := by
  cases before <;> rfl

theorem forward_next {other : Id} (different : before ≠ some other) (target : Option Id) :
    (links.forward before target).next other = links.next other := by
  cases before with
  | none => rfl
  | some before => exact setNext_of_ne (fun same => different (congrArg some same.symm)) _

theorem backward_next (target : Option Id) : (links.backward head target).next = links.next := by
  cases head <;> rfl

theorem backward_prev {other : Id} (different : head ≠ some other) (target : Option Id) :
    (links.backward head target).prev other = links.prev other := by
  cases head with
  | none => rfl
  | some head => exact setPrev_of_ne (fun same => different (congrArg some same.symm)) _

theorem unlink_next {other : Id} (different : other ≠ cell) (before : links.prev cell ≠ some other) :
    (links.unlink cell).next other = links.next other := by
  unfold Links.unlink
  rw [(reset_of_ne different).1, backward_next, forward_next before]

theorem unlink_prev {other : Id} (different : other ≠ cell) (behind : links.next cell ≠ some other)
    (loose : links.prev cell ≠ some cell) : (links.unlink cell).prev other = links.prev other := by
  unfold Links.unlink
  rw [(reset_of_ne different).2, backward_prev, forward_prev]
  rw [forward_next loose]
  exact behind

/-! ## The list that is edited -/

/-- A fresh cell is linked in front. -/
theorem Listed.link (listed : Listed links head cells) (fresh : cell ∉ cells)
    (alone : links.prev cell = none) : Listed (links.link head cell) (some cell) (cell :: cells) := by
  rcases listed.span with ⟨last, span⟩
  refine ⟨List.nodup_cons.mpr ⟨fresh, listed.nodup⟩, ?_⟩
  cases cells with
  | nil =>
      cases span.1
      exact ⟨some cell, rfl, alone, Function.update_self _ _ _, rfl⟩
  | cons first cells =>
      rcases span with ⟨rfl, back, span⟩
      have different : first ≠ cell := fun same => fresh (same ▸ List.mem_cons_self)
      have nodup := (List.nodup_cons.mp listed.nodup).1
      refine ⟨last, rfl, ?_, ?_⟩
      · rw [link_prev fun same => different (Option.some.inj same)]
        exact alone
      · change Span _ (some cell) (Function.update links.next cell (some first) cell) _ _ _
        rw [Function.update_self]
        refine ⟨rfl, Function.update_self _ _ _, ?_⟩
        rw [link_next different]
        refine span.congr (fun other mem => link_next ?_) fun other mem => link_prev ?_
        · rintro rfl
          exact fresh (List.mem_cons_of_mem _ mem)
        · rintro ⟨⟩
          exact nodup mem

/-- The end of a stretch is redirected, by its last cell or, if it has none, by the head. -/
theorem Span.redirect (span : Span links none head cells last rest) (nodup : cells.Nodup)
    (target : Option Id) :
    Span (links.forward last target) none (Links.entry last head target) cells last target := by
  rcases List.eq_nil_or_concat cells with rfl | ⟨front, cell, same⟩
  · cases span.2
    exact ⟨rfl, rfl⟩
  · rw [List.concat_eq_append] at same
    subst same
    rcases span_append.mp span with ⟨left, right, start, rfl, back, leaves, rfl⟩
    refine span_append.mpr ⟨left, some cell, ?_, rfl, back, Function.update_self _ _ _, rfl⟩
    refine start.congr (fun other mem => setNext_of_ne ?_ _) fun _ _ => rfl
    rintro rfl
    exact (List.nodup_append.mp nodup).2.2 other mem other (List.mem_singleton.mpr rfl) rfl

/-- The entry of a stretch is led back to another cell. -/
theorem Span.lead (span : Span links before head cells last none) (nodup : cells.Nodup)
    (target : Option Id) : Exists fun last =>
    Span (links.backward head target) target head cells last none := by
  cases cells with
  | nil =>
      cases span.1
      exact ⟨target, rfl, rfl⟩
  | cons cell cells =>
      rcases span with ⟨rfl, back, span⟩
      refine ⟨last, rfl, Function.update_self _ _ _, ?_⟩
      refine span.congr (fun _ _ => rfl) fun other mem => setPrev_of_ne ?_ _
      rintro rfl
      exact (List.nodup_cons.mp nodup).1 mem

/-- Unlinking from one list leaves the cells of all others alone. -/
theorem Listed.unlink_outside (listed : Listed links head cells) (mem : cell ∈ cells) {other : Id}
    (outside : other ∉ cells) : (links.unlink cell).next other = links.next other ∧
      (links.unlink cell).prev other = links.prev other := by
  have different : other ≠ cell := fun same => outside (same ▸ mem)
  constructor
  · exact unlink_next different fun leads => outside (listed.prev_mem mem leads).1
  · exact unlink_prev different (fun leads => outside (listed.next_mem mem leads))
      fun leads => (listed.prev_mem mem leads).2 rfl

/-- A cell leaves the list, wherever it stands. -/
theorem Listed.unlink (listed : Listed links head cells) (mem : cell ∈ cells) :
    Listed (links.unlink cell) (links.headAfter head cell) (cells.erase cell) := by
  have loose : links.prev cell ≠ some cell := fun leads => (listed.prev_mem mem leads).2 rfl
  have unlinked : links.unlink cell =
      ((links.forward (links.prev cell) (links.next cell)).backward (links.next cell)
        (links.prev cell)).reset cell := by
    simp only [Links.unlink, forward_next loose, forward_prev]
  rcases listed.span with ⟨last, span⟩
  rcases List.append_of_mem mem with ⟨front, back, rfl⟩
  rcases List.nodup_append.mp listed.nodup with ⟨frontNodup, tailNodup, apart⟩
  rcases List.nodup_cons.mp tailNodup with ⟨notBack, backNodup⟩
  have notFront : cell ∉ front := fun inside => apart cell inside cell List.mem_cons_self rfl
  refine ⟨listed.nodup.erase cell, ?_⟩
  rw [List.erase_append_right _ notFront, List.erase_cons_head, unlinked]
  rcases span_append.mp span with ⟨left, right, start, rfl, entry, tail⟩
  have skipped := start.redirect frontNodup (links.next cell)
  rcases tail.lead backNodup left with ⟨last, led⟩
  rw [<- entry] at skipped led
  refine ⟨last, span_append.mpr ⟨links.prev cell, links.next cell, ?_, ?_⟩⟩
  · refine skipped.congr (fun other inside => ?_) fun other inside => ?_
    · have different : other ≠ cell := fun same => notFront (same ▸ inside)
      rw [(reset_of_ne different).1, backward_next]
    · have different : other ≠ cell := fun same => notFront (same ▸ inside)
      rw [(reset_of_ne different).2, backward_prev]
      intro leads
      have behind := List.mem_of_head? (listed.split.2.symm.trans leads)
      exact apart other inside other (List.mem_cons_of_mem _ behind) rfl
  · refine led.congr (fun other inside => ?_) fun other inside => ?_
    · have different : other ≠ cell := fun same => notBack (same ▸ inside)
      rw [(reset_of_ne different).1, backward_next, backward_next, forward_next]
      intro leads
      have before := List.mem_of_getLast? (listed.split.1.symm.trans leads)
      exact apart other before other (List.mem_cons_of_mem _ inside) rfl
    · have different : other ≠ cell := fun same => notBack (same ▸ inside)
      rw [(reset_of_ne different).2]
      cases links.next cell with
      | none => exact congrFun (forward_prev _) other
      | some following =>
          change Function.update (links.forward _ _).prev following _ other = _
          rw [forward_prev]
          rfl

end Linked
end UfsrvRx
