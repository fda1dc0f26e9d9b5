import UfsrvRx.Cancellation.Refinement
import UfsrvRx.Linked.Edit

namespace UfsrvRx
namespace Cancellation

open Linked Transition

/-!
# The links of the registry

The same calls, with the links that the nodes really have.  `RegisterEx` links
a node in front of the head, `Unregister` takes it out wherever it stands, and
`Cancel` takes the head, follows the links once to reset the way back, and then
follows them again while it runs the callbacks.  The links realise the
sequences that the registry keeps, whatever calls are in progress.
-/

/-- The links of all nodes, the head of each token, and the node that each
`Cancel` call runs next: its variable `node`, or `next` while a callback runs. -/
structure Memory where
  links : Links NodeId
  head : TokenId -> Option NodeId
  cursor : CallId -> Option NodeId

/-- The order in which nodes were linked, newest first, is history. -/
structure LinkedState where
  registry : State
  memory : Memory
  order : List NodeId

namespace Memory

variable (memory : Memory)

/-- The section of `UfsrvCancellationTokenRegisterEx` that links the node. -/
def link (token : TokenId) (node : NodeId) : Memory :=
  { memory with
    links := memory.links.link (memory.head token) node
    head := Function.update memory.head token (some node) }

/-- The section of `UfsrvCancellationTokenUnregister` that unlinks the node. -/
def unlink (token : TokenId) (node : NodeId) : Memory :=
  { memory with
    links := memory.links.unlink node
    head := Function.update memory.head token (memory.links.headAfter (memory.head token) node) }

/-- The section of `UfsrvCancellationTokenCancel` that detaches the list and
resets `prev` of each node that its loop visits. -/
def detach (rounds : Nat) (call : CallId) (token : TokenId) : Memory where
  links :=
    { memory.links with
      prev := fun walk =>
        if walk ∈ visited memory.links.next rounds (memory.head token) then none
        else memory.links.prev walk }
  head := Function.update memory.head token none
  cursor := Function.update memory.cursor call (memory.head token)

/-- The dispatch loop reads `node->next` before it runs the callback. -/
def advance (call : CallId) : Memory :=
  { memory with
    cursor := Function.update memory.cursor call
      ((memory.cursor call).bind memory.links.next) }

end Memory

/-- What each event does to the memory.  The node of a `RegisterEx` call is
fresh memory, so that nothing is linked to it. -/
def memoryNext (s : LinkedState) : Event -> Memory
  | .create token => { s.memory with head := Function.update s.memory.head token none }
  | .registerAlloc node _ _ => { s.memory with links := s.memory.links.reset node }
  | .registerLock node =>
      if (s.registry.tokens (s.registry.tokenOf node)).token.isCancelled then s.memory
      else s.memory.link (s.registry.tokenOf node) node
  | .unregisterLock node =>
      if (s.registry.registrations node).cb.active then
        s.memory.unlink (s.registry.tokenOf node) node
      else s.memory
  | .cancelLock call token =>
      if (s.registry.tokens token).token.isCancelled then s.memory
      else s.memory.detach s.order.length call token
  | .cancelCall call _ _ _ => s.memory.advance call
  | .cancelDrop _ _ node _ => { s.memory with links := s.memory.links.setNext node none }
  | .nodeTokenWalk node =>
      { s.memory with head := Function.update s.memory.head (s.registry.tokenOf node) none }
  | .destroyWalk _ token => { s.memory with head := Function.update s.memory.head token none }
  | .retain _ | .registerRefused _ _ | .registerRetain _ | .registerCall _
  | .registerCallReturned _ | .unregisterReturn _ _ | .cancelCallReturned _ _ _ _
  | .cancelReclaimed _ _ _ _ | .cancelReturn _ _ | .nodeFree _ | .hookCall _ | .hookReturned _
  | .nodeTokenRelease _ | .destroyRelease _ _ => s.memory

def orderNext (s : LinkedState) : Event -> List NodeId
  | .registerLock node =>
      if (s.registry.tokens (s.registry.tokenOf node)).token.isCancelled then s.order
      else node :: s.order
  | _ => s.order

/-- The registry and its memory as a machine. -/
def linkedMachine : Machine LinkedState Event where
  initial := fun s => s = ⟨start, ⟨⟨fun _ => none, fun _ => none⟩, fun _ => none, fun _ => none⟩, []⟩
  enabled := fun s event => enabled s.registry event
  next := fun s event => ⟨next s.registry event, memoryNext s event, orderNext s event⟩

theorem registry_reachable {s : LinkedState} (reached : linkedMachine.Reachable s) :
    machine.Reachable s.registry := by
  refine reached.component machine LinkedState.registry ?_ ?_
  · intro s initial
    rw [show s = _ from initial]
    rfl
  · intro s event may
    exact .inr ⟨event, may, rfl⟩

/-! ## What the links realise -/

namespace State

def actives (s : State) : NodeId -> Bool := fun n => (s.registrations n).cb.active

def pendings (s : State) : CallId -> List NodeId := fun k => (s.cancel k).pending

theorem actives_setRegistration (s : State) (node : NodeId) (entry : Registration) :
    (s.setRegistration node entry).actives = Function.update s.actives node entry.cb.active :=
  view_update (fun entry => entry.cb.active) s.registrations node entry

theorem actives_setRegistration_same {s : State} {node : NodeId} {entry : Registration}
    (same : entry.cb.active = (s.registrations node).cb.active) :
    (s.setRegistration node entry).actives = s.actives :=
  view_update_same (fun entry => entry.cb.active) s.registrations same

/-- The node is registered with the token and active. -/
def isActive (s : State) (token : TokenId) (node : NodeId) : Bool :=
  s.actives node && s.tokenOf node == token

end State

namespace RegisterFrame

/-- The node is allocated, and its call has not entered the mutex. -/
def unlinked : RegisterFrame -> Bool
  | allocated | retained => true
  | idle | calling | running | returned | refused => false

/-- Once a node was linked, it stays behind the mutex. -/
def Moves (before after : RegisterFrame) : Prop :=
  (before = .returned -> after = .returned) ∧ (after.unlinked = true -> before.unlinked = true)

theorem Moves.refl (frame : RegisterFrame) : Moves frame frame :=
  ⟨id, id⟩

theorem moves_update {table : NodeId -> Registration} {node : NodeId} {entry : Registration}
    (moves : Moves (table node).register entry.register) (other : NodeId) :
    Moves (table other).register (Function.update table node entry other).register := by
  by_cases same : other = node
  · subst same
    rw [Function.update_self]
    exact moves
  · rw [Function.update_of_ne same]
    exact .refl _

end RegisterFrame

structure Realized (s : LinkedState) : Prop where
  listed : forall token, Listed s.memory.links (s.memory.head token) (s.registry.heads token)
  detached : forall call, Chain s.memory.links.next (s.memory.cursor call)
    (s.registry.pendings call)
  ordered : forall token, s.registry.heads token = s.order.filter (s.registry.isActive token)
  entered : forall node, node ∈ s.order ->
    (s.registry.registrations node).register = .returned
  loose : forall node, (s.registry.registrations node).register.unlinked = true ->
    s.memory.links.prev node = none

namespace Realized

variable {s after : LinkedState} {life : NodeId -> Life} {owners : TokenId -> Finset NodeId}
  {fate : TokenId -> Fate}

/-- The active nodes are the same ones. -/
theorem ordered_congr (ok : Realized s) (heads : after.registry.heads = s.registry.heads)
    (actives : after.registry.actives = s.registry.actives)
    (tokenOf : forall node, s.registry.actives node = true ->
      after.registry.tokenOf node = s.registry.tokenOf node)
    (order : after.order = s.order) (token : TokenId) :
    after.registry.heads token = after.order.filter (after.registry.isActive token) := by
  rw [heads, order, ok.ordered token]
  apply List.filter_congr
  intro node mem
  simp only [State.isActive, actives]
  cases active : s.registry.actives node with
  | false => rfl
  | true => rw [tokenOf node active]

/-- A step that touches no link and no flag of a node. -/
theorem quiet (ok : Realized s) (event : Event)
    (memory : memoryNext s event = s.memory) (order : orderNext s event = s.order)
    (heads : (next s.registry event).heads = s.registry.heads)
    (pendings : (next s.registry event).pendings = s.registry.pendings)
    (actives : (next s.registry event).actives = s.registry.actives)
    (tokenOf : (next s.registry event).tokenOf = s.registry.tokenOf)
    (moves : forall node, RegisterFrame.Moves (s.registry.registrations node).register
      ((next s.registry event).registrations node).register) :
    Realized (linkedMachine.next s event) := by
  constructor
  · intro token
    change Listed (memoryNext s event).links ((memoryNext s event).head token)
      ((next s.registry event).heads token)
    rw [memory, heads]
    exact ok.listed token
  · intro call
    change Chain (memoryNext s event).links.next ((memoryNext s event).cursor call)
      ((next s.registry event).pendings call)
    rw [memory, pendings]
    exact ok.detached call
  · exact ok.ordered_congr heads actives (fun node _ => congrFun tokenOf node) order
  · intro node mem
    change node ∈ orderNext s event at mem
    rw [order] at mem
    exact (moves node).1 (ok.entered node mem)
  · intro node unlinked
    change (memoryNext s event).links.prev node = none
    rw [memory]
    exact ok.loose node ((moves node).2 unlinked)

/-- One list is edited.  The cells of all others, and of the detached segments, keep their
links. -/
theorem edit (ok : Realized s) (consistent : Consistent s.registry life owners fate)
    {token : TokenId} {node : NodeId} {target : Option NodeId} {cells : List NodeId}
    (heads : after.registry.heads = Function.update s.registry.heads token cells)
    (pendings : after.registry.pendings = s.registry.pendings)
    (head : after.memory.head = Function.update s.memory.head token target)
    (cursor : after.memory.cursor = s.memory.cursor)
    (listed : Listed after.memory.links target cells)
    (outside : forall other, other ≠ node -> other ∉ s.registry.heads token ->
      after.memory.links.next other = s.memory.links.next other ∧
        after.memory.links.prev other = s.memory.links.prev other)
    (elsewhere : forall other, other ≠ token -> node ∉ s.registry.heads other)
    (undetached : forall call, node ∉ s.registry.pendings call)
    (ordered : forall token, after.registry.heads token =
      after.order.filter (after.registry.isActive token))
    (entered : forall other, other ∈ after.order ->
      (after.registry.registrations other).register = .returned)
    (unlinked : forall other, (after.registry.registrations other).register.unlinked = true ->
      other ≠ node ∧ (s.registry.registrations other).register.unlinked = true) :
    Realized after := by
  refine ⟨?_, ?_, ordered, entered, ?_⟩
  · intro other
    rw [heads, head]
    by_cases same : other = token
    · subst same
      rw [Function.update_self, Function.update_self]
      exact listed
    · rw [Function.update_of_ne same, Function.update_of_ne same]
      have apart : forall cell, cell ∈ s.registry.heads other ->
          cell ≠ node ∧ cell ∉ s.registry.heads token := by
        intro cell mem
        refine ⟨fun equal => elsewhere other same (equal ▸ mem), fun inside => same ?_⟩
        exact ((consistent.lists.headMem other cell).mp mem).2.symm.trans
          ((consistent.lists.headMem token cell).mp inside).2
      refine (ok.listed other).congr ?_ ?_
      · exact fun cell mem => (outside cell (apart cell mem).1 (apart cell mem).2).1
      · exact fun cell mem => (outside cell (apart cell mem).1 (apart cell mem).2).2
  · intro call
    rw [pendings, cursor]
    refine (ok.detached call).congr fun cell mem => (outside cell ?_ fun inside => ?_).1
    · exact fun same => undetached call (same ▸ mem)
    · exact absurd (((consistent.lists.pendingMem call cell).mp mem).symm.trans
        ((consistent.lists.headMem token cell).mp inside).1) nofun
  · intro other entering
    rcases unlinked other entering with ⟨different, before⟩
    refine ((outside other different fun inside => ?_).2).trans (ok.loose other before)
    have listed := ((consistent.lists.headMem token other).mp inside).1
    have entry := consistent.entries other
    rw [listed] at entry
    cases frame : (s.registry.registrations other).register <;>
      simp_all [RegisterFrame.unlinked]
    · exact absurd (entry.entering.mpr (.inl frame)) nofun
    · exact absurd (entry.entering.mpr (.inr frame)) nofun

/-- A token without references has no list, so taking its head changes nothing. -/
theorem head_none (ok : Realized s) {token : TokenId} (nil : s.registry.heads token = []) :
    Function.update s.memory.head token none = s.memory.head := by
  rcases ok.listed token with ⟨_, last, span⟩
  rw [nil] at span
  have absent : s.memory.head token = none := span.1
  rw [<- absent]
  exact Function.update_eq_self token _

/-! ## The steps that edit links -/

theorem registerAlloc (ok : Realized s) (consistent : Consistent s.registry life owners fate)
    {node : NodeId} {token : TokenId} {hook : Bool}
    (idle : (s.registry.registrations node).register = .idle) :
    Realized (linkedMachine.next s (.registerAlloc node token hook)) := by
  have entry := consistent.entries node
  have absent : life node = .absent := entry.absent.mpr (.inl idle)
  have inactive : s.registry.actives node = false := by
    cases active : s.registry.actives node with
    | false => rfl
    | true => exact absurd (absent.symm.trans (entry.active.mp active)) nofun
  have outside : forall token, node ∉ s.registry.heads token := fun token mem =>
    absurd (absent.symm.trans ((consistent.lists.headMem token node).mp mem).1) nofun
  have undetached : forall call, node ∉ s.registry.pendings call := fun call mem =>
    absurd (absent.symm.trans ((consistent.lists.pendingMem call node).mp mem)) nofun
  constructor
  · intro other
    have apart : forall cell, cell ∈ s.registry.heads other -> cell ≠ node :=
      fun cell mem same => outside other (same ▸ mem)
    refine (ok.listed other).congr ?_ ?_
    · exact fun cell mem => (reset_of_ne (apart cell mem)).1
    · exact fun cell mem => (reset_of_ne (apart cell mem)).2
  · intro call
    refine (ok.detached call).congr fun cell mem => (reset_of_ne ?_).1
    exact fun same => undetached call (same ▸ mem)
  · refine ok.ordered_congr rfl ?_ ?_ rfl
    · exact State.actives_setRegistration_same inactive.symm
    · intro other active
      have different : other ≠ node := by
        rintro rfl
        exact absurd (inactive.symm.trans active) nofun
      exact congrArg (fun entry : Registration => entry.cb.token)
        (Function.update_of_ne different _ _)
  · intro other mem
    have different : other ≠ node := by
      rintro rfl
      exact absurd (idle.symm.trans (ok.entered other mem)) nofun
    exact (congrArg Registration.register (Function.update_of_ne different _ _)).trans
      (ok.entered other mem)
  · intro other unlinked
    by_cases same : other = node
    · subst same
      exact Function.update_self _ _ _
    · have before : (s.registry.registrations other).register.unlinked = true := by
        have kept : (next s.registry (.registerAlloc node token hook)).registrations other =
            s.registry.registrations other := Function.update_of_ne same _ _
        rw [<- kept]
        exact unlinked
      exact (reset_of_ne same).2.trans (ok.loose other before)

/-- The node is linked in front, unless it found the flag set. -/
theorem registerLock (ok : Realized s) (consistent : Consistent s.registry life owners fate)
    {node : NodeId} (retained : (s.registry.registrations node).register = .retained) :
    Realized (linkedMachine.next s (.registerLock node)) := by
  have entering : life node = .entering := (consistent.entries node).entering.mpr (.inr retained)
  have outside : forall token, node ∉ s.registry.heads token := fun token mem =>
    absurd (entering.symm.trans ((consistent.lists.headMem token node).mp mem).1) nofun
  have undetached : forall call, node ∉ s.registry.pendings call := fun call mem =>
    absurd (entering.symm.trans ((consistent.lists.pendingMem call node).mp mem)) nofun
  have unordered : node ∉ s.order := fun mem =>
    absurd (retained.symm.trans (ok.entered node mem)) nofun
  have loose : s.memory.links.prev node = none := ok.loose node (by rw [retained]; rfl)
  by_cases flag : (s.registry.tokens (s.registry.tokenOf node)).token.isCancelled = true
  · refine ok.quiet _ (if_pos flag) (if_pos flag) ?_ ?_ ?_ ?_ ?_
    all_goals simp only [next, State.registerSection, if_pos flag]
    · rfl
    · rfl
    · exact State.actives_setRegistration_same rfl
    · exact State.tokenOf_setRegistration_same rfl
    · refine RegisterFrame.moves_update ⟨fun returned => ?_, fun _ => by rw [retained]; rfl⟩
      exact absurd (retained.symm.trans returned) nofun
  · have registry : next s.registry (.registerLock node) =
        (s.registry.setToken (s.registry.tokenOf node)
          { s.registry.tokens (s.registry.tokenOf node) with
            token := { (s.registry.tokens (s.registry.tokenOf node)).token with
              head := node :: (s.registry.tokens (s.registry.tokenOf node)).token.head } }).setRegistration
          node { s.registry.registrations node with
            cb := { (s.registry.registrations node).cb with active := true }
            register := .returned } := by
      simp only [next, State.registerSection, if_neg flag]
    have heads : (next s.registry (.registerLock node)).heads =
        Function.update s.registry.heads (s.registry.tokenOf node)
          (node :: s.registry.heads (s.registry.tokenOf node)) := by
      rw [registry]
      exact State.heads_setToken _ _ _
    have actives : (next s.registry (.registerLock node)).actives =
        Function.update s.registry.actives node true := by
      rw [registry]
      exact State.actives_setRegistration _ _ _
    have tokenOf : (next s.registry (.registerLock node)).tokenOf = s.registry.tokenOf := by
      rw [registry]
      exact State.tokenOf_setRegistration_same rfl
    have registers : (next s.registry (.registerLock node)).registrations =
        Function.update s.registry.registrations node { s.registry.registrations node with
            cb := { (s.registry.registrations node).cb with active := true }
            register := .returned } := by
      rw [registry]
      rfl
    have memory : (linkedMachine.next s (.registerLock node)).memory =
        s.memory.link (s.registry.tokenOf node) node := if_neg flag
    have order : (linkedMachine.next s (.registerLock node)).order = node :: s.order := if_neg flag
    refine ok.edit consistent heads ?_ (by rw [memory]; rfl) (by rw [memory]; rfl) ?_ ?_
      (fun other _ => outside other) undetached ?_ ?_ ?_
    · change (next s.registry (.registerLock node)).pendings = _
      rw [registry]
      rfl
    · rw [memory]
      exact (ok.listed _).link (outside _) loose
    · intro other different away
      rw [memory]
      refine ⟨link_next different, link_prev fun first => away ?_⟩
      exact (ok.listed _).head_mem first
    · intro token
      change (next s.registry (.registerLock node)).heads token =
        (linkedMachine.next s (.registerLock node)).order.filter
          ((next s.registry (.registerLock node)).isActive token)
      have rest : s.order.filter ((next s.registry (.registerLock node)).isActive token) =
          s.registry.heads token := by
        rw [ok.ordered token]
        apply List.filter_congr
        intro other mem
        have different : other ≠ node := fun same => unordered (same ▸ mem)
        simp only [State.isActive, actives, tokenOf, Function.update_of_ne different]
      rw [order, heads, List.filter_cons, rest]
      simp only [State.isActive, actives, tokenOf, Function.update_self, Bool.true_and]
      by_cases same : token = s.registry.tokenOf node
      · subst same
        rw [Function.update_self, if_pos (beq_self_eq_true _)]
      · rw [Function.update_of_ne same, if_neg]
        exact fun equal => same (beq_iff_eq.mp equal).symm
    · intro other mem
      change ((next s.registry (.registerLock node)).registrations other).register = .returned
      rw [registers]
      rw [order] at mem
      by_cases same : other = node
      · subst same
        rw [Function.update_self]
      · rw [Function.update_of_ne same]
        exact ok.entered other ((List.mem_cons.mp mem).resolve_left same)
    · intro other unlinked
      change ((next s.registry (.registerLock node)).registrations other).register.unlinked = true
        at unlinked
      rw [registers] at unlinked
      by_cases same : other = node
      · subst same
        rw [Function.update_self] at unlinked
        cases unlinked
      · rw [Function.update_of_ne same] at unlinked
        exact ⟨same, unlinked⟩

/-- The node leaves the list of its token, unless it left before. -/
theorem unregisterLock (ok : Realized s) (consistent : Consistent s.registry life owners fate)
    {node : NodeId} : Realized (linkedMachine.next s (.unregisterLock node)) := by
  have entry := consistent.entries node
  by_cases active : (s.registry.registrations node).cb.active = true
  · have place : life node = .listed := entry.active.mp active
    have inside : node ∈ s.registry.heads (s.registry.tokenOf node) :=
      (consistent.lists.headMem _ node).mpr ⟨place, rfl⟩
    have undetached : forall call, node ∉ s.registry.pendings call := by
      intro call mem
      cases place.symm.trans ((consistent.lists.pendingMem call node).mp mem)
    have heads : (next s.registry (.unregisterLock node)).heads =
        Function.update s.registry.heads (s.registry.tokenOf node)
          ((s.registry.heads (s.registry.tokenOf node)).erase node) := by
      simp only [next, State.unregisterSection, if_pos active]
      exact State.heads_setToken _ _ _
    have actives : (next s.registry (.unregisterLock node)).actives =
        Function.update s.registry.actives node false := by
      simp only [next, State.unregisterSection, if_pos active]
      exact State.actives_setRegistration _ _ _
    have tokenOf : (next s.registry (.unregisterLock node)).tokenOf = s.registry.tokenOf := by
      simp only [next, State.unregisterSection, if_pos active]
      exact State.tokenOf_setRegistration_same rfl
    have moves : forall other, RegisterFrame.Moves (s.registry.registrations other).register
        ((next s.registry (.unregisterLock node)).registrations other).register := by
      simp only [next, State.unregisterSection, if_pos active]
      exact RegisterFrame.moves_update (.refl _)
    have memory : (linkedMachine.next s (.unregisterLock node)).memory =
        s.memory.unlink (s.registry.tokenOf node) node := if_pos active
    refine ok.edit consistent heads ?_ (by rw [memory]; rfl) (by rw [memory]; rfl) ?_ ?_ ?_
      undetached ?_ ?_ ?_
    · change (next s.registry (.unregisterLock node)).pendings = _
      simp only [next, State.unregisterSection, if_pos active]
      rfl
    · rw [memory]
      exact (ok.listed _).unlink inside
    · intro other _ away
      rw [memory]
      exact (ok.listed _).unlink_outside inside away
    · intro other different mem
      exact different (((consistent.lists.headMem other node).mp mem).2).symm
    · intro token
      change (next s.registry (.unregisterLock node)).heads token =
        s.order.filter ((next s.registry (.unregisterLock node)).isActive token)
      have outside : s.order.filter ((next s.registry (.unregisterLock node)).isActive token) =
          (s.registry.heads token).filter (fun other => other != node) := by
        rw [ok.ordered token, List.filter_filter]
        apply List.filter_congr
        intro other mem
        simp only [State.isActive, actives, tokenOf]
        by_cases same : other = node
        · subst same
          simp
        · simp [same]
      rw [heads, outside]
      by_cases same : token = s.registry.tokenOf node
      · subst same
        rw [Function.update_self]
        exact (consistent.lists.headNodup _).erase_eq_filter node
      · rw [Function.update_of_ne same]
        refine (List.filter_eq_self.mpr fun other mem => bne_iff_ne.mpr ?_).symm
        rintro rfl
        exact same ((consistent.lists.headMem token other).mp mem).2.symm
    · intro other mem
      exact (moves other).1 (ok.entered other mem)
    · intro other unlinked
      have before := (moves other).2 unlinked
      refine ⟨?_, before⟩
      rintro rfl
      cases frame : (s.registry.registrations other).register with
      | allocated => cases place.symm.trans (entry.entering.mpr (.inl frame))
      | retained => cases place.symm.trans (entry.entering.mpr (.inr frame))
      | idle | calling | running | returned | refused =>
          rw [frame] at before
          cases before
  · refine ok.quiet _ (if_neg active) rfl ?_ ?_ ?_ ?_ ?_
    all_goals simp only [next, State.unregisterSection, if_neg active]
    · rfl
    · rfl
    · exact State.actives_setRegistration_same rfl
    · exact State.tokenOf_setRegistration_same rfl
    · exact RegisterFrame.moves_update (.refl _)

/-- The loop of `Cancel` visits the whole list. -/
theorem visits (ok : Realized s) (token : TokenId) :
    visited s.memory.links.next s.order.length (s.memory.head token) = s.registry.heads token := by
  refine (ok.listed token).chain.visited ?_
  rw [ok.ordered token]
  exact List.length_filter_le _ _

/-- The whole list changes hands, unless the flag was set before. -/
theorem cancelLock (ok : Realized s) (consistent : Consistent s.registry life owners fate)
    {call : CallId} {token : TokenId} (idle : s.registry.cancel call = .idle) :
    Realized (linkedMachine.next s (.cancelLock call token)) := by
  by_cases flag : (s.registry.tokens token).token.isCancelled = true
  · refine ok.quiet _ (if_pos flag) rfl ?_ ?_ ?_ ?_ ?_
    all_goals simp only [next, State.cancelSection, if_pos flag]
    · rfl
    · refine view_update_same CancelFrame.pending s.registry.cancel ?_
      rw [idle]
      rfl
    · rfl
    · rfl
    · exact fun other => .refl _
  · have heads : (next s.registry (.cancelLock call token)).heads =
        Function.update s.registry.heads token [] := by
      simp only [next, State.cancelSection, if_neg flag]
      exact view_update (fun cell => cell.token.head) s.registry.tokens token _
    have pendings : (next s.registry (.cancelLock call token)).pendings =
        Function.update s.registry.pendings call (s.registry.heads token) := by
      simp only [next, State.cancelSection, if_neg flag]
      exact view_update CancelFrame.pending s.registry.cancel call _
    have entries : forall node, (next s.registry (.cancelLock call token)).registrations node =
        if node ∈ s.registry.heads token then (s.registry.registrations node).detach
        else s.registry.registrations node := by
      intro node
      simp only [next, State.cancelSection, if_neg flag]
      rfl
    have registers : forall node,
        ((next s.registry (.cancelLock call token)).registrations node).register =
          (s.registry.registrations node).register := by
      intro node
      rw [entries]
      split <;> rfl
    have memory : (linkedMachine.next s (.cancelLock call token)).memory =
        s.memory.detach s.order.length call token := if_neg flag
    have back : forall cell, cell ∉ s.registry.heads token ->
        (s.memory.detach s.order.length call token).links.prev cell =
          s.memory.links.prev cell := by
      intro cell outside
      simp only [Memory.detach, ok.visits token, if_neg outside]
    constructor
    · intro other
      change Listed _ _ ((next s.registry (.cancelLock call token)).heads other)
      rw [heads, memory]
      by_cases same : other = token
      · subst same
        rw [Function.update_self]
        exact ⟨List.nodup_nil, none, Function.update_self _ _ _, rfl⟩
      · have head : (s.memory.detach s.order.length call token).head other =
            s.memory.head other := Function.update_of_ne same _ _
        rw [Function.update_of_ne same, head]
        refine (ok.listed other).congr (fun _ _ => rfl) fun cell mem => back cell ?_
        intro inside
        exact same (((consistent.lists.headMem other cell).mp mem).2.symm.trans
          ((consistent.lists.headMem token cell).mp inside).2)
    · intro other
      change Chain _ _ ((next s.registry (.cancelLock call token)).pendings other)
      rw [pendings, memory]
      by_cases same : other = call
      · subst same
        have cursor : (s.memory.detach s.order.length other token).cursor other =
            s.memory.head token := Function.update_self _ _ _
        rw [Function.update_self, cursor]
        exact (ok.listed token).chain
      · have cursor : (s.memory.detach s.order.length call token).cursor other =
            s.memory.cursor other := Function.update_of_ne same _ _
        rw [Function.update_of_ne same, cursor]
        exact ok.detached other
    · intro other
      change (next s.registry (.cancelLock call token)).heads other =
        s.order.filter ((next s.registry (.cancelLock call token)).isActive other)
      rw [heads]
      have active : forall node, node ∈ s.order ->
          (next s.registry (.cancelLock call token)).isActive other node =
            (decide (other ≠ token) && s.registry.isActive other node) := by
        intro node mem
        simp only [State.isActive, State.actives, State.tokenOf, entries]
        by_cases inside : node ∈ s.registry.heads token
        · have home : (s.registry.registrations node).cb.token = token :=
            ((consistent.lists.headMem token node).mp inside).2
          rw [if_pos inside]
          simp only [Registration.detach, home]
          by_cases same : other = token
          · simp [same]
          · simp [Ne.symm same]
        · rw [if_neg inside]
          by_cases same : other = token
          · subst same
            have inactive : s.registry.isActive other node = false := by
              cases active : s.registry.isActive other node with
              | false => rfl
              | true =>
                  rw [ok.ordered other] at inside
                  exact absurd (List.mem_filter.mpr ⟨mem, active⟩) inside
            simpa [State.isActive, State.actives, State.tokenOf] using inactive
          · simp [same]
      rw [List.filter_congr active]
      by_cases same : other = token
      · subst same
        simp
      · rw [Function.update_of_ne same, ok.ordered other]
        simp [same]
    · intro node mem
      change ((next s.registry (.cancelLock call token)).registrations node).register = .returned
      rw [registers]
      exact ok.entered node mem
    · intro node unlinked
      change ((next s.registry (.cancelLock call token)).registrations node).register.unlinked =
        true at unlinked
      rw [registers] at unlinked
      rw [memory]
      by_cases inside : node ∈ s.registry.heads token
      · simp only [Memory.detach, ok.visits token, if_pos inside]
      · rw [back node inside]
        exact ok.loose node unlinked

/-- The loop moves on along the links. -/
theorem cancelCall (ok : Realized s) {call : CallId} {token : TokenId} {node : NodeId}
    {rest : List NodeId} (here : s.registry.cancel call = .dispatching token (node :: rest)) :
    Realized (linkedMachine.next s (.cancelCall call token node rest)) := by
  have segment : s.registry.pendings call = node :: rest := by
    simp only [State.pendings, here, CancelFrame.pending]
  have chain := ok.detached call
  rw [segment] at chain
  have tokenOf : (Cancellation.next s.registry (.cancelCall call token node rest)).tokenOf =
      s.registry.tokenOf := State.tokenOf_setRegistration_same rfl
  have moves : forall other, RegisterFrame.Moves (s.registry.registrations other).register
      ((Cancellation.next s.registry (.cancelCall call token node rest)).registrations other).register := by
    intro other
    refine RegisterFrame.moves_update ?_ other
    exact .refl _
  constructor
  · exact ok.listed
  · intro other
    have pendings : (next s.registry (.cancelCall call token node rest)).pendings =
        Function.update s.registry.pendings call rest :=
      view_update CancelFrame.pending s.registry.cancel call _
    change Chain s.memory.links.next (Function.update s.memory.cursor call
      ((s.memory.cursor call).bind s.memory.links.next) other)
      ((next s.registry (.cancelCall call token node rest)).pendings other)
    rw [pendings]
    by_cases same : other = call
    · subst same
      rw [Function.update_self, Function.update_self, chain.1]
      exact chain.2
    · rw [Function.update_of_ne same, Function.update_of_ne same]
      exact ok.detached other
  · refine ok.ordered_congr rfl ?_ ?_ rfl
    · exact State.actives_setRegistration_same rfl
    · exact fun other _ => congrFun tokenOf other
  · exact fun other mem => (moves other).1 (ok.entered other mem)
  · exact fun other unlinked => ok.loose other ((moves other).2 unlinked)

/-- A node that has run is cut off.  No list and no segment contains it. -/
theorem cancelDrop (ok : Realized s) (consistent : Consistent s.registry life owners fate)
    {call : CallId} {token : TokenId} {node : NodeId} {rest : List NodeId}
    (here : s.registry.cancel call = .dropping token node rest) :
    Realized (linkedMachine.next s (.cancelDrop call token node rest)) := by
  have place : life node = .ran call := (consistent.lists.dropping call node).mp (by simp [here])
  have outside : forall token, node ∉ s.registry.heads token := fun token mem =>
    absurd (place.symm.trans ((consistent.lists.headMem token node).mp mem).1) nofun
  have undetached : forall call, node ∉ s.registry.pendings call := fun call mem =>
    absurd (place.symm.trans ((consistent.lists.pendingMem call node).mp mem)) nofun
  have pendings : (next s.registry (.cancelDrop call token node rest)).pendings =
      s.registry.pendings := by
    refine view_update_same CancelFrame.pending s.registry.cancel ?_
    rw [here]
    split <;> rfl
  have tokenOf : (Cancellation.next s.registry (.cancelDrop call token node rest)).tokenOf =
      s.registry.tokenOf := State.tokenOf_setRegistration_same rfl
  have moves : forall other, RegisterFrame.Moves (s.registry.registrations other).register
      ((Cancellation.next s.registry (.cancelDrop call token node rest)).registrations other).register := by
    intro other
    refine RegisterFrame.moves_update ?_ other
    exact .refl _
  constructor
  · intro other
    refine (ok.listed other).congr (fun cell mem => setNext_of_ne ?_ _) fun _ _ => rfl
    exact fun same => outside other (same ▸ mem)
  · intro other
    change Chain _ _ ((next s.registry (.cancelDrop call token node rest)).pendings other)
    rw [pendings]
    refine (ok.detached other).congr fun cell mem => setNext_of_ne ?_ _
    exact fun same => undetached other (same ▸ mem)
  · refine ok.ordered_congr rfl ?_ ?_ rfl
    · exact State.actives_setRegistration_same rfl
    · exact fun other _ => congrFun tokenOf other
  · exact fun other mem => (moves other).1 (ok.entered other mem)
  · exact fun other unlinked => ok.loose other ((moves other).2 unlinked)

/-- The last release of a token finds its list empty. -/
theorem walk (ok : Realized s) {token : TokenId} (nil : s.registry.heads token = [])
    (event : Event)
    (memory : memoryNext s event =
      { s.memory with head := Function.update s.memory.head token none })
    (order : orderNext s event = s.order)
    (heads : (next s.registry event).heads = s.registry.heads)
    (pendings : (next s.registry event).pendings = s.registry.pendings)
    (actives : (next s.registry event).actives = s.registry.actives)
    (tokenOf : (next s.registry event).tokenOf = s.registry.tokenOf)
    (moves : forall node, RegisterFrame.Moves (s.registry.registrations node).register
      ((next s.registry event).registrations node).register) :
    Realized (linkedMachine.next s event) := by
  refine ok.quiet event ?_ order heads pendings actives tokenOf moves
  rw [memory, ok.head_none nil]

/-- Every step keeps the links in order. -/
theorem next (ok : Realized s) (consistent : Consistent s.registry life owners fate)
    (event : Event) (may : enabled s.registry event) :
    Realized (linkedMachine.next s event) := by
  cases event with
  | create token =>
      have nil := (consistent.unowned ((consistent.absent token).mp may)).2
      refine ok.walk nil _ rfl rfl ?_ rfl rfl rfl fun _ => .refl _
      exact State.heads_setToken_same nil.symm
  | registerAlloc node token hook => exact ok.registerAlloc consistent may.1
  | registerLock node => exact ok.registerLock consistent may
  | unregisterLock node => exact ok.unregisterLock consistent
  | cancelLock call token => exact ok.cancelLock consistent may.1
  | cancelCall call token node rest => exact ok.cancelCall may
  | cancelDrop call token node rest => exact ok.cancelDrop consistent may
  | nodeTokenWalk node =>
      have nil := consistent.heads_nil (consistent.unreferenced_node may)
      refine ok.walk nil _ rfl rfl ?_ rfl ?_ ?_ ?_
      all_goals simp only [Cancellation.next, consistent.walkToken_eq (consistent.unreferenced_node may)]
      · exact State.heads_setToken_same rfl
      · exact State.actives_setRegistration_same rfl
      · exact State.tokenOf_setRegistration_same rfl
      · exact RegisterFrame.moves_update (.refl _)
  | destroyWalk call token =>
      have nil := consistent.heads_nil (consistent.unreferenced_call may)
      refine ok.walk nil _ rfl rfl ?_ rfl ?_ ?_ ?_
      all_goals simp only [Cancellation.next, consistent.walkToken_eq (consistent.unreferenced_call may)]
      · exact State.heads_setToken_same rfl
      · rfl
      · rfl
      · exact fun _ => .refl _
  | retain token =>
      have retained : (s.registry.retainToken token).heads = s.registry.heads :=
        State.heads_setToken_same rfl
      refine ok.quiet _ rfl rfl ?_ rfl rfl rfl fun _ => .refl _
      rw [<- retained]
      exact State.heads_setToken_same rfl
  | registerRefused node token =>
      refine ok.quiet _ rfl rfl rfl rfl ?_ ?_ (RegisterFrame.moves_update ?_)
      · exact State.actives_setRegistration_same rfl
      · exact State.tokenOf_setRegistration_same rfl
      · constructor
        · intro returned
          cases may.1.symm.trans returned
        · intro unlinked
          cases unlinked
  | registerRetain node =>
      refine ok.quiet _ rfl rfl ?_ rfl ?_ ?_ (RegisterFrame.moves_update ?_)
      · exact State.heads_setToken_same rfl
      · exact State.actives_setRegistration_same rfl
      · exact State.tokenOf_setRegistration_same rfl
      · constructor
        · intro returned
          cases may.symm.trans returned
        · intro _
          rw [show _ = RegisterFrame.allocated from may]
          rfl
  | registerCall node =>
      refine ok.quiet _ rfl rfl rfl rfl ?_ ?_ (RegisterFrame.moves_update ?_)
      · exact State.actives_setRegistration_same rfl
      · exact State.tokenOf_setRegistration_same rfl
      · constructor
        · intro returned
          cases may.symm.trans returned
        · intro unlinked
          cases unlinked
  | registerCallReturned node =>
      refine ok.quiet _ rfl rfl rfl rfl ?_ ?_ (RegisterFrame.moves_update ⟨fun _ => rfl, ?_⟩)
      · exact State.actives_setRegistration_same rfl
      · exact State.tokenOf_setRegistration_same rfl
      · intro unlinked
        cases unlinked
  | unregisterReturn node won =>
      refine ok.quiet _ rfl rfl rfl rfl ?_ ?_ (RegisterFrame.moves_update (.refl _))
      · exact State.actives_setRegistration_same rfl
      · exact State.tokenOf_setRegistration_same rfl
  | cancelCallReturned call token node rest =>
      refine ok.quiet _ rfl rfl rfl ?_ ?_ ?_ (RegisterFrame.moves_update (.refl _))
      · exact view_update_same CancelFrame.pending s.registry.cancel (by rw [may]; rfl)
      · exact State.actives_setRegistration_same rfl
      · exact State.tokenOf_setRegistration_same rfl
  | cancelReclaimed call token node rest =>
      refine ok.quiet _ rfl rfl rfl ?_ rfl rfl fun _ => .refl _
      exact view_update_same CancelFrame.pending s.registry.cancel (by rw [may.1]; rfl)
  | cancelReturn call token =>
      refine ok.quiet _ rfl rfl rfl ?_ rfl rfl fun _ => .refl _
      exact view_update_same CancelFrame.pending s.registry.cancel (by rw [may]; rfl)
  | nodeFree node =>
      refine ok.quiet _ rfl rfl rfl rfl ?_ ?_ (RegisterFrame.moves_update (.refl _))
      · exact State.actives_setRegistration_same rfl
      · exact State.tokenOf_setRegistration_same rfl
  | hookCall node =>
      refine ok.quiet _ rfl rfl rfl rfl ?_ ?_ (RegisterFrame.moves_update (.refl _))
      · exact State.actives_setRegistration_same rfl
      · exact State.tokenOf_setRegistration_same rfl
  | hookReturned node =>
      refine ok.quiet _ rfl rfl rfl rfl ?_ ?_ (RegisterFrame.moves_update (.refl _))
      · exact State.actives_setRegistration_same rfl
      · exact State.tokenOf_setRegistration_same rfl
  | nodeTokenRelease node =>
      refine ok.quiet _ rfl rfl ?_ rfl ?_ ?_ (RegisterFrame.moves_update (.refl _))
      · exact State.heads_setToken_same rfl
      · exact State.actives_setRegistration_same rfl
      · exact State.tokenOf_setRegistration_same rfl
  | destroyRelease call token =>
      have dropped : (s.registry.dropTokenRef token).heads = s.registry.heads :=
        State.heads_setToken_same rfl
      refine ok.quiet _ rfl rfl ?_ rfl rfl rfl fun _ => .refl _
      rw [<- dropped]
      exact State.heads_setToken_same rfl

end Realized

theorem reachable_realized {s : LinkedState} (reached : linkedMachine.Reachable s) :
    Realized s := by
  refine reached.invariant Realized ?_ ?_
  · intro s initial
    rw [show s = _ from initial]
    constructor
    · exact fun token => ⟨List.nodup_nil, none, rfl, rfl⟩
    · exact fun call => rfl
    · exact fun token => rfl
    · exact fun node mem => absurd mem List.not_mem_nil
    · exact fun node unlinked => rfl
  · intro s event reached ok may
    rcases reachable_consistent (registry_reachable reached) with ⟨life, owners, fate, consistent⟩
    exact ok.next consistent event may

/-! ## The representation -/

/-- The active registrations with the token, in reverse order of registration. -/
def LinkedState.activeOf (s : LinkedState) (token : TokenId) : List NodeId :=
  s.order.filter (s.registry.isActive token)

/-- `Cancel` took the node off its list and has not dropped it yet. -/
def CancelFrame.Undropped (frame : CancelFrame) (node : NodeId) : Prop :=
  node ∈ frame.pending ∨ frame.runningNode = some node ∨ frame.droppingNode = some node

namespace Event

/-- The `Cancel` call that takes the step. -/
def canceller : Event -> Option CallId
  | cancelLock call _ | cancelCall call _ _ _ | cancelCallReturned call _ _ _
  | cancelDrop call _ _ _ | cancelReclaimed call _ _ _ | cancelReturn call _ => some call
  | create _ | retain _ | registerRefused _ _ | registerAlloc _ _ _ | registerRetain _
  | registerLock _ | registerCall _ | registerCallReturned _ | unregisterLock _
  | unregisterReturn _ _ | nodeFree _ | hookCall _ | hookReturned _ | nodeTokenRelease _
  | nodeTokenWalk _ | destroyRelease _ _ | destroyWalk _ _ => none

end Event

/-- Only the call itself moves on in the segment that it detached. -/
theorem pendings_next (s : State) {event : Event} {call : CallId}
    (foreign : event.canceller ≠ some call) : (next s event).pendings call = s.pendings call := by
  cases event with
  | cancelLock other _ | cancelCall other _ _ _ | cancelCallReturned other _ _ _
  | cancelDrop other _ _ _ | cancelReclaimed other _ _ _ | cancelReturn other _ =>
      have different : call ≠ other := fun same => foreign (congrArg some same.symm)
      simp only [next, State.cancelSection, State.dropSection]
      try split
      all_goals exact congrArg CancelFrame.pending (Function.update_of_ne different _ _)
  | registerLock node =>
      simp only [next, State.registerSection]
      split <;> rfl
  | unregisterLock node =>
      simp only [next, State.unregisterSection]
      split <;> rfl
  | create _ | retain _ | registerRefused _ _ | registerAlloc _ _ _ | registerRetain _
  | registerCall _ | registerCallReturned _
  | unregisterReturn _ _ | nodeFree _ | hookCall _ | hookReturned _ | nodeTokenRelease _
  | nodeTokenWalk _ | destroyRelease _ _ | destroyWalk _ _ => rfl

theorem pendings_run {first last : LinkedState} {events : List Event} {call : CallId}
    (run : linkedMachine.Run first events last)
    (foreign : forall event, event ∈ events -> event.canceller ≠ some call) :
    last.registry.pendings call = first.registry.pendings call := by
  induction run with
  | done => rfl
  | step _ _ inductionHypothesis =>
      rw [inductionHypothesis fun event mem => foreign event (List.mem_cons_of_mem _ mem)]
      exact pendings_next _ (foreign _ List.mem_cons_self)

/-- The list holds one reference on the node, `Cancel` takes it over with the node. -/
theorem refcount_eq {s : State} (reached : machine.Reachable s) {node : NodeId}
    (entered : (s.registrations node).register = .calling ∨
      (s.registrations node).register = .running ∨ (s.registrations node).register = .returned) :
    ((s.actives node = true ∨ Exists fun call => (s.cancel call).Undropped node) ->
      (s.registrations node).cb.refcount =
        (if (s.registrations node).unregister = .idle then 1 else 0) + 1) ∧
    (¬ (s.actives node = true ∨ Exists fun call => (s.cancel call).Undropped node) ->
      (s.registrations node).cb.refcount =
        if (s.registrations node).unregister = .idle then 1 else 0) := by
  rcases reachable_consistent reached with ⟨life, owners, fate, consistent⟩
  have entry := consistent.entries node
  have present : life node ≠ .absent := by
    intro absent
    rcases entry.absent.mp absent with frame | frame <;> simp [frame] at entered
  have inside : life node ≠ .entering := by
    intro entering
    rcases entry.entering.mp entering with frame | frame <;> simp [frame] at entered
  have counted := entry.refcount present
  have owned : (s.actives node = true ∨ Exists fun call => (s.cancel call).Undropped node) ↔
      (life node).placed = true := by
    constructor
    · rintro (active | ⟨call, pending | running | dropping⟩)
      · rw [entry.active.mp active]
        rfl
      · rw [(consistent.lists.pendingMem call node).mp pending]
        rfl
      · rw [(consistent.lists.running call node).mp running]
        rfl
      · rw [(consistent.lists.dropping call node).mp dropping]
        rfl
    · intro placed
      cases phase : life node with
      | listed => exact .inl (entry.active.mpr phase)
      | detached call => exact .inr ⟨call, .inl ((consistent.lists.pendingMem call node).mpr phase)⟩
      | running call =>
          exact .inr ⟨call, .inr (.inl ((consistent.lists.running call node).mpr phase))⟩
      | ran call =>
          exact .inr ⟨call, .inr (.inr ((consistent.lists.dropping call node).mpr phase))⟩
      | absent | entering | removed | dropped | calling | inlineRunning | inlineRan =>
          rw [phase] at placed
          cases placed
  rw [owned, counted]
  cases phase : life node <;> simp_all [Life.placed, Life.listRef]

/-- Whatever calls are made, and wherever each of them stands: following `next` from the head of
a token ends and visits exactly its active registrations, once each, the newest first; `prev`
leads back; all other nodes are inactive; a node has a reference for its handle until that is
consumed, and one for the list or the `Cancel` that has not dropped it; and a `Cancel` that is
in progress still reaches along `next` exactly the nodes it has to run. -/
theorem registryLinks {s : LinkedState} (reached : linkedMachine.Reachable s) :
    (forall token, Chain s.memory.links.next (s.memory.head token) (s.activeOf token) ∧
      (s.activeOf token).Nodup) ∧
    (forall token first, s.memory.head token = some first -> s.memory.links.prev first = none) ∧
    (forall token first second, first ∈ s.activeOf token -> second ∈ s.activeOf token ->
      (s.memory.links.next first = some second ↔ s.memory.links.prev second = some first)) ∧
    (forall token node, s.registry.tokenOf node = token ->
      (node ∈ s.activeOf token ↔ s.registry.actives node = true)) ∧
    (forall node, (s.registry.registrations node).register = .calling ∨
        (s.registry.registrations node).register = .running ∨
        (s.registry.registrations node).register = .returned ->
      ((s.registry.actives node = true ∨ Exists fun call => (s.registry.cancel call).Undropped node) ->
        (s.registry.registrations node).cb.refcount =
          (if (s.registry.registrations node).unregister = .idle then 1 else 0) + 1) ∧
      (¬ (s.registry.actives node = true ∨
          Exists fun call => (s.registry.cancel call).Undropped node) ->
        (s.registry.registrations node).cb.refcount =
          if (s.registry.registrations node).unregister = .idle then 1 else 0)) ∧
    (forall call, Chain s.memory.links.next (s.memory.cursor call) (s.registry.pendings call)) ∧
    forall call events last, linkedMachine.Run s events last ->
      (forall event, event ∈ events -> event.canceller ≠ some call) ->
      forall node, node ∈ s.registry.pendings call ->
        last.memory.links.next node = s.memory.links.next node := by
  have ok := reachable_realized reached
  have registry := registry_reachable reached
  rcases reachable_consistent registry with ⟨life, owners, fate, consistent⟩
  have heads : forall token, s.activeOf token = s.registry.heads token :=
    fun token => (ok.ordered token).symm
  refine ⟨?_, ?_, ?_, ?_, ?_, ok.detached, ?_⟩
  · intro token
    rw [heads]
    exact ⟨(ok.listed token).chain, (ok.listed token).nodup⟩
  · exact fun token first start => (ok.listed token).first start
  · intro token first second
    rw [heads]
    exact (ok.listed token).inverse
  · rintro token node rfl
    rw [heads, consistent.lists.headMem, and_iff_left rfl]
    exact (consistent.entries node).active.symm
  · exact fun node entered => refcount_eq registry entered
  · intro call events last run foreign node mem
    have later := (reachable_realized (reached.run run)).detached call
    rw [pendings_run run foreign] at later
    exact later.next_eq (ok.detached call) mem

/-- Three registrations, the second of which is taken out of the middle; the flag is set, and
the first is unregistered while the callback of the third runs. -/
def unlinkThenCancel : List Event :=
  [.create 0, .registerAlloc 0 0 false, .registerRetain 0, .registerLock 0, .registerAlloc 1 0 false,
    .registerRetain 1, .registerLock 1, .registerAlloc 2 0 false, .registerRetain 2,
    .registerLock 2, .unregisterLock 1, .cancelLock 0 0, .cancelCall 0 0 2 [0], .unregisterLock 0]

theorem registryLinks_unlinkThenCancel :
    Exists fun s => linkedMachine.Reachable s ∧ s.registry.pendings 0 = [0] ∧
      (Chain s.memory.links.next (s.memory.cursor 0) (s.registry.pendings 0)) ∧
      forall node, node ∈ s.activeOf (s.registry.tokenOf node) ↔ s.registry.actives node = true := by
  have may : linkedMachine.AllEnabled
      ⟨start, ⟨⟨fun _ => none, fun _ => none⟩, fun _ => none, fun _ => none⟩, []⟩
      unlinkThenCancel := by
    repeat' first | exact trivial | exact rfl | apply And.intro | exact Nat.one_pos
  have reached : linkedMachine.Reachable _ := .run (.start rfl) may.run
  have links := registryLinks reached
  exact ⟨_, reached, rfl, links.2.2.2.2.2.1 0, fun node => links.2.2.2.1 _ node rfl⟩

end Cancellation
end UfsrvRx
