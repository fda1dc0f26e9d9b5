import UfsrvRx.Cancellation.Registry
import UfsrvRx.Transition.Table
import Mathlib.Data.Finset.Card

namespace UfsrvRx
namespace Cancellation

open Transition

/-!
# The life of a registration

The abstract side of the registry.  A registration is described by one phase of
a small automaton, a token by its fate, and the memory of the program is
related to them in three layers: how a single registration looks at each phase,
on which list or in which dispatch loop the nodes of a phase are found, and who
holds the references of a token.  Every event of the registry moves at most one
registration to its next phase, except that the call which sets the flag
detaches all listed nodes of its token at once.
-/

/-- A listed node leaves the list through `Unregister`, or through the `Cancel`
call that set the flag.  A node that finds the flag set is never listed and is
called by its own registration. -/
inductive Life
  | absent
  | entering
  | listed
  | removed
  | detached (call : CallId)
  | running (call : CallId)
  | ran (call : CallId)
  | dropped
  | calling
  | inlineRunning
  | inlineRan
deriving DecidableEq, Repr

namespace Life

@[grind =] def started : Life -> Nat
  | running _ | ran _ | dropped | inlineRunning | inlineRan => 1
  | absent | entering | listed | removed | detached _ | calling => 0

@[grind =] def finished : Life -> Nat
  | ran _ | dropped | inlineRan => 1
  | absent | entering | listed | removed | detached _ | calling | running _ | inlineRunning => 0

/-- The reference of the list, which `Cancel` takes over with the node. -/
@[grind =] def listRef : Life -> Int
  | entering | listed | detached _ | running _ | ran _ => 1
  | absent | removed | dropped | calling | inlineRunning | inlineRan => 0

@[grind .] theorem listRef_bounds (life : Life) : 0 ≤ life.listRef ∧ life.listRef ≤ 1 := by
  cases life <;> simp [listRef]

/-- The phases in which a node is on a list or owned by a dispatch loop. -/
@[grind =] def placed : Life -> Bool
  | listed | detached _ | running _ | ran _ => true
  | absent | entering | removed | dropped | calling | inlineRunning | inlineRan => false

end Life

/-- A token is freed by the one agent that dropped its last reference: a
reclaimed node or a `Destroy` call. -/
inductive Fate
  | absent
  | live
  | condemnedByNode (node : NodeId)
  | condemnedByCall (call : CallId)
  | freed
deriving DecidableEq, Repr

namespace ReclaimFrame

@[grind =] def freed : ReclaimFrame -> Nat
  | idle | freeing => 0
  | hook | hookRunning | releasing | walking | done => 1

@[grind =] def released : ReclaimFrame -> Nat
  | idle | freeing | hook => 0
  | hookRunning | releasing | walking | done => 1

/-- `sNodeFree` has been entered and has not returned. -/
@[grind =] def inFlight : ReclaimFrame -> Bool
  | freeing | hook | hookRunning | releasing | walking => true
  | idle | done => false

end ReclaimFrame

namespace CancelFrame

attribute [simp, grind =] pending inFlight

@[simp, grind =] def runningNode : CancelFrame -> Option NodeId
  | running _ node _ => some node
  | idle | dispatching _ _ | dropping _ _ _ | reclaiming _ _ _ | returned _ _ => none

@[simp, grind =] def droppingNode : CancelFrame -> Option NodeId
  | dropping _ node _ => some node
  | idle | dispatching _ _ | running _ _ _ | reclaiming _ _ _ | returned _ _ => none

@[simp, grind =] def reclaimingNode : CancelFrame -> Option NodeId
  | reclaiming _ node _ => some node
  | idle | dispatching _ _ | running _ _ _ | dropping _ _ _ | returned _ _ => none

/-- The token whose flag this call has set. -/
@[simp, grind =] def flagged : CancelFrame -> Option TokenId
  | dispatching token _ | running token _ _ | dropping token _ _ | reclaiming token _ _
  | returned token true => some token
  | idle | returned _ false => none

end CancelFrame

attribute [grind =] RegisterFrame.inFlight

namespace Registration

/-- The registration owns one reference of its token: it was retained and the
end of `sNodeFree` has not given it back. -/
@[grind =] def holdsToken (entry : Registration) : Bool :=
  match entry.register, entry.reclaim with
  | .retained, _ | .calling, _ | .running, _ => true
  | .returned, .walking | .returned, .done => false
  | .returned, _ => true
  | .idle, _ | .allocated, _ | .refused, _ => false

end Registration

/-! ## One registration -/

/-- How a registration looks at each point of its life. -/
structure LocalOk (life : Life) (entry : Registration) : Prop where
  absent : life = .absent ↔ entry.register = .idle ∨ entry.register = .refused
  entering : life = .entering ↔ entry.register = .allocated ∨ entry.register = .retained
  calling : life = .calling ↔ entry.register = .calling
  inlineRunning : life = .inlineRunning ↔ entry.register = .running
  active : entry.cb.active = true ↔ life = .listed
  started : entry.started = life.started
  finished : entry.finished = life.finished
  handle : entry.unregister ≠ .idle -> entry.register = .returned ∧ life ≠ .listed
  removed : life = .removed ↔
    entry.unregister = .reclaiming true ∨ entry.unregister = .returned true
  refcount : life ≠ .absent ->
    entry.cb.refcount = (if entry.unregister = .idle then 1 else 0) + life.listRef
  reclaim : entry.reclaim = .idle ↔ life = .absent ∨ entry.cb.refcount ≠ 0
  freed : entry.freed = entry.reclaim.freed
  released : entry.released = if entry.cb.releaseContext then entry.reclaim.released else 0
  hook : entry.reclaim = .hook ∨ entry.reclaim = .hookRunning -> entry.cb.releaseContext = true

/-- A node is reclaimed only after its handle was consumed and the list, or the
loop that took it over, gave up the other reference. -/
theorem LocalOk.consumed {life : Life} {entry : Registration} (ok : LocalOk life entry)
    (reclaimed : entry.reclaim ≠ .idle) :
    entry.unregister ≠ .idle ∧ entry.register = .returned ∧ life.listRef = 0 := by
  have present : life ≠ .absent := fun absent => reclaimed (ok.reclaim.mpr (Or.inl absent))
  have zero : entry.cb.refcount = 0 :=
    Decidable.byContradiction fun left => reclaimed (ok.reclaim.mpr (Or.inr left))
  have counted := ok.refcount present
  have bounds := life.listRef_bounds
  have consumed : entry.unregister ≠ .idle := by
    intro idle
    rw [zero, if_pos idle] at counted
    omega
  rw [zero, if_neg consumed] at counted
  exact ⟨consumed, (ok.handle consumed).1, by omega⟩

/-- A node on a list or in a dispatch loop is not being reclaimed. -/
theorem LocalOk.unreclaimed {life : Life} {entry : Registration} (ok : LocalOk life entry)
    (placed : life.placed = true) : entry.reclaim = .idle := by
  by_contra reclaimed
  have none := (ok.consumed reclaimed).2.2
  cases life <;> simp_all [Life.placed, Life.listRef]

/-! ## Lists and dispatch loops -/

/-- Where the nodes of each phase are found.  The five tables are the heads and
flags of the tokens, the token of each node, the `Cancel` calls and the phases. -/
structure ListsOk (heads : TokenId -> List NodeId) (flags : TokenId -> Bool)
    (tokenOf : NodeId -> TokenId) (cancel : CallId -> CancelFrame)
    (life : NodeId -> Life) : Prop where
  headNodup : forall t, (heads t).Nodup
  headMem : forall t n, n ∈ heads t ↔ life n = .listed ∧ tokenOf n = t
  pendingNodup : forall k, (cancel k).pending.Nodup
  pendingMem : forall k n, n ∈ (cancel k).pending ↔ life n = .detached k
  running : forall k n, (cancel k).runningNode = some n ↔ life n = .running k
  dropping : forall k n, (cancel k).droppingNode = some n ↔ life n = .ran k
  flagged : forall k t, (cancel k).flagged = some t -> flags t = true
  unique : forall j k t, (cancel j).flagged = some t -> (cancel k).flagged = some t -> j = k
  listed : forall n, life n = .listed -> flags (tokenOf n) = false
  token : forall k n, life n = .detached k ∨ life n = .running k ∨ life n = .ran k ->
    (cancel k).flagged = some (tokenOf n)

namespace ListsOk

variable {heads : TokenId -> List NodeId} {flags : TokenId -> Bool}
  {tokenOf : NodeId -> TokenId} {cancel : CallId -> CancelFrame} {life : NodeId -> Life}

/-- A node outside every list may change its phase, and its memory may even be
given to another token, as long as it stays outside. -/
theorem relabel (ok : ListsOk heads flags tokenOf cancel life) (node : NodeId)
    {phase : Life} (token : TokenId) (before : (life node).placed = false)
    (after : phase.placed = false) :
    ListsOk heads flags (Function.update tokenOf node token) cancel
      (Function.update life node phase) := by
  constructor
  · exact ok.headNodup
  · intro t n
    have := ok.headMem t n
    grind -linarith
  · exact ok.pendingNodup
  · intro k n
    have := ok.pendingMem k n
    grind -linarith
  · intro k n
    have := ok.running k n
    grind -linarith
  · intro k n
    have := ok.dropping k n
    grind -linarith
  · exact ok.flagged
  · exact ok.unique
  · intro n
    have := ok.listed n
    grind -linarith
  · intro k n
    have := ok.token k n
    grind -linarith

/-- A dispatch loop may move between two frames that own the same nodes. -/
theorem reframe (ok : ListsOk heads flags tokenOf cancel life) (call : CallId)
    {frame : CancelFrame} (pending : frame.pending = (cancel call).pending)
    (running : frame.runningNode = (cancel call).runningNode)
    (dropping : frame.droppingNode = (cancel call).droppingNode)
    (flagged : frame.flagged = (cancel call).flagged) :
    ListsOk heads flags tokenOf (Function.update cancel call frame) life := by
  have samePending (k : CallId) :
      (Function.update cancel call frame k).pending = (cancel k).pending := by grind -linarith
  have sameRunning (k : CallId) :
      (Function.update cancel call frame k).runningNode = (cancel k).runningNode := by grind -linarith
  have sameDropping (k : CallId) :
      (Function.update cancel call frame k).droppingNode = (cancel k).droppingNode := by grind -linarith
  have sameFlagged (k : CallId) :
      (Function.update cancel call frame k).flagged = (cancel k).flagged := by grind -linarith
  constructor
  · exact ok.headNodup
  · exact ok.headMem
  · simpa only [samePending] using ok.pendingNodup
  · simpa only [samePending] using ok.pendingMem
  · simpa only [sameRunning] using ok.running
  · simpa only [sameDropping] using ok.dropping
  · simpa only [sameFlagged] using ok.flagged
  · simpa only [sameFlagged] using ok.unique
  · exact ok.listed
  · simpa only [sameFlagged] using ok.token

theorem push (ok : ListsOk heads flags tokenOf cancel life) (node : NodeId)
    (entering : life node = .entering) (unset : flags (tokenOf node) = false) :
    ListsOk (Function.update heads (tokenOf node) (node :: heads (tokenOf node))) flags tokenOf
      cancel (Function.update life node .listed) := by
  have outside := ok.headMem (tokenOf node) node
  constructor
  · intro t
    have := ok.headNodup t
    grind -linarith
  · intro t n
    have := ok.headMem t n
    grind -linarith
  · exact ok.pendingNodup
  · intro k n
    have := ok.pendingMem k n
    grind -linarith
  · intro k n
    have := ok.running k n
    grind -linarith
  · intro k n
    have := ok.dropping k n
    grind -linarith
  · exact ok.flagged
  · exact ok.unique
  · intro n
    have := ok.listed n
    grind -linarith
  · intro k n
    have := ok.token k n
    grind -linarith

theorem erase (ok : ListsOk heads flags tokenOf cancel life) (node : NodeId)
    (listed : life node = .listed) :
    ListsOk (Function.update heads (tokenOf node) ((heads (tokenOf node)).erase node)) flags
      tokenOf cancel (Function.update life node .removed) := by
  have nodup := ok.headNodup (tokenOf node)
  constructor
  · intro t
    have := ok.headNodup t
    have := nodup.erase node
    grind -linarith
  · intro t n
    have := ok.headMem t n
    have := nodup.mem_erase_iff (a := n) (b := node)
    grind -linarith
  · exact ok.pendingNodup
  · intro k n
    have := ok.pendingMem k n
    grind -linarith
  · intro k n
    have := ok.running k n
    grind -linarith
  · intro k n
    have := ok.dropping k n
    grind -linarith
  · exact ok.flagged
  · exact ok.unique
  · intro n
    have := ok.listed n
    grind -linarith
  · intro k n
    have := ok.token k n
    grind -linarith

/-- Setting the flag hands the whole list of the token to one call. -/
theorem detach (ok : ListsOk heads flags tokenOf cancel life) (call : CallId) (token : TokenId)
    (idle : cancel call = .idle) (unset : flags token = false) :
    ListsOk (Function.update heads token []) (Function.update flags token true) tokenOf
      (Function.update cancel call (.dispatching token (heads token)))
      (fun node => if node ∈ heads token then .detached call else life node) := by
  have noneFlagged (k : CallId) : (cancel k).flagged ≠ some token := by
    intro flagged
    have := ok.flagged k token flagged
    simp [unset] at this
  constructor
  · intro t
    have := ok.headNodup t
    grind -linarith
  · intro t n
    have := ok.headMem t n
    have := ok.headMem token n
    grind -linarith
  · intro k
    have := ok.pendingNodup k
    have := ok.headNodup token
    grind -linarith
  · intro k n
    have := ok.pendingMem k n
    have := ok.headMem token n
    grind -linarith
  · intro k n
    have := ok.running k n
    have := ok.headMem token n
    grind -linarith
  · intro k n
    have := ok.dropping k n
    have := ok.headMem token n
    grind -linarith
  · intro k t
    have := ok.flagged k t
    grind -linarith
  · intro j k t
    have := ok.unique j k t
    grind -linarith
  · intro n
    have := ok.listed n
    have := ok.headMem token n
    grind -linarith
  · intro k n
    have := ok.token k n
    have := ok.headMem token n
    grind -linarith

/-- The dispatch loop starts the callback of its next node. -/
theorem begin (ok : ListsOk heads flags tokenOf cancel life) (call : CallId) (token : TokenId)
    (node : NodeId) (rest : List NodeId) (here : cancel call = .dispatching token (node :: rest)) :
    ListsOk heads flags tokenOf (Function.update cancel call (.running token node rest))
      (Function.update life node (.running call)) := by
  have detached := ok.pendingMem call node
  have nodup := ok.pendingNodup call
  constructor
  · exact ok.headNodup
  · intro t n
    have := ok.headMem t n
    grind -linarith
  · intro k
    have := ok.pendingNodup k
    grind -linarith
  · intro k n
    have := ok.pendingMem k n
    grind -linarith
  · intro k n
    have := ok.running k n
    grind -linarith
  · intro k n
    have := ok.dropping k n
    grind -linarith
  · intro k t
    have := ok.flagged k t
    grind -linarith
  · intro j k t
    have := ok.unique j k t
    grind -linarith
  · intro n
    have := ok.listed n
    grind -linarith
  · intro k n
    have := ok.token k n
    grind -linarith

/-- The callback returned. -/
theorem finish (ok : ListsOk heads flags tokenOf cancel life) (call : CallId) (token : TokenId)
    (node : NodeId) (rest : List NodeId) (here : cancel call = .running token node rest) :
    ListsOk heads flags tokenOf (Function.update cancel call (.dropping token node rest))
      (Function.update life node (.ran call)) := by
  have running := ok.running call node
  constructor
  · exact ok.headNodup
  · intro t n
    have := ok.headMem t n
    grind -linarith
  · intro k
    have := ok.pendingNodup k
    grind -linarith
  · intro k n
    have := ok.pendingMem k n
    grind -linarith
  · intro k n
    have := ok.running k n
    grind -linarith
  · intro k n
    have := ok.dropping k n
    grind -linarith
  · intro k t
    have := ok.flagged k t
    grind -linarith
  · intro j k t
    have := ok.unique j k t
    grind -linarith
  · intro n
    have := ok.listed n
    grind -linarith
  · intro k n
    have := ok.token k n
    grind -linarith

/-- The loop gives up its reference on the node it has run. -/
theorem settle (ok : ListsOk heads flags tokenOf cancel life) (call : CallId) (token : TokenId)
    (node : NodeId) (rest : List NodeId) (here : cancel call = .dropping token node rest)
    {frame : CancelFrame} (pending : frame.pending = rest) (running : frame.runningNode = none)
    (dropping : frame.droppingNode = none) (flagged : frame.flagged = some token) :
    ListsOk heads flags tokenOf (Function.update cancel call frame)
      (Function.update life node .dropped) := by
  have ran := ok.dropping call node
  constructor
  · exact ok.headNodup
  · intro t n
    have := ok.headMem t n
    grind -linarith
  · intro k
    have := ok.pendingNodup k
    grind -linarith
  · intro k n
    have := ok.pendingMem k n
    grind -linarith
  · intro k n
    have := ok.running k n
    grind -linarith
  · intro k n
    have := ok.dropping k n
    grind -linarith
  · intro k t
    have := ok.flagged k t
    grind -linarith
  · intro j k t
    have := ok.unique j k t
    grind -linarith
  · intro n
    have := ok.listed n
    grind -linarith
  · intro k n
    have := ok.token k n
    grind -linarith

end ListsOk

/-! ## References of a token -/

/-- Who holds the references of each token.  Clients hold some, every retained
registration holds one, and nobody else does. -/
structure TokensOk (refcount : TokenId -> Int) (clientRefs : TokenId -> Nat)
    (freed : TokenId -> Nat) (tokenOf : NodeId -> TokenId) (holds : NodeId -> Bool)
    (walking : NodeId -> Bool) (destroy : CallId -> DestroyFrame)
    (owners : TokenId -> Finset NodeId) (fate : TokenId -> Fate) : Prop where
  counted : forall t, refcount t = clientRefs t + (owners t).card
  owned : forall t n, n ∈ owners t ↔ holds n = true ∧ tokenOf n = t
  alive : forall t, fate t = .live ↔ 0 < refcount t
  byNode : forall t n, fate t = .condemnedByNode n ↔ walking n = true ∧ tokenOf n = t
  byCall : forall t d, fate t = .condemnedByCall d ↔ destroy d = .walking t
  freedOnce : forall t, freed t = if fate t = .freed then 1 else 0

namespace TokensOk

variable {refcount : TokenId -> Int} {clientRefs : TokenId -> Nat} {freed : TokenId -> Nat}
  {tokenOf : NodeId -> TokenId} {holds walking : NodeId -> Bool}
  {destroy : CallId -> DestroyFrame} {owners : TokenId -> Finset NodeId}
  {fate : TokenId -> Fate}

/-- A token without references has no owner left. -/
theorem owners_empty (ok : TokensOk refcount clientRefs freed tokenOf holds walking destroy
    owners fate) (token : TokenId) (zero : refcount token = 0) : owners token = ∅ := by
  have counted := ok.counted token
  apply Finset.card_eq_zero.mp
  omega

theorem refcount_pos (ok : TokensOk refcount clientRefs freed tokenOf holds walking destroy
    owners fate) {token : TokenId} (held : 0 < clientRefs token) : 0 < refcount token := by
  have counted := ok.counted token
  omega

theorem refcount_pos_of_holds (ok : TokensOk refcount clientRefs freed tokenOf holds walking
    destroy owners fate) {node : NodeId} (held : holds node = true) :
    0 < refcount (tokenOf node) := by
  have counted := ok.counted (tokenOf node)
  have member := (ok.owned (tokenOf node) node).mpr ⟨held, rfl⟩
  have positive := Finset.card_pos.mpr ⟨node, member⟩
  omega

/-- A registration that owns no reference may be given to another token. -/
theorem retarget (ok : TokensOk refcount clientRefs freed tokenOf holds walking destroy owners
    fate) (node : NodeId) (token : TokenId) (free : holds node = false)
    (still : walking node = false) :
    TokensOk refcount clientRefs freed (Function.update tokenOf node token) holds walking destroy
      owners fate := by
  refine { ok with owned := ?_, byNode := ?_ }
  · intro t n
    have := ok.owned t n
    grind -linarith
  · intro t n
    have := ok.byNode t n
    grind -linarith

/-- A client, or the thread that registers, takes one more reference. -/
theorem retain (ok : TokensOk refcount clientRefs freed tokenOf holds walking destroy owners fate)
    (token : TokenId) (held : 0 < clientRefs token) :
    TokensOk (Function.update refcount token (refcount token + 1))
      (Function.update clientRefs token (clientRefs token + 1)) freed tokenOf holds walking destroy
      owners fate := by
  have positive := ok.refcount_pos held
  refine { ok with counted := ?_, alive := ?_ }
  · intro t
    have := ok.counted t
    grind -linarith
  · intro t
    have := ok.alive t
    grind -linarith

/-- A registration takes its reference. -/
theorem acquire (ok : TokensOk refcount clientRefs freed tokenOf holds walking destroy owners
    fate) (node : NodeId) (held : 0 < clientRefs (tokenOf node)) (free : holds node = false) :
    TokensOk (Function.update refcount (tokenOf node) (refcount (tokenOf node) + 1)) clientRefs
      freed tokenOf (Function.update holds node true) walking destroy
      (Function.update owners (tokenOf node) (insert node (owners (tokenOf node)))) fate := by
  have positive := ok.refcount_pos held
  have outside : node ∉ owners (tokenOf node) := by
    have := ok.owned (tokenOf node) node
    grind -linarith
  refine { ok with counted := ?_, owned := ?_, alive := ?_ }
  · intro t
    have := ok.counted t
    have := Finset.card_insert_of_notMem outside
    grind -linarith
  · intro t n
    have := ok.owned t n
    grind -linarith
  · intro t
    have := ok.alive t
    grind -linarith

/-- The end of `sNodeFree` gives the reference back, and condemns the token if
it was the last one. -/
theorem surrender (ok : TokensOk refcount clientRefs freed tokenOf holds walking destroy owners
    fate) (node : NodeId) (held : holds node = true) (still : walking node = false) :
    TokensOk (Function.update refcount (tokenOf node) (refcount (tokenOf node) - 1)) clientRefs
      freed tokenOf (Function.update holds node false)
      (Function.update walking node (decide (refcount (tokenOf node) = 1))) destroy
      (Function.update owners (tokenOf node) ((owners (tokenOf node)).erase node))
      (Function.update fate (tokenOf node)
        (if refcount (tokenOf node) = 1 then .condemnedByNode node else fate (tokenOf node))) := by
  have positive := ok.refcount_pos_of_holds held
  have live := (ok.alive (tokenOf node)).mpr positive
  have inside : node ∈ owners (tokenOf node) := (ok.owned (tokenOf node) node).mpr ⟨held, rfl⟩
  have smaller := Finset.card_erase_add_one inside
  constructor
  · intro t
    have counted := ok.counted t
    by_cases same : t = tokenOf node
    · subst t
      simp only [Function.update_self]
      omega
    · simpa only [Function.update_of_ne same] using counted
  · intro t n
    have := ok.owned t n
    grind -linarith
  · intro t
    have alive := ok.alive t
    by_cases same : t = tokenOf node
    · subst t
      simp only [Function.update_self]
      by_cases last : refcount (tokenOf node) = 1
      · simp [last]
      · simp only [last, if_false, live, true_iff]
        omega
    · simpa only [Function.update_of_ne same] using alive
  · intro t n
    have := ok.byNode t n
    have := ok.byNode (tokenOf node) n
    grind -linarith
  · intro t d
    have := ok.byCall t d
    grind -linarith
  · intro t
    have := ok.freedOnce t
    grind -linarith

/-- `Destroy` gives a client reference back. -/
theorem release (ok : TokensOk refcount clientRefs freed tokenOf holds walking destroy owners
    fate) (call : CallId) (token : TokenId) (held : 0 < clientRefs token)
    (idle : destroy call = .idle) :
    TokensOk (Function.update refcount token (refcount token - 1))
      (Function.update clientRefs token (clientRefs token - 1)) freed tokenOf holds walking
      (Function.update destroy call
        (if refcount token = 1 then .walking token else .returned token))
      owners
      (Function.update fate token
        (if refcount token = 1 then .condemnedByCall call else fate token)) := by
  have positive := ok.refcount_pos held
  have live := (ok.alive token).mpr positive
  constructor
  · intro t
    have counted := ok.counted t
    by_cases same : t = token
    · subst t
      simp only [Function.update_self]
      omega
    · simpa only [Function.update_of_ne same] using counted
  · exact ok.owned
  · intro t
    have alive := ok.alive t
    by_cases same : t = token
    · subst t
      simp only [Function.update_self]
      by_cases last : refcount token = 1
      · simp [last]
      · simp only [last, if_false, live, true_iff]
        omega
    · simpa only [Function.update_of_ne same] using alive
  · intro t n
    have := ok.byNode t n
    grind -linarith
  · intro t d
    have := ok.byCall t d
    have := ok.byCall token d
    grind -linarith
  · intro t
    have := ok.freedOnce t
    grind -linarith

/-- The node that condemned its token frees it. -/
theorem walkNode (ok : TokensOk refcount clientRefs freed tokenOf holds walking destroy owners
    fate) (node : NodeId) (here : walking node = true) :
    TokensOk refcount clientRefs
      (Function.update freed (tokenOf node) (freed (tokenOf node) + 1)) tokenOf holds
      (Function.update walking node false) destroy owners
      (Function.update fate (tokenOf node) .freed) := by
  have condemned := (ok.byNode (tokenOf node) node).mpr ⟨here, rfl⟩
  constructor
  · exact ok.counted
  · exact ok.owned
  · intro t
    have := ok.alive t
    grind -linarith
  · intro t n
    have := ok.byNode t n
    have := ok.byNode (tokenOf node) n
    grind -linarith
  · intro t d
    have := ok.byCall t d
    grind -linarith
  · intro t
    have := ok.freedOnce t
    grind -linarith

/-- The call that condemned a token frees it. -/
theorem walkCall (ok : TokensOk refcount clientRefs freed tokenOf holds walking destroy owners
    fate) (call : CallId) (token : TokenId) (here : destroy call = .walking token) :
    TokensOk refcount clientRefs (Function.update freed token (freed token + 1)) tokenOf holds
      walking (Function.update destroy call (.returned token)) owners
      (Function.update fate token .freed) := by
  have condemned := (ok.byCall token call).mpr here
  constructor
  · exact ok.counted
  · exact ok.owned
  · intro t
    have := ok.alive t
    grind -linarith
  · intro t n
    have := ok.byNode t n
    grind -linarith
  · intro t d
    have := ok.byCall t d
    have := ok.byCall token d
    grind -linarith
  · intro t
    have := ok.freedOnce t
    grind -linarith

/-- A fresh token starts with the one reference of its creator. -/
theorem create (ok : TokensOk refcount clientRefs freed tokenOf holds walking destroy owners fate)
    (token : TokenId) (absent : fate token = .absent) :
    TokensOk (Function.update refcount token 1) (Function.update clientRefs token 1)
      (Function.update freed token 0) tokenOf holds walking destroy owners
      (Function.update fate token .live) := by
  have dead := ok.alive token
  have counted := ok.counted token
  constructor
  · intro t
    have := ok.counted t
    grind -linarith
  · exact ok.owned
  · intro t
    have := ok.alive t
    grind -linarith
  · intro t n
    have := ok.byNode t n
    grind -linarith
  · intro t d
    have := ok.byCall t d
    grind -linarith
  · intro t
    have := ok.freedOnce t
    grind -linarith

end TokensOk

end Cancellation
end UfsrvRx
