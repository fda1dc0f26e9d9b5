import UfsrvRx.Cancellation.Lifecycle

namespace UfsrvRx
namespace Cancellation

open Transition

/-!
# The registry refines the life of its registrations

Every reachable state of the registry is described by a phase for each
registration, the set of registrations that own a reference of each token, and
a fate for each token.  The proof follows the events of the machine; each of
them is one of the list and reference operations of the abstract side.
-/

namespace State

def heads (s : State) : TokenId -> List NodeId := fun t => (s.tokens t).token.head

def flags (s : State) : TokenId -> Bool := fun t => (s.tokens t).token.isCancelled

def refcounts (s : State) : TokenId -> Int := fun t => (s.tokens t).token.refcount

def clients (s : State) : TokenId -> Nat := fun t => (s.tokens t).clientRefs

def created (s : State) : TokenId -> Bool := fun t => (s.tokens t).created

def frees (s : State) : TokenId -> Nat := fun t => (s.tokens t).freed

def holds (s : State) : NodeId -> Bool := fun n => (s.registrations n).holdsToken

def walkers (s : State) : NodeId -> Bool := fun n => decide ((s.registrations n).reclaim = .walking)

end State

namespace State

variable (s : State) (token : TokenId) (cell : TokenCell) (node : NodeId) (entry : Registration)

theorem heads_setToken :
    (s.setToken token cell).heads = Function.update s.heads token cell.token.head :=
  view_update (fun cell => cell.token.head) s.tokens token cell

theorem refcounts_setToken :
    (s.setToken token cell).refcounts = Function.update s.refcounts token cell.token.refcount :=
  view_update (fun cell => cell.token.refcount) s.tokens token cell

theorem clients_setToken :
    (s.setToken token cell).clients = Function.update s.clients token cell.clientRefs :=
  view_update (fun cell => cell.clientRefs) s.tokens token cell

theorem created_setToken :
    (s.setToken token cell).created = Function.update s.created token cell.created :=
  view_update (fun cell => cell.created) s.tokens token cell

theorem frees_setToken :
    (s.setToken token cell).frees = Function.update s.frees token cell.freed :=
  view_update (fun cell => cell.freed) s.tokens token cell

theorem tokenOf_setRegistration :
    (s.setRegistration node entry).tokenOf = Function.update s.tokenOf node entry.cb.token :=
  view_update (fun entry => entry.cb.token) s.registrations node entry

theorem holds_setRegistration :
    (s.setRegistration node entry).holds = Function.update s.holds node entry.holdsToken :=
  view_update Registration.holdsToken s.registrations node entry

theorem walkers_setRegistration :
    (s.setRegistration node entry).walkers =
      Function.update s.walkers node (decide (entry.reclaim = .walking)) :=
  view_update (fun entry : Registration => decide (entry.reclaim = .walking)) s.registrations
    node entry

variable {s token cell node entry}

theorem heads_setToken_same (same : cell.token.head = (s.tokens token).token.head) :
    (s.setToken token cell).heads = s.heads :=
  view_update_same (fun cell => cell.token.head) s.tokens same

theorem flags_setToken_same (same : cell.token.isCancelled = (s.tokens token).token.isCancelled) :
    (s.setToken token cell).flags = s.flags :=
  view_update_same (fun cell => cell.token.isCancelled) s.tokens same

theorem refcounts_setToken_same (same : cell.token.refcount = (s.tokens token).token.refcount) :
    (s.setToken token cell).refcounts = s.refcounts :=
  view_update_same (fun cell => cell.token.refcount) s.tokens same

theorem clients_setToken_same (same : cell.clientRefs = (s.tokens token).clientRefs) :
    (s.setToken token cell).clients = s.clients :=
  view_update_same (fun cell => cell.clientRefs) s.tokens same

theorem created_setToken_same (same : cell.created = (s.tokens token).created) :
    (s.setToken token cell).created = s.created :=
  view_update_same (fun cell => cell.created) s.tokens same

theorem frees_setToken_same (same : cell.freed = (s.tokens token).freed) :
    (s.setToken token cell).frees = s.frees :=
  view_update_same (fun cell => cell.freed) s.tokens same

theorem tokenOf_setRegistration_same (same : entry.cb.token = s.tokenOf node) :
    (s.setRegistration node entry).tokenOf = s.tokenOf :=
  view_update_same (fun entry => entry.cb.token) s.registrations same

theorem holds_setRegistration_same
    (same : entry.holdsToken = (s.registrations node).holdsToken) :
    (s.setRegistration node entry).holds = s.holds :=
  view_update_same Registration.holdsToken s.registrations same

theorem walkers_setRegistration_same
    (same : entry.reclaim = .walking ↔ (s.registrations node).reclaim = .walking) :
    (s.setRegistration node entry).walkers = s.walkers :=
  view_update_same (fun entry : Registration => decide (entry.reclaim = .walking))
    s.registrations (decide_eq_decide.mpr same)

end State

/-- The abstract description of a state. -/
structure Consistent (s : State) (life : NodeId -> Life) (owners : TokenId -> Finset NodeId)
    (fate : TokenId -> Fate) : Prop where
  entries : forall n, LocalOk (life n) (s.registrations n)
  lists : ListsOk s.heads s.flags s.tokenOf s.cancel life
  tokens : TokensOk s.refcounts s.clients s.frees s.tokenOf s.holds s.walkers s.destroy owners fate
  absent : forall t, s.created t = false ↔ fate t = .absent
  unflagged : forall t, fate t = .absent -> (s.tokens t).token.isCancelled = false
  registering : forall n, (s.registrations n).register.inFlight = true ->
    0 < (s.tokens (s.tokenOf n)).clientRefs
  cancelling : forall k t, (s.cancel k).inFlight = some t -> 0 < (s.tokens t).clientRefs
  reclaimer : forall n, (s.registrations n).reclaim.inFlight = true ->
    (Exists fun won => (s.registrations n).unregister = .reclaiming won) ∨
    Exists fun k => (s.cancel k).reclaimingNode = some n

/-- The phases after an event. -/
def lifeNext (s : State) (life : NodeId -> Life) : Event -> NodeId -> Life
  | .registerAlloc node _ _ => Function.update life node .entering
  | .registerLock node => Function.update life node
      (if (s.tokens (s.tokenOf node)).token.isCancelled then .calling else .listed)
  | .registerCall node => Function.update life node .inlineRunning
  | .registerCallReturned node => Function.update life node .inlineRan
  | .unregisterLock node => Function.update life node
      (if (s.registrations node).cb.active then .removed else life node)
  | .cancelLock call token =>
      if (s.tokens token).token.isCancelled then life
      else fun node => if node ∈ s.heads token then .detached call else life node
  | .cancelCall call _ node _ => Function.update life node (.running call)
  | .cancelCallReturned call _ node _ => Function.update life node (.ran call)
  | .cancelDrop _ _ node _ => Function.update life node .dropped
  | .create _ | .retain _ | .registerRefused _ _ | .registerRetain _ | .unregisterReturn _ _
  | .cancelReclaimed _ _ _ _ | .cancelReturn _ _ | .nodeFree _ | .hookCall _ | .hookReturned _
  | .nodeTokenRelease _ | .nodeTokenWalk _ | .destroyRelease _ _ | .destroyWalk _ _ => life

namespace Consistent

variable {s : State} {life : NodeId -> Life} {owners : TokenId -> Finset NodeId}
  {fate : TokenId -> Fate}

/-- Only a referenced token has listed nodes. -/
theorem heads_nil (ok : Consistent s life owners fate) {token : TokenId}
    (zero : (s.tokens token).token.refcount = 0) : (s.tokens token).token.head = [] := by
  have none := ok.tokens.owners_empty token zero
  apply List.eq_nil_iff_forall_not_mem.mpr
  intro node listed
  have placed := (ok.lists.headMem token node).mp listed
  have entry := ok.entries node
  have register : (s.registrations node).register = .returned := by
    cases frame : (s.registrations node).register <;>
      grind [LocalOk]
  have unreclaimed : (s.registrations node).reclaim = .idle := by
    have := entry.refcount
    have := entry.reclaim
    grind
  have owner := (ok.tokens.owned token node).mpr
    ⟨by simp [State.holds, Registration.holdsToken, register, unreclaimed], placed.2⟩
  rw [none] at owner
  exact Finset.notMem_empty node owner

/-- One registration moves on, away from every list, without touching the
references of its token. -/
theorem advance (ok : Consistent s life owners fate) (node : NodeId) (phase : Life)
    (entry : Registration) (described : LocalOk phase entry)
    (token : entry.cb.token = s.tokenOf node)
    (holds : entry.holdsToken = (s.registrations node).holdsToken)
    (walking : entry.reclaim = .walking ↔ (s.registrations node).reclaim = .walking)
    (placed : phase = life node ∨ (life node).placed = false ∧ phase.placed = false)
    (flight : entry.register.inFlight = true -> (s.registrations node).register.inFlight = true)
    (reclaimer : entry.reclaim.inFlight = true ->
      (Exists fun won => entry.unregister = .reclaiming won) ∨
      Exists fun k => (s.cancel k).reclaimingNode = some node) :
    Consistent (s.setRegistration node entry) (Function.update life node phase) owners fate := by
  have sameToken := State.tokenOf_setRegistration_same token
  have sameHolds := State.holds_setRegistration_same holds
  have sameWalkers := State.walkers_setRegistration_same walking
  constructor
  · exact forall_update ok.entries node described
  · rw [sameToken]
    rcases placed with same | ⟨before, after⟩
    · rw [same, Function.update_eq_self]
      exact ok.lists
    · have relabelled := ok.lists.relabel node (s.tokenOf node) before after
      rwa [Function.update_eq_self] at relabelled
  · rw [sameToken, sameHolds, sameWalkers]
    exact ok.tokens
  · exact ok.absent
  · exact ok.unflagged
  · rw [sameToken]
    intro n inFlight
    by_cases same : n = node
    · subst n
      simp only [State.setRegistration, Function.update_self] at inFlight
      exact ok.registering node (flight inFlight)
    · simp only [State.setRegistration, Function.update_of_ne same] at inFlight
      exact ok.registering n inFlight
  · exact ok.cancelling
  · intro n inFlight
    by_cases same : n = node
    · subst n
      simp only [State.setRegistration, Function.update_self] at inFlight ⊢
      exact reclaimer inFlight
    · simp only [State.setRegistration, Function.update_of_ne same] at inFlight ⊢
      exact ok.reclaimer n inFlight

/-- One dispatch loop moves on.  The reference it owned stays where it was. -/
theorem dispatch (ok : Consistent s life owners fate) (node : NodeId) {phase : Life}
    {entry : Registration} (call : CallId) {frame : CancelFrame} (described : LocalOk phase entry)
    (lists : ListsOk s.heads s.flags s.tokenOf (Function.update s.cancel call frame)
      (Function.update life node phase))
    (token : entry.cb.token = s.tokenOf node)
    (holds : entry.holdsToken = (s.registrations node).holdsToken)
    (walking : entry.reclaim = .walking ↔ (s.registrations node).reclaim = .walking)
    (register : entry.register = (s.registrations node).register)
    (flight : frame.inFlight = (s.cancel call).inFlight)
    (reclaimer : entry.reclaim.inFlight = true ->
      (Exists fun won => entry.unregister = .reclaiming won) ∨ frame.reclaimingNode = some node)
    (other : (s.cancel call).reclaimingNode = none) :
    Consistent ((s.setRegistration node entry).setCancel call frame)
      (Function.update life node phase) owners fate := by
  have sameToken := State.tokenOf_setRegistration_same token
  have sameHolds := State.holds_setRegistration_same holds
  have sameWalkers := State.walkers_setRegistration_same walking
  constructor
  · exact forall_update ok.entries node described
  · change ListsOk s.heads s.flags (s.setRegistration node entry).tokenOf _ _
    rw [sameToken]
    exact lists
  · change TokensOk s.refcounts s.clients s.frees (s.setRegistration node entry).tokenOf
      (s.setRegistration node entry).holds (s.setRegistration node entry).walkers s.destroy _ _
    rw [sameToken, sameHolds, sameWalkers]
    exact ok.tokens
  · exact ok.absent
  · exact ok.unflagged
  · change forall n, _ -> 0 < (s.tokens ((s.setRegistration node entry).tokenOf n)).clientRefs
    rw [sameToken]
    intro n inFlight
    apply ok.registering n
    simp only [State.setCancel, State.setRegistration] at inFlight
    by_cases same : n = node
    · subst n
      rwa [Function.update_self, register] at inFlight
    · rwa [Function.update_of_ne same] at inFlight
  · intro k t inFlight
    apply ok.cancelling k t
    simp only [State.setCancel] at inFlight
    by_cases same : k = call
    · subst k
      rwa [Function.update_self, flight] at inFlight
    · rwa [Function.update_of_ne same] at inFlight
  · intro n inFlight
    simp only [State.setCancel, State.setRegistration] at inFlight ⊢
    by_cases same : n = node
    · subst n
      rw [Function.update_self] at inFlight ⊢
      rcases reclaimer inFlight with own | mine
      · exact Or.inl own
      · exact Or.inr ⟨call, by rw [Function.update_self]; exact mine⟩
    · rw [Function.update_of_ne same] at inFlight ⊢
      rcases ok.reclaimer n inFlight with own | ⟨k, held⟩
      · exact Or.inl own
      · refine Or.inr ⟨k, ?_⟩
        have different : k ≠ call := by
          intro same
          rw [same, other] at held
          cases held
        rw [Function.update_of_ne different]
        exact held

/-- Only the references change: the lists, the flags and the phases stay. -/
theorem account (ok : Consistent s life owners fate) {after : State}
    {newOwners : TokenId -> Finset NodeId} {newFate : TokenId -> Fate}
    (heads : after.heads = s.heads) (flags : after.flags = s.flags)
    (tokenOf : after.tokenOf = s.tokenOf) (cancel : after.cancel = s.cancel)
    (created : after.created = s.created)
    (absent : forall t, newFate t = .absent ↔ fate t = .absent)
    (entries : forall n, LocalOk (life n) (after.registrations n))
    (tokens : TokensOk after.refcounts after.clients after.frees after.tokenOf after.holds
      after.walkers after.destroy newOwners newFate)
    (registering : forall n, (after.registrations n).register.inFlight = true ->
      0 < after.clients (s.tokenOf n))
    (cancelling : forall k t, (s.cancel k).inFlight = some t -> 0 < after.clients t)
    (reclaimer : forall n, (after.registrations n).reclaim.inFlight = true ->
      (s.registrations n).reclaim.inFlight = true ∧
      (after.registrations n).unregister = (s.registrations n).unregister) :
    Consistent after life newOwners newFate := by
  constructor
  · exact entries
  · rw [heads, flags, tokenOf, cancel]
    exact ok.lists
  · exact tokens
  · intro t
    rw [created, absent]
    exact ok.absent t
  · intro t gone
    have := congrFun flags t
    exact this.trans (ok.unflagged t ((absent t).mp gone))
  · intro n inFlight
    rw [tokenOf]
    exact registering n inFlight
  · intro k t inFlight
    rw [cancel] at inFlight
    exact cancelling k t inFlight
  · intro n inFlight
    rcases reclaimer n inFlight with ⟨before, same⟩
    rw [same, cancel]
    exact ok.reclaimer n before

/-- Only a live token has references. -/
theorem unreferenced (ok : Consistent s life owners fate) {t : TokenId} (dead : fate t ≠ .live) :
    s.refcounts t = 0 := by
  have alive := ok.tokens.alive t
  have counted := ok.tokens.counted t
  have : ¬ 0 < s.refcounts t := fun positive => dead (alive.mpr positive)
  omega

theorem unowned (ok : Consistent s life owners fate) {t : TokenId} (absent : fate t = .absent) :
    s.clients t = 0 ∧ s.heads t = [] := by
  have zero := ok.unreferenced (by rw [absent]; nofun)
  have counted := ok.tokens.counted t
  exact ⟨by omega, ok.heads_nil zero⟩

/-- The node that walks its token's list dropped the last reference. -/
theorem unreferenced_node (ok : Consistent s life owners fate) {n : NodeId}
    (here : (s.registrations n).reclaim = .walking) :
    (s.tokens (s.tokenOf n)).token.refcount = 0 := by
  refine ok.unreferenced ?_
  rw [(ok.tokens.byNode (s.tokenOf n) n).mpr ⟨by simp [State.walkers, here], rfl⟩]
  nofun

/-- So did the call that walks it. -/
theorem unreferenced_call (ok : Consistent s life owners fate) {d : CallId} {t : TokenId}
    (here : s.destroy d = .walking t) : (s.tokens t).token.refcount = 0 := by
  refine ok.unreferenced ?_
  rw [(ok.tokens.byCall t d).mpr here]
  nofun

theorem create (ok : Consistent s life owners fate) {t : TokenId}
    (fresh : (s.tokens t).created = false) :
    Consistent (next s (.create t)) life owners (Function.update fate t .live) := by
  have absent := (ok.absent t).mp fresh
  have unowned := ok.unowned absent
  have unflagged := ok.unflagged t absent
  simp only [next]
  constructor
  · exact ok.entries
  · rw [State.heads_setToken_same unowned.2.symm, State.flags_setToken_same unflagged.symm]
    exact ok.lists
  · rw [State.refcounts_setToken, State.clients_setToken, State.frees_setToken]
    exact ok.tokens.create t absent
  · rw [State.created_setToken]
    intro u
    have := ok.absent u
    grind
  · intro u
    have := ok.unflagged u
    grind
  · intro n inFlight
    have := ok.registering n inFlight
    grind [State.tokenOf]
  · intro k u inFlight
    have := ok.cancelling k u inFlight
    grind
  · exact ok.reclaimer

theorem retain (ok : Consistent s life owners fate) {t : TokenId}
    (held : 0 < (s.tokens t).clientRefs) : Consistent (next s (.retain t)) life owners fate := by
  have same : next s (.retain t) = s.setToken t
      { s.tokens t with
        token := { (s.tokens t).token with refcount := (s.tokens t).token.refcount + 1 }
        clientRefs := (s.tokens t).clientRefs + 1 } := by
    simp [next, State.retainToken, State.setToken]
  rw [same]
  have bigger (u : TokenId) : s.clients u ≤ (s.setToken t
      { s.tokens t with
        token := { (s.tokens t).token with refcount := (s.tokens t).token.refcount + 1 }
        clientRefs := (s.tokens t).clientRefs + 1 }).clients u := by
    rw [State.clients_setToken]
    grind [State.clients]
  apply ok.account
  · exact State.heads_setToken_same rfl
  · exact State.flags_setToken_same rfl
  · rfl
  · rfl
  · exact State.created_setToken_same rfl
  · intro u
    rfl
  · exact ok.entries
  · rw [State.refcounts_setToken, State.clients_setToken, State.frees_setToken_same]
    · exact ok.tokens.retain t held
    · rfl
  · intro n inFlight
    exact Nat.lt_of_lt_of_le (ok.registering n inFlight) (bigger _)
  · intro k u inFlight
    exact Nat.lt_of_lt_of_le (ok.cancelling k u inFlight) (bigger _)
  · intro n inFlight
    exact ⟨inFlight, rfl⟩

/-- The registration takes its reference of the token. -/
theorem registerRetain (ok : Consistent s life owners fate) {n : NodeId}
    (here : (s.registrations n).register = .allocated) :
    Consistent (next s (.registerRetain n)) life
      (Function.update owners (s.tokenOf n) (insert n (owners (s.tokenOf n)))) fate := by
  have entry := ok.entries n
  have held := ok.registering n (by rw [here]; rfl)
  have free : s.holds n = false := by simp [State.holds, Registration.holdsToken, here]
  have idle : (s.registrations n).reclaim = .idle := by
    have := entry.handle
    have := entry.reclaim
    have := entry.refcount
    have := entry.entering
    grind
  simp only [next, State.retainToken]
  apply ok.account
  · exact State.heads_setToken_same rfl
  · exact State.flags_setToken_same rfl
  · exact State.tokenOf_setRegistration_same rfl
  · rfl
  · exact State.created_setToken_same rfl
  · intro u
    rfl
  · apply forall_update_right ok.entries n
    cases entry
    constructor <;> grind
  · have acquired := ok.tokens.acquire n held free
    change TokensOk (s.setToken _ _).refcounts (s.setToken _ _).clients (s.setToken _ _).frees
      (s.setRegistration _ _).tokenOf (s.setRegistration _ _).holds
      (s.setRegistration _ _).walkers s.destroy _ _
    rw [State.refcounts_setToken, State.clients_setToken_same, State.frees_setToken_same,
      State.tokenOf_setRegistration_same, State.holds_setRegistration,
      State.walkers_setRegistration_same]
    · exact acquired
    all_goals rfl
  · intro m inFlight
    change 0 < (s.setToken _ _).clients _
    rw [State.clients_setToken_same]
    · by_cases same : m = n
      · subst m
        exact held
      · simp only [State.setRegistration_registrations, Function.update_of_ne same] at inFlight
        exact ok.registering m inFlight
    · rfl
  · intro k u inFlight
    change 0 < (s.setToken _ _).clients _
    rw [State.clients_setToken_same]
    · exact ok.cancelling k u inFlight
    · rfl
  · simp only [State.setToken, State.setRegistration]
    grind

/-- `sNodeFree` gives the reference of the token back. -/
theorem nodeTokenRelease (ok : Consistent s life owners fate) {n : NodeId}
    (here : (s.registrations n).reclaim = .releasing) :
    Consistent (next s (.nodeTokenRelease n)) life
      (Function.update owners (s.tokenOf n) ((owners (s.tokenOf n)).erase n))
      (Function.update fate (s.tokenOf n)
        (if s.refcounts (s.tokenOf n) = 1 then .condemnedByNode n else fate (s.tokenOf n))) := by
  have entry := ok.entries n
  have register : (s.registrations n).register = .returned := by
    exact (entry.consumed (by simp [here])).2.1
  have held : s.holds n = true := by simp [State.holds, Registration.holdsToken, register, here]
  have still : s.walkers n = false := by simp [State.walkers, here]
  have alive := (ok.tokens.alive (s.tokenOf n)).mpr (ok.tokens.refcount_pos_of_holds held)
  simp only [next, State.dropTokenRef]
  apply ok.account
  · exact State.heads_setToken_same rfl
  · exact State.flags_setToken_same rfl
  · exact State.tokenOf_setRegistration_same rfl
  · rfl
  · exact State.created_setToken_same rfl
  · grind
  · apply forall_update_right ok.entries n
    cases entry
    constructor <;> grind
  · have surrendered := ok.tokens.surrender n held still
    change TokensOk (s.setToken _ _).refcounts (s.setToken _ _).clients (s.setToken _ _).frees
      (s.setRegistration _ _).tokenOf (s.setRegistration _ _).holds
      (s.setRegistration _ _).walkers s.destroy _ _
    rw [State.refcounts_setToken, State.clients_setToken_same, State.frees_setToken_same,
      State.tokenOf_setRegistration_same, State.holds_setRegistration,
      State.walkers_setRegistration]
    · by_cases last : (s.tokens (s.tokenOf n)).token.refcount = 1
      · simpa [last, Registration.holdsToken, register, State.refcounts] using surrendered
      · simpa [last, Registration.holdsToken, register, State.refcounts] using surrendered
    all_goals rfl
  · intro m inFlight
    change 0 < (s.setToken _ _).clients _
    rw [State.clients_setToken_same]
    · apply ok.registering m
      by_cases same : m = n
      · subst m
        simpa using inFlight
      · simpa only [State.setRegistration_registrations, State.setToken_registrations,
          Function.update_of_ne same] using inFlight
    · rfl
  · intro k u inFlight
    change 0 < (s.setToken _ _).clients _
    rw [State.clients_setToken_same]
    · exact ok.cancelling k u inFlight
    · rfl
  · simp only [State.setToken, State.setRegistration]
    grind

theorem walkToken_eq (ok : Consistent s life owners fate) {t : TokenId}
    (zero : (s.tokens t).token.refcount = 0) :
    s.walkToken t = s.setToken t { s.tokens t with freed := (s.tokens t).freed + 1 } := by
  have nil := ok.heads_nil zero
  have sameToken : (s.tokens t).token = { (s.tokens t).token with head := [] } := by
    rw [<- nil]
  simp only [State.walkToken, nil, List.not_mem_nil, if_false]
  rw [<- nil]
  rfl

theorem nodeTokenWalk (ok : Consistent s life owners fate) {n : NodeId}
    (here : (s.registrations n).reclaim = .walking) :
    Consistent (next s (.nodeTokenWalk n)) life owners
      (Function.update fate (s.tokenOf n) .freed) := by
  have entry := ok.entries n
  have register : (s.registrations n).register = .returned := by
    exact (entry.consumed (by simp [here])).2.1
  have walking : s.walkers n = true := by simp [State.walkers, here]
  have condemned := (ok.tokens.byNode (s.tokenOf n) n).mpr ⟨walking, rfl⟩
  simp only [next, ok.walkToken_eq (ok.unreferenced_node here)]
  apply ok.account
  · exact State.heads_setToken_same rfl
  · exact State.flags_setToken_same rfl
  · exact State.tokenOf_setRegistration_same rfl
  · rfl
  · exact State.created_setToken_same rfl
  · grind
  · apply forall_update_right ok.entries n
    cases entry
    constructor <;> grind
  · have walked := ok.tokens.walkNode n walking
    change TokensOk (s.setToken _ _).refcounts (s.setToken _ _).clients (s.setToken _ _).frees
      (s.setRegistration _ _).tokenOf (s.setRegistration _ _).holds
      (s.setRegistration _ _).walkers s.destroy _ _
    rw [State.refcounts_setToken_same, State.clients_setToken_same, State.frees_setToken,
      State.tokenOf_setRegistration_same, State.holds_setRegistration_same,
      State.walkers_setRegistration]
    · exact walked
    · simp [Registration.holdsToken, register, here]
    all_goals rfl
  · intro m inFlight
    change 0 < (s.setToken _ _).clients _
    rw [State.clients_setToken_same]
    · apply ok.registering m
      by_cases same : m = n
      · subst m
        simpa using inFlight
      · simpa only [State.setRegistration_registrations, State.setToken_registrations,
          Function.update_of_ne same] using inFlight
    · rfl
  · intro k u inFlight
    change 0 < (s.setToken _ _).clients _
    rw [State.clients_setToken_same]
    · exact ok.cancelling k u inFlight
    · rfl
  · simp only [State.setToken, State.setRegistration]
    grind

theorem destroyWalk (ok : Consistent s life owners fate) {d : CallId} {t : TokenId}
    (here : s.destroy d = .walking t) :
    Consistent (next s (.destroyWalk d t)) life owners (Function.update fate t .freed) := by
  have condemned := (ok.tokens.byCall t d).mpr here
  simp only [next, ok.walkToken_eq (ok.unreferenced_call here)]
  apply ok.account
  · exact State.heads_setToken_same rfl
  · exact State.flags_setToken_same rfl
  · rfl
  · rfl
  · exact State.created_setToken_same rfl
  · grind
  · exact ok.entries
  · have walked := ok.tokens.walkCall d t here
    change TokensOk (s.setToken _ _).refcounts (s.setToken _ _).clients (s.setToken _ _).frees
      _ _ _ _ _ _
    rw [State.refcounts_setToken_same, State.clients_setToken_same, State.frees_setToken]
    · exact walked
    all_goals rfl
  · intro m inFlight
    change 0 < (s.setToken _ _).clients _
    rw [State.clients_setToken_same]
    · exact ok.registering m inFlight
    · rfl
  · intro k u inFlight
    change 0 < (s.setToken _ _).clients _
    rw [State.clients_setToken_same]
    · exact ok.cancelling k u inFlight
    · rfl
  · intro m inFlight
    exact ⟨inFlight, rfl⟩

theorem destroyRelease (ok : Consistent s life owners fate) {d : CallId} {t : TokenId}
    (idle : s.destroy d = .idle)
    (spare : 1 < (s.tokens t).clientRefs ∨ (s.tokens t).clientRefs = 1 ∧ ¬ s.Busy t) :
    Consistent (next s (.destroyRelease d t)) life owners
      (Function.update fate t (if s.refcounts t = 1 then .condemnedByCall d else fate t)) := by
  have held : 0 < s.clients t := by
    change 0 < (s.tokens t).clientRefs
    omega
  have alive := (ok.tokens.alive t).mpr (ok.tokens.refcount_pos held)
  have same : next s (.destroyRelease d t) = (s.setToken t
      { s.tokens t with
        token := { (s.tokens t).token with refcount := (s.tokens t).token.refcount - 1 }
        clientRefs := (s.tokens t).clientRefs - 1 }).setDestroy d
      (if (s.tokens t).token.refcount = 1 then .walking t else .returned t) := by
    simp [next, State.dropTokenRef, State.setToken]
  rw [same]
  -- A call in progress on the token keeps a client reference beside the released one.
  have kept (u : TokenId) (positive : 0 < s.clients u) (busy : u = t -> s.Busy t) :
      0 < ((s.setToken t
      { s.tokens t with
        token := { (s.tokens t).token with refcount := (s.tokens t).token.refcount - 1 }
        clientRefs := (s.tokens t).clientRefs - 1 }).setDestroy d
      (if (s.tokens t).token.refcount = 1 then .walking t else .returned t)).clients u := by
    change 0 < (s.setToken _ _).clients u
    rw [State.clients_setToken]
    by_cases here : u = t
    · subst u
      rw [Function.update_self]
      rcases spare with more | ⟨_, quiet⟩
      · simp only
        omega
      · exact absurd (busy rfl) quiet
    · rw [Function.update_of_ne here]
      exact positive
  apply ok.account
  · exact State.heads_setToken_same rfl
  · exact State.flags_setToken_same rfl
  · rfl
  · rfl
  · exact State.created_setToken_same rfl
  · grind
  · exact ok.entries
  · have released := ok.tokens.release d t held idle
    change TokensOk (s.setToken _ _).refcounts (s.setToken _ _).clients (s.setToken _ _).frees
      _ _ _ _ _ _
    rw [State.refcounts_setToken, State.clients_setToken, State.frees_setToken_same]
    · exact released
    · rfl
  · intro n inFlight
    exact kept _ (ok.registering n inFlight) (fun here => Or.inl ⟨n, here, inFlight⟩)
  · intro k u inFlight
    exact kept u (ok.cancelling k u inFlight) (fun here => Or.inr ⟨k, here ▸ inFlight⟩)
  · intro m inFlight
    exact ⟨inFlight, rfl⟩

/-- A fresh node is linked to nothing yet. -/
theorem registerAlloc (ok : Consistent s life owners fate) {n : NodeId} {t : TokenId} (hook : Bool)
    (idle : (s.registrations n).register = .idle) (held : 0 < (s.tokens t).clientRefs) :
    Consistent (next s (.registerAlloc n t hook)) (lifeNext s life (.registerAlloc n t hook))
      owners fate := by
  have entry := ok.entries n
  have absent := entry.absent.mpr (Or.inl idle)
  have unreclaimed := entry.reclaim.mpr (Or.inl absent)
  have free : s.holds n = false := by simp [State.holds, Registration.holdsToken, idle]
  have still : s.walkers n = false := by simp [State.walkers, unreclaimed]
  simp only [next, lifeNext]
  constructor
  · apply forall_update ok.entries n
    cases entry
    constructor <;> grind
  · rw [State.tokenOf_setRegistration]
    exact ok.lists.relabel n t (by rw [absent]; rfl) rfl
  · rw [State.tokenOf_setRegistration, State.holds_setRegistration_same,
      State.walkers_setRegistration_same]
    · exact ok.tokens.retarget n t free still
    · rfl
    · simp [Registration.holdsToken, idle]
  · exact ok.absent
  · exact ok.unflagged
  · rw [State.tokenOf_setRegistration]
    intro m inFlight
    by_cases same : m = n
    · subst m
      rw [Function.update_self]
      exact held
    · simp only [State.setRegistration_registrations, Function.update_of_ne same] at inFlight ⊢
      exact ok.registering m inFlight
  · exact ok.cancelling
  · intro m inFlight
    have := ok.reclaimer m
    simp only [State.setRegistration] at inFlight ⊢
    grind

/-- One registration is linked to, or unlinked from, the list of its token. -/
theorem relink (ok : Consistent s life owners fate) (node : NodeId) {phase : Life}
    {entry : Registration} {head : List NodeId} (described : LocalOk phase entry)
    (lists : ListsOk (Function.update s.heads (s.tokenOf node) head) s.flags s.tokenOf s.cancel
      (Function.update life node phase))
    (token : entry.cb.token = s.tokenOf node)
    (holds : entry.holdsToken = (s.registrations node).holdsToken)
    (walking : entry.reclaim = .walking ↔ (s.registrations node).reclaim = .walking)
    (flight : entry.register.inFlight = false)
    (reclaimer : entry.reclaim.inFlight = true ->
      Exists fun won => entry.unregister = .reclaiming won) :
    Consistent ((s.setToken (s.tokenOf node)
      { s.tokens (s.tokenOf node) with
        token := { (s.tokens (s.tokenOf node)).token with head := head } }).setRegistration
      node entry) (Function.update life node phase) owners fate := by
  constructor
  · exact forall_update ok.entries node described
  · change ListsOk (s.setToken _ _).heads (s.setToken _ _).flags (s.setRegistration _ _).tokenOf
      s.cancel _
    rw [State.heads_setToken, State.flags_setToken_same, State.tokenOf_setRegistration_same token]
    · exact lists
    · rfl
  · change TokensOk (s.setToken _ _).refcounts (s.setToken _ _).clients (s.setToken _ _).frees
      (s.setRegistration _ _).tokenOf (s.setRegistration _ _).holds
      (s.setRegistration _ _).walkers s.destroy _ _
    rw [State.refcounts_setToken_same, State.clients_setToken_same, State.frees_setToken_same,
      State.tokenOf_setRegistration_same token, State.holds_setRegistration_same holds,
      State.walkers_setRegistration_same walking]
    · exact ok.tokens
    all_goals rfl
  · change forall u, (s.setToken _ _).created u = false ↔ _
    rw [State.created_setToken_same]
    · exact ok.absent
    · rfl
  · change forall u, _ -> (s.setToken _ _).flags u = false
    rw [State.flags_setToken_same]
    · exact ok.unflagged
    · rfl
  · change forall m, _ -> 0 < (s.setToken _ _).clients ((s.setRegistration _ _).tokenOf m)
    rw [State.clients_setToken_same, State.tokenOf_setRegistration_same token]
    · intro m inFlight
      apply ok.registering m
      simp only [State.setRegistration, State.setToken] at inFlight
      grind
    · rfl
  · change forall k u, _ -> 0 < (s.setToken _ _).clients u
    rw [State.clients_setToken_same]
    · exact ok.cancelling
    · rfl
  · intro m inFlight
    have := ok.reclaimer m
    simp only [State.setRegistration, State.setToken] at inFlight ⊢
    grind

theorem registerLock (ok : Consistent s life owners fate) {n : NodeId}
    (here : (s.registrations n).register = .retained) :
    Consistent (next s (.registerLock n)) (lifeNext s life (.registerLock n)) owners fate := by
  have entry := ok.entries n
  have entering := entry.entering.mpr (Or.inr here)
  have unreclaimed : (s.registrations n).reclaim = .idle := by
    by_contra reclaimed
    have := (entry.consumed reclaimed).2.1
    rw [here] at this
    cases this
  simp only [next, State.registerSection, lifeNext]
  by_cases flag : (s.tokens (s.tokenOf n)).token.isCancelled = true
  · rw [if_pos flag, if_pos flag]
    apply ok.advance n _ _
    · cases entry
      constructor <;> grind
    · rfl
    · simp [Registration.holdsToken, here]
    · rfl
    · exact Or.inr ⟨by rw [entering]; rfl, rfl⟩
    · intro _
      rw [here]
      rfl
    · intro reclaimed
      rw [unreclaimed] at reclaimed
      cases reclaimed
  · have unset : s.flags (s.tokenOf n) = false := Bool.not_eq_true _ ▸ flag
    rw [if_neg flag, if_neg flag]
    apply ok.relink n
    · cases entry
      constructor <;> grind
    · exact ok.lists.push n entering unset
    · rfl
    · simp [Registration.holdsToken, here, unreclaimed]
    · rfl
    · rfl
    · intro reclaimed
      rw [unreclaimed] at reclaimed
      cases reclaimed

theorem unregisterLock (ok : Consistent s life owners fate) {n : NodeId}
    (returned : (s.registrations n).register = .returned)
    (idle : (s.registrations n).unregister = .idle) :
    Consistent (next s (.unregisterLock n)) (lifeNext s life (.unregisterLock n)) owners fate := by
  have entry := ok.entries n
  have unreclaimed : (s.registrations n).reclaim = .idle := by
    by_contra reclaimed
    exact (entry.consumed reclaimed).1 idle
  have bounds := (life n).listRef_bounds
  have present : life n ≠ .absent := by
    have := entry.absent
    grind
  have counted := entry.refcount present
  rw [if_pos idle] at counted
  simp only [next, State.unregisterSection, lifeNext]
  by_cases active : (s.registrations n).cb.active = true
  · have listed := entry.active.mp active
    have two : (s.registrations n).cb.refcount = 2 := by
      rw [counted, listed]
      rfl
    rw [if_pos active, if_pos active]
    apply ok.relink n
    · cases entry
      constructor <;> grind
    · exact ok.lists.erase n listed
    · rfl
    · simp [Registration.holdsToken, returned, unreclaimed, two]
    · simp [unreclaimed, two]
    · simp [returned, RegisterFrame.inFlight]
    · intro _
      exact ⟨true, by simp [two]⟩
  · rw [if_neg active, if_neg active]
    have notRemoved : life n ≠ .removed := by
      intro removed
      have := entry.removed.mp removed
      grind
    apply ok.advance n _ _
    · cases entry
      constructor <;> grind
    · rfl
    · by_cases last : (s.registrations n).cb.refcount - 1 = 0 <;>
        simp [Registration.holdsToken, returned, unreclaimed, last]
    · by_cases last : (s.registrations n).cb.refcount - 1 = 0 <;> simp [unreclaimed, last]
    · exact Or.inl rfl
    · exact id
    · intro reclaimed
      simp only [unreclaimed] at reclaimed ⊢
      by_cases last : (s.registrations n).cb.refcount - 1 = 0
      · exact Or.inl ⟨false, by rw [if_pos last]⟩
      · rw [if_neg last] at reclaimed
        cases reclaimed

/-- A dispatch loop moves on without touching a node. -/
theorem reframe (ok : Consistent s life owners fate) (k : CallId) {frame : CancelFrame}
    (pending : frame.pending = (s.cancel k).pending)
    (running : frame.runningNode = (s.cancel k).runningNode)
    (dropping : frame.droppingNode = (s.cancel k).droppingNode)
    (flagged : frame.flagged = (s.cancel k).flagged)
    (flight : forall t, frame.inFlight = some t -> (s.cancel k).inFlight = some t)
    (reclaimer : forall n, (s.cancel k).reclaimingNode = some n ->
      (s.registrations n).reclaim.inFlight = false) :
    Consistent (s.setCancel k frame) life owners fate := by
  refine { ok with lists := ok.lists.reframe k pending running dropping flagged, cancelling := ?_, reclaimer := ?_ }
  · intro j u inFlight
    apply ok.cancelling j u
    simp only [State.setCancel] at inFlight
    grind
  · intro m inFlight
    rcases ok.reclaimer m inFlight with own | ⟨j, held⟩
    · exact Or.inl own
    · refine Or.inr ⟨j, ?_⟩
      have different : j ≠ k := by
        intro same
        rw [same] at held
        have done := reclaimer m held
        exact absurd inFlight (by rw [State.setCancel_registrations, done]; decide)
      rw [State.setCancel_cancel, Function.update_of_ne different]
      exact held

/-- The flag is set and the whole list changes hands. -/
theorem cancelLock (ok : Consistent s life owners fate) {k : CallId} {t : TokenId}
    (idle : s.cancel k = .idle) (held : 0 < (s.tokens t).clientRefs) :
    Consistent (next s (.cancelLock k t)) (lifeNext s life (.cancelLock k t)) owners fate := by
  simp only [next, State.cancelSection, lifeNext]
  by_cases flag : (s.tokens t).token.isCancelled = true
  · rw [if_pos flag, if_pos flag]
    apply ok.reframe k <;> simp [idle]
  · have unset : s.flags t = false := Bool.not_eq_true _ ▸ flag
    rw [if_neg flag, if_neg flag]
    -- Detaching a node changes neither its token nor any of its calls.
    have kept {Seen : Type} (view : Registration -> Seen)
        (blind : forall entry : Registration, view entry.detach = view entry) (n : NodeId) :
        view (if n ∈ (s.tokens t).token.head then (s.registrations n).detach
          else s.registrations n) = view (s.registrations n) := by
      by_cases listed : n ∈ (s.tokens t).token.head
      · rw [if_pos listed, blind]
      · rw [if_neg listed]
    constructor
    · intro n
      have old := ok.entries n
      have placed : n ∈ (s.tokens t).token.head ↔ _ := ok.lists.headMem t n
      simp only [Registration.detach, State.heads]
      cases old
      constructor <;> grind
    · have detached := ok.lists.detach k t idle unset
      convert detached using 1
      · exact view_update (fun cell : TokenCell => cell.token.head) s.tokens t _
      · exact view_update (fun cell : TokenCell => cell.token.isCancelled) s.tokens t _
      · exact funext (kept (fun entry => entry.cb.token) (fun _ => rfl))
      · rfl
    · convert ok.tokens using 1
      · exact view_update_same (fun cell : TokenCell => cell.token.refcount) s.tokens rfl
      · exact view_update_same (fun cell : TokenCell => cell.clientRefs) s.tokens rfl
      · exact view_update_same (fun cell : TokenCell => cell.freed) s.tokens rfl
      · exact funext (kept (fun entry => entry.cb.token) (fun _ => rfl))
      · exact funext (kept Registration.holdsToken (fun _ => rfl))
      · exact funext (kept (fun entry => decide (entry.reclaim = .walking)) (fun _ => rfl))
    · intro u
      have := ok.absent u
      simp only [State.created] at this ⊢
      grind
    · intro u
      have := ok.unflagged u
      have := ok.unowned (t := t)
      simp only [State.clients] at this
      grind
    · intro m inFlight
      rw [kept (fun entry => entry.register.inFlight) (fun _ => rfl)] at inFlight
      have := ok.registering m inFlight
      simp only [State.tokenOf] at this ⊢
      rw [kept (fun entry => entry.cb.token) (fun _ => rfl)]
      grind
    · intro j u inFlight
      have := ok.cancelling j u
      simp only at inFlight ⊢
      grind
    · intro m inFlight
      rw [kept (fun entry => entry.reclaim.inFlight) (fun _ => rfl)] at inFlight
      rw [kept (fun entry => entry.unregister) (fun _ => rfl)]
      rcases ok.reclaimer m inFlight with own | ⟨j, reclaiming⟩
      · exact Or.inl own
      · refine Or.inr ⟨j, ?_⟩
        have different : j ≠ k := by
          intro same
          rw [same, idle] at reclaiming
          cases reclaiming
        change (Function.update s.cancel k _ j).reclaimingNode = some m
        rw [Function.update_of_ne different]
        exact reclaiming

/-- `sNodeDropRef`: the loop gives its reference on the node up. -/
theorem cancelDrop (ok : Consistent s life owners fate) {k : CallId} {t : TokenId} {n : NodeId}
    {rest : List NodeId} (here : s.cancel k = .dropping t n rest) :
    Consistent (Cancellation.next s (.cancelDrop k t n rest))
      (lifeNext s life (.cancelDrop k t n rest)) owners fate := by
  have entry := ok.entries n
  have ran := (ok.lists.dropping k n).mp (by simp [here])
  have unreclaimed := entry.unreclaimed (by rw [ran]; rfl)
  have returned : (s.registrations n).register = .returned := by
    have := entry.absent
    have := entry.entering
    have := entry.calling
    have := entry.inlineRunning
    cases frame : (s.registrations n).register <;> simp_all
  simp only [Cancellation.next, State.dropSection, lifeNext]
  by_cases last : (s.registrations n).cb.refcount - 1 = 0
  · rw [if_pos last, if_pos last]
    apply ok.dispatch n k
    · cases entry
      constructor <;> grind
    · exact ok.lists.settle k t n rest here rfl rfl rfl rfl
    · rfl
    · simp [Registration.holdsToken, returned, unreclaimed]
    · simp [unreclaimed]
    · rfl
    · simp [here]
    · intro _
      exact Or.inr rfl
    · simp [here]
  · rw [if_neg last, if_neg last]
    apply ok.dispatch n k
    · cases entry
      constructor <;> grind
    · exact ok.lists.settle k t n rest here rfl rfl rfl rfl
    · rfl
    · rfl
    · rfl
    · rfl
    · simp [here]
    · intro flight
      rw [unreclaimed] at flight
      cases flight
    · simp [here]

/-- `sNodeFree` moves on, short of giving its token reference back. -/
theorem reclaimStep (ok : Consistent s life owners fate) {n : NodeId} {entry : Registration}
    (reclaimed : (s.registrations n).reclaim ≠ .idle) (described : LocalOk (life n) entry)
    (token : entry.cb.token = s.tokenOf n)
    (register : entry.register = (s.registrations n).register)
    (before : (s.registrations n).reclaim ≠ .walking ∧ (s.registrations n).reclaim ≠ .done)
    (after : entry.reclaim ≠ .walking ∧ entry.reclaim ≠ .done)
    (flight : (s.registrations n).reclaim.inFlight = true)
    (unregister : entry.unregister = (s.registrations n).unregister) :
    Consistent (s.setRegistration n entry) life owners fate := by
  have returned := ((ok.entries n).consumed reclaimed).2.1
  have advanced := ok.advance n (life n) _ described token
    (by
      rcases before with ⟨notWalking, notDone⟩
      rcases after with ⟨notWalkingAfter, notDoneAfter⟩
      simp only [Registration.holdsToken, register, returned])
    (by simp [before.1, after.1]) (Or.inl rfl) (by rw [register]; exact id)
    (by intro _; rw [unregister]; exact ok.reclaimer n flight)
  rwa [Function.update_eq_self] at advanced

/-- Each event keeps the description, moving the phases as `lifeNext` says. -/
theorem next (ok : Consistent s life owners fate) (event : Event) (may : enabled s event) :
    Exists fun newOwners => Exists fun newFate =>
      Consistent (Cancellation.next s event) (lifeNext s life event) newOwners newFate := by
  cases event with
  | create t => exact ⟨_, _, ok.create may⟩
  | retain t => exact ⟨_, _, ok.retain may⟩
  | registerRefused n t =>
      refine ⟨owners, fate, ?_⟩
      have entry := ok.entries n
      have absent := entry.absent.mpr (Or.inl may.1)
      have advanced := ok.advance n (life n)
        { s.registrations n with register := .refused }
        (by cases entry; constructor <;> grind) rfl
        (by simp [Registration.holdsToken, may.1]) Iff.rfl (Or.inl rfl)
        (fun flight => by cases flight)
        (ok.reclaimer n)
      rwa [Function.update_eq_self] at advanced
  | registerAlloc n t hook => exact ⟨_, _, ok.registerAlloc hook may.1 may.2⟩
  | registerRetain n => exact ⟨_, _, ok.registerRetain may⟩
  | registerLock n => exact ⟨_, _, ok.registerLock may⟩
  | registerCall n =>
      have entry := ok.entries n
      have calling := entry.calling.mpr may
      have here : (s.registrations n).register = .calling := may
      exact ⟨_, _, ok.advance n _ _
        (by cases entry; constructor <;> grind) rfl
        (by simp [Registration.holdsToken, here]) Iff.rfl
        (Or.inr ⟨by rw [calling]; rfl, rfl⟩)
        (fun _ => by rw [here]; rfl) (ok.reclaimer n)⟩
  | registerCallReturned n =>
      have entry := ok.entries n
      have running := entry.inlineRunning.mpr may
      have here : (s.registrations n).register = .running := may
      have unreclaimed : (s.registrations n).reclaim = .idle := by
        by_contra reclaimed
        have := (entry.consumed reclaimed).2.1
        rw [here] at this
        cases this
      exact ⟨_, _, ok.advance n _ _
        (by cases entry; constructor <;> grind) rfl
        (by simp [Registration.holdsToken, here, unreclaimed]) Iff.rfl
        (Or.inr ⟨by rw [running]; rfl, rfl⟩)
        (fun flight => by cases flight) (ok.reclaimer n)⟩
  | unregisterLock n => exact ⟨_, _, ok.unregisterLock may.1 may.2⟩
  | unregisterReturn n won =>
      refine ⟨owners, fate, ?_⟩
      have entry := ok.entries n
      have advanced := ok.advance n (life n)
        { s.registrations n with unregister := .returned won }
        (by cases entry; have := may.1; constructor <;> grind) rfl rfl Iff.rfl (Or.inl rfl) id
        (fun flight => by rw [may.2] at flight; cases flight)
      rwa [Function.update_eq_self] at advanced
  | cancelLock k t => exact ⟨_, _, ok.cancelLock may.1 may.2⟩
  | cancelCall k t n rest =>
      have here : s.cancel k = .dispatching t (n :: rest) := may
      have entry := ok.entries n
      have detached := (ok.lists.pendingMem k n).mp (by simp [here])
      have unreclaimed := entry.unreclaimed (by rw [detached]; rfl)
      exact ⟨_, _, ok.dispatch n k (by cases entry; constructor <;> grind)
        (ok.lists.begin k t n rest here) rfl rfl Iff.rfl rfl (by simp [here])
        (fun flight => by rw [unreclaimed] at flight; cases flight) (by simp [here])⟩
  | cancelCallReturned k t n rest =>
      have here : s.cancel k = .running t n rest := may
      have entry := ok.entries n
      have running := (ok.lists.running k n).mp (by simp [here])
      have unreclaimed := entry.unreclaimed (by rw [running]; rfl)
      exact ⟨_, _, ok.dispatch n k (by cases entry; constructor <;> grind)
        (ok.lists.finish k t n rest here) rfl rfl Iff.rfl rfl (by simp [here])
        (fun flight => by rw [unreclaimed] at flight; cases flight) (by simp [here])⟩
  | cancelDrop k t n rest => exact ⟨_, _, ok.cancelDrop may⟩
  | cancelReclaimed k t n rest =>
      exact ⟨_, _, ok.reframe k (by simp [may.1]) (by simp [may.1]) (by simp [may.1])
        (by simp [may.1]) (by simp [may.1]) (by
          intro m held
          have same : n = m := by simpa [may.1] using held
          rw [<- same, may.2]
          rfl)⟩
  | cancelReturn k t =>
      have here : s.cancel k = .dispatching t [] := may
      exact ⟨_, _, ok.reframe k (by simp [here]) (by simp [here]) (by simp [here])
        (by simp [here]) (by simp [here]) (by simp [here])⟩
  | nodeFree n =>
      have here : (s.registrations n).reclaim = .freeing := may
      exact ⟨_, _, ok.reclaimStep (by simp [here]) (by cases ok.entries n; constructor <;> grind)
        rfl rfl (by simp [here]) (by constructor <;> simp only <;> split <;> simp)
        (by rw [here]; rfl) rfl⟩
  | hookCall n =>
      have here : (s.registrations n).reclaim = .hook := may
      exact ⟨_, _, ok.reclaimStep (by simp [here]) (by cases ok.entries n; constructor <;> grind)
        rfl rfl (by simp [here]) (by simp) (by rw [here]; rfl) rfl⟩
  | hookReturned n =>
      have here : (s.registrations n).reclaim = .hookRunning := may
      exact ⟨_, _, ok.reclaimStep (by simp [here]) (by cases ok.entries n; constructor <;> grind)
        rfl rfl (by simp [here]) (by simp) (by rw [here]; rfl) rfl⟩
  | nodeTokenRelease n => exact ⟨_, _, ok.nodeTokenRelease may⟩
  | nodeTokenWalk n => exact ⟨_, _, ok.nodeTokenWalk may⟩
  | destroyRelease d t => exact ⟨_, _, ok.destroyRelease may.1 may.2⟩
  | destroyWalk d t => exact ⟨_, _, ok.destroyWalk may⟩

end Consistent

theorem consistent_start : Consistent start (fun _ => .absent) (fun _ => ∅) (fun _ => .absent) := by
  constructor
  · intro n
    constructor <;> simp [start, Life.started, Life.finished, ReclaimFrame.freed]
  · constructor <;> simp [start, State.heads]
  · constructor <;>
      simp [start, State.refcounts, State.clients, State.holds, State.walkers, State.frees,
        Registration.holdsToken]
  · simp [start, State.created]
  · simp [start]
  · simp [start, RegisterFrame.inFlight]
  · simp [start]
  · simp [start, ReclaimFrame.inFlight]

/-- The refinement, for every interleaving of any calls. -/
theorem reachable_consistent {s : State} (reached : machine.Reachable s) :
    Exists fun life => Exists fun owners => Exists fun fate => Consistent s life owners fate := by
  refine reached.invariant (fun s => Exists fun life => Exists fun owners =>
    Exists fun fate => Consistent s life owners fate) ?_ ?_
  · intro s initial
    rw [show s = start from initial]
    exact ⟨_, _, _, consistent_start⟩
  · intro s event _ described may
    rcases described with ⟨life, owners, fate, ok⟩
    rcases ok.next event may with ⟨newOwners, newFate, kept⟩
    exact ⟨_, newOwners, newFate, kept⟩

end Cancellation
end UfsrvRx
