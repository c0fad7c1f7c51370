import IoHdlc.Core.AppEvents
import IoHdlc.Core.UCommandOnWire

/-!
The threads in `ioHdlcStationLinkUpEx`.

A call is cut where it waits, and where it reads what the workers write without a lock: the
flags of its listener, then the connection of its peer for each of the two flags. A run also
records whose set-mode command is in `um_cmd` of a peer, and whose went out last.
-/

namespace IoHdlc

/-- How a call ends that does not wait, and what it leaves behind. -/
theorem linkUpStart_returns {l : Link} {mode : Mode} {nrmOnly : Bool} {result : Except Errno Unit}
    (h : (linkUpStart l mode nrmOnly).2 = .returns result) :
    (result = .error .EISCONN ∧ l.p.ssState.stConn = true ∧ (linkUpStart l mode nrmOnly).1 = l) ∨
      (result = .ok () ∧ l.p.ssState.stConn = false ∧ l.s.flags.pri = false ∧ mode ≠ .abm ∧
        (linkUpStart l mode nrmOnly).1 = l) ∨
      (result = .error .ENOTSUP ∧ (linkUpStart l mode nrmOnly).1 =
        { l with s := { l.s with flags := { l.s.flags with pri := true } } }) ∨
      (result = .error .EINVAL ∧ (linkUpStart l mode nrmOnly).1 = l) := by
  generalize hr : linkUpStart l mode nrmOnly = r at h ⊢
  simp only [linkUpStart] at hr
  split at hr
  next hconn =>
    subst hr
    cases h
    exact .inl ⟨rfl, hconn, rfl⟩
  next hconn =>
    split at hr
    next hsec =>
      subst hr
      cases h
      obtain ⟨hpri, hmode⟩ := hsec
      rw [Bool.not_eq_true'] at hpri
      exact .inr (.inl ⟨rfl, Bool.eq_false_iff.mpr hconn, hpri, hmode, rfl⟩)
    split at hr
    next hport =>
      subst hr
      cases h
      refine .inr (.inr (.inl ⟨rfl, ?_⟩))
      rw [decide_eq_true hport.2, Bool.or_true]
    split at hr
    next hmode =>
      subst hr
      cases h
      have habm : mode ≠ .abm := by
        rintro rfl
        cases hmode
      refine .inr (.inr (.inr ⟨rfl, ?_⟩))
      rw [decide_eq_false habm, Bool.or_false]
    · subst hr
      cases h

/-- The mode, the role flag and the receive handler of a station. -/
structure Roles where
  mode : Mode
  pri : Bool
  rxFn : Option RxFn
  deriving DecidableEq

def Station.roles (s : Station) : Roles := ⟨s.mode, s.flags.pri, s.rxFn⟩

/-- The application events that a call listens for. -/
def linkEvents : Finset AppEvt := {.linkUp, .linkRefused}

/-- Where a call is. -/
inductive UpPc where
  | waits
  /-- It has fetched the flags of its listener. -/
  | fetched (flags : Finset AppEvt)
  /-- It took no connection from the flags, and they hold a refusal. -/
  | refused
  deriving DecidableEq

/-- A call that waits, with what it found when it began, whether its peer was connected since,
and whether its command was answered with DM. -/
structure UpCall (n : Nat) where
  id : Nat
  call : LinkUpCall n
  before : Roles
  listener : Finset AppEvt
  pc : UpPc
  reached : Bool
  answered : Bool

namespace UpCall

variable {n : Nat}

/-- The flags of the refusals that a call has not tested yet. -/
def sawRefusal (c : UpCall n) : Bool :=
  .linkRefused ∈ c.listener ||
    match c.pc with
    | .waits => false
    | .fetched flags => .linkRefused ∈ flags
    | .refused => true

variable {c : UpCall n} {flags : Finset AppEvt}

theorem sawRefusal_fetch (h : c.pc = .waits) :
    ({ c with pc := .fetched c.listener, listener := ∅ } : UpCall n).sawRefusal = c.sawRefusal := by
  simp [sawRefusal, h]

theorem sawRefusal_test (h : c.pc = .fetched flags) :
    ({ c with pc := if .linkRefused ∈ flags then .refused else .waits } : UpCall n).sawRefusal =
      c.sawRefusal := by
  rw [sawRefusal, sawRefusal, h]
  by_cases hflags : .linkRefused ∈ flags
  · simp only [if_pos hflags, decide_eq_true hflags]
  · simp only [if_neg hflags, decide_eq_false hflags]

end UpCall

/-- A node with its calls. -/
structure WithCalls (n : Nat) where
  node : Node n
  calls : List (UpCall n)
  owner : Fin n → Option Nat
  wire : Fin n → Option Nat
  nextId : Nat

/-- What a thread in the call does, or anything else. -/
inductive CallAction (n : Nat) where
  | node (a : Action n)
  | start (i : Fin n) (mode : Mode) (nrmOnly : Bool)
  | fetch (id : Nat)
  | testUp (id : Nat)
  | testRefused (id : Nat)
  | timeout (id : Nat)

/-- The actions of a node that are those of a call. -/
def Action.isLinkUp {n : Nat} : Action n → Bool
  | .linkUp _ _ _ | .linkUpDone _ | .linkUpFails _ => true
  | _ => false

namespace WithCalls

variable {n : Nat}

def find (g : WithCalls n) (id : Nat) : Option (UpCall n) := g.calls.find? (·.id = id)

/-- The flags that an action adds to a listener. -/
def published (g : WithCalls n) (nd' : Node n) : Finset AppEvt :=
  (nd'.s.appEs.take (nd'.s.appEs.length - g.node.s.appEs.length)).toFinset ∩ linkEvents

/-- What a call is told by another thread. -/
def observe (g : WithCalls n) (a : Action n) (nd' : Node n) (c : UpCall n) : UpCall n :=
  { c with
    listener := c.listener ∪ g.published nd'
    reached := c.reached || (nd'.peer c.call.peer).ssState.stConn
    answered := c.answered || (g.node.refusal a && g.wire g.node.cPeer = some c.id) }

/-- The call whose set-mode command goes out. -/
def sends (g : WithCalls n) (a : Action n) : Option (Option Nat) :=
  (g.node.uCommandOut a).map fun fp =>
    if fp.ctrl g.node.s.framing 0 &&& IOHDLC_U_FUN_MASK = (g.node.peer g.node.cPeer).umCmd then
      g.owner g.node.cPeer
    else none

/-- Another thread takes a step. -/
def observed (g : WithCalls n) (a : Action n) (nd' : Node n) : WithCalls n :=
  { g with
    node := nd'
    calls := g.calls.map (g.observe a nd')
    owner := fun i =>
      if (nd'.peer i).umCmd = (g.node.peer i).umCmd then g.owner i else none
    wire := fun i => if i = g.node.cPeer then (g.sends a).getD (g.wire i) else g.wire i }

/-- A call as it begins. -/
def opened (g : WithCalls n) (i : Fin n) (sMode : Mode) : UpCall n :=
  { id := g.nextId
    call := ⟨i, sMode⟩
    before := g.node.s.roles
    listener := ∅
    pc := .waits
    reached := false
    answered := false }

/-- A call goes on. -/
def setCall (g : WithCalls n) (c : UpCall n) : WithCalls n :=
  { g with calls := g.calls.map fun c' => if c'.id = c.id then c else c' }

/-- A call ends. -/
def endCall (g : WithCalls n) (id : Nat) (nd' : Node n) : WithCalls n :=
  { g with node := nd', calls := g.calls.filter (·.id ≠ id) }

/-- The tests of `ioHdlcStationLinkUpEx` on the flags. -/
def next (g : WithCalls n) : CallAction n → Option (WithCalls n)
  | .node a =>
    if a.isLinkUp then none else (g.node.act a).map fun r => g.observed a r.1
  | .start i mode nrmOnly =>
    (g.node.act (.linkUp i mode nrmOnly)).map fun r =>
      match (linkUpStart (g.node.link i) mode nrmOnly).2 with
      | .returns _ => { g with node := r.1 }
      | .waits sMode =>
        { g with
          node := r.1
          calls := g.opened i sMode :: g.calls
          owner := Function.update g.owner i (some g.nextId)
          nextId := g.nextId + 1 }
  | .fetch id => (g.find id).bind fun c =>
    match c.pc with
    | .waits => some (g.setCall { c with pc := .fetched c.listener, listener := ∅ })
    | _ => none
  | .testUp id => (g.find id).bind fun c =>
    match c.pc with
    | .fetched flags =>
      if .linkUp ∈ flags ∧ (g.node.peer c.call.peer).isDisc = false then
        (g.node.act (.linkUpDone c.call)).map fun r => g.endCall id r.1
      else some (g.setCall { c with pc := if .linkRefused ∈ flags then .refused else .waits })
    | _ => none
  | .testRefused id => (g.find id).bind fun c =>
    match c.pc with
    | .refused =>
      if (g.node.peer c.call.peer).isDisc then
        (g.node.act (.linkUpFails c.call)).map fun r => g.endCall id r.1
      else some (g.setCall { c with pc := .waits })
    | _ => none
  | .timeout id => (g.find id).bind fun c =>
    match c.pc with
    | .waits => (g.node.act (.linkUpFails c.call)).map fun r => g.endCall id r.1
    | _ => none

/-- What a call returns, if it does. -/
def returned (g : WithCalls n) : CallAction n → Option (Except Errno Unit × UpCall n)
  | .start i mode nrmOnly =>
    match (linkUpStart (g.node.link i) mode nrmOnly).2 with
    | .returns result => some (result, g.opened i .unset)
    | .waits _ => none
  | .testUp id => (g.find id).bind fun c =>
    match c.pc with
    | .fetched flags =>
      if .linkUp ∈ flags ∧ (g.node.peer c.call.peer).isDisc = false then some (.ok (), c) else none
    | _ => none
  | .testRefused id => (g.find id).bind fun c =>
    match c.pc with
    | .refused =>
      if (g.node.peer c.call.peer).isDisc then some (.error .ECONNREFUSED, c) else none
    | _ => none
  | .timeout id => (g.find id).bind fun c =>
    match c.pc with
    | .waits => some (.error .ETIMEDOUT, c)
    | _ => none
  | _ => none

structure Fresh (g : WithCalls n) : Prop where
  node : g.node.Fresh
  calls : g.calls = []
  owner : ∀ i, g.owner i = none

def Moves (ok : WithCalls n → CallAction n → Prop) (g g' : WithCalls n) : Prop :=
  ∃ a, ok g a ∧ g.next a = some g'

/-- Whatever may happen. -/
def Anything (_ : WithCalls n) (_ : CallAction n) : Prop := True

/-! ### What a step does to the calls -/

variable {g g' : WithCalls n} {a : CallAction n} {c c' : UpCall n}

theorem find_mem {id : Nat} (h : g.find id = some c) : c ∈ g.calls ∧ c.id = id :=
  ⟨List.mem_of_find?_eq_some h, by simpa using List.find?_some h⟩

/-- The events of a step are what a listener hears. -/
theorem published_refused {nd' : Node n} {refused : Prop} (h : g.node.Tells refused nd')
    (hmem : .linkRefused ∈ g.published nd') : refused := by
  obtain ⟨es, hes, hwhy⟩ := (h g.node.cPeer g.node.cPeer).events
  rw [Node.link_s, Node.link_s] at hes
  rw [published, hes, List.length_append, Nat.add_sub_cancel, List.take_left'  rfl] at hmem
  exact hwhy (List.mem_toFinset.mp (Finset.mem_inter.mp hmem).1)

/-- A station with two peers right after set-up. -/
def twoPeers (mode : Mode) (flags : StationFlags) : WithCalls 2 :=
  let s := initialStation mode flags (.mod8 0 Framing.zero_le_two) 2 true 100 200 1
  { node :=
      { s := s
        peer := fun i => initialPeer s 128 8 (if i = 0 then 2 else 3)
        cPeer := 0
        pc := .sched (.idle ∅)
        writer := fun _ => .idle
        linkUps := [] }
    calls := []
    owner := fun _ => none
    wire := fun _ => none
    nextId := 0 }

theorem fresh_twoPeers (mode : Mode) (hmode : mode = .ndm ∨ mode = .adm) (flags : StationFlags) :
    (twoPeers mode flags).Fresh :=
  { node :=
      { station := ⟨mode, flags, _, _, _, _, _, _, hmode, rfl⟩
        peer := fun _ => ⟨_, _, _, rfl⟩
        pc := rfl
        writer := fun _ => rfl
        linkUps := rfl }
    calls := rfl
    owner := fun _ => rfl }

theorem setCall_mem (h : c' ∈ (g.setCall c).calls) : c' = c ∨ c' ∈ g.calls := by
  obtain ⟨c₁, hc₁, rfl⟩ := List.mem_map.mp h
  split
  · exact .inl rfl
  · exact .inr hc₁

theorem endCall_mem {id : Nat} {nd' : Node n} (h : c' ∈ (g.endCall id nd').calls) :
    c' ∈ g.calls :=
  (List.mem_filter.mp h).1

/-- The return of a call leaves the peers alone. -/
theorem return_peer {nd nd' : Node n} {a : Action n} {call : LinkUpCall n} {sent : List Frame}
    (ha : a = .linkUpDone call ∨ a = .linkUpFails call) (h : nd.act a = some (nd', sent)) :
    nd'.peer = nd.peer := by
  rcases ha with rfl | rfl
  · simp only [Node.act] at h
    split at h
    · cases h
      rfl
    · cases h
  · simp only [Node.act] at h
    split at h
    · cases h
      rfl
    · cases h

/-- The begin of a call connects nobody, and one that waits found its peer disconnected. -/
theorem start_stConn {nd nd' : Node n} {i : Fin n} {mode : Mode} {nrmOnly : Bool}
    {sent : List Frame} (h : nd.act (.linkUp i mode nrmOnly) = some (nd', sent)) :
    (∀ j, (nd'.peer j).ssState.stConn = (nd.peer j).ssState.stConn) ∧
      ∀ sMode, (linkUpStart (nd.link i) mode nrmOnly).2 = .waits sMode →
        (nd.peer i).ssState.stConn = false := by
  have hpeer : nd'.peer = (nd.setLink i (linkUpStart (nd.link i) mode nrmOnly).1).peer := by
    cases h
    split <;> rfl
  have hstart : (linkUpStart (nd.link i) mode nrmOnly).1.p.ssState.stConn =
        (nd.peer i).ssState.stConn ∧
      ∀ sMode, (linkUpStart (nd.link i) mode nrmOnly).2 = .waits sMode →
        (nd.peer i).ssState.stConn = false := by
    rcases linkUpStart_cases (nd.link i) mode nrmOnly with
      ⟨result, hret, hsame⟩ | ⟨sMode, -, hconn, hconn', -⟩
    · refine ⟨hsame.stConn, fun sMode hwait => ?_⟩
      rw [hret] at hwait
      cases hwait
    · exact ⟨hconn'.trans hconn.symm, fun _ _ => hconn⟩
  refine ⟨fun j => ?_, hstart.2⟩
  rw [hpeer]
  by_cases hj : j = i
  · subst hj
    rw [Node.setLink_peer_self]
    exact hstart.1
  · rw [Node.setLink_peer_of_ne nd _ hj]

end WithCalls

end IoHdlc
