import IoHdlc.Core.PeerList
import IoHdlc.Station.BufferFit

/-!
The peers of a station while it is set up.

`ioHdlcAddPeer` looks for the address in the circular list and links the descriptor behind its
last element. Whatever calls are made, the list holds the accepted descriptors in their order,
`ioHdlcAddr2peer` finds each by its address and nothing else, and the station with its peers is
one that the runs of a `Node` begin with.
-/

namespace IoHdlc

open Kit

namespace PeerRing

variable {P : Type}

/-- The loop of `ioHdlcAddr2peer` from a node of the list on, with at most `fuel` turns. -/
def addr2peerLoop (s : PeerRing P) (peerAddr : UInt32) : Nat → Option P → Option (Option P)
  | 0, _ => none
  | _ + 1, none => some none
  | fuel + 1, some p =>
    if (s.peer p).addr = peerAddr then some (some p)
    else addr2peerLoop s peerAddr fuel (s.peers.next (some p))

/-- `ioHdlcAddr2peer`. -/
def ioHdlcAddr2peer (s : PeerRing P) (peerAddr : UInt32) (fuel : Nat) : Option (Option P) :=
  s.addr2peerLoop peerAddr fuel (s.peers.next none)

/-- The station behind `ioHdlc_peerl_init`; the descriptors hold anything. -/
def init [DecidableEq P] (links : PeerList P) (peer : P → Peer) : PeerRing P :=
  { peers := links.init, peer := peer, cPeer := none }

/-- A descriptor comes behind the last one. -/
def addPeer [DecidableEq P] (s : PeerRing P) (peer : P) (content : Peer) : PeerRing P where
  peers := s.peers.addPeer peer
  peer := Function.update s.peer peer content
  cPeer := if s.cPeer.isNone then some peer else s.cPeer

section LookUp

variable {s : PeerRing P} {peerAddr : UInt32} {fuel : Nat} {head r : Option P} {ps : List P}

/-- What the loop returns is the first peer with the address. -/
theorem addr2peerLoop_find (h : Linked (fun p => s.peers.next (some p)) head ps)
    (hret : s.addr2peerLoop peerAddr fuel head = some r) :
    r = ps.find? fun p => (s.peer p).addr = peerAddr := by
  induction ps generalizing fuel head with
  | nil =>
    obtain rfl : head = none := h
    cases fuel with
    | zero => cases hret
    | succ fuel => exact (Option.some.inj hret).symm
  | cons p ps ih =>
    obtain ⟨rfl, hrest⟩ := h
    cases fuel with
    | zero => cases hret
    | succ fuel =>
      rw [addr2peerLoop] at hret
      rw [List.find?_cons]
      by_cases haddr : (s.peer p).addr = peerAddr
      · rw [if_pos haddr] at hret
        rw [decide_eq_true haddr]
        exact (Option.some.inj hret).symm
      · rw [if_neg haddr] at hret
        rw [decide_eq_false haddr]
        exact ih hrest hret

/-- It returns within as many turns as the list has elements, and one for the header. -/
theorem addr2peerLoop_returns (h : Linked (fun p => s.peers.next (some p)) head ps)
    (hfuel : ps.length < fuel) : ∃ r, s.addr2peerLoop peerAddr fuel head = some r := by
  induction ps generalizing fuel head with
  | nil =>
    obtain rfl : head = none := h
    cases fuel with
    | zero => cases hfuel
    | succ fuel => exact ⟨none, rfl⟩
  | cons p ps ih =>
    obtain ⟨rfl, hrest⟩ := h
    cases fuel with
    | zero => cases hfuel
    | succ fuel =>
      rw [addr2peerLoop]
      split
      · exact ⟨some p, rfl⟩
      · exact ih hrest (Nat.lt_of_succ_lt_succ hfuel)

theorem ioHdlcAddr2peer_eq (h : s.peers.Lists ps) (hfuel : ps.length < fuel) :
    s.ioHdlcAddr2peer peerAddr fuel = some (ps.find? fun p => (s.peer p).addr = peerAddr) := by
  obtain ⟨r, hr⟩ : ∃ r, s.ioHdlcAddr2peer peerAddr fuel = some r :=
    addr2peerLoop_returns h.linked hfuel
  rw [hr, addr2peerLoop_find h.linked hr]

end LookUp

end PeerRing

/-- `ioHdlcPeerSetWindow`; the receive window `kr` is checked, and nothing reads it. -/
def ioHdlcPeerSetWindow (framing : Framing) (p : Peer) (ks kr : UInt32) : Except Errno Peer :=
  if ks = 0 ∨ ks > framing.modmask ∨ kr = 0 ∨ kr > framing.modmask then .error .EINVAL
  else .ok { p with ks := ks }

/-- The calls that set the peers up. The caller allocates the descriptors. -/
inductive SetUpCall (P : Type) where
  | addPeer (peer : P) (addr : UInt32) (fuel : Nat)
  | setWindow (peer : P) (ks kr : UInt32)

/-- The descriptors that a call has accepted. -/
def SetUpCall.added {P : Type} : SetUpCall P → Except Errno Unit → List P
  | .addPeer peer _ _, .ok () => [peer]
  | _, _ => []

@[simp] theorem SetUpCall.added_error {P : Type} (c : SetUpCall P) (e : Errno) :
    c.added (.error e) = [] := by
  cases c <;> rfl

@[simp] theorem SetUpCall.added_setWindow {P : Type} (peer : P) (ks kr : UInt32)
    (result : Except Errno Unit) : (SetUpCall.setWindow peer ks kr).added result = [] := rfl

/-- A station while it is set up, and the descriptors it has accepted, in their order. -/
structure SetUp (P : Type) where
  ring : PeerRing P
  added : List P

namespace SetUp

variable {P : Type} [DecidableEq P]

/-- A call: the station behind it, and what it returns. -/
def call (init : Initialised) (s : PeerRing P) :
    SetUpCall P → Option (PeerRing P × Except Errno Unit)
  | .addPeer peer addr fuel =>
    if ¬init.station.flags.pri ∧ init.station.mode ≠ .ndm ∧ init.station.mode ≠ .adm then
      some (s, .error .EINVAL)
    else
      (s.ioHdlcAddr2peer addr fuel).map fun found =>
        if found.isSome then (s, .error .EEXIST)
        else
          (s.addPeer peer
            (initialPeer init.station init.driver.framesize init.pollRetryMaxCfg addr), .ok ())
  | .setWindow peer ks kr =>
    match ioHdlcPeerSetWindow init.station.framing (s.peer peer) ks kr with
    | .error e => some (s, .error e)
    | .ok p => some ({ s with peer := Function.update s.peer peer p }, .ok ())

omit [DecidableEq P] in
/-- What the caller owes: a new descriptor is not one of the list, and a window is set for one
that is. -/
def Proper (s : PeerRing P) : SetUpCall P → Prop
  | .addPeer peer _ _ => ∀ ps, s.peers.Lists ps → peer ∉ ps
  | .setWindow peer _ _ => ∃ ps, s.peers.Lists ps ∧ peer ∈ ps

def Begins (g : SetUp P) : Prop := (∃ links peer, g.ring = .init links peer) ∧ g.added = []

def Moves (init : Initialised) (g g' : SetUp P) : Prop :=
  ∃ c result, Proper g.ring c ∧ call init g.ring c = some (g'.ring, result) ∧
    g'.added = g.added ++ c.added result

omit [DecidableEq P] in
/-- A descriptor as `ioHdlcAddPeer` fills it, with a window of its own. -/
def IsPeer (init : Initialised) (p : Peer) : Prop :=
  ∃ addr ks, 0 < ks ∧ ks ≤ init.station.framing.modmask ∧
    p = { initialPeer init.station init.driver.framesize init.pollRetryMaxCfg addr with ks := ks }

omit [DecidableEq P] in
/-- The peers of the station, in the order in which they were added. -/
structure Holds (init : Initialised) (s : PeerRing P) (ps : List P) : Prop where
  lists : s.peers.Lists ps
  first : s.cPeer = ps.head?
  peer : ∀ p ∈ ps, IsPeer init (s.peer p)
  distinct : (ps.map fun p => (s.peer p).addr).Nodup

section Steps

variable {init : Initialised} {g g' : SetUp P} {s s' : PeerRing P} {ps : List P}

theorem holds_init (links : PeerList P) (peer : P → Peer) :
    Holds init (PeerRing.init links peer) [] where
  lists := .init links
  first := rfl
  peer := by simp
  distinct := List.nodup_nil

omit [DecidableEq P] in
/-- Two lists along the same links are the same. -/
theorem lists_unique {l : PeerList P} {qs : List P} (h : l.Lists ps) (h' : l.Lists qs) :
    ps = qs := by
  have hp := h.linked
  have hq := h'.linked
  clear h h'
  generalize l.next none = head at hp hq
  induction ps generalizing head qs with
  | nil =>
    obtain rfl : head = none := hp
    exact (Linked.nil_iff.mp hq).symm
  | cons p ps ih =>
    obtain ⟨rfl, hrest⟩ := hp
    obtain ⟨rest, rfl, hrest'⟩ := hq.of_some
    rw [ih _ hrest hrest']

theorem isPeer_initial (init : Initialised) (addr : UInt32) :
    IsPeer init (initialPeer init.station init.driver.framesize init.pollRetryMaxCfg addr) := by
  refine ⟨addr, init.station.framing.modmask, ?_, UInt32.le_refl _, rfl⟩
  rcases init.station.framing.layout with ⟨h, -, -⟩ | ⟨h, -, -⟩ <;> rw [h] <;> decide

/-- The addresses stay different when one comes that none of the peers has. -/
theorem addrs_addPeer {peer : P} {content : Peer}
    (hdistinct : (ps.map fun p => (s.peer p).addr).Nodup) (hnew : peer ∉ ps)
    (hfree : ∀ p ∈ ps, (s.peer p).addr ≠ content.addr) :
    ((ps ++ [peer]).map fun p => ((s.addPeer peer content).peer p).addr).Nodup := by
  have hsame : ps.map (fun p => (Function.update s.peer peer content p).addr) =
      ps.map fun p => (s.peer p).addr :=
    List.map_congr_left fun p hp =>
      congrArg Peer.addr (Function.update_of_ne (ne_of_mem_of_not_mem hp hnew) _ _)
  change (List.map (fun p => (Function.update s.peer peer content p).addr) _).Nodup
  rw [List.map_append, hsame, List.nodup_append_comm, List.map_singleton, List.singleton_append,
    List.nodup_cons, Function.update_self]
  refine ⟨fun hmem => ?_, hdistinct⟩
  obtain ⟨p, hp, haddr⟩ := List.mem_map.mp hmem
  exact hfree p hp haddr

/-- A call for a new descriptor is refused, or none of the peers has its address. -/
theorem call_addPeer {peer : P} {addr : UInt32} {fuel : Nat} {result : Except Errno Unit}
    (h : s.peers.Lists ps) (hcall : call init s (.addPeer peer addr fuel) = some (s', result)) :
    (∃ e, result = .error e ∧ s' = s) ∨
      result = .ok () ∧ (∀ p ∈ ps, (s.peer p).addr ≠ addr) ∧ s' = s.addPeer peer
        (initialPeer init.station init.driver.framesize init.pollRetryMaxCfg addr) := by
  simp only [call] at hcall
  split at hcall
  · cases hcall
    exact .inl ⟨_, rfl, rfl⟩
  · obtain ⟨found, hfound, hcall⟩ := Option.map_eq_some_iff.mp hcall
    split at hcall
    · cases hcall
      exact .inl ⟨_, rfl, rfl⟩
    next hnone =>
      cases hcall
      refine .inr ⟨rfl, fun p hp haddr => hnone ?_, rfl⟩
      rw [PeerRing.addr2peerLoop_find h.linked hfound]
      exact List.find?_isSome.mpr ⟨p, hp, decide_eq_true haddr⟩

/-- A descriptor that was refused nowhere comes last. -/
theorem Holds.addPeer (h : Holds init s ps) {peer : P} {addr : UInt32} (hnew : peer ∉ ps)
    (hfree : ∀ p ∈ ps, (s.peer p).addr ≠ addr) :
    Holds init (s.addPeer peer
      (initialPeer init.station init.driver.framesize init.pollRetryMaxCfg addr)) (ps ++ [peer]) := by
  constructor
  case lists => exact h.lists.addPeer hnew
  case first =>
    change (if s.cPeer.isNone then some peer else s.cPeer) = _
    rw [h.first]
    cases ps <;> rfl
  case peer =>
    intro p hp
    change IsPeer init (Function.update s.peer peer _ p)
    rcases List.mem_append.mp hp with hp | hp
    · rw [Function.update_of_ne (ne_of_mem_of_not_mem hp hnew)]
      exact h.peer p hp
    · rw [List.mem_singleton.mp hp, Function.update_self]
      exact isPeer_initial init addr
  case distinct => exact addrs_addPeer h.distinct hnew hfree

/-- A window is changed, and nothing else. -/
theorem Holds.setWindow (h : Holds init s ps) {peer : P} {ks : UInt32} (hpos : 0 < ks)
    (hle : ks ≤ init.station.framing.modmask) :
    Holds init { s with peer := Function.update s.peer peer { s.peer peer with ks := ks } } ps := by
  have haddr (p : P) :
      (Function.update s.peer peer { s.peer peer with ks := ks } p).addr = (s.peer p).addr := by
    by_cases hp : p = peer
    · subst hp
      rw [Function.update_self]
    · rw [Function.update_of_ne hp]
  refine ⟨h.lists, h.first, fun p hp => ?_, ?_⟩
  · dsimp only
    by_cases heq : p = peer
    · subst heq
      rw [Function.update_self]
      obtain ⟨addr, ks', -, -, hcontent⟩ := h.peer p hp
      rw [hcontent]
      exact ⟨addr, ks, hpos, hle, rfl⟩
    · rw [Function.update_of_ne heq]
      exact h.peer p hp
  · rw [List.map_congr_left fun p _ => haddr p]
    exact h.distinct

theorem holds_step (h : Holds init g.ring g.added) (hmove : Moves init g g') :
    Holds init g'.ring g'.added := by
  obtain ⟨c, result, hproper, hcall, hadded⟩ := hmove
  rw [hadded]
  cases c with
  | addPeer peer addr fuel =>
    rcases call_addPeer h.lists hcall with ⟨e, rfl, hring⟩ | ⟨rfl, hfree, hring⟩
    · rw [hring, SetUpCall.added_error, List.append_nil]
      exact h
    · rw [hring]
      exact h.addPeer (hproper g.added h.lists) hfree
  | setWindow peer ks kr =>
    rw [SetUpCall.added_setWindow, List.append_nil]
    simp only [call] at hcall
    split at hcall
    · obtain ⟨hring, -⟩ := Prod.mk.inj (Option.some.inj hcall)
      rw [← hring]
      exact h
    next p hp =>
      obtain ⟨hring, -⟩ := Prod.mk.inj (Option.some.inj hcall)
      rw [← hring]
      rw [ioHdlcPeerSetWindow] at hp
      split at hp
      · cases hp
      next hok =>
        cases hp
        simp only [not_or] at hok
        exact h.setWindow (UInt32.pos_iff_ne_zero.mpr hok.1) (UInt32.not_lt.mp hok.2.1)

end Steps

/-! ### What the calls leave -/

/-- The station with its peers, before its runner starts. -/
def node (init : Initialised) (s : PeerRing P) (ps : List P) (h : 0 < ps.length) : Node ps.length where
  s := init.station
  peer i := s.peer (ps.get i)
  cPeer := ⟨0, h⟩
  pc := .sched (.idle ∅)
  writer _ := .idle
  linkUps := []

/-- What a station knows of its peers. -/
structure Directory (init : Initialised) (s : PeerRing P) (ps : List P) : Prop
    extends Holds init s ps where
  /-- An address finds the peer that has it, and no other. -/
  finds : ∀ addr fuel, ps.length < fuel → ∃ found, s.ioHdlcAddr2peer addr fuel = some found ∧
    ∀ p, found = some p ↔ p ∈ ps ∧ (s.peer p).addr = addr
  /-- A peer is accepted unless its address is taken. -/
  accepts : ∀ peer addr fuel, ps.length < fuel →
    ((∃ p ∈ ps, (s.peer p).addr = addr) ∧
        ioHdlcAddPeer init (ps.map s.peer) addr = .error .EEXIST ∧
        call init s (.addPeer peer addr fuel) = some (s, .error .EEXIST)) ∨
      (∀ p ∈ ps, (s.peer p).addr ≠ addr) ∧
        ∃ content, ioHdlcAddPeer init (ps.map s.peer) addr = .ok content ∧
          call init s (.addPeer peer addr fuel) = some (s.addPeer peer content, .ok ())
  /-- Runs begin here. -/
  fresh : ∀ h : 0 < ps.length,
    (∀ p ∈ ps, (s.peer p).ks = init.station.framing.modmask) → (node init s ps h).Fresh

section Sound

variable {d : SwDriver} {pl : PoolPlatform} {conf : StationConfig} {init : Initialised}
  {s : PeerRing P} {ps : List P}

omit [DecidableEq P] in
/-- The peer that has an address, if there is one. -/
theorem find_iff (hdistinct : (ps.map fun p => (s.peer p).addr).Nodup) (addr : UInt32) (p : P) :
    (ps.find? fun p => (s.peer p).addr = addr) = some p ↔ p ∈ ps ∧ (s.peer p).addr = addr := by
  constructor
  · intro h
    have haddr := List.find?_some h
    exact ⟨List.mem_of_find?_eq_some h, of_decide_eq_true haddr⟩
  · rintro ⟨hp, haddr⟩
    have hsome : (ps.find? fun p => (s.peer p).addr = addr).isSome = true :=
      List.find?_isSome.mpr ⟨p, hp, decide_eq_true haddr⟩
    obtain ⟨q, hq⟩ := Option.isSome_iff_exists.mp hsome
    have hqaddr := List.find?_some hq
    rw [decide_eq_true_eq] at hqaddr
    rw [hq, List.inj_on_of_nodup_map hdistinct (List.mem_of_find?_eq_some hq) hp
      (hqaddr.trans haddr.symm)]

theorem ioHdlcStationInit_station (h : ioHdlcStationInit d pl conf = .ok init) :
    ∃ mode flags framing fcsSize useRej replyTimeoutMs idlePollTimeoutMs addr,
      (mode = .ndm ∨ mode = .adm) ∧ init.station = initialStation mode flags framing fcsSize useRej
        replyTimeoutMs idlePollTimeoutMs addr := by
  simp only [ioHdlcStationInit] at h
  split at h
  · cases h
  next hmode =>
    rw [not_and_or, not_not, not_not] at hmode
    repeat' split at h
    all_goals cases h
    exact ⟨_, _, _, _, _, _, _, _, hmode, rfl⟩

theorem Holds.directory (h : Holds init s ps) (hinit : ioHdlcStationInit d pl conf = .ok init) :
    Directory init s ps := by
  obtain ⟨mode, flags, framing, fcsSize, useRej, replyTimeoutMs, idlePollTimeoutMs, addr₀, hmode,
    hstation⟩ := ioHdlcStationInit_station hinit
  refine { toHolds := h, finds := ?_, accepts := ?_, fresh := ?_ }
  · intro addr fuel hfuel
    exact ⟨_, PeerRing.ioHdlcAddr2peer_eq h.lists hfuel, find_iff h.distinct addr⟩
  · intro peer addr fuel hfuel
    have hdisc : ¬(¬init.station.flags.pri ∧ init.station.mode ≠ .ndm ∧ init.station.mode ≠ .adm) := by
      rw [hstation]
      rintro ⟨-, hndm, hadm⟩
      rcases hmode with hm | hm
      · exact hndm hm
      · exact hadm hm
    have htaken : (ps.map s.peer).any (·.addr = addr) = true ↔ ∃ p ∈ ps, (s.peer p).addr = addr := by
      simp only [List.any_map, List.any_eq_true, Function.comp_apply, decide_eq_true_eq]
    simp only [call, ioHdlcAddPeer, if_neg hdisc, PeerRing.ioHdlcAddr2peer_eq h.lists hfuel,
      Option.map_some]
    cases hfind : ps.find? fun p => (s.peer p).addr = addr with
    | some p =>
      have hp := (find_iff h.distinct addr p).mp hfind
      exact .inl ⟨⟨p, hp⟩, if_pos (htaken.mpr ⟨p, hp⟩), rfl⟩
    | none =>
      have hfree (p : P) (hp : p ∈ ps) : (s.peer p).addr ≠ addr := by
        intro haddr
        rw [(find_iff h.distinct addr p).mpr ⟨hp, haddr⟩] at hfind
        cases hfind
      refine .inr ⟨hfree, _, if_neg fun hany => ?_, rfl⟩
      obtain ⟨p, hp, haddr⟩ := htaken.mp hany
      exact hfree p hp haddr
  · intro hpos hks
    refine
      { station := ⟨mode, flags, framing, fcsSize, useRej, replyTimeoutMs, idlePollTimeoutMs, addr₀,
          hmode, hstation⟩
        peer := fun i => ?_
        pc := rfl
        writer := fun _ => rfl
        linkUps := rfl }
    have hmem := List.get_mem ps i
    obtain ⟨addr, ks, -, -, hcontent⟩ := h.peer _ hmem
    have hfull := hks _ hmem
    rw [hcontent] at hfull
    refine ⟨init.driver.framesize, init.pollRetryMaxCfg, addr, ?_⟩
    change s.peer (ps.get i) = initialPeer init.station _ _ _
    rw [hcontent, show ks = init.station.framing.modmask from hfull]
    rfl

/-- Whatever calls set the peers of a station up, in whatever order. -/
theorem directory_reachable {g : SetUp P} (hinit : ioHdlcStationInit d pl conf = .ok init)
    (hrun : Reachable Begins (Moves init) g) : Directory init g.ring g.added := by
  have hholds : Holds init g.ring g.added :=
    hrun.invariant (fun g => Holds init g.ring g.added)
      (fun g hg => by
        obtain ⟨⟨links, peer, hring⟩, hadded⟩ := hg
        rw [hring, hadded]
        exact holds_init links peer)
      fun _ _ hg hmove => holds_step hg hmove
  exact hholds.directory hinit

/-- A call for a new address is accepted. -/
theorem moves_addPeer (hinit : ioHdlcStationInit d pl conf = .ok init) (h : Holds init s ps)
    {peer : P} (addr : UInt32) (hnew : peer ∉ ps) (hfree : ∀ p ∈ ps, (s.peer p).addr ≠ addr) :
    ∃ content, content.addr = addr ∧ Moves init ⟨s, ps⟩ ⟨s.addPeer peer content, ps ++ [peer]⟩ := by
  rcases (h.directory hinit).accepts peer addr (ps.length + 1) (Nat.lt_succ_self _) with
    ⟨⟨p, hp, haddr⟩, -⟩ | ⟨-, content, hcontent, hcall⟩
  · exact absurd haddr (hfree p hp)
  · have hproper : Proper s (.addPeer peer addr (ps.length + 1)) := by
      intro qs hqs
      rw [← lists_unique h.lists hqs]
      exact hnew
    simp only [ioHdlcAddPeer] at hcontent
    split at hcontent
    · cases hcontent
    split at hcontent
    · cases hcontent
    · cases hcontent
      exact ⟨_, rfl, _, _, hproper, hcall, rfl⟩

end Sound

/-- A station before its first peer. -/
def empty : PeerRing (Fin 2) :=
  .init { next := id, prev := id } fun _ => (Node.onePeer .ndm {} 1 2).peer 0

/-- Two calls add the peers with the addresses 2 and 3 to a secondary. -/
theorem reachable_two : ∃ (init : Initialised) (s : PeerRing (Fin 2)),
    ioHdlcStationInit plainDriver platform64 (basicConfig none) = .ok init ∧
      Reachable Begins (Moves init) ⟨s, [0, 1]⟩ ∧
        (s.peer 0).addr = 2 ∧ (s.peer 1).addr = 3 ∧ Holds init s [0, 1] := by
  have hsetup : ∃ init, ioHdlcStationInit plainDriver platform64 (basicConfig none) = .ok init :=
    ⟨_, rfl⟩
  obtain ⟨init, hinit⟩ := hsetup
  have h₀ : Holds init empty [] := holds_init _ _
  obtain ⟨c₁, haddr₁, hmove₁⟩ := moves_addPeer (P := Fin 2) hinit h₀ 2
    (List.not_mem_nil (a := 0)) (by simp)
  have h₁ : Holds init (empty.addPeer 0 c₁) [0] := holds_step h₀ hmove₁
  have hfree : ∀ p ∈ [(0 : Fin 2)], ((empty.addPeer 0 c₁).peer p).addr ≠ 3 := by
    intro p hp
    rw [List.mem_singleton.mp hp]
    change (Function.update empty.peer 0 c₁ 0).addr ≠ 3
    rw [Function.update_self, haddr₁]
    decide
  obtain ⟨c₂, haddr₂, hmove₂⟩ := moves_addPeer hinit h₁ 3 (by decide : (1 : Fin 2) ∉ [0]) hfree
  have hrun : Reachable Begins (Moves init) ⟨(empty.addPeer 0 c₁).addPeer 1 c₂, [0, 1]⟩ :=
    ((Reachable.start (s := ⟨empty, []⟩) ⟨⟨_, _, rfl⟩, rfl⟩).tail hmove₁).tail hmove₂
  exact ⟨init, _, hinit, hrun, haddr₁, haddr₂, holds_step h₁ hmove₂⟩

/-- Each of the two is found by its address. -/
theorem directory_reachable_two : ∃ (init : Initialised) (g : SetUp (Fin 2)),
    Directory init g.ring g.added ∧ g.added = [0, 1] ∧
      g.ring.ioHdlcAddr2peer 3 (g.added.length + 1) = some (some 1) := by
  obtain ⟨init, s, hinit, hrun, -, hone, -⟩ := reachable_two
  have hdir := directory_reachable hinit hrun
  obtain ⟨found, hfound, hiff⟩ := hdir.finds 3 _ (Nat.lt_succ_self _)
  refine ⟨init, _, hdir, rfl, hfound.trans ?_⟩
  rw [(hiff 1).mpr ⟨by simp, hone⟩]

end SetUp

end IoHdlc
