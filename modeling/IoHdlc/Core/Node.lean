import IoHdlc.Core.Api

/-!
A station with its peers and its workers.

`Action` lists what the receive worker, the transmit worker, the timers and the
threads of the application do between two releases of a lock, with everything
that is not up to them: the frame that arrives, the frames that the pool gives,
the outcome of a wait. `act` is what the code does then; it is `none` where the
worker is not at that place. What a thread does before it takes the lock, the
reading of the current peer among it, goes with the section behind.
-/

namespace IoHdlc

/-- Where the transmit worker is when it holds no lock. -/
inductive WorkerPc where
  | sched (pc : TxPc)
  /-- The current peer was changed to serve its request. -/
  | switched (flags : EvtFlags) (timedOut : Bool)
  /-- The current peer has nothing to do. -/
  | advance

/-- The events the worker waits with, when it waits. -/
def WorkerPc.idleFlags : WorkerPc → Option EvtFlags
  | .sched (.idle flags) => some flags
  | _ => none

theorem WorkerPc.eq_of_idleFlags {pc : WorkerPc} {flags : EvtFlags}
    (h : pc.idleFlags = some flags) : pc = .sched (.idle flags) := by
  rw [idleFlags.eq_def] at h
  split at h
  next flags' =>
    cases h
    rfl
  · cases h

/-- A thread that waits in `ioHdlcStationLinkUpEx`. -/
structure LinkUpCall (n : Nat) where
  peer : Fin n
  sMode : Mode
  deriving DecidableEq

/-- A station with `n` peers, in the order of its list. -/
structure Node (n : Nat) where
  s : Station
  peer : Fin n → Peer
  cPeer : Fin n
  pc : WorkerPc
  writer : Fin n → WriterPc
  linkUps : List (LinkUpCall n)

/-- What a thread does to one peer apart from the receive and the transmit worker. -/
inductive PeerOp where
  | writeBegin (octets : List UInt8)
  | writeReserve (timedOut : Bool) (take : Option Frame)
  | writeInsert
  | writeDone
  | read
  | replyTimer
  | t3Timer
  | uiSend (value : List UInt8)
  | uiGet
  | peerTest (len : Nat) (take : Option Frame)
  | peerTestTake
  | peerTestExpire

inductive Action (n : Nat) where
  | receive (fp : Frame)
  | lineIdle
  | txFetch
  | txEntry (take : Takes)
  | txSwitched (take : Takes)
  | txAdvance
  | txCheck
  | txIFrame
  | txSFrame (take : Nat → Option Frame)
  | linkUp (i : Fin n) (mode : Mode) (nrmOnly : Bool)
  | linkUpDone (call : LinkUpCall n)
  | linkUpFails (call : LinkUpCall n)
  | linkDown (i : Fin n)
  | peer (i : Fin n) (op : PeerOp)
  | poolState (state : PoolState)
  | poolChange

/-- `none` where the writer is at another place. -/
def PeerOp.apply (l : Link) (w : WriterPc) : PeerOp → Option (Link × WriterPc)
  | .writeBegin octets => match w with
    | .idle => some (IoHdlc.writeBegin l octets)
    | _ => none
  | .writeReserve timedOut take => match w with
    | .loop remaining signalTx => some (IoHdlc.writeReserve l remaining signalTx timedOut take)
    | _ => none
  | .writeInsert => match w with
    | .build fp remaining signalTx =>
      let r := IoHdlc.writeInsert l fp remaining signalTx
      some (r.1, r.2.1)
    | _ => none
  | .writeDone => match w with
    | .done signalTx => some (IoHdlc.writeDone l signalTx, .idle)
    | _ => none
  | .read => match l.p.iReceptQ with
    | _ :: rest => some ({ l with p := { l.p with iReceptQ := rest } }, w)
    | [] => none
  | .replyTimer => some (Endpoint.replyTimerExpiry l, w)
  | .t3Timer => some (Endpoint.t3TimerExpiry l, w)
  | .uiSend value => some ((ioHdlcPeerUiSend l value).1, w)
  | .uiGet => some ((ioHdlcPeerUiGet l).1, w)
  | .peerTest len take => some ((peerTestStart l len take).1, w)
  | .peerTestTake => some ((sTakeCompletedTestFrame l).1, w)
  | .peerTestExpire => some (IoHdlc.peerTestExpire l, w)

namespace Node

variable {n : Nat}

def link (nd : Node n) (i : Fin n) : Link := ⟨nd.s, nd.peer i⟩

def setLink (nd : Node n) (i : Fin n) (l : Link) : Node n :=
  { nd with s := l.s, peer := Function.update nd.peer i l.p }

/-! ### The round robin -/

/-- The next peer of the circular list. -/
def after (i : Fin n) : Fin n := ⟨(i.val + 1) % n, Nat.mod_lt _ (Nat.zero_lt_of_lt i.isLt)⟩

/-- Which peers `ioHdlcNextPeer` accepts. -/
def accepts (nd : Node n) (findPendingOnly : Bool) (i : Fin n) : Bool :=
  let p := nd.peer i
  if findPendingOnly then p.isDisc && p.umCmd ≠ 0 else !p.isDisc || p.umCmd ≠ 0

/-- The loop of `ioHdlcNextPeer`: it ends at an accepted peer or where it started. -/
def nextPeerLoop (accepts : Fin n → Bool) (start : Fin n) : Nat → Fin n → Fin n
  | 0, i => i
  | fuel + 1, i =>
    if accepts (after i) || after i = start then after i
    else nextPeerLoop accepts start fuel (after i)

def ioHdlcNextPeer (nd : Node n) (findPendingOnly : Bool) : Fin n :=
  nextPeerLoop (nd.accepts findPendingOnly) nd.cPeer n nd.cPeer

/-! ### The receive worker -/

/-- `ioHdlcRxEntry` with a frame. -/
def receive (nd : Node n) (fp : Frame) : Node n :=
  let l := Endpoint.lineBusy (nd.link nd.cPeer)
  nd.setLink nd.cPeer
    (if isUFrm (fp.ctrl nd.s.framing 0) then handleUFrame l fp else (rxDispatch l fp).1)

/-! ### The transmit worker -/

/-- The end of a pass. -/
def finishPass (nd : Node n) (r : Pass) : Node n × List Frame :=
  let nd := nd.setLink nd.cPeer r.link
  (match r.next with
    | .loop flags => { nd with pc := .sched (.idle flags) }
    | .linkDown => { nd with cPeer := nd.ioHdlcNextPeer false, pc := .sched (.idle ∅) }
    | .advance => { nd with pc := .advance }
    | .connectedTx pc => { nd with pc := .sched pc },
    r.sent)

def txEntry (nd : Node n) (flags : EvtFlags) (take : Takes) : Node n × List Frame :=
  let l := nd.link nd.cPeer
  if uCommandDue l flags then
    if requestsOtherPeer l flags then
      let target := nd.ioHdlcNextPeer true
      ({ nd with
          cPeer := target
          pc :=
            if (nd.peer target).umCmd ≠ 0 then
              .switched (flags \ uCommandFlags) (decide (.cRplytmo ∈ flags))
            else .sched (.idle (flags \ uCommandFlags)) }, [])
    else
      nd.finishPass (serveRequest l (flags \ uCommandFlags) (decide (.cRplytmo ∈ flags)) take)
  else nd.finishPass (servePeer l flags take)

/-- The worker moves to the next peer, with `IOHDLC_SET_NEED_P` on it. -/
def txAdvance (nd : Node n) : Node n :=
  let next := nd.ioHdlcNextPeer false
  if (nd.peer next).isDisc then { nd with cPeer := next, pc := .sched (.idle ∅) }
  else
    { nd with
      cPeer := next
      peer := Function.update nd.peer next (setNeedP nd.s (nd.peer next))
      pc := .sched (.idle {.linkStChg}) }

/-- The end of `ioHdlcConnectedTx`, which may move on to the next peer. -/
def finishTx (nd : Node n) (t : TxStep) : Node n :=
  let nd := { nd.setLink nd.cPeer t.link with pc := .sched t.pc }
  if t.nextPeer then
    let next := nd.ioHdlcNextPeer false
    { nd with
      cPeer := next
      peer :=
        if next ≠ nd.cPeer then Function.update nd.peer next (setNeedP nd.s (nd.peer next))
        else nd.peer }
  else nd

/-! ### All actions -/

/-- The node and the frames handed to the driver. -/
def act (nd : Node n) : Action n → Option (Node n × List Frame)
  | .receive fp => some (nd.receive fp, [])
  | .lineIdle => some (nd.setLink nd.cPeer (Endpoint.lineIdle (nd.link nd.cPeer)), [])
  | .txFetch => match nd.pc with
    | .sched (.idle flags) =>
      if flags = ∅ ∧ nd.s.cmListener ≠ ∅ then
        some ({ nd with
          s := { nd.s with cmListener := ∅ }, pc := .sched (.idle nd.s.cmListener) }, [])
      else none
    | _ => none
  | .txEntry take => match nd.pc with
    | .sched (.idle flags) => if flags ≠ ∅ then some (nd.txEntry flags take) else none
    | _ => none
  | .txSwitched take => match nd.pc with
    | .switched flags timedOut =>
      some (nd.finishPass (serveRequest (nd.link nd.cPeer) flags timedOut take))
    | _ => none
  | .txAdvance => match nd.pc with
    | .advance => some (nd.txAdvance, [])
    | _ => none
  | .txCheck => match nd.pc with
    | .sched (.check flags) =>
      some ({ nd with pc := .sched (connectedTxCheck (nd.link nd.cPeer) flags).pc }, [])
    | _ => none
  | .txIFrame => match nd.pc with
    | .sched (.iFrame flags iSent) =>
      let t := connectedTxIFrame (nd.link nd.cPeer) flags iSent
      some (nd.finishTx t, t.sent.toList)
    | _ => none
  | .txSFrame take => match nd.pc with
    | .sched (.skipIFrames flags iSent) =>
      let t := connectedTxSFrame (nd.link nd.cPeer) flags iSent take
      some (nd.finishTx t, t.sent.toList)
    | _ => none
  | .linkUp i mode nrmOnly =>
    let r := linkUpStart (nd.link i) mode nrmOnly
    let nd := nd.setLink i r.1
    some (match r.2 with
      | .returns _ => nd
      | .waits sMode => { nd with linkUps := ⟨i, sMode⟩ :: nd.linkUps }, [])
  | .linkUpDone call =>
    if call ∈ nd.linkUps ∧ (nd.peer call.peer).isDisc = false then
      some ({ nd with linkUps := nd.linkUps.erase call }, [])
    else none
  | .linkUpFails call =>
    if call ∈ nd.linkUps then
      some ({ nd with s := { nd.s with mode := call.sMode }, linkUps := nd.linkUps.erase call }, [])
    else none
  | .linkDown i => some (nd.setLink i (linkDownStart (nd.link i)).1, [])
  | .peer i op => (op.apply (nd.link i) (nd.writer i)).map fun r =>
    ({ nd.setLink i r.1 with writer := Function.update nd.writer i r.2 }, [])
  | .poolState state => some ({ nd with s := { nd.s with poolState := state } }, [])
  | .poolChange => some ({ nd with s := nd.s.broadcastFlags {.poolStChg} }, [])

/-- A station that was just set up, with the peers that were added to it. -/
structure Fresh (nd : Node n) : Prop where
  station : ∃ mode flags framing fcsSize useRej replyTimeoutMs idlePollTimeoutMs addr,
    (mode = .ndm ∨ mode = .adm) ∧ nd.s = initialStation mode flags framing fcsSize useRej
      replyTimeoutMs idlePollTimeoutMs addr
  peer : ∀ i, ∃ framesize pollRetryMax addr,
    nd.peer i = initialPeer nd.s framesize pollRetryMax addr
  pc : nd.pc = .sched (.idle ∅)
  writer : ∀ i, nd.writer i = .idle
  linkUps : nd.linkUps = []

/-- One action that a run may take; `ok` restricts what it may start from. -/
def Moves (ok : Node n → Action n → Prop) (nd nd' : Node n) : Prop :=
  ∃ a sent, ok nd a ∧ nd.act a = some (nd', sent)

/-- Whatever may happen. -/
def Anything (_ : Node n) (_ : Action n) : Prop := True

/-- The node behind an action. -/
def next (nd : Node n) (a : Action n) : Option (Node n) := (nd.act a).map Prod.fst

theorem moves_next {nd nd' : Node n} {a : Action n} (h : nd.next a = some nd') :
    Moves Anything nd nd' := by
  obtain ⟨⟨nd₁, sent⟩, hact, rfl⟩ := Option.map_eq_some_iff.mp h
  exact ⟨a, sent, trivial, hact⟩

/-- Whether an action sends one frame, of which `p` holds. -/
def sendsOne (nd : Node n) (a : Action n) (p : Frame → Bool) : Bool :=
  match nd.act a with
  | some (_, [fp]) => p fp
  | _ => false

theorem exists_of_sendsOne {nd : Node n} {a : Action n} {p : Frame → Bool}
    (h : nd.sendsOne a p = true) : ∃ nd' fp, nd.act a = some (nd', [fp]) ∧ p fp = true := by
  rw [sendsOne] at h
  split at h
  next nd' fp hact => exact ⟨nd', fp, hact, h⟩
  · cases h

/-- A station of modulus 8 right after set-up, with one peer. -/
def onePeer (mode : Mode) (flags : StationFlags) (addr peerAddr : UInt32) : Node 1 :=
  let s := initialStation mode flags (.mod8 0 Framing.zero_le_two) 2 true 100 200 addr
  { s := s
    peer := fun _ => initialPeer s 128 8 peerAddr
    cPeer := 0
    pc := .sched (.idle ∅)
    writer := fun _ => .idle
    linkUps := [] }

theorem fresh_onePeer (mode : Mode) (hmode : mode = .ndm ∨ mode = .adm) (flags : StationFlags)
    (addr peerAddr : UInt32) : (onePeer mode flags addr peerAddr).Fresh :=
  { station := ⟨mode, flags, _, _, _, _, _, _, hmode, rfl⟩
    peer := fun _ => ⟨_, _, _, rfl⟩
    pc := rfl
    writer := fun _ => rfl
    linkUps := rfl }

/-- An address and a control octet, without a format field. -/
def shortFrame (addr ctrl : UInt8) : Frame :=
  let fr := Framing.mod8 0 Framing.zero_le_two
  { ((default : Frame).setAddr fr addr).setCtrl fr 0 ctrl with elen := 2 }

/-! ### What an action does to the connections -/

/-- Whether peer `i` is connected. -/
def Connected (nd : Node n) (i : Fin n) : Prop := (nd.peer i).ssState.stConn = true

/-- All connections and the mode are as they were. -/
structure SameConn (nd nd' : Node n) : Prop where
  stConn : ∀ i, (nd'.peer i).ssState.stConn = (nd.peer i).ssState.stConn
  connectedCount : nd'.s.connectedCount = nd.s.connectedCount
  mode : nd'.s.mode = nd.s.mode
  rxFn : nd'.s.rxFn = nd.s.rxFn
  linkUps : nd'.linkUps = nd.linkUps

/-- Only peer `i` was touched. -/
structure OnlyAt (nd nd' : Node n) (i : Fin n) : Prop where
  stConn : ∀ j, j ≠ i → (nd'.peer j).ssState.stConn = (nd.peer j).ssState.stConn
  linkUps : nd'.linkUps = nd.linkUps

/-- Whether an action closes the link of the current peer, connected or not. -/
def closesLink (nd : Node n) : Action n → Bool
  | .receive fp => disconnectsLink (nd.link nd.cPeer) fp
  | .txEntry _ => match nd.pc with
    | .sched (.idle flags) =>
      !(uCommandDue (nd.link nd.cPeer) flags && requestsOtherPeer (nd.link nd.cPeer) flags) &&
        closesOnPass (nd.link nd.cPeer) (decide (.cRplytmo ∈ flags))
          (uCommandDue (nd.link nd.cPeer) flags)
    | _ => false
  | .txSwitched _ => match nd.pc with
    | .switched _ timedOut => closesOnPass (nd.link nd.cPeer) timedOut true
    | _ => false
  | _ => false

/-- What an action does to the connections, by what makes it do so. -/
inductive ConnStep (nd : Node n) (a : Action n) (nd' : Node n) : Prop
  | same (h : nd.SameConn nd')
  | opens (fp : Frame) (ha : a = .receive fp) (hfp : opensLink (nd.link nd.cPeer) fp = true)
    (h : (nd.link nd.cPeer).Opens (openedMode (nd.link nd.cPeer) fp) (nd'.link nd.cPeer))
    (rest : nd.OnlyAt nd' nd.cPeer)
  | closes (h : (nd.link nd.cPeer).Closes (nd'.link nd.cPeer)) (rest : nd.OnlyAt nd' nd.cPeer)
    (why : nd.closesLink a = true ∨
      nd.Connected nd.cPeer ∧ (nd.s.mode = .nrm ∨ nd.s.mode = .abm))
  | refuses (fp : Frame) (ha : a = .receive fp) (hfp : refusesLink (nd.link nd.cPeer) fp = true)
    (h : (nd.link nd.cPeer).Refused (nd'.link nd.cPeer)) (rest : nd.OnlyAt nd' nd.cPeer)
  | linkUp (call : LinkUpCall n) (hcall : nd'.linkUps = call :: nd.linkUps)
    (stConn : ∀ i, (nd'.peer i).ssState.stConn = (nd.peer i).ssState.stConn)
    (connectedCount : nd'.s.connectedCount = nd.s.connectedCount)
    (rxFn : nd'.s.rxFn = nd.s.rxFn)
    (hmode : nd.s.isDisc = true ∧ call.sMode = nd.s.mode ∧
          (nd'.s.mode = .nrm ∨ nd'.s.mode = .arm ∨ nd'.s.mode = .abm) ∨
        nd.s.isDisc = false ∧ call.sMode = .unset ∧ nd'.s.mode = nd.s.mode)
  | linkUpDone (call : LinkUpCall n) (hcall : call ∈ nd.linkUps) (hconn : nd.Connected call.peer)
    (hnd' : nd' = { nd with linkUps := nd.linkUps.erase call })
  | linkUpFails (call : LinkUpCall n) (ha : a = .linkUpFails call) (hcall : call ∈ nd.linkUps)
    (hnd' : nd' =
      { nd with s := { nd.s with mode := call.sMode }, linkUps := nd.linkUps.erase call })

section Conn

variable {nd nd' nd'' : Node n} {a : Action n} {i : Fin n} {l : Link}

theorem SameConn.refl (nd : Node n) : nd.SameConn nd := ⟨fun _ => rfl, rfl, rfl, rfl, rfl⟩

@[simp] theorem link_s (nd : Node n) (i : Fin n) : (nd.link i).s = nd.s := rfl

@[simp] theorem link_p (nd : Node n) (i : Fin n) : (nd.link i).p = nd.peer i := rfl

@[simp] theorem setLink_link (nd : Node n) (i : Fin n) (l : Link) : (nd.setLink i l).link i = l := by
  simp only [setLink, link, Function.update_self]

@[simp] theorem setLink_peer_self (nd : Node n) (i : Fin n) (l : Link) :
    (nd.setLink i l).peer i = l.p :=
  congrArg Link.p (setLink_link nd i l)

theorem setLink_peer_of_ne (nd : Node n) (l : Link) {j : Fin n} (h : j ≠ i) :
    (nd.setLink i l).peer j = nd.peer j :=
  Function.update_of_ne h _ _

theorem setLink_self (nd : Node n) (i : Fin n) : nd.setLink i (nd.link i) = nd := by
  simp only [setLink, link, Function.update_eq_self]

theorem onlyAt_setLink (nd : Node n) (i : Fin n) (l : Link) : nd.OnlyAt (nd.setLink i l) i :=
  ⟨fun _ hj => by rw [setLink_peer_of_ne nd l hj], rfl⟩

theorem sameConn_setLink (h : (nd.link i).SameConn l) : nd.SameConn (nd.setLink i l) := by
  refine ⟨fun j => ?_, h.connectedCount, h.mode, h.rxFn, rfl⟩
  by_cases hj : j = i
  · subst hj
    have := h.stConn
    rwa [← setLink_link nd j l] at this
  · rw [setLink_peer_of_ne nd l hj]

/-- The poll request for the next peer. -/
theorem needP_field {α : Type} (f : Peer → α) (hf : ∀ s p, f (setNeedP s p) = f p) (nd : Node n)
    (next j : Fin n) :
    f (Function.update nd.peer next (setNeedP nd.s (nd.peer next)) j) = f (nd.peer j) := by
  by_cases hj : j = next
  · subst hj
    rw [Function.update_self, hf]
  · rw [Function.update_of_ne hj]

/-- The end of the last section, apart from that request. -/
theorem finishTx_field {α : Type} (f : Peer → α) (hf : ∀ s p, f (setNeedP s p) = f p) (nd : Node n)
    (t : TxStep) (j : Fin n) :
    f ((nd.finishTx t).peer j) = f ((nd.setLink nd.cPeer t.link).peer j) := by
  simp only [finishTx]
  split
  · dsimp only
    split
    · exact needP_field f hf (nd.setLink nd.cPeer t.link) _ j
    · rfl
  · rfl

theorem SameConn.trans (h : nd.SameConn nd') (h' : nd'.SameConn nd'') : nd.SameConn nd'' :=
  ⟨fun j => (h'.stConn j).trans (h.stConn j), h'.connectedCount.trans h.connectedCount,
    h'.mode.trans h.mode, h'.rxFn.trans h.rxFn, h'.linkUps.trans h.linkUps⟩

/-- The end of a section is about the place of the worker and the current peer. -/
theorem finishPass_sameConn (nd : Node n) (r : Pass) :
    (nd.setLink nd.cPeer r.link).SameConn (nd.finishPass r).1 := by
  simp only [finishPass]
  split <;> exact ⟨fun _ => rfl, rfl, rfl, rfl, rfl⟩

theorem finishTx_sameConn (nd : Node n) (t : TxStep) :
    (nd.setLink nd.cPeer t.link).SameConn (nd.finishTx t) := by
  have hconn := finishTx_field (fun p => p.ssState.stConn) (fun _ _ => rfl) nd t
  simp only [finishTx] at hconn ⊢
  split
  next hnext =>
    rw [if_pos hnext] at hconn
    exact ⟨hconn, rfl, rfl, rfl, rfl⟩
  · exact ⟨fun _ => rfl, rfl, rfl, rfl, rfl⟩

theorem txAdvance_sameConn (nd : Node n) : nd.SameConn nd.txAdvance := by
  simp only [txAdvance]
  split
  · exact ⟨fun _ => rfl, rfl, rfl, rfl, rfl⟩
  · exact ⟨needP_field (fun p => p.ssState.stConn) (fun _ _ => rfl) nd _, rfl, rfl, rfl, rfl⟩

/-- What happens to the current peer is what happens to the node. -/
theorem SameConn.at (h : (nd.setLink i l).SameConn nd') :
    nd.OnlyAt nd' i ∧ l.SameConn (nd'.link i) := by
  refine ⟨⟨fun j hj => ?_, h.linkUps⟩, ⟨?_, h.connectedCount, h.mode, h.rxFn⟩⟩
  · rw [h.stConn, setLink_peer_of_ne nd l hj]
  · have := h.stConn i
    rwa [setLink_peer_self] at this

theorem ConnStep.of_same (h : (nd.link i).SameConn l) (h' : (nd.setLink i l).SameConn nd') :
    nd.ConnStep a nd' :=
  .same ((sameConn_setLink h).trans h')

theorem ConnStep.of_closes (h : (nd.link nd.cPeer).Closes l)
    (h' : (nd.setLink nd.cPeer l).SameConn nd')
    (why : nd.closesLink a = true ∨
      nd.Connected nd.cPeer ∧ (nd.s.mode = .nrm ∨ nd.s.mode = .abm)) : nd.ConnStep a nd' :=
  .closes (h.sameConn h'.at.2) h'.at.1 why

theorem PeerOp.apply_sameConn {op : PeerOp} {l : Link} {w : WriterPc} {r : Link × WriterPc}
    (h : op.apply l w = some r) : l.SameConn r.1 := by
  cases op with
  | writeBegin octets =>
    cases w <;> simp only [PeerOp.apply, reduceCtorEq, Option.some.injEq] at h
    exact h ▸ (Endpoint.writeBegin_keeps l octets).1.toKeeps.sameConn
  | writeReserve timedOut take =>
    cases w <;> simp only [PeerOp.apply, reduceCtorEq, Option.some.injEq] at h
    exact h ▸ (Endpoint.writeReserve_keeps ..).toKeeps.sameConn
  | writeInsert =>
    cases w <;> simp only [PeerOp.apply, reduceCtorEq, Option.some.injEq] at h
    subst h
    simp only [IoHdlc.writeInsert]
    split
    · exact .refl l
    split
    · exact .refl l
    · exact ⟨rfl, rfl, rfl, rfl⟩
  | writeDone =>
    cases w <;> simp only [PeerOp.apply, reduceCtorEq, Option.some.injEq] at h
    subst h
    exact ⟨rfl, rfl, rfl, rfl⟩
  | read =>
    simp only [PeerOp.apply] at h
    split at h
    · cases h
      exact ⟨rfl, rfl, rfl, rfl⟩
    · cases h
  | replyTimer =>
    cases h
    exact (Endpoint.replyTimerExpiry_keeps l).toKeeps.sameConn
  | t3Timer =>
    cases h
    exact (Endpoint.t3TimerExpiry_keeps l).toKeeps.sameConn
  | uiSend value =>
    cases h
    exact ioHdlcPeerUiSend_sameConn l value
  | uiGet =>
    cases h
    exact ioHdlcPeerUiGet_sameConn l
  | peerTest len take =>
    cases h
    exact peerTestStart_sameConn l len take
  | peerTestTake =>
    cases h
    exact sTakeCompletedTestFrame_sameConn l
  | peerTestExpire =>
    cases h
    exact peerTestExpire_sameConn l

theorem receive_connStep (nd : Node n) (fp : Frame) : nd.ConnStep (.receive fp) (nd.receive fp) := by
  have hl := (Endpoint.lineBusy_quiet (nd.link nd.cPeer)).toKeeps.sameConn
  rw [receive]
  split
  · rcases handleUFrame_cases (Endpoint.lineBusy (nd.link nd.cPeer)) fp with
      ⟨hfp, h⟩ | ⟨hfp, h⟩ | ⟨hfp, h⟩ | ⟨-, h⟩
    · exact .opens fp rfl hfp (by rw [setLink_link]; exact ⟨h.stConn, h.connectedCount, h.mode, h.rxFn⟩)
        (onlyAt_setLink ..)
    · exact .closes (by rw [setLink_link]; exact hl.closes h) (onlyAt_setLink ..) (.inl hfp)
    · exact .refuses fp rfl hfp
        (by rw [setLink_link]; exact ⟨h.stConn, h.connectedCount, h.mode, h.rxFn⟩)
        (onlyAt_setLink ..)
    · exact .of_same (hl.trans h) (.refl _)
  · rcases rxDispatch_cases (Endpoint.lineBusy (nd.link nd.cPeer)) fp with hdrop | ⟨-, isCommand, hrx⟩
    · rw [hdrop]
      exact .of_same hl (.refl _)
    · rw [hrx]
      exact .of_same (hl.trans commonRx_keeps.sameConn) (.refl _)

theorem serveRequest_connStep (flags : EvtFlags) (timedOut : Bool) (take : Takes)
    (hwhy : closesOnPass (nd.link nd.cPeer) timedOut true = true → nd.closesLink a = true) :
    nd.ConnStep a (nd.finishPass (serveRequest (nd.link nd.cPeer) flags timedOut take)).1 := by
  rcases serveRequest_cases (nd.link nd.cPeer) flags timedOut take with
    ⟨hclose, h⟩ | ⟨hconn, hmode, h⟩ | h
  · exact .of_closes h (finishPass_sameConn ..) (.inl (hwhy hclose))
  · exact .of_closes h (finishPass_sameConn ..) (.inr ⟨hconn, hmode⟩)
  · exact .of_same h (finishPass_sameConn ..)

theorem txEntry_connStep (flags : EvtFlags) (take : Takes) (hpc : nd.pc = .sched (.idle flags)) :
    nd.ConnStep (.txEntry take) (nd.txEntry flags take).1 := by
  simp only [txEntry]
  by_cases hdue : uCommandDue (nd.link nd.cPeer) flags = true
  · by_cases hother : requestsOtherPeer (nd.link nd.cPeer) flags = true
    · rw [if_pos hdue, if_pos hother]
      exact .same ⟨fun _ => rfl, rfl, rfl, rfl, rfl⟩
    · rw [if_pos hdue, if_neg hother]
      refine serveRequest_connStep _ _ take fun hclose => ?_
      simp only [closesLink, hpc, hdue, Bool.eq_false_iff.mpr hother, hclose, Bool.and_false,
        Bool.not_false, Bool.and_self]
  · rw [if_neg hdue]
    rcases servePeer_cases (nd.link nd.cPeer) flags take with
      ⟨hclose, h⟩ | ⟨hconn, hmode, h⟩ | h
    · refine .of_closes h (finishPass_sameConn ..) (.inl ?_)
      simp only [closesLink, hpc, closesOnPass, hclose, Bool.eq_false_iff.mpr hdue, Bool.false_and,
        Bool.not_false, Bool.or_true, Bool.and_self]
    · exact .of_closes h (finishPass_sameConn ..) (.inr ⟨hconn, hmode⟩)
    · exact .of_same h (finishPass_sameConn ..)

/-- Every action is one of the cases of `ConnStep`. -/
theorem act_connStep {sent : List Frame} (h : nd.act a = some (nd', sent)) : nd.ConnStep a nd' := by
  cases a with
  | receive fp =>
    cases h
    exact receive_connStep nd fp
  | lineIdle =>
    cases h
    exact .same (sameConn_setLink ⟨rfl, rfl, rfl, rfl⟩)
  | txFetch =>
    simp only [act] at h
    split at h
    · split at h
      · cases h
        exact .same ⟨fun _ => rfl, rfl, rfl, rfl, rfl⟩
      · cases h
    · cases h
  | txEntry take =>
    simp only [act] at h
    split at h
    next flags hpc =>
      split at h
      · have := txEntry_connStep flags take hpc
        rwa [Option.some.inj h] at this
      · cases h
    · cases h
  | txSwitched take =>
    simp only [act] at h
    split at h
    next flags timedOut hpc =>
      have := @serveRequest_connStep n nd (.txSwitched take) flags timedOut take
        fun hclose => by simp only [closesLink, hpc, hclose]
      rwa [Option.some.inj h] at this
    · cases h
  | txAdvance =>
    simp only [act] at h
    split at h
    · cases h
      exact .same (txAdvance_sameConn nd)
    · cases h
  | txCheck =>
    simp only [act] at h
    split at h
    · cases h
      exact .same ⟨fun _ => rfl, rfl, rfl, rfl, rfl⟩
    · cases h
  | txIFrame =>
    simp only [act] at h
    split at h
    next flags iSent _ =>
      cases h
      refine .of_same ?_ (finishTx_sameConn ..)
      rcases connectedTxIFrame_cases (nd.link nd.cPeer) flags iSent with
        ⟨hkeep, -⟩ | ⟨fp, fp', rest, hsend, -⟩
      · exact hkeep.toKeeps.sameConn
      · exact hsend.toKeeps.sameConn
    · cases h
  | txSFrame take =>
    simp only [act] at h
    split at h
    next flags iSent _ =>
      cases h
      exact .of_same (connectedTxSFrame_keeps _ flags iSent take).1.toKeeps.sameConn
        (finishTx_sameConn ..)
    · cases h
  | linkUp i mode nrmOnly =>
    cases h
    have hcases := linkUpStart_cases (nd.link i) mode nrmOnly
    generalize linkUpStart (nd.link i) mode nrmOnly = r at hcases ⊢
    obtain ⟨l, start⟩ := r
    rcases hcases with ⟨result, rfl, hsame⟩ | ⟨sMode, rfl, hconn, hconn', hcount, hrx, hmode⟩
    · exact .of_same hsame (.refl _)
    · refine .linkUp ⟨i, sMode⟩ rfl (fun j => ?_) hcount hrx ?_
      · by_cases hj : j = i
        · subst hj
          have hself : (nd.setLink j l).peer j = l.p := congrArg Link.p (setLink_link nd j l)
          dsimp only
          rw [hself]
          exact hconn'.trans hconn.symm
        · exact congrArg (fun p : Peer => p.ssState.stConn) (setLink_peer_of_ne nd l hj)
      · rcases hmode with ⟨hdisc, hs, rfl, hm⟩ | ⟨hdisc, hs, hm⟩
        · exact .inl ⟨hdisc, hs, hm⟩
        · exact .inr ⟨hdisc, hs, hm⟩
  | linkUpDone call =>
    simp only [act] at h
    split at h
    next hcall =>
      cases h
      refine .linkUpDone call hcall.1 ?_ rfl
      simpa [Connected, Peer.isDisc] using hcall.2
    · cases h
  | linkUpFails call =>
    simp only [act] at h
    split at h
    next hcall =>
      cases h
      exact .linkUpFails call rfl hcall rfl
    · cases h
  | linkDown i =>
    cases h
    exact .of_same (linkDownStart_sameConn _) (.refl _)
  | peer i op =>
    simp only [act, Option.map_eq_some_iff] at h
    obtain ⟨r, hr, h⟩ := h
    cases h
    exact .of_same (PeerOp.apply_sameConn hr) ⟨fun _ => rfl, rfl, rfl, rfl, rfl⟩
  | poolState state =>
    cases h
    exact .same ⟨fun _ => rfl, rfl, rfl, rfl, rfl⟩
  | poolChange =>
    cases h
    exact .same ⟨fun _ => rfl, rfl, rfl, rfl, rfl⟩

end Conn

end Node

end IoHdlc
