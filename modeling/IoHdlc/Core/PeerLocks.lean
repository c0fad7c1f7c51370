import IoHdlc.Core.Node
import IoHdlc.Core.Read
import IoHdlc.Kit.LockProgram

/-!
The mutexes of the peers, along the paths of the two workers and of the calls of the stream.

A thread keeps what the branches it took tell it, and nothing of the state of the station: at
every test it finds the state that the other threads and itself have left. A change stands for
assignments to the variables of a peer that its `state_mutex` guards. Where a loop of the source
begins the thread is at a place, with the mutexes that it holds there.
-/

namespace IoHdlc

open Kit LockProg

/-- What a thread finds when it looks at its station. -/
structure Sight (n : Nat) where
  node : Node n
  /-- `c_peer` is not null. -/
  hasPeer : Bool
  stopRequested : Bool
  /-- What the listener of the worker has. -/
  flags : EvtFlags
  /-- What the driver or the pool gives. -/
  frame : Option Frame
  /-- The gate of the stream is given in time. -/
  gateFree : Bool

abbrev PeerProg (n : Nat) := LockProg (Fin n) (Sight n)

variable {n : Nat}

def linkOf (p : Fin n) : PeerProg n Link := do
  let g ← sight
  return g.node.link p

/-- `iohdlc_condvar_wait_timeout` with the mutex of `p`; `limited` says that there is a limit. -/
def condvarWaitTimeout (p : Fin n) (limited : Bool) : PeerProg n Bool := do
  let expired ← condWait p
  if limited && expired then
    release p
    return true
  else return false

/-! ### The transmit worker -/

/-- The head of the loop of `ioHdlcTxEntry`; in `ioHdlcConnectedTx` the head of the loop over the
I frames, what is behind that, and the round robin, which is reached with the mutex of `p`. -/
inductive TxPlace (n : Nat) where
  | head (flags : EvtFlags)
  | iFrames (p : Fin n) (flags : EvtFlags)
  | skipIFrames (p : Fin n) (flags : EvtFlags)
  | nextPeer (p : Fin n) (flags : EvtFlags)
  | returned

/-- `handleTimeoutRetry`. -/
def timeoutRetry (p : Fin n) : PeerProg n Bool := do
  let l ← linkOf p
  change p
  return (handleTimeoutRetry l).2

/-- The service of the reply timer; `false` if the link went down. -/
def txReplyTmo (p : Fin n) (flags : EvtFlags) : PeerProg n Bool := do
  let l ← linkOf p
  if .cRplytmo ∈ flags ∧ l.p.replyTmr.isExpired then
    let retry ← timeoutRetry p
    if retry then change p
    return retry
  else return true

/-- The service of T3; `false` if the link went down. -/
def txT3Tmo (p : Fin n) (flags : EvtFlags) : PeerProg n Bool := do
  let l ← linkOf p
  if .t3Tmo ∈ flags ∧ l.p.t3Tmr.isExpired then
    if l.s.mode = .nrm then
      change p
      return true
    else if l.p.iRetransQ = [] then return true
    else
      let retry ← timeoutRetry p
      if retry then change p
      return retry
  else return true

def txUi (p : Fin n) : PeerProg n Unit := do
  let g ← sight
  let l := g.node.link p
  if l.p.uiTxPending && sendOpportunity l.s && !l.p.frmrCondition && g.frame.isSome then change p

/-- `ioHdlcConnectedTx` up to its loop; the caller has locked `p`. -/
def txConnected (p : Fin n) (flags : EvtFlags) : PeerProg n (TxPlace n) := do
  let flags := flags \ {.lineIdle}
  let goesOn ← txReplyTmo p flags
  let flags := flags \ {.cRplytmo}
  if goesOn then
    let goesOn ← txT3Tmo p flags
    let flags := flags \ {.t3Tmo}
    if goesOn then
      txUi p
      release p
      let l ← linkOf p
      return if l.p.frmrCondition then .skipIFrames p flags else .iFrames p flags
    else
      release p
      return .head flags
  else
    release p
    return .head flags

/-- The I frame at the head of the queue goes out; the caller has locked `p`. -/
def txIFrame (p : Fin n) (flags : EvtFlags) : PeerProg n (TxPlace n) := do
  let l ← linkOf p
  match l.p.iTransQ with
  | [] =>
    release p
    return .skipIFrames p flags
  | fp :: rest =>
    change p
    if flags ∩ urgentFlags ≠ ∅ then
      release p
      return .skipIFrames p flags
    else
      release p
      return if l.s.flags.twa && (transmitIFrame l fp rest).2.2 then .skipIFrames p flags
        else .iFrames p flags

/-- One round of the loop over the I frames. -/
def txIFrames (p : Fin n) (flags : EvtFlags) : PeerProg n (TxPlace n) := do
  acquire p
  let g ← sight
  let l := g.node.link p
  if l.p.iTransQ = [] then
    release p
    return .skipIFrames p flags
  else if outstanding l ≥ l.p.ks then
    release p
    return .skipIFrames p flags
  else if !sendOpportunity l.s then
    release p
    return .skipIFrames p flags
  else if l.p.ssState.busy then
    release p
    return .skipIFrames p flags
  else if .linkDown ∈ flags ∪ g.flags then
    release p
    return .head ((flags ∪ g.flags) \ {.linkDown})
  else txIFrame p (flags ∪ g.flags)

/-- From `skip_i_frames` to the round robin. -/
def txSkipIFrames (p : Fin n) (flags : EvtFlags) : PeerProg n (TxPlace n) := do
  acquire p
  let g ← sight
  change p
  return .nextPeer p ((flags ∪ g.flags) \ servedFlags (g.node.link p).p.ssState.rejpend)

/-- The primary has nothing more for the peer. -/
def leavesPeer (l : Link) : Bool :=
  l.s.isNrmPrimary && l.s.pfState.fRcved && !l.p.frmrCondition && l.p.iTransQ.isEmpty &&
    l.p.iRetransQ.isEmpty

/-- The round robin of the section behind `skip_i_frames`. -/
theorem connectedTxSFrame_leavesPeer (l : Link) (flags : EvtFlags) (iSent : Bool)
    (take : Nat → Option Frame) :
    (connectedTxSFrame l flags iSent take).nextPeer =
      leavesPeer (connectedTxSFrame l flags iSent take).link := rfl

/-- The end of `ioHdlcConnectedTx` for what it finds. -/
def txLeave (p : Fin n) (flags : EvtFlags) (g : Sight n) : PeerProg n (TxPlace n) := do
  if leavesPeer (g.node.link p) then
    let next := g.node.ioHdlcNextPeer false
    if g.hasPeer ∧ next ≠ p then change next
  release p
  return .head flags

/-- What follows the service of the U responses; the caller has locked `p`. -/
def txDispatch (p : Fin n) (flags : EvtFlags) : PeerProg n (TxPlace n) := do
  let l ← linkOf p
  if l.p.isDisc || l.p.umState.sent then
    if l.s.flags.pri && l.p.isDisc && l.p.umCmd = 0 && !l.p.umState.sent then
      release p
      let g ← sight
      let next := g.node.ioHdlcNextPeer false
      if g.hasPeer && !(g.node.peer next).isDisc then
        change next
        return .head {.linkStChg}
      else return .head ∅
    else
      release p
      return .head (flags ∩ uCommandFlags)
  else if l.s.mode = .nrm ∨ l.s.mode = .abm then txConnected p flags
  else
    release p
    return .head flags

/-- The service of the U responses and what follows it; the caller has locked `p`. -/
def txServe (p : Fin n) (flags : EvtFlags) : PeerProg n (TxPlace n) := do
  let l ← linkOf p
  if l.p.umState.rcved then
    change p
    txDispatch p ((flags \ {.umRecvd}) \ {.linkStChg})
  else txDispatch p (flags \ {.linkStChg})

/-- The U command goes out, when there is an opportunity; the caller has locked `p`. -/
def txSendCommand (p : Fin n) (flags : EvtFlags) : PeerProg n (TxPlace n) := do
  let g ← sight
  let l := g.node.link p
  if sendOpportunity l.s then
    if l.p.umApiFrame.isSome || g.frame.isSome then
      change p
      txServe p flags
    else txServe p flags
  else
    release p
    return .head flags

/-- The service of a U command; the caller has locked `p`. -/
def txCommand (p : Fin n) (flags : EvtFlags) (timedOut : Bool) : PeerProg n (TxPlace n) := do
  let l ← linkOf p
  if !mayOriginateUCommand l then
    release p
    return .head ∅
  else if timedOut && l.p.umCmd ≠ IOHDLC_U_TEST then
    let retry ← timeoutRetry p
    if !retry then
      release p
      return .head ∅
    else txSendCommand p flags
  else txSendCommand p flags

/-- The choice of the peer whose U command is due; the caller has locked `p`. -/
def txRequest (p : Fin n) (flags : EvtFlags) : PeerProg n (TxPlace n) := do
  let timedOut := decide (.cRplytmo ∈ flags)
  let g ← sight
  if requestsOtherPeer (g.node.link p) flags then
    let target := g.node.ioHdlcNextPeer true
    if g.hasPeer && (g.node.peer target).umCmd ≠ 0 then
      release p
      acquire target
      txCommand target (flags \ uCommandFlags) timedOut
    else
      release p
      return .head (flags \ uCommandFlags)
  else txCommand p (flags \ uCommandFlags) timedOut

/-- One round of the service loop. -/
def txHead (flags : EvtFlags) : PeerProg n (TxPlace n) := do
  let g ← sight
  let p := g.node.cPeer
  -- `ioHdlcWaitEvents`
  let w ← sight
  let flags := if flags = ∅ then w.flags else flags
  if w.stopRequested then return .returned
  else if !g.hasPeer then return .head ∅
  else
    acquire p
    let l ← linkOf p
    if uCommandDue l flags then txRequest p flags else txServe p flags

/-- `ioHdlcTxEntry` with `ioHdlcConnectedTx`. -/
def txProg : TxPlace n → PeerProg n (TxPlace n)
  | .head flags => txHead flags
  | .iFrames p flags => txIFrames p flags
  | .skipIFrames p flags => txSkipIFrames p flags
  | .nextPeer p flags => do
    let g ← sight
    txLeave p flags g
  | .returned => pure .returned

/-! ### The receive worker -/

inductive RxPlace where
  | head
  | returned

/-- A received UI frame for the peer `p`. -/
def rxUi (p : Fin n) : PeerProg n Unit := do
  acquire p
  let l ← linkOf p
  if !l.p.isDisc then change p
  release p

/-- A U command that the state of the peer lets through; `short` says that the frame has no room
for it. -/
def rxRegister (p : Fin n) (uCmd : UInt8) (short : Bool) : PeerProg n Unit := do
  if uCmd = IOHDLC_U_TEST ∧ short then release p
  else
    let l ← linkOf p
    if uCmd = IOHDLC_U_TEST ∧ l.p.umState.sent ∧ l.p.umCmd ≠ IOHDLC_U_TEST then release p
    else
      change p
      release p

/-- A received U command. -/
def rxUCommand (p : Fin n) (fp : Frame) : PeerProg n Unit := do
  acquire p
  let l ← linkOf p
  let uCmd := uFunction l fp
  if l.p.umState.rcved || l.p.frmrCondition then
    if l.p.frmrCondition && (isConnectionUCommand uCmd || uCmd = IOHDLC_U_DISC) then
      change p
      rxRegister p uCmd (fp.elen < uHdrLen l)
    else release p
  else rxRegister p uCmd (fp.elen < uHdrLen l)

/-- A received U response. -/
def rxUResponse (p : Fin n) (fp : Frame) : PeerProg n Unit := do
  acquire p
  let l ← linkOf p
  if !matchesUResponse l fp then release p
  else
    change p
    release p

/-- `handleUFrame`. -/
def rxUFrame (fp : Frame) : PeerProg n Unit := do
  let g ← sight
  let p := g.node.cPeer
  let l := g.node.link p
  let addr := (fp.addr l.s.framing).toUInt32
  if addr ≠ l.s.addr ∧ (!g.hasPeer ∨ addr ≠ l.p.addr) then return ()
  else if !g.hasPeer then return ()
  else if uFunction l fp = IOHDLC_U_UI then
    if fp.elen < uHdrLen l ∨ fp.elen - uHdrLen l ≠ 4 then return ()
    else rxUi p
  else if addr = l.s.addr then rxUCommand p fp
  else rxUResponse p fp

/-- `commonRx`. -/
def rxCommon (p : Fin n) (fp : Frame) (isCommand : Bool) : PeerProg n Unit := do
  acquire p
  let l ← linkOf p
  let pf := getPF l.s.framing fp
  if l.p.frmrCondition then
    if pf then change p
    release p
  else if (handleCheckpointAndAck l (extractNR l.s.framing fp) pf isCommand).isNone then
    change p
    release p
  else
    change p
    release p

/-- `ioHdlcNrmRx`. -/
def rxNrm (fp : Frame) : PeerProg n Unit := do
  let g ← sight
  let p := g.node.cPeer
  let l := g.node.link p
  let addr := (fp.addr l.s.framing).toUInt32
  if l.s.flags.pri then
    if addr ≠ l.p.addr then return ()
    else rxCommon p fp (addr = l.s.addr)
  else if addr ≠ l.s.addr then return ()
  else rxCommon p fp (addr = l.s.addr)

/-- `ioHdlcAbmRx`. -/
def rxAbm (fp : Frame) : PeerProg n Unit := do
  let g ← sight
  let p := g.node.cPeer
  let l := g.node.link p
  let addr := (fp.addr l.s.framing).toUInt32
  if addr ≠ l.s.addr ∧ addr ≠ l.p.addr then return ()
  else rxCommon p fp (addr = l.s.addr)

/-- The frame goes to its handler. -/
def rxFrame (fp : Frame) : PeerProg n Unit := do
  let g ← sight
  if isUFrm (fp.ctrl g.node.s.framing 0) then rxUFrame fp
  else
    match g.node.s.rxFn with
    | some .ioHdlcNrmRx => rxNrm fp
    | some .ioHdlcAbmRx => rxAbm fp
    | none => return ()

/-- One round of the loop of `ioHdlcRxEntry`. -/
def rxHead : PeerProg n RxPlace := do
  let g ← sight
  if g.stopRequested then return .returned
  else
    -- `hdlcRecvFrame`
    let g ← sight
    match g.frame with
    | none =>
      let g ← sight
      return if g.stopRequested then .returned else .head
    | some fp =>
      rxFrame fp
      return .head

/-- `ioHdlcRxEntry` with what it calls. -/
def rxProg : RxPlace → PeerProg n RxPlace
  | .head => rxHead
  | .returned => pure .returned

/-! ### The calls of the stream -/

/-- Where `ioHdlcWriteVTmo` is, with the sum of its vectors or the octets that are left; it reaches
`reserve` with the mutex. -/
inductive WritePlace where
  | entry (total : Except Errno Nat)
  | loop (remaining : Nat)
  | reserve (remaining : Nat)
  | done
  | returned

def writeEntry (p : Fin n) : Except Errno Nat → PeerProg n WritePlace
  | .error _ => return .returned
  | .ok total => do
    let g ← sight
    if total = 0 then return .returned
    else if !g.gateFree then return .returned
    else
      acquire p
      let l ← linkOf p
      if l.p.isDisc then
        release p
        return .returned
      else
        change p
        release p
        return .loop total

/-- The end of the loop behind the copy of a fragment of `chunkSize` octets. -/
def writeEnqueue (p : Fin n) (remaining chunkSize : Nat) : PeerProg n WritePlace := do
  acquire p
  let l ← linkOf p
  if l.p.streamTerminalPending.txReset || l.p.isDisc then
    release p
    return .done
  else
    change p
    release p
    return .loop (remaining - chunkSize)

/-- The wait, and behind it the frame from the pool. -/
def writeTake (p : Fin n) (limited : Bool) (remaining : Nat) : PeerProg n WritePlace := do
  let l ← linkOf p
  if writeWaitCond l then
    let expired ← condvarWaitTimeout p limited
    if expired then acquire p
    let l ← linkOf p
    if expired && writeWaitCond l then
      release p
      return .done
    else return .reserve remaining
  else if l.p.streamTerminalPending.txReset then
    release p
    return .done
  else if l.p.isDisc then
    release p
    return .done
  else
    let g ← sight
    release p
    if g.frame.isNone then return .loop remaining
    else writeEnqueue p remaining (writeChunkSize l remaining)

/-- `ioHdlcWriteVTmo`. -/
def writeProg (p : Fin n) (limited : Bool) : WritePlace → PeerProg n WritePlace
  | .entry total => writeEntry p total
  | .loop remaining => do
    if remaining = 0 then return .done
    else
      acquire p
      return .reserve remaining
  | .reserve remaining => writeTake p limited remaining
  | .done => do
    acquire p
    change p
    release p
    return .returned
  | .returned => pure .returned

/-- Where `ioHdlcReadVTmo` is; it reaches its loop with the mutex. -/
inductive ReadPlace where
  | entry (total : Except Errno Nat)
  | loop (total totalRead : Nat)
  | returned

/-- From `read_done` on. -/
def readDone (p : Fin n) : PeerProg n ReadPlace := do
  change p
  release p
  return .returned

def readEntry (p : Fin n) : Except Errno Nat → PeerProg n ReadPlace
  | .error _ => return .returned
  | .ok total => do
    let g ← sight
    if total = 0 then return .returned
    else if !g.gateFree then return .returned
    else
      acquire p
      change p
      return .loop total 0

/-- One round of the loop: a wait, or a frame. -/
def readRound (p : Fin n) (limited : Bool) (total totalRead : Nat) : PeerProg n ReadPlace := do
  let l ← linkOf p
  if readWaitCond l.p then
    let expired ← condvarWaitTimeout p limited
    if expired then acquire p
    let l ← linkOf p
    if expired && readWaitCond l.p then readDone p else return .loop total totalRead
  else if !l.p.isDisc && l.p.streamTerminalPending.rx then
    if totalRead ≠ 0 then readDone p
    else
      change p
      readDone p
  else
    match l.p.rxFrames with
    | [] =>
      if totalRead ≠ 0 then readDone p
      else if l.p.ssState.termOrderly || l.p.ssState.termAborted then
        change p
        readDone p
      else readDone p
    | fp :: _ =>
      let copied := min (unread l fp).length (total - totalRead)
      change p
      if copied < (unread l fp).length then readDone p
      else return .loop total (totalRead + copied)

/-- `ioHdlcReadVTmo`. -/
def readProg (p : Fin n) (limited : Bool) : ReadPlace → PeerProg n ReadPlace
  | .entry total => readEntry p total
  | .loop total totalRead => do
    if totalRead < total then readRound p limited total totalRead else readDone p
  | .returned => pure .returned

end IoHdlc
