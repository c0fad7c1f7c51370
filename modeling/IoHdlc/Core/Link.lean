import IoHdlc.Model.ReadBack

/-!
The station together with the peer whose lock a worker holds, the timers of that
peer, and how a connection is opened, closed and reset.

A worker changes both records under one lock, so the functions of the core map
a `Link` to a `Link`. Where the source tests a condition around a single
assignment the condition stands in the field.
-/

namespace IoHdlc

structure Link where
  s : Station
  p : Peer

/-! ### Timers -/

def IOHDLC_LAST_RETRY_T1_RATIO : Nat := 5
def IOHDLC_LAST_RETRY_TIMEOUT_MIN_MS : Nat := 100
def IOHDLC_DFL_T3_IFRAME_T1_RATIO : UInt32 := 5

def lastRetryReplyTimeoutMs (s : Station) : UInt32 :=
  let tmo := s.replyTimeoutMs.toNat * IOHDLC_LAST_RETRY_T1_RATIO
  let tmo := if tmo < IOHDLC_LAST_RETRY_TIMEOUT_MIN_MS then IOHDLC_LAST_RETRY_TIMEOUT_MIN_MS else tmo
  if tmo > 2 ^ 32 - 1 then UInt32.ofNat (2 ^ 32 - 1) else UInt32.ofNat tmo

def replyTimerTimeoutMs (s : Station) (p : Peer) : UInt32 :=
  if p.pollRetryCount > 0 ∧ p.pollRetryCount ≥ p.pollRetryMax then lastRetryReplyTimeoutMs s
  else if p.pollRetryCount ≥ 32 ∨
      s.replyTimeoutMs.toUInt32 > ~~~0 >>> p.pollRetryCount.toUInt32 then ~~~0
  else s.replyTimeoutMs.toUInt32 <<< p.pollRetryCount.toUInt32

def idlePollTimeoutMs (s : Station) : UInt32 := s.idlePollTimeoutMs

def iFrameReplyTimeoutMs (s : Station) : UInt32 :=
  s.replyTimeoutMs.toUInt32 * IOHDLC_DFL_T3_IFRAME_T1_RATIO

def iFrameReplyTimerUsed (s : Station) : Bool := s.mode = .arm || s.mode = .abm

/-- `ioHdlcRestartReplyTimer` on one timer. -/
def VTimer.restart (t : VTimer) (delayMs : UInt32) : VTimer := if t.armed then t.set delayMs else t

/-- `IOHDLC_IS_NRM(s) && IOHDLC_IS_PRI(s)`. -/
def Station.isNrmPrimary (s : Station) : Bool := s.mode = .nrm && s.flags.pri

def startPollReplyTimer (l : Link) : Link :=
  { l with p := { l.p with
      t3Tmr := if l.s.isNrmPrimary then l.p.t3Tmr.reset else l.p.t3Tmr
      replyTmr := l.p.replyTmr.set (replyTimerTimeoutMs l.s l.p) } }

/-- `IOHDLC_SET_NEED_P`. -/
def setNeedP (s : Station) (p : Peer) : Peer :=
  { p with ssState := { p.ssState with needP := p.ssState.needP || s.flags.pri } }

/-! ### Opening and closing -/

/-- The `term_bits` of `ioHdlcSetDisconnected`. -/
inductive TermBits where
  | neutral | orderly | aborted
  deriving DecidableEq, Repr

def ioHdlcSetDisconnected (l : Link) (term : TermBits) : Link :=
  let conn := l.p.ssState.stConn
  { s := { l.s with connectedCount := if conn then l.s.connectedCount - 1 else l.s.connectedCount }
    p := { l.p with
      streamTerminalPending :=
        { rxOrderly := l.p.streamTerminalPending.rxOrderly || (conn && term = .orderly)
          rxAborted := l.p.streamTerminalPending.rxAborted || (conn && term = .aborted)
          txReset := l.p.streamTerminalPending.txReset || (conn && l.p.ssState.sending) }
      ssState := { l.p.ssState with
        stConn := false, termOrderly := term = .orderly, termAborted := term = .aborted } } }

def ioHdlcSetConnected (l : Link) : Link :=
  { s := { l.s with
      connectedCount := if l.p.ssState.stConn then l.s.connectedCount else l.s.connectedCount + 1 }
    p := { l.p with
      ssState := { l.p.ssState with stConn := true, termOrderly := false, termAborted := false } } }

def clearPeerUmFrames (p : Peer) : Peer := { p with umApiFrame := none, umRspFrame := none }

def resetPeerUm (p : Peer) : Peer := { p with umState := {}, umCmd := 0 }

def clearPeerTxQueues (p : Peer) : Peer :=
  { p with iRetransQ := [], iTransQ := [], iPendingCount := 0 }

def clearPeerRxBuffered (p : Peer) : Peer :=
  { p with partialReadFrame := none, partialReadOffset := 0, iReceptQ := [] }

def resetPeerProtocolState (p : Peer) : Peer :=
  let p := clearPeerUmFrames { p with replyTmr := p.replyTmr.reset, t3Tmr := p.t3Tmr.reset }
  resetPeerUm { p with
    nr := 0, vr := 0, vs := 0, vsHighest := 0, t3ExpectedNr := 0
    ssState :=
      { stConn := p.ssState.stConn
        termOrderly := p.ssState.termOrderly
        termAborted := p.ssState.termAborted
        sending := p.ssState.sending }
    pollRetryCount := 0
    frmrCondition := false
    umRsp := 0
    uiTxPending := false
    uiRxPending := false }

def applyModeState (s : Station) (mode : Mode) : Station :=
  { s with
    rxFn :=
      match mode with
      | .nrm => some .ioHdlcNrmRx
      | .abm => some .ioHdlcAbmRx
      | _ => none
    flags := { s.flags with pri := s.flags.pri || mode = .abm }
    pfState := { s.pfState with
      fRcved := s.pfState.fRcved || mode = .abm || (mode = .ndm && s.flags.pri) } }

/-- The mode after the last connection is gone, by the mode that was in force. -/
def closedMode (mode : Mode) : Mode := if mode = .nrm then .ndm else .adm

/-- The tail that `closePeerOrderly` and `abortPeerLink` share. -/
def leaveModeIfLast (l : Link) : Link :=
  if l.s.connectedCount = 0 then
    { l with s := applyModeState { l.s with mode := closedMode l.s.mode } (closedMode l.s.mode) }
  else l

def closePeerOrderly (l : Link) : Link :=
  let wasConnected := !l.p.isDisc
  let l := { l with p := clearPeerTxQueues (resetPeerProtocolState l.p) }
  let l := leaveModeIfLast (ioHdlcSetDisconnected l .orderly)
  if wasConnected then { l with s := l.s.broadcastFlagsApp .linkDown } else l

def abortPeerLink (l : Link) : Link :=
  let l := { l with p := clearPeerTxQueues (resetPeerProtocolState l.p) }
  leaveModeIfLast (ioHdlcSetDisconnected l .aborted)

/-- The link, and whether a retry is allowed. -/
def handleTimeoutRetry (l : Link) : Link × Bool :=
  if l.p.pollRetryCount ≥ l.p.pollRetryMax then
    let wasConnected := !l.p.isDisc
    let l := abortPeerLink { l with s := l.s.broadcastFlags {.linkDown} }
    let l := { l with s := { l.s with pfState := { l.s.pfState with fRcved := true } } }
    (if wasConnected then { l with s := l.s.broadcastFlagsApp .linkLost } else l, false)
  else ({ l with p := { l.p with pollRetryCount := l.p.pollRetryCount + 1 } }, true)

def resetPeerVars (p : Peer) : Peer :=
  let conn := p.ssState.stConn
  let p := { p with streamTerminalPending := { p.streamTerminalPending with
    rxAborted := p.streamTerminalPending.rxAborted || conn
    txReset := p.streamTerminalPending.txReset || (conn && p.ssState.sending) } }
  let p := { resetPeerProtocolState p with ssState := {} }
  clearPeerRxBuffered (clearPeerTxQueues p)

/-! ### What opening and closing do to the connection -/

/-- The end of a connection: the count and, with the last one, the mode. -/
structure Link.Closes (l l' : Link) : Prop where
  stConn : l'.p.ssState.stConn = false
  connectedCount : l'.s.connectedCount =
    if l.p.ssState.stConn then l.s.connectedCount - 1 else l.s.connectedCount
  mode : l'.s.mode = if l'.s.connectedCount = 0 then closedMode l.s.mode else l.s.mode
  rxFn : l'.s.rxFn = if l'.s.connectedCount = 0 then none else l.s.rxFn

@[simp] theorem applyModeState_mode (s : Station) (mode : Mode) :
    (applyModeState s mode).mode = s.mode := rfl

@[simp] theorem applyModeState_connectedCount (s : Station) (mode : Mode) :
    (applyModeState s mode).connectedCount = s.connectedCount := rfl

/-- No mode that the last connection leaves has a receive handler. -/
theorem applyModeState_closedMode (s : Station) (mode : Mode) :
    (applyModeState s (closedMode mode)).rxFn = none := by
  rw [closedMode]
  split <;> rfl

theorem leaveModeIfLast_p (l : Link) : (leaveModeIfLast l).p = l.p := by
  rw [leaveModeIfLast]
  split <;> rfl

theorem leaveModeIfLast_framing (l : Link) : (leaveModeIfLast l).s.framing = l.s.framing := by
  rw [leaveModeIfLast]
  split <;> rfl

theorem leaveModeIfLast_connectedCount (l : Link) :
    (leaveModeIfLast l).s.connectedCount = l.s.connectedCount := by
  rw [leaveModeIfLast]
  split <;> rfl

/-- Whatever else the closing routines reset, they end in this. -/
theorem leaveModeIfLast_closes (l : Link) (p : Peer)
    (hp : p.ssState.stConn = l.p.ssState.stConn) (term : TermBits) :
    l.Closes (leaveModeIfLast (ioHdlcSetDisconnected ⟨l.s, p⟩ term)) := by
  refine
    { stConn := by rw [leaveModeIfLast_p]; rfl
      connectedCount := ?_
      mode := ?_
      rxFn := ?_ }
  · rw [leaveModeIfLast_connectedCount, ← hp]
    rfl
  · rw [leaveModeIfLast_connectedCount, leaveModeIfLast]
    split <;> rfl
  · rw [leaveModeIfLast_connectedCount, leaveModeIfLast]
    split
    · exact applyModeState_closedMode _ _
    · rfl

theorem abortPeerLink_closes (l : Link) : l.Closes (abortPeerLink l) :=
  leaveModeIfLast_closes l (clearPeerTxQueues (resetPeerProtocolState l.p)) rfl .aborted

theorem closePeerOrderly_closes (l : Link) : l.Closes (closePeerOrderly l) := by
  have h := leaveModeIfLast_closes l (clearPeerTxQueues (resetPeerProtocolState l.p)) rfl .orderly
  simp only [closePeerOrderly]
  split
  · exact ⟨h.stConn, h.connectedCount, h.mode, h.rxFn⟩
  · exact h

/-! ### What the traffic of a connection leaves alone -/

/-- The parameters of the link, the connection and the command under way are the
same. -/
structure Link.Keeps (l l' : Link) : Prop where
  framing : l'.s.framing = l.s.framing
  sAddr : l'.s.addr = l.s.addr
  pAddr : l'.p.addr = l.p.addr
  ks : l'.p.ks = l.p.ks
  mifls : l'.p.mifls = l.p.mifls
  mode : l'.s.mode = l.s.mode
  rxFn : l'.s.rxFn = l.s.rxFn
  pri : l'.s.flags.pri = l.s.flags.pri
  connectedCount : l'.s.connectedCount = l.s.connectedCount
  stConn : l'.p.ssState.stConn = l.p.ssState.stConn
  umCmd : l'.p.umCmd = l.p.umCmd
  umSent : l'.p.umState.sent = l.p.umState.sent

theorem Link.Keeps.refl (l : Link) : l.Keeps l := by
  constructor <;> rfl

theorem Link.Keeps.trans {l l' l'' : Link} (h : l.Keeps l') (h' : l'.Keeps l'') : l.Keeps l'' :=
  { framing := h'.framing.trans h.framing
    sAddr := h'.sAddr.trans h.sAddr
    pAddr := h'.pAddr.trans h.pAddr
    ks := h'.ks.trans h.ks
    mifls := h'.mifls.trans h.mifls
    mode := h'.mode.trans h.mode
    rxFn := h'.rxFn.trans h.rxFn
    pri := h'.pri.trans h.pri
    connectedCount := h'.connectedCount.trans h.connectedCount
    stConn := h'.stConn.trans h.stConn
    umCmd := h'.umCmd.trans h.umCmd
    umSent := h'.umSent.trans h.umSent }

end IoHdlc
