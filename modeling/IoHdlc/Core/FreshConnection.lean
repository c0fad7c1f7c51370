import IoHdlc.Core.Node

/-!
What a new connection inherits from the one before.

`DataState` is everything that the sequence, acknowledgement, REJ, checkpoint,
busy, FRMR and retry logic reads of a peer. `resetPeerVars` leaves three of its
fields alone: `rej_actioned`, `chkpt_actioned` and `vs_atlast_pf`.
-/

namespace IoHdlc

open Kit

/-- What the core reads of a timer. -/
structure TimerState where
  /-- The delay it runs with, if it does. -/
  running : Option UInt32
  expired : Bool
  deriving DecidableEq

def VTimer.state (t : VTimer) : TimerState :=
  { running := if t.armed then some t.delayMs else none, expired := t.isExpired }

structure DataState where
  vs : UInt32
  vr : UInt32
  nr : UInt32
  vsHighest : UInt32
  t3ExpectedNr : UInt32
  rejActioned : UInt32
  chkptActioned : UInt32
  vsAtlastPf : UInt32
  iPendingCount : UInt32
  busy : Bool
  rejpend : Bool
  needP : Bool
  iRetransQ : List Frame
  iTransQ : List Frame
  iReceptQ : List Frame
  replyTmr : TimerState
  t3Tmr : TimerState
  pollRetryCount : UInt8
  frmrCondition : Bool
  /-- What a FRMR response reports, while there is one to send. -/
  frmr : Option ((UInt8 × UInt8) × UInt8 × Bool)

def Peer.dataState (p : Peer) : DataState :=
  { vs := p.vs
    vr := p.vr
    nr := p.nr
    vsHighest := p.vsHighest
    t3ExpectedNr := p.t3ExpectedNr
    rejActioned := p.rejActioned
    chkptActioned := p.chkptActioned
    vsAtlastPf := p.vsAtlastPf
    iPendingCount := p.iPendingCount
    busy := p.ssState.busy
    rejpend := p.ssState.rejpend
    needP := p.ssState.needP
    iRetransQ := p.iRetransQ
    iTransQ := p.iTransQ
    iReceptQ := p.iReceptQ
    replyTmr := p.replyTmr.state
    t3Tmr := p.t3Tmr.state
    pollRetryCount := p.pollRetryCount
    frmrCondition := p.frmrCondition
    frmr :=
      if p.frmrCondition || p.umRsp = IOHDLC_U_FRMR then
        some (p.frmrRejectedCtrl, p.frmrReason, p.frmrCr)
      else none }

/-- The peer as it was added, with the U command that it may have outstanding. -/
def Peer.fresh (p : Peer) : Peer :=
  { addr := p.addr
    ks := p.ks
    mifls := p.mifls
    pollRetryMax := p.pollRetryMax
    umState := { sent := p.umState.sent }
    umCmd := p.umCmd }

/-- The recovery state that outlives a connection. -/
def Peer.NoRecovery (p : Peer) : Prop :=
  p.rejActioned = 0 ∧ p.chkptActioned = 0 ∧ p.vsAtlastPf = 0

/-- The state of a fresh connection, but for what `resetPeerVars` leaves of `p`. -/
def reopenedState (p : Peer) (t3 : Option UInt32) : DataState :=
  { (Peer.fresh p).dataState with
    rejActioned := p.rejActioned
    chkptActioned := p.chkptActioned
    vsAtlastPf := p.vsAtlastPf
    replyTmr := { running := none, expired := false }
    t3Tmr := { running := t3, expired := false }
    frmrCondition := false
    frmr := none }

/-- A fresh peer leaves nothing. -/
theorem reopenedState_fresh (p : Peer) (t3 : Option UInt32) :
    reopenedState p.fresh t3 =
      { reopenedState p t3 with rejActioned := 0, chkptActioned := 0, vsAtlastPf := 0 } := rfl

section Reopen

variable {l : Link} {fp : Frame}

/-- The T3 that the UA starts on an NRM primary. -/
def openedT3 (l : Link) (fp : Frame) : Option UInt32 :=
  if (fp.addr l.s.framing).toUInt32 = l.s.addr then none
  else if l.s.isNrmPrimary then some (idlePollTimeoutMs l.s) else none

theorem resetPeerVars_dataState (p : Peer) :
    (resetPeerVars p).dataState = reopenedState p none := rfl

/-- The connection and the UM transaction are no part of the state, but for a FRMR response. -/
theorem dataState_um {p : Peer} (hcond : p.frmrCondition = false) (hrsp : p.umRsp = 0)
    (conn : SsState) (um : UmState) (umCmd : UInt8) {umRsp : UInt8} (hne : umRsp ≠ IOHDLC_U_FRMR)
    (hconn : conn.busy = p.ssState.busy ∧ conn.rejpend = p.ssState.rejpend ∧
      conn.needP = p.ssState.needP) :
    Peer.dataState { p with ssState := conn, umState := um, umCmd := umCmd, umRsp := umRsp } =
      p.dataState := by
  have hzero : (0 : UInt8) ≠ IOHDLC_U_FRMR := by decide
  simp [Peer.dataState, hcond, hrsp, hne, hzero, hconn]

theorem serveUCommand_dataState {om : Mode} (h : ucmdToMode (uFunction l fp) = some om) :
    (requestUResponse (serveUCommand l fp)).p.dataState = reopenedState l.p none := by
  simp only [serveUCommand, h]
  rw [← resetPeerVars_dataState]
  have hua : IOHDLC_U_UA ≠ IOHDLC_U_FRMR := by decide
  exact @dataState_um (resetPeerVars l.p) rfl rfl _ _ _ _ hua ⟨rfl, rfl, rfl⟩

theorem finishUResponse_dataState (l : Link) :
    (finishUResponse l true).p.dataState =
      { l.p.dataState with
        t3Tmr :=
          if l.s.isNrmPrimary && !l.p.isDisc then
            { running := some (idlePollTimeoutMs l.s), expired := false }
          else l.p.dataState.t3Tmr } := by
  simp only [finishUResponse, Bool.true_and]
  cases l.s.isNrmPrimary && !l.p.isDisc <;> rfl

theorem applyModeState_isNrmPrimary (s : Station) :
    (applyModeState s s.mode).isNrmPrimary = s.isNrmPrimary := by
  have hpri : (applyModeState s s.mode).flags.pri = (s.flags.pri || s.mode = .abm) := rfl
  rw [Station.isNrmPrimary, Station.isNrmPrimary, applyModeState_mode, hpri]
  by_cases hm : s.mode = .nrm
  · simp [hm]
  · simp [hm]

/-- The link behind a UA that opens it. -/
theorem serveUResponse_ua {uCmd : UInt8} (hua : uCmd = IOHDLC_U_UA)
    (hcmd : l.p.umCmd ≠ IOHDLC_U_DISC) :
    (serveUResponse l uCmd).p.dataState = reopenedState l.p none ∧
      (serveUResponse l uCmd).p.isDisc = false ∧
      (serveUResponse l uCmd).s.isNrmPrimary = l.s.isNrmPrimary ∧
      idlePollTimeoutMs (serveUResponse l uCmd).s = idlePollTimeoutMs l.s := by
  simp only [serveUResponse, if_pos hua, if_neg hcmd, if_pos hcmd]
  rw [← resetPeerVars_dataState]
  have hzero : (0 : UInt8) ≠ IOHDLC_U_FRMR := by decide
  exact ⟨@dataState_um (resetPeerVars l.p) rfl rfl _ _ _ _ hzero ⟨rfl, rfl, rfl⟩, rfl,
    applyModeState_isNrmPrimary l.s, rfl⟩

/-- A frame that opens the link leaves a fresh state but for the recovery state. -/
theorem handleUFrame_dataState (h : opensLink l fp = true) :
    (handleUFrame l fp).p.dataState = reopenedState l.p (openedT3 l fp) := by
  simp only [opensLink] at h
  split at h
  · cases h
  next hui =>
    simp only [handleUFrame, openedT3]
    split at h
    next hcmd =>
      obtain ⟨hacc, hmode⟩ := Bool.and_eq_true_iff.mp h
      obtain ⟨om, hom⟩ := Option.isSome_iff_exists.mp hmode
      rw [if_neg (fun hn => hn.1 hcmd), if_neg hui, if_pos hcmd, if_pos hcmd, receiveUCommand,
        if_pos hacc]
      have hom' : ucmdToMode (uFunction (registerUCommand l (uFunction l fp) (getPF l.s.framing fp))
        fp) = some om := hom
      rw [serveUCommand_dataState hom']
      rfl
    next hcmd =>
      simp only [Bool.and_eq_true, decide_eq_true_eq] at h
      obtain ⟨⟨⟨⟨haddr, hmatch⟩, hua⟩, htest⟩, hdisc⟩ := h
      rw [if_neg (fun hn => hn.2 haddr), if_neg hui, if_neg hcmd, if_neg hcmd, receiveUResponse,
        if_pos hmatch]
      have hends : ((l.p.umCmd = IOHDLC_U_TEST) ∨ uFunction l fp = IOHDLC_U_UA) := .inr hua
      simp only [if_neg htest, decide_eq_true hends]
      obtain ⟨hdata, hconn, hpri, hidle⟩ := @serveUResponse_ua
        { l with p := { l.p with replyTmr := l.p.replyTmr.reset } } _ hua hdisc
      rw [finishUResponse_dataState, hdata, hconn, hpri, hidle]
      change DataState.mk .. = DataState.mk ..
      congr 1
      cases l.s.isNrmPrimary <;> rfl

/-- The frame opens the link of a fresh peer as well. -/
theorem opensLink_fresh (h : opensLink l fp = true) :
    opensLink ⟨l.s, l.p.fresh⟩ fp = true := by
  simp only [opensLink] at h ⊢
  split at h
  · cases h
  next hui =>
    have hui' : uFunction ⟨l.s, l.p.fresh⟩ fp ≠ IOHDLC_U_UI := hui
    rw [if_neg hui']
    split at h
    next hcmd =>
      obtain ⟨-, hmode⟩ := Bool.and_eq_true_iff.mp h
      rw [if_pos hcmd]
      refine Bool.and_eq_true_iff.mpr ⟨?_, hmode⟩
      have htest : uFunction l fp ≠ IOHDLC_U_TEST := by
        intro htest
        rw [htest] at hmode
        exact absurd hmode (by decide)
      have htest' : uFunction ⟨l.s, l.p.fresh⟩ fp ≠ IOHDLC_U_TEST := htest
      simp [acceptsUCommand, Peer.fresh, uFunction] at htest' ⊢
      simp [htest']
    next hcmd =>
      rw [if_neg hcmd]
      exact h

end Reopen

/-- Behind the frame that opens the link the data state is that of a fresh peer whose
connection the same frame opens, if and only if no recovery state was left behind. -/
theorem reopened_fresh_iff (l : Link) (fp : Frame) (h : opensLink l fp = true) :
    opensLink ⟨l.s, l.p.fresh⟩ fp = true ∧
      ((handleUFrame l fp).p.dataState = (handleUFrame ⟨l.s, l.p.fresh⟩ fp).p.dataState ↔
        l.p.NoRecovery) := by
  refine ⟨opensLink_fresh h, ?_⟩
  have ht3 : openedT3 ⟨l.s, l.p.fresh⟩ fp = openedT3 l fp := rfl
  rw [handleUFrame_dataState h, handleUFrame_dataState (opensLink_fresh h), ht3,
    reopenedState_fresh]
  constructor
  · intro heq
    have hrej : l.p.rejActioned = 0 := congrArg DataState.rejActioned heq
    have hchkpt : l.p.chkptActioned = 0 := congrArg DataState.chkptActioned heq
    have hvs : l.p.vsAtlastPf = 0 := congrArg DataState.vsAtlastPf heq
    exact ⟨hrej, hchkpt, hvs⟩
  · rintro ⟨hrej, hchkpt, hvs⟩
    rw [reopenedState, hrej, hchkpt, hvs]

/-- A peer that was just added. -/
theorem reopened_fresh_snrm :
    ∃ l : Link, opensLink l (Node.shortFrame 1 0x93) = true ∧
      (handleUFrame l (Node.shortFrame 1 0x93)).p.dataState =
        (handleUFrame ⟨l.s, l.p.fresh⟩ (Node.shortFrame 1 0x93)).p.dataState := by
  refine ⟨(Node.onePeer .ndm {} 1 2).link 0, by decide, ?_⟩
  exact (reopened_fresh_iff ((Node.onePeer .ndm {} 1 2).link 0) (Node.shortFrame 1 0x93) (by decide)).2.mpr
    ⟨rfl, rfl, rfl⟩

/-- A secondary that asked for a retransmission asks for none in its next connection. -/
theorem reopened_not_fresh :
    ¬∀ nd : Node 1, Reachable Node.Fresh (Node.Moves Node.Anything) nd →
      ∀ fp, opensLink (nd.link nd.cPeer) fp = true →
        (handleUFrame (nd.link nd.cPeer) fp).p.dataState =
          (handleUFrame ⟨nd.s, (nd.peer nd.cPeer).fresh⟩ fp).p.dataState := by
  intro hclaim
  obtain ⟨nd, hnd, hp⟩ := Reachable.exists_of_run Node.next (fun _ _ _ => Node.moves_next)
    (.start (Node.fresh_onePeer .ndm (.inl rfl) {} 1 2))
    [.receive (Node.shortFrame 1 0x93), .txFetch, .txEntry { uResponse := some default },
      .receive (Node.shortFrame 1 0x02)]
    (fun nd => opensLink (nd.link nd.cPeer) (Node.shortFrame 1 0x93) &&
      (handleUFrame (nd.link nd.cPeer) (Node.shortFrame 1 0x93)).p.rejActioned ≠
        (handleUFrame ⟨nd.s, (nd.peer nd.cPeer).fresh⟩ (Node.shortFrame 1 0x93)).p.rejActioned)
    (by decide +kernel)
  obtain ⟨hopen, hne⟩ := Bool.and_eq_true_iff.mp hp
  exact of_decide_eq_true hne (congrArg DataState.rejActioned (hclaim nd hnd _ hopen))

end IoHdlc
