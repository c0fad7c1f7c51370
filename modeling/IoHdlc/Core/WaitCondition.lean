import IoHdlc.Core.FlagService

/-!
What the wait of a writer looks at, and which sections change it.

`Link.KeepsWait` is what all sections do but those that take frames off the window, open the
connection or add to it: the connection is given up, or nothing the writer looks at has changed.
-/

namespace IoHdlc

/-- What `W_WAIT_COND` and the tests beside it look at in the peer. -/
structure WaitView where
  iPendingCount : UInt32
  ks : UInt32
  txReset : Bool
  stConn : Bool

def Peer.waitView (p : Peer) : WaitView where
  iPendingCount := p.iPendingCount
  ks := p.ks
  txReset := p.streamTerminalPending.txReset
  stConn := p.ssState.stConn

/-- The condition of the loop around the wait of `ioHdlcWriteVTmo`. -/
def writerWaits (l : Link) : Bool :=
  !l.p.streamTerminalPending.txReset && !l.p.isDisc && wWaitCond l

/-- The pool is as it was, and a busy station is still busy. -/
structure Link.KeepsPool (l l' : Link) : Prop where
  poolState : l'.s.poolState = l.s.poolState
  busy : l.s.flags.busy = true → l'.s.flags.busy = true

/-- The connection is given up, or the writer sees what it saw. -/
structure Link.KeepsWait (l l' : Link) : Prop extends l.KeepsPool l' where
  view : l'.p.ssState.stConn = false ∨ l'.p.waitView = l.p.waitView

section Relation

variable {l l' l'' : Link}

theorem Link.KeepsPool.of_eq (hpool : l'.s.poolState = l.s.poolState)
    (hbusy : l'.s.flags.busy = l.s.flags.busy) : l.KeepsPool l' :=
  ⟨hpool, fun h => hbusy.trans h⟩

theorem Link.KeepsPool.trans (h : l.KeepsPool l') (h' : l'.KeepsPool l'') : l.KeepsPool l'' :=
  ⟨h'.poolState.trans h.poolState, h'.busy ∘ h.busy⟩

theorem Link.KeepsWait.of_eq (hpool : l'.s.poolState = l.s.poolState)
    (hbusy : l'.s.flags.busy = l.s.flags.busy) (hview : l'.p.waitView = l.p.waitView) :
    l.KeepsWait l' :=
  ⟨.of_eq hpool hbusy, .inr hview⟩

theorem Link.KeepsWait.refl (l : Link) : l.KeepsWait l := .of_eq rfl rfl rfl

theorem Link.KeepsWait.trans (h : l.KeepsWait l') (h' : l'.KeepsWait l'') : l.KeepsWait l'' := by
  refine ⟨h.toKeepsPool.trans h'.toKeepsPool, ?_⟩
  rcases h'.view with hdown | hview
  · exact .inl hdown
  rcases h.view with hdown | hview'
  · exact .inl ((congrArg WaitView.stConn hview).trans hdown)
  · exact .inr (hview.trans hview')

/-- What the writer waits for has not come, if it sees what it saw and the pool is the same. -/
theorem wWaitCond_congr (hview : l'.p.waitView = l.p.waitView)
    (hpool : l'.s.poolState = l.s.poolState) : wWaitCond l' = wWaitCond l := by
  have hcount := congrArg WaitView.iPendingCount hview
  have hks := congrArg WaitView.ks hview
  change l'.p.iPendingCount = l.p.iPendingCount at hcount
  change l'.p.ks = l.p.ks at hks
  rw [wWaitCond, wWaitCond, writerPendingLimit, writerPendingLimit, hcount, hks, hpool]

end Relation

/-! ### The end of a connection -/

section Close

variable {l : Link}

theorem leaveModeIfLast_keepsPool (l : Link) : l.KeepsPool (leaveModeIfLast l) := by
  rw [leaveModeIfLast]
  split <;> exact .of_eq rfl rfl

theorem closePeerOrderly_keepsWait (l : Link) : l.KeepsWait (closePeerOrderly l) := by
  refine ⟨?_, .inl (closePeerOrderly_closed l).2.1⟩
  have hpool := leaveModeIfLast_keepsPool (ioHdlcSetDisconnected
    ⟨l.s, clearPeerTxQueues (resetPeerProtocolState l.p)⟩ .orderly)
  simp only [closePeerOrderly]
  split <;> exact ⟨hpool.poolState, hpool.busy⟩

theorem handleTimeoutRetry_keepsWait (l : Link) : l.KeepsWait (handleTimeoutRetry l).1 := by
  have hpool := leaveModeIfLast_keepsPool (ioHdlcSetDisconnected
    ⟨l.s.broadcastFlags {.linkDown}, clearPeerTxQueues (resetPeerProtocolState l.p)⟩ .aborted)
  have hends := handleTimeoutRetry_ends l
  rw [handleTimeoutRetry] at hends ⊢
  split
  next hlast =>
    rw [if_pos hlast] at hends
    obtain ⟨-, ⟨htrue, -⟩ | ⟨-, hdown, -⟩⟩ := hends
    · cases htrue
    · refine ⟨?_, .inl hdown⟩
      dsimp only
      split <;> exact ⟨hpool.poolState, hpool.busy⟩
  · exact .of_eq rfl rfl rfl

end Close

/-! ### Reception -/

section Receive

variable {l : Link} {fp : Frame}

theorem serveUCommand_keepsWait (h : ucmdToMode (uFunction l fp) = none) :
    l.KeepsWait (serveUCommand l fp) := by
  simp only [serveUCommand, h]
  split
  · exact .of_eq rfl rfl rfl
  split <;> exact .of_eq rfl rfl rfl

theorem serveUCommand_keepsPool (l : Link) (fp : Frame) : l.KeepsPool (serveUCommand l fp) := by
  cases h : ucmdToMode (uFunction l fp) with
  | none => exact (serveUCommand_keepsWait h).toKeepsPool
  | some om =>
    simp only [serveUCommand, h]
    exact .of_eq rfl rfl

/-- Only the UA to a set-mode command opens the link. -/
theorem serveUResponse_keepsView (l : Link) (uCmd : UInt8) :
    l.KeepsPool (serveUResponse l uCmd) ∧
      (¬(uCmd = IOHDLC_U_UA ∧ l.p.umCmd ≠ IOHDLC_U_DISC) → l.KeepsWait (serveUResponse l uCmd)) := by
  have hclose := closePeerOrderly_keepsWait l
  simp only [serveUResponse]
  by_cases hdisc : l.p.umCmd = IOHDLC_U_DISC
  · have hkeep : l.KeepsWait (serveUResponse l uCmd) := by
      simp only [serveUResponse, hdisc, if_true, ne_eq, not_true_eq_false, if_false]
      split
      · exact hclose.trans (.of_eq rfl rfl rfl)
      split
      · exact hclose.trans (.of_eq rfl rfl rfl)
      split
      · exact .of_eq rfl rfl rfl
      · exact .refl l
    exact ⟨hkeep.toKeepsPool, fun _ => hkeep⟩
  · rw [if_neg hdisc, if_pos hdisc, if_neg hdisc, if_pos hdisc]
    split
    next hua => exact ⟨.of_eq rfl rfl, fun h => absurd ⟨hua, hdisc⟩ h⟩
    split
    · exact ⟨.of_eq rfl rfl, fun _ => ⟨.of_eq rfl rfl, .inl rfl⟩⟩
    split
    · exact ⟨.of_eq rfl rfl, fun _ => .of_eq rfl rfl rfl⟩
    · exact ⟨.of_eq rfl rfl, fun _ => .refl l⟩

theorem receiveUCommand_keepsView (l : Link) (fp : Frame) :
    l.KeepsPool (receiveUCommand l fp) ∧
      ((acceptsUCommand l fp && (ucmdToMode (uFunction l fp)).isSome) = false →
        l.KeepsWait (receiveUCommand l fp)) := by
  rw [receiveUCommand]
  split
  next haccept =>
    have hregister : l.KeepsWait (registerUCommand l (uFunction l fp) (getPF l.s.framing fp)) :=
      .of_eq rfl rfl rfl
    refine ⟨hregister.toKeepsPool.trans ((serveUCommand_keepsPool _ fp).trans (.of_eq rfl rfl)),
      fun h => hregister.trans ((serveUCommand_keepsWait ?_).trans (.of_eq rfl rfl rfl))⟩
    rw [haccept, Bool.true_and] at h
    exact Option.isSome_eq_false_iff.mp h |> Option.isNone_iff_eq_none.mp
  · exact ⟨.of_eq rfl rfl, fun _ => .refl l⟩

theorem receiveUResponse_keepsView (l : Link) (fp : Frame) :
    l.KeepsPool (receiveUResponse l fp) ∧
      (¬(matchesUResponse l fp = true ∧ uFunction l fp = IOHDLC_U_UA ∧
          l.p.umCmd ≠ IOHDLC_U_TEST ∧ l.p.umCmd ≠ IOHDLC_U_DISC) →
        l.KeepsWait (receiveUResponse l fp)) := by
  simp only [receiveUResponse]
  split
  next hmatch =>
    have hstop : l.KeepsWait { l with p := { l.p with replyTmr := l.p.replyTmr.reset } } :=
      .of_eq rfl rfl rfl
    by_cases htest : l.p.umCmd = IOHDLC_U_TEST
    · simp only [htest, if_true]
      exact ⟨.of_eq rfl rfl, fun _ => .of_eq rfl rfl rfl⟩
    · simp only [htest, if_false]
      obtain ⟨hpool, hwait⟩ := serveUResponse_keepsView
        { l with p := { l.p with replyTmr := l.p.replyTmr.reset } } (uFunction l fp)
      refine ⟨hstop.toKeepsPool.trans (hpool.trans (.of_eq rfl rfl)), fun h => ?_⟩
      refine hstop.trans ((hwait fun hua => h ⟨hmatch, hua.1, htest, hua.2⟩).trans ?_)
      exact .of_eq rfl rfl rfl
  · exact ⟨.of_eq rfl rfl, fun _ => .refl l⟩

/-- A U frame leaves the pool alone, and the writer sees what it saw unless the frame opens the
link. -/
theorem handleUFrame_keepsView (l : Link) (fp : Frame) :
    l.KeepsPool (handleUFrame l fp) ∧
      (opensLink l fp = false → l.KeepsWait (handleUFrame l fp)) := by
  have hui : l.KeepsWait (receiveUi l fp) := by
    simp only [receiveUi]
    split
    · exact .refl l
    split
    · exact .refl l
    · exact .of_eq rfl rfl rfl
  obtain ⟨hcmdPool, hcmd⟩ := receiveUCommand_keepsView l fp
  obtain ⟨hrspPool, hrsp⟩ := receiveUResponse_keepsView l fp
  simp only [handleUFrame, opensLink]
  split
  · exact ⟨.of_eq rfl rfl, fun _ => .refl l⟩
  next hself =>
    split
    · exact ⟨hui.toKeepsPool, fun _ => hui⟩
    · split
      · exact ⟨hcmdPool, hcmd⟩
      next haddr =>
        have hpeer := not_not.mp fun hno => hself ⟨haddr, hno⟩
        refine ⟨hrspPool, fun h => hrsp fun hua => ?_⟩
        rw [decide_eq_true hpeer, hua.1, decide_eq_true hua.2.1,
          decide_eq_true hua.2.2.1, decide_eq_true hua.2.2.2] at h
        cases h

/-- Whether a frame that is no U frame takes frames off the window: `should_signal_tx` of
`commonRx`. -/
def acknowledges (l : Link) (fp : Frame) : Bool :=
  let nr := extractNR l.s.framing fp
  reachesPeer l fp && !l.p.frmrCondition && isNRValid l.s l.p nr && (processNR l.s l.p nr).2

theorem processNR_releases (s : Station) (p : Peer) (nr : UInt32) :
    (processNR s p nr).2 = (!p.iRetransQ.isEmpty && p.nr ≠ nr) := by
  simp only [processNR]
  cases p.iRetransQ with
  | nil => rfl
  | cons fp rest =>
    rw [processNRLoop]
    split
    next hnr => simp [hnr]
    next hnr => simp [hnr]

theorem acknowledges_lineBusy (l : Link) (fp : Frame) :
    acknowledges (Endpoint.lineBusy l) fp = acknowledges l fp := by
  simp only [acknowledges, processNR_releases]
  rfl

theorem processNR_waitView {s : Station} {p : Peer} {nr : UInt32}
    (h : (processNR s p nr).2 = false) : (processNR s p nr).1.waitView = p.waitView := by
  simp only [processNR] at h ⊢
  cases hq : p.iRetransQ with
  | nil => rfl
  | cons fp rest =>
    rw [hq, processNRLoop] at h
    rw [processNRLoop]
    split at h
    next hnr =>
      rw [if_pos hnr]
      rfl
    · cases h

theorem handleCheckpointAndAck_keepsView {nr : UInt32} {pf isCommand : Bool} {ack : AckResult}
    (h : handleCheckpointAndAck l nr pf isCommand = some ack) :
    l.KeepsPool ack.link ∧ ((processNR l.s l.p nr).2 = false → l.KeepsWait ack.link) := by
  have hnr (hno : (processNR l.s l.p nr).2 = false) :
      l.KeepsWait { l with p := (processNR l.s l.p nr).1 } :=
    .of_eq rfl rfl (processNR_waitView hno)
  have hcheck (l : Link) : l.KeepsWait (checkpointOnPF l isCommand).1 := by
    simp only [checkpointOnPF]
    split
    · exact .of_eq rfl rfl rfl
    · rcases checkpointRetransmit_fields l.s l.p with h | ⟨x, h⟩
      · rw [h]
        exact .of_eq rfl rfl rfl
      · rw [h]
        exact .of_eq rfl rfl rfl
  simp only [handleCheckpointAndAck] at h
  split at h
  · split at h
    · cases h
      have hpf : Link.KeepsWait { l with p := (processNR l.s l.p nr).1 }
          (receivePF (checkpointOnPF { l with p := (processNR l.s l.p nr).1 } isCommand).1
            isCommand) := (hcheck _).trans (.of_eq rfl rfl rfl)
      exact ⟨⟨hpf.poolState, hpf.busy⟩, fun hno => (hnr hno).trans hpf⟩
    · cases h
      exact ⟨.of_eq rfl rfl, fun hno => (hnr hno).trans (.of_eq rfl rfl rfl)⟩
  · cases h

theorem handleIFrame_keepsWait (l : Link) (fp : Frame) (pf : Bool) :
    l.KeepsWait (handleIFrame l fp pf).1 := by
  simp only [handleIFrame]
  split
  · exact .of_eq rfl rfl rfl
  · exact ⟨⟨rfl, fun h => by rw [h, Bool.true_or]⟩, .inr rfl⟩

theorem handleSFrame_keepsWait (l : Link) (fp : Frame) : l.KeepsWait (handleSFrame l fp).1 := by
  obtain ⟨_, _, _, _, _, _, h⟩ := handleSFrame_fields l fp
  rw [h]
  exact .of_eq rfl rfl rfl

theorem commonRx_keepsView (l : Link) (fp : Frame) (isCommand : Bool) :
    l.KeepsPool (commonRx l fp isCommand).1 ∧
      ((!l.p.frmrCondition && isNRValid l.s l.p (extractNR l.s.framing fp) &&
          (processNR l.s l.p (extractNR l.s.framing fp)).2) = false →
        l.KeepsWait (commonRx l fp isCommand).1) := by
  cases commonRx_does l fp isCommand with
  | frmr on eq =>
    have hkeep : l.KeepsWait (frmrPending l (getPF l.s.framing fp)) := by
      rw [frmrPending]
      split
      · exact .of_eq rfl rfl rfl
      · exact .refl l
    rw [eq]
    exact ⟨hkeep.toKeepsPool, fun _ => hkeep⟩
  | reject off hack eq =>
    rw [eq]
    exact ⟨.of_eq rfl rfl, fun _ => .of_eq rfl rfl rfl⟩
  | @iFrame ack r off hack hi hr eq =>
    obtain ⟨hpool, hwait⟩ := handleCheckpointAndAck_keepsView hack
    have hkeep : ack.link.KeepsWait r.1 := hr ▸ handleIFrame_keepsWait ..
    rw [eq, off, isNRValid_of_ack hack, Bool.not_false, Bool.true_and, Bool.true_and]
    exact ⟨hpool.trans (hkeep.toKeepsPool.trans (.of_eq rfl rfl)),
      fun hno => (hwait hno).trans (hkeep.trans (.of_eq rfl rfl rfl))⟩
  | @sFrame ack r off hack hi hr eq =>
    obtain ⟨hpool, hwait⟩ := handleCheckpointAndAck_keepsView hack
    have hkeep : ack.link.KeepsWait r.1 := hr ▸ handleSFrame_keepsWait ..
    rw [eq, off, isNRValid_of_ack hack, Bool.not_false, Bool.true_and, Bool.true_and]
    exact ⟨hpool.trans (hkeep.toKeepsPool.trans (.of_eq rfl rfl)),
      fun hno => (hwait hno).trans (hkeep.trans (.of_eq rfl rfl rfl))⟩

/-- A frame that is no U frame leaves the pool alone, and the writer sees what it saw unless the
frame takes others off the window. -/
theorem rxDispatch_keepsView (l : Link) (fp : Frame) :
    l.KeepsPool (rxDispatch l fp).1 ∧
      (acknowledges l fp = false → l.KeepsWait (rxDispatch l fp).1) := by
  rcases rxDispatch_eq l fp with ⟨-, h⟩ | ⟨hreach, h⟩
  · rw [h]
    exact ⟨.of_eq rfl rfl, fun _ => .refl l⟩
  · rw [h]
    obtain ⟨hpool, hwait⟩ := commonRx_keepsView l fp ((fp.addr l.s.framing).toUInt32 = l.s.addr)
    refine ⟨hpool, fun hno => hwait ?_⟩
    rwa [acknowledges, hreach, Bool.true_and] at hno

end Receive

/-! ### Transmission -/

section Transmit

variable {l : Link}

theorem sendUCommand_keepsWait (l : Link) (timedOut : Bool) (take : Option Frame) :
    l.KeepsWait (sendUCommand l timedOut take).link := by
  have hretry : l.KeepsWait (retryBefore l timedOut).1 := by
    rw [retryBefore]
    split
    · exact handleTimeoutRetry_keepsWait l
    · exact .refl l
  rcases sendUCommand_ends l timedOut take with
    ⟨-, h⟩ | ⟨-, -, h⟩ | ⟨-, -, h, -⟩ | ⟨-, -, -, fp, -, h⟩
  · rw [h]
    exact .refl l
  · rw [h]
    exact hretry
  · rw [h]
    exact hretry.trans (.of_eq rfl rfl rfl)
  · obtain ⟨t3, delay, hsent⟩ := uCommandSent_eq (presetF (retryBefore l timedOut).1)
    rw [h, hsent]
    exact hretry.trans (.of_eq rfl rfl rfl)

theorem uResponseStage_keepsWait (l : Link) (flags : EvtFlags) (take : Option Frame) :
    l.KeepsWait (uResponseStage l flags take).1 := by
  have hsent (l' : Link) (h : l.KeepsWait l') : l.KeepsWait (uResponseSent l') := by
    rw [uResponseSent]
    split
    · exact h.trans (.of_eq rfl rfl rfl)
    split
    · exact h.trans (closePeerOrderly_keepsWait l')
    · exact h
  rw [uResponseStage]
  split
  · simp only [sendUResponse]
    split
    · exact hsent _ (.of_eq rfl rfl rfl)
    · exact .of_eq rfl rfl rfl
  · exact .refl l

theorem connectedTxEntry_keepsWait (l : Link) (flags : EvtFlags) (take : Option Frame) :
    l.KeepsWait (connectedTxEntry l flags take).link := by
  have hretry (l : Link) : l.KeepsWait (timeoutRecovery (handleTimeoutRetry l).1) :=
    (handleTimeoutRetry_keepsWait l).trans (.of_eq rfl rfl rfl)
  have hreply (flags : EvtFlags) : l.KeepsWait (serveReplyTimeout l flags).1 := by
    simp only [serveReplyTimeout]
    split
    · split
      · exact hretry l
      · exact handleTimeoutRetry_keepsWait l
    · exact .refl l
  have ht3 (l : Link) (flags : EvtFlags) : l.KeepsWait (serveT3Timeout l flags).1 := by
    have hstop : l.KeepsWait { l with p := { l.p with t3Tmr := l.p.t3Tmr.reset } } :=
      .of_eq rfl rfl rfl
    simp only [serveT3Timeout]
    split
    · split
      · exact .of_eq rfl rfl rfl
      split
      · exact hstop
      · split
        · exact hstop.trans (hretry _)
        · exact hstop.trans (handleTimeoutRetry_keepsWait _)
    · exact .refl l
  have hui (l : Link) : l.KeepsWait (sendUi l take).1 := by
    simp only [sendUi]
    split
    · split <;> exact .of_eq rfl rfl rfl
    · exact .refl l
  simp only [connectedTxEntry]
  split
  · split
    · exact ((hreply _).trans (ht3 _ _)).trans (hui _)
    · exact (hreply _).trans (ht3 _ _)
  · exact hreply _

theorem servePeer_keepsWait (l : Link) (flags : EvtFlags) (take : Takes) :
    l.KeepsWait (servePeer l flags take).link := by
  have hdispatch (l : Link) (flags : EvtFlags) : l.KeepsWait (dispatchTx l flags take.ui).link := by
    simp only [dispatchTx]
    split
    · split <;> exact .refl l
    split
    · exact connectedTxEntry_keepsWait ..
    · exact .refl l
  exact (uResponseStage_keepsWait l flags take.uResponse).trans (hdispatch _ _)

theorem serveRequest_keepsWait (l : Link) (flags : EvtFlags) (timedOut : Bool) (take : Takes) :
    l.KeepsWait (serveRequest l flags timedOut take).link := by
  have hcommand := sendUCommand_keepsWait l timedOut take.uCommand
  simp only [serveRequest]
  split
  · exact hcommand
  · exact hcommand
  · exact hcommand
  · exact hcommand.trans (servePeer_keepsWait ..)

theorem connectedTxIFrame_keepsWait (l : Link) (flags : EvtFlags) (iSent : Bool) :
    l.KeepsWait (connectedTxIFrame l flags iSent).link := by
  rw [connectedTxIFrame]
  split
  · exact .refl l
  split
  · exact .refl l
  · dsimp only
    split
    · exact .of_eq rfl rfl rfl
    · exact .of_eq rfl rfl rfl

/-- The last section may find that the station is no longer busy. -/
theorem connectedTxSFrame_keepsView (l : Link) (flags : EvtFlags) (iSent : Bool)
    (take : Nat → Option Frame) :
    (connectedTxSFrame l flags iSent take).link.s.poolState = l.s.poolState ∧
      (connectedTxSFrame l flags iSent take).link.p.waitView = l.p.waitView := by
  obtain ⟨_, _, _, _, _, _, _, h⟩ := connectedTxSFrame_fields l flags iSent take
  rw [h]
  exact ⟨rfl, rfl⟩

end Transmit

/-! ### The threads of the application -/

section Application

variable {l : Link}

theorem linkUpStart_keepsWait (l : Link) (mode : Mode) (nrmOnly : Bool) :
    l.KeepsWait (linkUpStart l mode nrmOnly).1 := by
  simp only [linkUpStart]
  split
  · exact .refl l
  split
  · exact .refl l
  split
  · exact .of_eq rfl rfl rfl
  split <;> exact .of_eq rfl rfl rfl

theorem linkDownStart_keepsWait (l : Link) : l.KeepsWait (linkDownStart l).1 := by
  simp only [linkDownStart]
  split
  · exact .refl l
  split
  · exact .refl l
  · exact .of_eq rfl rfl rfl

/-- Whether the thread is the writer. -/
def PeerOp.isWriter : PeerOp → Bool
  | .writeBegin _ | .writeReserve _ _ | .writeInsert | .writeDone => true
  | _ => false

theorem PeerOp.apply_keepsWait {op : PeerOp} (hop : op.isWriter = false) {w : WriterPc}
    {r : Link × WriterPc} (h : op.apply l w = some r) : l.KeepsWait r.1 ∧ r.2 = w := by
  cases op with
  | writeBegin | writeReserve | writeInsert | writeDone => cases hop
  | read =>
    simp only [PeerOp.apply] at h
    split at h
    · cases h
      exact ⟨.of_eq rfl rfl rfl, rfl⟩
    · cases h
  | replyTimer =>
    cases h
    refine ⟨?_, rfl⟩
    rw [Endpoint.replyTimerExpiry]
    split
    · exact .of_eq rfl rfl rfl
    · exact .refl l
  | t3Timer =>
    cases h
    refine ⟨?_, rfl⟩
    rw [Endpoint.t3TimerExpiry]
    split
    · exact .of_eq rfl rfl rfl
    · exact .refl l
  | uiSend value =>
    cases h
    refine ⟨?_, rfl⟩
    rw [ioHdlcPeerUiSend]
    split
    · exact .refl l
    · exact .of_eq rfl rfl rfl
  | uiGet =>
    cases h
    refine ⟨?_, rfl⟩
    rw [ioHdlcPeerUiGet]
    split
    · exact .of_eq rfl rfl rfl
    · exact .refl l
  | peerTest len take =>
    cases h
    refine ⟨?_, rfl⟩
    simp only [peerTestStart]
    split
    · exact .refl l
    split
    · exact .refl l
    split
    · exact .refl l
    split
    · exact .refl l
    · exact .of_eq rfl rfl rfl
  | peerTestTake =>
    cases h
    refine ⟨?_, rfl⟩
    rw [sTakeCompletedTestFrame]
    split
    · exact .refl l
    · exact .of_eq rfl rfl rfl
  | peerTestExpire =>
    cases h
    refine ⟨?_, rfl⟩
    rcases peerTestExpire_eq l with h | h | ⟨-, h⟩
    · rw [h]
      exact .refl l
    · rw [h]
      exact .of_eq rfl rfl rfl
    · rw [h]
      exact .of_eq rfl rfl rfl

theorem PeerOp.apply_keepsPool {op : PeerOp} {w : WriterPc} {r : Link × WriterPc}
    (h : op.apply l w = some r) : l.KeepsPool r.1 := by
  by_cases hop : op.isWriter = true
  · cases op with
    | writeBegin octets =>
      cases w <;> simp only [PeerOp.apply, reduceCtorEq, Option.some.injEq] at h
      subst h
      simp only [IoHdlc.writeBegin]
      split <;> exact .of_eq rfl rfl
    | writeReserve timedOut take =>
      cases w <;> simp only [PeerOp.apply, reduceCtorEq, Option.some.injEq] at h
      subst h
      simp only [IoHdlc.writeReserve]
      split
      · exact .of_eq rfl rfl
      split
      · exact .of_eq rfl rfl
      split
      · exact .of_eq rfl rfl
      split
      · exact .of_eq rfl rfl
      split <;> exact .of_eq rfl rfl
    | writeInsert =>
      cases w <;> simp only [PeerOp.apply, reduceCtorEq, Option.some.injEq] at h
      subst h
      simp only [IoHdlc.writeInsert]
      split
      · exact .of_eq rfl rfl
      split <;> exact .of_eq rfl rfl
    | writeDone =>
      cases w <;> simp only [PeerOp.apply, reduceCtorEq, Option.some.injEq] at h
      subst h
      exact .of_eq rfl rfl
    | _ => cases hop
  · exact (apply_keepsWait (Bool.eq_false_iff.mpr hop) h).1.toKeepsPool

end Application

end IoHdlc
