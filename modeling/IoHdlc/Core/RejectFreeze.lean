import IoHdlc.Core.NodeEmission

/-!
The FRMR condition and the data transfer of the peer that is in it.

The receive worker turns the condition on. The transmit worker reads it once, before its
I-frame loop, so a frame that is rejected while the loop runs does not stop the loop.
-/

namespace IoHdlc

/-! ### How the condition begins -/

/-- Whether a received I or S frame has an N(R) that the peer rejects. -/
def rejectsFrame (l : Link) (fp : Frame) : Bool :=
  !isUFrm (fp.ctrl l.s.framing 0) && reachesPeer l fp && !l.p.frmrCondition &&
    !isNRValid l.s l.p (extractNR l.s.framing fp)

section Begin

variable {l l' : Link} {fp : Frame}

theorem handleIFrame_frmrCondition (pf : Bool) :
    (handleIFrame l fp pf).1.p.frmrCondition = l.p.frmrCondition := by
  simp only [handleIFrame]
  split <;> rfl

/-- Outside the condition a frame begins it exactly by its N(R). -/
theorem commonRx_frmrCondition (l : Link) (fp : Frame) (isCommand : Bool)
    (hno : l.p.frmrCondition = false) :
    (commonRx l fp isCommand).1.p.frmrCondition =
      !isNRValid l.s l.p (extractNR l.s.framing fp) := by
  cases commonRx_does l fp isCommand with
  | frmr on eq => exact absurd (hno.symm.trans on) Bool.false_ne_true
  | reject off hack eq =>
    rw [eq, isNRValid_of_refused hack]
    rfl
  | @iFrame ack r off hack hi hr eq =>
    have hsame : r.1.p.frmrCondition = ack.link.p.frmrCondition :=
      hr ▸ handleIFrame_frmrCondition _
    rw [eq, isNRValid_of_ack hack]
    exact hsame.trans ((handleCheckpointAndAck_keeps hack).frmrCondition.trans hno)
  | @sFrame ack r off hack hi hr eq =>
    have hsame : r.1.p.frmrCondition = ack.link.p.frmrCondition :=
      hr ▸ handleSFrame_keeps.frmrCondition
    rw [eq, isNRValid_of_ack hack]
    exact hsame.trans ((handleCheckpointAndAck_keeps hack).frmrCondition.trans hno)

theorem commonRx_of_frmrCondition (fp : Frame) (isCommand : Bool)
    (hfrmr : l.p.frmrCondition = true) :
    commonRx l fp isCommand = (frmrPending l (getPF l.s.framing fp), false) := by
  simp only [commonRx, hfrmr, if_true]

theorem rxDispatch_begins (hu : isUFrm (fp.ctrl l.s.framing 0) = false)
    (h : (rxDispatch l fp).1.p.frmrCondition = true) :
    l.p.frmrCondition = true ∨ rejectsFrame l fp = true := by
  cases hno : l.p.frmrCondition with
  | true => exact .inl rfl
  | false =>
    rcases rxDispatch_eq l fp with ⟨-, heq⟩ | ⟨hreach, heq⟩
    · rw [heq, hno] at h
      cases h
    · rw [heq, commonRx_frmrCondition l fp _ hno] at h
      exact .inr (by rw [rejectsFrame, hu, hreach, hno, h]; rfl)

theorem serveUCommand_frmrCondition (h : (serveUCommand l fp).p.frmrCondition = true) :
    l.p.frmrCondition = true := by
  simp only [serveUCommand] at h
  split at h
  · cases h
  split at h
  · exact h
  split at h
  · exact h
  · exact h

theorem closePeerOrderly_frmrCondition (l : Link) :
    (closePeerOrderly l).p.frmrCondition = false := by
  have h := leaveModeIfLast_p (ioHdlcSetDisconnected
    ⟨l.s, clearPeerTxQueues (resetPeerProtocolState l.p)⟩ .orderly)
  simp only [closePeerOrderly]
  split
  · exact congrArg Peer.frmrCondition h
  · exact congrArg Peer.frmrCondition h

theorem serveUResponse_frmrCondition {uCmd : UInt8}
    (h : (serveUResponse l uCmd).p.frmrCondition = true) : l.p.frmrCondition = true := by
  have hclose := closePeerOrderly_frmrCondition l
  simp only [serveUResponse] at h
  by_cases hdisc : l.p.umCmd = IOHDLC_U_DISC
  · simp only [if_pos hdisc, if_neg (not_not.mpr hdisc)] at h
    split at h
    · exact absurd (hclose.symm.trans h) (by simp)
    split at h
    · exact absurd (hclose.symm.trans h) (by simp)
    split at h
    · exact h
    · exact h
  · simp only [if_neg hdisc, if_pos (show l.p.umCmd ≠ IOHDLC_U_DISC from hdisc)] at h
    split at h
    · cases h
    split at h
    · exact h
    split at h
    · exact h
    · exact h

/-- No U frame begins the condition. -/
theorem handleUFrame_frmrCondition (h : (handleUFrame l fp).p.frmrCondition = true) :
    l.p.frmrCondition = true := by
  simp only [handleUFrame] at h
  split at h
  · exact h
  split at h
  · rw [receiveUi] at h
    split at h
    · exact h
    split at h
    · exact h
    · exact h
  split at h
  · rw [receiveUCommand] at h
    split at h
    · cases serveUCommand_frmrCondition h
    · exact h
  · simp only [receiveUResponse] at h
    split at h
    · split at h
      · exact h
      · exact serveUResponse_frmrCondition
          (l := { l with p := { l.p with replyTmr := l.p.replyTmr.reset } }) h
    · exact h

/-! ### The transmit worker does not begin it -/

theorem connectedTxEntry_frmrCondition {flags : EvtFlags} {take : Option Frame}
    (h : (connectedTxEntry l flags take).link.p.frmrCondition = true) :
    l.p.frmrCondition = true := by
  rcases connectedTxEntry_cases l flags take with ⟨hkeep, -⟩ | ⟨habort, -⟩
  · exact hkeep.frmrCondition.symm.trans h
  · exact absurd (habort.frmrCondition.symm.trans h) nofun

theorem sendUCommand_frmrCondition {timedOut : Bool} {take : Option Frame}
    (h : (sendUCommand l timedOut take).link.p.frmrCondition = true) :
    l.p.frmrCondition = true := by
  have hretry (h : (retryBefore l timedOut).1.p.frmrCondition = true) :
      l.p.frmrCondition = true := by
    rw [retryBefore] at h
    split at h
    · rcases handleTimeoutRetry_cases l with ⟨-, hkeep⟩ | ⟨-, habort⟩
      · exact hkeep.frmrCondition.symm.trans h
      · exact absurd (habort.frmrCondition.symm.trans h) (by simp)
    · exact h
  rcases sendUCommand_ends l timedOut take with ⟨-, heq⟩ | ⟨-, -, heq⟩ | ⟨-, -, heq, -⟩ |
    ⟨-, -, -, fp, -, heq⟩
  · rw [heq] at h
    exact h
  · rw [heq] at h
    exact hretry h
  · rw [heq] at h
    exact hretry h
  · rw [heq] at h
    simp only [uCommandSent] at h
    split at h
    all_goals exact hretry h

theorem uResponseSent_frmrCondition (h : (uResponseSent l).p.frmrCondition = true) :
    l.p.frmrCondition = true := by
  rw [uResponseSent] at h
  split at h
  · exact h
  split at h
  · exact absurd ((closePeerOrderly_frmrCondition l).symm.trans h) (by simp)
  · exact h

theorem uResponseStage_frmrCondition {flags : EvtFlags} {take : Option Frame}
    (h : (uResponseStage l flags take).1.p.frmrCondition = true) : l.p.frmrCondition = true := by
  rw [uResponseStage] at h
  split at h
  · simp only [sendUResponse] at h
    split at h
    · have hback := uResponseSent_frmrCondition h
      exact hback
    · exact h
  · exact h

theorem servePeer_frmrCondition {flags : EvtFlags} {take : Takes}
    (h : (servePeer l flags take).link.p.frmrCondition = true) : l.p.frmrCondition = true := by
  refine @uResponseStage_frmrCondition l flags take.uResponse ?_
  simp only [servePeer, dispatchTx] at h
  split at h
  · split at h
    all_goals exact h
  split at h
  · exact connectedTxEntry_frmrCondition h
  · exact h

theorem serveRequest_frmrCondition {flags : EvtFlags} {timedOut : Bool} {take : Takes}
    (h : (serveRequest l flags timedOut take).link.p.frmrCondition = true) :
    l.p.frmrCondition = true := by
  refine @sendUCommand_frmrCondition l timedOut take.uCommand ?_
  simp only [serveRequest] at h
  split at h
  · exact h
  · exact h
  · exact h
  · exact servePeer_frmrCondition h

end Begin

/-! ### What is frozen -/

/-- The data transfer of a peer. -/
structure Transfer where
  vs : UInt32
  vr : UInt32
  nr : UInt32
  vsHighest : UInt32
  iTransQ : List Frame
  iRetransQ : List Frame
  iReceptQ : List Frame

def Peer.transfer (p : Peer) : Transfer :=
  { vs := p.vs, vr := p.vr, nr := p.nr, vsHighest := p.vsHighest
    iTransQ := p.iTransQ, iRetransQ := p.iRetransQ, iReceptQ := p.iReceptQ }

/-- Under the condition a received I or S frame is looked at for its P/F bit only. -/
theorem rxDispatch_transfer {l : Link} (fp : Frame) (hfrmr : l.p.frmrCondition = true) :
    (rxDispatch l fp).1.p.transfer = l.p.transfer := by
  rcases rxDispatch_eq l fp with ⟨-, heq⟩ | ⟨-, heq⟩
  · rw [heq]
  · rw [heq, commonRx_of_frmrCondition fp _ hfrmr, frmrPending]
    split <;> rfl

namespace Node

variable {n : Nat} {nd nd' : Node n} {a : Action n} {sent : List Frame} {i : Fin n}

theorem receive_transfer (fp : Frame) (hfrmr : (nd.peer i).frmrCondition = true)
    (hu : frameType nd.s.framing fp ≠ .uFrame) :
    ((nd.receive fp).peer i).transfer = (nd.peer i).transfer := by
  have hu' : ¬isUFrm (fp.ctrl nd.s.framing 0) = true := fun h => hu (if_pos h)
  rw [receive, if_neg hu']
  by_cases hi : i = nd.cPeer
  · subst hi
    rw [setLink_peer_self]
    exact rxDispatch_transfer (l := Endpoint.lineBusy (nd.link nd.cPeer)) fp hfrmr
  · rw [setLink_peer_of_ne _ _ hi]

/-! ### The I-frame loop -/

/-- Whether the transmit worker is in its I-frame loop. -/
def inIFrameLoop (nd : Node n) : Prop := ∃ flags iSent, nd.pc = .sched (.iFrame flags iSent)

/-- The loop runs for a peer that is not in the condition. -/
def LoopUnrejected (nd : Node n) : Prop :=
  nd.inIFrameLoop → (nd.peer nd.cPeer).frmrCondition = false

/-- No frame is rejected while the I-frame loop runs. -/
def RejectsOutsideLoop (nd : Node n) : Action n → Prop
  | .receive fp => nd.inIFrameLoop → rejectsFrame (nd.link nd.cPeer) fp = false
  | _ => True

theorem setLink_frmrCondition {c : Fin n} {l : Link}
    (hl : l.p.frmrCondition = true → (nd.peer c).frmrCondition = true)
    (h : ((nd.setLink c l).peer i).frmrCondition = true) : (nd.peer i).frmrCondition = true := by
  by_cases hi : i = c
  · subst hi
    rw [setLink_peer_self] at h
    exact hl h
  · rwa [setLink_peer_of_ne nd l hi] at h

theorem finishPass_frmrCondition {r : Pass}
    (hr : r.link.p.frmrCondition = true → (nd.peer nd.cPeer).frmrCondition = true)
    (h : ((nd.finishPass r).1.peer i).frmrCondition = true) :
    (nd.peer i).frmrCondition = true := by
  refine setLink_frmrCondition hr ?_
  simp only [finishPass] at h
  split at h
  all_goals exact h

theorem finishTx_frmrCondition {t : TxStep}
    (ht : t.link.p.frmrCondition = true → (nd.peer nd.cPeer).frmrCondition = true)
    (h : ((nd.finishTx t).peer i).frmrCondition = true) : (nd.peer i).frmrCondition = true := by
  refine setLink_frmrCondition ht ?_
  rwa [finishTx_field Peer.frmrCondition fun _ _ => rfl] at h

theorem PeerOp.apply_frmrCondition {op : PeerOp} {l : Link} {w : WriterPc} {r : Link × WriterPc}
    (h : op.apply l w = some r) (hr : r.1.p.frmrCondition = true) : l.p.frmrCondition = true := by
  cases op with
  | writeBegin octets =>
    cases w <;> simp only [PeerOp.apply, reduceCtorEq, Option.some.injEq] at h
    subst h
    exact (Endpoint.writeBegin_keeps l octets).1.frmrCondition.symm.trans hr
  | writeReserve timedOut take =>
    cases w <;> simp only [PeerOp.apply, reduceCtorEq, Option.some.injEq] at h
    subst h
    exact (Endpoint.writeReserve_keeps ..).frmrCondition.symm.trans hr
  | writeInsert =>
    cases w <;> simp only [PeerOp.apply, reduceCtorEq, Option.some.injEq] at h
    subst h
    simp only [IoHdlc.writeInsert] at hr
    repeat' split at hr
    all_goals exact hr
  | writeDone =>
    cases w <;> simp only [PeerOp.apply, reduceCtorEq, Option.some.injEq] at h
    subst h
    exact hr
  | read =>
    simp only [PeerOp.apply] at h
    split at h
    · cases h
      exact hr
    · cases h
  | replyTimer =>
    cases h
    exact (Endpoint.replyTimerExpiry_keeps l).frmrCondition.symm.trans hr
  | t3Timer =>
    cases h
    exact (Endpoint.t3TimerExpiry_keeps l).frmrCondition.symm.trans hr
  | uiSend value =>
    cases h
    rw [ioHdlcPeerUiSend] at hr
    split at hr
    all_goals exact hr
  | uiGet =>
    cases h
    rw [ioHdlcPeerUiGet] at hr
    split at hr
    all_goals exact hr
  | peerTest len take =>
    cases h
    simp only [peerTestStart] at hr
    repeat' split at hr
    all_goals exact hr
  | peerTestTake =>
    cases h
    rw [sTakeCompletedTestFrame] at hr
    split at hr
    all_goals exact hr
  | peerTestExpire =>
    cases h
    rcases peerTestExpire_eq l with heq | heq | ⟨-, heq⟩
    all_goals
      rw [heq] at hr
      exact hr

/-- Only a rejected frame begins the condition. -/
theorem act_frmrCondition (h : nd.act a = some (nd', sent))
    (hi : (nd'.peer i).frmrCondition = true) :
    (nd.peer i).frmrCondition = true ∨
      ∃ fp, a = .receive fp ∧ i = nd.cPeer ∧ rejectsFrame (nd.link nd.cPeer) fp = true := by
  cases a with
  | receive fp =>
    cases h
    rw [receive] at hi
    by_cases hc : i = nd.cPeer
    · subst hc
      rw [setLink_peer_self] at hi
      split at hi
      · exact .inl (handleUFrame_frmrCondition hi)
      next hu =>
        rcases rxDispatch_begins (Bool.eq_false_iff.mpr hu) hi with hon | hrej
        · exact .inl hon
        · exact .inr ⟨fp, rfl, rfl, hrej⟩
    · rw [setLink_peer_of_ne _ _ hc] at hi
      exact .inl hi
  | lineIdle =>
    cases h
    exact .inl (setLink_frmrCondition id hi)
  | txFetch =>
    simp only [act] at h
    split at h
    · split at h
      · cases h
        exact .inl hi
      · cases h
    · cases h
  | txEntry take =>
    simp only [act] at h
    split at h
    next flags _ =>
      split at h
      · obtain rfl := congrArg Prod.fst (Option.some.inj h)
        simp only [txEntry] at hi
        split at hi
        · split at hi
          · exact .inl hi
          · exact .inl (finishPass_frmrCondition serveRequest_frmrCondition hi)
        · exact .inl (finishPass_frmrCondition servePeer_frmrCondition hi)
      · cases h
    · cases h
  | txSwitched take =>
    simp only [act] at h
    split at h
    · obtain rfl := congrArg Prod.fst (Option.some.inj h)
      exact .inl (finishPass_frmrCondition serveRequest_frmrCondition hi)
    · cases h
  | txAdvance =>
    simp only [act] at h
    split at h
    · cases h
      simp only [Node.txAdvance] at hi
      split at hi
      · exact .inl hi
      · exact .inl ((needP_field Peer.frmrCondition (fun _ _ => rfl) nd _ i).symm.trans hi)
    · cases h
  | txCheck =>
    simp only [act] at h
    split at h
    · cases h
      exact .inl hi
    · cases h
  | txIFrame =>
    simp only [act] at h
    split at h
    next flags iSent _ =>
      cases h
      refine .inl (finishTx_frmrCondition (fun hl => ?_) hi)
      rcases connectedTxIFrame_cases (nd.link nd.cPeer) flags iSent with
        ⟨hkeep, -⟩ | ⟨fp, fp', rest, hsend, -⟩
      · exact hkeep.frmrCondition.symm.trans hl
      · exact hsend.frmrCondition.symm.trans hl
    · cases h
  | txSFrame take =>
    simp only [act] at h
    split at h
    next flags iSent _ =>
      cases h
      refine .inl (finishTx_frmrCondition (fun hl => ?_) hi)
      exact (connectedTxSFrame_keeps (nd.link nd.cPeer) flags iSent take).1.frmrCondition.symm.trans
        hl
    · cases h
  | linkUp j mode nrmOnly =>
    cases h
    have hlink (h : (linkUpStart (nd.link j) mode nrmOnly).1.p.frmrCondition = true) :
        (nd.peer j).frmrCondition = true := by
      simp only [linkUpStart] at h
      repeat' split at h
      all_goals exact h
    split at hi
    all_goals exact .inl (setLink_frmrCondition hlink hi)
  | linkUpDone call | linkUpFails call =>
    simp only [act] at h
    split at h
    · cases h
      exact .inl hi
    · cases h
  | linkDown j =>
    cases h
    refine .inl (setLink_frmrCondition (fun h => ?_) hi)
    simp only [linkDownStart] at h
    repeat' split at h
    all_goals exact h
  | peer j op =>
    simp only [act, Option.map_eq_some_iff] at h
    obtain ⟨r, hr, h⟩ := h
    cases h
    exact .inl (setLink_frmrCondition (PeerOp.apply_frmrCondition hr) hi)
  | poolState | poolChange =>
    cases h
    exact .inl hi

theorem servePeer_next (l : Link) (flags : EvtFlags) (take : Takes) (flags' : EvtFlags)
    (iSent : Bool) : (servePeer l flags take).next ≠ .connectedTx (.iFrame flags' iSent) := by
  simp only [servePeer, dispatchTx]
  split
  · split <;> simp
  split
  · intro hnext
    rcases connectedTxEntry_cases (uResponseStage l flags take.uResponse).1
      ((uResponseStage l flags take.uResponse).2.2 \ {.linkStChg}) take.ui with
      ⟨-, ⟨f, hpc⟩, -⟩ | ⟨-, ⟨f, hpc⟩, -⟩
    all_goals
      rw [PassEnd.connectedTx.injEq, hpc] at hnext
      cases hnext
  · simp

theorem serveRequest_next (l : Link) (flags : EvtFlags) (timedOut : Bool) (take : Takes)
    (flags' : EvtFlags) (iSent : Bool) :
    (serveRequest l flags timedOut take).next ≠ .connectedTx (.iFrame flags' iSent) := by
  simp only [serveRequest]
  split
  · simp
  · simp
  · simp
  · exact servePeer_next _ flags take flags' iSent

theorem finishPass_inIFrameLoop {r : Pass}
    (hr : ∀ flags iSent, r.next ≠ .connectedTx (.iFrame flags iSent)) :
    ¬(nd.finishPass r).1.inIFrameLoop := by
  rintro ⟨flags, iSent, hpc⟩
  simp only [finishPass] at hpc
  split at hpc
  · cases hpc
  · cases hpc
  · cases hpc
  next pc hnext =>
    obtain rfl : pc = .iFrame flags iSent := WorkerPc.sched.inj hpc
    exact hr flags iSent hnext

/-- The loop is entered by the check and kept by its own rounds. -/
theorem act_inIFrameLoop (ha : a.isTx = true) (h : nd.act a = some (nd', sent))
    (hloop : nd'.inIFrameLoop) :
    nd'.cPeer = nd.cPeer ∧
      ((nd.peer nd.cPeer).frmrCondition = false ∨ nd.inIFrameLoop) := by
  cases a with
  | txFetch =>
    simp only [act] at h
    split at h
    · split at h
      · cases h
        obtain ⟨flags, iSent, hpc⟩ := hloop
        cases hpc
      · cases h
    · cases h
  | txEntry take =>
    simp only [act] at h
    split at h
    · split at h
      · obtain rfl := congrArg Prod.fst (Option.some.inj h)
        simp only [txEntry] at hloop
        split at hloop
        · split at hloop
          · obtain ⟨flags, iSent, hpc⟩ := hloop
            dsimp only at hpc
            split at hpc <;> cases hpc
          · exact absurd hloop (finishPass_inIFrameLoop (serveRequest_next _ _ _ _))
        · exact absurd hloop (finishPass_inIFrameLoop (servePeer_next _ _ _))
      · cases h
    · cases h
  | txSwitched take =>
    simp only [act] at h
    split at h
    · obtain rfl := congrArg Prod.fst (Option.some.inj h)
      exact absurd hloop (finishPass_inIFrameLoop (serveRequest_next _ _ _ _))
    · cases h
  | txAdvance =>
    simp only [act] at h
    split at h
    · cases h
      obtain ⟨flags, iSent, hpc⟩ := hloop
      simp only [Node.txAdvance] at hpc
      split at hpc <;> cases hpc
    · cases h
  | txCheck =>
    simp only [act] at h
    split at h
    · cases h
      obtain ⟨flags, iSent, hpc⟩ := hloop
      refine ⟨rfl, .inl ?_⟩
      by_contra hon
      replace hpc := WorkerPc.sched.inj hpc
      rw [Bool.not_eq_false] at hon
      simp only [connectedTxCheck, link_p, hon, if_true] at hpc
      cases hpc
    · cases h
  | txIFrame =>
    simp only [act] at h
    split at h
    next flags iSent hpc =>
      cases h
      refine ⟨?_, .inr ⟨flags, iSent, hpc⟩⟩
      have hstay : (connectedTxIFrame (nd.link nd.cPeer) flags iSent).nextPeer = false := by
        rw [connectedTxIFrame]
        split
        · rfl
        split
        · rfl
        dsimp only
        split <;> rfl
      simp only [finishTx, hstay]
      rfl
    · cases h
  | txSFrame take =>
    simp only [act] at h
    split at h
    · cases h
      obtain ⟨flags, iSent, hpc⟩ := hloop
      rw [finishTx_pc] at hpc
      cases hpc
    · cases h
  | _ => cases ha

theorem loopUnrejected_step (hinv : nd.LoopUnrejected) (hok : nd.RejectsOutsideLoop a)
    (h : nd.act a = some (nd', sent)) : nd'.LoopUnrejected := by
  intro hloop
  by_contra hon
  rw [Bool.not_eq_false] at hon
  cases ha : a.isTx with
  | true =>
    obtain ⟨hc, hbefore⟩ := act_inIFrameLoop ha h hloop
    rw [hc] at hon
    have hno : (nd.peer nd.cPeer).frmrCondition = false := hbefore.elim id hinv
    rcases act_frmrCondition h hon with hon' | ⟨fp, rfl, -⟩
    · rw [hno] at hon'
      cases hon'
    · cases ha
  | false =>
    obtain ⟨hpc, hc, -⟩ := act_of_not_isTx ha h
    obtain ⟨flags, iSent, hpc'⟩ := hloop
    have hbefore : nd.inIFrameLoop := ⟨flags, iSent, hpc.symm.trans hpc'⟩
    rw [hc] at hon
    rcases act_frmrCondition h hon with hon' | ⟨fp, rfl, -, hrej⟩
    · rw [hinv hbefore] at hon'
      cases hon'
    · rw [hok hbefore] at hrej
      cases hrej

theorem loopUnrejected_reachable (hrun : Kit.Reachable Fresh (Moves RejectsOutsideLoop) nd) :
    nd.LoopUnrejected := by
  refine hrun.invariant LoopUnrejected (fun nd hfresh hloop => ?_) fun nd nd' hinv hmove => ?_
  · obtain ⟨flags, iSent, hpc⟩ := hloop
    rw [hfresh.pc] at hpc
    cases hpc
  · obtain ⟨a, sent, hok, hact⟩ := hmove
    exact loopUnrejected_step hinv hok hact

/-- The data transfer of peer `i` stands still: the driver gets no I frame for it, and a
received I or S frame leaves its variables and queues alone. -/
structure Frozen (nd : Node n) (i : Fin n) : Prop where
  noIFrame : ∀ a nd' sent, nd.act a = some (nd', sent) → i = nd.cPeer →
    ∀ fp ∈ sent, frameType nd.s.framing fp ≠ .iFrame
  transfer : ∀ fp, frameType nd.s.framing fp ≠ .uFrame →
    ((nd.receive fp).peer i).transfer = (nd.peer i).transfer

/-- In a run without a rejected frame inside the I-frame loop, a peer is frozen as long as it
is in FRMR condition. -/
theorem frozen_of_frmrCondition (hrun : Kit.Reachable Fresh (Moves RejectsOutsideLoop) nd) :
    ∀ i, (nd.peer i).frmrCondition = true → nd.Frozen i := by
  intro i hfrmr
  refine ⟨fun a nd' sent hact hi fp hfp htype => ?_, fun fp => receive_transfer fp hfrmr⟩
  subst hi
  obtain rfl := act_type (umReady_reachable hrun) hact fp hfp htype
  simp only [act] at hact
  split at hact
  next flags iSent hpc =>
    have hno := loopUnrejected_reachable hrun ⟨flags, iSent, hpc⟩
    rw [hfrmr] at hno
    cases hno
  · cases hact

/-- A secondary whose first poll has an N(R) that it cannot have. -/
theorem frozen_of_frmrCondition_invalidNR :
    ∃ nd : Node 1, ∃ i, (nd.peer i).frmrCondition = true ∧ nd.Frozen i := by
  have hstart : Kit.Reachable Fresh (Moves RejectsOutsideLoop) (onePeer .ndm {} 1 2) :=
    .start (fresh_onePeer .ndm (.inl rfl) {} 1 2)
  have hidle {nd : Node 1} {flags : EvtFlags} (hpc : nd.pc = .sched (.idle flags)) :
      ¬nd.inIFrameLoop := by
    rintro ⟨_, _, hpc'⟩
    rw [hpc] at hpc'
    cases hpc'
  have hsnrm : Kit.Reachable Fresh (Moves RejectsOutsideLoop)
      ((onePeer .ndm {} 1 2).receive (shortFrame 1 0x93)) :=
    hstart.tail ⟨.receive (shortFrame 1 0x93), _, fun h => absurd h (hidle rfl), rfl⟩
  have hrr : Kit.Reachable Fresh (Moves RejectsOutsideLoop)
      (((onePeer .ndm {} 1 2).receive (shortFrame 1 0x93)).receive (shortFrame 1 0x71)) :=
    hsnrm.tail ⟨.receive (shortFrame 1 0x71), _, fun h => absurd h (hidle rfl), rfl⟩
  have hfrmr : ((((onePeer .ndm {} 1 2).receive (shortFrame 1 0x93)).receive
      (shortFrame 1 0x71)).peer 0).frmrCondition = true := by decide
  exact ⟨_, 0, hfrmr, frozen_of_frmrCondition hrr 0 hfrmr⟩

/-- An I frame goes out although the peer is in FRMR condition: the frame that is rejected
arrives between two rounds of the I-frame loop. -/
theorem frmrCondition_in_burst :
    ¬∀ nd : Node 1, Kit.Reachable Fresh (Moves Anything) nd →
      ∀ i, (nd.peer i).frmrCondition = true → nd.Frozen i := by
  intro hclaim
  have hstart : Kit.Reachable Fresh (Moves Anything) (onePeer .ndm {} 1 2) :=
    .start (fresh_onePeer .ndm (.inl rfl) {} 1 2)
  obtain ⟨nd, hrun, hp⟩ := Kit.Reachable.exists_of_run next (fun _ _ _ => moves_next) hstart
    [.receive (shortFrame 1 0x93), .txFetch, .txEntry { uResponse := some default }, .txCheck,
      .txIFrame, .txSFrame fun _ => none, .peer 0 (.writeBegin [1]),
      .peer 0 (.writeReserve false (some default)), .peer 0 .writeInsert,
      .receive (shortFrame 1 0x11), .txFetch, .txEntry {}, .txCheck, .receive (shortFrame 1 0x71)]
    (fun nd => (nd.peer 0).frmrCondition &&
      nd.sendsOne .txIFrame fun fp => decide (frameType nd.s.framing fp = .iFrame))
    (by decide +kernel)
  rw [Bool.and_eq_true] at hp
  obtain ⟨hfrmr, hsent⟩ := hp
  obtain ⟨nd', fp, hact, htype⟩ := exists_of_sendsOne hsent
  exact (hclaim nd hrun 0 hfrmr).noIFrame .txIFrame nd' [fp] hact (Subsingleton.elim _ _) fp
    (List.mem_singleton.mpr rfl) (of_decide_eq_true htype)

end Node

end IoHdlc
