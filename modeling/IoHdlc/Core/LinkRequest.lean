import IoHdlc.Core.NodeEmission

/-!
The requests of the application for U commands, from the call that places one to the pass
that sends it.

The request is an event flag that the transmit worker takes before it knows whether the
command can go out. What has to hold when it does is `KeepsRequests`.
-/

namespace IoHdlc

/-! ### Events are only added -/

/-- The events that wait for the transmit worker still wait. -/
def Link.Listens (l l' : Link) : Prop := l.s.cmListener ⊆ l'.s.cmListener

section Listens

variable {l l' l'' : Link} {fp : Frame}

theorem Link.Listens.refl (l : Link) : l.Listens l := Finset.Subset.refl _

theorem Link.Listens.trans (h : l.Listens l') (h' : l'.Listens l'') : l.Listens l'' :=
  Finset.Subset.trans h h'

theorem Link.Listens.of_eq (h : l'.s.cmListener = l.s.cmListener) : l.Listens l' :=
  h.symm.subset

theorem Link.Listens.add {flags : EvtFlags} (h : l'.s.cmListener = l.s.cmListener ∪ flags) :
    l.Listens l' := by
  rw [Link.Listens, h]
  exact Finset.subset_union_left

theorem handleCheckpointAndAck_listens {nr : UInt32} {pf isCommand : Bool} {ack : AckResult}
    (h : handleCheckpointAndAck l nr pf isCommand = some ack) : l.Listens ack.link := by
  obtain ⟨_, _, _, _, _, _, _, _, _, _, _, -, h⟩ := handleCheckpointAndAck_fields h
  rw [h]
  exact .of_eq rfl

theorem handleIFrame_listens (pf : Bool) : l.Listens (handleIFrame l fp pf).1 := by
  simp only [handleIFrame]
  split
  all_goals exact .of_eq rfl

theorem handleSFrame_listens : l.Listens (handleSFrame l fp).1 := by
  obtain ⟨_, _, _, _, _, _, h⟩ := handleSFrame_fields l fp
  rw [h]
  exact .of_eq rfl

theorem commonRx_listens (isCommand : Bool) : l.Listens (commonRx l fp isCommand).1 := by
  cases commonRx_does l fp isCommand with
  | frmr on eq =>
    rw [eq, frmrPending]
    split
    · exact .add rfl
    · exact .refl l
  | reject off hack eq =>
    rw [eq]
    exact .add rfl
  | @iFrame ack r off hack hi hr eq =>
    have hlis : ack.link.Listens r.1 := hr ▸ handleIFrame_listens _
    rw [eq]
    exact ((handleCheckpointAndAck_listens hack).trans hlis).trans (.add rfl)
  | @sFrame ack r off hack hi hr eq =>
    have hlis : ack.link.Listens r.1 := hr ▸ handleSFrame_listens
    rw [eq]
    exact ((handleCheckpointAndAck_listens hack).trans hlis).trans (.add rfl)

theorem leaveModeIfLast_listens (l : Link) : l.Listens (leaveModeIfLast l) := by
  rw [leaveModeIfLast]
  split <;> exact .of_eq rfl

theorem closePeerOrderly_listens (l : Link) : l.Listens (closePeerOrderly l) := by
  have hclose := leaveModeIfLast_listens
    (ioHdlcSetDisconnected ⟨l.s, clearPeerTxQueues (resetPeerProtocolState l.p)⟩ .orderly)
  simp only [closePeerOrderly]
  split
  · exact hclose
  · exact hclose

theorem handleTimeoutRetry_listens (l : Link) : l.Listens (handleTimeoutRetry l).1 := by
  rw [handleTimeoutRetry]
  split
  · have hleave := leaveModeIfLast_listens (ioHdlcSetDisconnected
      ⟨l.s.broadcastFlags {.linkDown}, clearPeerTxQueues (resetPeerProtocolState l.p)⟩ .aborted)
    have habort : l.Listens (abortPeerLink { l with s := l.s.broadcastFlags {.linkDown} }) :=
      Finset.Subset.trans Finset.subset_union_left hleave
    dsimp only
    split
    all_goals exact habort
  · exact .refl l

theorem serveUCommand_listens (fp : Frame) : l.Listens (serveUCommand l fp) := by
  simp only [serveUCommand]
  split
  · exact .of_eq rfl
  split
  · exact .refl l
  split
  · exact .refl l
  · exact .refl l

theorem serveUResponse_listens (uCmd : UInt8) : l.Listens (serveUResponse l uCmd) := by
  have hclose := closePeerOrderly_listens l
  simp only [serveUResponse]
  by_cases hdisc : l.p.umCmd = IOHDLC_U_DISC
  · simp only [if_pos hdisc, if_neg (not_not.mpr hdisc)]
    split
    · exact hclose.trans (.add rfl)
    split
    · exact hclose.trans (.add rfl)
    split
    · exact .of_eq rfl
    · exact .refl l
  · simp only [if_neg hdisc, if_pos (show l.p.umCmd ≠ IOHDLC_U_DISC from hdisc)]
    split
    · exact .add rfl
    split
    · exact .add rfl
    split
    · exact .of_eq rfl
    · exact .refl l

theorem handleUFrame_listens (fp : Frame) : l.Listens (handleUFrame l fp) := by
  simp only [handleUFrame]
  split
  · exact .refl l
  split
  · rw [receiveUi]
    split
    · exact .refl l
    split
    · exact .refl l
    · exact .of_eq rfl
  split
  · rw [receiveUCommand]
    split
    · have hserve := serveUCommand_listens
        (l := registerUCommand l (uFunction l fp) (getPF l.s.framing fp)) fp
      exact hserve.trans (.add rfl)
    · exact .refl l
  · simp only [receiveUResponse]
    split
    · split
      · exact .add rfl
      · exact serveUResponse_listens (l := { l with p := { l.p with replyTmr := l.p.replyTmr.reset } }) _
    · exact .refl l

theorem serveReplyTimeout_listens (l : Link) (flags : EvtFlags) :
    l.Listens (serveReplyTimeout l flags).1 := by
  have hretry := handleTimeoutRetry_listens l
  simp only [serveReplyTimeout]
  split
  · split
    · exact hretry.trans (.of_eq rfl)
    · exact hretry
  · exact .refl l

theorem serveT3Timeout_listens (l : Link) (flags : EvtFlags) :
    l.Listens (serveT3Timeout l flags).1 := by
  have hretry := handleTimeoutRetry_listens { l with p := { l.p with t3Tmr := l.p.t3Tmr.reset } }
  simp only [serveT3Timeout]
  split
  · split
    · exact .of_eq rfl
    split
    · exact .of_eq rfl
    split
    · exact hretry.trans (.of_eq rfl)
    · exact hretry
  · exact .refl l

theorem connectedTxEntry_listens (l : Link) (flags : EvtFlags) (take : Option Frame) :
    l.Listens (connectedTxEntry l flags take).link := by
  have hreply := serveReplyTimeout_listens l (flags \ {.lineIdle})
  have ht3 := hreply.trans (serveT3Timeout_listens _ ((flags \ {.lineIdle}) \ {.cRplytmo}))
  simp only [connectedTxEntry]
  split
  · split
    · exact ht3.trans (.of_eq (congrArg Station.cmListener (sendUi_station _ take)))
    · exact ht3
  · exact hreply

theorem sendUCommand_listens (l : Link) (timedOut : Bool) (take : Option Frame) :
    l.Listens (sendUCommand l timedOut take).link := by
  have hretry : l.Listens (retryBefore l timedOut).1 := by
    rw [retryBefore]
    split
    · exact handleTimeoutRetry_listens l
    · exact .refl l
  rcases sendUCommand_ends l timedOut take with
    ⟨-, h⟩ | ⟨-, -, h⟩ | ⟨-, -, h, -⟩ | ⟨-, -, -, fp, -, h⟩
  · rw [h]
    exact .refl l
  · rw [h]
    exact hretry
  · rw [h]
    exact hretry.trans (.of_eq rfl)
  · obtain ⟨t3, delay, hsent⟩ := uCommandSent_eq (presetF (retryBefore l timedOut).1)
    rw [h, hsent]
    exact hretry.trans (.of_eq rfl)

theorem uResponseStage_listens (l : Link) (flags : EvtFlags) (take : Option Frame) :
    l.Listens (uResponseStage l flags take).1 := by
  have hsent (l : Link) : l.Listens (uResponseSent l) := by
    rw [uResponseSent]
    split
    · exact .of_eq rfl
    split
    · exact closePeerOrderly_listens l
    · exact .refl l
  rw [uResponseStage]
  split
  · simp only [sendUResponse]
    split
    · refine Link.Listens.trans ?_ (hsent _)
      exact .of_eq rfl
    · exact .of_eq rfl
  · exact .refl l

theorem dispatchTx_listens (l : Link) (flags : EvtFlags) (take : Option Frame) :
    l.Listens (dispatchTx l flags take).link := by
  simp only [dispatchTx]
  split
  · split <;> exact .refl l
  split
  · exact connectedTxEntry_listens ..
  · exact .refl l

theorem servePeer_listens (l : Link) (flags : EvtFlags) (take : Takes) :
    l.Listens (servePeer l flags take).link :=
  (uResponseStage_listens ..).trans (dispatchTx_listens ..)

theorem serveRequest_listens (l : Link) (flags : EvtFlags) (timedOut : Bool) (take : Takes) :
    l.Listens (serveRequest l flags timedOut take).link := by
  have hcmd := sendUCommand_listens l timedOut take.uCommand
  simp only [serveRequest]
  split
  · exact hcmd
  · exact hcmd
  · exact hcmd
  · exact hcmd.trans (servePeer_listens ..)

theorem linkUpStart_listens (l : Link) (mode : Mode) (nrmOnly : Bool) :
    l.Listens (linkUpStart l mode nrmOnly).1 := by
  simp only [linkUpStart]
  split
  · exact .refl l
  split
  · exact .refl l
  split
  · exact .of_eq rfl
  split
  · exact .of_eq rfl
  · exact .add rfl

theorem linkDownStart_listens (l : Link) : l.Listens (linkDownStart l).1 := by
  simp only [linkDownStart]
  split
  · exact .refl l
  split
  · exact .refl l
  · exact .add rfl

theorem peerTestStart_listens (l : Link) (len : Nat) (take : Option Frame) :
    l.Listens (peerTestStart l len take).1 := by
  simp only [peerTestStart]
  split
  · exact .refl l
  split
  · exact .refl l
  split
  · exact .refl l
  split
  · exact .refl l
  · exact .add rfl

theorem peerTestExpire_listens (l : Link) : l.Listens (peerTestExpire l) := by
  rcases peerTestExpire_eq l with h | h | ⟨-, h⟩ <;> rw [h]
  · exact .refl l
  · exact .of_eq rfl
  · exact .add rfl

theorem PeerOp.apply_listens {op : PeerOp} {w : WriterPc} {r : Link × WriterPc}
    (h : op.apply l w = some r) : l.Listens r.1 := by
  have henq (c : Prop) [Decidable c] :
      l.s.cmListener ⊆ if c then l.s.cmListener ∪ {.txIfrmEnq} ∩ flagsMask else l.s.cmListener := by
    split
    · exact Finset.subset_union_left
    · exact Finset.Subset.refl _
  cases op with
  | writeBegin octets =>
    cases w <;> simp only [PeerOp.apply, reduceCtorEq, Option.some.injEq] at h
    subst h
    rw [IoHdlc.writeBegin]
    split <;> exact .of_eq rfl
  | writeReserve timedOut take =>
    cases w <;> simp only [PeerOp.apply, reduceCtorEq, Option.some.injEq] at h
    subst h
    simp only [IoHdlc.writeReserve]
    split
    · exact .refl l
    split
    · exact .refl l
    split
    · exact .refl l
    split
    · exact henq _
    split <;> exact .refl l
  | writeInsert =>
    cases w <;> simp only [PeerOp.apply, reduceCtorEq, Option.some.injEq] at h
    subst h
    simp only [IoHdlc.writeInsert]
    split
    · exact .refl l
    split <;> exact .of_eq rfl
  | writeDone =>
    cases w <;> simp only [PeerOp.apply, reduceCtorEq, Option.some.injEq] at h
    subst h
    exact henq _
  | read =>
    simp only [PeerOp.apply] at h
    split at h
    · cases h
      exact .of_eq rfl
    · cases h
  | replyTimer =>
    cases h
    rw [Endpoint.replyTimerExpiry]
    split
    · exact .add rfl
    · exact .refl l
  | t3Timer =>
    cases h
    rw [Endpoint.t3TimerExpiry]
    split
    · exact .add rfl
    · exact .refl l
  | uiSend value =>
    cases h
    rw [ioHdlcPeerUiSend]
    split
    · exact .refl l
    · exact .add rfl
  | uiGet =>
    cases h
    rw [ioHdlcPeerUiGet]
    split <;> exact .of_eq rfl
  | peerTest len take =>
    cases h
    exact peerTestStart_listens l len take
  | peerTestTake =>
    cases h
    rw [sTakeCompletedTestFrame]
    split <;> exact .of_eq rfl
  | peerTestExpire =>
    cases h
    exact peerTestExpire_listens l

end Listens

/-! ### A pass that serves a request -/

/-- Whether the section for U commands hands one to the driver. -/
def emitsUCommand (l : Link) (timedOut : Bool) (take : Option Frame) : Bool :=
  mayOriginateUCommand l && !exhaustsUCommand l timedOut &&
    sendOpportunity (retryUCommand l timedOut).s && (l.p.umApiFrame.isSome || take.isSome)

/-- Whether a pass that serves a U command hands one to the driver, or gives the link up. -/
def sendsUCommand (l : Link) (timedOut : Bool) (take : Option Frame) : Bool :=
  exhaustsUCommand l timedOut || emitsUCommand l timedOut take

/-- No command waits to be sent. -/
def Link.NoRequest (l : Link) : Prop := l.p.umState.sent = true ∨ l.p.umCmd = 0

section NoRequest

variable {l : Link} {flags : EvtFlags} {timedOut : Bool} {take : Takes}

theorem closePeerOrderly_umCmd (l : Link) : (closePeerOrderly l).p.umCmd = 0 := by
  have hleave := leaveModeIfLast_p (ioHdlcSetDisconnected
    ⟨l.s, clearPeerTxQueues (resetPeerProtocolState l.p)⟩ .orderly)
  simp only [closePeerOrderly]
  split
  · exact congrArg Peer.umCmd hleave
  · exact congrArg Peer.umCmd hleave

theorem abortPeerLink_umCmd (l : Link) : (abortPeerLink l).p.umCmd = 0 :=
  congrArg Peer.umCmd (leaveModeIfLast_p (ioHdlcSetDisconnected
    ⟨l.s, clearPeerTxQueues (resetPeerProtocolState l.p)⟩ .aborted))

theorem exhaustsUCommand_may (h : exhaustsUCommand l timedOut = true) :
    mayOriginateUCommand l = true := by
  simp only [exhaustsUCommand, Bool.and_eq_true] at h
  exact h.1.1.1

/-- The last retry is over: the link is given up. -/
theorem sendUCommand_exhausted (h : exhaustsUCommand l timedOut = true) (take : Option Frame) :
    (sendUCommand l timedOut take).next = .linkDown ∧ (sendUCommand l timedOut take).sent = none ∧
      (sendUCommand l timedOut take).link.p.umCmd = 0 := by
  have hmay := exhaustsUCommand_may h
  simp only [exhaustsUCommand, Bool.and_eq_true, decide_eq_true_eq] at h
  obtain ⟨⟨⟨-, htime⟩, htest⟩, hmax⟩ := h
  have hclose := abortPeerLink_umCmd { l with s := l.s.broadcastFlags {.linkDown} }
  have hretry : (handleTimeoutRetry l).2 = false ∧ (handleTimeoutRetry l).1.p.umCmd = 0 := by
    rw [handleTimeoutRetry, if_pos hmax]
    refine ⟨rfl, ?_⟩
    dsimp only
    split <;> exact hclose
  have hbefore : retryBefore l timedOut = handleTimeoutRetry l := by
    rw [retryBefore, if_pos (by rw [htime, decide_eq_true htest, Bool.true_and])]
  simp only [sendUCommand, if_pos hmay]
  rw [← retryBefore, hbefore, hretry.1, if_neg Bool.false_ne_true]
  exact ⟨rfl, rfl, hretry.2⟩

/-- A command goes out, or is kept back. -/
theorem sendUCommand_emits (l : Link) (timedOut : Bool) (take : Option Frame) :
    (emitsUCommand l timedOut take = true ∧ ∃ fp, sendUCommand l timedOut take =
        { link := uCommandSent (retryUCommand l timedOut), sent := some fp, next := .go }) ∨
      (emitsUCommand l timedOut take = false ∧ (sendUCommand l timedOut take).sent = none) := by
  by_cases hex : exhaustsUCommand l timedOut = true
  · refine .inr ⟨?_, (sendUCommand_exhausted hex take).2.1⟩
    rw [emitsUCommand, hex, Bool.not_true, Bool.and_false, Bool.false_and, Bool.false_and]
  have hex := Bool.eq_false_iff.mpr hex
  by_cases hmay : mayOriginateUCommand l = true
  · rw [sendUCommand_eq l timedOut take hmay hex, emitsUCommand, hmay, hex, Bool.not_false,
      Bool.true_and, Bool.true_and]
    dsimp only
    by_cases hopp : sendOpportunity (retryUCommand l timedOut).s = true
    · rw [if_pos hopp, hopp, Bool.true_and]
      have hsame : (retryUCommand l timedOut).p.umApiFrame = l.p.umApiFrame := rfl
      rw [hsame]
      cases l.p.umApiFrame with
      | some fp => exact .inl ⟨rfl, fp, rfl⟩
      | none =>
        cases take with
        | some stale => exact .inl ⟨rfl, _, rfl⟩
        | none => exact .inr ⟨rfl, rfl⟩
    · rw [if_neg hopp, Bool.eq_false_iff.mpr hopp, Bool.false_and]
      exact .inr ⟨rfl, rfl⟩
  · rw [emitsUCommand, Bool.eq_false_iff.mpr hmay, Bool.false_and, Bool.false_and, Bool.false_and]
    exact .inr ⟨rfl, by rw [sendUCommand, if_neg hmay]⟩

theorem sendUCommand_noRequest {take : Option Frame} (h : sendsUCommand l timedOut take = true) :
    ((sendUCommand l timedOut take).next = .go ∧
        (sendUCommand l timedOut take).link.p.umState.sent = true) ∨
      ((sendUCommand l timedOut take).next = .linkDown ∧
        (sendUCommand l timedOut take).link.p.umCmd = 0) := by
  rw [sendsUCommand, Bool.or_eq_true] at h
  rcases h with hex | hemit
  · obtain ⟨hdown, -, hcmd⟩ := sendUCommand_exhausted hex take
    exact .inr ⟨hdown, hcmd⟩
  · rcases sendUCommand_emits l timedOut take with ⟨-, fp, h⟩ | ⟨hno, -⟩
    · rw [h]
      obtain ⟨t3, delay, heq⟩ := uCommandSent_eq (retryUCommand l timedOut)
      exact .inl ⟨rfl, by rw [heq]⟩
    · exact absurd (hno.symm.trans hemit) Bool.false_ne_true

theorem uResponseSent_noRequest (h : l.p.umState.sent = true) :
    (uResponseSent l).p.umState.sent = true ∨
      (uResponseSent l).p.isDisc = true ∧ (uResponseSent l).p.umCmd = 0 := by
  rw [uResponseSent]
  by_cases htest : l.p.umCmd = IOHDLC_U_TEST
  · rw [if_pos htest]
    exact .inl h
  · rw [if_neg htest]
    split
    · exact .inr ⟨congrArg Bool.not (closePeerOrderly_closes l).stConn, closePeerOrderly_umCmd l⟩
    · exact .inl h

theorem uResponseStage_noRequest (h : l.p.umState.sent = true) (flags : EvtFlags)
    (take : Option Frame) :
    (uResponseStage l flags take).1.p.umState.sent = true ∨
      (uResponseStage l flags take).1.p.isDisc = true ∧
        (uResponseStage l flags take).1.p.umCmd = 0 := by
  rw [uResponseStage]
  split
  · simp only [sendUResponse]
    split
    · exact uResponseSent_noRequest h
    · exact .inl h
  · exact .inl h

theorem serveRequest_noRequest (h : sendsUCommand l timedOut take.uCommand = true) :
    (serveRequest l flags timedOut take).link.NoRequest := by
  simp only [serveRequest]
  rcases sendUCommand_noRequest h with ⟨hgo, hsent⟩ | ⟨hdown, hcmd⟩
  · rw [hgo]
    dsimp only
    simp only [servePeer, dispatchTx]
    rcases uResponseStage_noRequest hsent flags take.uResponse with hsent | ⟨hdisc, hcmd⟩
    · rw [if_pos (by rw [hsent, Bool.or_true])]
      split <;> exact .inl hsent
    · rw [if_pos (by rw [hdisc, Bool.true_or])]
      split <;> exact .inr hcmd
  · rw [hdown]
    exact .inr hcmd

end NoRequest

/-- The flags that a section has taken and not served. -/
def TxPc.flags : TxPc → EvtFlags
  | .idle flags | .check flags | .iFrame flags _ | .skipIFrames flags _ => flags

namespace Node

variable {n : Nat}

/-- A request of peer `i` waits for the transmit worker, or has made it turn to this peer. -/
def Armed (nd : Node n) (i : Fin n) : Prop :=
  .linkReq ∈ nd.s.cmListener ∨
    match nd.pc with
    | .sched pc => .linkReq ∈ pc.flags
    | .switched _ _ => nd.cPeer = i
    | .advance => False

instance decidableArmed (nd : Node n) (i : Fin n) : Decidable (nd.Armed i) :=
  match hpc : nd.pc with
  | .sched pc =>
    decidable_of_iff (.linkReq ∈ nd.s.cmListener ∨ .linkReq ∈ pc.flags) (by rw [Armed, hpc])
  | .switched _ _ =>
    decidable_of_iff (.linkReq ∈ nd.s.cmListener ∨ nd.cPeer = i) (by rw [Armed, hpc])
  | .advance => decidable_of_iff (.linkReq ∈ nd.s.cmListener) (by rw [Armed, hpc, or_false])

/-- Whether an action places a U command of the application at peer `i`. -/
def placesUCommand (nd : Node n) (i : Fin n) : Action n → Bool
  | .linkUp j mode nrmOnly =>
    j = i && match (linkUpStart (nd.link i) mode nrmOnly).2 with
      | .waits _ => true
      | .returns _ => false
  | .linkDown j =>
    j = i && (nd.peer i).ssState.stConn && (nd.s.flags.pri || nd.s.mode = .abm)
  | .peer j (.peerTest len take) => j = i && (peerTestStart (nd.link i) len take).2.isOk
  | _ => false

/-- Whether an action leaves the request of peer `i` alone, serves it, or will be told of it
again. -/
def keepsRequest (nd : Node n) (i : Fin n) : Action n → Bool
  | .txEntry take => match nd.pc with
    | .sched (.idle flags) =>
      .linkReq ∉ flags || .linkReq ∈ nd.s.cmListener ||
        if requestsOtherPeer (nd.link nd.cPeer) flags then nd.ioHdlcNextPeer true = i
        else nd.cPeer = i &&
          sendsUCommand (nd.link nd.cPeer) (decide (.cRplytmo ∈ flags)) take.uCommand
    | _ => true
  | .txSwitched take => match nd.pc with
    | .switched _ timedOut =>
      nd.cPeer ≠ i || .linkReq ∈ nd.s.cmListener ||
        sendsUCommand (nd.link nd.cPeer) timedOut take.uCommand
    | _ => true
  | _ => true

variable {nd nd' : Node n} {a : Action n} {sent : List Frame} {i : Fin n} {l : Link}

/-- Another action than one of the transmit worker adds events. -/
theorem act_listens (ha : a.isTx = false) (h : nd.act a = some (nd', sent)) :
    nd.s.cmListener ⊆ nd'.s.cmListener := by
  cases a with
  | txFetch | txEntry | txSwitched | txAdvance | txCheck | txIFrame | txSFrame => cases ha
  | receive fp =>
    cases h
    rw [receive]
    split
    · exact handleUFrame_listens (l := Endpoint.lineBusy (nd.link nd.cPeer)) fp
    · rcases rxDispatch_cases (Endpoint.lineBusy (nd.link nd.cPeer)) fp with h | ⟨-, isCommand, h⟩
      · rw [h]
        exact Finset.Subset.refl _
      · rw [h]
        exact commonRx_listens (l := Endpoint.lineBusy (nd.link nd.cPeer)) isCommand
  | linkUp i mode nrmOnly =>
    cases h
    have hlis := linkUpStart_listens (nd.link i) mode nrmOnly
    split <;> exact hlis
  | linkUpDone call | linkUpFails call =>
    simp only [act] at h
    split at h
    · cases h
      exact Finset.Subset.refl _
    · cases h
  | linkDown i =>
    cases h
    exact linkDownStart_listens (nd.link i)
  | peer i op =>
    simp only [act, Option.map_eq_some_iff] at h
    obtain ⟨r, hr, h⟩ := h
    cases h
    exact PeerOp.apply_listens hr
  | poolState =>
    cases h
    exact Finset.Subset.refl _
  | lineIdle =>
    cases h
    simp only [Endpoint.lineIdle]
    change nd.s.cmListener ⊆ if nd.s.flags.twa then _ else _
    split
    · exact Finset.subset_union_left
    · exact Finset.Subset.refl _
  | poolChange =>
    cases h
    exact Finset.subset_union_left

theorem act_placesUCommand (hplace : nd.placesUCommand i a = true) (h : nd.act a = some (nd', sent)) :
    .linkReq ∈ nd'.s.cmListener := by
  have hreq (s : Station) : .linkReq ∈ (s.broadcastFlags {.linkReq}).cmListener :=
    Finset.mem_union_right _ (by decide)
  cases a with
  | linkUp j mode nrmOnly =>
    simp only [placesUCommand, Bool.and_eq_true, decide_eq_true_eq] at hplace
    obtain ⟨rfl, hwait⟩ := hplace
    cases h
    have hlink : .linkReq ∈ (linkUpStart (nd.link j) mode nrmOnly).1.s.cmListener := by
      generalize hr : linkUpStart (nd.link j) mode nrmOnly = r at hwait
      simp only [linkUpStart] at hr
      split at hr
      · subst hr
        cases hwait
      split at hr
      · subst hr
        cases hwait
      split at hr
      · subst hr
        cases hwait
      split at hr
      · subst hr
        cases hwait
      · subst hr
        exact hreq _
    split <;> exact hlink
  | linkDown j =>
    simp only [placesUCommand, Bool.and_eq_true, decide_eq_true_eq] at hplace
    obtain ⟨⟨rfl, hconn⟩, hpri⟩ := hplace
    cases h
    change .linkReq ∈ (linkDownStart (nd.link j)).1.s.cmListener
    rw [linkDownStart]
    split
    next hdisc => simp [hconn] at hdisc
    split
    next hmay =>
      obtain ⟨hsec, hmode⟩ := hmay
      simp only [link_s, Bool.not_eq_true'] at hsec hmode
      simp [hsec, hmode] at hpri
    · exact hreq _
  | peer j op =>
    cases op with
    | peerTest len take =>
      simp only [placesUCommand, Bool.and_eq_true, decide_eq_true_eq] at hplace
      obtain ⟨rfl, hok⟩ := hplace
      cases h
      change .linkReq ∈ (peerTestStart (nd.link j) len take).1.s.cmListener
      generalize hr : peerTestStart (nd.link j) len take = r at hok
      simp only [peerTestStart] at hr
      split at hr
      · subst hr
        cases hok
      split at hr
      · subst hr
        cases hok
      split at hr
      · subst hr
        cases hok
      split at hr
      · subst hr
        cases hok
      · subst hr
        exact hreq _
    | _ => simp only [placesUCommand, Bool.false_eq_true] at hplace
  | _ => simp only [placesUCommand, Bool.false_eq_true] at hplace

theorem finishPass_noRequest {r : Pass} (h : r.link.NoRequest) :
    ((nd.finishPass r).1.link nd.cPeer).NoRequest := by
  simp only [finishPass]
  split
  all_goals
    rw [← setLink_link nd nd.cPeer r.link] at h
    exact h

theorem finishTx_armed {t : TxStep} (h : .linkReq ∈ t.link.s.cmListener ∨ .linkReq ∈ t.pc.flags) :
    (nd.finishTx t).Armed i := by
  rw [Armed, finishTx_pc, finishTx_s]
  exact h

theorem connectedTxIFrame_keepsRequest {flags : EvtFlags} {iSent : Bool}
    (h : .linkReq ∈ l.s.cmListener ∨ .linkReq ∈ flags) :
    .linkReq ∈ (connectedTxIFrame l flags iSent).link.s.cmListener ∨
      .linkReq ∈ (connectedTxIFrame l flags iSent).pc.flags := by
  have hunion : .linkReq ∈ flags ∪ l.s.cmListener := Finset.mem_union.mpr h.symm
  rw [connectedTxIFrame]
  split
  · exact h
  split
  · exact h
  · dsimp only
    split
    · exact .inr (Finset.mem_sdiff.mpr ⟨hunion, by decide⟩)
    · refine .inr ?_
      dsimp only
      split <;> exact hunion

/-- A pass from the head of the loop. -/
theorem txEntry_armed {flags : EvtFlags} {take : Takes} (h : nd.txEntry flags take = (nd', sent))
    (hcmd : (nd.peer i).umCmd ≠ 0) (harmed : .linkReq ∈ nd.s.cmListener ∨ .linkReq ∈ flags)
    (hkeep : (.linkReq ∉ flags || .linkReq ∈ nd.s.cmListener ||
      if requestsOtherPeer (nd.link nd.cPeer) flags then nd.ioHdlcNextPeer true = i
      else nd.cPeer = i &&
        sendsUCommand (nd.link nd.cPeer) (decide (.cRplytmo ∈ flags)) take.uCommand) = true) :
    nd'.Armed i ∨ (nd'.link i).NoRequest := by
  obtain rfl := congrArg Prod.fst h
  have hlis : nd.s.cmListener ⊆ (nd.txEntry flags take).1.s.cmListener := by
    simp only [txEntry]
    split
    · split
      · exact Finset.Subset.refl _
      · rw [finishPass_s]
        exact serveRequest_listens (nd.link nd.cPeer) _ _ take
    · rw [finishPass_s]
      exact servePeer_listens (nd.link nd.cPeer) flags take
  by_cases hwait : .linkReq ∈ nd.s.cmListener
  · exact .inl (.inl (hlis hwait))
  have hreq := harmed.resolve_left hwait
  rw [decide_eq_false (not_not.mpr hreq), decide_eq_false hwait, Bool.or_false, Bool.false_or]
    at hkeep
  have hdue : uCommandDue (nd.link nd.cPeer) flags = true := by
    rw [uCommandDue, decide_eq_true hreq, Bool.true_or]
  simp only [txEntry, if_pos hdue]
  split
  next hother =>
    rw [if_pos hother, decide_eq_true_eq] at hkeep
    subst hkeep
    refine .inl (.inr ?_)
    simp only [if_pos hcmd]
  next hother =>
    rw [if_neg hother, Bool.and_eq_true, decide_eq_true_eq] at hkeep
    obtain ⟨rfl, hsends⟩ := hkeep
    exact .inr (finishPass_noRequest (serveRequest_noRequest hsends))

theorem act_armed_tx (ha : a.isTx = true) (h : nd.act a = some (nd', sent))
    (hcmd : (nd.peer i).umCmd ≠ 0) (harmed : nd.Armed i) (hkeep : nd.keepsRequest i a = true) :
    nd'.Armed i ∨ (nd'.link i).NoRequest := by
  cases a with
  | txFetch =>
    simp only [act] at h
    split at h
    next flags hpc =>
      split at h
      next hfetch =>
        cases h
        rw [Armed, hpc] at harmed
        rcases harmed with hreq | hreq
        · exact .inl (.inr hreq)
        · change .linkReq ∈ flags at hreq
          rw [hfetch.1] at hreq
          cases hreq
      · cases h
    · cases h
  | txEntry take =>
    simp only [act] at h
    split at h
    next flags hpc =>
      split at h
      · rw [Armed, hpc] at harmed
        simp only [keepsRequest, hpc] at hkeep
        exact txEntry_armed (Option.some.inj h) hcmd harmed hkeep
      · cases h
    · cases h
  | txSwitched take =>
    simp only [act] at h
    split at h
    next flags timedOut hpc =>
      rw [Armed, hpc] at harmed
      simp only [keepsRequest, hpc] at hkeep
      obtain rfl := congrArg Prod.fst (Option.some.inj h)
      have hlis := serveRequest_listens (nd.link nd.cPeer) flags timedOut take
      have hwait (hreq : .linkReq ∈ nd.s.cmListener) :
          (nd.finishPass (serveRequest (nd.link nd.cPeer) flags timedOut take)).1.Armed i :=
        .inl (by rw [finishPass_s]; exact hlis hreq)
      rcases harmed with hreq | rfl
      · exact .inl (hwait hreq)
      · rw [decide_eq_false (not_not.mpr rfl), Bool.false_or, Bool.or_eq_true, decide_eq_true_eq]
          at hkeep
        rcases hkeep with hreq | hsends
        · exact .inl (hwait hreq)
        · exact .inr (finishPass_noRequest (serveRequest_noRequest hsends))
    · cases h
  | txAdvance =>
    simp only [act] at h
    split at h
    next hpc =>
      cases h
      rw [Armed, hpc] at harmed
      refine .inl (.inl ?_)
      have hreq := harmed.resolve_right not_false
      rw [Node.txAdvance]
      split <;> exact hreq
    · cases h
  | txCheck =>
    simp only [act] at h
    split at h
    next flags hpc =>
      cases h
      rw [Armed, hpc] at harmed
      refine .inl (harmed.imp_right fun hreq => ?_)
      change .linkReq ∈ (connectedTxCheck (nd.link nd.cPeer) flags).pc.flags
      rw [connectedTxCheck]
      dsimp only
      split <;> exact hreq
    · cases h
  | txIFrame =>
    simp only [act] at h
    split at h
    next flags iSent hpc =>
      cases h
      rw [Armed, hpc] at harmed
      exact .inl (finishTx_armed (connectedTxIFrame_keepsRequest harmed))
    · cases h
  | txSFrame take =>
    simp only [act] at h
    split at h
    next flags iSent hpc =>
      cases h
      rw [Armed, hpc] at harmed
      refine .inl (finishTx_armed (.inr ?_))
      have hserved : Evt.linkReq ∉ servedFlags (nd.link nd.cPeer).p.ssState.rejpend := by
        cases (nd.link nd.cPeer).p.ssState.rejpend <;> decide
      exact Finset.mem_sdiff.mpr ⟨Finset.mem_union.mpr harmed.symm, hserved⟩
    · cases h
  | _ => cases ha

/-- A request that is not served stays where the transmit worker finds it. -/
theorem act_armed (h : nd.act a = some (nd', sent)) (hcmd : (nd.peer i).umCmd ≠ 0)
    (harmed : nd.Armed i) (hkeep : nd.keepsRequest i a = true) :
    nd'.Armed i ∨ (nd'.link i).NoRequest := by
  by_cases ha : a.isTx = true
  · exact act_armed_tx ha h hcmd harmed hkeep
  · have ha := Bool.eq_false_iff.mpr ha
    obtain ⟨hpc, hcPeer, -⟩ := act_of_not_isTx ha h
    rw [Armed, hpc, hcPeer]
    exact .inl (harmed.imp_left fun hreq => act_listens ha h hreq)

end Node

/-- A node and the U commands that the application placed and that were not sent. -/
structure WithRequests (n : Nat) where
  node : Node n
  asked : Fin n → Bool

namespace WithRequests

variable {n : Nat} {g g' : WithRequests n} {a : Action n} {i : Fin n}

/-- Whether peer `i` has such a command behind an action. -/
def stillAsked (g : WithRequests n) (a : Action n) (nd' : Node n) (i : Fin n) : Bool :=
  (g.node.placesUCommand i a || (g.asked i && (nd'.peer i).umCmd = (g.node.peer i).umCmd)) &&
    (nd'.peer i).umCmd ≠ 0 && !(nd'.peer i).umState.sent

def next (g : WithRequests n) (a : Action n) : Option (WithRequests n) :=
  (g.node.act a).map fun r => ⟨r.1, g.stillAsked a r.1⟩

def Fresh (g : WithRequests n) : Prop := g.node.Fresh ∧ ∀ i, g.asked i = false

def Moves (ok : WithRequests n → Action n → Prop) (g g' : WithRequests n) : Prop :=
  ∃ a, ok g a ∧ g.next a = some g'

/-- No action takes the request of a peer that it does not serve. -/
def KeepsRequests (g : WithRequests n) (a : Action n) : Prop :=
  ∀ i, g.asked i = true → g.node.keepsRequest i a = true

/-- Every command that waits is known to the transmit worker. -/
def AllArmed (g : WithRequests n) : Prop :=
  ∀ i, g.asked i = true → (g.node.peer i).umCmd ≠ 0 ∧ g.node.Armed i

theorem allArmed_step (hg : g.AllArmed) (hmove : Moves KeepsRequests g g') : g'.AllArmed := by
  obtain ⟨a, hkeep, hnext⟩ := hmove
  obtain ⟨⟨nd', sent⟩, hact, rfl⟩ := Option.map_eq_some_iff.mp hnext
  intro i hi
  simp only [stillAsked, Bool.and_eq_true, Bool.or_eq_true, decide_eq_true_eq,
    Bool.not_eq_true'] at hi
  obtain ⟨⟨hwhy, hcmd⟩, hsent⟩ := hi
  refine ⟨hcmd, ?_⟩
  rcases hwhy with hplace | ⟨hold, hsame⟩
  · exact .inl (Node.act_placesUCommand hplace hact)
  · obtain ⟨hcmd', harmed⟩ := hg i hold
    rcases Node.act_armed hact hcmd' harmed (hkeep i hold) with h | h | h
    · exact h
    · exact absurd (hsent.symm.trans h) Bool.false_ne_true
    · exact absurd h hcmd

end WithRequests

end IoHdlc
