import IoHdlc.Core.LinkRequest

/-!
What the sections do to the P/F state of the station, to the reply timer and to the U command
under way.

The code keeps one `F_RCVED` and one `P_RCVED` for the whole station. `Link.Cycle` says that
a section sets them for a P/F bit that was received and for nothing else; the sections that
do more than that come with the condition under which they do not.
-/

namespace IoHdlc

/-! ### What a section does to the P/F state -/

/-- The P/F state, the reply timer and the U command under way, up to a P bit and an F bit
that were received. -/
structure Link.Cycle (l l' : Link) (p f : Bool) : Prop where
  fRcved : l'.s.pfState.fRcved = true → l.s.pfState.fRcved = true ∨ f = true
  pRcved : l'.s.pfState.pRcved = true → l.s.pfState.pRcved = true ∨ p = true
  armed : l.p.replyTmr.armed = true → l'.p.replyTmr.armed = true ∨ f = true
  sent : l.p.umState.sent = true → l'.p.umState.sent = true ∨ f = true

section Cycle

variable {l l' l'' : Link} {fp : Frame} {p f : Bool}

theorem Link.Cycle.of_eq (hpf : l'.s.pfState = l.s.pfState)
    (harmed : l'.p.replyTmr.armed = l.p.replyTmr.armed)
    (hsent : l'.p.umState.sent = l.p.umState.sent) : l.Cycle l' p f where
  fRcved h := .inl (hpf ▸ h)
  pRcved h := .inl (hpf ▸ h)
  armed h := .inl (harmed ▸ h)
  sent h := .inl (hsent ▸ h)

theorem Link.Cycle.refl (l : Link) : l.Cycle l p f := .of_eq rfl rfl rfl

theorem Link.Cycle.trans (h : l.Cycle l' p f) (h' : l'.Cycle l'' p f) : l.Cycle l'' p f where
  fRcved hf := (h'.fRcved hf).elim h.fRcved .inr
  pRcved hp := (h'.pRcved hp).elim h.pRcved .inr
  armed ha := (h.armed ha).elim h'.armed .inr
  sent hs := (h.sent hs).elim h'.sent .inr

theorem VTimer.restart_armed (t : VTimer) (delayMs : UInt32) :
    (t.restart delayMs).armed = t.armed := by
  rw [VTimer.restart]
  split
  next h => rw [h, VTimer.set]
  · rfl

theorem checkpointOnPF_cycle (isCommand : Bool) : l.Cycle (checkpointOnPF l isCommand).1 p f := by
  simp only [checkpointOnPF]
  split
  · exact .of_eq rfl rfl rfl
  · rcases checkpointRetransmit_fields l.s l.p with h | ⟨x, h⟩
    · rw [h]
      exact .of_eq rfl rfl rfl
    · rw [h]
      exact .of_eq rfl rfl rfl

theorem receivePF_cycle (isCommand : Bool) :
    l.Cycle (receivePF l isCommand) isCommand (!isCommand) := by
  cases isCommand with
  | true =>
    refine ⟨fun h => .inl ?_, fun _ => .inr rfl, fun h => .inl h, fun h => .inl h⟩
    simpa [receivePF] using h
  | false => exact ⟨fun _ => .inr rfl, fun h => .inl (by simpa [receivePF] using h), fun _ => .inr rfl, fun _ => .inr rfl⟩

theorem receiveNoPF_cycle (isCommand : Bool) : l.Cycle (receiveNoPF l isCommand) p f := by
  refine .of_eq rfl ?_ rfl
  simp only [receiveNoPF]
  split
  · exact VTimer.restart_armed ..
  · rfl

theorem handleCheckpointAndAck_cycle {nr : UInt32} {pf isCommand : Bool} {ack : AckResult}
    (h : handleCheckpointAndAck l nr pf isCommand = some ack) :
    l.Cycle ack.link (pf && isCommand) (pf && !isCommand) := by
  have hnr : l.Cycle { l with p := (processNR l.s l.p nr).1 } (pf && isCommand) (pf && !isCommand) := by
    obtain ⟨x, q, n, v, t, hnr⟩ := processNR_fields l.s l.p nr
    rw [hnr]
    exact .of_eq rfl rfl rfl
  simp only [handleCheckpointAndAck] at h
  split at h
  · split at h
    next hpf =>
      cases h
      rw [hpf, Bool.true_and, Bool.true_and] at hnr ⊢
      exact hnr.trans ((checkpointOnPF_cycle isCommand).trans (receivePF_cycle isCommand))
    · cases h
      exact hnr.trans (receiveNoPF_cycle isCommand)
  · cases h

theorem handleIFrame_cycle (pf : Bool) : l.Cycle (handleIFrame l fp pf).1 p f := by
  simp only [handleIFrame]
  split
  all_goals exact .of_eq rfl rfl rfl

theorem handleSFrame_cycle : l.Cycle (handleSFrame l fp).1 p f := by
  obtain ⟨_, _, _, _, _, _, h⟩ := handleSFrame_fields l fp
  rw [h]
  exact .of_eq rfl rfl rfl

theorem commonRx_cycle (isCommand : Bool) :
    l.Cycle (commonRx l fp isCommand).1 (getPF l.s.framing fp && isCommand)
      (getPF l.s.framing fp && !isCommand) := by
  cases commonRx_does l fp isCommand with
  | frmr on eq =>
    rw [eq, frmrPending]
    split
    · exact .of_eq rfl rfl rfl
    · exact .refl l
  | reject off hack eq =>
    rw [eq]
    exact .of_eq rfl rfl rfl
  | @iFrame ack r off hack hi hr eq =>
    have hcycle := (handleCheckpointAndAck_cycle hack).trans
      (hr ▸ handleIFrame_cycle _ : ack.link.Cycle r.1 _ _)
    rw [eq]
    exact hcycle.trans (.of_eq rfl rfl rfl)
  | @sFrame ack r off hack hi hr eq =>
    have hcycle := (handleCheckpointAndAck_cycle hack).trans
      (hr ▸ handleSFrame_cycle : ack.link.Cycle r.1 _ _)
    rw [eq]
    exact hcycle.trans (.of_eq rfl rfl rfl)

/-! ### The P/F bit on the line -/

/-- A set P/F bit under the address of the peer: a P if it is sent, an F if it is received. -/
def Link.peerPF (l : Link) (fp : Frame) : Bool :=
  linePF l.s.framing fp && fp.addr l.s.framing = l.p.addr.toUInt8

/-- A set P/F bit under the address of the station: an F if it is sent, a P if it is
received. -/
def Link.ownPF (l : Link) (fp : Frame) : Bool :=
  linePF l.s.framing fp && fp.addr l.s.framing = l.s.addr.toUInt8

/-- The P/F bit of a U frame is where the code looks for it. -/
def Link.ReadsPF (l : Link) (fp : Frame) : Prop :=
  linePF l.s.framing fp = getPF l.s.framing fp

theorem Link.Cycle.mono {p' f' : Bool} (h : l.Cycle l' p f) (hp : p = true → p' = true)
    (hf : f = true → f' = true) : l.Cycle l' p' f' where
  fRcved h' := (h.fRcved h').imp_right hf
  pRcved h' := (h.pRcved h').imp_right hp
  armed h' := (h.armed h').imp_right hf
  sent h' := (h.sent h').imp_right hf

theorem octet_of_addr {a : UInt8} {addr : UInt32} (h : a.toUInt32 = addr) : a = addr.toUInt8 := by
  rw [← h, UInt8.toUInt8_toUInt32]

theorem rxDispatch_cycle (hpf : l.ReadsPF fp) :
    l.Cycle (rxDispatch l fp).1 (l.ownPF fp) (l.peerPF fp) := by
  rcases rxDispatch_eq l fp with ⟨-, h⟩ | ⟨hreach, h⟩
  · rw [h]
    exact .refl l
  · rw [h]
    refine (commonRx_cycle _).mono (fun hp => ?_) (fun hf => ?_)
    · rw [Bool.and_eq_true, decide_eq_true_eq] at hp
      rw [Link.ownPF, hpf, hp.1, Bool.true_and, decide_eq_true_eq]
      exact octet_of_addr hp.2
    · rw [Bool.and_eq_true, Bool.not_eq_true', decide_eq_false_iff_not] at hf
      rw [Link.peerPF, hpf, hf.1, Bool.true_and, decide_eq_true_eq]
      have haddr := (reachesPeer_addr hreach).resolve_left hf.2
      exact octet_of_addr haddr

/-- Whether a received frame is a command that opens the connection. -/
def setsMode (l : Link) (fp : Frame) : Bool :=
  (fp.addr l.s.framing).toUInt32 = l.s.addr && acceptsUCommand l fp &&
    (ucmdToMode (uFunction l fp)).isSome

theorem serveUCommand_cycle (hmode : ucmdToMode (uFunction l fp) = none) :
    l.Cycle (serveUCommand l fp) p f := by
  simp only [serveUCommand, hmode]
  split
  · exact .of_eq rfl rfl rfl
  split
  · exact .of_eq rfl rfl rfl
  · exact .of_eq rfl rfl rfl

theorem receiveUCommand_cycle (hpf : l.ReadsPF fp)
    (haddr : (fp.addr l.s.framing).toUInt32 = l.s.addr) (hmode : setsMode l fp = false) :
    l.Cycle (receiveUCommand l fp) (l.ownPF fp) f := by
  rw [receiveUCommand]
  split
  next hacc =>
    rw [setsMode, decide_eq_true haddr, hacc, Bool.true_and, Bool.true_and,
      Option.isSome_eq_false_iff, Option.isNone_iff_eq_none] at hmode
    have hreg : l.Cycle (registerUCommand l (uFunction l fp) (getPF l.s.framing fp))
        (l.ownPF fp) f := by
      refine ⟨.inl, fun h => ?_, .inl, .inl⟩
      rw [registerUCommand, Bool.or_eq_true] at h
      refine h.imp_right fun h => ?_
      rw [Link.ownPF, hpf, h, Bool.true_and, decide_eq_true_eq]
      exact octet_of_addr haddr
    have hserve := hreg.trans (serveUCommand_cycle
      (l := registerUCommand l (uFunction l fp) (getPF l.s.framing fp)) hmode)
    exact hserve.trans (.of_eq rfl rfl rfl)
  · exact .refl l

/-- A response with the F bit may do anything but register a P bit. -/
theorem Link.Cycle.of_answer (h : l'.s.pfState.pRcved = true → l.s.pfState.pRcved = true) :
    l.Cycle l' p true :=
  ⟨fun _ => .inr rfl, fun hp => .inl (h hp), fun _ => .inr rfl, fun _ => .inr rfl⟩

theorem leaveModeIfLast_pRcved (l : Link) :
    (leaveModeIfLast l).s.pfState.pRcved = l.s.pfState.pRcved := by
  rw [leaveModeIfLast]
  split <;> rfl

theorem closePeerOrderly_pRcved (l : Link) :
    (closePeerOrderly l).s.pfState.pRcved = l.s.pfState.pRcved := by
  have hleave := leaveModeIfLast_pRcved (ioHdlcSetDisconnected
    ⟨l.s, clearPeerTxQueues (resetPeerProtocolState l.p)⟩ .orderly)
  simp only [closePeerOrderly]
  split <;> exact hleave

theorem receiveUResponse_pRcved (l : Link) (fp : Frame) :
    (receiveUResponse l fp).s.pfState.pRcved = l.s.pfState.pRcved := by
  have hclose := closePeerOrderly_pRcved
    { l with p := { l.p with replyTmr := l.p.replyTmr.reset } }
  simp only [receiveUResponse]
  split
  · split
    · rfl
    · simp only [finishUResponse, serveUResponse]
      by_cases hdisc : l.p.umCmd = IOHDLC_U_DISC
      · simp only [if_pos hdisc, if_neg (not_not.mpr hdisc)]
        split
        · exact hclose
        split
        · exact hclose
        split <;> rfl
      · simp only [if_neg hdisc, if_pos (show l.p.umCmd ≠ IOHDLC_U_DISC from hdisc)]
        split
        · rfl
        split
        · rfl
        split <;> rfl
  · rfl

theorem handleUFrame_cycle (hpf : l.ReadsPF fp) (hmode : setsMode l fp = false) :
    l.Cycle (handleUFrame l fp) (l.ownPF fp) (l.peerPF fp) := by
  simp only [handleUFrame]
  split
  · exact .refl l
  next haddr =>
    split
    · rw [receiveUi]
      split
      · exact .refl l
      split
      · exact .refl l
      · exact .of_eq rfl rfl rfl
    split
    next hcommand => exact receiveUCommand_cycle hpf hcommand hmode
    next hcommand =>
      by_cases hmatch : matchesUResponse l fp = true
      · have hpeer : l.peerPF fp = true := by
          rw [matchesUResponse, Bool.and_eq_true] at hmatch
          have hp : (fp.addr l.s.framing).toUInt32 = l.p.addr :=
            Decidable.not_not.mp fun h => haddr ⟨hcommand, h⟩
          rw [Link.peerPF, hpf, hmatch.2, Bool.true_and, decide_eq_true_eq]
          exact octet_of_addr hp
        rw [hpeer]
        exact .of_answer fun h => receiveUResponse_pRcved l fp ▸ h
      · rw [receiveUResponse, if_neg hmatch]
        exact .refl l

/-- `P_RCVED` is for a P that was received, whatever else the frame does. -/
theorem handleUFrame_pRcved (hpf : l.ReadsPF fp)
    (h : (handleUFrame l fp).s.pfState.pRcved = true) :
    l.s.pfState.pRcved = true ∨ l.ownPF fp = true := by
  simp only [handleUFrame] at h
  split at h
  · exact .inl h
  split at h
  · rw [receiveUi] at h
    split at h
    · exact .inl h
    split at h
    · exact .inl h
    · exact .inl h
  split at h
  next hcommand =>
    rw [receiveUCommand] at h
    split at h
    · have hreg : l.s.pfState.pRcved || getPF l.s.framing fp := by
        simp only [requestUResponse, serveUCommand] at h
        split at h
        · exact h
        split at h
        · exact h
        split at h <;> exact h
      rw [Bool.or_eq_true] at hreg
      refine hreg.imp_right fun hreg => ?_
      rw [Link.ownPF, hpf, hreg, Bool.true_and, decide_eq_true_eq]
      exact octet_of_addr hcommand
    · exact .inl h
  · rw [receiveUResponse_pRcved] at h
    exact .inl h

/-! ### The sections of the transmit worker -/

/-- Whether T3 of an asynchronous mode starts a recovery. -/
def recoversOnT3 (l : Link) (flags : EvtFlags) : Bool :=
  .t3Tmo ∈ flags && l.p.t3Tmr.isExpired && l.s.mode ≠ .nrm && !l.p.iRetransQ.isEmpty

theorem serveReplyTimeout_of_armed (h : l.p.replyTmr.armed = true) (flags : EvtFlags) :
    serveReplyTimeout l flags = (l, true) := by
  rw [serveReplyTimeout, VTimer.isExpired, h, if_neg (by simp)]

theorem serveT3Timeout_cycle {flags : EvtFlags} (h : recoversOnT3 l flags = false) :
    l.Cycle (serveT3Timeout l flags).1 p f := by
  simp only [serveT3Timeout]
  split
  next hexp =>
    split
    · exact .of_eq rfl rfl rfl
    next hmode =>
      split
      · exact .of_eq rfl rfl rfl
      next hq =>
        simp [recoversOnT3, hexp, show l.s.mode ≠ .nrm from hmode, hq] at h
  · exact .refl l

theorem sendUi_cycle (take : Option Frame) : l.Cycle (sendUi l take).1 p f := by
  refine .of_eq (congrArg Station.pfState (sendUi_station l take)) ?_ ?_
  all_goals
    simp only [sendUi]
    split
    · split <;> rfl
    · rfl

theorem connectedTxEntry_cycle {flags : EvtFlags} {take : Option Frame}
    (harmed : l.p.replyTmr.armed = true) (h : recoversOnT3 l flags = false) :
    l.Cycle (connectedTxEntry l flags take).link p f := by
  have ht3 : recoversOnT3 l ((flags \ {.lineIdle}) \ {.cRplytmo}) = false := by
    simpa [recoversOnT3] using h
  have hserve := serveT3Timeout_cycle (p := p) (f := f) ht3
  simp only [connectedTxEntry]
  rw [serveReplyTimeout_of_armed harmed, if_pos rfl]
  split
  · exact hserve.trans (sendUi_cycle take)
  · exact hserve

theorem handleTimeoutRetry_pRcved (l : Link) :
    (handleTimeoutRetry l).1.s.pfState.pRcved = l.s.pfState.pRcved := by
  have hleave := leaveModeIfLast_pRcved (ioHdlcSetDisconnected
    ⟨l.s.broadcastFlags {.linkDown}, clearPeerTxQueues (resetPeerProtocolState l.p)⟩ .aborted)
  rw [handleTimeoutRetry]
  split
  · dsimp only
    split <;> exact hleave
  · rfl

theorem connectedTxEntry_pRcved (l : Link) (flags : EvtFlags) (take : Option Frame) :
    (connectedTxEntry l flags take).link.s.pfState.pRcved = l.s.pfState.pRcved := by
  have hreply : (serveReplyTimeout l (flags \ {.lineIdle})).1.s.pfState.pRcved =
      l.s.pfState.pRcved := by
    have hretry := handleTimeoutRetry_pRcved l
    simp only [serveReplyTimeout]
    split
    · split <;> exact hretry
    · rfl
  have ht3 (l : Link) (flags : EvtFlags) :
      (serveT3Timeout l flags).1.s.pfState.pRcved = l.s.pfState.pRcved := by
    have hretry := handleTimeoutRetry_pRcved { l with p := { l.p with t3Tmr := l.p.t3Tmr.reset } }
    simp only [serveT3Timeout]
    split
    · split
      · rfl
      split
      · rfl
      split <;> exact hretry
    · rfl
  simp only [connectedTxEntry]
  split
  · split
    · dsimp only
      rw [sendUi_station, ht3, hreply]
    · exact (ht3 _ _).trans hreply
  · exact hreply

/-- The UI frame has no P/F bit. -/
theorem connectedTxEntry_pf {flags : EvtFlags} {take : Option Frame} :
    ∀ fp ∈ (connectedTxEntry l flags take).sent, linePF l.s.framing fp = false := by
  have hreply := serveReplyTimeout_inherits l (flags \ {.lineIdle})
  have ht3 := hreply.trans (serveT3Timeout_inherits _ ((flags \ {.lineIdle}) \ {.cRplytmo}))
  intro fp hfp
  simp only [connectedTxEntry] at hfp
  split at hfp
  · split at hfp
    · rw [← ht3.framing]
      exact (sendUi_reads hfp).1.pf
    · cases hfp
  · cases hfp

/-- A DISC was received, and the link is closed with the response to it. -/
def closesByDisc (l : Link) : Bool := l.p.umState.rcved && l.p.umCmd = IOHDLC_U_DISC

/-- The timers that an entry of `ioHdlcConnectedTx` looks at. -/
structure Link.SameT3 (l l' : Link) : Prop where
  t3Tmr : l'.p.t3Tmr.isExpired = l.p.t3Tmr.isExpired
  mode : l'.s.mode = l.s.mode
  iRetransQ : l'.p.iRetransQ = l.p.iRetransQ

theorem Link.SameT3.recoversOnT3 (h : l.SameT3 l') (flags : EvtFlags) :
    recoversOnT3 l' flags = recoversOnT3 l flags := by
  rw [IoHdlc.recoversOnT3, IoHdlc.recoversOnT3, h.t3Tmr, h.mode, h.iRetransQ]

theorem uResponseStage_pRcved {flags : EvtFlags} {take : Option Frame}
    (h : (uResponseStage l flags take).1.s.pfState.pRcved = true) :
    l.s.pfState.pRcved = true ∧ l.p.umState.rcved = false := by
  rw [uResponseStage] at h
  split at h
  · have hsent (l : Link) : (uResponseSent l).s.pfState.pRcved = l.s.pfState.pRcved := by
      rw [uResponseSent]
      split
      · rfl
      split
      · exact closePeerOrderly_pRcved l
      · rfl
    simp only [sendUResponse] at h
    split at h
    · rw [hsent] at h
      cases h
    · cases h
  next hrcved => exact ⟨h, Bool.eq_false_iff.mpr hrcved⟩

theorem uResponseSent_cycle (hc : l.Cycle l' p f) (ht3 : l.SameT3 l')
    (h : l'.p.umCmd ≠ IOHDLC_U_DISC) :
    l.Cycle (uResponseSent l') p f ∧ l.SameT3 (uResponseSent l') := by
  by_cases htest : l'.p.umCmd = IOHDLC_U_TEST
  · rw [uResponseSent, if_pos htest]
    exact ⟨hc.trans (.of_eq rfl rfl rfl), ht3.t3Tmr, ht3.mode, ht3.iRetransQ⟩
  · rw [uResponseSent, if_neg htest, if_neg h]
    exact ⟨hc, ht3⟩

theorem uResponseStage_cycle (flags : EvtFlags) (take : Option Frame)
    (h : closesByDisc l = false) :
    l.Cycle (uResponseStage l flags take).1 p f ∧ l.SameT3 (uResponseStage l flags take).1 := by
  have hrestart : (restartIFrameReplyTimer l).p.t3Tmr.isExpired = l.p.t3Tmr.isExpired := by
    simp only [restartIFrameReplyTimer]
    split
    · rw [VTimer.restart]
      split
      next harmed => simp [VTimer.isExpired, VTimer.set, harmed]
      · rfl
    · rfl
  rw [uResponseStage]
  split
  next hrcved =>
    rw [closesByDisc, hrcved, Bool.true_and, decide_eq_false_iff_not] at h
    simp only [sendUResponse]
    split
    · exact uResponseSent_cycle ⟨.inl, by rintro ⟨⟩, .inl, .inl⟩ ⟨hrestart, rfl, rfl⟩ h
    · exact ⟨⟨.inl, by simp, .inl, .inl⟩, rfl, rfl, rfl⟩
  · exact ⟨.refl l, rfl, rfl, rfl⟩

theorem recoversOnT3_mono {flags flags' : EvtFlags} (hsub : flags' ⊆ flags)
    (h : recoversOnT3 l flags = false) : recoversOnT3 l flags' = false := by
  refine Bool.eq_false_iff.mpr fun h' => Bool.eq_false_iff.mp h ?_
  simp only [recoversOnT3, Bool.and_eq_true, decide_eq_true_eq] at h' ⊢
  exact ⟨⟨⟨hsub h'.1.1.1, h'.1.1.2⟩, h'.1.2⟩, h'.2⟩

theorem dispatchTx_cycle {flags : EvtFlags} {take : Option Frame}
    (h : l.p.umState.sent = true ∨
      l.p.replyTmr.armed = true ∧ recoversOnT3 l flags = false) :
    l.Cycle (dispatchTx l flags take).link p f := by
  simp only [dispatchTx]
  split
  · split <;> exact .refl l
  next hdisc =>
    have hsent : l.p.umState.sent ≠ true := fun hs => hdisc (by rw [hs, Bool.or_true])
    obtain ⟨harmed, ht3⟩ := h.resolve_left hsent
    split
    · exact connectedTxEntry_cycle harmed (recoversOnT3_mono Finset.sdiff_subset ht3)
    · exact .refl l

theorem dispatchTx_pRcved (l : Link) (flags : EvtFlags) (take : Option Frame) :
    (dispatchTx l flags take).link.s.pfState.pRcved = l.s.pfState.pRcved := by
  simp only [dispatchTx]
  split
  · split <;> rfl
  split
  · exact connectedTxEntry_pRcved ..
  · rfl

theorem dispatchTx_pf {flags : EvtFlags} {take : Option Frame} :
    ∀ fp ∈ (dispatchTx l flags take).sent, linePF l.s.framing fp = false := by
  intro fp hfp
  simp only [dispatchTx] at hfp
  split at hfp
  · split at hfp <;> cases hfp
  split at hfp
  · exact connectedTxEntry_pf fp (Option.mem_toList.mp hfp)
  · cases hfp

end Cycle

end IoHdlc
