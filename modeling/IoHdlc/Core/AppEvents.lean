import IoHdlc.Core.LinkRequest
import IoHdlc.Core.NodeSections

/-!
What the sections tell the application.

Events are only added, and the flag of the primary is never taken back. A refusal is told by
one section alone: the one that receives a DM for a set-mode command.
-/

namespace IoHdlc

/-- Events are added, a refusal among them only if `refused`, and a primary stays one. -/
structure Link.Tells (refused : Prop) (l l' : Link) : Prop where
  events : ∃ es, l'.s.appEs = es ++ l.s.appEs ∧ (.linkRefused ∈ es → refused)
  pri : l.s.flags.pri = true → l'.s.flags.pri = true

section Tells

variable {refused : Prop} {l l' l'' : Link} {fp : Frame}

theorem Link.Tells.of_eq (h : l'.s.appEs = l.s.appEs) (hpri : l'.s.flags.pri = l.s.flags.pri) :
    l.Tells refused l' :=
  ⟨⟨[], h, nofun⟩, fun hl => hpri.trans hl⟩

theorem Link.Tells.refl (l : Link) : l.Tells refused l := .of_eq rfl rfl

theorem Link.Tells.trans (h : l.Tells refused l') (h' : l'.Tells refused l'') :
    l.Tells refused l'' := by
  obtain ⟨es, hes, hr⟩ := h.events
  obtain ⟨es', hes', hr'⟩ := h'.events
  refine ⟨⟨es' ++ es, by rw [hes', hes, List.append_assoc], fun hmem => ?_⟩, h'.pri ∘ h.pri⟩
  rcases List.mem_append.mp hmem with hmem | hmem
  · exact hr' hmem
  · exact hr hmem

/-- One event is added. -/
theorem Link.Tells.one {e : AppEvt} (h : l'.s.appEs = e :: l.s.appEs)
    (hpri : l'.s.flags.pri = l.s.flags.pri) (he : e = .linkRefused → refused) :
    l.Tells refused l' :=
  ⟨⟨[e], h, fun hmem => he (List.mem_singleton.mp hmem).symm⟩, fun hl => hpri.trans hl⟩

/-- The traffic of a connection tells nothing. -/
theorem Link.Keeps.tells (h : l.Keeps l') (hes : l'.s.appEs = l.s.appEs) : l.Tells refused l' :=
  .of_eq hes h.pri

/-! ### Reception -/

theorem handleCheckpointAndAck_appEs {nr : UInt32} {pf isCommand : Bool} {ack : AckResult}
    (h : handleCheckpointAndAck l nr pf isCommand = some ack) :
    ack.link.s.appEs = l.s.appEs := by
  obtain ⟨_, _, _, _, _, _, _, _, _, _, _, -, h⟩ := handleCheckpointAndAck_fields h
  rw [h]

theorem handleIFrame_appEs (pf : Bool) : (handleIFrame l fp pf).1.s.appEs = l.s.appEs := by
  simp only [handleIFrame]
  split <;> rfl

theorem handleSFrame_appEs : (handleSFrame l fp).1.s.appEs = l.s.appEs := by
  obtain ⟨_, _, _, _, _, _, h⟩ := handleSFrame_fields l fp
  rw [h]

theorem commonRx_appEs (isCommand : Bool) : (commonRx l fp isCommand).1.s.appEs = l.s.appEs := by
  cases commonRx_does l fp isCommand with
  | frmr on eq =>
    rw [eq, frmrPending]
    split <;> rfl
  | reject off hack eq =>
    rw [eq]
    rfl
  | @iFrame ack r off hack hi hr eq =>
    have hes : r.1.s.appEs = ack.link.s.appEs := hr ▸ handleIFrame_appEs _
    rw [eq]
    exact hes.trans (handleCheckpointAndAck_appEs hack)
  | @sFrame ack r off hack hi hr eq =>
    have hes : r.1.s.appEs = ack.link.s.appEs := hr ▸ handleSFrame_appEs
    rw [eq]
    exact hes.trans (handleCheckpointAndAck_appEs hack)

theorem rxDispatch_tells : l.Tells refused (rxDispatch l fp).1 := by
  rcases rxDispatch_cases l fp with h | ⟨-, isCommand, h⟩
  · rw [h]
    exact .refl l
  · rw [h]
    exact commonRx_keeps.tells (commonRx_appEs isCommand)

/-! ### The ends of a connection -/

/-- The mode of the closed link does not take the role of a primary back. -/
theorem leaveModeIfLast_tells (l : Link) : l.Tells refused (leaveModeIfLast l) := by
  rw [leaveModeIfLast]
  split
  · refine ⟨⟨[], rfl, by simp⟩, fun hpri => ?_⟩
    change (l.s.flags.pri || _) = true
    rw [hpri, Bool.true_or]
  · exact .refl l

theorem closePeerOrderly_tells (l : Link) : l.Tells refused (closePeerOrderly l) := by
  have hstart : l.Tells refused
      (ioHdlcSetDisconnected ⟨l.s, clearPeerTxQueues (resetPeerProtocolState l.p)⟩ .orderly) :=
    .of_eq rfl rfl
  have hclose := hstart.trans (leaveModeIfLast_tells _)
  simp only [closePeerOrderly]
  split
  · exact hclose.trans (.one rfl rfl (by simp))
  · exact hclose

theorem handleTimeoutRetry_tells (l : Link) : l.Tells refused (handleTimeoutRetry l).1 := by
  rw [handleTimeoutRetry]
  split
  · have hstart : l.Tells refused (ioHdlcSetDisconnected
        ⟨l.s.broadcastFlags {.linkDown}, clearPeerTxQueues (resetPeerProtocolState l.p)⟩
        .aborted) := .of_eq rfl rfl
    have habort : l.Tells refused (abortPeerLink { l with s := l.s.broadcastFlags {.linkDown} }) :=
      hstart.trans (leaveModeIfLast_tells _)
    dsimp only
    split
    · exact habort.trans (.one rfl rfl (by simp))
    · exact habort.trans (.of_eq rfl rfl)
  · exact .of_eq rfl rfl

/-! ### U frames -/

/-- The mode of a received command does not take the role of a primary back. -/
theorem applyModeState_pri {s : Station} {mode : Mode} (h : s.flags.pri = true) :
    (applyModeState s mode).flags.pri = true := by
  change (s.flags.pri || _) = true
  rw [h, Bool.true_or]

theorem serveUCommand_tells (fp : Frame) : l.Tells refused (serveUCommand l fp) := by
  simp only [serveUCommand]
  split
  next om _ =>
    exact ⟨⟨[.linkUp], rfl, by simp⟩, applyModeState_pri (s := { l.s with mode := om })⟩
  split
  · exact .of_eq rfl rfl
  split
  · exact .of_eq rfl rfl
  · exact .of_eq rfl rfl

/-- A refusal is told for a DM alone, and not for the answer to a DISC. -/
theorem serveUResponse_tells (uCmd : UInt8)
    (h : uCmd = IOHDLC_U_DM → l.p.umCmd ≠ IOHDLC_U_DISC → refused) :
    l.Tells refused (serveUResponse l uCmd) := by
  have hclose : l.Tells refused (closePeerOrderly l) := closePeerOrderly_tells l
  simp only [serveUResponse]
  by_cases hdisc : l.p.umCmd = IOHDLC_U_DISC
  · simp only [if_pos hdisc, if_neg (not_not.mpr hdisc)]
    split
    · exact hclose.trans (.of_eq rfl rfl)
    split
    · exact hclose.trans (.of_eq rfl rfl)
    split
    · exact .one rfl rfl (by simp)
    · exact .refl l
  · simp only [if_neg hdisc, if_pos (show l.p.umCmd ≠ IOHDLC_U_DISC from hdisc)]
    split
    · exact ⟨⟨[.linkUp], rfl, by simp⟩, applyModeState_pri⟩
    split
    next hdm => exact .one rfl rfl fun _ => h hdm hdisc
    split
    · exact .one rfl rfl (by simp)
    · exact .refl l

theorem handleUFrame_tells (fp : Frame) :
    l.Tells (refusesLink l fp = true) (handleUFrame l fp) := by
  simp only [handleUFrame]
  split
  · exact .refl l
  next haddr =>
    split
    · rw [receiveUi]
      split
      · exact .refl l
      split
      · exact .refl l
      · exact .one rfl rfl (by simp)
    split
    · rw [receiveUCommand]
      split
      · have hregister : l.Tells (refusesLink l fp = true)
            (registerUCommand l (uFunction l fp) (getPF l.s.framing fp)) := .of_eq rfl rfl
        exact (hregister.trans (serveUCommand_tells fp)).trans (.of_eq rfl rfl)
      · exact .refl l
    next hcommand =>
      simp only [receiveUResponse]
      split
      next hmatch =>
        split
        · exact .one rfl rfl (by simp)
        next htest =>
          have hreset : l.Tells (refusesLink l fp = true)
              { l with p := { l.p with replyTmr := l.p.replyTmr.reset } } := .of_eq rfl rfl
          refine (hreset.trans (serveUResponse_tells (uFunction l fp) fun hdm hdisc => ?_)).trans
            (.of_eq rfl rfl)
          have hpeer : (fp.addr l.s.framing).toUInt32 = l.p.addr := by
            by_contra hother
            exact haddr ⟨hcommand, hother⟩
          simp only [refusesLink, Bool.and_eq_true, decide_eq_true_eq]
          exact ⟨⟨⟨⟨⟨hcommand, hpeer⟩, hmatch⟩, hdm⟩, htest⟩, hdisc⟩
      · exact .refl l

/-! ### The transmit worker -/

theorem serveReplyTimeout_tells (l : Link) (flags : EvtFlags) :
    l.Tells refused (serveReplyTimeout l flags).1 := by
  have hretry : l.Tells refused (handleTimeoutRetry l).1 := handleTimeoutRetry_tells l
  simp only [serveReplyTimeout]
  split
  · split
    · exact hretry.trans (.of_eq rfl rfl)
    · exact hretry
  · exact .refl l

theorem serveT3Timeout_tells (l : Link) (flags : EvtFlags) :
    l.Tells refused (serveT3Timeout l flags).1 := by
  have hreset : l.Tells refused { l with p := { l.p with t3Tmr := l.p.t3Tmr.reset } } :=
    .of_eq rfl rfl
  have hretry := hreset.trans (handleTimeoutRetry_tells _)
  simp only [serveT3Timeout]
  split
  · split
    · exact .of_eq rfl rfl
    split
    · exact .of_eq rfl rfl
    split
    · exact hretry.trans (.of_eq rfl rfl)
    · exact hretry
  · exact .refl l

theorem connectedTxEntry_tells (l : Link) (flags : EvtFlags) (take : Option Frame) :
    l.Tells refused (connectedTxEntry l flags take).link := by
  have hreply : l.Tells refused (serveReplyTimeout l (flags \ {.lineIdle})).1 :=
    serveReplyTimeout_tells l _
  have ht3 := hreply.trans (serveT3Timeout_tells _ ((flags \ {.lineIdle}) \ {.cRplytmo}))
  simp only [connectedTxEntry]
  split
  · split
    · have hui := sendUi_station
        (serveT3Timeout (serveReplyTimeout l (flags \ {.lineIdle})).1
          ((flags \ {.lineIdle}) \ {.cRplytmo})).1 take
      exact ht3.trans (.of_eq (congrArg Station.appEs hui)
        (congrArg (fun s : Station => s.flags.pri) hui))
    · exact ht3
  · exact hreply

theorem sendUCommand_tells (l : Link) (timedOut : Bool) (take : Option Frame) :
    l.Tells refused (sendUCommand l timedOut take).link := by
  have hretry : l.Tells refused (retryBefore l timedOut).1 := by
    rw [retryBefore]
    split
    · exact handleTimeoutRetry_tells l
    · exact .refl l
  rcases sendUCommand_ends l timedOut take with
    ⟨-, h⟩ | ⟨-, -, h⟩ | ⟨-, -, h, -⟩ | ⟨-, -, -, fp, -, h⟩
  · rw [h]
    exact .refl l
  · rw [h]
    exact hretry
  · rw [h]
    exact hretry.trans (.of_eq rfl rfl)
  · obtain ⟨t3, delay, hsent⟩ := uCommandSent_eq (presetF (retryBefore l timedOut).1)
    rw [h, hsent]
    exact hretry.trans (.of_eq rfl rfl)

theorem uResponseStage_tells (l : Link) (flags : EvtFlags) (take : Option Frame) :
    l.Tells refused (uResponseStage l flags take).1 := by
  have hsent (l : Link) : l.Tells refused (uResponseSent l) := by
    rw [uResponseSent]
    split
    · exact .of_eq rfl rfl
    split
    · exact closePeerOrderly_tells l
    · exact .refl l
  rw [uResponseStage]
  split
  · simp only [sendUResponse]
    split
    · refine Link.Tells.trans ?_ (hsent _)
      exact .of_eq rfl rfl
    · exact .of_eq rfl rfl
  · exact .refl l

theorem servePeer_tells (l : Link) (flags : EvtFlags) (take : Takes) :
    l.Tells refused (servePeer l flags take).link := by
  refine (uResponseStage_tells l flags take.uResponse).trans ?_
  change Link.Tells _ _ (dispatchTx _ _ _).link
  simp only [dispatchTx]
  split
  · split <;> exact .refl _
  split
  · exact connectedTxEntry_tells ..
  · exact .refl _

theorem serveRequest_tells (l : Link) (flags : EvtFlags) (timedOut : Bool) (take : Takes) :
    l.Tells refused (serveRequest l flags timedOut take).link := by
  have hcmd : l.Tells refused (sendUCommand l timedOut take.uCommand).link :=
    sendUCommand_tells l timedOut take.uCommand
  simp only [serveRequest]
  split
  · exact hcmd
  · exact hcmd
  · exact hcmd
  · exact hcmd.trans (servePeer_tells ..)

theorem connectedTxIFrame_tells (l : Link) (flags : EvtFlags) (iSent : Bool) :
    l.Tells refused (connectedTxIFrame l flags iSent).link := by
  rw [connectedTxIFrame]
  split
  · exact .refl l
  split
  · exact .refl l
  · dsimp only
    split <;> exact .of_eq rfl rfl

theorem prepareSFrame_appEs {take : Option Frame} {sFun : UInt8} {isCommand : Bool} :
    (prepareSFrame l take sFun isCommand).1.s.appEs = l.s.appEs := by
  simp only [prepareSFrame]
  split
  · split <;> rfl
  · rfl

theorem chooseSFrame_appEs (l : Link) (iSent : Bool) (take : Nat → Option Frame) :
    (chooseSFrame l iSent take).1.s.appEs = l.s.appEs := by
  have hite (l : Link) (c : Prop) [Decidable c] {take : Option Frame} {sFun : UInt8}
      {isCommand : Bool} :
      (if c then prepareSFrame l take sFun isCommand else (l, none)).1.s.appEs = l.s.appEs := by
    split
    · exact prepareSFrame_appEs
    · rfl
  simp only [chooseSFrame]
  split
  next heq => exact (congrArg (fun r : Link × Option Frame => r.1.s.appEs) heq).symm.trans (hite l _)
  next l₁ heq =>
    have h₁ := (congrArg (fun r : Link × Option Frame => r.1.s.appEs) heq).symm.trans (hite l _)
    split
    next heq₂ =>
      exact ((congrArg (fun r : Link × Option Frame => r.1.s.appEs) heq₂).symm.trans
        (hite l₁ _)).trans h₁
    next l₂ heq₂ =>
      have h₂ := (congrArg (fun r : Link × Option Frame => r.1.s.appEs) heq₂).symm.trans
        (hite l₁ _)
      exact (hite l₂ _).trans (h₂.trans h₁)

theorem connectedTxSFrame_tells (l : Link) (flags : EvtFlags) (iSent : Bool)
    (take : Nat → Option Frame) :
    l.Tells refused (connectedTxSFrame l flags iSent take).link :=
  (connectedTxSFrame_keeps l flags iSent take).1.toKeeps.tells (chooseSFrame_appEs _ iSent take)

/-! ### The calls of the application -/

theorem linkUpStart_tells (l : Link) (mode : Mode) (nrmOnly : Bool) :
    l.Tells refused (linkUpStart l mode nrmOnly).1 := by
  have hpri : l.s.flags.pri = true → (l.s.flags.pri || decide (mode = .abm)) = true := by
    intro h
    rw [h, Bool.true_or]
  simp only [linkUpStart]
  split
  · exact .refl l
  split
  · exact .refl l
  split
  · exact ⟨⟨[], rfl, by simp⟩, hpri⟩
  split
  · exact ⟨⟨[], rfl, by simp⟩, hpri⟩
  · exact ⟨⟨[], rfl, by simp⟩, hpri⟩

theorem linkDownStart_tells (l : Link) : l.Tells refused (linkDownStart l).1 := by
  simp only [linkDownStart]
  split
  · exact .refl l
  split
  · exact .refl l
  · exact .of_eq rfl rfl

theorem PeerOp.apply_tells {op : PeerOp} {w : WriterPc} {r : Link × WriterPc}
    (h : op.apply l w = some r) : l.Tells refused r.1 := by
  cases op with
  | writeBegin octets =>
    cases w <;> simp only [PeerOp.apply, reduceCtorEq, Option.some.injEq] at h
    subst h
    rw [IoHdlc.writeBegin]
    split <;> exact .of_eq rfl rfl
  | writeReserve timedOut take =>
    cases w <;> simp only [PeerOp.apply, reduceCtorEq, Option.some.injEq] at h
    subst h
    simp only [IoHdlc.writeReserve]
    split
    · exact .refl l
    split
    · exact .refl l
    split
    · exact .refl l
    split
    · exact .of_eq rfl rfl
    split <;> exact .refl l
  | writeInsert =>
    cases w <;> simp only [PeerOp.apply, reduceCtorEq, Option.some.injEq] at h
    subst h
    simp only [IoHdlc.writeInsert]
    split
    · exact .refl l
    split <;> exact .of_eq rfl rfl
  | writeDone =>
    cases w <;> simp only [PeerOp.apply, reduceCtorEq, Option.some.injEq] at h
    subst h
    exact .of_eq rfl rfl
  | read =>
    simp only [PeerOp.apply] at h
    split at h
    · cases h
      exact .of_eq rfl rfl
    · cases h
  | replyTimer =>
    cases h
    rw [Endpoint.replyTimerExpiry]
    split <;> exact .of_eq rfl rfl
  | t3Timer =>
    cases h
    rw [Endpoint.t3TimerExpiry]
    split <;> exact .of_eq rfl rfl
  | uiSend value =>
    cases h
    rw [ioHdlcPeerUiSend]
    split <;> exact .of_eq rfl rfl
  | uiGet =>
    cases h
    rw [ioHdlcPeerUiGet]
    split <;> exact .of_eq rfl rfl
  | peerTest len take =>
    cases h
    simp only [peerTestStart]
    split
    · exact .refl l
    split
    · exact .refl l
    split
    · exact .refl l
    split
    · exact .refl l
    · exact .of_eq rfl rfl
  | peerTestTake =>
    cases h
    rw [sTakeCompletedTestFrame]
    split <;> exact .of_eq rfl rfl
  | peerTestExpire =>
    cases h
    rcases peerTestExpire_eq l with h | h | ⟨-, h⟩
    · rw [h]
      exact .refl l
    · rw [h]
      exact .of_eq rfl rfl
    · rw [h]
      exact .of_eq rfl rfl

end Tells

/-! ### A node -/

namespace Node

variable {n : Nat} {nd nd' : Node n} {a : Action n} {sent : List Frame}

/-- The peer whose connection a received frame refuses is the current one. -/
def refusal (nd : Node n) : Action n → Bool
  | .receive fp => refusesLink (nd.link nd.cPeer) fp
  | _ => false

/-- The whole station tells what its sections tell. -/
def Tells (refused : Prop) (nd nd' : Node n) : Prop :=
  ∀ i j, (nd.link i).Tells refused (nd'.link j)

theorem tells_of_station {refused : Prop} {l l' : Link} (h : l.Tells refused l') (hl : nd.s = l.s)
    (hl' : nd'.s = l'.s) : nd.Tells refused nd' := by
  intro i j
  obtain ⟨hevents, hpri⟩ := h
  rw [← hl, ← hl'] at hevents hpri
  exact ⟨hevents, hpri⟩

/-- An action adds events, and a refusal only when a refusing frame comes in. -/
theorem act_tells (h : nd.act a = some (nd', sent)) : nd.Tells (nd.refusal a = true) nd' := by
  rcases act_section h with ⟨j, l, hsection, hleaves⟩ | hsame
  · cases hsection with
    | uFrame fp _ =>
      have hbusy : (nd.link nd.cPeer).Tells (nd.refusal (.receive fp) = true)
          (Endpoint.lineBusy (nd.link nd.cPeer)) := .of_eq rfl rfl
      have hu : (Endpoint.lineBusy (nd.link nd.cPeer)).Tells (nd.refusal (.receive fp) = true)
          (handleUFrame (Endpoint.lineBusy (nd.link nd.cPeer)) fp) :=
        handleUFrame_tells (l := Endpoint.lineBusy (nd.link nd.cPeer)) fp
      exact tells_of_station (hbusy.trans hu) rfl hleaves.s
    | frame fp _ =>
      have hbusy : (nd.link nd.cPeer).Tells (nd.refusal (.receive fp) = true)
          (Endpoint.lineBusy (nd.link nd.cPeer)) := .of_eq rfl rfl
      exact tells_of_station (hbusy.trans rxDispatch_tells) rfl hleaves.s
    | lineIdle =>
      have hidle : (nd.link nd.cPeer).Tells (nd.refusal .lineIdle = true)
          (Endpoint.lineIdle (nd.link nd.cPeer)) := by
        refine .of_eq ?_ rfl
        simp only [Endpoint.lineIdle]
      exact tells_of_station hidle rfl hleaves.s
    | entryRequest take flags timedOut =>
      exact tells_of_station (serveRequest_tells (nd.link nd.cPeer) flags timedOut take) rfl
        hleaves.s
    | entryServe take flags =>
      exact tells_of_station (servePeer_tells (nd.link nd.cPeer) flags take) rfl hleaves.s
    | switched take flags timedOut =>
      exact tells_of_station (serveRequest_tells (nd.link nd.cPeer) flags timedOut take) rfl
        hleaves.s
    | iFrame flags iSent =>
      exact tells_of_station (connectedTxIFrame_tells (nd.link nd.cPeer) flags iSent) rfl hleaves.s
    | sFrame take flags iSent =>
      exact tells_of_station (connectedTxSFrame_tells (nd.link nd.cPeer) flags iSent take) rfl
        hleaves.s
    | linkUp _ mode nrmOnly =>
      exact tells_of_station (linkUpStart_tells (nd.link j) mode nrmOnly) rfl hleaves.s
    | linkDown => exact tells_of_station (linkDownStart_tells (nd.link j)) rfl hleaves.s
    | call _ op r hr => exact tells_of_station (PeerOp.apply_tells hr) rfl hleaves.s
  · exact fun _ _ => .of_eq hsame.appEs (congrArg StationFlags.pri hsame.flags)

end Node

end IoHdlc
