import IoHdlc.Core.NodeEmission
import IoHdlc.Core.WorkerRank
import IoHdlc.Core.AppEvents

/-!
The byte stream of a peer, as its readers and writers see it.

`Stream` is what `ioHdlcReadVTmo` and `ioHdlcWriteVTmo` look at. The core changes it in four
ways: it delivers a frame, ends the connection, starts a new one, or forgets how the last one
ended because a request is placed.
-/

namespace IoHdlc

structure Stream where
  conn : Bool
  sending : Bool
  termOrderly : Bool
  termAborted : Bool
  terminal : StreamTerminal
  recept : List Frame
  partialFrame : Option Frame
  partialOffset : Nat

def Peer.stream (p : Peer) : Stream where
  conn := p.ssState.stConn
  sending := p.ssState.sending
  termOrderly := p.ssState.termOrderly
  termAborted := p.ssState.termAborted
  terminal := p.streamTerminalPending
  recept := p.iReceptQ
  partialFrame := p.partialReadFrame
  partialOffset := p.partialReadOffset

namespace Stream

/-- `s_peer_raw_rx_deliver`. -/
def deliver (s : Stream) (fp : Frame) : Stream := { s with recept := s.recept ++ [fp] }

/-- The connection ends; what was received can still be read. -/
def disconnect (s : Stream) (term : TermBits) : Stream :=
  { s with
    conn := false
    termOrderly := term = .orderly
    termAborted := term = .aborted
    terminal :=
      { rxOrderly := s.terminal.rxOrderly || (s.conn && term = .orderly)
        rxAborted := s.terminal.rxAborted || (s.conn && term = .aborted)
        txReset := s.terminal.txReset || (s.conn && s.sending) } }

/-- A connection begins, with empty buffers. -/
def reopen (s : Stream) : Stream where
  conn := true
  sending := false
  termOrderly := false
  termAborted := false
  terminal :=
    { s.terminal with
      rxAborted := s.terminal.rxAborted || s.conn
      txReset := s.terminal.txReset || (s.conn && s.sending) }
  recept := []
  partialFrame := none
  partialOffset := 0

/-- A request is placed. -/
def request (s : Stream) : Stream := { s with termOrderly := false, termAborted := false }

end Stream

/-! ### What the core does to the stream -/

/-- The stream is as it was, or its connection ended in order or by an abort. -/
def Link.MayEnd (l l' : Link) : Prop :=
  l'.p.stream = l.p.stream ∨
    ∃ term, term ≠ .neutral ∧ l'.p.stream = l.p.stream.disconnect term

section Sections

variable {l l' l'' : Link} {fp : Frame}

theorem Link.MayEnd.refl (l : Link) : l.MayEnd l := .inl rfl

/-- What precedes a section that may end the connection. -/
theorem Link.MayEnd.before (h : l'.MayEnd l'') (hl : l'.p.stream = l.p.stream) : l.MayEnd l'' := by
  rcases h with h | ⟨term, hterm, h⟩
  · exact .inl (h.trans hl)
  · exact .inr ⟨term, hterm, h.trans (congrArg (Stream.disconnect · term) hl)⟩

/-- What follows such a section. -/
theorem Link.MayEnd.behind (h : l.MayEnd l') (hl : l''.p.stream = l'.p.stream) : l.MayEnd l'' := by
  rcases h with h | ⟨term, hterm, h⟩
  · exact .inl (hl.trans h)
  · exact .inr ⟨term, hterm, hl.trans h⟩

/-! ### Reception -/

theorem processNR_stream (s : Station) (p : Peer) (nr : UInt32) :
    (processNR s p nr).1.stream = p.stream := by
  obtain ⟨x, q, n, v, t, h⟩ := processNR_fields s p nr
  rw [h]
  rfl

theorem checkpointOnPF_stream (isCommand : Bool) :
    (checkpointOnPF l isCommand).1.p.stream = l.p.stream := by
  simp only [checkpointOnPF]
  split
  · rfl
  · rw [checkpointRetransmit]
    split
    · rfl
    · split <;> rfl

theorem handleCheckpointAndAck_stream {nr : UInt32} {pf isCommand : Bool} {ack : AckResult}
    (h : handleCheckpointAndAck l nr pf isCommand = some ack) :
    ack.link.p.stream = l.p.stream := by
  simp only [handleCheckpointAndAck] at h
  split at h
  · have hnr := processNR_stream l.s l.p nr
    split at h
    · cases h
      exact (checkpointOnPF_stream (l := { l with p := (processNR l.s l.p nr).1 }) isCommand).trans hnr
    · cases h
      exact hnr
  · cases h

theorem handleIFrame_stream (pf : Bool) :
    (handleIFrame l fp pf).1.p.stream =
      if (handleIFrame l fp pf).2.1 then l.p.stream.deliver fp else l.p.stream := by
  simp only [handleIFrame]
  split <;> rfl

theorem handleSFrame_stream : (handleSFrame l fp).1.p.stream = l.p.stream := by
  obtain ⟨_, _, _, _, _, _, h⟩ := handleSFrame_fields l fp
  rw [h]
  rfl

theorem commonRx_stream (isCommand : Bool) :
    (commonRx l fp isCommand).1.p.stream =
      if (commonRx l fp isCommand).2 then l.p.stream.deliver fp else l.p.stream := by
  cases commonRx_does l fp isCommand with
  | frmr on eq =>
    rw [eq, frmrPending]
    split <;> rfl
  | reject off hack eq =>
    rw [eq]
    rfl
  | @iFrame ack r off hack hi hr eq =>
    have hstream : r.1.p.stream =
        if r.2.1 then ack.link.p.stream.deliver fp else ack.link.p.stream :=
      hr ▸ handleIFrame_stream _
    rw [handleCheckpointAndAck_stream hack] at hstream
    rw [eq]
    exact hstream
  | @sFrame ack r off hack hi hr eq =>
    have hstream : r.1.p.stream = ack.link.p.stream := hr ▸ handleSFrame_stream
    rw [eq]
    exact hstream.trans (handleCheckpointAndAck_stream hack)

/-- A frame that is accepted is delivered. -/
theorem rxDispatch_stream :
    (rxDispatch l fp).1.p.stream =
      if (rxDispatch l fp).2 then l.p.stream.deliver fp else l.p.stream := by
  rcases rxDispatch_cases l fp with h | ⟨-, isCommand, h⟩
  · rw [h]
    rfl
  · rw [h]
    exact commonRx_stream isCommand

/-! ### The ends of a connection -/

theorem closePeerOrderly_stream (l : Link) :
    (closePeerOrderly l).p.stream = l.p.stream.disconnect .orderly := by
  have hclose : (leaveModeIfLast (ioHdlcSetDisconnected
      ⟨l.s, clearPeerTxQueues (resetPeerProtocolState l.p)⟩ .orderly)).p.stream =
        l.p.stream.disconnect .orderly := by
    rw [leaveModeIfLast_p]
    rfl
  simp only [closePeerOrderly]
  split
  · exact hclose
  · exact hclose

theorem handleTimeoutRetry_stream (l : Link) :
    (handleTimeoutRetry l).1.p.stream =
      if (handleTimeoutRetry l).2 then l.p.stream else l.p.stream.disconnect .aborted := by
  rw [handleTimeoutRetry]
  split
  · have habort : (abortPeerLink { l with s := l.s.broadcastFlags {.linkDown} }).p.stream =
        l.p.stream.disconnect .aborted := by
      rw [abortPeerLink, leaveModeIfLast_p]
      rfl
    dsimp only
    split
    · exact habort
    · exact habort
  · rfl

theorem handleTimeoutRetry_mayEnd (l : Link) : l.MayEnd (handleTimeoutRetry l).1 := by
  have h := handleTimeoutRetry_stream l
  split at h
  · exact .inl h
  · exact .inr ⟨.aborted, nofun, h⟩

/-! ### U frames -/

theorem receiveUi_stream (fp : Frame) : (receiveUi l fp).p.stream = l.p.stream := by
  rw [receiveUi]
  split
  · rfl
  split <;> rfl

theorem receiveUCommand_stream (fp : Frame) :
    ((acceptsUCommand l fp && (ucmdToMode (uFunction l fp)).isSome) = true ∧
        (receiveUCommand l fp).p.stream = l.p.stream.reopen) ∨
      ((acceptsUCommand l fp && (ucmdToMode (uFunction l fp)).isSome) = false ∧
        (receiveUCommand l fp).p.stream = l.p.stream) := by
  rw [receiveUCommand]
  split
  next hacc =>
    rw [hacc, Bool.true_and]
    have hfun : uFunction (registerUCommand l (uFunction l fp) (getPF l.s.framing fp)) fp =
      uFunction l fp := rfl
    simp only [serveUCommand, hfun]
    cases hom : ucmdToMode (uFunction l fp) with
    | some om => exact .inl ⟨rfl, rfl⟩
    | none =>
      refine .inr ⟨rfl, ?_⟩
      dsimp only
      split
      · rfl
      split <;> rfl
  next hacc => exact .inr ⟨by rw [Bool.eq_false_iff.mpr hacc, Bool.false_and], rfl⟩

/-- A response to a command other than TEST. -/
theorem serveUResponse_stream (uCmd : UInt8) :
    (uCmd = IOHDLC_U_UA ∧ l.p.umCmd ≠ IOHDLC_U_DISC ∧
        (serveUResponse l uCmd).p.stream = l.p.stream.reopen) ∨
      ((uCmd = IOHDLC_U_UA ∨ uCmd = IOHDLC_U_DM) ∧ l.p.umCmd = IOHDLC_U_DISC ∧
        (serveUResponse l uCmd).p.stream = l.p.stream.disconnect .orderly) ∨
      (uCmd = IOHDLC_U_DM ∧ l.p.umCmd ≠ IOHDLC_U_DISC ∧
        (serveUResponse l uCmd).p.stream = l.p.stream.disconnect .neutral) ∨
      (uCmd ≠ IOHDLC_U_UA ∧ uCmd ≠ IOHDLC_U_DM ∧ (serveUResponse l uCmd).p.stream = l.p.stream) := by
  have hclose := closePeerOrderly_stream l
  simp only [serveUResponse]
  by_cases hua : uCmd = IOHDLC_U_UA
  · rw [if_pos hua]
    by_cases hdisc : l.p.umCmd = IOHDLC_U_DISC
    · rw [if_pos hdisc, if_neg (not_not.mpr hdisc)]
      exact .inr (.inl ⟨.inl hua, hdisc, hclose⟩)
    · rw [if_neg hdisc, if_pos hdisc]
      exact .inl ⟨hua, hdisc, rfl⟩
  · rw [if_neg hua]
    by_cases hdm : uCmd = IOHDLC_U_DM
    · rw [if_pos hdm]
      by_cases hdisc : l.p.umCmd = IOHDLC_U_DISC
      · rw [if_pos hdisc, if_neg (not_not.mpr hdisc)]
        exact .inr (.inl ⟨.inr hdm, hdisc, hclose⟩)
      · rw [if_neg hdisc, if_pos hdisc]
        exact .inr (.inr (.inl ⟨hdm, hdisc, rfl⟩))
    · rw [if_neg hdm]
      refine .inr (.inr (.inr ⟨hua, hdm, ?_⟩))
      split <;> rfl

/-- What a received U frame does to the stream, by what the frame says. -/
theorem handleUFrame_stream (l : Link) (fp : Frame) :
    (opensLink l fp = true ∧ (handleUFrame l fp).p.stream = l.p.stream.reopen) ∨
      (opensLink l fp = false ∧ disconnectsLink l fp = true ∧
        (handleUFrame l fp).p.stream = l.p.stream.disconnect .orderly) ∨
      (opensLink l fp = false ∧ refusesLink l fp = true ∧
        (handleUFrame l fp).p.stream = l.p.stream.disconnect .neutral) ∨
      (opensLink l fp = false ∧ (handleUFrame l fp).p.stream = l.p.stream) := by
  simp only [handleUFrame, opensLink, disconnectsLink, refusesLink]
  by_cases haddr : (fp.addr l.s.framing).toUInt32 = l.s.addr
  · simp only [haddr, not_true_eq_false, false_and, if_false, if_true]
    by_cases hui : uFunction l fp = IOHDLC_U_UI
    · simp only [hui, if_true]
      exact .inr (.inr (.inr ⟨trivial, receiveUi_stream fp⟩))
    · simp only [hui, if_false]
      rcases receiveUCommand_stream (l := l) fp with h | h
      · exact .inl h
      · exact .inr (.inr (.inr h))
  · by_cases hpeer : (fp.addr l.s.framing).toUInt32 = l.p.addr
    · simp only [hpeer, ne_eq, not_true_eq_false, and_false, if_false]
      by_cases hui : uFunction l fp = IOHDLC_U_UI
      · simp only [hui, if_true]
        exact .inr (.inr (.inr ⟨trivial, receiveUi_stream fp⟩))
      · rw [hpeer] at haddr
        simp only [hui, haddr, if_false, receiveUResponse]
        by_cases hmatch : matchesUResponse l fp = true
        · by_cases htest : l.p.umCmd = IOHDLC_U_TEST
          · simp only [hmatch, htest, if_true]
            exact .inr (.inr (.inr ⟨by simp, rfl⟩))
          · simp only [hmatch, htest, if_true, if_false]
            rcases serveUResponse_stream
              (l := { l with p := { l.p with replyTmr := l.p.replyTmr.reset } })
              (uFunction l fp) with
              ⟨hua, hcmd, h⟩ | ⟨hfun, hcmd, h⟩ | ⟨hdm, hcmd, h⟩ | ⟨hua, -, h⟩
            · refine .inl ⟨?_, h⟩
              change l.p.umCmd ≠ IOHDLC_U_DISC at hcmd
              simp [hua, hcmd]
            · refine .inr (.inl ⟨?_, ?_, h⟩)
              all_goals change l.p.umCmd = IOHDLC_U_DISC at hcmd
              · simp [hcmd]
              · rcases hfun with hfun | hfun <;> simp [hfun, hcmd]
            · refine .inr (.inr (.inl ⟨?_, ?_, h⟩))
              all_goals change l.p.umCmd ≠ IOHDLC_U_DISC at hcmd
              · simp [hdm, show IOHDLC_U_DM ≠ IOHDLC_U_UA by decide]
              · simp [hdm, hcmd]
            · exact .inr (.inr (.inr ⟨by simp [hua], h⟩))
        · rw [Bool.not_eq_true] at hmatch
          simp only [hmatch, Bool.false_eq_true, if_false]
          exact .inr (.inr (.inr ⟨by simp, trivial⟩))
    · simp only [haddr, hpeer, not_false_eq_true, ne_eq, and_self, if_true]
      exact .inr (.inr (.inr ⟨by simp, trivial⟩))

/-! ### The transmit worker -/

/-- A timeout that is served ends the connection, and then nothing else follows. -/
theorem serveReplyTimeout_stream (l : Link) (flags : EvtFlags) :
    l.MayEnd (serveReplyTimeout l flags).1 ∧
      ((serveReplyTimeout l flags).2 = true →
        (serveReplyTimeout l flags).1.p.stream = l.p.stream) := by
  have hretry := handleTimeoutRetry_stream l
  simp only [serveReplyTimeout]
  split
  · split
    next h =>
      rw [if_pos h] at hretry
      exact ⟨.inl hretry, fun _ => hretry⟩
    next h =>
      rw [if_neg h] at hretry
      exact ⟨.inr ⟨.aborted, by simp, hretry⟩, by simp⟩
  · exact ⟨.refl l, fun _ => rfl⟩

theorem serveT3Timeout_mayEnd (l : Link) (flags : EvtFlags) :
    l.MayEnd (serveT3Timeout l flags).1 := by
  have hretry : l.MayEnd
      (handleTimeoutRetry { l with p := { l.p with t3Tmr := l.p.t3Tmr.reset } }).1 :=
    (handleTimeoutRetry_mayEnd _).before rfl
  simp only [serveT3Timeout]
  split
  · split
    · exact .inl rfl
    split
    · exact .inl rfl
    split
    · exact hretry.behind rfl
    · exact hretry
  · exact .refl l

theorem sendUi_stream (l : Link) (take : Option Frame) :
    (sendUi l take).1.p.stream = l.p.stream := by
  simp only [sendUi]
  split
  · split <;> rfl
  · rfl

theorem connectedTxEntry_mayEnd (l : Link) (flags : EvtFlags) (take : Option Frame) :
    l.MayEnd (connectedTxEntry l flags take).link := by
  obtain ⟨hreply, hkeep⟩ := serveReplyTimeout_stream l (flags \ {.lineIdle})
  simp only [connectedTxEntry]
  split
  next hgo =>
    generalize (serveReplyTimeout l (flags \ {.lineIdle})).1 = l₁ at hkeep
    have ht3 := (serveT3Timeout_mayEnd l₁ ((flags \ {.lineIdle}) \ {.cRplytmo})).before (hkeep hgo)
    generalize serveT3Timeout l₁ ((flags \ {.lineIdle}) \ {.cRplytmo}) = r at ht3 ⊢
    split
    · exact ht3.behind (sendUi_stream r.1 take)
    · exact ht3
  · exact hreply

theorem dispatchTx_mayEnd (l : Link) (flags : EvtFlags) (take : Option Frame) :
    l.MayEnd (dispatchTx l flags take).link := by
  simp only [dispatchTx]
  split
  · split <;> exact .refl l
  split
  · exact connectedTxEntry_mayEnd ..
  · exact .refl l

/-- A disconnected peer is left alone behind the two sections for U frames. -/
theorem dispatchTx_disc {l : Link} (h : l.p.ssState.stConn = false) (flags : EvtFlags)
    (take : Option Frame) : (dispatchTx l flags take).link = l := by
  simp only [dispatchTx, Peer.isDisc, h, Bool.not_false, Bool.true_or, if_true]
  split <;> rfl

theorem uResponseStage_mayEnd (l : Link) (flags : EvtFlags) (take : Option Frame) :
    l.MayEnd (uResponseStage l flags take).1 := by
  have hsent (l : Link) : l.MayEnd (uResponseSent l) := by
    rw [uResponseSent]
    split
    · exact .inl rfl
    split
    · exact .inr ⟨.orderly, by simp, closePeerOrderly_stream l⟩
    · exact .refl l
  rw [uResponseStage]
  split
  · simp only [sendUResponse]
    split
    · exact (hsent _).before rfl
    · exact .inl rfl
  · exact .refl l

theorem servePeer_mayEnd (l : Link) (flags : EvtFlags) (take : Takes) :
    l.MayEnd (servePeer l flags take).link := by
  change l.MayEnd (dispatchTx (uResponseStage l flags take.uResponse).1 _ _).link
  rcases uResponseStage_mayEnd l flags take.uResponse with h | ⟨term, hterm, h⟩
  · exact (dispatchTx_mayEnd ..).before h
  · rw [dispatchTx_disc (congrArg Stream.conn h)]
    exact .inr ⟨term, hterm, h⟩

theorem uCommandSent_stream (l : Link) : (uCommandSent l).p.stream = l.p.stream := by
  rw [uCommandSent]
  dsimp only
  split <;> rfl

/-- The U command itself leaves the stream alone. -/
theorem sendUCommand_stream (l : Link) (timedOut : Bool) (take : Option Frame) :
    l.MayEnd (sendUCommand l timedOut take).link ∧
      ((sendUCommand l timedOut take).next = .go →
        (sendUCommand l timedOut take).link.p.stream = l.p.stream) := by
  have hretry : l.MayEnd (retryBefore l timedOut).1 ∧
      ((retryBefore l timedOut).2 = true →
        (retryBefore l timedOut).1.p.stream = l.p.stream) := by
    have h := handleTimeoutRetry_stream l
    rw [retryBefore]
    split
    · refine ⟨handleTimeoutRetry_mayEnd l, fun hgo => ?_⟩
      rwa [if_pos hgo] at h
    · exact ⟨.refl l, fun _ => rfl⟩
  obtain ⟨hend, hkeep⟩ := hretry
  rcases sendUCommand_ends l timedOut take with
    ⟨-, h⟩ | ⟨-, -, h⟩ | ⟨-, hgo, h, -⟩ | ⟨-, hgo, -, fp, -, h⟩
  · rw [h]
    exact ⟨.refl l, by simp⟩
  · rw [h]
    exact ⟨hend, by simp⟩
  · rw [h]
    exact ⟨.inl (hkeep hgo), fun _ => hkeep hgo⟩
  · rw [h]
    have hsent := (uCommandSent_stream (presetF (retryBefore l timedOut).1)).trans (hkeep hgo)
    exact ⟨.inl hsent, fun _ => hsent⟩

theorem serveRequest_mayEnd (l : Link) (flags : EvtFlags) (timedOut : Bool) (take : Takes) :
    l.MayEnd (serveRequest l flags timedOut take).link := by
  obtain ⟨hcmd, hkeep⟩ := sendUCommand_stream l timedOut take.uCommand
  simp only [serveRequest]
  split
  · exact hcmd
  · exact hcmd
  · exact hcmd
  next hgo => exact (servePeer_mayEnd ..).before (hkeep hgo)

theorem connectedTxIFrame_stream (l : Link) (flags : EvtFlags) (iSent : Bool) :
    (connectedTxIFrame l flags iSent).link.p.stream = l.p.stream := by
  rw [connectedTxIFrame]
  split
  · rfl
  split
  · rfl
  · dsimp only
    split <;> rfl

theorem connectedTxSFrame_stream (l : Link) (flags : EvtFlags) (iSent : Bool)
    (take : Nat → Option Frame) :
    (connectedTxSFrame l flags iSent take).link.p.stream = l.p.stream := by
  obtain ⟨_, _, _, _, _, _, _, h⟩ := connectedTxSFrame_fields l flags iSent take
  rw [h]
  rfl

/-! ### The calls of the application -/

theorem linkUpStart_stream (l : Link) (mode : Mode) (nrmOnly : Bool) :
    (linkUpStart l mode nrmOnly).1.p.stream = l.p.stream ∨
      (linkUpStart l mode nrmOnly).1.p.stream = l.p.stream.request := by
  simp only [linkUpStart]
  split
  · exact .inl rfl
  split
  · exact .inl rfl
  split
  · exact .inl rfl
  split
  · exact .inl rfl
  · exact .inr rfl

theorem linkDownStart_stream (l : Link) :
    (linkDownStart l).1.p.stream = l.p.stream ∨
      (linkDownStart l).1.p.stream = l.p.stream.request := by
  simp only [linkDownStart]
  split
  · exact .inl rfl
  split
  · exact .inl rfl
  · exact .inr rfl

/-- What a thread in `ioHdlcReadVTmo` or `ioHdlcWriteVTmo` does to the stream. -/
def PeerOp.onStream (s : Stream) : PeerOp → Stream
  | .writeBegin octets =>
    if octets = [] ∨ !s.conn then s else { s with sending := true }
  | .writeDone => { s with sending := false, terminal := { s.terminal with txReset := false } }
  | .read => { s with recept := s.recept.tail }
  | _ => s

theorem PeerOp.apply_stream {op : PeerOp} {w : WriterPc} {r : Link × WriterPc}
    (h : op.apply l w = some r) : r.1.p.stream = op.onStream l.p.stream := by
  cases op with
  | writeBegin octets =>
    cases w <;> simp only [PeerOp.apply, reduceCtorEq, Option.some.injEq] at h
    subst h
    rw [IoHdlc.writeBegin]
    change _ = if octets = [] ∨ l.p.isDisc then l.p.stream else { l.p.stream with sending := true }
    split <;> rfl
  | writeReserve timedOut take =>
    cases w <;> simp only [PeerOp.apply, reduceCtorEq, Option.some.injEq] at h
    subst h
    simp only [IoHdlc.writeReserve]
    split
    · rfl
    split
    · rfl
    split
    · rfl
    split
    · rfl
    split <;> rfl
  | writeInsert =>
    cases w <;> simp only [PeerOp.apply, reduceCtorEq, Option.some.injEq] at h
    subst h
    simp only [IoHdlc.writeInsert]
    split
    · rfl
    split <;> rfl
  | writeDone =>
    cases w <;> simp only [PeerOp.apply, reduceCtorEq, Option.some.injEq] at h
    subst h
    rfl
  | read =>
    simp only [PeerOp.apply] at h
    split at h
    next fp rest hq =>
      cases h
      rw [PeerOp.onStream]
      change _ = { l.p.stream with recept := l.p.iReceptQ.tail }
      rw [hq]
      rfl
    · cases h
  | replyTimer =>
    cases h
    rw [Endpoint.replyTimerExpiry]
    split <;> rfl
  | t3Timer =>
    cases h
    rw [Endpoint.t3TimerExpiry]
    split <;> rfl
  | uiSend value =>
    cases h
    rw [ioHdlcPeerUiSend]
    split <;> rfl
  | uiGet =>
    cases h
    rw [ioHdlcPeerUiGet]
    split <;> rfl
  | peerTest len take =>
    cases h
    simp only [peerTestStart]
    split
    · rfl
    split
    · rfl
    split
    · rfl
    split <;> rfl
  | peerTestTake =>
    cases h
    rw [sTakeCompletedTestFrame]
    split <;> rfl
  | peerTestExpire =>
    cases h
    rcases peerTestExpire_eq l with h | h | ⟨-, h⟩
    · rw [h]
      rfl
    · rw [h]
      rfl
    · rw [h]
      rfl

end Sections

/-! ### A node -/

namespace Node

variable {n : Nat} {nd nd' : Node n} {a : Action n} {sent : List Frame} {i : Fin n}

/-- Whether an action starts a new connection of peer `i`, connected or not. -/
def opensStream (nd : Node n) (i : Fin n) : Action n → Bool
  | .receive fp =>
    i = nd.cPeer && isUFrm (fp.ctrl nd.s.framing 0) && opensLink (nd.link nd.cPeer) fp
  | _ => false

/-- Whether an action delivers a frame on peer `i`. -/
def accepted (nd : Node n) (i : Fin n) : Action n → Option Frame
  | .receive fp =>
    if i = nd.cPeer ∧ isUFrm (fp.ctrl nd.s.framing 0) = false ∧
        (rxDispatch (Endpoint.lineBusy (nd.link nd.cPeer)) fp).2 = true then some fp
    else none
  | _ => none

/-- What an action does to the stream of peer `i`. -/
inductive StreamStep (nd : Node n) (a : Action n) (nd' : Node n) (i : Fin n) : Prop
  | same (hopen : nd.opensStream i a = false) (hacc : nd.accepted i a = none)
    (h : (nd'.peer i).stream = (nd.peer i).stream)
  | delivers (fp : Frame) (hopen : nd.opensStream i a = false) (hacc : nd.accepted i a = some fp)
    (h : (nd'.peer i).stream = (nd.peer i).stream.deliver fp)
  | reopens (hopen : nd.opensStream i a = true) (hacc : nd.accepted i a = none)
    (h : (nd'.peer i).stream = (nd.peer i).stream.reopen)
  | ends (term : TermBits) (hopen : nd.opensStream i a = false) (hacc : nd.accepted i a = none)
    (hterm : term = .neutral → i = nd.cPeer ∧ nd.refusal a = true)
    (h : (nd'.peer i).stream = (nd.peer i).stream.disconnect term)
  | requests (hopen : nd.opensStream i a = false) (hacc : nd.accepted i a = none)
    (h : (nd'.peer i).stream = (nd.peer i).stream.request)
  | call (op : PeerOp) (ha : a = .peer i op)
    (h : (nd'.peer i).stream = op.onStream (nd.peer i).stream)

/-- An action that does not receive a frame. -/
structure Local (nd : Node n) (a : Action n) : Prop where
  opens : ∀ i, nd.opensStream i a = false
  accepted : ∀ i, nd.accepted i a = none

theorem StreamStep.of_linkRequest {l : Link} {j : Fin n} (ha : nd.Local a)
    (h : l.p.stream = (nd.peer j).stream ∨ l.p.stream = (nd.peer j).stream.request)
    (hpeer : nd'.peer = (nd.setLink j l).peer) : nd.StreamStep a nd' i := by
  by_cases hi : i = j
  · subst hi
    have hself : (nd'.peer i).stream = l.p.stream := by rw [hpeer, setLink_peer_self]
    rcases h with h | h
    · exact .same (ha.opens i) (ha.accepted i) (hself.trans h)
    · exact .requests (ha.opens i) (ha.accepted i) (hself.trans h)
  · refine .same (ha.opens i) (ha.accepted i) ?_
    rw [hpeer, setLink_peer_of_ne nd l hi]

theorem StreamStep.of_same (ha : nd.Local a) (h : (nd'.peer i).stream = (nd.peer i).stream) :
    nd.StreamStep a nd' i :=
  .same (ha.opens i) (ha.accepted i) h

theorem setLink_stream_of_ne (l : Link) {j : Fin n} (h : i ≠ j) :
    ((nd.setLink j l).peer i).stream = (nd.peer i).stream := by
  rw [setLink_peer_of_ne nd l h]

/-- A section of the transmit worker. -/
theorem StreamStep.of_mayEnd {l : Link} (ha : nd.Local a) (h : (nd.link nd.cPeer).MayEnd l)
    (hpeer : (nd'.peer i).stream = ((nd.setLink nd.cPeer l).peer i).stream) :
    nd.StreamStep a nd' i := by
  by_cases hi : i = nd.cPeer
  · subst hi
    rw [setLink_peer_self] at hpeer
    rcases h with h | ⟨term, hterm, h⟩
    · exact .of_same ha (hpeer.trans h)
    · exact .ends term (ha.opens _) (ha.accepted _) (absurd · hterm) (hpeer.trans h)
  · exact .of_same ha (hpeer.trans (setLink_stream_of_ne l hi))

theorem receive_stream (nd : Node n) (fp : Frame) (i : Fin n) :
    nd.StreamStep (.receive fp) (nd.receive fp) i := by
  by_cases hi : i = nd.cPeer
  · subst hi
    by_cases hu : isUFrm (fp.ctrl nd.s.framing 0) = true
    · have hopen (o : Bool) (h : opensLink (nd.link nd.cPeer) fp = o) :
          nd.opensStream nd.cPeer (.receive fp) = o := by
        rw [opensStream, decide_eq_true rfl, hu, h, Bool.true_and, Bool.true_and]
      have hacc : nd.accepted nd.cPeer (.receive fp) = none := by
        rw [accepted, hu]
        exact if_neg fun h => absurd h.2.1 (by simp)
      have hpeer : (nd.receive fp).peer nd.cPeer =
          (handleUFrame (Endpoint.lineBusy (nd.link nd.cPeer)) fp).p := by
        rw [receive, setLink_peer_self, if_pos hu]
      rcases handleUFrame_stream (Endpoint.lineBusy (nd.link nd.cPeer)) fp with
        ⟨ho, h⟩ | ⟨ho, -, h⟩ | ⟨ho, hrefuse, h⟩ | ⟨ho, h⟩
      · exact .reopens (hopen _ ho) hacc (hpeer ▸ h)
      · exact .ends .orderly (hopen _ ho) hacc (by simp) (hpeer ▸ h)
      · exact .ends .neutral (hopen _ ho) hacc (fun _ => ⟨rfl, hrefuse⟩) (hpeer ▸ h)
      · exact .same (hopen _ ho) hacc (hpeer ▸ h)
    · rw [Bool.not_eq_true] at hu
      have hopen : nd.opensStream nd.cPeer (.receive fp) = false := by
        rw [opensStream, hu, Bool.and_false, Bool.false_and]
      have hpeer : (nd.receive fp).peer nd.cPeer =
          (rxDispatch (Endpoint.lineBusy (nd.link nd.cPeer)) fp).1.p := by
        rw [receive, setLink_peer_self, if_neg (Bool.eq_false_iff.mp hu)]
      have hstream := @rxDispatch_stream (Endpoint.lineBusy (nd.link nd.cPeer)) fp
      rw [← hpeer] at hstream
      split at hstream
      next hdeliver =>
        exact .delivers fp hopen (if_pos ⟨rfl, hu, hdeliver⟩) hstream
      next hdrop =>
        exact .same hopen (if_neg fun h => hdrop h.2.2) hstream
  · refine .same ?_ (if_neg fun h => hi h.1) (setLink_stream_of_ne _ hi)
    rw [opensStream, decide_eq_false hi, Bool.false_and, Bool.false_and]

theorem act_stream (h : nd.act a = some (nd', sent)) (i : Fin n) : nd.StreamStep a nd' i := by
  cases a with
  | receive fp =>
    cases h
    exact receive_stream nd fp i
  | lineIdle =>
    cases h
    refine .of_mayEnd ⟨fun _ => rfl, fun _ => rfl⟩ (.inl ?_) rfl
    rfl
  | txFetch =>
    simp only [act] at h
    split at h
    · split at h
      · cases h
        exact .of_same ⟨fun _ => rfl, fun _ => rfl⟩ rfl
      · cases h
    · cases h
  | txEntry take =>
    simp only [act] at h
    split at h
    next flags _ =>
      split at h
      · obtain rfl := congrArg Prod.fst (Option.some.inj h)
        simp only [txEntry]
        split
        · split
          · exact .of_same ⟨fun _ => rfl, fun _ => rfl⟩ rfl
          · exact .of_mayEnd ⟨fun _ => rfl, fun _ => rfl⟩ (serveRequest_mayEnd ..)
              (congrArg (fun peer => (peer i).stream) (finishPass_peer ..))
        · exact .of_mayEnd ⟨fun _ => rfl, fun _ => rfl⟩ (servePeer_mayEnd ..)
            (congrArg (fun peer => (peer i).stream) (finishPass_peer ..))
      · cases h
    · cases h
  | txSwitched take =>
    simp only [act] at h
    split at h
    · obtain rfl := congrArg Prod.fst (Option.some.inj h)
      exact .of_mayEnd ⟨fun _ => rfl, fun _ => rfl⟩ (serveRequest_mayEnd ..)
        (congrArg (fun peer => (peer i).stream) (finishPass_peer ..))
    · cases h
  | txAdvance =>
    simp only [act] at h
    split at h
    · cases h
      refine .of_same ⟨fun _ => rfl, fun _ => rfl⟩ ?_
      simp only [txAdvance]
      split
      · rfl
      · exact needP_field Peer.stream (fun _ _ => rfl) nd _ i
    · cases h
  | txCheck =>
    simp only [act] at h
    split at h
    · cases h
      exact .of_same ⟨fun _ => rfl, fun _ => rfl⟩ rfl
    · cases h
  | txIFrame =>
    simp only [act] at h
    split at h
    · cases h
      exact .of_mayEnd ⟨fun _ => rfl, fun _ => rfl⟩ (.inl (connectedTxIFrame_stream ..))
        (finishTx_field Peer.stream (fun _ _ => rfl) ..)
    · cases h
  | txSFrame take =>
    simp only [act] at h
    split at h
    · cases h
      exact .of_mayEnd ⟨fun _ => rfl, fun _ => rfl⟩ (.inl (connectedTxSFrame_stream ..))
        (finishTx_field Peer.stream (fun _ _ => rfl) ..)
    · cases h
  | linkUp j mode nrmOnly =>
    cases h
    refine .of_linkRequest ⟨fun _ => rfl, fun _ => rfl⟩ (linkUpStart_stream (nd.link j) mode nrmOnly) ?_
    split <;> rfl
  | linkUpDone call =>
    simp only [act] at h
    split at h
    · cases h
      exact .of_same ⟨fun _ => rfl, fun _ => rfl⟩ rfl
    · cases h
  | linkUpFails call =>
    simp only [act] at h
    split at h
    · cases h
      exact .of_same ⟨fun _ => rfl, fun _ => rfl⟩ rfl
    · cases h
  | linkDown j =>
    cases h
    exact .of_linkRequest ⟨fun _ => rfl, fun _ => rfl⟩ (linkDownStart_stream (nd.link j)) rfl
  | peer j op =>
    simp only [act, Option.map_eq_some_iff] at h
    obtain ⟨r, hr, h⟩ := h
    cases h
    by_cases hi : i = j
    · subst hi
      refine .call op rfl ?_
      refine Eq.trans ?_ (PeerOp.apply_stream hr)
      exact congrArg Peer.stream (setLink_peer_self nd i r.1)
    · exact .of_same ⟨fun _ => rfl, fun _ => rfl⟩ (setLink_stream_of_ne r.1 hi)
  | poolState state =>
    cases h
    exact .of_same ⟨fun _ => rfl, fun _ => rfl⟩ rfl
  | poolChange =>
    cases h
    exact .of_same ⟨fun _ => rfl, fun _ => rfl⟩ rfl

end Node

end IoHdlc
