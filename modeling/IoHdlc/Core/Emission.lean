import IoHdlc.Core.Node

/-!
The frames that reach the driver, as they read on the line: the type, the address and
the P/F bit.

I and S frames are built on the spot. A U command may have been prepared by a caller
or received before, and a U response depends on a code that waits in the peer, so what
they are is an invariant of the node.
-/

namespace IoHdlc

/-! ### Reading a frame -/

inductive FrameType where
  | iFrame | sFrame | uFrame
  deriving DecidableEq, Repr

def frameType (fr : Framing) (fp : Frame) : FrameType :=
  if isUFrm (fp.ctrl fr 0) then .uFrame else if isIFrm (fp.ctrl fr 0) then .iFrame else .sFrame

/-- The P/F bit; a U frame has it in its only control octet. -/
def linePF (fr : Framing) (fp : Frame) : Bool :=
  if isUFrm (fp.ctrl fr 0) then fp.ctrl fr 0 &&& IOHDLC_PF_BIT != 0 else getPF fr fp

structure ReadsAs (fr : Framing) (fp : Frame) (type : FrameType) (addr : UInt8) (pf : Bool) :
    Prop where
  type : frameType fr fp = type
  addr : fp.addr fr = addr
  pf : linePF fr fp = pf

/-- The codes of the U responses, and 0 for none. -/
def ResponseCode (uFun : UInt8) : Prop :=
  uFun = 0 ∨ uFun = IOHDLC_U_UA ∨ uFun = IOHDLC_U_DM ∨ uFun = IOHDLC_U_TEST ∨ uFun = IOHDLC_U_FRMR

theorem responseCode_none : ResponseCode 0 := .inl rfl

theorem responseCode_ua : ResponseCode IOHDLC_U_UA := .inr (.inl rfl)

theorem responseCode_dm : ResponseCode IOHDLC_U_DM := .inr (.inr (.inl rfl))

theorem responseCode_test : ResponseCode IOHDLC_U_TEST := .inr (.inr (.inr (.inl rfl)))

theorem responseCode_frmr : ResponseCode IOHDLC_U_FRMR := .inr (.inr (.inr (.inr rfl)))

section Builders

variable (s : Station) (p : Peer) (fp : Frame) (pf isCommand : Bool)

theorem isUFrm_uCtrl (uFun : UInt8) : isUFrm (uCtrl uFun pf) = true := by
  have h : uCtrl uFun pf &&& 0x03 = (0x03 : UInt8) := by
    refine octet_ext fun i hi => ?_
    cases pf <;> interval_cases i <;> simp [uCtrl, IOHDLC_U_ID, IOHDLC_PF_BIT]
  rw [isUFrm, h]
  rfl

theorem pf_uCtrl {uFun : UInt8} (hfun : ResponseCode uFun) :
    (uCtrl uFun pf &&& IOHDLC_PF_BIT != 0) = pf := by
  rcases hfun with rfl | rfl | rfl | rfl | rfl
  all_goals cases pf <;> rfl

/-- Whatever the function, a set P/F bit reads as set. -/
theorem pf_uCtrl_true (uFun : UInt8) : (uCtrl uFun true &&& IOHDLC_PF_BIT != 0) = true := by
  have h : uCtrl uFun true &&& IOHDLC_PF_BIT = IOHDLC_PF_BIT := by
    refine octet_ext fun i hi => ?_
    interval_cases i <;> simp [uCtrl, IOHDLC_U_ID, IOHDLC_PF_BIT]
  rw [h]
  rfl

theorem ReadsAs.of_uCtrl {fr : Framing} {fp : Frame} {uFun addr : UInt8} {pf : Bool}
    (hctrl : fp.ctrl fr 0 = uCtrl uFun pf) (haddr : fp.addr fr = addr)
    (hpf : pf = true ∨ ResponseCode uFun) : ReadsAs fr fp .uFrame addr pf where
  type := by rw [frameType, hctrl, isUFrm_uCtrl, if_pos rfl]
  addr := haddr
  pf := by
    rw [linePF, hctrl, isUFrm_uCtrl, if_pos rfl]
    rcases hpf with rfl | hfun
    · exact pf_uCtrl_true uFun
    · exact pf_uCtrl pf hfun

theorem addr_ioHdlcBuildUFrame (uFun : UInt8) :
    (ioHdlcBuildUFrame s p fp uFun pf isCommand).addr s.framing = txAddr s p isCommand := by
  cases pf <;> simp [ioHdlcBuildUFrame, Frame.addr, Frame.setCtrl, Frame.setAddr]

theorem readsAs_ioHdlcBuildUFrame {uFun : UInt8} (hpf : pf = true ∨ ResponseCode uFun) :
    ReadsAs s.framing (ioHdlcBuildUFrame s p fp uFun pf isCommand) .uFrame (txAddr s p isCommand)
      pf :=
  .of_uCtrl (ctrl_ioHdlcBuildUFrame ..) (addr_ioHdlcBuildUFrame ..) hpf

theorem readsAs_ioHdlcBuildUFrameWithInfo {uFun : UInt8} (hpf : pf = true ∨ ResponseCode uFun)
    (info : List UInt8) :
    ReadsAs s.framing (ioHdlcBuildUFrameWithInfo s p fp uFun pf isCommand info) .uFrame
      (txAddr s p isCommand) pf :=
  .of_uCtrl
    ((Buffer.store_lt _ _ (by omega)).trans (ctrl_ioHdlcBuildUFrame s p fp pf isCommand uFun))
    ((Buffer.store_lt _ _ (by omega)).trans (addr_ioHdlcBuildUFrame s p fp pf isCommand uFun)) hpf

theorem readsAs_buildFrmrResponse :
    ReadsAs s.framing (buildFrmrResponse s p fp pf) .uFrame (txAddr s p false) pf :=
  .of_uCtrl
    ((Buffer.store_lt _ _ (by omega)).trans
      (ctrl_ioHdlcBuildUFrame s p fp pf false IOHDLC_U_FRMR))
    ((Buffer.store_lt _ _ (by omega)).trans
      (addr_ioHdlcBuildUFrame s p fp pf false IOHDLC_U_FRMR)) (.inr responseCode_frmr)

theorem readsAs_buildSFrame {sFun : UInt8} (nr : UInt32)
    (hf : sFun = IOHDLC_S_RR ∨ sFun = IOHDLC_S_RNR ∨ sFun = IOHDLC_S_REJ) :
    ReadsAs s.framing (buildSFrame s p fp sFun nr pf isCommand) .sFrame (txAddr s p isCommand)
      pf := by
  obtain ⟨f, rfl⟩ : ∃ f : SFunction, sFun = f.code := by
    rcases hf with rfl | rfl | rfl
    · exact ⟨⟨IOHDLC_S_RR, by decide⟩, rfl⟩
    · exact ⟨⟨IOHDLC_S_RNR, by decide⟩, rfl⟩
    · exact ⟨⟨IOHDLC_S_REJ, by decide⟩, rfl⟩
  obtain ⟨hu, hi, -⟩ := sFunction_octet f
  have hlow := lowNibble_buildSFrame s p fp nr pf isCommand f.code
  rw [← hlow] at hu hi
  rw [← isUFrm_iff_lowNibble] at hu
  rw [← isIFrm_iff_lowNibble] at hi
  exact
    { type := by rw [frameType, hu, hi, if_neg Bool.false_ne_true, if_neg Bool.false_ne_true]
      addr := addr_built s p (.sFrame fp f nr pf isCommand)
      pf := by rw [linePF, hu, if_neg Bool.false_ne_true, getPF_buildSFrame] }

theorem readsAs_prepareIFrameHeader (nsSeed nr : UInt32) :
    ReadsAs s.framing (prepareIFrameHeader s fp (txAddr s p isCommand) nsSeed nr pf).1 .iFrame
      (txAddr s p isCommand) pf := by
  have hi := prepareIFrameHeader_isIFrm s fp nsSeed nr pf (txAddr s p isCommand)
  have hu := not_isUFrm_of_isIFrm hi
  exact
    { type := by rw [frameType, hu, hi, if_neg Bool.false_ne_true, if_pos rfl]
      addr := addr_built s p (.iFrame fp nsSeed nr pf isCommand)
      pf := by rw [linePF, hu, if_neg Bool.false_ne_true, getPF_prepareIFrameHeader] }

end Builders

/-! ### The stored frame and the stored code -/

/-- A prepared command is a U frame to the peer, and a waiting response code is one. -/
structure Link.UmReady (l : Link) : Prop where
  api : ∀ fp ∈ l.p.umApiFrame,
    frameType l.s.framing fp = .uFrame ∧ fp.addr l.s.framing = l.p.addr.toUInt8
  rsp : ResponseCode l.p.umRsp

/-- The parameters are the same, and what is stored is from before or in order. -/
structure Link.Inherits (l l' : Link) : Prop where
  framing : l'.s.framing = l.s.framing
  sAddr : l'.s.addr = l.s.addr
  pAddr : l'.p.addr = l.p.addr
  twa : l'.s.flags.twa = l.s.flags.twa
  api : ∀ fp ∈ l'.p.umApiFrame, fp ∈ l.p.umApiFrame
  rsp : l'.p.umRsp = l.p.umRsp ∨ ResponseCode l'.p.umRsp

section Inherits

variable {l l' l'' : Link}

theorem Link.Inherits.refl (l : Link) : l.Inherits l := ⟨rfl, rfl, rfl, rfl, fun _ h => h, .inl rfl⟩

theorem Link.Inherits.trans (h : l.Inherits l') (h' : l'.Inherits l'') : l.Inherits l'' where
  framing := h'.framing.trans h.framing
  sAddr := h'.sAddr.trans h.sAddr
  pAddr := h'.pAddr.trans h.pAddr
  twa := h'.twa.trans h.twa
  api fp hfp := h.api fp (h'.api fp hfp)
  rsp := h'.rsp.elim (fun heq => heq ▸ h.rsp) .inr

theorem Link.UmReady.inherits (h : l.UmReady) (h' : l.Inherits l') : l'.UmReady where
  api fp hfp := by
    rw [h'.framing, h'.pAddr]
    exact h.api fp (h'.api fp hfp)
  rsp := h'.rsp.elim (fun heq => heq ▸ h.rsp) id

/-- The set-up of a link is the same, and what is stored stays in order. -/
structure Link.StaysReady (l l' : Link) : Prop where
  framing : l'.s.framing = l.s.framing
  sAddr : l'.s.addr = l.s.addr
  pAddr : l'.p.addr = l.p.addr
  twa : l'.s.flags.twa = l.s.flags.twa
  ready : l.UmReady → l'.UmReady

theorem Link.Inherits.staysReady (h : l.Inherits l') : l.StaysReady l' :=
  ⟨h.framing, h.sAddr, h.pAddr, h.twa, fun hl => hl.inherits h⟩

/-- The parameters of the link are the same, everything about U frames too. -/
theorem Link.Inherits.of_eq (hframing : l'.s.framing = l.s.framing) (hsAddr : l'.s.addr = l.s.addr)
    (htwa : l'.s.flags.twa = l.s.flags.twa) (haddr : l'.p.addr = l.p.addr)
    (hapi : l'.p.umApiFrame = l.p.umApiFrame) (hrsp : l'.p.umRsp = l.p.umRsp) : l.Inherits l' :=
  ⟨hframing, hsAddr, haddr, htwa, fun _ h => hapi ▸ h, .inl hrsp⟩

end Inherits

/-! ### What the sections leave -/

section Keeps

variable {l : Link} {fp : Frame}

theorem handleCheckpointAndAck_inherits {nr : UInt32} {pf isCommand : Bool} {ack : AckResult}
    (h : handleCheckpointAndAck l nr pf isCommand = some ack) : l.Inherits ack.link := by
  obtain ⟨_, _, _, _, _, _, _, _, _, _, _, -, h⟩ := handleCheckpointAndAck_fields h
  rw [h]
  exact .of_eq rfl rfl rfl rfl rfl rfl

theorem handleIFrame_inherits (pf : Bool) : l.Inherits (handleIFrame l fp pf).1 := by
  simp only [handleIFrame]
  split
  all_goals exact .of_eq rfl rfl rfl rfl rfl rfl

theorem handleSFrame_inherits : l.Inherits (handleSFrame l fp).1 := by
  obtain ⟨_, _, _, _, _, _, h⟩ := handleSFrame_fields l fp
  rw [h]
  exact .of_eq rfl rfl rfl rfl rfl rfl

/-- A FRMR condition leaves the code of the response to it. -/
theorem commonRx_inherits (isCommand : Bool) : l.Inherits (commonRx l fp isCommand).1 := by
  cases commonRx_does l fp isCommand with
  | frmr on eq =>
    rw [eq, frmrPending]
    split
    · exact ⟨rfl, rfl, rfl, rfl, fun _ h => h, .inr responseCode_frmr⟩
    · exact .refl l
  | reject off hack eq =>
    rw [eq]
    exact ⟨rfl, rfl, rfl, rfl, fun _ h => h, .inr responseCode_frmr⟩
  | @iFrame ack r off hack hi hr eq =>
    have hinh : ack.link.Inherits r.1 := hr ▸ handleIFrame_inherits _
    rw [eq]
    exact ((handleCheckpointAndAck_inherits hack).trans hinh).trans
      (.of_eq rfl rfl rfl rfl rfl rfl)
  | @sFrame ack r off hack hi hr eq =>
    have hinh : ack.link.Inherits r.1 := hr ▸ handleSFrame_inherits
    rw [eq]
    exact ((handleCheckpointAndAck_inherits hack).trans hinh).trans
      (.of_eq rfl rfl rfl rfl rfl rfl)

/-- The end of the connection drops the stored command. -/
theorem leaveModeIfLast_inherits (l : Link) (p : Peer) (term : TermBits) (haddr : p.addr = l.p.addr)
    (hapi : p.umApiFrame = none) (hrsp : p.umRsp = 0) :
    l.Inherits (leaveModeIfLast (ioHdlcSetDisconnected ⟨l.s, p⟩ term)) := by
  have hset : l.Inherits (ioHdlcSetDisconnected ⟨l.s, p⟩ term) :=
    { framing := rfl
      sAddr := rfl
      pAddr := haddr
      twa := rfl
      api := fun fp hfp => absurd (hapi.symm.trans hfp) nofun
      rsp := .inr (.inl hrsp) }
  rw [leaveModeIfLast]
  split
  · exact hset.trans (.of_eq rfl rfl rfl rfl rfl rfl)
  · exact hset

theorem abortPeerLink_inherits (l : Link) : l.Inherits (abortPeerLink l) :=
  leaveModeIfLast_inherits l (clearPeerTxQueues (resetPeerProtocolState l.p)) .aborted rfl rfl rfl

theorem closePeerOrderly_inherits (l : Link) : l.Inherits (closePeerOrderly l) := by
  have h := leaveModeIfLast_inherits l (clearPeerTxQueues (resetPeerProtocolState l.p)) .orderly
    rfl rfl rfl
  simp only [closePeerOrderly]
  split
  · exact h.trans (.of_eq rfl rfl rfl rfl rfl rfl)
  · exact h

theorem handleTimeoutRetry_inherits (l : Link) : l.Inherits (handleTimeoutRetry l).1 := by
  rw [handleTimeoutRetry]
  split
  · have habort := abortPeerLink_inherits { l with s := l.s.broadcastFlags {.linkDown} }
    have hl : l.Inherits { l with s := l.s.broadcastFlags {.linkDown} } :=
      .of_eq rfl rfl rfl rfl rfl rfl
    replace hl := hl.trans habort
    dsimp only
    split
    all_goals exact hl.trans (.of_eq rfl rfl rfl rfl rfl rfl)
  · exact .of_eq rfl rfl rfl rfl rfl rfl

/-! ### Received U frames -/

theorem registerUCommand_inherits (uCmd : UInt8) (hasPf : Bool) :
    l.Inherits (registerUCommand l uCmd hasPf) :=
  .of_eq rfl rfl rfl rfl rfl rfl

theorem serveUCommand_inherits (fp : Frame) : l.Inherits (serveUCommand l fp) := by
  simp only [serveUCommand]
  split
  · exact ⟨rfl, rfl, rfl, rfl, by rintro fp ⟨⟩, .inr responseCode_ua⟩
  split
  · refine ⟨rfl, rfl, rfl, rfl, fun _ h => h, .inr ?_⟩
    dsimp only
    split
    · exact responseCode_dm
    · exact responseCode_ua
  split
  · exact ⟨rfl, rfl, rfl, rfl, fun _ h => h, .inr responseCode_test⟩
  · exact ⟨rfl, rfl, rfl, rfl, fun _ h => h, .inr responseCode_dm⟩

theorem receiveUCommand_inherits (fp : Frame) : l.Inherits (receiveUCommand l fp) := by
  rw [receiveUCommand]
  split
  · have hserve := (registerUCommand_inherits (l := l) (uFunction l fp)
      (getPF l.s.framing fp)).trans (serveUCommand_inherits fp)
    exact hserve.trans (.of_eq rfl rfl rfl rfl rfl rfl)
  · exact .refl l

theorem serveUResponse_inherits (uCmd : UInt8) : l.Inherits (serveUResponse l uCmd) := by
  have hclose := closePeerOrderly_inherits l
  have hopen : l.Inherits ⟨applyModeState l.s l.s.mode, resetPeerVars l.p⟩ :=
    ⟨rfl, rfl, rfl, rfl, nofun, .inr responseCode_none⟩
  simp only [serveUResponse]
  by_cases hdisc : l.p.umCmd = IOHDLC_U_DISC
  · simp only [if_pos hdisc, if_neg (not_not.mpr hdisc)]
    split
    · exact hclose.trans (.of_eq rfl rfl rfl rfl rfl rfl)
    split
    · exact hclose.trans (.of_eq rfl rfl rfl rfl rfl rfl)
    split
    · exact .of_eq rfl rfl rfl rfl rfl rfl
    · exact .refl l
  · simp only [if_neg hdisc, if_pos (show l.p.umCmd ≠ IOHDLC_U_DISC from hdisc)]
    split
    · exact hopen.trans (.of_eq rfl rfl rfl rfl rfl rfl)
    split
    · exact .of_eq rfl rfl rfl rfl rfl rfl
    split
    · exact .of_eq rfl rfl rfl rfl rfl rfl
    · exact .refl l

theorem finishUResponse_inherits (restartT3 : Bool) : l.Inherits (finishUResponse l restartT3) :=
  .of_eq rfl rfl rfl rfl rfl rfl

/-- A received TEST response is stored where a prepared command was. -/
theorem handleUFrame_staysReady (hu : frameType l.s.framing fp = .uFrame) :
    l.StaysReady (handleUFrame l fp) := by
  simp only [handleUFrame]
  split
  · exact Link.Inherits.staysReady (.refl l)
  next haddr =>
    split
    · rw [receiveUi]
      split
      · exact Link.Inherits.staysReady (.refl l)
      split
      · exact Link.Inherits.staysReady (.refl l)
      · exact Link.Inherits.staysReady (.of_eq rfl rfl rfl rfl rfl rfl)
    split
    · exact (receiveUCommand_inherits fp).staysReady
    next hcommand =>
      have hpeer : (fp.addr l.s.framing).toUInt32 = l.p.addr :=
        Decidable.not_not.mp fun h => haddr ⟨hcommand, h⟩
      have hoctet : fp.addr l.s.framing = l.p.addr.toUInt8 := by
        rw [← hpeer, UInt8.toUInt8_toUInt32]
      simp only [receiveUResponse]
      split
      · split
        · refine ⟨rfl, rfl, rfl, rfl, fun hl => ⟨fun fp' hfp' => ?_, hl.rsp⟩⟩
          obtain rfl : fp = fp' := Option.some.inj hfp'
          exact ⟨hu, hoctet⟩
        · have hreset : l.Inherits { l with p := { l.p with replyTmr := l.p.replyTmr.reset } } :=
            .of_eq rfl rfl rfl rfl rfl rfl
          exact ((hreset.trans (serveUResponse_inherits _)).trans
            (finishUResponse_inherits _)).staysReady
      · exact Link.Inherits.staysReady (.refl l)

/-! ### The transmit worker -/

theorem serveReplyTimeout_inherits (l : Link) (flags : EvtFlags) :
    l.Inherits (serveReplyTimeout l flags).1 := by
  have hretry := handleTimeoutRetry_inherits l
  simp only [serveReplyTimeout]
  split
  · split
    · exact hretry.trans (.of_eq rfl rfl rfl rfl rfl rfl)
    · exact hretry
  · exact .refl l

theorem serveT3Timeout_inherits (l : Link) (flags : EvtFlags) :
    l.Inherits (serveT3Timeout l flags).1 := by
  have hstop : l.Inherits { l with p := { l.p with t3Tmr := l.p.t3Tmr.reset } } :=
    .of_eq rfl rfl rfl rfl rfl rfl
  have hretry := hstop.trans (handleTimeoutRetry_inherits _)
  simp only [serveT3Timeout]
  split
  · split
    · exact .of_eq rfl rfl rfl rfl rfl rfl
    split
    · exact hstop
    split
    · exact hretry.trans (.of_eq rfl rfl rfl rfl rfl rfl)
    · exact hretry
  · exact .refl l

theorem sendUi_station (l : Link) (take : Option Frame) : (sendUi l take).1.s = l.s := by
  simp only [sendUi]
  split
  · split <;> rfl
  · rfl

theorem sendUi_inherits (l : Link) (take : Option Frame) : l.Inherits (sendUi l take).1 := by
  simp only [sendUi]
  split
  · split
    · exact .of_eq rfl rfl rfl rfl rfl rfl
    · exact .refl l
  · exact .refl l

theorem sendUi_reads {take : Option Frame} {fp : Frame} (h : fp ∈ (sendUi l take).2) :
    ReadsAs l.s.framing fp .uFrame (txAddr l.s l.p (sendsCommand l.s)) false ∧
      sendOpportunity l.s = true := by
  simp only [sendUi] at h
  split at h
  next hmay =>
    simp only [Bool.and_eq_true] at hmay
    split at h
    · cases h
      exact ⟨readsAs_ioHdlcBuildUFrameWithInfo _ _ _ _ _ (.inr responseCode_none) _, hmay.1.2⟩
    · cases h
  · cases h

theorem connectedTxEntry_inherits (l : Link) (flags : EvtFlags) (take : Option Frame) :
    l.Inherits (connectedTxEntry l flags take).link := by
  have hreply := serveReplyTimeout_inherits l (flags \ {.lineIdle})
  have ht3 := hreply.trans (serveT3Timeout_inherits _ ((flags \ {.lineIdle}) \ {.cRplytmo}))
  simp only [connectedTxEntry]
  split
  · split
    · exact ht3.trans (sendUi_inherits _ take)
    · exact ht3
  · exact hreply

theorem connectedTxEntry_type (l : Link) (flags : EvtFlags) (take : Option Frame) :
    ∀ fp ∈ (connectedTxEntry l flags take).sent, frameType l.s.framing fp = .uFrame := by
  have hreply := serveReplyTimeout_inherits l (flags \ {.lineIdle})
  have ht3 := hreply.trans (serveT3Timeout_inherits _ ((flags \ {.lineIdle}) \ {.cRplytmo}))
  simp only [connectedTxEntry]
  split
  · split
    · intro fp hfp
      rw [← ht3.framing]
      exact (sendUi_reads hfp).1.type
    · simp
  · simp

/-- The retry that precedes a U command. -/
def retryBefore (l : Link) (timedOut : Bool) : Link × Bool :=
  if timedOut && l.p.umCmd ≠ IOHDLC_U_TEST then handleTimeoutRetry l else (l, true)

theorem retryBefore_inherits (l : Link) (timedOut : Bool) :
    l.Inherits (retryBefore l timedOut).1 := by
  rw [retryBefore]
  split
  · exact handleTimeoutRetry_inherits l
  · exact .refl l

/-- A retry that is allowed only counts. -/
theorem retryBefore_eq {timedOut : Bool} (h : (retryBefore l timedOut).2 = true) :
    (retryBefore l timedOut).1 = { l with p := { l.p with
      pollRetryCount :=
        if timedOut && l.p.umCmd ≠ IOHDLC_U_TEST then l.p.pollRetryCount + 1
        else l.p.pollRetryCount } } := by
  rw [retryBefore] at h ⊢
  split
  next hdue =>
    rw [if_pos hdue, handleTimeoutRetry_snd, decide_eq_true_eq] at h
    rw [handleTimeoutRetry, if_neg (UInt8.not_le.mpr h)]
  · rfl

/-- A U command that was prepared, or is built now. -/
def Link.IsUCommand (l : Link) (fp : Frame) : Prop :=
  fp ∈ l.p.umApiFrame ∨ l.p.umApiFrame = none ∧
    ∃ stale, fp = ioHdlcBuildUFrame l.s l.p stale l.p.umCmd true true

/-- The section for U commands ends without a frame, or with one that had an opportunity. -/
theorem sendUCommand_ends (l : Link) (timedOut : Bool) (take : Option Frame) :
    let r := sendUCommand l timedOut take
    let q := retryBefore l timedOut
    (mayOriginateUCommand l = false ∧ r = { link := l, sent := none, next := .drop }) ∨
      (mayOriginateUCommand l = true ∧ q.2 = false ∧
        r = { link := q.1, sent := none, next := .linkDown }) ∨
      (mayOriginateUCommand l = true ∧ q.2 = true ∧ r.link = presetF q.1 ∧ r.sent = none ∧
        (r.next = .go ∧ sendOpportunity r.link.s = true ∨
          r.next = .wait ∧ sendOpportunity r.link.s = false)) ∨
      (mayOriginateUCommand l = true ∧ q.2 = true ∧ sendOpportunity (presetF q.1).s = true ∧
        ∃ fp, (presetF q.1).IsUCommand fp ∧
          r = { link := uCommandSent (presetF q.1), sent := some fp, next := .go }) := by
  dsimp only
  simp only [sendUCommand]
  rw [← retryBefore]
  split
  next hmay =>
    split
    next hgo =>
      split
      next hopp =>
        split
        next fp heq =>
          refine .inr (.inr (.inr ⟨hmay, hgo, hopp, fp, ?_, rfl⟩))
          rw [Link.IsUCommand]
          cases hapi : (presetF (retryBefore l timedOut).1).p.umApiFrame with
          | some fp' =>
            rw [hapi] at heq
            cases heq
            exact .inl rfl
          | none =>
            rw [hapi] at heq
            obtain ⟨stale, -, rfl⟩ := Option.map_eq_some_iff.mp heq
            exact .inr ⟨rfl, stale, rfl⟩
        · exact .inr (.inr (.inl ⟨hmay, hgo, rfl, rfl, .inl ⟨rfl, hopp⟩⟩))
      next hopp =>
        exact .inr (.inr (.inl ⟨hmay, hgo, rfl, rfl, .inr ⟨rfl, Bool.eq_false_iff.mpr hopp⟩⟩))
    next hstop =>
      exact .inr (.inl ⟨hmay, Bool.eq_false_iff.mpr hstop, rfl⟩)
  next hmay => exact .inl ⟨Bool.eq_false_iff.mpr hmay, rfl⟩

theorem presetF_inherits (l : Link) : l.Inherits (presetF l) := .of_eq rfl rfl rfl rfl rfl rfl

/-- A U command that went out waits for its F bit, and but for TEST under the reply timer. -/
theorem uCommandSent_eq (l : Link) :
    ∃ t3 delay, uCommandSent l =
      { s := { l.s with pfState := { l.s.pfState with fRcved := false } }
        p := { l.p with
          t3Tmr := t3
          replyTmr := if l.p.umCmd = IOHDLC_U_TEST then l.p.replyTmr else l.p.replyTmr.set delay
          umApiFrame := none
          umState := { l.p.umState with sent := true } } } := by
  by_cases htest : l.p.umCmd = IOHDLC_U_TEST
  · simp only [uCommandSent, htest, if_true, startPollReplyTimerIf]
    exact ⟨_, 0, rfl⟩
  · simp only [uCommandSent, htest, if_false, startPollReplyTimerIf, not_false_eq_true, decide_true,
      if_true, startPollReplyTimer]
    exact ⟨_, _, rfl⟩

theorem uCommandSent_inherits (l : Link) : l.Inherits (uCommandSent l) := by
  obtain ⟨t3, delay, heq⟩ := uCommandSent_eq l
  rw [heq]
  exact ⟨rfl, rfl, rfl, rfl, nofun, .inl rfl⟩

theorem sendUCommand_inherits (l : Link) (timedOut : Bool) (take : Option Frame) :
    l.Inherits (sendUCommand l timedOut take).link := by
  have hretry := retryBefore_inherits l timedOut
  have hpreset := hretry.trans (presetF_inherits _)
  rcases sendUCommand_ends l timedOut take with ⟨-, h⟩ | ⟨-, -, h⟩ | ⟨-, -, h, -⟩ | ⟨-, -, -, fp, -, h⟩
  · rw [h]
    exact .refl l
  · rw [h]
    exact hretry
  · rw [h]
    exact hpreset
  · rw [h]
    exact hpreset.trans (uCommandSent_inherits _)

theorem Link.IsUCommand.reads {l : Link} {fp : Frame} (h : l.IsUCommand fp) (hl : l.UmReady) :
    frameType l.s.framing fp = .uFrame ∧ fp.addr l.s.framing = txAddr l.s l.p true := by
  rcases h with hapi | ⟨-, stale, rfl⟩
  · exact hl.api fp hapi
  · have hreads := @readsAs_ioHdlcBuildUFrame l.s l.p stale true true l.p.umCmd (.inl rfl)
    exact ⟨hreads.type, hreads.addr⟩

/-- Whatever the section for U commands sends is a U frame to the peer. -/
theorem sendUCommand_reads (timedOut : Bool) (take : Option Frame) {fp : Frame} (hl : l.UmReady)
    (hfp : fp ∈ (sendUCommand l timedOut take).sent) :
    frameType l.s.framing fp = .uFrame ∧ fp.addr l.s.framing = txAddr l.s l.p true := by
  have hpreset := (retryBefore_inherits l timedOut).trans (presetF_inherits _)
  rcases sendUCommand_ends l timedOut take with ⟨-, h⟩ | ⟨-, -, h⟩ | ⟨-, -, -, h, -⟩ |
    ⟨-, -, -, fp', hfp', h⟩
  · rw [h] at hfp
    cases hfp
  · rw [h] at hfp
    cases hfp
  · rw [h] at hfp
    cases hfp
  · rw [h] at hfp
    obtain rfl : fp' = fp := Option.some.inj hfp
    have hreads := hfp'.reads (hl.inherits hpreset)
    rwa [hpreset.framing, txAddr, if_pos rfl, hpreset.pAddr] at hreads

theorem uResponseSent_inherits (l : Link) : l.Inherits (uResponseSent l) := by
  rw [uResponseSent]
  split
  · exact ⟨rfl, rfl, rfl, rfl, fun _ h => h, .inr responseCode_none⟩
  split
  · exact closePeerOrderly_inherits l
  · exact .refl l

theorem sendUResponse_inherits (l : Link) (take : Option Frame) :
    l.Inherits (sendUResponse l take).1 := by
  simp only [sendUResponse]
  split
  · refine Link.Inherits.trans ?_ (uResponseSent_inherits _)
    exact .of_eq rfl rfl rfl rfl rfl rfl
  · exact .of_eq rfl rfl rfl rfl rfl rfl

/-- A U response answers with what P/F state there is. -/
theorem sendUResponse_reads {take : Option Frame} {fp : Frame} (hl : l.UmReady)
    (h : fp ∈ (sendUResponse l take).2) :
    ReadsAs l.s.framing fp .uFrame (txAddr l.s l.p false) l.s.pfState.pRcved := by
  have hframe : fp ∈ uResponseFrame l l.s.pfState.pRcved take := by
    simp only [sendUResponse] at h
    split at h
    next heq =>
      rw [heq]
      exact h
    · cases h
  rw [uResponseFrame] at hframe
  split at hframe
  · obtain ⟨rf, -, rfl⟩ := Option.map_eq_some_iff.mp hframe
    have hreads := readsAs_ioHdlcBuildUFrame l.s l.p rf l.s.pfState.pRcved false
      (.inr responseCode_test)
    exact ⟨hreads.type, hreads.addr, hreads.pf⟩
  · obtain ⟨stale, -, rfl⟩ := Option.map_eq_some_iff.mp hframe
    split
    · exact readsAs_buildFrmrResponse ..
    · exact readsAs_ioHdlcBuildUFrame _ _ _ _ _ (.inr hl.rsp)

theorem uResponseStage_inherits (l : Link) (flags : EvtFlags) (take : Option Frame) :
    l.Inherits (uResponseStage l flags take).1 := by
  rw [uResponseStage]
  split
  · exact sendUResponse_inherits l take
  · exact .refl l

theorem uResponseStage_reads {flags : EvtFlags} {take : Option Frame} {fp : Frame} (hl : l.UmReady)
    (h : fp ∈ (uResponseStage l flags take).2.1) :
    l.p.umState.rcved = true ∧
      ReadsAs l.s.framing fp .uFrame (txAddr l.s l.p false) l.s.pfState.pRcved := by
  rw [uResponseStage] at h
  split at h
  next hrcved => exact ⟨hrcved, sendUResponse_reads hl h⟩
  · cases h

theorem dispatchTx_inherits (l : Link) (flags : EvtFlags) (take : Option Frame) :
    l.Inherits (dispatchTx l flags take).link := by
  simp only [dispatchTx]
  split
  · split <;> exact .refl l
  split
  · exact connectedTxEntry_inherits l _ take
  · exact .refl l

theorem dispatchTx_type (l : Link) (flags : EvtFlags) (take : Option Frame) :
    ∀ fp ∈ (dispatchTx l flags take).sent, frameType l.s.framing fp = .uFrame := by
  simp only [dispatchTx]
  split
  · split <;> simp
  split
  · intro fp hfp
    exact connectedTxEntry_type l _ take fp (by simpa using hfp)
  · simp

theorem servePeer_ne_linkDown (l : Link) (flags : EvtFlags) (take : Takes) :
    (servePeer l flags take).next ≠ .linkDown := by
  simp only [servePeer, dispatchTx]
  split
  · split <;> simp
  split <;> simp

theorem servePeer_inherits (l : Link) (flags : EvtFlags) (take : Takes) :
    l.Inherits (servePeer l flags take).link :=
  (uResponseStage_inherits l flags take.uResponse).trans (dispatchTx_inherits ..)

theorem servePeer_type (hl : l.UmReady) (flags : EvtFlags) (take : Takes) :
    ∀ fp ∈ (servePeer l flags take).sent, frameType l.s.framing fp = .uFrame := by
  intro fp hfp
  rcases List.mem_append.mp hfp with hrsp | hui
  · exact (uResponseStage_reads hl (by simpa using hrsp)).2.type
  · have htype := dispatchTx_type _ _ _ fp hui
    rwa [(uResponseStage_inherits l flags take.uResponse).framing] at htype

theorem serveRequest_inherits (l : Link) (flags : EvtFlags) (timedOut : Bool) (take : Takes) :
    l.Inherits (serveRequest l flags timedOut take).link := by
  have hcmd := sendUCommand_inherits l timedOut take.uCommand
  simp only [serveRequest]
  split
  · exact hcmd
  · exact hcmd
  · exact hcmd
  · exact hcmd.trans (servePeer_inherits ..)

theorem serveRequest_type (hl : l.UmReady) (flags : EvtFlags) (timedOut : Bool) (take : Takes) :
    ∀ fp ∈ (serveRequest l flags timedOut take).sent, frameType l.s.framing fp = .uFrame := by
  have hcmd := sendUCommand_inherits l timedOut take.uCommand
  intro fp hfp
  simp only [serveRequest] at hfp
  split at hfp
  · cases hfp
  · cases hfp
  · cases hfp
  · rcases List.mem_append.mp hfp with hu | hrest
    · exact (sendUCommand_reads _ _ hl (Option.mem_toList.mp hu)).1
    · rw [← hcmd.framing]
      exact servePeer_type (hl.inherits hcmd) _ _ fp hrest

/-- A round of the I-frame loop ends without a frame, or sends the head of the queue. -/
theorem connectedTxIFrame_ends (l : Link) (flags : EvtFlags) (iSent : Bool) :
    let r := connectedTxIFrame l flags iSent
    ((r.link = l ∨ r.link = (getAndClearFlags l flags).1) ∧ r.sent = none) ∨
      ∃ fp rest, l.p.iTransQ = fp :: rest ∧ sendOpportunity l.s = true ∧
        r.link = (transmitIFrame (getAndClearFlags l flags).1 fp rest).1 ∧
        r.sent = some (transmitIFrame (getAndClearFlags l flags).1 fp rest).2.1 := by
  dsimp only
  rw [connectedTxIFrame]
  split
  · exact .inl ⟨.inl rfl, rfl⟩
  next fp rest hq =>
    split
    · exact .inl ⟨.inl rfl, rfl⟩
    next hgo =>
      rw [not_or, not_or] at hgo
      dsimp only
      split
      · exact .inl ⟨.inr rfl, rfl⟩
      · exact .inr ⟨fp, rest, hq, by simpa using hgo.2.1, rfl, rfl⟩

theorem connectedTxIFrame_nextPeer (l : Link) (flags : EvtFlags) (iSent : Bool) :
    (connectedTxIFrame l flags iSent).nextPeer = false := by
  rw [connectedTxIFrame]
  split
  · rfl
  split
  · rfl
  · dsimp only
    split <;> rfl

/-- Only the primary of NRM moves on. -/
theorem connectedTxSFrame_nextPeer {flags : EvtFlags} {iSent : Bool} {take : Nat → Option Frame}
    (h : (connectedTxSFrame l flags iSent take).nextPeer = true) : l.s.isNrmPrimary = true := by
  simp only [connectedTxSFrame, Bool.and_eq_true] at h
  have hpri := h.1.1.1.1
  rwa [Station.isNrmPrimary, (chooseSFrame_offers _ iSent take).keeps.mode,
    (chooseSFrame_offers _ iSent take).keeps.pri] at hpri

theorem connectedTxIFrame_inherits (l : Link) (flags : EvtFlags) (iSent : Bool) :
    l.Inherits (connectedTxIFrame l flags iSent).link := by
  rcases connectedTxIFrame_ends l flags iSent with ⟨h | h, -⟩ | ⟨fp, rest, -, -, h, -⟩
  · rw [h]
    exact .refl l
  · rw [h]
    exact .of_eq rfl rfl rfl rfl rfl rfl
  · rw [h]
    exact .of_eq rfl rfl rfl rfl rfl rfl

theorem transmitIFrame_reads (l : Link) (fp : Frame) (rest : List Frame) :
    ReadsAs l.s.framing (transmitIFrame l fp rest).2.1 .iFrame (txAddr l.s l.p (sendsCommand l.s))
      (transmitIFrame l fp rest).2.2 :=
  readsAs_prepareIFrameHeader ..

theorem connectedTxIFrame_type {flags : EvtFlags} {iSent : Bool} {fp : Frame}
    (h : (connectedTxIFrame l flags iSent).sent = some fp) :
    frameType l.s.framing fp = .iFrame := by
  rcases connectedTxIFrame_ends l flags iSent with ⟨-, hnone⟩ | ⟨fp', rest, -, -, -, hsome⟩
  · rw [hnone] at h
    cases h
  · rw [hsome] at h
    cases h
    exact (transmitIFrame_reads (getAndClearFlags l flags).1 fp' rest).type

/-- The P/F bit of an S frame. -/
def sFrameSetPf (l : Link) (isCommand : Bool) : Bool :=
  if isCommand then
    if l.s.flags.twa then
      l.s.pfState.fRcved &&
        ((l.p.iTransQ.isEmpty || outstanding l ≥ l.p.ks) || (l.p.ssState.busy && l.p.ssState.needP))
    else l.s.pfState.fRcved
  else responseShouldSetF l.s true

/-- An S frame is sent: the link behind it. -/
def sFrameSent (l : Link) (isCommand : Bool) : Link :=
  restartIFrameReplyTimer (startPollReplyTimerIf (ackPF l (sFrameSetPf l isCommand) isCommand)
    (sFrameSetPf l isCommand && isCommand))

/-- A request for an S frame is refused, or there was an opportunity and a frame. -/
theorem prepareSFrame_eq (l : Link) (take : Option Frame) (sFun : UInt8) (isCommand : Bool) :
    prepareSFrame l take sFun isCommand = (l, none) ∨
      (sendOpportunity l.s = true ∧ ∃ stale, prepareSFrame l take sFun isCommand =
        (sFrameSent l isCommand,
          some (buildSFrame l.s l.p stale sFun l.p.vr (sFrameSetPf l isCommand) isCommand))) := by
  simp only [prepareSFrame]
  split
  next hopp =>
    split
    next stale => exact .inr ⟨hopp, stale, by simp [sFrameSent, sFrameSetPf]⟩
    · exact .inl rfl
  · exact .inl rfl

/-- What comes out of a choice of S frames: nothing, or one S frame, and apart from it only
the note of the REJ and the busy note of the station change. -/
inductive Link.Chooses (l : Link) (r : Link × Option Frame) : Prop
  | nothing (h : r = (l, none))
  | frame (stale : Frame) (sFun : UInt8) (rejpend busy : Bool)
    (hfun : sFun = IOHDLC_S_RR ∨ sFun = IOHDLC_S_RNR ∨ sFun = IOHDLC_S_REJ)
    (hopp : sendOpportunity l.s = true)
    (h : r =
      ({ s := { (sFrameSent l (sendsCommand l.s)).s with
          flags := { (sFrameSent l (sendsCommand l.s)).s.flags with busy := busy } }
         p := { (sFrameSent l (sendsCommand l.s)).p with
          ssState := { (sFrameSent l (sendsCommand l.s)).p.ssState with rejpend := rejpend } } },
        some (buildSFrame l.s l.p stale sFun l.p.vr (sFrameSetPf l (sendsCommand l.s))
          (sendsCommand l.s))))

theorem chooseSFrame_chooses (l : Link) (iSent : Bool) (take : Nat → Option Frame) :
    l.Chooses (chooseSFrame l iSent take) := by
  have hask (c : Prop) [Decidable c] (i : Nat) (sFun : UInt8) :
      (if c then prepareSFrame l (take i) sFun (sendsCommand l.s) else (l, none)) = (l, none) ∨
        (sendOpportunity l.s = true ∧ ∃ stale,
          (if c then prepareSFrame l (take i) sFun (sendsCommand l.s) else (l, none)) =
            (sFrameSent l (sendsCommand l.s), some (buildSFrame l.s l.p stale sFun l.p.vr
              (sFrameSetPf l (sendsCommand l.s)) (sendsCommand l.s)))) := by
    split
    · exact prepareSFrame_eq ..
    · exact .inl rfl
  simp only [chooseSFrame]
  rcases hask (l.p.ssState.rejpend = true) 0 IOHDLC_S_REJ with h | ⟨hopp, stale, h⟩
  · rw [h]
    dsimp only
    rcases hask ((l.s.flags.busy && l.s.poolState = .normal) = true) 1 IOHDLC_S_RR with
      h | ⟨hopp, stale, h⟩
    · rw [h]
      dsimp only
      rcases hask ((!iSent && (l.s.pfState.pRcved || (l.s.pfState.fRcved && l.p.ssState.needP))) =
          true) 2 (if l.s.flags.busy then IOHDLC_S_RNR else IOHDLC_S_RR) with h | ⟨hopp, stale, h⟩
      · exact .nothing h
      · refine .frame stale _ _ _ ?_ hopp h
        split
        · exact .inr (.inl rfl)
        · exact .inl rfl
    · rw [h]
      exact .frame stale _ _ _ (.inl rfl) hopp rfl
  · rw [h]
    exact .frame stale _ _ _ (.inr (.inr rfl)) hopp rfl

/-- All that the last section of a pass changes of the link, with or without a frame. -/
theorem connectedTxSFrame_fields (l : Link) (flags : EvtFlags) (iSent : Bool)
    (take : Nat → Option Frame) :
    ∃ pfState busy vsAtlastPf rejpend needP t3Tmr replyTmr,
      (connectedTxSFrame l flags iSent take).link =
        { s := { l.s with
            cmListener := ∅, pfState := pfState, flags := { l.s.flags with busy := busy } }
          p := { l.p with
            vsAtlastPf := vsAtlastPf, t3Tmr := t3Tmr, replyTmr := replyTmr
            ssState := { l.p.ssState with rejpend := rejpend, needP := needP } } } := by
  simp only [connectedTxSFrame]
  cases chooseSFrame_chooses (getAndClearFlags l flags).1 iSent take with
  | nothing h =>
    rw [h]
    exact ⟨_, _, _, _, _, _, _, rfl⟩
  | frame stale sFun rejpend busy hfun hopp h =>
    rw [h]
    exact ⟨_, _, _, _, _, _, _, rfl⟩

theorem connectedTxSFrame_inherits (l : Link) (flags : EvtFlags) (iSent : Bool)
    (take : Nat → Option Frame) : l.Inherits (connectedTxSFrame l flags iSent take).link := by
  obtain ⟨_, _, _, _, _, _, _, h⟩ := connectedTxSFrame_fields l flags iSent take
  rw [h]
  exact .of_eq rfl rfl rfl rfl rfl rfl

theorem connectedTxSFrame_type (l : Link) (flags : EvtFlags) (iSent : Bool)
    (take : Nat → Option Frame) :
    ∀ fp ∈ (connectedTxSFrame l flags iSent take).sent, frameType l.s.framing fp = .sFrame := by
  simp only [connectedTxSFrame]
  cases chooseSFrame_chooses (getAndClearFlags l flags).1 iSent take with
  | nothing h =>
    rw [h]
    nofun
  | frame stale sFun rejpend busy hfun hopp h =>
    rw [h]
    rintro fp ⟨⟩
    exact (readsAs_buildSFrame _ _ _ _ _ _ hfun).type

/-! ### The threads of the application -/

theorem linkUpStart_inherits (l : Link) (mode : Mode) (nrmOnly : Bool) :
    l.Inherits (linkUpStart l mode nrmOnly).1 := by
  simp only [linkUpStart]
  split
  · exact .refl l
  split
  · exact .refl l
  split
  · exact .of_eq rfl rfl rfl rfl rfl rfl
  split
  all_goals exact .of_eq rfl rfl rfl rfl rfl rfl

theorem linkDownStart_inherits (l : Link) : l.Inherits (linkDownStart l).1 := by
  simp only [linkDownStart]
  split
  · exact .refl l
  split
  · exact .refl l
  · exact .of_eq rfl rfl rfl rfl rfl rfl

theorem sTakeCompletedTestFrame_inherits (l : Link) :
    l.Inherits (sTakeCompletedTestFrame l).1 := by
  rw [sTakeCompletedTestFrame]
  split
  · exact .refl l
  · exact ⟨rfl, rfl, rfl, rfl, by rintro fp ⟨⟩, .inl rfl⟩

theorem peerTestExpire_inherits (l : Link) : l.Inherits (peerTestExpire l) := by
  have htake := sTakeCompletedTestFrame_inherits l
  rw [peerTestExpire]
  split
  next l' fp heq =>
    rw [heq] at htake
    exact htake
  next l' heq =>
    rw [heq] at htake
    split
    · exact htake.trans ⟨rfl, rfl, rfl, rfl, by rintro fp ⟨⟩, .inl rfl⟩
    · exact htake

theorem peerTestStart_staysReady (len : Nat) (take : Option Frame) :
    l.StaysReady (peerTestStart l len take).1 := by
  simp only [peerTestStart]
  split
  · exact (Link.Inherits.refl l).staysReady
  split
  · exact (Link.Inherits.refl l).staysReady
  split
  · exact (Link.Inherits.refl l).staysReady
  split
  · exact (Link.Inherits.refl l).staysReady
  next fp _ =>
    refine ⟨rfl, rfl, rfl, rfl, fun hl => ⟨fun fp' hfp' => ?_, hl.rsp⟩⟩
    obtain rfl : testCommand l.s l.p fp len = fp' := Option.some.inj hfp'
    have hreads := readsAs_ioHdlcBuildUFrameWithInfo l.s l.p fp true true
      (.inr responseCode_test) ((List.range len).map sTestPatternByte)
    exact ⟨hreads.type, hreads.addr⟩

theorem PeerOp.apply_staysReady {op : PeerOp} {w : WriterPc} {r : Link × WriterPc}
    (h : op.apply l w = some r) : l.StaysReady r.1 := by
  cases op with
  | writeBegin octets =>
    cases w <;> simp only [PeerOp.apply, reduceCtorEq, Option.some.injEq] at h
    subst h
    rw [IoHdlc.writeBegin]
    split
    · exact (Link.Inherits.refl l).staysReady
    · exact Link.Inherits.staysReady (.of_eq rfl rfl rfl rfl rfl rfl)
  | writeReserve timedOut take =>
    cases w <;> simp only [PeerOp.apply, reduceCtorEq, Option.some.injEq] at h
    subst h
    simp only [IoHdlc.writeReserve]
    repeat' split
    all_goals exact Link.Inherits.staysReady (.of_eq rfl rfl rfl rfl rfl rfl)
  | writeInsert =>
    cases w <;> simp only [PeerOp.apply, reduceCtorEq, Option.some.injEq] at h
    subst h
    simp only [IoHdlc.writeInsert]
    repeat' split
    all_goals exact Link.Inherits.staysReady (.of_eq rfl rfl rfl rfl rfl rfl)
  | writeDone =>
    cases w <;> simp only [PeerOp.apply, reduceCtorEq, Option.some.injEq] at h
    subst h
    exact Link.Inherits.staysReady (.of_eq rfl rfl rfl rfl rfl rfl)
  | read =>
    simp only [PeerOp.apply] at h
    split at h
    · cases h
      exact Link.Inherits.staysReady (.of_eq rfl rfl rfl rfl rfl rfl)
    · cases h
  | replyTimer =>
    cases h
    rw [Endpoint.replyTimerExpiry]
    split
    · exact Link.Inherits.staysReady (.of_eq rfl rfl rfl rfl rfl rfl)
    · exact (Link.Inherits.refl l).staysReady
  | t3Timer =>
    cases h
    rw [Endpoint.t3TimerExpiry]
    split
    · exact Link.Inherits.staysReady (.of_eq rfl rfl rfl rfl rfl rfl)
    · exact (Link.Inherits.refl l).staysReady
  | uiSend value =>
    cases h
    rw [ioHdlcPeerUiSend]
    split
    · exact (Link.Inherits.refl l).staysReady
    · exact Link.Inherits.staysReady (.of_eq rfl rfl rfl rfl rfl rfl)
  | uiGet =>
    cases h
    rw [ioHdlcPeerUiGet]
    split
    · exact Link.Inherits.staysReady (.of_eq rfl rfl rfl rfl rfl rfl)
    · exact (Link.Inherits.refl l).staysReady
  | peerTest len take =>
    cases h
    exact peerTestStart_staysReady len take
  | peerTestTake =>
    cases h
    exact (sTakeCompletedTestFrame_inherits l).staysReady
  | peerTestExpire =>
    cases h
    exact (peerTestExpire_inherits l).staysReady

end Keeps

end IoHdlc
