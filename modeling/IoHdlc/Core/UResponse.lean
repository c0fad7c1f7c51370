import IoHdlc.Core.PfCycle
import IoHdlc.Core.RejectFreeze

/-!
The U response to a U command that came with P=1: what prepares it, what sends it, and what
leaves it alone.

`Link.Due` says that the response is prepared and will take the F. The P of the command is kept
in the same `P_RCVED` that the I and S frames consume: `answersByIFrame` and `answersBySFrame`
are where they do.
-/

namespace IoHdlc

variable {l l' l'' : Link} {fp : Frame} {cmd : UInt8}

/-! ### The response that waits -/

/-- What of a peer decides about its next U response. -/
structure Response where
  rcved : Bool
  umRsp : UInt8
  umRspFrame : Option Frame
  frmrCondition : Bool

def Peer.response (p : Peer) : Response where
  rcved := p.umState.rcved
  umRsp := p.umRsp
  umRspFrame := p.umRspFrame
  frmrCondition := p.frmrCondition

/-- The response that waits is left alone, and a received P bit stays. -/
structure Link.KeepsResponse (l l' : Link) : Prop where
  response : l'.p.response = l.p.response
  pRcved : l.s.pfState.pRcved = true → l'.s.pfState.pRcved = true

theorem Link.KeepsResponse.refl (l : Link) : l.KeepsResponse l := ⟨rfl, id⟩

theorem Link.KeepsResponse.trans (h : l.KeepsResponse l') (h' : l'.KeepsResponse l'') :
    l.KeepsResponse l'' :=
  ⟨h'.response.trans h.response, h'.pRcved ∘ h.pRcved⟩

theorem Link.KeepsResponse.of_eq (hresponse : l'.p.response = l.p.response)
    (hpf : l'.s.pfState.pRcved = l.s.pfState.pRcved) : l.KeepsResponse l' :=
  ⟨hresponse, fun h => hpf.trans h⟩

/-- The U responses to a U command. -/
def isResponseTo (cmd rsp : UInt8) : Bool :=
  if (ucmdToMode cmd).isSome then rsp = IOHDLC_U_UA
  else if cmd = IOHDLC_U_DISC then rsp = IOHDLC_U_UA || rsp = IOHDLC_U_DM
  else if cmd = IOHDLC_U_TEST then rsp = IOHDLC_U_TEST || rsp = IOHDLC_U_DM
  else rsp = IOHDLC_U_DM

/-- The response to the U command `cmd` waits, and the F bit with it. -/
structure Link.Due (l : Link) (cmd : UInt8) : Prop where
  rcved : l.p.umState.rcved = true
  umRsp : isResponseTo cmd l.p.umRsp = true
  umRspFrame : l.p.umRsp = IOHDLC_U_TEST → l.p.umRspFrame.isSome = true
  frmrCondition : l.p.frmrCondition = false
  pRcved : l.s.pfState.pRcved = true

theorem Link.Due.keeps (h : l.Due cmd) (hk : l.KeepsResponse l') : l'.Due cmd := by
  obtain ⟨hrcved, hrsp, hframe, hfrmr, hp⟩ := h
  have hresponse := hk.response
  simp only [Peer.response, Response.mk.injEq] at hresponse
  obtain ⟨h₁, h₂, h₃, h₄⟩ := hresponse
  refine ⟨h₁.trans hrcved, ?_, ?_, h₄.trans hfrmr, hk.pRcved hp⟩
  · rwa [h₂]
  · rwa [h₂, h₃]

/-! ### Reception -/

theorem serveUCommand_response (l : Link) (fp : Frame) :
    isResponseTo (uFunction l fp) (serveUCommand l fp).p.umRsp = true ∧
      ((serveUCommand l fp).p.umRsp = IOHDLC_U_TEST →
        (serveUCommand l fp).p.umRspFrame.isSome = true) := by
  simp only [serveUCommand, isResponseTo]
  cases hom : ucmdToMode (uFunction l fp) with
  | some om => exact ⟨rfl, fun h => absurd (show IOHDLC_U_UA = IOHDLC_U_TEST from h) (by decide)⟩
  | none =>
    rw [Option.isSome_none, if_neg Bool.false_ne_true]
    by_cases hdisc : uFunction l fp = IOHDLC_U_DISC
    · simp only [if_pos hdisc]
      split
      · exact ⟨rfl, fun h => absurd (show IOHDLC_U_DM = IOHDLC_U_TEST from h) (by decide)⟩
      · exact ⟨rfl, fun h => absurd (show IOHDLC_U_UA = IOHDLC_U_TEST from h) (by decide)⟩
    · simp only [if_neg hdisc]
      by_cases htest : uFunction l fp = IOHDLC_U_TEST
      · simp only [htest, true_and, if_true]
        split
        · exact ⟨rfl, fun _ => rfl⟩
        · exact ⟨rfl, fun h => absurd (show IOHDLC_U_DM = IOHDLC_U_TEST from h) (by decide)⟩
      · simp only [htest, false_and, if_false]
        exact ⟨rfl, fun h => absurd (show IOHDLC_U_DM = IOHDLC_U_TEST from h) (by decide)⟩

theorem serveUCommand_pRcved (l : Link) (fp : Frame) :
    (serveUCommand l fp).s.pfState.pRcved = l.s.pfState.pRcved := by
  simp only [serveUCommand]
  split
  · rfl
  split
  · rfl
  split <;> rfl

/-- An accepted command with P=1 makes its own response due. -/
theorem receiveUCommand_due (hacc : acceptsUCommand l fp = true)
    (hpf : getPF l.s.framing fp = true) : (receiveUCommand l fp).Due (uFunction l fp) := by
  rw [receiveUCommand, if_pos hacc, hpf]
  obtain ⟨hrsp, hframe⟩ := serveUCommand_response (registerUCommand l (uFunction l fp) true) fp
  refine ⟨rfl, hrsp, hframe, ?_, ?_⟩
  · refine Bool.eq_false_iff.mpr fun h => ?_
    exact absurd (serveUCommand_frmrCondition h) Bool.false_ne_true
  refine (serveUCommand_pRcved (registerUCommand l (uFunction l fp) true) fp).trans ?_
  rw [registerUCommand, Bool.or_true]

/-- While a response waits, no other command is taken up. -/
theorem Link.Due.acceptsUCommand (h : l.Due cmd) (fp : Frame) :
    IoHdlc.acceptsUCommand l fp = false := by
  rw [IoHdlc.acceptsUCommand, if_pos]
  rw [h.rcved, h.frmrCondition]
  rfl

/-- Whether a received frame is the response to the U command that the station has sent. -/
def answersUCommand (l : Link) (fp : Frame) : Bool :=
  (fp.addr l.s.framing).toUInt32 ≠ l.s.addr && (fp.addr l.s.framing).toUInt32 = l.p.addr &&
    matchesUResponse l fp

theorem handleUFrame_keepsResponse (h : l.Due cmd) (hno : answersUCommand l fp = false) :
    l.KeepsResponse (handleUFrame l fp) := by
  simp only [handleUFrame]
  split
  · exact .refl l
  next haddr =>
    split
    · rw [receiveUi]
      split
      · exact .refl l
      split
      · exact .refl l
      · exact .of_eq rfl rfl
    split
    · rw [receiveUCommand, h.acceptsUCommand, if_neg Bool.false_ne_true]
      exact .refl l
    next hcommand =>
      rw [not_and_not_right] at haddr
      rw [answersUCommand, decide_eq_true hcommand, decide_eq_true (haddr hcommand),
        Bool.true_and, Bool.true_and] at hno
      rw [receiveUResponse, hno, if_neg Bool.false_ne_true]
      exact .refl l

theorem handleCheckpointAndAck_keepsResponse {nr : UInt32} {pf isCommand : Bool} {ack : AckResult}
    (h : handleCheckpointAndAck l nr pf isCommand = some ack) : l.KeepsResponse ack.link := by
  obtain ⟨_, _, _, _, _, _, _, _, _, _, _, hp, h⟩ := handleCheckpointAndAck_fields h
  rw [h]
  exact ⟨rfl, hp⟩

theorem handleIFrame_keepsResponse (pf : Bool) : l.KeepsResponse (handleIFrame l fp pf).1 := by
  simp only [handleIFrame]
  split
  all_goals exact .of_eq rfl rfl

theorem handleSFrame_keepsResponse : l.KeepsResponse (handleSFrame l fp).1 := by
  obtain ⟨_, _, _, _, _, _, h⟩ := handleSFrame_fields l fp
  rw [h]
  exact .of_eq rfl rfl

/-- A frame that the peer does not reject leaves the response that waits. -/
theorem commonRx_keepsResponse (isCommand : Bool) (hfrmr : l.p.frmrCondition = false)
    (hnr : isNRValid l.s l.p (extractNR l.s.framing fp) = true) :
    l.KeepsResponse (commonRx l fp isCommand).1 := by
  cases commonRx_does l fp isCommand with
  | frmr on eq => exact absurd (hfrmr.symm.trans on) Bool.false_ne_true
  | reject off hack eq =>
    exact absurd (hnr.symm.trans (isNRValid_of_refused hack)) (by decide)
  | @iFrame ack r off hack hi hr eq =>
    have hkeep : ack.link.KeepsResponse r.1 := hr ▸ handleIFrame_keepsResponse _
    rw [eq]
    exact ((handleCheckpointAndAck_keepsResponse hack).trans hkeep).trans (.of_eq rfl rfl)
  | @sFrame ack r off hack hi hr eq =>
    have hkeep : ack.link.KeepsResponse r.1 := hr ▸ handleSFrame_keepsResponse
    rw [eq]
    exact ((handleCheckpointAndAck_keepsResponse hack).trans hkeep).trans (.of_eq rfl rfl)

theorem rxDispatch_keepsResponse (hu : isUFrm (fp.ctrl l.s.framing 0) = false)
    (hfrmr : l.p.frmrCondition = false) (hno : rejectsFrame l fp = false) :
    l.KeepsResponse (rxDispatch l fp).1 := by
  rcases rxDispatch_eq l fp with ⟨-, hdrop⟩ | ⟨hreach, hrx⟩
  · rw [hdrop]
    exact .refl l
  · rw [hrx]
    refine commonRx_keepsResponse _ hfrmr ?_
    simpa [rejectsFrame, hu, hreach, hfrmr] using hno

/-! ### The sections of the transmit worker -/

/-- The frame with the F bit is the U response to `cmd`. -/
structure Link.Responds (l : Link) (cmd : UInt8) (fp : Frame) : Prop where
  ownPF : l.ownPF fp = true
  type : frameType l.s.framing fp = .uFrame
  function : isResponseTo cmd (uFunction l fp) = true

theorem function_uCtrl {uFun : UInt8} {pf : Bool} (hfun : ResponseCode uFun) :
    uCtrl uFun pf &&& IOHDLC_U_FUN_MASK = uFun := by
  rcases hfun with rfl | rfl | rfl | rfl | rfl
  all_goals cases pf <;> rfl

theorem uResponseFrame_function {setf : Bool} {take : Option Frame} (hl : l.UmReady)
    (hfp : uResponseFrame l setf take = some fp) (hfrmr : l.p.umRsp ≠ IOHDLC_U_FRMR) :
    uFunction l fp = l.p.umRsp := by
  rw [uResponseFrame] at hfp
  split at hfp
  next htest =>
    obtain ⟨rf, -, rfl⟩ := Option.map_eq_some_iff.mp hfp
    rw [htest]
    refine Eq.trans (congrArg (· &&& IOHDLC_U_FUN_MASK) ?_)
      (@function_uCtrl _ setf responseCode_test)
    exact ctrl_ioHdlcBuildUFrame l.s l.p rf setf false IOHDLC_U_TEST
  · obtain ⟨stale, -, rfl⟩ := Option.map_eq_some_iff.mp hfp
    rw [uFunction, ctrl_ioHdlcBuildUFrame, function_uCtrl hl.rsp]

theorem isResponseTo_ne_frmr {rsp : UInt8} (h : isResponseTo cmd rsp = true) :
    rsp ≠ IOHDLC_U_FRMR := by
  rintro rfl
  revert h
  simp only [isResponseTo]
  split
  · decide
  split
  · decide
  split <;> decide

/-- The section for U responses answers, if there is a frame for it. -/
theorem uResponseStage_responds (flags : EvtFlags) (take : Option Frame) (hl : l.UmReady)
    (h : l.Due cmd) (htake : take.isSome = true) :
    ∃ fp, (uResponseStage l flags take).2.1 = some fp ∧ l.Responds cmd fp := by
  obtain ⟨fp, hfp⟩ : ∃ fp, uResponseFrame l l.s.pfState.pRcved take = some fp := by
    rw [uResponseFrame]
    split
    next htest =>
      obtain ⟨rf, hrf⟩ := Option.isSome_iff_exists.mp (h.umRspFrame htest)
      exact ⟨_, by rw [hrf]; rfl⟩
    · obtain ⟨stale, rfl⟩ := Option.isSome_iff_exists.mp htake
      exact ⟨_, rfl⟩
  have hsent : (uResponseStage l flags take).2.1 = some fp := by
    rw [uResponseStage, if_pos h.rcved]
    simp only [sendUResponse, hfp]
  obtain ⟨-, hreads⟩ := uResponseStage_reads hl hsent
  refine ⟨fp, hsent, ?_, hreads.type, ?_⟩
  · rw [Link.ownPF, hreads.pf, hreads.addr, h.pRcved, txAddr, if_neg Bool.false_ne_true,
      decide_eq_true rfl]
    rfl
  · rw [uResponseFrame_function hl hfp (isResponseTo_ne_frmr h.umRsp)]
    exact h.umRsp

/-- The pass that comes to the section for U responses answers with it. -/
theorem servePeer_responds (flags : EvtFlags) (take : Takes) (hl : l.UmReady) (h : l.Due cmd)
    (htake : take.uResponse.isSome = true) :
    (∃ fp ∈ (servePeer l flags take).sent, l.Responds cmd fp) ∧
      ∀ fp ∈ (servePeer l flags take).sent, l.ownPF fp = true → l.Responds cmd fp := by
  obtain ⟨fp, hsent, hresponds⟩ := uResponseStage_responds flags _ hl h htake
  have hinh := uResponseStage_inherits l flags take.uResponse
  simp only [servePeer, hsent, Option.toList_some, List.singleton_append, List.mem_cons]
  refine ⟨⟨fp, .inl rfl, hresponds⟩, fun fp' hfp' hpf => ?_⟩
  rcases hfp' with rfl | hui
  · exact hresponds
  · have hui := dispatchTx_pf fp' hui
    rw [hinh.framing] at hui
    rw [Link.ownPF, hui, Bool.false_and] at hpf
    cases hpf

theorem sendUCommand_keepsResponse (timedOut : Bool) (take : Option Frame)
    (hex : exhaustsUCommand l timedOut = false) :
    l.KeepsResponse (sendUCommand l timedOut take).link := by
  refine ⟨?_, fun hp => (sendUCommand_pRcved l timedOut take).trans hp⟩
  rcases sendUCommand_emits l timedOut take with ⟨-, fp, hsend⟩ | ⟨hno, -⟩
  · rw [hsend]
    obtain ⟨t3, delay, hsent⟩ := uCommandSent_eq (retryUCommand l timedOut)
    rw [hsent]
    rfl
  · rcases sendUCommand_idle hno hex with h | h <;> rw [h]
    rfl

/-- A pass that serves a U command and does not give the link up: it answers, or stops before
it comes to the section for U responses. -/
theorem serveRequest_responds (flags : EvtFlags) (timedOut : Bool) (take : Takes) (hl : l.UmReady)
    (haddr : l.s.addr.toUInt8 ≠ l.p.addr.toUInt8) (h : l.Due cmd)
    (hex : exhaustsUCommand l timedOut = false) (htake : take.uResponse.isSome = true) :
    ((∃ fp ∈ (serveRequest l flags timedOut take).sent, l.Responds cmd fp) ∨
        (serveRequest l flags timedOut take).sent = [] ∧
          l.KeepsResponse (serveRequest l flags timedOut take).link ∧
          (serveRequest l flags timedOut take).next ≠ .linkDown) ∧
      ∀ fp ∈ (serveRequest l flags timedOut take).sent, l.ownPF fp = true → l.Responds cmd fp := by
  have hkeep := sendUCommand_keepsResponse _ take.uCommand hex
  have hinh := sendUCommand_inherits l timedOut take.uCommand
  have hcommand : ∀ fp ∈ (sendUCommand l timedOut take.uCommand).sent, l.ownPF fp = false := by
    intro fp hfp
    have hreads := sendUCommand_reads _ _ hl hfp
    rw [Link.ownPF, hreads.2, txAddr, if_pos rfl, decide_eq_false haddr.symm, Bool.and_false]
  have hdown : (sendUCommand l timedOut take.uCommand).next ≠ .linkDown := by
    rcases sendUCommand_cases l timedOut take.uCommand with ⟨hex', -⟩ | ⟨-, hdown, -⟩
    · exact absurd (hex.symm.trans hex') Bool.false_ne_true
    · exact hdown
  simp only [serveRequest]
  split
  · exact ⟨.inr ⟨rfl, hkeep, by simp⟩, by simp⟩
  next hdown' => exact absurd hdown' hdown
  · exact ⟨.inr ⟨rfl, hkeep, by simp⟩, by simp⟩
  · have hresponds := servePeer_responds flags _ (hl.inherits hinh) (h.keeps hkeep) htake
    have hsame (fp : Frame) : (sendUCommand l timedOut take.uCommand).link.Responds cmd fp →
        l.Responds cmd fp := by
      rintro ⟨hpf, htype, hfun⟩
      rw [hinh.ownPF] at hpf
      rw [hinh.framing] at htype
      rw [uFunction, hinh.framing] at hfun
      exact ⟨hpf, htype, hfun⟩
    obtain ⟨⟨fp, hfp, hfp'⟩, hall⟩ := hresponds
    refine ⟨.inl ⟨fp, List.mem_append_right _ hfp, hsame fp hfp'⟩, fun fp hfp hpf => ?_⟩
    rcases List.mem_append.mp hfp with hfp | hfp
    · rw [hcommand fp (Option.mem_toList.mp hfp)] at hpf
      cases hpf
    · rw [← hinh.ownPF] at hpf
      exact hsame fp (hall fp hfp hpf)

/-- The next I frame would take the F bit. -/
def answersByIFrame (l : Link) : Bool :=
  !sendsCommand l.s && sendOpportunity l.s && !l.p.ssState.busy &&
    match l.p.iTransQ with
    | [] => false
    | _ :: rest => !decide (outstanding l ≥ l.p.ks) &&
      iFrameSetPf l false (outstanding l + 1 ≥ l.p.ks ∨ rest = [])

/-- The last section would send an S frame with the F bit. -/
def answersBySFrame (l : Link) (iSent : Bool) : Bool :=
  !sendsCommand l.s && sendOpportunity l.s &&
    (l.p.ssState.rejpend || (l.s.flags.busy && l.s.poolState = .normal) || !iSent)

theorem Link.EmitsPF.keepsResponse {setPf isCommand : Bool} (he : l.EmitsPF l' fp setPf isCommand)
    (hresponse : l'.p.response = l.p.response) (hno : (setPf && !isCommand) = false) :
    l.KeepsResponse l' :=
  .of_eq hresponse (by rw [he.pRcved, hno, Bool.not_false, Bool.and_true])

theorem connectedTxIFrame_keepsResponse (haddr : l.s.addr.toUInt8 ≠ l.p.addr.toUInt8)
    (hno : answersByIFrame l = false) (flags : EvtFlags) (iSent : Bool) :
    l.KeepsResponse (connectedTxIFrame l flags iSent).link ∧
      ∀ fp ∈ (connectedTxIFrame l flags iSent).sent, l.ownPF fp = false := by
  have hclear : l.KeepsResponse (getAndClearFlags l flags).1 := .of_eq rfl rfl
  rw [connectedTxIFrame]
  split
  · exact ⟨.refl l, by simp⟩
  next fp rest hq =>
    split
    · exact ⟨.refl l, by simp⟩
    next hgo =>
      dsimp only
      split
      · exact ⟨hclear, by simp⟩
      · obtain ⟨hks, hopp, hbusy⟩ : ¬outstanding l ≥ l.p.ks ∧ sendOpportunity l.s = true ∧
            l.p.ssState.busy = false := by simpa [not_or] using hgo
        have hemits := transmitIFrame_emits (getAndClearFlags l flags).1 fp rest
        have hset : ((transmitIFrame (getAndClearFlags l flags).1 fp rest).2.2 &&
            !sendsCommand l.s) = false := by
          rw [answersByIFrame, hq, hopp, hbusy, decide_eq_false hks] at hno
          cases hcommand : sendsCommand l.s with
          | true => rw [Bool.not_true, Bool.and_false]
          | false =>
            rw [hcommand] at hno
            have hcommand' : sendsCommand (getAndClearFlags l flags).1.s = false := hcommand
            simp only [transmitIFrame, hcommand']
            have hno : iFrameSetPf l false (outstanding l + 1 ≥ l.p.ks ∨ rest = []) = false := by
              simpa using hno
            exact (congrArg (· && true) hno :)
        refine ⟨hclear.trans (hemits.keepsResponse rfl hset), ?_⟩
        rintro fp' ⟨⟩
        exact (hemits.ownPF haddr).trans hset

theorem chooseSFrame_none {take : Nat → Option Frame} {iSent : Bool}
    (hrej : l.p.ssState.rejpend = false) (hrr : (l.s.flags.busy && l.s.poolState = .normal) = false)
    (hsent : iSent = true) : chooseSFrame l iSent take = (l, none) := by
  simp only [chooseSFrame, hrej, hrr, hsent, Bool.false_eq_true, if_false, Bool.not_true,
    Bool.false_and]

theorem connectedTxSFrame_keepsResponse (haddr : l.s.addr.toUInt8 ≠ l.p.addr.toUInt8)
    {iSent : Bool} (hno : answersBySFrame l iSent = false) (flags : EvtFlags)
    (take : Nat → Option Frame) :
    l.KeepsResponse (connectedTxSFrame l flags iSent take).link ∧
      ∀ fp ∈ (connectedTxSFrame l flags iSent take).sent, l.ownPF fp = false := by
  have hclear : l.KeepsResponse (getAndClearFlags l flags).1 := .of_eq rfl rfl
  have hresponse : (connectedTxSFrame l flags iSent take).link.p.response = l.p.response := by
    obtain ⟨_, _, _, _, _, _, _, h⟩ := connectedTxSFrame_fields l flags iSent take
    rw [h]
    rfl
  simp only [connectedTxSFrame] at hresponse ⊢
  cases chooseSFrame_chooses (getAndClearFlags l flags).1 iSent take with
  | nothing hnone =>
    rw [hnone]
    exact ⟨hclear, by simp⟩
  | frame stale sFun rejpend busy hfun hopp hsome =>
    have hemits := sFrameSent_emits (getAndClearFlags l flags).1 stale hfun
      (sendsCommand (getAndClearFlags l flags).1.s)
    have hcommand : sendsCommand l.s = true := by
      by_contra hcommand
      rw [Bool.not_eq_true] at hcommand
      have hopp' : sendOpportunity l.s = true := hopp
      rw [answersBySFrame, hcommand, hopp', Bool.not_false, Bool.true_and, Bool.true_and,
        Bool.or_eq_false_iff, Bool.or_eq_false_iff, Bool.not_eq_false'] at hno
      rw [chooseSFrame_none (l := (getAndClearFlags l flags).1) hno.1.1 hno.1.2 hno.2] at hsome
      exact absurd (congrArg Prod.snd hsome) (by simp)
    have hset : (sFrameSetPf (getAndClearFlags l flags).1
        (sendsCommand (getAndClearFlags l flags).1.s) &&
        !sendsCommand (getAndClearFlags l flags).1.s) = false := by
      rw [show sendsCommand (getAndClearFlags l flags).1.s = true from hcommand, Bool.not_true,
        Bool.and_false]
    rw [hsome] at hresponse ⊢
    refine ⟨hclear.trans ⟨hresponse, (hemits.keepsResponse rfl hset).pRcved⟩, ?_⟩
    rintro fp' ⟨⟩
    exact (hemits.ownPF haddr).trans hset

/-! ### The threads of the application -/

theorem peerTestExpire_keepsResponse (l : Link) : l.KeepsResponse (peerTestExpire l) := by
  rcases peerTestExpire_eq l with h | h | ⟨-, h⟩ <;> rw [h]
  · exact .refl l
  · exact .of_eq rfl rfl
  · exact .of_eq rfl rfl

theorem PeerOp.apply_keepsResponse {op : PeerOp} {w : WriterPc} {r : Link × WriterPc}
    (h : op.apply l w = some r) : l.KeepsResponse r.1 := by
  cases op with
  | writeBegin octets =>
    cases w <;> simp only [PeerOp.apply, reduceCtorEq, Option.some.injEq] at h
    subst h
    rw [IoHdlc.writeBegin]
    split <;> exact .of_eq rfl rfl
  | writeReserve timedOut take =>
    cases w <;> simp only [PeerOp.apply, reduceCtorEq, Option.some.injEq] at h
    subst h
    simp only [IoHdlc.writeReserve]
    repeat' split
    all_goals exact .of_eq rfl rfl
  | writeInsert =>
    cases w <;> simp only [PeerOp.apply, reduceCtorEq, Option.some.injEq] at h
    subst h
    simp only [IoHdlc.writeInsert]
    repeat' split
    all_goals exact .of_eq rfl rfl
  | writeDone =>
    cases w <;> simp only [PeerOp.apply, reduceCtorEq, Option.some.injEq] at h
    subst h
    exact .of_eq rfl rfl
  | read =>
    simp only [PeerOp.apply] at h
    split at h
    · cases h
      exact .of_eq rfl rfl
    · cases h
  | replyTimer =>
    cases h
    rw [Endpoint.replyTimerExpiry]
    split <;> exact .of_eq rfl rfl
  | t3Timer =>
    cases h
    rw [Endpoint.t3TimerExpiry]
    split <;> exact .of_eq rfl rfl
  | uiSend value =>
    cases h
    rw [ioHdlcPeerUiSend]
    split <;> exact .of_eq rfl rfl
  | uiGet =>
    cases h
    rw [ioHdlcPeerUiGet]
    split <;> exact .of_eq rfl rfl
  | peerTest len take =>
    cases h
    simp only [peerTestStart]
    repeat' split
    all_goals exact .of_eq rfl rfl
  | peerTestTake =>
    cases h
    rw [sTakeCompletedTestFrame]
    split <;> exact .of_eq rfl rfl
  | peerTestExpire =>
    cases h
    exact peerTestExpire_keepsResponse l

theorem linkUpStart_keepsResponse (l : Link) (mode : Mode) (nrmOnly : Bool) :
    l.KeepsResponse (linkUpStart l mode nrmOnly).1 := by
  simp only [linkUpStart]
  repeat' split
  all_goals exact .of_eq rfl rfl

theorem linkDownStart_keepsResponse (l : Link) : l.KeepsResponse (linkDownStart l).1 := by
  simp only [linkDownStart]
  repeat' split
  all_goals exact .of_eq rfl rfl

end IoHdlc
