import IoHdlc.Core.ApiSlot

/-!
The steps of a TEST exchange at one link.

The command, its echo and the frames that arrive in between are all `TestFrame`s: an address, the
TEST control octet with the P/F bit and the pattern. What a section does with such a frame on a
link without another UM transaction is computed here, one lemma for each section.
-/

namespace IoHdlc

/-! ### TEST frames -/

/-- The octets behind the format field. -/
def testOctets (addr : UInt8) (len : Nat) : List UInt8 :=
  addr :: uCtrl IOHDLC_U_TEST true :: testPattern len

@[simp] theorem length_testPattern (len : Nat) : (testPattern len).length = len := by
  rw [testPattern, List.length_map, List.length_range]

@[simp] theorem length_testOctets (addr : UInt8) (len : Nat) :
    (testOctets addr len).length = len + 2 := by
  rw [testOctets, List.length_cons, List.length_cons, length_testPattern]

/-- A TEST frame with the P/F bit and an information field of `len` octets of the pattern. -/
structure TestFrame (fr : Framing) (addr : UInt8) (len : Nat) (fp : Frame) : Prop where
  elen : fp.elen = fr.frameOffset + 2 + len
  addr : fp.addr fr = addr
  ctrl : fp.ctrl fr 0 = uCtrl IOHDLC_U_TEST true
  info : fp.frame.slice (fr.frameOffset + 2) len = testPattern len

section TestFrame

variable {fr : Framing} {addr : UInt8} {len : Nat} {fp : Frame}

theorem TestFrame.drop_octets (h : TestFrame fr addr len fp) :
    fp.octets.drop fr.frameOffset = testOctets addr len := by
  have haddr := h.addr
  have hctrl := h.ctrl
  rw [Frame.addr] at haddr
  rw [Frame.ctrl, Nat.add_zero] at hctrl
  rw [Frame.octets, h.elen, Nat.add_assoc, Buffer.slice_add, List.drop_left' (by simp),
    Nat.zero_add, Nat.add_comm 2 len, Buffer.slice_cons, Buffer.slice_cons, haddr, hctrl, h.info]
  rfl

/-- What arrives with these octets behind a format field is such a frame. -/
theorem TestFrame.of_octets {field : List UInt8} (hfield : field.length = fr.frameOffset)
    (h : fp.octets = field ++ testOctets addr len) : TestFrame fr addr len fp := by
  have helen : fp.elen = fr.frameOffset + 2 + len := by
    rw [← Frame.length_octets, h, List.length_append, length_testOctets, hfield]
    omega
  have hat (i : Nat) (x : UInt8) (hx : (testOctets addr len)[i]? = some x) :
      fp.frame (fr.frameOffset + i) = x := by
    refine Frame.frame_eq_of_octets h ?_
    rw [List.getElem?_append_right (by omega), hfield, Nat.add_sub_cancel_left]
    exact hx
  refine ⟨helen, hat 0 addr rfl, hat 1 _ rfl, ?_⟩
  refine List.ext_getElem (by simp) fun i hi hi' => ?_
  rw [Buffer.getElem_slice, Nat.add_assoc]
  refine hat (2 + i) _ ?_
  rw [Nat.add_comm, testOctets]
  exact List.getElem?_eq_getElem hi'

theorem TestFrame.isUFrm (h : TestFrame fr addr len fp) :
    IoHdlc.isUFrm (fp.ctrl fr 0) = true := by
  rw [h.ctrl]
  rfl

theorem TestFrame.uFunction {l : Link} (h : TestFrame l.s.framing addr len fp) :
    IoHdlc.uFunction l fp = IOHDLC_U_TEST := by
  rw [IoHdlc.uFunction, h.ctrl]
  rfl

/-- In modulus 8 the P/F bit is in the control octet. -/
theorem TestFrame.getPF_mod8 (h : TestFrame fr addr len fp) (h8 : fr.pfoctet = 0) :
    getPF fr fp = true := by
  rw [getPF, if_pos h8, h.ctrl]
  rfl

/-- In modulus 128 the octet behind it is taken for its second one. -/
theorem getPF_extended (h128 : fr.pfoctet ≠ 0) :
    getPF fr fp = true ↔ fp.frame (fr.frameOffset + 2) &&& IOHDLC_PFx_BIT ≠ 0 := by
  have hpf : fr.pfoctet = 1 := by
    rcases fr.layout with h | h <;> omega
  rw [getPF, if_neg h128, Frame.ctrl, hpf, bne_iff_ne]

/-- The information field starts with an odd octet. -/
theorem TestFrame.getPF_of_info (h : TestFrame fr addr len fp) (hlen : 0 < len) :
    getPF fr fp = true := by
  by_cases h8 : fr.pfoctet = 0
  · exact h.getPF_mod8 h8
  · obtain ⟨k, rfl⟩ : ∃ k, len = k + 1 := ⟨len - 1, by omega⟩
    have hinfo := h.info
    rw [Buffer.slice_cons, testPattern, List.range_succ_eq_map, List.map_cons] at hinfo
    rw [getPF_extended h8, (List.cons.inj hinfo).1]
    decide

theorem TestFrame.uInfo_eq (h : TestFrame fr addr len fp) : uInfo fr fp = testPattern len := by
  rw [uInfo, h.elen, Nat.add_sub_cancel_left]
  exact h.info

/-- The checks of `ioHdlcPeerTest` on the echo. -/
theorem TestFrame.peerTestResult {s : Station} (h : TestFrame s.framing addr len fp) :
    peerTestResult s fp len = .ok () := by
  have hfun : fp.ctrl s.framing 0 &&& IOHDLC_U_FUN_MASK = IOHDLC_U_TEST := by
    rw [h.ctrl]
    rfl
  have hinfo : fp.elen - (s.framing.frameOffset + 2) = len := by
    rw [h.elen]
    omega
  simp only [IoHdlc.peerTestResult, hfun, hinfo, h.info]
  rw [if_neg (by rw [h.elen]; omega), if_neg (by simp [testPattern])]

end TestFrame

/-! ### The frames that are built -/

/-- The header of a built TEST frame with the P/F bit. -/
theorem testFrame_of_header (s : Station) (p : Peer) (stale : Frame) (isCommand : Bool) {fp : Frame}
    {len : Nat}
    (helen : fp.elen = s.framing.frameOffset + 2 + len)
    (hheader : ∀ i < s.framing.frameOffset + 2,
      fp.frame i = (ioHdlcBuildUFrame s p stale IOHDLC_U_TEST true isCommand).frame i)
    (hinfo : fp.frame.slice (s.framing.frameOffset + 2) len = testPattern len) :
    TestFrame s.framing (txAddr s p isCommand) len fp where
  elen := helen
  addr := (hheader _ (by omega)).trans (addr_ioHdlcBuildUFrame ..)
  ctrl := (hheader _ (by omega)).trans (ctrl_ioHdlcBuildUFrame ..)
  info := hinfo

/-- The command of `ioHdlcPeerTest`. -/
theorem testCommand_testFrame (s : Station) (p : Peer) (fp : Frame) {len : Nat}
    (hlen : len ≤ 2 ^ 16 - 1 - (s.framing.frameOffset + 2)) :
    TestFrame s.framing p.addr.toUInt8 len (testCommand s p fp len) := by
  have hoff := s.framing.offset_le
  refine testFrame_of_header s p fp true ?_ (fun i hi => Buffer.store_lt _ _ hi) ?_
  · change u16 (u16 (s.framing.frameOffset + 2) + (testPattern len).length) = _
    rw [u16_uHdr, length_testPattern]
    exact u16_of_lt (by omega)
  · have hinfo := Buffer.slice_store (ioHdlcBuildUFrame s p fp IOHDLC_U_TEST true true).frame
      (s.framing.frameOffset + 2) (testPattern len)
    rwa [length_testPattern] at hinfo

/-- Building a U frame touches its header only. -/
theorem frame_ioHdlcBuildUFrame (s : Station) (p : Peer) (fp : Frame) (uFun : UInt8)
    (setPf isCommand : Bool) {i : Nat} (hi : s.framing.frameOffset + 2 ≤ i) :
    (ioHdlcBuildUFrame s p fp uFun setPf isCommand).frame i = fp.frame i := by
  have hctrl : i ≠ s.framing.frameOffset + 1 := by omega
  have haddr : i ≠ s.framing.frameOffset := by omega
  cases setPf <;> simp [ioHdlcBuildUFrame, Frame.setAddr, Frame.setCtrl, hctrl, haddr]

/-- The echo keeps the information field of the received frame. -/
theorem uResponseFrame_testFrame {l : Link} {rf : Frame} {addr : UInt8} {len : Nat}
    (hrsp : l.p.umRsp = IOHDLC_U_TEST) (hrf : l.p.umRspFrame = some rf)
    (h : TestFrame l.s.framing addr len rf) (h16 : l.s.framing.frameOffset + 2 + len < 65536)
    (take : Option Frame) :
    ∃ fp, uResponseFrame l true take = some fp ∧
      TestFrame l.s.framing l.s.addr.toUInt8 len fp := by
  simp only [uResponseFrame, if_pos hrsp, hrf, Option.map_some]
  refine ⟨_, rfl, testFrame_of_header l.s l.p rf false ?_ (fun i _ => rfl) ?_⟩
  · have hinfo : rf.elen - uHdrLen l = len := by
      rw [h.elen, uHdrLen]
      omega
    change u16 (u16 (l.s.framing.frameOffset + 2) + (rf.elen - uHdrLen l)) = _
    rw [u16_uHdr, hinfo]
    exact u16_of_lt h16
  · rw [← h.info]
    exact Buffer.slice_congr fun i hi _ =>
      frame_ioHdlcBuildUFrame l.s l.p rf IOHDLC_U_TEST true false hi

/-! ### The caller -/

section Caller

variable {l : Link} {fp : Frame} {addr : UInt8} {len : Nat}

/-- What an accepted call has checked, and what it registers. -/
theorem peerTestStart_ok (h : (peerTestStart l len (some fp)).2 = .ok ()) :
    len ≤ l.p.mifls ∧ len ≤ 2 ^ 16 - 1 - (l.s.framing.frameOffset + 2) ∧
      (peerTestStart l len (some fp)).1 =
        { s := l.s.broadcastFlags {.linkReq}
          p := { l.p with
            umCmd := IOHDLC_U_TEST, umApiFrame := some (testCommand l.s l.p fp len) } } := by
  simp only [peerTestStart] at h ⊢
  split at h
  · cases h
  next hallowed =>
    split at h
    · cases h
    next hlen =>
      split at h
      · cases h
      next hbusy =>
        rw [if_neg hallowed, if_neg hlen, if_neg hbusy]
        rw [not_or, Nat.not_lt, Nat.not_lt] at hlen
        exact ⟨hlen.1, hlen.2, rfl⟩

/-- The pass that takes up the request sends the frame in the slot and waits. -/
theorem serveRequest_test (hcmd : l.p.umCmd = IOHDLC_U_TEST) (hapi : l.p.umApiFrame = some fp)
    (hstate : l.p.umState = {}) (hopp : sendOpportunity l.s = true) (take : Takes) :
    serveRequest l ∅ false take = { link := uCommandSent l, sent := [fp], next := .loop ∅ } := by
  have hpreset : presetF l = l := by
    have hconn : isConnectionUCommand l.p.umCmd = false := by
      rw [hcmd]
      rfl
    rw [presetF, hconn, Bool.and_false, Bool.or_false]
  have hmay : mayOriginateUCommand l = true := by
    rw [mayOriginateUCommand, hcmd, hapi]
    exact Bool.or_true _
  have hsend : sendUCommand l false take.uCommand =
      { link := uCommandSent l, sent := some fp, next := .go } := by
    simp only [sendUCommand, hmay, if_true, Bool.false_and, Bool.false_eq_true, if_false, hpreset,
      hopp, hapi]
    rfl
  have hsent : (uCommandSent l).p.umState = { sent := true } := by
    simp only [uCommandSent, hcmd]
    exact congrArg (fun u : UmState => { u with sent := true }) hstate
  have hserve : servePeer (uCommandSent l) ∅ take =
      { link := uCommandSent l, sent := [], next := .loop ∅ } := by
    simp only [servePeer, uResponseStage, hsent, Bool.false_eq_true, if_false, dispatchTx,
      Bool.or_true, if_true, Bool.not_true, Bool.and_false]
    rfl
  simp only [serveRequest, hsend, hserve]
  rfl

/-- What is left behind for the response. -/
theorem uCommandSent_test (hcmd : l.p.umCmd = IOHDLC_U_TEST) :
    (uCommandSent l).p.umCmd = IOHDLC_U_TEST ∧ (uCommandSent l).p.umState.sent = true ∧
      (uCommandSent l).p.addr = l.p.addr ∧ (uCommandSent l).s.framing = l.s.framing ∧
      (uCommandSent l).s.addr = l.s.addr := by
  have hsent : (uCommandSent l).p.umState.sent = true := rfl
  refine ⟨?_, hsent, ?_⟩ <;> simp only [uCommandSent] <;> split
  · exact hcmd
  · exact hcmd
  · exact ⟨rfl, rfl, rfl⟩
  · exact ⟨rfl, rfl, rfl⟩

/-- The echo reaches the waiting call. -/
theorem handleUFrame_echo (h : TestFrame l.s.framing addr len fp) (hown : addr.toUInt32 ≠ l.s.addr)
    (hpeer : addr.toUInt32 = l.p.addr) (hcmd : l.p.umCmd = IOHDLC_U_TEST)
    (hsent : l.p.umState.sent = true) (hpf : getPF l.s.framing fp = true) :
    (sTakeCompletedTestFrame (handleUFrame l fp)).2 = some fp ∧
      (handleUFrame l fp).s.framing = l.s.framing := by
  have hmatch : matchesUResponse l fp = true := by rw [matchesUResponse, hsent, hpf]; rfl
  have hui : IOHDLC_U_TEST ≠ IOHDLC_U_UI := by decide
  simp only [handleUFrame, h.addr, h.uFunction, hpeer, not_true_eq_false, ne_eq, and_false,
    if_false, hui, receiveUResponse, hmatch, hcmd, if_true]
  rw [hpeer] at hown
  rw [if_neg hown]
  exact ⟨rfl, rfl⟩

/-- A frame with the caller's own address is taken for a command; the call waits on. -/
theorem handleUFrame_ownAddress (h : TestFrame l.s.framing addr len fp)
    (hown : addr.toUInt32 = l.s.addr) (hcmd : l.p.umCmd = IOHDLC_U_TEST)
    (hsent : l.p.umState.sent = true) :
    (sTakeCompletedTestFrame (handleUFrame l fp)).2 = none := by
  have hui : IOHDLC_U_TEST ≠ IOHDLC_U_UI := by decide
  have hkeeps : (handleUFrame l fp).p.umCmd ≠ 0 := by
    simp only [handleUFrame, h.addr, h.uFunction, hown, not_true_eq_false, false_and, if_false, hui,
      if_true, receiveUCommand]
    split
    · have hreg : (registerUCommand l IOHDLC_U_TEST (getPF l.s.framing fp)).p.umCmd =
          IOHDLC_U_TEST := by
        simp [registerUCommand, hsent, hcmd]
      have hfun : uFunction (registerUCommand l IOHDLC_U_TEST (getPF l.s.framing fp)) fp =
        IOHDLC_U_TEST := h.uFunction
      have hnone : ucmdToMode IOHDLC_U_TEST = none := rfl
      simp only [requestUResponse, serveUCommand, hfun, hnone]
      split
      · rw [hreg]; decide
      · split <;> · rw [hreg]; decide
    · rw [hcmd]
      decide
  rw [sTakeCompletedTestFrame, if_pos (.inl hkeeps)]

end Caller

/-! ### The other station -/

section Echoer

variable {l : Link} {fp : Frame} {addr : UInt8} {len : Nat}

/-- The command is kept for the response. -/
theorem handleUFrame_command (h : TestFrame l.s.framing addr len fp)
    (hown : addr.toUInt32 = l.s.addr) (hstate : l.p.umState = {})
    (hfrmr : l.p.frmrCondition = false) (hlen : len ≤ l.p.mifls) :
    handleUFrame l fp =
      { s := Station.broadcastFlags { l.s with pfState := { l.s.pfState with
          pRcved := l.s.pfState.pRcved || getPF l.s.framing fp } } {.umRecvd}
        p := { l.p with
          umState := { rcved := true }, umCmd := IOHDLC_U_TEST, umRsp := IOHDLC_U_TEST
          umRspFrame := some fp } } := by
  have hui : IOHDLC_U_TEST ≠ IOHDLC_U_UI := by decide
  have hdisc : IOHDLC_U_TEST ≠ IOHDLC_U_DISC := by decide
  have hnone : ucmdToMode IOHDLC_U_TEST = none := rfl
  have haccept : acceptsUCommand l fp = true := by
    have helen : ¬fp.elen < uHdrLen l := by
      rw [h.elen, uHdrLen]
      omega
    simp [acceptsUCommand, h.uFunction, hstate, hfrmr, helen]
  have hserve (m : Link) (hframing : m.s.framing = l.s.framing) (hmifls : m.p.mifls = l.p.mifls) :
      serveUCommand m fp =
        { m with p := { m.p with umRsp := IOHDLC_U_TEST, umRspFrame := some fp } } := by
    have hfun : uFunction m fp = IOHDLC_U_TEST := by
      rw [← h.uFunction, uFunction, uFunction, hframing]
    have hinfo : fp.elen - uHdrLen m ≤ m.p.mifls := by
      rw [h.elen, uHdrLen, hframing, hmifls, Nat.add_sub_cancel_left]
      exact hlen
    simp only [serveUCommand, hfun, hnone, hdisc, if_false, hinfo, and_self, if_true]
  simp only [handleUFrame, h.addr, h.uFunction, hown, not_true_eq_false, false_and, if_false, hui,
    if_true, receiveUCommand, haccept]
  rw [hserve (registerUCommand l IOHDLC_U_TEST (getPF l.s.framing fp)) rfl rfl]
  simp only [requestUResponse, registerUCommand, hstate, hfrmr, Bool.not_false, or_true, if_true]

/-- A frame with another address is discarded. -/
theorem handleUFrame_otherAddress (h : TestFrame l.s.framing addr len fp)
    (hown : addr.toUInt32 ≠ l.s.addr) (hstate : l.p.umState = {}) : handleUFrame l fp = l := by
  have hui : IOHDLC_U_TEST ≠ IOHDLC_U_UI := by decide
  have hmatch : matchesUResponse l fp = false := by rw [matchesUResponse, hstate]; rfl
  simp only [handleUFrame, h.addr, h.uFunction, hown, not_false_eq_true, true_and, hui, if_false,
    receiveUResponse, hmatch, Bool.false_eq_true, ite_self]

/-- Without an event and a UI value nothing is sent behind the sections for U frames. -/
theorem dispatchTx_idle (hui : l.p.uiTxPending = false) (take : Option Frame) :
    (dispatchTx l ∅ take).sent = [] := by
  have hnone (e : Evt) : e ∉ (∅ : EvtFlags) := Finset.notMem_empty e
  have hentry : (connectedTxEntry l ∅ take).sent = none := by
    simp only [connectedTxEntry, Finset.empty_sdiff, serveReplyTimeout, serveT3Timeout, hnone,
      false_and, if_false, if_true, sendUi, hui, Bool.false_and, Bool.false_eq_true]
  simp only [dispatchTx, Finset.empty_sdiff]
  split
  · split <;> rfl
  · split
    · rw [hentry]
      rfl
    · rfl

/-- The pass behind it sends the echo with the F bit, and nothing else. -/
theorem servePeer_echo {rf : Frame} (h : TestFrame l.s.framing addr len rf)
    (h16 : l.s.framing.frameOffset + 2 + len < 65536) (hstate : l.p.umState = { rcved := true })
    (hcmd : l.p.umCmd = IOHDLC_U_TEST)
    (hrsp : l.p.umRsp = IOHDLC_U_TEST) (hrf : l.p.umRspFrame = some rf)
    (hp : l.s.pfState.pRcved = true) (hui : l.p.uiTxPending = false) (take : Takes) :
    ∃ rsp, (servePeer l {.umRecvd} take).sent = [rsp] ∧
      TestFrame l.s.framing l.s.addr.toUInt8 len rsp := by
  obtain ⟨rsp, hframe, htest⟩ := uResponseFrame_testFrame hrsp hrf h h16 take.uResponse
  refine ⟨rsp, ?_, htest⟩
  obtain ⟨l', hstage, hui'⟩ : ∃ l', uResponseStage l {.umRecvd} take.uResponse =
      (l', some rsp, ∅) ∧ l'.p.uiTxPending = false := by
    simp only [uResponseStage, hstate, if_true, sendUResponse, hp, hframe]
    refine ⟨_, congrArg _ (congrArg _ rfl), ?_⟩
    simp only [uResponseSent, restartIFrameReplyTimer, hcmd, if_true]
    exact hui
  simp only [servePeer, hstage, dispatchTx_idle hui']
  rfl

end Echoer

end IoHdlc
