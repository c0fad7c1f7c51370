import IoHdlc.Core.RejectFreeze

/-!
The FRMR response: the F bit it carries, and what the station that gets it makes of it.

A rejected frame leaves `P_RCVED` as it is, so the response carries F=1 only if an earlier
P waits for it. The other station takes it for the answer to a U command, or for nothing.
-/

namespace IoHdlc

/-! ### The response that is sent -/

section Sent

variable {l : Link} {fp : Frame}

/-- A FRMR response of this station. -/
def IsFrmrResponse (s : Station) (fp : Frame) : Prop :=
  frameType s.framing fp = .uFrame ∧ fp.ctrl s.framing 0 &&& IOHDLC_U_FUN_MASK = IOHDLC_U_FRMR ∧
    fp.addr s.framing = s.addr.toUInt8

instance (s : Station) (fp : Frame) : Decidable (IsFrmrResponse s fp) :=
  inferInstanceAs (Decidable (_ ∧ _ ∧ _))

theorem ctrl_buildFrmrResponse (s : Station) (p : Peer) (stale : Frame) (pf : Bool) :
    (buildFrmrResponse s p stale pf).ctrl s.framing 0 = uCtrl IOHDLC_U_FRMR pf :=
  (Buffer.store_lt _ _ (by omega)).trans (ctrl_ioHdlcBuildUFrame s p stale pf false IOHDLC_U_FRMR)

/-- The first octet of the information field repeats the rejected control field. -/
theorem info_buildFrmrResponse (s : Station) (p : Peer) (stale : Frame) (pf : Bool) :
    (buildFrmrResponse s p stale pf).ctrl s.framing 1 = p.frmrRejectedCtrl.1 := by
  have hinfo : ∃ rest, frmrInfo s p = p.frmrRejectedCtrl.1 :: rest := by
    rw [frmrInfo]
    split
    · exact ⟨_, rfl⟩
    · exact ⟨_, rfl⟩
  obtain ⟨rest, hrest⟩ := hinfo
  simp only [buildFrmrResponse, hrest, Frame.ctrl, Buffer.store]
  simp

/-- Where the receiver looks for the P/F bit of the response: in modulus 128 that is the
rejected control field. -/
theorem getPF_buildFrmrResponse (s : Station) (p : Peer) (stale : Frame) (pf : Bool) :
    getPF s.framing (buildFrmrResponse s p stale pf) =
      if s.framing.modmask = 7 then pf else !isIFrm p.frmrRejectedCtrl.1 := by
  have hctrl := ctrl_buildFrmrResponse s p stale pf
  have hinfo := info_buildFrmrResponse s p stale pf
  obtain ⟨fff, hf, hfr | hfr⟩ := s.framing.cases
  · rw [hfr] at hctrl ⊢
    rw [getPF_mod8, hctrl]
    exact pf_uCtrl pf responseCode_frmr
  · rw [hfr] at hinfo ⊢
    rw [getPF_mod128, hinfo]
    exact congrArg not (decide_eq_decide.mpr Iff.rfl)

/-- The FRMR response reads as one, and its P/F bit is the one it was given. -/
theorem isFrmrResponse_buildFrmrResponse (s : Station) (p : Peer) (stale : Frame) (pf : Bool) :
    IsFrmrResponse s (buildFrmrResponse s p stale pf) := by
  have hreads := readsAs_buildFrmrResponse s p stale pf
  refine ⟨hreads.type, ?_, hreads.addr⟩
  rw [ctrl_buildFrmrResponse]
  exact (uFunction_octet ⟨IOHDLC_U_FRMR, by decide⟩ pf).2.1

/-- No other response code reads as FRMR. -/
theorem not_isFrmrResponse {s : Station} {uFun : UInt8} {pf : Bool} (hfun : ResponseCode uFun)
    (hne : uFun ≠ IOHDLC_U_FRMR) (hctrl : fp.ctrl s.framing 0 = uCtrl uFun pf) :
    ¬IsFrmrResponse s fp := by
  rintro ⟨-, hmask, -⟩
  rw [hctrl] at hmask
  rcases hfun with rfl | rfl | rfl | rfl | rfl
  all_goals first | exact hne rfl | (cases pf <;> cases hmask)

theorem sendUResponse_frmr {take : Option Frame} (hl : l.UmReady)
    (hfp : fp ∈ (sendUResponse l take).2) (hfrmr : IsFrmrResponse l.s fp) :
    ∃ stale, fp = buildFrmrResponse l.s l.p stale l.s.pfState.pRcved := by
  have hframe : fp ∈ uResponseFrame l l.s.pfState.pRcved take := by
    simp only [sendUResponse] at hfp
    split at hfp
    next heq =>
      rw [heq]
      exact hfp
    · cases hfp
  rw [uResponseFrame] at hframe
  split at hframe
  · obtain ⟨rf, -, rfl⟩ := Option.map_eq_some_iff.mp hframe
    have hctrl := ctrl_ioHdlcBuildUFrame l.s l.p rf l.s.pfState.pRcved false IOHDLC_U_TEST
    exact absurd hfrmr (not_isFrmrResponse responseCode_test (by decide) hctrl)
  · obtain ⟨stale, -, rfl⟩ := Option.map_eq_some_iff.mp hframe
    split at hfrmr
    next hrsp => exact ⟨stale, by rw [if_pos hrsp]⟩
    next hrsp =>
      exact absurd hfrmr (not_isFrmrResponse hl.rsp hrsp (ctrl_ioHdlcBuildUFrame ..))

theorem sendUi_not_frmr {take : Option Frame} (hfp : fp ∈ (sendUi l take).2) :
    ¬IsFrmrResponse l.s fp := by
  simp only [sendUi] at hfp
  split at hfp
  · split at hfp
    next stale =>
      cases hfp
      have hctrl : (ioHdlcBuildUFrameWithInfo l.s l.p stale IOHDLC_U_UI false (sendsCommand l.s)
          l.p.uiTxValue).ctrl l.s.framing 0 = uCtrl IOHDLC_U_UI false :=
        (Buffer.store_lt _ _ (by omega)).trans
          (ctrl_ioHdlcBuildUFrame l.s l.p stale false (sendsCommand l.s) IOHDLC_U_UI)
      exact not_isFrmrResponse responseCode_none (by decide) hctrl
    · cases hfp
  · cases hfp

theorem IsFrmrResponse.congr {s s' : Station} (hframing : s'.framing = s.framing)
    (haddr : s'.addr = s.addr) (h : IsFrmrResponse s fp) : IsFrmrResponse s' fp := by
  rw [IsFrmrResponse, hframing, haddr]
  exact h

theorem dispatchTx_not_frmr {flags : EvtFlags} {take : Option Frame}
    (hfp : fp ∈ (dispatchTx l flags take).sent) : ¬IsFrmrResponse l.s fp := by
  simp only [dispatchTx] at hfp
  split at hfp
  · split at hfp <;> cases hfp
  split at hfp
  · have hreply := serveReplyTimeout_inherits l ((flags \ {.linkStChg}) \ {.lineIdle})
    have ht3 := hreply.trans (serveT3Timeout_inherits _
      (((flags \ {.linkStChg}) \ {.lineIdle}) \ {.cRplytmo}))
    simp only [connectedTxEntry] at hfp
    split at hfp
    · split at hfp
      · intro hfrmr
        exact sendUi_not_frmr (Option.mem_toList.mp hfp) (hfrmr.congr ht3.framing ht3.sAddr)
      · cases hfp
    · cases hfp
  · cases hfp

/-- The FRMR response of a pass comes out of the section for U responses. -/
theorem servePeer_frmr {flags : EvtFlags} {take : Takes} (hl : l.UmReady)
    (hfp : fp ∈ (servePeer l flags take).sent) (hfrmr : IsFrmrResponse l.s fp) :
    ∃ stale, fp = buildFrmrResponse l.s l.p stale l.s.pfState.pRcved := by
  have hstage := uResponseStage_inherits l flags take.uResponse
  rcases List.mem_append.mp hfp with hrsp | hui
  · rw [Option.mem_toList, uResponseStage] at hrsp
    split at hrsp
    · exact sendUResponse_frmr hl hrsp hfrmr
    · cases hrsp
  · exact absurd (hfrmr.congr hstage.framing hstage.sAddr) (dispatchTx_not_frmr hui)

theorem sendUCommand_go_eq {timedOut : Bool} {take : Option Frame}
    (h : (sendUCommand l timedOut take).next = .go) :
    (sendUCommand l timedOut take).link.s.pfState.pRcved = l.s.pfState.pRcved ∧
      (sendUCommand l timedOut take).link.p.frmrRejectedCtrl = l.p.frmrRejectedCtrl := by
  rcases sendUCommand_ends l timedOut take with ⟨-, heq⟩ | ⟨-, -, heq⟩ | ⟨-, hgo, heq, -⟩ |
    ⟨-, hgo, -, fp, -, heq⟩
  · rw [heq] at h
    cases h
  · rw [heq] at h
    cases h
  · rw [heq, retryBefore_eq hgo]
    exact ⟨rfl, rfl⟩
  · obtain ⟨t3, delay, hsent⟩ := uCommandSent_eq (presetF (retryBefore l timedOut).1)
    rw [heq, hsent, retryBefore_eq hgo]
    exact ⟨rfl, rfl⟩

theorem serveRequest_frmr {flags : EvtFlags} {timedOut : Bool} {take : Takes} (hl : l.UmReady)
    (haddr : l.p.addr.toUInt8 ≠ l.s.addr.toUInt8)
    (hfp : fp ∈ (serveRequest l flags timedOut take).sent) (hfrmr : IsFrmrResponse l.s fp) :
    ∃ l' : Link, l'.s.framing = l.s.framing ∧ l'.s.addr = l.s.addr ∧
      l'.p.frmrRejectedCtrl = l.p.frmrRejectedCtrl ∧
      ∃ stale, fp = buildFrmrResponse l'.s l'.p stale l.s.pfState.pRcved := by
  have hcmd := sendUCommand_inherits l timedOut take.uCommand
  simp only [serveRequest] at hfp
  split at hfp
  · cases hfp
  · cases hfp
  · cases hfp
  next hgo =>
    obtain ⟨hp, hctrl⟩ := sendUCommand_go_eq hgo
    rcases List.mem_append.mp hfp with hu | hrest
    · have hto := (sendUCommand_reads _ _ hl (Option.mem_toList.mp hu)).2
      exact absurd (hto.symm.trans hfrmr.2.2) haddr
    · obtain ⟨stale, heq⟩ := servePeer_frmr (hl.inherits hcmd) hrest
        (hfrmr.congr hcmd.framing hcmd.sAddr)
      exact ⟨_, hcmd.framing, hcmd.sAddr, hctrl, stale, hp ▸ heq⟩

end Sent

/-! ### The response that is received -/

/-- What a U response with the function FRMR does: it reaches the application only if it
answers a U command other than TEST. -/
theorem receiveUResponse_frmr {l : Link} {fp : Frame}
    (hfun : uFunction l fp = IOHDLC_U_FRMR) :
    (receiveUResponse l fp).s.appEs = .frmrReceived :: l.s.appEs ↔
      l.p.umState.sent = true ∧ getPF l.s.framing fp = true ∧ l.p.umCmd ≠ IOHDLC_U_TEST := by
  simp only [receiveUResponse, matchesUResponse]
  by_cases hmatch : (l.p.umState.sent && getPF l.s.framing fp) = true
  · rw [if_pos hmatch]
    rw [Bool.and_eq_true] at hmatch
    by_cases htest : l.p.umCmd = IOHDLC_U_TEST
    · simp [htest, serveTestResponse, finishUResponse, Station.broadcastFlagsApp,
        Station.broadcastFlags]
    · simp only [htest, if_false, hfun, hmatch, true_and, ne_eq, not_false_eq_true, iff_true]
      rfl
  · rw [if_neg hmatch]
    rw [Bool.and_eq_true, not_and] at hmatch
    simp only [List.ne_cons_self, false_iff, not_and, ne_eq]
    exact fun hsent hpf => absurd hpf (hmatch hsent)

namespace Node

variable {n m : Nat}

/-- The station `b` talks to the station `a` as its current peer, and the other way round,
with one set of parameters. -/
structure Matched (a : Node n) (b : Node m) : Prop where
  framing : b.s.framing = a.s.framing
  toB : (a.peer a.cPeer).addr = b.s.addr
  toA : (b.peer b.cPeer).addr = a.s.addr
  octetA : a.s.addr.toUInt8.toUInt32 = a.s.addr
  octetB : b.s.addr.toUInt8.toUInt32 = b.s.addr
  differ : a.s.addr ≠ b.s.addr

theorem Matched.addr_ne {a : Node n} {b : Node m} (h : a.Matched b) :
    (a.peer a.cPeer).addr.toUInt8 ≠ a.s.addr.toUInt8 := by
  intro heq
  rw [h.toB] at heq
  have heq' := congrArg UInt8.toUInt32 heq
  rw [h.octetA, h.octetB] at heq'
  exact h.differ heq'.symm

/-- A FRMR response goes out of the section for U responses, with the F bit that is due. -/
theorem act_frmr {a a' : Node n} {x : Action n} {sent : List Frame} {fp : Frame}
    (hready : a.UmReady) (haddr : (a.peer a.cPeer).addr.toUInt8 ≠ a.s.addr.toUInt8)
    (hact : a.act x = some (a', sent)) (hfp : fp ∈ sent) (hfrmr : IsFrmrResponse a.s fp) :
    ∃ l : Link, l.s.framing = a.s.framing ∧ l.s.addr = a.s.addr ∧
      l.p.frmrRejectedCtrl = (a.peer a.cPeer).frmrRejectedCtrl ∧
      ∃ stale, fp = buildFrmrResponse l.s l.p stale a.s.pfState.pRcved := by
  cases act_sends hact hfp with
  | request flags timedOut take hsent => exact serveRequest_frmr (hready a.cPeer) haddr hsent hfrmr
  | peer flags take hsent =>
    obtain ⟨stale, heq⟩ := servePeer_frmr (hready a.cPeer) hsent hfrmr
    exact ⟨a.link a.cPeer, rfl, rfl, rfl, stale, heq⟩
  | iFrame flags iSent ha hpc hsent =>
    exact absurd (hfrmr.1.symm.trans (connectedTxIFrame_type hsent)) nofun
  | sFrame flags iSent take ha hpc hsent =>
    exact absurd (hfrmr.1.symm.trans (connectedTxSFrame_type _ flags iSent take fp hsent)) nofun

/-- The application of the receiver learns about the rejection. -/
def Raises (b : Node m) (fp : Frame) : Prop :=
  (b.receive fp).s.appEs = .frmrReceived :: b.s.appEs

theorem raises_iff {a : Node n} {b : Node m} {l : Link} {stale : Frame} {pf : Bool}
    (hmatched : a.Matched b) (hframing : l.s.framing = a.s.framing) (haddr : l.s.addr = a.s.addr) :
    b.Raises (buildFrmrResponse l.s l.p stale pf) ↔
      (b.peer b.cPeer).umState.sent = true ∧ (b.peer b.cPeer).umCmd ≠ IOHDLC_U_TEST ∧
        if b.s.framing.modmask = 7 then pf = true else isIFrm l.p.frmrRejectedCtrl.1 = false := by
  obtain ⟨htype, hfun, hoctet⟩ := isFrmrResponse_buildFrmrResponse l.s l.p stale pf
  have hpf := getPF_buildFrmrResponse l.s l.p stale pf
  have hfr : l.s.framing = b.s.framing := hframing.trans hmatched.framing.symm
  rw [hfr] at htype hfun hoctet hpf
  rw [haddr] at hoctet
  have hu : isUFrm ((buildFrmrResponse l.s l.p stale pf).ctrl b.s.framing 0) = true := by
    by_contra hno
    rw [frameType, if_neg hno] at htype
    split at htype <;> cases htype
  have hto : ((buildFrmrResponse l.s l.p stale pf).addr b.s.framing).toUInt32 = a.s.addr := by
    rw [hoctet, hmatched.octetA]
  have hcase : ((b.receive (buildFrmrResponse l.s l.p stale pf)).s.appEs = .frmrReceived :: b.s.appEs) ↔
      (b.peer b.cPeer).umState.sent = true ∧
        getPF b.s.framing (buildFrmrResponse l.s l.p stale pf) = true ∧
        (b.peer b.cPeer).umCmd ≠ IOHDLC_U_TEST := by
    have hframe : handleUFrame (Endpoint.lineBusy (b.link b.cPeer))
        (buildFrmrResponse l.s l.p stale pf) =
        receiveUResponse (Endpoint.lineBusy (b.link b.cPeer)) (buildFrmrResponse l.s l.p stale pf) := by
      have hb : (Endpoint.lineBusy (b.link b.cPeer)).s.framing = b.s.framing := rfl
      have hs : (Endpoint.lineBusy (b.link b.cPeer)).s.addr = b.s.addr := rfl
      have hp : (Endpoint.lineBusy (b.link b.cPeer)).p.addr = a.s.addr := hmatched.toA
      have hui : uFunction (Endpoint.lineBusy (b.link b.cPeer))
          (buildFrmrResponse l.s l.p stale pf) ≠ IOHDLC_U_UI := by
        rw [uFunction, hb, hfun]
        decide
      simp only [handleUFrame, hb, hs, hp, hto, hmatched.differ, not_true_eq_false, not_false_eq_true,
        ne_eq, and_false, if_false, if_neg hui]
    rw [Node.receive, if_pos hu, hframe]
    exact receiveUResponse_frmr hfun
  rw [Raises, hcase, hpf]
  split
  · exact ⟨fun h => ⟨h.1, h.2.2, h.2.1⟩, fun h => ⟨h.1, h.2.2, h.2.1⟩⟩
  · rw [Bool.not_eq_true']
    exact ⟨fun h => ⟨h.1, h.2.2, h.2.1⟩, fun h => ⟨h.1, h.2.2, h.2.1⟩⟩

/-! ### The exchange -/

/-- The response carries F=1 and reaches the application of the other station exactly if a P
of an earlier frame waits for it, a U command other than TEST waits for an answer, and the
octet that is read for the F bit has it. -/
theorem frmrExchange_iff {a a' : Node n} {b : Node m} {x : Action n} {sent : List Frame}
    {fp : Frame} (hrun : Kit.Reachable Fresh (Moves Anything) a) (hmatched : a.Matched b)
    (hact : a.act x = some (a', sent)) (hfp : fp ∈ sent) (hfrmr : IsFrmrResponse a.s fp) :
    linePF a.s.framing fp = true ∧ b.Raises fp ↔
      a.s.pfState.pRcved = true ∧
      (b.peer b.cPeer).umState.sent = true ∧ (b.peer b.cPeer).umCmd ≠ IOHDLC_U_TEST ∧
      (a.s.framing.modmask = 7 ∨ isIFrm (a.peer a.cPeer).frmrRejectedCtrl.1 = false) := by
  obtain ⟨l, hframing, haddr, hctrl, stale, rfl⟩ :=
    act_frmr (umReady_reachable hrun) hmatched.addr_ne hact hfp hfrmr
  have hpf := (readsAs_buildFrmrResponse l.s l.p stale a.s.pfState.pRcved).pf
  rw [hframing] at hpf
  rw [hpf, raises_iff hmatched hframing haddr, hmatched.framing, hctrl]
  constructor
  · rintro ⟨hp, hsent, hcmd, hread⟩
    refine ⟨hp, hsent, hcmd, ?_⟩
    split at hread
    next h8 => exact .inl h8
    · exact .inr hread
  · rintro ⟨hp, hsent, hcmd, hread⟩
    refine ⟨hp, hsent, hcmd, ?_⟩
    split
    · exact hp
    next h8 => exact hread.resolve_left h8

theorem commonRx_rejected {l : Link} {fp : Frame} (isCommand : Bool)
    (hno : l.p.frmrCondition = false)
    (hnr : isNRValid l.s l.p (extractNR l.s.framing fp) = false) :
    (commonRx l fp isCommand).1 =
      setFrmrCondition l (rejectedCtrl l.s.framing fp) isCommand IOHDLC_FRMR_Y := by
  simp only [commonRx, hno, handleCheckpointAndAck, hnr, Bool.false_eq_true, if_false]

/-- A rejected frame does not register its P bit. -/
theorem receive_rejected_pfState {a : Node n} {fp : Frame}
    (hrej : rejectsFrame (a.link a.cPeer) fp = true) :
    (a.receive fp).s.pfState = a.s.pfState := by
  simp only [rejectsFrame, Bool.and_eq_true, Bool.not_eq_true', link_s, link_p] at hrej
  obtain ⟨⟨⟨hu, -⟩, hno⟩, hnr⟩ := hrej
  rw [Node.receive, if_neg (by rw [hu]; exact Bool.false_ne_true)]
  rcases rxDispatch_eq (Endpoint.lineBusy (a.link a.cPeer)) fp with ⟨-, heq⟩ | ⟨-, heq⟩
  · rw [heq]
    rfl
  · rw [heq, commonRx_rejected (l := Endpoint.lineBusy (a.link a.cPeer)) _ hno hnr]
    rfl

/-! ### A rejected poll -/

/-- The states that follow a received frame while the peer stays in FRMR condition. -/
def Rejecting (a : Node n) (fp : Frame) (a' : Node n) : Prop :=
  Relation.ReflTransGen (Moves fun nd _ => (nd.peer nd.cPeer).frmrCondition = true) (a.receive fp) a'

/-- The runs of one station from a given state have its framing. -/
theorem framing_of_run {a a' : Node n}
    (hrun : Kit.Reachable (· = a) (Moves Anything) a') : a'.s.framing = a.s.framing :=
  hrun.invariant (fun nd => nd.s.framing = a.s.framing) (fun _ h => h ▸ rfl) fun _ _ hnd hmove => by
    obtain ⟨x, sent, -, hact⟩ := hmove
    exact (act_staysReady hact).framing.trans hnd

theorem reachable_of_run {a a' : Node n} (hfresh : a.Fresh)
    (hrun : Kit.Reachable (· = a) (Moves Anything) a') : Kit.Reachable Fresh (Moves Anything) a' := by
  obtain ⟨_, rfl, hrun⟩ := hrun
  exact ⟨_, hfresh, hrun⟩

/-- The stations 1 and 2 of the examples. -/
theorem Matched.of_addrs {a b : Node 1} (hframing : b.s.framing = a.s.framing)
    (haddr : a.s.addr = 1) (hpeer : (a.peer 0).addr = 2) (hbaddr : b.s.addr = 2)
    (hbpeer : (b.peer 0).addr = 1) : a.Matched b where
  framing := hframing
  toB := by rw [Subsingleton.elim a.cPeer 0, hpeer, hbaddr]
  toA := by rw [Subsingleton.elim b.cPeer 0, hbpeer, haddr]
  octetA := by rw [haddr]; rfl
  octetB := by rw [hbaddr]; rfl
  differ := by rw [haddr, hbaddr]; decide

/-- A connected primary that has sent DISC. -/
theorem exists_primary :
    ∃ b : Node 1, Kit.Reachable Fresh (Moves Anything) b ∧ b.s.framing = .mod8 0 (by decide) ∧
      b.s.addr = 2 ∧ (b.peer 0).addr = 1 ∧ (b.peer 0).ssState.stConn = true ∧
      (b.peer 0).umState.sent = true ∧ (b.peer 0).umCmd = IOHDLC_U_DISC := by
  obtain ⟨b, hrun, hp⟩ := Kit.Reachable.exists_of_run next (fun _ _ _ => moves_next)
    (@Kit.Reachable.start _ (· = onePeer .ndm { pri := true } 2 1) _ _ rfl)
    [.linkUp 0 .nrm false, .txFetch, .txEntry { uCommand := some default },
      .receive (shortFrame 1 0x73), .linkDown 0, .txFetch, .txEntry { uCommand := some default }]
    (fun b => decide (b.s.addr = 2 ∧ (b.peer 0).addr = 1 ∧ (b.peer 0).ssState.stConn = true ∧
      (b.peer 0).umState.sent = true ∧ (b.peer 0).umCmd = IOHDLC_U_DISC)) (by decide +kernel)
  exact ⟨b, reachable_of_run (fresh_onePeer .ndm (.inl rfl) { pri := true } 2 1) hrun,
    framing_of_run hrun, of_decide_eq_true hp⟩

/-- With a poll unanswered and DISC outstanding the exchange works. -/
theorem frmrExchange_iff_disc :
    ∃ (a b : Node 1) (fp : Frame), a.Matched b ∧ linePF a.s.framing fp = true ∧ b.Raises fp := by
  obtain ⟨b, hb, hbfr, hbaddr, hbpeer, -, hsent, hcmd⟩ := exists_primary
  obtain ⟨a, hrun, hp⟩ := Kit.Reachable.exists_of_run next (fun _ _ _ => moves_next)
    (@Kit.Reachable.start _ (· = onePeer .ndm {} 1 2) _ _ rfl)
    [.receive (shortFrame 1 0x93), .txFetch, .txEntry { uResponse := some default }, .txCheck,
      .txIFrame, .txSFrame fun _ => none, .receive (shortFrame 1 0x11),
      .receive (shortFrame 1 0x71), .txFetch]
    (fun a => decide (a.s.addr = 1 ∧ (a.peer 0).addr = 2 ∧ a.s.pfState.pRcved = true) &&
      a.sendsOne (.txEntry { uResponse := some default }) fun fp => decide (IsFrmrResponse a.s fp))
    (by decide +kernel)
  rw [Bool.and_eq_true, decide_eq_true_eq] at hp
  obtain ⟨⟨haddr, hpeer, hpoll⟩, hfp⟩ := hp
  have hframing := framing_of_run hrun
  have hmatched : a.Matched b := .of_addrs (hbfr.trans hframing.symm) haddr hpeer hbaddr hbpeer
  obtain ⟨a', fp, hact, hresponse⟩ := exists_of_sendsOne hfp
  have hfrmr : IsFrmrResponse a.s fp := of_decide_eq_true hresponse
  refine ⟨a, b, fp, hmatched, (frmrExchange_iff (reachable_of_run (fresh_onePeer .ndm (.inl rfl) {} 1 2)
    hrun) hmatched hact (List.mem_singleton.mpr rfl) hfrmr).mpr ⟨hpoll, ?_, ?_, .inl ?_⟩⟩
  · rw [Subsingleton.elim b.cPeer 0, hsent]
  · rw [Subsingleton.elim b.cPeer 0, hcmd]
    decide
  · rw [hframing]
    rfl

/-- The first poll of a connected secondary is rejected: the FRMR response has F=0. -/
theorem frmrExchange_first_poll :
    ¬∀ (a b : Node 1), Kit.Reachable Fresh (Moves Anything) a →
      Kit.Reachable Fresh (Moves Anything) b → a.Matched b → a.Connected 0 → b.Connected 0 →
      ∀ fp₀, rejectsFrame (a.link a.cPeer) fp₀ = true → linePF a.s.framing fp₀ = true →
      ∀ a₁, a.Rejecting fp₀ a₁ → ∀ x a₂ sent, a₁.act x = some (a₂, sent) →
      ∀ fp ∈ sent, IsFrmrResponse a₁.s fp → linePF a₁.s.framing fp = true ∧ b.Raises fp := by
  intro hclaim
  obtain ⟨b, hb, hbfr, hbaddr, hbpeer, hbconn, -⟩ := exists_primary
  obtain ⟨a, hrun, hp⟩ := Kit.Reachable.exists_of_run next (fun _ _ _ => moves_next)
    (@Kit.Reachable.start _ (· = onePeer .ndm {} 1 2) _ _ rfl)
    [.receive (shortFrame 1 0x93), .txFetch, .txEntry { uResponse := some default }, .txCheck,
      .txIFrame, .txSFrame fun _ => none]
    (fun a => decide (a.s.addr = 1 ∧ (a.peer 0).addr = 2 ∧ (a.peer 0).ssState.stConn = true ∧
        rejectsFrame (a.link 0) (shortFrame 1 0x71) = true ∧
        linePF a.s.framing (shortFrame 1 0x71) = true ∧
        ((a.receive (shortFrame 1 0x71)).peer 0).frmrCondition = true) &&
      ((a.receive (shortFrame 1 0x71)).next .txFetch).any fun a₁ =>
        a₁.sendsOne (.txEntry { uResponse := some default }) fun fp =>
          decide (IsFrmrResponse a₁.s fp ∧ linePF a₁.s.framing fp = false)) (by decide +kernel)
  rw [Bool.and_eq_true, decide_eq_true_eq] at hp
  obtain ⟨⟨haddr, hpeer, hconn, hrej, hpoll, hfrmr⟩, hsent⟩ := hp
  have hc (nd : Node 1) : nd.cPeer = 0 := Subsingleton.elim _ _
  have hmatched : a.Matched b :=
    .of_addrs (hbfr.trans (framing_of_run hrun).symm) haddr hpeer hbaddr hbpeer
  obtain ⟨a₁, hnext, hsends⟩ := (Option.any_eq_true _ _).mp hsent
  obtain ⟨r, hfetch, rfl⟩ := Option.map_eq_some_iff.mp hnext
  obtain ⟨a₂, fp, hact, hfp⟩ := exists_of_sendsOne hsends
  obtain ⟨hresponse, hpf⟩ := of_decide_eq_true hfp
  have hafter : a.Rejecting (shortFrame 1 0x71) r.1 :=
    .single ⟨.txFetch, r.2, by dsimp only; rw [hc]; exact hfrmr, hfetch⟩
  have hboth := hclaim a b (reachable_of_run (fresh_onePeer .ndm (.inl rfl) {} 1 2) hrun) hb
    hmatched hconn hbconn (shortFrame 1 0x71) (by rw [hc]; exact hrej) hpoll r.1 hafter _ a₂ _
    hact fp (List.mem_singleton.mpr rfl) hresponse
  exact Bool.false_ne_true (hpf.symm.trans hboth.1)

end Node

end IoHdlc
