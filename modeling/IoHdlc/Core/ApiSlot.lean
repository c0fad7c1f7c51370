import IoHdlc.Core.UmSlot

/-!
The slot for the frame of a TEST, at one peer.

`um_api_frame` holds the TEST command of the application on its way out and the TEST response on
its way back, and the section for U commands sends whatever is in it. `Link.ApiCoherent` is what
makes that the right frame: a command there is the one of `um_cmd`, and a response is there only
while no command is registered.
-/

namespace IoHdlc

variable {l l' l'' : Link} {fp : Frame}

/-! ### The frame of a command -/

/-- The information field of a U frame. -/
def uInfo (fr : Framing) (fp : Frame) : List UInt8 :=
  fp.frame.slice (fr.frameOffset + 2) (fp.elen - (fr.frameOffset + 2))

/-- `s_fill_test_pattern`. -/
def testPattern (len : Nat) : List UInt8 := (List.range len).map sTestPatternByte

/-- The frame carries the function, and the information field of a TEST of `len` octets exactly
if the function is TEST. -/
structure CarriesUCommand (fr : Framing) (uCmd : UInt8) (len : Nat) (fp : Frame) : Prop where
  function : fp.ctrl fr 0 &&& IOHDLC_U_FUN_MASK = uCmd
  info : uInfo fr fp = if uCmd = IOHDLC_U_TEST then testPattern len else []

theorem uCtrl_function {uFun : UInt8} (hfun : uFun &&& IOHDLC_U_FUN_MASK = uFun) (pf : Bool) :
    uCtrl uFun pf &&& IOHDLC_U_FUN_MASK = uFun :=
  (uFunction_octet ⟨uFun, hfun⟩ pf).2.1

theorem u16_uHdr (fr : Framing) : u16 (fr.frameOffset + 2) = fr.frameOffset + 2 := by
  have hoff := fr.offset_le
  exact u16_of_lt (by omega)

/-- A frame that is built without an information field. -/
theorem uInfo_ioHdlcBuildUFrame (s : Station) (p : Peer) (uFun : UInt8) (pf isCommand : Bool) :
    uInfo s.framing (ioHdlcBuildUFrame s p fp uFun pf isCommand) = [] := by
  have helen : (ioHdlcBuildUFrame s p fp uFun pf isCommand).elen = s.framing.frameOffset + 2 :=
    u16_uHdr s.framing
  rw [uInfo, helen, Nat.sub_self]
  rfl

theorem testCommand_carries (s : Station) (p : Peer) (fp : Frame) {len : Nat}
    (hlen : len ≤ 2 ^ 16 - 1 - (s.framing.frameOffset + 2)) :
    CarriesUCommand s.framing IOHDLC_U_TEST len (testCommand s p fp len) := by
  have hoff := s.framing.offset_le
  have hpattern : (testPattern len).length = len := by rw [testPattern, List.length_map, List.length_range]
  have helen : (testCommand s p fp len).elen = s.framing.frameOffset + 2 + len := by
    change u16 (u16 (s.framing.frameOffset + 2) + (testPattern len).length) = _
    rw [u16_uHdr, hpattern]
    exact u16_of_lt (by omega)
  constructor
  · have hctrl : (testCommand s p fp len).ctrl s.framing 0 =
        (ioHdlcBuildUFrame s p fp IOHDLC_U_TEST true true).ctrl s.framing 0 :=
      Buffer.store_lt _ _ (by omega)
    rw [hctrl, ctrl_ioHdlcBuildUFrame]
    rfl
  · have hinfo := Buffer.slice_store (ioHdlcBuildUFrame s p fp IOHDLC_U_TEST true true).frame
      (s.framing.frameOffset + 2) (testPattern len)
    rw [uInfo, helen, if_pos rfl, Nat.add_sub_cancel_left]
    rwa [hpattern] at hinfo

/-! ### What is registered and stored -/

/-- The frame in `um_api_frame` is the TEST command that `um_cmd` says, or one whose command was
dropped, or a response that was parked when the transaction ended. -/
structure Link.ApiCoherent (l : Link) (len : Nat) (parked : Bool) : Prop where
  masked : l.p.umCmd &&& IOHDLC_U_FUN_MASK = l.p.umCmd
  command : parked = false → ∀ fp ∈ l.p.umApiFrame,
    CarriesUCommand l.s.framing IOHDLC_U_TEST len fp ∧
      (l.p.umCmd = IOHDLC_U_TEST ∨ l.p.umCmd = 0 ∧ l.p.umState.sent = false)
  response : parked = true → l.p.umApiFrame.isSome = true →
    l.p.umCmd = 0 ∧ l.p.umState.sent = false

/-- No command is registered that was not, none is sent, and nothing is stored. -/
structure Link.KeepsUm (l l' : Link) : Prop where
  framing : l'.s.framing = l.s.framing
  api : ∀ fp ∈ l'.p.umApiFrame, fp ∈ l.p.umApiFrame
  cmd : l'.p.umCmd = l.p.umCmd ∧ (l'.p.umState.sent = true → l.p.umState.sent = true) ∨
    l'.p.umCmd = 0 ∧ l'.p.umState.sent = false

theorem Link.KeepsUm.refl (l : Link) : l.KeepsUm l := ⟨rfl, fun _ h => h, .inl ⟨rfl, id⟩⟩

theorem Link.KeepsUm.trans (h : l.KeepsUm l') (h' : l'.KeepsUm l'') : l.KeepsUm l'' where
  framing := h'.framing.trans h.framing
  api fp hfp := h.api fp (h'.api fp hfp)
  cmd := by
    rcases h'.cmd with ⟨hcmd', hsent'⟩ | hgone
    · rcases h.cmd with ⟨hcmd, hsent⟩ | ⟨hcmd, hsent⟩
      · exact .inl ⟨hcmd'.trans hcmd, hsent ∘ hsent'⟩
      · refine .inr ⟨hcmd'.trans hcmd, Bool.eq_false_iff.mpr fun h => ?_⟩
        exact Bool.false_ne_true (hsent.symm.trans (hsent' h))
    · exact .inr hgone

/-- The traffic of a connection leaves the command under way. -/
theorem Link.KeepsUm.of_keeps (h : l.Inherits l') (hk : l.Keeps l') : l.KeepsUm l' :=
  ⟨h.framing, h.api, .inl ⟨hk.umCmd, fun hsent => hk.umSent ▸ hsent⟩⟩

theorem Link.KeepsUm.of_eq (hframing : l'.s.framing = l.s.framing)
    (hapi : l'.p.umApiFrame = l.p.umApiFrame) (hcmd : l'.p.umCmd = l.p.umCmd)
    (hsent : l'.p.umState.sent = l.p.umState.sent) : l.KeepsUm l' :=
  ⟨hframing, fun _ hfp => hapi ▸ hfp, .inl ⟨hcmd, fun h => hsent ▸ h⟩⟩

theorem Link.KeepsUm.of_gone (h : l.Inherits l') (hcmd : l'.p.umCmd = 0)
    (hsent : l'.p.umState.sent = false) : l.KeepsUm l' :=
  ⟨h.framing, h.api, .inr ⟨hcmd, hsent⟩⟩

theorem Link.ApiCoherent.of_idle {len : Nat} {parked : Bool} (hcmd : l.p.umCmd = 0)
    (hsent : l.p.umState.sent = false) (hparked : parked = true ∨ l.p.umApiFrame = none) :
    l.ApiCoherent len parked where
  masked := by
    rw [hcmd]
    rfl
  command hpark fp hfp := by
    rw [hparked.resolve_left (by rw [hpark]; exact Bool.false_ne_true)] at hfp
    cases hfp
  response _ _ := ⟨hcmd, hsent⟩

theorem Link.ApiCoherent.keeps {len : Nat} {parked : Bool} (h : l.ApiCoherent len parked)
    (hk : l.KeepsUm l') : l'.ApiCoherent len parked where
  masked := by
    rcases hk.cmd with ⟨hcmd, -⟩ | ⟨hcmd, -⟩
    · rw [hcmd]
      exact h.masked
    · rw [hcmd]
      rfl
  command hpark fp hfp := by
    obtain ⟨hcarries, hcmd⟩ := h.command hpark fp (hk.api fp hfp)
    refine ⟨hk.framing ▸ hcarries, ?_⟩
    rcases hk.cmd with ⟨hsame, hsent⟩ | hgone
    · rcases hcmd with htest | ⟨hzero, hno⟩
      · exact .inl (hsame.trans htest)
      · refine .inr ⟨hsame.trans hzero, Bool.eq_false_iff.mpr fun h => ?_⟩
        exact Bool.false_ne_true (hno.symm.trans (hsent h))
    · exact .inr hgone
  response hpark hapi := by
    obtain ⟨fp, hfp⟩ := Option.isSome_iff_exists.mp hapi
    obtain ⟨hzero, hno⟩ := h.response hpark (Option.isSome_of_mem (hk.api fp hfp))
    rcases hk.cmd with ⟨hsame, hsent⟩ | hgone
    · refine ⟨hsame.trans hzero, Bool.eq_false_iff.mpr fun h => ?_⟩
      exact Bool.false_ne_true (hno.symm.trans (hsent h))
    · exact hgone

/-! ### The transmit worker -/

theorem handleTimeoutRetry_keepsUm (l : Link) : l.KeepsUm (handleTimeoutRetry l).1 := by
  have hinh := handleTimeoutRetry_inherits l
  rcases handleTimeoutRetry_cases l with ⟨-, hkeep⟩ | ⟨hstop, -⟩
  · exact .of_keeps hinh hkeep.toKeeps
  · obtain ⟨-, ⟨hgo, -⟩ | ⟨-, -, hum⟩⟩ := handleTimeoutRetry_ends l
    · exact absurd (hstop.symm.trans hgo) Bool.false_ne_true
    · refine .of_gone hinh ?_ (by rw [hum])
      rw [handleTimeoutRetry_snd, decide_eq_false_iff_not, UInt8.not_lt] at hstop
      rw [handleTimeoutRetry, if_pos hstop]
      have habort := abortPeerLink_umCmd { l with s := l.s.broadcastFlags {.linkDown} }
      dsimp only
      split <;> exact habort

theorem serveReplyTimeout_keepsUm (l : Link) (flags : EvtFlags) :
    l.KeepsUm (serveReplyTimeout l flags).1 := by
  have hretry := handleTimeoutRetry_keepsUm l
  simp only [serveReplyTimeout]
  split
  · split
    · exact hretry.trans (.of_eq rfl rfl rfl rfl)
    · exact hretry
  · exact .refl l

theorem serveT3Timeout_keepsUm (l : Link) (flags : EvtFlags) :
    l.KeepsUm (serveT3Timeout l flags).1 := by
  have hstop : l.KeepsUm { l with p := { l.p with t3Tmr := l.p.t3Tmr.reset } } :=
    .of_eq rfl rfl rfl rfl
  have hretry := hstop.trans (handleTimeoutRetry_keepsUm _)
  simp only [serveT3Timeout]
  split
  · split
    · exact .of_eq rfl rfl rfl rfl
    split
    · exact hstop
    split
    · exact hretry.trans (.of_eq rfl rfl rfl rfl)
    · exact hretry
  · exact .refl l

theorem connectedTxEntry_keepsUm (l : Link) (flags : EvtFlags) (take : Option Frame) :
    l.KeepsUm (connectedTxEntry l flags take).link := by
  have hui (l : Link) : l.KeepsUm (sendUi l take).1 :=
    .of_keeps (sendUi_inherits l take) (sendUi_keeps l take).1.toKeeps
  have hreply := serveReplyTimeout_keepsUm l (flags \ {.lineIdle})
  have ht3 := hreply.trans (serveT3Timeout_keepsUm _ ((flags \ {.lineIdle}) \ {.cRplytmo}))
  simp only [connectedTxEntry]
  split
  · split
    · exact ht3.trans (hui _)
    · exact ht3
  · exact hreply

theorem closePeerOrderly_keepsUm (l : Link) : l.KeepsUm (closePeerOrderly l) := by
  obtain ⟨-, -, hstate, hcmd⟩ := closePeerOrderly_closed l
  exact .of_gone (closePeerOrderly_inherits l) hcmd (by rw [hstate])

/-- A response that goes out ends a TEST or a DISC that was received. -/
theorem uResponseStage_keepsUm (l : Link) (flags : EvtFlags) (take : Option Frame) :
    l.KeepsUm (uResponseStage l flags take).1 := by
  have hsent (l : Link) : l.KeepsUm (uResponseSent l) := by
    rw [uResponseSent]
    split
    · refine ⟨rfl, fun _ h => h, ?_⟩
      cases l.p.umState.sent with
      | true => exact .inl ⟨rfl, fun _ => rfl⟩
      | false => exact .inr ⟨rfl, rfl⟩
    split
    · exact closePeerOrderly_keepsUm l
    · exact .refl l
  rw [uResponseStage]
  split
  · simp only [sendUResponse]
    split
    · refine Link.KeepsUm.trans ?_ (hsent _)
      exact .of_eq rfl rfl rfl rfl
    · exact .of_eq rfl rfl rfl rfl
  · exact .refl l

theorem servePeer_keepsUm (l : Link) (flags : EvtFlags) (take : Takes) :
    l.KeepsUm (servePeer l flags take).link := by
  refine (uResponseStage_keepsUm l flags take.uResponse).trans ?_
  simp only [servePeer, dispatchTx]
  split
  · split <;> exact .refl _
  split
  · exact connectedTxEntry_keepsUm ..
  · exact .refl _

/-- Behind a U command that goes out nothing is stored. -/
theorem serveRequest_coherent {len : Nat} {parked : Bool} (h : l.ApiCoherent len parked)
    (flags : EvtFlags) (timedOut : Bool) (take : Takes) :
    (serveRequest l flags timedOut take).link.ApiCoherent len parked := by
  have hretry : l.KeepsUm (retryBefore l timedOut).1 := by
    rw [retryBefore]
    split
    · exact handleTimeoutRetry_keepsUm l
    · exact .refl l
  have hpreset : l.KeepsUm (presetF (retryBefore l timedOut).1) :=
    hretry.trans (.of_eq rfl rfl rfl rfl)
  have hsend : (sendUCommand l timedOut take.uCommand).link.ApiCoherent len parked := by
    rcases sendUCommand_ends l timedOut take.uCommand with
      ⟨-, hr⟩ | ⟨-, -, hr⟩ | ⟨-, -, hr, -⟩ | ⟨-, -, -, fp, -, hr⟩
    · rw [hr]
      exact h
    · rw [hr]
      exact h.keeps hretry
    · rw [hr]
      exact h.keeps hpreset
    · obtain ⟨t3, delay, hsent⟩ := uCommandSent_eq (presetF (retryBefore l timedOut).1)
      rw [hr, hsent]
      exact ⟨(h.keeps hpreset).masked, by simp, by simp⟩
  simp only [serveRequest]
  split
  · exact hsend
  · exact hsend
  · exact hsend
  · exact hsend.keeps (servePeer_keepsUm ..)

/-! ### The receive worker -/

/-- Whether a received frame is a U command that is taken up. -/
def takesUCommand (l : Link) (fp : Frame) : Bool :=
  isUFrm (fp.ctrl l.s.framing 0) && (fp.addr l.s.framing).toUInt32 = l.s.addr &&
    uFunction l fp ≠ IOHDLC_U_UI && acceptsUCommand l fp

/-- Whether a received frame is the response to the TEST under way, which is parked for the
application. -/
def parksResponse (l : Link) (fp : Frame) : Bool :=
  isUFrm (fp.ctrl l.s.framing 0) && answersUCommand l fp && uFunction l fp ≠ IOHDLC_U_UI &&
    l.p.umCmd = IOHDLC_U_TEST

theorem serveUResponse_keepsUm (uCmd : UInt8) : l.KeepsUm (serveUResponse l uCmd) := by
  have hinh := serveUResponse_inherits uCmd (l := l)
  by_cases hfun : uCmd = IOHDLC_U_UA ∨ uCmd = IOHDLC_U_DM ∨ uCmd = IOHDLC_U_FRMR
  · obtain ⟨hcmd, hstate⟩ := serveUResponse_slot (l := l) hfun
    exact .of_gone hinh hcmd (by rw [hstate])
  · rw [not_or, not_or] at hfun
    simp only [serveUResponse, hfun, if_false]
    exact .refl l

/-- A U frame that is neither leaves what is registered, or ends it. -/
theorem handleUFrame_keepsUm (hu : isUFrm (fp.ctrl l.s.framing 0) = true)
    (hcmd : takesUCommand l fp = false) (hpark : parksResponse l fp = false) :
    l.KeepsUm (handleUFrame l fp) := by
  rw [takesUCommand, hu, Bool.true_and] at hcmd
  rw [parksResponse, answersUCommand, hu, Bool.true_and] at hpark
  simp only [handleUFrame]
  split
  · exact .refl l
  next haddr =>
    split
    · rw [receiveUi]
      split
      · exact .refl l
      split
      · exact .refl l
      · exact .of_eq rfl rfl rfl rfl
    next hui =>
      split
      next hcommand =>
        simp only [hcommand, hui, ne_eq, not_false_eq_true, decide_true, Bool.true_and] at hcmd
        rw [receiveUCommand, hcmd, if_neg Bool.false_ne_true]
        exact .refl l
      next hcommand =>
        rw [not_and_not_right] at haddr
        rw [receiveUResponse]
        split
        next hmatch =>
          have htest : l.p.umCmd ≠ IOHDLC_U_TEST := by
            intro htest
            rw [decide_eq_true hcommand, decide_eq_true (haddr hcommand), hmatch,
              decide_eq_true hui, decide_eq_true htest] at hpark
            cases hpark
          simp only [htest, if_false]
          have hstop : l.KeepsUm { l with p := { l.p with replyTmr := l.p.replyTmr.reset } } :=
            .of_eq rfl rfl rfl rfl
          refine hstop.trans ((serveUResponse_keepsUm _).trans ⟨rfl, fun _ h => h, ?_⟩)
          exact .inl ⟨rfl, by rintro ⟨⟩⟩
        · exact .refl l

/-- The parked response has the slot for itself. -/
theorem handleUFrame_parks (hpark : parksResponse l fp = true) (len : Nat) :
    (handleUFrame l fp).ApiCoherent len true := by
  simp only [parksResponse, answersUCommand, Bool.and_eq_true, decide_eq_true_eq] at hpark
  obtain ⟨⟨⟨-, ⟨hstation, hpeer⟩, hmatch⟩, hui⟩, htest⟩ := hpark
  simp only [handleUFrame]
  rw [if_neg (fun hno => hno.2 hpeer), if_neg hui, if_neg hstation, receiveUResponse, if_pos hmatch]
  simp only [htest, if_true]
  exact .of_idle rfl rfl (.inl rfl)

/-- What a received command may find in the slot: nothing, or what it throws away, or a TEST
command of the station if it is a TEST itself. -/
def findsSlot (l : Link) (parked : Bool) (fp : Frame) : Bool :=
  l.p.umApiFrame.isNone || (ucmdToMode (uFunction l fp)).isSome ||
    uFunction l fp = IOHDLC_U_TEST && !parked

theorem uFunction_masked (l : Link) (fp : Frame) :
    uFunction l fp &&& IOHDLC_U_FUN_MASK = uFunction l fp := by
  rw [uFunction, UInt8.and_assoc, UInt8.and_self]

/-- But for a set-mode command, a command only prepares its response. -/
theorem serveUCommand_um (hmode : ucmdToMode (uFunction l fp) = none) :
    (serveUCommand l fp).s.framing = l.s.framing ∧ (serveUCommand l fp).p.umCmd = l.p.umCmd ∧
      (serveUCommand l fp).p.umState = l.p.umState ∧
      (serveUCommand l fp).p.umApiFrame = l.p.umApiFrame := by
  simp only [serveUCommand, hmode]
  split
  · exact ⟨rfl, rfl, rfl, rfl⟩
  split <;> exact ⟨rfl, rfl, rfl, rfl⟩

theorem handleUFrame_takes {len : Nat} {parked : Bool} (h : l.ApiCoherent len parked)
    (htakes : takesUCommand l fp = true) (hslot : findsSlot l parked fp = true) :
    (handleUFrame l fp).ApiCoherent len parked := by
  simp only [takesUCommand, Bool.and_eq_true, decide_eq_true_eq] at htakes
  obtain ⟨⟨⟨-, hcommand⟩, hui⟩, hacc⟩ := htakes
  simp only [handleUFrame]
  rw [if_neg (fun hno => hno.1 hcommand), if_neg hui, if_pos hcommand, receiveUCommand, if_pos hacc]
  by_cases hmode : (ucmdToMode (uFunction l fp)).isSome = true
  · -- the reset clears the slot
    obtain ⟨om, hom⟩ := Option.isSome_iff_exists.mp hmode
    have hserve : ucmdToMode (uFunction
        (registerUCommand l (uFunction l fp) (getPF l.s.framing fp)) fp) = some om := hom
    simp only [serveUCommand, hserve]
    exact .of_idle rfl rfl (.inr rfl)
  · rw [findsSlot, Bool.eq_false_iff.mpr hmode, Bool.or_false, Bool.or_eq_true] at hslot
    obtain ⟨hframing, hcmd, hstate, hapi⟩ := serveUCommand_um (l := registerUCommand l
      (uFunction l fp) (getPF l.s.framing fp)) (Option.not_isSome_iff_eq_none.mp hmode)
    change _ = l.p.umApiFrame at hapi
    refine ⟨?_, fun hpark fp' hfp' => ?_, fun hpark hsome => ?_⟩
    · change (serveUCommand _ fp).p.umCmd &&& IOHDLC_U_FUN_MASK = (serveUCommand _ fp).p.umCmd
      rw [hcmd, registerUCommand]
      dsimp only
      split
      · exact uFunction_masked l fp
      · exact h.masked
    · have hold : fp' ∈ l.p.umApiFrame := hapi ▸ hfp'
      obtain ⟨hcarries, hwas⟩ := h.command hpark fp' hold
      refine ⟨?_, .inl ?_⟩
      · change CarriesUCommand (serveUCommand _ fp).s.framing _ _ _
        rwa [hframing]
      · -- a command of the station is stored, so the received one is a TEST
        have htest : uFunction l fp = IOHDLC_U_TEST := by
          rw [Option.mem_def.mp hold] at hslot
          have hlast := hslot.resolve_left (by simp)
          rw [Bool.and_eq_true, decide_eq_true_eq] at hlast
          exact hlast.1
        change (serveUCommand _ fp).p.umCmd = _
        rw [hcmd, registerUCommand, htest]
        dsimp only
        split
        · rfl
        next hkept =>
          rcases hwas with hwas | ⟨-, hno⟩
          · exact hwas
          · exact absurd (.inr (by rw [hno]; rfl)) hkept
    · rw [hpark, Bool.not_true, Bool.and_false] at hslot
      have hnone := Option.isNone_iff_eq_none.mp (hslot.resolve_right Bool.false_ne_true)
      change (serveUCommand _ fp).p.umApiFrame.isSome = true at hsome
      rw [hapi, hnone] at hsome
      cases hsome

/-! ### The calls of the application -/

/-- A request of the application for another command than TEST finds the slot empty. -/
theorem requestUCommand_coherent {len : Nat} {parked : Bool} {s : Station} {uCmd : UInt8}
    (hcmd : uCmd &&& IOHDLC_U_FUN_MASK = uCmd) (hslot : l.p.umApiFrame = none) :
    (Link.mk s (requestUCommand l.p uCmd)).ApiCoherent len parked :=
  ⟨hcmd, fun _ fp hfp => absurd (show fp ∈ l.p.umApiFrame from hfp) (by rw [hslot]; nofun),
    fun _ hsome => absurd (show l.p.umApiFrame.isSome = true from hsome) (by rw [hslot]; nofun)⟩

theorem modeToUcmd_masked {mode : Mode} {uCmd : UInt8} (h : modeToUcmd mode = some uCmd) :
    uCmd &&& IOHDLC_U_FUN_MASK = uCmd := by
  cases mode <;> cases h <;> rfl

theorem linkUpStart_coherent {len : Nat} {parked : Bool} (h : l.ApiCoherent len parked) (mode : Mode)
    (nrmOnly : Bool)
    (hslot : (∃ sMode, (linkUpStart l mode nrmOnly).2 = .waits sMode) → l.p.umApiFrame = none) :
    (linkUpStart l mode nrmOnly).1.ApiCoherent len parked := by
  revert hslot
  simp only [linkUpStart]
  split
  · exact fun _ => h
  split
  · exact fun _ => h
  split
  · exact fun _ => h.keeps (.of_eq rfl rfl rfl rfl)
  split
  · exact fun _ => h.keeps (.of_eq rfl rfl rfl rfl)
  next uCmd hcmd =>
    intro hslot
    exact requestUCommand_coherent (modeToUcmd_masked hcmd) (hslot ⟨_, rfl⟩)

theorem linkDownStart_coherent {len : Nat} {parked : Bool} (h : l.ApiCoherent len parked)
    (hslot : l.p.ssState.stConn = true → (l.s.flags.pri = true ∨ l.s.mode = .abm) →
      l.p.umApiFrame = none) : (linkDownStart l).1.ApiCoherent len parked := by
  simp only [linkDownStart]
  split
  · exact h
  next hconn =>
    split
    · exact h
    next hmay =>
      have hmasked : IOHDLC_U_DISC &&& IOHDLC_U_FUN_MASK = IOHDLC_U_DISC := rfl
      rw [Bool.not_eq_true', Bool.not_eq_false] at hconn
      refine requestUCommand_coherent hmasked (hslot hconn ?_)
      rw [not_and_or, not_not, Bool.not_eq_true', Bool.not_eq_false] at hmay
      exact hmay

/-- An accepted TEST has the slot for itself. -/
theorem peerTestStart_coherent {len : Nat} {take : Option Frame}
    (h : (peerTestStart l len take).2.isOk = true) :
    (peerTestStart l len take).1.ApiCoherent len false := by
  revert h
  simp only [peerTestStart]
  split
  · rintro ⟨⟩
  split
  · rintro ⟨⟩
  next hlen =>
    split
    · rintro ⟨⟩
    next fp =>
      split
      · rintro ⟨⟩
      · intro _
        rw [not_or, Nat.not_lt, Nat.not_lt] at hlen
        have hmasked : IOHDLC_U_TEST &&& IOHDLC_U_FUN_MASK = IOHDLC_U_TEST := rfl
        refine ⟨hmasked, fun _ fp' hfp' => ⟨?_, .inl rfl⟩, by simp⟩
        obtain rfl : testCommand l.s l.p fp len = fp' := Option.some.inj hfp'
        exact testCommand_carries l.s l.p fp hlen.2

theorem peerTestStart_refused {len : Nat} {take : Option Frame}
    (h : (peerTestStart l len take).2.isOk = false) : (peerTestStart l len take).1 = l := by
  revert h
  simp only [peerTestStart]
  split
  · exact fun _ => rfl
  split
  · exact fun _ => rfl
  split
  · exact fun _ => rfl
  split
  · exact fun _ => rfl
  · rintro ⟨⟩

theorem peerTestExpire_keepsUm (l : Link) : l.KeepsUm (peerTestExpire l) := by
  rcases peerTestExpire_eq l with h | h | ⟨-, h⟩ <;> rw [h]
  · exact .refl l
  · exact ⟨rfl, nofun, .inl ⟨rfl, id⟩⟩
  · exact ⟨rfl, nofun, .inr ⟨rfl, rfl⟩⟩

theorem sTakeCompletedTestFrame_keepsUm (l : Link) : l.KeepsUm (sTakeCompletedTestFrame l).1 := by
  rw [sTakeCompletedTestFrame]
  split
  · exact .refl l
  · exact ⟨rfl, by simp, .inl ⟨rfl, id⟩⟩

/-- But for a TEST that is accepted, a thread leaves the slot alone or empties it. -/
theorem PeerOp.apply_keepsUm {op : PeerOp} {w : WriterPc} {r : Link × WriterPc}
    (h : op.apply l w = some r)
    (hno : ∀ len take, op = .peerTest len take → (peerTestStart l len take).2.isOk = false) :
    l.KeepsUm r.1 := by
  cases op with
  | writeBegin octets =>
    cases w <;> simp only [PeerOp.apply, reduceCtorEq, Option.some.injEq] at h
    subst h
    rw [IoHdlc.writeBegin]
    split
    · exact .refl l
    · exact .of_eq rfl rfl rfl rfl
  | writeReserve timedOut take =>
    cases w <;> simp only [PeerOp.apply, reduceCtorEq, Option.some.injEq] at h
    subst h
    simp only [IoHdlc.writeReserve]
    repeat' split
    all_goals exact .of_eq rfl rfl rfl rfl
  | writeInsert =>
    cases w <;> simp only [PeerOp.apply, reduceCtorEq, Option.some.injEq] at h
    subst h
    simp only [IoHdlc.writeInsert]
    repeat' split
    all_goals exact .of_eq rfl rfl rfl rfl
  | writeDone =>
    cases w <;> simp only [PeerOp.apply, reduceCtorEq, Option.some.injEq] at h
    subst h
    exact .of_eq rfl rfl rfl rfl
  | read =>
    simp only [PeerOp.apply] at h
    split at h
    · cases h
      exact .of_eq rfl rfl rfl rfl
    · cases h
  | replyTimer =>
    cases h
    rw [Endpoint.replyTimerExpiry]
    split
    · exact .of_eq rfl rfl rfl rfl
    · exact .refl l
  | t3Timer =>
    cases h
    rw [Endpoint.t3TimerExpiry]
    split
    · exact .of_eq rfl rfl rfl rfl
    · exact .refl l
  | uiSend value =>
    cases h
    rw [ioHdlcPeerUiSend]
    split
    · exact .refl l
    · exact .of_eq rfl rfl rfl rfl
  | uiGet =>
    cases h
    rw [ioHdlcPeerUiGet]
    split
    · exact .of_eq rfl rfl rfl rfl
    · exact .refl l
  | peerTest len take =>
    cases h
    rw [peerTestStart_refused (hno len take rfl)]
    exact .refl l
  | peerTestTake =>
    cases h
    exact sTakeCompletedTestFrame_keepsUm l
  | peerTestExpire =>
    cases h
    exact peerTestExpire_keepsUm l

end IoHdlc
