import IoHdlc.Core.Endpoint
import IoHdlc.Core.Worker
import IoHdlc.Driver.Transmit

/-!
The calls of the application that change the state of a peer: `ioHdlcStationLinkUpEx`,
`ioHdlcStationLinkDownEx`, `ioHdlcPeerTest` and the two UI calls.

A call that waits is cut at its wait. What it does before it takes the lock goes
with the section behind.
-/

namespace IoHdlc

/-! ### Link management -/

/-- The request that the TX worker is to send. -/
def requestUCommand (p : Peer) (uCmd : UInt8) : Peer :=
  { p with
    umCmd := uCmd
    ssState := { p.ssState with termOrderly := false, termAborted := false } }

/-- How `ioHdlcStationLinkUpEx` goes on: it waits with the mode it restores on failure. -/
inductive LinkUpStart where
  | returns (result : Except Errno Unit)
  | waits (sMode : Mode)

/-- `ioHdlcStationLinkUpEx` up to its wait; `nrmOnly` is the constraint of the port. -/
def linkUpStart (l : Link) (mode : Mode) (nrmOnly : Bool) : Link × LinkUpStart :=
  if l.p.ssState.stConn then (l, .returns (.error .EISCONN))
  else if !l.s.flags.pri ∧ mode ≠ .abm then (l, .returns (.ok ()))
  else
    let l : Link := { l with s := { l.s with
      flags := { l.s.flags with pri := l.s.flags.pri || mode = .abm } } }
    if nrmOnly ∧ mode = .abm then (l, .returns (.error .ENOTSUP))
    else
      match modeToUcmd mode with
      | none => (l, .returns (.error .EINVAL))
      | some uCmd =>
        let s := { l.s with mode := if l.s.isDisc then mode else l.s.mode }
        ({ s := s.broadcastFlags {.linkReq}, p := requestUCommand l.p uCmd },
          .waits (if l.s.isDisc then l.s.mode else .unset))

/-- `ioHdlcStationLinkDownEx` up to its wait. -/
def linkDownStart (l : Link) : Link × Except Errno Unit :=
  if !l.p.ssState.stConn then (l, .error .ENOTCONN)
  else if !l.s.flags.pri ∧ l.s.mode ≠ .abm then (l, .ok ())
  else ({ s := l.s.broadcastFlags {.linkReq}, p := requestUCommand l.p IOHDLC_U_DISC }, .ok ())

/-! ### TEST -/

/-- `s_test_initiator_allowed`. -/
def sTestInitiatorAllowed (s : Station) : Bool :=
  if s.mode = .nrm ∨ s.mode = .ndm then s.flags.pri else s.mode = .abm ∨ s.mode = .adm

/-- `s_test_pattern_byte`. -/
def sTestPatternByte (index : Nat) : UInt8 :=
  0xA5 ^^^ UInt8.ofNat (index * 0x3D) ^^^ UInt8.ofNat (index / 2 ^ 8)

/-- The TEST command with its deterministic information field. -/
def testCommand (s : Station) (p : Peer) (fp : Frame) (len : Nat) : Frame :=
  ioHdlcBuildUFrameWithInfo s p fp IOHDLC_U_TEST true true ((List.range len).map sTestPatternByte)

/-- Whether the UM transaction slot or the P/F cycle is taken. -/
def testBusy (l : Link) : Bool :=
  l.p.umCmd ≠ 0 || l.p.umState.sent || l.p.umState.rcved || l.p.umApiFrame.isSome ||
    l.p.umRspFrame.isSome || l.p.frmrCondition ||
    ((l.s.mode = .nrm || l.s.mode = .abm) && !l.s.pfState.fRcved) ||
    (l.s.mode = .abm && l.s.pfState.pRcved)

/-- `ioHdlcPeerTest` up to its wait. -/
def peerTestStart (l : Link) (len : Nat) (take : Option Frame) : Link × Except Errno Unit :=
  if !sTestInitiatorAllowed l.s then (l, .error .ENOTSUP)
  else if len > l.p.mifls ∨ len > 2 ^ 16 - 1 - (l.s.framing.frameOffset + 2) then (l, .error .EMSGSIZE)
  else
    match take with
    | none => (l, .error .ENOMEM)
    | some fp =>
      if testBusy l then (l, .error .EBUSY)
      else
        ({ s := l.s.broadcastFlags {.linkReq}
           p := { l.p with
            umCmd := IOHDLC_U_TEST, umApiFrame := some (testCommand l.s l.p fp len) } }, .ok ())

/-- `s_take_completed_test_frame_locked`. -/
def sTakeCompletedTestFrame (l : Link) : Link × Option Frame :=
  if l.p.umCmd ≠ 0 ∨ l.p.umState.sent then (l, none)
  else ({ l with p := { l.p with umApiFrame := none } }, l.p.umApiFrame)

/-- `ioHdlcPeerTest` when its deadline has passed. -/
def peerTestExpire (l : Link) : Link :=
  match sTakeCompletedTestFrame l with
  | (l, some _) => l
  | (l, none) =>
    if l.p.umCmd = IOHDLC_U_TEST then
      { s := { l.s with
          pfState := { l.s.pfState with
            fRcved := l.s.pfState.fRcved || l.s.flags.pri || l.s.mode = .abm || l.s.mode = .adm }
          cmListener := l.s.cmListener ∪ {.txIfrmEnq} ∩ flagsMask }
        p := { l.p with
          umApiFrame := none
          umCmd := 0
          umState := { l.p.umState with sent := false }
          replyTmr := l.p.replyTmr.reset
          t3Tmr :=
            if l.s.isNrmPrimary && !l.p.isDisc then l.p.t3Tmr.set l.s.idlePollTimeoutMs
            else l.p.t3Tmr } }
    else l

/-- What `ioHdlcPeerTest` returns when it has the response: the checks behind the loop. -/
def peerTestResult (s : Station) (rsp : Frame) (len : Nat) : Except Errno Unit :=
  let frameHdrLen := s.framing.frameOffset + 2
  if rsp.elen < frameHdrLen then .error Errno.EIO
  else
    let infoLen := rsp.elen - frameHdrLen
    if rsp.ctrl s.framing 0 &&& IOHDLC_U_FUN_MASK ≠ IOHDLC_U_TEST ∨ infoLen ≠ len ∨
        rsp.frame.slice frameHdrLen infoLen ≠ (List.range infoLen).map sTestPatternByte then
      .error Errno.EIO
    else .ok ()

/-! ### UI -/

/-- `ioHdlcPeerUiSend`. -/
def ioHdlcPeerUiSend (l : Link) (value : List UInt8) : Link × Except Errno Unit :=
  if l.p.isDisc then (l, .error .ENOTCONN)
  else
    ({ s := l.s.broadcastFlags {.uiEnq}, p := { l.p with uiTxValue := value, uiTxPending := true } },
      .ok ())

/-- `ioHdlcPeerUiGet`. -/
def ioHdlcPeerUiGet (l : Link) : Link × Option (List UInt8) :=
  if l.p.uiRxPending then
    ({ l with p := { l.p with uiRxPending := false } }, some l.p.uiRxValue)
  else (l, none)

/-! ### What the calls do to the connection -/

section Effects

variable {l : Link}

theorem linkDownStart_sameConn (l : Link) : l.SameConn (linkDownStart l).1 := by
  simp only [linkDownStart]
  split
  · exact .refl l
  split
  · exact .refl l
  · exact ⟨rfl, rfl, rfl, rfl⟩

theorem peerTestStart_sameConn (l : Link) (len : Nat) (take : Option Frame) :
    l.SameConn (peerTestStart l len take).1 := by
  simp only [peerTestStart]
  split
  · exact .refl l
  split
  · exact .refl l
  split
  · exact .refl l
  split
  · exact .refl l
  · exact ⟨rfl, rfl, rfl, rfl⟩

theorem sTakeCompletedTestFrame_sameConn (l : Link) : l.SameConn (sTakeCompletedTestFrame l).1 := by
  rw [sTakeCompletedTestFrame]
  split
  · exact .refl l
  · exact ⟨rfl, rfl, rfl, rfl⟩

/-- An expired TEST leaves the peer as it is, or without its stored frame, or without the
command as well. -/
theorem peerTestExpire_eq (l : Link) :
    peerTestExpire l = l ∨ peerTestExpire l = { l with p := { l.p with umApiFrame := none } } ∨
      (l.p.umCmd = IOHDLC_U_TEST ∧ peerTestExpire l =
        { s := { l.s with
            pfState := { l.s.pfState with
              fRcved := l.s.pfState.fRcved || l.s.flags.pri || l.s.mode = .abm || l.s.mode = .adm }
            cmListener := l.s.cmListener ∪ {.txIfrmEnq} ∩ flagsMask }
          p := { l.p with
            umApiFrame := none
            umCmd := 0
            umState := { l.p.umState with sent := false }
            replyTmr := l.p.replyTmr.reset
            t3Tmr :=
              if l.s.isNrmPrimary && !l.p.isDisc then l.p.t3Tmr.set l.s.idlePollTimeoutMs
              else l.p.t3Tmr } }) := by
  rw [peerTestExpire, sTakeCompletedTestFrame]
  by_cases hpend : l.p.umCmd ≠ 0 ∨ l.p.umState.sent = true
  · rw [if_pos hpend]
    dsimp only
    split
    next htest => exact .inr (.inr ⟨htest, rfl⟩)
    · exact .inl rfl
  · rw [if_neg hpend]
    obtain ⟨hcmd, -⟩ := not_or.mp hpend
    cases hapi : l.p.umApiFrame with
    | some fp => exact .inr (.inl rfl)
    | none =>
      dsimp only
      rw [not_not] at hcmd
      rw [if_neg (by rw [hcmd]; decide)]
      exact .inr (.inl rfl)

theorem peerTestExpire_sameConn (l : Link) : l.SameConn (peerTestExpire l) := by
  have htake := sTakeCompletedTestFrame_sameConn l
  rw [peerTestExpire]
  split
  next l' fp heq =>
    rw [heq] at htake
    exact htake
  next l' heq =>
    rw [heq] at htake
    split
    · exact htake.trans ⟨rfl, rfl, rfl, rfl⟩
    · exact htake

/-- A LinkUp touches the connection only through the mode, and that only from a
disconnected mode. -/
theorem linkUpStart_cases (l : Link) (mode : Mode) (nrmOnly : Bool) :
    (∃ result, (linkUpStart l mode nrmOnly).2 = .returns result ∧
        l.SameConn (linkUpStart l mode nrmOnly).1) ∨
      (∃ sMode, (linkUpStart l mode nrmOnly).2 = .waits sMode ∧ l.p.ssState.stConn = false ∧
        (linkUpStart l mode nrmOnly).1.p.ssState.stConn = false ∧
        (linkUpStart l mode nrmOnly).1.s.connectedCount = l.s.connectedCount ∧
        (linkUpStart l mode nrmOnly).1.s.rxFn = l.s.rxFn ∧
        (l.s.isDisc = true ∧ sMode = l.s.mode ∧ (linkUpStart l mode nrmOnly).1.s.mode = mode ∧
            (mode = .nrm ∨ mode = .arm ∨ mode = .abm) ∨
          l.s.isDisc = false ∧ sMode = .unset ∧
            (linkUpStart l mode nrmOnly).1.s.mode = l.s.mode)) := by
  simp only [linkUpStart]
  split
  · exact .inl ⟨_, rfl, .refl l⟩
  next hconn =>
    split
    · exact .inl ⟨_, rfl, .refl l⟩
    split
    · exact .inl ⟨_, rfl, rfl, rfl, rfl, rfl⟩
    split
    · exact .inl ⟨_, rfl, rfl, rfl, rfl, rfl⟩
    next uCmd hcmd =>
      have hmode : mode = .nrm ∨ mode = .arm ∨ mode = .abm := by
        cases mode <;> simp [modeToUcmd] at hcmd ⊢
      have hdisc : l.p.ssState.stConn = false := Bool.eq_false_iff.mpr hconn
      refine .inr ⟨_, rfl, hdisc, hdisc, rfl, rfl, ?_⟩
      change (l.s.isDisc = true ∧ (if l.s.isDisc = true then l.s.mode else .unset) = l.s.mode ∧
          (if l.s.isDisc = true then mode else l.s.mode) = mode ∧ _) ∨
        (l.s.isDisc = false ∧ (if l.s.isDisc = true then l.s.mode else .unset) = .unset ∧
          (if l.s.isDisc = true then mode else l.s.mode) = l.s.mode)
      cases hd : l.s.isDisc
      · exact .inr ⟨rfl, rfl, rfl⟩
      · exact .inl ⟨rfl, rfl, rfl, hmode⟩

theorem ioHdlcPeerUiSend_sameConn (l : Link) (value : List UInt8) :
    l.SameConn (ioHdlcPeerUiSend l value).1 := by
  rw [ioHdlcPeerUiSend]
  split
  · exact .refl l
  · exact ⟨rfl, rfl, rfl, rfl⟩

theorem ioHdlcPeerUiGet_sameConn (l : Link) : l.SameConn (ioHdlcPeerUiGet l).1 := by
  rw [ioHdlcPeerUiGet]
  split
  · exact ⟨rfl, rfl, rfl, rfl⟩
  · exact .refl l

end Effects

end IoHdlc
