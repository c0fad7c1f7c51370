import IoHdlc.Core.Transmit

/-!
U frames: `handleUFrame`, and the two sections of `ioHdlcTxEntry` that send a U
command or a U response.

`ConnEffect` sums up what each of them does to the connection of the peer and to
the mode of the station.
-/

namespace IoHdlc

/-! ### Reception -/

def isConnectionUCommand (uCmd : UInt8) : Bool := uCmd = IOHDLC_U_SNRM || uCmd = IOHDLC_U_SABM

/-- `IOHDLC_UCMD_TO_MODE`. -/
def ucmdToMode (uCmd : UInt8) : Option Mode :=
  if uCmd = IOHDLC_U_SNRM then some .nrm
  else if uCmd = IOHDLC_U_SARM then some .arm
  else if uCmd = IOHDLC_U_SABM then some .abm
  else none

/-- `IOHDLC_MODE_TO_UCMD`. -/
def modeToUcmd : Mode → Option UInt8
  | .nrm => some IOHDLC_U_SNRM
  | .arm => some IOHDLC_U_SARM
  | .abm => some IOHDLC_U_SABM
  | _ => none

/-- `u_cmd`. -/
def uFunction (l : Link) (fp : Frame) : UInt8 := fp.ctrl l.s.framing 0 &&& IOHDLC_U_FUN_MASK

/-- `u_hdr_len`. -/
def uHdrLen (l : Link) : Nat := l.s.framing.frameOffset + 2

/-- A received UI value. -/
def receiveUi (l : Link) (fp : Frame) : Link :=
  if fp.elen < uHdrLen l ∨ fp.elen - uHdrLen l ≠ 4 then l
  else if l.p.isDisc then l
  else
    { s := l.s.broadcastFlagsApp .uiReceived
      p := { l.p with uiRxValue := fp.frame.slice (uHdrLen l) 4, uiRxPending := true } }

/-- Whether a U command is taken up. While one is being answered, or a FRMR condition
is on, only the way out of that condition is. -/
def acceptsUCommand (l : Link) (fp : Frame) : Bool :=
  let uCmd := uFunction l fp
  if (l.p.umState.rcved || l.p.frmrCondition) &&
      !(l.p.frmrCondition && (isConnectionUCommand uCmd || uCmd = IOHDLC_U_DISC)) then false
  else if uCmd = IOHDLC_U_TEST ∧ fp.elen < uHdrLen l then false
  else !(uCmd = IOHDLC_U_TEST && l.p.umState.sent && l.p.umCmd ≠ IOHDLC_U_TEST)

/-- The command and its P bit are registered. -/
def registerUCommand (l : Link) (uCmd : UInt8) (hasPf : Bool) : Link :=
  { s := { l.s with pfState := { l.s.pfState with pRcved := l.s.pfState.pRcved || hasPf } }
    p := { l.p with
      frmrCondition := false
      umState := { l.p.umState with rcved := false }
      umCmd := if uCmd ≠ IOHDLC_U_TEST ∨ !l.p.umState.sent then uCmd else l.p.umCmd } }

/-- `resetPeerVars` and `ioHdlcSetConnected`. -/
def reopenPeer (l : Link) : Link := ioHdlcSetConnected { l with p := resetPeerVars l.p }

/-- What a registered command does, with the response it asks for. -/
def serveUCommand (l : Link) (fp : Frame) : Link :=
  let uCmd := uFunction l fp
  match ucmdToMode uCmd with
  | some om =>
    let l := reopenPeer { l with s := applyModeState { l.s with mode := om } om }
    { s := l.s.broadcastFlagsApp .linkUp, p := { l.p with umRsp := IOHDLC_U_UA } }
  | none =>
    if uCmd = IOHDLC_U_DISC then
      { l with p := { l.p with umRsp := if l.s.isDisc then IOHDLC_U_DM else IOHDLC_U_UA } }
    else if uCmd = IOHDLC_U_TEST ∧ fp.elen - uHdrLen l ≤ l.p.mifls then
      { l with p := { l.p with umRsp := IOHDLC_U_TEST, umRspFrame := some fp } }
    else { l with p := { l.p with umRsp := IOHDLC_U_DM } }

/-- The response is up to the TX worker. -/
def requestUResponse (l : Link) : Link :=
  { s := l.s.broadcastFlags {.umRecvd}
    p := { l.p with umState := { l.p.umState with rcved := true } } }

def receiveUCommand (l : Link) (fp : Frame) : Link :=
  if acceptsUCommand l fp then
    requestUResponse
      (serveUCommand (registerUCommand l (uFunction l fp) (getPF l.s.framing fp)) fp)
  else l

/-- Whether a U response answers the command under way. -/
def matchesUResponse (l : Link) (fp : Frame) : Bool := l.p.umState.sent && getPF l.s.framing fp

/-- What a response to a command other than TEST does. -/
def serveUResponse (l : Link) (uCmd : UInt8) : Link :=
  let cmd := l.p.umCmd
  if uCmd = IOHDLC_U_UA then
    let l :=
      if cmd = IOHDLC_U_DISC then closePeerOrderly l
      else
        ioHdlcSetConnected { s := applyModeState l.s l.s.mode, p := resetPeerVars l.p }
    let l := { s := l.s.broadcastFlags {.linkStChg, .linkReq}, p := resetPeerUm l.p }
    if cmd ≠ IOHDLC_U_DISC then { l with s := l.s.broadcastFlagsApp .linkUp } else l
  else if uCmd = IOHDLC_U_DM then
    let l :=
      if cmd = IOHDLC_U_DISC then closePeerOrderly l
      else
        let l := ioHdlcSetDisconnected l .neutral
        { l with p := resetPeerUm l.p }
    let l := { l with s := l.s.broadcastFlags {.linkStChg, .linkReq} }
    if cmd ≠ IOHDLC_U_DISC then { l with s := l.s.broadcastFlagsApp .linkRefused } else l
  else if uCmd = IOHDLC_U_FRMR then
    { s := l.s.broadcastFlagsApp .frmrReceived, p := resetPeerUm l.p }
  else l

/-- A TEST response goes to the function that waits for it. -/
def serveTestResponse (l : Link) (fp : Frame) : Link :=
  { s := (l.s.broadcastFlags {.pfRecvd, .txIfrmEnq}).broadcastFlagsApp .internalTestDone
    p := resetPeerUm { l.p with umApiFrame := some fp } }

/-- The end of the handling of a response. -/
def finishUResponse (l : Link) (restartT3 : Bool) : Link :=
  { s := { l.s with pfState := { l.s.pfState with fRcved := true } }
    p := { l.p with
      t3Tmr :=
        if restartT3 && l.s.isNrmPrimary && !l.p.isDisc then l.p.t3Tmr.set (idlePollTimeoutMs l.s)
        else l.p.t3Tmr
      umState := { l.p.umState with sent := false } } }

def receiveUResponse (l : Link) (fp : Frame) : Link :=
  if matchesUResponse l fp then
    let uCmd := uFunction l fp
    let isTest := l.p.umCmd = IOHDLC_U_TEST
    let l := { l with p := { l.p with replyTmr := l.p.replyTmr.reset } }
    let l := if isTest then serveTestResponse l fp else serveUResponse l uCmd
    finishUResponse l (isTest ∨ uCmd = IOHDLC_U_UA)
  else l

def handleUFrame (l : Link) (fp : Frame) : Link :=
  let addr := (fp.addr l.s.framing).toUInt32
  let isCommand := addr = l.s.addr
  if ¬isCommand ∧ addr ≠ l.p.addr then l
  else if uFunction l fp = IOHDLC_U_UI then receiveUi l fp
  else if isCommand then receiveUCommand l fp
  else receiveUResponse l fp

/-! ### Transmission -/

/-- How the section for U commands ends. -/
inductive UCommandEnd where
  | drop | linkDown | wait | go
  deriving DecidableEq, Repr

structure UCommandStep where
  link : Link
  sent : Option Frame
  next : UCommandEnd

/-- A secondary sends no U command but a prepared TEST. -/
def mayOriginateUCommand (l : Link) : Bool :=
  l.s.flags.pri || (l.p.umCmd = IOHDLC_U_TEST && l.p.umApiFrame.isSome)

/-- In TWA a station that connects need not wait for an F bit. -/
def presetF (l : Link) : Link :=
  { l with s := { l.s with pfState := { l.s.pfState with
      fRcved := l.s.pfState.fRcved ||
        (l.p.isDisc && l.s.flags.twa && isConnectionUCommand l.p.umCmd) } } }

/-- The timers and the state after a U command went out. -/
def uCommandSent (l : Link) : Link :=
  let test := l.p.umCmd = IOHDLC_U_TEST
  let l := if test then
      { l with p := { l.p with
        t3Tmr := if l.s.isNrmPrimary then l.p.t3Tmr.reset else l.p.t3Tmr } }
    else restartIFrameReplyTimer l
  let l := startPollReplyTimerIf l ¬test
  { s := { l.s with pfState := { l.s.pfState with fRcved := false } }
    p := { l.p with umApiFrame := none, umState := { l.p.umState with sent := true } } }

/-- The section for U commands; `timedOut` if the reply timer brought it here. -/
def sendUCommand (l : Link) (timedOut : Bool) (take : Option Frame) : UCommandStep :=
  if mayOriginateUCommand l then
    let r := if timedOut && l.p.umCmd ≠ IOHDLC_U_TEST then handleTimeoutRetry l else (l, true)
    if r.2 then
      let l := presetF r.1
      if sendOpportunity l.s then
        match l.p.umApiFrame <|> take.map (ioHdlcBuildUFrame l.s l.p · l.p.umCmd true true) with
        | some fp => { link := uCommandSent l, sent := some fp, next := .go }
        | none => { link := l, sent := none, next := .go }
      else { link := l, sent := none, next := .wait }
    else { link := r.1, sent := none, next := .linkDown }
  else { link := l, sent := none, next := .drop }

/-- The frame of a U response. -/
def uResponseFrame (l : Link) (setf : Bool) (take : Option Frame) : Option Frame :=
  if l.p.umRsp = IOHDLC_U_TEST then
    l.p.umRspFrame.map fun rf =>
      let fp := ioHdlcBuildUFrame l.s l.p rf IOHDLC_U_TEST setf false
      { fp with elen := u16 (fp.elen + (rf.elen - uHdrLen l)) }
  else
    take.map fun fp =>
      if l.p.umRsp = IOHDLC_U_FRMR then buildFrmrResponse l.s l.p fp setf
      else ioHdlcBuildUFrame l.s l.p fp l.p.umRsp setf false

/-- A received DISC takes effect when its response has gone out. -/
def uResponseSent (l : Link) : Link :=
  if l.p.umCmd = IOHDLC_U_TEST then
    { l with p := { l.p with umCmd := if l.p.umState.sent then l.p.umCmd else 0, umRsp := 0 } }
  else if l.p.umCmd = IOHDLC_U_DISC then closePeerOrderly l
  else l

/-- The section for U responses. -/
def sendUResponse (l : Link) (take : Option Frame) : Link × Option Frame :=
  let fp := uResponseFrame l l.s.pfState.pRcved take
  let l : Link :=
    { s := { l.s with pfState := { l.s.pfState with pRcved := false } }
      p := { l.p with
        umState := { l.p.umState with rcved := false }
        umRspFrame := if l.p.umRsp = IOHDLC_U_TEST then none else l.p.umRspFrame } }
  match fp with
  | some fp => (uResponseSent (restartIFrameReplyTimer l), some fp)
  | none => (l, none)

/-! ### What they do to the connection -/

/-- Whether a received U frame completes a set-mode transaction. -/
def opensLink (l : Link) (fp : Frame) : Bool :=
  let addr := (fp.addr l.s.framing).toUInt32
  if uFunction l fp = IOHDLC_U_UI then false
  else if addr = l.s.addr then acceptsUCommand l fp && (ucmdToMode (uFunction l fp)).isSome
  else
    addr = l.p.addr && matchesUResponse l fp && uFunction l fp = IOHDLC_U_UA &&
      l.p.umCmd ≠ IOHDLC_U_TEST && l.p.umCmd ≠ IOHDLC_U_DISC

/-- Whether a received U frame is a DM that the code takes for a refusal. -/
def refusesLink (l : Link) (fp : Frame) : Bool :=
  let addr := (fp.addr l.s.framing).toUInt32
  addr ≠ l.s.addr && addr = l.p.addr && matchesUResponse l fp && uFunction l fp = IOHDLC_U_DM &&
    l.p.umCmd ≠ IOHDLC_U_TEST && l.p.umCmd ≠ IOHDLC_U_DISC

/-- Whether a received U frame answers a DISC. -/
def disconnectsLink (l : Link) (fp : Frame) : Bool :=
  let addr := (fp.addr l.s.framing).toUInt32
  addr ≠ l.s.addr && addr = l.p.addr && matchesUResponse l fp && l.p.umCmd = IOHDLC_U_DISC &&
    (uFunction l fp = IOHDLC_U_UA || uFunction l fp = IOHDLC_U_DM)

/-- The receive handler of a mode. -/
def rxFnOf : Mode → Option RxFn
  | .nrm => some .ioHdlcNrmRx
  | .abm => some .ioHdlcAbmRx
  | _ => none

/-- The mode that a frame which opens the connection leaves. -/
def openedMode (l : Link) (fp : Frame) : Mode :=
  if (fp.addr l.s.framing).toUInt32 = l.s.addr then (ucmdToMode (uFunction l fp)).getD l.s.mode
  else l.s.mode

/-- The connection and the mode are as they were. -/
structure Link.SameConn (l l' : Link) : Prop where
  stConn : l'.p.ssState.stConn = l.p.ssState.stConn
  connectedCount : l'.s.connectedCount = l.s.connectedCount
  mode : l'.s.mode = l.s.mode
  rxFn : l'.s.rxFn = l.s.rxFn

/-- The peer is connected and counted, whether or not it was before. -/
structure Link.Opens (l : Link) (om : Mode) (l' : Link) : Prop where
  stConn : l'.p.ssState.stConn = true
  connectedCount : l'.s.connectedCount = l.s.connectedCount + 1
  mode : l'.s.mode = om
  rxFn : l'.s.rxFn = rxFnOf om

/-- The end of a connection that leaves the mode alone. -/
structure Link.Refused (l l' : Link) : Prop where
  stConn : l'.p.ssState.stConn = false
  connectedCount : l'.s.connectedCount =
    if l.p.ssState.stConn then l.s.connectedCount - 1 else l.s.connectedCount
  mode : l'.s.mode = l.s.mode
  rxFn : l'.s.rxFn = l.s.rxFn

inductive Link.ConnEffect (l l' : Link) : Prop
  | same (h : l.SameConn l')
  | opens (om : Mode) (h : l.Opens om l')
  | closes (h : l.Closes l')
  | refused (h : l.Refused l')

section Effects

variable {l l' l'' : Link}

theorem Link.SameConn.refl (l : Link) : l.SameConn l := ⟨rfl, rfl, rfl, rfl⟩

theorem Link.Keeps.sameConn (h : l.Keeps l') : l.SameConn l' :=
  ⟨h.stConn, h.connectedCount, h.mode, h.rxFn⟩

theorem Link.SameConn.trans (h : l.SameConn l') (h' : l'.SameConn l'') : l.SameConn l'' :=
  ⟨h'.stConn.trans h.stConn, h'.connectedCount.trans h.connectedCount, h'.mode.trans h.mode,
    h'.rxFn.trans h.rxFn⟩

theorem Link.SameConn.closes (h : l.SameConn l') (h' : l'.Closes l'') : l.Closes l'' :=
  { stConn := h'.stConn
    connectedCount := by rw [h'.connectedCount, h.stConn, h.connectedCount]
    mode := by rw [h'.mode, h.mode]
    rxFn := by rw [h'.rxFn, h.rxFn] }

theorem Link.Closes.sameConn (h : l.Closes l') (h' : l'.SameConn l'') : l.Closes l'' :=
  { stConn := h'.stConn.trans h.stConn
    connectedCount := h'.connectedCount.trans h.connectedCount
    mode := by rw [h'.mode, h'.connectedCount, h.mode]
    rxFn := by rw [h'.rxFn, h'.connectedCount, h.rxFn] }

theorem applyModeState_rxFn (s : Station) (mode : Mode) :
    (applyModeState s mode).rxFn = rxFnOf mode := by
  cases mode <;> rfl

theorem reopenPeer_opens (l : Link) (mode : Mode) (hmode : l.s.mode = mode)
    (hrx : l.s.rxFn = rxFnOf mode) : l.Opens mode (reopenPeer l) :=
  ⟨rfl, rfl, hmode, hrx⟩

theorem serveUCommand_cases (l : Link) (fp : Frame) :
    (∃ om, ucmdToMode (uFunction l fp) = some om ∧ l.Opens om (serveUCommand l fp)) ∨
      (ucmdToMode (uFunction l fp) = none ∧ l.SameConn (serveUCommand l fp)) := by
  simp only [serveUCommand]
  cases hom : ucmdToMode (uFunction l fp) with
  | some om =>
    have hopen := reopenPeer_opens { l with s := applyModeState { l.s with mode := om } om } om rfl
      (applyModeState_rxFn _ om)
    exact .inl ⟨om, rfl, hopen.stConn, hopen.connectedCount, hopen.mode, hopen.rxFn⟩
  | none =>
    refine .inr ⟨rfl, ?_⟩
    dsimp only
    split
    · exact ⟨rfl, rfl, rfl, rfl⟩
    · split
      · exact ⟨rfl, rfl, rfl, rfl⟩
      · exact ⟨rfl, rfl, rfl, rfl⟩

/-- An accepted command opens the connection or leaves it alone. -/
theorem receiveUCommand_cases (l : Link) (fp : Frame) :
    (acceptsUCommand l fp = true ∧ ∃ om, ucmdToMode (uFunction l fp) = some om ∧
        l.Opens om (receiveUCommand l fp)) ∨
      ((acceptsUCommand l fp && (ucmdToMode (uFunction l fp)).isSome) = false ∧
        l.SameConn (receiveUCommand l fp)) := by
  rw [receiveUCommand]
  split
  next hacc =>
    rcases serveUCommand_cases (registerUCommand l (uFunction l fp) (getPF l.s.framing fp)) fp with
      ⟨om, hom, hopen⟩ | ⟨hom, hsame⟩
    · exact .inl ⟨hacc, om, hom, hopen.stConn, hopen.connectedCount, hopen.mode, hopen.rxFn⟩
    · refine .inr ⟨?_, hsame.stConn, hsame.connectedCount, hsame.mode, hsame.rxFn⟩
      change ucmdToMode (uFunction l fp) = none at hom
      rw [hom, Option.isSome_none, Bool.and_false]
  next hacc =>
    exact .inr ⟨by rw [Bool.eq_false_iff.mpr hacc, Bool.false_and], .refl l⟩

theorem ioHdlcSetDisconnected_refused (l : Link) (p : Peer)
    (hp : p.ssState.stConn = l.p.ssState.stConn) :
    l.Refused (ioHdlcSetDisconnected ⟨l.s, p⟩ .neutral) := by
  refine ⟨rfl, ?_, rfl, rfl⟩
  rw [← hp]
  rfl

/-- A response to a command other than TEST. -/
theorem serveUResponse_cases (l : Link) (uCmd : UInt8) :
    (uCmd = IOHDLC_U_UA ∧ l.p.umCmd ≠ IOHDLC_U_DISC ∧ l.Opens l.s.mode (serveUResponse l uCmd)) ∨
      ((uCmd = IOHDLC_U_UA ∨ uCmd = IOHDLC_U_DM) ∧ l.p.umCmd = IOHDLC_U_DISC ∧
        l.Closes (serveUResponse l uCmd)) ∨
      (uCmd = IOHDLC_U_DM ∧ l.p.umCmd ≠ IOHDLC_U_DISC ∧ l.Refused (serveUResponse l uCmd)) ∨
      (uCmd ≠ IOHDLC_U_UA ∧ uCmd ≠ IOHDLC_U_DM ∧ l.SameConn (serveUResponse l uCmd)) := by
  simp only [serveUResponse]
  by_cases hua : uCmd = IOHDLC_U_UA
  · rw [if_pos hua]
    by_cases hdisc : l.p.umCmd = IOHDLC_U_DISC
    · have hclose := closePeerOrderly_closes l
      rw [if_pos hdisc, if_neg (not_not.mpr hdisc)]
      exact .inr (.inl ⟨.inl hua, hdisc, hclose.stConn, hclose.connectedCount, hclose.mode,
        hclose.rxFn⟩)
    · rw [if_neg hdisc, if_pos hdisc]
      exact .inl ⟨hua, hdisc, rfl, rfl, rfl, applyModeState_rxFn l.s l.s.mode⟩
  · rw [if_neg hua]
    by_cases hdm : uCmd = IOHDLC_U_DM
    · rw [if_pos hdm]
      by_cases hdisc : l.p.umCmd = IOHDLC_U_DISC
      · have hclose := closePeerOrderly_closes l
        rw [if_pos hdisc, if_neg (not_not.mpr hdisc)]
        exact .inr (.inl ⟨.inr hdm, hdisc, hclose.stConn, hclose.connectedCount, hclose.mode,
          hclose.rxFn⟩)
      · have hrefuse := ioHdlcSetDisconnected_refused l l.p rfl
        rw [if_neg hdisc, if_pos hdisc]
        exact .inr (.inr (.inl ⟨hdm, hdisc, hrefuse.stConn, hrefuse.connectedCount, hrefuse.mode,
          hrefuse.rxFn⟩))
    · rw [if_neg hdm]
      refine .inr (.inr (.inr ⟨hua, hdm, ?_⟩))
      split
      · exact ⟨rfl, rfl, rfl, rfl⟩
      · exact .refl l

/-- What a received U frame does to the connection, by what the frame says. -/
theorem handleUFrame_cases (l : Link) (fp : Frame) :
    (opensLink l fp = true ∧ l.Opens (openedMode l fp) (handleUFrame l fp)) ∨
      (disconnectsLink l fp = true ∧ l.Closes (handleUFrame l fp)) ∨
      (refusesLink l fp = true ∧ l.Refused (handleUFrame l fp)) ∨
      (opensLink l fp = false ∧ l.SameConn (handleUFrame l fp)) := by
  simp only [handleUFrame, opensLink, disconnectsLink, refusesLink, openedMode]
  by_cases haddr : (fp.addr l.s.framing).toUInt32 = l.s.addr
  · simp only [haddr, not_true_eq_false, false_and, if_false, if_true]
    by_cases hui : uFunction l fp = IOHDLC_U_UI
    · simp only [hui, if_true]
      refine .inr (.inr (.inr ⟨trivial, ?_⟩))
      simp only [receiveUi]
      split
      · exact .refl l
      split
      · exact .refl l
      · exact ⟨rfl, rfl, rfl, rfl⟩
    · simp only [hui, if_false]
      rcases receiveUCommand_cases l fp with ⟨hacc, om, hom, hopen⟩ | ⟨hnot, hsame⟩
      · refine .inl ⟨by rw [hacc, hom]; rfl, ?_⟩
        rw [hom]
        exact hopen
      · exact .inr (.inr (.inr ⟨hnot, hsame⟩))
  · by_cases hpeer : (fp.addr l.s.framing).toUInt32 = l.p.addr
    · simp only [hpeer, ne_eq, not_true_eq_false, and_false, if_false]
      by_cases hui : uFunction l fp = IOHDLC_U_UI
      · simp only [hui, if_true]
        refine .inr (.inr (.inr ⟨trivial, ?_⟩))
        simp only [receiveUi]
        split
        · exact .refl l
        split
        · exact .refl l
        · exact ⟨rfl, rfl, rfl, rfl⟩
      · rw [hpeer] at haddr
        simp only [hui, haddr, if_false, receiveUResponse]
        by_cases hmatch : matchesUResponse l fp = true
        · by_cases htest : l.p.umCmd = IOHDLC_U_TEST
          · simp only [hmatch, htest, if_true]
            exact .inr (.inr (.inr ⟨by simp, rfl, rfl, rfl, rfl⟩))
          · simp only [hmatch, htest, if_true, if_false]
            rcases serveUResponse_cases
              { l with p := { l.p with replyTmr := l.p.replyTmr.reset } } (uFunction l fp) with
              ⟨hua, hcmd, h⟩ | ⟨hfun, hcmd, h⟩ | ⟨hdm, hcmd, h⟩ | ⟨hua, -, h⟩
            · refine .inl ⟨?_, h.stConn, h.connectedCount, h.mode, h.rxFn⟩
              change l.p.umCmd ≠ IOHDLC_U_DISC at hcmd
              simp [hua, hcmd]
            · refine .inr (.inl ⟨?_, h.stConn, h.connectedCount, h.mode, h.rxFn⟩)
              change l.p.umCmd = IOHDLC_U_DISC at hcmd
              rcases hfun with hfun | hfun <;> simp [hfun, hcmd]
            · refine .inr (.inr (.inl ⟨?_, h.stConn, h.connectedCount, h.mode, h.rxFn⟩))
              change l.p.umCmd ≠ IOHDLC_U_DISC at hcmd
              simp [hdm, hcmd]
            · exact .inr (.inr (.inr ⟨by simp [hua], h.stConn, h.connectedCount, h.mode, h.rxFn⟩))
        · rw [Bool.not_eq_true] at hmatch
          simp only [hmatch, Bool.false_eq_true, if_false]
          exact .inr (.inr (.inr ⟨by simp, .refl l⟩))
    · simp only [haddr, hpeer, not_false_eq_true, ne_eq, and_self, if_true]
      exact .inr (.inr (.inr ⟨by simp, .refl l⟩))

/-- Whether the section for U commands gives the link up. -/
def exhaustsUCommand (l : Link) (timedOut : Bool) : Bool :=
  mayOriginateUCommand l && timedOut && l.p.umCmd ≠ IOHDLC_U_TEST &&
    l.p.pollRetryCount ≥ l.p.pollRetryMax

theorem uCommandSent_sameConn (l : Link) : l.SameConn (uCommandSent l) := by
  simp only [uCommandSent]
  split <;> exact ⟨rfl, rfl, rfl, rfl⟩

theorem handleTimeoutRetry_snd (l : Link) :
    (handleTimeoutRetry l).2 = decide (l.p.pollRetryCount < l.p.pollRetryMax) := by
  rw [handleTimeoutRetry]
  split
  next h => exact (decide_eq_false (UInt8.not_lt.mpr h)).symm
  next h => exact (decide_eq_true (UInt8.not_le.mp h)).symm

/-- What the section for U commands does before it looks for an opportunity. -/
def retryUCommand (l : Link) (timedOut : Bool) : Link :=
  presetF { l with p := { l.p with
    pollRetryCount :=
      if timedOut && l.p.umCmd ≠ IOHDLC_U_TEST then l.p.pollRetryCount + 1
      else l.p.pollRetryCount } }

/-- The section for U commands of a station that may send one and does not give up. -/
theorem sendUCommand_eq (l : Link) (timedOut : Bool) (take : Option Frame)
    (hmay : mayOriginateUCommand l = true) (hex : exhaustsUCommand l timedOut = false) :
    sendUCommand l timedOut take =
      let r := retryUCommand l timedOut
      if sendOpportunity r.s then
        match r.p.umApiFrame <|> take.map (ioHdlcBuildUFrame r.s r.p · r.p.umCmd true true) with
        | some fp => { link := uCommandSent r, sent := some fp, next := .go }
        | none => { link := r, sent := none, next := .go }
      else { link := r, sent := none, next := .wait } := by
  simp only [sendUCommand, hmay, if_true]
  by_cases hretry : (timedOut && l.p.umCmd ≠ IOHDLC_U_TEST) = true
  · rw [exhaustsUCommand, hmay, Bool.true_and, hretry, Bool.true_and, decide_eq_false_iff_not] at hex
    simp only [hretry, if_true, handleTimeoutRetry, if_neg hex, retryUCommand]
  · simp only [hretry, Bool.false_eq_true, if_false, if_true, retryUCommand]

/-- The section for U commands either aborts the link or leaves the connection alone. -/
theorem sendUCommand_cases (l : Link) (timedOut : Bool) (take : Option Frame) :
    (exhaustsUCommand l timedOut = true ∧ (sendUCommand l timedOut take).next = .linkDown ∧
        (sendUCommand l timedOut take).sent = none ∧
        l.Closes (sendUCommand l timedOut take).link) ∨
      (exhaustsUCommand l timedOut = false ∧ (sendUCommand l timedOut take).next ≠ .linkDown ∧
        l.SameConn (sendUCommand l timedOut take).link) := by
  simp only [sendUCommand, exhaustsUCommand]
  by_cases hmay : mayOriginateUCommand l = true
  · simp only [hmay, if_true, Bool.true_and]
    obtain ⟨r, hr⟩ : ∃ r, r = if timedOut && l.p.umCmd ≠ IOHDLC_U_TEST then handleTimeoutRetry l
        else (l, true) := ⟨_, rfl⟩
    rw [← hr]
    have hcases : (r.2 = false ∧ l.Closes r.1 ∧ (timedOut && l.p.umCmd ≠ IOHDLC_U_TEST &&
          l.p.pollRetryCount ≥ l.p.pollRetryMax) = true) ∨
        (r.2 = true ∧ l.SameConn r.1 ∧ (timedOut && l.p.umCmd ≠ IOHDLC_U_TEST &&
          l.p.pollRetryCount ≥ l.p.pollRetryMax) = false) := by
      by_cases hretry : (timedOut && l.p.umCmd ≠ IOHDLC_U_TEST) = true
      · rw [hr, hretry, if_pos rfl, handleTimeoutRetry_snd, Bool.true_and]
        rcases handleTimeoutRetry_cases l with ⟨hgo, hkeep⟩ | ⟨hgo, habort⟩
        · rw [handleTimeoutRetry_snd, decide_eq_true_eq] at hgo
          exact .inr ⟨decide_eq_true hgo, hkeep.toKeeps.sameConn,
            decide_eq_false (UInt8.not_le.mpr hgo)⟩
        · rw [handleTimeoutRetry_snd, decide_eq_false_iff_not] at hgo
          exact .inl ⟨decide_eq_false hgo, habort.toCloses, decide_eq_true (UInt8.not_lt.mp hgo)⟩
      · rw [hr, if_neg hretry, Bool.eq_false_iff.mpr hretry, Bool.false_and]
        exact .inr ⟨rfl, .refl l, rfl⟩
    rcases hcases with ⟨hgo, hclose, hex⟩ | ⟨hgo, hsame, hex⟩
    · simp only [hgo, Bool.false_eq_true, if_false]
      exact .inl ⟨hex, trivial, trivial, hclose⟩
    · simp only [hgo, if_true]
      refine .inr ⟨hex, ?_⟩
      have hpreset : l.SameConn (presetF r.1) :=
        ⟨hsame.stConn, hsame.connectedCount, hsame.mode, hsame.rxFn⟩
      split
      · split
        · exact ⟨nofun, hpreset.trans (uCommandSent_sameConn _)⟩
        · exact ⟨nofun, hpreset⟩
      · exact ⟨nofun, hpreset⟩
  · simp only [hmay, Bool.false_eq_true, if_false]
    exact .inr ⟨by simp, nofun, .refl l⟩

theorem uResponseSent_cases (l : Link) :
    (l.p.umCmd = IOHDLC_U_DISC ∧ l.Closes (uResponseSent l)) ∨ l.SameConn (uResponseSent l) := by
  rw [uResponseSent]
  split
  · exact .inr ⟨rfl, rfl, rfl, rfl⟩
  split
  next hdisc => exact .inl ⟨hdisc, closePeerOrderly_closes l⟩
  · exact .inr (.refl l)

/-- A sent response to a DISC closes the link, any other leaves the connection alone. -/
theorem sendUResponse_cases (l : Link) (take : Option Frame) :
    (l.p.umCmd = IOHDLC_U_DISC ∧ l.Closes (sendUResponse l take).1) ∨
      l.SameConn (sendUResponse l take).1 := by
  simp only [sendUResponse]
  split
  · rcases uResponseSent_cases (restartIFrameReplyTimer
        { s := { l.s with pfState := { l.s.pfState with pRcved := false } }
          p := { l.p with
            umState := { l.p.umState with rcved := false }
            umRspFrame := if l.p.umRsp = IOHDLC_U_TEST then none else l.p.umRspFrame } }) with
      ⟨hdisc, hclose⟩ | hsame
    · exact .inl ⟨hdisc, hclose.stConn, hclose.connectedCount, hclose.mode, hclose.rxFn⟩
    · exact .inr ⟨hsame.stConn, hsame.connectedCount, hsame.mode, hsame.rxFn⟩
  · exact .inr ⟨rfl, rfl, rfl, rfl⟩

end Effects

end IoHdlc
