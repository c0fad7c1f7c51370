import IoHdlc.Core.Receive
import IoHdlc.Model.Decode

/-!
`ioHdlcConnectedTx`, cut where the source releases the lock of the peer.

Between two sections the other workers may run, so the place the scheduler has
reached is a value of its own, `TxPc`, together with the local variables that
live across the gap. A section takes a link to a `TxStep`: the link it leaves,
the frame it handed to the driver if any, and where it goes on.
-/

namespace IoHdlc

open Kit

/-! ### Permission to send -/

def nrmSendOpportunity (s : Station) : Bool :=
  if s.flags.pri then (if s.flags.twa then s.pfState.fRcved else true) else s.pfState.pRcved

def abmSendOpportunity (s : Station) : Bool := !s.flags.twa || s.flags.idl

def sendOpportunity (s : Station) : Bool :=
  if s.mode = .nrm ∨ s.mode = .ndm then nrmSendOpportunity s else abmSendOpportunity s

def responseShouldSetF (s : Station) (isLastFrame : Bool) : Bool :=
  if !s.pfState.pRcved then false
  else if s.mode = .abm ∨ s.mode = .arm then true
  else isLastFrame

/-- In ABM the address depends on whether a P bit is to be answered, in NRM on
the role of the station. -/
def sendsCommand (s : Station) : Bool := if s.mode = .abm then !s.pfState.pRcved else s.flags.pri

/-- The checkpoint reference and the P/F state after a frame with this P/F bit. -/
def ackPF (l : Link) (setPf isCommand : Bool) : Link :=
  { s := { l.s with pfState :=
      { pRcved := l.s.pfState.pRcved && !(setPf && !isCommand)
        fRcved := l.s.pfState.fRcved && !(setPf && isCommand) } }
    p := { l.p with
      vsAtlastPf :=
        if setPf ∧ (isCommand ∨ l.s.mode ≠ .abm ∨ l.s.pfState.fRcved) then l.p.vs
        else l.p.vsAtlastPf
      ssState := { l.p.ssState with needP := l.p.ssState.needP && !(setPf && isCommand) } } }

/-- The poll starts the reply timer. -/
def startPollReplyTimerIf (l : Link) (poll : Bool) : Link :=
  { l with p := { l.p with
      t3Tmr := if poll then (startPollReplyTimer l).p.t3Tmr else l.p.t3Tmr
      replyTmr := if poll then (startPollReplyTimer l).p.replyTmr else l.p.replyTmr } }

/-- In TWA of the asynchronous modes a frame other than an I frame restarts T3. -/
def restartIFrameReplyTimer (l : Link) : Link :=
  { l with p := { l.p with
      t3Tmr :=
        if iFrameReplyTimerUsed l.s && l.s.flags.twa then
          l.p.t3Tmr.restart (iFrameReplyTimeoutMs l.s)
        else l.p.t3Tmr } }

def outstanding (l : Link) : UInt32 := (l.p.vs - l.p.nr) &&& l.s.framing.modmask

/-- The link and the prepared frame; `take` is what `hdlcTakeFrame` answers. -/
def prepareSFrame (l : Link) (take : Option Frame) (sFun : UInt8) (isCommand : Bool) :
    Link × Option Frame :=
  if sendOpportunity l.s then
    let windowFull := outstanding l ≥ l.p.ks
    let noIFrame := l.p.iTransQ.isEmpty || windowFull
    let setPf :=
      if isCommand then
        if l.s.flags.twa then
          l.s.pfState.fRcved && (noIFrame || (l.p.ssState.busy && l.p.ssState.needP))
        else l.s.pfState.fRcved
      else responseShouldSetF l.s true
    match take with
    | some fp =>
      let fp := buildSFrame l.s l.p fp sFun l.p.vr setPf isCommand
      let l := startPollReplyTimerIf (ackPF l setPf isCommand) (setPf && isCommand)
      (restartIFrameReplyTimer l, some fp)
    | none => (l, none)
  else (l, none)

/-! ### The sections -/

/-- Where the scheduler is when it does not hold the lock. `iSent` is
`i_frame_sent`, `flags` is `cm_flags`; between two passes it is what the last one
returned. -/
inductive TxPc where
  | idle (flags : EvtFlags)
  | check (flags : EvtFlags)
  | iFrame (flags : EvtFlags) (iSent : Bool)
  | skipIFrames (flags : EvtFlags) (iSent : Bool)

structure TxStep where
  link : Link
  sent : Option Frame
  pc : TxPc
  /-- The current peer is to be changed. -/
  nextPeer : Bool

/-- Recovery after a timeout that allows a retry. -/
def timeoutRecovery (l : Link) : Link :=
  { s := { l.s with pfState := { l.s.pfState with fRcved := true } }
    p := { l.p with rejActioned := 0, ssState := { l.p.ssState with needP := true } } }

/-- Serves the timeouts; `none` if the link went down. -/
def serveReplyTimeout (l : Link) (flags : EvtFlags) : Link × Bool :=
  if .cRplytmo ∈ flags ∧ l.p.replyTmr.isExpired then
    let r := handleTimeoutRetry l
    if r.2 then (timeoutRecovery r.1, true) else (r.1, false)
  else (l, true)

def serveT3Timeout (l : Link) (flags : EvtFlags) : Link × Bool :=
  if .t3Tmo ∈ flags ∧ l.p.t3Tmr.isExpired then
    let l := { l with p := { l.p with t3Tmr := l.p.t3Tmr.reset } }
    if l.s.mode = .nrm then ({ l with p := setNeedP l.s l.p }, true)
    else
      match l.p.iRetransQ with
      | [] => (l, true)
      | _ :: _ =>
        let r := handleTimeoutRetry l
        if r.2 then (timeoutRecovery r.1, true) else (r.1, false)
  else (l, true)

/-- The link and the UI frame it hands to the driver. -/
def sendUi (l : Link) (take : Option Frame) : Link × Option Frame :=
  if l.p.uiTxPending && sendOpportunity l.s && !l.p.frmrCondition then
    match take with
    | some fp =>
      let fp :=
        ioHdlcBuildUFrameWithInfo l.s l.p fp IOHDLC_U_UI false (sendsCommand l.s) l.p.uiTxValue
      (restartIFrameReplyTimer { l with p := { l.p with uiTxPending := false } }, some fp)
    | none => (l, none)
  else (l, none)

/-- From the entry to the first release of the lock. -/
def connectedTxEntry (l : Link) (flags : EvtFlags) (take : Option Frame) : TxStep :=
  let flags := flags \ {.lineIdle}
  let r := serveReplyTimeout l flags
  let flags := flags \ {.cRplytmo}
  if r.2 then
    let r := serveT3Timeout r.1 flags
    let flags := flags \ {.t3Tmo}
    if r.2 then
      let r := sendUi r.1 take
      { link := r.1, sent := r.2, pc := .check flags, nextPeer := false }
    else { link := r.1, sent := none, pc := .idle flags, nextPeer := false }
  else { link := r.1, sent := none, pc := .idle flags, nextPeer := false }

/-- The test of `frmr_condition` outside the lock. -/
def connectedTxCheck (l : Link) (flags : EvtFlags) : TxStep :=
  { link := l
    sent := none
    pc := if l.p.frmrCondition then .skipIFrames flags false else .iFrame flags false
    nextPeer := false }

/-- `iohdlc_evt_get_and_clear_flags`. -/
def getAndClearFlags (l : Link) (flags : EvtFlags) : Link × EvtFlags :=
  ({ l with s := { l.s with cmListener := ∅ } }, flags ∪ l.s.cmListener)

/-- The flags that end a burst. -/
def urgentFlags : EvtFlags := {.umRecvd, .rnrRecvd, .poolStChg, .rejActed}

/-- The P/F bit of an I frame. -/
def iFrameSetPf (l : Link) (isCommand isLastFrame : Bool) : Bool :=
  !l.s.flags.busy &&
    (if isCommand then (if l.s.flags.twa then isLastFrame else l.s.pfState.fRcved)
    else responseShouldSetF l.s isLastFrame)

/-- `fp` was the head of `iTransQ` and is sent as `fp'`. -/
def enterRetransQ (l : Link) (fp' : Frame) (rest : List Frame) : Link :=
  { l with p := { l.p with
      iTransQ := rest
      iRetransQ := l.p.iRetransQ ++ [fp']
      vsHighest :=
        if l.p.vs = l.p.vsHighest then (l.p.vs + 1) &&& l.s.framing.modmask else l.p.vsHighest
      vs := (l.p.vs + 1) &&& l.s.framing.modmask
      t3ExpectedNr :=
        if iFrameReplyTimerUsed l.s then (l.p.vs + 1) &&& l.s.framing.modmask
        else l.p.t3ExpectedNr } }

def startIFrameReplyTimer (l : Link) : Link :=
  { l with p := { l.p with
      t3Tmr :=
        if iFrameReplyTimerUsed l.s then l.p.t3Tmr.set (iFrameReplyTimeoutMs l.s)
        else l.p.t3Tmr } }

/-- The head `fp` of `iTransQ` goes out, `rest` is behind it. -/
def transmitIFrame (l : Link) (fp : Frame) (rest : List Frame) : Link × Frame × Bool :=
  let isCommand := sendsCommand l.s
  let isLastFrame := outstanding l + 1 ≥ l.p.ks ∨ rest = []
  let setPf := iFrameSetPf l isCommand isLastFrame
  let fp' := (prepareIFrameHeader l.s fp (txAddr l.s l.p isCommand) l.p.vs l.p.vr setPf).1
  let l := ackPF (enterRetransQ l fp' rest) setPf isCommand
  (startIFrameReplyTimer (startPollReplyTimerIf l (setPf && isCommand)), fp', setPf)

/-- One round of the I-frame loop. -/
def connectedTxIFrame (l : Link) (flags : EvtFlags) (iSent : Bool) : TxStep :=
  match l.p.iTransQ with
  | [] => { link := l, sent := none, pc := .skipIFrames flags iSent, nextPeer := false }
  | fp :: rest =>
    if outstanding l ≥ l.p.ks ∨ !sendOpportunity l.s ∨ l.p.ssState.busy then
      { link := l, sent := none, pc := .skipIFrames flags iSent, nextPeer := false }
    else
      let r := getAndClearFlags l flags
      if .linkDown ∈ r.2 then
        { link := r.1, sent := none, pc := .idle (r.2 \ {.linkDown}), nextPeer := false }
      else
        let tx := transmitIFrame r.1 fp rest
        { link := tx.1
          sent := some tx.2.1
          pc :=
            if r.2 ∩ urgentFlags ≠ ∅ ∨ (l.s.flags.twa ∧ tx.2.2) then .skipIFrames r.2 true
            else .iFrame r.2 true
          nextPeer := false }

/-- The S frame that the last section sends, if any; `take i` is what
`hdlcTakeFrame` answers to the `i`-th request. -/
def chooseSFrame (l : Link) (iSent : Bool) (take : Nat → Option Frame) : Link × Option Frame :=
  let isCommand := sendsCommand l.s
  let r :=
    if l.p.ssState.rejpend then prepareSFrame l (take 0) IOHDLC_S_REJ isCommand else (l, none)
  match r with
  | (l, some fp) =>
    ({ l with p := { l.p with ssState := { l.p.ssState with rejpend := false } } }, some fp)
  | (l, none) =>
    let r :=
      if l.s.flags.busy && l.s.poolState = .normal then
        prepareSFrame l (take 1) IOHDLC_S_RR isCommand
      else (l, none)
    match r with
    | (l, some fp) => ({ l with s := { l.s with flags := { l.s.flags with busy := false } } }, some fp)
    | (l, none) =>
      if !iSent && (l.s.pfState.pRcved || (l.s.pfState.fRcved && l.p.ssState.needP)) then
        prepareSFrame l (take 2) (if l.s.flags.busy then IOHDLC_S_RNR else IOHDLC_S_RR) isCommand
      else (l, none)

/-- The flags that the last section has served. -/
def servedFlags (rejpend : Bool) : EvtFlags :=
  (if rejpend then {.rejActed} else ∅) ∪
    {.iRecvd, .rrRecvd, .rnrRecvd, .poolStChg, .txIfrmEnq, .pfRecvd, .xrejRecvd, .uiEnq}

/-- The section behind `skip_i_frames`. -/
def connectedTxSFrame (l : Link) (flags : EvtFlags) (iSent : Bool) (take : Nat → Option Frame) :
    TxStep :=
  let f := getAndClearFlags l flags
  let r := chooseSFrame f.1 iSent take
  { link := r.1
    sent := r.2
    pc := .idle (f.2 \ servedFlags l.p.ssState.rejpend)
    nextPeer := r.1.s.isNrmPrimary && r.1.s.pfState.fRcved && !r.1.p.frmrCondition &&
      r.1.p.iTransQ.isEmpty && r.1.p.iRetransQ.isEmpty }

/-! ### What a section leaves alone -/

/-- The transmit window is left alone as well. -/
structure Link.KeepsWindow (l l' : Link) : Prop extends l.KeepsRx l' where
  txWindow : l'.p.txWindow = l.p.txWindow

theorem Link.KeepsWindow.refl (l : Link) : l.KeepsWindow l := ⟨.refl l, rfl⟩

theorem Link.KeepsWindow.trans {l l' l'' : Link} (h : l.KeepsWindow l')
    (h' : l'.KeepsWindow l'') : l.KeepsWindow l'' :=
  ⟨h.toKeepsRx.trans h'.toKeepsRx, h'.txWindow.trans h.txWindow⟩

/-- What the end of the connection leaves of a link. -/
structure Link.Aborted (l l' : Link) : Prop extends l.Closes l' where
  framing : l'.s.framing = l.s.framing
  ks : l'.p.ks = l.p.ks
  frmrCondition : l'.p.frmrCondition = false

theorem Link.KeepsWindow.aborted {l l' l'' : Link} (h : l.KeepsWindow l') (h' : l'.Aborted l'') :
    l.Aborted l'' :=
  { stConn := h'.stConn
    connectedCount := by rw [h'.connectedCount, h.stConn, h.connectedCount]
    mode := by rw [h'.mode, h.mode]
    rxFn := by rw [h'.rxFn, h.rxFn]
    framing := h'.framing.trans h.framing
    ks := h'.ks.trans h.ks
    frmrCondition := h'.frmrCondition }

section Keeps

variable {l : Link}

theorem abortPeerLink_aborted (l : Link) : l.Aborted (abortPeerLink l) :=
  { toCloses := abortPeerLink_closes l
    framing := leaveModeIfLast_framing _
    ks := (congrArg Peer.ks (leaveModeIfLast_p _)).trans rfl
    frmrCondition := congrArg Peer.frmrCondition (leaveModeIfLast_p _) }

/-- A retry leaves the window alone, the last one ends the connection. -/
theorem handleTimeoutRetry_cases (l : Link) :
    ((handleTimeoutRetry l).2 = true ∧ l.KeepsWindow (handleTimeoutRetry l).1) ∨
      ((handleTimeoutRetry l).2 = false ∧ l.Aborted (handleTimeoutRetry l).1) := by
  rw [handleTimeoutRetry]
  split
  · refine .inr ⟨rfl, ?_⟩
    have habort := abortPeerLink_aborted { l with s := l.s.broadcastFlags {.linkDown} }
    dsimp only
    split
    all_goals
      exact ⟨⟨habort.stConn, habort.connectedCount, habort.mode, habort.rxFn⟩, habort.framing,
        habort.ks, habort.frmrCondition⟩
  · exact .inl ⟨rfl, .touched l, rfl⟩

theorem timeoutRecovery_keeps (l : Link) : l.KeepsWindow (timeoutRecovery l) :=
  ⟨.touched l, rfl⟩

theorem serveReplyTimeout_cases (l : Link) (flags : EvtFlags) :
    ((serveReplyTimeout l flags).2 = true ∧ l.KeepsWindow (serveReplyTimeout l flags).1) ∨
      ((serveReplyTimeout l flags).2 = false ∧ l.Aborted (serveReplyTimeout l flags).1) := by
  simp only [serveReplyTimeout]
  split
  · rcases handleTimeoutRetry_cases l with ⟨hr, hkeep⟩ | ⟨hr, habort⟩
    · rw [hr, if_pos rfl]
      exact .inl ⟨rfl, hkeep.trans (timeoutRecovery_keeps _)⟩
    · rw [hr, if_neg Bool.false_ne_true]
      exact .inr ⟨rfl, habort⟩
  · exact .inl ⟨rfl, .refl l⟩

theorem serveT3Timeout_cases (l : Link) (flags : EvtFlags) :
    ((serveT3Timeout l flags).2 = true ∧ l.KeepsWindow (serveT3Timeout l flags).1) ∨
      ((serveT3Timeout l flags).2 = false ∧ l.Aborted (serveT3Timeout l flags).1) := by
  have hstop : l.KeepsWindow { l with p := { l.p with t3Tmr := l.p.t3Tmr.reset } } :=
    ⟨.touched l, rfl⟩
  simp only [serveT3Timeout]
  split
  · split
    · exact .inl ⟨rfl, .touched l, rfl⟩
    · split
      · exact .inl ⟨rfl, hstop⟩
      · rcases handleTimeoutRetry_cases { l with p := { l.p with t3Tmr := l.p.t3Tmr.reset } } with
          ⟨hr, hkeep⟩ | ⟨hr, habort⟩
        · rw [hr, if_pos rfl]
          exact .inl ⟨rfl, hstop.trans (hkeep.trans (timeoutRecovery_keeps _))⟩
        · rw [hr, if_neg Bool.false_ne_true]
          exact .inr ⟨rfl, hstop.aborted habort⟩
  · exact .inl ⟨rfl, .refl l⟩

theorem restartIFrameReplyTimer_keeps (l : Link) : l.KeepsWindow (restartIFrameReplyTimer l) :=
  ⟨.touched l, rfl⟩

theorem sendUi_keeps (l : Link) (take : Option Frame) :
    l.KeepsWindow (sendUi l take).1 ∧ (l.p.uiTxPending = false → (sendUi l take).2 = none) := by
  have hclear : l.KeepsWindow { l with p := { l.p with uiTxPending := false } } := by
    refine ⟨?_, rfl⟩
    constructor
    · constructor <;> rfl
    all_goals first | rfl | exact nofun
  simp only [sendUi]
  split
  next hpend =>
    split
    · refine ⟨hclear.trans (restartIFrameReplyTimer_keeps _), fun h => ?_⟩
      simp [h] at hpend
    · exact ⟨.refl l, fun _ => rfl⟩
  · exact ⟨.refl l, fun _ => rfl⟩

theorem ackPF_keeps (l : Link) (setPf isCommand : Bool) :
    l.KeepsWindow (ackPF l setPf isCommand) :=
  ⟨.touched l, rfl⟩

theorem startPollReplyTimerIf_keeps (l : Link) (poll : Bool) :
    l.KeepsWindow (startPollReplyTimerIf l poll) :=
  ⟨.touched l, rfl⟩

theorem getAndClearFlags_keeps (l : Link) (flags : EvtFlags) :
    l.KeepsWindow (getAndClearFlags l flags).1 :=
  ⟨.touched l, rfl⟩

/-- A supervisory frame that acknowledges up to `V(R)`. -/
def Link.IsSFrame (l : Link) (fp : Frame) : Prop :=
  ∃ stale sFun setPf isCommand, (sFun = IOHDLC_S_RR ∨ sFun = IOHDLC_S_RNR ∨ sFun = IOHDLC_S_REJ) ∧
    fp = buildSFrame l.s l.p stale sFun l.p.vr setPf isCommand

/-- A request for an S frame that may be granted. -/
structure Link.Offers (l : Link) (r : Link × Option Frame) : Prop where
  keeps : l.KeepsWindow r.1
  sFrame : ∀ fp ∈ r.2, l.IsSFrame fp
  refused : r.2 = none → r.1 = l

theorem offers_none (l : Link) : l.Offers (l, none) := ⟨.refl l, nofun, fun _ => rfl⟩

theorem prepareSFrame_offers (l : Link) (take : Option Frame) {sFun : UInt8}
    (hf : sFun = IOHDLC_S_RR ∨ sFun = IOHDLC_S_RNR ∨ sFun = IOHDLC_S_REJ) (isCommand : Bool) :
    l.Offers (prepareSFrame l take sFun isCommand) := by
  simp only [prepareSFrame]
  split
  · split
    next stale =>
      refine ⟨(ackPF_keeps ..).trans ((startPollReplyTimerIf_keeps ..).trans
        (restartIFrameReplyTimer_keeps _)), fun fp hfp => ?_, nofun⟩
      obtain rfl := Option.mem_some_iff.mp hfp
      exact ⟨stale, sFun, _, isCommand, hf, rfl⟩
    · exact offers_none l
  · exact offers_none l

/-- A request that is made under a condition. -/
theorem Link.Offers.ite {l : Link} {r : Link × Option Frame} (h : l.Offers r) (c : Prop)
    [Decidable c] : l.Offers (if c then r else (l, none)) := by
  split
  · exact h
  · exact offers_none l

theorem chooseSFrame_offers (l : Link) (iSent : Bool) (take : Nat → Option Frame) :
    l.Offers (chooseSFrame l iSent take) := by
  have hrej := (prepareSFrame_offers l (take 0) (.inr (.inr rfl)) (sendsCommand l.s)).ite
    (l.p.ssState.rejpend = true)
  have hrr := (prepareSFrame_offers l (take 1) (.inl rfl) (sendsCommand l.s)).ite
    ((l.s.flags.busy && l.s.poolState = .normal) = true)
  simp only [chooseSFrame]
  split
  next l' fp hr =>
    rw [hr] at hrej
    exact ⟨hrej.keeps.trans ⟨.touched l', rfl⟩, hrej.sFrame, nofun⟩
  next l' hr =>
    rw [hr] at hrej
    obtain rfl : l' = l := hrej.refused rfl
    split
    next l'' fp hr' =>
      rw [hr'] at hrr
      exact ⟨hrr.keeps.trans ⟨.touched l'', rfl⟩, hrr.sFrame, nofun⟩
    next l'' hr' =>
      rw [hr'] at hrr
      obtain rfl : l'' = l' := hrr.refused rfl
      refine (prepareSFrame_offers l'' (take 2) ?_ _).ite _
      split
      · exact .inr (.inl rfl)
      · exact .inl rfl

end Keeps

/-! ### The specification of the sections -/

section Spec

variable {l : Link}

theorem connectedTxEntry_cases (l : Link) (flags : EvtFlags) (take : Option Frame) :
    let r := connectedTxEntry l flags take
    (l.KeepsWindow r.link ∧ (∃ f, r.pc = .check f) ∧ (l.p.uiTxPending = false → r.sent = none)) ∨
      (l.Aborted r.link ∧ (∃ f, r.pc = .idle f) ∧ r.sent = none) := by
  dsimp only
  simp only [connectedTxEntry]
  rcases serveReplyTimeout_cases l (flags \ {.lineIdle}) with ⟨hr, hkeep⟩ | ⟨hr, habort⟩
  · rw [if_pos hr]
    rcases serveT3Timeout_cases (serveReplyTimeout l (flags \ {.lineIdle})).1
      ((flags \ {.lineIdle}) \ {.cRplytmo}) with ⟨hr', hkeep'⟩ | ⟨hr', habort'⟩
    · rw [if_pos hr']
      refine .inl ⟨hkeep.trans (hkeep'.trans (sendUi_keeps _ _).1), ⟨_, rfl⟩, fun hui => ?_⟩
      refine (sendUi_keeps _ _).2 (Bool.eq_false_iff.mpr fun h => ?_)
      exact Bool.false_ne_true (hui.symm.trans (hkeep.uiTxPending (hkeep'.uiTxPending h)))
    · rw [if_neg (by rw [hr']; exact Bool.false_ne_true)]
      exact .inr ⟨hkeep.aborted habort', ⟨_, rfl⟩, rfl⟩
  · rw [if_neg (by rw [hr]; exact Bool.false_ne_true)]
    exact .inr ⟨habort, ⟨_, rfl⟩, rfl⟩

/-- What a round of the I-frame loop hands to the driver. -/
structure Link.SendsIFrame (l l' : Link) (fp fp' : Frame) (rest : List Frame) : Prop
    extends l.KeepsRx l' where
  head : l.p.iTransQ = fp :: rest
  room : outstanding l < l.p.ks
  prepared : ∃ addr setPf, fp' = (prepareIFrameHeader l.s fp addr l.p.vs l.p.vr setPf).1
  txWindow : l'.p.txWindow = l.p.txWindow.sent l.s.framing fp' rest

theorem transmitIFrame_sends {fp : Frame} {rest : List Frame} (hq : l.p.iTransQ = fp :: rest)
    (hroom : outstanding l < l.p.ks) :
    l.SendsIFrame (transmitIFrame l fp rest).1 fp (transmitIFrame l fp rest).2.1 rest :=
  { toKeepsRx := .touched l
    head := hq
    room := hroom
    prepared := ⟨_, _, rfl⟩
    txWindow := rfl }

/-- The frame carries the payload at `next`, its number and `V(R)`, and the window
moves on. -/
theorem Link.SendsIFrame.represents {l l' : Link} {fp fp' : Frame} {rest : List Frame}
    {log : List (List UInt8)} {c : Counters} (h : l.SendsIFrame l' fp fp' rest)
    (hrep : l.p.txWindow.Represents l.s.framing l.p.ks.toNat log c)
    (hks : l.p.ks.toNat < l.s.framing.serial.modulus) :
    l'.p.txWindow.Represents l.s.framing l.p.ks.toNat log
        { c with next := c.next + 1, high := max c.high (c.next + 1) } ∧
      c.next < c.base + l.p.ks.toNat ∧
      log[c.next]? = some (fp'.payload l.s.framing) ∧
      isIFrm (fp'.ctrl l.s.framing 0) = true ∧
      extractNS l.s.framing fp' = l.s.framing.serial.word c.next ∧
      extractNR l.s.framing fp' = l.p.vr &&& l.s.framing.modmask := by
  obtain ⟨addr, setPf, rfl⟩ := h.prepared
  have hbase := hrep.base_le
  have hnext := hrep.next_le
  have hhigh := hrep.high_le
  have hvs : l.p.vs = l.s.framing.serial.word c.next := hrep.vs
  have hnr : l.p.nr = l.s.framing.serial.word c.base := hrep.nr
  have hroom : c.next < c.base + l.p.ks.toNat := by
    have hout := UInt32.lt_iff_toNat_lt.mp h.room
    rw [outstanding, hvs, hnr, ← l.s.framing.serial_mask,
      l.s.framing.serial.toNat_word_sub hbase (by omega)] at hout
    omega
  have hcarry : Carry l.s.framing log c.high c.next l.p.iTransQ := hrep.trans
  rw [h.head] at hcarry
  obtain ⟨⟨hlog, hst, hkept⟩, -⟩ := hcarry
  have hns : extractNS l.s.framing
      (prepareIFrameHeader l.s fp addr l.p.vs l.p.vr setPf).1 = l.s.framing.serial.word c.next := by
    rw [extractNS_prepareIFrameHeader, hst]
    by_cases hlt : c.next < c.high
    · rw [if_pos (decide_eq_true hlt), hkept hlt]
    · rw [if_neg (by simpa using hlt), hvs, ← l.s.framing.serial_mask, SerialSpace.word_and_mask]
  have hpay := payload_prepareIFrameHeader l.s fp addr l.p.vs l.p.vr setPf
  refine ⟨?_, hroom, hpay.symm ▸ hlog, prepareIFrameHeader_isIFrm .., hns,
    extractNR_prepareIFrameHeader ..⟩
  rw [h.txWindow]
  exact hrep.send hks hroom h.head hpay (headerStamped_prepareIFrameHeader ..) hns

theorem connectedTxIFrame_cases (l : Link) (flags : EvtFlags) (iSent : Bool) :
    let r := connectedTxIFrame l flags iSent
    (l.KeepsWindow r.link ∧ r.sent = none) ∨
      ∃ fp fp' rest, l.SendsIFrame r.link fp fp' rest ∧ r.sent = some fp' := by
  dsimp only
  rw [connectedTxIFrame]
  split
  · exact .inl ⟨.refl l, rfl⟩
  next fp rest hq =>
    split
    · exact .inl ⟨.refl l, rfl⟩
    next hgo =>
      rw [not_or] at hgo
      dsimp only
      split
      · exact .inl ⟨getAndClearFlags_keeps l flags, rfl⟩
      · have hsend := @transmitIFrame_sends (getAndClearFlags l flags).1 fp rest hq
          (UInt32.not_le.mp hgo.1)
        exact .inr ⟨fp, _, rest, ⟨(getAndClearFlags_keeps l flags).toKeepsRx.trans hsend.toKeepsRx,
          hq, hsend.room, hsend.prepared, hsend.txWindow⟩, rfl⟩

theorem connectedTxSFrame_keeps (l : Link) (flags : EvtFlags) (iSent : Bool)
    (take : Nat → Option Frame) :
    let r := connectedTxSFrame l flags iSent take
    l.KeepsWindow r.link ∧ (∃ f, r.pc = .idle f) ∧ ∀ fp ∈ r.sent, l.IsSFrame fp := by
  have hclear := getAndClearFlags_keeps l flags
  have hchoose := chooseSFrame_offers (getAndClearFlags l flags).1 iSent take
  exact ⟨hclear.trans hchoose.keeps, ⟨_, rfl⟩, hchoose.sFrame⟩

end Spec

end IoHdlc
