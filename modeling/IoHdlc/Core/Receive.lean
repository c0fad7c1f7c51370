import IoHdlc.Core.Window

/-!
Received I and S frames: `handleCheckpointAndAck`, `handleIFrame`,
`handleSFrame` and `commonRx`, and the receive handlers of the two modes.

The flags that a handler collects before it broadcasts them are results here,
the writers it wakes are not.
-/

namespace IoHdlc

/-! ### The handlers -/

def setFrmrCondition (l : Link) (rejectedCtrl : UInt8 × UInt8) (isCommand : Bool) (reason : UInt8) :
    Link :=
  { s := l.s.broadcastFlags {.umRecvd}
    p := { l.p with
      frmrCondition := true
      frmrRejectedCtrl := rejectedCtrl
      frmrReason := reason
      frmrCr := isCommand
      umRsp := IOHDLC_U_FRMR
      umState := { l.p.umState with rcved := true } } }

/-- What `handleCheckpointAndAck` returns for a valid N(R). -/
structure AckResult where
  link : Link
  checkpointMoved : Bool
  broadcastFlags : EvtFlags

/-- The checkpoint of a frame with the P/F bit set. -/
def checkpointOnPF (l : Link) (isCommand : Bool) : Link × Bool :=
  let r := if l.s.mode = .abm ∧ isCommand then (l.p, false) else checkpointRetransmit l.s l.p
  ({ l with p := { r.1 with
      t3Tmr := if r.2 && iFrameReplyTimerUsed l.s then r.1.t3Tmr.reset else r.1.t3Tmr } }, r.2)

/-- A received F bit closes the poll, a received P bit asks for an F bit. -/
def receivePF (l : Link) (isCommand : Bool) : Link :=
  { s := { l.s with
      pfState :=
        { pRcved := l.s.pfState.pRcved || isCommand
          fRcved := l.s.pfState.fRcved || !isCommand } }
    p := { l.p with
      pollRetryCount := if isCommand then l.p.pollRetryCount else 0
      replyTmr := if isCommand then l.p.replyTmr else l.p.replyTmr.reset
      t3Tmr :=
        if !isCommand && l.s.mode = .nrm then l.p.t3Tmr.set (idlePollTimeoutMs l.s)
        else l.p.t3Tmr } }

/-- A response without F bit keeps the timers running. -/
def receiveNoPF (l : Link) (isCommand : Bool) : Link :=
  { l with p := { l.p with
      t3Tmr :=
        if !isCommand && l.s.mode = .nrm then l.p.t3Tmr.restart (idlePollTimeoutMs l.s)
        else l.p.t3Tmr
      replyTmr :=
        if !isCommand && !l.s.pfState.fRcved then
          l.p.replyTmr.restart (replyTimerTimeoutMs l.s l.p)
        else l.p.replyTmr } }

def handleCheckpointAndAck (l : Link) (nr : UInt32) (pf isCommand : Bool) : Option AckResult :=
  if isNRValid l.s l.p nr then
    let l := { l with p := (processNR l.s l.p nr).1 }
    if pf then
      let r := checkpointOnPF l isCommand
      some { link := receivePF r.1 isCommand, checkpointMoved := r.2, broadcastFlags := {.pfRecvd} }
    else some { link := receiveNoPF l isCommand, checkpointMoved := false, broadcastFlags := ∅ }
  else none

/-- The link, whether the frame is accepted, and the flags to broadcast. -/
def handleIFrame (l : Link) (fp : Frame) (pf : Bool) : Link × Bool × EvtFlags :=
  let ns := extractNS l.s.framing fp
  if ns ≠ l.p.vr then
    let rej := !l.s.flags.twa && l.s.useRej && l.p.rejActioned = 0
    ({ l with p := { l.p with
        rejActioned := if rej then l.p.vr + 1 else l.p.rejActioned
        ssState := { l.p.ssState with rejpend := l.p.ssState.rejpend || rej } } },
      false, if rej then {.rejActed} else ∅)
  else
    let lowWater := !l.s.flags.busy && l.s.poolState = .lowWater
    ({ s := { l.s with flags := { l.s.flags with busy := l.s.flags.busy || lowWater } }
       p := { l.p with
        iReceptQ := l.p.iReceptQ ++ [fp]
        rejActioned :=
          if l.p.rejActioned ≠ 0 ∧ ns = l.p.rejActioned - 1 then 0 else l.p.rejActioned
        ssState := { l.p.ssState with busy := l.p.ssState.busy && !pf }
        vr := (l.p.vr + 1) &&& l.s.framing.modmask } },
      true, if lowWater then {.iRecvd, .poolStChg} else {.iRecvd})

/-- A REJ while no checkpoint retransmission is recorded. -/
def actOnRej (l : Link) : Link × EvtFlags :=
  match l.p.iRetransQ with
  | [] => (l, ∅)
  | first :: _ =>
    let ns := extractNS l.s.framing first
    ({ l with p := { moveRetransQ l.p with vs := ns, vsAtlastPf := ns } }, {.txIfrmEnq})

def handleSFrame (l : Link) (fp : Frame) : Link × EvtFlags :=
  let sFun := fp.ctrl l.s.framing 0 &&& IOHDLC_S_FUN_MASK
  if sFun = IOHDLC_S_RR then
    ({ l with p := { l.p with ssState := { l.p.ssState with busy := false } } }, {.rrRecvd})
  else if sFun = IOHDLC_S_RNR then
    ({ l with p := { l.p with ssState := { l.p.ssState with busy := true } } }, {.rnrRecvd})
  else if sFun = IOHDLC_S_REJ then
    if l.s.flags.twa then (l, ∅)
    else if l.p.chkptActioned = 0 then
      let r := actOnRej l
      (r.1, r.2 ∪ {.xrejRecvd})
    else ({ l with p := { l.p with chkptActioned := 0 } }, {.xrejRecvd})
  else (l, ∅)

/-- The `IOHDLC_SET_NEED_P` of an NRM primary that accepted an I frame. -/
def needPOnAccept (l : Link) (accepted : Bool) : Link :=
  { l with p := { l.p with ssState := { l.p.ssState with
      needP := l.p.ssState.needP || (accepted && l.s.isNrmPrimary) } } }

/-- A frame that arrives while the FRMR condition is on. -/
def frmrPending (l : Link) (pf : Bool) : Link :=
  if pf then
    { s := l.s.broadcastFlags {.umRecvd}
      p := { l.p with umRsp := IOHDLC_U_FRMR, umState := { l.p.umState with rcved := true } } }
  else l

/-- The control octets that a FRMR response reports. -/
def rejectedCtrl (fr : Framing) (fp : Frame) : UInt8 × UInt8 :=
  (fp.ctrl fr 0, if fr.ctrlSize > 1 then fp.ctrl fr 1 else 0)

/-- The link, and whether the frame was accepted. -/
def commonRx (l : Link) (fp : Frame) (isCommand : Bool) : Link × Bool :=
  let ctrl := fp.ctrl l.s.framing 0
  let pf := getPF l.s.framing fp
  let nr := extractNR l.s.framing fp
  if l.p.frmrCondition then (frmrPending l pf, false)
  else
    match handleCheckpointAndAck l nr pf isCommand with
    | none => (setFrmrCondition l (rejectedCtrl l.s.framing fp) isCommand IOHDLC_FRMR_Y, false)
    | some ack =>
      let moved : EvtFlags := if ack.checkpointMoved then {.txIfrmEnq} else ∅
      if isIFrm ctrl then
        let r := handleIFrame ack.link fp pf
        let l := needPOnAccept r.1 r.2.1
        ({ l with s := l.s.broadcastFlags (ack.broadcastFlags ∪ r.2.2 ∪ moved) }, r.2.1)
      else
        let r := handleSFrame ack.link fp
        ({ r.1 with s := r.1.s.broadcastFlags (ack.broadcastFlags ∪ r.2 ∪ moved) }, false)

def ioHdlcNrmRx (l : Link) (fp : Frame) : Link × Bool :=
  let addr := (fp.addr l.s.framing).toUInt32
  if l.s.flags.pri then
    if addr ≠ l.p.addr then (l, false) else commonRx l fp (addr = l.s.addr)
  else if addr ≠ l.s.addr then (l, false) else commonRx l fp (addr = l.s.addr)

def ioHdlcAbmRx (l : Link) (fp : Frame) : Link × Bool :=
  let addr := (fp.addr l.s.framing).toUInt32
  if addr ≠ l.s.addr ∧ addr ≠ l.p.addr then (l, false) else commonRx l fp (addr = l.s.addr)

/-- The dispatch of `ioHdlcRxEntry` for a frame that is no U frame. -/
def rxDispatch (l : Link) (fp : Frame) : Link × Bool :=
  match l.s.rxFn with
  | some .ioHdlcNrmRx => ioHdlcNrmRx l fp
  | some .ioHdlcAbmRx => ioHdlcAbmRx l fp
  | none => (l, false)

/-- A frame is discarded or goes through `commonRx`, and then only if there is a
receive handler. -/
theorem rxDispatch_cases (l : Link) (fp : Frame) :
    rxDispatch l fp = (l, false) ∨
      (l.s.rxFn ≠ none ∧ ∃ isCommand, rxDispatch l fp = commonRx l fp isCommand) := by
  cases hfn : l.s.rxFn with
  | none => exact .inl (by rw [rxDispatch, hfn])
  | some fn =>
    cases fn with
    | ioHdlcNrmRx =>
      simp only [rxDispatch, hfn, ioHdlcNrmRx]
      split
      · split
        · exact .inl rfl
        · exact .inr ⟨by simp, _, rfl⟩
      · split
        · exact .inl rfl
        · exact .inr ⟨by simp, _, rfl⟩
    | ioHdlcAbmRx =>
      simp only [rxDispatch, hfn, ioHdlcAbmRx]
      split
      · exact .inl rfl
      · exact .inr ⟨by simp, _, rfl⟩

/-- Whether a frame gets past the address check of the receive handler. -/
def reachesPeer (l : Link) (fp : Frame) : Bool :=
  let addr := (fp.addr l.s.framing).toUInt32
  match l.s.rxFn with
  | some .ioHdlcNrmRx => addr = if l.s.flags.pri then l.p.addr else l.s.addr
  | some .ioHdlcAbmRx => addr = l.s.addr || addr = l.p.addr
  | none => false

/-- A frame is discarded by its address, or `commonRx` gets it. -/
theorem rxDispatch_eq (l : Link) (fp : Frame) :
    (reachesPeer l fp = false ∧ rxDispatch l fp = (l, false)) ∨
      (reachesPeer l fp = true ∧
        rxDispatch l fp = commonRx l fp ((fp.addr l.s.framing).toUInt32 = l.s.addr)) := by
  cases hfn : l.s.rxFn with
  | none => exact .inl (by simp only [reachesPeer, rxDispatch, hfn, and_self])
  | some fn =>
    cases fn with
    | ioHdlcNrmRx =>
      simp only [reachesPeer, rxDispatch, hfn, ioHdlcNrmRx]
      cases l.s.flags.pri with
      | true =>
        by_cases haddr : (fp.addr l.s.framing).toUInt32 = l.p.addr
        · exact .inr (by simp [haddr])
        · exact .inl (by simp [haddr])
      | false =>
        by_cases haddr : (fp.addr l.s.framing).toUInt32 = l.s.addr
        · exact .inr (by simp [haddr])
        · exact .inl (by simp [haddr])
    | ioHdlcAbmRx =>
      simp only [reachesPeer, rxDispatch, hfn, ioHdlcAbmRx]
      by_cases hs : (fp.addr l.s.framing).toUInt32 = l.s.addr
      · exact .inr (by simp [hs])
      · by_cases hp : (fp.addr l.s.framing).toUInt32 = l.p.addr
        · exact .inr (by simp [hp])
        · exact .inl (by simp [hs, hp])

theorem reachesPeer_addr {l : Link} {fp : Frame} (h : reachesPeer l fp = true) :
    (fp.addr l.s.framing).toUInt32 = l.s.addr ∨ (fp.addr l.s.framing).toUInt32 = l.p.addr := by
  simp only [reachesPeer] at h
  split at h
  · rw [decide_eq_true_eq] at h
    split at h
    · exact .inr h
    · exact .inl h
  · simpa using h
  · cases h

/-! ### The arms of the handlers -/

section Arms

/-- The fields that a checkpoint writes. -/
theorem checkpointOnPF_fields (l : Link) (isCommand : Bool) :
    ∃ rq tq chkpt vs t, (checkpointOnPF l isCommand).1 =
      { l with p := { l.p with
          iRetransQ := rq, iTransQ := tq, chkptActioned := chkpt, vs := vs, t3Tmr := t } } := by
  simp only [checkpointOnPF]
  split
  · exact ⟨_, _, _, _, _, rfl⟩
  · rcases checkpointRetransmit_fields l.s l.p with h | ⟨x, h⟩
    · rw [h]
      exact ⟨_, _, _, _, _, rfl⟩
    · rw [h]
      exact ⟨_, _, _, _, _, rfl⟩

/-- Only an invalid N(R) is refused. -/
theorem isSome_handleCheckpointAndAck (l : Link) (nr : UInt32) (pf isCommand : Bool) :
    (handleCheckpointAndAck l nr pf isCommand).isSome = isNRValid l.s l.p nr := by
  simp only [handleCheckpointAndAck]
  split
  next hnr =>
    rw [hnr]
    split <;> rfl
  next hnr =>
    rw [Bool.eq_false_iff.mpr hnr]
    rfl

theorem isNRValid_of_ack {l : Link} {nr : UInt32} {pf isCommand : Bool} {ack : AckResult}
    (h : handleCheckpointAndAck l nr pf isCommand = some ack) : isNRValid l.s l.p nr = true := by
  rw [← isSome_handleCheckpointAndAck l nr pf isCommand, h, Option.isSome_some]

theorem isNRValid_of_refused {l : Link} {nr : UInt32} {pf isCommand : Bool}
    (h : handleCheckpointAndAck l nr pf isCommand = none) : isNRValid l.s l.p nr = false := by
  rw [← isSome_handleCheckpointAndAck l nr pf isCommand, h, Option.isSome_none]

/-- The fields that a valid N(R) and the P/F bit write. -/
theorem handleCheckpointAndAck_fields {l : Link} {nr : UInt32} {pf isCommand : Bool}
    {ack : AckResult} (h : handleCheckpointAndAck l nr pf isCommand = some ack) :
    ∃ pfState x rq tq n vs v chkpt t₁ t₂ count,
      (l.s.pfState.pRcved = true → PfState.pRcved pfState = true) ∧
      ack.link =
        { s := { l.s with pfState := pfState }
          p := { l.p with
            nr := x, iRetransQ := rq, iTransQ := tq, iPendingCount := n, vs := vs, vsAtlastPf := v
            chkptActioned := chkpt, replyTmr := t₁, t3Tmr := t₂, pollRetryCount := count } } := by
  obtain ⟨x, q, n, v, t, hnr⟩ := processNR_fields l.s l.p nr
  simp only [handleCheckpointAndAck] at h
  split at h
  · split at h
    · cases h
      obtain ⟨rq, tq, chkpt, vs, t', hcheck⟩ :=
        checkpointOnPF_fields { l with p := (processNR l.s l.p nr).1 } isCommand
      rw [hcheck, hnr]
      refine ⟨_, _, _, _, _, _, _, _, _, _, _, fun hp => ?_, rfl⟩
      rw [hp, Bool.true_or]
    · cases h
      rw [hnr]
      exact ⟨_, _, _, _, _, _, _, _, _, _, _, id, rfl⟩
  · cases h

/-- The fields that an S frame writes. -/
theorem handleSFrame_fields (l : Link) (fp : Frame) :
    ∃ busy rq tq vs v chkpt, (handleSFrame l fp).1 =
      { l with p := { l.p with
          ssState := { l.p.ssState with busy := busy }
          iRetransQ := rq, iTransQ := tq, vs := vs, vsAtlastPf := v, chkptActioned := chkpt } } := by
  simp only [handleSFrame, actOnRej]
  split
  · exact ⟨_, _, _, _, _, _, rfl⟩
  split
  · exact ⟨_, _, _, _, _, _, rfl⟩
  split
  · split
    · exact ⟨_, _, _, _, _, _, rfl⟩
    split
    · split <;> exact ⟨_, _, _, _, _, _, rfl⟩
    · exact ⟨_, _, _, _, _, _, rfl⟩
  · exact ⟨_, _, _, _, _, _, rfl⟩

/-- The flags that `commonRx` broadcasts behind a valid N(R). -/
def AckResult.flagsWith (ack : AckResult) (flags : EvtFlags) : EvtFlags :=
  ack.broadcastFlags ∪ flags ∪ if ack.checkpointMoved then {.txIfrmEnq} else ∅

/-- What `commonRx` does with a frame. -/
inductive CommonRx (l : Link) (fp : Frame) (isCommand : Bool) : Prop
  | frmr (on : l.p.frmrCondition = true)
    (eq : commonRx l fp isCommand = (frmrPending l (getPF l.s.framing fp), false))
  | reject (off : l.p.frmrCondition = false)
    (hack : handleCheckpointAndAck l (extractNR l.s.framing fp) (getPF l.s.framing fp) isCommand =
      none)
    (eq : commonRx l fp isCommand =
      (setFrmrCondition l (rejectedCtrl l.s.framing fp) isCommand IOHDLC_FRMR_Y, false))
  | iFrame {ack : AckResult} {r : Link × Bool × EvtFlags} (off : l.p.frmrCondition = false)
    (hack : handleCheckpointAndAck l (extractNR l.s.framing fp) (getPF l.s.framing fp) isCommand =
      some ack)
    (hi : isIFrm (fp.ctrl l.s.framing 0) = true)
    (hr : r = handleIFrame ack.link fp (getPF l.s.framing fp))
    (eq : commonRx l fp isCommand =
      ({ needPOnAccept r.1 r.2.1 with s := r.1.s.broadcastFlags (ack.flagsWith r.2.2) }, r.2.1))
  | sFrame {ack : AckResult} {r : Link × EvtFlags} (off : l.p.frmrCondition = false)
    (hack : handleCheckpointAndAck l (extractNR l.s.framing fp) (getPF l.s.framing fp) isCommand =
      some ack)
    (hi : isIFrm (fp.ctrl l.s.framing 0) = false) (hr : r = handleSFrame ack.link fp)
    (eq : commonRx l fp isCommand =
      ({ r.1 with s := r.1.s.broadcastFlags (ack.flagsWith r.2) }, false))

theorem commonRx_does (l : Link) (fp : Frame) (isCommand : Bool) : CommonRx l fp isCommand := by
  cases hfrmr : l.p.frmrCondition with
  | true =>
    refine .frmr hfrmr ?_
    rw [commonRx, hfrmr, if_pos rfl]
  | false =>
    cases hack : handleCheckpointAndAck l (extractNR l.s.framing fp) (getPF l.s.framing fp)
        isCommand with
    | none =>
      refine .reject hfrmr hack ?_
      simp only [commonRx, hfrmr, hack, Bool.false_eq_true, if_false]
    | some ack =>
      cases hi : isIFrm (fp.ctrl l.s.framing 0) with
      | true =>
        refine .iFrame hfrmr hack hi rfl ?_
        simp only [commonRx, hfrmr, hack, hi, Bool.false_eq_true, if_false, if_true]
        rfl
      | false =>
        refine .sFrame hfrmr hack hi rfl ?_
        simp only [commonRx, hfrmr, hack, hi, Bool.false_eq_true, if_false]
        rfl

end Arms

/-! ### What reception leaves alone -/

/-- What a received frame does not touch before its N(S) is looked at. -/
structure Link.KeepsRx (l l' : Link) : Prop extends l.Keeps l' where
  vr : l'.p.vr = l.p.vr
  iReceptQ : l'.p.iReceptQ = l.p.iReceptQ
  frmrCondition : l'.p.frmrCondition = l.p.frmrCondition
  uiTxPending : l'.p.uiTxPending = true → l.p.uiTxPending = true

theorem Link.KeepsRx.refl (l : Link) : l.KeepsRx l := by
  constructor
  · exact .refl l
  all_goals first | rfl | exact id

theorem Link.KeepsRx.trans {l l' l'' : Link} (h : l.KeepsRx l') (h' : l'.KeepsRx l'') :
    l.KeepsRx l'' :=
  { toKeeps := h.toKeeps.trans h'.toKeeps
    vr := h'.vr.trans h.vr
    iReceptQ := h'.iReceptQ.trans h.iReceptQ
    frmrCondition := h'.frmrCondition.trans h.frmrCondition
    uiTxPending := h.uiTxPending ∘ h'.uiTxPending }

/-- The fields that a worker may change. -/
theorem Link.KeepsRx.touched (l : Link) {twa idl busy : Bool} {pf : PfState} {pool : PoolState}
    {cm : EvtFlags} {app : List AppEvt} {vs nr vsHighest rej chkpt atlast t3 pending : UInt32}
    {st : StreamTerminal} {rcved b₁ b₂ b₃ b₄ b₅ b₆ b₇ : Bool} {umRsp : UInt8} {rq tq : List Frame} {t₁ t₂ : VTimer}
    {count : UInt8} :
    l.KeepsRx
      { s := { l.s with
          flags := { l.s.flags with twa := twa, idl := idl, busy := busy }
          pfState := pf, poolState := pool, cmListener := cm, appEs := app }
        p := { l.p with
          vs := vs, nr := nr, vsHighest := vsHighest, rejActioned := rej, chkptActioned := chkpt
          vsAtlastPf := atlast, t3ExpectedNr := t3, iPendingCount := pending
          umState := { l.p.umState with rcved := rcved }, streamTerminalPending := st
          ssState :=
            { busy := b₁, rejpend := b₂, recving := b₃, needP := b₄, termOrderly := b₅
              termAborted := b₆, sending := b₇, stConn := l.p.ssState.stConn }
          umRsp := umRsp, iRetransQ := rq, iTransQ := tq, replyTmr := t₁, t3Tmr := t₂
          pollRetryCount := count } } := by
  constructor
  · constructor <;> rfl
  all_goals first | rfl | exact id

section Keeps

variable {l : Link} {fp : Frame} {nr : UInt32} {pf isCommand : Bool}

theorem handleCheckpointAndAck_keeps {ack : AckResult}
    (h : handleCheckpointAndAck l nr pf isCommand = some ack) : l.KeepsRx ack.link := by
  obtain ⟨_, _, _, _, _, _, _, _, _, _, _, -, h⟩ := handleCheckpointAndAck_fields h
  rw [h]
  exact .touched l

theorem handleIFrame_keeps (fp : Frame) (pf : Bool) : l.Keeps (handleIFrame l fp pf).1 := by
  simp only [handleIFrame]
  split
  all_goals constructor <;> rfl

theorem handleSFrame_keeps : l.KeepsRx (handleSFrame l fp).1 := by
  obtain ⟨_, _, _, _, _, _, h⟩ := handleSFrame_fields l fp
  rw [h]
  exact .touched l

/-- A station that only broadcasts flags. -/
theorem Link.Keeps.broadcastFlags {l' : Link} (h : l.Keeps l') (flags : EvtFlags) :
    l.Keeps { l' with s := l'.s.broadcastFlags flags } := by
  refine h.trans ?_
  constructor <;> rfl

theorem commonRx_keeps : l.Keeps (commonRx l fp isCommand).1 := by
  cases commonRx_does l fp isCommand with
  | frmr on eq =>
    rw [eq, frmrPending]
    split
    · constructor <;> rfl
    · exact .refl l
  | reject off hack eq =>
    rw [eq]
    constructor <;> rfl
  | @iFrame ack r off hack hi hr eq =>
    have hkeep : ack.link.Keeps r.1 := hr ▸ handleIFrame_keeps fp _
    have hneed : l.Keeps (needPOnAccept r.1 r.2.1) := by
      refine ((handleCheckpointAndAck_keeps hack).toKeeps.trans hkeep).trans ?_
      constructor <;> rfl
    rw [eq]
    exact hneed.broadcastFlags _
  | @sFrame ack r off hack hi hr eq =>
    have hkeep : ack.link.KeepsRx r.1 := hr ▸ handleSFrame_keeps
    rw [eq]
    exact ((handleCheckpointAndAck_keeps hack).trans hkeep).toKeeps.broadcastFlags _

end Keeps

/-! ### The transmit window -/

section Window

variable {l : Link} {fp : Frame} {pf isCommand : Bool} {ks : Nat} {log : List (List UInt8)}
  {c : Counters}

/-- Nothing happened to the window, or everything in `iRetransQ` is sent again. -/
def MaybeRewound (w w' : TxWindow) : Prop := w' = w ∨ w' = w.rewound

theorem MaybeRewound.trans {w w' w'' : TxWindow} (h : MaybeRewound w w')
    (h' : MaybeRewound w' w'') : MaybeRewound w w'' := by
  rcases h with rfl | rfl
  · exact h'
  · rcases h' with rfl | rfl
    · exact .inr rfl
    · exact .inr rfl

theorem MaybeRewound.represents {fr : Framing} {w w' : TxWindow} (h : MaybeRewound w w')
    (hw : w.Represents fr ks log c) :
    ∃ next, (next = c.next ∨ next = c.base) ∧ w'.Represents fr ks log { c with next := next } := by
  rcases h with rfl | rfl
  · exact ⟨c.next, .inl rfl, hw⟩
  · exact ⟨c.base, .inr rfl, hw.rewind⟩

theorem checkpointOnPF_window (h : l.p.txWindow.Represents l.s.framing ks log c) :
    MaybeRewound l.p.txWindow (checkpointOnPF l isCommand).1.p.txWindow := by
  simp only [checkpointOnPF]
  split
  · exact .inl rfl
  · rcases checkpointRetransmit_eq h with h | ⟨x, h⟩
    · rw [h]
      exact .inl rfl
    · rw [h]
      exact .inr rfl

theorem actOnRej_window (h : l.p.txWindow.Represents l.s.framing ks log c) :
    MaybeRewound l.p.txWindow (actOnRej l).1.p.txWindow := by
  rw [actOnRej]
  cases hq : l.p.iRetransQ with
  | nil => exact .inl rfl
  | cons first rest =>
    refine .inr ?_
    simp only [Peer.txWindow, TxWindow.rewound, moveRetransQ, extractNS_retransQ h hq, hq]

theorem handleSFrame_window (h : l.p.txWindow.Represents l.s.framing ks log c) :
    MaybeRewound l.p.txWindow (handleSFrame l fp).1.p.txWindow := by
  simp only [handleSFrame]
  split
  · exact .inl rfl
  split
  · exact .inl rfl
  split
  · split
    · exact .inl rfl
    split
    · exact actOnRej_window h
    · exact .inl rfl
  · exact .inl rfl

theorem handleIFrame_window (l : Link) (fp : Frame) (pf : Bool) :
    (handleIFrame l fp pf).1.p.txWindow = l.p.txWindow := by
  simp only [handleIFrame]
  split <;> rfl

theorem needPOnAccept_window (l : Link) (accepted : Bool) :
    (needPOnAccept l accepted).p.txWindow = l.p.txWindow := rfl

/-- A valid N(R) acknowledges, and may start a retransmission. -/
theorem handleCheckpointAndAck_window (h : l.p.txWindow.Represents l.s.framing ks log c)
    (hks : ks < l.s.framing.serial.modulus) {a : Nat} (hb : c.base ≤ a) (ha : a ≤ c.high)
    (pf isCommand : Bool) :
    ∃ ack, handleCheckpointAndAck l (l.s.framing.serial.word a) pf isCommand = some ack ∧
      MaybeRewound (l.p.txWindow.acked l.s.framing c (min a c.next)) ack.link.p.txWindow := by
  have hack := processNR_txWindow h hks hb ha
  have hrep := h.ack (le_min hb h.base_le) (min_le_right ..)
  simp only [handleCheckpointAndAck, if_pos (isNRValid_word h hks hb ha)]
  split
  · refine ⟨_, rfl, ?_⟩
    rw [← hack]
    rw [← hack] at hrep
    exact checkpointOnPF_window (l := ⟨l.s, (processNR l.s l.p _).1⟩) hrep
  · exact ⟨_, rfl, .inl hack⟩

end Window

/-! ### The specification of `commonRx` -/

section Spec

variable {l : Link} {fp : Frame} {isCommand : Bool} {ks : Nat} {log : List (List UInt8)}
  {c : Counters}

/-- A frame whose N(R) acknowledges up to `a`. -/
theorem commonRx_window (h : l.p.txWindow.Represents l.s.framing ks log c)
    (hks : ks < l.s.framing.serial.modulus) (hfrmr : l.p.frmrCondition = false) {a : Nat}
    (hnr : extractNR l.s.framing fp = l.s.framing.serial.word a) (hb : c.base ≤ a)
    (ha : a ≤ c.high) :
    MaybeRewound (l.p.txWindow.acked l.s.framing c (min a c.next))
      (commonRx l fp isCommand).1.p.txWindow := by
  obtain ⟨ack, hack, hw⟩ := handleCheckpointAndAck_window h hks hb ha (getPF l.s.framing fp) isCommand
  have hkeep := handleCheckpointAndAck_keeps hack
  simp only [commonRx, hfrmr, hnr, hack, Bool.false_eq_true, if_false]
  split
  · refine hw.trans (.inl ?_)
    exact (needPOnAccept_window _ _).trans (handleIFrame_window ack.link fp _)
  · have hrep := h.ack (le_min hb h.base_le) (min_le_right ..)
    obtain ⟨next, -, hrep⟩ := hw.represents hrep
    rw [← hkeep.framing] at hrep
    exact hw.trans (handleSFrame_window hrep)

/-- A frame whose N(R) is not valid, or that arrives during a FRMR condition. -/
theorem commonRx_rejected
    (h : l.p.frmrCondition = true ∨ isNRValid l.s l.p (extractNR l.s.framing fp) = false) :
    (commonRx l fp isCommand).1.p.txWindow = l.p.txWindow := by
  rcases h with h | h
  · simp only [commonRx, h, if_true, frmrPending]
    split <;> rfl
  · simp only [commonRx, handleCheckpointAndAck, h]
    split
    · rw [frmrPending]
      split <;> rfl
    · rfl

/-- Whatever arrives, the window stands for the payloads behind some counters. -/
theorem commonRx_represents (h : l.p.txWindow.Represents l.s.framing ks log c)
    (hks : ks < l.s.framing.serial.modulus) :
    ∃ c', c.base ≤ c'.base ∧ c'.high = c.high ∧
      (commonRx l fp isCommand).1.p.txWindow.Represents l.s.framing ks log c' := by
  by_cases hrej : l.p.frmrCondition = true ∨
      isNRValid l.s l.p (extractNR l.s.framing fp) = false
  · exact ⟨c, le_rfl, rfl, (commonRx_rejected hrej).symm ▸ h⟩
  · rw [not_or, Bool.not_eq_true, Bool.not_eq_false] at hrej
    obtain ⟨a, hb, ha, hnr⟩ := exists_of_isNRValid h hks (extractNR_and_modmask _ _) hrej.2
    obtain ⟨next, -, hrep⟩ := (commonRx_window h hks hrej.1 hnr hb ha).represents
      (h.ack (le_min hb h.base_le) (min_le_right ..))
    exact ⟨{ c with base := min a c.next, next := next }, le_min hb h.base_le, rfl, hrep⟩

/-- The receive side of a frame with a valid N(R): exactly the I frame that carries
`V(R)` is taken. -/
theorem commonRx_receive (hfrmr : l.p.frmrCondition = false)
    (hvalid : isNRValid l.s l.p (extractNR l.s.framing fp) = true) :
    let r := commonRx l fp isCommand
    let take := isIFrm (fp.ctrl l.s.framing 0) = true ∧ extractNS l.s.framing fp = l.p.vr
    r.1.p.frmrCondition = false ∧ (r.1.p.uiTxPending = true → l.p.uiTxPending = true) ∧
      (take → r.2 = true ∧ r.1.p.vr = (l.p.vr + 1) &&& l.s.framing.modmask ∧
        r.1.p.iReceptQ = l.p.iReceptQ ++ [fp]) ∧
      (¬take → r.2 = false ∧ r.1.p.vr = l.p.vr ∧ r.1.p.iReceptQ = l.p.iReceptQ) := by
  obtain ⟨ack, hack⟩ : ∃ ack, handleCheckpointAndAck l (extractNR l.s.framing fp)
      (getPF l.s.framing fp) isCommand = some ack := by
    simp only [handleCheckpointAndAck, hvalid, if_true]
    split
    · exact ⟨_, rfl⟩
    · exact ⟨_, rfl⟩
  have hkeep := handleCheckpointAndAck_keeps hack
  have hfrmr' := hkeep.frmrCondition.trans hfrmr
  dsimp only
  simp only [commonRx, hfrmr, hack, Bool.false_eq_true, if_false]
  by_cases hi : isIFrm (fp.ctrl l.s.framing 0) = true
  · rw [if_pos hi]
    simp only [handleIFrame, hkeep.framing, hkeep.vr, hi, true_and]
    by_cases hns : extractNS l.s.framing fp = l.p.vr
    · rw [if_neg (not_not.mpr hns)]
      refine ⟨hfrmr', hkeep.uiTxPending, fun _ => ⟨rfl, rfl, ?_⟩, fun h => absurd hns h⟩
      rw [← hkeep.iReceptQ]
      rfl
    · rw [if_pos hns]
      exact ⟨hfrmr', hkeep.uiTxPending, fun h => absurd h hns, fun _ =>
        ⟨rfl, rfl, hkeep.iReceptQ⟩⟩
  · rw [if_neg hi]
    have hkeepS : ack.link.KeepsRx (handleSFrame ack.link fp).1 := handleSFrame_keeps
    refine ⟨hkeepS.frmrCondition.trans hfrmr', hkeep.uiTxPending ∘ hkeepS.uiTxPending,
      fun h => absurd h.1 hi, fun _ => ⟨rfl, hkeepS.vr.trans hkeep.vr, ?_⟩⟩
    exact hkeepS.iReceptQ.trans hkeep.iReceptQ

end Spec

end IoHdlc
