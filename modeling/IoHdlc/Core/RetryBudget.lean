import IoHdlc.Kit.RetryBudget
import IoHdlc.Core.PeerStream

/-!
`poll_retry_count` against what happens to the exchange with a peer.

`Peer.budget` is the counter with its bound. Every section that may change it comes with the
occurrences it stands for, by the state it starts from and what it reads, and a `Budget.Run`
over them.
-/

namespace IoHdlc

open Kit

def Peer.budget (p : Peer) : Budget :=
  { count := p.pollRetryCount.toNat, max := p.pollRetryMax.toNat }

/-! ### What a section stands for -/

/-- Whether an I or S frame is the response with F=1 that ends the poll. -/
def answersPoll (l : Link) (fp : Frame) : Bool :=
  reachesPeer l fp && (fp.addr l.s.framing).toUInt32 ≠ l.s.addr && !l.p.frmrCondition &&
    isNRValid l.s l.p (extractNR l.s.framing fp) && getPF l.s.framing fp

/-- Whether a U frame is the response to the command under way. -/
def answersRequest (l : Link) (fp : Frame) : Bool :=
  let addr := (fp.addr l.s.framing).toUInt32
  addr ≠ l.s.addr && addr = l.p.addr && uFunction l fp ≠ IOHDLC_U_UI && matchesUResponse l fp

/-- A received frame ends the exchange when it answers it, or when it opens or closes the
connection; of the answers only those that do the latter clear the counter. -/
def receivedOccurrences (l : Link) (fp : Frame) : List Occurrence :=
  if isUFrm (fp.ctrl l.s.framing 0) then
    if opensLink l fp || disconnectsLink l fp then [.ended true]
    else if answersRequest l fp then [.ended false]
    else []
  else if answersPoll l fp then [.ended true]
  else []

def replyTimeoutOccurrences (l : Link) (flags : EvtFlags) : List Occurrence :=
  if .cRplytmo ∈ flags ∧ l.p.replyTmr.isExpired then [.served !(handleTimeoutRetry l).2] else []

def t3TimeoutOccurrences (l : Link) (flags : EvtFlags) : List Occurrence :=
  if recoversOnT3 l flags then [.otherServed !(handleTimeoutRetry l).2] else []

def connectedTxOccurrences (l : Link) (flags : EvtFlags) : List Occurrence :=
  let flags := flags \ {.lineIdle}
  let r := serveReplyTimeout l flags
  replyTimeoutOccurrences l flags ++
    if r.2 then t3TimeoutOccurrences r.1 (flags \ {.cRplytmo}) else []

def dispatchTxOccurrences (l : Link) (flags : EvtFlags) : List Occurrence :=
  if l.p.isDisc || l.p.umState.sent then []
  else if l.s.mode = .nrm ∨ l.s.mode = .abm then connectedTxOccurrences l (flags \ {.linkStChg})
  else []

/-- A DISC of the other side takes effect. -/
def uResponseOccurrences (l : Link) (take : Option Frame) : List Occurrence :=
  if l.p.umState.rcved && (uResponseFrame l l.s.pfState.pRcved take).isSome &&
      l.p.umCmd = IOHDLC_U_DISC then [.ended true]
  else []

def servePeerOccurrences (l : Link) (flags : EvtFlags) (take : Takes) : List Occurrence :=
  let r := uResponseStage l flags take.uResponse
  uResponseOccurrences l take.uResponse ++ dispatchTxOccurrences r.1 r.2.2

/-- Whether a U command that goes out is the first of its exchange; `command` went out last. A
TEST has no timer of its own and does not end a poll whose timer is running. -/
def startsExchange (l : Link) (command : UInt8) : Bool :=
  (!l.p.umState.sent || command ≠ l.p.umCmd) &&
    (l.p.umCmd ≠ IOHDLC_U_TEST || !l.p.replyTmr.armed)

/-- A timeout that the section for U commands serves. -/
def uTimeoutOccurrences (l : Link) (timedOut : Bool) : List Occurrence :=
  if mayOriginateUCommand l && timedOut && l.p.umCmd ≠ IOHDLC_U_TEST then
    [.served !(handleTimeoutRetry l).2]
  else []

def uCommandOccurrences (l : Link) (command : UInt8) (timedOut : Bool) (take : Option Frame) :
    List Occurrence :=
  uTimeoutOccurrences l timedOut ++
    if emitsUCommand l timedOut take && startsExchange l command then [.ended false] else []

def serveRequestOccurrences (l : Link) (command : UInt8) (flags : EvtFlags) (timedOut : Bool)
    (take : Takes) : List Occurrence :=
  let r := sendUCommand l timedOut take.uCommand
  uCommandOccurrences l command timedOut take.uCommand ++
    match r.next with
    | .go => servePeerOccurrences r.link flags take
    | _ => []

section Sections

variable {l l' : Link} {fp : Frame} {flags : EvtFlags}

/-! ### Reception -/

theorem processNR_budget (s : Station) (p : Peer) (nr : UInt32) :
    (processNR s p nr).1.budget = p.budget := by
  obtain ⟨x, q, n, v, t, h⟩ := processNR_fields s p nr
  rw [h]
  rfl

theorem checkpointOnPF_budget (isCommand : Bool) :
    (checkpointOnPF l isCommand).1.p.budget = l.p.budget := by
  simp only [checkpointOnPF]
  split
  · rfl
  · rcases checkpointRetransmit_fields l.s l.p with h | ⟨x, h⟩
    · rw [h]
      rfl
    · rw [h]
      rfl

theorem handleCheckpointAndAck_budget {nr : UInt32} {pf isCommand : Bool} {ack : AckResult}
    (h : handleCheckpointAndAck l nr pf isCommand = some ack) :
    ack.link.p.budget = if pf && !isCommand then l.p.budget.cleared else l.p.budget := by
  have hnr := processNR_budget l.s l.p nr
  simp only [handleCheckpointAndAck] at h
  split at h
  · split at h
    next hpf =>
      cases h
      have hmoved := (checkpointOnPF_budget (l := { l with p := (processNR l.s l.p nr).1 })
        isCommand).trans hnr
      rw [hpf, Bool.true_and]
      cases isCommand with
      | true => exact hmoved
      | false => exact congrArg Budget.cleared hmoved
    next hpf =>
      cases h
      rw [Bool.eq_false_iff.mpr hpf]
      exact hnr
  · cases h

theorem handleIFrame_budget (pf : Bool) : (handleIFrame l fp pf).1.p.budget = l.p.budget := by
  simp only [handleIFrame]
  split <;> rfl

theorem handleSFrame_budget : (handleSFrame l fp).1.p.budget = l.p.budget := by
  obtain ⟨_, _, _, _, _, _, h⟩ := handleSFrame_fields l fp
  rw [h]
  rfl

theorem commonRx_budget (isCommand : Bool) :
    (commonRx l fp isCommand).1.p.budget =
      if !isCommand && !l.p.frmrCondition && isNRValid l.s l.p (extractNR l.s.framing fp) &&
          getPF l.s.framing fp then l.p.budget.cleared
      else l.p.budget := by
  cases commonRx_does l fp isCommand with
  | frmr on eq =>
    rw [eq, on, Bool.not_true, Bool.and_false, Bool.false_and, Bool.false_and, if_neg nofun,
      frmrPending]
    split <;> rfl
  | reject off hack eq =>
    rw [eq, off, isNRValid_of_refused hack, Bool.and_false, Bool.false_and, if_neg nofun]
    rfl
  | @iFrame ack r off hack hi hr eq =>
    have hbudget : r.1.p.budget = ack.link.p.budget := hr ▸ handleIFrame_budget _
    rw [handleCheckpointAndAck_budget hack] at hbudget
    rw [eq, off, isNRValid_of_ack hack, Bool.not_false, Bool.and_true, Bool.and_true, Bool.and_comm]
    exact hbudget
  | @sFrame ack r off hack hi hr eq =>
    have hbudget : r.1.p.budget = ack.link.p.budget := hr ▸ handleSFrame_budget
    rw [handleCheckpointAndAck_budget hack] at hbudget
    rw [eq, off, isNRValid_of_ack hack, Bool.not_false, Bool.and_true, Bool.and_true, Bool.and_comm]
    exact hbudget

theorem rxDispatch_budget (l : Link) (fp : Frame) :
    (rxDispatch l fp).1.p.budget =
      if answersPoll l fp then l.p.budget.cleared else l.p.budget := by
  rcases rxDispatch_eq l fp with ⟨hreach, h⟩ | ⟨hreach, h⟩
  · rw [h, answersPoll, hreach, Bool.false_and, Bool.false_and, Bool.false_and, Bool.false_and,
      if_neg nofun]
  · rw [h, commonRx_budget, answersPoll, hreach, Bool.true_and, ← decide_not]

/-! ### The ends of a connection -/

theorem closePeerOrderly_budget (l : Link) :
    (closePeerOrderly l).p.budget = l.p.budget.cleared := by
  have hclose : (leaveModeIfLast (ioHdlcSetDisconnected
      ⟨l.s, clearPeerTxQueues (resetPeerProtocolState l.p)⟩ .orderly)).p.budget =
        l.p.budget.cleared := by
    rw [leaveModeIfLast_p]
    rfl
  simp only [closePeerOrderly]
  split
  · exact hclose
  · exact hclose

/-- A served timeout goes by the budget. -/
theorem handleTimeoutRetry_gives (l : Link) :
    (!(handleTimeoutRetry l).2) = decide (l.p.budget.max ≤ l.p.budget.count) := by
  rw [handleTimeoutRetry_snd, ← decide_not]
  exact decide_eq_decide.mpr (UInt8.not_lt.trans UInt8.le_iff_toNat_le)

theorem handleTimeoutRetry_budget (l : Link) :
    (handleTimeoutRetry l).1.p.budget = l.p.budget.served !(handleTimeoutRetry l).2 := by
  have hsnd := handleTimeoutRetry_snd l
  rw [handleTimeoutRetry] at hsnd ⊢
  split
  · have habort : (abortPeerLink { l with s := l.s.broadcastFlags {.linkDown} }).p.budget =
        l.p.budget.cleared := by
      rw [abortPeerLink, leaveModeIfLast_p]
      rfl
    dsimp only
    split
    · exact habort
    · exact habort
  next hmore =>
    have hlt := UInt8.lt_iff_toNat_lt.mp (UInt8.not_le.mp hmore)
    have hmax := UInt8.toNat_lt l.p.pollRetryMax
    have hcount : (l.p.pollRetryCount + 1).toNat = l.p.pollRetryCount.toNat + 1 := by
      rw [UInt8.toNat_add, show (1 : UInt8).toNat = 1 from rfl]
      omega
    rw [Peer.budget, hcount]
    rfl

/-! ### U frames -/

theorem receiveUi_budget (fp : Frame) : (receiveUi l fp).p.budget = l.p.budget := by
  rw [receiveUi]
  split
  · rfl
  split <;> rfl

theorem receiveUCommand_budget (l : Link) (fp : Frame) :
    (receiveUCommand l fp).p.budget =
      if acceptsUCommand l fp && (ucmdToMode (uFunction l fp)).isSome then l.p.budget.cleared
      else l.p.budget := by
  rw [receiveUCommand]
  split
  next hacc =>
    have hfun : uFunction (registerUCommand l (uFunction l fp) (getPF l.s.framing fp)) fp =
      uFunction l fp := rfl
    simp only [serveUCommand, hfun]
    rw [hacc, Bool.true_and]
    cases ucmdToMode (uFunction l fp) with
    | some om => rfl
    | none =>
      dsimp only
      split
      · rfl
      split <;> rfl
  next hacc => rw [Bool.eq_false_iff.mpr hacc, Bool.false_and, if_neg (by simp)]

/-- A response to a command other than TEST. -/
theorem serveUResponse_budget (l : Link) (uCmd : UInt8) :
    (serveUResponse l uCmd).p.budget =
      if uCmd = IOHDLC_U_UA ∨ uCmd = IOHDLC_U_DM ∧ l.p.umCmd = IOHDLC_U_DISC then
        l.p.budget.cleared
      else l.p.budget := by
  have hclose := closePeerOrderly_budget l
  have hkept (h : ¬(uCmd = IOHDLC_U_UA ∨ uCmd = IOHDLC_U_DM ∧ l.p.umCmd = IOHDLC_U_DISC)) :
      l.p.budget = if uCmd = IOHDLC_U_UA ∨ uCmd = IOHDLC_U_DM ∧ l.p.umCmd = IOHDLC_U_DISC then
        l.p.budget.cleared else l.p.budget := (if_neg h).symm
  simp only [serveUResponse]
  by_cases hua : uCmd = IOHDLC_U_UA
  · refine Eq.trans ?_ (if_pos (.inl hua)).symm
    rw [if_pos hua]
    by_cases hdisc : l.p.umCmd = IOHDLC_U_DISC
    · rw [if_pos hdisc, if_neg (not_not.mpr hdisc)]
      exact hclose
    · rw [if_neg hdisc, if_pos hdisc]
      rfl
  · rw [if_neg hua]
    by_cases hdm : uCmd = IOHDLC_U_DM
    · rw [if_pos hdm]
      by_cases hdisc : l.p.umCmd = IOHDLC_U_DISC
      · refine Eq.trans ?_ (if_pos (.inr ⟨hdm, hdisc⟩)).symm
        rw [if_pos hdisc, if_neg (not_not.mpr hdisc)]
        exact hclose
      · refine Eq.trans ?_ (hkept fun h => h.elim hua fun h => hdisc h.2)
        rw [if_neg hdisc, if_pos hdisc]
        rfl
    · refine Eq.trans ?_ (hkept fun h => h.elim hua fun h => hdm h.1)
      rw [if_neg hdm]
      split <;> rfl

/-- Whether a response opens or closes the connection. -/
def settlesUCommand (l : Link) (fp : Frame) : Bool :=
  l.p.umCmd ≠ IOHDLC_U_TEST &&
    (uFunction l fp = IOHDLC_U_UA || uFunction l fp = IOHDLC_U_DM && l.p.umCmd = IOHDLC_U_DISC)

theorem receiveUResponse_budget (l : Link) (fp : Frame) :
    (receiveUResponse l fp).p.budget =
      if matchesUResponse l fp && settlesUCommand l fp then l.p.budget.cleared
      else l.p.budget := by
  rw [receiveUResponse]
  split
  next hmatch =>
    rw [hmatch, Bool.true_and, settlesUCommand]
    by_cases htest : l.p.umCmd = IOHDLC_U_TEST
    · rw [htest]
      rfl
    · have hserve := serveUResponse_budget
        { l with p := { l.p with replyTmr := l.p.replyTmr.reset } } (uFunction l fp)
      simp only [htest, if_false]
      refine hserve.trans ?_
      simp [htest]
      rfl
  next hmatch => rw [Bool.eq_false_iff.mpr hmatch, Bool.false_and, if_neg (by simp)]

/-- A response that opens or closes the connection is one to a set-mode command or to DISC. -/
theorem opens_or_disconnects (hs : (fp.addr l.s.framing).toUInt32 ≠ l.s.addr)
    (hp : (fp.addr l.s.framing).toUInt32 = l.p.addr) (hui : uFunction l fp ≠ IOHDLC_U_UI) :
    (opensLink l fp || disconnectsLink l fp) =
      (matchesUResponse l fp && settlesUCommand l fp) := by
  rw [hp] at hs
  simp only [opensLink, disconnectsLink, settlesUCommand, if_neg hui, hp]
  cases matchesUResponse l fp with
  | false => simp [hs]
  | true =>
    by_cases hdisc : l.p.umCmd = IOHDLC_U_DISC
    · simp [hs, hdisc, show IOHDLC_U_DISC ≠ IOHDLC_U_TEST by decide]
    · simp [hs, hdisc, Bool.and_comm]

/-- A U frame clears the counter when it opens or closes the connection. -/
theorem handleUFrame_budget (l : Link) (fp : Frame) :
    (handleUFrame l fp).p.budget =
      if opensLink l fp || disconnectsLink l fp then l.p.budget.cleared else l.p.budget := by
  simp only [handleUFrame]
  by_cases hs : (fp.addr l.s.framing).toUInt32 = l.s.addr
  · have hno : disconnectsLink l fp = false := by simp [disconnectsLink, hs]
    rw [if_neg (not_and.mpr fun h => absurd hs h), hno, Bool.or_false]
    by_cases hui : uFunction l fp = IOHDLC_U_UI
    · rw [if_pos hui, receiveUi_budget, opensLink, if_pos hui, if_neg (by simp)]
    · rw [if_neg hui, if_pos hs, receiveUCommand_budget, opensLink, if_neg hui, if_pos hs]
  · by_cases hp : (fp.addr l.s.framing).toUInt32 = l.p.addr
    · rw [if_neg (not_and.mpr fun _ => not_not.mpr hp)]
      by_cases hui : uFunction l fp = IOHDLC_U_UI
      · have hno : (opensLink l fp || disconnectsLink l fp) = false := by
          rw [opensLink, if_pos hui, Bool.false_or, disconnectsLink, hui]
          simp [show IOHDLC_U_UI ≠ IOHDLC_U_UA by decide, show IOHDLC_U_UI ≠ IOHDLC_U_DM by decide]
        rw [if_pos hui, receiveUi_budget, hno, if_neg (by simp)]
      · rw [if_neg hui, if_neg hs, receiveUResponse_budget, opens_or_disconnects hs hp hui]
    · have hno : (opensLink l fp || disconnectsLink l fp) = false := by
        simp [opensLink, disconnectsLink, hs, hp]
      rw [if_pos ⟨hs, hp⟩, hno, if_neg (by simp)]

/-- A received frame goes by the budget. -/
theorem receivedOccurrences_run (l : Link) (fp : Frame) :
    l.p.budget.Run (receivedOccurrences l fp)
      (if isUFrm (fp.ctrl l.s.framing 0) then handleUFrame l fp else (rxDispatch l fp).1).p.budget := by
  rw [receivedOccurrences]
  split
  · have h := handleUFrame_budget l fp
    split
    next hclears => exact .single trivial (h.trans (if_pos hclears))
    next hkeeps =>
      rw [if_neg hkeeps] at h
      split
      · exact .single trivial h
      · exact .of_eq h
  · have h := rxDispatch_budget l fp
    split
    next hpoll => exact .single trivial (h.trans (if_pos hpoll))
    next hpoll => exact .of_eq (h.trans (if_neg hpoll))

/-! ### The transmit worker -/

theorem serveReplyTimeout_run (l : Link) (flags : EvtFlags) :
    l.p.budget.Run (replyTimeoutOccurrences l flags) (serveReplyTimeout l flags).1.p.budget := by
  have hretry := handleTimeoutRetry_budget l
  rw [replyTimeoutOccurrences, serveReplyTimeout]
  split
  · refine .single (handleTimeoutRetry_gives l) ?_
    dsimp only
    split
    · exact hretry
    · exact hretry
  · exact .nil _

theorem serveT3Timeout_run (l : Link) (flags : EvtFlags) :
    l.p.budget.Run (t3TimeoutOccurrences l flags) (serveT3Timeout l flags).1.p.budget := by
  rw [t3TimeoutOccurrences, recoversOnT3, serveT3Timeout]
  split
  next hrec =>
    simp only [Bool.and_eq_true, decide_eq_true_eq, Bool.not_eq_true', List.isEmpty_eq_false_iff] at hrec
    obtain ⟨⟨⟨hflag, hexp⟩, hmode⟩, hq⟩ := hrec
    have hretry := handleTimeoutRetry_budget { l with p := { l.p with t3Tmr := l.p.t3Tmr.reset } }
    have hsame : (handleTimeoutRetry { l with p := { l.p with t3Tmr := l.p.t3Tmr.reset } }).2 =
        (handleTimeoutRetry l).2 := by
      rw [handleTimeoutRetry_snd, handleTimeoutRetry_snd]
    rw [if_pos ⟨hflag, hexp⟩, ← hsame]
    dsimp only
    rw [if_neg hmode]
    refine .single (hsame ▸ handleTimeoutRetry_gives l) ?_
    split
    next hnil => exact absurd hnil hq
    · split
      · exact hretry
      · exact hretry
  next hrec =>
    refine .of_eq ?_
    split
    next hserve =>
      dsimp only
      split
      · rfl
      next hmode =>
        split
        · rfl
        next hq =>
          refine absurd ?_ hrec
          simp only [hserve.1, hserve.2, hmode, decide_true, decide_not, decide_false, Bool.not_false,
            Bool.and_true, hq, List.isEmpty_cons]
    · rfl

theorem sendUi_budget (l : Link) (take : Option Frame) :
    (sendUi l take).1.p.budget = l.p.budget := by
  simp only [sendUi]
  split
  · split <;> rfl
  · rfl

theorem connectedTxEntry_run (l : Link) (flags : EvtFlags) (take : Option Frame) :
    l.p.budget.Run (connectedTxOccurrences l flags) (connectedTxEntry l flags take).link.p.budget := by
  have hreply := serveReplyTimeout_run l (flags \ {.lineIdle})
  simp only [connectedTxOccurrences, connectedTxEntry]
  refine hreply.append ?_
  split
  · have ht3 := serveT3Timeout_run (serveReplyTimeout l (flags \ {.lineIdle})).1
      ((flags \ {.lineIdle}) \ {.cRplytmo})
    split
    · rw [sendUi_budget]
      exact ht3
    · exact ht3
  · exact .nil _

theorem dispatchTx_run (l : Link) (flags : EvtFlags) (take : Option Frame) :
    l.p.budget.Run (dispatchTxOccurrences l flags) (dispatchTx l flags take).link.p.budget := by
  simp only [dispatchTxOccurrences, dispatchTx]
  split
  · split <;> exact .nil _
  split
  · exact connectedTxEntry_run ..
  · exact .nil _

theorem uResponseStage_run (l : Link) (flags : EvtFlags) (take : Option Frame) :
    l.p.budget.Run (uResponseOccurrences l take) (uResponseStage l flags take).1.p.budget := by
  rw [uResponseOccurrences, uResponseStage]
  cases l.p.umState.rcved with
  | false => exact .nil _
  | true =>
    simp only [Bool.true_and, if_true, sendUResponse]
    cases uResponseFrame l l.s.pfState.pRcved take with
    | none => exact .nil _
    | some fp =>
      simp only [Option.isSome_some, Bool.true_and, decide_eq_true_eq, uResponseSent,
        restartIFrameReplyTimer]
      by_cases hdisc : l.p.umCmd = IOHDLC_U_DISC
      · rw [if_pos hdisc, if_neg (by rw [hdisc]; decide), if_pos hdisc]
        exact .single trivial (closePeerOrderly_budget _)
      · rw [if_neg hdisc, if_neg hdisc]
        refine .of_eq ?_
        split <;> rfl

theorem servePeer_run (l : Link) (flags : EvtFlags) (take : Takes) :
    l.p.budget.Run (servePeerOccurrences l flags take) (servePeer l flags take).link.p.budget :=
  (uResponseStage_run l flags take.uResponse).append (dispatchTx_run ..)

theorem uCommandSent_budget (l : Link) : (uCommandSent l).p.budget = l.p.budget := by
  rw [uCommandSent]
  dsimp only
  split <;> rfl

/-- The retry before a U command. -/
theorem retryBefore_run (l : Link) (timedOut : Bool) (hmay : mayOriginateUCommand l = true) :
    l.p.budget.Run (uTimeoutOccurrences l timedOut) (retryBefore l timedOut).1.p.budget := by
  rw [uTimeoutOccurrences, hmay, Bool.true_and, retryBefore]
  split
  · exact .single (handleTimeoutRetry_gives l) (handleTimeoutRetry_budget l)
  · exact .nil _

/-- The U command starts an exchange with the counter as it is. -/
theorem sendUCommand_run (l : Link) (command : UInt8) (timedOut : Bool) (take : Option Frame) :
    l.p.budget.Run (uCommandOccurrences l command timedOut take)
      (sendUCommand l timedOut take).link.p.budget := by
  have hstart (b : Budget) (c : Prop) [Decidable c] :
      b.Run (if c then [.ended false] else []) b := by
    split
    · exact .single trivial rfl
    · exact .nil b
  rw [uCommandOccurrences]
  rcases sendUCommand_ends l timedOut take with
    ⟨hmay, h⟩ | ⟨hmay, -, h⟩ | ⟨hmay, -, h, -⟩ | ⟨hmay, -, -, fp, -, h⟩
  · rw [h, uTimeoutOccurrences, hmay, Bool.false_and, Bool.false_and, if_neg nofun]
    exact hstart _ _
  · rw [h]
    exact (retryBefore_run l timedOut hmay).append (hstart _ _)
  · rw [h]
    exact (retryBefore_run l timedOut hmay).append (hstart _ _)
  · rw [h]
    dsimp only
    rw [uCommandSent_budget]
    exact (retryBefore_run l timedOut hmay).append (hstart _ _)

theorem serveRequest_run (l : Link) (command : UInt8) (flags : EvtFlags) (timedOut : Bool)
    (take : Takes) :
    l.p.budget.Run (serveRequestOccurrences l command flags timedOut take)
      (serveRequest l flags timedOut take).link.p.budget := by
  have hcmd := sendUCommand_run l command timedOut take.uCommand
  simp only [serveRequestOccurrences, serveRequest]
  refine hcmd.append ?_
  cases (sendUCommand l timedOut take.uCommand).next with
  | drop => exact .nil _
  | linkDown => exact .nil _
  | wait => exact .nil _
  | go => exact servePeer_run ..

theorem connectedTxIFrame_budget (l : Link) (flags : EvtFlags) (iSent : Bool) :
    (connectedTxIFrame l flags iSent).link.p.budget = l.p.budget := by
  rw [connectedTxIFrame]
  split
  · rfl
  split
  · rfl
  · dsimp only
    split <;> rfl

theorem connectedTxSFrame_budget (l : Link) (flags : EvtFlags) (iSent : Bool)
    (take : Nat → Option Frame) :
    (connectedTxSFrame l flags iSent take).link.p.budget = l.p.budget := by
  obtain ⟨_, _, _, _, _, _, _, h⟩ := connectedTxSFrame_fields l flags iSent take
  rw [h]
  rfl

/-! ### The calls of the application -/

theorem linkUpStart_budget (l : Link) (mode : Mode) (nrmOnly : Bool) :
    (linkUpStart l mode nrmOnly).1.p.budget = l.p.budget := by
  simp only [linkUpStart]
  split
  · rfl
  split
  · rfl
  split
  · rfl
  split <;> rfl

theorem linkDownStart_budget (l : Link) : (linkDownStart l).1.p.budget = l.p.budget := by
  simp only [linkDownStart]
  split
  · rfl
  split <;> rfl

/-- What the timers and the calls of the application stand for. A TEST that was sent is given up
by its call, and the counter stays as it is. -/
def PeerOp.occurrences (l : Link) : PeerOp → List Occurrence
  | .replyTimer => if l.p.replyTmr.armed then [.ranOut] else []
  | .peerTestExpire =>
    if l.p.umCmd = IOHDLC_U_TEST ∧ l.p.umState.sent then [.ended false] else []
  | _ => []

theorem PeerOp.apply_budget {op : PeerOp} {w : WriterPc} {r : Link × WriterPc}
    (h : op.apply l w = some r) : r.1.p.budget = l.p.budget := by
  cases op with
  | writeBegin octets =>
    cases w <;> simp only [PeerOp.apply, reduceCtorEq, Option.some.injEq] at h
    subst h
    rw [IoHdlc.writeBegin]
    split <;> rfl
  | writeReserve timedOut take =>
    cases w <;> simp only [PeerOp.apply, reduceCtorEq, Option.some.injEq] at h
    subst h
    simp only [IoHdlc.writeReserve]
    split
    · rfl
    split
    · rfl
    split
    · rfl
    split
    · rfl
    split <;> rfl
  | writeInsert =>
    cases w <;> simp only [PeerOp.apply, reduceCtorEq, Option.some.injEq] at h
    subst h
    simp only [IoHdlc.writeInsert]
    split
    · rfl
    split <;> rfl
  | writeDone =>
    cases w <;> simp only [PeerOp.apply, reduceCtorEq, Option.some.injEq] at h
    subst h
    rfl
  | read =>
    simp only [PeerOp.apply] at h
    split at h
    · cases h
      rfl
    · cases h
  | replyTimer =>
    cases h
    rw [Endpoint.replyTimerExpiry]
    split <;> rfl
  | t3Timer =>
    cases h
    rw [Endpoint.t3TimerExpiry]
    split <;> rfl
  | uiSend value =>
    cases h
    rw [ioHdlcPeerUiSend]
    split <;> rfl
  | uiGet =>
    cases h
    rw [ioHdlcPeerUiGet]
    split <;> rfl
  | peerTest len take =>
    cases h
    simp only [peerTestStart]
    split
    · rfl
    split
    · rfl
    split
    · rfl
    split <;> rfl
  | peerTestTake =>
    cases h
    rw [sTakeCompletedTestFrame]
    split <;> rfl
  | peerTestExpire =>
    cases h
    rcases peerTestExpire_eq l with h | h | ⟨-, h⟩
    · rw [h]
    · rw [h]
      rfl
    · rw [h]
      rfl

theorem PeerOp.apply_run {op : PeerOp} {w : WriterPc} {r : Link × WriterPc}
    (h : op.apply l w = some r) : l.p.budget.Run (op.occurrences l) r.1.p.budget := by
  have hsame := PeerOp.apply_budget h
  cases op with
  | replyTimer =>
    rw [PeerOp.occurrences]
    split
    · exact .single trivial hsame
    · exact .of_eq hsame
  | peerTestExpire =>
    rw [PeerOp.occurrences]
    split
    · exact .single trivial hsame
    · exact .of_eq hsame
  | _ => exact .of_eq hsame

end Sections

/-! ### A node -/

namespace Node

variable {n : Nat} {nd nd' : Node n} {a : Action n} {sent : List Frame} {i : Fin n}

/-- A pass that starts with these flags. -/
def passOccurrences (l : Link) (command : UInt8) (flags : EvtFlags) (take : Takes) :
    List Occurrence :=
  if uCommandDue l flags then
    if requestsOtherPeer l flags then []
    else
      serveRequestOccurrences l command (flags \ uCommandFlags) (decide (.cRplytmo ∈ flags)) take
  else servePeerOccurrences l flags take

/-- What an action stands for at peer `i`, to which `command` went out last. -/
def occurrences (nd : Node n) (command : UInt8) (i : Fin n) : Action n → List Occurrence
  | .receive fp =>
    if i = nd.cPeer then receivedOccurrences (Endpoint.lineBusy (nd.link nd.cPeer)) fp else []
  | .txEntry take => match nd.pc with
    | .sched (.idle flags) =>
      if i = nd.cPeer then passOccurrences (nd.link nd.cPeer) command flags take else []
    | _ => []
  | .txSwitched take => match nd.pc with
    | .switched flags timedOut =>
      if i = nd.cPeer then
        serveRequestOccurrences (nd.link nd.cPeer) command flags timedOut take
      else []
    | _ => []
  | .peer j op => if i = j then op.occurrences (nd.link j) else []
  | _ => []

/-- What happens at one peer is what happens to its link. -/
theorem run_setLink {l : Link} {j : Fin n} {os : List Occurrence}
    (h : (nd.peer j).budget.Run os l.p.budget) (i : Fin n) :
    (nd.peer i).budget.Run (if i = j then os else []) ((nd.setLink j l).peer i).budget := by
  by_cases hi : i = j
  · subst hi
    rw [if_pos rfl, setLink_peer_self]
    exact h
  · rw [if_neg hi, setLink_peer_of_ne nd l hi]
    exact .nil _

theorem run_finishPass {r : Pass} {os : List Occurrence}
    (h : (nd.peer nd.cPeer).budget.Run os r.link.p.budget) (i : Fin n) :
    (nd.peer i).budget.Run (if i = nd.cPeer then os else [])
      ((nd.finishPass r).1.peer i).budget := by
  rw [finishPass_peer]
  exact run_setLink h i

theorem txEntry_run (nd : Node n) (command : UInt8) (flags : EvtFlags) (take : Takes) (i : Fin n) :
    (nd.peer i).budget.Run
      (if i = nd.cPeer then passOccurrences (nd.link nd.cPeer) command flags take else [])
      ((nd.txEntry flags take).1.peer i).budget := by
  have hrequest := run_finishPass (serveRequest_run (nd.link nd.cPeer) command
    (flags \ uCommandFlags) (decide (.cRplytmo ∈ flags)) take) i
  have hpeer := run_finishPass (servePeer_run (nd.link nd.cPeer) flags take) i
  simp only [passOccurrences, txEntry]
  by_cases hdue : uCommandDue (nd.link nd.cPeer) flags = true
  · rw [if_pos hdue, if_pos hdue]
    by_cases hother : requestsOtherPeer (nd.link nd.cPeer) flags = true
    · rw [if_pos hother, if_pos hother, ite_self]
      exact .nil _
    · rw [if_neg hother, if_neg hother]
      exact hrequest
  · rw [if_neg hdue, if_neg hdue]
    exact hpeer

/-- The counter of every peer goes by what happens to the exchange with it. -/
theorem act_run (h : nd.act a = some (nd', sent)) (command : UInt8) (i : Fin n) :
    (nd.peer i).budget.Run (nd.occurrences command i a) (nd'.peer i).budget := by
  have hneedP (j : Fin n) := needP_field Peer.budget (fun _ _ => rfl) nd j i
  cases a with
  | receive fp =>
    cases h
    exact run_setLink (receivedOccurrences_run (Endpoint.lineBusy (nd.link nd.cPeer)) fp) i
  | lineIdle =>
    cases h
    exact .of_eq (setLink_peer_field Peer.budget nd _ rfl i)
  | txFetch =>
    simp only [act] at h
    split at h
    · split at h
      · cases h
        exact .nil _
      · cases h
    · cases h
  | txEntry take =>
    simp only [act] at h
    split at h
    next flags hpc =>
      split at h
      · obtain rfl := congrArg Prod.fst (Option.some.inj h)
        simp only [occurrences, hpc]
        exact txEntry_run nd command flags take i
      · cases h
    · cases h
  | txSwitched take =>
    simp only [act] at h
    split at h
    next flags timedOut hpc =>
      obtain rfl := congrArg Prod.fst (Option.some.inj h)
      simp only [occurrences, hpc]
      exact run_finishPass (serveRequest_run (nd.link nd.cPeer) command flags timedOut take) i
    · cases h
  | txAdvance =>
    simp only [act] at h
    split at h
    · cases h
      refine .of_eq ?_
      simp only [txAdvance]
      split
      · rfl
      · exact hneedP _
    · cases h
  | txCheck =>
    simp only [act] at h
    split at h
    · cases h
      exact .nil _
    · cases h
  | txIFrame =>
    simp only [act] at h
    split at h
    · cases h
      refine .of_eq ((finishTx_field Peer.budget (fun _ _ => rfl) ..).trans ?_)
      exact setLink_peer_field Peer.budget nd _ (connectedTxIFrame_budget ..) i
    · cases h
  | txSFrame take =>
    simp only [act] at h
    split at h
    · cases h
      refine .of_eq ((finishTx_field Peer.budget (fun _ _ => rfl) ..).trans ?_)
      exact setLink_peer_field Peer.budget nd _ (connectedTxSFrame_budget ..) i
    · cases h
  | linkUp j mode nrmOnly =>
    cases h
    have hsame := setLink_peer_field Peer.budget nd _ (linkUpStart_budget (nd.link j) mode nrmOnly) i
    refine .of_eq ?_
    split
    · exact hsame
    · exact hsame
  | linkUpDone call =>
    simp only [act] at h
    split at h
    · cases h
      exact .nil _
    · cases h
  | linkUpFails call =>
    simp only [act] at h
    split at h
    · cases h
      exact .nil _
    · cases h
  | linkDown j =>
    cases h
    exact .of_eq (setLink_peer_field Peer.budget nd _ (linkDownStart_budget (nd.link j)) i)
  | peer j op =>
    simp only [act, Option.map_eq_some_iff] at h
    obtain ⟨r, hr, h⟩ := h
    cases h
    exact run_setLink (PeerOp.apply_run hr) i
  | poolState state =>
    cases h
    exact .nil _
  | poolChange =>
    cases h
    exact .nil _

end Node

end IoHdlc
