import IoHdlc.Core.CommandAnswer
import IoHdlc.Core.FlagService

/-!
The UM transaction slot of a peer, `um_cmd` with `um_state`, through a history of received U
frames.

A received command takes the slot until the worker has answered it. A response gives it back if
the code knows what to do with its function. `releasesSlot` says where either happens; a command
that the station does not support is answered with DM and keeps the slot.
-/

namespace IoHdlc

variable {l : Link} {fp : Frame}

/-! ### The slot -/

/-- A call of the application that holds the slot while it waits with a deadline. -/
inductive ApiCaller where
  | peerTest
  | linkUp (mode : Mode)
  | linkDown
  deriving DecidableEq

/-- The command under which it waits. -/
def ApiCaller.uCmd : ApiCaller → Option UInt8
  | .peerTest => some IOHDLC_U_TEST
  | .linkUp mode => modeToUcmd mode
  | .linkDown => some IOHDLC_U_DISC

def awaited (callers : List ApiCaller) (uCmd : UInt8) : Bool :=
  callers.any (·.uCmd = some uCmd)

/-- `um_cmd` and `um_state` are idle. -/
def slotIdle (l : Link) : Bool :=
  l.p.umCmd = 0 && !l.p.umState.sent && !l.p.umState.rcved

/-- The slot is idle, or its transaction has a running reply timer, or a caller waits for it. -/
def slotFreed (callers : List ApiCaller) (l : Link) : Bool :=
  slotIdle l || (l.p.umState.sent && l.p.replyTmr.armed) || awaited callers l.p.umCmd

/-- What the station does about a received U frame. -/
inductive UmEvent where
  | received (fp : Frame)
  /-- The section for U responses. -/
  | dealtWith (flags : EvtFlags) (take : Option Frame)

def Link.serveUm (l : Link) : UmEvent → Link
  | .received fp => handleUFrame l fp
  | .dealtWith flags take => (uResponseStage l flags take).1

/-- The slot is free, or a received command is still to be dealt with. -/
def SlotServed (callers : List ApiCaller) (l : Link) : Prop :=
  l.p.umState.rcved = true ∨ slotFreed callers l = true

/-! ### What gives it back -/

/-- Whether a received frame is a U response that matches the transaction but has a function
that the code does not look at. -/
def matchesInVain (l : Link) (fp : Frame) : Bool :=
  answersUCommand l fp && l.p.umCmd ≠ IOHDLC_U_TEST &&
    !(uFunction l fp = IOHDLC_U_UI || uFunction l fp = IOHDLC_U_UA || uFunction l fp = IOHDLC_U_DM ||
      uFunction l fp = IOHDLC_U_FRMR)

/-- Whether an event leaves the slot served. -/
def releasesSlot (callers : List ApiCaller) (l : Link) : UmEvent → Bool
  | .received fp =>
    !matchesInVain l fp || l.p.umState.rcved || l.p.umCmd = 0 || awaited callers l.p.umCmd
  | .dealtWith _ take =>
    !l.p.umState.rcved ||
      hasResponseFrame l take &&
        (l.p.umCmd = IOHDLC_U_DISC || l.p.umCmd = IOHDLC_U_TEST && !l.p.umState.sent) ||
      l.p.umCmd = 0 && !l.p.umState.sent || l.p.umState.sent && l.p.replyTmr.armed ||
      awaited callers l.p.umCmd

/-- Whether every event of a history does, each in the state that it finds. -/
def releasesThroughout (callers : List ApiCaller) (l : Link) : List UmEvent → Bool
  | [] => true
  | e :: events => releasesSlot callers l e && releasesThroughout callers (l.serveUm e) events

/-! ### Reception -/

/-- UA, DM and FRMR end the transaction of any command but TEST. -/
theorem serveUResponse_slot {uCmd : UInt8}
    (hfun : uCmd = IOHDLC_U_UA ∨ uCmd = IOHDLC_U_DM ∨ uCmd = IOHDLC_U_FRMR) :
    (serveUResponse l uCmd).p.umCmd = 0 ∧ (serveUResponse l uCmd).p.umState = {} := by
  obtain ⟨-, -, hstate, hcmd⟩ := closePeerOrderly_closed l
  simp only [serveUResponse]
  rcases hfun with rfl | rfl | rfl
  · rw [if_pos rfl]
    split <;> exact ⟨rfl, rfl⟩
  · rw [if_neg (by decide), if_pos rfl]
    by_cases hdisc : l.p.umCmd = IOHDLC_U_DISC
    · rw [if_neg (not_not.mpr hdisc), if_pos hdisc]
      exact ⟨hcmd, hstate⟩
    · rw [if_pos hdisc, if_neg hdisc]
      exact ⟨rfl, rfl⟩
  · rw [if_neg (by decide), if_neg (by decide), if_pos rfl]
    exact ⟨rfl, rfl⟩

/-- What a received U frame makes of the slot. -/
inductive Link.SlotStep (l l' : Link) : Prop
  | same (umCmd : l'.p.umCmd = l.p.umCmd) (umState : l'.p.umState = l.p.umState)
    (replyTmr : l'.p.replyTmr = l.p.replyTmr)
  | taken (rcved : l'.p.umState.rcved = true)
  | ended (umCmd : l'.p.umCmd = 0) (umState : l'.p.umState = {})

theorem receiveUResponse_slotStep (hmatch : matchesUResponse l fp = true)
    (hfun : l.p.umCmd = IOHDLC_U_TEST ∨ uFunction l fp = IOHDLC_U_UA ∨
      uFunction l fp = IOHDLC_U_DM ∨ uFunction l fp = IOHDLC_U_FRMR) :
    l.SlotStep (receiveUResponse l fp) := by
  rw [receiveUResponse, if_pos hmatch]
  by_cases htest : l.p.umCmd = IOHDLC_U_TEST
  · simp only [htest, if_true]
    exact .ended rfl rfl
  · simp only [htest, if_false]
    obtain ⟨hcmd, hstate⟩ := @serveUResponse_slot
      { l with p := { l.p with replyTmr := l.p.replyTmr.reset } } _ (hfun.resolve_left htest)
    refine .ended hcmd ?_
    simp only [finishUResponse, hstate]

/-- A response with another function stops the timer and leaves the command. -/
theorem receiveUResponse_inVain (hvain : matchesInVain l fp = true) :
    (receiveUResponse l fp).p.umCmd = l.p.umCmd ∧
      (receiveUResponse l fp).p.umState = { l.p.umState with sent := false } := by
  simp only [matchesInVain, answersUCommand, Bool.and_eq_true, decide_eq_true_eq, Bool.not_eq_true',
    Bool.or_eq_false_iff, decide_eq_false_iff_not] at hvain
  obtain ⟨⟨⟨-, hmatch⟩, htest⟩, ⟨⟨-, hua⟩, hdm⟩, hfrmr⟩ := hvain
  rw [receiveUResponse, if_pos hmatch]
  simp only [htest, if_false, serveUResponse, hua, hdm, hfrmr]
  exact ⟨rfl, rfl⟩

/-- Every other frame is discarded, or taken up, or ends the transaction. -/
theorem handleUFrame_slotStep (hvain : matchesInVain l fp = false) :
    l.SlotStep (handleUFrame l fp) := by
  simp only [handleUFrame]
  split
  · exact .same rfl rfl rfl
  next haddr =>
    split
    · rw [receiveUi]
      split
      · exact .same rfl rfl rfl
      split <;> exact .same rfl rfl rfl
    next hui =>
      split
      · rw [receiveUCommand]
        split
        · exact .taken rfl
        · exact .same rfl rfl rfl
      next hcommand =>
        rw [not_and_not_right] at haddr
        by_cases hmatch : matchesUResponse l fp = true
        · refine receiveUResponse_slotStep hmatch ?_
          -- a response to this transaction that is not in vain
          by_contra hfun
          rw [not_or, not_or, not_or] at hfun
          rw [matchesInVain, answersUCommand, decide_eq_true hcommand,
            decide_eq_true (haddr hcommand), hmatch] at hvain
          simp [hui, hfun] at hvain
        · rw [receiveUResponse, if_neg hmatch]
          exact .same rfl rfl rfl

theorem Link.SlotStep.served {l' : Link} {callers : List ApiCaller} (hstep : l.SlotStep l')
    (h : SlotServed callers l) : SlotServed callers l' := by
  cases hstep with
  | same hcmd hstate htmr =>
    rw [SlotServed, slotFreed, slotIdle, hcmd, hstate, htmr]
    exact h
  | taken hrcved => exact .inl hrcved
  | ended hcmd hstate =>
    refine .inr ?_
    rw [slotFreed, slotIdle, hcmd, hstate]
    rfl

theorem handleUFrame_served_iff {callers : List ApiCaller} (h : SlotServed callers l) :
    SlotServed callers (handleUFrame l fp) ↔ releasesSlot callers l (.received fp) = true := by
  by_cases hvain : matchesInVain l fp = true
  · have hresponse : handleUFrame l fp = receiveUResponse l fp := by
      simp only [matchesInVain, answersUCommand, Bool.and_eq_true, decide_eq_true_eq,
        Bool.not_eq_true', Bool.or_eq_false_iff, decide_eq_false_iff_not] at hvain
      obtain ⟨⟨⟨⟨hstation, hpeer⟩, -⟩, -⟩, ⟨⟨hui, -⟩, -⟩, -⟩ := hvain
      simp only [handleUFrame]
      rw [if_neg (fun hno => hno.2 hpeer), if_neg hui, if_neg hstation]
    obtain ⟨hcmd, hstate⟩ := receiveUResponse_inVain hvain
    rw [hresponse, SlotServed, slotFreed, slotIdle, hcmd, hstate, releasesSlot, hvain]
    cases l.p.umState.rcved <;> simp
  · rw [Bool.not_eq_true] at hvain
    refine iff_of_true ((handleUFrame_slotStep hvain).served h) ?_
    rw [releasesSlot, hvain]
    rfl

/-! ### The response -/

theorem closePeerOrderly_freed (callers : List ApiCaller) (l : Link) :
    slotFreed callers (closePeerOrderly l) = true := by
  obtain ⟨-, -, hstate, hcmd⟩ := closePeerOrderly_closed l
  rw [slotFreed, slotIdle, hcmd, hstate]
  rfl

/-- A response that goes out ends a TEST and a DISC. Whatever else was registered stays. -/
theorem uResponseStage_served_iff {callers : List ApiCaller} (h : SlotServed callers l)
    (flags : EvtFlags) (take : Option Frame) :
    SlotServed callers (uResponseStage l flags take).1 ↔
      releasesSlot callers l (.dealtWith flags take) = true := by
  by_cases hrcved : l.p.umState.rcved = true
  · rw [uResponseStage, if_pos hrcved, releasesSlot, hrcved, Bool.not_true, Bool.false_or,
      ← uResponseFrame_isSome l l.s.pfState.pRcved take]
    simp only [sendUResponse]
    cases hfp : uResponseFrame l l.s.pfState.pRcved take with
    | none => simp [SlotServed, slotFreed, slotIdle]
    | some rsp =>
      simp only [uResponseSent, restartIFrameReplyTimer]
      by_cases htest : l.p.umCmd = IOHDLC_U_TEST
      · cases hsent : l.p.umState.sent with
        | true => simp [SlotServed, slotFreed, slotIdle, htest, IOHDLC_U_TEST, IOHDLC_U_DISC]
        | false => simp [SlotServed, slotFreed, slotIdle, htest]
      · by_cases hdisc : l.p.umCmd = IOHDLC_U_DISC
        · simp only [if_neg htest, if_pos hdisc]
          exact iff_of_true (.inr (closePeerOrderly_freed callers _)) (by simp [hdisc])
        · simp [SlotServed, slotFreed, slotIdle, htest, hdisc]
  · rw [uResponseStage, if_neg hrcved, releasesSlot, Bool.eq_false_iff.mpr hrcved]
    exact iff_of_true h rfl

/-! ### A history -/

theorem serveUm_served_iff {callers : List ApiCaller} (h : SlotServed callers l) (e : UmEvent) :
    SlotServed callers (l.serveUm e) ↔ releasesSlot callers l e = true := by
  cases e with
  | received fp => exact handleUFrame_served_iff h
  | dealtWith flags take => exact uResponseStage_served_iff h flags take

/-- From a slot that is served: it stays so throughout a history of received U frames just if
every event of the history leaves it so. -/
theorem slotServed_iff (callers : List ApiCaller) (events : List UmEvent) (l : Link)
    (h : SlotServed callers l) :
    (∀ past, past <+: events → SlotServed callers (past.foldl Link.serveUm l)) ↔
      releasesThroughout callers l events = true := by
  induction events generalizing l with
  | nil =>
    refine iff_of_true (fun past hpast => ?_) rfl
    rwa [List.prefix_nil.mp hpast]
  | cons e rest ih =>
    rw [releasesThroughout, Bool.and_eq_true]
    constructor
    · intro hserved
      have he : SlotServed callers (l.serveUm e) :=
        hserved [e] (List.cons_prefix_cons.mpr ⟨rfl, List.nil_prefix⟩)
      refine ⟨(serveUm_served_iff h e).mp he, (ih _ he).mp fun past hpast => ?_⟩
      exact hserved (e :: past) (List.cons_prefix_cons.mpr ⟨rfl, hpast⟩)
    · rintro ⟨he, hrest⟩ past hpast
      have hserved := (serveUm_served_iff h e).mpr he
      cases past with
      | nil => exact h
      | cons first past =>
        obtain ⟨rfl, hpast'⟩ := List.cons_prefix_cons.mp hpast
        exact (ih _ hserved).mpr hrest past hpast'

/-- A slot that is taken refuses the TEST of the application. -/
theorem peerTest_ne_ok (hidle : slotIdle l = false) (len : Nat) (take : Option Frame) :
    (peerTestStart l len take).2 ≠ .ok () := by
  have hbusy : testBusy l = true := by
    by_contra hfree
    rw [Bool.not_eq_true] at hfree
    simp only [testBusy, Bool.or_eq_false_iff, decide_eq_false_iff_not, not_not] at hfree
    simp [slotIdle, hfree] at hidle
  simp only [peerTestStart, hbusy, if_true]
  split
  · simp
  split
  · simp
  split <;> simp

/-- A combined station right after set-up. -/
def Link.combined : Link := (Node.onePeer .adm {} 1 2).link 0

/-- A connection with a TEST in it, up to the response to DISC. -/
def UmEvent.session : List UmEvent :=
  [.received (Node.shortFrame 1 0x3F), .dealtWith {.umRecvd} (some default),
    .received (Node.shortFrame 1 0xF3), .dealtWith {.umRecvd} none,
    .received (Node.shortFrame 1 0x53), .dealtWith {.umRecvd} (some default)]

theorem slotServed_iff_session :
    SlotServed [] (UmEvent.session.foldl Link.serveUm Link.combined) :=
  (slotServed_iff [] UmEvent.session Link.combined (.inr rfl)).mpr (by decide +kernel) _
    List.prefix_rfl

/-- An XID, which the station does not support: DM goes out, and XID keeps the slot. No TEST of
the application is accepted from there. -/
theorem slotServed_fails_on_unsupported :
    (¬∀ (callers : List ApiCaller) (events : List UmEvent) (l : Link), slotIdle l = true →
      ∀ past, past <+: events → SlotServed callers (past.foldl Link.serveUm l)) ∧
    ∀ len take, (peerTestStart ([.received (Node.shortFrame 1 0xBF),
      .dealtWith {.umRecvd} (some default)].foldl Link.serveUm Link.combined) len take).2 ≠ .ok () := by
  constructor
  · intro hclaim
    have hserved := hclaim [] [.received (Node.shortFrame 1 0xBF),
      .dealtWith {.umRecvd} (some default)] Link.combined rfl _ List.prefix_rfl
    revert hserved
    rw [SlotServed]
    decide +kernel
  · exact peerTest_ne_ok (by decide +kernel)

end IoHdlc
