import IoHdlc.Core.Unnumbered

/-!
`ioHdlcTxEntry`: one pass of its loop, from the lock of the current peer to the
first release.

A pass holds the lock through the section for U commands, the section for U
responses and, if the peer is connected, the first section of
`ioHdlcConnectedTx`. It is a function of the link. What the worker then does to
the current peer of the station is left to the node.
-/

namespace IoHdlc

/-! ### One pass -/

/-- What `hdlcTakeFrame` answers in the course of a pass. -/
structure Takes where
  uCommand : Option Frame := none
  uResponse : Option Frame := none
  ui : Option Frame := none

/-- How a pass ends: back at the head of the loop, at the next peer because the link
is down, at the next peer because there is nothing to do for this one, or inside
`ioHdlcConnectedTx`. -/
inductive PassEnd where
  | loop (flags : EvtFlags)
  | linkDown
  | advance
  | connectedTx (pc : TxPc)

structure Pass where
  link : Link
  sent : List Frame
  next : PassEnd

/-- Whether the section for U commands is entered. -/
def uCommandDue (l : Link) (flags : EvtFlags) : Bool :=
  .linkReq ∈ flags || (l.p.umState.sent && .cRplytmo ∈ flags)

/-- Whether the request is for another peer than the current one. -/
def requestsOtherPeer (l : Link) (flags : EvtFlags) : Bool :=
  .linkReq ∈ flags && l.p.umCmd = 0 && !l.p.umState.sent

/-- The flags that the section for U commands serves. -/
def uCommandFlags : EvtFlags := {.linkReq, .cRplytmo}

/-- The section for U responses, with the flags that remain. -/
def uResponseStage (l : Link) (flags : EvtFlags) (take : Option Frame) :
    Link × Option Frame × EvtFlags :=
  if l.p.umState.rcved then
    let r := sendUResponse l take
    (r.1, r.2, flags \ {.umRecvd})
  else (l, none, flags)

/-- The rest of a pass behind the two sections for U frames. -/
def dispatchTx (l : Link) (flags : EvtFlags) (take : Option Frame) : Pass :=
  let flags := flags \ {.linkStChg}
  if l.p.isDisc || l.p.umState.sent then
    if l.s.flags.pri && l.p.isDisc && l.p.umCmd = 0 && !l.p.umState.sent then
      { link := l, sent := [], next := .advance }
    else { link := l, sent := [], next := .loop (flags ∩ uCommandFlags) }
  else if l.s.mode = .nrm ∨ l.s.mode = .abm then
    let t := connectedTxEntry l flags take
    { link := t.link, sent := t.sent.toList, next := .connectedTx t.pc }
  else { link := l, sent := [], next := .loop flags }

/-- A pass from the section for U responses on. -/
def servePeer (l : Link) (flags : EvtFlags) (take : Takes) : Pass :=
  let r := uResponseStage l flags take.uResponse
  let d := dispatchTx r.1 r.2.2 take.ui
  { d with sent := r.2.1.toList ++ d.sent }

/-- A pass that serves a U command; its flags are out of `flags`. -/
def serveRequest (l : Link) (flags : EvtFlags) (timedOut : Bool) (take : Takes) : Pass :=
  let r := sendUCommand l timedOut take.uCommand
  match r.next with
  | .drop => { link := r.link, sent := [], next := .loop ∅ }
  | .linkDown => { link := r.link, sent := [], next := .linkDown }
  | .wait => { link := r.link, sent := [], next := .loop flags }
  | .go =>
    let d := servePeer r.link flags take
    { d with sent := r.sent.toList ++ d.sent }

/-! ### What a pass does to the connection -/

/-- Whether a pass closes the link, by the state it starts from. -/
def closesOnPass (l : Link) (timedOut due : Bool) : Bool :=
  (due && exhaustsUCommand l timedOut) || (l.p.umState.rcved && l.p.umCmd = IOHDLC_U_DISC)

section Effects

variable {l : Link}

theorem uResponseStage_cases (l : Link) (flags : EvtFlags) (take : Option Frame) :
    (l.p.umState.rcved = true ∧ l.p.umCmd = IOHDLC_U_DISC ∧
        l.Closes (uResponseStage l flags take).1) ∨
      l.SameConn (uResponseStage l flags take).1 := by
  rw [uResponseStage]
  split
  next hrcved =>
    rcases sendUResponse_cases l take with ⟨hdisc, hclose⟩ | hsame
    · exact .inl ⟨hrcved, hdisc, hclose⟩
    · exact .inr hsame
  · exact .inr (.refl l)

/-- Behind the sections for U frames only a timeout of a connected peer closes. -/
theorem dispatchTx_cases (l : Link) (flags : EvtFlags) (take : Option Frame) :
    (l.p.ssState.stConn = true ∧ (l.s.mode = .nrm ∨ l.s.mode = .abm) ∧
        l.Closes (dispatchTx l flags take).link) ∨
      l.SameConn (dispatchTx l flags take).link := by
  simp only [dispatchTx]
  split
  · split <;> exact .inr (.refl l)
  next hconn =>
    split
    next hmode =>
      rcases connectedTxEntry_cases l (flags \ {.linkStChg}) take with ⟨hkeep, -⟩ | ⟨habort, -⟩
      · exact .inr hkeep.toKeeps.sameConn
      · refine .inl ⟨?_, hmode, habort.toCloses⟩
        simp only [Peer.isDisc, Bool.or_eq_true, Bool.not_eq_true'] at hconn
        exact Bool.of_not_eq_false fun h => hconn (.inl h)
    · exact .inr (.refl l)

/-- A pass closes the link for a reason in its first state, or closes a connected one,
or leaves the connection alone. -/
theorem servePeer_cases (l : Link) (flags : EvtFlags) (take : Takes) :
    ((l.p.umState.rcved && l.p.umCmd = IOHDLC_U_DISC) = true ∧
        l.Closes (servePeer l flags take).link) ∨
      (l.p.ssState.stConn = true ∧ (l.s.mode = .nrm ∨ l.s.mode = .abm) ∧
        l.Closes (servePeer l flags take).link) ∨
      l.SameConn (servePeer l flags take).link := by
  have hrsp := uResponseStage_cases l flags take.uResponse
  have hdis := dispatchTx_cases (uResponseStage l flags take.uResponse).1
    (uResponseStage l flags take.uResponse).2.2 take.ui
  rcases hrsp with ⟨hrcved, hcmd, hclose⟩ | hsame
  · rcases hdis with ⟨hconn, -⟩ | hsame'
    · exact absurd (hclose.stConn.symm.trans hconn) nofun
    · exact .inl ⟨by simp [hrcved, hcmd], hclose.sameConn hsame'⟩
  · rcases hdis with ⟨hconn, hmode, hclose⟩ | hsame'
    · rw [hsame.stConn] at hconn
      rw [hsame.mode] at hmode
      exact .inr (.inl ⟨hconn, hmode, hsame.closes hclose⟩)
    · exact .inr (.inr (hsame.trans hsame'))

/-- The U command leaves what the section for U responses looks at. -/
theorem sendUCommand_go (l : Link) (timedOut : Bool) (take : Option Frame)
    (h : (sendUCommand l timedOut take).next = .go) :
    (sendUCommand l timedOut take).link.p.umState.rcved = l.p.umState.rcved ∧
      (sendUCommand l timedOut take).link.p.umCmd = l.p.umCmd := by
  by_cases hmay : mayOriginateUCommand l = true
  · rcases sendUCommand_cases l timedOut take with ⟨-, hdown, -⟩ | ⟨hex, -⟩
    · exact absurd (hdown.symm.trans h) nofun
    · rw [sendUCommand_eq l timedOut take hmay hex]
      dsimp only
      split
      · split
        · simp only [uCommandSent]
          split <;> exact ⟨rfl, rfl⟩
        · exact ⟨rfl, rfl⟩
      · exact ⟨rfl, rfl⟩
  · simp only [sendUCommand, hmay, Bool.false_eq_true, if_false, and_self]

theorem serveRequest_cases (l : Link) (flags : EvtFlags) (timedOut : Bool) (take : Takes) :
    (closesOnPass l timedOut true = true ∧ l.Closes (serveRequest l flags timedOut take).link) ∨
      (l.p.ssState.stConn = true ∧ (l.s.mode = .nrm ∨ l.s.mode = .abm) ∧
        l.Closes (serveRequest l flags timedOut take).link) ∨
      l.SameConn (serveRequest l flags timedOut take).link := by
  simp only [serveRequest]
  rcases sendUCommand_cases l timedOut take.uCommand with
    ⟨hex, hnext, -, hclose⟩ | ⟨-, -, hsame⟩
  · rw [hnext]
    exact .inl ⟨by simp [closesOnPass, hex], hclose⟩
  · cases hnext : (sendUCommand l timedOut take.uCommand).next with
    | drop => exact .inr (.inr hsame)
    | linkDown => exact .inr (.inr hsame)
    | wait => exact .inr (.inr hsame)
    | go =>
      obtain ⟨hrcved, hcmd⟩ := sendUCommand_go l timedOut take.uCommand hnext
      rcases servePeer_cases (sendUCommand l timedOut take.uCommand).link flags take with
        ⟨hdue, hclose⟩ | ⟨hconn, hmode, hclose⟩ | hsame'
      · rw [hrcved, hcmd] at hdue
        exact .inl ⟨by rw [closesOnPass, hdue, Bool.or_true], hsame.closes hclose⟩
      · rw [hsame.stConn] at hconn
        rw [hsame.mode] at hmode
        exact .inr (.inl ⟨hconn, hmode, hsame.closes hclose⟩)
      · exact .inr (.inr (hsame.trans hsame'))

end Effects

end IoHdlc
