import IoHdlc.Core.PfState

/-!
What the sections of the transmit worker do to the event flags.

A pass that starts with flags takes some of them at its head, `headFlags`, and the others in
the last section of `ioHdlcConnectedTx`. Three are taken only where something waits for them:
`heldFlags`. `Link.Shrinks` is what no section of the worker adds to.
-/

namespace IoHdlc

variable {l l' l'' : Link}

/-- The flags that a pass takes before it comes to the I frames. -/
def headFlags : EvtFlags := {.linkStChg, .lineIdle, .cRplytmo, .t3Tmo, .linkReq}

/-- The flags that the last section takes in any case. -/
def tailFlags : EvtFlags :=
  {.iRecvd, .rrRecvd, .rnrRecvd, .poolStChg, .txIfrmEnq, .pfRecvd, .xrejRecvd, .uiEnq}

/-- The flags that are taken only where something waits for them. -/
def heldFlags : EvtFlags := {.umRecvd, .rejActed, .linkDown}

/-- There are no other flags. -/
theorem subset_heldFlags {flags : EvtFlags} (hhead : flags ∩ headFlags = ∅) :
    flags \ tailFlags ⊆ heldFlags := by
  intro e he
  rw [Finset.mem_sdiff] at he
  have hno : e ∉ headFlags := fun h =>
    Finset.notMem_empty e (hhead ▸ Finset.mem_inter.mpr ⟨he.1, h⟩)
  have htail := he.2
  revert hno htail
  cases e <;> decide

/-! ### What no section adds to -/

/-- No flag waits that did not wait before, nobody is connected, and no response waits. -/
structure Link.Shrinks (l l' : Link) : Prop where
  listener : l'.s.cmListener ⊆ l.s.cmListener
  stConn : l'.p.ssState.stConn = true → l.p.ssState.stConn = true
  rcved : l'.p.umState.rcved = true → l.p.umState.rcved = true

theorem Link.Shrinks.refl (l : Link) : l.Shrinks l := ⟨Finset.Subset.refl _, id, id⟩

theorem Link.Shrinks.trans (h : l.Shrinks l') (h' : l'.Shrinks l'') : l.Shrinks l'' :=
  ⟨h'.listener.trans h.listener, h.stConn ∘ h'.stConn, h.rcved ∘ h'.rcved⟩

theorem Link.Shrinks.of_eq (hlis : l'.s.cmListener = l.s.cmListener)
    (hconn : l'.p.ssState.stConn = l.p.ssState.stConn)
    (hrcved : l'.p.umState.rcved = l.p.umState.rcved) : l.Shrinks l' :=
  ⟨hlis.subset, fun h => hconn ▸ h, fun h => hrcved ▸ h⟩

/-- The end of the connection, or of the attempt at one. -/
theorem Link.Shrinks.of_closed (hlis : l'.s.cmListener = l.s.cmListener)
    (hconn : l'.p.ssState.stConn = false) (hrcved : l'.p.umState.rcved = false) : l.Shrinks l' :=
  ⟨hlis.subset, fun h => absurd (hconn.symm.trans h) Bool.false_ne_true,
    fun h => absurd (hrcved.symm.trans h) Bool.false_ne_true⟩

theorem leaveModeIfLast_cmListener (l : Link) :
    (leaveModeIfLast l).s.cmListener = l.s.cmListener := by
  rw [leaveModeIfLast]
  split <;> rfl

theorem closePeerOrderly_closed (l : Link) :
    (closePeerOrderly l).s.cmListener = l.s.cmListener ∧
      (closePeerOrderly l).p.ssState.stConn = false ∧
      (closePeerOrderly l).p.umState = {} ∧ (closePeerOrderly l).p.umCmd = 0 := by
  have hlis := leaveModeIfLast_cmListener (ioHdlcSetDisconnected
    ⟨l.s, clearPeerTxQueues (resetPeerProtocolState l.p)⟩ .orderly)
  have hp := leaveModeIfLast_p (ioHdlcSetDisconnected
    ⟨l.s, clearPeerTxQueues (resetPeerProtocolState l.p)⟩ .orderly)
  simp only [closePeerOrderly]
  split
  all_goals exact ⟨hlis, by rw [hp]; rfl, by rw [hp]; rfl, by rw [hp]; rfl⟩

/-- The link is given up, or a retry is counted. -/
theorem handleTimeoutRetry_ends (l : Link) :
    (handleTimeoutRetry l).1.s.cmListener = l.s.cmListener ∧
      ((handleTimeoutRetry l).2 = true ∧
          (handleTimeoutRetry l).1.p.ssState = l.p.ssState ∧
          (handleTimeoutRetry l).1.p.umState = l.p.umState ∨
        (handleTimeoutRetry l).2 = false ∧
          (handleTimeoutRetry l).1.p.ssState.stConn = false ∧
          (handleTimeoutRetry l).1.p.umState = {}) := by
  -- the worker does not listen to this flag
  have hdown : (l.s.broadcastFlags {.linkDown}).cmListener = l.s.cmListener := by
    change l.s.cmListener ∪ {.linkDown} ∩ flagsMask = l.s.cmListener
    rw [show ({.linkDown} ∩ flagsMask : EvtFlags) = ∅ from rfl]
    exact Finset.union_eq_left.mpr (Finset.empty_subset _)
  have hlis := leaveModeIfLast_cmListener (ioHdlcSetDisconnected
    ⟨l.s.broadcastFlags {.linkDown}, clearPeerTxQueues (resetPeerProtocolState l.p)⟩ .aborted)
  have hp := leaveModeIfLast_p (ioHdlcSetDisconnected
    ⟨l.s.broadcastFlags {.linkDown}, clearPeerTxQueues (resetPeerProtocolState l.p)⟩ .aborted)
  rw [handleTimeoutRetry]
  split
  · refine ⟨?_, .inr ⟨rfl, ?_⟩⟩
    · dsimp only
      split
      all_goals exact hlis.trans hdown
    · dsimp only
      split
      all_goals exact ⟨by rw [abortPeerLink, hp]; rfl, by rw [abortPeerLink, hp]; rfl⟩
  · exact ⟨rfl, .inl ⟨rfl, rfl, rfl⟩⟩

theorem handleTimeoutRetry_shrinks (l : Link) : l.Shrinks (handleTimeoutRetry l).1 := by
  obtain ⟨hlis, ⟨-, hss, hum⟩ | ⟨-, hconn, hum⟩⟩ := handleTimeoutRetry_ends l
  · exact .of_eq hlis (by rw [hss]) (by rw [hum])
  · exact .of_closed hlis hconn (by rw [hum])

/-! ### The sections for U frames -/

theorem sendUCommand_shrinks (l : Link) (timedOut : Bool) (take : Option Frame) :
    l.Shrinks (sendUCommand l timedOut take).link := by
  have hretry : l.Shrinks (retryBefore l timedOut).1 := by
    rw [retryBefore]
    split
    · exact handleTimeoutRetry_shrinks l
    · exact .refl l
  rcases sendUCommand_ends l timedOut take with
    ⟨-, h⟩ | ⟨-, -, h⟩ | ⟨-, -, h, -⟩ | ⟨-, -, -, fp, -, h⟩
  · rw [h]
    exact .refl l
  · rw [h]
    exact hretry
  · rw [h]
    exact hretry.trans (.of_eq rfl rfl rfl)
  · obtain ⟨t3, delay, hsent⟩ := uCommandSent_eq (presetF (retryBefore l timedOut).1)
    rw [h, hsent]
    exact hretry.trans (.of_eq rfl rfl rfl)

theorem uResponseStage_idle (h : l.p.umState.rcved = false) (flags : EvtFlags)
    (take : Option Frame) : uResponseStage l flags take = (l, none, flags) := by
  rw [uResponseStage, if_neg (by rw [h]; exact Bool.false_ne_true)]

/-- The response goes out, or is dropped. -/
theorem uResponseStage_shrinks (l : Link) (flags : EvtFlags) (take : Option Frame) :
    l.Shrinks (uResponseStage l flags take).1 ∧
      (uResponseStage l flags take).1.p.umState.rcved = false ∧
      (uResponseStage l flags take).2.2 ⊆ flags := by
  cases hrcved : l.p.umState.rcved with
  | false =>
    rw [uResponseStage_idle hrcved]
    exact ⟨.refl l, hrcved, Finset.Subset.refl _⟩
  | true =>
    have hsent (l : Link) (h : l.p.umState.rcved = false) :
        l.Shrinks (uResponseSent l) ∧ (uResponseSent l).p.umState.rcved = false := by
      rw [uResponseSent]
      split
      · exact ⟨.of_eq rfl rfl rfl, h⟩
      split
      · obtain ⟨hlis, hconn, hum, -⟩ := closePeerOrderly_closed l
        exact ⟨.of_closed hlis hconn (by rw [hum]), by rw [hum]⟩
      · exact ⟨.refl l, h⟩
    have hdrop {l' : Link} (hlis : l'.s.cmListener = l.s.cmListener)
        (hconn : l'.p.ssState.stConn = l.p.ssState.stConn) (h : l'.p.umState.rcved = false) :
        l.Shrinks l' :=
      ⟨hlis.subset, fun h => hconn ▸ h, fun h' => absurd (h.symm.trans h') Bool.false_ne_true⟩
    have hgone (l' : Link) (hlis : l'.s.cmListener = l.s.cmListener)
        (hconn : l'.p.ssState.stConn = l.p.ssState.stConn) (h : l'.p.umState.rcved = false) :
        l.Shrinks (uResponseSent l') ∧ (uResponseSent l').p.umState.rcved = false :=
      ⟨(hdrop hlis hconn h).trans (hsent l' h).1, (hsent l' h).2⟩
    have hsend : l.Shrinks (sendUResponse l take).1 ∧
        (sendUResponse l take).1.p.umState.rcved = false := by
      simp only [sendUResponse]
      split
      · exact hgone _ rfl rfl rfl
      · exact ⟨hdrop rfl rfl rfl, rfl⟩
    rw [uResponseStage, if_pos hrcved]
    exact ⟨hsend.1, hsend.2, Finset.sdiff_subset⟩

/-! ### The sections of `ioHdlcConnectedTx` -/

/-- A pass through the head of `ioHdlcConnectedTx`: its flags are taken, or the link was given
up. -/
theorem connectedTxEntry_ends (l : Link) (flags : EvtFlags) (take : Option Frame) :
    l.Shrinks (connectedTxEntry l flags take).link ∧
      ((connectedTxEntry l flags take).pc = .check (((flags \ {.lineIdle}) \ {.cRplytmo}) \ {.t3Tmo}) ∨
        (∃ rest, rest ⊆ flags ∧ (connectedTxEntry l flags take).pc = .idle rest) ∧
          (connectedTxEntry l flags take).link.p.ssState.stConn = false) := by
  have hretry (l : Link) : ((handleTimeoutRetry l).2 = true → l.Shrinks (timeoutRecovery (handleTimeoutRetry l).1)) ∧
      ((handleTimeoutRetry l).2 = false → l.Shrinks (handleTimeoutRetry l).1 ∧
        (handleTimeoutRetry l).1.p.ssState.stConn = false) := by
    refine ⟨fun _ => (handleTimeoutRetry_shrinks l).trans (.of_eq rfl rfl rfl), fun h => ⟨handleTimeoutRetry_shrinks l, ?_⟩⟩
    obtain ⟨-, ⟨hgo, -⟩ | ⟨-, hconn, -⟩⟩ := handleTimeoutRetry_ends l
    · exact absurd (h.symm.trans hgo) Bool.false_ne_true
    · exact hconn
  have hreply (flags : EvtFlags) : l.Shrinks (serveReplyTimeout l flags).1 ∧
      ((serveReplyTimeout l flags).2 = false →
        (serveReplyTimeout l flags).1.p.ssState.stConn = false) := by
    simp only [serveReplyTimeout]
    split
    · split
      next hgo => exact ⟨(hretry l).1 hgo, by simp⟩
      next hstop =>
        obtain ⟨hshrink, hconn⟩ := (hretry l).2 (Bool.eq_false_iff.mpr hstop)
        exact ⟨hshrink, fun _ => hconn⟩
    · exact ⟨.refl l, by simp⟩
  have ht3 (l : Link) (flags : EvtFlags) : l.Shrinks (serveT3Timeout l flags).1 ∧
      ((serveT3Timeout l flags).2 = false →
        (serveT3Timeout l flags).1.p.ssState.stConn = false) := by
    have hstop : l.Shrinks { l with p := { l.p with t3Tmr := l.p.t3Tmr.reset } } := .of_eq rfl rfl rfl
    simp only [serveT3Timeout]
    split
    · split
      · exact ⟨.of_eq rfl rfl rfl, by simp⟩
      split
      · exact ⟨hstop, by simp⟩
      · split
        next hgo => exact ⟨hstop.trans ((hretry _).1 hgo), by simp⟩
        next hno =>
          obtain ⟨hshrink, hconn⟩ := (hretry _).2 (Bool.eq_false_iff.mpr hno)
          exact ⟨hstop.trans hshrink, fun _ => hconn⟩
    · exact ⟨.refl l, by simp⟩
  have hui (l : Link) : l.Shrinks (sendUi l take).1 := by
    simp only [sendUi]
    split
    · split <;> exact .of_eq rfl rfl rfl
    · exact .refl l
  simp only [connectedTxEntry]
  split
  · obtain ⟨hshrink, hconn⟩ := ht3 (serveReplyTimeout l (flags \ {.lineIdle})).1
      ((flags \ {.lineIdle}) \ {.cRplytmo})
    split
    · exact ⟨((hreply _).1.trans hshrink).trans (hui _), .inl rfl⟩
    next hstop =>
      refine ⟨(hreply _).1.trans hshrink, .inr ⟨⟨_, ?_, rfl⟩, hconn (Bool.eq_false_iff.mpr hstop)⟩⟩
      exact Finset.sdiff_subset.trans (Finset.sdiff_subset.trans Finset.sdiff_subset)
  next hstop =>
    refine ⟨(hreply _).1, .inr ⟨⟨_, ?_, rfl⟩, (hreply _).2 (Bool.eq_false_iff.mpr hstop)⟩⟩
    exact Finset.sdiff_subset.trans Finset.sdiff_subset

/-- A round of the I-frame loop: the loop ends, or the flags that wait are fetched, and then it
ends for `linkDown` or takes a frame from the queue. -/
theorem connectedTxIFrame_flags (l : Link) (flags : EvtFlags) (iSent : Bool) :
    let r := connectedTxIFrame l flags iSent
    (r.link = l ∧ r.pc = .skipIFrames flags iSent) ∨
      (l.Shrinks r.link ∧ r.link.s.cmListener = ∅ ∧
        (.linkDown ∈ flags ∪ l.s.cmListener ∧ r.pc = .idle ((flags ∪ l.s.cmListener) \ {.linkDown}) ∨
          r.link.p.iTransQ.length < l.p.iTransQ.length ∧
            (r.pc = .skipIFrames (flags ∪ l.s.cmListener) true ∨
              r.pc = .iFrame (flags ∪ l.s.cmListener) true))) := by
  dsimp only
  rw [connectedTxIFrame]
  split
  · exact .inl ⟨rfl, rfl⟩
  next fp rest hq =>
    split
    · exact .inl ⟨rfl, rfl⟩
    · refine .inr ?_
      dsimp only
      split
      next hdown =>
        exact ⟨⟨Finset.empty_subset _, id, id⟩, rfl, .inl ⟨hdown, rfl⟩⟩
      · refine ⟨⟨Finset.empty_subset _, id, id⟩, rfl, .inr ⟨?_, ?_⟩⟩
        · rw [hq]
          exact Nat.lt_succ_self _
        · split
          · exact .inl rfl
          · exact .inr rfl

/-- The last section fetches the flags that wait and takes most of them. -/
theorem connectedTxSFrame_flags (l : Link) (flags : EvtFlags) (iSent : Bool)
    (take : Nat → Option Frame) :
    let r := connectedTxSFrame l flags iSent take
    l.Shrinks r.link ∧ r.link.s.cmListener = ∅ ∧ r.link.p.umState = l.p.umState ∧
      r.link.p.ssState.stConn = l.p.ssState.stConn ∧
      r.pc = .idle ((flags ∪ l.s.cmListener) \ servedFlags l.p.ssState.rejpend) := by
  have hpc : (connectedTxSFrame l flags iSent take).pc =
    .idle ((flags ∪ l.s.cmListener) \ servedFlags l.p.ssState.rejpend) := rfl
  obtain ⟨_, _, _, _, _, _, _, h⟩ := connectedTxSFrame_fields l flags iSent take
  dsimp only
  rw [h]
  exact ⟨⟨Finset.empty_subset _, id, id⟩, rfl, rfl, rfl, hpc⟩

/-! ### A pass of `ioHdlcTxEntry` -/

/-- The flags that a pass leaves. -/
def PassEnd.flags : PassEnd → EvtFlags
  | .loop flags => flags
  | .linkDown | .advance => ∅
  | .connectedTx pc => pc.flags

/-- The reply timeout of an exchange that is over: the link is down, and nothing is left to be
retried or to be turned away from. -/
def holdsTimeout (l : Link) (flags : EvtFlags) : Bool :=
  .cRplytmo ∈ flags && !l.p.umState.rcved && l.p.isDisc && !l.p.umState.sent &&
    !(l.s.flags.pri && l.p.umCmd = 0)

/-- The flags of a connected peer under a mode without a branch in the loop. -/
def holdsFlags (l : Link) (flags : EvtFlags) : Bool :=
  !l.p.umState.rcved && !l.p.isDisc && !l.p.umState.sent && l.s.mode ≠ .nrm && l.s.mode ≠ .abm &&
    flags \ {.linkStChg} ≠ ∅

/-- What becomes of the flags of a pass that has come to the section for U responses and finds
no response to send. -/
inductive PassFlags (l : Link) (flags : EvtFlags) (r : Pass) : Prop
  | advance (hdisc : l.p.isDisc = true) (hlink : r.link = l) (h : r.next = .advance)
  | down (hdown : (l.p.isDisc || l.p.umState.sent) = true)
    (hstay : ¬(l.s.flags.pri = true ∧ l.p.umCmd = 0 ∧ l.p.umState.sent = false))
    (hlink : r.link = l)
    (h : r.next = .loop ((flags \ {.linkStChg}) ∩ uCommandFlags))
  | modeless (hconn : l.p.isDisc = false) (hsent : l.p.umState.sent = false)
    (hmode : ¬(l.s.mode = .nrm ∨ l.s.mode = .abm)) (hlink : r.link = l)
    (h : r.next = .loop (flags \ {.linkStChg}))
  | aborts (hconn : l.p.ssState.stConn = true) (hshrink : l.Shrinks r.link)
    (hdown : r.link.p.ssState.stConn = false) (rest : EvtFlags) (hrest : rest ⊆ flags)
    (h : r.next = .connectedTx (.idle rest))
  | connected (hconn : l.p.isDisc = false) (hsent : l.p.umState.sent = false)
    (hshrink : l.Shrinks r.link)
    (h : r.next = .connectedTx
      (.check ((((flags \ {.linkStChg}) \ {.lineIdle}) \ {.cRplytmo}) \ {.t3Tmo})))

theorem PassFlags.subset {flags : EvtFlags} {r : Pass} (h : PassFlags l flags r) :
    r.next.flags ⊆ flags := by
  cases h with
  | advance hdisc hlink h =>
    rw [h]
    exact Finset.empty_subset _
  | down hdown hstay hlink h =>
    rw [h]
    exact Finset.inter_subset_left.trans Finset.sdiff_subset
  | modeless hconn hsent hmode hlink h =>
    rw [h]
    exact Finset.sdiff_subset
  | aborts hconn hshrink hdown rest hrest h =>
    rw [h]
    exact hrest
  | connected hconn hsent hshrink h =>
    rw [h]
    exact Finset.sdiff_subset.trans (Finset.sdiff_subset.trans
      (Finset.sdiff_subset.trans Finset.sdiff_subset))

theorem dispatchTx_flags (l : Link) (flags : EvtFlags) (take : Option Frame) :
    PassFlags l flags (dispatchTx l flags take) := by
  simp only [dispatchTx]
  split
  next hdown =>
    split
    next hadvance =>
      simp only [Bool.and_eq_true] at hadvance
      exact .advance hadvance.1.1.2 rfl rfl
    next hstay =>
      refine .down hdown (fun h => hstay ?_) rfl rfl
      have hdisc : l.p.isDisc = true := by simpa [h.2.2] using hdown
      simp [h.1, h.2.1, h.2.2, hdisc]
  next hup =>
    rw [Bool.not_eq_true, Bool.or_eq_false_iff] at hup
    split
    next hmode =>
      obtain ⟨hshrink, hpc | ⟨⟨rest, hrest, hpc⟩, hconn⟩⟩ :=
        connectedTxEntry_ends l (flags \ {.linkStChg}) take
      · exact .connected hup.1 hup.2 hshrink (by rw [hpc])
      · exact .aborts (by simpa [Peer.isDisc] using hup.1) hshrink hconn rest
          (hrest.trans Finset.sdiff_subset) (by rw [hpc])
    next hmode => exact .modeless hup.1 hup.2 hmode rfl rfl

/-- A pass without a response to send. -/
theorem servePeer_flags (h : l.p.umState.rcved = false) (flags : EvtFlags) (take : Takes) :
    PassFlags l flags (servePeer l flags take) := by
  have hd := dispatchTx_flags l flags take.ui
  simp only [servePeer, uResponseStage_idle h]
  cases hd with
  | advance hdisc hlink h => exact .advance hdisc hlink h
  | down hdown hstay hlink h => exact .down hdown hstay hlink h
  | modeless hconn hsent hmode hlink h => exact .modeless hconn hsent hmode hlink h
  | aborts hconn hshrink hdown rest hrest h => exact .aborts hconn hshrink hdown rest hrest h
  | connected hconn hsent hshrink h => exact .connected hconn hsent hshrink h

/-- Nothing comes back in a pass, and a response that waited is gone. -/
theorem servePeer_shrinks (l : Link) (flags : EvtFlags) (take : Takes) :
    l.Shrinks (servePeer l flags take).link ∧
      (servePeer l flags take).link.p.umState.rcved = false ∧
      (servePeer l flags take).next.flags ⊆ flags := by
  obtain ⟨hstage, hrcved, hflags⟩ := uResponseStage_shrinks l flags take.uResponse
  have hpass := dispatchTx_flags (uResponseStage l flags take.uResponse).1
    (uResponseStage l flags take.uResponse).2.2 take.ui
  have hd : (uResponseStage l flags take.uResponse).1.Shrinks (servePeer l flags take).link := by
    cases hpass with
    | advance _ hlink _ | down _ _ hlink _ | modeless _ _ _ hlink _ =>
      exact hlink ▸ .refl _
    | aborts _ hshrink _ _ _ _ | connected _ _ hshrink _ => exact hshrink
  refine ⟨hstage.trans hd, Bool.eq_false_iff.mpr fun h => ?_, hpass.subset.trans hflags⟩
  exact Bool.false_ne_true (hrcved.symm.trans (hd.rcved h))

/-- What becomes of the flags of a pass behind the section for U commands. -/
theorem serveRequest_flags (l : Link) (flags : EvtFlags) (timedOut : Bool) (take : Takes) :
    let r := serveRequest l flags timedOut take
    l.Shrinks r.link ∧
      (r.next = .loop ∅ ∨ r.next = .linkDown ∨ r.next = .loop flags ∨
        r.next.flags ⊆ flags ∧ r.link.p.umState.rcved = false ∧ l.p.umState.rcved = true ∨
        ∃ l', l.Shrinks l' ∧ r.link = (servePeer l' flags take).link ∧
          PassFlags l' flags (servePeer l' flags take) ∧
          r.next = (servePeer l' flags take).next) := by
  have hcommand := sendUCommand_shrinks l timedOut take.uCommand
  simp only [serveRequest]
  cases hnext : (sendUCommand l timedOut take.uCommand).next with
  | drop => exact ⟨hcommand, .inl rfl⟩
  | linkDown => exact ⟨hcommand, .inr (.inl rfl)⟩
  | wait => exact ⟨hcommand, .inr (.inr (.inl rfl))⟩
  | go =>
    obtain ⟨hshrink, hgone, hsub⟩ :=
      servePeer_shrinks (sendUCommand l timedOut take.uCommand).link flags take
    refine ⟨hcommand.trans hshrink, .inr (.inr (.inr ?_))⟩
    cases hrcved : (sendUCommand l timedOut take.uCommand).link.p.umState.rcved with
    | false => exact .inr ⟨_, hcommand, rfl, servePeer_flags hrcved flags take, rfl⟩
    | true => exact .inl ⟨hsub, hgone, hcommand.rcved hrcved⟩

end IoHdlc
