import IoHdlc.Core.ConnectionCount
import IoHdlc.Core.WaitCondition
import IoHdlc.Core.WorkerTermination

/-!
The writers that wait for `tx_cv`.

`WithWaits` keeps beside the node which writers wait and were not woken. A writer that waits for
the pool alone is woken by nobody but the transmit worker, which does so for its current peer and
only on a busy station: `wakePending` says that it is about to.
-/

namespace IoHdlc

/-- Whether the mode has a branch in the loop of `ioHdlcTxEntry`. -/
def servedMode (s : Station) : Bool := s.mode = .nrm || s.mode = .abm

/-- Whether the last section finds that the pool has recovered and gets its frame for RR: no REJ
goes out in its place. -/
def recoversFromBusy (l : Link) (take : Nat → Option Frame) : Bool :=
  sendOpportunity l.s && !(l.p.ssState.rejpend && (take 0).isSome) && l.s.flags.busy &&
    l.s.poolState = .normal && (take 1).isSome

theorem chooseSFrame_recovers {l : Link} {take : Nat → Option Frame}
    (h : recoversFromBusy l take = true) (iSent : Bool) :
    (chooseSFrame l iSent take).1.s.flags.busy = false := by
  simp only [recoversFromBusy, Bool.and_eq_true, Bool.not_eq_true', decide_eq_true_eq] at h
  obtain ⟨⟨⟨⟨hopp, hrej⟩, hbusy⟩, hpool⟩, htake⟩ := h
  obtain ⟨stale, hstale⟩ := Option.isSome_iff_exists.mp htake
  have hno : (if l.p.ssState.rejpend = true then
      prepareSFrame l (take 0) IOHDLC_S_REJ (sendsCommand l.s) else (l, none)) = (l, none) := by
    split
    next hpend =>
      have hnone : take 0 = none := by simpa [hpend] using hrej
      simp only [prepareSFrame, hnone]
      split <;> rfl
    · rfl
  have hrr : (if (l.s.flags.busy && l.s.poolState = .normal) = true then
      prepareSFrame l (take 1) IOHDLC_S_RR (sendsCommand l.s) else (l, none)) =
        (sFrameSent l (sendsCommand l.s), some (buildSFrame l.s l.p stale IOHDLC_S_RR l.p.vr
          (sFrameSetPf l (sendsCommand l.s)) (sendsCommand l.s))) := by
    rw [if_pos (by rw [hbusy, hpool]; rfl)]
    simp [prepareSFrame, hopp, hstale, sFrameSent, sFrameSetPf]
  simp only [chooseSFrame, hno, hrr]

theorem connectedTxSFrame_recovers {l : Link} {take : Nat → Option Frame}
    (h : recoversFromBusy l take = true) (flags : EvtFlags) (iSent : Bool) :
    (connectedTxSFrame l flags iSent take).link.s.flags.busy = false :=
  chooseSFrame_recovers (l := (getAndClearFlags l flags).1) h iSent

namespace Node

variable {n : Nat}

/-- Whether the worker has an event to serve at its current peer. -/
def underWay (nd : Node n) : Bool :=
  match nd.pc with
  | .sched (.idle flags) => decide (flags ∪ nd.s.cmListener ≠ ∅)
  | .sched _ => true
  | _ => false

/-- Whether an event is pending that makes the worker broadcast `tx_cv` of peer `i`. -/
def wakePending (nd : Node n) (i : Fin n) : Bool :=
  decide (i = nd.cPeer) && servedMode nd.s && nd.s.flags.busy && nd.underWay

/-- Whether an action broadcasts `tx_cv` of peer `i`: its link was given up, a frame opened it or
took frames off its window, or the station was found to be no longer busy. -/
def signals (nd : Node n) (a : Action n) (nd' : Node n) (i : Fin n) : Bool :=
  ((nd.peer i).ssState.stConn && !(nd'.peer i).ssState.stConn) ||
    decide (i = nd.cPeer) &&
      match a with
      | .receive fp =>
        if isUFrm (fp.ctrl nd.s.framing 0) then opensLink (nd.link i) fp
        else acknowledges (nd.link i) fp
      | .txSFrame _ => nd.s.flags.busy && !nd'.s.flags.busy
      | _ => false

/-- Whether the writer of peer `i` goes to wait. -/
def beginsWait (nd : Node n) (i : Fin n) : PeerOp → Bool
  | .writeReserve timedOut _ => match nd.writer i with
    | .loop remaining _ => decide (remaining ≠ []) && writerWaits (nd.link i) && !timedOut
    | _ => false
  | _ => false

/-- Whether a section of the worker keeps the event that it has for its current peer, or wakes
the writer. -/
def keepsEvent (nd : Node n) : Action n → Bool
  | .txEntry _ =>
    !uCommandDue (nd.link nd.cPeer) nd.pc.flags && !(nd.peer nd.cPeer).umState.sent
  | .txIFrame => !decide (.linkDown ∈ nd.pc.flags ∪ nd.s.cmListener)
  | .txSFrame take =>
    recoversFromBusy (nd.link nd.cPeer) take ||
      decide ((nd.pc.flags ∪ nd.s.cmListener) \
          servedFlags (nd.peer nd.cPeer).ssState.rejpend ≠ ∅) &&
        decide (∀ i, nd.staysOrMoves i → i = nd.cPeer)
  | .linkUpFails call => call.sMode = .nrm || call.sMode = .abm
  | _ => true

section Steps

variable {nd nd' : Node n} {a : Action n} {sent : List Frame} {i j : Fin n} {l : Link}

/-- The pool of the station is as it was, and peer `i`, if it stays connected, shows its writer
what it showed. The current peer finds a busy station busy. -/
structure KeepsWaits (nd nd' : Node n) (i : Fin n) : Prop where
  poolState : nd'.s.poolState = nd.s.poolState
  view : nd'.Connected i → (nd'.peer i).waitView = (nd.peer i).waitView
  busy : i = nd.cPeer → nd.s.flags.busy = true → nd'.s.flags.busy = true

theorem KeepsWaits.of_eq (hpool : nd'.s.poolState = nd.s.poolState)
    (hbusy : nd'.s.flags.busy = nd.s.flags.busy)
    (hview : (nd'.peer i).waitView = (nd.peer i).waitView) : nd.KeepsWaits nd' i :=
  ⟨hpool, fun _ => hview, fun _ h => hbusy.trans h⟩

theorem KeepsWaits.of_setLink (hpool : (nd.link j).KeepsPool l)
    (hwait : i = j → (nd.link j).KeepsWait l) (hs : nd'.s = l.s)
    (hview : (nd'.peer i).waitView = ((nd.setLink j l).peer i).waitView) :
    nd.KeepsWaits nd' i := by
  refine ⟨(congrArg Station.poolState hs).trans hpool.poolState, fun hconn => ?_,
    fun _ h => hs ▸ hpool.busy h⟩
  have hstill : (nd'.peer i).ssState.stConn = ((nd.setLink j l).peer i).ssState.stConn :=
    congrArg WaitView.stConn hview
  rw [Connected, hstill] at hconn
  rw [hview]
  by_cases hi : i = j
  · subst hi
    rw [setLink_peer_self] at hconn ⊢
    rcases (hwait rfl).view with hdown | hview'
    · exact absurd (hdown.symm.trans hconn) Bool.false_ne_true
    · exact hview'
  · rw [setLink_peer_of_ne nd l hi]

theorem KeepsWaits.of_link (h : (nd.link j).KeepsWait l) (hs : nd'.s = l.s)
    (hview : (nd'.peer i).waitView = ((nd.setLink j l).peer i).waitView) : nd.KeepsWaits nd' i :=
  .of_setLink h.toKeepsPool (fun _ => h) hs hview

theorem finishPass_keepsWaits {r : Pass} (h : (nd.link nd.cPeer).KeepsWait r.link) (i : Fin n) :
    nd.KeepsWaits (nd.finishPass r).1 i :=
  .of_link h (finishPass_s nd r) (by rw [finishPass_peer])

theorem finishTx_keepsWaits {t : TxStep} (h : (nd.link nd.cPeer).KeepsWait t.link) (i : Fin n) :
    nd.KeepsWaits (nd.finishTx t) i :=
  .of_link h (finishTx_s nd t) (finishTx_field Peer.waitView (fun _ _ => rfl) nd t i)

theorem receive_keepsWaits (fp : Frame)
    (h : nd.signals (.receive fp) (nd.receive fp) i = false) :
    nd.KeepsWaits (nd.receive fp) i := by
  have hbusy : (nd.link nd.cPeer).KeepsWait (Endpoint.lineBusy (nd.link nd.cPeer)) :=
    .of_eq rfl rfl rfl
  have hquiet (hi : i = nd.cPeer) : (if isUFrm (fp.ctrl nd.s.framing 0) then
      opensLink (nd.link nd.cPeer) fp else acknowledges (nd.link nd.cPeer) fp) = false := by
    subst hi
    rw [signals, Bool.or_eq_false_iff, decide_eq_true rfl, Bool.true_and] at h
    exact h.2
  obtain ⟨huPool, hu⟩ := handleUFrame_keepsView (Endpoint.lineBusy (nd.link nd.cPeer)) fp
  obtain ⟨hrxPool, hrx⟩ := rxDispatch_keepsView (Endpoint.lineBusy (nd.link nd.cPeer)) fp
  rw [acknowledges_lineBusy] at hrx
  rw [receive]
  split
  next hfp =>
    rw [if_pos hfp] at hquiet
    exact .of_setLink (hbusy.toKeepsPool.trans huPool)
      (fun hi => hbusy.trans (hu (hquiet hi))) rfl rfl
  next hfp =>
    rw [if_neg hfp] at hquiet
    exact .of_setLink (hbusy.toKeepsPool.trans hrxPool)
      (fun hi => hbusy.trans (hrx (hquiet hi))) rfl rfl

/-- Whether an action is one of the writer of peer `i`. -/
def isWriterOf (i : Fin n) : Action n → Bool
  | .peer j op => decide (i = j) && op.isWriter
  | _ => false

theorem act_keepsWaits (hpool : ∀ state, a ≠ .poolState state) (hwriter : isWriterOf i a = false)
    (hsignal : nd.signals a nd' i = false) (h : nd.act a = some (nd', sent)) :
    nd.KeepsWaits nd' i := by
  cases a with
  | receive fp =>
    cases h
    exact receive_keepsWaits fp hsignal
  | lineIdle =>
    cases h
    exact .of_link (l := Endpoint.lineIdle (nd.link nd.cPeer)) (.of_eq rfl rfl rfl) rfl rfl
  | txFetch =>
    simp only [act] at h
    split at h
    · split at h
      · cases h
        exact .of_eq rfl rfl rfl
      · cases h
    · cases h
  | txEntry take =>
    simp only [act] at h
    split at h
    next flags _ =>
      split at h
      · have hentry : nd.KeepsWaits (nd.txEntry flags take).1 i := by
          simp only [txEntry]
          split
          · split
            · exact .of_eq rfl rfl rfl
            · exact finishPass_keepsWaits (serveRequest_keepsWait ..) i
          · exact finishPass_keepsWaits (servePeer_keepsWait ..) i
        rwa [Option.some.inj h] at hentry
      · cases h
    · cases h
  | txSwitched take =>
    simp only [act] at h
    split at h
    next flags timedOut _ =>
      have hpass := finishPass_keepsWaits
        (serveRequest_keepsWait (nd.link nd.cPeer) flags timedOut take) i
      rwa [Option.some.inj h] at hpass
    · cases h
  | txAdvance =>
    simp only [act] at h
    split at h
    · cases h
      simp only [txAdvance]
      split
      · exact .of_eq rfl rfl rfl
      · exact .of_eq rfl rfl (needP_field Peer.waitView (fun _ _ => rfl) _ _ i)
    · cases h
  | txCheck =>
    simp only [act] at h
    split at h
    · cases h
      exact .of_eq rfl rfl rfl
    · cases h
  | txIFrame =>
    simp only [act] at h
    split at h
    · cases h
      exact finishTx_keepsWaits (connectedTxIFrame_keepsWait ..) i
    · cases h
  | txSFrame take =>
    simp only [act] at h
    split at h
    next flags iSent _ =>
      cases h
      obtain ⟨hs, hview⟩ := connectedTxSFrame_keepsView (nd.link nd.cPeer) flags iSent take
      refine ⟨(congrArg Station.poolState (finishTx_s ..)).trans hs, fun _ => ?_, fun hi hbusy => ?_⟩
      · rw [finishTx_field Peer.waitView fun _ _ => rfl]
        exact setLink_peer_field Peer.waitView nd _ hview i
      · -- a broadcast goes with the end of the busy condition
        rw [signals, hi, hbusy, decide_eq_true rfl] at hsignal
        simpa using (Bool.or_eq_false_iff.mp hsignal).2
    · cases h
  | linkUp j mode nrmOnly =>
    cases h
    have hkeep := linkUpStart_keepsWait (nd.link j) mode nrmOnly
    split <;> exact .of_link hkeep rfl rfl
  | linkUpDone call | linkUpFails call =>
    simp only [act] at h
    split at h
    · cases h
      exact .of_eq rfl rfl rfl
    · cases h
  | linkDown j =>
    cases h
    exact .of_link (linkDownStart_keepsWait (nd.link j)) rfl rfl
  | peer j op =>
    simp only [act, Option.map_eq_some_iff] at h
    obtain ⟨r, hr, h⟩ := h
    cases h
    refine .of_setLink (PeerOp.apply_keepsPool hr) (fun hi => ?_) rfl rfl
    rw [isWriterOf, decide_eq_true hi, Bool.true_and] at hwriter
    exact (PeerOp.apply_keepsWait hwriter hr).1
  | poolState state => exact absurd rfl (hpool state)
  | poolChange =>
    cases h
    exact .of_eq rfl rfl rfl

/-! ### What is about to wake the writer -/

theorem connected_of_not_signals (hconn : nd.Connected i) (hsignal : nd.signals a nd' i = false) :
    nd'.Connected i := by
  have hdown := (Bool.or_eq_false_iff.mp hsignal).1
  rwa [show (nd.peer i).ssState.stConn = true from hconn, Bool.true_and, Bool.not_eq_false']
    at hdown

theorem servedMode_not_isDisc (h : servedMode nd.s = true) : nd.s.isDisc = false := by
  simp only [servedMode, Bool.or_eq_true, decide_eq_true_eq] at h
  rcases h with h | h
  · simp [Station.isDisc, h]
  · simp [Station.isDisc, h]

/-- A frame that does not open the link leaves the mode to a connected peer. -/
theorem receive_mode {fp : Frame} (hfp : isUFrm (fp.ctrl nd.s.framing 0) = false) :
    (nd.receive fp).s.mode = nd.s.mode := by
  rw [receive, if_neg (by rw [hfp]; exact Bool.false_ne_true)]
  rcases rxDispatch_cases (Endpoint.lineBusy (nd.link nd.cPeer)) fp with h | ⟨-, isCommand, h⟩
  · rw [h]
    rfl
  · rw [h]
    exact (commonRx_keeps (l := Endpoint.lineBusy (nd.link nd.cPeer))).sameConn.mode

theorem act_servedMode (hconn : nd.Connected nd.cPeer)
    (hsignal : nd.signals a nd' nd.cPeer = false)
    (hfails : ∀ call, a = .linkUpFails call → call.sMode = .nrm ∨ call.sMode = .abm)
    (hserved : servedMode nd.s = true) (h : nd.act a = some (nd', sent)) :
    servedMode nd'.s = true := by
  have hconn' := connected_of_not_signals hconn hsignal
  have hsame (hmode : nd'.s.mode = nd.s.mode) : servedMode nd'.s = true := by
    rw [← hserved, servedMode, servedMode, hmode]
  cases act_connStep h with
  | same hstep => exact hsame hstep.mode
  | opens fp ha hfp _ _ =>
    subst ha
    cases h
    rw [signals, Bool.or_eq_false_iff, decide_eq_true rfl, Bool.true_and] at hsignal
    refine hsame (receive_mode (Bool.eq_false_iff.mpr fun hu => ?_))
    have hno := hsignal.2
    rw [if_pos hu] at hno
    exact Bool.false_ne_true (hno.symm.trans hfp)
  | closes hstep _ _ => exact absurd (hstep.stConn.symm.trans hconn') Bool.false_ne_true
  | refuses fp _ _ hstep _ => exact absurd (hstep.stConn.symm.trans hconn') Bool.false_ne_true
  | linkUp call _ _ _ _ hmode =>
    rcases hmode with ⟨hdisc, -⟩ | ⟨-, -, hmode⟩
    · exact absurd ((servedMode_not_isDisc hserved).symm.trans hdisc) Bool.false_ne_true
    · exact hsame hmode
  | linkUpDone call _ _ hnd' => exact hsame (by rw [hnd'])
  | linkUpFails call ha _ hnd' =>
    rw [hnd']
    rcases hfails call ha with hmode | hmode
    · simp [servedMode, hmode]
    · simp [servedMode, hmode]

theorem uResponseStage_sent {l : Link} (h : l.p.umState.sent = false) (flags : EvtFlags)
    (take : Option Frame) : (uResponseStage l flags take).1.p.umState.sent = false := by
  have hsent (l : Link) (h : l.p.umState.sent = false) : (uResponseSent l).p.umState.sent = false := by
    rw [uResponseSent]
    split
    · exact h
    split
    · rw [(closePeerOrderly_closed l).2.2.1]
    · exact h
  rw [uResponseStage]
  split
  · simp only [sendUResponse]
    split
    · exact hsent _ h
    · exact h
  · exact h

/-- A pass that starts at a connected peer goes into `ioHdlcConnectedTx`, unless it ends the
connection. -/
theorem servePeer_underWay {flags : EvtFlags} (hserved : servedMode nd.s = true)
    (hsent : (nd.peer nd.cPeer).umState.sent = false) (take : Takes)
    (hconn : (nd.finishPass (servePeer (nd.link nd.cPeer) flags take)).1.Connected nd.cPeer) :
    (nd.finishPass (servePeer (nd.link nd.cPeer) flags take)).1.cPeer = nd.cPeer ∧
      (nd.finishPass (servePeer (nd.link nd.cPeer) flags take)).1.underWay = true := by
  rw [Connected, finishPass_peer, setLink_peer_self] at hconn
  have hstart : (nd.link nd.cPeer).s.mode = .nrm ∨ (nd.link nd.cPeer).s.mode = .abm := by
    simpa [servedMode] using hserved
  have hsent' := uResponseStage_sent (l := nd.link nd.cPeer) hsent flags take.uResponse
  have hcases := uResponseStage_cases (nd.link nd.cPeer) flags take.uResponse
  generalize hstage : uResponseStage (nd.link nd.cPeer) flags take.uResponse = r at hsent' hcases
  have hpass := dispatchTx_flags r.1 r.2.2 take.ui
  have hserve : servePeer (nd.link nd.cPeer) flags take =
      { dispatchTx r.1 r.2.2 take.ui with
        sent := r.2.1.toList ++ (dispatchTx r.1 r.2.2 take.ui).sent } := by
    rw [servePeer, hstage]
  rw [hserve] at hconn ⊢
  have hup (hlink : (dispatchTx r.1 r.2.2 take.ui).link = r.1) : r.1.p.ssState.stConn = true :=
    (congrArg (fun l : Link => l.p.ssState.stConn) hlink).symm.trans hconn
  have hmode (hr : r.1.p.ssState.stConn = true) : r.1.s.mode = .nrm ∨ r.1.s.mode = .abm := by
    rcases hcases with ⟨-, -, hclose⟩ | hsame
    · exact absurd (hclose.stConn.symm.trans hr) Bool.false_ne_true
    · rwa [hsame.mode]
  cases hpass with
  | advance hdisc hlink _ =>
    have := hup hlink
    simp [Peer.isDisc, this] at hdisc
  | down hdown _ hlink _ =>
    have := hup hlink
    simp [Peer.isDisc, this, hsent'] at hdown
  | modeless _ _ hno hlink _ => exact absurd (hmode (hup hlink)) hno
  | aborts _ _ hdown _ _ _ => exact absurd (hdown.symm.trans hconn) Bool.false_ne_true
  | connected _ _ _ hnext =>
    simp only [finishPass, hnext]
    exact ⟨rfl, rfl⟩

/-- The worker does not let go of an event at its current peer. -/
theorem tx_underWay (ha : a.isTx = true) (hserved : servedMode nd.s = true)
    (hbusy : nd.s.flags.busy = true) (hunder : nd.underWay = true)
    (hconn : nd.Connected nd.cPeer) (hsignal : nd.signals a nd' nd.cPeer = false)
    (hok : nd.keepsEvent a = true) (h : nd.act a = some (nd', sent)) :
    nd'.cPeer = nd.cPeer ∧ nd'.underWay = true := by
  have hconn' := connected_of_not_signals hconn hsignal
  cases a with
  | receive | lineIdle | linkUp | linkUpDone | linkUpFails | linkDown | peer | poolState
  | poolChange => cases ha
  | txFetch =>
    simp only [act] at h
    split at h
    · split at h
      next hfetch =>
        cases h
        refine ⟨rfl, ?_⟩
        simp only [underWay, decide_eq_true_eq]
        exact fun hempty => hfetch.2 (Finset.union_eq_empty.mp hempty).1
      · cases h
    · cases h
  | txEntry take =>
    simp only [act] at h
    split at h
    next flags hpc =>
      split at h
      · simp only [keepsEvent, hpc, Bool.and_eq_true, Bool.not_eq_true'] at hok
        obtain ⟨hdue, hsent⟩ := hok
        have hentry : nd.txEntry flags take =
            nd.finishPass (servePeer (nd.link nd.cPeer) flags take) := by
          have hno : uCommandDue (nd.link nd.cPeer) flags = false := hdue
          rw [txEntry, hno]
          rfl
        rw [hentry] at h
        have hend : (nd.finishPass (servePeer (nd.link nd.cPeer) flags take)).1 = nd' :=
          congrArg Prod.fst (Option.some.inj h)
        rw [← hend] at hconn' ⊢
        exact servePeer_underWay hserved hsent take hconn'
      · cases h
    · cases h
  | txSwitched take =>
    simp only [act] at h
    split at h
    next hpc => simp only [underWay, hpc, Bool.false_eq_true] at hunder
    · cases h
  | txAdvance =>
    simp only [act] at h
    split at h
    next hpc => simp only [underWay, hpc, Bool.false_eq_true] at hunder
    · cases h
  | txCheck =>
    simp only [act] at h
    split at h
    next flags _ =>
      cases h
      refine ⟨rfl, ?_⟩
      simp only [connectedTxCheck]
      split <;> rfl
    · cases h
  | txIFrame =>
    simp only [act] at h
    split at h
    next flags iSent hpc =>
      cases h
      have hends := connectedTxIFrame_flags (nd.link nd.cPeer) flags iSent
      have hstay := connectedTxIFrame_nextPeer (nd.link nd.cPeer) flags iSent
      generalize connectedTxIFrame (nd.link nd.cPeer) flags iSent = t at hends hstay ⊢
      have hnode : nd.finishTx t = { nd.setLink nd.cPeer t.link with pc := .sched t.pc } := by
        simp only [finishTx, hstay, Bool.false_eq_true, if_false]
      rw [hnode]
      refine ⟨rfl, ?_⟩
      rcases hends with ⟨-, hskip⟩ | ⟨-, -, ⟨hdown, -⟩ | ⟨-, hpc' | hpc'⟩⟩
      · simp only [underWay, hskip]
      · simp only [keepsEvent, hpc, Bool.not_eq_true', decide_eq_false_iff_not] at hok
        exact absurd hdown hok
      · simp only [underWay, hpc']
      · simp only [underWay, hpc']
    · cases h
  | txSFrame take =>
    simp only [act] at h
    split at h
    next flags iSent hpc =>
      cases h
      have hmoves := txSFrame_staysOrMoves nd flags iSent take
      obtain ⟨-, -, -, -, hpc'⟩ := connectedTxSFrame_flags (nd.link nd.cPeer) flags iSent take
      rw [keepsEvent, Bool.or_eq_true, Bool.and_eq_true] at hok
      rcases hok with hrecover | ⟨hrest, hstay⟩
      · have hidle := connectedTxSFrame_recovers hrecover flags iSent
        simp only [signals, hbusy, finishTx_s, hidle, decide_true, Bool.not_false, Bool.and_self,
          Bool.or_true, Bool.true_eq_false] at hsignal
      · refine ⟨of_decide_eq_true hstay _ hmoves, ?_⟩
        simp only [underWay, finishTx_pc, hpc', decide_eq_true_eq]
        rw [hpc] at hrest
        exact fun hempty => of_decide_eq_true hrest (Finset.union_eq_empty.mp hempty).1
    · cases h

end Steps

end Node

/-- A node, and the writers that wait for `tx_cv` and were not woken. -/
structure WithWaits (n : Nat) where
  node : Node n
  waits : Fin n → Bool

/-- What one thread does under its locks. A release that takes the pool back to `NORMAL` is a
`poolState` of the node, but for the one of a reader, which announces it in the same section. -/
inductive WaitAction (n : Nat) where
  | node (a : Action n)
  | readRelease (crosses : Bool)

namespace WithWaits

variable {n : Nat}

def waitsAfter (g : WithWaits n) (a : Action n) (nd' : Node n) (i : Fin n) : Bool :=
  match a with
  | .peer j op =>
    if i = j ∧ op.isWriter = true then g.node.beginsWait i op
    else g.waits i && !g.node.signals a nd' i
  | _ => g.waits i && !g.node.signals a nd' i

/-- The end of the loop of `ioHdlcReadVTmo`. -/
def readRelease (s : Station) (crosses : Bool) : Station :=
  let s := { s with poolState := if crosses then .normal else s.poolState }
  if s.flags.busy && s.poolState = .normal then s.broadcastFlags {.poolStChg} else s

def act (g : WithWaits n) : WaitAction n → Option (WithWaits n)
  | .node a => (g.node.act a).map fun r => ⟨r.1, g.waitsAfter a r.1⟩
  | .readRelease crosses => some { g with node := { g.node with s := readRelease g.node.s crosses } }

def Fresh (g : WithWaits n) : Prop := g.node.Fresh ∧ ∀ i, g.waits i = false

def Moves (ok : WithWaits n → WaitAction n → Prop) (g g' : WithWaits n) : Prop :=
  ∃ a, ok g a ∧ g.act a = some g'

/-- A writer waits in vain only until the worker has served what is pending. -/
def NoLostWakeup (g : WithWaits n) : Prop :=
  ∀ i, g.waits i = true → writerWaits (g.node.link i) = false → g.node.wakePending i = true

/-- Whether nothing but the pool keeps the writer of peer `i` waiting. -/
def waitsForPool (g : WithWaits n) (i : Fin n) : Bool :=
  g.waits i && (g.node.peer i).iPendingCount < writerPendingLimit (g.node.peer i)

/-- Whether the writer of the current peer waits in vain. -/
def reliesOnWorker (g : WithWaits n) : Bool :=
  g.waits g.node.cPeer && !writerWaits (g.node.link g.node.cPeer)

/-- Whether a reader's announcement will have the worker wake the writer of peer `i`. -/
def announced (g : WithWaits n) (i : Fin n) : Bool :=
  decide (i = g.node.cPeer) && servedMode g.node.s && g.node.s.flags.busy &&
    match g.node.pc with
    | .sched _ => true
    | _ => false

/-- Whether an action loses no wake-up: the pool recovers while the writers that wait for it are
about to be woken, and the worker does not let the event go without waking. -/
def keepsWakeup (g : WithWaits n) : WaitAction n → Bool
  | .readRelease crosses =>
    !crosses || decide (∀ i, g.waitsForPool i = true → g.announced i = true)
  | .node (.poolState state) =>
    state ≠ .normal || decide (∀ i, g.waitsForPool i = true → g.node.wakePending i = true)
  | .node a => !g.reliesOnWorker || g.node.keepsEvent a

def KeepsWakeup (g : WithWaits n) (a : WaitAction n) : Prop := g.keepsWakeup a = true

/-- The writer of peer `i` has to wait, or the worker is about to wake it. -/
structure Waiting (nd : Node n) (i : Fin n) : Prop where
  conn : nd.Connected i
  txReset : (nd.peer i).streamTerminalPending.txReset = false
  wakes : wWaitCond (nd.link i) = true ∨ nd.wakePending i = true

/-- The invariant: so it is with every writer that waits. -/
def Inv (g : WithWaits n) : Prop := ∀ i, g.waits i = true → Waiting g.node i

section Steps

variable {g g' : WithWaits n} {nd nd' : Node n} {a : Action n} {b : WaitAction n}
  {sent : List Frame} {i : Fin n}

theorem Waiting.of_writerWaits (h : writerWaits (nd.link i) = true) : Waiting nd i := by
  simp only [writerWaits, Node.link_p, Peer.isDisc, Bool.and_eq_true, Bool.not_eq_true',
    Bool.not_not] at h
  exact ⟨h.1.2, h.1.1, .inl h.2⟩

theorem Inv.noLostWakeup (h : g.Inv) : g.NoLostWakeup := by
  intro i hi hno
  obtain ⟨hconn, hreset, hwait | hwake⟩ := h i hi
  · have hyes : writerWaits (g.node.link i) = true := by
      simp only [writerWaits, Node.link_p, Peer.isDisc, hreset,
        show (g.node.peer i).ssState.stConn = true from hconn, hwait, Bool.not_true,
        Bool.not_false, Bool.and_self]
    exact absurd (hno.symm.trans hyes) Bool.false_ne_true
  · exact hwake

theorem wakePending_iff (nd : Node n) (i : Fin n) :
    nd.wakePending i = true ↔ i = nd.cPeer ∧ servedMode nd.s = true ∧ nd.s.flags.busy = true ∧
      nd.underWay = true := by
  simp only [Node.wakePending, Bool.and_eq_true, decide_eq_true_eq, and_assoc]

/-- What the worker is about to do stays so until it broadcasts. -/
theorem act_wakePending (hconn : nd.Connected i) (hwake : nd.wakePending i = true)
    (hkeep : nd.KeepsWaits nd' i) (hsignal : nd.signals a nd' i = false)
    (hok : nd.keepsEvent a = true) (h : nd.act a = some (nd', sent)) :
    nd'.wakePending i = true := by
  obtain ⟨rfl, hserved, hbusy, hunder⟩ := (wakePending_iff nd i).mp hwake
  have hserved' : servedMode nd'.s = true := by
    refine Node.act_servedMode hconn hsignal (fun call ha => ?_) hserved h
    subst ha
    simpa [Node.keepsEvent] using hok
  have hworker : nd'.cPeer = nd.cPeer ∧ nd'.underWay = true := by
    by_cases ha : a.isTx = true
    · exact Node.tx_underWay ha hserved hbusy hunder hconn hsignal hok h
    · rw [Bool.not_eq_true] at ha
      obtain ⟨hpc, hc, -⟩ := Node.act_of_not_isTx ha h
      have hlis := Node.act_listens ha h
      refine ⟨hc, ?_⟩
      simp only [Node.underWay, hpc] at hunder ⊢
      split at hunder
      · rw [decide_eq_true_eq] at hunder ⊢
        exact fun hempty => hunder (Finset.subset_empty.mp
          (hempty ▸ Finset.union_subset_union_right hlis))
      · exact hunder
      · cases hunder
  exact (wakePending_iff nd' nd.cPeer).mpr
    ⟨hworker.1.symm, hserved', hkeep.busy rfl hbusy, hworker.2⟩

/-- A section that is none of the writer and wakes nobody. -/
theorem Waiting.act (hw : Waiting nd i) (hpool : ∀ state, a ≠ .poolState state)
    (hwriter : Node.isWriterOf i a = false) (hsignal : nd.signals a nd' i = false)
    (hok : wWaitCond (nd.link i) = false → i = nd.cPeer → nd.keepsEvent a = true)
    (h : nd.act a = some (nd', sent)) : Waiting nd' i := by
  have hkeep := Node.act_keepsWaits hpool hwriter hsignal h
  have hconn := Node.connected_of_not_signals hw.conn hsignal
  have hview := hkeep.view hconn
  have hcond : wWaitCond (nd'.link i) = wWaitCond (nd.link i) :=
    wWaitCond_congr hview hkeep.poolState
  refine ⟨hconn, (congrArg WaitView.txReset hview).trans hw.txReset, ?_⟩
  rcases hw.wakes with hwait | hwake
  · exact .inl (hcond.trans hwait)
  cases hwait : wWaitCond (nd.link i) with
  | true => exact .inl (hcond.trans hwait)
  | false =>
    have hi := ((wakePending_iff nd i).mp hwake).1
    exact .inr (act_wakePending hw.conn hwake hkeep hsignal (hok hwait hi) h)

/-- The writer that goes to wait finds what it waits for. -/
theorem beginsWait_waits {op : PeerOp} {r : Link × WriterPc} (hbegin : nd.beginsWait i op = true)
    (h : op.apply (nd.link i) (nd.writer i) = some r) : writerWaits r.1 = true := by
  cases op with
  | writeReserve timedOut take =>
    cases hpc : nd.writer i with
    | loop remaining signalTx =>
      simp only [Node.beginsWait, hpc, Bool.and_eq_true, decide_eq_true_eq, Bool.not_eq_true'] at hbegin
      obtain ⟨⟨hne, hwait⟩, -⟩ := hbegin
      simp only [PeerOp.apply, hpc, Option.some.injEq] at h
      have hparts := hwait
      simp only [writerWaits, Bool.and_eq_true, Bool.not_eq_true'] at hparts
      obtain ⟨⟨hreset, hdisc⟩, hcond⟩ := hparts
      subst h
      simp only [IoHdlc.writeReserve, if_neg hne, hreset, hdisc, hcond, Bool.false_eq_true,
        if_false, if_true]
      exact hwait
    | idle | build | done => simp [Node.beginsWait, hpc] at hbegin
  | writeBegin | writeInsert | writeDone | read | replyTimer | t3Timer | uiSend | uiGet
  | peerTest | peerTestTake | peerTestExpire => simp [Node.beginsWait] at hbegin

/-- A change of the pool, if the worker is about to wake the writer whom nothing else keeps. -/
theorem Waiting.of_pool {s' : Station} (hw : Waiting nd i)
    (hwakes : s'.poolState = .normal →
      (nd.peer i).iPendingCount < writerPendingLimit (nd.peer i) →
        Node.wakePending { nd with s := s' } i = true) :
    Waiting { nd with s := s' } i := by
  refine ⟨hw.conn, hw.txReset, ?_⟩
  by_cases hcount : (nd.peer i).iPendingCount < writerPendingLimit (nd.peer i)
  · by_cases hnormal : s'.poolState = .normal
    · exact .inr (hwakes hnormal hcount)
    · refine .inl ?_
      simp [wWaitCond, Node.link, hnormal]
  · have hge : writerPendingLimit (nd.peer i) ≤ (nd.peer i).iPendingCount :=
      UInt32.not_lt.mp hcount
    refine .inl ?_
    simp [wWaitCond, Node.link, hge]

theorem readRelease_spec (s : Station) (crosses : Bool) :
    (readRelease s crosses).mode = s.mode ∧ (readRelease s crosses).flags = s.flags ∧
      (readRelease s crosses).poolState = (if crosses then .normal else s.poolState) ∧
      s.cmListener ⊆ (readRelease s crosses).cmListener ∧
      (s.flags.busy = true → (readRelease s crosses).poolState = .normal →
        .poolStChg ∈ (readRelease s crosses).cmListener) := by
  simp only [readRelease]
  by_cases hgo : (s.flags.busy && decide ((if crosses then PoolState.normal else s.poolState) =
      .normal)) = true
  · rw [if_pos hgo]
    have hmem : Evt.poolStChg ∈ {.poolStChg} ∩ flagsMask := by decide
    exact ⟨rfl, rfl, rfl, Finset.subset_union_left,
      fun _ _ => Finset.mem_union_right _ hmem⟩
  · rw [if_neg hgo]
    refine ⟨rfl, rfl, rfl, Finset.Subset.refl _, fun hbusy hnormal => absurd ?_ hgo⟩
    rw [Bool.and_eq_true, decide_eq_true_eq]
    exact ⟨hbusy, hnormal⟩

/-- A release by a reader sets off what wakes the writers. -/
theorem Waiting.readRelease {crosses : Bool} (hw : Waiting g.node i)
    (hcross : crosses = true →
      (g.node.peer i).iPendingCount < writerPendingLimit (g.node.peer i) →
        g.announced i = true) :
    Waiting { g.node with s := WithWaits.readRelease g.node.s crosses } i := by
  obtain ⟨hmode, hflags, hpool, hlis, hannounce⟩ := readRelease_spec g.node.s crosses
  refine hw.of_pool fun hnormal hcount => ?_
  rw [wakePending_iff, servedMode, hmode, hflags, ← servedMode]
  cases crosses with
  | true =>
    have hann := hcross rfl hcount
    simp only [announced, Bool.and_eq_true, decide_eq_true_eq] at hann
    obtain ⟨⟨⟨hi, hserved⟩, hbusy⟩, hpc⟩ := hann
    refine ⟨hi, hserved, hbusy, ?_⟩
    simp only [Node.underWay]
    split
    · rw [decide_eq_true_eq]
      intro hempty
      exact Finset.notMem_empty _ (hempty ▸ Finset.mem_union_right _ (hannounce hbusy hnormal))
    · rfl
    next hno hno' =>
      split at hpc
      next pc heq => exact absurd heq (hno' pc)
      · cases hpc
  | false =>
    have hsame : g.node.s.poolState = .normal := by rw [← hnormal, hpool]; rfl
    have hcond : wWaitCond (g.node.link i) = false := by
      simp [wWaitCond, Node.link, hsame, hcount]
    rcases hw.wakes with hwait | hwake
    · exact absurd (hcond.symm.trans hwait) Bool.false_ne_true
    obtain ⟨hi, hserved, hbusy, hunder⟩ := (wakePending_iff g.node i).mp hwake
    refine ⟨hi, hserved, hbusy, ?_⟩
    simp only [Node.underWay] at hunder ⊢
    split at hunder
    · rw [decide_eq_true_eq] at hunder ⊢
      exact fun hempty => hunder (Finset.subset_empty.mp
        (hempty ▸ Finset.union_subset_union_right hlis))
    · rfl
    · cases hunder

/-- An action of the node. -/
theorem inv_node (h : g.Inv) (hok : g.KeepsWakeup (.node a)) (hact : g.node.act a = some (nd', sent)) :
    ∀ i, g.waitsAfter a nd' i = true → Waiting nd' i := by
  intro i hi
  by_cases hwriter : Node.isWriterOf i a = true
  · cases a with
    | peer j op =>
      simp only [Node.isWriterOf, Bool.and_eq_true, decide_eq_true_eq] at hwriter
      obtain ⟨rfl, hop⟩ := hwriter
      simp only [waitsAfter, hop, and_self, if_true] at hi
      simp only [Node.act, Option.map_eq_some_iff] at hact
      obtain ⟨r, hr, hact⟩ := hact
      cases hact
      refine .of_writerWaits ?_
      have hlink : Node.link { g.node.setLink i r.1 with
          writer := Function.update g.node.writer i r.2 } i = r.1 := Node.setLink_link ..
      rw [hlink]
      exact beginsWait_waits hi hr
    | _ => cases hwriter
  · rw [Bool.not_eq_true] at hwriter
    have hkept : g.waits i = true ∧ g.node.signals a nd' i = false := by
      cases a with
      | peer j op =>
        have hno : ¬(i = j ∧ op.isWriter = true) := by simpa [Node.isWriterOf] using hwriter
        simpa only [waitsAfter, if_neg hno, Bool.and_eq_true, Bool.not_eq_true'] using hi
      | _ => simpa only [waitsAfter, Bool.and_eq_true, Bool.not_eq_true'] using hi
    have hw := h i hkept.1
    by_cases hpool : ∃ state, a = .poolState state
    · obtain ⟨state, rfl⟩ := hpool
      cases hact
      refine hw.of_pool fun hnormal hcount => ?_
      have hpend : g.waitsForPool i = true := by
        rw [waitsForPool, hkept.1, decide_eq_true hcount, Bool.and_self]
      have hgo : state ≠ .normal ∨ ∀ i, g.waitsForPool i = true → g.node.wakePending i = true := by
        simpa [KeepsWakeup, keepsWakeup] using hok
      exact (hgo.resolve_left fun hne => hne hnormal) i hpend
    · refine hw.act (fun state ha => hpool ⟨state, ha⟩) hwriter hkept.2 (fun hno hi => ?_) hact
      subst hi
      have hrelies : g.reliesOnWorker = true := by
        have hconn : (g.node.peer g.node.cPeer).ssState.stConn = true := hw.conn
        simp only [reliesOnWorker, hkept.1, writerWaits, Node.link_p, hw.txReset, Peer.isDisc,
          hconn, hno, Bool.and_false, Bool.not_false, Bool.and_self]
      cases a with
      | poolState state => exact absurd ⟨state, rfl⟩ hpool
      | _ => simpa only [KeepsWakeup, keepsWakeup, hrelies, Bool.not_true, Bool.false_or] using hok

theorem inv_step (h : g.Inv) (hok : g.KeepsWakeup b) (hact : g.act b = some g') : g'.Inv := by
  cases b with
  | node a =>
    simp only [act, Option.map_eq_some_iff] at hact
    obtain ⟨⟨nd', sent⟩, hact, rfl⟩ := hact
    exact inv_node h hok hact
  | readRelease crosses =>
    cases hact
    intro i hi
    refine (h i hi).readRelease fun hcross hcount => ?_
    have hpend : g.waitsForPool i = true := by
      rw [waitsForPool, show g.waits i = true from hi, decide_eq_true hcount, Bool.and_self]
    have hgo : ∀ i, g.waitsForPool i = true → g.announced i = true := by
      simpa [KeepsWakeup, keepsWakeup, hcross] using hok
    exact hgo i hpend

end Steps

/-- While the pool recovers in view of the worker, and the worker wakes before it lets go, no
writer waits in vain. -/
theorem noLostWakeup_of_keepsWakeup {g : WithWaits n}
    (h : Kit.Reachable Fresh (Moves KeepsWakeup) g) : g.NoLostWakeup := by
  refine Inv.noLostWakeup (h.invariant Inv (fun g hfresh i hi => ?_) fun g g' hg hmove => ?_)
  · exact absurd ((hfresh.2 i).symm.trans hi) Bool.false_ne_true
  · obtain ⟨a, hok, hact⟩ := hmove
    exact inv_step hg hok hact

/-- A combined station right after set-up. -/
def combined : WithWaits 1 := ⟨Node.onePeer .adm {} 1 2, fun _ => false⟩

theorem fresh_combined : combined.Fresh :=
  ⟨Node.fresh_onePeer .adm (.inr rfl) {} 1 2, fun _ => rfl⟩

/-- A SABM, and the passes of the worker that end with its UA. -/
def connects : List (Action 1) :=
  [.receive (Node.shortFrame 1 0x3F), .txFetch, .txEntry { uResponse := some default }, .txCheck,
    .txIFrame, .txSFrame fun _ => none]

/-- A write of one octet. -/
def writes (octet : UInt8) : List (Action 1) :=
  [.peer 0 (.writeBegin [octet]), .peer 0 (.writeReserve false (some default)),
    .peer 0 .writeInsert, .peer 0 (.writeReserve false none), .peer 0 .writeDone]

/-- An I frame arrives while the pool is low: the station is busy, the third writer waits, and the
pool recovers while the worker has the event of that frame. -/
theorem noLostWakeup_of_keepsWakeup_recovery :
    ∃ g : WithWaits 1, g.waits 0 = true ∧ writerWaits (g.node.link 0) = false ∧ g.NoLostWakeup := by
  obtain ⟨g, hrun, hp⟩ := Kit.Reachable.exists_of_run
    (fun (g : WithWaits 1) a => if g.keepsWakeup a then g.act a else none)
    (fun g a g' h => by
      split at h
      next hk => exact ⟨a, hk, h⟩
      · cases h)
    (.start fresh_combined : Kit.Reachable Fresh (Moves KeepsWakeup) _)
    ((connects ++ [.poolState .lowWater, .peer 0 (.writeBegin [1]),
        .peer 0 (.writeReserve false none), .receive (Node.shortFrame 1 0x00),
        .poolState .normal] : List (Action 1)).map .node)
    (fun g => g.waits 0 && !writerWaits (g.node.link 0)) (by decide +kernel)
  rw [Bool.and_eq_true, Bool.not_eq_true'] at hp
  exact ⟨g, hp.1, hp.2, noLostWakeup_of_keepsWakeup hrun⟩

/-- Two fragments, an unread I frame and the frame of the driver take a pool of five below its
watermark, and a third write waits. The RR that acknowledges both fragments wakes it while the
pool is still low; the release of that very RR takes the pool back, and tells nobody. -/
theorem noLostWakeup_fails_on_release :
    ¬∀ g : WithWaits 1, Kit.Reachable Fresh (Moves fun _ _ => True) g → g.NoLostWakeup := by
  intro hclaim
  obtain ⟨g, hrun, hp⟩ := Kit.Reachable.exists_of_run act
    (fun _ a _ h => ⟨a, trivial, h⟩)
    (.start fresh_combined : Kit.Reachable Fresh (Moves fun _ _ => True) _)
    ((connects ++ [.receive (Node.shortFrame 1 0x00), .txFetch, .txEntry {}, .txCheck, .txIFrame,
        .txSFrame fun _ => some default] ++ writes 1 ++ writes 2 ++
      [.peer 0 (.writeBegin [3]), .poolState .lowWater, .peer 0 (.writeReserve false none),
        .txFetch, .txEntry {}, .txCheck, .txIFrame, .txIFrame, .txIFrame,
        .txSFrame fun _ => some default,
        .receive (Node.shortFrame 2 0x41), .peer 0 (.writeReserve false none),
        .poolState .normal, .txFetch, .txEntry {}, .txCheck, .txIFrame,
        .txSFrame fun _ => some default] : List (Action 1)).map .node)
    (fun g => g.waits 0 && !writerWaits (g.node.link 0) && decide (g.node.pc.idleFlags = some ∅) &&
      decide (g.node.s.cmListener = ∅)) (by decide +kernel)
  simp only [Bool.and_eq_true, Bool.not_eq_true', decide_eq_true_eq] at hp
  obtain ⟨⟨⟨hwait, hcond⟩, hflags⟩, hcm⟩ := hp
  obtain ⟨-, -, -, hunder⟩ := (wakePending_iff g.node 0).mp (hclaim g hrun 0 hwait hcond)
  simp only [Node.underWay, WorkerPc.eq_of_idleFlags hflags, hcm, Finset.empty_union, ne_eq,
    not_true_eq_false, decide_false, Bool.false_eq_true] at hunder

end WithWaits

end IoHdlc
