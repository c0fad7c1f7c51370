import IoHdlc.App.LinkManager
import IoHdlc.Core.AppEvents
import IoHdlc.Core.NodeSections
import IoHdlc.Core.PeerStream

/-!
What the application is told of the connections.

The events of a station name no peer. `WithTold` writes down for each peer what was told while a
section worked on it, the newest first, and the last word on its connection is the connection:
none begins or ends without an event, and no event says what is not so.
-/

namespace IoHdlc

open Kit

/-- `ioHdlcPeerGetState`. -/
def ioHdlcPeerGetState (p : Peer) : PeerState :=
  if p.ssState.stConn then .connected
  else if p.ssState.termOrderly then .orderlyClosed
  else if p.ssState.termAborted then .aborted
  else .disconnected

theorem peerGetState_connected (p : Peer) :
    ioHdlcPeerGetState p = .connected ↔ p.ssState.stConn = true := by
  rw [ioHdlcPeerGetState]
  split
  next h => exact iff_of_true rfl h
  next h =>
    refine iff_of_false ?_ h
    split
    · simp
    split <;> simp

/-- What an event says of the connection of its peer. -/
def AppEvt.connection : AppEvt → Option Bool
  | .linkUp => some true
  | .linkDown | .linkLost | .linkRefused => some false
  | _ => none

/-- The connection behind some events, of which the last one comes first. -/
def connAfter (conn : Bool) (es : List AppEvt) : Bool := (es.findSome? AppEvt.connection).getD conn

theorem connAfter_append (conn : Bool) (es es' : List AppEvt) :
    connAfter conn (es' ++ es) = connAfter (connAfter conn es) es' := by
  rw [connAfter, connAfter, connAfter, List.findSome?_append]
  cases es'.findSome? AppEvt.connection <;> rfl

/-- A section tells what becomes of the connection. -/
def Link.Announces (l l' : Link) : Prop :=
  ∃ es, l'.s.appEs = es ++ l.s.appEs ∧ l'.p.ssState.stConn = connAfter l.p.ssState.stConn es

section Sections

variable {l l' l'' : Link} {fp : Frame}

theorem Link.Announces.quiet (h : l'.s.appEs = l.s.appEs)
    (hconn : l'.p.ssState.stConn = l.p.ssState.stConn) : l.Announces l' :=
  ⟨[], h, hconn⟩

theorem Link.Announces.refl (l : Link) : l.Announces l := .quiet rfl rfl

theorem Link.Announces.trans (h : l.Announces l') (h' : l'.Announces l'') : l.Announces l'' := by
  obtain ⟨es, hes, hconn⟩ := h
  obtain ⟨es', hes', hconn'⟩ := h'
  refine ⟨es' ++ es, ?_, ?_⟩
  · rw [hes', hes, List.append_assoc]
  · rw [connAfter_append, ← hconn, hconn']

/-- One event is told, and it is true. -/
theorem Link.Announces.one {e : AppEvt} (h : l'.s.appEs = e :: l.s.appEs)
    (hconn : l'.p.ssState.stConn = connAfter l.p.ssState.stConn [e]) : l.Announces l' :=
  ⟨[e], h, hconn⟩

/-- A section tells nothing, and the connection stays. -/
structure Link.TellsNothing (l l' : Link) : Prop where
  appEs : l'.s.appEs = l.s.appEs
  stConn : l'.p.ssState.stConn = l.p.ssState.stConn

/-- The stream shows the connection. -/
theorem conn_of_stream (h : l'.p.stream = l.p.stream) :
    l'.p.ssState.stConn = l.p.ssState.stConn :=
  congrArg Stream.conn h

/-! ### Reception -/

theorem rxDispatch_announces : l.Announces (rxDispatch l fp).1 := by
  have hconn : (rxDispatch l fp).1.p.ssState.stConn = l.p.ssState.stConn := by
    have h := congrArg Stream.conn (@rxDispatch_stream l fp)
    split at h
    · exact h
    · exact h
  refine .quiet ?_ hconn
  rcases rxDispatch_cases l fp with h | ⟨-, isCommand, h⟩
  · rw [h]
  · rw [h]
    exact commonRx_appEs isCommand

/-! ### The ends of a connection -/

theorem leaveModeIfLast_appEs (l : Link) : (leaveModeIfLast l).s.appEs = l.s.appEs := by
  rw [leaveModeIfLast]
  split <;> rfl

/-- A connection that ends in order is told; one that had ended before is not. -/
theorem closePeerOrderly_announces (l : Link) : l.Announces (closePeerOrderly l) := by
  have hconn : (closePeerOrderly l).p.ssState.stConn = false :=
    congrArg Stream.conn (closePeerOrderly_stream l)
  have hes := leaveModeIfLast_appEs
    (ioHdlcSetDisconnected ⟨l.s, clearPeerTxQueues (resetPeerProtocolState l.p)⟩ .orderly)
  simp only [closePeerOrderly] at hconn ⊢
  split at hconn
  next hwas =>
    rw [if_pos hwas]
    exact .one (congrArg (AppEvt.linkDown :: ·) hes) hconn
  next hwas =>
    rw [if_neg hwas]
    rw [Peer.isDisc, Bool.not_not, Bool.not_eq_true] at hwas
    exact .quiet hes (hconn.trans hwas.symm)

/-- The retries are used up, and the connection is lost. -/
theorem handleTimeoutRetry_announces (l : Link) : l.Announces (handleTimeoutRetry l).1 := by
  rw [handleTimeoutRetry]
  split
  · have hes := leaveModeIfLast_appEs (ioHdlcSetDisconnected
      ⟨l.s.broadcastFlags {.linkDown}, clearPeerTxQueues (resetPeerProtocolState l.p)⟩ .aborted)
    have hconn : (abortPeerLink { l with s := l.s.broadcastFlags {.linkDown} }).p.ssState.stConn =
        false := by
      rw [abortPeerLink, leaveModeIfLast_p]
      rfl
    dsimp only
    split
    · exact .one (congrArg (AppEvt.linkLost :: ·) hes) hconn
    next hwas =>
      rw [Peer.isDisc, Bool.not_not, Bool.not_eq_true] at hwas
      exact .quiet hes (hconn.trans hwas.symm)
  · exact .refl _

/-! ### U frames -/

theorem serveUCommand_announces (fp : Frame) : l.Announces (serveUCommand l fp) := by
  simp only [serveUCommand]
  split
  · exact .one rfl rfl
  split
  · exact .quiet rfl rfl
  split <;> exact .quiet rfl rfl

theorem serveUResponse_announces (uCmd : UInt8) : l.Announces (serveUResponse l uCmd) := by
  have hclose : l.Announces (closePeerOrderly l) := closePeerOrderly_announces l
  simp only [serveUResponse]
  by_cases hdisc : l.p.umCmd = IOHDLC_U_DISC
  · simp only [if_pos hdisc, if_neg (not_not.mpr hdisc)]
    split
    · exact hclose.trans (.quiet rfl rfl)
    split
    · exact hclose.trans (.quiet rfl rfl)
    split
    · exact .one rfl rfl
    · exact .refl l
  · simp only [if_neg hdisc, if_pos (show l.p.umCmd ≠ IOHDLC_U_DISC from hdisc)]
    split
    · exact .one rfl rfl
    split
    · exact .one rfl rfl
    split
    · exact .one rfl rfl
    · exact .refl l

theorem handleUFrame_announces (fp : Frame) : l.Announces (handleUFrame l fp) := by
  simp only [handleUFrame]
  split
  · exact .refl l
  split
  · rw [receiveUi]
    split
    · exact .refl l
    split
    · exact .refl l
    · exact .one rfl rfl
  split
  · rw [receiveUCommand]
    split
    · have hregister : l.Announces
          (registerUCommand l (uFunction l fp) (getPF l.s.framing fp)) := .quiet rfl rfl
      exact (hregister.trans (serveUCommand_announces fp)).trans (.quiet rfl rfl)
    · exact .refl l
  · simp only [receiveUResponse]
    split
    · split
      · exact .one rfl rfl
      · have hreset : l.Announces { l with p := { l.p with replyTmr := l.p.replyTmr.reset } } :=
          .quiet rfl rfl
        exact (hreset.trans (serveUResponse_announces _)).trans (.quiet rfl rfl)
    · exact .refl l

/-! ### The transmit worker -/

theorem serveReplyTimeout_announces (l : Link) (flags : EvtFlags) :
    l.Announces (serveReplyTimeout l flags).1 := by
  have hretry : l.Announces (handleTimeoutRetry l).1 := handleTimeoutRetry_announces l
  simp only [serveReplyTimeout]
  split
  · split
    · exact hretry.trans (.quiet rfl rfl)
    · exact hretry
  · exact .refl l

theorem serveT3Timeout_announces (l : Link) (flags : EvtFlags) :
    l.Announces (serveT3Timeout l flags).1 := by
  have hreset : l.Announces { l with p := { l.p with t3Tmr := l.p.t3Tmr.reset } } := .quiet rfl rfl
  have hretry := hreset.trans (handleTimeoutRetry_announces _)
  simp only [serveT3Timeout]
  split
  · split
    · exact .quiet rfl rfl
    split
    · exact .quiet rfl rfl
    split
    · exact hretry.trans (.quiet rfl rfl)
    · exact hretry
  · exact .refl l

theorem connectedTxEntry_announces (l : Link) (flags : EvtFlags) (take : Option Frame) :
    l.Announces (connectedTxEntry l flags take).link := by
  have hreply : l.Announces (serveReplyTimeout l (flags \ {.lineIdle})).1 :=
    serveReplyTimeout_announces l _
  have ht3 := hreply.trans (serveT3Timeout_announces _ ((flags \ {.lineIdle}) \ {.cRplytmo}))
  simp only [connectedTxEntry]
  split
  · split
    · exact ht3.trans (.quiet (congrArg Station.appEs (sendUi_station _ take))
        (conn_of_stream (sendUi_stream _ take)))
    · exact ht3
  · exact hreply

theorem sendUCommand_announces (l : Link) (timedOut : Bool) (take : Option Frame) :
    l.Announces (sendUCommand l timedOut take).link := by
  have hretry : l.Announces (retryBefore l timedOut).1 := by
    rw [retryBefore]
    split
    · exact handleTimeoutRetry_announces l
    · exact .refl l
  rcases sendUCommand_ends l timedOut take with
    ⟨-, h⟩ | ⟨-, -, h⟩ | ⟨-, -, h, -⟩ | ⟨-, -, -, fp, -, h⟩
  · rw [h]
    exact .refl l
  · rw [h]
    exact hretry
  · rw [h]
    exact hretry.trans (.quiet rfl rfl)
  · obtain ⟨t3, delay, hsent⟩ := uCommandSent_eq (presetF (retryBefore l timedOut).1)
    rw [h, hsent]
    exact hretry.trans (.quiet rfl rfl)

theorem uResponseStage_announces (l : Link) (flags : EvtFlags) (take : Option Frame) :
    l.Announces (uResponseStage l flags take).1 := by
  have hsent (l : Link) : l.Announces (uResponseSent l) := by
    rw [uResponseSent]
    split
    · exact .quiet rfl rfl
    split
    · exact closePeerOrderly_announces l
    · exact .refl l
  rw [uResponseStage]
  split
  · simp only [sendUResponse]
    split
    · refine Link.Announces.trans ?_ (hsent _)
      exact .quiet rfl rfl
    · exact .quiet rfl rfl
  · exact .refl l

theorem servePeer_announces (l : Link) (flags : EvtFlags) (take : Takes) :
    l.Announces (servePeer l flags take).link := by
  refine (uResponseStage_announces l flags take.uResponse).trans ?_
  change Link.Announces _ (dispatchTx _ _ _).link
  simp only [dispatchTx]
  split
  · split <;> exact .refl _
  split
  · exact connectedTxEntry_announces ..
  · exact .refl _

theorem serveRequest_announces (l : Link) (flags : EvtFlags) (timedOut : Bool) (take : Takes) :
    l.Announces (serveRequest l flags timedOut take).link := by
  have hcmd : l.Announces (sendUCommand l timedOut take.uCommand).link :=
    sendUCommand_announces l timedOut take.uCommand
  simp only [serveRequest]
  split
  · exact hcmd
  · exact hcmd
  · exact hcmd
  · exact hcmd.trans (servePeer_announces ..)

theorem connectedTxIFrame_announces (l : Link) (flags : EvtFlags) (iSent : Bool) :
    l.Announces (connectedTxIFrame l flags iSent).link := by
  refine .quiet ?_ (conn_of_stream (connectedTxIFrame_stream l flags iSent))
  rw [connectedTxIFrame]
  split
  · rfl
  split
  · rfl
  · dsimp only
    split <;> rfl

theorem connectedTxSFrame_announces (l : Link) (flags : EvtFlags) (iSent : Bool)
    (take : Nat → Option Frame) : l.Announces (connectedTxSFrame l flags iSent take).link :=
  .quiet (chooseSFrame_appEs _ iSent take)
    (conn_of_stream (connectedTxSFrame_stream l flags iSent take))

/-! ### The calls of the application -/

theorem linkUpStart_tellsNothing (l : Link) (mode : Mode) (nrmOnly : Bool) :
    l.TellsNothing (linkUpStart l mode nrmOnly).1 := by
  simp only [linkUpStart]
  split
  · exact ⟨rfl, rfl⟩
  split
  · exact ⟨rfl, rfl⟩
  split
  · exact ⟨rfl, rfl⟩
  split <;> exact ⟨rfl, rfl⟩

theorem linkDownStart_tellsNothing (l : Link) : l.TellsNothing (linkDownStart l).1 := by
  simp only [linkDownStart]
  split
  · exact ⟨rfl, rfl⟩
  split <;> exact ⟨rfl, rfl⟩

/-- The other calls tell nothing. -/
theorem PeerOp.apply_tellsNothing {op : PeerOp} {w : WriterPc} {r : Link × WriterPc}
    (h : op.apply l w = some r) : l.TellsNothing r.1 := by
  refine ⟨?_, (Node.PeerOp.apply_sameConn h).stConn⟩
  cases op with
  | writeBegin octets =>
    cases w <;> simp only [PeerOp.apply, reduceCtorEq, Option.some.injEq] at h
    subst h
    rw [IoHdlc.writeBegin]
    split <;> rfl
  | writeReserve timedOut take =>
    cases w <;> simp only [PeerOp.apply, reduceCtorEq, Option.some.injEq] at h
    subst h
    simp only [IoHdlc.writeReserve]
    split
    · rfl
    split
    · rfl
    split
    · rfl
    split
    · rfl
    split <;> rfl
  | writeInsert =>
    cases w <;> simp only [PeerOp.apply, reduceCtorEq, Option.some.injEq] at h
    subst h
    simp only [IoHdlc.writeInsert]
    split
    · rfl
    split <;> rfl
  | writeDone =>
    cases w <;> simp only [PeerOp.apply, reduceCtorEq, Option.some.injEq] at h
    subst h
    rfl
  | read =>
    simp only [PeerOp.apply] at h
    split at h
    · cases h
      rfl
    · cases h
  | replyTimer =>
    cases h
    rw [Endpoint.replyTimerExpiry]
    split <;> rfl
  | t3Timer =>
    cases h
    rw [Endpoint.t3TimerExpiry]
    split <;> rfl
  | uiSend value =>
    cases h
    rw [ioHdlcPeerUiSend]
    split <;> rfl
  | uiGet =>
    cases h
    rw [ioHdlcPeerUiGet]
    split <;> rfl
  | peerTest len take =>
    cases h
    simp only [peerTestStart]
    split
    · rfl
    split
    · rfl
    split
    · rfl
    split <;> rfl
  | peerTestTake =>
    cases h
    rw [sTakeCompletedTestFrame]
    split <;> rfl
  | peerTestExpire =>
    cases h
    rcases peerTestExpire_eq l with h | h | ⟨-, h⟩ <;> rw [h]

end Sections

/-! ### A node -/

namespace Node

variable {n : Nat} {nd nd' : Node n} {a : Action n} {sent : List Frame} {i j : Fin n} {l : Link}

/-- The events of an action, the newest first. -/
def tells (nd nd' : Node n) : List AppEvt := nd'.s.appEs.take (nd'.s.appEs.length - nd.s.appEs.length)

/-- What an action tells is about the current peer, and the other connections stay. -/
structure Announces (nd nd' : Node n) : Prop where
  events : nd'.s.appEs = nd.tells nd' ++ nd.s.appEs
  current : (nd'.peer nd.cPeer).ssState.stConn =
    connAfter (nd.peer nd.cPeer).ssState.stConn (nd.tells nd')
  others : ∀ i, i ≠ nd.cPeer → (nd'.peer i).ssState.stConn = (nd.peer i).ssState.stConn

theorem tells_eq {es : List AppEvt} (h : nd'.s.appEs = es ++ nd.s.appEs) : nd.tells nd' = es := by
  rw [tells, h, List.length_append, Nat.add_sub_cancel, List.take_left' rfl]

/-- A section of a worker. -/
theorem Announces.of_link (h : (nd.link nd.cPeer).Announces l) (hs : nd'.s.appEs = l.s.appEs)
    (hpeer : ∀ i, (nd'.peer i).ssState.stConn =
      ((nd.setLink nd.cPeer l).peer i).ssState.stConn) : nd.Announces nd' := by
  obtain ⟨es, hes, hconn⟩ := h
  have htells : nd.tells nd' = es := tells_eq (hs.trans hes)
  refine ⟨?_, ?_, fun i hi => ?_⟩
  · rw [htells]
    exact hs.trans hes
  · rw [htells, hpeer, setLink_peer_self]
    exact hconn
  · rw [hpeer, setLink_peer_of_ne nd l hi]

/-- Whatever tells nothing. -/
theorem Announces.of_quiet (hs : nd'.s.appEs = nd.s.appEs)
    (hpeer : ∀ i, (nd'.peer i).ssState.stConn = (nd.peer i).ssState.stConn) :
    nd.Announces nd' := by
  have htells : nd.tells nd' = [] := tells_eq hs
  refine ⟨?_, ?_, fun i _ => hpeer i⟩
  · rw [htells]
    exact hs
  · rw [htells]
    exact hpeer _

/-- A call for peer `j`. -/
theorem Announces.of_call (h : (nd.link j).TellsNothing l) (hs : nd'.s.appEs = l.s.appEs)
    (hpeer : ∀ i, (nd'.peer i).ssState.stConn = ((nd.setLink j l).peer i).ssState.stConn) :
    nd.Announces nd' := by
  refine .of_quiet (hs.trans h.appEs) fun i => ?_
  rw [hpeer]
  by_cases hi : i = j
  · subst hi
    rw [setLink_peer_self]
    exact h.stConn
  · rw [setLink_peer_of_ne nd l hi]

theorem act_announces (h : nd.act a = some (nd', sent)) : nd.Announces nd' := by
  rcases act_section h with ⟨j, l, hsection, hleaves⟩ | hsame
  · have hes : nd'.s.appEs = l.s.appEs := congrArg Station.appEs hleaves.s
    have hconn := hleaves.field (fun p => p.ssState.stConn) fun _ _ => rfl
    have hbusy : (nd.link nd.cPeer).Announces (Endpoint.lineBusy (nd.link nd.cPeer)) :=
      .quiet rfl rfl
    cases hsection with
    | uFrame fp _ => exact .of_link (hbusy.trans (handleUFrame_announces fp)) hes hconn
    | frame fp _ => exact .of_link (hbusy.trans rxDispatch_announces) hes hconn
    | lineIdle => exact .of_link (.quiet rfl rfl) hes hconn
    | entryRequest take flags timedOut => exact .of_link (serveRequest_announces ..) hes hconn
    | entryServe take flags => exact .of_link (servePeer_announces ..) hes hconn
    | switched take flags timedOut => exact .of_link (serveRequest_announces ..) hes hconn
    | iFrame flags iSent => exact .of_link (connectedTxIFrame_announces ..) hes hconn
    | sFrame take flags iSent => exact .of_link (connectedTxSFrame_announces ..) hes hconn
    | linkUp i mode nrmOnly => exact .of_call (linkUpStart_tellsNothing ..) hes hconn
    | linkDown i => exact .of_call (linkDownStart_tellsNothing _) hes hconn
    | call i op r hr => exact .of_call (PeerOp.apply_tellsNothing hr) hes hconn
  · exact .of_quiet hsame.appEs (hsame.field (fun p => p.ssState.stConn) fun _ _ => rfl)

end Node

/-! ### What was told of each peer -/

/-- A node, and what was told while a section worked on each peer. -/
structure WithTold (n : Nat) where
  node : Node n
  told : Fin n → List AppEvt

namespace WithTold

variable {n : Nat}

def next (g : WithTold n) (a : Action n) : Option (WithTold n) :=
  (g.node.act a).map fun r =>
    { node := r.1
      told := Function.update g.told g.node.cPeer (g.node.tells r.1 ++ g.told g.node.cPeer) }

def Fresh (g : WithTold n) : Prop := g.node.Fresh ∧ ∀ i, g.told i = []

def Moves (g g' : WithTold n) : Prop := ∃ a, g.next a = some g'

/-- What is known of a peer is its connection. -/
def Inv (g : WithTold n) : Prop :=
  ∀ i, (g.node.peer i).ssState.stConn = connAfter false (g.told i)

variable {g g' : WithTold n} {i : Fin n}

theorem inv_init (h : g.Fresh) : g.Inv := by
  intro i
  obtain ⟨framesize, pollRetryMax, addr, hpeer⟩ := h.1.peer i
  rw [h.2 i, hpeer]
  rfl

theorem inv_step (h : g.Inv) (hstep : g.Moves g') : g'.Inv := by
  obtain ⟨a, hnext⟩ := hstep
  obtain ⟨⟨nd', sent⟩, hact, rfl⟩ := Option.map_eq_some_iff.mp hnext
  have htells := Node.act_announces hact
  intro i
  by_cases hi : i = g.node.cPeer
  · subst hi
    dsimp only
    rw [Function.update_self, connAfter_append, ← h, htells.current]
  · dsimp only
    rw [Function.update_of_ne hi, ← h, htells.others i hi]

/-- In every run the application was told of each connection that is there, and of the end of each
one that is not: the last word on a peer is its state. -/
theorem lastWord_reachable (h : Reachable Fresh Moves g) (i : Fin n) :
    (ioHdlcPeerGetState (g.node.peer i) = .connected ↔
      (g.told i).findSome? AppEvt.connection = some true) := by
  have hinv : (g.node.peer i).ssState.stConn = connAfter false (g.told i) :=
    h.invariant Inv (fun _ hg => inv_init hg) (fun _ _ hg => inv_step hg) i
  rw [peerGetState_connected, hinv, connAfter]
  cases (g.told i).findSome? AppEvt.connection with
  | none => simp
  | some conn => simp

/-- A secondary right after set-up, of which nothing was told. -/
def secondary : WithTold 1 := ⟨Node.onePeer .ndm {} 1 2, fun _ => []⟩

theorem fresh_secondary : secondary.Fresh := ⟨Node.fresh_onePeer .ndm (.inl rfl) {} 1 2, fun _ => rfl⟩

/-- A connection that the primary opened and has closed again. -/
theorem lastWord_reachable_closed : ∃ g : WithTold 1, g.told 0 = [.linkDown, .linkUp] ∧
    (ioHdlcPeerGetState (g.node.peer 0) = .connected ↔
      (g.told 0).findSome? AppEvt.connection = some true) := by
  obtain ⟨g, hreach, htold⟩ := Reachable.exists_of_run next
    (fun _ a _ h => (⟨a, h⟩ : Moves _ _)) (.start fresh_secondary)
    [.receive (Node.shortFrame 1 0x93), .txFetch, .txEntry { uResponse := some default },
      .txCheck, .txIFrame, .txSFrame fun _ => none, .receive (Node.shortFrame 1 0x53), .txFetch,
      .txEntry { uResponse := some default }]
    (fun g => decide (g.told 0 = [.linkDown, .linkUp])) (by decide +kernel)
  exact ⟨g, of_decide_eq_true htold, lastWord_reachable hreach 0⟩

end WithTold

end IoHdlc
