import IoHdlc.Core.NodeSections
import IoHdlc.Core.PeerStream

/-!
The UI values that a station hands to its application.

`ioHdlcPeerUiGet` takes the value of the last UI frame, once. `WithUi` writes down for each peer
the values that came in and the values that were taken, the newest first.
-/

namespace IoHdlc

open Kit

/-- The UI value that waits for the application. -/
def Peer.uiNews (p : Peer) : Option (List UInt8) := if p.uiRxPending then some p.uiRxValue else none

/-- The value of a UI frame for the peer of the link, if it is one that the station takes. -/
def uiArrival (l : Link) (fp : Frame) : Option (List UInt8) :=
  let addr := (fp.addr l.s.framing).toUInt32
  if addr ≠ l.s.addr ∧ addr ≠ l.p.addr then none
  else if uFunction l fp ≠ IOHDLC_U_UI then none
  else if fp.elen < uHdrLen l ∨ fp.elen - uHdrLen l ≠ 4 then none
  else if l.p.isDisc then none
  else some (fp.frame.slice (uHdrLen l) 4)

/-- What waits is as before, or it is dropped. -/
def Link.KeepsNews (l l' : Link) : Prop := l'.p.uiNews = l.p.uiNews ∨ l'.p.uiNews = none

section Sections

variable {l l' l'' : Link} {fp : Frame}

theorem Link.KeepsNews.refl (l : Link) : l.KeepsNews l := .inl rfl

theorem Link.KeepsNews.trans (h : l.KeepsNews l') (h' : l'.KeepsNews l'') : l.KeepsNews l'' := by
  rcases h' with h' | h'
  · rcases h with h | h
    · exact .inl (h'.trans h)
    · exact .inr (h'.trans h)
  · exact .inr h'

theorem uiGet_eq (l : Link) : (ioHdlcPeerUiGet l).2 = l.p.uiNews ∧
    (ioHdlcPeerUiGet l).1.p.uiNews = none := by
  rw [ioHdlcPeerUiGet, Peer.uiNews]
  split
  · exact ⟨rfl, rfl⟩
  next hpending => exact ⟨rfl, if_neg hpending⟩

/-! ### Reception -/

theorem handleCheckpointAndAck_uiNews {nr : UInt32} {pf isCommand : Bool} {ack : AckResult}
    (h : handleCheckpointAndAck l nr pf isCommand = some ack) :
    ack.link.p.uiNews = l.p.uiNews := by
  obtain ⟨_, _, _, _, _, _, _, _, _, _, _, -, h⟩ := handleCheckpointAndAck_fields h
  rw [h]
  rfl

theorem handleIFrame_uiNews (pf : Bool) : (handleIFrame l fp pf).1.p.uiNews = l.p.uiNews := by
  simp only [handleIFrame]
  split <;> rfl

theorem handleSFrame_uiNews : (handleSFrame l fp).1.p.uiNews = l.p.uiNews := by
  obtain ⟨_, _, _, _, _, _, h⟩ := handleSFrame_fields l fp
  rw [h]
  rfl

theorem commonRx_uiNews (isCommand : Bool) :
    (commonRx l fp isCommand).1.p.uiNews = l.p.uiNews := by
  cases commonRx_does l fp isCommand with
  | frmr on eq =>
    rw [eq, frmrPending]
    split <;> rfl
  | reject off hack eq =>
    rw [eq]
    rfl
  | @iFrame ack r off hack hi hr eq =>
    have hnews : r.1.p.uiNews = ack.link.p.uiNews := hr ▸ handleIFrame_uiNews _
    rw [eq]
    exact hnews.trans (handleCheckpointAndAck_uiNews hack)
  | @sFrame ack r off hack hi hr eq =>
    have hnews : r.1.p.uiNews = ack.link.p.uiNews := hr ▸ handleSFrame_uiNews
    rw [eq]
    exact hnews.trans (handleCheckpointAndAck_uiNews hack)

theorem rxDispatch_uiNews : (rxDispatch l fp).1.p.uiNews = l.p.uiNews := by
  rcases rxDispatch_cases l fp with h | ⟨-, isCommand, h⟩
  · rw [h]
  · rw [h]
    exact commonRx_uiNews isCommand

/-! ### The ends of a connection -/

theorem closePeerOrderly_uiNews (l : Link) : (closePeerOrderly l).p.uiNews = none := by
  have hclose : (leaveModeIfLast (ioHdlcSetDisconnected
      ⟨l.s, clearPeerTxQueues (resetPeerProtocolState l.p)⟩ .orderly)).p.uiNews = none := by
    rw [leaveModeIfLast_p]
    rfl
  simp only [closePeerOrderly]
  split
  · exact hclose
  · exact hclose

theorem handleTimeoutRetry_keepsNews (l : Link) : l.KeepsNews (handleTimeoutRetry l).1 := by
  rw [handleTimeoutRetry]
  split
  · have habort : (abortPeerLink { l with s := l.s.broadcastFlags {.linkDown} }).p.uiNews = none := by
      rw [abortPeerLink, leaveModeIfLast_p]
      rfl
    dsimp only
    split
    · exact .inr habort
    · exact .inr habort
  · exact .inl rfl

/-! ### U frames -/

theorem receiveUi_uiNews (fp : Frame) :
    (receiveUi l fp).p.uiNews =
      if fp.elen < uHdrLen l ∨ fp.elen - uHdrLen l ≠ 4 then l.p.uiNews
      else if l.p.isDisc then l.p.uiNews
      else some (fp.frame.slice (uHdrLen l) 4) := by
  rw [receiveUi]
  split
  · rfl
  split
  · rfl
  · rfl

theorem receiveUCommand_keepsNews (fp : Frame) : l.KeepsNews (receiveUCommand l fp) := by
  rw [receiveUCommand]
  split
  · simp only [serveUCommand]
    split
    · exact .inr rfl
    split
    · exact .inl rfl
    split <;> exact .inl rfl
  · exact .refl l

theorem serveUResponse_keepsNews (uCmd : UInt8) : l.KeepsNews (serveUResponse l uCmd) := by
  have hclose : l.KeepsNews (closePeerOrderly l) := .inr (closePeerOrderly_uiNews l)
  simp only [serveUResponse]
  by_cases hdisc : l.p.umCmd = IOHDLC_U_DISC
  · simp only [if_pos hdisc, if_neg (not_not.mpr hdisc)]
    split
    · exact hclose.trans (.inl rfl)
    split
    · exact hclose.trans (.inl rfl)
    split
    · exact .inl rfl
    · exact .refl l
  · simp only [if_neg hdisc, if_pos (show l.p.umCmd ≠ IOHDLC_U_DISC from hdisc)]
    split
    · exact .inr rfl
    split
    · exact .inl rfl
    split
    · exact .inl rfl
    · exact .refl l

theorem receiveUResponse_keepsNews (fp : Frame) : l.KeepsNews (receiveUResponse l fp) := by
  simp only [receiveUResponse]
  split
  · split
    · exact .inl rfl
    · have hreset : l.KeepsNews { l with p := { l.p with replyTmr := l.p.replyTmr.reset } } :=
        .inl rfl
      exact (hreset.trans (serveUResponse_keepsNews _)).trans (.inl rfl)
  · exact .refl l

/-- A U frame brings a value, or none. -/
theorem handleUFrame_uiNews (fp : Frame) :
    (∃ v, uiArrival l fp = some v ∧ (handleUFrame l fp).p.uiNews = some v) ∨
      uiArrival l fp = none ∧ l.KeepsNews (handleUFrame l fp) := by
  simp only [handleUFrame, uiArrival]
  split
  · exact .inr ⟨rfl, .refl l⟩
  by_cases hui : uFunction l fp = IOHDLC_U_UI
  · simp only [if_pos hui, if_neg (not_not.mpr hui)]
    have hnews := receiveUi_uiNews (l := l) fp
    split
    next hshort =>
      rw [if_pos hshort] at hnews
      exact .inr ⟨rfl, .inl hnews⟩
    next hlong =>
      rw [if_neg hlong] at hnews
      split
      next hdisc =>
        rw [if_pos hdisc] at hnews
        exact .inr ⟨rfl, .inl hnews⟩
      next hconn =>
        rw [if_neg hconn] at hnews
        exact .inl ⟨_, rfl, hnews⟩
  · simp only [if_neg hui, if_pos (show uFunction l fp ≠ IOHDLC_U_UI from hui)]
    split
    · exact .inr ⟨trivial, receiveUCommand_keepsNews fp⟩
    · exact .inr ⟨trivial, receiveUResponse_keepsNews fp⟩

/-! ### The transmit worker -/

theorem serveReplyTimeout_keepsNews (l : Link) (flags : EvtFlags) :
    l.KeepsNews (serveReplyTimeout l flags).1 := by
  have hretry : l.KeepsNews (handleTimeoutRetry l).1 := handleTimeoutRetry_keepsNews l
  simp only [serveReplyTimeout]
  split
  · split
    · exact hretry.trans (.inl rfl)
    · exact hretry
  · exact .refl l

theorem serveT3Timeout_keepsNews (l : Link) (flags : EvtFlags) :
    l.KeepsNews (serveT3Timeout l flags).1 := by
  have hreset : l.KeepsNews { l with p := { l.p with t3Tmr := l.p.t3Tmr.reset } } := .inl rfl
  have hretry := hreset.trans (handleTimeoutRetry_keepsNews _)
  simp only [serveT3Timeout]
  split
  · split
    · exact .inl rfl
    split
    · exact .inl rfl
    split
    · exact hretry.trans (.inl rfl)
    · exact hretry
  · exact .refl l

theorem sendUi_keepsNews (l : Link) (take : Option Frame) : l.KeepsNews (sendUi l take).1 := by
  simp only [sendUi]
  split
  · split <;> exact .inl rfl
  · exact .refl l

theorem connectedTxEntry_keepsNews (l : Link) (flags : EvtFlags) (take : Option Frame) :
    l.KeepsNews (connectedTxEntry l flags take).link := by
  have hreply : l.KeepsNews (serveReplyTimeout l (flags \ {.lineIdle})).1 :=
    serveReplyTimeout_keepsNews l _
  have ht3 := hreply.trans (serveT3Timeout_keepsNews _ ((flags \ {.lineIdle}) \ {.cRplytmo}))
  simp only [connectedTxEntry]
  split
  · split
    · exact ht3.trans (sendUi_keepsNews _ take)
    · exact ht3
  · exact hreply

theorem sendUCommand_keepsNews (l : Link) (timedOut : Bool) (take : Option Frame) :
    l.KeepsNews (sendUCommand l timedOut take).link := by
  have hretry : l.KeepsNews (retryBefore l timedOut).1 := by
    rw [retryBefore]
    split
    · exact handleTimeoutRetry_keepsNews l
    · exact .refl l
  rcases sendUCommand_ends l timedOut take with
    ⟨-, h⟩ | ⟨-, -, h⟩ | ⟨-, -, h, -⟩ | ⟨-, -, -, fp, -, h⟩
  · rw [h]
    exact .refl l
  · rw [h]
    exact hretry
  · rw [h]
    exact hretry.trans (.inl rfl)
  · obtain ⟨t3, delay, hsent⟩ := uCommandSent_eq (presetF (retryBefore l timedOut).1)
    rw [h, hsent]
    exact hretry.trans (.inl rfl)

theorem uResponseStage_keepsNews (l : Link) (flags : EvtFlags) (take : Option Frame) :
    l.KeepsNews (uResponseStage l flags take).1 := by
  have hsent (l : Link) : l.KeepsNews (uResponseSent l) := by
    rw [uResponseSent]
    split
    · exact .inl rfl
    split
    · exact .inr (closePeerOrderly_uiNews l)
    · exact .refl l
  rw [uResponseStage]
  split
  · simp only [sendUResponse]
    split
    · refine Link.KeepsNews.trans ?_ (hsent _)
      exact .inl rfl
    · exact .inl rfl
  · exact .refl l

theorem servePeer_keepsNews (l : Link) (flags : EvtFlags) (take : Takes) :
    l.KeepsNews (servePeer l flags take).link := by
  refine (uResponseStage_keepsNews l flags take.uResponse).trans ?_
  change Link.KeepsNews _ (dispatchTx _ _ _).link
  simp only [dispatchTx]
  split
  · split <;> exact .refl _
  split
  · exact connectedTxEntry_keepsNews ..
  · exact .refl _

theorem serveRequest_keepsNews (l : Link) (flags : EvtFlags) (timedOut : Bool) (take : Takes) :
    l.KeepsNews (serveRequest l flags timedOut take).link := by
  have hcmd : l.KeepsNews (sendUCommand l timedOut take.uCommand).link :=
    sendUCommand_keepsNews l timedOut take.uCommand
  simp only [serveRequest]
  split
  · exact hcmd
  · exact hcmd
  · exact hcmd
  · exact hcmd.trans (servePeer_keepsNews ..)

theorem connectedTxIFrame_keepsNews (l : Link) (flags : EvtFlags) (iSent : Bool) :
    l.KeepsNews (connectedTxIFrame l flags iSent).link := by
  rw [connectedTxIFrame]
  split
  · exact .refl l
  split
  · exact .refl l
  · dsimp only
    split <;> exact .inl rfl

theorem connectedTxSFrame_keepsNews (l : Link) (flags : EvtFlags) (iSent : Bool)
    (take : Nat → Option Frame) : l.KeepsNews (connectedTxSFrame l flags iSent take).link := by
  obtain ⟨_, _, _, _, _, _, _, h⟩ := connectedTxSFrame_fields l flags iSent take
  rw [h]
  exact .inl rfl

/-! ### The calls of the application -/

theorem linkUpStart_keepsNews (l : Link) (mode : Mode) (nrmOnly : Bool) :
    l.KeepsNews (linkUpStart l mode nrmOnly).1 := by
  simp only [linkUpStart]
  split
  · exact .inl rfl
  split
  · exact .inl rfl
  split
  · exact .inl rfl
  split <;> exact .inl rfl

theorem linkDownStart_keepsNews (l : Link) : l.KeepsNews (linkDownStart l).1 := by
  simp only [linkDownStart]
  split
  · exact .inl rfl
  split <;> exact .inl rfl

theorem PeerOp.apply_keepsNews {op : PeerOp} {w : WriterPc} {r : Link × WriterPc}
    (h : op.apply l w = some r) : l.KeepsNews r.1 := by
  cases op with
  | writeBegin octets =>
    cases w <;> simp only [PeerOp.apply, reduceCtorEq, Option.some.injEq] at h
    subst h
    rw [IoHdlc.writeBegin]
    split <;> exact .inl rfl
  | writeReserve timedOut take =>
    cases w <;> simp only [PeerOp.apply, reduceCtorEq, Option.some.injEq] at h
    subst h
    simp only [IoHdlc.writeReserve]
    split
    · exact .inl rfl
    split
    · exact .inl rfl
    split
    · exact .inl rfl
    split
    · exact .inl rfl
    split <;> exact .inl rfl
  | writeInsert =>
    cases w <;> simp only [PeerOp.apply, reduceCtorEq, Option.some.injEq] at h
    subst h
    simp only [IoHdlc.writeInsert]
    split
    · exact .inl rfl
    split <;> exact .inl rfl
  | writeDone =>
    cases w <;> simp only [PeerOp.apply, reduceCtorEq, Option.some.injEq] at h
    subst h
    exact .inl rfl
  | read =>
    simp only [PeerOp.apply] at h
    split at h
    · cases h
      exact .inl rfl
    · cases h
  | replyTimer =>
    cases h
    rw [Endpoint.replyTimerExpiry]
    split <;> exact .inl rfl
  | t3Timer =>
    cases h
    rw [Endpoint.t3TimerExpiry]
    split <;> exact .inl rfl
  | uiSend value =>
    cases h
    rw [ioHdlcPeerUiSend]
    split <;> exact .inl rfl
  | uiGet =>
    cases h
    exact .inr (uiGet_eq l).2
  | peerTest len take =>
    cases h
    simp only [peerTestStart]
    split
    · exact .inl rfl
    split
    · exact .inl rfl
    split
    · exact .inl rfl
    split <;> exact .inl rfl
  | peerTestTake =>
    cases h
    rw [sTakeCompletedTestFrame]
    split <;> exact .inl rfl
  | peerTestExpire =>
    cases h
    rcases peerTestExpire_eq l with h | h | ⟨-, h⟩ <;> rw [h] <;> exact .inl rfl

end Sections

/-! ### A node -/

namespace Node

variable {n : Nat} {nd nd' : Node n} {a : Action n} {sent : List Frame} {i j : Fin n} {l : Link}

/-- The value that an action brings for the current peer. -/
def arrival (nd : Node n) : Action n → Option (List UInt8)
  | .receive fp =>
    if isUFrm (fp.ctrl nd.s.framing 0) then
      uiArrival (Endpoint.lineBusy (nd.link nd.cPeer)) fp
    else none
  | _ => none

/-- The value that an action takes from peer `i`. -/
def uiTaken (nd : Node n) (i : Fin n) : Action n → Option (List UInt8)
  | .peer j .uiGet => if j = i then (ioHdlcPeerUiGet (nd.link j)).2 else none
  | _ => none

/-- Nothing comes in. -/
def KeepsNews (nd nd' : Node n) : Prop := ∀ i, (nd.link i).KeepsNews (nd'.link i)

theorem KeepsNews.of_news (h : ∀ i, (nd'.peer i).uiNews = (nd.peer i).uiNews) : nd.KeepsNews nd' :=
  fun i => .inl (h i)

/-- A section of peer `j`, and what follows it. -/
theorem KeepsNews.of_link (h : (nd.link j).KeepsNews l)
    (hpeer : ∀ i, (nd'.peer i).uiNews = ((nd.setLink j l).peer i).uiNews) : nd.KeepsNews nd' := by
  intro i
  have hnews : (nd'.link i).p.uiNews = ((nd.setLink j l).peer i).uiNews := hpeer i
  by_cases hi : i = j
  · subst hi
    rw [setLink_peer_self] at hnews
    exact h.imp hnews.trans hnews.trans
  · rw [setLink_peer_of_ne nd l hi] at hnews
    exact .inl hnews

/-- Only the frames of the line bring values. -/
theorem act_keepsNews (h : nd.act a = some (nd', sent)) (ha : ∀ fp, a ≠ .receive fp) :
    nd.KeepsNews nd' := by
  rcases act_section h with ⟨j, l, hsection, hleaves⟩ | hsame
  · refine .of_link ?_ (hleaves.field Peer.uiNews fun _ _ => rfl)
    cases hsection with
    | uFrame fp _ => exact absurd rfl (ha fp)
    | frame fp _ => exact absurd rfl (ha fp)
    | lineIdle => exact .inl rfl
    | entryRequest take flags timedOut => exact serveRequest_keepsNews ..
    | entryServe take flags => exact servePeer_keepsNews ..
    | switched take flags timedOut => exact serveRequest_keepsNews ..
    | iFrame flags iSent => exact connectedTxIFrame_keepsNews ..
    | sFrame take flags iSent => exact connectedTxSFrame_keepsNews ..
    | linkUp i mode nrmOnly => exact linkUpStart_keepsNews ..
    | linkDown i => exact linkDownStart_keepsNews _
    | call i op r hr => exact PeerOp.apply_keepsNews hr
  · exact .of_news (hsame.field Peer.uiNews fun _ _ => rfl)

/-- A frame brings a value for the current peer, or nothing comes in. -/
theorem receive_news (nd : Node n) (fp : Frame) :
    (∃ v, nd.arrival (.receive fp) = some v ∧
        ((nd.receive fp).peer nd.cPeer).uiNews = some v ∧
          ∀ i, i ≠ nd.cPeer → ((nd.receive fp).peer i).uiNews = (nd.peer i).uiNews) ∨
      nd.arrival (.receive fp) = none ∧ nd.KeepsNews (nd.receive fp) := by
  have hbusy : (nd.link nd.cPeer).KeepsNews (Endpoint.lineBusy (nd.link nd.cPeer)) := .inl rfl
  rw [arrival]
  by_cases hu : isUFrm (fp.ctrl nd.s.framing 0) = true
  · have hreceive : nd.receive fp =
        nd.setLink nd.cPeer (handleUFrame (Endpoint.lineBusy (nd.link nd.cPeer)) fp) := by
      rw [receive, if_pos hu]
    rw [if_pos hu, hreceive]
    rcases handleUFrame_uiNews (l := Endpoint.lineBusy (nd.link nd.cPeer)) fp with
      ⟨v, harrives, hnews⟩ | ⟨hnone, hkeeps⟩
    · refine .inl ⟨v, harrives, ?_, fun i hi => ?_⟩
      · rw [setLink_peer_self]
        exact hnews
      · rw [setLink_peer_of_ne nd _ hi]
    · exact .inr ⟨hnone, .of_link (hbusy.trans hkeeps) fun _ => rfl⟩
  · have hreceive : nd.receive fp =
        nd.setLink nd.cPeer (rxDispatch (Endpoint.lineBusy (nd.link nd.cPeer)) fp).1 := by
      rw [receive, if_neg hu]
    rw [if_neg hu, hreceive]
    exact .inr ⟨rfl, .of_link (hbusy.trans (.inl rxDispatch_uiNews)) fun _ => rfl⟩

/-- An action brings a value for a peer, takes the one that waits, or does neither. -/
theorem act_uiNews (h : nd.act a = some (nd', sent)) (i : Fin n) :
    (∃ v, nd.arrival a = some v ∧ i = nd.cPeer ∧ (nd'.peer i).uiNews = some v ∧
        nd.uiTaken i a = none) ∨
      (nd.arrival a = none ∨ i ≠ nd.cPeer) ∧
        (nd.uiTaken i a = (nd.peer i).uiNews ∧ (nd'.peer i).uiNews = none ∨
          nd.uiTaken i a = none ∧ (nd.link i).KeepsNews (nd'.link i)) := by
  cases a with
  | receive fp =>
    cases h
    rcases receive_news nd fp with ⟨v, harrives, hnews, hothers⟩ | ⟨hnone, hkeeps⟩
    · by_cases hi : i = nd.cPeer
      · subst hi
        exact .inl ⟨v, harrives, rfl, hnews, rfl⟩
      · exact .inr ⟨.inr hi, .inr ⟨rfl, .inl (hothers i hi)⟩⟩
    · exact .inr ⟨.inl hnone, .inr ⟨rfl, hkeeps i⟩⟩
  | peer j op =>
    have hkeeps : nd.KeepsNews nd' := act_keepsNews h (by simp)
    refine .inr ⟨.inl rfl, ?_⟩
    cases op with
    | uiGet =>
      by_cases hj : j = i
      · subst hj
        simp only [act, Option.map_eq_some_iff] at h
        obtain ⟨r, hr, hnd⟩ := h
        cases hr
        cases hnd
        obtain ⟨htaken, hnone⟩ := uiGet_eq (nd.link j)
        refine .inl ⟨(if_pos rfl).trans htaken, ?_⟩
        dsimp only
        rw [setLink_peer_self]
        exact hnone
      · exact .inr ⟨if_neg hj, hkeeps i⟩
    | _ => exact .inr ⟨rfl, hkeeps i⟩
  | _ => exact .inr ⟨.inl rfl, .inr ⟨rfl, act_keepsNews h (by simp) i⟩⟩

end Node

/-! ### What the application takes -/

/-- A node, with the values that came in from each peer and those that were taken. -/
structure WithUi (n : Nat) where
  node : Node n
  arrived : Fin n → List (List UInt8)
  taken : Fin n → List (List UInt8)

namespace WithUi

variable {n : Nat}

def next (g : WithUi n) (a : Action n) : Option (WithUi n) :=
  (g.node.act a).map fun r =>
    { node := r.1
      arrived := Function.update g.arrived g.node.cPeer
        ((g.node.arrival a).toList ++ g.arrived g.node.cPeer)
      taken := fun i => (g.node.uiTaken i a).toList ++ g.taken i }

def Fresh (g : WithUi n) : Prop := g.node.Fresh ∧ ∀ i, g.arrived i = [] ∧ g.taken i = []

def Moves (g g' : WithUi n) : Prop := ∃ a, g.next a = some g'

/-- The value that waits is the last one that came in, and it was not taken. -/
structure InvAt (g : WithUi n) (i : Fin n) : Prop where
  order : ((g.node.peer i).uiNews.toList ++ g.taken i).Sublist (g.arrived i)
  last : ∀ v, (g.node.peer i).uiNews = some v → (g.arrived i).head? = some v

def Inv (g : WithUi n) : Prop := ∀ i, g.InvAt i

variable {g g' : WithUi n}

theorem inv_init (h : g.Fresh) : g.Inv := by
  intro i
  obtain ⟨framesize, pollRetryMax, addr, hpeer⟩ := h.1.peer i
  have hnews : (g.node.peer i).uiNews = none := by
    rw [hpeer]
    rfl
  refine ⟨?_, fun v hv => ?_⟩
  · rw [hnews, (h.2 i).1, (h.2 i).2]
    exact .slnil
  · rw [hnews] at hv
    cases hv

theorem inv_step (h : g.Inv) (hmove : g.Moves g') : g'.Inv := by
  obtain ⟨a, hnext⟩ := hmove
  obtain ⟨⟨nd', sent⟩, hact, rfl⟩ := Option.map_eq_some_iff.mp hnext
  intro i
  have htaken : (g.taken i).Sublist (g.arrived i) :=
    (List.sublist_append_right _ _).trans (h i).order
  rcases Node.act_uiNews hact i with ⟨v, harrives, hi, hnews, hnone⟩ | ⟨harrival, hrest⟩
  · subst hi
    constructor
    · dsimp only
      rw [hnews, hnone, harrives, Function.update_self]
      exact htaken.cons_cons v
    · intro w hw
      dsimp only at hw ⊢
      rw [hnews] at hw
      rw [harrives, Function.update_self, ← hw]
      rfl
  · -- nothing came in from this peer
    have harrived : Function.update g.arrived g.node.cPeer
        ((g.node.arrival a).toList ++ g.arrived g.node.cPeer) i = g.arrived i := by
      by_cases hi : i = g.node.cPeer
      · subst hi
        rw [Function.update_self, harrival.resolve_right fun hne => hne rfl]
        rfl
      · exact Function.update_of_ne hi _ _
    rcases hrest with ⟨htook, hnone⟩ | ⟨htook, hsame | hnone⟩
    · constructor
      · dsimp only
        rw [hnone, htook, harrived]
        exact (h i).order
      · intro v hv
        exact absurd (hnone.symm.trans hv) (by simp)
    · change (nd'.peer i).uiNews = (g.node.peer i).uiNews at hsame
      constructor
      · dsimp only
        rw [hsame, htook, harrived]
        exact (h i).order
      · intro v hv
        dsimp only at hv ⊢
        rw [harrived]
        exact (h i).last v (hsame.symm.trans hv)
    · change (nd'.peer i).uiNews = none at hnone
      constructor
      · dsimp only
        rw [hnone, htook, harrived]
        exact htaken
      · intro v hv
        exact absurd (hnone.symm.trans hv) (by simp)

/-- In every run the application takes values that came in, in their order and each once, and a
call returns the last one. -/
theorem uiValues_reachable (hrun : Reachable Fresh Moves g) (i : Fin n) :
    (g.taken i).Sublist (g.arrived i) ∧
      ∀ v, (ioHdlcPeerUiGet (g.node.link i)).2 = some v →
        ∃ earlier, g.arrived i = v :: earlier ∧ (g.taken i).Sublist earlier := by
  have hinv : g.InvAt i :=
    hrun.invariant Inv (fun _ hg => inv_init hg) (fun _ _ hg hmove => inv_step hg hmove) i
  refine ⟨(List.sublist_append_right _ _).trans hinv.order, fun v hv => ?_⟩
  have hnews : (g.node.peer i).uiNews = some v := (uiGet_eq _).1.symm.trans hv
  obtain ⟨earlier, hsplit⟩ := List.head?_eq_some_iff.mp (hinv.last v hnews)
  have horder := hinv.order
  rw [hnews, hsplit] at horder
  exact ⟨earlier, hsplit, List.cons_sublist_cons.mp horder⟩

/-- A secondary right after set-up. -/
def secondary : WithUi 1 := ⟨Node.onePeer .ndm {} 1 2, fun _ => [], fun _ => []⟩

theorem fresh_secondary : secondary.Fresh :=
  ⟨Node.fresh_onePeer .ndm (.inl rfl) {} 1 2, fun _ => ⟨rfl, rfl⟩⟩

/-- A UI frame of the primary. -/
def uiFrame (octet : UInt8) : Frame :=
  let fp := Node.shortFrame 1 (IOHDLC_U_UI ||| IOHDLC_U_ID)
  { fp with frame := Function.update fp.frame 2 octet, elen := 6 }

/-- The primary connects and sends three values; the first is replaced, the second is taken. -/
theorem uiValues_reachable_three : ∃ g : WithUi 1,
    g.taken 0 = [[0x42, 0, 0, 0]] ∧ (g.taken 0).Sublist (g.arrived 0) ∧
      ∃ earlier, g.arrived 0 = [0x43, 0, 0, 0] :: earlier ∧ (g.taken 0).Sublist earlier := by
  obtain ⟨g, hreach, hg⟩ := Reachable.exists_of_run next
    (fun _ a _ h => (⟨a, h⟩ : Moves _ _)) (.start fresh_secondary)
    [.receive (Node.shortFrame 1 0x93), .txFetch, .txEntry { uResponse := some default },
      .receive (uiFrame 0x41), .receive (uiFrame 0x42), .peer 0 .uiGet, .receive (uiFrame 0x43)]
    (fun g => decide (g.taken 0 = [[0x42, 0, 0, 0]] ∧
      (ioHdlcPeerUiGet (g.node.link 0)).2 = some [0x43, 0, 0, 0])) (by decide +kernel)
  obtain ⟨htaken, hget⟩ := of_decide_eq_true hg
  obtain ⟨horder, hlast⟩ := uiValues_reachable hreach 0
  exact ⟨g, htaken, horder, hlast _ hget⟩

end WithUi

end IoHdlc
