import IoHdlc.Core.ApiSlot

/-!
The frames that the section for U commands sends, over whole runs.

A run records the length of the last TEST that the application started at each peer, and whether
the frame in its slot is a response. `RespectsSlots` says what an action must not do to a frame in
a slot; then every U command on the wire is the registered one.
-/

namespace IoHdlc

/-! ### A node -/

namespace Node

variable {n : Nat} {nd nd' : Node n} {a : Action n} {sent : List Frame} {i : Fin n}

/-- The frame that the section for U commands hands to the driver. -/
def uCommandOut (nd : Node n) : Action n → Option Frame
  | .txEntry take => match nd.pc with
    | .sched (.idle flags) =>
      let l := nd.link nd.cPeer
      if flags ≠ ∅ ∧ uCommandDue l flags ∧ !requestsOtherPeer l flags then
        (sendUCommand l (decide (.cRplytmo ∈ flags)) take.uCommand).sent
      else none
    | _ => none
  | .txSwitched take => match nd.pc with
    | .switched _ timedOut => (sendUCommand (nd.link nd.cPeer) timedOut take.uCommand).sent
    | _ => none
  | _ => none

/-- The section hands a frame to the driver only on the way to the section for U responses. -/
theorem mem_serveRequest_sent {l : Link} {flags : EvtFlags} {timedOut : Bool} {take : Takes}
    {fp : Frame} (h : (sendUCommand l timedOut take.uCommand).sent = some fp) :
    fp ∈ (serveRequest l flags timedOut take).sent := by
  rcases sendUCommand_ends l timedOut take.uCommand with
    ⟨-, hr⟩ | ⟨-, -, hr⟩ | ⟨-, -, -, hnone, -⟩ | ⟨-, -, -, fp', -, hr⟩
  · rw [hr] at h
    cases h
  · rw [hr] at h
    cases h
  · rw [hnone] at h
    cases h
  · rw [hr] at h
    simp only [serveRequest, hr]
    exact List.mem_append_left _ (Option.mem_toList.mpr h)

theorem uCommandOut_mem {fp : Frame} (hout : nd.uCommandOut a = some fp)
    (h : nd.act a = some (nd', sent)) : fp ∈ sent := by
  cases a with
  | txEntry take =>
    simp only [uCommandOut] at hout
    split at hout
    next flags hpc =>
      split at hout
      next hdue =>
        obtain ⟨hne, hdue, hself⟩ := hdue
        rw [Bool.not_eq_true'] at hself
        simp only [act, hpc, if_pos hne, txEntry, if_pos hdue, hself, Bool.false_eq_true, if_false,
          Option.some.injEq] at h
        obtain rfl := congrArg Prod.snd h
        exact mem_serveRequest_sent hout
      · cases hout
    · cases hout
  | txSwitched take =>
    simp only [uCommandOut] at hout
    split at hout
    next flags timedOut hpc =>
      simp only [act, hpc, Option.some.injEq] at h
      obtain rfl := congrArg Prod.snd h
      exact mem_serveRequest_sent hout
    · cases hout
  | _ => cases hout

/-- Every peer's slot holds what the records of its TESTs say. -/
def ApiCoherent (nd : Node n) (len : Fin n → Nat) (parked : Fin n → Bool) : Prop :=
  ∀ i, (nd.link i).ApiCoherent (len i) (parked i)

variable {len len' : Fin n → Nat} {parked parked' : Fin n → Bool} {l : Link}

/-- The slots of the other peers and their records are the same. -/
theorem ApiCoherent.setLink (h : nd.ApiCoherent len parked) (hframing : l.s.framing = nd.s.framing)
    (hl : l.ApiCoherent (len' i) (parked' i))
    (hothers : ∀ j, j ≠ i → len' j = len j ∧ parked' j = parked j) :
    (nd.setLink i l).ApiCoherent len' parked' := by
  intro j
  by_cases hj : j = i
  · subst hj
    rw [setLink_link]
    exact hl
  · obtain ⟨hlen, hparked⟩ := hothers j hj
    have hlink : (nd.setLink i l).link j = ⟨l.s, nd.peer j⟩ :=
      congrArg (Link.mk l.s) (setLink_peer_of_ne nd l hj)
    rw [hlink, hlen, hparked]
    refine (h j).keeps (.of_eq hframing rfl rfl rfl)

/-- One peer's slot is kept, or emptied. -/
theorem ApiCoherent.setLink_keeps (h : nd.ApiCoherent len parked) (hl : (nd.link i).KeepsUm l) :
    (nd.setLink i l).ApiCoherent len parked :=
  h.setLink hl.framing ((h i).keeps hl) fun _ _ => ⟨rfl, rfl⟩

/-- The place of the worker and its poll notes say nothing about the slots. -/
theorem ApiCoherent.of_peers (h : nd.ApiCoherent len parked) (hs : nd'.s.framing = nd.s.framing)
    (hpeer : ∀ i, nd'.peer i = nd.peer i ∨ nd'.peer i = setNeedP nd.s (nd.peer i)) :
    nd'.ApiCoherent len parked := by
  intro i
  refine (h i).keeps ?_
  rcases hpeer i with hp | hp
  · exact .of_eq hs (by rw [link_p, hp, link_p]) (by rw [link_p, hp, link_p])
      (by rw [link_p, hp, link_p])
  · exact .of_eq hs (by rw [link_p, hp, link_p]; rfl) (by rw [link_p, hp, link_p]; rfl)
      (by rw [link_p, hp, link_p]; rfl)

theorem ApiCoherent.finishPass (h : nd.ApiCoherent len parked) {r : Pass}
    (hframing : r.link.s.framing = nd.s.framing)
    (hl : r.link.ApiCoherent (len nd.cPeer) (parked nd.cPeer)) :
    (nd.finishPass r).1.ApiCoherent len parked := by
  have hset := h.setLink hframing hl fun _ _ => ⟨rfl, rfl⟩
  simp only [Node.finishPass]
  split
  all_goals exact hset.of_peers rfl fun _ => .inl rfl

theorem ApiCoherent.finishTx (h : nd.ApiCoherent len parked) {t : TxStep}
    (hl : (nd.link nd.cPeer).KeepsUm t.link) : (nd.finishTx t).ApiCoherent len parked := by
  have hset := h.setLink_keeps hl
  simp only [Node.finishTx]
  split
  · refine hset.of_peers rfl fun i => ?_
    dsimp only
    split
    · exact needP_peers (nd.setLink nd.cPeer t.link) _ i
    · exact .inl rfl
  · exact hset.of_peers rfl fun _ => .inl rfl

end Node

/-! ### A run -/

/-- A node with the length of the last TEST of each peer, and whether the frame in its slot is a
response. -/
structure WithTests (n : Nat) where
  node : Node n
  testLen : Fin n → Nat
  parked : Fin n → Bool

namespace WithTests

variable {n : Nat} {g g' : WithTests n} {a : Action n} {i : Fin n}

/-- The length of a TEST that the application starts. -/
def starts (g : WithTests n) (i : Fin n) : Action n → Option Nat
  | .peer j (.peerTest len take) =>
    if j = i ∧ (peerTestStart (g.node.link i) len take).2.isOk then some len else none
  | _ => none

def parks (g : WithTests n) (i : Fin n) : Action n → Bool
  | .receive fp => g.node.cPeer = i && parksResponse (g.node.link i) fp
  | _ => false

def next (g : WithTests n) (a : Action n) : Option (WithTests n) :=
  (g.node.act a).map fun r =>
    { node := r.1
      testLen := fun i => (g.starts i a).getD (g.testLen i)
      parked := fun i =>
        match g.starts i a with
        | some _ => false
        | none => g.parks i a || g.parked i }

def Fresh (g : WithTests n) : Prop := g.node.Fresh

def Moves (ok : WithTests n → Action n → Prop) (g g' : WithTests n) : Prop :=
  ∃ a, ok g a ∧ g.next a = some g'

/-- Whether the section for U commands sends a TEST that it builds itself. -/
def sendsBareTest (l : Link) (timedOut : Bool) (take : Option Frame) : Bool :=
  l.p.umApiFrame.isNone && l.p.umCmd = IOHDLC_U_TEST && emitsUCommand l timedOut take

/-- Whether an action respects the frame in a slot. -/
def respectsSlot (g : WithTests n) : Action n → Bool
  | .linkUp i mode nrmOnly =>
    (g.node.peer i).umApiFrame.isNone || !g.node.placesUCommand i (.linkUp i mode nrmOnly)
  | .linkDown i => (g.node.peer i).umApiFrame.isNone || !g.node.placesUCommand i (.linkDown i)
  | .receive fp =>
    let l := g.node.link g.node.cPeer
    !takesUCommand l fp || findsSlot l (g.parked g.node.cPeer) fp
  | .txEntry take => match g.node.pc with
    | .sched (.idle flags) =>
      let l := g.node.link g.node.cPeer
      flags = ∅ || !uCommandDue l flags || requestsOtherPeer l flags ||
        !sendsBareTest l (decide (.cRplytmo ∈ flags)) take.uCommand || g.testLen g.node.cPeer = 0
    | _ => true
  | .txSwitched take => match g.node.pc with
    | .switched _ timedOut =>
      let l := g.node.link g.node.cPeer
      (l.p.umCmd ≠ 0 || l.p.umApiFrame.isNone) &&
        (!sendsBareTest l timedOut take.uCommand || g.testLen g.node.cPeer = 0)
    | _ => true
  | _ => true

def RespectsSlots (g : WithTests n) (a : Action n) : Prop := g.respectsSlot a = true

/-- The frame that goes out as a U command carries the registered one, and is not a parked
response. -/
def RightUCommand (g : WithTests n) (a : Action n) : Prop :=
  ∀ fp, g.node.uCommandOut a = some fp →
    CarriesUCommand g.node.s.framing (g.node.peer g.node.cPeer).umCmd (g.testLen g.node.cPeer) fp ∧
      (g.parked g.node.cPeer = true → (g.node.peer g.node.cPeer).umApiFrame = none)

def Coherent (g : WithTests n) : Prop := g.node.ApiCoherent g.testLen g.parked

theorem starts_of_ne {len : Nat} {take : Option Frame} {j : Fin n} (h : i ≠ j) :
    g.starts i (.peer j (.peerTest len take)) = none :=
  if_neg fun hi => h hi.1.symm

/-- A received frame is kept out of the slot, or taken up by it, or parked in it. -/
theorem receive_coherent (hg : g.Coherent) {fp : Frame} (hok : g.respectsSlot (.receive fp) = true) :
    (g.node.receive fp).ApiCoherent g.testLen fun i => g.parks i (.receive fp) || g.parked i := by
  have hbusy : (g.node.link g.node.cPeer).KeepsUm (Endpoint.lineBusy (g.node.link g.node.cPeer)) :=
    .of_eq rfl rfl rfl rfl
  have hl := (hg g.node.cPeer).keeps hbusy
  have hothers : ∀ j, j ≠ g.node.cPeer → g.testLen j = g.testLen j ∧
      (g.parks j (.receive fp) || g.parked j) = g.parked j := by
    intro j hj
    refine ⟨rfl, ?_⟩
    rw [parks, decide_eq_false (Ne.symm hj), Bool.false_and, Bool.false_or]
  rw [Node.receive]
  split
  next hu =>
    refine hg.setLink ?_ ?_ hothers
    · exact (handleUFrame_staysReady (l := Endpoint.lineBusy (g.node.link g.node.cPeer))
        (if_pos hu)).framing
    rw [parks, decide_eq_true rfl, Bool.true_and]
    by_cases hpark : parksResponse (g.node.link g.node.cPeer) fp = true
    · have hparks : parksResponse (Endpoint.lineBusy (g.node.link g.node.cPeer)) fp = true := hpark
      rw [hpark, Bool.true_or]
      exact handleUFrame_parks hparks _
    · rw [Bool.not_eq_true] at hpark
      rw [hpark, Bool.false_or]
      by_cases htakes : takesUCommand (g.node.link g.node.cPeer) fp = true
      · rw [respectsSlot, htakes, Bool.not_true, Bool.false_or] at hok
        exact handleUFrame_takes hl htakes hok
      · rw [Bool.not_eq_true] at htakes
        exact hl.keeps (handleUFrame_keepsUm hu htakes hpark)
  next hu =>
    have hno : parksResponse (g.node.link g.node.cPeer) fp = false := by
      rw [parksResponse, Node.link_s, Bool.eq_false_iff.mpr hu, Bool.false_and, Bool.false_and,
        Bool.false_and]
    refine hg.setLink ?_ ?_ hothers
    · rcases rxDispatch_cases (Endpoint.lineBusy (g.node.link g.node.cPeer)) fp with h | ⟨-, c, h⟩
      · rw [h]
        rfl
      · rw [h]
        exact (commonRx_keeps : Link.Keeps _ (commonRx _ _ c).1).framing
    rw [parks, decide_eq_true rfl, Bool.true_and, hno, Bool.false_or]
    rcases rxDispatch_cases (Endpoint.lineBusy (g.node.link g.node.cPeer)) fp with h | ⟨-, c, h⟩
    · rw [h]
      exact hl
    · rw [h]
      exact hl.keeps (.of_keeps (commonRx_inherits c) commonRx_keeps)

/-- A TEST that starts fills the slot; no other call of a thread touches it. -/
theorem peerOp_coherent (hg : g.Coherent) {j : Fin n} {op : PeerOp} {r : Link × WriterPc}
    (hr : op.apply (g.node.link j) (g.node.writer j) = some r) :
    (g.node.setLink j r.1).ApiCoherent (fun i => (g.starts i (.peer j op)).getD (g.testLen i))
      fun i =>
        match g.starts i (.peer j op) with
        | some _ => false
        | none => g.parked i := by
  by_cases hstart : ∃ len take, op = .peerTest len take ∧
      (peerTestStart (g.node.link j) len take).2.isOk = true
  · obtain ⟨len, take, rfl, hstarted⟩ := hstart
    cases hr
    have hself : g.starts j (.peer j (.peerTest len take)) = some len := if_pos ⟨rfl, hstarted⟩
    refine hg.setLink (peerTestStart_staysReady len take).framing ?_ fun i hi => ?_
    · rw [hself]
      exact peerTestStart_coherent hstarted
    · rw [starts_of_ne hi]
      exact ⟨rfl, rfl⟩
  · have hno : ∀ len take, op = .peerTest len take →
        (peerTestStart (g.node.link j) len take).2.isOk = false := by
      intro len take hop
      exact Bool.eq_false_iff.mpr fun hstarted => hstart ⟨len, take, hop, hstarted⟩
    have hnone : ∀ i, g.starts i (.peer j op) = none := by
      intro i
      cases op with
      | peerTest len take =>
        by_cases hi : i = j
        · subst hi
          exact if_neg fun h => Bool.false_ne_true ((hno len take rfl).symm.trans h.2)
        · exact starts_of_ne hi
      | _ => rfl
    simp only [hnone]
    exact hg.setLink_keeps (PeerOp.apply_keepsUm hr hno)

theorem coherent_step (hg : g.Coherent) (hmove : Moves RespectsSlots g g') : g'.Coherent := by
  obtain ⟨a, hok, hnext⟩ := hmove
  obtain ⟨⟨nd', sent⟩, hact, rfl⟩ := Option.map_eq_some_iff.mp hnext
  rw [RespectsSlots] at hok
  rw [Coherent] at hg ⊢
  dsimp only
  cases a with
  | receive fp =>
    cases hact
    exact receive_coherent hg hok
  | lineIdle =>
    cases hact
    exact hg.setLink_keeps (.of_eq rfl rfl rfl rfl)
  | txFetch =>
    simp only [Node.act] at hact
    split at hact
    · split at hact
      · cases hact
        exact hg.of_peers rfl fun _ => .inl rfl
      · cases hact
    · cases hact
  | txEntry take =>
    simp only [Node.act] at hact
    split at hact
    next flags _ =>
      split at hact
      · obtain rfl := congrArg Prod.fst (Option.some.inj hact)
        simp only [Node.txEntry]
        split
        · split
          · exact hg.of_peers rfl fun _ => .inl rfl
          · exact hg.finishPass (serveRequest_inherits ..).framing (serveRequest_coherent (hg _) ..)
        · exact hg.finishPass (servePeer_inherits ..).framing ((hg _).keeps (servePeer_keepsUm ..))
      · cases hact
    · cases hact
  | txSwitched take =>
    simp only [Node.act] at hact
    split at hact
    · obtain rfl := congrArg Prod.fst (Option.some.inj hact)
      exact hg.finishPass (serveRequest_inherits ..).framing (serveRequest_coherent (hg _) ..)
    · cases hact
  | txAdvance =>
    simp only [Node.act] at hact
    split at hact
    · cases hact
      simp only [Node.txAdvance]
      split
      · exact hg.of_peers rfl fun _ => .inl rfl
      · exact hg.of_peers rfl fun i => Node.needP_peers g.node _ i
    · cases hact
  | txCheck =>
    simp only [Node.act] at hact
    split at hact
    · cases hact
      exact hg.of_peers rfl fun _ => .inl rfl
    · cases hact
  | txIFrame =>
    simp only [Node.act] at hact
    split at hact
    next flags iSent _ =>
      cases hact
      refine hg.finishTx (.of_keeps (connectedTxIFrame_inherits ..) ?_)
      rcases connectedTxIFrame_cases (g.node.link g.node.cPeer) flags iSent with
        ⟨hkeep, -⟩ | ⟨fp, fp', rest, hsend, -⟩
      · exact hkeep.toKeeps
      · exact hsend.toKeeps
    · cases hact
  | txSFrame take =>
    simp only [Node.act] at hact
    split at hact
    next flags iSent _ =>
      cases hact
      exact hg.finishTx (.of_keeps (connectedTxSFrame_inherits ..)
        (connectedTxSFrame_keeps _ flags iSent take).1.toKeeps)
    · cases hact
  | linkUp i mode nrmOnly =>
    cases hact
    have hset := hg.setLink (linkUpStart_inherits (g.node.link i) mode nrmOnly).framing
      (linkUpStart_coherent (hg i) mode nrmOnly ?_) fun _ _ => ⟨rfl, rfl⟩
    · split
      · exact hset
      · exact hset.of_peers rfl fun _ => .inl rfl
    · rintro ⟨sMode, hwait⟩
      have hplaces : g.node.placesUCommand i (.linkUp i mode nrmOnly) = true := by
        simp only [Node.placesUCommand, hwait, decide_true, Bool.and_self]
      rw [respectsSlot, hplaces, Bool.not_true, Bool.or_false] at hok
      exact Option.isNone_iff_eq_none.mp hok
  | linkUpDone call =>
    simp only [Node.act] at hact
    split at hact
    · cases hact
      exact hg.of_peers rfl fun _ => .inl rfl
    · cases hact
  | linkUpFails call =>
    simp only [Node.act] at hact
    split at hact
    · cases hact
      exact hg.of_peers rfl fun _ => .inl rfl
    · cases hact
  | linkDown i =>
    cases hact
    refine hg.setLink (linkDownStart_inherits (g.node.link i)).framing
      (linkDownStart_coherent (hg i) fun hconn hmay => ?_) fun _ _ => ⟨rfl, rfl⟩
    have hplaces : g.node.placesUCommand i (.linkDown i) = true := by
      simp only [Node.link_p, Node.link_s] at hconn hmay
      simpa [Node.placesUCommand, hconn] using hmay
    rw [respectsSlot, hplaces, Bool.not_true, Bool.or_false] at hok
    exact Option.isNone_iff_eq_none.mp hok
  | peer j op =>
    simp only [Node.act, Option.map_eq_some_iff] at hact
    obtain ⟨r, hr, hact⟩ := hact
    cases hact
    exact (peerOp_coherent hg hr).of_peers rfl fun _ => .inl rfl
  | poolState state =>
    cases hact
    exact hg.of_peers rfl fun _ => .inl rfl
  | poolChange =>
    cases hact
    exact hg.of_peers rfl fun _ => .inl rfl

theorem coherent_fresh (h : g.Fresh) : g.Coherent := by
  intro i
  obtain ⟨framesize, pollRetryMax, addr, hpeer⟩ := Node.Fresh.peer h i
  rw [show g.node.link i = ⟨g.node.s, g.node.peer i⟩ from rfl, hpeer]
  exact .of_idle rfl rfl (.inr rfl)

/-- What the section sends from a coherent slot that holds a command. -/
theorem sendUCommand_carries {l : Link} {len : Nat} {parked timedOut : Bool} {take : Option Frame}
    {fp : Frame} (h : l.ApiCoherent len parked)
    (hsent : (sendUCommand l timedOut take).sent = some fp)
    (hregistered : l.p.umApiFrame = none ∨ l.p.umCmd ≠ 0 ∨ l.p.umState.sent = true)
    (hbare : sendsBareTest l timedOut take = false ∨ len = 0) :
    CarriesUCommand l.s.framing l.p.umCmd len fp ∧ (parked = true → l.p.umApiFrame = none) := by
  have hbusy : l.p.umApiFrame.isSome = true → ¬(l.p.umCmd = 0 ∧ l.p.umState.sent = false) := by
    rintro hsome ⟨hzero, hno⟩
    rcases hregistered with hnone | hcmd | hyes
    · rw [hnone] at hsome
      cases hsome
    · exact hcmd hzero
    · exact Bool.false_ne_true (hno.symm.trans hyes)
  have hemits : emitsUCommand l timedOut take = true := by
    rcases sendUCommand_emits l timedOut take with ⟨hemits, -⟩ | ⟨-, hnone⟩
    · exact hemits
    · rw [hnone] at hsent
      cases hsent
  rcases sendUCommand_ends l timedOut take with
    ⟨-, hr⟩ | ⟨-, -, hr⟩ | ⟨-, -, -, hnone, -⟩ | ⟨-, hgo, -, fp', hfp', hr⟩
  · rw [hr] at hsent
    cases hsent
  · rw [hr] at hsent
    cases hsent
  · rw [hnone] at hsent
    cases hsent
  · rw [hr] at hsent
    obtain rfl : fp' = fp := Option.some.inj hsent
    rw [retryBefore_eq hgo] at hfp'
    rcases hfp' with hapi | ⟨hnone, stale, rfl⟩
    · -- a stored command, for its own TEST
      have hsome : l.p.umApiFrame.isSome = true := Option.isSome_of_mem hapi
      have hcommand : parked = false :=
        Bool.eq_false_iff.mpr fun hpark => hbusy hsome (h.response hpark hsome)
      obtain ⟨hcarries, hcmd⟩ := h.command hcommand fp' hapi
      rw [hcmd.resolve_right (hbusy hsome)]
      exact ⟨hcarries, fun hpark => absurd (hcommand.symm.trans hpark) Bool.false_ne_true⟩
    · refine ⟨⟨?_, ?_⟩, fun _ => hnone⟩
      · exact (congrArg (· &&& IOHDLC_U_FUN_MASK) (ctrl_ioHdlcBuildUFrame ..)).trans
          (uCtrl_function h.masked true)
      · refine (uInfo_ioHdlcBuildUFrame ..).trans ?_
        split
        next htest =>
          -- it was built for a TEST: only one without an information field may be
          have hzero : len = 0 := by
            refine hbare.resolve_left fun hno => ?_
            rw [sendsBareTest, hemits, decide_eq_true htest] at hno
            simp [show l.p.umApiFrame = none from hnone] at hno
          rw [hzero]
          rfl
        · rfl

/-- The section serves a command of this peer. -/
theorem registered_of_due {l : Link} {flags : EvtFlags} (hdue : uCommandDue l flags = true)
    (hself : requestsOtherPeer l flags = false) : l.p.umCmd ≠ 0 ∨ l.p.umState.sent = true := by
  by_contra hfree
  rw [not_or, not_not, Bool.not_eq_true] at hfree
  obtain ⟨hcmd, hsent⟩ := hfree
  rw [requestsOtherPeer, hcmd, hsent, decide_eq_true rfl, Bool.not_false, Bool.and_true,
    Bool.and_true] at hself
  rw [uCommandDue, hself, hsent] at hdue
  cases hdue

/-- In a run that respects the slots, every U command on the wire is the registered one. -/
theorem rightUCommand_of_respectsSlots (hrun : Kit.Reachable Fresh (Moves RespectsSlots) g)
    (hok : g.RespectsSlots a) : g.RightUCommand a := by
  have hg : g.Coherent :=
    hrun.invariant Coherent (fun _ => coherent_fresh) fun _ _ hg => coherent_step hg
  intro fp hout
  cases a with
  | txEntry take =>
    simp only [RespectsSlots, respectsSlot] at hok
    simp only [Node.uCommandOut] at hout
    split at hout
    next flags hpc =>
      split at hout
      next hdue =>
        obtain ⟨hne, hdue, hself⟩ := hdue
        rw [Bool.not_eq_true'] at hself
        refine sendUCommand_carries (hg g.node.cPeer) hout (.inr (registered_of_due hdue hself)) ?_
        rw [hpc] at hok
        simpa [hne, hdue, hself] using hok
      · cases hout
    · cases hout
  | txSwitched take =>
    simp only [RespectsSlots, respectsSlot] at hok
    simp only [Node.uCommandOut] at hout
    split at hout
    next flags timedOut hpc =>
      rw [hpc] at hok
      simp only [Bool.and_eq_true, Bool.or_eq_true, Bool.not_eq_true', decide_eq_true_eq,
        Option.isNone_iff_eq_none] at hok
      exact sendUCommand_carries (hg g.node.cPeer) hout (hok.1.elim (.inr ∘ .inl) .inl) hok.2
    · cases hout
  | _ => cases hout

/-- A combined station with one peer, right after set-up. -/
def combined : WithTests 1 :=
  ⟨Node.onePeer .adm { pri := true } 1 2, fun _ => 0, fun _ => false⟩

theorem fresh_combined : combined.Fresh := Node.fresh_onePeer .adm (.inr rfl) { pri := true } 1 2

/-- A TEST of three octets goes out. -/
theorem rightUCommand_of_respectsSlots_test :
    ∃ g : WithTests 1, (g.node.uCommandOut (.txEntry {})).isSome = true ∧
      g.testLen g.node.cPeer = 3 ∧ g.RightUCommand (.txEntry {}) := by
  obtain ⟨g, hrun, hp⟩ := Kit.Reachable.exists_of_run
    (fun g a => if g.respectsSlot a then g.next a else none)
    (fun g a g' h => by
      split at h
      next hok => exact ⟨a, hok, h⟩
      · cases h)
    (.start fresh_combined : Kit.Reachable Fresh (Moves RespectsSlots) combined)
    [.peer 0 (.peerTest 3 (some default)), .txFetch]
    (fun g => g.respectsSlot (.txEntry {}) && (g.node.uCommandOut (.txEntry {})).isSome &&
      decide (g.testLen g.node.cPeer = 3)) (by decide +kernel)
  simp only [Bool.and_eq_true, decide_eq_true_eq] at hp
  exact ⟨g, hp.1.2, hp.2, rightUCommand_of_respectsSlots hrun hp.1.1⟩

/-- LinkUp while a TEST command waits: the TEST goes out under SABM. LinkUp while a TEST response
is parked: the response goes out. -/
theorem rightUCommand_fails_on_linkUp :
    (¬∀ g : WithTests 1, Kit.Reachable Fresh (Moves fun _ _ => True) g →
      ∀ a fp, g.node.uCommandOut a = some fp →
        fp.ctrl g.node.s.framing 0 &&& IOHDLC_U_FUN_MASK = (g.node.peer g.node.cPeer).umCmd) ∧
    ¬∀ g : WithTests 1, Kit.Reachable Fresh (Moves fun _ _ => True) g →
      ∀ a fp, g.node.uCommandOut a = some fp → g.parked g.node.cPeer = true →
        (g.node.peer g.node.cPeer).umApiFrame = none := by
  have hstart : Kit.Reachable Fresh (Moves fun _ _ => True) combined := .start fresh_combined
  constructor
  · intro hclaim
    obtain ⟨g, hrun, hp⟩ := Kit.Reachable.exists_of_run next (fun _ a _ h => ⟨a, trivial, h⟩) hstart
      [.peer 0 (.peerTest 3 (some default)), .linkUp 0 .abm false, .txFetch]
      (fun g => (g.node.uCommandOut (.txEntry {})).any fun fp =>
        fp.ctrl g.node.s.framing 0 &&& IOHDLC_U_FUN_MASK ≠ (g.node.peer g.node.cPeer).umCmd)
      (by decide +kernel)
    rw [Option.any_eq_true] at hp
    obtain ⟨fp, hout, hne⟩ := hp
    exact of_decide_eq_true hne (hclaim g hrun _ fp hout)
  · intro hclaim
    obtain ⟨g, hrun, hp⟩ := Kit.Reachable.exists_of_run next (fun _ a _ h => ⟨a, trivial, h⟩) hstart
      [.peer 0 (.peerTest 3 (some default)), .txFetch, .txEntry {},
        .receive (Node.shortFrame 2 0xF3), .linkUp 0 .abm false, .txFetch]
      (fun g => (g.node.uCommandOut (.txEntry {})).isSome && g.parked g.node.cPeer &&
        (g.node.peer g.node.cPeer).umApiFrame.isSome) (by decide +kernel)
    simp only [Bool.and_eq_true] at hp
    obtain ⟨⟨hout, hparked⟩, hapi⟩ := hp
    obtain ⟨fp, hout⟩ := Option.isSome_iff_exists.mp hout
    rw [hclaim g hrun _ fp hout hparked] at hapi
    cases hapi

end WithTests

end IoHdlc
