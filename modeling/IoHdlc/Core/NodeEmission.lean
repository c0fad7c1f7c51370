import IoHdlc.Core.Emission

/-!
The set-up of a node and what its peers have stored, over whole runs, and which action
hands I frames to the driver.
-/

namespace IoHdlc

namespace Node

variable {n : Nat} {nd nd' nd'' : Node n} {a : Action n} {sent : List Frame} {i : Fin n} {l : Link}

/-- Every peer's stored command and code are in order. -/
def UmReady (nd : Node n) : Prop := ∀ i, (nd.link i).UmReady

/-- The set-up of the station is the same, and what is stored stays in order. -/
structure StaysReady (nd nd' : Node n) : Prop where
  framing : nd'.s.framing = nd.s.framing
  sAddr : nd'.s.addr = nd.s.addr
  pAddr : ∀ i, (nd'.peer i).addr = (nd.peer i).addr
  twa : nd'.s.flags.twa = nd.s.flags.twa
  ready : nd.UmReady → nd'.UmReady

theorem StaysReady.trans (h : nd.StaysReady nd') (h' : nd'.StaysReady nd'') : nd.StaysReady nd'' :=
  { framing := h'.framing.trans h.framing
    sAddr := h'.sAddr.trans h.sAddr
    pAddr := fun i => (h'.pAddr i).trans (h.pAddr i)
    twa := h'.twa.trans h.twa
    ready := h'.ready ∘ h.ready }

theorem setLink_staysReady (h : (nd.link i).StaysReady l) : nd.StaysReady (nd.setLink i l) where
  framing := h.framing
  sAddr := h.sAddr
  pAddr j := by
    by_cases hj : j = i
    · subst hj
      rw [setLink_peer_self]
      exact h.pAddr
    · rw [setLink_peer_of_ne nd l hj]
  twa := h.twa
  ready hnd j := by
    by_cases hj : j = i
    · subst hj
      rw [setLink_link]
      exact h.ready (hnd j)
    · have hlink : (nd.setLink i l).link j = ⟨l.s, nd.peer j⟩ :=
        congrArg (Link.mk l.s) (setLink_peer_of_ne nd l hj)
      rw [hlink]
      refine ⟨fun fp hfp => ?_, (hnd j).rsp⟩
      rw [show l.s.framing = nd.s.framing from h.framing]
      exact (hnd j).api fp hfp

/-- The end of a section touches the place of the worker and poll notes. -/
theorem StaysReady.of_peers {nd' : Node n} (hs : nd'.s = nd.s)
    (hpeer : ∀ i, nd'.peer i = nd.peer i ∨ nd'.peer i = setNeedP nd.s (nd.peer i)) :
    nd.StaysReady nd' where
  framing := by rw [hs]
  sAddr := by rw [hs]
  pAddr i := by rcases hpeer i with h | h <;> rw [h]; rfl
  twa := by rw [hs]
  ready hnd i := by
    have hlink : (nd.link i).Inherits (nd'.link i) := by
      rcases hpeer i with h | h
      · exact .of_eq (by rw [link_s, hs, link_s]) (by rw [link_s, hs, link_s])
          (by rw [link_s, hs, link_s]) (by rw [link_p, h, link_p]) (by rw [link_p, h, link_p])
          (by rw [link_p, h, link_p])
      · exact .of_eq (by rw [link_s, hs, link_s]) (by rw [link_s, hs, link_s])
          (by rw [link_s, hs, link_s]) (by rw [link_p, h, link_p]; rfl)
          (by rw [link_p, h, link_p]; rfl) (by rw [link_p, h, link_p]; rfl)
    exact (hnd i).inherits hlink

theorem needP_peers (nd : Node n) (next i : Fin n) :
    Function.update nd.peer next (setNeedP nd.s (nd.peer next)) i = nd.peer i ∨
      Function.update nd.peer next (setNeedP nd.s (nd.peer next)) i =
        setNeedP nd.s (nd.peer i) := by
  by_cases hi : i = next
  · subst hi
    exact .inr (Function.update_self ..)
  · exact .inl (Function.update_of_ne hi ..)

theorem finishPass_staysReady {r : Pass} (h : (nd.link nd.cPeer).Inherits r.link) :
    nd.StaysReady (nd.finishPass r).1 := by
  refine (setLink_staysReady h.staysReady).trans ?_
  simp only [finishPass]
  split
  all_goals exact .of_peers rfl fun _ => .inl rfl

theorem finishTx_staysReady {t : TxStep} (h : (nd.link nd.cPeer).Inherits t.link) :
    nd.StaysReady (nd.finishTx t) := by
  refine (setLink_staysReady h.staysReady).trans ?_
  simp only [finishTx]
  split
  · refine .of_peers rfl fun i => ?_
    dsimp only
    split
    · exact needP_peers (nd.setLink nd.cPeer t.link) _ i
    · exact .inl rfl
  · exact .of_peers rfl fun _ => .inl rfl

theorem receive_staysReady (nd : Node n) (fp : Frame) : nd.StaysReady (nd.receive fp) := by
  have hbusy : (nd.link nd.cPeer).Inherits (Endpoint.lineBusy (nd.link nd.cPeer)) :=
    .of_eq rfl rfl rfl rfl rfl rfl
  rw [receive]
  split
  next hu =>
    have htype : frameType (Endpoint.lineBusy (nd.link nd.cPeer)).s.framing fp = .uFrame := by
      exact if_pos hu
    have hframe := handleUFrame_staysReady htype
    exact setLink_staysReady
      { framing := hframe.framing
        sAddr := hframe.sAddr
        pAddr := hframe.pAddr
        twa := hframe.twa
        ready := fun hl => hframe.ready (hl.inherits hbusy) }
  · rcases rxDispatch_cases (Endpoint.lineBusy (nd.link nd.cPeer)) fp with h | ⟨-, isCommand, h⟩
    · rw [h]
      exact setLink_staysReady hbusy.staysReady
    · rw [h]
      exact setLink_staysReady (hbusy.trans (commonRx_inherits isCommand)).staysReady

theorem txEntry_staysReady (nd : Node n) (flags : EvtFlags) (take : Takes) :
    nd.StaysReady (nd.txEntry flags take).1 := by
  simp only [txEntry]
  split
  · split
    · exact .of_peers rfl fun _ => .inl rfl
    · exact finishPass_staysReady (serveRequest_inherits ..)
  · exact finishPass_staysReady (servePeer_inherits ..)

theorem act_staysReady (h : nd.act a = some (nd', sent)) : nd.StaysReady nd' := by
  cases a with
  | receive fp =>
    cases h
    exact receive_staysReady nd fp
  | lineIdle =>
    cases h
    exact setLink_staysReady (Link.Inherits.staysReady (.of_eq rfl rfl rfl rfl rfl rfl))
  | txFetch =>
    simp only [act] at h
    split at h
    · split at h
      · cases h
        exact ⟨rfl, rfl, fun _ => rfl, rfl, fun hnd i => ⟨(hnd i).api, (hnd i).rsp⟩⟩
      · cases h
    · cases h
  | txEntry take =>
    simp only [act] at h
    split at h
    next flags _ =>
      split at h
      · have hentry := txEntry_staysReady nd flags take
        rwa [Option.some.inj h] at hentry
      · cases h
    · cases h
  | txSwitched take =>
    simp only [act] at h
    split at h
    next flags timedOut _ =>
      have hfinish := finishPass_staysReady
        (serveRequest_inherits (nd.link nd.cPeer) flags timedOut take)
      rwa [Option.some.inj h] at hfinish
    · cases h
  | txAdvance =>
    simp only [act] at h
    split at h
    · cases h
      simp only [Node.txAdvance]
      split
      · exact .of_peers rfl fun _ => .inl rfl
      · exact .of_peers rfl fun i => needP_peers nd _ i
    · cases h
  | txCheck =>
    simp only [act] at h
    split at h
    · cases h
      exact .of_peers rfl fun _ => .inl rfl
    · cases h
  | txIFrame =>
    simp only [act] at h
    split at h
    · cases h
      exact finishTx_staysReady (connectedTxIFrame_inherits ..)
    · cases h
  | txSFrame take =>
    simp only [act] at h
    split at h
    · cases h
      exact finishTx_staysReady (connectedTxSFrame_inherits ..)
    · cases h
  | linkUp i mode nrmOnly =>
    cases h
    have hlink := setLink_staysReady (linkUpStart_inherits (nd.link i) mode nrmOnly).staysReady
    split
    · exact hlink
    · exact hlink.trans (.of_peers rfl fun _ => .inl rfl)
  | linkUpDone call =>
    simp only [act] at h
    split at h
    · cases h
      exact .of_peers rfl fun _ => .inl rfl
    · cases h
  | linkUpFails call =>
    simp only [act] at h
    split at h
    · cases h
      exact ⟨rfl, rfl, fun _ => rfl, rfl, fun hnd i => ⟨(hnd i).api, (hnd i).rsp⟩⟩
    · cases h
  | linkDown i =>
    cases h
    exact setLink_staysReady (linkDownStart_inherits _).staysReady
  | peer i op =>
    simp only [act, Option.map_eq_some_iff] at h
    obtain ⟨r, hr, h⟩ := h
    cases h
    exact (setLink_staysReady (PeerOp.apply_staysReady hr)).trans (.of_peers rfl fun _ => .inl rfl)
  | poolState state =>
    cases h
    exact ⟨rfl, rfl, fun _ => rfl, rfl, fun hnd i => ⟨(hnd i).api, (hnd i).rsp⟩⟩
  | poolChange =>
    cases h
    exact ⟨rfl, rfl, fun _ => rfl, rfl, fun hnd i => ⟨(hnd i).api, (hnd i).rsp⟩⟩

theorem Fresh.umReady (h : nd.Fresh) : nd.UmReady := by
  intro i
  obtain ⟨framesize, pollRetryMax, addr, hpeer⟩ := h.peer i
  refine ⟨fun fp hfp => ?_, ?_⟩
  · rw [link_p, hpeer] at hfp
    cases hfp
  · rw [link_p, hpeer]
    exact responseCode_none

theorem umReady_reachable {ok : Node n → Action n → Prop}
    (hrun : Kit.Reachable Fresh (Moves ok) nd) : nd.UmReady :=
  hrun.invariant UmReady (fun _ h => h.umReady) fun _ _ hnd hmove => by
    obtain ⟨a, sent, -, hact⟩ := hmove
    exact (act_staysReady hact).ready hnd

/-! ### Where a section leaves the worker -/

theorem finishTx_pc (nd : Node n) (t : TxStep) : (nd.finishTx t).pc = .sched t.pc := by
  simp only [finishTx]
  split <;> rfl

theorem finishTx_s (nd : Node n) (t : TxStep) : (nd.finishTx t).s = t.link.s := by
  simp only [finishTx]
  split <;> rfl

theorem finishPass_s (nd : Node n) (r : Pass) : (nd.finishPass r).1.s = r.link.s := by
  simp only [finishPass]
  split <;> rfl

/-! ### Who sends -/

end Node

/-- Whether an action is one of the transmit worker. -/
def Action.isTx {n : Nat} : Action n → Bool
  | .txFetch | .txEntry _ | .txSwitched _ | .txAdvance | .txCheck | .txIFrame | .txSFrame _ => true
  | _ => false

namespace Node

variable {n : Nat} {nd nd' : Node n} {a : Action n} {sent : List Frame}

/-- The others do not move the transmit worker, and send nothing. -/
theorem act_of_not_isTx (ha : a.isTx = false) (h : nd.act a = some (nd', sent)) :
    nd'.pc = nd.pc ∧ nd'.cPeer = nd.cPeer ∧ sent = [] := by
  cases a with
  | txFetch | txEntry | txSwitched | txAdvance | txCheck | txIFrame | txSFrame => cases ha
  | linkUp i mode nrmOnly =>
    cases h
    split <;> exact ⟨rfl, rfl, rfl⟩
  | linkUpDone call | linkUpFails call =>
    simp only [act] at h
    split at h
    · cases h
      exact ⟨rfl, rfl, rfl⟩
    · cases h
  | peer i op =>
    simp only [act, Option.map_eq_some_iff] at h
    obtain ⟨r, -, h⟩ := h
    cases h
    exact ⟨rfl, rfl, rfl⟩
  | receive | lineIdle | linkDown | poolState | poolChange =>
    cases h
    exact ⟨rfl, rfl, rfl⟩

/-- A frame that an action hands to the driver, by the section it comes from. -/
inductive Sends (nd : Node n) (a : Action n) (fp : Frame) : Prop
  | request (flags : EvtFlags) (timedOut : Bool) (take : Takes)
    (h : fp ∈ (serveRequest (nd.link nd.cPeer) flags timedOut take).sent)
  | peer (flags : EvtFlags) (take : Takes) (h : fp ∈ (servePeer (nd.link nd.cPeer) flags take).sent)
  | iFrame (flags : EvtFlags) (iSent : Bool) (ha : a = .txIFrame)
    (hpc : nd.pc = .sched (.iFrame flags iSent))
    (h : (connectedTxIFrame (nd.link nd.cPeer) flags iSent).sent = some fp)
  | sFrame (flags : EvtFlags) (iSent : Bool) (take : Nat → Option Frame)
    (ha : a = .txSFrame take) (hpc : nd.pc = .sched (.skipIFrames flags iSent))
    (h : (connectedTxSFrame (nd.link nd.cPeer) flags iSent take).sent = some fp)

theorem act_sends {fp : Frame} (h : nd.act a = some (nd', sent)) (hfp : fp ∈ sent) :
    nd.Sends a fp := by
  cases a with
  | txEntry take =>
    simp only [act] at h
    split at h
    · split at h
      · simp only [txEntry, Option.some.injEq] at h
        split at h
        · split at h
          · cases h
            cases hfp
          · obtain rfl := congrArg Prod.snd h
            exact .request _ _ take hfp
        · obtain rfl := congrArg Prod.snd h
          exact .peer _ take hfp
      · cases h
    · cases h
  | txSwitched take =>
    simp only [act] at h
    split at h
    · obtain rfl := congrArg Prod.snd (Option.some.inj h)
      exact .request _ _ take hfp
    · cases h
  | txIFrame =>
    simp only [act] at h
    split at h
    next flags iSent hpc =>
      cases h
      exact .iFrame flags iSent rfl hpc (Option.mem_toList.mp hfp)
    · cases h
  | txSFrame take =>
    simp only [act] at h
    split at h
    next flags iSent hpc =>
      cases h
      exact .sFrame flags iSent take rfl hpc (Option.mem_toList.mp hfp)
    · cases h
  | txFetch =>
    simp only [act] at h
    split at h
    · split at h
      · cases h
        cases hfp
      · cases h
    · cases h
  | txAdvance | txCheck =>
    simp only [act] at h
    split at h
    · cases h
      cases hfp
    · cases h
  | receive | lineIdle | linkUp | linkUpDone | linkUpFails | linkDown | peer | poolState
  | poolChange =>
    obtain rfl := (act_of_not_isTx rfl h).2.2
    cases hfp

/-- I frames come out of the I-frame loop. -/
theorem act_type (hnd : nd.UmReady) (h : nd.act a = some (nd', sent)) :
    ∀ fp ∈ sent, frameType nd.s.framing fp = .iFrame → a = .txIFrame := by
  intro fp hfp htype
  cases act_sends h hfp with
  | request flags timedOut take hfp =>
    have hu := serveRequest_type (hnd nd.cPeer) flags timedOut take fp hfp
    rw [link_s, htype] at hu
    cases hu
  | peer flags take hfp =>
    have hu := servePeer_type (hnd nd.cPeer) flags take fp hfp
    rw [link_s, htype] at hu
    cases hu
  | iFrame flags iSent ha hpc hfp => exact ha
  | sFrame flags iSent take ha hpc hfp =>
    have hs := connectedTxSFrame_type (nd.link nd.cPeer) flags iSent take fp hfp
    rw [link_s, htype] at hs
    cases hs

/-! ### The current peer behind a section -/

/-- What one peer keeps, all of them keep. -/
theorem setLink_peer_field {α : Type} (f : Peer → α) (nd : Node n) (l : Link) {j : Fin n}
    (h : f l.p = f (nd.peer j)) (i : Fin n) : f ((nd.setLink j l).peer i) = f (nd.peer i) := by
  by_cases hi : i = j
  · subst hi
    rw [setLink_peer_self, h]
  · rw [setLink_peer_of_ne nd l hi]

/-- The current peer behind an action of another peer's thread. -/
theorem setLink_link_of_ne (nd : Node n) (l : Link) {j : Fin n} (hj : nd.cPeer ≠ j) :
    (nd.setLink j l).link nd.cPeer = ⟨l.s, nd.peer nd.cPeer⟩ :=
  congrArg (Link.mk l.s) (setLink_peer_of_ne nd l hj)

theorem finishPass_link (nd : Node n) (r : Pass) : (nd.finishPass r).1.link nd.cPeer = r.link := by
  have hlink := setLink_link nd nd.cPeer r.link
  simp only [finishPass]
  split <;> exact hlink

theorem finishTx_link (nd : Node n) (t : TxStep) : (nd.finishTx t).link nd.cPeer = t.link := by
  have hlink := setLink_link nd nd.cPeer t.link
  simp only [finishTx]
  split
  · refine Eq.trans (congrArg (Link.mk t.link.s) ?_) hlink
    dsimp only
    split
    next hne => exact Function.update_of_ne (Ne.symm hne) _ _
    · rfl
  · exact hlink

/-- Which peer is next depends on the connections and the commands under way. -/
theorem ioHdlcNextPeer_setLink (nd : Node n) (l : Link) (pc : WorkerPc) (findPendingOnly : Bool)
    (hdisc : l.p.isDisc = (nd.peer nd.cPeer).isDisc) (hcmd : l.p.umCmd = (nd.peer nd.cPeer).umCmd) :
    { nd.setLink nd.cPeer l with pc := pc }.ioHdlcNextPeer findPendingOnly =
      nd.ioHdlcNextPeer findPendingOnly := by
  have haccepts : accepts { nd.setLink nd.cPeer l with pc := pc } findPendingOnly =
      nd.accepts findPendingOnly := by
    funext i
    by_cases hi : i = nd.cPeer
    · subst hi
      simp only [accepts, setLink_peer_self, hdisc, hcmd]
    · simp only [accepts, setLink_peer_of_ne nd l hi]
  rw [ioHdlcNextPeer, ioHdlcNextPeer, haccepts]
  rfl

theorem nextPeerLoop_cases (accepts : Fin n → Bool) (start : Fin n) (fuel : Nat) (i : Fin n)
    (h : (start.val + n - fuel) % n = i.val) (hle : fuel ≤ n) :
    nextPeerLoop accepts start fuel i = start ∨
      accepts (nextPeerLoop accepts start fuel i) = true := by
  induction fuel generalizing i with
  | zero =>
    refine .inl (Fin.ext ?_)
    rw [nextPeerLoop, ← h, Nat.sub_zero, Nat.add_mod_right, Nat.mod_eq_of_lt start.isLt]
  | succ fuel ih =>
    rw [nextPeerLoop]
    split
    next hstop =>
      rcases Bool.or_eq_true_iff.mp hstop with haccept | heq
      · exact .inr haccept
      · exact .inl (of_decide_eq_true heq)
    · refine ih (after i) ?_ (Nat.le_of_succ_le hle)
      change _ = (i.val + 1) % n
      rw [← h, Nat.mod_add_mod]
      congr 1
      omega

/-- Where `ioHdlcNextPeer` ends: where it started, or at a peer it looks for. -/
theorem ioHdlcNextPeer_cases (nd : Node n) (findPendingOnly : Bool) :
    nd.ioHdlcNextPeer findPendingOnly = nd.cPeer ∨
      nd.accepts findPendingOnly (nd.ioHdlcNextPeer findPendingOnly) = true := by
  refine nextPeerLoop_cases _ _ _ _ ?_ le_rfl
  rw [Nat.add_sub_cancel, Nat.mod_eq_of_lt nd.cPeer.isLt]

theorem finishPass_cPeer {nd : Node n} {r : Pass} (h : r.next ≠ .linkDown) :
    (nd.finishPass r).1.cPeer = nd.cPeer := by
  simp only [finishPass]
  split
  · rfl
  next hdown => exact absurd hdown h
  · rfl
  · rfl

/-- The end of `ioHdlcConnectedTx` stays with the peer, if it is its own successor or the worker
does not move on. -/
theorem finishTx_cPeer {nd : Node n} {t : TxStep} (hdisc : t.link.p.isDisc = (nd.peer nd.cPeer).isDisc)
    (hcmd : t.link.p.umCmd = (nd.peer nd.cPeer).umCmd)
    (h : t.nextPeer = true → nd.ioHdlcNextPeer false = nd.cPeer) :
    (nd.finishTx t).cPeer = nd.cPeer := by
  simp only [finishTx]
  split
  next hnext => exact (ioHdlcNextPeer_setLink nd t.link (.sched t.pc) false hdisc hcmd).trans (h hnext)
  · rfl

end Node

end IoHdlc
