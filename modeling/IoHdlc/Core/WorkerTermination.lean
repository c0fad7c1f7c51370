import IoHdlc.Core.WorkerRank

/-!
The transmit worker comes to rest when nobody else moves.

Every section lowers the rank, unless it lets a flag through that the next pass lets through
again. Such a flag is `umRecvd`, once the response it stands for is gone.
-/

namespace IoHdlc

open Kit

namespace Node

variable {n : Nat}

/-! ### The worker on its own -/

/-- A section of the transmit worker. -/
def Works (ok : Node n → Prop) (nd nd' : Node n) : Prop :=
  ok nd ∧ ∃ a sent, a.isTx = true ∧ nd.act a = some (nd', sent)

/-- The worker waits for events. -/
def Blocked (nd : Node n) : Prop := nd.pc = .sched (.idle ∅) ∧ nd.s.cmListener = ∅

/-- With nobody else moving, the worker comes to the point where it waits for events; `ok`
restricts what it may go on from. -/
structure Blocks (ok : Node n → Prop) (nd : Node n) : Prop where
  settles : Settles (Works ok) nd
  blocked : ∀ nd', Relation.ReflTransGen (Works ok) nd nd' → (∀ nd'', ¬Works ok nd' nd'') →
    ok nd' → nd'.Blocked

/-- The peers that `ioHdlcConnectedTx` may leave the worker with. -/
def staysOrMoves (nd : Node n) (i : Fin n) : Prop :=
  i = nd.cPeer ∨ nd.s.isNrmPrimary = true ∧ nd.accepts false i = true

instance (nd : Node n) (i : Fin n) : Decidable (nd.staysOrMoves i) :=
  inferInstanceAs (Decidable (_ ∨ _))

/-- Whether no flag is about to go through a whole pass. -/
def servesFlags (nd : Node n) : Bool :=
  let l := nd.link nd.cPeer
  match nd.pc with
  | .sched (.idle flags) => uCommandDue l flags || !(holdsTimeout l flags || holdsFlags l flags)
  | .sched (.skipIFrames flags _) =>
    nd.s.cmListener ≠ ∅ || flags ∩ headFlags ≠ ∅ ||
      flags \ servedFlags l.p.ssState.rejpend = ∅ ||
      decide (∀ i, nd.staysOrMoves i → (nd.link i).takesHeld = true)
  | _ => true

section Steps

variable {nd nd' nd'' : Node n} {l : Link} {i : Fin n} {flags : EvtFlags} {iSent : Bool}

/-! ### Every section is a step towards rest -/

/-- A flag that the section for U commands serves. -/
theorem exists_uCommandFlag (h : uCommandDue l flags = true) : ∃ e ∈ uCommandFlags, e ∈ flags := by
  rw [uCommandDue, Bool.or_eq_true] at h
  rcases h with h | h
  · exact ⟨.linkReq, by decide, of_decide_eq_true h⟩
  · exact ⟨.cRplytmo, by decide, of_decide_eq_true (Bool.and_eq_true_iff.mp h).2⟩

theorem idleLevel_of_due (h : uCommandDue l flags = true) : idleLevel l flags = 4 := by
  obtain ⟨e, he, hmem⟩ := exists_uCommandFlag h
  have hheld : ¬flags ⊆ heldFlags := fun hsub => by
    have := hsub hmem
    revert he this
    cases e <;> decide
  have hstart : flags ≠ {.linkStChg} := fun heq => by
    rw [heq, Finset.mem_singleton] at hmem
    subst hmem
    exact absurd he (by decide)
  rw [idleLevel, if_neg (Finset.ne_empty_of_mem hmem), if_neg fun h => hheld h.1,
    if_neg fun h => hstart h.1]

/-- A pass for a request starts with fewer flags. -/
theorem request_rank_lt (hpc : nd.pc = .sched (.idle flags))
    (hdue : uCommandDue (nd.link nd.cPeer) flags = true) (hpeer : nd'.peer = nd.peer)
    (hs : nd'.s = nd.s) (hflags : nd'.pc.flags = flags \ uCommandFlags) (hlevel : nd'.level ≤ 4)
    (hsize : nd'.size = (flags \ uCommandFlags).card) : nd'.rank < nd.rank := by
  obtain ⟨e, he, hmem⟩ := exists_uCommandFlag hdue
  have hcard : (flags \ uCommandFlags).card < flags.card := by
    refine Finset.card_lt_card ⟨Finset.sdiff_subset, fun hsub => ?_⟩
    exact (Finset.mem_sdiff.mp (hsub hmem)).2 he
  have hshrink : nd.Shrinks nd' := by
    refine (Shrinks.refl nd).moved hs (fun i => by rw [hpeer]) (fun i => by rw [hpeer]) ?_
    rw [hflags, hpc]
    exact Finset.sdiff_subset.trans Finset.subset_union_left
  have hfour : nd.level = 4 := by
    rw [level, hpc]
    exact idleLevel_of_due hdue
  have hsize' : nd.size = flags.card := by rw [size, hpc]; rfl
  exact hshrink.rank_lt (.inr ⟨by omega, .inl (by omega)⟩)

/-- Without a response that waits, a pass that is not held goes on to the I frames at most. -/
theorem peer_rank (hpc : nd.pc = .sched (.idle flags)) (hne : flags ≠ ∅)
    (hdue : uCommandDue (nd.link nd.cPeer) flags = false)
    (htimeout : holdsTimeout (nd.link nd.cPeer) flags = false)
    (hholds : holdsFlags (nd.link nd.cPeer) flags = false) (take : Takes) :
    (nd.finishPass (servePeer (nd.link nd.cPeer) flags take)).1.rank < nd.rank := by
  obtain ⟨hshrink, hgone, hsub⟩ := servePeer_shrinks (nd.link nd.cPeer) flags take
  have hflags : nd.pc.flags = flags := by rw [hpc]; rfl
  have hlevel : nd.level = idleLevel (nd.link nd.cPeer) flags := by rw [level, hpc]
  have hs := finishPass_shrinks hshrink (hflags ▸ hsub)
  cases hrcved : (nd.peer nd.cPeer).umState.rcved with
  | true => exact finishPass_rank_of_rcved hs hrcved hgone
  | false =>
    have hpass := servePeer_flags (l := nd.link nd.cPeer) hrcved flags take
    rw [uCommandDue, Bool.or_eq_false_iff] at hdue
    have hreq : .linkReq ∉ flags := of_decide_eq_false hdue.1
    have hpos : 1 ≤ nd.level := by
      rw [hlevel, idleLevel, if_neg hne]
      split
      · decide
      split <;> decide
    cases hpass with
    | advance hdisc _ hnext =>
      refine hs.rank_lt (.inl ?_)
      rw [finishPass_advance nd hnext, hlevel, idleLevel, if_neg hne]
      split
      · decide
      · rw [if_neg fun h => Bool.false_ne_true (h.2.symm.trans hdisc)]
        decide
    | down hdown hstay _ hnext =>
      -- only the reply timeout could come through, and it is held or due
      have hempty : (flags \ {.linkStChg}) ∩ uCommandFlags = ∅ := by
        rw [Finset.eq_empty_iff_forall_notMem]
        intro e he
        rw [Finset.mem_inter, Finset.mem_sdiff] at he
        obtain ⟨⟨hmem, -⟩, hu⟩ := he
        rw [uCommandFlags, Finset.mem_insert, Finset.mem_singleton] at hu
        rcases hu with rfl | rfl
        · exact hreq hmem
        · have hsent : (nd.peer nd.cPeer).umState.sent = false := by
            simpa [hmem] using hdue.2
          have hdisc : (nd.peer nd.cPeer).isDisc = true := by simpa [hsent] using hdown
          refine Bool.false_ne_true (htimeout.symm.trans ?_)
          simp only [holdsTimeout, Bool.and_eq_true, Bool.not_eq_true', decide_eq_true_eq]
          refine ⟨⟨⟨⟨hmem, hrcved⟩, hdisc⟩, hsent⟩, Bool.eq_false_iff.mpr fun h => hstay ?_⟩
          obtain ⟨hpri, hcmd⟩ := Bool.and_eq_true_iff.mp h
          exact ⟨hpri, of_decide_eq_true hcmd, hsent⟩
      refine hs.rank_lt (.inl ?_)
      rw [(finishPass_loop nd hnext).1, hempty, idleLevel_empty]
      exact hpos
    | modeless hconn hsent hmode _ hnext =>
      have hempty : flags \ {.linkStChg} = ∅ := by
        by_contra hrest
        obtain ⟨hnrm, habm⟩ := not_or.mp hmode
        refine Bool.false_ne_true (hholds.symm.trans ?_)
        simp only [holdsFlags, Bool.and_eq_true, Bool.not_eq_true', decide_eq_true_eq]
        exact ⟨⟨⟨⟨⟨hrcved, hconn⟩, hsent⟩, hnrm⟩, habm⟩, hrest⟩
      refine hs.rank_lt (.inl ?_)
      rw [(finishPass_loop nd hnext).1, hempty, idleLevel_empty]
      exact hpos
    | aborts hconn _ hdown _ _ _ => exact finishPass_rank_of_aborts hs hconn hdown
    | connected hconn hsent _ hnext =>
      have hheld : (nd.link nd.cPeer).takesHeld = false := by
        simp only [link_p] at hconn hsent
        simp only [Link.takesHeld, link_p, hrcved, hconn, hsent, Bool.or_self]
      refine hs.rank_lt (.inl ?_)
      rw [finishPass_check nd hnext, hlevel, idleLevel, if_neg hne,
        if_neg fun h => Bool.false_ne_true (hheld.symm.trans h.2)]
      split
      next hstart =>
        rw [hstart.1]
        decide
      · exact Nat.lt_succ_of_le (txLevel_of_head (headTaken flags hreq))

theorem txEntry_rank (hpc : nd.pc = .sched (.idle flags)) (hne : flags ≠ ∅)
    (hok : nd.servesFlags = true) (take : Takes) : (nd.txEntry flags take).1.rank < nd.rank := by
  simp only [txEntry]
  by_cases hdue : uCommandDue (nd.link nd.cPeer) flags = true
  · have hreq : .linkReq ∉ flags \ uCommandFlags :=
      fun h => (Finset.mem_sdiff.mp h).2 (by decide)
    rw [if_pos hdue]
    split
    · split
      · exact request_rank_lt hpc hdue rfl rfl rfl (if_neg hreq).le rfl
      · exact request_rank_lt hpc hdue rfl rfl rfl (idleLevel_le _ _) rfl
    · -- as if the worker had turned to this peer
      let switched : Node n :=
        { nd with pc := .switched (flags \ uCommandFlags) (decide (.cRplytmo ∈ flags)) }
      have hsw : switched.rank < nd.rank :=
        request_rank_lt hpc hdue rfl rfl rfl (if_neg hreq).le rfl
      have hserve : (switched.finishPass (serveRequest (nd.link nd.cPeer) (flags \ uCommandFlags)
          (decide (.cRplytmo ∈ flags)) take)).1.rank < switched.rank := request_rank rfl take
      have heq (r : Pass) : switched.finishPass r = nd.finishPass r := by
        cases hnext : r.next <;> simp only [finishPass, hnext] <;> rfl
      rw [heq] at hserve
      exact hserve.trans hsw
  · rw [if_neg hdue]
    have hdue' := Bool.eq_false_iff.mpr hdue
    simp only [servesFlags, hpc, hdue', Bool.false_or, Bool.not_eq_true', Bool.or_eq_false_iff]
      at hok
    exact peer_rank hpc hne hdue' hok.1 hok.2 take

theorem txFetch_rank (hne : nd.s.cmListener ≠ ∅) :
    rank { nd with
      s := { nd.s with cmListener := ∅ }
      pc := .sched (.idle nd.s.cmListener) } < nd.rank := by
  refine Shrinks.rank_lt_of_listener ?_ rfl hne
  exact ⟨Finset.empty_subset _, fun _ => id, fun _ => id, fun h => Finset.mem_union_right _ h⟩

/-- The next peer has the link state to look at, if it is connected. -/
theorem txAdvance_rank (hpc : nd.pc = .advance) : nd.txAdvance.rank < nd.rank := by
  have hlevel : nd.level = 1 := by rw [level, hpc]
  have hsize : nd.size = 2 := by rw [size, hpc]
  simp only [txAdvance]
  split
  · have hs : nd.Shrinks
        { nd with cPeer := nd.ioHdlcNextPeer false, pc := .sched (.idle ∅) } :=
      (Shrinks.refl nd).moved rfl (fun _ => rfl) (fun _ => rfl) (Finset.empty_subset _)
    refine hs.rank_lt (.inl ?_)
    rw [hlevel]
    exact Nat.lt_one_iff.mpr (idleLevel_empty _)
  next hconn =>
    have hup := Bool.eq_false_iff.mpr hconn
    refine Shrinks.rank_lt ⟨Finset.Subset.refl _, fun j => ?_, fun j => ?_, ?_⟩
      (.inr ⟨?_, .inl ?_⟩)
    · rw [Connected, Connected, needP_field (fun p => p.ssState.stConn) fun _ _ => rfl]
      exact id
    · rw [needP_field (fun p => p.umState) fun _ _ => rfl]
      exact id
    · exact fun h => absurd (Finset.mem_singleton.mp h) (by simp)
    · rw [hlevel]
      refine (congrArg (idleLevel · {.linkStChg}) ?_).trans_le (?_ : idleLevel
        ⟨nd.s, setNeedP nd.s (nd.peer (nd.ioHdlcNextPeer false))⟩ {.linkStChg} ≤ 1)
      · exact congrArg (Link.mk nd.s) (Function.update_self ..)
      · rw [idleLevel, if_neg (by decide), if_neg fun h => absurd h.1 (by decide),
          if_pos ⟨rfl, hup⟩]
    · rw [hsize]
      exact Nat.lt_succ_self 1

theorem txCheck_rank (hpc : nd.pc = .sched (.check flags)) :
    rank { nd with pc := .sched (connectedTxCheck (nd.link nd.cPeer) flags).pc } < nd.rank := by
  have hlevel : nd.level = txLevel flags := by rw [level, hpc]; rfl
  have hsize : nd.size = flags.card := by rw [size, hpc]; rfl
  have hstage : nd.stage = (nd.peer nd.cPeer).iTransQ.length + 3 := by rw [stage, hpc]
  have hflags : flags ⊆ nd.pc.flags ∪ nd.s.cmListener := by
    rw [hpc]
    exact Finset.subset_union_left
  simp only [connectedTxCheck]
  split
  · refine Shrinks.rank_lt ((Shrinks.refl nd).moved rfl (fun _ => rfl) (fun _ => rfl)
      hflags) (.inr ⟨hlevel.ge, .inr ⟨hsize.ge, ?_⟩⟩)
    rw [hstage]
    exact Nat.lt_of_lt_of_le (by decide : 1 < 3) (Nat.le_add_left _ _)
  · refine Shrinks.rank_lt ((Shrinks.refl nd).moved rfl (fun _ => rfl) (fun _ => rfl)
      hflags) (.inr ⟨hlevel.ge, .inr ⟨hsize.ge, ?_⟩⟩)
    rw [hstage]
    exact Nat.lt_succ_self _

/-- A section that fetches what waits. -/
theorem finishTx_rank_of_listener {t : TxStep} (h : nd.Shrinks (nd.finishTx t))
    (hempty : t.link.s.cmListener = ∅) (hne : nd.s.cmListener ≠ ∅) :
    (nd.finishTx t).rank < nd.rank :=
  h.rank_lt_of_listener (by rw [finishTx_s, hempty]) hne

/-- The loop takes a frame from the queue, or ends. -/
theorem txIFrame_rank {iSent : Bool} (hpc : nd.pc = .sched (.iFrame flags iSent)) :
    (nd.finishTx (connectedTxIFrame (nd.link nd.cPeer) flags iSent)).rank < nd.rank := by
  have hlevel : nd.level = txLevel flags := by rw [level, hpc]; rfl
  have hsize : nd.size = flags.card := by rw [size, hpc]; rfl
  have hstage : nd.stage = (nd.peer nd.cPeer).iTransQ.length + 2 := by rw [stage, hpc]
  have hflags : nd.pc.flags = flags := by rw [hpc]; rfl
  have hends := connectedTxIFrame_flags (nd.link nd.cPeer) flags iSent
  have hstay := connectedTxIFrame_nextPeer (nd.link nd.cPeer) flags iSent
  generalize connectedTxIFrame (nd.link nd.cPeer) flags iSent = t at hends hstay ⊢
  have hnode : nd.finishTx t = { nd.setLink nd.cPeer t.link with pc := .sched t.pc } := by
    simp only [finishTx, hstay, Bool.false_eq_true, if_false]
  rcases hends with ⟨hlink, hskip⟩ | ⟨hshrink, hempty, hends⟩
  · have hs : nd.Shrinks (nd.finishTx t) := by
      refine finishTx_shrinks (hlink ▸ .refl _) ?_
      rw [hskip, hflags]
      exact Finset.subset_union_left
    refine hs.rank_lt (.inr ?_)
    rw [hlevel, hsize, hstage, hnode, hskip]
    exact ⟨le_rfl, .inr ⟨le_rfl, Nat.lt_of_lt_of_le (by decide : 1 < 2) (Nat.le_add_left _ _)⟩⟩
  · have hs : nd.Shrinks (nd.finishTx t) := by
      refine finishTx_shrinks hshrink ?_
      rw [hflags]
      rcases hends with ⟨-, hpc'⟩ | ⟨-, hpc' | hpc'⟩
      · rw [hpc']
        exact Finset.sdiff_subset
      · rw [hpc']
        exact Finset.Subset.refl _
      · rw [hpc']
        exact Finset.Subset.refl _
    by_cases hlis : nd.s.cmListener = ∅
    · have hunion : flags ∪ (nd.link nd.cPeer).s.cmListener = flags := by
        rw [link_s, hlis]
        exact Finset.union_eq_left.mpr (Finset.empty_subset _)
      rw [hunion] at hends
      rcases hends with ⟨hdown, hpc'⟩ | ⟨hlen, hpc' | hpc'⟩
      · refine hs.rank_lt_of_linkDown (Finset.mem_union_left _ (hflags ▸ hdown)) fun hmem => ?_
        rw [finishTx_pc, hpc', finishTx_s, hempty, Finset.mem_union] at hmem
        rcases hmem with hmem | hmem
        · exact (Finset.mem_sdiff.mp hmem).2 (Finset.mem_singleton_self _)
        · exact Finset.notMem_empty _ hmem
      · refine hs.rank_lt (.inr ?_)
        rw [hlevel, hsize, hstage, hnode, hpc']
        exact ⟨le_rfl, .inr ⟨le_rfl, Nat.lt_of_lt_of_le (by decide : 1 < 2) (Nat.le_add_left _ _)⟩⟩
      · refine hs.rank_lt (.inr ?_)
        rw [hlevel, hsize, hstage, hnode, hpc']
        refine ⟨le_rfl, .inr ⟨le_rfl, ?_⟩⟩
        have hq := congrArg (fun p : Peer => p.iTransQ.length)
          (setLink_peer_self nd nd.cPeer t.link)
        exact Nat.add_lt_add_right (hq.trans_lt hlen) 2
    · exact finishTx_rank_of_listener hs hempty hlis

/-- Where the last section ends. -/
theorem txSFrame_staysOrMoves (nd : Node n) (flags : EvtFlags) (iSent : Bool)
    (take : Nat → Option Frame) :
    nd.staysOrMoves
      (nd.finishTx (connectedTxSFrame (nd.link nd.cPeer) flags iSent take)).cPeer := by
  obtain ⟨-, -, -, hconn, -⟩ := connectedTxSFrame_flags (nd.link nd.cPeer) flags iSent take
  have hcmd := (connectedTxSFrame_keeps (nd.link nd.cPeer) flags iSent take).1.toKeeps.umCmd
  have hnext := @connectedTxSFrame_nextPeer (nd.link nd.cPeer) flags iSent take
  generalize connectedTxSFrame (nd.link nd.cPeer) flags iSent take = t at hconn hcmd hnext ⊢
  simp only [finishTx]
  split
  next hgo =>
    rw [ioHdlcNextPeer_setLink nd t.link (.sched t.pc) false (congrArg Bool.not hconn) hcmd]
    rcases ioHdlcNextPeer_cases nd false with h | h
    · exact .inl h
    · exact .inr ⟨hnext hgo, h⟩
  · exact .inl rfl

/-- The last section leaves a part of the held flags, which the peer it ends with takes. -/
theorem txSFrame_rank {iSent : Bool} (hpc : nd.pc = .sched (.skipIFrames flags iSent))
    (hok : nd.servesFlags = true) (take : Nat → Option Frame) :
    (nd.finishTx (connectedTxSFrame (nd.link nd.cPeer) flags iSent take)).rank < nd.rank := by
  have hlevel : nd.level = txLevel flags := by rw [level, hpc]; rfl
  have hsize : nd.size = flags.card := by rw [size, hpc]; rfl
  have hstage : nd.stage = 1 := by rw [stage, hpc]
  obtain ⟨hshrink, hempty, hum, hconn, hpc'⟩ :=
    connectedTxSFrame_flags (nd.link nd.cPeer) flags iSent take
  have hmoves := txSFrame_staysOrMoves nd flags iSent take
  generalize connectedTxSFrame (nd.link nd.cPeer) flags iSent take = t
    at hshrink hempty hum hconn hpc' hmoves ⊢
  have hs : nd.Shrinks (nd.finishTx t) := by
    refine finishTx_shrinks hshrink ?_
    rw [hpc', hpc]
    exact Finset.sdiff_subset
  by_cases hlis : nd.s.cmListener = ∅
  · have hunion : flags ∪ (nd.link nd.cPeer).s.cmListener = flags := by
      rw [link_s, hlis]
      exact Finset.union_eq_left.mpr (Finset.empty_subset _)
    rw [hunion] at hpc'
    set rest := flags \ servedFlags (nd.link nd.cPeer).p.ssState.rejpend with hrest
    have hlevel' : (nd.finishTx t).level =
        idleLevel ((nd.finishTx t).link (nd.finishTx t).cPeer) rest := by
      rw [level, finishTx_pc, hpc']
    have hsize' : (nd.finishTx t).size = rest.card := by
      rw [size, finishTx_pc, hpc']
      rfl
    have hstage' : (nd.finishTx t).stage = 0 := by rw [stage, finishTx_pc, hpc']
    have hcard : rest.card ≤ flags.card := Finset.card_le_card Finset.sdiff_subset
    refine hs.rank_lt ?_
    by_cases hempty' : rest = ∅
    · rw [hempty', idleLevel_empty] at hlevel'
      omega
    have hne : flags ≠ ∅ := fun h => hempty' (by rw [hrest, h, Finset.empty_sdiff])
    rw [txLevel, if_neg hne] at hlevel
    by_cases hhead : flags ∩ headFlags = ∅
    · -- what is left is held, and its peer is there
      rw [if_pos hhead] at hlevel
      have hheld : rest ⊆ heldFlags := by
        refine (Finset.sdiff_subset_sdiff (Finset.Subset.refl _) ?_).trans (subset_heldFlags hhead)
        rw [servedFlags]
        exact Finset.subset_union_right
      have htakes : ∀ i, nd.staysOrMoves i → (nd.link i).takesHeld = true := by
        simp only [servesFlags, hpc, Bool.or_eq_true, decide_eq_true_eq] at hok
        rcases hok with ((h | h) | h) | h
        · exact absurd hlis h
        · exact absurd hhead h
        · exact absurd h hempty'
        · exact h
      have hkeep : ((nd.finishTx t).link (nd.finishTx t).cPeer).takesHeld = true := by
        rw [← htakes _ hmoves, Link.takesHeld, Link.takesHeld, link_p, link_p, Peer.isDisc,
          Peer.isDisc, finishTx_field (fun p => p.umState) (fun _ _ => rfl), (finishTx_sameConn nd t).stConn,
          setLink_peer_field (fun p => p.umState) nd t.link hum,
          setLink_peer_field (fun p => p.ssState.stConn) nd t.link hconn]
      rw [idleLevel, if_neg hempty', if_pos ⟨hheld, hkeep⟩] at hlevel'
      omega
    · rw [if_neg hhead] at hlevel
      have := idleLevel_le ((nd.finishTx t).link (nd.finishTx t).cPeer) rest
      omega
  · exact finishTx_rank_of_listener hs hempty hlis

/-- Every section of the worker lowers the rank. -/
theorem works_rank (h : Works (fun nd => nd.servesFlags = true) nd nd') : nd'.rank < nd.rank := by
  obtain ⟨hok, a, sent, htx, hact⟩ := h
  cases a with
  | txFetch =>
    simp only [act] at hact
    split at hact
    · split at hact
      next hfetch =>
        cases hact
        exact txFetch_rank hfetch.2
      · cases hact
    · cases hact
  | txEntry take =>
    simp only [act] at hact
    split at hact
    next flags hpc =>
      split at hact
      next hne =>
        have hlt := txEntry_rank hpc hne hok take
        rwa [Option.some.inj hact] at hlt
      · cases hact
    · cases hact
  | txSwitched take =>
    simp only [act] at hact
    split at hact
    next flags timedOut hpc =>
      have hlt := request_rank hpc take
      rwa [Option.some.inj hact] at hlt
    · cases hact
  | txAdvance =>
    simp only [act] at hact
    split at hact
    next hpc =>
      cases hact
      exact txAdvance_rank hpc
    · cases hact
  | txCheck =>
    simp only [act] at hact
    split at hact
    next flags hpc =>
      cases hact
      exact txCheck_rank hpc
    · cases hact
  | txIFrame =>
    simp only [act] at hact
    split at hact
    next flags iSent hpc =>
      cases hact
      exact txIFrame_rank hpc
    · cases hact
  | txSFrame take =>
    simp only [act] at hact
    split at hact
    next flags iSent hpc =>
      cases hact
      exact txSFrame_rank hpc hok take
    · cases hact
  | receive | lineIdle | linkUp | linkUpDone | linkUpFails | linkDown | peer | poolState
  | poolChange => cases htx

/-- Wherever it is, the worker goes on, unless it waits for events. -/
theorem exists_act (h : ¬nd.Blocked) : ∃ a, a.isTx = true ∧ (nd.act a).isSome = true := by
  rw [Blocked, not_and] at h
  cases hpc : nd.pc with
  | switched flags timedOut =>
    refine ⟨.txSwitched {}, rfl, ?_⟩
    simp only [act, hpc]
    rfl
  | advance =>
    refine ⟨.txAdvance, rfl, ?_⟩
    simp only [act, hpc]
    rfl
  | sched pc =>
    cases pc with
    | idle flags =>
      by_cases hempty : flags = ∅
      · refine ⟨.txFetch, rfl, ?_⟩
        simp only [act, hpc]
        rw [if_pos ⟨hempty, h (hpc.trans (by rw [hempty]))⟩]
        rfl
      · refine ⟨.txEntry {}, rfl, ?_⟩
        simp only [act, hpc]
        rw [if_pos hempty]
        rfl
    | check flags =>
      refine ⟨.txCheck, rfl, ?_⟩
      simp only [act, hpc]
      rfl
    | iFrame flags iSent =>
      refine ⟨.txIFrame, rfl, ?_⟩
      simp only [act, hpc]
      rfl
    | skipIFrames flags iSent =>
      refine ⟨.txSFrame fun _ => none, rfl, ?_⟩
      simp only [act, hpc]
      rfl

end Steps

/-- From every state, while no flag is about to go through a whole pass, the worker comes to
where it waits for events, however the pool answers. -/
theorem blocks_of_servesFlags (nd : Node n) : Blocks (fun nd => nd.servesFlags = true) nd where
  settles := .of_rank rank (fun _ _ h => works_rank h) nd
  blocked nd' _ hend hok := by
    by_contra hgo
    obtain ⟨a, htx, hsome⟩ := exists_act hgo
    obtain ⟨r, hact⟩ := Option.isSome_iff_exists.mp hsome
    exact hend r.1 ⟨hok, a, r.2, htx, hact⟩

end Node

/-! ### A flag that nothing takes -/

/-- A connected secondary of NRM with nothing to send. -/
def Link.quiet (l : Link) : Bool :=
  decide (l.s.cmListener = ∅) && decide (l.s.mode = .nrm) && !l.s.flags.pri && !l.s.flags.busy &&
    !l.s.pfState.pRcved && !l.s.pfState.fRcved && !l.p.isDisc && !l.p.umState.sent &&
    !l.p.umState.rcved && !l.p.uiTxPending && !l.p.frmrCondition && decide (l.p.iTransQ = []) &&
    !l.p.ssState.rejpend

section Quiet

variable {l : Link}

theorem servePeer_quiet (h : l.quiet = true) (take : Takes) :
    servePeer l {.umRecvd} take =
      { link := l, sent := [], next := .connectedTx (.check {.umRecvd}) } := by
  simp only [Link.quiet, Bool.and_eq_true, decide_eq_true_eq, Bool.not_eq_true'] at h
  obtain ⟨⟨⟨⟨⟨⟨⟨⟨⟨⟨⟨⟨-, hmode⟩, -⟩, -⟩, -⟩, -⟩, hconn⟩, hsent⟩, hrcved⟩, hui⟩, -⟩, -⟩, -⟩ := h
  have hreply : serveReplyTimeout l {.umRecvd} = (l, true) :=
    if_neg fun h => absurd h.1 (by decide)
  have ht3 : serveT3Timeout l {.umRecvd} = (l, true) := if_neg fun h => absurd h.1 (by decide)
  have hui' : sendUi l take.ui = (l, none) := by
    simp only [sendUi, hui, Bool.false_and, Bool.false_eq_true, if_false]
  have hsdiff (e : Evt) (he : e ≠ .umRecvd) : {.umRecvd} \ {e} = ({.umRecvd} : EvtFlags) := by
    revert he
    cases e <;> decide
  have hentry : connectedTxEntry l {.umRecvd} take.ui =
      { link := l, sent := none, pc := .check {.umRecvd}, nextPeer := false } := by
    simp only [connectedTxEntry, hsdiff _ (by decide : Evt.lineIdle ≠ .umRecvd), hreply,
      hsdiff _ (by decide : Evt.cRplytmo ≠ .umRecvd), ht3,
      hsdiff _ (by decide : Evt.t3Tmo ≠ .umRecvd), hui', if_true]
  rw [servePeer, uResponseStage_idle hrcved]
  simp only [dispatchTx, hsdiff _ (by decide : Evt.linkStChg ≠ .umRecvd), hconn, hsent, hmode,
    hentry, Bool.or_self, Bool.false_eq_true, if_false, true_or, if_true, Option.toList_none,
    List.append_nil]

theorem connectedTxCheck_quiet (h : l.quiet = true) (flags : EvtFlags) :
    (connectedTxCheck l flags).pc = .iFrame flags false := by
  simp only [Link.quiet, Bool.and_eq_true, decide_eq_true_eq, Bool.not_eq_true'] at h
  simp only [connectedTxCheck, h.1.1.2, Bool.false_eq_true, if_false]

theorem connectedTxIFrame_quiet (h : l.quiet = true) (flags : EvtFlags) (iSent : Bool) :
    connectedTxIFrame l flags iSent =
      { link := l, sent := none, pc := .skipIFrames flags iSent, nextPeer := false } := by
  simp only [Link.quiet, Bool.and_eq_true, decide_eq_true_eq, Bool.not_eq_true'] at h
  rw [connectedTxIFrame, h.1.2]

theorem connectedTxSFrame_quiet (h : l.quiet = true) (take : Nat → Option Frame) :
    connectedTxSFrame l {.umRecvd} false take =
      { link := l, sent := none, pc := .idle {.umRecvd}, nextPeer := false } := by
  simp only [Link.quiet, Bool.and_eq_true, decide_eq_true_eq, Bool.not_eq_true'] at h
  obtain ⟨⟨⟨⟨⟨⟨⟨⟨⟨⟨⟨⟨hlis, -⟩, hpri⟩, hbusy⟩, hp⟩, hf⟩, -⟩, -⟩, -⟩, -⟩, -⟩, -⟩, hrej⟩ := h
  have hfetch : getAndClearFlags l {.umRecvd} = (l, {.umRecvd}) := by
    rw [getAndClearFlags, hlis, ← hlis]
    exact congrArg (Prod.mk l) (Finset.union_eq_left.mpr (hlis ▸ Finset.empty_subset _))
  have hnone : chooseSFrame l false take = (l, none) := by
    simp only [chooseSFrame, hrej, hbusy, hp, hf, Bool.false_and, Bool.and_false, Bool.or_self,
      Bool.false_eq_true, if_false]
  have hserved : {.umRecvd} \ servedFlags false = ({.umRecvd} : EvtFlags) := by decide
  simp only [connectedTxSFrame, hfetch, hnone, hrej, hserved, Station.isNrmPrimary, hpri,
    Bool.and_false, Bool.false_and]

end Quiet

namespace Node

variable {n : Nat}

section Spin

variable {nd : Node n} {flags : EvtFlags} {iSent : Bool}

theorem works_txEntry (h : (nd.link nd.cPeer).quiet = true)
    (hpc : nd.pc = .sched (.idle {.umRecvd})) :
    Works (fun _ => True) nd { nd with pc := .sched (.check {.umRecvd}) } := by
  refine ⟨trivial, .txEntry {}, [], rfl, ?_⟩
  have hdue : uCommandDue (nd.link nd.cPeer) {.umRecvd} = false := by simp [uCommandDue]
  simp only [act, hpc, txEntry, hdue, servePeer_quiet h, finishPass, setLink_self]
  rfl

theorem works_txCheck (h : (nd.link nd.cPeer).quiet = true)
    (hpc : nd.pc = .sched (.check flags)) :
    Works (fun _ => True) nd { nd with pc := .sched (.iFrame flags false) } := by
  refine ⟨trivial, .txCheck, [], rfl, ?_⟩
  simp only [act, hpc, connectedTxCheck_quiet h]

theorem works_txIFrame (h : (nd.link nd.cPeer).quiet = true)
    (hpc : nd.pc = .sched (.iFrame flags iSent)) :
    Works (fun _ => True) nd { nd with pc := .sched (.skipIFrames flags iSent) } := by
  refine ⟨trivial, .txIFrame, [], rfl, ?_⟩
  simp only [act, hpc, connectedTxIFrame_quiet h, finishTx, setLink_self, Bool.false_eq_true,
    if_false]
  rfl

theorem works_txSFrame (h : (nd.link nd.cPeer).quiet = true)
    (hpc : nd.pc = .sched (.skipIFrames {.umRecvd} false)) :
    Works (fun _ => True) nd { nd with pc := .sched (.idle {.umRecvd}) } := by
  refine ⟨trivial, .txSFrame fun _ => none, [], rfl, ?_⟩
  simp only [act, hpc, connectedTxSFrame_quiet h, finishTx, setLink_self, Bool.false_eq_true,
    if_false]
  rfl

/-- The pass leaves the flag, and the worker begins the same pass again. -/
theorem spins_cycle (h : (nd.link nd.cPeer).quiet = true)
    (hpc : nd.pc = .sched (.idle {.umRecvd})) :
    Relation.TransGen (Works fun _ => True) nd nd := by
  have hback : { nd with pc := .sched (.idle {.umRecvd}) } = nd := by rw [← hpc]
  have hlast := @works_txSFrame n { nd with pc := .sched (.skipIFrames {.umRecvd} false) } h rfl
  rw [hback] at hlast
  have hfirst : Works (fun _ => True) nd { nd with pc := .sched (.check {.umRecvd}) } :=
    works_txEntry h hpc
  exact .tail (.tail (.tail (.single hfirst) (works_txCheck h rfl)) (works_txIFrame h rfl)) hlast

end Spin

/-- A TEST arrives while the worker is on its way with the flag of an RR: its flag is merged when
the response is gone, and nothing takes it. -/
theorem blocks_fails_with_umRecvd :
    ¬∀ nd : Node 1, Reachable Fresh (Moves Anything) nd → Blocks (fun _ => True) nd := by
  intro hclaim
  obtain ⟨nd, hrun, hp⟩ := Reachable.exists_of_run next (fun _ _ _ h => moves_next h)
    (Reachable.start (fresh_onePeer .ndm (.inl rfl) {} 1 2))
    [.receive (shortFrame 1 0x93), .txFetch, .txEntry { uResponse := some default }, .txCheck,
      .txIFrame, .txSFrame fun _ => none, .receive (shortFrame 1 0x01), .txFetch,
      .receive (shortFrame 1 0xF3), .txEntry { uResponse := some default }, .txCheck, .txIFrame,
      .txSFrame fun _ => none]
    (fun nd => (nd.link nd.cPeer).quiet && decide (nd.pc.idleFlags = some {.umRecvd}))
    (by decide +kernel)
  rw [Bool.and_eq_true, decide_eq_true_eq] at hp
  obtain ⟨hquiet, hpc⟩ := hp
  exact Settles.not_of_cycle (spins_cycle hquiet (WorkerPc.eq_of_idleFlags hpc)) (hclaim nd hrun).settles

end Node

end IoHdlc
