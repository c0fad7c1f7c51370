import IoHdlc.Core.ConnectionCount
import IoHdlc.Core.FlagService
import IoHdlc.Core.LinkRequest
import IoHdlc.Kit.Termination

/-!
A rank of the node that the sections of the transmit worker lower.

Its first counter, `debt`, is what the worker only takes away: flags that wait, connections,
responses. Below it a pass goes down the levels of `level`, from the flags that its head takes to
those that only its tail takes.
-/

namespace IoHdlc

open Kit

/-- The flags that the worker has fetched. -/
def WorkerPc.flags : WorkerPc → EvtFlags
  | .sched pc => pc.flags
  | .switched flags _ => flags
  | .advance => ∅

/-- Whether the next pass takes the held flags of this peer, or drops them. -/
def Link.takesHeld (l : Link) : Bool := l.p.umState.rcved || l.p.isDisc || l.p.umState.sent

namespace Node

variable {n : Nat}

/-! ### The rank -/

def respondingPeers (nd : Node n) : Finset (Fin n) :=
  Finset.univ.filter fun i => (nd.peer i).umState.rcved

/-- What the worker only takes away. -/
def debt (nd : Node n) : ℕ :=
  nd.s.cmListener.card + nd.connectedPeers.card + nd.respondingPeers.card +
    if .linkDown ∈ nd.pc.flags ∪ nd.s.cmListener then 1 else 0

/-- How far the worker is from rest at the head of its loop. -/
def idleLevel (l : Link) (flags : EvtFlags) : ℕ :=
  if flags = ∅ then 0
  else if flags ⊆ heldFlags ∧ l.takesHeld = true then 2
  else if flags = {.linkStChg} ∧ l.p.isDisc = false then 1
  else 4

/-- How far it is inside `ioHdlcConnectedTx`. -/
def txLevel (flags : EvtFlags) : ℕ :=
  if flags = ∅ then 0 else if flags ∩ headFlags = ∅ then 3 else 5

def level (nd : Node n) : ℕ :=
  match nd.pc with
  | .sched (.idle flags) => idleLevel (nd.link nd.cPeer) flags
  | .sched pc => txLevel pc.flags
  | .switched flags _ => if .linkReq ∈ flags then 6 else 4
  | .advance => 1

def size (nd : Node n) : ℕ :=
  match nd.pc with
  | .advance => 2
  | pc => pc.flags.card

def stage (nd : Node n) : ℕ :=
  match nd.pc with
  | .sched (.check _) => (nd.peer nd.cPeer).iTransQ.length + 3
  | .sched (.iFrame _ _) => (nd.peer nd.cPeer).iTransQ.length + 2
  | .sched (.skipIFrames _ _) => 1
  | .switched _ _ => 1
  | _ => 0

def rank (nd : Node n) : Rank := .of nd.debt nd.level nd.size nd.stage

section Rank

variable {nd nd' nd'' : Node n} {l : Link} {i : Fin n} {flags : EvtFlags}

theorem idleLevel_empty (l : Link) : idleLevel l ∅ = 0 := if_pos rfl

theorem idleLevel_le (l : Link) (flags : EvtFlags) : idleLevel l flags ≤ 4 := by
  rw [idleLevel]
  split
  · exact Nat.zero_le _
  split
  · decide
  split <;> decide

theorem txLevel_le (flags : EvtFlags) : txLevel flags ≤ 5 := by
  rw [txLevel]
  split
  · exact Nat.zero_le _
  split <;> decide

theorem txLevel_of_head (h : flags ∩ headFlags = ∅) : txLevel flags ≤ 3 := by
  rw [txLevel, if_pos h]
  split <;> decide

/-- No flag waits that did not wait before, nobody is connected, and no response waits. -/
structure Shrinks (nd nd' : Node n) : Prop where
  listener : nd'.s.cmListener ⊆ nd.s.cmListener
  stConn : ∀ i, nd'.Connected i → nd.Connected i
  rcved : ∀ i, (nd'.peer i).umState.rcved = true → (nd.peer i).umState.rcved = true
  linkDown : .linkDown ∈ nd'.pc.flags → .linkDown ∈ nd.pc.flags ∪ nd.s.cmListener

theorem Shrinks.parts (h : nd.Shrinks nd') :
    nd'.s.cmListener.card ≤ nd.s.cmListener.card ∧
      nd'.connectedPeers.card ≤ nd.connectedPeers.card ∧
      nd'.respondingPeers.card ≤ nd.respondingPeers.card ∧
      (.linkDown ∈ nd'.pc.flags ∪ nd'.s.cmListener →
        .linkDown ∈ nd.pc.flags ∪ nd.s.cmListener) := by
  refine ⟨Finset.card_le_card h.listener, Finset.card_le_card fun i hi => ?_,
    Finset.card_le_card fun i hi => ?_, fun hdown => ?_⟩
  · rw [mem_connectedPeers] at hi ⊢
    exact h.stConn i hi
  · rw [respondingPeers, Finset.mem_filter] at hi ⊢
    exact ⟨hi.1, h.rcved i hi.2⟩
  · rcases Finset.mem_union.mp hdown with hdown | hdown
    · exact h.linkDown hdown
    · exact Finset.mem_union_right _ (h.listener hdown)

theorem Shrinks.debt_le (h : nd.Shrinks nd') : nd'.debt ≤ nd.debt := by
  obtain ⟨hlis, hconn, hrcved, hdown⟩ := h.parts
  simp only [debt]
  split
  next hdown' =>
    rw [if_pos (hdown hdown')]
    omega
  · omega

theorem rank_lt_of_debt (h : nd'.debt < nd.debt) : nd'.rank < nd.rank :=
  Rank.of_lt_of.mpr (.inl h)

/-- Flags were fetched. -/
theorem Shrinks.rank_lt_of_listener (h : nd.Shrinks nd') (hempty : nd'.s.cmListener = ∅)
    (hne : nd.s.cmListener ≠ ∅) : nd'.rank < nd.rank := by
  obtain ⟨-, hconn, hrcved, hdown⟩ := h.parts
  refine rank_lt_of_debt ?_
  have hpos : 0 < nd.s.cmListener.card :=
    Finset.card_pos.mpr (Finset.nonempty_iff_ne_empty.mpr hne)
  simp only [debt, hempty, Finset.card_empty]
  rw [hempty] at hdown
  split
  next hdown' =>
    rw [if_pos (hdown hdown')]
    omega
  · omega

/-- A link was given up. -/
theorem Shrinks.rank_lt_of_closed (h : nd.Shrinks nd') (hi : nd.Connected i)
    (hclosed : ¬nd'.Connected i) : nd'.rank < nd.rank := by
  obtain ⟨hlis, -, hrcved, hdown⟩ := h.parts
  have hlt : nd'.connectedPeers.card < nd.connectedPeers.card := by
    refine Finset.card_lt_card ⟨fun j hj => ?_, fun hsub => hclosed ?_⟩
    · exact mem_connectedPeers.mpr (h.stConn j (mem_connectedPeers.mp hj))
    · exact mem_connectedPeers.mp (hsub (mem_connectedPeers.mpr hi))
  refine rank_lt_of_debt ?_
  simp only [debt]
  split
  next hdown' =>
    rw [if_pos (hdown hdown')]
    omega
  · omega

/-- A response was sent, or dropped. -/
theorem Shrinks.rank_lt_of_rcved (h : nd.Shrinks nd') (hi : (nd.peer i).umState.rcved = true)
    (hgone : (nd'.peer i).umState.rcved = false) : nd'.rank < nd.rank := by
  obtain ⟨hlis, hconn, -, hdown⟩ := h.parts
  have hlt : nd'.respondingPeers.card < nd.respondingPeers.card := by
    refine Finset.card_lt_card ⟨fun j hj => ?_, fun hsub => ?_⟩
    · rw [respondingPeers, Finset.mem_filter] at hj ⊢
      exact ⟨hj.1, h.rcved j hj.2⟩
    · have hmem := hsub (Finset.mem_filter.mpr ⟨Finset.mem_univ i, hi⟩)
      rw [respondingPeers, Finset.mem_filter, hgone] at hmem
      exact Bool.false_ne_true hmem.2
  refine rank_lt_of_debt ?_
  simp only [debt]
  split
  next hdown' =>
    rw [if_pos (hdown hdown')]
    omega
  · omega

/-- The flag that ends the I-frame loop was taken. -/
theorem Shrinks.rank_lt_of_linkDown (h : nd.Shrinks nd')
    (hdown : .linkDown ∈ nd.pc.flags ∪ nd.s.cmListener)
    (hgone : .linkDown ∉ nd'.pc.flags ∪ nd'.s.cmListener) : nd'.rank < nd.rank := by
  obtain ⟨hlis, hconn, hrcved, -⟩ := h.parts
  refine rank_lt_of_debt ?_
  simp only [debt]
  rw [if_pos hdown, if_neg hgone]
  omega

/-- Nothing was taken away, but the worker is nearer to rest. -/
theorem Shrinks.rank_lt (h : nd.Shrinks nd')
    (hlt : nd'.level < nd.level ∨ nd'.level ≤ nd.level ∧
      (nd'.size < nd.size ∨ nd'.size ≤ nd.size ∧ nd'.stage < nd.stage)) :
    nd'.rank < nd.rank := by
  have hle := h.debt_le
  rw [rank, rank, Rank.of_lt_of]
  omega

/-! ### What a section takes away -/

theorem setLink_shrinks (h : (nd.link i).Shrinks l) : nd.Shrinks (nd.setLink i l) := by
  refine ⟨h.listener, fun j => ?_, fun j => ?_, fun hdown => Finset.mem_union_left _ hdown⟩
  · by_cases hj : j = i
    · subst hj
      rw [Connected, Connected, setLink_peer_self]
      exact h.stConn
    · rw [Connected, Connected, setLink_peer_of_ne nd l hj]
      exact id
  · by_cases hj : j = i
    · subst hj
      rw [setLink_peer_self]
      exact h.rcved
    · rw [setLink_peer_of_ne nd l hj]
      exact id

/-- The place of the worker and the poll requests do not count. -/
theorem Shrinks.moved (h : nd.Shrinks nd') (hs : nd''.s = nd'.s)
    (hconn : ∀ i, (nd''.peer i).ssState.stConn = (nd'.peer i).ssState.stConn)
    (hum : ∀ i, (nd''.peer i).umState = (nd'.peer i).umState)
    (hflags : nd''.pc.flags ⊆ nd.pc.flags ∪ nd.s.cmListener) : nd.Shrinks nd'' where
  listener := by
    rw [hs]
    exact h.listener
  stConn i hi := h.stConn i ((hconn i).symm.trans hi)
  rcved i hi := by
    rw [hum] at hi
    exact h.rcved i hi
  linkDown hdown := hflags hdown

theorem Shrinks.refl (nd : Node n) : nd.Shrinks nd :=
  ⟨Finset.Subset.refl _, fun _ => id, fun _ => id, fun h => Finset.mem_union_left _ h⟩

theorem finishPass_flags (nd : Node n) (r : Pass) : (nd.finishPass r).1.pc.flags = r.next.flags := by
  cases hnext : r.next <;> simp only [finishPass, hnext] <;> rfl

theorem finishPass_peer (nd : Node n) (r : Pass) :
    (nd.finishPass r).1.peer = (nd.setLink nd.cPeer r.link).peer := by
  simp only [finishPass]
  split <;> rfl

theorem finishPass_shrinks {r : Pass} (h : (nd.link nd.cPeer).Shrinks r.link)
    (hflags : r.next.flags ⊆ nd.pc.flags) : nd.Shrinks (nd.finishPass r).1 := by
  have hpeer := finishPass_peer nd r
  refine (setLink_shrinks h).moved (finishPass_s nd r) (fun i => by rw [hpeer])
    (fun i => by rw [hpeer]) ?_
  rw [finishPass_flags]
  exact hflags.trans Finset.subset_union_left

theorem finishTx_shrinks {t : TxStep} (h : (nd.link nd.cPeer).Shrinks t.link)
    (hflags : t.pc.flags ⊆ nd.pc.flags ∪ nd.s.cmListener) : nd.Shrinks (nd.finishTx t) := by
  refine (setLink_shrinks h).moved (finishTx_s nd t) (finishTx_sameConn nd t).stConn
    (finishTx_field (fun p => p.umState) (fun _ _ => rfl) nd t) ?_
  rw [finishTx_pc]
  exact hflags

/-! ### Where a pass ends -/

theorem finishPass_loop (nd : Node n) {r : Pass} (h : r.next = .loop flags) :
    (nd.finishPass r).1.level = idleLevel r.link flags ∧
      (nd.finishPass r).1.size = flags.card ∧ (nd.finishPass r).1.stage = 0 := by
  have hlink := setLink_link nd nd.cPeer r.link
  simp only [finishPass, h]
  exact ⟨congrArg (idleLevel · flags) hlink, rfl, rfl⟩

theorem finishPass_linkDown (nd : Node n) {r : Pass} (h : r.next = .linkDown) :
    (nd.finishPass r).1.level = 0 := by
  simp only [finishPass, h]
  exact idleLevel_empty _

theorem finishPass_advance (nd : Node n) {r : Pass} (h : r.next = .advance) :
    (nd.finishPass r).1.level = 1 := by
  simp only [finishPass, h]
  rfl

theorem finishPass_check (nd : Node n) {r : Pass} (h : r.next = .connectedTx (.check flags)) :
    (nd.finishPass r).1.level = txLevel flags := by
  simp only [finishPass, h]
  rfl

/-- A pass that gives up the link. -/
theorem finishPass_rank_of_aborts {r : Pass} (h : nd.Shrinks (nd.finishPass r).1)
    (hconn : nd.Connected nd.cPeer) (hdown : r.link.p.ssState.stConn = false) :
    (nd.finishPass r).1.rank < nd.rank := by
  refine h.rank_lt_of_closed hconn fun hstill => ?_
  rw [Connected, finishPass_peer, setLink_peer_self] at hstill
  exact Bool.false_ne_true (hdown.symm.trans hstill)

/-- A pass that sends a response, or drops it. -/
theorem finishPass_rank_of_rcved {r : Pass} (h : nd.Shrinks (nd.finishPass r).1)
    (hrcved : (nd.peer nd.cPeer).umState.rcved = true) (hgone : r.link.p.umState.rcved = false) :
    (nd.finishPass r).1.rank < nd.rank := by
  refine h.rank_lt_of_rcved hrcved ?_
  rw [finishPass_peer, setLink_peer_self]
  exact hgone

/-- The flags behind the head of `ioHdlcConnectedTx`. -/
theorem headTaken (flags : EvtFlags) (h : .linkReq ∉ flags) :
    (((flags \ {.linkStChg}) \ {.lineIdle}) \ {.cRplytmo}) \ {.t3Tmo} ∩ headFlags = ∅ := by
  ext e
  simp only [Finset.mem_inter, Finset.mem_sdiff, Finset.mem_singleton, headFlags,
    Finset.mem_insert, Finset.notMem_empty, iff_false]
  rintro ⟨⟨⟨⟨⟨he, h1⟩, h2⟩, h3⟩, h4⟩, h5 | h5 | h5 | h5 | h5⟩
  · exact h1 h5
  · exact h2 h5
  · exact h3 h5
  · exact h4 h5
  · exact h (h5 ▸ he)

/-- A pass that serves a request. -/
theorem request_rank {timedOut : Bool} (hpc : nd.pc = .switched flags timedOut) (take : Takes) :
    (nd.finishPass (serveRequest (nd.link nd.cPeer) flags timedOut take)).1.rank < nd.rank := by
  obtain ⟨hshrink, hends⟩ := serveRequest_flags (nd.link nd.cPeer) flags timedOut take
  have hlevel : nd.level = if .linkReq ∈ flags then 6 else 4 := by rw [level, hpc]
  have hfour : 4 ≤ nd.level := by
    rw [hlevel]
    split <;> decide
  have hsize : nd.size = flags.card := by rw [size, hpc]; rfl
  have hstage : nd.stage = 1 := by rw [stage, hpc]
  have hflags : nd.pc.flags = flags := by rw [hpc]; rfl
  generalize serveRequest (nd.link nd.cPeer) flags timedOut take = r at hshrink hends ⊢
  rcases hends with h | h | h | ⟨hsub, hgone, hrcved⟩ | ⟨l', hl', hlink, hpass, h⟩
  · refine (finishPass_shrinks hshrink (by rw [h]; exact Finset.empty_subset _)).rank_lt ?_
    rw [(finishPass_loop nd h).1, idleLevel_empty]
    omega
  · refine (finishPass_shrinks hshrink (by rw [h]; exact Finset.empty_subset _)).rank_lt ?_
    rw [finishPass_linkDown nd h]
    omega
  · refine (finishPass_shrinks hshrink (by rw [h, hflags]; exact Finset.Subset.refl _)).rank_lt ?_
    obtain ⟨hl, hc, hst⟩ := finishPass_loop nd h
    have := idleLevel_le r.link flags
    omega
  · exact finishPass_rank_of_rcved (finishPass_shrinks hshrink (hflags ▸ hsub)) hrcved hgone
  · have hs : nd.Shrinks (nd.finishPass r).1 :=
      finishPass_shrinks hshrink (by rw [hflags, h]; exact hpass.subset)
    cases hpass with
    | advance hdisc _ hnext =>
      refine hs.rank_lt ?_
      rw [finishPass_advance nd (h.trans hnext)]
      omega
    | down _ _ _ hnext =>
      obtain ⟨hl, hc, hst⟩ := finishPass_loop nd (h.trans hnext)
      have := idleLevel_le r.link ((flags \ {.linkStChg}) ∩ uCommandFlags)
      have hcard : ((flags \ {.linkStChg}) ∩ uCommandFlags).card ≤ flags.card :=
        Finset.card_le_card (Finset.inter_subset_left.trans Finset.sdiff_subset)
      exact hs.rank_lt (by omega)
    | modeless _ _ _ _ hnext =>
      obtain ⟨hl, hc, hst⟩ := finishPass_loop nd (h.trans hnext)
      have := idleLevel_le r.link (flags \ {.linkStChg})
      have hcard : (flags \ {.linkStChg}).card ≤ flags.card :=
        Finset.card_le_card Finset.sdiff_subset
      exact hs.rank_lt (by omega)
    | aborts hconn _ hdown _ _ _ =>
      exact finishPass_rank_of_aborts hs (hl'.stConn hconn) (by rw [hlink]; exact hdown)
    | connected _ _ _ hnext =>
      refine hs.rank_lt (.inl ?_)
      rw [finishPass_check nd (h.trans hnext), hlevel]
      split
      · exact Nat.lt_succ_of_le (txLevel_le _)
      next hno => exact Nat.lt_succ_of_le (txLevel_of_head (headTaken flags hno))

end Rank

end Node

end IoHdlc
