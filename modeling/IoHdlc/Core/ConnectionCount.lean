import Mathlib.Data.Fintype.Card
import IoHdlc.Core.Node

/-!
`connected_count` against the number of connected peers.

`resetPeerVars` clears the connected bit of a peer without counting it out, so
the count is exact only as long as no set-mode transaction completes for a peer
that is still connected.
-/

namespace IoHdlc

open Kit

namespace Node

variable {n : Nat}

def connectedPeers (nd : Node n) : Finset (Fin n) :=
  Finset.univ.filter fun i => (nd.peer i).ssState.stConn

def CountExact (nd : Node n) : Prop := nd.s.connectedCount.toNat = nd.connectedPeers.card

/-- The station is in a disconnected mode with the last connection, and not before. -/
structure ClosesWithLast (nd nd' : Node n) : Prop where
  last : (∃ i, nd.Connected i) → (∀ i, ¬nd'.Connected i) →
    nd'.s.connectedCount = 0 ∧ nd'.s.isDisc = true ∧ nd'.s.rxFn = none
  others : (∃ i, nd'.Connected i) → nd'.s.connectedCount ≠ 0 ∧
    (nd'.s.isDisc = true → nd.s.isDisc = true)

/-- What keeps the count exact: a frame that opens the link finds its peer closed and
the counter below its range, a refusal finds its peer closed or another one open, and
a LinkUp that restores a disconnected mode finds all peers closed. -/
def CountRegular (nd : Node n) : Action n → Prop
  | .receive fp =>
    (opensLink (nd.link nd.cPeer) fp = true →
      ¬nd.Connected nd.cPeer ∧ nd.connectedPeers.card < 255) ∧
    (refusesLink (nd.link nd.cPeer) fp = true →
      ¬nd.Connected nd.cPeer ∨ ∃ j, j ≠ nd.cPeer ∧ nd.Connected j)
  | .linkUpFails call =>
    call.sMode = .ndm ∨ call.sMode = .adm → nd.s.isDisc = true ∨ ∀ i, ¬nd.Connected i
  | _ => True

section Steps

variable {nd nd' : Node n} {a : Action n} {i : Fin n}

theorem mem_connectedPeers : i ∈ nd.connectedPeers ↔ nd.Connected i := by
  rw [connectedPeers, Finset.mem_filter, Connected]
  exact and_iff_right (Finset.mem_univ i)

theorem SameConn.connectedPeers (h : nd.SameConn nd') : nd'.connectedPeers = nd.connectedPeers := by
  ext i
  rw [mem_connectedPeers, mem_connectedPeers, Connected, Connected, h.stConn]

theorem OnlyAt.connectedPeers_open (h : nd.OnlyAt nd' i) (hi : nd'.Connected i) :
    nd'.connectedPeers = insert i nd.connectedPeers := by
  ext j
  rw [Finset.mem_insert, mem_connectedPeers, mem_connectedPeers]
  by_cases hj : j = i
  · subst hj
    exact iff_of_true hi (.inl rfl)
  · rw [Connected, Connected, h.stConn j hj, or_iff_right hj]

theorem OnlyAt.connectedPeers_close (h : nd.OnlyAt nd' i) (hi : ¬nd'.Connected i) :
    nd'.connectedPeers = nd.connectedPeers.erase i := by
  ext j
  rw [Finset.mem_erase, mem_connectedPeers, mem_connectedPeers]
  by_cases hj : j = i
  · subst hj
    exact iff_of_false hi fun hn => hn.1 rfl
  · rw [Connected, Connected, h.stConn j hj, and_iff_right hj]

theorem connectedPeers_eq_empty : nd.connectedPeers = ∅ ↔ ∀ i, ¬nd.Connected i := by
  rw [Finset.eq_empty_iff_forall_notMem]
  exact forall_congr' fun i => not_congr mem_connectedPeers

theorem CountExact.eq_zero_iff (h : nd.CountExact) :
    nd.s.connectedCount = 0 ↔ ∀ i, ¬nd.Connected i := by
  rw [← connectedPeers_eq_empty, ← Finset.card_eq_zero, ← h, ← UInt8.toNat_inj]
  exact Iff.rfl

/-- Counting out one peer, if it was counted in. -/
theorem CountExact.erase (h : nd.CountExact) (rest : nd.OnlyAt nd' i) (hi : ¬nd'.Connected i)
    (hcount : nd'.s.connectedCount =
      if (nd.peer i).ssState.stConn then nd.s.connectedCount - 1 else nd.s.connectedCount) :
    nd'.CountExact := by
  rw [CountExact, rest.connectedPeers_close hi, hcount]
  by_cases hconn : (nd.peer i).ssState.stConn = true
  · have hmem : i ∈ nd.connectedPeers := mem_connectedPeers.mpr hconn
    have hpos : 0 < nd.connectedPeers.card := Finset.card_pos.mpr ⟨i, hmem⟩
    rw [if_pos hconn, Finset.card_erase_of_mem hmem, UInt8.toNat_sub_of_le, h]
    · rfl
    · rw [UInt8.le_iff_toNat_le, h]
      exact hpos
  · rw [if_neg hconn, Finset.erase_eq_of_notMem (mt mem_connectedPeers.mp hconn)]
    exact h

theorem CountExact.insert (h : nd.CountExact) (rest : nd.OnlyAt nd' i) (hi : nd'.Connected i)
    (hnew : ¬nd.Connected i) (hroom : nd.connectedPeers.card < 255)
    (hcount : nd'.s.connectedCount = nd.s.connectedCount + 1) : nd'.CountExact := by
  rw [CountExact, rest.connectedPeers_open hi, hcount,
    Finset.card_insert_of_notMem (mt mem_connectedPeers.mp hnew), UInt8.toNat_add, h]
  exact Nat.mod_eq_of_lt (by change _ + 1 < 256; omega)

theorem countExact_step (h : nd.CountExact) (hok : nd.CountRegular a)
    (hstep : nd.ConnStep a nd') : nd'.CountExact := by
  cases hstep with
  | same hs => rw [CountExact, hs.connectedPeers, hs.connectedCount, h]
  | opens fp ha hfp hopen rest =>
    subst ha
    obtain ⟨hnew, hroom⟩ := hok.1 hfp
    exact h.insert rest hopen.stConn hnew hroom hopen.connectedCount
  | closes hclose rest _ =>
    exact h.erase rest (fun hc => absurd (hclose.stConn.symm.trans hc) nofun) hclose.connectedCount
  | refuses fp ha hfp hrefuse rest =>
    exact h.erase rest (fun hc => absurd (hrefuse.stConn.symm.trans hc) nofun)
      hrefuse.connectedCount
  | linkUp call hcall stConn hcount hrx hmode =>
    have hpeers : nd'.connectedPeers = nd.connectedPeers := by
      ext i
      rw [mem_connectedPeers, mem_connectedPeers, Connected, Connected, stConn]
    rw [CountExact, hpeers, hcount, h]
  | linkUpDone call hcall hconn hnd' =>
    subst hnd'
    exact h
  | linkUpFails call ha hcall hnd' =>
    subst hnd'
    exact h

theorem closedMode_isDisc {s : Station} {mode : Mode} (h : s.mode = closedMode mode) :
    s.isDisc = true := by
  rw [Station.isDisc, h, closedMode]
  split <;> rfl

/-- A step leaves the disconnected modes to the last connection. -/
theorem closesWithLast_step (h : nd.CountExact) (hok : nd.CountRegular a)
    (hstep : nd.ConnStep a nd') : nd.ClosesWithLast nd' := by
  have hexact := countExact_step h hok hstep
  have hcount (hconn : ∃ i, nd'.Connected i) : nd'.s.connectedCount ≠ 0 := by
    intro hzero
    obtain ⟨i, hi⟩ := hconn
    exact hexact.eq_zero_iff.mp hzero i hi
  cases hstep with
  | same hs =>
    refine ⟨fun ⟨i, hi⟩ hnone => absurd ?_ (hnone i), fun hconn => ⟨hcount hconn, ?_⟩⟩
    · rwa [Connected, hs.stConn]
    · rw [Station.isDisc, Station.isDisc, hs.mode]
      exact id
  | opens fp ha hfp hopen rest =>
    refine ⟨fun _ hnone => absurd hopen.stConn (hnone _), fun hconn => ⟨hcount hconn, ?_⟩⟩
    rw [Station.isDisc, Station.isDisc]
    change (nd'.link nd.cPeer).s.mode = .ndm || (nd'.link nd.cPeer).s.mode = .adm → _
    rw [hopen.mode, openedMode]
    split
    · intro hdisc
      cases hom : ucmdToMode (uFunction (nd.link nd.cPeer) fp) with
      | none =>
        rw [hom, Option.getD_none, link_s] at hdisc
        exact hdisc
      | some om =>
        rw [hom] at hdisc
        simp only [ucmdToMode] at hom
        split at hom
        · cases hom
          simp at hdisc
        split at hom
        · cases hom
          simp at hdisc
        split at hom
        · cases hom
          simp at hdisc
        · cases hom
    · exact id
  | closes hclose rest _ =>
    have hmode := hclose.mode
    have hrx := hclose.rxFn
    refine ⟨fun _ hnone => ?_, fun hconn => ⟨hcount hconn, fun hdisc => ?_⟩⟩
    · have hzero := hexact.eq_zero_iff.mpr hnone
      rw [link_s, if_pos hzero] at hmode hrx
      exact ⟨hzero, closedMode_isDisc hmode, hrx⟩
    · rw [link_s, link_s, if_neg (hcount hconn)] at hmode
      rwa [Station.isDisc, hmode] at hdisc
  | refuses fp ha hfp hrefuse rest =>
    subst ha
    refine ⟨fun ⟨i, hi⟩ hnone => ?_, fun hconn => ⟨hcount hconn, fun hdisc => ?_⟩⟩
    · rcases hok.2 hfp with hclosed | ⟨j, hj, hconn⟩
      · refine absurd ?_ (hnone i)
        rw [Connected, rest.stConn i (by rintro rfl; exact hclosed hi)]
        exact hi
      · exact absurd ((rest.stConn j hj).trans hconn) (hnone j)
    · have hmode := hrefuse.mode
      change nd'.s.mode = nd.s.mode at hmode
      rwa [Station.isDisc, hmode] at hdisc
  | linkUp call hcall stConn hcount' hrx hmode =>
    refine ⟨fun ⟨i, hi⟩ hnone => absurd ?_ (hnone i), fun hconn => ⟨hcount hconn, fun hdisc => ?_⟩⟩
    · rwa [Connected, stConn]
    · rcases hmode with ⟨h, -⟩ | ⟨-, -, hm⟩
      · exact h
      · rwa [Station.isDisc, hm] at hdisc
  | linkUpDone call hcall hconn hnd' =>
    subst hnd'
    exact ⟨fun ⟨i, hi⟩ hnone => absurd hi (hnone i), fun hc => ⟨hcount hc, id⟩⟩
  | linkUpFails call ha hcall hnd' =>
    subst ha hnd'
    refine ⟨fun ⟨i, hi⟩ hnone => absurd hi (hnone i), fun hc => ⟨hcount hc, fun hdisc => ?_⟩⟩
    obtain ⟨i, hi⟩ := hc
    have hsaved : call.sMode = .ndm ∨ call.sMode = .adm := by simpa [Station.isDisc] using hdisc
    exact (hok hsaved).resolve_right fun hnone => hnone i hi

end Steps

/-! ### Whole runs -/

theorem Fresh.not_connected {nd : Node n} (h : nd.Fresh) (i : Fin n) : ¬nd.Connected i := by
  obtain ⟨framesize, pollRetryMax, addr, hp⟩ := h.peer i
  rw [Connected, hp]
  exact Bool.false_ne_true

theorem Fresh.countExact {nd : Node n} (h : nd.Fresh) : nd.CountExact := by
  obtain ⟨_, _, _, _, _, _, _, _, -, hs⟩ := h.station
  rw [CountExact, connectedPeers_eq_empty.mpr h.not_connected, hs]
  rfl

theorem countExact_reachable {nd : Node n} (h : Reachable Fresh (Moves CountRegular) nd) :
    nd.CountExact := by
  refine h.invariant CountExact (fun _ hfresh => hfresh.countExact) fun nd₁ nd₂ hexact hmove => ?_
  obtain ⟨a, sent, hok, hact⟩ := hmove
  exact countExact_step hexact hok (act_connStep hact)

/-- In every state of a regular run the count is exact, and no step leads into a
disconnected mode but with the last connection. -/
theorem connectedCount_reachable {nd : Node n} (h : Reachable Fresh (Moves CountRegular) nd) :
    nd.s.connectedCount.toNat = nd.connectedPeers.card ∧
      ∀ a nd' sent, nd.CountRegular a → nd.act a = some (nd', sent) → nd.ClosesWithLast nd' :=
  ⟨countExact_reachable h, fun _ _ _ hok hact =>
    closesWithLast_step (countExact_reachable h) hok (act_connStep hact)⟩

/-- A secondary that accepts a SNRM. -/
theorem connectedCount_reachable_snrm :
    ∃ nd : Node 1, nd.s.connectedCount = 1 ∧ nd.s.connectedCount.toNat = nd.connectedPeers.card := by
  have h : Reachable Fresh (Moves CountRegular) (onePeer .ndm {} 1 2) :=
    .start (fresh_onePeer .ndm (.inl rfl) {} 1 2)
  have hok : (onePeer .ndm {} 1 2).CountRegular (.receive (shortFrame 1 0x93)) :=
    ⟨fun _ => ⟨nofun, by decide⟩, fun hfp => absurd hfp (by decide)⟩
  exact ⟨_, by decide, (connectedCount_reachable (h.tail ⟨_, _, hok, rfl⟩)).1⟩

/-- Before it has answered the first SNRM a second one is ignored, behind the answer a
second one counts the peer twice. -/
theorem connectedCount_not_exact :
    ¬∀ nd : Node 1, Reachable Fresh (Moves Anything) nd →
      nd.s.connectedCount.toNat = nd.connectedPeers.card := by
  intro h
  obtain ⟨nd, hnd, hne⟩ := Reachable.exists_of_run next (fun _ _ _ => moves_next)
    (.start (fresh_onePeer .ndm (.inl rfl) {} 1 2))
    [.receive (shortFrame 1 0x93), .txFetch, .txEntry { uResponse := some default },
      .receive (shortFrame 1 0x93)]
    (fun nd => decide (nd.s.connectedCount.toNat ≠ nd.connectedPeers.card)) (by decide +kernel)
  exact of_decide_eq_true hne (h nd hnd)

end Node

end IoHdlc
