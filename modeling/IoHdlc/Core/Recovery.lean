import IoHdlc.Core.PfCycle
import IoHdlc.Core.WindowInvariant

/-!
The two recovery markers of a peer, `vs_atlast_pf` and `chkpt_actioned`, along a run.

The run carries what the markers are about: which I frames were sent before the last P or F bit,
whether a checkpoint has moved frames since, and which ones. The marker `vs_atlast_pf` stands for
a place in the queue as the sequence variables do. It separates the frames sent up to that bit
from the later ones as long as every retransmission moves it, and a checkpoint does not.
-/

namespace IoHdlc

open Kit

/-! ### The functions in terms of places -/

section Functions

variable {s : Station} {p : Peer} {nr : UInt32} {ks : Nat} {log : List (List UInt8)} {c : Counters}

/-- Acknowledged frames push the marker along. -/
theorem processNRLoop_vsAtlastPf {base a m : Nat} (hle : base ≤ a)
    (hnear : a - base < s.framing.serial.modulus) (hnr : nr = s.framing.serial.word a)
    (hm : base ≤ m) (hmnear : m - base < s.framing.serial.modulus) (q : List Frame) (p : Peer)
    (hp : p.nr = s.framing.serial.word base)
    (hmark : p.vsAtlastPf = s.framing.serial.word m)
    (hq : ∀ i fp, q[i]? = some fp → extractNS s.framing fp = s.framing.serial.word (base + i)) :
    (processNRLoop s nr p q).1.vsAtlastPf =
      s.framing.serial.word (max m (min a (base + q.length))) := by
  induction q generalizing base m p with
  | nil =>
    rw [List.length_nil, Nat.add_zero, min_eq_right hle, max_eq_left hm, ← hmark]
    rfl
  | cons fp q ih =>
    by_cases heq : p.nr = nr
    · have hba : base = a := by
        rw [hp, hnr] at heq
        exact s.framing.serial.eq_of_word_eq heq (by omega) (by omega)
      rw [processNRLoop, if_pos heq, min_eq_left (by omega), max_eq_left (hba ▸ hm)]
      exact hmark
    · have hlt : base < a := by
        refine lt_of_le_of_ne hle fun h => heq ?_
        rw [hp, hnr, h]
      have hns : extractNS s.framing fp = s.framing.serial.word base := hq 0 fp rfl
      have hrest : ∀ i fp, q[i]? = some fp →
          extractNS s.framing fp = s.framing.serial.word (base + 1 + i) := by
        intro i fp' hi
        rw [Nat.add_assoc, Nat.add_comm 1 i]
        exact hq (i + 1) fp' hi
      rw [processNRLoop, if_neg heq]
      -- The marker is at the acknowledged frame or behind it.
      by_cases hmb : m = base
      · subst hmb
        refine (@ih (m + 1) (m + 1) hlt (by omega) le_rfl (by omega) _ ?_ ?_ hrest).trans ?_
        · dsimp only
          rw [hp, ← s.framing.serial_mask, s.framing.serial.word_add_one]
        · dsimp only
          rw [if_pos (hns.trans hmark.symm), hmark, ← s.framing.serial_mask,
            s.framing.serial.word_add_one]
        · rw [List.length_cons]
          congr 1
          omega
      · refine (@ih (base + 1) m hlt (by omega) (by omega) (by omega) _ ?_ ?_ hrest).trans ?_
        · dsimp only
          rw [hp, ← s.framing.serial_mask, s.framing.serial.word_add_one]
        · have hne : extractNS s.framing fp ≠ p.vsAtlastPf := by
            rw [hns, hmark]
            intro h
            exact hmb (s.framing.serial.eq_of_word_eq h (by omega) (by omega)).symm
          dsimp only
          rw [if_neg hne]
          exact hmark
        · rw [List.length_cons]
          congr 1
          omega

/-- The numbers of the frames that wait for an acknowledgement. -/
theorem extractNS_iRetransQ (h : p.txWindow.Represents s.framing ks log c) {i : Nat} {fp : Frame}
    (hi : p.iRetransQ[i]? = some fp) :
    extractNS s.framing fp = s.framing.serial.word (c.base + i) := by
  have hlen : c.base + p.iRetransQ.length = c.next := h.retrans_len
  have hnext := h.next_le
  obtain ⟨hlt, -⟩ := List.getElem?_eq_some_iff.mp hi
  exact (h.retrans.get hi).2.2 (by omega)

theorem processNR_vsAtlastPf (h : p.txWindow.Represents s.framing ks log c)
    (hks : ks < s.framing.serial.modulus) {a m : Nat} (hb : c.base ≤ a) (ha : a ≤ c.high)
    (hm : c.base ≤ m) (hmh : m ≤ c.high) (hmark : p.vsAtlastPf = s.framing.serial.word m) :
    (processNR s p (s.framing.serial.word a)).1.vsAtlastPf =
      s.framing.serial.word (max m (min a c.next)) := by
  have hhigh := h.high_le
  have hlen : c.base + p.iRetransQ.length = c.next := h.retrans_len
  have hloop := processNRLoop_vsAtlastPf (s := s) hb (by omega) rfl hm (by omega) p.iRetransQ p
    h.nr hmark fun i fp => extractNS_iRetransQ h
  rw [hlen] at hloop
  exact hloop

theorem processNR_chkptActioned (s : Station) (p : Peer) (nr : UInt32) :
    (processNR s p nr).1.chkptActioned = p.chkptActioned := by
  obtain ⟨x, q, n, v, t, h⟩ := processNR_fields s p nr
  rw [h]

/-- Frames are moved exactly if one of them lies before the marker. -/
theorem checkpointRetransmit_spec (h : p.txWindow.Represents s.framing ks log c)
    (hks : ks < s.framing.serial.modulus) {m : Nat} (hm : c.base ≤ m) (hmh : m ≤ c.high)
    (hmark : p.vsAtlastPf = s.framing.serial.word m) :
    checkpointRetransmit s p =
      if c.base < c.next ∧ c.base < m then
        ({ moveRetransQ p with chkptActioned := p.nr + 1, vs := p.nr }, true)
      else (p, false) := by
  have hhigh := h.high_le
  have hnr : p.nr = s.framing.serial.word c.base := h.nr
  have hlen : c.base + p.iRetransQ.length = c.next := h.retrans_len
  have hsub (x : UInt32) : x + 1 - 1 = x := by grind
  simp only [checkpointRetransmit]
  cases hq : p.iRetransQ with
  | nil =>
    rw [hq, List.length_nil] at hlen
    rw [checkpointScan, if_neg (not_not.mpr rfl), if_neg (by omega)]
  | cons fp q =>
    rw [hq, List.length_cons] at hlen
    have hns := extractNS_retransQ h hq
    have hfirst : extractNS s.framing fp = p.vsAtlastPf ↔ c.base = m := by
      rw [hns, hnr, hmark]
      exact s.framing.serial.word_eq_iff_of_near (by omega) (by omega)
    rw [checkpointScan]
    by_cases hbm : c.base = m
    · rw [if_pos (hfirst.mpr hbm), if_neg (not_not.mpr rfl), if_neg (by omega)]
    · have hne : extractNS s.framing fp + 1 ≠ 0 := by
        rw [hns, hnr]
        exact s.framing.serial.word_add_one_ne_zero c.base
      rw [if_neg (mt hfirst.mp hbm), if_pos rfl, checkpointScan_ne _ _ hne, if_pos hne,
        if_pos ⟨by omega, by omega⟩, hsub, hns]

end Functions

/-! ### A received frame -/

/-- How far an N(R) is ahead of the acknowledged frames. -/
def Link.offset (l : Link) (x : UInt32) : Nat := ((x - l.p.nr) &&& l.s.framing.modmask).toNat

/-- `is_command` of a received frame. -/
def Link.isCommand (l : Link) (fp : Frame) : Bool := (fp.addr l.s.framing).toUInt32 = l.s.addr

/-- Whether a frame with a valid N(R) makes `handleCheckpointAndAck` process a checkpoint: an F
bit, or a P bit other than in ABM. -/
def Link.isCheckpoint (l : Link) (fp : Frame) : Bool :=
  getPF l.s.framing fp && !(l.s.mode = .abm && l.isCommand fp)

/-- A REJ frame. -/
def Link.isRej (l : Link) (fp : Frame) : Bool :=
  !isIFrm (fp.ctrl l.s.framing 0) && fp.ctrl l.s.framing 0 &&& IOHDLC_S_FUN_MASK = IOHDLC_S_REJ

/-- What `handleCheckpointAndAck` makes of a received frame, if it gets it and the N(R) is
valid. -/
def Link.acked (l : Link) (fp : Frame) : Option AckResult :=
  if reachesPeer l fp && !l.p.frmrCondition then
    handleCheckpointAndAck l (extractNR l.s.framing fp) (getPF l.s.framing fp) (l.isCommand fp)
  else none

section Acked

variable {l : Link} {fp : Frame} {ack : AckResult} {ks : Nat} {log : List (List UInt8)}
  {c : Counters} {m : Nat}

/-- The state in which `handleCheckpointAndAck` leaves window and markers, in places. -/
structure Acknowledges (l : Link) (fp : Frame) (c : Counters) (m a : Nat) (ack : AckResult) :
    Prop where
  nr : extractNR l.s.framing fp = l.s.framing.serial.word a
  base_le : c.base ≤ a
  le_high : a ≤ c.high
  framing : ack.link.s.framing = l.s.framing
  twa : ack.link.s.flags.twa = l.s.flags.twa
  moved : ack.checkpointMoved = true ↔
    l.isCheckpoint fp = true ∧ min a c.next < c.next ∧ min a c.next < m
  window : ack.link.p.txWindow =
    if ack.checkpointMoved then (l.p.txWindow.acked l.s.framing c (min a c.next)).rewound
    else l.p.txWindow.acked l.s.framing c (min a c.next)
  vsAtlastPf : ack.link.p.vsAtlastPf = l.s.framing.serial.word (max m (min a c.next))
  chkptActioned : ack.link.p.chkptActioned = 0 ↔
    ack.checkpointMoved = false ∧ l.p.chkptActioned = 0

theorem checkpointOnPF_spec (h : l.p.txWindow.Represents l.s.framing ks log c)
    (hks : ks < l.s.framing.serial.modulus) (hm : c.base ≤ m) (hmh : m ≤ c.high)
    (hmark : l.p.vsAtlastPf = l.s.framing.serial.word m) (isCommand : Bool) :
    let r := checkpointOnPF l isCommand
    (r.2 = true ↔ (l.s.mode = .abm && isCommand) = false ∧ c.base < c.next ∧ c.base < m) ∧
      r.1.p.txWindow = (if r.2 then l.p.txWindow.rewound else l.p.txWindow) ∧
      r.1.p.vsAtlastPf = l.p.vsAtlastPf ∧
      (r.1.p.chkptActioned = 0 ↔ r.2 = false ∧ l.p.chkptActioned = 0) := by
  have hnr : l.p.nr = l.s.framing.serial.word c.base := h.nr
  have hspec := checkpointRetransmit_spec h hks hm hmh hmark
  dsimp only
  by_cases habm : l.s.mode = .abm ∧ isCommand = true
  · have hr : checkpointOnPF l isCommand = (l, false) := by
      rw [checkpointOnPF, if_pos habm]
      rfl
    rw [hr]
    refine ⟨iff_of_false (by simp) fun h => ?_, rfl, rfl, by simp⟩
    rw [decide_eq_true habm.1, habm.2] at h
    cases h.1
  · have habm' : (decide (l.s.mode = .abm) && isCommand) = false := by simpa using habm
    rw [habm']
    by_cases hgo : c.base < c.next ∧ c.base < m
    · rw [if_pos hgo] at hspec
      simp only [checkpointOnPF, if_neg habm, hspec]
      refine ⟨iff_of_true trivial ⟨trivial, hgo⟩, rfl, rfl, iff_of_false ?_ (by simp)⟩
      show l.p.nr + 1 ≠ 0
      rw [hnr]
      exact l.s.framing.serial.word_add_one_ne_zero c.base
    · rw [if_neg hgo] at hspec
      simp only [checkpointOnPF, if_neg habm, hspec]
      exact ⟨iff_of_false (by simp) fun h => hgo h.2, rfl, trivial, by simp⟩

theorem acked_spec (h : l.p.txWindow.Represents l.s.framing ks log c)
    (hks : ks < l.s.framing.serial.modulus) (hm : c.base ≤ m) (hmh : m ≤ c.high)
    (hmark : l.p.vsAtlastPf = l.s.framing.serial.word m) (hack : l.acked fp = some ack) :
    ∃ a, Acknowledges l fp c m a ack := by
  simp only [Link.acked] at hack
  split at hack
  · simp only [handleCheckpointAndAck] at hack
    split at hack
    next hvalid =>
      obtain ⟨a, hb, ha, hnr⟩ := exists_of_isNRValid h hks (extractNR_and_modmask _ _) hvalid
      have hwindow := processNR_txWindow h hks hb ha
      have hvs := processNR_vsAtlastPf h hks hb ha hm hmh hmark
      have hrep := h.ack (le_min hb h.base_le) (min_le_right ..)
      have hchk := processNR_chkptActioned l.s l.p (l.s.framing.serial.word a)
      rw [← hwindow] at hrep
      rw [hnr] at hack
      split at hack
      next hpf =>
        obtain ⟨hmoved, hw, hvs', hchk'⟩ := checkpointOnPF_spec
          (l := ⟨l.s, (processNR l.s l.p (l.s.framing.serial.word a)).1⟩) hrep hks
          (le_max_right m _) (by
            have := h.next_le
            show max m (min a c.next) ≤ c.high
            omega) hvs (l.isCommand fp)
        cases hack
        refine ⟨a, hnr, hb, ha, rfl, rfl, ?_, ?_, ?_, ?_⟩
        · rw [Link.isCheckpoint, hpf, Bool.true_and, Bool.not_eq_true']
          refine hmoved.trans ?_
          show _ ∧ min a c.next < c.next ∧ min a c.next < max m (min a c.next) ↔ _
          rw [lt_max_iff, or_iff_left (lt_irrefl _)]
        · rw [← hwindow]
          exact hw
        · exact hvs'.trans hvs
        · rw [← hchk]
          exact hchk'
      next hpf =>
        cases hack
        refine ⟨a, hnr, hb, ha, rfl, rfl, ?_, hwindow, hvs, ?_⟩
        · refine iff_of_false (by simp) fun hdue => hpf ?_
          exact (Bool.and_eq_true_iff.mp hdue.1).1
        · show (processNR l.s l.p (l.s.framing.serial.word a)).1.chkptActioned = 0 ↔ _
          rw [hchk]
          simp
    · cases hack
  · cases hack

/-- Whether the REJ handler moves frames behind `handleCheckpointAndAck`. -/
def AckResult.rejMoves (ack : AckResult) (fp : Frame) : Bool :=
  ack.link.isRej fp && !ack.link.s.flags.twa && ack.link.p.chkptActioned = 0 &&
    !ack.link.p.iRetransQ.isEmpty

theorem acked_none (h : l.acked fp = none) (hreach : reachesPeer l fp = true) :
    (commonRx l fp (l.isCommand fp)).1.p.txWindow = l.p.txWindow ∧
      (commonRx l fp (l.isCommand fp)).1.p.vsAtlastPf = l.p.vsAtlastPf := by
  rw [Link.acked, hreach, Bool.true_and] at h
  simp only [commonRx]
  cases hfrmr : l.p.frmrCondition with
  | true =>
    rw [if_pos rfl, frmrPending]
    split <;> exact ⟨rfl, rfl⟩
  | false =>
    rw [hfrmr, Bool.not_false, if_pos rfl] at h
    rw [if_neg Bool.false_ne_true, h]
    exact ⟨rfl, rfl⟩

theorem handleSFrame_spec (h : l.p.txWindow.Represents l.s.framing ks log c)
    (hi : isIFrm (fp.ctrl l.s.framing 0) = false) :
    let rej := l.isRej fp && !l.s.flags.twa && l.p.chkptActioned = 0 && !l.p.iRetransQ.isEmpty
    (handleSFrame l fp).1.p.txWindow = (if rej then l.p.txWindow.rewound else l.p.txWindow) ∧
      (handleSFrame l fp).1.p.vsAtlastPf = (if rej then l.p.nr else l.p.vsAtlastPf) := by
  dsimp only
  by_cases hrej : fp.ctrl l.s.framing 0 &&& IOHDLC_S_FUN_MASK = IOHDLC_S_REJ
  · have hnotRr : IOHDLC_S_REJ ≠ IOHDLC_S_RR := by decide
    have hnotRnr : IOHDLC_S_REJ ≠ IOHDLC_S_RNR := by decide
    simp only [handleSFrame, Link.isRej, hi, hrej, if_neg hnotRr, if_neg hnotRnr]
    by_cases htwa : l.s.flags.twa = true
    · simp [htwa]
    by_cases hchk : l.p.chkptActioned = 0
    · cases hq : l.p.iRetransQ with
      | nil => simp [htwa, hchk, actOnRej, hq]
      | cons first rest =>
        have hns := extractNS_retransQ h hq
        simp only [actOnRej, hq, hchk, Bool.eq_false_iff.mpr htwa]
        exact ⟨by simp only [Peer.txWindow, TxWindow.rewound, moveRetransQ, hns, hq]; rfl, hns⟩
    · rw [if_neg htwa, if_neg hchk]
      simp [hchk, Peer.txWindow]
  · have hno : l.isRej fp = false := by simp [Link.isRej, hrej]
    rw [hno]
    simp only [handleSFrame, if_neg hrej]
    split
    · exact ⟨rfl, rfl⟩
    split <;> exact ⟨rfl, rfl⟩

/-- What the frame does behind `handleCheckpointAndAck`. -/
theorem acked_some (hack : l.acked fp = some ack)
    (h : ack.link.p.txWindow.Represents l.s.framing ks log c) :
    (commonRx l fp (l.isCommand fp)).1.p.txWindow =
        (if ack.rejMoves fp then ack.link.p.txWindow.rewound else ack.link.p.txWindow) ∧
      (commonRx l fp (l.isCommand fp)).1.p.vsAtlastPf =
        (if ack.rejMoves fp then ack.link.p.nr else ack.link.p.vsAtlastPf) := by
  simp only [Link.acked] at hack
  split at hack
  next hgo =>
    rw [Bool.and_eq_true, Bool.not_eq_true'] at hgo
    have hfr := (handleCheckpointAndAck_keeps hack).framing
    simp only [commonRx, hgo.2, hack, Bool.false_eq_true, if_false]
    cases hi : isIFrm (fp.ctrl l.s.framing 0) with
    | true =>
      have hno : ack.rejMoves fp = false := by simp [AckResult.rejMoves, Link.isRej, hfr, hi]
      rw [hno, if_pos rfl]
      simp only [handleIFrame, needPOnAccept]
      split <;> exact ⟨rfl, rfl⟩
    | false =>
      rw [if_neg Bool.false_ne_true]
      exact handleSFrame_spec (hfr ▸ h) (hfr ▸ hi)
  · cases hack

end Acked

/-! ### What the workers do to the marker -/

/-- A frame to which the checkpoint of the station refers: it carries a P or F bit; in ABM not the
F bit of a response while an own P is outstanding. -/
def Link.refers (l : Link) (fp : Frame) : Bool :=
  linePF l.s.framing fp && (sendsCommand l.s || l.s.mode ≠ .abm || l.s.pfState.fRcved)

/-- The marker takes the value of `V(S)` behind such a frame, and no other. -/
structure Link.Marks (l l' : Link) (sent : Option Frame) : Prop where
  set : sent.any l.refers = true → l'.p.vsAtlastPf = l'.p.vs
  kept : sent.any l.refers = false → l'.p.vsAtlastPf = l.p.vsAtlastPf

section Workers

variable {l l' : Link}

theorem Link.Marks.of_none (h : l'.p.vsAtlastPf = l.p.vsAtlastPf) : l.Marks l' none :=
  ⟨nofun, fun _ => h⟩

theorem handleTimeoutRetry_vsAtlastPf (l : Link) (h : (handleTimeoutRetry l).2 = true) :
    (handleTimeoutRetry l).1.p.vsAtlastPf = l.p.vsAtlastPf := by
  rw [handleTimeoutRetry] at h ⊢
  split
  next hmax =>
    rw [if_pos hmax] at h
    cases h
  · rfl

theorem serveReplyTimeout_vsAtlastPf {flags : EvtFlags} (h : (serveReplyTimeout l flags).2 = true) :
    (serveReplyTimeout l flags).1.p.vsAtlastPf = l.p.vsAtlastPf := by
  simp only [serveReplyTimeout] at h ⊢
  split
  · split
    next hretry => exact handleTimeoutRetry_vsAtlastPf l hretry
    next hdue hretry =>
      rw [if_pos hdue, if_neg hretry] at h
      cases h
  · rfl

theorem serveT3Timeout_vsAtlastPf {flags : EvtFlags} (h : (serveT3Timeout l flags).2 = true) :
    (serveT3Timeout l flags).1.p.vsAtlastPf = l.p.vsAtlastPf := by
  simp only [serveT3Timeout] at h ⊢
  split
  next hdue =>
    rw [if_pos hdue] at h
    split
    · rfl
    next hmode =>
      rw [if_neg hmode] at h
      cases hq : l.p.iRetransQ with
      | nil => rfl
      | cons fp q =>
        rw [hq] at h
        dsimp only at h ⊢
        split
        next hretry =>
          have hmark := handleTimeoutRetry_vsAtlastPf _ hretry
          exact hmark
        next hretry =>
          rw [if_neg hretry] at h
          cases h
  · rfl

theorem sendUi_vsAtlastPf (l : Link) (take : Option Frame) :
    (sendUi l take).1.p.vsAtlastPf = l.p.vsAtlastPf := by
  simp only [sendUi]
  split
  · split <;> rfl
  · rfl

theorem connectedTxEntry_vsAtlastPf (l : Link) (flags : EvtFlags) (take : Option Frame)
    (hconn : (connectedTxEntry l flags take).link.p.ssState.stConn = true) :
    (connectedTxEntry l flags take).link.p.vsAtlastPf = l.p.vsAtlastPf := by
  simp only [connectedTxEntry] at hconn ⊢
  rcases serveReplyTimeout_cases l (flags \ {.lineIdle}) with ⟨hr, -⟩ | ⟨hr, habort⟩
  · have hreply := serveReplyTimeout_vsAtlastPf hr
    rw [if_pos hr] at hconn ⊢
    rcases serveT3Timeout_cases (serveReplyTimeout l (flags \ {.lineIdle})).1
      ((flags \ {.lineIdle}) \ {.cRplytmo}) with ⟨hr', -⟩ | ⟨hr', habort⟩
    · have ht3 := serveT3Timeout_vsAtlastPf hr'
      rw [if_pos hr']
      exact (sendUi_vsAtlastPf _ take).trans (ht3.trans hreply)
    · rw [if_neg (by rw [hr']; exact Bool.false_ne_true)] at hconn
      exact absurd (habort.stConn.symm.trans hconn) Bool.false_ne_true
  · rw [if_neg (by rw [hr]; exact Bool.false_ne_true)] at hconn
    exact absurd (habort.stConn.symm.trans hconn) Bool.false_ne_true

/-- `ackPF` writes the marker for exactly these frames. -/
theorem Link.Marks.of_ackPF {fp : Frame} {setPf : Bool} (hpf : linePF l.s.framing fp = setPf)
    (hmark : l'.p.vsAtlastPf =
      if setPf = true ∧ (sendsCommand l.s = true ∨ l.s.mode ≠ .abm ∨ l.s.pfState.fRcved = true) then
        l'.p.vs
      else l.p.vsAtlastPf) : l.Marks l' (some fp) := by
  have hrefers : l.refers fp = true ↔
      setPf = true ∧ (sendsCommand l.s = true ∨ l.s.mode ≠ .abm ∨ l.s.pfState.fRcved = true) := by
    simp [Link.refers, hpf, or_assoc]
  constructor
  · intro h
    rw [hmark, if_pos (hrefers.mp h)]
  · intro h
    have hno : l.refers fp = false := h
    rw [hmark, if_neg (mt hrefers.mpr (by rw [hno]; exact Bool.false_ne_true))]

theorem connectedTxIFrame_marks (l : Link) (flags : EvtFlags) (iSent : Bool) :
    l.Marks (connectedTxIFrame l flags iSent).link (connectedTxIFrame l flags iSent).sent := by
  rcases connectedTxIFrame_ends l flags iSent with ⟨hlink, hsent⟩ | ⟨fp, rest, -, -, hlink, hsent⟩
  · rw [hsent]
    rcases hlink with hlink | hlink <;> rw [hlink] <;> exact .of_none rfl
  · rw [hlink, hsent]
    exact .of_ackPF (transmitIFrame_reads (getAndClearFlags l flags).1 fp rest).pf rfl

theorem connectedTxSFrame_marks (l : Link) (flags : EvtFlags) (iSent : Bool)
    (take : Nat → Option Frame) :
    l.Marks (connectedTxSFrame l flags iSent take).link
      (connectedTxSFrame l flags iSent take).sent := by
  simp only [connectedTxSFrame]
  cases chooseSFrame_chooses (getAndClearFlags l flags).1 iSent take with
  | nothing hnone =>
    rw [hnone]
    exact .of_none rfl
  | frame stale sFun rejpend busy hfun hopp hsome =>
    rw [hsome]
    exact .of_ackPF (sFrameSent_emits (getAndClearFlags l flags).1 stale hfun
      (sendsCommand (getAndClearFlags l flags).1.s)).pf rfl

end Workers

namespace Endpoint

variable {e e' : Endpoint}

theorem marks_of_step {out : Option Frame} (h : e.Step out e')
    (hconn : e'.link.p.ssState.stConn = true) : e.link.Marks e'.link out := by
  cases h with
  | writeBegin octets hpc =>
    refine .of_none ?_
    show (writeBegin e.link octets).1.p.vsAtlastPf = _
    rw [writeBegin]
    split <;> rfl
  | @writeReserve remaining signalTx timedOut take hpc htake =>
    refine .of_none ?_
    show (writeReserve e.link remaining signalTx timedOut take).1.p.vsAtlastPf = _
    simp only [writeReserve]
    repeat' split
    all_goals rfl
  | @writeInsert fp remaining signalTx hpc =>
    refine .of_none ?_
    show (writeInsert e.link fp remaining signalTx).1.p.vsAtlastPf = _
    simp only [IoHdlc.writeInsert]
    repeat' split
    all_goals rfl
  | writeDone hpc => exact .of_none rfl
  | @txEntry residual flags take hpc htake hisConn hmode =>
    have hmark := connectedTxEntry_vsAtlastPf e.link flags take hconn
    refine ⟨fun h => ?_, fun _ => hmark⟩
    -- The UI frame has no P/F bit.
    cases hsent : (connectedTxEntry e.link flags take).sent with
    | none =>
      rw [hsent] at h
      cases h
    | some fp =>
      rw [hsent, Option.any_some, Link.refers, connectedTxEntry_pf fp hsent] at h
      cases h
  | txCheck hpc => exact .of_none rfl
  | txIFrame hpc => exact connectedTxIFrame_marks e.link _ _
  | txSFrame take hpc htake => exact connectedTxSFrame_marks e.link _ _ take
  | replyTimer =>
    refine .of_none ?_
    show (replyTimerExpiry e.link).p.vsAtlastPf = _
    rw [replyTimerExpiry]
    split <;> rfl
  | t3Timer =>
    refine .of_none ?_
    show (t3TimerExpiry e.link).p.vsAtlastPf = _
    rw [t3TimerExpiry]
    split <;> rfl
  | idleLine => exact .of_none rfl
  | poolState state => exact .of_none rfl
  | broadcast flags => exact .of_none rfl
  | read hq => exact .of_none rfl

/-- The place of the first frame that is not acknowledged. -/
def basePlace (e : Endpoint) : Nat := e.place 0 - e.link.p.iRetransQ.length

/-- What the places of an endpoint are, for counters that its window stands for. -/
theorem places_of_represents {fr : Framing} {ks : Nat} {log : List (List UInt8)} {c : Counters}
    (h : e.link.p.txWindow.Represents fr ks log c) (hlog : log = e.queued) :
    e.place 0 = c.next ∧ e.basePlace = c.base := by
  subst hlog
  have hretrans : c.base + e.link.p.iRetransQ.length = c.next := h.retrans_len
  have htrans : c.next + e.link.p.iTransQ.length = e.queued.length := h.trans_len
  have hplace : e.place 0 = c.next := by
    rw [place]
    omega
  exact ⟨hplace, by rw [basePlace, hplace]; omega⟩

/-- The counters of a window are places. -/
theorem WindowInv.places (h : e.WindowInv) :
    ∃ c, e.link.p.txWindow.Represents e.link.s.framing e.link.p.ks.toNat e.queued c ∧
      (∀ i, i ∈ e.sent ↔ i < c.high) ∧ c.next = e.place 0 ∧ c.base = e.basePlace := by
  obtain ⟨c, hrep, hsent⟩ := h.window
  obtain ⟨hplace, hbase⟩ := places_of_represents hrep rfl
  exact ⟨c, hrep, hsent, hplace.symm, hbase.symm⟩

end Endpoint

/-! ### Runs with their history -/

/-- An endpoint and what has happened to it. -/
structure WithRecovery where
  e : Endpoint
  /-- How many I frames were sent up to the last frame to which a checkpoint refers. -/
  pfAt : Nat
  /-- A checkpoint has moved frames since that frame, and no REJ has since then. -/
  stale : Bool
  /-- The places of the frames that the last checkpoint has moved, unless a REJ has moved frames
  since: the first one and the one behind the last. -/
  checkpoint : Option (Nat × Nat)

namespace WithRecovery

/-- A step of the workers. -/
def worked (g : WithRecovery) (out : Option Frame) (e' : Endpoint) : WithRecovery :=
  if out.any g.e.link.refers then { g with e := e', pfAt := e'.sent.length, stale := false }
  else { g with e := e' }

/-- What `handleCheckpointAndAck` makes of a frame that is received. -/
def ackOf (g : WithRecovery) (fp : Frame) : Option AckResult := (Endpoint.lineBusy g.e.link).acked fp

/-- A frame is received. -/
def received (g : WithRecovery) (fp : Frame) : WithRecovery :=
  match g.ackOf fp with
  | none => { g with e := g.e.receive fp }
  | some ack =>
    if ack.checkpointMoved then
      { g with
        e := g.e.receive fp, stale := true
        checkpoint := some ((g.e.receive fp).place 0, g.e.place 0) }
    else if ack.rejMoves fp then { g with e := g.e.receive fp, stale := false, checkpoint := none }
    else { g with e := g.e.receive fp }

/-- A step, as `Endpoint.Moves`. -/
inductive Moves (g : WithRecovery) : WithRecovery → Prop
  | works {out : Option Frame} {e' : Endpoint} (h : g.e.Step out e') : Moves g (g.worked out e')
  | receives (fp : Frame) (h : isUFrm (fp.ctrl g.e.link.s.framing 0) = false) :
    Moves g (g.received fp)
  | otherPeers (s : Station) (h : s.framing = g.e.link.s.framing) :
    Moves g { g with e := { g.e with link := { g.e.link with s := s } } }

/-- A connection that was just opened, over a fresh peer. -/
structure Fresh (g : WithRecovery) : Prop where
  opened : g.e.Opened
  vsAtlastPf : g.e.link.p.vsAtlastPf = 0
  chkptActioned : g.e.link.p.chkptActioned = 0
  pfAt : g.pfAt = 0
  stale : g.stale = false
  checkpoint : g.checkpoint = none

section Steps

variable {g g' : WithRecovery} {fp : Frame} {m : Nat}

@[simp] theorem worked_e (g : WithRecovery) (out : Option Frame) (e' : Endpoint) :
    (g.worked out e').e = e' := by
  rw [worked]
  split <;> rfl

@[simp] theorem received_e (g : WithRecovery) (fp : Frame) :
    (g.received fp).e = g.e.receive fp := by
  rw [received]
  split
  · rfl
  · split
    · rfl
    · split <;> rfl

/-- The history leaves the endpoint alone. -/
theorem Moves.endpoint (h : g.Moves g') : g.e.Moves g'.e := by
  cases h with
  | works h =>
    rw [worked_e]
    exact .works h
  | receives fp h =>
    rw [received_e]
    exact .receives fp h
  | otherPeers s h => exact .otherPeers s h

theorem windowInv_reachable (h : Reachable Fresh Moves g) (hconn : g.e.link.p.ssState.stConn = true) :
    g.e.WindowInv := by
  have hrun : Reachable Endpoint.Opened Endpoint.Moves g.e :=
    h.invariant (fun g => Reachable Endpoint.Opened Endpoint.Moves g.e) (fun _ h => .start h.opened)
      fun _ _ hrun hmove => hrun.tail hmove.endpoint
  exact Endpoint.windowInv_reachable hrun hconn

/-- What `vs_atlast_pf` stands for: it is at place `m`, and as long as it is not stale the frames
that wait for an acknowledgement and were sent later are those from `m` on. A stale marker lies
behind frames that were all sent later. -/
structure Marked (g : WithRecovery) (m : Nat) : Prop where
  word : g.e.link.p.vsAtlastPf = g.e.link.s.framing.serial.word m
  base_le : g.e.basePlace ≤ m
  sent : ∀ k, k < m → k ∈ g.e.sent
  le_next : g.stale = false → m ≤ g.e.place 0
  pfAt_le : g.pfAt ≤ g.e.sent.length
  later : ∀ k, g.e.basePlace ≤ k → k < g.e.place 0 →
    (k ∈ g.e.sent.drop g.pfAt ↔ g.stale = true ∨ m ≤ k)

theorem Fresh.marked (h : g.Fresh) : g.Marked 0 := by
  have hwindow := h.opened.txWindow
  have hplace : g.e.place 0 = 0 := by
    rw [Endpoint.place, h.opened.queued]
    exact Nat.zero_sub _
  have hbase : g.e.basePlace = 0 := by rw [Endpoint.basePlace, hplace, Nat.zero_sub]
  exact
    { word := by rw [h.vsAtlastPf, g.e.link.s.framing.serial.word_zero]
      base_le := hbase.le
      sent := fun k hk => absurd hk (Nat.not_lt_zero k)
      le_next := fun _ => Nat.zero_le _
      pfAt_le := by rw [h.pfAt]; exact Nat.zero_le _
      later := fun k _ hk => absurd hk (by omega) }

/-- A step that leaves the queues and the marker alone. -/
theorem Marked.same (h : g.Marked m) (hvs : g'.e.link.p.vsAtlastPf = g.e.link.p.vsAtlastPf)
    (hframing : g'.e.link.s.framing = g.e.link.s.framing) (hplace : g'.e.place 0 = g.e.place 0)
    (hbase : g'.e.basePlace = g.e.basePlace) (hsent : g'.e.sent = g.e.sent)
    (hpf : g'.pfAt = g.pfAt) (hstale : g'.stale = g.stale) : g'.Marked m where
  word := by rw [hvs, hframing]; exact h.word
  base_le := by rw [hbase]; exact h.base_le
  sent := by rw [hsent]; exact h.sent
  le_next := by rw [hstale, hplace]; exact h.le_next
  pfAt_le := by rw [hpf, hsent]; exact h.pfAt_le
  later := by rw [hbase, hplace, hsent, hpf, hstale]; exact h.later

/-- A frame with a P or F bit goes out: the marker is `V(S)`. -/
theorem marked_of_pf (hw : g'.e.WindowInv) (hvs : g'.e.link.p.vsAtlastPf = g'.e.link.p.vs)
    (hpf : g'.pfAt = g'.e.sent.length) (hstale : g'.stale = false) :
    g'.Marked (g'.e.place 0) := by
  obtain ⟨c, hrep, hsent, hplace, hbase⟩ := hw.places
  have hvs' : g'.e.link.p.vs = g'.e.link.s.framing.serial.word c.next := hrep.vs
  have hnext := hrep.next_le
  exact
    { word := by rw [hvs, hvs', hplace]
      base_le := by rw [← hplace, ← hbase]; exact hrep.base_le
      sent := fun k hk => (hsent k).mpr (by omega)
      le_next := fun _ => le_rfl
      pfAt_le := hpf.le
      later := fun k _ hk => by
        rw [hpf, List.drop_length, hstale]
        exact iff_of_false List.not_mem_nil fun h => by
          rcases h with h | h
          · cases h
          · omega }

/-- An I frame without such a bit goes out. -/
theorem Marked.iFrame (h : g.Marked m) (hvs : g'.e.link.p.vsAtlastPf = g.e.link.p.vsAtlastPf)
    (hframing : g'.e.link.s.framing = g.e.link.s.framing)
    (hplace : g'.e.place 0 = g.e.place 0 + 1) (hbase : g'.e.basePlace = g.e.basePlace)
    (hsent : g'.e.sent = g.e.sent ++ [g.e.place 0]) (hpf : g'.pfAt = g.pfAt)
    (hstale : g'.stale = g.stale) : g'.Marked m where
  word := by rw [hvs, hframing]; exact h.word
  base_le := by rw [hbase]; exact h.base_le
  sent := fun k hk => by
    rw [hsent]
    exact List.mem_append_left _ (h.sent k hk)
  le_next := fun hs => by
    have hm := h.le_next (hstale ▸ hs)
    omega
  pfAt_le := by
    rw [hpf, hsent, List.length_append]
    exact h.pfAt_le.trans (Nat.le_add_right ..)
  later := fun k hk hk' => by
    rw [hbase] at hk
    rw [hplace] at hk'
    rw [hpf, hsent, hstale, List.drop_append_of_le_length h.pfAt_le, List.mem_append,
      List.mem_singleton]
    by_cases hlast : k = g.e.place 0
    · subst hlast
      refine iff_of_true (.inr rfl) ?_
      cases hs : g.stale with
      | true => exact .inl rfl
      | false => exact .inr (h.le_next hs)
    · rw [or_iff_left hlast]
      exact h.later k hk (by omega)

/-- A frame that `handleCheckpointAndAck` does not get or rejects. -/
theorem receive_none (h : g.ackOf fp = none) :
    (g.e.receive fp).link.p.txWindow = g.e.link.p.txWindow ∧
      (g.e.receive fp).link.p.vsAtlastPf = g.e.link.p.vsAtlastPf := by
  rcases rxDispatch_eq (Endpoint.lineBusy g.e.link) fp with ⟨-, hrx⟩ | ⟨hreach, hrx⟩
  · simp only [Endpoint.receive, hrx]
    exact ⟨rfl, rfl⟩
  · simp only [Endpoint.receive, hrx]
    exact acked_none h hreach

/-- A frame that it acknowledges. -/
theorem receive_some {ack : AckResult} (hack : g.ackOf fp = some ack) {ks : Nat}
    {log : List (List UInt8)} {c : Counters}
    (h : ack.link.p.txWindow.Represents g.e.link.s.framing ks log c) :
    (g.e.receive fp).link.p.txWindow =
        (if ack.rejMoves fp then ack.link.p.txWindow.rewound else ack.link.p.txWindow) ∧
      (g.e.receive fp).link.p.vsAtlastPf =
        (if ack.rejMoves fp then ack.link.p.nr else ack.link.p.vsAtlastPf) := by
  rcases rxDispatch_eq (Endpoint.lineBusy g.e.link) fp with ⟨hreach, -⟩ | ⟨-, hrx⟩
  · rw [ackOf, Link.acked, hreach] at hack
    cases hack
  · simp only [Endpoint.receive, hrx]
    exact acked_some hack h

/-- Where the counters are behind it: both recoveries go back to the first frame that waits. -/
theorem receive_counters {ack : AckResult} (hack : g.ackOf fp = some ack) {ks : Nat}
    {log : List (List UInt8)} {c : Counters}
    (h : ack.link.p.txWindow.Represents g.e.link.s.framing ks log c) :
    (g.e.receive fp).link.p.txWindow.Represents g.e.link.s.framing ks log
      { c with next := if ack.rejMoves fp then c.base else c.next } := by
  rw [(receive_some hack h).1]
  split
  · exact h.rewind
  · exact h

theorem Marked.le_high {c : Counters} (h : g.Marked m) (hsent : ∀ i, i ∈ g.e.sent ↔ i < c.high) :
    m ≤ c.high := by
  cases m with
  | zero => exact Nat.zero_le _
  | succ m => exact (hsent m).mp (h.sent m (Nat.lt_succ_self m))

/-- What a received frame that is acknowledged leaves, in places. -/
theorem received_spec (hw : g.e.WindowInv) (h : g.Marked m) {ack : AckResult}
    (hack : g.ackOf fp = some ack) :
    ∃ c a, g.e.link.p.txWindow.Represents g.e.link.s.framing g.e.link.p.ks.toNat g.e.queued c ∧
      (∀ i, i ∈ g.e.sent ↔ i < c.high) ∧ c.next = g.e.place 0 ∧ c.base = g.e.basePlace ∧
      Acknowledges (Endpoint.lineBusy g.e.link) fp c m a ack ∧
      ack.link.p.txWindow.Represents g.e.link.s.framing g.e.link.p.ks.toNat g.e.queued
        { c with
          base := min a c.next
          next := if ack.checkpointMoved then min a c.next else c.next } := by
  obtain ⟨c, hrep, hsent, hplace, hbase⟩ := hw.places
  obtain ⟨a, hspec⟩ := acked_spec (l := Endpoint.lineBusy g.e.link) hrep hw.ks_lt
    (hbase ▸ h.base_le) (h.le_high hsent) h.word hack
  have hacked := hrep.ack (le_min hspec.base_le hrep.base_le) (min_le_right a c.next)
  refine ⟨c, a, hrep, hsent, hplace, hbase, hspec, ?_⟩
  rw [hspec.window]
  split
  · exact hacked.rewind
  · exact hacked

/-- Nothing waits for an acknowledgement. -/
theorem marked_of_empty (hword : g'.e.link.p.vsAtlastPf = g'.e.link.s.framing.serial.word m)
    (hempty : g'.e.basePlace = g'.e.place 0) (hbase : g'.e.basePlace ≤ m)
    (hsent : ∀ k, k < m → k ∈ g'.e.sent) (hle : g'.stale = false → m ≤ g'.e.place 0)
    (hpf : g'.pfAt ≤ g'.e.sent.length) : g'.Marked m where
  word := hword
  base_le := hbase
  sent := hsent
  le_next := hle
  pfAt_le := hpf
  later := fun k hk hk' => absurd hk' (by omega)

theorem received_marked (hw : g.e.WindowInv) (h : g.Marked m) : ∃ m', (g.received fp).Marked m' := by
  cases hack : g.ackOf fp with
  | none =>
    obtain ⟨hwindow, hvs⟩ := receive_none hack
    have htrans : (g.e.receive fp).link.p.iTransQ = g.e.link.p.iTransQ :=
      congrArg TxWindow.iTransQ hwindow
    have hretrans : (g.e.receive fp).link.p.iRetransQ = g.e.link.p.iRetransQ :=
      congrArg TxWindow.iRetransQ hwindow
    have hplace : (g.e.receive fp).place 0 = g.e.place 0 := by
      rw [Endpoint.place, htrans]
      rfl
    refine ⟨m, ?_⟩
    rw [received, hack]
    refine h.same hvs (Endpoint.receive_keeps g.e fp).framing hplace ?_ rfl rfl rfl
    rw [Endpoint.basePlace, Endpoint.basePlace, hplace, hretrans]
  | some ack =>
    obtain ⟨c, a, hrep, hsent, hplace, hbase, hspec, hack'⟩ := received_spec hw h hack
    obtain ⟨-, hvs⟩ := receive_some hack hack'
    have hcounters := receive_counters hack hack'
    have hfr : (g.e.receive fp).link.s.framing = g.e.link.s.framing :=
      (Endpoint.receive_keeps g.e fp).framing
    have hnext := hrep.next_le
    have hm := h.le_high hsent
    have hsent' : ∀ k, k < max m (min a c.next) → k ∈ g.e.sent := fun k hk =>
      (hsent k).mpr (by omega)
    cases hmoved : ack.checkpointMoved with
    | true =>
      have hempty : ack.link.p.iRetransQ = [] := by
        have hq := congrArg TxWindow.iRetransQ hspec.window
        rwa [hmoved, if_pos rfl] at hq
      have hno : ack.rejMoves fp = false := by simp [AckResult.rejMoves, hempty]
      rw [hno, if_neg Bool.false_ne_true] at hvs
      rw [hno, hmoved, if_neg Bool.false_ne_true, if_pos rfl] at hcounters
      obtain ⟨hplace', hbase'⟩ := Endpoint.places_of_represents hcounters rfl
      refine ⟨max m (min a c.next), ?_⟩
      simp only [received, hack, hmoved, if_true]
      refine marked_of_empty ?_ (hbase'.trans hplace'.symm) ?_ hsent' (by simp) h.pfAt_le
      · exact hvs.trans (hspec.vsAtlastPf.trans (by rw [hfr]; rfl))
      · exact hbase'.le.trans (le_max_right ..)
    | false =>
      cases hrej : ack.rejMoves fp with
      | true =>
        rw [hrej, if_pos rfl] at hvs
        rw [hrej, if_pos rfl] at hcounters
        obtain ⟨hplace', hbase'⟩ := Endpoint.places_of_represents hcounters rfl
        have hnr : ack.link.p.nr = g.e.link.s.framing.serial.word (min a c.next) := hack'.nr
        refine ⟨min a c.next, ?_⟩
        simp only [received, hack, hmoved, hrej, if_true, Bool.false_eq_true, if_false]
        refine marked_of_empty ?_ (hbase'.trans hplace'.symm) hbase'.le
          (fun k hk => hsent' k (by omega)) (fun _ => hplace'.ge) h.pfAt_le
        exact hvs.trans (hnr.trans (by rw [hfr]))
      | false =>
        rw [hrej, if_neg Bool.false_ne_true] at hvs
        rw [hrej, hmoved, if_neg Bool.false_ne_true, if_neg Bool.false_ne_true] at hcounters
        obtain ⟨hplace', hbase'⟩ := Endpoint.places_of_represents hcounters rfl
        refine ⟨max m (min a c.next), ?_⟩
        simp only [received, hack, hmoved, hrej, Bool.false_eq_true, if_false]
        have hle_next (hs : g.stale = false) : m ≤ c.next := hplace ▸ h.le_next hs
        exact
          { word := hvs.trans (hspec.vsAtlastPf.trans (by rw [hfr]; rfl))
            base_le := hbase'.le.trans (le_max_right ..)
            sent := hsent'
            le_next := fun hs => by
              have := hle_next hs
              show max m (min a c.next) ≤ (g.e.receive fp).place 0
              rw [hplace']
              exact max_le this (min_le_right ..)
            pfAt_le := h.pfAt_le
            later := fun k hk hk' => by
              change (g.e.receive fp).basePlace ≤ k at hk
              change k < (g.e.receive fp).place 0 at hk'
              rw [hbase'] at hk
              rw [hplace'] at hk'
              dsimp only at hk hk'
              have hold := h.later k (by have := hrep.base_le; have := hspec.base_le; omega) (by omega)
              show k ∈ g.e.sent.drop g.pfAt ↔ _
              rw [hold, max_le_iff, and_iff_left hk] }

/-- The invariant of a connected peer with its history. -/
structure Inv (g : WithRecovery) : Prop where
  window : g.e.WindowInv
  marked : ∃ m, g.Marked m

theorem worked_inv {out : Option Frame} {e' : Endpoint}
    (h : g.e.link.p.ssState.stConn = true → g.Inv) (hstep : g.e.Step out e')
    (hw : e'.WindowInv) (hconn : e'.link.p.ssState.stConn = true) :
    ∃ m, (g.worked out e').Marked m := by
  have hmarks := Endpoint.marks_of_step hstep hconn
  -- A frame with a P or F bit sets the marker, whatever was there.
  cases hrefers : out.any g.e.link.refers with
  | true =>
    refine ⟨e'.place 0, ?_⟩
    rw [worked, hrefers, if_pos rfl]
    exact marked_of_pf hw (hmarks.set hrefers) rfl rfl
  | false =>
    have hvs := hmarks.kept hrefers
    rw [worked, hrefers, if_neg Bool.false_ne_true]
    cases Endpoint.effect_of_step hstep with
    | quiet link queued delivered sent writer hout idle =>
      obtain ⟨m, hm⟩ := (h (link.stConn.symm.trans hconn)).marked
      have htrans : e'.link.p.iTransQ = g.e.link.p.iTransQ :=
        congrArg TxWindow.iTransQ link.txWindow
      have hretrans : e'.link.p.iRetransQ = g.e.link.p.iRetransQ :=
        congrArg TxWindow.iRetransQ link.txWindow
      have hplace : e'.place 0 = g.e.place 0 := by
        rw [Endpoint.place, Endpoint.place, htrans, queued]
      refine ⟨m, hm.same hvs link.framing hplace ?_ sent rfl rfl⟩
      show e'.basePlace = g.e.basePlace
      rw [Endpoint.basePlace, Endpoint.basePlace, hplace, hretrans]
    | @insert fp remaining signalTx writer conn hout he' =>
      obtain ⟨m, hm⟩ := (h conn).marked
      have hplace : e'.place 0 = g.e.place 0 := by
        rw [Endpoint.place, Endpoint.place, he', List.length_append, List.length_append]
        exact congrArg (· + 0) (Nat.add_sub_add_right ..)
      refine ⟨m, hm.same hvs (by rw [he']) hplace ?_ (by rw [he']) rfl rfl⟩
      show e'.basePlace = g.e.basePlace
      rw [Endpoint.basePlace, Endpoint.basePlace, hplace, he']
    | @iFrame fp fp' rest link hout active queued delivered sent writer =>
      have hinv := h (link.stConn.symm.trans hconn)
      obtain ⟨m, hm⟩ := hinv.marked
      obtain ⟨c, hrep, -, hnext, hbase⟩ := hinv.window.places
      have hlen : c.next + g.e.link.p.iTransQ.length = g.e.queued.length := hrep.trans_len
      have hretrans : e'.link.p.iRetransQ = g.e.link.p.iRetransQ ++ [fp'] :=
        congrArg TxWindow.iRetransQ link.txWindow
      have htrans : e'.link.p.iTransQ = rest := congrArg TxWindow.iTransQ link.txWindow
      rw [link.head, List.length_cons] at hlen
      have hplace : e'.place 0 = g.e.place 0 + 1 := by
        rw [← hnext, Endpoint.place, htrans, queued]
        omega
      refine ⟨m, hm.iFrame hvs link.framing hplace ?_ sent rfl rfl⟩
      show e'.basePlace = g.e.basePlace
      rw [Endpoint.basePlace, Endpoint.basePlace, hplace, hretrans, List.length_append]
      exact Nat.add_sub_add_right ..
    | aborted link conn idle hout queued delivered =>
      exact absurd (link.stConn.symm.trans hconn) Bool.false_ne_true

theorem inv_moves (h : g.e.link.p.ssState.stConn = true → g.Inv) (hm : g.Moves g')
    (hconn : g'.e.link.p.ssState.stConn = true) : g'.Inv := by
  have hw := Endpoint.windowInv_moves (fun hc => (h hc).window) hm.endpoint hconn
  refine ⟨hw, ?_⟩
  cases hm with
  | works hstep =>
    rw [worked_e] at hw hconn
    exact worked_inv h hstep hw hconn
  | receives fp hu =>
    rw [received_e] at hconn
    have hinv := h ((Endpoint.receive_keeps g.e fp).stConn.symm.trans hconn)
    obtain ⟨m, hmark⟩ := hinv.marked
    exact received_marked hinv.window hmark
  | otherPeers s hs =>
    obtain ⟨m, hmark⟩ := (h hconn).marked
    exact ⟨m, hmark.same rfl hs rfl rfl rfl rfl rfl⟩

/-- In every state that a run reaches the marker of a connected peer is in order. -/
theorem inv_reachable (h : Reachable Fresh Moves g) (hconn : g.e.link.p.ssState.stConn = true) :
    g.Inv :=
  h.invariant (fun g => g.e.link.p.ssState.stConn = true → g.Inv)
    (fun _ hfresh _ => ⟨hfresh.opened.windowInv, 0, hfresh.marked⟩) (fun _ _ => inv_moves) hconn

end Steps

end WithRecovery

end IoHdlc
