import IoHdlc.Core.Link
import IoHdlc.Kit.SerialNumber

/-!
The transmit window of a peer: `V(S)`, the acknowledged N(R), the highest `V(S)`
and the two queues.

`Represents` says which stretch of the queued payloads the window stands for:
`iRetransQ` holds the frames from `base` to `next`, `iTransQ` the ones behind
them, and those before `high` have been sent and carry their number. Each
function that touches the window has one lemma about the counters it leaves.
-/

namespace IoHdlc

open Kit

/-! ### Acknowledgement and checkpoint -/

def isNRValid (s : Station) (p : Peer) (nr : UInt32) : Bool :=
  let nrOffset := (nr - p.nr) &&& s.framing.modmask
  let vsOffset := (p.vsHighest - p.nr) &&& s.framing.modmask
  nrOffset ≤ vsOffset

/-- The loop of `processNR`; the last argument is what is left of `iRetransQ`. -/
def processNRLoop (s : Station) (nr : UInt32) (p : Peer) : List Frame → Peer × Bool
  | [] => ({ p with iRetransQ := [] }, false)
  | ackedFp :: q =>
    if p.nr = nr then ({ p with iRetransQ := ackedFp :: q }, false)
    else
      let ackedNs := extractNS s.framing ackedFp
      let p := { p with
        iPendingCount := p.iPendingCount - 1
        nr := (p.nr + 1) &&& s.framing.modmask
        vsAtlastPf :=
          if ackedNs = p.vsAtlastPf then (p.vsAtlastPf + 1) &&& s.framing.modmask
          else p.vsAtlastPf }
      ((processNRLoop s nr p q).1, true)

/-- The peer, and whether frames were released. -/
def processNR (s : Station) (p : Peer) (nr : UInt32) : Peer × Bool :=
  let r := processNRLoop s nr p p.iRetransQ
  ({ r.1 with
    t3Tmr :=
      if iFrameReplyTimerUsed s && r.1.nr = r.1.t3ExpectedNr then r.1.t3Tmr.reset else r.1.t3Tmr },
    r.2)

/-- The scan of `checkpointRetransmit`: N(S) + 1 of the first frame to send
again, or 0. -/
def checkpointScan (fr : Framing) (vsAtlastPf firstNs : UInt32) : List Frame → UInt32
  | [] => firstNs
  | fp :: q =>
    let frameNs := extractNS fr fp
    if frameNs = vsAtlastPf then firstNs
    else checkpointScan fr vsAtlastPf (if firstNs = 0 then frameNs + 1 else firstNs) q

/-- `ioHdlc_frameq_move` of all of `iRetransQ` to the head of `iTransQ`. -/
def moveRetransQ (p : Peer) : Peer :=
  { p with iTransQ := p.iRetransQ ++ p.iTransQ, iRetransQ := [] }

/-- The peer, and whether frames were moved. -/
def checkpointRetransmit (s : Station) (p : Peer) : Peer × Bool :=
  let firstNs := checkpointScan s.framing p.vsAtlastPf 0 p.iRetransQ
  if firstNs ≠ 0 then
    ({ moveRetransQ p with chkptActioned := firstNs, vs := firstNs - 1 }, true)
  else (p, false)

/-! ### The window and the payloads it stands for -/

/-- The sequence numbers of a framing. -/
def Framing.serial (fr : Framing) : SerialSpace :=
  { mask := fr.modmask
    bits := if fr.modmask = 7 then 3 else 7
    mask_eq := by rcases fr.layout with ⟨h, -⟩ | ⟨h, -⟩ <;> rw [h] <;> decide
    bits_le := by split <;> decide }

@[simp] theorem Framing.serial_mask (fr : Framing) : fr.serial.mask = fr.modmask := rfl

theorem Framing.modulus_serial (fr : Framing) : fr.serial.modulus = fr.modmask.toNat + 1 := by
  rw [← fr.serial_mask, fr.serial.mask_eq, SerialSpace.modulus]
  have := Nat.two_pow_pos fr.serial.bits
  omega

/-- The information field of a frame, as `ioHdlcReadVTmo` takes it. -/
def Frame.payload (fr : Framing) (fp : Frame) : List UInt8 :=
  fp.frame.slice (fr.frameOffset + 1 + fr.ctrlSize)
    (fp.elen - (fr.frameOffset + 1 + fr.ctrlSize))

theorem Frame.payload_congr {fr : Framing} {fp fp' : Frame} (helen : fp'.elen = fp.elen)
    (h : ∀ i, fr.frameOffset + 1 + fr.ctrlSize ≤ i → fp'.frame i = fp.frame i) :
    fp'.payload fr = fp.payload fr := by
  rw [payload, payload, helen]
  exact Buffer.slice_congr fun i hi _ => h i hi

theorem payload_prepareIFrameHeader (s : Station) (fp : Frame) (addr : UInt8)
    (nsSeed nr : UInt32) (setPf : Bool) :
    (prepareIFrameHeader s fp addr nsSeed nr setPf).1.payload s.framing = fp.payload s.framing :=
  Frame.payload_congr (prepareIFrameHeader_elen ..)
    fun _ hi => frame_prepareIFrameHeader _ _ _ _ _ _ hi

/-- The fields of a peer that make up its transmit window. -/
structure TxWindow where
  nr : UInt32
  vs : UInt32
  vsHighest : UInt32
  iRetransQ : List Frame
  iTransQ : List Frame
  iPendingCount : UInt32

def Peer.txWindow (p : Peer) : TxWindow :=
  { nr := p.nr, vs := p.vs, vsHighest := p.vsHighest, iRetransQ := p.iRetransQ,
    iTransQ := p.iTransQ, iPendingCount := p.iPendingCount }

/-- The counters behind the sequence variables. -/
structure Counters where
  base : Nat
  next : Nat
  high : Nat

/-- Consecutive frames carry the consecutive payloads from position `n` on; the
ones before position `high` have a header with their number, the others none. -/
def Carry (fr : Framing) (log : List (List UInt8)) (high : Nat) : Nat → List Frame → Prop
  | _, [] => True
  | n, fp :: q =>
    (log[n]? = some (fp.payload fr) ∧ headerStamped fr fp = decide (n < high) ∧
      (n < high → extractNS fr fp = fr.serial.word n)) ∧ Carry fr log high (n + 1) q

/-- A window that stands for the payloads of `log` behind `c.base`. -/
structure TxWindow.Represents (fr : Framing) (ks : Nat) (log : List (List UInt8)) (c : Counters)
    (w : TxWindow) : Prop where
  nr : w.nr = fr.serial.word c.base
  vs : w.vs = fr.serial.word c.next
  vsHighest : w.vsHighest = fr.serial.word c.high
  base_le : c.base ≤ c.next
  next_le : c.next ≤ c.high
  high_le : c.high ≤ c.base + ks
  retrans_len : c.base + w.iRetransQ.length = c.next
  trans_len : c.next + w.iTransQ.length = log.length
  high_le_log : c.high ≤ log.length
  retrans : Carry fr log c.high c.base w.iRetransQ
  trans : Carry fr log c.high c.next w.iTransQ
  pending : w.iPendingCount.toNat = w.iRetransQ.length + w.iTransQ.length

section Carry

variable {fr : Framing} {log : List (List UInt8)} {high n : Nat} {fp : Frame} {q : List Frame}

theorem Carry.append {q' : List Frame} (h : Carry fr log high n q)
    (h' : Carry fr log high (n + q.length) q') : Carry fr log high n (q ++ q') := by
  induction q generalizing n with
  | nil => exact h'
  | cons fp q ih =>
    refine ⟨h.1, ih h.2 ?_⟩
    rwa [List.length_cons, ← Nat.add_assoc, Nat.add_right_comm] at h'

/-- Queueing one more payload. -/
theorem Carry.enqueue {x : List UInt8} (h : Carry fr log high n q) : Carry fr (log ++ [x]) high n q := by
  induction q generalizing n with
  | nil => trivial
  | cons fp q ih =>
    obtain ⟨⟨hlog, hrest⟩, htail⟩ := h
    obtain ⟨hlt, -⟩ := List.getElem?_eq_some_iff.mp hlog
    exact ⟨⟨by rwa [List.getElem?_append_left hlt], hrest⟩, ih htail⟩

/-- Frames behind the new highest number are not affected by it. -/
theorem Carry.raise (h : Carry fr log high n q) {high' : Nat} (hle : high ≤ high')
    (hn : high' ≤ n ∨ high = high') : Carry fr log high' n q := by
  rcases hn with hn | rfl
  · induction q generalizing n with
    | nil => trivial
    | cons fp q ih =>
      obtain ⟨⟨hlog, hst, -⟩, htail⟩ := h
      refine ⟨⟨hlog, ?_, fun hlt => by omega⟩, ih htail (by omega)⟩
      rw [hst, decide_eq_false (by omega), decide_eq_false (by omega)]
  · exact h

/-- Frames before the highest number keep theirs when it grows. -/
theorem Carry.raise_before (h : Carry fr log high n q) {high' : Nat} (hle : high ≤ high')
    (hn : n + q.length ≤ high) : Carry fr log high' n q := by
  induction q generalizing n with
  | nil => trivial
  | cons fp q ih =>
    rw [List.length_cons] at hn
    obtain ⟨⟨hlog, hst, hns⟩, htail⟩ := h
    refine ⟨⟨hlog, ?_, fun _ => hns (by omega)⟩, ih htail (by omega)⟩
    rw [hst, decide_eq_true (by omega), decide_eq_true (by omega)]

theorem Carry.drop (h : Carry fr log high n q) (k : Nat) :
    Carry fr log high (n + k) (q.drop k) := by
  induction k generalizing n q with
  | zero => exact h
  | succ k ih =>
    cases q with
    | nil => trivial
    | cons fp q =>
      rw [List.drop_succ_cons, Nat.add_comm k 1, ← Nat.add_assoc]
      exact ih h.2

theorem Carry.get (h : Carry fr log high n q) {i : Nat} (hi : q[i]? = some fp) :
    log[n + i]? = some (fp.payload fr) ∧ headerStamped fr fp = decide (n + i < high) ∧
      (n + i < high → extractNS fr fp = fr.serial.word (n + i)) := by
  induction q generalizing n i with
  | nil => cases hi
  | cons fp₀ q ih =>
    cases i with
    | zero =>
      rw [List.getElem?_cons_zero, Option.some_inj] at hi
      subst hi
      exact h.1
    | succ i =>
      rw [List.getElem?_cons_succ] at hi
      rw [Nat.add_comm i 1, ← Nat.add_assoc]
      exact ih h.2 hi

end Carry

/-! ### What the functions do to the counters -/

section Functions

variable {s : Station} {p : Peer} {nr : UInt32}

/-- The loop of `processNR` in terms of counters: it stops at `a` or at the end of
the queue. -/
theorem processNRLoop_eq {base a : Nat} (hle : base ≤ a)
    (hnear : a - base < s.framing.serial.modulus) (hnr : nr = s.framing.serial.word a)
    (q : List Frame) (p : Peer) (hp : p.nr = s.framing.serial.word base) :
    ∃ v, (processNRLoop s nr p q).1 =
      { p with
        nr := s.framing.serial.word (min a (base + q.length))
        iRetransQ := q.drop (min a (base + q.length) - base)
        iPendingCount := p.iPendingCount - UInt32.ofNat (min a (base + q.length) - base)
        vsAtlastPf := v } := by
  induction q generalizing base p with
  | nil =>
    refine ⟨p.vsAtlastPf, ?_⟩
    rw [processNRLoop, List.length_nil, Nat.add_zero, min_eq_right hle, Nat.sub_self, ← hp]
    simp
  | cons fp q ih =>
    by_cases heq : p.nr = nr
    · have hba : base = a := by
        rw [hp, hnr] at heq
        exact s.framing.serial.eq_of_word_eq heq (by omega) (by omega)
      refine ⟨p.vsAtlastPf, ?_⟩
      rw [processNRLoop, if_pos heq, hba, min_eq_left (Nat.le_add_right ..), Nat.sub_self, ← hba, ← hp]
      simp
    · have hlt : base < a := by
        refine lt_of_le_of_ne hle fun h => heq ?_
        rw [hp, hnr, h]
      rw [processNRLoop, if_neg heq]
      obtain ⟨v, hv⟩ := @ih (base + 1) (by omega) (by omega)
        { p with
          iPendingCount := p.iPendingCount - 1
          nr := (p.nr + 1) &&& s.framing.modmask
          vsAtlastPf :=
            if extractNS s.framing fp = p.vsAtlastPf then (p.vsAtlastPf + 1) &&& s.framing.modmask
            else p.vsAtlastPf }
        (by dsimp only; rw [hp, ← s.framing.serial_mask, s.framing.serial.word_add_one])
      refine ⟨v, ?_⟩
      dsimp only at hv ⊢
      rw [hv]
      generalize hm : min a (base + 1 + q.length) = m at *
      have hm' : min a (base + (fp :: q).length) = m := by
        rw [List.length_cons, ← hm]
        congr 1
        omega
      have hge : base + 1 ≤ m := by rw [← hm]; exact le_min hlt (by omega)
      obtain ⟨k, rfl⟩ := Nat.exists_eq_add_of_le hge
      rw [hm', show base + 1 + k - base = k + 1 by omega, show base + 1 + k - (base + 1) = k by omega,
        List.drop_succ_cons]
      congr 1
      have hsub (x y : UInt32) : x - 1 - y = x - (y + 1) := by grind
      rw [hsub, UInt32.ofNat_add]
      rfl

/-- Whatever the window, `processNR` changes no other part of the peer. -/
theorem processNRLoop_fields (s : Station) (nr : UInt32) (p : Peer) (q : List Frame) :
    ∃ x q' n v, (processNRLoop s nr p q).1 =
      { p with nr := x, iRetransQ := q', iPendingCount := n, vsAtlastPf := v } := by
  induction q generalizing p with
  | nil => exact ⟨p.nr, [], p.iPendingCount, p.vsAtlastPf, rfl⟩
  | cons fp q ih =>
    rw [processNRLoop]
    split
    · exact ⟨p.nr, fp :: q, p.iPendingCount, p.vsAtlastPf, rfl⟩
    · obtain ⟨x, q', n, v, h⟩ := ih { p with
        iPendingCount := p.iPendingCount - 1
        nr := (p.nr + 1) &&& s.framing.modmask
        vsAtlastPf :=
          if extractNS s.framing fp = p.vsAtlastPf then (p.vsAtlastPf + 1) &&& s.framing.modmask
          else p.vsAtlastPf }
      exact ⟨x, q', n, v, h⟩

theorem processNR_fields (s : Station) (p : Peer) (nr : UInt32) :
    ∃ x q n v t, (processNR s p nr).1 =
      { p with nr := x, iRetransQ := q, iPendingCount := n, vsAtlastPf := v, t3Tmr := t } := by
  obtain ⟨x, q, n, v, h⟩ := processNRLoop_fields s nr p p.iRetransQ
  exact ⟨x, q, n, v, _, by rw [processNR, h]⟩

/-- Whatever the queue, `checkpointRetransmit` moves all of it or nothing. -/
theorem checkpointRetransmit_fields (s : Station) (p : Peer) :
    checkpointRetransmit s p = (p, false) ∨
      ∃ x, checkpointRetransmit s p =
        ({ moveRetransQ p with chkptActioned := x, vs := x - 1 }, true) := by
  simp only [checkpointRetransmit]
  split
  · exact .inr ⟨_, rfl⟩
  · exact .inl rfl

theorem checkpointScan_ne (fr : Framing) (v : UInt32) {f : UInt32} (hf : f ≠ 0) (q : List Frame) :
    checkpointScan fr v f q = f := by
  induction q with
  | nil => rfl
  | cons fp q ih =>
    rw [checkpointScan, if_neg hf]
    split
    · rfl
    · exact ih

end Functions

/-! ### The operations keep the representation -/

namespace TxWindow

variable {fr : Framing} {ks : Nat} {log : List (List UInt8)} {c : Counters} {w : TxWindow}

/-- Everything before position `m` is acknowledged. -/
def acked (fr : Framing) (c : Counters) (m : Nat) (w : TxWindow) : TxWindow :=
  { w with
    nr := fr.serial.word m
    iRetransQ := w.iRetransQ.drop (m - c.base)
    iPendingCount := w.iPendingCount - UInt32.ofNat (m - c.base) }

/-- The frames in `iRetransQ` are to be sent again. -/
def rewound (w : TxWindow) : TxWindow :=
  { w with iTransQ := w.iRetransQ ++ w.iTransQ, iRetransQ := [], vs := w.nr }

/-- A payload is queued. -/
def inserted (w : TxWindow) (fp : Frame) : TxWindow :=
  { w with iTransQ := w.iTransQ ++ [fp], iPendingCount := w.iPendingCount + 1 }

/-- The head of `iTransQ` was sent as `fp` and `rest` is behind it. -/
def sent (fr : Framing) (w : TxWindow) (fp : Frame) (rest : List Frame) : TxWindow :=
  { w with
    iTransQ := rest
    iRetransQ := w.iRetransQ ++ [fp]
    vsHighest := if w.vs = w.vsHighest then (w.vs + 1) &&& fr.modmask else w.vsHighest
    vs := (w.vs + 1) &&& fr.modmask }

/-- Both queues and all counters are empty. -/
def empty : TxWindow :=
  { nr := 0, vs := 0, vsHighest := 0, iRetransQ := [], iTransQ := [], iPendingCount := 0 }

theorem represents_empty (fr : Framing) (ks : Nat) :
    empty.Represents fr ks [] { base := 0, next := 0, high := 0 } := by
  have hword := fr.serial.word_zero
  constructor <;> simp [empty, Carry, hword]

theorem Represents.ack (h : w.Represents fr ks log c) {m : Nat} (hb : c.base ≤ m)
    (hn : m ≤ c.next) : (w.acked fr c m).Represents fr ks log { c with base := m } := by
  have hlen := h.retrans_len
  have hpend := h.pending
  have hlt := w.iPendingCount.toNat_lt
  have hk : (UInt32.ofNat (m - c.base)).toNat = m - c.base := by
    rw [UInt32.toNat_ofNat']
    exact Nat.mod_eq_of_lt (by omega)
  have hcarry := h.retrans.drop (m - c.base)
  rw [Nat.add_sub_cancel' hb] at hcarry
  exact
    { h with
      nr := rfl
      base_le := hn
      high_le := by
        have := h.high_le
        show c.high ≤ m + ks
        omega
      retrans_len := by
        show m + (w.iRetransQ.drop (m - c.base)).length = c.next
        rw [List.length_drop]
        omega
      retrans := hcarry
      pending := by
        show (w.iPendingCount - UInt32.ofNat (m - c.base)).toNat =
          (w.iRetransQ.drop (m - c.base)).length + w.iTransQ.length
        rw [UInt32.toNat_sub_of_le _ _ (UInt32.le_iff_toNat_le.mpr (by omega)), hk, List.length_drop]
        omega }

theorem Represents.rewind (h : w.Represents fr ks log c) :
    w.rewound.Represents fr ks log { c with next := c.base } := by
  have hlen := h.retrans_len
  have htrans := h.trans_len
  have hpend := h.pending
  exact
    { h with
      vs := h.nr
      base_le := le_rfl
      next_le := h.base_le.trans h.next_le
      retrans_len := rfl
      trans_len := by
        show c.base + (w.iRetransQ ++ w.iTransQ).length = log.length
        rw [List.length_append]
        omega
      retrans := trivial
      trans := h.retrans.append (by rw [hlen]; exact h.trans)
      pending := by
        show w.iPendingCount.toNat = 0 + (w.iRetransQ ++ w.iTransQ).length
        rw [List.length_append, hpend, Nat.zero_add] }

theorem Represents.insert (h : w.Represents fr ks log c) {fp : Frame}
    (hst : headerStamped fr fp = false) (hpend : w.iPendingCount.toNat + 1 < 2 ^ 32) :
    (w.inserted fp).Represents fr ks (log ++ [fp.payload fr]) c := by
  have htrans := h.trans_len
  have hhigh := h.high_le_log
  exact
    { h with
      trans_len := by
        show c.next + (w.iTransQ ++ [fp]).length = (log ++ [fp.payload fr]).length
        rw [List.length_append, List.length_append, List.length_singleton, List.length_singleton]
        omega
      high_le_log := by
        rw [List.length_append]
        omega
      retrans := h.retrans.enqueue
      trans := by
        refine h.trans.enqueue.append ⟨⟨?_, ?_, fun hlt => ?_⟩, trivial⟩
        · rw [htrans]
          exact List.getElem?_concat_length
        · rw [hst, decide_eq_false]
          omega
        · omega
      pending := by
        have := h.pending
        show (w.iPendingCount + 1).toNat = w.iRetransQ.length + (w.iTransQ ++ [fp]).length
        rw [UInt32.toNat_add, UInt32.toNat_one, Nat.mod_eq_of_lt hpend, List.length_append,
          List.length_singleton]
        omega }

/-- The frame that is sent carries the payload at `next` and now its number. -/
theorem Represents.send (h : w.Represents fr ks log c) (hks : ks < fr.serial.modulus)
    (hroom : c.next < c.base + ks) {fp fp' : Frame} {rest : List Frame}
    (hq : w.iTransQ = fp :: rest) (hpay : fp'.payload fr = fp.payload fr)
    (hst : headerStamped fr fp' = true)
    (hns : extractNS fr fp' = fr.serial.word c.next) :
    (w.sent fr fp' rest).Represents fr ks log
      { c with next := c.next + 1, high := max c.high (c.next + 1) } := by
  have hlen := h.retrans_len
  have htrans := h.trans_len
  have hbase := h.base_le
  have hnext := h.next_le
  have hhigh := h.high_le
  have hcarry := h.trans
  rw [hq] at hcarry htrans
  rw [List.length_cons] at htrans
  obtain ⟨⟨hlog, -, -⟩, hrest⟩ := hcarry
  have hvs : (w.vs + 1) &&& fr.modmask = fr.serial.word (c.next + 1) := by
    rw [h.vs, ← fr.serial_mask, fr.serial.word_add_one]
  have hwords : w.vs = w.vsHighest ↔ c.next = c.high := by
    rw [h.vs, h.vsHighest]
    exact fr.serial.word_eq_iff_of_near (by omega) (by omega)
  have hmax : c.high ≤ max c.high (c.next + 1) := le_max_left ..
  constructor
  · exact h.nr
  · exact hvs
  · show (if w.vs = w.vsHighest then (w.vs + 1) &&& fr.modmask else w.vsHighest) =
      fr.serial.word (max c.high (c.next + 1))
    by_cases heq : c.next = c.high
    · rw [if_pos (hwords.mpr heq), hvs, max_eq_right (by omega)]
    · rw [if_neg (mt hwords.mp heq), max_eq_left (by omega), h.vsHighest]
  · show c.base ≤ c.next + 1
    omega
  · exact le_max_right ..
  · exact max_le hhigh hroom
  · show c.base + (w.iRetransQ ++ [fp']).length = c.next + 1
    rw [List.length_append, List.length_singleton]
    omega
  · show c.next + 1 + rest.length = log.length
    omega
  · exact max_le h.high_le_log (by omega)
  · refine (h.retrans.raise_before hmax (by omega)).append ⟨⟨?_, ?_, fun _ => ?_⟩, trivial⟩
    · rw [hlen, hpay]
      exact hlog
    · rw [hst, eq_comm, decide_eq_true_eq]
      show c.base + w.iRetransQ.length < max c.high (c.next + 1)
      rw [hlen]
      exact lt_of_lt_of_le (Nat.lt_succ_self _) (le_max_right ..)
    · rw [hlen]
      exact hns
  · refine hrest.raise hmax ?_
    rcases Nat.lt_or_ge c.next c.high with hlt | hge
    · exact .inr (max_eq_left hlt).symm
    · exact .inl (max_le (hge.trans (Nat.le_succ _)) le_rfl)
  · show w.iPendingCount.toNat = (w.iRetransQ ++ [fp']).length + rest.length
    rw [h.pending, hq, List.length_append, List.length_singleton, List.length_cons]
    omega

end TxWindow

/-! ### The functions in terms of the operations -/

section Operations

variable {s : Station} {p : Peer} {ks : Nat} {log : List (List UInt8)} {c : Counters}

theorem processNR_txWindow (h : p.txWindow.Represents s.framing ks log c)
    (hks : ks < s.framing.serial.modulus) {a : Nat} (hb : c.base ≤ a) (ha : a ≤ c.high) :
    (processNR s p (s.framing.serial.word a)).1.txWindow =
      p.txWindow.acked s.framing c (min a c.next) := by
  have hlen : c.base + p.iRetransQ.length = c.next := h.retrans_len
  have hhigh := h.high_le
  obtain ⟨v, hv⟩ := processNRLoop_eq (s := s) hb (by omega) rfl p.iRetransQ p h.nr
  rw [hlen] at hv
  simp only [processNR, hv]
  rfl

/-- The N(R) of the counters from `base` to `high` are valid. -/
theorem isNRValid_word (h : p.txWindow.Represents s.framing ks log c)
    (hks : ks < s.framing.serial.modulus) {a : Nat} (hb : c.base ≤ a) (ha : a ≤ c.high) :
    isNRValid s p (s.framing.serial.word a) = true := by
  have hhigh := h.high_le
  have hnr : p.nr = s.framing.serial.word c.base := h.nr
  have hvh : p.vsHighest = s.framing.serial.word c.high := h.vsHighest
  simp only [isNRValid, hnr, hvh, ← s.framing.serial_mask, decide_eq_true_eq,
    UInt32.le_iff_toNat_le]
  rw [s.framing.serial.toNat_word_sub hb (by omega),
    s.framing.serial.toNat_word_sub (hb.trans ha) (by omega)]
  omega

/-- No other N(R) is. -/
theorem exists_of_isNRValid (h : p.txWindow.Represents s.framing ks log c)
    (hks : ks < s.framing.serial.modulus) {nr : UInt32} (hmask : nr &&& s.framing.modmask = nr)
    (hvalid : isNRValid s p nr = true) :
    ∃ a, c.base ≤ a ∧ a ≤ c.high ∧ nr = s.framing.serial.word a := by
  have hhigh := h.high_le
  have hbh := h.base_le.trans h.next_le
  have hnr : p.nr = s.framing.serial.word c.base := h.nr
  have hvh : p.vsHighest = s.framing.serial.word c.high := h.vsHighest
  simp only [isNRValid, hnr, hvh, ← s.framing.serial_mask, decide_eq_true_eq,
    UInt32.le_iff_toNat_le] at hvalid hmask
  rw [s.framing.serial.toNat_word_sub hbh (by omega)] at hvalid
  exact ⟨_, Nat.le_add_right .., by omega, (s.framing.serial.word_add_sub hmask c.base).symm⟩

/-- The first frame of `iRetransQ` carries `base`. -/
theorem extractNS_retransQ (h : p.txWindow.Represents s.framing ks log c) {fp : Frame}
    {q : List Frame} (hq : p.iRetransQ = fp :: q) : extractNS s.framing fp = p.nr := by
  have hcarry : Carry s.framing log c.high c.base p.iRetransQ := h.retrans
  have hlen : c.base + p.iRetransQ.length = c.next := h.retrans_len
  have hnext := h.next_le
  have hnr : p.nr = s.framing.serial.word c.base := h.nr
  rw [hq, List.length_cons] at hlen
  rw [hq] at hcarry
  rw [hnr]
  exact hcarry.1.2.2 (by omega)

/-- A checkpoint sends everything again or nothing. -/
theorem checkpointRetransmit_eq (h : p.txWindow.Represents s.framing ks log c) :
    checkpointRetransmit s p = (p, false) ∨
      ∃ x, checkpointRetransmit s p =
        ({ moveRetransQ p with chkptActioned := x, vs := p.nr }, true) := by
  simp only [checkpointRetransmit]
  cases hq : p.iRetransQ with
  | nil => exact .inl rfl
  | cons fp q =>
    have hns := extractNS_retransQ h hq
    have hne : extractNS s.framing fp + 1 ≠ 0 := by
      have hnr : p.nr = s.framing.serial.word c.base := h.nr
      rw [hns, hnr]
      exact s.framing.serial.word_add_one_ne_zero c.base
    rw [checkpointScan]
    split
    · exact .inl (if_neg (not_not.mpr rfl))
    · refine .inr ⟨extractNS s.framing fp + 1, ?_⟩
      have hsub (x : UInt32) : x + 1 - 1 = x := by grind
      rw [if_pos rfl, checkpointScan_ne _ _ hne, if_pos hne, hsub, hns]

end Operations

end IoHdlc
