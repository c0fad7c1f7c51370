import IoHdlc.Core.Recovery

/-!
What the two recoveries send again: a checkpoint, and a REJ.

A checkpoint decides by `vs_atlast_pf`, and a REJ by `chkpt_actioned`. A checkpoint that moves
frames leaves the first marker where it was, and nothing but a REJ that is ignored clears the
second one. So a checkpoint may send frames again that were sent after the last P or F bit, and a
REJ may be ignored for a checkpoint that is over.
-/

namespace IoHdlc

open Kit

/-- The frames at the head of `iTransQ` that were sent before have their numbers. -/
theorem TxWindow.Represents.resent {fr : Framing} {ks : Nat} {log : List (List UInt8)}
    {c : Counters} {w : TxWindow} (h : w.Represents fr ks log c) {i : Nat}
    (hi : c.next + i < c.high) :
    ∃ fp, w.iTransQ[i]? = some fp ∧ extractNS fr fp = fr.serial.word (c.next + i) := by
  have hlen := h.trans_len
  have hlog := h.high_le_log
  have hlt : i < w.iTransQ.length := by omega
  have hget : w.iTransQ[i]? = some w.iTransQ[i] := List.getElem?_eq_getElem hlt
  exact ⟨_, hget, (h.trans.get hget).2.2 hi⟩

/-- The distance of a counter from the acknowledged frames. -/
theorem Link.offset_word {l : Link} {log : List (List UInt8)} {c : Counters} {ks : Nat}
    (h : l.p.txWindow.Represents l.s.framing ks log c) (hks : ks < l.s.framing.serial.modulus)
    {a : Nat} (hb : c.base ≤ a) (ha : a ≤ c.high) :
    l.offset (l.s.framing.serial.word a) = a - c.base := by
  have hhigh := h.high_le
  have hnr : l.p.nr = l.s.framing.serial.word c.base := h.nr
  rw [Link.offset, hnr]
  exact l.s.framing.serial.toNat_word_sub hb (by omega)

namespace WithRecovery

/-! ### Runs -/

/-- A frame of the pool. -/
def pooled : Frame := Frame.taken (fun _ => 0) 0

theorem fromPool_pooled : FromPool (some pooled) := fun _ hfp =>
  ⟨fun _ => 0, 0, (Option.mem_some_iff.mp hfp).symm⟩

/-- The next step of a thread that writes `octets`. -/
def write (g : WithRecovery) (octets : List UInt8) : WithRecovery :=
  match g.e.writer with
  | .idle =>
    let r := writeBegin g.e.link octets
    g.worked none { g.e with link := r.1, writer := r.2 }
  | .loop remaining signalTx =>
    let r := writeReserve g.e.link remaining signalTx false (some pooled)
    g.worked none { g.e with link := r.1, writer := r.2 }
  | .build fp remaining signalTx =>
    let r := writeInsert g.e.link fp remaining signalTx
    g.worked none { g.e with
      link := r.1
      writer := r.2.1
      queued := if r.2.2 then g.e.queued ++ [fp.payload g.e.link.s.framing] else g.e.queued }
  | .done signalTx =>
    g.worked none { g.e with link := writeDone g.e.link signalTx, writer := .idle }

/-- The next step of the transmit worker if no event comes. -/
def transmit (g : WithRecovery) : Option WithRecovery :=
  match g.e.pc with
  | .idle _ =>
    if g.e.link.p.isDisc = false ∧ (g.e.link.s.mode = .nrm ∨ g.e.link.s.mode = .abm) then
      let r := connectedTxEntry g.e.link ∅ none
      some (g.worked r.sent { g.e with link := r.link, pc := r.pc })
    else none
  | .check flags =>
    some (g.worked none { g.e with pc := (connectedTxCheck g.e.link flags).pc })
  | .iFrame flags iSent =>
    let r := connectedTxIFrame g.e.link flags iSent
    some (g.worked r.sent { g.e with
      link := r.link
      pc := r.pc
      sent := if r.sent.isSome then g.e.sent ++ [g.e.place 0] else g.e.sent })
  | .skipIFrames flags iSent =>
    let r := connectedTxSFrame g.e.link flags iSent fun _ => some pooled
    some (g.worked r.sent { g.e with link := r.link, pc := r.pc })

/-- What a run may do next. -/
inductive Action where
  | write (octets : List UInt8)
  | transmit
  | receive (fp : Frame)

def next (g : WithRecovery) : Action → Option WithRecovery
  | .write octets => some (g.write octets)
  | .transmit => g.transmit
  | .receive fp => if isUFrm (fp.ctrl g.e.link.s.framing 0) then none else some (g.received fp)

variable {g : WithRecovery} {fp : Frame} {ack : AckResult}

theorem moves_write (octets : List UInt8) : g.Moves (g.write octets) := by
  rw [write]
  cases hpc : g.e.writer with
  | idle => exact .works (.writeBegin octets hpc)
  | loop remaining signalTx => exact .works (.writeReserve false _ hpc fromPool_pooled)
  | build fp remaining signalTx => exact .works (.writeInsert hpc)
  | done signalTx => exact .works (.writeDone hpc)

theorem moves_transmit {g' : WithRecovery} (h : g.transmit = some g') : g.Moves g' := by
  rw [transmit] at h
  cases hpc : g.e.pc with
  | idle flags =>
    rw [hpc] at h
    dsimp only at h
    split at h
    next hgo =>
      cases h
      exact .works (.txEntry ∅ none hpc nofun hgo.1 hgo.2)
    · cases h
  | check flags =>
    rw [hpc] at h
    cases h
    exact .works (.txCheck hpc)
  | iFrame flags iSent =>
    rw [hpc] at h
    cases h
    exact .works (.txIFrame hpc)
  | skipIFrames flags iSent =>
    rw [hpc] at h
    cases h
    exact .works (.txSFrame _ hpc fun _ => fromPool_pooled)

theorem moves_next {a : Action} {g' : WithRecovery} (h : g.next a = some g') : g.Moves g' := by
  cases a with
  | write octets =>
    cases h
    exact moves_write octets
  | transmit => exact moves_transmit h
  | receive fp =>
    rw [next] at h
    split at h
    · cases h
    next hu =>
      cases h
      exact .receives fp (Bool.eq_false_iff.mpr hu)

/-- The secondary 2 of an NRM connection with the primary 1. -/
def secondary : WithRecovery := ⟨Endpoint.nrmEnd false 2 1, 0, false, none⟩

theorem fresh_secondary : secondary.Fresh :=
  ⟨Endpoint.nrmEnd_opened .., rfl, rfl, rfl, rfl, rfl⟩

/-- Two I frames are written; a poll that acknowledges `nr` has them sent. -/
def polled (nr : UInt8) : List Action :=
  List.replicate 10 (.write [0x41]) ++ [.receive (Node.shortFrame 2 (0x11 + 0x20 * nr))] ++
    List.replicate 6 .transmit

/-! ### The checkpoint -/

/-- The frames that still wait for an acknowledgement behind the N(R) of a frame. -/
def unacked (g : WithRecovery) (fp : Frame) : List Frame :=
  (processNR g.e.link.s g.e.link.p (extractNR g.e.link.s.framing fp)).1.iRetransQ

/-- The place of the `i`-th of them. -/
def unackedPlace (g : WithRecovery) (fp : Frame) (i : Nat) : Nat :=
  g.e.place 0 - (g.unacked fp).length + i

/-- A frame was sent, and not again behind the last frame with a P or F bit. -/
def SentBeforePf (g : WithRecovery) (k : Nat) : Prop := k ∈ g.e.sent ∧ k ∉ g.e.sent.drop g.pfAt

/-- The checkpoint moves frames exactly if one that still waits was last sent before the last P or
F bit or with it. Then all frames that were sent and not acknowledged are at the head of
`iTransQ` in the order of their numbers, before the unsent ones. -/
structure ExactCheckpoint (g : WithRecovery) (fp : Frame) (ack : AckResult) : Prop where
  moved : ack.checkpointMoved = true ↔
    ∃ i, i < (g.unacked fp).length ∧ g.SentBeforePf (g.unackedPlace fp i)
  queues : ack.checkpointMoved = true →
    ack.link.p.iTransQ = g.unacked fp ++ g.e.link.p.iTransQ ∧ ack.link.p.iRetransQ = [] ∧
      ack.link.p.vs = ack.link.p.nr
  order : ack.checkpointMoved = true → ∀ i fp', ack.link.p.iTransQ[i]? = some fp' →
    (i < ack.link.offset ack.link.p.vsHighest →
      ({ g.e with link := ack.link } : Endpoint).place i ∈ g.e.sent ∧
      extractNS g.e.link.s.framing fp' =
        (ack.link.p.nr + UInt32.ofNat i) &&& g.e.link.s.framing.modmask) ∧
    (ack.link.offset ack.link.p.vsHighest ≤ i →
      ({ g.e with link := ack.link } : Endpoint).place i ∉ g.e.sent)

theorem unacked_eq {ks : Nat} {log : List (List UInt8)} {c : Counters} {a : Nat}
    (h : g.e.link.p.txWindow.Represents g.e.link.s.framing ks log c)
    (hks : ks < g.e.link.s.framing.serial.modulus)
    (hnr : extractNR g.e.link.s.framing fp = g.e.link.s.framing.serial.word a) (hb : c.base ≤ a)
    (ha : a ≤ c.high) :
    g.unacked fp = g.e.link.p.iRetransQ.drop (min a c.next - c.base) := by
  rw [unacked, hnr]
  exact congrArg TxWindow.iRetransQ (processNR_txWindow h hks hb ha)

/-- A checkpoint is exact as long as no other one has moved frames since the last P or F bit. Behind
such a one it is exact only if it finds nothing to move. -/
theorem checkpoint_exact_iff (h : Reachable Fresh Moves g)
    (hconn : g.e.link.p.ssState.stConn = true) (hack : g.ackOf fp = some ack)
    (hcheck : g.e.link.isCheckpoint fp = true) :
    g.ExactCheckpoint fp ack ↔
      (g.stale = true →
        g.e.link.offset g.e.link.p.vs ≤ g.e.link.offset (extractNR g.e.link.s.framing fp) ∨
        g.e.link.offset g.e.link.p.vsAtlastPf ≤
          g.e.link.offset (extractNR g.e.link.s.framing fp)) := by
  obtain ⟨hw, m, hm⟩ := inv_reachable h hconn
  obtain ⟨c, a, hrep, hsent, hplace, hbase, hspec, hack'⟩ := received_spec hw hm hack
  have hks := hw.ks_lt
  have hnext := hrep.next_le
  have hbn := hrep.base_le
  have hb := hspec.base_le
  have ha := hspec.le_high
  have hmh := hm.le_high hsent
  have hmb : c.base ≤ m := hbase ▸ hm.base_le
  have hnr : extractNR g.e.link.s.framing fp = g.e.link.s.framing.serial.word a := hspec.nr
  have hun := unacked_eq hrep hks hnr hb ha
  have hretrans : c.base + g.e.link.p.iRetransQ.length = c.next := hrep.retrans_len
  have hlen : (g.unacked fp).length = c.next - min a c.next := by
    rw [hun, List.length_drop]
    omega
  have hmoved : ack.checkpointMoved = true ↔ min a c.next < c.next ∧ min a c.next < m :=
    hspec.moved.trans (and_iff_right hcheck)
  have hwitness : (∃ i, i < (g.unacked fp).length ∧ g.SentBeforePf (g.unackedPlace fp i)) ↔
      g.stale = false ∧ min a c.next < c.next ∧ min a c.next < m := by
    have hat (i : Nat) : g.unackedPlace fp i = min a c.next + i := by
      rw [unackedPlace, hlen, ← hplace]
      omega
    have hlater (i : Nat) (hi : i < c.next - min a c.next) :=
      hm.later (min a c.next + i) (by omega) (by omega)
    rw [hlen]
    constructor
    · rintro ⟨i, hi, -, hnot⟩
      rw [hat, hlater i hi, not_or, Bool.not_eq_true, not_le] at hnot
      exact ⟨hnot.1, by omega, by omega⟩
    · rintro ⟨hfresh, hgo, hgo'⟩
      refine ⟨0, by omega, ?_, ?_⟩
      · rw [hat]
        exact (hsent _).mpr (by omega)
      · rw [hat, hlater 0 (by omega), hfresh]
        rintro (hs | hs)
        · cases hs
        · omega
  rw [show g.e.link.p.vs = g.e.link.s.framing.serial.word c.next from hrep.vs, hm.word, hnr,
    Link.offset_word hrep hks hb ha, Link.offset_word hrep hks hbn hnext,
    Link.offset_word hrep hks hmb hmh]
  constructor
  · intro hexact hstale
    by_contra hno
    have hgo : min a c.next < c.next ∧ min a c.next < m := by omega
    have hfalse := (hwitness.mp (hexact.moved.mp (hmoved.mpr hgo))).1
    exact absurd (hfalse.symm.trans hstale) Bool.false_ne_true
  · intro hcond
    refine ⟨hmoved.trans (Iff.trans ?_ hwitness.symm), fun hyes => ?_, fun hyes i fp' hi => ?_⟩
    · refine ⟨fun hgo => ⟨?_, hgo⟩, And.right⟩
      cases hs : g.stale with
      | false => rfl
      | true =>
        have := hcond hs
        omega
    · have hwindow := hspec.window
      rw [hyes, if_pos rfl] at hwindow
      refine ⟨?_, congrArg TxWindow.iRetransQ hwindow, ?_⟩
      · rw [hun]
        exact congrArg TxWindow.iTransQ hwindow
      · have hvs : ack.link.p.vs = _ := congrArg TxWindow.vs hwindow
        have hnr' : ack.link.p.nr = _ := congrArg TxWindow.nr hwindow
        exact hvs.trans hnr'.symm
    · rw [hyes, if_pos rfl] at hack'
      have hnr' : ack.link.p.nr = g.e.link.s.framing.serial.word (min a c.next) := hack'.nr
      have hvh : ack.link.p.vsHighest = g.e.link.s.framing.serial.word c.high := hack'.vsHighest
      have hhigh := hack'.high_le
      have hwidth : ack.link.offset ack.link.p.vsHighest = c.high - min a c.next := by
        rw [Link.offset, hspec.framing, hnr', hvh]
        exact g.e.link.s.framing.serial.toNat_word_sub (by omega) (by dsimp only at hhigh; omega)
      have hat : ({ g.e with link := ack.link } : Endpoint).place i = min a c.next + i := by
        have hlast : min a c.next + ack.link.p.iTransQ.length = g.e.queued.length := hack'.trans_len
        rw [Endpoint.place]
        dsimp only
        omega
      rw [hwidth, hat, hsent, hnr']
      refine ⟨fun hlt => ⟨by omega, ?_⟩, fun hge => by omega⟩
      rw [(hack'.trans.get hi).2.2 (by dsimp only; omega)]
      exact (g.e.link.s.framing.serial.word_add _ i).symm

/-- A secondary that has sent two I frames, the last one with the F bit, and is polled again. -/
theorem checkpoint_exact_iff_secondary :
    ∃ (g : WithRecovery) (ack : AckResult), Reachable Fresh Moves g ∧ g.e.sent = [0, 1] ∧
      ack.checkpointMoved = true ∧ g.ExactCheckpoint (Node.shortFrame 2 0x11) ack := by
  obtain ⟨g, hrun, hp⟩ := Reachable.exists_of_run next (fun _ _ _ => moves_next)
    (.start fresh_secondary) (polled 0)
    (fun g => decide (g.e.link.p.ssState.stConn = true ∧ g.e.sent = [0, 1] ∧ g.stale = false ∧
        g.e.link.isCheckpoint (Node.shortFrame 2 0x11) = true) &&
      (g.ackOf (Node.shortFrame 2 0x11)).any AckResult.checkpointMoved) (by decide +kernel)
  rw [Bool.and_eq_true, decide_eq_true_eq, Option.any_eq_true_iff_get] at hp
  obtain ⟨⟨hconn, hsent, hstale, hcheck⟩, hsome, hmoved⟩ := hp
  refine ⟨g, _, hrun, hsent, hmoved, ?_⟩
  refine (checkpoint_exact_iff hrun hconn (Option.some_get hsome).symm hcheck).mpr fun hs => ?_
  exact absurd (hstale.symm.trans hs) Bool.false_ne_true

/-- The second poll moves both frames; the third one comes when the first frame was sent again,
and moves it once more. -/
theorem checkpoint_moves_later_frame :
    ¬∀ (g : WithRecovery) (fp : Frame) (ack : AckResult), Reachable Fresh Moves g →
      g.e.link.p.ssState.stConn = true → g.ackOf fp = some ack →
      g.e.link.isCheckpoint fp = true → g.ExactCheckpoint fp ack := by
  intro hclaim
  obtain ⟨g, hrun, hp⟩ := Reachable.exists_of_run next (fun _ _ _ => moves_next)
    (.start fresh_secondary)
    (polled 0 ++ [.receive (Node.shortFrame 2 0x11)] ++ List.replicate 3 .transmit)
    (fun g => decide (g.e.link.p.ssState.stConn = true ∧
        g.e.link.isCheckpoint (Node.shortFrame 2 0x11) = true ∧
        ∀ i < (g.unacked (Node.shortFrame 2 0x11)).length,
          g.unackedPlace (Node.shortFrame 2 0x11) i ∈ g.e.sent.drop g.pfAt) &&
      (g.ackOf (Node.shortFrame 2 0x11)).any AckResult.checkpointMoved) (by decide +kernel)
  rw [Bool.and_eq_true, decide_eq_true_eq, Option.any_eq_true_iff_get] at hp
  obtain ⟨⟨hconn, hcheck, hlater⟩, hsome, hmoved⟩ := hp
  have hexact := hclaim g _ _ hrun hconn (Option.some_get hsome).symm hcheck
  obtain ⟨i, hi, -, hnot⟩ := hexact.moved.mp hmoved
  exact hnot (hlater i hi)

/-! ### The REJ -/

/-- The place of the frame that an N(R) asks for. -/
def nrPlace (g : WithRecovery) (nr : UInt32) : Nat := g.e.basePlace + g.e.link.offset nr

/-- A checkpoint retransmission that started at place `k` is in progress: a frame that it has
moved waits to be sent. -/
def Recovering (g : WithRecovery) (k : Nat) : Prop :=
  ∃ last, g.checkpoint = some (k, last) ∧ g.e.place 0 < last

/-- All frames from `nr` on that were sent are at the head of `iTransQ`, and `V(S)` is `nr`. -/
structure Restarted (e : Endpoint) (nr : UInt32) (e' : Endpoint) : Prop where
  vs : e'.link.p.vs = nr
  retrans : e'.link.p.iRetransQ = []
  frames : ∀ i, i < ((e.link.p.vsHighest - nr) &&& e.link.s.framing.modmask).toNat →
    e'.place i ∈ e.sent ∧ ∃ fp, e'.link.p.iTransQ[i]? = some fp ∧
      extractNS e.link.s.framing fp = (nr + UInt32.ofNat i) &&& e.link.s.framing.modmask

/-- The REJ asks for the frame at `V(S)`; or it asks for one before, and no checkpoint is on
record, or it is a checkpoint itself and finds frames to move. -/
def ServesRej (g : WithRecovery) (fp : Frame) : Prop :=
  let nr := g.e.link.offset (extractNR g.e.link.s.framing fp)
  nr = g.e.link.offset g.e.link.p.vs ∨
    (nr < g.e.link.offset g.e.link.p.vs ∧
      (g.e.link.p.chkptActioned = 0 ∨
        (g.e.link.isCheckpoint fp = true ∧ nr < g.e.link.offset g.e.link.p.vsAtlastPf)))

/-- A window that starts at `nr`. -/
theorem restarted_of_represents {e e' : Endpoint} {c : Counters} {ks : Nat}
    (h : e'.link.p.txWindow.Represents e.link.s.framing ks e'.queued c)
    (hks : ks < e.link.s.framing.serial.modulus) (hempty : c.next = c.base)
    (hvh : e.link.p.vsHighest = e.link.s.framing.serial.word c.high)
    (hsent : ∀ i, i ∈ e.sent ↔ i < c.high) :
    Restarted e (e.link.s.framing.serial.word c.next) e' := by
  have hretrans : c.base + e'.link.p.iRetransQ.length = c.next := h.retrans_len
  have htrans : c.next + e'.link.p.iTransQ.length = e'.queued.length := h.trans_len
  have hnext := h.next_le
  have hhigh := h.high_le
  refine ⟨h.vs, List.eq_nil_of_length_eq_zero (by omega), fun i hi => ?_⟩
  have hwidth : ((e.link.p.vsHighest - e.link.s.framing.serial.word c.next) &&&
      e.link.s.framing.modmask).toNat = c.high - c.next := by
    rw [hvh]
    exact e.link.s.framing.serial.toNat_word_sub hnext (by omega)
  rw [hwidth] at hi
  have hat : e'.place i = c.next + i := by
    rw [Endpoint.place]
    omega
  obtain ⟨fp, hget, hns⟩ := h.resent (by omega : c.next + i < c.high)
  refine ⟨(hsent _).mpr (by omega), fp, hget, hns.trans ?_⟩
  exact (e.link.s.framing.serial.word_add _ i).symm

section Rej

variable {ks : Nat} {log : List (List UInt8)} {c : Counters} {m a : Nat}

theorem servesRej_iff (h : g.e.link.p.txWindow.Represents g.e.link.s.framing ks log c)
    (hks : ks < g.e.link.s.framing.serial.modulus)
    (hnr : extractNR g.e.link.s.framing fp = g.e.link.s.framing.serial.word a)
    (hmark : g.e.link.p.vsAtlastPf = g.e.link.s.framing.serial.word m) (hb : c.base ≤ a)
    (ha : a ≤ c.high) (hm : c.base ≤ m) (hmh : m ≤ c.high) :
    g.ServesRej fp ↔ a = c.next ∨ (a < c.next ∧ (g.e.link.p.chkptActioned = 0 ∨
      (g.e.link.isCheckpoint fp = true ∧ a < m))) := by
  have hbn := h.base_le
  have hvs : g.e.link.p.vs = g.e.link.s.framing.serial.word c.next := h.vs
  rw [ServesRej, hvs, hmark, hnr, Link.offset_word h hks hb ha,
    Link.offset_word h hks hbn h.next_le, Link.offset_word h hks hm hmh]
  have hlt (n : Nat) (hn : c.base ≤ n) : a - c.base < n - c.base ↔ a < n := by omega
  have heq : a - c.base = c.next - c.base ↔ a = c.next := by omega
  rw [hlt _ hbn, hlt _ hm, heq]

/-- What waits for an acknowledgement behind `handleCheckpointAndAck`. -/
theorem length_iRetransQ (hspec : Acknowledges (Endpoint.lineBusy g.e.link) fp c m a ack)
    (hretrans : c.base + g.e.link.p.iRetransQ.length = c.next) (hnone : ack.checkpointMoved = false) :
    ack.link.p.iRetransQ.length = c.next - min a c.next := by
  have hbase := hspec.base_le
  have hwindow := hspec.window
  rw [hnone, if_neg Bool.false_ne_true] at hwindow
  have hq : ack.link.p.iRetransQ = g.e.link.p.iRetransQ.drop (min a c.next - c.base) :=
    congrArg TxWindow.iRetransQ hwindow
  rw [hq, List.length_drop]
  omega

/-- One of the two recoveries moves frames: the frame is served. -/
theorem moves_iff (hspec : Acknowledges (Endpoint.lineBusy g.e.link) fp c m a ack)
    (hretrans : c.base + g.e.link.p.iRetransQ.length = c.next)
    (htws : g.e.link.s.flags.twa = false) (hrej : g.e.link.isRej fp = true) :
    (ack.checkpointMoved = true ∨ ack.rejMoves fp = true) ↔
      a < c.next ∧ (g.e.link.p.chkptActioned = 0 ∨ (g.e.link.isCheckpoint fp = true ∧ a < m)) := by
  have hmoved : ack.checkpointMoved = true ↔
      g.e.link.isCheckpoint fp = true ∧ min a c.next < c.next ∧ min a c.next < m := hspec.moved
  have hchkpt : ack.link.p.chkptActioned = 0 ↔
      ack.checkpointMoved = false ∧ g.e.link.p.chkptActioned = 0 := hspec.chkptActioned
  have hmoves : ack.rejMoves fp = true ↔
      ack.link.p.chkptActioned = 0 ∧ ack.link.p.iRetransQ ≠ [] := by
    have hrej' : ack.link.isRej fp = true := by
      rw [Link.isRej, hspec.framing]
      exact hrej
    have htws' : ack.link.s.flags.twa = false := hspec.twa.trans htws
    simp [AckResult.rejMoves, hrej', htws']
  cases hm : ack.checkpointMoved with
  | true =>
    obtain ⟨hcheck, hgo, hgo'⟩ := hmoved.mp hm
    exact iff_of_true (.inl rfl) ⟨by omega, .inr ⟨hcheck, by omega⟩⟩
  | false =>
    have hlen := length_iRetransQ hspec hretrans hm
    have hne : ack.link.p.iRetransQ ≠ [] ↔ a < c.next := by
      rw [← List.length_pos_iff, hlen]
      omega
    -- A checkpoint that moves nothing finds no frame that waits before the marker.
    have hnot : a < c.next → ¬(g.e.link.isCheckpoint fp = true ∧ a < m) := fun hlt hdue =>
      absurd (hmoved.mpr ⟨hdue.1, by omega, by omega⟩) (by rw [hm]; exact Bool.false_ne_true)
    rw [hmoves, hchkpt, hm, hne]
    constructor
    · rintro (hno | ⟨⟨-, hzero⟩, hlt⟩)
      · exact absurd hno Bool.false_ne_true
      · exact ⟨hlt, .inl hzero⟩
    · rintro ⟨hlt, hgo⟩
      exact .inr ⟨⟨rfl, hgo.resolve_right (hnot hlt)⟩, hlt⟩

end Rej

/-- Which REJ has an effect, whatever the history says. -/
theorem restarted_iff (hinv : g.Inv) (htws : g.e.link.s.flags.twa = false)
    (hack : g.ackOf fp = some ack) (hrej : g.e.link.isRej fp = true) :
    Restarted g.e (extractNR g.e.link.s.framing fp) (g.e.receive fp) ↔ g.ServesRej fp := by
  obtain ⟨hw, m, hm⟩ := hinv
  obtain ⟨c, a, hrep, hsent, -, hbase, hspec, hack'⟩ := received_spec hw hm hack
  have hks := hw.ks_lt
  have hnext := hrep.next_le
  have hhigh := hrep.high_le
  have hb := hspec.base_le
  have ha := hspec.le_high
  have hnr : extractNR g.e.link.s.framing fp = g.e.link.s.framing.serial.word a := hspec.nr
  have hcounters := receive_counters hack hack'
  have hmoves := moves_iff hspec hrep.retrans_len htws hrej
  rw [servesRej_iff hrep hks hnr hm.word hb ha (hbase ▸ hm.base_le) (hm.le_high hsent), ← hmoves]
  rw [hnr]
  constructor
  · intro hdone
    by_contra hno
    rw [not_or, not_or, Bool.not_eq_true, Bool.not_eq_true] at hno
    obtain ⟨hne, hstays, hignored⟩ := hno
    -- `V(S)` is where it was.
    rw [hstays, hignored, if_neg Bool.false_ne_true, if_neg Bool.false_ne_true] at hcounters
    have hvs : (g.e.receive fp).link.p.vs = g.e.link.s.framing.serial.word c.next := hcounters.vs
    have hbn := hrep.base_le
    exact hne (g.e.link.s.framing.serial.eq_of_word_eq (hdone.vs.symm.trans hvs) (by omega)
      (by omega))
  · intro hgo
    have hle : a ≤ c.next := by
      rcases hgo with rfl | hgo
      · exact le_rfl
      · exact (hmoves.mp hgo).1.le
    have hat : (if ack.rejMoves fp then min a c.next
        else if ack.checkpointMoved then min a c.next else c.next) = a := by
      rcases hgo with rfl | hgo | hgo
      · rw [min_self, ite_self, ite_self]
      · rw [hgo, if_pos rfl, ite_self, min_eq_left hle]
      · rw [hgo, if_pos rfl, min_eq_left hle]
    have hdone := @restarted_of_represents g.e (g.e.receive fp) _ _ hcounters hks
      (hat.trans (min_eq_left hle).symm) hrep.vsHighest hsent
    dsimp only at hdone
    rwa [hat] at hdone

/-- A REJ that no checkpoint in progress covers is served exactly in these cases. -/
theorem rej_restarts_iff (h : Reachable Fresh Moves g)
    (hconn : g.e.link.p.ssState.stConn = true) (htws : g.e.link.s.flags.twa = false)
    (hack : g.ackOf fp = some ack) (hrej : g.e.link.isRej fp = true) :
    (¬g.Recovering (g.nrPlace (extractNR g.e.link.s.framing fp)) →
        Restarted g.e (extractNR g.e.link.s.framing fp) (g.received fp).e) ↔
      g.Recovering (g.nrPlace (extractNR g.e.link.s.framing fp)) ∨ g.ServesRej fp := by
  rw [received_e, restarted_iff (inv_reachable h hconn) htws hack hrej]
  exact or_iff_not_imp_left.symm

/-- A REJ of either frame of a secondary that has sent two, before any checkpoint. -/
theorem rej_restarts_iff_secondary :
    ∃ g : WithRecovery, Reachable Fresh Moves g ∧ g.e.sent = [0, 1] ∧
      Restarted g.e (extractNR g.e.link.s.framing (Node.shortFrame 2 0x29))
        (g.received (Node.shortFrame 2 0x29)).e := by
  obtain ⟨g, hrun, hp⟩ := Reachable.exists_of_run next (fun _ _ _ => moves_next)
    (.start fresh_secondary) (polled 0)
    (fun g => decide (g.e.link.p.ssState.stConn = true ∧ g.e.link.s.flags.twa = false ∧
        g.e.sent = [0, 1] ∧ g.checkpoint = none ∧ g.e.link.p.chkptActioned = 0 ∧
        g.e.link.isRej (Node.shortFrame 2 0x29) = true ∧
        g.e.link.offset (extractNR g.e.link.s.framing (Node.shortFrame 2 0x29)) <
          g.e.link.offset g.e.link.p.vs) &&
      (g.ackOf (Node.shortFrame 2 0x29)).isSome) (by decide +kernel)
  rw [Bool.and_eq_true, decide_eq_true_eq] at hp
  obtain ⟨⟨hconn, htws, hsent, hnone, hchkpt, hrej, hbefore⟩, hsome⟩ := hp
  refine ⟨g, hrun, hsent, ?_⟩
  refine (rej_restarts_iff hrun hconn htws (Option.some_get hsome).symm hrej).mpr
    (.inr (.inr ⟨hbefore, .inl hchkpt⟩)) ?_
  rintro ⟨last, hsome, -⟩
  exact absurd (hnone.symm.trans hsome) nofun

/-- A checkpoint has moved the first two frames, and both were sent again and acknowledged. A REJ
of the third one is ignored. -/
theorem rej_ignored_for_completed_checkpoint :
    ¬∀ (g : WithRecovery) (fp : Frame) (ack : AckResult), Reachable Fresh Moves g →
      g.e.link.p.ssState.stConn = true → g.e.link.s.flags.twa = false →
      g.ackOf fp = some ack → g.e.link.isRej fp = true →
      ¬g.Recovering (g.nrPlace (extractNR g.e.link.s.framing fp)) →
      Restarted g.e (extractNR g.e.link.s.framing fp) (g.received fp).e := by
  intro hclaim
  obtain ⟨g, hrun, hp⟩ := Reachable.exists_of_run next (fun _ _ _ => moves_next)
    (.start fresh_secondary)
    (polled 0 ++ [.receive (Node.shortFrame 2 0x11)] ++ List.replicate 6 .transmit ++ polled 2)
    (fun g => decide (g.e.link.p.ssState.stConn = true ∧ g.e.link.s.flags.twa = false ∧
        g.checkpoint = some (0, 2) ∧ g.e.place 0 = 4 ∧
        g.e.link.isRej (Node.shortFrame 2 0x49) = true ∧
        extractNR g.e.link.s.framing (Node.shortFrame 2 0x49) = 2 ∧
        (g.received (Node.shortFrame 2 0x49)).e.link.p.vs = 4) &&
      (g.ackOf (Node.shortFrame 2 0x49)).isSome) (by decide +kernel)
  rw [Bool.and_eq_true, decide_eq_true_eq] at hp
  obtain ⟨⟨hconn, htws, hdone, hplace, hrej, hnr, hvs⟩, hsome⟩ := hp
  have hrestarted := hclaim g _ _ hrun hconn htws (Option.some_get hsome).symm hrej ?_
  · have heq := hrestarted.vs
    rw [hvs, hnr] at heq
    exact absurd heq (by decide)
  · rintro ⟨last, hlast, hlt⟩
    rw [hdone, Option.some_inj, Prod.mk.injEq] at hlast
    omega

end WithRecovery

end IoHdlc
