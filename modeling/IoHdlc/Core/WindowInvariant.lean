import IoHdlc.Core.Endpoint

/-!
The transmit window of a connected peer over whole runs.

The station may serve other peers at the same time: what they do to the records
they share is any change of the station that keeps its framing. What arrives is
any frame at all.
-/

namespace IoHdlc

open Kit

namespace Endpoint

/-- A connection that was just opened; nothing is asked of the timers, the mode or
the flags. -/
structure Opened (e : Endpoint) : Prop where
  stConn : e.link.p.ssState.stConn = true
  txWindow : e.link.p.txWindow = .empty
  ks_pos : 1 ≤ e.link.p.ks
  ks_le : e.link.p.ks ≤ e.link.s.framing.modmask
  writer : e.writer = .idle
  queued : e.queued = []
  sent : e.sent = []

/-- A peer that was added and is connected has such a window. -/
theorem opened_initialPeer (s : Station) (framesize : Nat) (pollRetryMax : UInt8) (addr : UInt32) :
    Opened
      { link := ioHdlcSetConnected ⟨s, initialPeer s framesize pollRetryMax addr⟩
        pc := .idle ∅, writer := .idle, queued := [], delivered := [], sent := [] } := by
  have hks : 1 ≤ s.framing.modmask := by
    rcases s.framing.layout with ⟨h, -⟩ | ⟨h, -⟩ <;> rw [h] <;> decide
  exact
    { stConn := rfl
      txWindow := rfl
      ks_pos := hks
      ks_le := UInt32.le_refl _
      writer := rfl
      queued := rfl
      sent := rfl }

/-- A step of this station, of whatever sends to it, or of its other peers. -/
inductive Moves (e : Endpoint) : Endpoint → Prop
  | works {out : Option Frame} {e' : Endpoint} (h : e.Step out e') : Moves e e'
  | receives (fp : Frame) (h : isUFrm (fp.ctrl e.link.s.framing 0) = false) :
    Moves e (e.receive fp)
  | otherPeers (s : Station) (h : s.framing = e.link.s.framing) :
    Moves e { e with link := { e.link with s := s } }

/-- The invariant of a connected peer. -/
structure WindowInv (e : Endpoint) : Prop where
  ks_pos : 1 ≤ e.link.p.ks
  ks_le : e.link.p.ks ≤ e.link.s.framing.modmask
  window : ∃ c, e.link.p.txWindow.Represents e.link.s.framing e.link.p.ks.toNat e.queued c ∧
    ∀ i, i ∈ e.sent ↔ i < c.high
  limit : e.link.p.iPendingCount ≤ writerPendingLimit e.link.p
  writer : e.WriterReady

/-! ### One step -/

section Steps

variable {e e' : Endpoint}

theorem Opened.windowInv (h : e.Opened) : e.WindowInv where
  ks_pos := h.ks_pos
  ks_le := h.ks_le
  window := by
    refine ⟨⟨0, 0, 0⟩, ?_, fun i => ?_⟩
    · rw [h.txWindow, h.queued]
      exact TxWindow.represents_empty _ _
    · rw [h.sent]
      exact iff_of_false List.not_mem_nil (Nat.not_lt_zero i)
  limit := by
    have hpend : e.link.p.iPendingCount = 0 := congrArg TxWindow.iPendingCount h.txWindow
    rw [hpend, UInt32.le_iff_toNat_le]
    exact Nat.zero_le _
  writer := by
    intro fp remaining signalTx hpc
    cases h.writer.symm.trans hpc

theorem WindowInv.ks_lt (h : e.WindowInv) :
    e.link.p.ks.toNat < e.link.s.framing.serial.modulus := by
  rw [Framing.modulus_serial]
  exact Nat.lt_succ_of_le (UInt32.le_iff_toNat_le.mp h.ks_le)

/-- The limit is far from the range of the counter. -/
theorem WindowInv.limit_lt (h : e.WindowInv) : (writerPendingLimit e.link.p).toNat < 256 := by
  have hks : e.link.p.ks.toNat ≤ 127 := by
    refine (UInt32.le_iff_toNat_le.mp h.ks_le).trans ?_
    rcases e.link.s.framing.layout with ⟨hm, -⟩ | ⟨hm, -⟩ <;> rw [hm] <;> decide
  have hmargin : (e.link.p.ks / IOHDLC_WRITER_PENDING_MARGIN_DIVISOR).toNat ≤ 15 := by
    rw [UInt32.toNat_div]
    exact Nat.div_le_div_right (c := 8) hks
  rw [writerPendingLimit, UInt32.toNat_add]
  refine lt_of_le_of_lt (Nat.mod_le ..) ?_
  split
  · exact Nat.lt_of_le_of_lt (Nat.add_le_add_right hks 7) (by decide)
  · exact Nat.lt_of_le_of_lt (Nat.add_le_add hks hmargin) (by decide)

theorem windowInv_quiet (h : e.WindowInv) (hl : e.link.Quiet e'.link)
    (hqueued : e'.queued = e.queued) (hsent : e'.sent = e.sent)
    (hw : e.WriterReady → e'.WriterReady) : e'.WindowInv := by
  obtain ⟨c, hrep, hmem⟩ := h.window
  have hcount : e'.link.p.iPendingCount = e.link.p.iPendingCount :=
    congrArg TxWindow.iPendingCount hl.txWindow
  exact
    { ks_pos := by rw [hl.ks]; exact h.ks_pos
      ks_le := by rw [hl.ks, hl.framing]; exact h.ks_le
      window := ⟨c, by rw [hl.txWindow, hl.framing, hl.ks, hqueued]; exact hrep,
        by rw [hsent]; exact hmem⟩
      limit := by
        rw [writerPendingLimit, hl.ks, hcount]
        exact h.limit
      writer := hw h.writer }

/-- A fragment that is ready still has room in the counter. -/
theorem WindowInv.room (h : e.WindowInv) {fp : Frame} {remaining : List UInt8} {signalTx : Bool}
    (hpc : e.writer = .build fp remaining signalTx) :
    headerStamped e.link.s.framing fp = false ∧ e.link.p.iPendingCount.toNat + 1 < 2 ^ 32 := by
  obtain ⟨hst, hpend⟩ := h.writer fp remaining signalTx hpc
  have hlimit := h.limit_lt
  have hlt := UInt32.lt_iff_toNat_lt.mp hpend
  exact ⟨hst, Nat.lt_of_le_of_lt (Nat.succ_le_of_lt hlt) (by omega)⟩

theorem windowInv_insert (h : e.WindowInv) {fp : Frame} {remaining : List UInt8} {signalTx : Bool}
    (hpc : e.writer = .build fp remaining signalTx) :
    WindowInv { e with
      link := { e.link with p := { e.link.p with
        iTransQ := e.link.p.iTransQ ++ [fp], iPendingCount := e.link.p.iPendingCount + 1 } }
      writer := .loop remaining true
      queued := e.queued ++ [fp.payload e.link.s.framing] } := by
  obtain ⟨c, hrep, hmem⟩ := h.window
  obtain ⟨hst, hroom⟩ := h.room hpc
  have hlt := UInt32.lt_iff_toNat_lt.mp (h.writer fp remaining signalTx hpc).2
  have hsucc : (e.link.p.iPendingCount + 1).toNat = e.link.p.iPendingCount.toNat + 1 := by
    rw [UInt32.toNat_add, UInt32.toNat_one]
    exact Nat.mod_eq_of_lt hroom
  exact
    { ks_pos := h.ks_pos
      ks_le := h.ks_le
      window := ⟨c, hrep.insert hst hroom, hmem⟩
      limit := by
        rw [UInt32.le_iff_toNat_le]
        exact hsucc.trans_le hlt
      writer := nofun }

theorem windowInv_iFrame (h : e.WindowInv) {fp fp' : Frame} {rest : List Frame}
    (hl : e.link.SendsIFrame e'.link fp fp' rest) (hqueued : e'.queued = e.queued)
    (hsent : e'.sent = e.sent ++ [e.place 0]) (hw : e'.writer = e.writer) : e'.WindowInv := by
  obtain ⟨c, hrep, hmem⟩ := h.window
  obtain ⟨hrep', -⟩ := hl.represents hrep h.ks_lt
  have hplace : e.place 0 = c.next := by
    have hlen : c.next + e.link.p.iTransQ.length = e.queued.length := hrep.trans_len
    rw [place]
    omega
  have hcount : e'.link.p.iPendingCount = e.link.p.iPendingCount :=
    congrArg TxWindow.iPendingCount hl.txWindow
  have hlimit : writerPendingLimit e'.link.p = writerPendingLimit e.link.p := by
    rw [writerPendingLimit, writerPendingLimit, hl.ks]
  refine
    { ks_pos := by rw [hl.ks]; exact h.ks_pos
      ks_le := by rw [hl.ks, hl.framing]; exact h.ks_le
      window := ⟨_, by rw [hl.framing, hl.ks, hqueued]; exact hrep', fun i => ?_⟩
      limit := by rw [hlimit, hcount]; exact h.limit
      writer := fun fp₀ remaining signalTx hpc => ?_ }
  · have hnext := hrep.next_le
    rw [hsent, List.mem_append, List.mem_singleton, hmem, hplace]
    dsimp only
    omega
  · rw [hlimit, hcount, hl.framing]
    exact h.writer fp₀ remaining signalTx (hw.symm.trans hpc)

theorem windowInv_commonRx (h : e.WindowInv) (fp : Frame) (isCommand : Bool)
    (delivered : List (List UInt8)) :
    WindowInv
      { e with link := (commonRx e.link fp isCommand).1, delivered := delivered } := by
  obtain ⟨c, hrep, hmem⟩ := h.window
  obtain ⟨c', hbase, hhigh, hrep'⟩ :=
    @commonRx_represents e.link fp isCommand _ _ _ hrep h.ks_lt
  have hkeep := @commonRx_keeps e.link fp isCommand
  -- What is acknowledged leaves the count of pending frames.
  have hcount : (commonRx e.link fp isCommand).1.p.iPendingCount ≤ e.link.p.iPendingCount := by
    have h₁ : (commonRx e.link fp isCommand).1.p.iPendingCount.toNat = _ := hrep'.pending
    have h₂ : e.link.p.iPendingCount.toNat = _ := hrep.pending
    rw [UInt32.le_iff_toNat_le, h₁, h₂]
    have := hrep'.retrans_len
    have := hrep'.trans_len
    have := hrep.retrans_len
    have := hrep.trans_len
    omega
  have hlimit : writerPendingLimit (commonRx e.link fp isCommand).1.p =
      writerPendingLimit e.link.p := by
    rw [writerPendingLimit, writerPendingLimit, hkeep.ks]
  exact
    { ks_pos := hkeep.ks.symm ▸ h.ks_pos
      ks_le := by
        show (commonRx e.link fp isCommand).1.p.ks ≤
          (commonRx e.link fp isCommand).1.s.framing.modmask
        rw [hkeep.ks, hkeep.framing]
        exact h.ks_le
      window := by
        refine ⟨c', ?_, fun i => hhigh.symm ▸ hmem i⟩
        show (commonRx e.link fp isCommand).1.p.txWindow.Represents
          (commonRx e.link fp isCommand).1.s.framing
          (commonRx e.link fp isCommand).1.p.ks.toNat e.queued c'
        rw [hkeep.framing, hkeep.ks]
        exact hrep'
      limit := by
        show (commonRx e.link fp isCommand).1.p.iPendingCount ≤
          writerPendingLimit (commonRx e.link fp isCommand).1.p
        rw [hlimit]
        exact UInt32.le_trans hcount h.limit
      writer := fun fp₀ remaining signalTx hpc => by
        obtain ⟨hst, hpend⟩ := h.writer fp₀ remaining signalTx hpc
        show headerStamped (commonRx e.link fp isCommand).1.s.framing fp₀ = false ∧
          (commonRx e.link fp isCommand).1.p.iPendingCount <
            writerPendingLimit (commonRx e.link fp isCommand).1.p
        rw [hlimit, hkeep.framing]
        exact ⟨hst, UInt32.lt_of_le_of_lt hcount hpend⟩ }

theorem windowInv_receive (h : e.WindowInv) (fp : Frame) : (e.receive fp).WindowInv := by
  have hquiet := lineBusy_quiet e.link
  have hbusy : WindowInv { e with link := lineBusy e.link } :=
    windowInv_quiet h hquiet rfl rfl fun hw => hw.quiet hquiet fun _ _ _ hpc => hpc
  rcases receive_cases e fp with hrx | ⟨-, isCommand, hrx⟩
  · rw [hrx]
    exact hbusy
  · rw [hrx]
    exact windowInv_commonRx hbusy fp isCommand _

theorem receive_keeps (e : Endpoint) (fp : Frame) : e.link.Keeps (e.receive fp).link := by
  refine (lineBusy_quiet e.link).toKeeps.trans ?_
  rcases receive_cases e fp with hrx | ⟨-, isCommand, hrx⟩
  · rw [hrx]
    exact .refl _
  · rw [hrx]
    exact commonRx_keeps

/-- A step of the station alone. -/
theorem windowInv_effect {out : Option Frame} (h : e.link.p.ssState.stConn = true → e.WindowInv)
    (he : e.Effect out e') (hconn : e'.link.p.ssState.stConn = true) : e'.WindowInv := by
  cases he with
  | quiet link queued delivered sent writer hout idle =>
    exact windowInv_quiet (h (link.stConn.symm.trans hconn)) link queued sent writer
  | insert writer conn hout he' =>
    rw [he']
    exact windowInv_insert (h conn) writer
  | iFrame link hout active queued delivered sent writer =>
    exact windowInv_iFrame (h (link.stConn.symm.trans hconn)) link queued sent writer
  | aborted link conn idle hout queued delivered =>
    exact absurd (link.stConn.symm.trans hconn) Bool.false_ne_true

theorem windowInv_moves (h : e.link.p.ssState.stConn = true → e.WindowInv) (hm : e.Moves e')
    (hconn : e'.link.p.ssState.stConn = true) : e'.WindowInv := by
  cases hm with
  | works hs => exact windowInv_effect h (effect_of_step hs) hconn
  | receives fp _ => exact windowInv_receive (h ((receive_keeps e fp).stConn.symm.trans hconn)) fp
  | otherPeers s hs =>
    have hinv := h hconn
    exact
      { ks_pos := hinv.ks_pos
        ks_le := by rw [hs]; exact hinv.ks_le
        window := by rw [hs]; exact hinv.window
        limit := hinv.limit
        writer := by
          intro fp remaining signalTx hpc
          rw [hs]
          exact hinv.writer fp remaining signalTx hpc }

end Steps

/-! ### Whole runs -/

/-- In every state that a run reaches the window of a connected peer is in order. -/
theorem windowInv_reachable {e : Endpoint} (h : Reachable Opened Moves e)
    (hconn : e.link.p.ssState.stConn = true) : e.WindowInv :=
  h.invariant (fun e => e.link.p.ssState.stConn = true → e.WindowInv)
    (fun _ hopen _ => hopen.windowInv) (fun _ _ => windowInv_moves) hconn

/-- The transmit window in terms of the fields of the peer. -/
structure TransmitWindow (e : Endpoint) : Prop where
  retrans_length :
    ((e.link.p.vs - e.link.p.nr) &&& e.link.s.framing.modmask).toNat = e.link.p.iRetransQ.length
  retrans_length_le : e.link.p.iRetransQ.length ≤ e.link.p.ks.toNat
  retrans_ns : ∀ i fp, e.link.p.iRetransQ[i]? = some fp →
    extractNS e.link.s.framing fp = (e.link.p.nr + UInt32.ofNat i) &&& e.link.s.framing.modmask
  resent_le :
    ((e.link.p.vsHighest - e.link.p.vs) &&& e.link.s.framing.modmask).toNat ≤
      e.link.p.iTransQ.length
  resent : ∀ i fp, e.link.p.iTransQ[i]? = some fp →
    i < ((e.link.p.vsHighest - e.link.p.vs) &&& e.link.s.framing.modmask).toNat →
    e.place i ∈ e.sent ∧
      extractNS e.link.s.framing fp = (e.link.p.vs + UInt32.ofNat i) &&& e.link.s.framing.modmask
  unsent : ∀ i fp, e.link.p.iTransQ[i]? = some fp →
    ((e.link.p.vsHighest - e.link.p.vs) &&& e.link.s.framing.modmask).toNat ≤ i →
    e.place i ∉ e.sent
  /-- `place` is where the frame went into the queue. -/
  place_eq : ∀ i fp, e.link.p.iTransQ[i]? = some fp →
    e.queued[e.place i]? = some (fp.payload e.link.s.framing)
  high_le :
    ((e.link.p.vsHighest - e.link.p.nr) &&& e.link.s.framing.modmask).toNat ≤ e.link.p.ks.toNat
  pending :
    e.link.p.iPendingCount.toNat = e.link.p.iRetransQ.length + e.link.p.iTransQ.length
  pending_le : e.link.p.iPendingCount ≤ writerPendingLimit e.link.p

theorem WindowInv.transmitWindow {e : Endpoint} (h : e.WindowInv) : e.TransmitWindow := by
  obtain ⟨c, hrep, hmem⟩ := h.window
  have hks := h.ks_lt
  have hnr : e.link.p.nr = e.link.s.framing.serial.word c.base := hrep.nr
  have hvs : e.link.p.vs = e.link.s.framing.serial.word c.next := hrep.vs
  have hvh : e.link.p.vsHighest = e.link.s.framing.serial.word c.high := hrep.vsHighest
  have hbase := hrep.base_le
  have hnext := hrep.next_le
  have hhigh := hrep.high_le
  have hlog := hrep.high_le_log
  have hretrans : c.base + e.link.p.iRetransQ.length = c.next := hrep.retrans_len
  have htrans : c.next + e.link.p.iTransQ.length = e.queued.length := hrep.trans_len
  have hplace (i : Nat) : e.place i = c.next + i := by
    rw [place]
    omega
  have hout : ((e.link.p.vs - e.link.p.nr) &&& e.link.s.framing.modmask).toNat = c.next - c.base := by
    rw [hvs, hnr]
    exact e.link.s.framing.serial.toNat_word_sub hbase (by omega)
  have hresend : ((e.link.p.vsHighest - e.link.p.vs) &&& e.link.s.framing.modmask).toNat =
      c.high - c.next := by
    rw [hvs, hvh]
    exact e.link.s.framing.serial.toNat_word_sub hnext (by omega)
  have hwidth : ((e.link.p.vsHighest - e.link.p.nr) &&& e.link.s.framing.modmask).toNat =
      c.high - c.base := by
    rw [hvh, hnr]
    exact e.link.s.framing.serial.toNat_word_sub (hbase.trans hnext) (by omega)
  exact
    { retrans_length := by rw [hout]; omega
      retrans_length_le := by omega
      retrans_ns := fun i fp hi => by
        obtain ⟨hlt, -⟩ := List.getElem?_eq_some_iff.mp hi
        rw [hnr, (hrep.retrans.get hi).2.2 (by omega)]
        exact (e.link.s.framing.serial.word_add c.base i).symm
      resent_le := by rw [hresend]; omega
      resent := fun i fp hi hlt => by
        rw [hresend] at hlt
        rw [hplace, hmem, hvs, (hrep.trans.get hi).2.2 (by omega)]
        exact ⟨by omega, (e.link.s.framing.serial.word_add c.next i).symm⟩
      unsent := fun i fp _ hle => by
        rw [hresend] at hle
        rw [hplace, hmem]
        omega
      place_eq := fun i fp hi => by
        rw [hplace]
        exact (hrep.trans.get hi).1
      high_le := by rw [hwidth]; omega
      pending := hrep.pending
      pending_le := h.limit }

/-- The window of a connected peer is in order in every reachable state. -/
theorem transmitWindow_reachable (e : Endpoint) (h : Reachable Opened Moves e)
    (hconn : e.link.p.ssState.stConn = true) : e.TransmitWindow :=
  (windowInv_reachable h hconn).transmitWindow

/-- An end of an NRM connection with modulus 8, in two-way simultaneous operation. -/
def nrmEnd (pri : Bool) (addr peerAddr : UInt32) : Endpoint :=
  let s := initialStation .nrm { pri := pri } (.mod8 0 Framing.zero_le_two) 2 true 100 200 addr
  { link := ioHdlcSetConnected ⟨applyModeState s .nrm, initialPeer s 128 8 peerAddr⟩
    pc := .idle ∅, writer := .idle, queued := [], delivered := [], sent := [] }

theorem nrmEnd_opened (pri : Bool) (addr peerAddr : UInt32) : (nrmEnd pri addr peerAddr).Opened :=
  opened_initialPeer _ 128 8 peerAddr

/-- The primary queues one octet and sends it. -/
theorem transmitWindow_reachable_oneOctet :
    ∃ e : Endpoint, e.queued = [[0x41]] ∧ e.sent = [0] ∧ e.link.p.iRetransQ.length = 1 ∧
      e.TransmitWindow := by
  have h₀ : Reachable Opened Moves (nrmEnd true 1 2) := .start (nrmEnd_opened ..)
  have h₁ := h₀.tail (.works (.writeBegin [0x41] rfl))
  have hpool : FromPool (some (Frame.taken (fun _ => 0) 0)) := fun fp hfp =>
    ⟨fun _ => 0, 0, (Option.mem_some_iff.mp hfp).symm⟩
  have h₂ := h₁.tail (.works (.writeReserve false _ rfl hpool))
  have h₃ := h₂.tail (.works (.writeInsert rfl))
  have h₄ := h₃.tail (.works (.txEntry ∅ none rfl nofun rfl (.inl rfl)))
  have h₅ := h₄.tail (.works (.txCheck rfl))
  have h₆ := h₅.tail (.works (.txIFrame rfl))
  exact ⟨_, rfl, rfl, rfl, transmitWindow_reachable _ h₆ rfl⟩

end Endpoint

end IoHdlc
