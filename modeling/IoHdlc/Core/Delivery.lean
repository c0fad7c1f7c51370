import IoHdlc.Core.WindowInvariant
import IoHdlc.Kit.GoBackN

/-!
Two stations and the line between them.

The line is a first-in first-out channel each way that may lose frames. Each
direction of the traffic refines a `Flow`: the payloads queued at one end are its
log, the counters behind the window of that end and the number of payloads
delivered at the other end are its positions, and the frames on the line stand
for its numbered payloads and, the other way, for its acknowledgements. A frame
carries both at once, so every frame is described by one `Message`.
-/

namespace IoHdlc

open Kit

/-! ### Frames on the line -/

/-- `rx` is what the driver at the other end makes of `fp`: the format field and
what the buffer holds behind the frame are its own. -/
structure Frame.Delivers (fr : Framing) (fp rx : Frame) : Prop where
  addr : rx.addr fr = fp.addr fr
  ctrl : ∀ i < fr.ctrlSize, rx.ctrl fr i = fp.ctrl fr i
  payload : rx.payload fr = fp.payload fr

/-- What an I or S frame says: how far it acknowledges, and the payload it carries
with its position. -/
structure Message where
  ack : Nat
  data : Option (Nat × List UInt8)

namespace Message

/-- The frame says `m`. -/
structure Describes (fr : Framing) (m : Message) (fp : Frame) : Prop where
  nr : extractNR fr fp = fr.serial.word m.ack
  notU : isUFrm (fp.ctrl fr 0) = false
  kind : isIFrm (fp.ctrl fr 0) = m.data.isSome
  data : ∀ n x, m.data = some (n, x) → extractNS fr fp = fr.serial.word n ∧ fp.payload fr = x

theorem Describes.delivers {fr : Framing} {m : Message} {fp rx : Frame} (h : m.Describes fr fp)
    (hrx : fp.Delivers fr rx) : m.Describes fr rx := by
  have h₀ := hrx.ctrl 0 fr.ctrlSize_pos
  exact
    { nr := (extractNR_congr hrx.ctrl).trans h.nr
      notU := by rw [h₀]; exact h.notU
      kind := by rw [h₀]; exact h.kind
      data := fun n x hx => by
        rw [extractNS_congr h₀, hrx.payload]
        exact h.data n x hx }

/-- An S frame acknowledges what was delivered. -/
theorem describes_sFrame {l : Link} {fp : Frame} (h : l.IsSFrame fp) {k : Nat}
    (hvr : l.p.vr = l.s.framing.serial.word k) :
    Describes l.s.framing { ack := k, data := none } fp := by
  obtain ⟨stale, sFun, setPf, isCommand, hf, rfl⟩ := h
  have hnibble := lowNibble_buildSFrame l.s l.p stale l.p.vr setPf isCommand sFun
  exact
    { nr := by
        rw [extractNR_buildSFrame, hvr, ← l.s.framing.serial_mask, SerialSpace.word_and_mask]
      notU := by
        rw [isUFrm_iff_lowNibble, hnibble]
        rcases hf with rfl | rfl | rfl <;> decide
      kind := by
        rw [isIFrm_iff_lowNibble, hnibble]
        rcases hf with rfl | rfl | rfl <;> rfl
      data := nofun }

/-- An I frame also carries the payload at `next`. -/
theorem describes_iFrame {fr : Framing} {fp : Frame} {vr : UInt32} {n k : Nat}
    (hi : isIFrm (fp.ctrl fr 0) = true)
    (hns : extractNS fr fp = fr.serial.word n) (hnr : extractNR fr fp = vr &&& fr.modmask)
    (hvr : vr = fr.serial.word k) :
    Describes fr { ack := k, data := some (n, fp.payload fr) } fp :=
  { nr := by rw [hnr, hvr, ← fr.serial_mask, SerialSpace.word_and_mask]
    notU := not_isUFrm_of_isIFrm hi
    kind := hi
    data := fun _ _ hx => by
      cases hx
      exact ⟨hns, rfl⟩ }

end Message

/-! ### The two stations -/

/-- The stations and what is on the line from `a` to `b` and back, oldest first. -/
structure Network where
  a : Endpoint
  b : Endpoint
  ab : List Frame
  ba : List Frame

namespace Network

/-- The same network, seen from the other end. -/
def swap (n : Network) : Network := { a := n.b, b := n.a, ab := n.ba, ba := n.ab }

/-- What concerns the station `a`: one of its workers runs, the oldest frame to it
arrives, or a frame from it is lost. -/
inductive StepA (n : Network) : Network → Prop
  | works {out : Option Frame} {a' : Endpoint} (h : n.a.Step out a') :
    StepA n { n with a := a', ab := n.ab ++ out.toList }
  | receives {fp rx : Frame} {rest : List Frame} (hq : n.ba = fp :: rest)
    (hrx : fp.Delivers n.a.link.s.framing rx) :
    StepA n { n with a := n.a.receive rx, ba := rest }
  | loses {fp : Frame} {older newer : List Frame} (hq : n.ab = older ++ fp :: newer) :
    StepA n { n with ab := older ++ newer }

inductive Step (n : Network) : Network → Prop
  | a {n' : Network} (h : n.StepA n') : Step n n'
  | b {n' : Network} (h : n.swap.StepA n') : Step n n'.swap

/-- An end of a connection that was just opened, the only one of its station. -/
structure Connected (e : Endpoint) : Prop extends e.Opened where
  connectedCount : e.link.s.connectedCount = 1
  vr : e.link.p.vr = 0
  frmrCondition : e.link.p.frmrCondition = false
  uiTxPending : e.link.p.uiTxPending = false
  delivered : e.delivered = []

/-- Two such ends with the same framing, over an empty line. -/
structure Established (n : Network) : Prop where
  a : Connected n.a
  b : Connected n.b
  framing : n.b.link.s.framing = n.a.link.s.framing
  ab : n.ab = []
  ba : n.ba = []

/-! ### The invariant -/

/-- An end is connected, or its receive handler is gone and its transmit worker
rests. -/
structure EndInv (fr : Framing) (e : Endpoint) : Prop where
  framing : e.link.s.framing = fr
  ks_le : e.link.p.ks ≤ fr.modmask
  frmrCondition : e.link.p.frmrCondition = false
  connectedCount : e.link.p.ssState.stConn = true → e.link.s.connectedCount = 1
  uiTxPending : e.link.p.ssState.stConn = true → e.link.p.uiTxPending = false
  window : e.link.p.ssState.stConn = true → e.WindowInv
  rxFn : e.link.p.ssState.stConn = false → e.link.s.rxFn = none
  idle : e.link.p.ssState.stConn = false → e.TxIdle

/-- The traffic from `a` to `b` refines the flow `f`; `ab` and `ba` are what the
frames on the line say. -/
structure Refines (fr : Framing) (a b : Endpoint) (ab ba : List Message)
    (f : Flow (List UInt8)) : Prop where
  inv : f.Inv a.link.p.ks.toNat
  log : f.log = a.queued
  delivered : b.delivered = f.delivered
  window : a.link.p.ssState.stConn = true →
    a.link.p.txWindow.Represents fr a.link.p.ks.toNat f.log ⟨f.base, f.next, f.high⟩
  vr : b.link.p.ssState.stConn = true → b.link.p.vr = fr.serial.word f.rcvd
  data : f.data = ab.filterMap Message.data
  acks : f.acks = ba.map Message.ack

structure Inv (fr : Framing) (n : Network) (ab ba : List Message)
    (f g : Flow (List UInt8)) : Prop where
  a : EndInv fr n.a
  b : EndInv fr n.b
  lineAB : List.Forall₂ (Message.Describes fr) ab n.ab
  lineBA : List.Forall₂ (Message.Describes fr) ba n.ba
  there : Refines fr n.a n.b ab ba f
  back : Refines fr n.b n.a ba ab g

section Steps

variable {fr : Framing} {n : Network} {ab ba : List Message} {f g : Flow (List UInt8)}

theorem Inv.swap (h : Inv fr n ab ba f g) : Inv fr n.swap ba ab g f :=
  { a := h.b, b := h.a, lineAB := h.lineBA, lineBA := h.lineAB, there := h.back, back := h.there }

theorem Connected.endInv {e : Endpoint} (h : Connected e) (hfr : e.link.s.framing = fr) :
    EndInv fr e :=
  { framing := hfr
    ks_le := hfr ▸ h.ks_le
    frmrCondition := h.frmrCondition
    connectedCount := fun _ => h.connectedCount
    uiTxPending := fun _ => h.uiTxPending
    window := fun _ => h.windowInv
    rxFn := fun hc => absurd (h.stConn.symm.trans hc) nofun
    idle := fun hc => absurd (h.stConn.symm.trans hc) nofun }

theorem Connected.refines {a b : Endpoint} (ha : Connected a) (hb : Connected b) :
    Refines fr a b [] [] .start :=
  { inv := Flow.inv_start _
    log := ha.queued.symm
    delivered := hb.delivered
    window := fun _ => by
      rw [ha.txWindow]
      exact TxWindow.represents_empty _ _
    vr := fun _ => hb.vr.trans fr.serial.word_zero.symm
    data := rfl
    acks := rfl }

theorem Established.inv (h : n.Established) : Inv n.a.link.s.framing n [] [] .start .start :=
  { a := h.a.endInv rfl
    b := h.b.endInv h.framing
    lineAB := by rw [h.ab]; exact .nil
    lineBA := by rw [h.ba]; exact .nil
    there := h.a.refines h.b
    back := h.b.refines h.a }

/-! ### What a step does to one direction -/

section Direction

variable {a a' b b' : Endpoint} {m : Message}

theorem Refines.sender (h : Refines fr a b ab ba f) (hl : a.link.Quiet a'.link)
    (hq : a'.queued = a.queued) : Refines fr a' b ab ba f :=
  { h with
    inv := by rw [hl.ks]; exact h.inv
    log := h.log.trans hq.symm
    window := fun hc => by
      rw [hl.txWindow, hl.ks]
      exact h.window (hl.stConn.symm.trans hc) }

theorem Refines.receiver (h : Refines fr a b ab ba f)
    (hc : b'.link.p.ssState.stConn = b.link.p.ssState.stConn) (hvr : b'.link.p.vr = b.link.p.vr)
    (hd : b'.delivered = b.delivered) : Refines fr a b' ab ba f :=
  { h with
    delivered := hd.trans h.delivered
    vr := fun hc' => hvr.trans (h.vr (hc.symm.trans hc')) }

/-- A connection that ended asks nothing of its window or its `V(R)`. -/
theorem Refines.sender_aborted (h : Refines fr a b ab ba f) (hl : a.link.Aborted a'.link)
    (hq : a'.queued = a.queued) : Refines fr a' b ab ba f :=
  { h with
    inv := by rw [hl.ks]; exact h.inv
    log := h.log.trans hq.symm
    window := fun hc => absurd (hl.stConn.symm.trans hc) nofun }

theorem Refines.receiver_aborted (h : Refines fr a b ab ba f) (hl : b.link.Aborted b'.link)
    (hd : b'.delivered = b.delivered) : Refines fr a b' ab ba f :=
  { h with
    delivered := hd.trans h.delivered
    vr := fun hc => absurd (hl.stConn.symm.trans hc) nofun }

/-- Frames from `a` arrive or are lost. -/
theorem Refines.setData (h : Refines fr a b ab ba f) {ab' : List Message} (hsub : ab'.Sublist ab) :
    Refines fr a b ab' ba (f.setData (ab'.filterMap Message.data)) :=
  { h with
    inv := h.inv.setData (by rw [h.data]; exact hsub.filterMap _)
    data := rfl }

/-- Frames to `a` arrive or are lost. -/
theorem Refines.setAcks (h : Refines fr a b ab ba f) {ba' : List Message} (hsub : ba'.Sublist ba) :
    Refines fr a b ab ba' (f.setAcks (ba'.map Message.ack)) :=
  { h with
    inv := h.inv.setAcks (by rw [h.acks]; exact hsub.map _)
    acks := rfl }

/-- A frame from `a` without a payload. -/
theorem Refines.sendNone (h : Refines fr a b ab ba f) (hm : m.data = none) :
    Refines fr a b (ab ++ [m]) ba f :=
  { h with data := by rw [h.data, List.filterMap_append, List.filterMap_cons_none hm]; simp }

/-- Every frame from `b` acknowledges what it took. -/
theorem Refines.sendAck (h : Refines fr a b ab ba f) (hm : m.ack = f.rcvd) :
    Refines fr a b ab (ba ++ [m]) f.sendAck :=
  { h with
    inv := h.inv.sendAck
    acks := by
      rw [List.map_append, ← h.acks, Flow.sendAck, ← hm]
      rfl }

/-- A payload is queued. -/
theorem Refines.enqueue (h : Refines fr a b ab ba f) {x : List UInt8}
    (hks : a'.link.p.ks = a.link.p.ks) (hq : a'.queued = a.queued ++ [x])
    (hw : a'.link.p.txWindow.Represents fr a.link.p.ks.toNat (f.log ++ [x])
      ⟨f.base, f.next, f.high⟩) : Refines fr a' b ab ba (f.enqueue x) :=
  { h with
    inv := by rw [hks]; exact h.inv.enqueue x
    log := by rw [hq, ← h.log]; rfl
    delivered := by rw [Flow.delivered_enqueue h.inv]; exact h.delivered
    window := fun _ => by rw [hks]; exact hw }

/-- The payload at `next` is sent. -/
theorem Refines.send (h : Refines fr a b ab ba f) {x : List UInt8}
    (hks : a'.link.p.ks = a.link.p.ks) (hq : a'.queued = a.queued)
    (hm : m.data = some (f.next, x)) (hx : f.log[f.next]? = some x)
    (hroom : f.next < f.base + a.link.p.ks.toNat)
    (hw : a'.link.p.txWindow.Represents fr a.link.p.ks.toNat f.log
      ⟨f.base, f.next + 1, max f.high (f.next + 1)⟩) :
    Refines fr a' b (ab ++ [m]) ba (f.send x) :=
  { h with
    inv := by rw [hks]; exact h.inv.send hx hroom
    log := h.log.trans hq.symm
    window := fun _ => by rw [hks]; exact hw
    data := by
      rw [List.filterMap_append, ← h.data, List.filterMap_cons_some hm]
      rfl }

/-- The oldest acknowledgement arrives, and may start a retransmission. -/
theorem Refines.ack (h : Refines fr a b ab (m :: ba) f) (hks : a'.link.p.ks = a.link.p.ks)
    (hq : a'.queued = a.queued) {next : Nat} (hnext : next = f.next ∨ next = min m.ack f.next)
    (hw : a'.link.p.txWindow.Represents fr a.link.p.ks.toNat f.log
      ⟨min m.ack f.next, next, f.high⟩) : ∃ f', Refines fr a' b ab ba f' := by
  have hacked := h.inv.ackHead h.acks
  rcases hnext with rfl | rfl
  · exact ⟨(f.setAcks (ba.map Message.ack)).ack m.ack,
      { h with
        inv := by rw [hks]; exact hacked
        log := h.log.trans hq.symm
        window := fun _ => by rw [hks]; exact hw
        acks := rfl }⟩
  · exact ⟨((f.setAcks (ba.map Message.ack)).ack m.ack).rewind,
      { h with
        inv := by rw [hks]; exact hacked.rewind
        log := h.log.trans hq.symm
        window := fun _ => by rw [hks]; exact hw
        acks := rfl }⟩

/-- The oldest payload arrives and is the one that `b` waits for. -/
theorem Refines.accept {x : List UInt8} (h : Refines fr a b (m :: ab) ba f)
    (hm : m.data = some (f.rcvd, x)) (hvr : b'.link.p.vr = fr.serial.word (f.rcvd + 1))
    (hd : b'.delivered = b.delivered ++ [x]) :
    Refines fr a b' ab ba ((f.setData (ab.filterMap Message.data)).accept) := by
  have hdata := h.data
  rw [List.filterMap_cons_some hm] at hdata
  have hx := h.inv.data_log (f.rcvd, x) (by rw [hdata]; exact List.mem_cons_self)
  exact
    { h with
      inv := h.inv.acceptHead hdata
      delivered := by
        rw [hd, h.delivered]
        exact (Flow.delivered_accept hx).symm
      vr := fun _ => hvr
      data := rfl }

end Direction

/-! ### The steps of one station -/

/-- A frame from `a` is lost. -/
theorem Inv.loses (h : Inv fr n ab ba f g) {fp : Frame} {older newer : List Frame}
    (hq : n.ab = older ++ fp :: newer) :
    ∃ ab' f' g', Inv fr { n with ab := older ++ newer } ab' ba f' g' := by
  have hline := h.lineAB
  rw [hq] at hline
  have hold := List.forall₂_take_append _ _ _ hline
  have hnew := List.forall₂_drop_append ab (older ++ [fp]) newer (by simpa using hline)
  have hab' := List.rel_append hold hnew
  have hsub : (ab.take older.length ++ ab.drop (older ++ [fp]).length).Sublist ab := by
    rw [List.length_append, List.length_singleton, ← List.eraseIdx_eq_take_drop_succ]
    exact List.eraseIdx_sublist ..
  exact ⟨_, _, _,
    { h with lineAB := hab', there := h.there.setData hsub, back := h.back.setAcks hsub }⟩

theorem EndInv.quiet {e e' : Endpoint} (h : EndInv fr e) (hl : e.link.Quiet e'.link)
    (hw : e.WindowInv → e'.WindowInv)
    (hidle : e.TxIdle → e.link.p.ssState.stConn = false → e'.TxIdle) : EndInv fr e' :=
  { framing := hl.framing.trans h.framing
    ks_le := by rw [hl.ks]; exact h.ks_le
    frmrCondition := hl.frmrCondition.trans h.frmrCondition
    connectedCount := fun hc => hl.connectedCount.trans (h.connectedCount (hl.stConn.symm.trans hc))
    uiTxPending := fun hc => Bool.eq_false_iff.mpr fun hui =>
      absurd (hl.uiTxPending hui) (by rw [h.uiTxPending (hl.stConn.symm.trans hc)]; exact nofun)
    window := fun hc => hw (h.window (hl.stConn.symm.trans hc))
    rxFn := fun hc => hl.rxFn.trans (h.rxFn (hl.stConn.symm.trans hc))
    idle := fun hc =>
      hidle (h.idle (hl.stConn.symm.trans hc)) (hl.stConn.symm.trans hc) }

theorem EndInv.aborted {e e' : Endpoint} (h : EndInv fr e) (hl : e.link.Aborted e'.link)
    (hc : e.link.p.ssState.stConn = true) (hidle : e'.TxIdle) : EndInv fr e' :=
  { framing := hl.framing.trans h.framing
    ks_le := by rw [hl.ks]; exact h.ks_le
    frmrCondition := hl.frmrCondition
    connectedCount := fun hc' => absurd (hl.stConn.symm.trans hc') nofun
    uiTxPending := fun hc' => absurd (hl.stConn.symm.trans hc') nofun
    window := fun hc' => absurd (hl.stConn.symm.trans hc') nofun
    rxFn := fun _ => by
      rw [hl.rxFn, hl.connectedCount, if_pos hc, h.connectedCount hc]
      rfl
    idle := fun _ => hidle }

/-- An end that is not connected sends nothing. -/
theorem EndInv.conn_of_active {e : Endpoint} (h : EndInv fr e) (hactive : ¬e.TxIdle) :
    e.link.p.ssState.stConn = true := by
  by_contra hc
  exact hactive (h.idle (Bool.eq_false_iff.mpr hc))

/-- A worker of `a` runs. -/
theorem Inv.works (h : Inv fr n ab ba f g) {out : Option Frame} {a' : Endpoint}
    (hs : n.a.Step out a') :
    ∃ ab' f' g', Inv fr { n with a := a', ab := n.ab ++ out.toList } ab' ba f' g' := by
  obtain rfl := h.a.framing
  cases Endpoint.effect_of_step hs with
  | quiet link queued delivered sent writer hout idle =>
    have hend : EndInv n.a.link.s.framing a' := h.a.quiet link
      (fun hw => Endpoint.windowInv_quiet hw link queued sent writer) fun hi hc => (idle hi hc).1
    have hthere := h.there.sender link queued
    have hback := h.back.receiver link.stConn link.vr delivered
    cases out with
    | none =>
      refine ⟨ab, f, g, { h with a := hend, lineAB := ?_, there := hthere, back := hback }⟩
      simpa using h.lineAB
    | some fp =>
      -- Only a connected end sends, and without a pending UI it is an S frame.
      have hconn : n.a.link.p.ssState.stConn = true := by
        by_contra hc
        have hc := Bool.eq_false_iff.mpr hc
        cases (idle (h.a.idle hc) hc).2
      have hsf : n.a.link.IsSFrame fp := by
        rcases hout fp rfl with hsf | hui
        · exact hsf
        · exact absurd (hui.symm.trans (h.a.uiTxPending hconn)) nofun
      have hm := Message.describes_sFrame hsf (h.back.vr hconn)
      exact ⟨_, f, _,
        { h with
          a := hend
          lineAB := List.rel_append h.lineAB (.cons hm .nil)
          there := hthere.sendNone rfl
          back := hback.sendAck rfl }⟩
  | @insert fp remaining signalTx writer conn hout he' =>
    subst hout he'
    obtain ⟨hst, hroom⟩ := (h.a.window conn).room writer
    refine ⟨ab, _, g,
      { h with
        a := { h.a with window := fun _ => Endpoint.windowInv_insert (h.a.window conn) writer }
        lineAB := ?_
        there := h.there.enqueue rfl rfl ((h.there.window conn).insert hst hroom)
        back := h.back.receiver rfl rfl rfl }⟩
    simpa using h.lineAB
  | @iFrame fp fp' rest link hout active queued delivered sent writer =>
    subst hout
    have hconn := h.a.conn_of_active active
    have hinv := h.a.window hconn
    obtain ⟨hrep, hroom, hlog, hi, hns, hnr⟩ :=
      link.represents (h.there.window hconn) hinv.ks_lt
    have hm := Message.describes_iFrame hi hns hnr (h.back.vr hconn)
    exact ⟨_, _, _,
      { h with
        a :=
          { framing := link.framing
            ks_le := by rw [link.ks]; exact h.a.ks_le
            frmrCondition := link.frmrCondition.trans h.a.frmrCondition
            connectedCount := fun _ => link.connectedCount.trans (h.a.connectedCount hconn)
            uiTxPending := fun _ => Bool.eq_false_iff.mpr fun hui =>
              absurd (link.uiTxPending hui) (by rw [h.a.uiTxPending hconn]; exact nofun)
            window := fun _ => Endpoint.windowInv_iFrame hinv link queued sent writer
            rxFn := fun hc => absurd ((link.stConn.trans hconn).symm.trans hc) nofun
            idle := fun hc => absurd ((link.stConn.trans hconn).symm.trans hc) nofun }
        lineAB := List.rel_append h.lineAB (.cons hm .nil)
        there := h.there.send link.ks queued rfl hlog hroom hrep
        back := (h.back.receiver link.stConn link.vr delivered).sendAck rfl }⟩
  | aborted link conn idle hout queued delivered =>
    subst hout
    refine ⟨ab, f, g,
      { h with
        a := h.a.aborted link conn idle
        lineAB := ?_
        there := h.there.sender_aborted link queued
        back := h.back.receiver_aborted link delivered }⟩
    simpa using h.lineAB

/-! ### The reception of a frame -/

/-- The oldest message to `a` acknowledges what `a` has sent and `b` has taken. -/
theorem Inv.ack_valid (h : Inv fr n ab ba f g) {m : Message} {ba' : List Message}
    (hba : ba = m :: ba') (hconn : n.a.link.p.ssState.stConn = true) :
    f.base ≤ m.ack ∧ m.ack ≤ f.high ∧
      isNRValid n.a.link.s n.a.link.p (n.a.link.s.framing.serial.word m.ack) = true := by
  obtain rfl := h.a.framing
  have hmem : m.ack ∈ f.acks := by
    rw [h.there.acks, hba]
    exact List.mem_cons_self
  obtain ⟨hb, ha⟩ := h.there.inv.ack_bounds hmem
  exact ⟨hb, ha, isNRValid_word (h.there.window hconn) (h.a.window hconn).ks_lt hb ha⟩

/-- The payload that `a` waits for is recognised by its number. -/
theorem Inv.takes_iff (h : Inv fr n ab ba f g) {m : Message} {ba' : List Message} {rx : Frame}
    (hba : ba = m :: ba') (hm : m.Describes fr rx) (hconn : n.a.link.p.ssState.stConn = true) :
    (isIFrm (rx.ctrl fr 0) = true ∧ extractNS fr rx = n.a.link.p.vr) ↔
      m.data = some (g.rcvd, rx.payload fr) := by
  have hvr := h.back.vr hconn
  rw [hm.kind, hvr]
  cases hdata : m.data with
  | none => exact iff_of_false (fun hi => Bool.false_ne_true hi.1) nofun
  | some d =>
    obtain ⟨i, x⟩ := d
    obtain ⟨hns, hx⟩ := hm.data i x hdata
    -- Both numbers lie within one window of each other.
    have hnear := h.back.inv.data_bounds (x := (i, x)) (by
      rw [h.back.data, hba, List.filterMap_cons_some hdata]
      exact List.mem_cons_self)
    have hks : n.b.link.p.ks.toNat < fr.serial.modulus := by
      rw [Framing.modulus_serial]
      exact Nat.lt_succ_of_le (UInt32.le_iff_toNat_le.mp h.b.ks_le)
    dsimp only at hnear
    rw [hns, hx, fr.serial.word_eq_iff_of_near (by omega) (by omega)]
    simp

/-- The oldest frame to `a` arrives. -/
theorem Inv.receives (h : Inv fr n ab ba f g) {fp rx : Frame} {rest : List Frame}
    (hq : n.ba = fp :: rest) (hrx : fp.Delivers n.a.link.s.framing rx) :
    ∃ ba' f' g', Inv fr { n with a := n.a.receive rx, ba := rest } ab ba' f' g' := by
  obtain rfl := h.a.framing
  have hline := h.lineBA
  rw [hq] at hline
  obtain ⟨m, ba', hm, hrest, hba⟩ := List.forall₂_cons_right_iff.mp hline
  have hm := hm.delivers hrx
  have hquiet := Endpoint.lineBusy_quiet n.a.link
  have hkeep := Endpoint.receive_keeps n.a rx
  have hsub : ba'.Sublist ba := by
    rw [hba]
    exact List.sublist_cons_self ..
  rcases Endpoint.receive_cases n.a rx with hrecv | ⟨hfn, isCommand, hrecv⟩
  · have hthere : Refines _ (n.a.receive rx) n.b ab ba f :=
      h.there.sender (by rw [hrecv]; exact hquiet) (by rw [hrecv])
    have hback : Refines _ n.b (n.a.receive rx) ba ab g :=
      h.back.receiver (by rw [hrecv]; rfl) (by rw [hrecv]; rfl) (by rw [hrecv])
    refine ⟨ba', _, _,
      { h with
        a := ?_
        lineBA := hrest
        there := hthere.setAcks hsub
        back := hback.setData hsub }⟩
    rw [hrecv]
    exact h.a.quiet hquiet (fun hw => Endpoint.windowInv_quiet hw hquiet rfl rfl
      fun hr => hr.quiet hquiet fun _ _ _ hpc => hpc) fun hi _ => hi
  · have hconn : n.a.link.p.ssState.stConn = true := by
      by_contra hc
      exact hfn (h.a.rxFn (Bool.eq_false_iff.mpr hc))
    obtain ⟨hb, ha, hvalid⟩ := h.ack_valid hba hconn
    rw [← hm.nr] at hvalid
    have hrep := h.there.window hconn
    obtain ⟨next, hnext, hrep'⟩ := (@commonRx_window (Endpoint.lineBusy n.a.link) rx isCommand _ _ _
      hrep (h.a.window hconn).ks_lt h.a.frmrCondition _ hm.nr hb ha).represents (hrep.ack (le_min hb h.there.inv.base_le_next) (min_le_right ..))
    obtain ⟨hfrmr, hui, htake, hskip⟩ := @commonRx_receive (Endpoint.lineBusy n.a.link)
      rx isCommand h.a.frmrCondition hvalid
    have hthere := h.there
    have hback := h.back
    rw [hba] at hthere hback
    generalize hr : commonRx (Endpoint.lineBusy n.a.link) rx isCommand = r at *
    obtain ⟨f', hthere'⟩ : ∃ f', Refines _ (n.a.receive rx) n.b ab ba' f' :=
      hthere.ack hkeep.ks (by rw [hrecv]) hnext (by rw [hrecv]; exact hrep')
    obtain ⟨g', hback'⟩ : ∃ g', Refines _ n.b (n.a.receive rx) ba' ab g' := by
      by_cases hmine : m.data = some (g.rcvd, rx.payload n.a.link.s.framing)
      · obtain ⟨htaken, hvr, -⟩ := htake ((h.takes_iff hba hm hconn).mpr hmine)
        refine ⟨_, hback.accept hmine ?_ ?_⟩
        · rw [hrecv]
          refine hvr.trans ?_
          show (n.a.link.p.vr + 1) &&& n.a.link.s.framing.serial.mask = _
          rw [h.back.vr hconn, SerialSpace.word_add_one]
        · rw [hrecv]
          exact if_pos htaken
      · obtain ⟨hskipped, hvr, -⟩ := hskip (mt (h.takes_iff hba hm hconn).mp hmine)
        refine ⟨_, (hback.receiver hkeep.stConn ?_ ?_).setData (List.sublist_cons_self ..)⟩
        · rw [hrecv]
          exact hvr
        · rw [hrecv]
          exact if_neg (by rw [hskipped]; exact Bool.false_ne_true)
    refine ⟨ba', f', g',
      { h with
        a := ?_
        lineBA := hrest
        there := hthere'
        back := hback' }⟩
    have hconn' := hkeep.stConn.trans hconn
    exact
      { framing := hkeep.framing
        ks_le := by rw [hkeep.ks]; exact h.a.ks_le
        frmrCondition := by rw [hrecv]; exact hfrmr
        connectedCount := fun _ => hkeep.connectedCount.trans (h.a.connectedCount hconn)
        uiTxPending := fun _ => Bool.eq_false_iff.mpr fun hpend =>
          absurd (hui (by rw [hrecv] at hpend; exact hpend))
            (by rw [show (Endpoint.lineBusy n.a.link).p.uiTxPending = false from
              h.a.uiTxPending hconn]; exact nofun)
        window := fun _ => Endpoint.windowInv_receive (h.a.window hconn) rx
        rxFn := fun hc => absurd (hconn'.symm.trans hc) nofun
        idle := fun hc => absurd (hconn'.symm.trans hc) nofun }

/-- A step of the station `a`. -/
theorem Inv.stepA (h : Inv fr n ab ba f g) {n' : Network} (hs : n.StepA n') :
    ∃ ab' ba' f' g', Inv fr n' ab' ba' f' g' := by
  cases hs with
  | works hw =>
    obtain ⟨ab', f', g', h'⟩ := h.works hw
    exact ⟨ab', ba, f', g', h'⟩
  | receives hq hrx =>
    obtain ⟨ba', f', g', h'⟩ := h.receives hq hrx
    exact ⟨ab, ba', f', g', h'⟩
  | loses hq =>
    obtain ⟨ab', f', g', h'⟩ := h.loses hq
    exact ⟨ab', ba, f', g', h'⟩

/-- Every step, by symmetry. -/
theorem Inv.step (h : Inv fr n ab ba f g) {n' : Network} (hs : n.Step n') :
    ∃ ab' ba' f' g', Inv fr n' ab' ba' f' g' := by
  cases hs with
  | a hs => exact h.stepA hs
  | b hs =>
    obtain ⟨ba', ab', g', f', h'⟩ := h.swap.stepA hs
    exact ⟨ab', ba', f', g', h'.swap⟩

end Steps

/-! ### Whole runs -/

/-- Every state that a run reaches refines two flows. -/
theorem inv_reachable {n : Network} (h : Reachable Established Step n) :
    ∃ fr ab ba f g, Inv fr n ab ba f g :=
  h.invariant (fun n => ∃ fr ab ba f g, Inv fr n ab ba f g)
    (fun _ hn => ⟨_, _, _, _, _, hn.inv⟩) fun _ _ hinv hs => by
      obtain ⟨fr, ab, ba, f, g, hinv⟩ := hinv
      exact ⟨fr, hinv.step hs⟩

/-- What `b` was given is a prefix of what `a` queued, `a` is in no FRMR condition, and
the frame that it receives next is none for `handleUFrame` and has a valid N(R). -/
structure InOrder (n : Network) : Prop where
  delivered : n.b.delivered <+: n.a.queued
  frmrCondition : n.a.link.p.frmrCondition = false
  notU : ∀ fp rest, n.ba = fp :: rest → isUFrm (fp.ctrl n.a.link.s.framing 0) = false
  nr : ∀ fp rx rest, n.ba = fp :: rest → fp.Delivers n.a.link.s.framing rx →
    n.a.link.s.rxFn ≠ none →
      isNRValid n.a.link.s n.a.link.p (extractNR n.a.link.s.framing rx) = true

theorem Inv.inOrder {fr : Framing} {n : Network} {ab ba : List Message}
    {f g : Flow (List UInt8)} (h : Inv fr n ab ba f g) : n.InOrder where
  delivered := by
    rw [h.there.delivered, ← h.there.log]
    exact Flow.delivered_prefix f
  frmrCondition := h.a.frmrCondition
  notU := by
    obtain rfl := h.a.framing
    intro fp rest hq
    have hline := h.lineBA
    rw [hq] at hline
    obtain ⟨m, ba', hm, -, -⟩ := List.forall₂_cons_right_iff.mp hline
    exact hm.notU
  nr := by
    obtain rfl := h.a.framing
    intro fp rx rest hq hrx hfn
    have hconn : n.a.link.p.ssState.stConn = true := by
      by_contra hc
      exact hfn (h.a.rxFn (Bool.eq_false_iff.mpr hc))
    have hline := h.lineBA
    rw [hq] at hline
    obtain ⟨m, ba', hm, -, hba⟩ := List.forall₂_cons_right_iff.mp hline
    rw [(hm.delivers hrx).nr]
    exact (h.ack_valid hba hconn).2.2

/-- Delivery is in order and complete in both directions, in every reachable state. -/
theorem inOrder_reachable (n : Network) (h : Reachable Established Step n) :
    n.InOrder ∧ n.swap.InOrder := by
  obtain ⟨fr, ab, ba, f, g, hinv⟩ := inv_reachable h
  exact ⟨hinv.inOrder, hinv.swap.inOrder⟩

/-- The primary sends one octet and the secondary takes it. -/
theorem inOrder_reachable_oneOctet :
    ∃ n : Network, n.a.queued = [[0x41]] ∧ n.b.delivered = [[0x41]] ∧
      n.InOrder ∧ n.swap.InOrder := by
  have h₀ : Reachable Established Step
      { a := Endpoint.nrmEnd true 1 2, b := Endpoint.nrmEnd false 2 1, ab := [], ba := [] } :=
    .start
      { a := ⟨Endpoint.nrmEnd_opened .., rfl, rfl, rfl, rfl, rfl⟩
        b := ⟨Endpoint.nrmEnd_opened .., rfl, rfl, rfl, rfl, rfl⟩
        framing := rfl
        ab := rfl
        ba := rfl }
  have hpool : FromPool (some (Frame.taken (fun _ => 0) 0)) := fun fp hfp =>
    ⟨fun _ => 0, 0, (Option.mem_some_iff.mp hfp).symm⟩
  have h₁ := h₀.tail (.a (.works (.writeBegin [0x41] rfl)))
  have h₂ := h₁.tail (.a (.works (.writeReserve false _ rfl hpool)))
  have h₃ := h₂.tail (.a (.works (.writeInsert rfl)))
  have h₄ := h₃.tail (.a (.works (.txEntry ∅ none rfl nofun rfl (.inl rfl))))
  have h₅ := h₄.tail (.a (.works (.txCheck rfl)))
  have h₆ := h₅.tail (.a (.works (.txIFrame rfl)))
  have h₇ := h₆.tail (.b (.receives rfl ⟨rfl, fun _ _ => rfl, rfl⟩))
  refine ⟨_, rfl, ?_, inOrder_reachable _ h₇⟩
  decide +kernel

end Network

end IoHdlc
