import IoHdlc.Core.Write
import IoHdlc.Kit.Reachable

/-!
One end of a connection: the link, the places its transmit worker and its writer
have reached, and what has happened so far.

`Step` lists what the workers of a station do between two releases of the lock,
with the frame handed to the driver; `receive` is the section of the receive
worker. `Effect` sums up what a step does to the window, and everything that is
proved about runs goes through it.
-/

namespace IoHdlc

open Kit

structure Endpoint where
  link : Link
  pc : TxPc
  writer : WriterPc
  /-- The information fields of the frames that went into `iTransQ`. -/
  queued : List (List UInt8)
  /-- The information fields of the frames that `rx_ops->deliver` was given. -/
  delivered : List (List UInt8)
  /-- For each I frame handed to the driver, its place in `queued`. -/
  sent : List Nat

/-- A frame from the pool has no transmit state. -/
def FromPool (take : Option Frame) : Prop :=
  ∀ fp ∈ take, ∃ stale elen, fp = Frame.taken stale elen

/-- Neither the window nor the receive side changes. -/
structure Link.Quiet (l l' : Link) : Prop extends l.Keeps l' where
  vr : l'.p.vr = l.p.vr
  frmrCondition : l'.p.frmrCondition = l.p.frmrCondition
  uiTxPending : l'.p.uiTxPending = true → l.p.uiTxPending = true
  txWindow : l'.p.txWindow = l.p.txWindow

theorem Link.KeepsWindow.quiet {l l' : Link} (h : l.KeepsWindow l') : l.Quiet l' :=
  ⟨h.toKeeps, h.vr, h.frmrCondition, h.uiTxPending, h.txWindow⟩

namespace Endpoint

/-- The place in `queued` of the `i`-th frame of `iTransQ`. -/
def place (e : Endpoint) (i : Nat) : Nat := e.queued.length - e.link.p.iTransQ.length + i

/-! ### The sections of the other workers -/

/-- The expiry callback of the reply timer. -/
def replyTimerExpiry (l : Link) : Link :=
  if l.p.replyTmr.armed then
    { s := l.s.broadcastFlags {.cRplytmo}, p := { l.p with replyTmr := l.p.replyTmr.fire } }
  else l

/-- The expiry callback of T3. -/
def t3TimerExpiry (l : Link) : Link :=
  if l.p.t3Tmr.armed then
    { s := l.s.broadcastFlags {.t3Tmo}, p := { l.p with t3Tmr := l.p.t3Tmr.fire } }
  else l

/-- `ioHdlcRxEntry` when no frame arrived in time. -/
def lineIdle (l : Link) : Link :=
  { l with s := { l.s with
      flags := { l.s.flags with idl := true }
      cmListener := if l.s.flags.twa then l.s.cmListener ∪ {.lineIdle} ∩ flagsMask
        else l.s.cmListener } }

/-- A frame ends the idle state of the line. -/
def lineBusy (l : Link) : Link :=
  { l with s := { l.s with flags := { l.s.flags with idl := false } } }

/-- `ioHdlcRxEntry` with an I or S frame. -/
def receive (e : Endpoint) (fp : Frame) : Endpoint :=
  let r := rxDispatch (lineBusy e.link) fp
  { e with
    link := r.1
    delivered := if r.2 then e.delivered ++ [fp.payload e.link.s.framing] else e.delivered }

/-- What the workers do, and the frame that goes to the driver. -/
inductive Step (e : Endpoint) : Option Frame → Endpoint → Prop
  | writeBegin (octets : List UInt8) (hpc : e.writer = .idle) :
    Step e none
      { e with link := (writeBegin e.link octets).1, writer := (writeBegin e.link octets).2 }
  | writeReserve {remaining : List UInt8} {signalTx : Bool} (timedOut : Bool) (take : Option Frame)
    (hpc : e.writer = .loop remaining signalTx) (htake : FromPool take) :
    Step e none
      { e with
        link := (writeReserve e.link remaining signalTx timedOut take).1
        writer := (writeReserve e.link remaining signalTx timedOut take).2 }
  | writeInsert {fp : Frame} {remaining : List UInt8} {signalTx : Bool}
    (hpc : e.writer = .build fp remaining signalTx) :
    Step e none
      { e with
        link := (writeInsert e.link fp remaining signalTx).1
        writer := (writeInsert e.link fp remaining signalTx).2.1
        queued :=
          if (writeInsert e.link fp remaining signalTx).2.2 then
            e.queued ++ [fp.payload e.link.s.framing]
          else e.queued }
  | writeDone {signalTx : Bool} (hpc : e.writer = .done signalTx) :
    Step e none { e with link := writeDone e.link signalTx, writer := .idle }
  | txEntry {residual : EvtFlags} (flags : EvtFlags) (take : Option Frame)
    (hpc : e.pc = .idle residual) (htake : FromPool take) (hconn : e.link.p.isDisc = false)
    (hmode : e.link.s.mode = .nrm ∨ e.link.s.mode = .abm) :
    Step e (connectedTxEntry e.link flags take).sent
      { e with
        link := (connectedTxEntry e.link flags take).link
        pc := (connectedTxEntry e.link flags take).pc }
  | txCheck {flags : EvtFlags} (hpc : e.pc = .check flags) :
    Step e none { e with pc := (connectedTxCheck e.link flags).pc }
  | txIFrame {flags : EvtFlags} {iSent : Bool} (hpc : e.pc = .iFrame flags iSent) :
    Step e (connectedTxIFrame e.link flags iSent).sent
      { e with
        link := (connectedTxIFrame e.link flags iSent).link
        pc := (connectedTxIFrame e.link flags iSent).pc
        sent :=
          if (connectedTxIFrame e.link flags iSent).sent.isSome then e.sent ++ [e.place 0]
          else e.sent }
  | txSFrame {flags : EvtFlags} {iSent : Bool} (take : Nat → Option Frame)
    (hpc : e.pc = .skipIFrames flags iSent) (htake : ∀ i, FromPool (take i)) :
    Step e (connectedTxSFrame e.link flags iSent take).sent
      { e with
        link := (connectedTxSFrame e.link flags iSent take).link
        pc := (connectedTxSFrame e.link flags iSent take).pc }
  | replyTimer : Step e none { e with link := replyTimerExpiry e.link }
  | t3Timer : Step e none { e with link := t3TimerExpiry e.link }
  | idleLine : Step e none { e with link := lineIdle e.link }
  | poolState (state : PoolState) :
    Step e none { e with link := { e.link with s := { e.link.s with poolState := state } } }
  | broadcast (flags : EvtFlags) :
    Step e none { e with link := { e.link with s := e.link.s.broadcastFlags flags } }
  | read {fp : Frame} {rest : List Frame} (hq : e.link.p.iReceptQ = fp :: rest) :
    Step e none { e with link := { e.link with p := { e.link.p with iReceptQ := rest } } }

/-! ### What a step does -/

/-- The frame that the writer builds has a place in the queue and was never sent. -/
def WriterReady (e : Endpoint) : Prop :=
  ∀ fp remaining signalTx, e.writer = .build fp remaining signalTx →
    headerStamped e.link.s.framing fp = false ∧
      e.link.p.iPendingCount < writerPendingLimit e.link.p

/-- The transmit worker waits for events. -/
def TxIdle (e : Endpoint) : Prop := ∃ flags, e.pc = .idle flags

/-- What a step does to the window and to the history. -/
inductive Effect (e : Endpoint) (out : Option Frame) (e' : Endpoint) : Prop
  | quiet (link : e.link.Quiet e'.link) (queued : e'.queued = e.queued)
    (delivered : e'.delivered = e.delivered) (sent : e'.sent = e.sent)
    (writer : e.WriterReady → e'.WriterReady)
    (hout : ∀ fp ∈ out, e.link.IsSFrame fp ∨ e.link.p.uiTxPending = true)
    (idle : e.TxIdle → e.link.p.ssState.stConn = false → e'.TxIdle ∧ out = none)
  | insert {fp : Frame} {remaining : List UInt8} {signalTx : Bool}
    (writer : e.writer = .build fp remaining signalTx) (conn : e.link.p.ssState.stConn = true)
    (hout : out = none)
    (he' : e' =
      { e with
        link := { e.link with p := { e.link.p with
          iTransQ := e.link.p.iTransQ ++ [fp], iPendingCount := e.link.p.iPendingCount + 1 } }
        writer := .loop remaining true
        queued := e.queued ++ [fp.payload e.link.s.framing] })
  | iFrame {fp fp' : Frame} {rest : List Frame} (link : e.link.SendsIFrame e'.link fp fp' rest)
    (hout : out = some fp') (active : ¬e.TxIdle) (queued : e'.queued = e.queued)
    (delivered : e'.delivered = e.delivered) (sent : e'.sent = e.sent ++ [e.place 0])
    (writer : e'.writer = e.writer)
  | aborted (link : e.link.Aborted e'.link) (conn : e.link.p.ssState.stConn = true)
    (idle : e'.TxIdle) (hout : out = none) (queued : e'.queued = e.queued)
    (delivered : e'.delivered = e.delivered)

section Effects

variable {e e' : Endpoint} {out : Option Frame}

/-- The writer does not look at what a quiet step changes. -/
theorem WriterReady.quiet (h : e.WriterReady) (hl : e.link.Quiet e'.link)
    (hw : ∀ fp remaining signalTx, e'.writer = .build fp remaining signalTx →
      e.writer = .build fp remaining signalTx) : e'.WriterReady := by
  intro fp remaining signalTx hpc
  obtain ⟨hst, hpend⟩ := h fp remaining signalTx (hw _ _ _ hpc)
  have hcount : e'.link.p.iPendingCount = e.link.p.iPendingCount :=
    congrArg TxWindow.iPendingCount hl.txWindow
  rw [writerPendingLimit, hl.framing, hl.ks, hcount]
  exact ⟨hst, hpend⟩

theorem headerStamped_writeFragment (s : Station) (p : Peer) {fp : Frame} (hfp : fp.txCtrlLen = 0)
    (info : List UInt8) : headerStamped s.framing (writeFragment s p fp info) = false := by
  have hlen : (writeFragment s p fp info).txCtrlLen = 0 := hfp
  have hpos := s.framing.ctrlSize_pos
  rw [headerStamped, hlen, decide_eq_false (by omega), Bool.false_and]

theorem writeReserve_keeps (l : Link) (remaining : List UInt8) (signalTx timedOut : Bool)
    (take : Option Frame) : l.KeepsWindow (writeReserve l remaining signalTx timedOut take).1 := by
  simp only [writeReserve]
  repeat' split
  all_goals exact ⟨.touched l, rfl⟩

/-- A place is reserved only below the limit. -/
theorem writeReserve_build {l : Link} {remaining remaining' : List UInt8}
    {signalTx signalTx' timedOut : Bool} {take : Option Frame} (htake : FromPool take) {fp : Frame}
    (h : (writeReserve l remaining signalTx timedOut take).2 = .build fp remaining' signalTx') :
    headerStamped l.s.framing fp = false ∧ l.p.iPendingCount < writerPendingLimit l.p := by
  simp only [writeReserve] at h
  split at h
  · cases h
  split at h
  · cases h
  split at h
  · cases h
  split at h
  · cases timedOut <;> cases h
  next hwait =>
    split at h
    · cases h
    next taken =>
      obtain ⟨stale, elen, rfl⟩ := htake taken rfl
      cases h
      simp only [wWaitCond, Bool.or_eq_true, decide_eq_true_eq, not_or] at hwait
      exact ⟨headerStamped_writeFragment _ _ rfl _, UInt32.not_le.mp hwait.1⟩

/-- A step that touches neither the window nor the transmit worker. -/
theorem Effect.of_keepsWindow {l : Link} {w : WriterPc} (h : e.link.KeepsWindow l)
    (hw : e.WriterReady → ({ e with link := l, writer := w } : Endpoint).WriterReady) :
    e.Effect none { e with link := l, writer := w } :=
  .quiet h.quiet rfl rfl rfl hw nofun fun hidle _ => ⟨hidle, rfl⟩

theorem writeBegin_keeps (l : Link) (octets : List UInt8) :
    l.KeepsWindow (writeBegin l octets).1 ∧
      ∀ fp remaining signalTx, (writeBegin l octets).2 ≠ .build fp remaining signalTx := by
  rw [writeBegin]
  split
  · exact ⟨.refl l, nofun⟩
  · exact ⟨⟨.touched l, rfl⟩, nofun⟩

theorem replyTimerExpiry_keeps (l : Link) : l.KeepsWindow (replyTimerExpiry l) := by
  rw [replyTimerExpiry]
  split
  · exact ⟨.touched l, rfl⟩
  · exact .refl l

theorem t3TimerExpiry_keeps (l : Link) : l.KeepsWindow (t3TimerExpiry l) := by
  rw [t3TimerExpiry]
  split
  · exact ⟨.touched l, rfl⟩
  · exact .refl l

/-- A worker other than the writer and the transmit worker. -/
theorem Effect.of_quiet {l : Link} (h : e.link.Quiet l) : e.Effect none { e with link := l } :=
  .quiet h rfl rfl rfl (fun hw => hw.quiet h fun _ _ _ hpc => hpc) nofun
    fun hidle _ => ⟨hidle, rfl⟩

theorem effect_of_step (h : e.Step out e') : e.Effect out e' := by
  cases h with
  | writeBegin octets hpc =>
    obtain ⟨hkeep, hpc'⟩ := writeBegin_keeps e.link octets
    exact .of_keepsWindow hkeep fun _ _ _ _ hb => absurd hb (hpc' _ _ _)
  | @writeReserve remaining signalTx timedOut take hpc htake =>
    have hkeep := writeReserve_keeps e.link remaining signalTx timedOut take
    refine .of_keepsWindow hkeep fun _ fp remaining' signalTx' hb => ?_
    have hready := writeReserve_build htake hb
    have hcount := congrArg TxWindow.iPendingCount hkeep.txWindow
    change _ = e.link.p.iPendingCount at hcount
    show headerStamped (writeReserve e.link remaining signalTx timedOut take).1.s.framing fp = false ∧
      (writeReserve e.link remaining signalTx timedOut take).1.p.txWindow.iPendingCount <
        writerPendingLimit (writeReserve e.link remaining signalTx timedOut take).1.p
    rw [hkeep.framing, writerPendingLimit, hkeep.ks, hcount]
    exact hready
  | @writeInsert fp remaining signalTx hpc =>
    simp only [IoHdlc.writeInsert]
    split
    · exact .of_keepsWindow (.refl _) fun _ => nofun
    split
    · exact .of_keepsWindow (.refl _) fun _ => nofun
    next hdisc =>
      refine .insert hpc ?_ rfl rfl
      simpa [Peer.isDisc] using hdisc
  | writeDone hpc =>
    exact .of_keepsWindow ⟨.touched _, rfl⟩ fun _ => nofun
  | @txEntry residual flags take hpc htake hconn hmode =>
    have hstConn : e.link.p.ssState.stConn = true := by simpa [Peer.isDisc] using hconn
    rcases connectedTxEntry_cases e.link flags take with ⟨hkeep, -, hui⟩ | ⟨habort, hidle, hsent⟩
    · refine .quiet hkeep.quiet rfl rfl rfl (fun hw => hw.quiet hkeep.quiet fun _ _ _ h => h)
        (fun fp hfp => .inr ?_) fun _ hc => absurd (hstConn.symm.trans hc) nofun
      by_contra hn
      rw [hui (Bool.eq_false_iff.mpr hn)] at hfp
      cases hfp
    · exact .aborted habort hstConn hidle hsent rfl rfl
  | txCheck hpc =>
    refine .quiet (Link.KeepsWindow.refl _).quiet rfl rfl rfl (fun hw => hw) nofun ?_
    rintro ⟨f, hf⟩
    cases hf.symm.trans hpc
  | @txIFrame flags iSent hpc =>
    have hactive : ¬e.TxIdle := by
      rintro ⟨f, hf⟩
      cases hf.symm.trans hpc
    rcases connectedTxIFrame_cases e.link flags iSent with ⟨hkeep, hnone⟩ | ⟨fp, fp', rest, hsend, hsome⟩
    · rw [hnone]
      exact .quiet hkeep.quiet rfl rfl rfl (fun hw => hw.quiet hkeep.quiet fun _ _ _ h => h) nofun
        fun hidle _ => absurd hidle hactive
    · rw [hsome]
      exact .iFrame hsend rfl hactive rfl rfl rfl rfl
  | @txSFrame flags iSent take hpc htake =>
    obtain ⟨hkeep, -, hs⟩ := connectedTxSFrame_keeps e.link flags iSent take
    refine .quiet hkeep.quiet rfl rfl rfl (fun hw => hw.quiet hkeep.quiet fun _ _ _ h => h)
      (fun fp hfp => .inl (hs fp hfp)) ?_
    rintro ⟨f, hf⟩
    cases hf.symm.trans hpc
  | replyTimer => exact .of_quiet (replyTimerExpiry_keeps _).quiet
  | t3Timer => exact .of_quiet (t3TimerExpiry_keeps _).quiet
  | idleLine => exact .of_quiet (Link.KeepsWindow.quiet ⟨.touched _, rfl⟩)
  | poolState state => exact .of_quiet (Link.KeepsWindow.quiet ⟨.touched _, rfl⟩)
  | broadcast flags => exact .of_quiet (Link.KeepsWindow.quiet ⟨.touched _, rfl⟩)
  | read hq =>
    refine .of_quiet ⟨?_, rfl, rfl, id, rfl⟩
    constructor <;> rfl

/-- A frame is discarded or goes through `commonRx`. -/
theorem receive_cases (e : Endpoint) (fp : Frame) :
    e.receive fp = { e with link := lineBusy e.link } ∨
      (e.link.s.rxFn ≠ none ∧ ∃ isCommand,
        e.receive fp =
          { e with
            link := (commonRx (lineBusy e.link) fp isCommand).1
            delivered :=
              if (commonRx (lineBusy e.link) fp isCommand).2 then
                e.delivered ++ [fp.payload e.link.s.framing]
              else e.delivered }) := by
  rcases rxDispatch_cases (lineBusy e.link) fp with hdrop | ⟨hfn, isCommand, hrx⟩
  · refine .inl ?_
    simp only [receive, hdrop]
    rfl
  · refine .inr ⟨hfn, isCommand, ?_⟩
    simp only [receive, hrx]

theorem lineBusy_quiet (l : Link) : l.Quiet (lineBusy l) :=
  Link.KeepsWindow.quiet ⟨.touched l, rfl⟩

end Effects

end Endpoint

end IoHdlc
