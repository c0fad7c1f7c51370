import IoHdlc.Driver.TxProgress
import IoHdlc.Driver.PlainTransfer

/-!
The UART port (`ioHdlcstream_uart.c`) under the transmit pipeline.

The port takes one transfer at a time and never refuses a frame while it is idle, it reports the
end of each transfer, and it knows neither an abort nor a moment when it becomes ready. So the
answers that `TxPipe` leaves open are computed here, and of the sections of the driver the sending
of a frame and the completion remain.
-/

namespace IoHdlc

/-! ### The port -/

/-- `uarttxstate_t`. -/
inductive UartTxState where
  | idle | active | complete
  deriving DecidableEq, Repr

/-- The transmit side of `ioHdlcStreamChibiosUart` and of its UART driver; `remaining` are the
octets of the transfer that have not left yet. -/
structure UartTx (F : Type) where
  txFramep : Option F
  txstate : UartTxState
  remaining : List UInt8

namespace UartTx

variable {F : Type}

def chbTxBusy (u : UartTx F) : Bool := u.txFramep.isSome || u.txstate == .active

def chbTxSubmit (octets : List UInt8) (cookie : F) : UartTx F :=
  { txFramep := some cookie, txstate := .active, remaining := octets }

/-- `chb_tx_submit_frame`, and whether it returns 0; otherwise it returns `EAGAIN`. -/
def chbTxSubmitFrame (u : UartTx F) (fp : F) (octets : List UInt8) : Bool × UartTx F :=
  if u.chbTxBusy then (false, u) else (true, chbTxSubmit octets fp)

/-- The port in the interrupt at the end of a transfer, before `on_tx_done`. -/
def ended (u : UartTx F) : UartTx F := { u with txstate := .complete, txFramep := none }

/-- What the driver sees of `tx_submit_frame` and of `tx_busy` behind it. -/
def answer (u : UartTx F) : SubmitResult := { ok := !u.chbTxBusy, busy := true }

theorem answer_eq (u : UartTx F) (fp : F) (octets : List UInt8) :
    u.answer =
      { ok := (u.chbTxSubmitFrame fp octets).1
        busy := (u.chbTxSubmitFrame fp octets).2.chbTxBusy } := by
  rw [answer, chbTxSubmitFrame]
  cases hbusy : u.chbTxBusy with
  | true => simp [hbusy]
  | false => simp [chbTxSubmit, chbTxBusy]

/-- A submission never fails while the port is idle. -/
theorem answer_fails (u : UartTx F) : u.answer.fails = false := by
  simp [answer, SubmitResult.fails]

end UartTx

/-! ### The pipeline over an idle and over a busy port -/

namespace TxPipe

variable {F : Type} [DecidableEq F] {d : TxPipe F} {nfp fp : F} {first next : SubmitResult}

/-- On an idle port `drv_send_frame` starts the transfer itself. -/
structure Kicked (d : TxPipe F) (nfp : F) (d' : TxPipe F) : Prop where
  inflightFp : d'.inflightFp = some nfp
  rawQ : d'.rawQ = d.rawQ
  txBusy : d'.txBusy = true
  submits : d'.submits = d.submits ++ [(nfp, true)]
  openingflag : d'.openingflag nfp = true

theorem drvSendFrameQueue_kicked (hbusy : d.txBusy = false) (hnone : d.inflightFp = none)
    (hq : d.rawQ = []) (hfirst : first = { ok := true, busy := true }) :
    d.Kicked nfp (d.drvSendFrameQueue nfp first next) := by
  subst hfirst
  simp only [drvSendFrameQueue, hbusy, hnone, hq, Bool.not_false, and_self, if_true, submit,
    sTryStartNextTxI, Option.isSome_some, release]
  exact ⟨rfl, hq.symm, rfl, rfl, Function.update_self ..⟩

/-- Behind a frame in flight the frame is queued. -/
structure Queued (d : TxPipe F) (nfp : F) (d' : TxPipe F) : Prop where
  inflightFp : d'.inflightFp = d.inflightFp
  rawQ : d'.rawQ = d.rawQ ++ [nfp]
  txBusy : d'.txBusy = d.txBusy
  submits : d'.submits = d.submits

theorem drvSendFrameQueue_queued (hfl : d.inflightFp = some fp) (hnew : nfp ∉ d.rawQ) :
    d.Queued nfp (d.drvSendFrameQueue nfp first next) := by
  simp only [drvSendFrameQueue, hfl, reduceCtorEq, and_false, false_and, if_false, hnew,
    not_false_eq_true, if_true, sTryStartNextTxI, Option.isSome_some, release]
  exact ⟨hfl.symm, rfl, rfl, rfl⟩

/-- The completion leaves an empty queue idle. -/
structure Drained (d : TxPipe F) (d' : TxPipe F) : Prop where
  inflightFp : d'.inflightFp = none
  rawQ : d'.rawQ = []
  txBusy : d'.txBusy = d.txBusy
  submits : d'.submits = d.submits

@[simp] theorem release_inflightFp (d : TxPipe F) (fp : Option F) :
    (d.release fp).inflightFp = d.inflightFp := by
  cases fp <;> rfl

@[simp] theorem release_rawQ (d : TxPipe F) (fp : Option F) : (d.release fp).rawQ = d.rawQ := by
  cases fp <;> rfl

@[simp] theorem release_txBusy (d : TxPipe F) (fp : Option F) :
    (d.release fp).txBusy = d.txBusy := by
  cases fp <;> rfl

@[simp] theorem release_submits (d : TxPipe F) (fp : Option F) :
    (d.release fp).submits = d.submits := by
  cases fp <;> rfl

@[simp] theorem release_openingflag (d : TxPipe F) (fp : Option F) :
    (d.release fp).openingflag = d.openingflag := by
  cases fp <;> rfl

theorem sOnTxDone_drained (hfl : d.inflightFp = some fp) (hq : d.rawQ = []) :
    d.Drained (d.sOnTxDone (some fp) next) := by
  simp only [sOnTxDone, hfl, if_true, releaseGate, sTryStartNextTxI, Option.isSome_none,
    Bool.false_eq_true, if_false, hq]
  exact ⟨by simp, by simp, by simp, by simp⟩

/-- The completion starts the head of the queue behind the closing flag that was sent last. -/
structure Chained (d : TxPipe F) (nextFp : F) (rest : List F) (d' : TxPipe F) : Prop where
  inflightFp : d'.inflightFp = some nextFp
  rawQ : d'.rawQ = rest
  txBusy : d'.txBusy = true
  submits : d'.submits = d.submits ++ [(nextFp, true)]
  openingflag : d'.openingflag nextFp = false

theorem sOnTxDone_chained {nextFp : F} {rest : List F} (hfl : d.inflightFp = some fp)
    (hq : d.rawQ = nextFp :: rest) (hbusy : d.txBusy = false)
    (hnext : next = { ok := true, busy := true }) :
    d.Chained nextFp rest (d.sOnTxDone (some fp) next) := by
  subst hnext
  simp only [sOnTxDone, hfl, if_true, releaseGate, sTryStartNextTxI, Option.isSome_none,
    Bool.false_eq_true, if_false, hq, hbusy, submit]
  exact ⟨by simp, by simp, by simp, by simp, by simp⟩

end TxPipe

/-! ### The sending station -/

/-- The driver with its port. `source` is what was last put into a buffer for the wire. The logs
are the frames in the order in which their senders got the lock, and the transfers that were
started. -/
structure UartSender (F : Type) where
  run : TxRun F
  uart : UartTx F
  source : F → Sending
  given : List Sending
  transfers : List Sending

/-- What happens at the sending station; `shift` is one octet that leaves. -/
inductive UartEvent (F : Type) where
  | stamp (fp : F)
  | stamped (fp : F)
  | commit (fp : F) (frame : Frame) (take : Option (F × Frame))
  | queue (nfp : F)
  | shift
  | txEnd

namespace UartSender

variable {F : Type} [DecidableEq F]

/-- What the port sends for a frame of the driver. -/
def image (s : UartSender F) (run : TxRun F) (fp : F) : Sending :=
  { s.source fp with opening := run.pipe.openingflag fp }

/-- A section of the driver that finds the port as `uart`, with the submissions it makes. -/
def serve (cfg : DrvConfig) (s : UartSender F) (uart : UartTx F) (a : TxStimulus F) :
    Option (UartSender F) :=
  (s.run.act a).map fun run =>
    let submits := run.pipe.submits.drop s.run.pipe.submits.length
    { s with
      run := run
      uart := submits.foldl (fun u x => (u.chbTxSubmitFrame x.1 ((s.image run x.1).wire cfg)).2) uart
      transfers := s.transfers ++ (submits.filter Prod.snd).map fun x => s.image run x.1 }

/-- `drv_send_frame` up to the lock: the encoded copy, or the frame itself, is what goes out. -/
def commit (cfg : DrvConfig) (s : UartSender F) (fp : F) (frame : Frame)
    (take : Option (F × Frame)) : Option (UartSender F) :=
  let prepared := (sEmitFff cfg (frame.elen - cfg.frameFormatSize)).isOk
  let nfp := (s.run.pipe.drvSendFrameCommit fp prepared (take.map Prod.fst)).2
  let sending := { fp := frame, nfp := (take.map Prod.snd).getD frame, opening := false }
  (s.serve cfg s.uart (.commit fp prepared (take.map Prod.fst))).map fun s =>
    match nfp with
    | none => s
    | some nfp => { s with source := Function.update s.source nfp sending }

/-- The interrupt at the end of a transfer: `chb_txend_cb`, and the UART driver around it. -/
def txEnd (cfg : DrvConfig) (s : UartSender F) : Option (UartSender F) :=
  if s.uart.txstate = .active ∧ s.uart.remaining = [] then
    let uart := s.uart.ended
    (s.serve cfg uart (.done s.uart.txFramep uart.chbTxBusy uart.answer)).map fun s =>
      { s with uart := { s.uart with
        txstate := if s.uart.txstate = .complete then .idle else s.uart.txstate } }
  else none

/-- One event, and the octets that leave. -/
def act (cfg : DrvConfig) (s : UartSender F) : UartEvent F → Option (UartSender F × List UInt8)
  | .stamp fp => (s.serve cfg s.uart (.stamp fp)).map (·, [])
  | .stamped fp => (s.serve cfg s.uart (.stamped fp)).map (·, [])
  | .commit fp frame take => (s.commit cfg fp frame take).map (·, [])
  | .queue nfp =>
    (s.serve cfg s.uart (.queue nfp s.uart.answer s.uart.answer)).map fun s' =>
      ({ s' with given := s'.given ++ [s.source nfp] }, [])
  | .shift =>
    match s.uart.remaining with
    | [] => none
    | b :: rest => some ({ s with uart := { s.uart with remaining := rest } }, [b])
  | .txEnd => (s.txEnd cfg).map (·, [])

/-- A station that was just started. -/
structure Fresh (cfg : DrvConfig) (s : UartSender F) : Prop where
  run : s.run.Fresh
  transparency : s.run.pipe.applyTransparency = cfg.applyTransparency
  txBusy : s.run.pipe.txBusy = false
  uart : s.uart = { txFramep := none, txstate := .idle, remaining := [] }
  given : s.given = []
  transfers : s.transfers = []

end UartSender

/-! ### What is given fits the framing -/

/-- What a frame has to meet to be one frame at the other end: in transparent mode its image is
not taken for a fragment and fits the buffers, otherwise it survives. -/
def Sending.Fits (cfg : DrvConfig) (t : Sending) : Prop :=
  if cfg.applyTransparency then
    HDLC_BASIC_MIN_L ≤ (t.encoded cfg).length ∧ (t.encoded cfg).length + 1 ≤ cfg.framesize
  else cfg.frameFormatSize ≤ t.fp.elen ∧ t.Survives cfg

/-- What is on the line between the flags. -/
def Sending.lineBody (cfg : DrvConfig) (t : Sending) : List UInt8 :=
  if cfg.applyTransparency then t.encoded cfg else t.plainBody cfg

/-- What the core of the other station gets. -/
def Sending.lineContent (cfg : DrvConfig) (t : Sending) : List UInt8 :=
  if cfg.applyTransparency then t.fp.octets else t.plainContent cfg

theorem Sending.Fits.framed {cfg : DrvConfig} {t : Sending} (hsize : cfg.framesize ≤ 65535)
    (h : t.Fits cfg) : t.Framed cfg (t.lineBody cfg) (t.lineContent cfg) := by
  cases ht : cfg.applyTransparency with
  | true =>
    rw [Fits, if_pos ht] at h
    rw [lineBody, lineContent, if_pos ht, if_pos ht]
    exact t.framed_encoded ht hsize h.1 h.2
  | false =>
    have hne : ¬cfg.applyTransparency = true := by rw [ht]; exact Bool.false_ne_true
    rw [Fits, if_neg hne] at h
    rw [lineBody, lineContent, if_neg hne, if_neg hne]
    exact h.2.framed ht h.1

/-- The opening flag does not matter. -/
theorem Sending.Fits.opening {cfg : DrvConfig} {t : Sending} (h : t.Fits cfg) (opening : Bool) :
    ({ t with opening := opening } : Sending).Fits cfg := by
  rw [Fits] at h ⊢
  split at h
  next ht =>
    rw [if_pos ht]
    exact h
  next ht =>
    rw [if_neg ht]
    obtain ⟨hfield, hs⟩ := h
    exact ⟨hfield, ⟨hs.min, hs.fits, hs.total, hs.limit, hs.noFlag, hs.flagFree⟩⟩

/-- The frame without regard to its opening flag. -/
def Sending.closed (t : Sending) : Sending := { t with opening := false }

@[simp] theorem Sending.lineContent_closed (cfg : DrvConfig) (t : Sending) :
    t.closed.lineContent cfg = t.lineContent cfg := rfl

namespace UartSender

variable {F : Type} [DecidableEq F] {cfg : DrvConfig} {s s' : UartSender F} {a : TxStimulus F}
  {uart : UartTx F} {run : TxRun F}

/-! ### Sections and their submissions -/

/-- A section that submits nothing. -/
theorem serve_silent (hact : s.run.act a = some run) (hsub : run.pipe.submits = s.run.pipe.submits) :
    s.serve cfg uart a = some { s with run := run, uart := uart } := by
  rw [serve, hact, Option.map_some, hsub, List.drop_length]
  simp

/-- A section that submits one frame to an idle port. -/
theorem serve_submit {fp : F} (hact : s.run.act a = some run)
    (hsub : run.pipe.submits = s.run.pipe.submits ++ [(fp, true)]) (hidle : uart.chbTxBusy = false) :
    s.serve cfg uart a = some { s with
      run := run
      uart := UartTx.chbTxSubmit ((s.image run fp).wire cfg) fp
      transfers := s.transfers ++ [s.image run fp] } := by
  rw [serve, hact, Option.map_some, hsub, List.drop_left]
  simp [UartTx.chbTxSubmitFrame, hidle]

/-! ### The invariant -/

/-- The port is busy with the frame in flight, nothing waits for an idle port, and the transfers
with the queue behind them are the frames given. -/
structure Settled (cfg : DrvConfig) (s : UartSender F) : Prop where
  accounted : s.run.Accounted
  txBusy : s.run.pipe.txBusy = s.uart.chbTxBusy
  txFramep : s.uart.txFramep = s.run.pipe.inflightFp
  txstate : s.uart.txstate = if s.uart.txFramep.isSome then .active else .idle
  idle : s.run.pipe.inflightFp = none → s.run.pipe.rawQ = [] ∧ s.uart.remaining = []
  begun : s.run.pipe.inflightFp.isSome → s.transfers ≠ []
  given : s.given = s.transfers.map Sending.closed ++ s.run.pipe.rawQ.map s.source
  source : ∀ fp ∈ s.run.committing ++ s.run.pipe.rawQ,
    (s.source fp).Fits cfg ∧ (s.source fp).closed = s.source fp
  transfers : ∀ t ∈ s.transfers, t.Fits cfg

theorem Fresh.settled (h : s.Fresh cfg) : s.Settled cfg where
  accounted := TxRun.accounted_of_fresh h.run
  txBusy := by rw [h.txBusy, h.uart]; rfl
  txFramep := by rw [h.uart, h.run.pipe.inflightFp]
  txstate := by rw [h.uart]; rfl
  idle _ := ⟨h.run.pipe.rawQ, by rw [h.uart]⟩
  begun hsome := by rw [h.run.pipe.inflightFp] at hsome; cases hsome
  given := by rw [h.given, h.transfers, h.run.pipe.rawQ]; rfl
  source := by rw [h.run.committing, h.run.pipe.rawQ]; exact fun _ hmem => absurd hmem List.not_mem_nil
  transfers := by rw [h.transfers]; exact fun _ hmem => absurd hmem List.not_mem_nil

/-- With no frame in flight the port is idle. -/
theorem Settled.chbTxBusy (h : s.Settled cfg) :
    s.uart.chbTxBusy = s.run.pipe.inflightFp.isSome := by
  rw [UartTx.chbTxBusy, h.txstate, h.txFramep]
  cases s.run.pipe.inflightFp <;> rfl

/-- A frame that waits for the lock or in the queue has its gate taken. -/
theorem Settled.txGate (h : s.Settled cfg) {fp : F}
    (hfp : fp ∈ s.run.committing ++ s.run.pipe.rawQ) : s.run.pipe.txGate fp = true := by
  obtain ⟨past, failures, hb⟩ := h.accounted
  rw [hb.txGate]
  rcases List.mem_append.mp hfp with hc | hq
  · exact List.mem_append_left _ (List.mem_append_right _ hc)
  · exact List.mem_append_right _ (List.mem_append_right _ hq)

/-- How one event shows at the port: it does not, a transfer starts, or an octet leaves. -/
inductive Shows (cfg : DrvConfig) (s s' : UartSender F) : List UInt8 → Prop
  | quiet (htransfers : s'.transfers = s.transfers) (hremaining : s'.uart.remaining = s.uart.remaining) :
    Shows cfg s s' []
  | start {t : Sending} (htransfers : s'.transfers = s.transfers ++ [t])
    (hidle : s.uart.remaining = []) (hremaining : s'.uart.remaining = t.wire cfg)
    (hflag : t.opening = true ∨ s.transfers ≠ []) : Shows cfg s s' []
  | shift {b : UInt8} (htransfers : s'.transfers = s.transfers)
    (hremaining : s.uart.remaining = b :: s'.uart.remaining) : Shows cfg s s' [b]

/-! ### Steps -/

/-- A section that leaves the pipeline alone. -/
theorem Settled.quiet {source : F → Sending} (h : s.Settled cfg) (hacc : run.Accounted)
    (hbusy : run.pipe.txBusy = s.run.pipe.txBusy)
    (hfl : run.pipe.inflightFp = s.run.pipe.inflightFp) (hq : run.pipe.rawQ = s.run.pipe.rawQ)
    (hcommitting : ∀ fp ∈ run.committing, (source fp).Fits cfg ∧ (source fp).closed = source fp)
    (hqueued : ∀ fp ∈ s.run.pipe.rawQ, source fp = s.source fp) :
    ({ s with run := run, source := source } : UartSender F).Settled cfg where
  accounted := hacc
  txBusy := hbusy.trans h.txBusy
  txFramep := h.txFramep.trans hfl.symm
  txstate := h.txstate
  idle hnone := by
    rw [hq]
    exact h.idle (hfl.symm.trans hnone)
  begun hsome := h.begun (by rwa [hfl] at hsome)
  given := by
    rw [h.given, hq]
    exact congrArg _ (List.map_congr_left fun fp hfp => (hqueued fp hfp).symm)
  source fp hfp := by
    rcases List.mem_append.mp hfp with hc | hw
    · exact hcommitting fp hc
    · rw [hq] at hw
      change (source fp).Fits cfg ∧ (source fp).closed = source fp
      rw [hqueued fp hw]
      exact h.source fp (List.mem_append_right _ hw)
  transfers := h.transfers

theorem Settled.stamp {fp : F} (h : s.Settled cfg)
    (hserve : s.serve cfg s.uart (.stamp fp) = some s') :
    s'.Settled cfg ∧ s.Shows cfg s' [] := by
  obtain ⟨run, hact, -⟩ := Option.map_eq_some_iff.mp hserve
  have hacc := TxRun.accounted_step h.accounted hact
  have hrun : run.pipe.submits = s.run.pipe.submits ∧ run.pipe.txBusy = s.run.pipe.txBusy ∧
      run.pipe.inflightFp = s.run.pipe.inflightFp ∧ run.pipe.rawQ = s.run.pipe.rawQ ∧
      run.committing = s.run.committing := by
    simp only [TxRun.act] at hact
    split at hact
    · cases hact
    · cases hact
      exact ⟨rfl, rfl, rfl, rfl, rfl⟩
  obtain ⟨hsub, hbusy, hfl, hq, hcommitting⟩ := hrun
  rw [serve_silent hact hsub] at hserve
  cases hserve
  refine ⟨h.quiet hacc hbusy hfl hq (fun fp hfp => ?_) fun fp _ => rfl, .quiet rfl rfl⟩
  rw [hcommitting] at hfp
  exact h.source fp (List.mem_append_left _ hfp)

theorem Settled.stamped {fp : F} (h : s.Settled cfg)
    (hserve : s.serve cfg s.uart (.stamped fp) = some s') :
    s'.Settled cfg ∧ s.Shows cfg s' [] := by
  obtain ⟨run, hact, -⟩ := Option.map_eq_some_iff.mp hserve
  have hacc := TxRun.accounted_step h.accounted hact
  have hrun : run.pipe.submits = s.run.pipe.submits ∧ run.pipe.txBusy = s.run.pipe.txBusy ∧
      run.pipe.inflightFp = s.run.pipe.inflightFp ∧ run.pipe.rawQ = s.run.pipe.rawQ ∧
      run.committing = s.run.committing := by
    simp only [TxRun.act] at hact
    split at hact
    · cases hact
      exact ⟨rfl, rfl, rfl, rfl, rfl⟩
    · cases hact
  obtain ⟨hsub, hbusy, hfl, hq, hcommitting⟩ := hrun
  rw [serve_silent hact hsub] at hserve
  cases hserve
  refine ⟨h.quiet hacc hbusy hfl hq (fun fp hfp => ?_) fun fp _ => rfl, .quiet rfl rfl⟩
  rw [hcommitting] at hfp
  exact h.source fp (List.mem_append_left _ hfp)

/-- What a commit leaves of the pipeline, and the frame that it commits: one whose gate was free,
after its format field was written. -/
theorem drvSendFrameCommit_cases (d : TxPipe F) (fp : F) (prepared : Bool) (take : Option F) :
    (d.drvSendFrameCommit fp prepared take = (d, none)) ∨
      ∃ nfp, prepared = true ∧ d.txGate nfp = false ∧
        d.drvSendFrameCommit fp prepared take =
          ({ d with
            txGate := Function.update d.txGate nfp true
            refs := Function.update d.refs nfp (d.refs nfp + 1) }, some nfp) := by
  simp only [TxPipe.drvSendFrameCommit]
  split
  · exact .inl rfl
  next hgate =>
    split
    · exact .inl rfl
    next hprep =>
      have hprep' : prepared = true := by simpa using hprep
      split
      · cases take with
        | none => exact .inl rfl
        | some nfp =>
          dsimp only
          split
          · exact .inl rfl
          next hfree => exact .inr ⟨nfp, hprep', by simpa using hfree, rfl⟩
      · exact .inr ⟨fp, hprep', by simpa using hgate, rfl⟩

theorem Settled.commit {fp : F} {frame : Frame} {take : Option (F × Frame)} (h : s.Settled cfg)
    (hfits : (sEmitFff cfg (frame.elen - cfg.frameFormatSize)).isOk = true →
      ∀ nfp, ({ fp := frame, nfp := nfp, opening := false } : Sending).Fits cfg)
    (hcommit : s.commit cfg fp frame take = some s') :
    s'.Settled cfg ∧ s.Shows cfg s' [] := by
  simp only [UartSender.commit] at hcommit
  obtain ⟨s₁, hserve, hs'⟩ := Option.map_eq_some_iff.mp hcommit
  obtain ⟨run, hact, -⟩ := Option.map_eq_some_iff.mp hserve
  have hacc := TxRun.accounted_step h.accounted hact
  have hrun : run = { s.run with
      pipe := (s.run.pipe.drvSendFrameCommit fp
        (sEmitFff cfg (frame.elen - cfg.frameFormatSize)).isOk (take.map Prod.fst)).1
      committing := (s.run.pipe.drvSendFrameCommit fp
        (sEmitFff cfg (frame.elen - cfg.frameFormatSize)).isOk (take.map Prod.fst)).2.toList ++
          s.run.committing } := by
    simp only [TxRun.act] at hact
    split at hact
    · cases hact
      rfl
    · cases hact
  rcases drvSendFrameCommit_cases s.run.pipe fp
    (sEmitFff cfg (frame.elen - cfg.frameFormatSize)).isOk (take.map Prod.fst) with
    hnone | ⟨nfp, hprep, hgate, hsome⟩
  · rw [hnone] at hrun hs'
    subst hrun
    rw [serve_silent hact rfl] at hserve
    cases hserve
    cases hs'
    exact ⟨h.quiet hacc rfl rfl rfl (fun fp hfp => h.source fp (List.mem_append_left _ hfp))
      fun fp _ => rfl, .quiet rfl rfl⟩
  · rw [hsome] at hrun hs'
    subst hrun
    rw [serve_silent hact rfl] at hserve
    cases hserve
    cases hs'
    -- the buffers of the frames that wait are not written
    have hother : ∀ fp ∈ s.run.committing ++ s.run.pipe.rawQ, fp ≠ nfp := by
      rintro fp hfp rfl
      rw [h.txGate hfp] at hgate
      cases hgate
    refine ⟨h.quiet hacc rfl rfl rfl (fun fp hfp => ?_) fun fp hfp => ?_, .quiet rfl rfl⟩
    · rcases List.mem_cons.mp hfp with rfl | hold
      · rw [Function.update_self]
        exact ⟨hfits hprep _, rfl⟩
      · have hmem := List.mem_append_left s.run.pipe.rawQ hold
        rw [Function.update_of_ne (hother fp hmem)]
        exact h.source fp hmem
    · exact Function.update_of_ne (hother fp (List.mem_append_right _ hfp)) ..

/-- Where the frame that gets the lock is. -/
theorem Settled.notMem_rawQ (h : s.Settled cfg) {nfp : F} (hmem : nfp ∈ s.run.committing) :
    nfp ∉ s.run.pipe.rawQ := by
  obtain ⟨past, failures, hb⟩ := h.accounted
  intro hin
  exact (List.nodup_append.mp hb.nodup).2.2 nfp (List.mem_append_right _ hmem) nfp
    (List.mem_append_right _ hin) rfl

theorem Settled.queue {nfp : F} (h : s.Settled cfg)
    (hserve : s.serve cfg s.uart (.queue nfp s.uart.answer s.uart.answer) = some s') :
    ({ s' with given := s'.given ++ [s.source nfp] } : UartSender F).Settled cfg ∧
      s.Shows cfg { s' with given := s'.given ++ [s.source nfp] } [] := by
  obtain ⟨run, hact, -⟩ := Option.map_eq_some_iff.mp hserve
  have hacc := TxRun.accounted_step h.accounted hact
  obtain ⟨hmem, hrun⟩ : nfp ∈ s.run.committing ∧ run = { s.run with
      pipe := s.run.pipe.drvSendFrameQueue nfp s.uart.answer s.uart.answer
      committing := s.run.committing.erase nfp
      sent := s.run.sent ++ [nfp] } := by
    simp only [TxRun.act] at hact
    split at hact
    next hmem =>
      cases hact
      exact ⟨hmem, rfl⟩
    · cases hact
  have hsrc := h.source nfp (List.mem_append_left _ hmem)
  have hrest : ∀ fp ∈ s.run.committing.erase nfp, (s.source fp).Fits cfg ∧
      (s.source fp).closed = s.source fp := fun fp hfp =>
    h.source fp (List.mem_append_left _ (List.mem_of_mem_erase hfp))
  have hbusy := h.chbTxBusy
  subst hrun
  cases hfl : s.run.pipe.inflightFp with
  | none =>
    rw [hfl] at hbusy
    obtain ⟨hq, hremaining⟩ := h.idle hfl
    have hk : s.run.pipe.Kicked nfp
        (s.run.pipe.drvSendFrameQueue nfp s.uart.answer s.uart.answer) :=
      TxPipe.drvSendFrameQueue_kicked (h.txBusy.trans hbusy) hfl hq (by
        rw [UartTx.answer, hbusy]
        rfl)
    rw [serve_submit hact hk.submits hbusy] at hserve
    cases hserve
    refine ⟨
      { accounted := hacc
        txBusy := hk.txBusy
        txFramep := hk.inflightFp.symm
        txstate := rfl
        idle := fun hnone => absurd (hk.inflightFp.symm.trans hnone) (by simp)
        begun := fun _ => by simp
        given := ?_
        source := fun fp hfp => ?_
        transfers := fun t ht => ?_ },
      .start rfl hremaining rfl (.inl hk.openingflag)⟩
    · change s.given ++ [s.source nfp] = (s.transfers ++ [s.image _ nfp]).map Sending.closed ++
        List.map s.source (s.run.pipe.drvSendFrameQueue nfp s.uart.answer s.uart.answer).rawQ
      rw [hk.rawQ, hq, h.given, hq, List.map_append, List.map_singleton, List.map_nil,
        List.append_nil, List.append_nil]
      exact congrArg (s.transfers.map Sending.closed ++ [·]) hsrc.2.symm
    · rw [show (s.run.pipe.drvSendFrameQueue nfp s.uart.answer s.uart.answer).rawQ = [] from
        hk.rawQ.trans hq, List.append_nil] at hfp
      exact hrest fp hfp
    · rcases List.mem_append.mp ht with hold | hnew
      · exact h.transfers t hold
      · rw [List.mem_singleton.mp hnew]
        exact hsrc.1.opening _
  | some fp =>
    have hqd : s.run.pipe.Queued nfp
        (s.run.pipe.drvSendFrameQueue nfp s.uart.answer s.uart.answer) :=
      TxPipe.drvSendFrameQueue_queued hfl (h.notMem_rawQ hmem)
    rw [serve_silent hact hqd.submits] at hserve
    cases hserve
    refine ⟨
      { accounted := hacc
        txBusy := hqd.txBusy.trans h.txBusy
        txFramep := h.txFramep.trans hqd.inflightFp.symm
        txstate := h.txstate
        idle := fun hnone => absurd ((hqd.inflightFp.trans hfl).symm.trans hnone) (by simp)
        begun := fun _ => h.begun (by rw [hfl]; rfl)
        given := ?_
        source := fun fp hfp => ?_
        transfers := h.transfers },
      .quiet rfl rfl⟩
    · change s.given ++ [s.source nfp] = s.transfers.map Sending.closed ++
        List.map s.source (s.run.pipe.drvSendFrameQueue nfp s.uart.answer s.uart.answer).rawQ
      rw [hqd.rawQ, h.given, List.map_append, List.map_singleton, List.append_assoc]
    · change fp ∈ s.run.committing.erase nfp ++
        (s.run.pipe.drvSendFrameQueue nfp s.uart.answer s.uart.answer).rawQ at hfp
      rw [hqd.rawQ] at hfp
      rcases List.mem_append.mp hfp with hc | hq
      · exact hrest fp hc
      rcases List.mem_append.mp hq with hold | hnew
      · exact h.source fp (List.mem_append_right _ hold)
      · rw [List.mem_singleton.mp hnew]
        exact hsrc

theorem Settled.shift {b : UInt8} {rest : List UInt8} (h : s.Settled cfg)
    (hremaining : s.uart.remaining = b :: rest) :
    ({ s with uart := { s.uart with remaining := rest } } : UartSender F).Settled cfg ∧
      s.Shows cfg { s with uart := { s.uart with remaining := rest } } [b] := by
  refine ⟨{ h with idle := fun hnone => ?_ }, .shift rfl hremaining⟩
  rw [(h.idle hnone).2] at hremaining
  cases hremaining

theorem Settled.txEnd (h : s.Settled cfg) (hend : s.txEnd cfg = some s') :
    s'.Settled cfg ∧ s.Shows cfg s' [] := by
  simp only [UartSender.txEnd] at hend
  split at hend
  next hguard =>
    obtain ⟨hactive, hremaining⟩ := hguard
    -- the port is active only with a frame in flight
    obtain ⟨fp, hfl⟩ : ∃ fp, s.run.pipe.inflightFp = some fp := by
      rw [← Option.isSome_iff_exists, ← h.txFramep]
      by_contra hnone
      rw [h.txstate, if_neg hnone] at hactive
      cases hactive
    have hfree : s.uart.ended.chbTxBusy = false := rfl
    rw [h.txFramep, hfl, hfree] at hend
    obtain ⟨s₁, hserve, hs'⟩ := Option.map_eq_some_iff.mp hend
    obtain ⟨run, hact, -⟩ := Option.map_eq_some_iff.mp hserve
    have hacc := TxRun.accounted_step h.accounted hact
    obtain ⟨d, hfl', hq', hsubmits, hbusy, hrun⟩ : ∃ d : TxPipe F, d.inflightFp = some fp ∧
        d.rawQ = s.run.pipe.rawQ ∧ d.submits = s.run.pipe.submits ∧ d.txBusy = false ∧
        run = { s.run with pipe := d.sOnTxDone (some fp) s.uart.ended.answer } := by
      simp only [TxRun.act] at hact
      split at hact
      · cases hact
        exact ⟨{ s.run.pipe with
          txBusy := false, uncompleted := s.run.pipe.uncompleted.diff (some fp).toList },
          hfl, rfl, rfl, rfl, rfl⟩
      · cases hact
    subst hrun
    have hqueued : ∀ fp ∈ s.run.pipe.rawQ, (s.source fp).Fits cfg ∧
        (s.source fp).closed = s.source fp := fun fp hfp =>
      h.source fp (List.mem_append_right _ hfp)
    have hwaiting : ∀ fp ∈ s.run.committing, (s.source fp).Fits cfg ∧
        (s.source fp).closed = s.source fp := fun fp hfp =>
      h.source fp (List.mem_append_left _ hfp)
    cases hq : s.run.pipe.rawQ with
    | nil =>
      have hd : d.Drained (d.sOnTxDone (some fp) s.uart.ended.answer) :=
        TxPipe.sOnTxDone_drained hfl' (hq'.trans hq)
      rw [serve_silent hact (hd.submits.trans hsubmits)] at hserve
      cases hserve
      cases hs'
      refine ⟨
        { accounted := hacc
          txBusy := hd.txBusy.trans hbusy
          txFramep := hd.inflightFp.symm
          txstate := rfl
          idle := fun _ => ⟨hd.rawQ, hremaining⟩
          begun := fun hsome => ?_
          given := ?_
          source := fun fp hfp => ?_
          transfers := h.transfers },
        .quiet rfl rfl⟩
      · rw [hd.inflightFp] at hsome
        cases hsome
      · dsimp only
        rw [hd.rawQ, h.given, hq]
      · dsimp only at hfp
        rw [hd.rawQ, List.append_nil] at hfp
        exact hwaiting fp hfp
    | cons nextFp rest =>
      have hc : d.Chained nextFp rest (d.sOnTxDone (some fp) s.uart.ended.answer) :=
        TxPipe.sOnTxDone_chained hfl' (hq'.trans hq) hbusy rfl
      rw [hq] at hqueued
      have hsrc := hqueued nextFp List.mem_cons_self
      rw [serve_submit hact (hsubmits ▸ hc.submits) hfree] at hserve
      cases hserve
      cases hs'
      refine ⟨
        { accounted := hacc
          txBusy := hc.txBusy
          txFramep := hc.inflightFp.symm
          txstate := rfl
          idle := fun hnone => absurd (hc.inflightFp.symm.trans hnone) (by simp)
          begun := fun _ => by simp
          given := ?_
          source := fun fp hfp => ?_
          transfers := fun t ht => ?_ },
        .start rfl hremaining rfl (.inr (h.begun (by rw [hfl]; rfl)))⟩
      · dsimp only
        rw [hc.rawQ, h.given, hq, List.map_append, List.map_singleton, List.append_assoc,
          List.map_cons, List.singleton_append]
        exact congrArg (s.transfers.map Sending.closed ++ · :: rest.map s.source) hsrc.2.symm
      · dsimp only at hfp
        rw [hc.rawQ] at hfp
        rcases List.mem_append.mp hfp with hw | hr
        · exact hwaiting fp hw
        · exact hqueued fp (List.mem_cons_of_mem _ hr)
      · rcases List.mem_append.mp ht with hold | hnew
        · exact h.transfers t hold
        · rw [List.mem_singleton.mp hnew]
          exact hsrc.1.opening _
  · cases hend

/-! ### A step -/

/-- What the core sends fits the framing, or the driver refuses it. -/
def Allowed (cfg : DrvConfig) : UartEvent F → Prop
  | .commit _ frame _ => (sEmitFff cfg (frame.elen - cfg.frameFormatSize)).isOk = true →
    ∀ nfp, ({ fp := frame, nfp := nfp, opening := false } : Sending).Fits cfg
  | _ => True

theorem Settled.act {e : UartEvent F} {out : List UInt8} (h : s.Settled cfg)
    (hallowed : Allowed cfg e) (hact : s.act cfg e = some (s', out)) :
    s'.Settled cfg ∧ s.Shows cfg s' out := by
  cases e with
  | stamp fp =>
    obtain ⟨s₁, hserve, ⟨⟩⟩ := Option.map_eq_some_iff.mp hact
    exact h.stamp hserve
  | stamped fp =>
    obtain ⟨s₁, hserve, ⟨⟩⟩ := Option.map_eq_some_iff.mp hact
    exact h.stamped hserve
  | commit fp frame take =>
    obtain ⟨s₁, hcommit, ⟨⟩⟩ := Option.map_eq_some_iff.mp hact
    exact h.commit hallowed hcommit
  | queue nfp =>
    obtain ⟨s₁, hserve, ⟨⟩⟩ := Option.map_eq_some_iff.mp hact
    exact h.queue hserve
  | shift =>
    simp only [UartSender.act] at hact
    split at hact
    · cases hact
    next b rest hremaining =>
      cases hact
      exact h.shift hremaining
  | txEnd =>
    obtain ⟨s₁, hend, ⟨⟩⟩ := Option.map_eq_some_iff.mp hact
    exact h.txEnd hend

end UartSender

end IoHdlc
