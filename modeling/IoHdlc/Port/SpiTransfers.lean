import IoHdlc.Port.Spi

/-!
The SPI port transfers in one direction at a time, and every frame it accepts comes back once.

The invariant ties the two flags to the frame that is sent, to the transfers in progress and to
the log of the frames handed over. It holds wherever a callback can look at the port, but for one
place: inside `tx_submit_frame` the flag of the TX is already set.
-/

namespace IoHdlc

open Kit

namespace SpiPort

variable {F : Type} {p q : SpiPort F}

/-! ### The invariant -/

structure Exclusive (p : SpiPort F) : Prop where
  rxActive : p.txActive = true → p.rxActive = false
  clash : p.clash = false
  /-- The frame of an active TX is the open one, and the end of a transfer is still due. -/
  sending : p.txActive = true →
    p.started = true ∧ p.spi ≠ 0 ∧ ∃ f, p.txFramep = some f ∧ Hand.Open p.handed (some f)
  resting : p.txActive = false → Hand.Open p.handed none

/-- The fields that the invariant is about. -/
structure SameTransfer (p q : SpiPort F) : Prop where
  txActive : q.txActive = p.txActive
  rxActive : q.rxActive = p.rxActive
  txFramep : q.txFramep = p.txFramep
  started : q.started = p.started
  spi : q.spi = p.spi
  handed : q.handed = p.handed
  clash : q.clash = p.clash

theorem Exclusive.same (h : p.Exclusive) (hs : p.SameTransfer q) : q.Exclusive := by
  constructor
  · rw [hs.txActive, hs.rxActive]
    exact h.rxActive
  · rw [hs.clash]
    exact h.clash
  · rw [hs.txActive, hs.started, hs.spi, hs.txFramep, hs.handed]
    exact h.sending
  · rw [hs.txActive, hs.handed]
    exact h.resting

theorem Exclusive.look (h : p.Exclusive) : p.look.Exclusive := by
  refine h.same ⟨rfl, rfl, rfl, rfl, rfl, rfl, ?_⟩
  show (p.clash || (p.txActive && p.rxActive)) = p.clash
  cases htx : p.txActive with
  | false => rw [Bool.false_and, Bool.or_false]
  | true => rw [h.rxActive htx, Bool.and_false, Bool.or_false]

/-- While nothing is sent the rest of the port is free. -/
theorem Exclusive.of_rest (htx : q.txActive = false) (hclash : q.clash = false)
    (hopen : Hand.Open q.handed none) : q.Exclusive :=
  { rxActive := fun h => absurd (htx.symm.trans h) Bool.false_ne_true
    clash := hclash
    sending := fun h => absurd (htx.symm.trans h) Bool.false_ne_true
    resting := fun _ => hopen }

/-- A TX that ends, with a callback about its frame. -/
theorem Exclusive.complete (h : p.Exclusive) (htx : p.txActive = true) (hq : q.txActive = false)
    (hhanded : q.handed = p.handed) (hclash : q.clash = p.clash) :
    (q.complete p.txFramep).Exclusive := by
  refine .of_rest hq (hclash.trans h.clash) ?_
  obtain ⟨-, -, f, hf, hopen⟩ := h.sending htx
  rw [SpiPort.complete, hf, hhanded]
  exact hopen.completed

/-- A port that does not send, with other requests and transfers. -/
theorem Exclusive.rest (h : p.Exclusive) (htx : p.txActive = false) (hq : q.txActive = false)
    (hhanded : q.handed = p.handed) (hclash : q.clash = p.clash) : q.Exclusive :=
  .of_rest hq (hclash.trans h.clash) (hhanded ▸ h.resting htx)

/-- A stop, in whatever state. -/
theorem Exclusive.stop (h : p.Exclusive) : p.stop.Exclusive := by
  refine .of_rest rfl h.clash ?_
  cases htx : p.txActive with
  | false => exact (h.resting htx).stopped
  | true =>
    obtain ⟨-, -, f, -, hopen⟩ := h.sending htx
    exact hopen.stopped

theorem Exclusive.rest_of_stopped (h : p.Exclusive) (hstopped : (!p.started) = true) :
    p.txActive = false := by
  refine Bool.eq_false_iff.mpr fun htx => ?_
  rw [(h.sending htx).1] at hstopped
  cases hstopped

/-! ### Receive operations -/

theorem tryStartMasterRxI_exclusive (h : p.Exclusive) : p.tryStartMasterRxI.Exclusive := by
  rw [tryStartMasterRxI]
  split
  · exact h
  next hgo =>
    split
    · exact h
    split
    · exact h
    split
    · exact h
    · simp only [not_or, Bool.not_eq_true] at hgo
      exact .of_rest hgo.2.2.1 h.clash (h.resting hgo.2.2.1)

theorem rxSubmit_exclusive (h : p.Exclusive) (ptr n : Nat) (mode : RxMode) :
    (p.rxSubmit ptr n mode).Exclusive := by
  simp only [rxSubmit]
  split
  · exact h
  split
  · exact h.same ⟨rfl, rfl, rfl, rfl, rfl, rfl, rfl⟩
  next htx =>
    split
    · exact tryStartMasterRxI_exclusive (h.same ⟨rfl, rfl, rfl, rfl, rfl, rfl, rfl⟩)
    · have htx : p.txActive = false := Bool.eq_false_iff.mpr htx
      exact .of_rest htx h.clash (h.resting htx)

theorem rxCancel_exclusive (h : p.Exclusive) : p.rxCancel.Exclusive := by
  cases htx : p.txActive with
  | false => exact .of_rest htx h.clash (h.resting htx)
  | true =>
    -- A master that sends has no RX to stop.
    have hrx := h.rxActive htx
    refine h.same ⟨rfl, ?_, rfl, rfl, ?_, rfl, rfl⟩
    · show (p.rxActive && !p.isMaster) = p.rxActive
      rw [hrx, Bool.false_and]
    · show (if p.isMaster && p.rxActive then 0 else p.spi) = p.spi
      rw [hrx, Bool.and_false]
      rfl

theorem execRx_exclusive (h : p.Exclusive) (op : SpiRxOp) : (p.execRx op).Exclusive := by
  cases op with
  | rxSubmit ptr n mode => exact (rxSubmit_exclusive h ptr n mode).look
  | rxCancel => exact (rxCancel_exclusive h).look

/-! ### Submission of a frame -/

/-- The port inside `tx_submit_frame`: the flag is set, and no frame is open. -/
structure Turning (p : SpiPort F) : Prop where
  txActive : p.txActive = true
  rxActive : p.rxActive = false
  started : p.started = true
  clash : p.clash = false
  opened : Hand.Open p.handed none

theorem Turning.look (h : p.Turning) : p.look.Turning := by
  refine ⟨h.txActive, h.rxActive, h.started, ?_, h.opened⟩
  show (p.clash || (p.txActive && p.rxActive)) = false
  rw [h.clash, h.rxActive, Bool.and_false, Bool.false_or]

/-- While the flag is set a request is only saved. -/
theorem execRx_turning (h : p.Turning) (op : SpiRxOp) : (p.execRx op).Turning := by
  cases op with
  | rxSubmit ptr n mode =>
    have hsubmit : (p.rxSubmit ptr n mode).Turning := by
      simp only [rxSubmit, h.started, h.txActive]
      exact ⟨rfl, h.rxActive, rfl, h.clash, h.opened⟩
    exact hsubmit.look
  | rxCancel =>
    have hcancel : p.rxCancel.Turning :=
      ⟨h.txActive, by simp [rxCancel, h.rxActive], h.started, h.clash, h.opened⟩
    exact hcancel.look

theorem callRx_turning (h : p.Turning) (ops : List SpiRxOp) : (p.callRx ops).Turning := by
  have hfold (ops : List SpiRxOp) : ∀ {p : SpiPort F}, p.Turning →
      (ops.foldl execRx p).Turning := by
    induction ops with
    | nil => exact id
    | cons op ops ih => exact fun h => ih (execRx_turning h op)
  exact hfold ops h.look

theorem turnToTx_turning (h : p.Exclusive) (hstarted : p.started = true)
    (htx : p.txActive = false) : p.turnToTx.Turning :=
  ⟨rfl, rfl, hstarted, h.clash, h.resting htx⟩

theorem startTx_exclusive (hrx : p.rxActive = false) (hstarted : p.started = true)
    (hclash : p.clash = false) (hopen : Hand.Open p.handed none) (fp : F) (needs : Bool) :
    (p.startTx fp needs).Exclusive :=
  { rxActive := fun _ => hrx
    clash := hclash
    sending := fun _ => ⟨hstarted, Nat.succ_ne_zero _, fp, rfl, hopen.accepted fp⟩
    resting := nofun }

theorem txSubmitFrame_exclusive (h : p.Exclusive) {fp : F} {onRxError : List SpiRxOp}
    (hq : p.txSubmitFrame fp onRxError = some q) : q.Exclusive := by
  simp only [txSubmitFrame] at hq
  split at hq
  · cases hq
    exact h
  next hstarted =>
    have hstarted : p.started = true := by simpa using hstarted
    split at hq
    · cases hq
    next htx =>
      have htx : p.txActive = false := Bool.eq_false_iff.mpr htx
      split at hq
      · cases hq
        exact h
      split at hq
      · cases hq
        have hturn := callRx_turning (turnToTx_turning h hstarted htx) onRxError
        exact startTx_exclusive hturn.rxActive hturn.started hturn.clash hturn.opened _ _
      next hrx =>
        cases hq
        rw [not_or, Bool.not_eq_true] at hrx
        exact startTx_exclusive hrx.1 hstarted h.clash (h.resting htx) _ _

theorem exec_exclusive (h : p.Exclusive) {op : SpiOp F} (hq : p.exec op = some q) :
    q.Exclusive := by
  cases op with
  | rx op =>
    cases hq
    exact execRx_exclusive h op
  | txSubmitFrame fp onRxError =>
    obtain ⟨q₁, hq₁, rfl⟩ := Option.map_eq_some_iff.mp hq
    exact (txSubmitFrame_exclusive h hq₁).look

theorem callLocked_exclusive {ops : List (SpiOp F)} (hq : p.callLocked ops = some q)
    (h : p.Exclusive) : q.Exclusive :=
  foldlM_invariant Exclusive (fun _ _ _ _ h hop => exec_exclusive h hop) h.look hq

/-! ### Interrupts -/

/-- What an edge does: nothing, a callback with nothing sent away, an RX that may start, or the
abort of a TX, which the callback is about. -/
theorem dataReadyI_cases {high : Bool} {onTx : List (SpiOp F)}
    (hq : p.dataReadyI high onTx = some q) :
    ∃ p₁,
      (q = p₁ ∨ q = p₁.tryStartMasterRxI ∨ p₁.callLocked onTx = some q ∨
        ∃ p₂ : SpiPort F, (p₂.complete p.txFramep).callLocked onTx = some q ∧
          p.txActive = true ∧ p₂.txActive = false ∧ p₂.rxPtr = p.rxPtr ∧
          p₂.started = p.started ∧ p₂.handed = p.handed ∧ p₂.clash = p.clash) ∧
      p.SameTransfer p₁ ∧ p₁.rxPtr = p.rxPtr := by
  simp only [dataReadyI] at hq
  split at hq
  · cases hq
  split at hq
  · cases hq
    exact ⟨p, .inl rfl, ⟨rfl, rfl, rfl, rfl, rfl, rfl, rfl⟩, rfl⟩
  -- The line was low before, and high in between.
  split at hq
  · split at hq
    next htx =>
      exact ⟨p, .inr (.inr (.inr ⟨_, hq, htx, rfl, rfl, rfl, rfl, rfl⟩)),
        ⟨rfl, rfl, rfl, rfl, rfl, rfl, rfl⟩, rfl⟩
    · exact ⟨_, .inr (.inr (.inl hq)), ⟨rfl, rfl, rfl, rfl, rfl, rfl, rfl⟩, rfl⟩
  · generalize hp₁ : ite (p.drLastHigh = true) _ _ = p₁ at hq
    have hsame : p.SameTransfer p₁ ∧ p₁.rxPtr = p.rxPtr := by
      rw [← hp₁]
      split <;> exact ⟨⟨rfl, rfl, rfl, rfl, rfl, rfl, rfl⟩, rfl⟩
    obtain ⟨⟨htx₁, hrx₁, hf₁, hst₁, hspi₁, hhanded₁, hclash₁⟩, hptr₁⟩ := hsame
    split at hq
    · exact ⟨p₁, .inr (.inr (.inl hq)), ⟨htx₁, hrx₁, hf₁, hst₁, hspi₁, hhanded₁, hclash₁⟩, hptr₁⟩
    split at hq
    next htx =>
      rw [htx₁] at htx
      rw [hf₁] at hq
      exact ⟨p₁, .inr (.inr (.inr ⟨_, hq, htx, rfl, hptr₁, hst₁, hhanded₁, hclash₁⟩)),
        ⟨htx₁, hrx₁, hf₁, hst₁, hspi₁, hhanded₁, hclash₁⟩, hptr₁⟩
    split at hq
    · cases hq
      exact ⟨_, .inl rfl, ⟨htx₁, hrx₁, hf₁, hst₁, hspi₁, hhanded₁, hclash₁⟩, hptr₁⟩
    · cases hq
      exact ⟨_, .inr (.inl rfl), ⟨htx₁, hrx₁, hf₁, hst₁, hspi₁, hhanded₁, hclash₁⟩, hptr₁⟩

theorem dataReadyI_exclusive (h : p.Exclusive) {high : Bool} {onTx : List (SpiOp F)}
    (hq : p.dataReadyI high onTx = some q) : q.Exclusive := by
  obtain ⟨p₁, rfl | rfl | hcall | ⟨p₂, hcall, htx, htx₂, -, -, hhanded, hclash⟩, hsame, -⟩ :=
    dataReadyI_cases hq
  · exact h.same hsame
  · exact tryStartMasterRxI_exclusive (h.same hsame)
  · exact callLocked_exclusive hcall (h.same hsame)
  · exact callLocked_exclusive hcall (h.complete htx htx₂ hhanded hclash)

theorem execCb_exclusive (h : p.Exclusive) {op : SpiCbOp F} (hq : p.execCb op = some q) :
    q.Exclusive := by
  cases op with
  | op op => exact exec_exclusive h hq
  | stop =>
    cases hq
    exact h.stop.look
  | dataReady high onTx =>
    obtain ⟨q₁, hq₁, rfl⟩ := Option.map_eq_some_iff.mp hq
    exact (dataReadyI_exclusive h hq₁).look

theorem callUnlocked_exclusive {ops : List (SpiCbOp F)} (hq : p.callUnlocked ops = some q)
    (h : p.Exclusive) : q.Exclusive :=
  foldlM_invariant Exclusive (fun _ _ _ _ h hop => execCb_exclusive h hop) h.look hq

theorem afterTxDone_exclusive (h : p.Exclusive) : p.afterTxDone.Exclusive := by
  rw [afterTxDone]
  split
  · exact h
  split
  next hrest =>
    split
    · exact tryStartMasterRxI_exclusive h
    · have htx : p.txActive = false := by simpa using hrest.1
      exact .of_rest htx h.clash (h.resting htx)
  · exact h

theorem dataCb_exclusive (h : p.Exclusive) {onTxDone onRx : List (SpiCbOp F)}
    {onTxReady : List (SpiOp F)} (hq : p.dataCb onTxDone onRx onTxReady = some q) :
    q.Exclusive := by
  simp only [dataCb] at hq
  split at hq
  next hstopped =>
    cases hq
    have htx := h.rest_of_stopped hstopped
    exact h.rest htx htx rfl rfl
  split at hq
  next htx =>
    obtain ⟨q₁, hq₁, rfl⟩ := Option.map_eq_some_iff.mp hq
    exact afterTxDone_exclusive (callUnlocked_exclusive hq₁ (h.complete htx rfl rfl rfl))
  next htx =>
    have htx : p.txActive = false := Bool.eq_false_iff.mpr htx
    split at hq
    · split at hq
      · obtain ⟨q₁, hq₁, hq⟩ := Option.bind_eq_some_iff.mp hq
        have hq₁ := callUnlocked_exclusive hq₁ (h.rest htx htx rfl rfl)
        refine callLocked_exclusive hq (tryStartMasterRxI_exclusive ?_)
        exact { hq₁ with rxActive := fun _ => rfl }
      · exact callUnlocked_exclusive hq (h.rest htx htx rfl rfl)
    · cases hq
      exact h.rest htx htx rfl rfl

theorem errorCb_exclusive (h : p.Exclusive) {onTxError : List (SpiOp F)}
    {onRxError : List (SpiCbOp F)} (hq : p.errorCb onTxError onRxError = some q) :
    q.Exclusive := by
  simp only [errorCb] at hq
  split at hq
  next hstopped =>
    cases hq
    have htx := h.rest_of_stopped hstopped
    exact h.rest htx htx rfl rfl
  split at hq
  next htx => exact callLocked_exclusive hq (h.complete htx rfl rfl rfl)
  next htx =>
    have htx : p.txActive = false := Bool.eq_false_iff.mpr htx
    exact callUnlocked_exclusive hq (h.rest htx rfl rfl rfl)

theorem slaveOverrunI_exclusive (h : p.Exclusive) {onTxError : List (SpiOp F)}
    {onRxError : List (SpiCbOp F)} (hq : p.slaveOverrunI onTxError onRxError = some q) :
    q.Exclusive := by
  simp only [slaveOverrunI] at hq
  split at hq
  · cases hq
    exact h
  split at hq
  next htx =>
    obtain ⟨q₁, hq₁, hq⟩ := Option.bind_eq_some_iff.mp hq
    exact callUnlocked_exclusive hq
      (callLocked_exclusive hq₁ (h.complete htx rfl rfl rfl))
  next htx =>
    have htx : p.txActive = false := Bool.eq_false_iff.mpr htx
    exact callUnlocked_exclusive hq (h.rest htx rfl rfl rfl)

theorem slaveWatchdogTimeout_exclusive (h : p.Exclusive) {onTxError : List (SpiOp F)}
    {onRxError : List (SpiCbOp F)} (hq : p.slaveWatchdogTimeout onTxError onRxError = some q) :
    q.Exclusive := by
  simp only [slaveWatchdogTimeout] at hq
  split at hq
  · cases hq
    exact h
  split at hq
  next htx =>
    split at hq
    · obtain ⟨q₁, hq₁, hq⟩ := Option.bind_eq_some_iff.mp hq
      exact callUnlocked_exclusive hq
        (callLocked_exclusive hq₁ (h.complete htx rfl rfl rfl))
    · cases hq
      exact h.same ⟨rfl, rfl, rfl, rfl, rfl, rfl, rfl⟩
  next htx =>
    have htx : p.txActive = false := Bool.eq_false_iff.mpr htx
    split at hq
    · split at hq
      · exact callUnlocked_exclusive hq (h.rest htx rfl rfl rfl)
      · cases hq
        exact h.same ⟨rfl, rfl, rfl, rfl, rfl, rfl, rfl⟩
    · cases hq
      exact h.same ⟨rfl, rfl, rfl, rfl, rfl, rfl, rfl⟩

/-! ### Runs -/

theorem serve_exclusive (h : p.Exclusive) {e : SpiEvent F} (hq : p.serve e = some q) :
    q.Exclusive := by
  cases e with
  | rx op =>
    cases hq
    exact execRx_exclusive h op
  | txSubmitFrame fp onRxError => exact txSubmitFrame_exclusive h hq
  | stop =>
    cases hq
    exact h.stop
  | data onTxDone onRx onTxReady =>
    simp only [serve] at hq
    split at hq
    · exact dataCb_exclusive h hq
    · cases hq
  | error onTxError onRxError =>
    simp only [serve] at hq
    split at hq
    · exact errorCb_exclusive h hq
    · cases hq
  | slaveOverrun onTxError onRxError => exact slaveOverrunI_exclusive h hq
  | dataReady high onTx => exact dataReadyI_exclusive h hq
  | slaveWatchdog onTxError onRxError => exact slaveWatchdogTimeout_exclusive h hq

theorem step_exclusive (h : p.Exclusive) {e : SpiEvent F} (hq : p.step e = some q) :
    q.Exclusive := by
  obtain ⟨q₁, hq₁, rfl⟩ := Option.map_eq_some_iff.mp hq
  exact (serve_exclusive h hq₁).look

theorem start_exclusive (isMaster cancelSlaveRx : Bool) (limit : UInt16) :
    (start isMaster cancelSlaveRx limit : SpiPort F).Exclusive :=
  .of_rest rfl rfl .nil

/-- The invariant holds behind every run. -/
theorem run_exclusive (h : p.Exclusive) {events : List (SpiEvent F)}
    (hq : p.run events = some q) : q.Exclusive :=
  foldlM_invariant Exclusive (fun _ _ _ _ h hstep => step_exclusive h hstep) h hq

/-! ### The log only grows -/

theorem tryStartMasterRxI_handed (p : SpiPort F) : p.tryStartMasterRxI.handed = p.handed := by
  rw [tryStartMasterRxI]
  split
  · rfl
  split
  · rfl
  split
  · rfl
  split <;> rfl

theorem rxSubmit_handed (p : SpiPort F) (ptr n : Nat) (mode : RxMode) :
    (p.rxSubmit ptr n mode).handed = p.handed := by
  simp only [rxSubmit]
  split
  · rfl
  split
  · rfl
  split
  · rw [tryStartMasterRxI_handed]
  · rfl

theorem execRx_handed (p : SpiPort F) (op : SpiRxOp) : (p.execRx op).handed = p.handed := by
  cases op with
  | rxSubmit ptr n mode => exact rxSubmit_handed p ptr n mode
  | rxCancel => rfl

theorem callRx_handed (p : SpiPort F) (ops : List SpiRxOp) : (p.callRx ops).handed = p.handed := by
  have hfold (ops : List SpiRxOp) : ∀ p : SpiPort F, (ops.foldl execRx p).handed = p.handed := by
    induction ops with
    | nil => exact fun _ => rfl
    | cons op ops ih => exact fun p => (ih (p.execRx op)).trans (execRx_handed p op)
  exact hfold ops p.look

section Grows

variable {l : List (Hand F)}

theorem txSubmitFrame_grows {fp : F} {onRxError : List SpiRxOp}
    (hq : p.txSubmitFrame fp onRxError = some q) (hl : l <+: p.handed) : l <+: q.handed := by
  simp only [txSubmitFrame] at hq
  split at hq
  · cases hq
    exact hl
  split at hq
  · cases hq
  split at hq
  · cases hq
    exact hl
  split at hq
  · cases hq
    refine List.IsPrefix.trans ?_ (List.prefix_append _ _)
    rwa [callRx_handed]
  · cases hq
    exact hl.trans (List.prefix_append _ _)

theorem exec_grows {op : SpiOp F} (hq : p.exec op = some q) (hl : l <+: p.handed) :
    l <+: q.handed := by
  cases op with
  | rx op =>
    cases hq
    rwa [execRx_handed]
  | txSubmitFrame fp onRxError =>
    obtain ⟨q₁, hq₁, rfl⟩ := Option.map_eq_some_iff.mp hq
    exact txSubmitFrame_grows (q := q₁) hq₁ hl

theorem callLocked_grows {ops : List (SpiOp F)} (hq : p.callLocked ops = some q)
    (hl : l <+: p.handed) : l <+: q.handed :=
  foldlM_invariant (fun q => l <+: q.handed) (fun _ _ _ _ hl hop => exec_grows hop hl) hl hq

theorem dataReadyI_grows {high : Bool} {onTx : List (SpiOp F)}
    (hq : p.dataReadyI high onTx = some q) (hl : l <+: p.handed) : l <+: q.handed := by
  obtain ⟨p₁, rfl | rfl | hcall | ⟨p₂, hcall, -, -, -, -, hhanded, -⟩, hsame, -⟩ :=
    dataReadyI_cases hq
  · rwa [hsame.handed]
  · rwa [tryStartMasterRxI_handed, hsame.handed]
  · exact callLocked_grows hcall (hsame.handed ▸ hl)
  · exact callLocked_grows hcall ((hhanded ▸ hl).trans (List.prefix_append _ _))

theorem execCb_grows {op : SpiCbOp F} (hq : p.execCb op = some q) (hl : l <+: p.handed) :
    l <+: q.handed := by
  cases op with
  | op op => exact exec_grows hq hl
  | stop =>
    cases hq
    exact hl.trans (List.prefix_append _ _)
  | dataReady high onTx =>
    obtain ⟨q₁, hq₁, rfl⟩ := Option.map_eq_some_iff.mp hq
    exact dataReadyI_grows (q := q₁) hq₁ hl

theorem callUnlocked_grows {ops : List (SpiCbOp F)} (hq : p.callUnlocked ops = some q)
    (hl : l <+: p.handed) : l <+: q.handed :=
  foldlM_invariant (fun q => l <+: q.handed) (fun _ _ _ _ hl hop => execCb_grows hop hl) hl hq

end Grows

theorem afterTxDone_handed (p : SpiPort F) : p.afterTxDone.handed = p.handed := by
  rw [afterTxDone]
  split
  · rfl
  split
  · split
    · rw [tryStartMasterRxI_handed]
    · rfl
  · rfl

/-- A data or error callback of a port that sends completes the frame. -/
theorem step_completes (h : p.Exclusive) (htx : p.txActive = true) {f : F}
    (hf : p.txFramep = some f) {e : SpiEvent F} (he : e.EndsTransfer) (hq : p.step e = some q) :
    p.handed ++ [.completed f] <+: q.handed := by
  obtain ⟨hstarted, -, -⟩ := h.sending htx
  obtain ⟨q₁, hq₁, rfl⟩ := Option.map_eq_some_iff.mp hq
  show _ <+: q₁.handed
  have hlog (q₀ : SpiPort F) (hq₀ : q₀.handed = p.handed) :
      p.handed ++ [.completed f] <+: (q₀.complete p.txFramep).handed := by
    rw [complete, hf, hq₀]
    exact List.prefix_rfl
  cases e with
  | data onTxDone onRx onTxReady =>
    simp only [serve, dataCb, hstarted, htx] at hq₁
    split at hq₁
    · obtain ⟨q₂, hq₂, rfl⟩ := Option.map_eq_some_iff.mp hq₁
      rw [afterTxDone_handed]
      exact callUnlocked_grows hq₂ (hlog _ rfl)
    · cases hq₁
  | error onTxError onRxError =>
    simp only [serve, errorCb, hstarted, htx] at hq₁
    split at hq₁
    · exact callLocked_grows hq₁ (hlog _ rfl)
    · cases hq₁
  | _ => cases he

end SpiPort

end IoHdlc
