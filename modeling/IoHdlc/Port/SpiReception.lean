import IoHdlc.Port.SpiTransfers

/-!
Reception over the SPI port under the software driver.

`s_on_rx` is both callbacks about an RX. It ends with `rx_submit`; after an error `rx_cancel` comes
before. The callbacks about a TX only submit frames, and `s_on_tx_error_i` does nothing to the port.
So each handler that takes the request away has to make a callback about the RX. The one for a
failed TX does not: the port stays without a request.
-/

namespace IoHdlc

open Kit

/-! ### The callbacks of the driver -/

/-- `s_on_rx` inside `tx_submit_frame`. -/
def SpiRxOp.Rearm (ops : List SpiRxOp) : Prop :=
  ∃ ptr n mode, ops = [.rxCancel, .rxSubmit ptr n mode]

variable {F : Type}

/-- `s_try_start_next_tx_i`, one frame. -/
def SpiOp.IsTx : SpiOp F → Prop
  | .rx _ => False
  | .txSubmitFrame _ onRxError => SpiRxOp.Rearm onRxError

/-- A frame, or an edge with the frames that it lets through. -/
def SpiCbOp.IsTx : SpiCbOp F → Prop
  | .op o => o.IsTx
  | .stop => False
  | .dataReady _ onTx => ∀ o ∈ onTx, o.IsTx

/-- `s_on_rx` without an error. -/
def SpiCbOp.OnRx (ops : List (SpiCbOp F)) : Prop :=
  ∃ before after ptr n mode, ops = before ++ .op (.rx (.rxSubmit ptr n mode)) :: after ∧
    (∀ o ∈ before, o.IsTx) ∧ ∀ o ∈ after, o.IsTx

/-- `s_on_rx` with an error. -/
def SpiCbOp.OnRxError (ops : List (SpiCbOp F)) : Prop :=
  ∃ before onRx, ops = before ++ .op (.rx .rxCancel) :: onRx ∧ (∀ o ∈ before, o.IsTx) ∧ OnRx onRx

/-- What happens to a port that is in use by the driver. -/
def SpiEvent.OfDriver : SpiEvent F → Prop
  | .rx _ | .stop => False
  | .txSubmitFrame _ onRxError => SpiRxOp.Rearm onRxError
  | .data onTxDone onRx onTxReady =>
    (∀ op ∈ onTxDone, op.IsTx) ∧ SpiCbOp.OnRx onRx ∧ ∀ op ∈ onTxReady, op.IsTx
  | .error onTxError onRxError => onTxError = [] ∧ SpiCbOp.OnRxError onRxError
  | .slaveOverrun onTxError onRxError => onTxError = [] ∧ SpiCbOp.OnRxError onRxError
  | .dataReady _ onTx => ∀ op ∈ onTx, op.IsTx
  | .slaveWatchdog onTxError onRxError => onTxError = [] ∧ SpiCbOp.OnRxError onRxError

/-- The error callback of the SPI driver. -/
def SpiEvent.IsError : SpiEvent F → Prop
  | .error .. => True
  | _ => False

namespace SpiPort

variable {p q : SpiPort F}

/-! ### The request of a started port -/

/-- The port runs and, where `armed`, has a request. -/
structure Ready (armed : Bool) (p : SpiPort F) : Prop where
  started : p.started = true
  rxPtr : armed = true → p.rxPtr ≠ none

section Ready

variable {armed : Bool}

theorem Ready.same (h : p.Ready armed) (hstarted : q.started = p.started)
    (hptr : q.rxPtr = p.rxPtr) : q.Ready armed :=
  ⟨hstarted.trans h.started, fun ha => hptr ▸ h.rxPtr ha⟩

theorem Ready.look (h : p.Ready armed) : p.look.Ready armed := h.same rfl rfl

theorem tryStartMasterRxI_request (p : SpiPort F) :
    p.tryStartMasterRxI.started = p.started ∧ p.tryStartMasterRxI.rxPtr = p.rxPtr := by
  rw [tryStartMasterRxI]
  split
  · exact ⟨rfl, rfl⟩
  split
  · exact ⟨rfl, rfl⟩
  split
  · exact ⟨rfl, rfl⟩
  split <;> exact ⟨rfl, rfl⟩

theorem tryStartMasterRxI_ready (h : p.Ready armed) : p.tryStartMasterRxI.Ready armed :=
  h.same (tryStartMasterRxI_request p).1 (tryStartMasterRxI_request p).2

/-- A request is saved, whether its RX starts or not. -/
theorem rxSubmit_request (p : SpiPort F) (ptr n : Nat) (mode : RxMode) :
    (p.rxSubmit ptr n mode).started = p.started ∧
      (p.started = true → (p.rxSubmit ptr n mode).rxPtr = some ptr) := by
  simp only [rxSubmit]
  split
  next hstopped => exact ⟨rfl, fun hstarted => absurd hstopped (by simp [hstarted])⟩
  split
  · exact ⟨rfl, fun _ => rfl⟩
  split
  · rw [(tryStartMasterRxI_request _).1, (tryStartMasterRxI_request _).2]
    exact ⟨rfl, fun _ => rfl⟩
  · exact ⟨rfl, fun _ => rfl⟩

theorem rxSubmit_ready (h : p.started = true) (ptr n : Nat) (mode : RxMode) :
    (p.execRx (.rxSubmit ptr n mode)).Ready armed := by
  have hreq := rxSubmit_request p ptr n mode
  refine ⟨hreq.1.trans h, fun _ => ?_⟩
  show (p.rxSubmit ptr n mode).rxPtr ≠ none
  rw [hreq.2 h]
  nofun

/-- A frame leaves the request alone, or `s_on_rx` replaces it. -/
theorem txSubmitFrame_ready (h : p.Ready armed) {fp : F} {onRxError : List SpiRxOp}
    (hrearm : SpiRxOp.Rearm onRxError) (hq : p.txSubmitFrame fp onRxError = some q) :
    q.Ready armed := by
  simp only [txSubmitFrame] at hq
  split at hq
  · cases hq
    exact h
  split at hq
  · cases hq
  split at hq
  · cases hq
    exact h
  split at hq
  · cases hq
    obtain ⟨ptr, n, mode, rfl⟩ := hrearm
    have hsubmit : (p.turnToTx.callRx [.rxCancel, .rxSubmit ptr n mode]).Ready armed :=
      rxSubmit_ready (p := p.turnToTx.look.execRx .rxCancel) h.started ptr n mode
    exact hsubmit.same rfl rfl
  · cases hq
    exact h.same rfl rfl

theorem exec_ready (h : p.Ready armed) {op : SpiOp F} (hop : op.IsTx)
    (hq : p.exec op = some q) : q.Ready armed := by
  cases op with
  | rx op => exact absurd hop id
  | txSubmitFrame fp onRxError =>
    obtain ⟨q₁, hq₁, rfl⟩ := Option.map_eq_some_iff.mp hq
    exact (txSubmitFrame_ready h hop hq₁).same rfl rfl

theorem callLocked_ready {ops : List (SpiOp F)} (hq : p.callLocked ops = some q)
    (hops : ∀ op ∈ ops, op.IsTx) (h : p.Ready armed) : q.Ready armed :=
  foldlM_invariant (Ready armed) (fun op hop _ _ h hq => exec_ready h (hops op hop) hq)
    h.look hq

theorem dataReadyI_ready (h : p.Ready armed) {high : Bool} {onTx : List (SpiOp F)}
    (hops : ∀ op ∈ onTx, op.IsTx) (hq : p.dataReadyI high onTx = some q) : q.Ready armed := by
  obtain ⟨p₁, rfl | rfl | hcall | ⟨p₂, hcall, -, -, hptr₂, hst₂, -, -⟩, hsame, hptr⟩ :=
    dataReadyI_cases hq
  · exact h.same hsame.started hptr
  · exact tryStartMasterRxI_ready (h.same hsame.started hptr)
  · exact callLocked_ready hcall hops (h.same hsame.started hptr)
  · exact callLocked_ready hcall hops (h.same hst₂ hptr₂)

theorem execCb_ready (h : p.Ready armed) {op : SpiCbOp F} (hop : op.IsTx)
    (hq : p.execCb op = some q) : q.Ready armed := by
  cases op with
  | op op => exact exec_ready h hop hq
  | stop => exact absurd hop id
  | dataReady high onTx =>
    obtain ⟨q₁, hq₁, rfl⟩ := Option.map_eq_some_iff.mp hq
    exact (dataReadyI_ready h hop hq₁).same rfl rfl

theorem foldlM_execCb_ready {ops : List (SpiCbOp F)} (hq : ops.foldlM execCb p = some q)
    (hops : ∀ op ∈ ops, op.IsTx) (h : p.Ready armed) : q.Ready armed :=
  foldlM_invariant (Ready armed) (fun op hop _ _ h hq => execCb_ready h (hops op hop) hq) h hq

theorem afterTxDone_ready (h : p.Ready armed) : p.afterTxDone.Ready armed := by
  rw [afterTxDone]
  split
  · exact h
  split
  · split
    · exact tryStartMasterRxI_ready h
    · exact h.same rfl rfl
  · exact h

/-- `s_on_rx` leaves a request behind. -/
theorem foldlM_onRx_ready {ops : List (SpiCbOp F)} (hq : ops.foldlM execCb p = some q)
    (hops : SpiCbOp.OnRx ops) (h : p.started = true) : q.Ready true := by
  obtain ⟨before, after, ptr, n, mode, rfl, hbefore, hafter⟩ := hops
  rw [List.foldlM_append] at hq
  obtain ⟨p₁, hp₁, hq⟩ := Option.bind_eq_some_iff.mp hq
  have hready : p₁.Ready false := foldlM_execCb_ready hp₁ hbefore ⟨h, nofun⟩
  exact foldlM_execCb_ready (p := p₁.execRx (.rxSubmit ptr n mode)) hq hafter
    (rxSubmit_ready hready.started ptr n mode)

theorem foldlM_onRxError_ready {ops : List (SpiCbOp F)} (hq : ops.foldlM execCb p = some q)
    (hops : SpiCbOp.OnRxError ops) (h : p.started = true) : q.Ready true := by
  obtain ⟨before, onRx, rfl, hbefore, honRx⟩ := hops
  rw [List.foldlM_append] at hq
  obtain ⟨p₁, hp₁, hq⟩ := Option.bind_eq_some_iff.mp hq
  have hready : p₁.Ready false := foldlM_execCb_ready hp₁ hbefore ⟨h, nofun⟩
  exact foldlM_onRx_ready (p := p₁.execRx .rxCancel) hq honRx hready.started

end Ready

/-! ### Interrupts -/

theorem dataCb_ready (h : p.Ready true) {onTxDone onRx : List (SpiCbOp F)}
    {onTxReady : List (SpiOp F)} (hdone : ∀ op ∈ onTxDone, op.IsTx) (honRx : SpiCbOp.OnRx onRx)
    (hready : ∀ op ∈ onTxReady, op.IsTx) (hq : p.dataCb onTxDone onRx onTxReady = some q) :
    q.Ready true := by
  simp only [dataCb] at hq
  split at hq
  · cases hq
    exact h.same rfl rfl
  split at hq
  · obtain ⟨q₁, hq₁, rfl⟩ := Option.map_eq_some_iff.mp hq
    exact afterTxDone_ready (foldlM_execCb_ready hq₁ hdone (h.same rfl rfl))
  split at hq
  · split at hq
    · obtain ⟨q₁, hq₁, hq⟩ := Option.bind_eq_some_iff.mp hq
      have hq₁ := foldlM_onRx_ready hq₁ honRx h.started
      exact callLocked_ready hq hready (tryStartMasterRxI_ready (hq₁.same rfl rfl))
    · exact foldlM_onRx_ready hq honRx h.started
  · cases hq
    exact h.same rfl rfl

/-- The error callback arms again exactly where nothing is sent. -/
theorem errorCb_ready (h : p.started = true) {onRxError : List (SpiCbOp F)}
    (hops : SpiCbOp.OnRxError onRxError) (hq : p.errorCb [] onRxError = some q) :
    (p.txActive = false ∧ q.Ready true) ∨ (p.txActive = true ∧ q.rxPtr = none) := by
  simp only [errorCb] at hq
  split at hq
  next hstopped => exact absurd hstopped (by simp [h])
  split at hq
  next htx =>
    cases hq
    exact .inr ⟨htx, rfl⟩
  next htx =>
    exact .inl ⟨Bool.eq_false_iff.mpr htx, foldlM_onRxError_ready hq hops h⟩

theorem slaveOverrunI_ready (h : p.Ready true) {onRxError : List (SpiCbOp F)}
    (hops : SpiCbOp.OnRxError onRxError) (hq : p.slaveOverrunI [] onRxError = some q) :
    q.Ready true := by
  simp only [slaveOverrunI] at hq
  split at hq
  · cases hq
    exact h
  split at hq
  · exact foldlM_onRxError_ready hq hops h.started
  · exact foldlM_onRxError_ready hq hops h.started

theorem slaveWatchdogTimeout_ready (h : p.Ready true) {onRxError : List (SpiCbOp F)}
    (hops : SpiCbOp.OnRxError onRxError) (hq : p.slaveWatchdogTimeout [] onRxError = some q) :
    q.Ready true := by
  simp only [slaveWatchdogTimeout] at hq
  split at hq
  · cases hq
    exact h
  split at hq
  · split at hq
    · exact foldlM_onRxError_ready hq hops h.started
    · cases hq
      exact h.same rfl rfl
  split at hq
  · split at hq
    · exact foldlM_onRxError_ready hq hops h.started
    · cases hq
      exact h.same rfl rfl
  · cases hq
    exact h.same rfl rfl

/-- One event of the driver keeps the request, but for the error of a TX. -/
theorem step_ready (h : p.Ready true) {e : SpiEvent F} (he : e.OfDriver)
    (hsafe : e.IsError → p.txActive = false) (hq : p.step e = some q) : q.Ready true := by
  obtain ⟨q₁, hq₁, rfl⟩ := Option.map_eq_some_iff.mp hq
  refine Ready.same ?_ rfl rfl (p := q₁)
  cases e with
  | rx op => exact absurd he id
  | txSubmitFrame fp onRxError => exact txSubmitFrame_ready h he hq₁
  | stop => exact absurd he id
  | data onTxDone onRx onTxReady =>
    simp only [serve] at hq₁
    split at hq₁
    · exact dataCb_ready h he.1 he.2.1 he.2.2 hq₁
    · cases hq₁
  | error onTxError onRxError =>
    obtain ⟨rfl, hops⟩ := he
    simp only [serve] at hq₁
    split at hq₁
    · rcases errorCb_ready h.started hops hq₁ with ⟨-, hready⟩ | ⟨htx, -⟩
      · exact hready
      · exact absurd (htx.symm.trans (hsafe trivial)) (by decide)
    · cases hq₁
  | slaveOverrun onTxError onRxError =>
    obtain ⟨rfl, hops⟩ := he
    exact slaveOverrunI_ready h hops hq₁
  | dataReady high onTx => exact dataReadyI_ready h he hq₁
  | slaveWatchdog onTxError onRxError =>
    obtain ⟨rfl, hops⟩ := he
    exact slaveWatchdogTimeout_ready h hops hq₁

/-- The error of a TX takes the request away. -/
theorem step_error_deaf (h : p.Exclusive) (htx : p.txActive = true) {e : SpiEvent F}
    (he : e.OfDriver) (herror : e.IsError) : ∃ q, p.step e = some q ∧ q.rxPtr = none := by
  cases e with
  | error onTxError onRxError =>
    obtain ⟨rfl, -⟩ := he
    obtain ⟨hstarted, hspi, -⟩ := h.sending htx
    have hserve : p.serve (.error [] onRxError) =
        some ({ p with spi := p.spi - 1 }.abortBoth.clearDataReady.complete p.txFramep).look := by
      simp only [serve, errorCb, if_pos hspi, hstarted, htx]
      rfl
    exact ⟨_, congrArg (Option.map look) hserve, rfl⟩
  | _ => exact absurd herror id

theorem run_append (p : SpiPort F) (past : List (SpiEvent F)) (e : SpiEvent F) :
    p.run (past ++ [e]) = (p.run past).bind (step · e) := by
  rw [run, List.foldlM_append]
  exact congrArg _ (funext fun q => bind_pure _)

/-- The first request makes the port ready. -/
theorem first_rxSubmit_ready {ptr n : Nat} {mode : RxMode}
    (hp : p.step (.rx (.rxSubmit ptr n mode)) = some q) (hstarted : q.started = true) :
    q.Ready true := by
  obtain ⟨p₁, hp₁, rfl⟩ := Option.map_eq_some_iff.mp hp
  cases hp₁
  have hstarted : p.started = true := (rxSubmit_request p ptr n mode).1.symm.trans hstarted
  exact (rxSubmit_ready hstarted ptr n mode).look

/-- While no TX fails, the request is kept along a run. -/
theorem run_ready (h : p.Ready true) {events : List (SpiEvent F)}
    (hdriver : ∀ e ∈ events, e.OfDriver)
    (hsafe : ∀ past e q, past ++ [e] <+: events → p.run past = some q → e.IsError →
      q.txActive = false)
    (hq : p.run events = some q) : q.Ready true := by
  induction events using List.reverseRecOn generalizing q with
  | nil =>
    cases hq
    exact h
  | append_singleton past e ih =>
    rw [run_append] at hq
    obtain ⟨q₁, hq₁, hstep⟩ := Option.bind_eq_some_iff.mp hq
    have hready : q₁.Ready true := by
      refine ih (fun e he => hdriver e (List.mem_append_left _ he)) (fun past' e' q' hpast => ?_) hq₁
      exact hsafe past' e' q' (hpast.trans (List.prefix_append past [e]))
    exact step_ready hready (hdriver e (List.mem_append_right _ List.mem_cons_self))
      (hsafe past e q₁ List.prefix_rfl hq₁) hstep

end SpiPort

/-- Behind its first request, a port in use by the driver has a request after every event exactly
where no error callback comes while a frame is sent. -/
theorem spi_armed_iff {isMaster cancelSlaveRx : Bool} {limit : UInt16}
    {before events : List (SpiEvent F)} {ptr n : Nat} {mode : RxMode} {p : SpiPort F}
    (hp : (SpiPort.start isMaster cancelSlaveRx limit).run
      (before ++ [.rx (.rxSubmit ptr n mode)]) = some p)
    (hstarted : p.started = true) (hdriver : ∀ e ∈ events, e.OfDriver) :
    (∀ past q, past <+: events → p.run past = some q → q.rxPtr ≠ none) ↔
      ∀ past e q, past ++ [e] <+: events → p.run past = some q → e.IsError →
        q.txActive = false := by
  have hexclusive : p.Exclusive :=
    SpiPort.run_exclusive (SpiPort.start_exclusive isMaster cancelSlaveRx limit) hp
  have hready : p.Ready true := by
    rw [SpiPort.run_append] at hp
    obtain ⟨p₁, -, hstep⟩ := Option.bind_eq_some_iff.mp hp
    exact SpiPort.first_rxSubmit_ready hstep hstarted
  constructor
  · intro harmed past e q hpast hq herror
    by_contra htx
    have he : e.OfDriver := hdriver e (hpast.subset (List.mem_append_right _ List.mem_cons_self))
    obtain ⟨q', hstep, hdeaf⟩ := SpiPort.step_error_deaf (SpiPort.run_exclusive hexclusive hq)
      (Bool.not_eq_false _ ▸ htx) he herror
    refine harmed (past ++ [e]) q' hpast ?_ hdeaf
    rw [SpiPort.run_append, hq]
    exact hstep
  · intro hsafe past q hpast hq
    refine (SpiPort.run_ready hready (fun e he => hdriver e (hpast.subset he)) ?_ hq).rxPtr rfl
    exact fun past' e' q' hpast' => hsafe past' e' q' (hpast'.trans hpast)

/-- A master sends a frame, an edge comes in the callback at its end, and an octet is received. -/
theorem spi_armed_iff_master :
    ∃ p, (SpiPort.start true false 25 : SpiPort Nat).run [.rx (.rxSubmit 100 1 .startPacket)] =
        some p ∧
      ∀ past q, past <+: [.txSubmitFrame 7 [.rxCancel, .rxSubmit 100 1 .startPacket],
          .data [.dataReady true []] [.op (.rx (.rxSubmit 100 1 .startPacket))] [],
          .data [] [.op (.rx (.rxSubmit 200 1 .continuePacket))] []] →
        p.run past = some q → q.rxPtr ≠ none := by
  have hrun : ∃ p, (SpiPort.start true false 25 : SpiPort Nat).run
      [.rx (.rxSubmit 100 1 .startPacket)] = some p ∧ p.started = true := ⟨_, rfl, rfl⟩
  obtain ⟨p, hp, hstarted⟩ := hrun
  have hnoError : ∀ e ∈ ([.txSubmitFrame 7 [.rxCancel, .rxSubmit 100 1 .startPacket],
      .data [.dataReady true []] [.op (.rx (.rxSubmit 100 1 .startPacket))] [],
      .data [] [.op (.rx (.rxSubmit 200 1 .continuePacket))] []] : List (SpiEvent Nat)),
      e.OfDriver ∧ ¬e.IsError := by
    intro e he
    simp only [List.mem_cons, List.not_mem_nil, or_false] at he
    rcases he with rfl | rfl | rfl
    · exact ⟨⟨100, 1, .startPacket, rfl⟩, id⟩
    · refine ⟨⟨?_, ⟨[], [], 100, 1, .startPacket, rfl, nofun, nofun⟩, nofun⟩, id⟩
      exact List.forall_mem_singleton.mpr nofun
    · exact ⟨⟨nofun, ⟨[], [], 200, 1, .continuePacket, rfl, nofun, nofun⟩, nofun⟩, id⟩
  refine ⟨p, hp, (@spi_armed_iff Nat true false 25 [] _ 100 1 .startPacket p hp hstarted
    fun e he => (hnoError e he).1).mpr fun past e q hpast _ herror => ?_⟩
  exact absurd herror
    (hnoError e (hpast.subset (List.mem_append_right past List.mem_cons_self))).2

/-- A master without a line that is ready sends a frame, and its transfer fails: the port has no
request any more. -/
theorem spi_deaf_after_tx_error :
    ∃ p q, (SpiPort.start true false 25).run [.rx (.rxSubmit 100 1 .startPacket)] = some p ∧
      p.run [.txSubmitFrame 7 [.rxCancel, .rxSubmit 100 1 .startPacket],
        .error [] [.op (.rx .rxCancel), .op (.rx (.rxSubmit 100 1 .startPacket))]] = some q ∧
      SpiEvent.OfDriver (.txSubmitFrame 7 [.rxCancel, .rxSubmit 100 1 .startPacket]) ∧
      SpiEvent.OfDriver (F := Nat)
        (.error [] [.op (.rx .rxCancel), .op (.rx (.rxSubmit 100 1 .startPacket))]) ∧
      q.started = true ∧ q.rxPtr = none :=
  ⟨_, _, rfl, rfl, ⟨100, 1, .startPacket, rfl⟩,
    ⟨rfl, [], _, rfl, nofun, [], [], 100, 1, .startPacket, rfl, nofun, nofun⟩, rfl, rfl⟩

end IoHdlc
