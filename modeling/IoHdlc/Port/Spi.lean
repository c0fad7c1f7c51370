import IoHdlc.Driver.Receive
import IoHdlc.Kit.Handover
import IoHdlc.Kit.Reachable

/-!
The stream port over a SPI driver, master and slave.

The handlers of the source are functions of the context, each cut at the callbacks it makes.
What a callback does to the port is its argument: a list of port operations, and, where the
callback runs outside the system lock, DATA_READY edges that interrupt it. The SPI driver is the
number of its transfers in progress; it signals the end of each at most once.

The commands to the lines, to the DMA and to the platform have no effect but on that number and
are left out; so is the timer, which may always tick.
-/

namespace IoHdlc

open Kit

/-- `ioHdlcStreamChibiosSpi`. -/
structure SpiPort (F : Type) where
  isMaster : Bool
  /-- Whether the platform cancels an armed slave RX by itself. -/
  cancelSlaveRx : Bool
  started : Bool
  txFramep : Option F
  txActive : Bool
  rxPtr : Option Nat
  rxN : Nat
  rxMode : RxMode
  rxActive : Bool
  rxAllowed : Bool
  slaveTxNeedsPrepare : Bool
  slaveRxWatchdogGate : Bool
  slaveWatchdogLimitTicks : UInt16
  slaveRxWatchdogTicks : UInt16
  slaveTxWatchdogTicks : UInt16
  drLastHigh : Bool
  drEpochActive : Bool
  drCaptured : Bool
  drCollision : Bool
  /-- How many transfers are in progress. -/
  spi : Nat
  /-- The frames accepted, the callbacks with a frame and the stops, in their order. -/
  handed : List (Hand F)
  /-- Whether `tx_active` and `rx_active` were seen both true, by a callback or behind an
  operation. -/
  clash : Bool

/-- The operations that the callback inside `tx_submit_frame` may call. -/
inductive SpiRxOp where
  | rxSubmit (ptr n : Nat) (mode : RxMode)
  | rxCancel

/-- The operations, each with what the callback it makes does. -/
inductive SpiOp (F : Type) where
  | rx (op : SpiRxOp)
  | txSubmitFrame (fp : F) (onRxError : List SpiRxOp)

/-- What happens while a callback runs outside the lock. -/
inductive SpiCbOp (F : Type) where
  | op (op : SpiOp F)
  | stop
  | dataReady (high : Bool) (onTx : List (SpiOp F))

namespace SpiPort

variable {F : Type}

/-- Someone looks at the flags. -/
def look (p : SpiPort F) : SpiPort F := { p with clash := p.clash || (p.txActive && p.rxActive) }

/-- A callback with this frame. -/
def complete (p : SpiPort F) (framep : Option F) : SpiPort F :=
  { p with handed := p.handed ++ (framep.map Hand.completed).toList }

/-! ### Local functions -/

/-- `chb_spi_try_start_master_rx_i`. -/
def tryStartMasterRxI (p : SpiPort F) : SpiPort F :=
  if p.rxPtr = none ∨ p.rxActive ∨ p.txActive ∨ p.drCollision then p
  else if p.spi ≠ 0 then p
  else if !p.rxAllowed ∧ !p.drCaptured then p
  else if p.rxAllowed ∧ p.rxMode = .startPacket then p
  else
    { p with
      drCaptured := p.drCaptured && p.rxAllowed
      rxActive := true
      rxAllowed := p.rxN ≤ 1
      spi := p.spi + 1 }

/-- `chb_spi_abort_master_tx_i`; the frame is read before. -/
def abortMasterTxI (p : SpiPort F) : SpiPort F :=
  { p with
    txActive := false
    txFramep := none
    drCaptured := false
    drCollision := true
    rxAllowed := false
    spi := 0 }

/-- `chb_spi_master_tx_blocked_i`. -/
def masterTxBlockedI (p : SpiPort F) : Bool := p.txActive || p.rxActive || p.drEpochActive

/-! ### Port operations -/

/-- `chb_spi_rx_submit`. -/
def rxSubmit (p : SpiPort F) (ptr n : Nat) (mode : RxMode) : SpiPort F :=
  if !p.started then p
  else
    let p := { p with
      rxPtr := some ptr
      rxN := n
      rxMode := mode
      slaveRxWatchdogGate := if p.isMaster then p.slaveRxWatchdogGate else mode ≠ .startPacket
      slaveRxWatchdogTicks := if p.isMaster then p.slaveRxWatchdogTicks else 0 }
    if p.txActive then p
    else if p.isMaster then p.tryStartMasterRxI
    else { p with rxActive := true, spi := p.spi + 1 }

/-- `chb_spi_rx_cancel`. A slave does not stop its transfer. -/
def rxCancel (p : SpiPort F) : SpiPort F :=
  { p with
    spi := if p.isMaster && p.rxActive then 0 else p.spi
    rxActive := p.rxActive && !p.isMaster
    rxPtr := none
    rxN := 0
    rxMode := .startPacket
    drEpochActive := false
    drCaptured := false
    drCollision := false
    rxAllowed := false
    slaveRxWatchdogGate := p.slaveRxWatchdogGate && p.isMaster
    slaveRxWatchdogTicks := if p.isMaster then p.slaveRxWatchdogTicks else 0
    slaveTxWatchdogTicks := if p.isMaster then p.slaveTxWatchdogTicks else 0 }

def execRx (p : SpiPort F) : SpiRxOp → SpiPort F
  | .rxSubmit ptr n mode => (p.rxSubmit ptr n mode).look
  | .rxCancel => p.rxCancel.look

/-- The callback inside `tx_submit_frame`. -/
def callRx (p : SpiPort F) (ops : List SpiRxOp) : SpiPort F := ops.foldl execRx p.look

/-- The turn from receiving to sending in `chb_spi_tx_submit`, up to its callback. -/
def turnToTx (p : SpiPort F) : SpiPort F :=
  { p with
    rxActive := false
    spi := if p.rxActive then 0 else p.spi
    slaveTxNeedsPrepare := p.slaveTxNeedsPrepare && !(p.rxActive && !p.isMaster && p.cancelSlaveRx)
    txActive := true }

/-- What `chb_spi_tx_submit` does behind its callback. -/
def startTx (p : SpiPort F) (fp : F) (needsSlaveTxPrepare : Bool) : SpiPort F :=
  { p with
    txFramep := some fp
    txActive := true
    drCaptured := p.drCaptured && !p.isMaster
    rxAllowed := p.rxAllowed && !p.isMaster
    slaveTxNeedsPrepare := p.slaveTxNeedsPrepare && !needsSlaveTxPrepare
    slaveRxWatchdogGate := p.slaveRxWatchdogGate && p.isMaster
    slaveRxWatchdogTicks := if p.isMaster then p.slaveRxWatchdogTicks else 0
    slaveTxWatchdogTicks := if p.isMaster then p.slaveTxWatchdogTicks else 0
    spi := p.spi + 1
    handed := p.handed ++ [.accepted fp] }

/-- `chb_spi_tx_submit_frame`; `none` is its failed assertion that no TX is active. -/
def txSubmitFrame (p : SpiPort F) (fp : F) (onRxError : List SpiRxOp) : Option (SpiPort F) :=
  if !p.started then some p
  else if p.txActive then none
  else if p.isMaster && p.masterTxBlockedI then some p
  else
    let needsSlaveTxPrepare := !p.isMaster &&
      (if p.rxActive then !p.cancelSlaveRx else p.slaveTxNeedsPrepare)
    if p.rxActive ∨ p.rxPtr.isSome then
      some ((p.turnToTx.callRx onRxError).startTx fp needsSlaveTxPrepare)
    else some (p.startTx fp needsSlaveTxPrepare)

def exec (p : SpiPort F) : SpiOp F → Option (SpiPort F)
  | .rx op => some (p.execRx op)
  | .txSubmitFrame fp onRxError => (p.txSubmitFrame fp onRxError).map look

/-- A callback under the lock. -/
def callLocked (p : SpiPort F) (ops : List (SpiOp F)) : Option (SpiPort F) := ops.foldlM exec p.look

/-! ### Start and stop -/

/-- The context behind `chb_spi_start`. -/
def start (isMaster cancelSlaveRx : Bool) (slaveWatchdogLimitTicks : UInt16) : SpiPort F :=
  { isMaster := isMaster
    cancelSlaveRx := cancelSlaveRx
    started := true
    txFramep := none
    txActive := false
    rxPtr := none
    rxN := 0
    rxMode := .startPacket
    rxActive := false
    rxAllowed := false
    slaveTxNeedsPrepare := false
    slaveRxWatchdogGate := false
    slaveWatchdogLimitTicks := slaveWatchdogLimitTicks
    slaveRxWatchdogTicks := 0
    slaveTxWatchdogTicks := 0
    drLastHigh := false
    drEpochActive := false
    drCaptured := false
    drCollision := false
    spi := 0
    handed := []
    clash := false }

/-- The abort of both directions that `stop` and the handlers of errors share. -/
def abortBoth (p : SpiPort F) : SpiPort F :=
  { p with
    txActive := false
    txFramep := none
    rxActive := false
    rxPtr := none
    rxN := 0
    rxMode := .startPacket
    slaveTxNeedsPrepare := false
    slaveRxWatchdogGate := false
    slaveRxWatchdogTicks := 0
    slaveTxWatchdogTicks := 0 }

def clearDataReady (p : SpiPort F) : SpiPort F :=
  { p with rxAllowed := false, drEpochActive := false, drCaptured := false, drCollision := false }

/-- `chb_spi_stop`. -/
def stop (p : SpiPort F) : SpiPort F :=
  { p.abortBoth.clearDataReady with
    started := false, drLastHigh := false, spi := 0, handed := p.handed ++ [.stopped] }

/-! ### Interrupts -/

/-- `chb_spi_data_ready_i`; `high` is the level that is read. -/
def dataReadyI (p : SpiPort F) (high : Bool) (onTx : List (SpiOp F)) : Option (SpiPort F) :=
  if !p.isMaster then none
  else if !p.started then some p
  else
    let drWasHigh := p.drLastHigh
    let p := { p with drLastHigh := high }
    if !drWasHigh ∧ !high then
      if p.txActive then (p.abortMasterTxI.clearDataReady.complete p.txFramep).callLocked onTx
      else p.clearDataReady.callLocked onTx
    else
      let p := if drWasHigh then p.clearDataReady else p
      if drWasHigh ∧ !high then p.callLocked onTx
      else
        let p := { p with drEpochActive := true }
        if p.txActive then (p.abortMasterTxI.complete p.txFramep).callLocked onTx
        else if p.drCollision then some p
        else some (tryStartMasterRxI { p with drCaptured := p.drCaptured || !p.rxAllowed })

def execCb (p : SpiPort F) : SpiCbOp F → Option (SpiPort F)
  | .op op => p.exec op
  | .stop => some p.stop.look
  | .dataReady high onTx => (p.dataReadyI high onTx).map look

/-- A callback outside the lock. -/
def callUnlocked (p : SpiPort F) (ops : List (SpiCbOp F)) : Option (SpiPort F) :=
  ops.foldlM execCb p.look

/-- `chb_spi_data_cb` behind `on_tx_done`. -/
def afterTxDone (p : SpiPort F) : SpiPort F :=
  if !p.started then p
  else if !p.txActive ∧ p.rxPtr.isSome then
    if p.isMaster then p.tryStartMasterRxI
    else { p with rxActive := true, spi := p.spi + 1 }
  else p

/-- `chb_spi_data_cb` up to `on_tx_done`. -/
def txFinished (p : SpiPort F) : SpiPort F :=
  complete
    { p with
      txActive := false
      txFramep := none
      slaveTxWatchdogTicks := if p.isMaster then p.slaveTxWatchdogTicks else 0 }
    p.txFramep

/-- `chb_spi_data_cb` up to `on_rx`. -/
def rxFinished (p : SpiPort F) : SpiPort F :=
  { p with
    rxPtr := none
    rxN := 0
    rxAllowed := p.rxAllowed && !(p.isMaster && 1 < p.rxN)
    rxActive := p.rxActive && p.isMaster
    slaveTxNeedsPrepare := p.slaveTxNeedsPrepare || !p.isMaster }

/-- `chb_spi_data_cb`. -/
def dataCb (p : SpiPort F) (onTxDone onRx : List (SpiCbOp F)) (onTxReady : List (SpiOp F)) :
    Option (SpiPort F) :=
  let p := { p with spi := p.spi - 1 }
  if !p.started then some p
  else if p.txActive then (p.txFinished.callUnlocked onTxDone).map afterTxDone
  else if p.rxActive then
    if p.isMaster then do
      let p ← p.rxFinished.callUnlocked onRx
      (tryStartMasterRxI { p with rxActive := false }).callLocked onTxReady
    else p.rxFinished.callUnlocked onRx
  else some p

/-- `chb_spi_error_cb`: either of the two callbacks. -/
def errorCb (p : SpiPort F) (onTxError : List (SpiOp F)) (onRxError : List (SpiCbOp F)) :
    Option (SpiPort F) :=
  let p := { p with spi := p.spi - 1 }
  if !p.started then some p
  else if p.txActive then (p.abortBoth.clearDataReady.complete p.txFramep).callLocked onTxError
  else p.abortBoth.clearDataReady.callUnlocked onRxError

/-- `ioHdlcStreamSpiSlaveOverrunI`, which the platform calls on a started slave: one callback or
both. -/
def slaveOverrunI (p : SpiPort F) (onTxError : List (SpiOp F)) (onRxError : List (SpiCbOp F)) :
    Option (SpiPort F) :=
  if p.isMaster ∨ !p.started then some p
  else
    let q := { p.abortBoth.clearDataReady with spi := 0 }
    if p.txActive then do
      let q ← (q.complete p.txFramep).callLocked onTxError
      q.callUnlocked onRxError
    else q.callUnlocked onRxError

/-- `chb_spi_slave_watchdog_timeout`. -/
def slaveWatchdogTimeout (p : SpiPort F) (onTxError : List (SpiOp F))
    (onRxError : List (SpiCbOp F)) : Option (SpiPort F) :=
  if p.isMaster ∨ !p.started then some p
  else if p.txActive then
    if p.slaveTxWatchdogTicks + 1 ≥ p.slaveWatchdogLimitTicks then do
      let q ← (complete { p.abortBoth with spi := 0 } p.txFramep).callLocked onTxError
      q.callUnlocked onRxError
    else
      some { p with
        slaveTxWatchdogTicks := p.slaveTxWatchdogTicks + 1, slaveRxWatchdogTicks := 0 }
  else if p.rxActive && p.slaveRxWatchdogGate then
    if p.slaveRxWatchdogTicks + 1 ≥ p.slaveWatchdogLimitTicks then
      callUnlocked { p.abortBoth with spi := 0, txFramep := p.txFramep } onRxError
    else
      some { p with
        slaveRxWatchdogTicks := p.slaveRxWatchdogTicks + 1, slaveTxWatchdogTicks := 0 }
  else some { p with slaveRxWatchdogTicks := 0, slaveTxWatchdogTicks := 0 }

end SpiPort

/-- A port operation from outside, or an interrupt. -/
inductive SpiEvent (F : Type) where
  | rx (op : SpiRxOp)
  | txSubmitFrame (fp : F) (onRxError : List SpiRxOp)
  | stop
  | data (onTxDone onRx : List (SpiCbOp F)) (onTxReady : List (SpiOp F))
  | error (onTxError : List (SpiOp F)) (onRxError : List (SpiCbOp F))
  | slaveOverrun (onTxError : List (SpiOp F)) (onRxError : List (SpiCbOp F))
  | dataReady (high : Bool) (onTx : List (SpiOp F))
  | slaveWatchdog (onTxError : List (SpiOp F)) (onRxError : List (SpiCbOp F))

/-- The callbacks of the SPI driver at the end of a transfer. -/
def SpiEvent.EndsTransfer {F : Type} : SpiEvent F → Prop
  | .data .. | .error .. => True
  | _ => False

namespace SpiPort

variable {F : Type}

/-- The event is served; a data or error callback needs a transfer to be about. -/
def serve (p : SpiPort F) : SpiEvent F → Option (SpiPort F)
  | .rx op => some (p.execRx op)
  | .txSubmitFrame fp onRxError => p.txSubmitFrame fp onRxError
  | .stop => some p.stop
  | .data onTxDone onRx onTxReady =>
    if p.spi ≠ 0 then p.dataCb onTxDone onRx onTxReady else none
  | .error onTxError onRxError => if p.spi ≠ 0 then p.errorCb onTxError onRxError else none
  | .slaveOverrun onTxError onRxError => p.slaveOverrunI onTxError onRxError
  | .dataReady high onTx => p.dataReadyI high onTx
  | .slaveWatchdog onTxError onRxError => p.slaveWatchdogTimeout onTxError onRxError

def step (p : SpiPort F) (e : SpiEvent F) : Option (SpiPort F) := (p.serve e).map look

def run (p : SpiPort F) (events : List (SpiEvent F)) : Option (SpiPort F) := events.foldlM step p

end SpiPort

end IoHdlc
