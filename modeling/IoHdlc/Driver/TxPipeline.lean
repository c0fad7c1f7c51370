import IoHdlc.Kit.Reachable
import Mathlib.Data.List.Nodup
import Mathlib.Logic.Function.Basic

/-!
The transmit pipeline of the software driver: the frame in flight, the raw queue behind it, the
gates and the references that keep a committed frame alive.

What is on the wire is the matter of `Transmit`; here a frame is its pointer, of any type `F`.
`drv_send_frame` is cut where it takes the system lock; a callback is one section, with the
release of references that follows it. The port answers as it likes: a `SubmitResult` says what
`tx_submit_frame` returns and what `tx_busy` says from then on.
-/

namespace IoHdlc

/-- The answer of the port to a submission. -/
structure SubmitResult where
  ok : Bool
  busy : Bool

/-- The port refuses the frame although it is idle. -/
def SubmitResult.fails (r : SubmitResult) : Bool := !r.ok && !r.busy

/-- What `drv_send_frame` and the callbacks look at, and what they did at their interfaces. -/
structure TxPipe (F : Type) where
  applyTransparency : Bool
  started : Bool
  rawQ : List F
  inflightFp : Option F
  txGate : F → Bool
  openingflag : F → Bool
  /-- The references of the driver. -/
  refs : F → Nat
  /-- What `tx_busy` says. -/
  txBusy : Bool
  /-- The calls of `tx_submit_frame`, and whether they returned 0. -/
  submits : List (F × Bool)
  /-- The gates of committed frames that were signalled. -/
  gateReleases : List F
  /-- The committed frames that were released to the pool. -/
  frameReleases : List F
  /-- The accepted submissions that the port has not completed. -/
  uncompleted : List F

namespace TxPipe

variable {F : Type} [DecidableEq F]

/-! ### The sections -/

def submit (d : TxPipe F) (fp : F) (r : SubmitResult) : TxPipe F :=
  { d with
    txBusy := r.busy
    submits := d.submits ++ [(fp, r.ok)]
    uncompleted := if r.ok then d.uncompleted ++ [fp] else d.uncompleted }

/-- `ioHdlcFrameTxGateReleaseI`. -/
def releaseGate (d : TxPipe F) (fp : F) : TxPipe F :=
  { d with txGate := Function.update d.txGate fp false, gateReleases := d.gateReleases ++ [fp] }

/-- `hdlcReleaseFrame`. -/
def releaseFrame (d : TxPipe F) (fp : F) : TxPipe F :=
  { d with
    refs := Function.update d.refs fp (d.refs fp - 1), frameReleases := d.frameReleases ++ [fp] }

def release (d : TxPipe F) : Option F → TxPipe F
  | none => d
  | some fp => d.releaseFrame fp

/-- `s_try_start_next_tx_i`, with the frame that has to be released. -/
def sTryStartNextTxI (d : TxPipe F) (prependOpeningFlag : Bool) (r : SubmitResult) :
    TxPipe F × Option F :=
  if d.inflightFp.isSome then (d, none)
  else match d.rawQ with
    | [] => (d, none)
    | nextFp :: rest =>
      if d.txBusy then (d, none)
      else
        let d := { d with
          rawQ := rest, openingflag := Function.update d.openingflag nextFp prependOpeningFlag }
        let d := d.submit nextFp r
        if r.ok then ({ d with inflightFp := some nextFp }, none)
        else if r.busy then
          ({ d with
            rawQ := nextFp :: rest
            openingflag := Function.update d.openingflag nextFp false }, none)
        else (d.releaseGate nextFp, some nextFp)

/-- `drv_send_frame` before it takes the lock: the frame that it has committed. `prepared` says
whether the format field fits, `take` is what the pool gives for the encoded copy. A gate that is
signalled again for a frame that is not committed is as it was. -/
def drvSendFrameCommit (d : TxPipe F) (fp : F) (prepared : Bool) (take : Option F) :
    TxPipe F × Option F :=
  if d.txGate fp then (d, none)
  else if !prepared then (d, none)
  else if d.applyTransparency then
    match take with
    | none => (d, none)
    | some nfp =>
      if d.txGate nfp then (d, none)
      else
        ({ d with
          txGate := Function.update d.txGate nfp true
          refs := Function.update d.refs nfp (d.refs nfp + 1) }, some nfp)
  else
    ({ d with
      txGate := Function.update d.txGate fp true
      refs := Function.update d.refs fp (d.refs fp + 1) }, some fp)

/-- `drv_send_frame` under the lock. -/
def drvSendFrameQueue (d : TxPipe F) (nfp : F) (first next : SubmitResult) : TxPipe F :=
  if !d.txBusy ∧ d.inflightFp = none ∧ d.rawQ = [] then
    let d := { d with openingflag := Function.update d.openingflag nfp true }
    let d := d.submit nfp first
    if first.ok then
      let r := { d with inflightFp := some nfp }.sTryStartNextTxI true next
      r.1.release r.2
    else if first.busy then
      { d with
        openingflag := Function.update d.openingflag nfp false, rawQ := d.rawQ ++ [nfp] }
    else (d.releaseGate nfp).releaseFrame nfp
  else if nfp ∉ d.rawQ then
    let d := { d with
      openingflag := Function.update d.openingflag nfp false, rawQ := d.rawQ ++ [nfp] }
    let r := d.sTryStartNextTxI true next
    r.1.release r.2
  else (d.releaseGate nfp).releaseFrame nfp

def sOnTxDone (d : TxPipe F) (doneFp : Option F) (next : SubmitResult) : TxPipe F :=
  let d := { d with inflightFp := if d.inflightFp = doneFp then none else d.inflightFp }
  let d := match doneFp with
    | none => d
    | some fp => d.releaseGate fp
  let r := d.sTryStartNextTxI false next
  (r.1.release doneFp).release r.2

def sOnTxReadyI (d : TxPipe F) (next : SubmitResult) : TxPipe F :=
  let r := d.sTryStartNextTxI true next
  r.1.release r.2

/-- The loop of `s_on_tx_error_i`. -/
def drain (d : TxPipe F) : List F → TxPipe F
  | [] => { d with rawQ := [] }
  | fp :: rest => (({ d with rawQ := rest }.releaseGate fp).releaseFrame fp).drain rest

def sOnTxErrorI (d : TxPipe F) (framep : Option F) : TxPipe F :=
  let doneFp := framep.or d.inflightFp
  let d := { d with inflightFp := none }
  let d := match doneFp with
    | none => d
    | some fp => d.releaseGate fp
  (d.drain d.rawQ).release doneFp

def drvStop (d : TxPipe F) : TxPipe F :=
  if d.started then { d.sOnTxErrorI none with started := false } else d

/-- A driver that was just started. -/
structure Fresh (d : TxPipe F) : Prop where
  started : d.started = true
  rawQ : d.rawQ = []
  inflightFp : d.inflightFp = none
  txGate : ∀ fp, d.txGate fp = false
  refs : ∀ fp, d.refs fp = 0
  submits : d.submits = []
  gateReleases : d.gateReleases = []
  frameReleases : d.frameReleases = []
  uncompleted : d.uncompleted = []

/-- What the driver was given and has not let go of. -/
def pipeline (d : TxPipe F) : List F := d.inflightFp.toList ++ d.rawQ

end TxPipe

/-! ### Runs -/

/-- A driver with the callers of `drv_send_frame`. -/
structure TxRun (F : Type) where
  pipe : TxPipe F
  /-- The frames whose gate the core has taken to stamp their header. -/
  stamping : List F
  /-- The frames whose senders have committed them and wait for the lock. -/
  committing : List F
  /-- The frames in the order in which their senders got the lock. -/
  sent : List F

/-- What happens at the driver. `tx_busy` may have changed with what a callback tells. -/
inductive TxStimulus (F : Type) where
  | stamp (fp : F)
  | stamped (fp : F)
  | commit (fp : F) (prepared : Bool) (take : Option F)
  | queue (nfp : F) (first next : SubmitResult)
  | done (doneFp : Option F) (txBusy : Bool) (next : SubmitResult)
  | ready (txBusy : Bool) (next : SubmitResult)
  | error (framep : Option F) (txBusy : Bool)
  | stop
  | busy (txBusy : Bool)

namespace TxRun

variable {F : Type} [DecidableEq F]

/-- `none` where that cannot happen: the port completes a submission once, the pool gives no frame
that the driver refers to. An abort without a frame, and the stop of the port, complete what was
submitted. -/
def act (g : TxRun F) : TxStimulus F → Option (TxRun F)
  | .stamp fp =>
    if g.pipe.txGate fp then none
    else
      some { g with
        pipe := { g.pipe with txGate := Function.update g.pipe.txGate fp true }
        stamping := fp :: g.stamping }
  | .stamped fp =>
    if fp ∈ g.stamping then
      some { g with
        pipe := { g.pipe with txGate := Function.update g.pipe.txGate fp false }
        stamping := g.stamping.erase fp }
    else none
  | .commit fp prepared take =>
    if take.all (g.pipe.refs · = 0) then
      let r := g.pipe.drvSendFrameCommit fp prepared take
      some { g with pipe := r.1, committing := r.2.toList ++ g.committing }
    else none
  | .queue nfp first next =>
    if nfp ∈ g.committing then
      some { g with
        pipe := g.pipe.drvSendFrameQueue nfp first next
        committing := g.committing.erase nfp
        sent := g.sent ++ [nfp] }
    else none
  | .done doneFp txBusy next =>
    if doneFp.all (· ∈ g.pipe.uncompleted) then
      let d := { g.pipe with
        txBusy := txBusy, uncompleted := g.pipe.uncompleted.diff doneFp.toList }
      some { g with pipe := d.sOnTxDone doneFp next }
    else none
  | .ready txBusy next =>
    some { g with pipe := { g.pipe with txBusy := txBusy }.sOnTxReadyI next }
  | .error framep txBusy =>
    if framep.all (· ∈ g.pipe.uncompleted) then
      let d := { g.pipe with
        txBusy := txBusy
        uncompleted := match framep with
          | some fp => g.pipe.uncompleted.erase fp
          | none => [] }
      some { g with pipe := d.sOnTxErrorI framep }
    else none
  | .stop =>
    let d := { g.pipe with uncompleted := if g.pipe.started then [] else g.pipe.uncompleted }
    some { g with pipe := d.drvStop }
  | .busy txBusy => some { g with pipe := { g.pipe with txBusy := txBusy } }

structure Fresh (g : TxRun F) : Prop where
  pipe : g.pipe.Fresh
  stamping : g.stamping = []
  committing : g.committing = []
  sent : g.sent = []

def Moves (ok : TxRun F → TxStimulus F → Prop) (g g' : TxRun F) : Prop :=
  ∃ a, ok g a ∧ g.act a = some g'

end TxRun

end IoHdlc
