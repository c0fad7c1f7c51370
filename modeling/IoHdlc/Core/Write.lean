import IoHdlc.Core.Transmit

/-!
`ioHdlcWriteVTmo`, cut where it releases the lock of the peer.

The octets to write are one list: where a vector ends has no influence on the
fragments. Between reserving a place in the queue and filling it the writer works
on its frame without the lock.
-/

namespace IoHdlc

def IOHDLC_WRITER_PENDING_MARGIN_DIVISOR : UInt32 := 8
def IOHDLC_WRITER_PENDING_MARGIN_MIN : UInt32 := 7

/-- `writer_pending_limit`. -/
def writerPendingLimit (p : Peer) : UInt32 :=
  let margin := p.ks / IOHDLC_WRITER_PENDING_MARGIN_DIVISOR
  p.ks + if margin < IOHDLC_WRITER_PENDING_MARGIN_MIN then IOHDLC_WRITER_PENDING_MARGIN_MIN else margin

/-- `W_WAIT_COND`. -/
def wWaitCond (l : Link) : Bool :=
  l.p.iPendingCount ≥ writerPendingLimit l.p || l.s.poolState ≠ .normal

/-- The condition under which the call waits for `tx_cv`. -/
def writeWaitCond (l : Link) : Bool :=
  !l.p.streamTerminalPending.txReset && !l.p.isDisc && wWaitCond l

/-- The number of octets of the next fragment. -/
def writeChunkSize (l : Link) (remaining : Nat) : Nat :=
  let chunkSize := min remaining l.p.mifls
  let frameTotal := l.s.framing.frameOffset + 1 + l.s.framing.ctrlSize + chunkSize + l.s.fcsSize
  -- A type 0 format field cannot encode the length 0x7E.
  if l.s.framing.frameOffset = 1 ∧ chunkSize > 1 ∧ frameTotal % 256 = 0x7E then chunkSize / 2
  else chunkSize

/-- Where the writer is when it does not hold the lock. -/
inductive WriterPc where
  | idle
  | loop (remaining : List UInt8) (signalTx : Bool)
  | build (fp : Frame) (remaining : List UInt8) (signalTx : Bool)
  | done (signalTx : Bool)

/-- The check that precedes the loop. -/
def writeBegin (l : Link) (octets : List UInt8) : Link × WriterPc :=
  if octets = [] ∨ l.p.isDisc then (l, .idle)
  else
    ({ l with p := { l.p with ssState := { l.p.ssState with sending := true } } }, .loop octets false)

/-- The head of the loop, up to the frame from the pool; `timedOut` says how a wait
ends. -/
def writeReserve (l : Link) (remaining : List UInt8) (signalTx timedOut : Bool)
    (take : Option Frame) : Link × WriterPc :=
  if remaining = [] then (l, .done signalTx)
  else if l.p.streamTerminalPending.txReset then (l, .done false)
  else if l.p.isDisc then (l, .done signalTx)
  else if wWaitCond l then
    ({ l with s := { l.s with
        cmListener := if signalTx then l.s.cmListener ∪ {.txIfrmEnq} ∩ flagsMask else l.s.cmListener } },
      if timedOut then .done false else .loop remaining false)
  else
    match take with
    | none => (l, .loop remaining signalTx)
    | some fp =>
      let chunkSize := writeChunkSize l remaining.length
      (l, .build (writeFragment l.s l.p fp (remaining.take chunkSize)) (remaining.drop chunkSize)
        signalTx)

/-- The end of the loop; the last component says whether `fp` went into the queue. -/
def writeInsert (l : Link) (fp : Frame) (remaining : List UInt8) (signalTx : Bool) :
    Link × WriterPc × Bool :=
  if l.p.streamTerminalPending.txReset then (l, .done false, false)
  else if l.p.isDisc then (l, .done signalTx, false)
  else
    ({ l with p := { l.p with
        iTransQ := l.p.iTransQ ++ [fp], iPendingCount := l.p.iPendingCount + 1 } },
      .loop remaining true, true)

def writeDone (l : Link) (signalTx : Bool) : Link :=
  let signalTx := signalTx && !l.p.streamTerminalPending.txReset
  { s := { l.s with
      cmListener := if signalTx then l.s.cmListener ∪ {.txIfrmEnq} ∩ flagsMask else l.s.cmListener }
    p := { l.p with
      streamTerminalPending := { l.p.streamTerminalPending with txReset := false }
      ssState := { l.p.ssState with sending := false } } }

end IoHdlc
