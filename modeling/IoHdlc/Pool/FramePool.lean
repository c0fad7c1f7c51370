import IoHdlc.Pool.Layout
import IoHdlc.Model.Types

/-!
The fixed-memory frame pool: a free list in the first word of its frames, one
reference count for each frame, and the watermarks with their callbacks.

Frames are of any type `F`, callbacks of any type `C` with arguments of type `A`.
-/

namespace IoHdlc

/-- What the pool reads and writes of a frame. -/
structure PoolFrame (F : Type) where
  /-- `q.next`. In the first word, which a free frame uses for the link to the next one. -/
  next : Option F
  auxNext : Option F
  auxPrev : Option F
  txLen : UInt16
  txCtrlLen : UInt8
  openingflag : UInt8
  refs : UInt8
  deriving DecidableEq

/-- `ioHdlcFrameMemPool`. -/
structure FrameMemPool (F C A : Type) where
  freeList : Option F
  frames : F → PoolFrame F
  framesize : Nat
  total : UInt32
  allocated : UInt32
  lowThreshold : UInt32
  highThreshold : UInt32
  lowPct : UInt8
  highPct : UInt8
  state : PoolState
  onLow : Option C
  onNormal : Option C
  cbArg : Option A

variable {F C A : Type}

namespace FrameMemPool

/-- `hdlcPoolFree`. -/
def free (p : FrameMemPool F C A) : UInt32 := p.total - p.allocated

/-- The link of the free list. -/
def link (p : FrameMemPool F C A) (fp : F) : Option F := (p.frames fp).next

/-- `hdlc_pool_init_watermark`. -/
def initWatermark (p : FrameMemPool F C A) (total : UInt32) : FrameMemPool F C A :=
  { p with
    lowPct := 20
    highPct := 60
    lowThreshold := total * 20 / 100
    highThreshold := total * 60 / 100
    state := .normal
    onLow := none
    onNormal := none
    cbArg := none }

/-- `hdlc_pool_check_low_watermark`, with whether to notify and the callback. -/
def checkLowWatermark (p : FrameMemPool F C A) : FrameMemPool F C A × Bool × Option C :=
  if p.state = .normal ∧ p.free ≤ p.lowThreshold then ({ p with state := .lowWater }, true, p.onLow)
  else (p, false, none)

/-- `hdlc_pool_check_high_watermark`. -/
def checkHighWatermark (p : FrameMemPool F C A) : FrameMemPool F C A × Bool × Option C :=
  if p.state = .lowWater ∧ p.free > p.highThreshold then ({ p with state := .normal }, true, p.onNormal)
  else (p, false, none)

/-- The pool behind the check of the low watermark. -/
theorem checkLowWatermark_fst (p : FrameMemPool F C A) : p.checkLowWatermark.1 =
    { p with state := if p.state = .normal ∧ p.free ≤ p.lowThreshold then .lowWater else p.state } := by
  rw [checkLowWatermark]
  split <;> rfl

theorem checkHighWatermark_fst (p : FrameMemPool F C A) : p.checkHighWatermark.1 =
    { p with state :=
        if p.state = .lowWater ∧ p.free > p.highThreshold then .normal else p.state } := by
  rw [checkHighWatermark]
  split <;> rfl

/-- A frame as `take` hands it out. -/
def takenFrame (fp : PoolFrame F) : PoolFrame F :=
  { fp with refs := 1, auxNext := none, auxPrev := none, txLen := 0, txCtrlLen := 0, openingflag := 0 }

end FrameMemPool

/-- What a call of the pool did beside its result: the notification that was due, and the callback
that was called for it. -/
structure PoolNotice (C A : Type) where
  notify : Bool
  call : Option (C × Option A)

/-- No notification. -/
def PoolNotice.none : PoolNotice C A := { notify := false, call := .none }

/-- `if (notify && cb != NULL) cb(cb_arg)`. -/
def PoolNotice.of (notify : Bool) (cb : Option C) (cbArg : Option A) : PoolNotice C A :=
  { notify := notify, call := if notify then cb.map (·, cbArg) else .none }

namespace FrameMemPool

variable [DecidableEq F]

/-- The free list behind the loop of `fmpInit`, which pushes one slot after the other. -/
def loadFrames (frames : F → PoolFrame F) (freeList : Option F) :
    List F → (F → PoolFrame F) × Option F
  | [] => (frames, freeList)
  | elem :: slots =>
    loadFrames (Function.update frames elem { frames elem with next := freeList }) (some elem) slots

/-- `fmpInit` behind its layout: the pool of the given slots in an arena of any content. -/
def ofSlots (frames : F → PoolFrame F) (framesize : Nat) (slots : List F) : FrameMemPool F C A :=
  let (frames, freeList) := loadFrames frames none slots
  let total := UInt32.ofNat slots.length
  initWatermark
    { freeList := freeList, frames := frames, framesize := framesize, total := total, allocated := 0,
      lowThreshold := 0, highThreshold := 0, lowPct := 0, highPct := 0, state := .normal,
      onLow := none, onNormal := none, cbArg := none } total

/-- The pool without the frame at the head of its free list. -/
def popped (p : FrameMemPool F C A) (fp : F) : FrameMemPool F C A :=
  { p with
    freeList := p.link fp
    frames := Function.update p.frames fp (takenFrame (p.frames fp))
    allocated := p.allocated + 1 }

/-- The pool with a frame that nobody refers to any more. -/
def pushed (p : FrameMemPool F C A) (fp : F) : FrameMemPool F C A :=
  { p with
    freeList := some fp
    frames := Function.update p.frames fp { p.frames fp with refs := 0, next := p.freeList }
    allocated := p.allocated - 1 }

/-- `take`. -/
def take (p : FrameMemPool F C A) : FrameMemPool F C A × Option F × PoolNotice C A :=
  match p.freeList with
  | some fp =>
    let (p, notify, cb) := (p.popped fp).checkLowWatermark
    (p, some fp, .of notify cb p.cbArg)
  | none => (p, none, .none)

/-- `release`. The assertion on the count is not part of it. -/
def release (p : FrameMemPool F C A) (fp : F) : FrameMemPool F C A × PoolNotice C A :=
  let refs := (p.frames fp).refs - 1
  if refs = 0 then
    let (p, notify, cb) := (p.pushed fp).checkHighWatermark
    (p, .of notify cb p.cbArg)
  else ({ p with frames := Function.update p.frames fp { p.frames fp with refs := refs } }, .none)

/-- `addref`. -/
def addref (p : FrameMemPool F C A) (fp : F) : FrameMemPool F C A :=
  { p with frames := Function.update p.frames fp { p.frames fp with refs := (p.frames fp).refs + 1 } }

/-- What an owner does to a frame: it writes any field but the count. -/
def write (p : FrameMemPool F C A) (fp : F) (content : PoolFrame F) : FrameMemPool F C A :=
  { p with frames := Function.update p.frames fp { content with refs := (p.frames fp).refs } }

/-- `hdlcPoolConfigWatermark`, without its assertions. The callbacks are called when the state
changes. -/
def configWatermark (p : FrameMemPool F C A) (lowPct highPct : UInt8) (onLow onNormal : Option C)
    (cbArg : Option A) : FrameMemPool F C A × Option (C × Option A) :=
  let lowThreshold := p.total * lowPct.toUInt32 / 100
  let highThreshold := p.total * highPct.toUInt32 / 100
  let state := if p.free ≤ lowThreshold then PoolState.lowWater else .normal
  ({ p with lowPct, highPct, onLow, onNormal, cbArg, lowThreshold, highThreshold, state },
    if p.state = state then none
    else (if state = .lowWater then onLow else onNormal).map (·, cbArg))

end FrameMemPool

/-- `fmpInit`. -/
def fmpInit (pl : PoolPlatform) (frames : BitVec pl.sizeBits → PoolFrame (BitVec pl.sizeBits))
    (arena arenasize framesize framealign : BitVec pl.sizeBits) :
    FrameMemPool (BitVec pl.sizeBits) C A :=
  let layout := fmempoolLayout pl arena arenasize framesize framealign
  .ofSlots frames framesize.toNat ((List.range layout.count.toNat).map layout.slot)

end IoHdlc
