import IoHdlc.Driver.RxOwnership
import IoHdlc.Driver.TxHistory
import IoHdlc.Frames.Holdings
import Mathlib.Algebra.BigOperators.Group.Finset.Basic
import Mathlib.Data.Fintype.Basic

/-!
A station with its frames as objects: the pool, the places of every peer, the driver on both
sides, and what the threads have in hand.

A step is what a thread does in one hold of a lock, or one callback of the port. The TX worker
keeps the mutex of its peer while it waits for a TX gate and while the driver takes a frame over,
so other threads get at the driver in between, and at the other peers, but not at this one.
-/

namespace IoHdlc

/-! ### The TX worker -/

/-- Where the TX worker is, by the mutex that it holds and the frame that it works on. -/
inductive TxHold (P F : Type) where
  | outside
  | inside (p : P)
  /-- In front of the TX gate, with a frame from `i_trans_q`. -/
  | dequeued (p : P) (fp : F)
  /-- In the TX gate of that frame. -/
  | stamping (p : P) (fp : F)
  /-- In front of `hdlcSendFrame`. An I frame belongs to `i_retrans_q` there, any other to the
  worker. -/
  | sending (p : P) (fp : F) (own : Bool)
  /-- `sendFrame` behind `hdlcSendFrame`. -/
  | sent (p : P) (fp : F)

namespace TxHold

variable {P F : Type}

def mutex : TxHold P F → Option P
  | .outside => none
  | .inside p => some p
  | .dequeued p _ => some p
  | .stamping p _ => some p
  | .sending p _ _ => some p
  | .sent p _ => some p

/-- The frame that the worker itself refers to. -/
def hand : TxHold P F → Option F
  | .outside => none
  | .inside _ => none
  | .dequeued _ fp => some fp
  | .stamping _ fp => some fp
  | .sending _ fp own => if own then some fp else none
  | .sent _ fp => some fp

/-- Back from a call that may have given a frame to send. -/
def withFrame (p : P) : Option F → TxHold P F
  | some fp => .sending p fp true
  | none => .inside p

end TxHold

/-! ### The driver -/

/-- What `s_on_rx` does with the frame that it assembles. -/
inductive RxGive where
  | keep | release | enqueue
  deriving DecidableEq

/-- The frames that a call gives away. -/
def RxOp.given {F : Type} : RxOp F → Option (RxGive × F)
  | .release fp => some (.release, fp)
  | .enqueue fp => some (.enqueue, fp)
  | .rxCancel => none
  | .rxSubmit _ _ => none

namespace RxCall

variable {F : Type} {cfg : DrvConfig} {take : Option (F × Frame)} {x y : RxCall F} {give : RxGive}
  {asks : Bool}

/-- What a part of `s_on_rx` did with the pointer in `in_frame`. -/
structure Gives (take : Option (F × Frame)) (x y : RxCall F) (give : RxGive) (asks : Bool) :
    Prop where
  given : y.ops.filterMap RxOp.given = x.ops.filterMap RxOp.given ++
    if give = .keep then [] else x.framep.toList.map (give, ·)
  framep : y.framep =
    match if give = .keep then x.framep else none with
    | some fp => some fp
    | none => if asks then take.map Prod.fst else none

theorem newframe_gives (take : Option (F × Frame)) (hx : x.framep = none) :
    x.Gives take (x.newframe take) .keep (x.rx.stagep = IOHDLC_FLAG) := by
  simp only [newframe]
  by_cases hflag : x.rx.stagep = IOHDLC_FLAG
  · rw [if_pos hflag]
    cases take with
    | none => exact ⟨by simp [rxSubmit, RxOp.given], by simp [rxSubmit, hx]⟩
    | some t => exact ⟨by simp [rxSubmit, RxOp.given], by simp [rxSubmit, hx, hflag]⟩
  · rw [if_neg hflag]
    exact ⟨by simp [rxSubmit, RxOp.given], by simp [rxSubmit, hx, hflag]⟩

/-- The frame goes back, and no flag is staged. -/
theorem dropped_gives (x y : RxCall F) (hrx : y.rx = IoHdlc.sHandleRxError x.rx)
    (hframep : y.framep = none)
    (hops : y.ops.filterMap RxOp.given =
      x.ops.filterMap RxOp.given ++ x.framep.toList.map (.release, ·)) :
    x.Gives take (y.newframe take) .release false := by
  have hnew := newframe_gives take hframep
  have hstaged : ¬y.rx.stagep = IOHDLC_FLAG := by
    rw [hrx]
    simp [IoHdlc.sHandleRxError, IOHDLC_FLAG]
  refine ⟨hnew.given.trans ?_, hnew.framep.trans ?_⟩
  · simp [hops]
  · simp [hframep, hstaged]

theorem sHandleRxError_gives (x : RxCall F) :
    x.Gives take (x.sHandleRxError.newframe take) .release false :=
  x.dropped_gives x.sHandleRxError rfl rfl
    (by simp [sHandleRxError, List.filterMap_map, Function.comp_def, RxOp.given])

theorem enqueue_gives (x : RxCall F) (fp : Frame) :
    x.Gives take ((x.enqueue fp).newframe take) .enqueue true := by
  have hnew := newframe_gives (x := x.enqueue fp) take rfl
  refine ⟨hnew.given.trans ?_, hnew.framep.trans ?_⟩
  · simp [enqueue, List.filterMap_map, Function.comp_def, RxOp.given]
  · simp [enqueue]

/-- The next octet goes into the same frame. -/
theorem rxSubmit_gives (hx : x.framep.isSome = true) (y : RxCall F) (r : RxRequest)
    (hops : y.ops = x.ops) (hframep : y.framep = x.framep) :
    x.Gives take (y.rxSubmit r) .keep false := by
  refine ⟨by simp [rxSubmit, RxOp.given, hops], ?_⟩
  obtain ⟨fp, hfp⟩ := Option.isSome_iff_exists.mp hx
  simp [rxSubmit, hframep, hfp]

theorem accumulate_gives (hx : x.framep.isSome = true) (fp : Frame) :
    ∃ give asks, x.Gives take (x.accumulate cfg take fp) give asks := by
  rw [accumulate]
  split
  · exact ⟨_, _, x.sHandleRxError_gives⟩
  · exact ⟨_, _, rxSubmit_gives hx _ _ rfl rfl⟩

theorem formatField_gives (hx : x.framep.isSome = true) (fp : Frame) :
    ∃ give asks, x.Gives take (x.formatField cfg take fp) give asks := by
  simp only [formatField]
  split
  · split
    · exact ⟨_, _, rxSubmit_gives hx _ _ rfl rfl⟩
    · exact ⟨_, _, x.sHandleRxError_gives⟩
  split
  · split
    · split
      · exact ⟨_, _, rxSubmit_gives hx _ _ rfl rfl⟩
      · exact ⟨_, _, x.sHandleRxError_gives⟩
    split
    · split
      · exact ⟨_, _, rxSubmit_gives hx _ _ rfl rfl⟩
      · exact ⟨_, _, x.sHandleRxError_gives⟩
    · exact accumulate_gives hx fp
  · exact accumulate_gives hx fp

/-- A callback gives the frame away that is being assembled, or keeps it, and then asks the pool
for one if it has none. -/
theorem sOnRx_gives (hx : x.Points) (errmask : Option RxError) :
    ∃ give asks, x.Gives take (x.sOnRx cfg take errmask) give asks := by
  rw [Points] at hx
  have hkept (y : RxCall F) (hops : y.ops = x.ops) (hframep : y.framep = x.framep) :
      x.Gives take y .keep false := by
    refine ⟨by simp [hops], ?_⟩
    rw [hframep, if_pos rfl]
    cases x.framep <;> rfl
  simp only [sOnRx]
  split
  · simp only [sOnRxData]
    split
    next hin =>
      rw [hin] at hx
      exact ⟨_, _, newframe_gives take
        (Option.isNone_iff_eq_none.mp (Option.isSome_eq_false_iff.mp hx))⟩
    next fp hin =>
      rw [hin] at hx
      split
      · rw [closingFlag]
        split
        · exact ⟨_, _, rxSubmit_gives hx _ _ rfl rfl⟩
        split
        · exact ⟨_, _, rxSubmit_gives hx _ _ rfl rfl⟩
        · exact ⟨_, _, x.enqueue_gives fp⟩
      split
      · exact formatField_gives hx fp
      · exact accumulate_gives hx fp
  · exact ⟨_, _, x.dropped_gives x.sHandleRxError.rxCancel rfl rfl
      (by simp [sHandleRxError, rxCancel, List.filterMap_map, Function.comp_def, RxOp.given])⟩
  · split
    · split
      · exact ⟨_, _, x.dropped_gives x.rxCancel.sHandleRxError rfl rfl
          (by simp [sHandleRxError, rxCancel, List.filterMap_cons, List.filterMap_map,
            Function.comp_def, RxOp.given])⟩
      · exact ⟨_, _, hkept _ rfl rfl⟩
    · exact ⟨_, _, hkept _ rfl rfl⟩

end RxCall

/-- The pool behind `drv_send_frame` up to the system lock. -/
def sendPool {F C A : Type} [DecidableEq F] (d : TxPipe F) (fp : F) (prepared : Bool)
    (r : PoolRun F C A) : PoolRun F C A :=
  if d.txGate fp then r
  else if !prepared then r
  else if d.applyTransparency then
    match r.taken with
    | none => r.take
    | some nfp => if d.txGate nfp then r.take.release nfp else r.take
  else r.addref fp

/-- The frames that the driver released to the pool in between. -/
def releasedTo {F : Type} (d d' : TxPipe F) : List F := d'.frameReleases.drop d.frameReleases.length

/-- What the port and the second half of `drv_send_frame` do to the pipeline. -/
def TxStimulus.ofDriver {F : Type} : TxStimulus F → Bool
  | .stamp _ => false
  | .stamped _ => false
  | .commit _ _ _ => false
  | .queue _ _ _ => true
  | .done _ _ _ => true
  | .ready _ _ => true
  | .error _ _ => true
  | .stop => true
  | .busy _ => true

/-! ### The station -/

structure FrameSite (P F C A : Type) where
  pool : PoolRun F C A
  peer : P → PeerFrames F
  lost : List F
  tx : TxRun F
  /-- `rx.in_frame` and `rx.recept_q` of the driver. -/
  inFrame : Option F
  receptQ : List F
  /-- The frame of the RX worker. -/
  rxFp : Option F
  txHold : TxHold P F
  /-- The frames that writers fill. -/
  writing : List (P × F)
  /-- The commands that `ioHdlcPeerTest` is about to store. -/
  testing : List (P × F)
  /-- The frames that a thread has only to release. -/
  dropping : List F

/-- What the TX worker does next. -/
inductive TxWorkerAct (P : Type) where
  | lock (p : P)
  | unlock
  | handleTimeoutRetry (l : Link)
  | uCommand
  | uResponse (l : Link)
  | uResponseSent (l : Link)
  /-- The frame of a UI or of `prepareSFrame`. -/
  | takeFrame
  | dequeue
  | stamp
  | enterRetransQ
  | send (prepared : Bool)
  | sendReturns

/-- The sections of the calls of the application. -/
inductive CallAct (P F : Type) where
  | writeTake (p : P)
  | writeInsert (p : P) (fp : F) (l : Link)
  | read (p : P) (consumed : Bool)
  | testTake (p : P)
  | testStart (p : P) (fp : F) (l : Link)
  | testCompleted (p : P) (l : Link)
  | testExpire (p : P) (l : Link)

inductive FrameAct (P F : Type) where
  /-- `s_on_rx`; `asks` says whether it wants a new frame if it has none. -/
  | onRx (give : RxGive) (asks : Bool)
  /-- What the port and the second half of `drv_send_frame` do to the pipeline. -/
  | driver (a : TxStimulus F)
  /-- A round of `drv_recv_frame` that finds a frame. -/
  | recvFrame (passes : Bool)
  | rxEntry (p : P) (l : Link) (v : Frame)
  /-- A received frame that is dropped before the mutex is locked. -/
  | rxDiscard
  | drop (fp : F)
  | tx (a : TxWorkerAct P)
  | call (a : CallAct P F)

namespace FrameSite

variable {P F C A : Type} [DecidableEq P] [DecidableEq F]

/-- What a handler of the peer works on. -/
def holdings (g : FrameSite P F C A) (p : P) : Holdings F C A :=
  { pool := g.pool, peer := g.peer p, lost := g.lost }

def put (g : FrameSite P F C A) (p : P) (x : Holdings F C A) : FrameSite P F C A :=
  { g with pool := x.pool, peer := Function.update g.peer p x.peer, lost := x.lost }

/-- No other thread keeps the mutex. -/
def unlocked (g : FrameSite P F C A) (p : P) : Bool := g.txHold.mutex ≠ some p

/-- The driver gives the frame away that it assembles. -/
def giveInFrame (g : FrameSite P F C A) : RxGive → FrameSite P F C A
  | .keep => g
  | .release => { g with pool := g.pool.clearFrameQ g.inFrame.toList, inFrame := none }
  | .enqueue => { g with receptQ := g.receptQ ++ g.inFrame.toList, inFrame := none }

/-- The label `newframe`. -/
def newframe (g : FrameSite P F C A) : FrameSite P F C A :=
  match g.inFrame with
  | some _ => g
  | none => { g with pool := g.pool.take, inFrame := g.pool.taken }

/-- A section of a peer that may leave a frame to release. -/
def peerSection (g : FrameSite P F C A) (p : P) (r : Holdings F C A × Option F) :
    FrameSite P F C A :=
  { g.put p r.1 with dropping := r.2.toList ++ g.dropping }

/-- A section of the TX worker that may give it a frame to send. -/
def txSection (g : FrameSite P F C A) (p : P) (r : Holdings F C A × Option F) :
    FrameSite P F C A :=
  { g.put p r.1 with txHold := .withFrame p r.2 }

/-- `none` where the worker is elsewhere, or waits. -/
def txWorker (g : FrameSite P F C A) (a : TxWorkerAct P) : Option (FrameSite P F C A) :=
  match g.txHold, a with
  | .outside, .lock p => some { g with txHold := .inside p }
  | .inside _, .unlock => some { g with txHold := .outside }
  | .inside p, .handleTimeoutRetry l => some (g.put p ((g.holdings p).handleTimeoutRetry l))
  | .inside p, .uCommand => some (g.txSection p (g.holdings p).uCommandFrame)
  | .inside p, .uResponse l => some (g.txSection p ((g.holdings p).uResponseFrame l))
  | .inside p, .uResponseSent l => some (g.put p ((g.holdings p).uResponseSent l))
  | .inside p, .takeFrame => some (g.txSection p (g.holdings p).hdlcTakeFrame)
  | .inside p, .dequeue =>
    match (g.holdings p).dequeueIFrame with
    | (x, some fp) => some { g.put p x with txHold := .dequeued p fp }
    | (_, none) => none
  | .dequeued p fp, .stamp =>
    (g.tx.act (.stamp fp)).map fun tx => { g with tx := tx, txHold := .stamping p fp }
  | .stamping p fp, .enterRetransQ =>
    (g.tx.act (.stamped fp)).map fun tx =>
      { g.put p ((g.holdings p).enterRetransQ fp) with tx := tx, txHold := .sending p fp false }
  | .sending p fp own, .send prepared =>
    (g.tx.act (.commit fp prepared g.pool.taken)).map fun tx =>
      { g with
        pool := sendPool g.tx.pipe fp prepared g.pool
        tx := tx
        txHold := if own then .sent p fp else .inside p }
  | .sent p fp, .sendReturns => some { g with pool := g.pool.release fp, txHold := .inside p }
  | _, _ => none

/-- `none` where no thread is there, or the TX worker keeps the mutex. -/
def call (g : FrameSite P F C A) : CallAct P F → Option (FrameSite P F C A)
  | .writeTake p =>
    if g.unlocked p then
      let r := (g.holdings p).hdlcTakeFrame
      some { g.put p r.1 with writing := r.2.toList.map (p, ·) ++ g.writing }
    else none
  | .writeInsert p fp l =>
    if (p, fp) ∈ g.writing ∧ g.unlocked p then
      some { g.peerSection p ((g.holdings p).writeInsert l fp) with
        writing := g.writing.erase (p, fp) }
    else none
  | .read p consumed =>
    if g.unlocked p then some (g.put p ((g.holdings p).readFrame consumed)) else none
  | .testTake p =>
    some { g with
      pool := g.pool.take, testing := g.pool.taken.toList.map (p, ·) ++ g.testing }
  | .testStart p fp l =>
    if (p, fp) ∈ g.testing ∧ g.unlocked p then
      some { g.peerSection p ((g.holdings p).peerTestStart l fp) with
        testing := g.testing.erase (p, fp) }
    else none
  | .testCompleted p l =>
    if g.unlocked p then some (g.peerSection p ((g.holdings p).sTakeCompletedTestFrame l)) else none
  | .testExpire p l =>
    if g.unlocked p then some (g.peerSection p ((g.holdings p).peerTestExpire l)) else none

def act (g : FrameSite P F C A) : FrameAct P F → Option (FrameSite P F C A)
  | .onRx give asks => some (if asks then (g.giveInFrame give).newframe else g.giveInFrame give)
  | .driver a =>
    if a.ofDriver then
      (g.tx.act a).map fun tx =>
        { g with pool := g.pool.clearFrameQ (releasedTo g.tx.pipe tx.pipe), tx := tx }
    else none
  | .recvFrame passes =>
    match g.rxFp, g.receptQ with
    | none, fp :: q =>
      some (if passes then { g with receptQ := q, rxFp := some fp }
        else { g with receptQ := q, dropping := fp :: g.dropping })
    | _, _ => none
  | .rxEntry p l v =>
    match g.rxFp with
    | some fp =>
      if g.unlocked p then some { g.peerSection p ((g.holdings p).rxEntry l v fp) with rxFp := none }
      else none
    | none => none
  | .rxDiscard => g.rxFp.map fun fp => { g with rxFp := none, dropping := fp :: g.dropping }
  | .drop fp =>
    if fp ∈ g.dropping then
      some { g with pool := g.pool.release fp, dropping := g.dropping.erase fp }
    else none
  | .tx a => g.txWorker a
  | .call a => g.call a

def Moves (g g' : FrameSite P F C A) : Prop := ∃ a, g.act a = some g'

/-- The frame whose pointer the next step overwrites. -/
def displaced (g : FrameSite P F C A) : FrameAct P F → List F
  | .rxEntry p l v => if Holdings.parksTest l v then (g.peer p).umRspFrame.toList else []
  | _ => []

/-- A station whose pool, peers and driver were just set up. -/
structure Fresh (p₀ : FrameMemPool F C A) (g : FrameSite P F C A) : Prop where
  pool : g.pool = .start p₀
  peer : ∀ p, g.peer p = {}
  lost : g.lost = []
  tx : g.tx.Fresh
  inFrame : g.inFrame = none
  receptQ : g.receptQ = []
  rxFp : g.rxFp = none
  txHold : g.txHold = .outside
  writing : g.writing = []
  testing : g.testing = []
  dropping : g.dropping = []

omit [DecidableEq P] in
theorem newframe_inFrame (g : FrameSite P F C A) :
    g.newframe.inFrame = match g.inFrame with
      | some fp => some fp
      | none => g.pool.taken := by
  rw [newframe]
  split
  next fp hfp => exact hfp
  · rfl

/-- A callback of the receive machine moves the pointers of its frames like a step. -/
theorem onRx_follows (g : FrameSite P F C A) (cfg : DrvConfig) (take : Option (F × Frame))
    {x : RxCall F} (hx : x.Points) (hops : x.ops = []) (hframep : x.framep = g.inFrame)
    (errmask : Option RxError) :
    ∃ give asks, take.map Prod.fst = (g.giveInFrame give).pool.taken →
      ∃ g', g.act (.onRx give asks) = some g' ∧
        g'.inFrame = (x.sOnRx cfg take errmask).framep ∧
        g'.receptQ.map (RxGive.enqueue, ·) = g.receptQ.map (RxGive.enqueue, ·) ++
          ((x.sOnRx cfg take errmask).ops.filterMap RxOp.given).filter (·.1 = .enqueue) := by
  obtain ⟨give, asks, hgives⟩ := RxCall.sOnRx_gives hx errmask
  refine ⟨give, asks, fun htake => ⟨_, rfl, ?_, ?_⟩⟩
  · have hgiven : (g.giveInFrame give).inFrame = if give = .keep then x.framep else none := by
      cases give <;> simp [giveInFrame, hframep]
    rw [hgives.framep, htake]
    cases asks with
    | false =>
      rw [if_neg Bool.false_ne_true, hgiven]
      cases (if give = .keep then x.framep else none : Option F) <;> rfl
    | true => rw [if_pos rfl, newframe_inFrame, hgiven, if_pos rfl]
  · have hqueue : (if asks then (g.giveInFrame give).newframe else g.giveInFrame give).receptQ =
        (g.giveInFrame give).receptQ := by
      split
      · rw [newframe]
        split <;> rfl
      · rfl
    rw [hqueue, hgives.given, hops, hframep]
    cases give with
    | keep => simp [giveInFrame]
    | release => simp [giveInFrame]
    | enqueue => cases hin : g.inFrame <;> simp [giveInFrame, hin]

/-! ### Who refers to a frame -/

/-- The references outside the peers and outside the transmit pipeline. -/
def inHands (g : FrameSite P F C A) : List F :=
  g.inFrame.toList ++ g.receptQ ++ g.rxFp.toList ++ g.txHold.hand.toList ++
    g.writing.map Prod.snd ++ g.testing.map Prod.snd ++ g.dropping

variable [Fintype P]

/-- The number of owners of a frame: the places of the peers, the driver on both sides, and the
threads that have it in hand. -/
def owners (g : FrameSite P F C A) (fp : F) : Nat :=
  (∑ p, (g.peer p).owned.count fp) + g.inHands.count fp +
    (g.tx.committing ++ (g.tx.pipe.inflightFp.toList ++ g.tx.pipe.rawQ)).count fp

end FrameSite

end IoHdlc
