import IoHdlc.Core.Api
import IoHdlc.Core.Write
import IoHdlc.Pool.PoolRuns
import Mathlib.Algebra.Order.Group.Multiset
import Mathlib.Tactic.Abel

/-!
Frames as the objects they are: who refers to a frame of the pool, and which calls of the pool
the handlers of a peer make.

In the rest of the core a frame is its content. Here it is its pointer, of any type `F`: the
places of a peer hold pointers, and a handler moves them and calls `hdlcTakeFrame` and
`hdlcReleaseFrame`. What a handler decides by the state of the link and by the content of a frame
it decides by the `Link` and the `Frame` it is given; what it decides by a queue or by a pointer,
by the places themselves.

A `Trade` accounts for such calls: the references that somebody has before and behind them.
-/

namespace IoHdlc

/-! ### References that change hands -/

section Trades

variable {F C A : Type} [DecidableEq F]

/-- The frame that the next `take` gives. -/
def PoolRun.taken (r : PoolRun F C A) : Option F := r.pool.take.2.1

/-- The references of the owners, and the pool. -/
abbrev Account (F C A : Type) := Multiset F × PoolRun F C A

/-- One call of an owner. -/
inductive TradeStep : Account F C A → Account F C A → Prop
  | take (m : Multiset F) (r : PoolRun F C A) : TradeStep (m, r) (r.taken.toList + m, r.take)
  | release (m : Multiset F) (r : PoolRun F C A) (fp : F) :
    TradeStep (fp ::ₘ m, r) (m, r.release fp)

/-- Calls that take frames for their owners and release what these own. -/
def Trade (a b : Account F C A) : Prop := Relation.ReflTransGen TradeStep a b

variable {m m' k : Multiset F} {r r' : PoolRun F C A}

theorem TradeStep.frame {a b : Account F C A} (h : TradeStep a b) (k : Multiset F) :
    TradeStep (a.1 + k, a.2) (b.1 + k, b.2) := by
  cases h with
  | take m r =>
    change TradeStep (m + k, r) ((r.taken.toList : Multiset F) + m + k, r.take)
    rw [add_assoc]
    exact .take (m + k) r
  | release m r fp =>
    change TradeStep ((fp ::ₘ m) + k, r) (m + k, r.release fp)
    rw [Multiset.cons_add]
    exact .release (m + k) r fp

namespace Trade

theorem refl (a : Account F C A) : Trade a a := Relation.ReflTransGen.refl

theorem trans {a b c : Account F C A} (h : Trade a b) (h' : Trade b c) : Trade a c :=
  Relation.ReflTransGen.trans h h'

/-- The account may be written in another way on both sides. -/
theorem congr {n n' : Multiset F} (h : Trade (m, r) (m', r')) (hn : n = m) (hn' : n' = m') :
    Trade (n, r) (n', r') := by
  rw [hn, hn']
  exact h

/-- What others own is left alone. -/
theorem frame (h : Trade (m, r) (m', r')) (k : Multiset F) : Trade (m + k, r) (m' + k, r') := by
  have hlift : ∀ a b : Account F C A, Trade a b → Trade (a.1 + k, a.2) (b.1 + k, b.2) := by
    intro a b hab
    induction hab with
    | refl => exact .refl _
    | tail _ hlast ih => exact ih.trans (.single (hlast.frame k))
  exact hlift _ _ h

theorem take (m : Multiset F) (r : PoolRun F C A) : Trade (m, r) (r.taken.toList + m, r.take) :=
  .single (.take m r)

theorem release (m : Multiset F) (r : PoolRun F C A) (fp : F) :
    Trade (fp ::ₘ m, r) (m, r.release fp) :=
  .single (.release m r fp)

end Trade

/-- The releases of `clearFrameQ`, one for each frame that leaves the queue. -/
def PoolRun.clearFrameQ (r : PoolRun F C A) : List F → PoolRun F C A
  | [] => r
  | fp :: q => (r.release fp).clearFrameQ q

theorem trade_clearFrameQ (m : Multiset F) (r : PoolRun F C A) (q : List F) :
    Trade ((q : Multiset F) + m, r) (m, r.clearFrameQ q) := by
  induction q generalizing r with
  | nil => exact (Trade.refl (m, r)).congr (zero_add m) rfl
  | cons fp q ih =>
    have hfirst : Trade (((fp :: q : List F) : Multiset F) + m, r) ((q : Multiset F) + m, r.release fp) :=
      (Trade.release ((q : Multiset F) + m) r fp).congr (by rw [← Multiset.cons_coe, Multiset.cons_add]) rfl
    exact hfirst.trans (ih (r.release fp))

end Trades

/-! ### The places of a peer -/

/-- What a peer refers to. -/
structure PeerFrames (F : Type) where
  iTransQ : List F := []
  iRetransQ : List F := []
  iReceptQ : List F := []
  umApiFrame : Option F := none
  umRspFrame : Option F := none
  partialReadFrame : Option F := none

namespace PeerFrames

variable {F : Type}

/-- The references of the peer, one for each place. -/
def owned (p : PeerFrames F) : Multiset F :=
  p.iTransQ + p.iRetransQ + p.iReceptQ + p.umApiFrame.toList + p.umRspFrame.toList +
    p.partialReadFrame.toList

@[simp] theorem owned_empty : ({} : PeerFrames F).owned = 0 := rfl

end PeerFrames

/-- What a handler works on: the pool, the places of its peer, and the frames whose only pointer
was overwritten. -/
structure Holdings (F C A : Type) where
  pool : PoolRun F C A
  peer : PeerFrames F
  lost : List F

namespace Holdings

variable {F C A : Type} [DecidableEq F]

/-- Every reference that is or was with the peer. -/
def owned (x : Holdings F C A) : Multiset F := x.peer.owned + x.lost

/-- What the peer and the handler have, with the frames in the hands of the handler. -/
def account (x : Holdings F C A) (hand : Multiset F) : Account F C A := (x.owned + hand, x.pool)

/-! ### Common parts -/

def hdlcReleaseFrame (x : Holdings F C A) (fp : F) : Holdings F C A :=
  { x with pool := x.pool.release fp }

def hdlcTakeFrame (x : Holdings F C A) : Holdings F C A × Option F :=
  ({ x with pool := x.pool.take }, x.pool.taken)

/-- A slot is emptied, and its frame released if there is one. -/
def clearPeerUmFrames (x : Holdings F C A) : Holdings F C A :=
  { x with
    pool := (x.pool.clearFrameQ x.peer.umApiFrame.toList).clearFrameQ x.peer.umRspFrame.toList
    peer := { x.peer with umApiFrame := none, umRspFrame := none } }

def clearPeerTxQueues (x : Holdings F C A) : Holdings F C A :=
  { x with
    pool := (x.pool.clearFrameQ x.peer.iRetransQ).clearFrameQ x.peer.iTransQ
    peer := { x.peer with iRetransQ := [], iTransQ := [] } }

def clearPeerRxBuffered (x : Holdings F C A) : Holdings F C A :=
  { x with
    pool := (x.pool.clearFrameQ x.peer.partialReadFrame.toList).clearFrameQ x.peer.iReceptQ
    peer := { x.peer with partialReadFrame := none, iReceptQ := [] } }

def resetPeerProtocolState (x : Holdings F C A) : Holdings F C A := x.clearPeerUmFrames

def closePeerOrderly (x : Holdings F C A) : Holdings F C A :=
  x.resetPeerProtocolState.clearPeerTxQueues

def abortPeerLink (x : Holdings F C A) : Holdings F C A :=
  x.resetPeerProtocolState.clearPeerTxQueues

def resetPeerVars (x : Holdings F C A) : Holdings F C A :=
  x.resetPeerProtocolState.clearPeerTxQueues.clearPeerRxBuffered

/-! ### Reception

A handler returns the frame that it still has to release when it has unlocked the mutex. -/

/-- `p->um_rsp_frame = fp`, whatever the slot holds. -/
def parkUmRspFrame (x : Holdings F C A) (fp : F) : Holdings F C A :=
  { x with
    peer := { x.peer with umRspFrame := some fp }
    lost := x.peer.umRspFrame.toList ++ x.lost }

/-- What a registered U command does. -/
def serveUCommand (l : Link) (v : Frame) (x : Holdings F C A) (fp : F) :
    Holdings F C A × Option F :=
  let uCmd := uFunction l v
  match ucmdToMode uCmd with
  | some _ => (x.resetPeerVars, some fp)
  | none =>
    if uCmd = IOHDLC_U_DISC then (x, some fp)
    else if uCmd = IOHDLC_U_TEST ∧ v.elen - uHdrLen l ≤ l.p.mifls then (x.parkUmRspFrame fp, none)
    else (x, some fp)

/-- Whether the frame is a TEST command that is answered with its own frame. -/
def parksTest (l : Link) (v : Frame) : Bool :=
  isUFrm (v.ctrl l.s.framing 0) && (v.addr l.s.framing).toUInt32 = l.s.addr &&
    uFunction l v = IOHDLC_U_TEST && acceptsUCommand l v && v.elen - uHdrLen l ≤ l.p.mifls

/-- A TEST response takes the place of the command. -/
def serveTestResponse (x : Holdings F C A) (fp : F) : Holdings F C A :=
  { x with
    pool := x.pool.clearFrameQ x.peer.umApiFrame.toList
    peer := { x.peer with umApiFrame := some fp } }

/-- What a response to a command other than TEST does. -/
def serveUResponse (l : Link) (v : Frame) (x : Holdings F C A) : Holdings F C A :=
  let uCmd := uFunction l v
  if uCmd = IOHDLC_U_UA then
    if l.p.umCmd = IOHDLC_U_DISC then x.closePeerOrderly else x.resetPeerVars
  else if uCmd = IOHDLC_U_DM then
    if l.p.umCmd = IOHDLC_U_DISC then x.closePeerOrderly else x
  else x

/-- `handleUFrame` for a frame with content `v`, where there is a current peer. -/
def handleUFrame (l : Link) (v : Frame) (x : Holdings F C A) (fp : F) :
    Holdings F C A × Option F :=
  let addr := (v.addr l.s.framing).toUInt32
  let isCommand := addr = l.s.addr
  if ¬isCommand ∧ addr ≠ l.p.addr then (x.hdlcReleaseFrame fp, none)
  else if uFunction l v = IOHDLC_U_UI then (x.hdlcReleaseFrame fp, none)
  else if isCommand then
    if acceptsUCommand l v then x.serveUCommand l v fp
    else (x.hdlcReleaseFrame fp, none)
  else if matchesUResponse l v then
    if l.p.umCmd = IOHDLC_U_TEST then (x.serveTestResponse fp, none)
    else (x.serveUResponse l v, some fp)
  else (x.hdlcReleaseFrame fp, none)

/-- The loop of `processNR`: the pool, and what is left of the queue. -/
def processNRLoop (modmask nr pnr : UInt32) (r : PoolRun F C A) : List F → PoolRun F C A × List F
  | [] => (r, [])
  | ackedFp :: q =>
    if pnr = nr then (r, ackedFp :: q)
    else processNRLoop modmask nr ((pnr + 1) &&& modmask) (r.release ackedFp) q

def processNR (l : Link) (nr : UInt32) (x : Holdings F C A) : Holdings F C A :=
  let r := processNRLoop l.s.framing.modmask nr l.p.nr x.pool x.peer.iRetransQ
  { x with pool := r.1, peer := { x.peer with iRetransQ := r.2 } }

/-- `ioHdlc_frameq_move` of all of `i_retrans_q` to the head of `i_trans_q`. -/
def moveRetransQ (x : Holdings F C A) : Holdings F C A :=
  { x with peer := { x.peer with iTransQ := x.peer.iRetransQ ++ x.peer.iTransQ, iRetransQ := [] } }

def checkpointRetransmit (l : Link) (x : Holdings F C A) : Holdings F C A :=
  if (IoHdlc.checkpointRetransmit l.s l.p).2 then x.moveRetransQ else x

/-- `handleCheckpointAndAck` with a valid N(R). -/
def handleCheckpointAndAck (l : Link) (nr : UInt32) (pf isCommand : Bool) (x : Holdings F C A) :
    Holdings F C A :=
  let x := x.processNR l nr
  let l := { l with p := (IoHdlc.processNR l.s l.p nr).1 }
  if pf && !(l.s.mode = .abm && isCommand) then x.checkpointRetransmit l else x

/-- `deliver` of the raw receive operations. -/
def deliver (x : Holdings F C A) (fp : F) : Holdings F C A :=
  { x with peer := { x.peer with iReceptQ := x.peer.iReceptQ ++ [fp] } }

/-- A REJ that is acted upon sends everything again. -/
def handleSFrame (l : Link) (v : Frame) (x : Holdings F C A) : Holdings F C A :=
  if v.ctrl l.s.framing 0 &&& IOHDLC_S_FUN_MASK = IOHDLC_S_REJ ∧ !l.s.flags.twa ∧
      l.p.chkptActioned = 0 then
    x.moveRetransQ
  else x

def commonRx (l : Link) (v : Frame) (isCommand : Bool) (x : Holdings F C A) (fp : F) :
    Holdings F C A × Option F :=
  let pf := getPF l.s.framing v
  let nr := extractNR l.s.framing v
  if l.p.frmrCondition then (x, some fp)
  else
    match IoHdlc.handleCheckpointAndAck l nr pf isCommand with
    | none => (x, some fp)
    | some ack =>
      let x := x.handleCheckpointAndAck l nr pf isCommand
      if isIFrm (v.ctrl l.s.framing 0) then
        if (handleIFrame ack.link v pf).2.1 then (x.deliver fp, none) else (x, some fp)
      else (x.handleSFrame ack.link v, some fp)

/-- The dispatch of `ioHdlcRxEntry`. -/
def rxEntry (l : Link) (v : Frame) (x : Holdings F C A) (fp : F) : Holdings F C A × Option F :=
  if isUFrm (v.ctrl l.s.framing 0) then x.handleUFrame l v fp
  else if reachesPeer l v then
    x.commonRx l v ((v.addr l.s.framing).toUInt32 = l.s.addr) fp
  else (x.hdlcReleaseFrame fp, none)

/-! ### Transmission -/

def handleTimeoutRetry (l : Link) (x : Holdings F C A) : Holdings F C A :=
  if l.p.pollRetryCount ≥ l.p.pollRetryMax then x.abortPeerLink else x

/-- The frame of a U command: the stored one, or one from the pool. -/
def uCommandFrame (x : Holdings F C A) : Holdings F C A × Option F :=
  match x.peer.umApiFrame with
  | some fp => ({ x with peer := { x.peer with umApiFrame := none } }, some fp)
  | none => x.hdlcTakeFrame

/-- The frame of a U response: the parked one for a TEST, else one from the pool. -/
def uResponseFrame (l : Link) (x : Holdings F C A) : Holdings F C A × Option F :=
  if l.p.umRsp = IOHDLC_U_TEST then
    ({ x with peer := { x.peer with umRspFrame := none } }, x.peer.umRspFrame)
  else x.hdlcTakeFrame

/-- What follows the transmission of a U response. -/
def uResponseSent (l : Link) (x : Holdings F C A) : Holdings F C A :=
  if l.p.umCmd ≠ IOHDLC_U_TEST ∧ l.p.umCmd = IOHDLC_U_DISC then x.closePeerOrderly else x

/-- `ioHdlc_frameq_remove_la` of `i_trans_q`. -/
def dequeueIFrame (x : Holdings F C A) : Holdings F C A × Option F :=
  ({ x with peer := { x.peer with iTransQ := x.peer.iTransQ.tail } }, x.peer.iTransQ.head?)

def enterRetransQ (x : Holdings F C A) (fp : F) : Holdings F C A :=
  { x with peer := { x.peer with iRetransQ := x.peer.iRetransQ ++ [fp] } }

/-! ### The calls of the application -/

/-- The end of the loop of `ioHdlcWriteVTmo`. -/
def writeInsert (l : Link) (x : Holdings F C A) (fp : F) : Holdings F C A × Option F :=
  if l.p.streamTerminalPending.txReset || l.p.isDisc then (x, some fp)
  else ({ x with peer := { x.peer with iTransQ := x.peer.iTransQ ++ [fp] } }, none)

/-- One round of the loop of `ioHdlcReadVTmo` that finds data; `consumed` says whether nothing of
the frame is left behind it. -/
def readFrame (x : Holdings F C A) (consumed : Bool) : Holdings F C A :=
  match x.peer.partialReadFrame with
  | some fp =>
    if consumed then
      { x with pool := x.pool.release fp, peer := { x.peer with partialReadFrame := none } }
    else x
  | none =>
    match x.peer.iReceptQ with
    | [] => x
    | fp :: q =>
      if consumed then { x with pool := x.pool.release fp, peer := { x.peer with iReceptQ := q } }
      else { x with peer := { x.peer with iReceptQ := q, partialReadFrame := some fp } }

/-- Where `ioHdlcPeerTest` has the lock for the first time. -/
def peerTestStart (l : Link) (x : Holdings F C A) (cmdFp : F) : Holdings F C A × Option F :=
  if x.peer.umApiFrame.isSome || x.peer.umRspFrame.isSome || testBusy l then (x, some cmdFp)
  else ({ x with peer := { x.peer with umApiFrame := some cmdFp } }, none)

/-- `s_take_completed_test_frame_locked`. -/
def sTakeCompletedTestFrame (l : Link) (x : Holdings F C A) : Holdings F C A × Option F :=
  if l.p.umCmd ≠ 0 ∨ l.p.umState.sent then (x, none)
  else ({ x with peer := { x.peer with umApiFrame := none } }, x.peer.umApiFrame)

/-- `ioHdlcPeerTest` when its deadline has passed. -/
def peerTestExpire (l : Link) (x : Holdings F C A) : Holdings F C A × Option F :=
  match x.sTakeCompletedTestFrame l with
  | (x, some rspFp) => (x, some rspFp)
  | (x, none) =>
    if l.p.umCmd = IOHDLC_U_TEST then
      ({ x with peer := { x.peer with umApiFrame := none } }, x.peer.umApiFrame)
    else (x, none)

/-! ### What the handlers trade -/

variable {x y : Holdings F C A} (hand : Multiset F)

omit [DecidableEq F] in
theorem account_congr (hpool : y.pool = x.pool) (howned : y.owned = x.owned) :
    y.account hand = x.account hand := by
  rw [account, account, hpool, howned]

/-- The frames of a queue are released. -/
theorem trade_of_cleared {q : List F} (howned : x.owned = q + y.owned)
    (hpool : y.pool = x.pool.clearFrameQ q) : Trade (x.account hand) (y.account hand) := by
  rw [account, account, hpool]
  exact (trade_clearFrameQ (y.owned + hand) x.pool q).congr (by rw [howned, add_assoc]) rfl

/-- A frame that the handler has is released. -/
theorem hdlcReleaseFrame_trade (x : Holdings F C A) (fp : F) :
    Trade (x.account ({fp} + hand)) ((x.hdlcReleaseFrame fp).account hand) :=
  (Trade.release (x.owned + hand) x.pool fp).congr
    (by rw [← Multiset.singleton_add, add_left_comm]) rfl

theorem hdlcTakeFrame_trade (x : Holdings F C A) :
    Trade (x.account hand) (x.hdlcTakeFrame.1.account (x.hdlcTakeFrame.2.toList + hand)) :=
  (Trade.take (x.owned + hand) x.pool).congr rfl (add_left_comm _ _ _)

/-- Frames move between the places of the peer and the hands of the handler. -/
theorem trade_of_moved {b e : Multiset F} (hpool : y.pool = x.pool)
    (howned : y.owned + e = x.owned + b) :
    Trade (x.account (b + hand)) (y.account (e + hand)) := by
  rw [account, account, hpool]
  exact (Trade.refl (x.owned + (b + hand), x.pool)).congr rfl
    (by rw [← add_assoc, howned, add_assoc])

theorem clearPeerUmFrames_trade (x : Holdings F C A) :
    Trade (x.account hand) (x.clearPeerUmFrames.account hand) := by
  refine (trade_of_cleared hand (q := x.peer.umApiFrame.toList) ?_ rfl).trans
    (trade_of_cleared (x := { x with
      pool := x.pool.clearFrameQ x.peer.umApiFrame.toList
      peer := { x.peer with umApiFrame := none } }) hand (q := x.peer.umRspFrame.toList) ?_ rfl)
  · simp only [owned, PeerFrames.owned, Option.toList_none, Multiset.coe_nil]
    abel
  · simp only [owned, PeerFrames.owned, clearPeerUmFrames, Option.toList_none, Multiset.coe_nil]
    abel

theorem clearPeerTxQueues_trade (x : Holdings F C A) :
    Trade (x.account hand) (x.clearPeerTxQueues.account hand) := by
  refine (trade_of_cleared hand (q := x.peer.iRetransQ) ?_ rfl).trans
    (trade_of_cleared (x := { x with
      pool := x.pool.clearFrameQ x.peer.iRetransQ
      peer := { x.peer with iRetransQ := [] } }) hand (q := x.peer.iTransQ) ?_ rfl)
  · simp only [owned, PeerFrames.owned, Multiset.coe_nil]
    abel
  · simp only [owned, PeerFrames.owned, clearPeerTxQueues, Multiset.coe_nil]
    abel

theorem clearPeerRxBuffered_trade (x : Holdings F C A) :
    Trade (x.account hand) (x.clearPeerRxBuffered.account hand) := by
  refine (trade_of_cleared hand (q := x.peer.partialReadFrame.toList) ?_ rfl).trans
    (trade_of_cleared (x := { x with
      pool := x.pool.clearFrameQ x.peer.partialReadFrame.toList
      peer := { x.peer with partialReadFrame := none } }) hand (q := x.peer.iReceptQ) ?_ rfl)
  · simp only [owned, PeerFrames.owned, Option.toList_none, Multiset.coe_nil]
    abel
  · simp only [owned, PeerFrames.owned, clearPeerRxBuffered, Option.toList_none, Multiset.coe_nil]
    abel

theorem closePeerOrderly_trade (x : Holdings F C A) :
    Trade (x.account hand) (x.closePeerOrderly.account hand) :=
  (x.clearPeerUmFrames_trade hand).trans (x.resetPeerProtocolState.clearPeerTxQueues_trade hand)

theorem resetPeerVars_trade (x : Holdings F C A) :
    Trade (x.account hand) (x.resetPeerVars.account hand) :=
  (x.closePeerOrderly_trade hand).trans (x.closePeerOrderly.clearPeerRxBuffered_trade hand)

/-- The frame in hand is parked; a frame that it displaces counts as lost. -/
theorem parkUmRspFrame_trade (x : Holdings F C A) (fp : F) :
    Trade (x.account ({fp} + hand)) ((x.parkUmRspFrame fp).account hand) := by
  have hmoved := trade_of_moved (x := x) (y := x.parkUmRspFrame fp) hand (b := {fp})
    (e := 0) rfl (by
      simp only [owned, PeerFrames.owned, parkUmRspFrame, Option.toList_some, ← Multiset.coe_add,
        Multiset.coe_singleton]
      abel)
  rwa [zero_add] at hmoved

theorem serveUCommand_trade (l : Link) (v : Frame) (x : Holdings F C A) (fp : F) :
    Trade (x.account ({fp} + hand))
      ((x.serveUCommand l v fp).1.account ((x.serveUCommand l v fp).2.toList + hand)) := by
  simp only [serveUCommand]
  split
  · exact x.resetPeerVars_trade ({fp} + hand)
  split
  · exact .refl _
  split
  · simpa using x.parkUmRspFrame_trade hand fp
  · exact .refl _

theorem serveTestResponse_trade (x : Holdings F C A) (fp : F) :
    Trade (x.account ({fp} + hand)) ((x.serveTestResponse fp).account hand) := by
  rw [account, account, add_left_comm]
  refine (trade_clearFrameQ _ x.pool x.peer.umApiFrame.toList).congr ?_ rfl
  simp only [owned, PeerFrames.owned, serveTestResponse, Option.toList_some, Multiset.coe_singleton]
  abel

theorem serveUResponse_trade (l : Link) (v : Frame) (x : Holdings F C A) :
    Trade (x.account hand) ((x.serveUResponse l v).account hand) := by
  simp only [serveUResponse]
  split
  · split
    · exact x.closePeerOrderly_trade hand
    · exact x.resetPeerVars_trade hand
  split
  · split
    · exact x.closePeerOrderly_trade hand
    · exact .refl _
  · exact .refl _

/-- The frame is released, parked in a slot of the peer, or still in hand. -/
theorem handleUFrame_trade (l : Link) (v : Frame) (x : Holdings F C A) (fp : F) :
    Trade (x.account ({fp} + hand))
      ((x.handleUFrame l v fp).1.account ((x.handleUFrame l v fp).2.toList + hand)) := by
  have hreleased := x.hdlcReleaseFrame_trade hand fp
  simp only [handleUFrame]
  split
  · simpa using hreleased
  split
  · simpa using hreleased
  split
  · split
    · exact x.serveUCommand_trade hand l v fp
    · simpa using hreleased
  split
  · split
    · simpa using x.serveTestResponse_trade hand fp
    · exact x.serveUResponse_trade ({fp} + hand) l v
  · simpa using hreleased

theorem processNRLoop_trade (modmask nr pnr : UInt32) (r : PoolRun F C A) (m : Multiset F)
    (q : List F) :
    Trade ((q : Multiset F) + m, r)
      (((processNRLoop modmask nr pnr r q).2 : Multiset F) + m,
        (processNRLoop modmask nr pnr r q).1) := by
  induction q generalizing pnr r with
  | nil => exact .refl _
  | cons fp q ih =>
    rw [processNRLoop]
    split
    · exact .refl _
    · have hfirst : Trade (((fp :: q : List F) : Multiset F) + m, r)
          ((q : Multiset F) + m, r.release fp) :=
        (Trade.release ((q : Multiset F) + m) r fp).congr
          (by rw [← Multiset.cons_coe, Multiset.cons_add]) rfl
      exact hfirst.trans (ih _ _)

theorem processNR_trade (l : Link) (nr : UInt32) (x : Holdings F C A) :
    Trade (x.account hand) ((x.processNR l nr).account hand) := by
  let rest : Multiset F := { x with peer := { x.peer with iRetransQ := [] } }.owned + hand
  refine (processNRLoop_trade l.s.framing.modmask nr l.p.nr x.pool rest x.peer.iRetransQ).congr ?_ ?_
  · simp only [rest, owned, PeerFrames.owned, Multiset.coe_nil]
    abel
  · simp only [rest, owned, PeerFrames.owned, processNR, Multiset.coe_nil]
    abel

theorem moveRetransQ_trade (x : Holdings F C A) :
    Trade (x.account hand) (x.moveRetransQ.account hand) := by
  have howned : x.moveRetransQ.owned = x.owned := by
    simp only [owned, PeerFrames.owned, moveRetransQ, ← Multiset.coe_add, Multiset.coe_nil]
    abel
  rw [account_congr (x := x) (y := x.moveRetransQ) hand rfl howned]
  exact .refl _

theorem handleCheckpointAndAck_trade (l : Link) (nr : UInt32) (pf isCommand : Bool)
    (x : Holdings F C A) :
    Trade (x.account hand) ((x.handleCheckpointAndAck l nr pf isCommand).account hand) := by
  refine (x.processNR_trade hand l nr).trans ?_
  simp only [handleCheckpointAndAck, checkpointRetransmit]
  split
  · split
    · exact moveRetransQ_trade hand _
    · exact .refl _
  · exact .refl _

theorem deliver_trade (x : Holdings F C A) (fp : F) :
    Trade (x.account ({fp} + hand)) ((x.deliver fp).account hand) := by
  have hmoved := trade_of_moved (x := x) (y := x.deliver fp) hand (b := {fp})
    (e := 0) rfl (by
      simp only [owned, PeerFrames.owned, deliver, ← Multiset.coe_add, Multiset.coe_singleton]
      abel)
  rwa [zero_add] at hmoved

theorem handleSFrame_trade (l : Link) (v : Frame) (x : Holdings F C A) :
    Trade (x.account hand) ((x.handleSFrame l v).account hand) := by
  rw [handleSFrame]
  split
  · exact x.moveRetransQ_trade hand
  · exact .refl _

/-- The frame is delivered or still in hand. -/
theorem commonRx_trade (l : Link) (v : Frame) (isCommand : Bool) (x : Holdings F C A) (fp : F) :
    Trade (x.account ({fp} + hand))
      ((x.commonRx l v isCommand fp).1.account ((x.commonRx l v isCommand fp).2.toList + hand)) := by
  simp only [commonRx]
  split
  · exact .refl _
  split
  · exact .refl _
  · have hack := x.handleCheckpointAndAck_trade ({fp} + hand) l (extractNR l.s.framing v)
      (getPF l.s.framing v) isCommand
    refine hack.trans ?_
    split
    · split
      · simpa using deliver_trade hand _ fp
      · exact .refl _
    · exact handleSFrame_trade ({fp} + hand) _ v _

theorem rxEntry_trade (l : Link) (v : Frame) (x : Holdings F C A) (fp : F) :
    Trade (x.account ({fp} + hand))
      ((x.rxEntry l v fp).1.account ((x.rxEntry l v fp).2.toList + hand)) := by
  rw [rxEntry]
  split
  · exact x.handleUFrame_trade hand l v fp
  split
  · exact x.commonRx_trade hand l v _ fp
  · simpa using x.hdlcReleaseFrame_trade hand fp

theorem handleTimeoutRetry_trade (l : Link) (x : Holdings F C A) :
    Trade (x.account hand) ((x.handleTimeoutRetry l).account hand) := by
  rw [handleTimeoutRetry]
  split
  · exact x.closePeerOrderly_trade hand
  · exact .refl _

/-- What a slot or a queue gives away is in hand. -/
theorem trade_of_given {given : Multiset F} (hpool : y.pool = x.pool)
    (howned : x.owned = given + y.owned) : Trade (x.account hand) (y.account (given + hand)) := by
  have hmoved := trade_of_moved (x := x) (y := y) hand (b := 0) (e := given) hpool
    (by rw [howned, add_zero, add_comm])
  rwa [zero_add] at hmoved

theorem uCommandFrame_trade (x : Holdings F C A) :
    Trade (x.account hand) (x.uCommandFrame.1.account (x.uCommandFrame.2.toList + hand)) := by
  rw [uCommandFrame]
  split
  next fp hslot =>
    refine trade_of_given hand rfl ?_
    simp only [owned, PeerFrames.owned, hslot, Option.toList_none, Multiset.coe_nil]
    abel
  · exact x.hdlcTakeFrame_trade hand

theorem uResponseFrame_trade (l : Link) (x : Holdings F C A) :
    Trade (x.account hand)
      ((x.uResponseFrame l).1.account ((x.uResponseFrame l).2.toList + hand)) := by
  rw [uResponseFrame]
  split
  · refine trade_of_given hand rfl ?_
    simp only [owned, PeerFrames.owned, Option.toList_none, Multiset.coe_nil]
    abel
  · exact x.hdlcTakeFrame_trade hand

theorem uResponseSent_trade (l : Link) (x : Holdings F C A) :
    Trade (x.account hand) ((x.uResponseSent l).account hand) := by
  rw [uResponseSent]
  split
  · exact x.closePeerOrderly_trade hand
  · exact .refl _

theorem dequeueIFrame_trade (x : Holdings F C A) :
    Trade (x.account hand) (x.dequeueIFrame.1.account (x.dequeueIFrame.2.toList + hand)) := by
  refine trade_of_given hand rfl ?_
  cases hq : x.peer.iTransQ with
  | nil => simp [owned, PeerFrames.owned, dequeueIFrame, hq]
  | cons fp q =>
    simp only [owned, PeerFrames.owned, dequeueIFrame, hq, List.head?_cons, List.tail_cons,
      Option.toList_some, ← Multiset.cons_coe, ← Multiset.singleton_add, Multiset.coe_nil]
    abel

theorem enterRetransQ_trade (x : Holdings F C A) (fp : F) :
    Trade (x.account ({fp} + hand)) ((x.enterRetransQ fp).account hand) := by
  have hmoved := trade_of_moved (x := x) (y := x.enterRetransQ fp) hand (b := {fp})
    (e := 0) rfl (by
      simp only [owned, PeerFrames.owned, enterRetransQ, ← Multiset.coe_add, Multiset.coe_singleton]
      abel)
  rwa [zero_add] at hmoved

theorem writeInsert_trade (l : Link) (x : Holdings F C A) (fp : F) :
    Trade (x.account ({fp} + hand))
      ((x.writeInsert l fp).1.account ((x.writeInsert l fp).2.toList + hand)) := by
  rw [writeInsert]
  split
  · exact .refl _
  · refine trade_of_moved hand (e := 0) rfl ?_
    simp only [owned, PeerFrames.owned, ← Multiset.coe_add, Multiset.coe_singleton]
    abel

theorem readFrame_trade (x : Holdings F C A) (consumed : Bool) :
    Trade (x.account hand) ((x.readFrame consumed).account hand) := by
  simp only [readFrame]
  split
  next fp hslot =>
    split
    · refine trade_of_cleared hand (q := [fp]) ?_ rfl
      simp only [owned, PeerFrames.owned, hslot, Option.toList_some, Option.toList_none,
        Multiset.coe_nil]
      abel
    · exact .refl _
  next hslot =>
    split
    · exact .refl _
    next fp q hq =>
      split
      · refine trade_of_cleared hand (q := [fp]) ?_ rfl
        simp only [owned, PeerFrames.owned, hq, ← Multiset.cons_coe, ← Multiset.singleton_add,
          Multiset.coe_nil]
        abel
      · refine trade_of_cleared hand (q := []) ?_ rfl
        simp only [owned, PeerFrames.owned, hslot, hq, ← Multiset.cons_coe,
          ← Multiset.singleton_add, Option.toList_none, Option.toList_some, Multiset.coe_nil]
        abel

theorem peerTestStart_trade (l : Link) (x : Holdings F C A) (fp : F) :
    Trade (x.account ({fp} + hand))
      ((x.peerTestStart l fp).1.account ((x.peerTestStart l fp).2.toList + hand)) := by
  rw [peerTestStart]
  split
  · exact .refl _
  next hbusy =>
    have hempty : x.peer.umApiFrame = none := by
      cases hslot : x.peer.umApiFrame with
      | none => rfl
      | some fp' => simp [hslot] at hbusy
    refine trade_of_moved hand (e := 0) rfl ?_
    simp only [owned, PeerFrames.owned, hempty, Option.toList_some, Option.toList_none,
      Multiset.coe_singleton, Multiset.coe_nil]
    abel

theorem sTakeCompletedTestFrame_trade (l : Link) (x : Holdings F C A) :
    Trade (x.account hand) ((x.sTakeCompletedTestFrame l).1.account
      ((x.sTakeCompletedTestFrame l).2.toList + hand)) := by
  rw [sTakeCompletedTestFrame]
  split
  · simpa using Trade.refl (x.account hand)
  · refine trade_of_given hand rfl ?_
    simp only [owned, PeerFrames.owned, Option.toList_none, Multiset.coe_nil]
    abel

theorem peerTestExpire_trade (l : Link) (x : Holdings F C A) :
    Trade (x.account hand)
      ((x.peerTestExpire l).1.account ((x.peerTestExpire l).2.toList + hand)) := by
  have htaken := x.sTakeCompletedTestFrame_trade hand l
  simp only [peerTestExpire]
  split
  next hr =>
    rw [hr] at htaken
    exact htaken
  next y hr =>
    rw [hr] at htaken
    refine htaken.trans ?_
    rw [Option.toList_none, Multiset.coe_nil, zero_add]
    split
    · refine trade_of_given (x := y) hand rfl ?_
      simp only [owned, PeerFrames.owned, Option.toList_none, Multiset.coe_nil]
      abel
    · simpa using Trade.refl (y.account hand)

/-! ### Lost frames -/

omit [DecidableEq F] in
/-- Only a TEST command that finds the slot taken makes a frame unreachable. -/
theorem lost_parkUmRspFrame (x : Holdings F C A) (fp : F) :
    (x.parkUmRspFrame fp).lost = x.peer.umRspFrame.toList ++ x.lost := rfl

theorem lost_serveUCommand (l : Link) (v : Frame) (x : Holdings F C A) (fp : F) :
    (x.serveUCommand l v fp).1.lost =
      (if uFunction l v = IOHDLC_U_TEST ∧ v.elen - uHdrLen l ≤ l.p.mifls then
        x.peer.umRspFrame.toList else []) ++ x.lost := by
  simp only [serveUCommand]
  split
  next om hom =>
    rw [if_neg]
    · rfl
    · rintro ⟨htest, -⟩
      rw [htest, show ucmdToMode IOHDLC_U_TEST = none from rfl] at hom
      cases hom
  split
  next hdisc =>
    rw [if_neg]
    · rfl
    · rintro ⟨htest, -⟩
      rw [htest] at hdisc
      exact absurd hdisc (by decide)
  split
  · rfl
  · rfl

theorem lost_serveUResponse (l : Link) (v : Frame) (x : Holdings F C A) :
    (x.serveUResponse l v).lost = x.lost := by
  simp only [serveUResponse]
  split
  · split <;> rfl
  split
  · split <;> rfl
  · rfl

theorem lost_commonRx (l : Link) (v : Frame) (isCommand : Bool) (x : Holdings F C A) (fp : F) :
    (x.commonRx l v isCommand fp).1.lost = x.lost := by
  have hack (nr : UInt32) (pf : Bool) :
      (x.handleCheckpointAndAck l nr pf isCommand).lost = x.lost := by
    simp only [handleCheckpointAndAck, checkpointRetransmit]
    split
    · split <;> rfl
    · rfl
  have hsFrame (l : Link) (y : Holdings F C A) : (y.handleSFrame l v).lost = y.lost := by
    rw [handleSFrame]
    split <;> rfl
  simp only [commonRx]
  split
  · rfl
  split
  · rfl
  split
  · split
    · exact hack _ _
    · exact hack _ _
  · exact (hsFrame _ _).trans (hack _ _)

theorem lost_rxEntry (l : Link) (v : Frame) (x : Holdings F C A) (fp : F) :
    (x.rxEntry l v fp).1.lost =
      (if parksTest l v then x.peer.umRspFrame.toList else []) ++ x.lost := by
  rw [rxEntry]
  split
  next hu =>
    simp only [handleUFrame]
    split
    next hspurious => simp [parksTest, hspurious.1, hdlcReleaseFrame]
    split
    next hui =>
      have hnot : ¬uFunction l v = IOHDLC_U_TEST := by rw [hui]; decide
      simp [parksTest, hnot, hdlcReleaseFrame]
    split
    next hcommand =>
      split
      next hacc =>
        rw [lost_serveUCommand]
        by_cases htest : uFunction l v = IOHDLC_U_TEST
        · simp [parksTest, hu, hcommand, hacc, htest]
        · simp [parksTest, htest]
      next hacc => simp [parksTest, hacc, hdlcReleaseFrame]
    next hcommand =>
      have hparks : parksTest l v = false := by simp [parksTest, hcommand]
      rw [hparks]
      split
      · split
        · rfl
        · exact lost_serveUResponse l v x
      · rfl
  next hu =>
    have hparks : parksTest l v = false := by simp [parksTest, hu]
    rw [hparks]
    split
    · exact lost_commonRx l v _ x fp
    · rfl

theorem lost_uCommandFrame (x : Holdings F C A) : x.uCommandFrame.1.lost = x.lost := by
  rw [uCommandFrame]
  split <;> rfl

/-- The sections of the TX worker overwrite no pointer. -/
theorem lost_txSections (l : Link) (x : Holdings F C A) :
    (x.handleTimeoutRetry l).lost = x.lost ∧ (x.uResponseFrame l).1.lost = x.lost ∧
      (x.uResponseSent l).lost = x.lost := by
  refine ⟨?_, ?_, ?_⟩
  · rw [handleTimeoutRetry]
    split <;> rfl
  · rw [uResponseFrame]
    split <;> rfl
  · rw [uResponseSent]
    split <;> rfl

theorem lost_readFrame (x : Holdings F C A) (consumed : Bool) :
    (x.readFrame consumed).lost = x.lost := by
  simp only [readFrame]
  split
  · split <;> rfl
  split
  · rfl
  · split <;> rfl

omit [DecidableEq F] in
theorem lost_callSections (l : Link) (x : Holdings F C A) (fp : F) :
    (x.writeInsert l fp).1.lost = x.lost ∧ (x.peerTestStart l fp).1.lost = x.lost := by
  constructor
  · rw [writeInsert]
    split <;> rfl
  · rw [peerTestStart]
    split <;> rfl

omit [DecidableEq F] in
theorem lost_testSections (l : Link) (x : Holdings F C A) :
    (x.sTakeCompletedTestFrame l).1.lost = x.lost ∧ (x.peerTestExpire l).1.lost = x.lost := by
  have htake : (x.sTakeCompletedTestFrame l).1.lost = x.lost := by
    rw [sTakeCompletedTestFrame]
    split <;> rfl
  refine ⟨htake, ?_⟩
  simp only [peerTestExpire]
  split
  next hr => exact hr ▸ htake
  next hr =>
    rw [hr] at htake
    split <;> exact htake

end Holdings

end IoHdlc
