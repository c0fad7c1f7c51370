import Mathlib.Algebra.GroupWithZero.Nat
import Mathlib.Data.Finset.Basic
import Mathlib.Data.Finset.Insert
import Mathlib.Data.Finset.SDiff
import Mathlib.Data.List.GetD
import Mathlib.Logic.Function.Basic
import Mathlib.Tactic.Simps.Basic

/-!
The data model of the station: frames, the framing parameters, the peer and
station descriptors, and the event flags that pass between the workers.

Octets are `UInt8`, the sequence variables of a peer are `UInt32` as in the
source, and a status word whose bits the source names one by one is a record
of those bits. A length or an index is a natural number; where the source
stores one in a field of 16 bits the assignment says `u16`.
-/

namespace IoHdlc

/-- Conversion to a 16-bit field, `(uint16_t)x`. -/
def u16 (x : Nat) : Nat := x % 65536

theorem u16_of_lt {x : Nat} (h : x < 65536) : u16 x = x := Nat.mod_eq_of_lt h

theorem u16_le (x : Nat) : u16 x ≤ x := Nat.mod_le ..

/-! ### Frames

A frame buffer is a function from offsets to octets: the source gives every
frame the same `framesize` octets, and whether an access stays inside them is
a property to prove, not a restriction of the model. -/

abbrev Buffer := Nat → UInt8

/-- Store `octets` at `off`, as `memcpy` does. -/
def Buffer.store (b : Buffer) (off : Nat) (octets : List UInt8) : Buffer :=
  fun i => if off ≤ i then octets.getD (i - off) (b i) else b i

/-- The `len` octets from `off` on. -/
def Buffer.slice (b : Buffer) (off len : Nat) : List UInt8 :=
  (List.range len).map fun i => b (off + i)

@[simp] theorem Buffer.length_slice (b : Buffer) (off len : Nat) :
    (b.slice off len).length = len := by
  simp [Buffer.slice]

theorem Buffer.getElem_slice (b : Buffer) (off len i : Nat) (h : i < (b.slice off len).length) :
    (b.slice off len)[i] = b (off + i) := by
  simp [Buffer.slice]

theorem Buffer.slice_congr {b c : Buffer} {off len : Nat}
    (h : ∀ i, off ≤ i → i < off + len → b i = c i) : b.slice off len = c.slice off len := by
  refine List.ext_getElem (by simp) fun i h₁ _ => ?_
  rw [getElem_slice, getElem_slice]
  rw [length_slice] at h₁
  exact h _ (by omega) (by omega)

theorem Buffer.slice_succ (b : Buffer) (off len : Nat) :
    b.slice off (len + 1) = b.slice off len ++ [b (off + len)] := by
  simp [Buffer.slice, List.range_succ]

theorem Buffer.slice_add (b : Buffer) (off m n : Nat) :
    b.slice off (m + n) = b.slice off m ++ b.slice (off + m) n := by
  induction n with
  | zero => simp [Buffer.slice]
  | succ n ih => rw [← Nat.add_assoc, slice_succ, slice_succ, ih, List.append_assoc, Nat.add_assoc]

theorem Buffer.slice_cons (b : Buffer) (off len : Nat) :
    b.slice off (len + 1) = b off :: b.slice (off + 1) len := by
  rw [Nat.add_comm len 1, slice_add]
  simp [Buffer.slice]

theorem Buffer.store_cons (b : Buffer) (off : Nat) (x : UInt8) (xs : List UInt8) :
    b.store off (x :: xs) = Buffer.store (Function.update b off x) (off + 1) xs := by
  funext i
  simp only [Buffer.store]
  rcases Nat.lt_trichotomy i off with h | rfl | h
  · simp [show ¬off ≤ i by omega, show ¬off + 1 ≤ i by omega, Nat.ne_of_lt h]
  · simp
  · obtain ⟨k, rfl⟩ := Nat.exists_eq_add_of_lt h
    simp [show off ≤ off + k + 1 by omega, show off + k + 1 - off = k + 1 by omega,
      show off + k + 1 - (off + 1) = k by omega, Function.update_of_ne (show off + k + 1 ≠ off by omega)]

theorem Buffer.store_nil (b : Buffer) (off : Nat) : b.store off [] = b := by
  funext i
  simp [Buffer.store]

theorem Buffer.store_concat (b : Buffer) (off : Nat) (xs : List UInt8) (x : UInt8) :
    b.store off (xs ++ [x]) = Function.update (b.store off xs) (off + xs.length) x := by
  induction xs generalizing b off with
  | nil => simp [Buffer.store_cons, Buffer.store_nil]
  | cons y ys ih =>
    rw [List.cons_append, Buffer.store_cons, ih, Buffer.store_cons, List.length_cons,
      show off + 1 + ys.length = off + (ys.length + 1) by omega]

theorem Buffer.store_lt (b : Buffer) {off i : Nat} (octets : List UInt8) (h : i < off) :
    b.store off octets i = b i := by
  simp [Buffer.store, Nat.not_le.mpr h]

theorem Buffer.store_ge (b : Buffer) {off i : Nat} {octets : List UInt8}
    (h : off + octets.length ≤ i) : b.store off octets i = b i := by
  simp only [Buffer.store]
  split
  · exact List.getD_eq_default _ _ (by omega)
  · rfl

theorem Buffer.slice_store (b : Buffer) (off : Nat) (octets : List UInt8) :
    (b.store off octets).slice off octets.length = octets := by
  refine List.ext_getElem (by simp) fun i h₁ h₂ => ?_
  rw [getElem_slice]
  simp [Buffer.store, h₂]

structure Frame where
  frame : Buffer
  elen : Nat
  txLen : Nat
  txCtrlLen : Nat
  openingflag : UInt8

instance : Inhabited Frame := ⟨⟨fun _ => 0, 0, 0, 0, 0⟩⟩

/-- The frame that `take` hands out: the transmit fields are cleared, the
buffer and `elen` keep whatever the last owner left there. -/
def Frame.taken (stale : Buffer) (elen : Nat) : Frame :=
  { frame := stale, elen := elen, txLen := 0, txCtrlLen := 0, openingflag := 0 }

def Frame.setOctet (fp : Frame) (i : Nat) (v : UInt8) : Frame :=
  { fp with frame := Function.update fp.frame i v }

/-- The serialized octets of a frame, from the first one to `elen`. -/
def Frame.octets (fp : Frame) : List UInt8 := fp.frame.slice 0 fp.elen

@[simp] theorem Frame.length_octets (fp : Frame) : fp.octets.length = fp.elen := by
  simp [Frame.octets]

theorem Frame.frame_eq_of_octets {fp : Frame} {xs : List UInt8} (h : fp.octets = xs) {i : Nat}
    {x : UInt8} (hi : xs[i]? = some x) : fp.frame i = x := by
  obtain ⟨hlt, hx⟩ := List.getElem?_eq_some_iff.mp hi
  subst h
  have h := Buffer.getElem_slice fp.frame 0 fp.elen i hlt
  rw [Nat.zero_add] at h
  exact h.symm.trans hx

@[simp] theorem Frame.setOctet_elen (fp : Frame) (i : Nat) (v : UInt8) :
    (fp.setOctet i v).elen = fp.elen := rfl

@[simp] theorem Frame.setOctet_txCtrlLen (fp : Frame) (i : Nat) (v : UInt8) :
    (fp.setOctet i v).txCtrlLen = fp.txCtrlLen := rfl

@[simp] theorem Frame.setOctet_frame (fp : Frame) (i : Nat) (v : UInt8) (j : Nat) :
    (fp.setOctet i v).frame j = if j = i then v else fp.frame j := by
  simp [Frame.setOctet, Function.update_apply]

/-! ### Framing parameters -/

/-- `struct iohdlc_station_framing`. The driver supports modulus 8 and 128
and frame format fields of 0, 1 or 2 octets; a value of this type describes
one of those layouts. -/
structure Framing where
  modmask : UInt32
  pfoctet : Nat
  ctrlSize : Nat
  frameOffset : Nat
  layout : modmask = 7 ∧ pfoctet = 0 ∧ ctrlSize = 1 ∨ modmask = 127 ∧ pfoctet = 1 ∧ ctrlSize = 2
  offset_le : frameOffset ≤ 2

/-- The framing that `ioHdlcStationInit` derives for modulus 8. -/
@[simps] def Framing.mod8 (fff : Nat) (h : fff ≤ 2) : Framing :=
  { modmask := 7, pfoctet := 0, ctrlSize := 1, frameOffset := fff, layout := by decide, offset_le := h }

/-- The framing that `ioHdlcStationInit` derives for modulus 128. -/
@[simps] def Framing.mod128 (fff : Nat) (h : fff ≤ 2) : Framing :=
  { modmask := 127, pfoctet := 1, ctrlSize := 2, frameOffset := fff, layout := by decide, offset_le := h }

-- The stations of the examples have no format field or one octet of it, and three peers at most.
-- The facts behind that have names, so that no such station has a proof of its own inside.
theorem Framing.zero_le_two : 0 ≤ 2 := Nat.zero_le 2
theorem Framing.one_le_two : 1 ≤ 2 := Nat.le_succ 1

instance oneNeZero : NeZero 1 := ⟨Nat.succ_ne_zero 0⟩
instance twoNeZero : NeZero 2 := ⟨Nat.succ_ne_zero 1⟩
instance threeNeZero : NeZero 3 := ⟨Nat.succ_ne_zero 2⟩

theorem Framing.cases (fr : Framing) : ∃ fff h, fr = .mod8 fff h ∨ fr = .mod128 fff h := by
  obtain ⟨mm, pf, cs, fo, hl, ho⟩ := fr
  rcases hl with ⟨rfl, rfl, rfl⟩ | ⟨rfl, rfl, rfl⟩
  · exact ⟨fo, ho, .inl rfl⟩
  · exact ⟨fo, ho, .inr rfl⟩

theorem Framing.ctrlSize_pos (fr : Framing) : 0 < fr.ctrlSize := by
  rcases fr.layout with h | h <;> omega

theorem Framing.ctrlSize_le (fr : Framing) : fr.ctrlSize ≤ 2 := by
  rcases fr.layout with h | h <;> omega

/-! ### Modes, status words and events -/

/-- Operational and non-operational modes (`IOHDLC_OM_*`). `unset` is the
value 0, which no `IOHDLC_OM_*` constant has. -/
inductive Mode where
  | unset | abm | arm | nrm | ndm | adm | im
  deriving DecidableEq, Repr

/-- The receive handler installed in `rx_fn`. -/
inductive RxFn where
  | ioHdlcNrmRx | ioHdlcAbmRx
  deriving DecidableEq, Repr

/-- `iohdlc_station::flags`. -/
structure StationFlags where
  pri : Bool := false
  twa : Bool := false
  idl : Bool := false
  busy : Bool := false
  deriving DecidableEq, Repr

/-- `iohdlc_station::pf_state`. -/
structure PfState where
  pRcved : Bool := false
  fRcved : Bool := false
  deriving DecidableEq, Repr

/-- `iohdlc_station_peer::um_state`. -/
structure UmState where
  sent : Bool := false
  rcved : Bool := false
  deriving DecidableEq, Repr

/-- `iohdlc_station_peer::ss_state`. -/
structure SsState where
  busy : Bool := false
  rejpend : Bool := false
  recving : Bool := false
  needP : Bool := false
  termOrderly : Bool := false
  termAborted : Bool := false
  sending : Bool := false
  stConn : Bool := false
  deriving DecidableEq, Repr

/-- `iohdlc_station_peer::stream_terminal_pending`. -/
structure StreamTerminal where
  rxOrderly : Bool := false
  rxAborted : Bool := false
  txReset : Bool := false
  deriving DecidableEq, Repr

/-- The core event flags (`IOHDLC_EVT_*`). -/
inductive Evt where
  | cRplytmo | t3Tmo | iRecvd | rrRecvd | rnrRecvd | xrejRecvd | poolStChg | umRecvd
  | linkStChg | linkReq | lineIdle | linkDown | txIfrmEnq | rejActed | pfRecvd | uiEnq
  deriving DecidableEq, Repr

abbrev EvtFlags := Finset Evt

/-- The flags that `ioHdlcTxEntry` registers its listener for. -/
def flagsMask : EvtFlags :=
  {.cRplytmo, .t3Tmo, .iRecvd, .rrRecvd, .rnrRecvd, .poolStChg, .linkStChg, .umRecvd,
    .linkReq, .lineIdle, .xrejRecvd, .txIfrmEnq, .rejActed, .pfRecvd, .uiEnq}

/-- The application events (`IOHDLC_APP_*`). -/
inductive AppEvt where
  | linkUp | linkRefused | linkDown | linkLost | frmrReceived | uiReceived | internalTestDone
  deriving DecidableEq, Repr

/-- A runner timer: what `iohdlc_vt_set`, `iohdlc_vt_reset` and the expiry
callback leave behind. -/
structure VTimer where
  armed : Bool := false
  expired : Bool := false
  delayMs : UInt32 := 0
  deriving DecidableEq, Repr

def VTimer.set (_ : VTimer) (delayMs : UInt32) : VTimer :=
  { armed := true, expired := false, delayMs := delayMs }

def VTimer.reset (t : VTimer) : VTimer := { t with armed := false, expired := false }

/-- `ioHdlcIsReplyTimerExpired`. -/
def VTimer.isExpired (t : VTimer) : Bool := !t.armed && t.expired

/-- What the timer callback does to an armed timer. -/
def VTimer.fire (t : VTimer) : VTimer := { t with armed := false, expired := true }

/-! ### Station and peer -/

/-- `IOHDLC_POOL_NORMAL` / `IOHDLC_POOL_LOW_WATER`. -/
inductive PoolState where
  | normal | lowWater
  deriving DecidableEq, Repr

/-- `struct iohdlc_station`, without its list of peers. -/
structure Station where
  mode : Mode
  flags : StationFlags
  pfState : PfState
  framing : Framing
  fcsSize : Nat
  useRej : Bool
  replyTimeoutMs : UInt16
  idlePollTimeoutMs : UInt32
  addr : UInt32
  connectedCount : UInt8
  poolState : PoolState
  rxFn : Option RxFn
  /-- The flags broadcast on `cm_es` and not yet fetched by the TX worker. -/
  cmListener : EvtFlags
  /-- The application events broadcast on `app_es`, latest first. -/
  appEs : List AppEvt

/-- `struct iohdlc_station_peer`. -/
structure Peer where
  addr : UInt32
  ks : UInt32
  mifls : Nat
  vs : UInt32 := 0
  vr : UInt32 := 0
  nr : UInt32 := 0
  vsHighest : UInt32 := 0
  rejActioned : UInt32 := 0
  chkptActioned : UInt32 := 0
  vsAtlastPf : UInt32 := 0
  t3ExpectedNr : UInt32 := 0
  iPendingCount : UInt32 := 0
  umState : UmState := {}
  ssState : SsState := {}
  umCmd : UInt8 := 0
  umRsp : UInt8 := 0
  umApiFrame : Option Frame := none
  umRspFrame : Option Frame := none
  uiTxPending : Bool := false
  uiRxPending : Bool := false
  streamTerminalPending : StreamTerminal := {}
  uiTxValue : List UInt8 := [0, 0, 0, 0]
  uiRxValue : List UInt8 := [0, 0, 0, 0]
  iRetransQ : List Frame := []
  iReceptQ : List Frame := []
  iTransQ : List Frame := []
  partialReadFrame : Option Frame := none
  partialReadOffset : Nat := 0
  replyTmr : VTimer := {}
  t3Tmr : VTimer := {}
  pollRetryCount : UInt8 := 0
  pollRetryMax : UInt8
  frmrCondition : Bool := false
  frmrRejectedCtrl : UInt8 × UInt8 := (0, 0)
  frmrReason : UInt8 := 0
  frmrCr : Bool := false

/-- The station `ioHdlcStationInit` leaves, with the framing and the timeouts it
derives from the configuration. -/
def initialStation (mode : Mode) (flags : StationFlags) (framing : Framing) (fcsSize : Nat)
    (useRej : Bool) (replyTimeoutMs : UInt16) (idlePollTimeoutMs addr : UInt32) : Station :=
  { mode := mode
    flags := flags
    pfState := { fRcved := mode = .ndm && flags.pri }
    framing := framing
    fcsSize := fcsSize
    useRej := useRej
    replyTimeoutMs := replyTimeoutMs
    idlePollTimeoutMs := idlePollTimeoutMs
    addr := addr
    connectedCount := 0
    poolState := .normal
    rxFn := none
    cmListener := ∅
    appEs := [] }

def IOHDLC_PEER_MIFL_FALLBACK : Nat := 64

/-- The information length that `ioHdlcAddPeer` derives from the frame size of
the pool. -/
def peerMifl (framing : Framing) (fcsSize framesize : Nat) : Nat :=
  let overhead := framing.frameOffset + 1 + framing.ctrlSize + fcsSize + 1
  if framesize > overhead then framesize - overhead else IOHDLC_PEER_MIFL_FALLBACK

/-- The peer `ioHdlcAddPeer` leaves; `pollRetryMax` is the station's
`poll_retry_max_cfg`. -/
def initialPeer (s : Station) (framesize : Nat) (pollRetryMax : UInt8) (addr : UInt32) : Peer :=
  { addr := addr
    ks := s.framing.modmask
    mifls := peerMifl s.framing s.fcsSize framesize
    pollRetryMax := pollRetryMax }

/-- `ioHdlcBroadcastFlags`: only the flags the TX worker listens for stick. -/
def Station.broadcastFlags (s : Station) (flags : EvtFlags) : Station :=
  { s with cmListener := s.cmListener ∪ flags ∩ flagsMask }

/-- `ioHdlcBroadcastFlagsApp`. -/
def Station.broadcastFlagsApp (s : Station) (e : AppEvt) : Station :=
  { s with appEs := e :: s.appEs }

/-- `IOHDLC_IS_DISC`: the station is in one of the disconnected modes. -/
def Station.isDisc (s : Station) : Bool := s.mode = .ndm || s.mode = .adm

/-- `IOHDLC_PEER_DISC`. -/
def Peer.isDisc (p : Peer) : Bool := !p.ssState.stConn

end IoHdlc
