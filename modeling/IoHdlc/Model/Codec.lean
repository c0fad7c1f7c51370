import IoHdlc.Model.Types

/-!
The address and control fields: the access macros of `ioHdlcframe.h`, the
frame builders of the core, and the field extractors of the receiver.

A U frame has one control octet in every modulus, an I or S frame has
`ctrlSize` of them. Each builder is followed by what the extractors read back
from the frame it leaves.
-/

namespace IoHdlc

/-! ### Constants -/

def IOHDLC_I_ID : UInt8 := 0x00
def IOHDLC_S_ID : UInt8 := 0x01
def IOHDLC_U_ID : UInt8 := 0x03
def IOHDLC_PF_BIT : UInt8 := 0x10
def IOHDLC_PFx_BIT : UInt8 := 0x01
def IOHDLC_S_FUN_MASK : UInt8 := 0x0C
def IOHDLC_S_RR : UInt8 := 0x00
def IOHDLC_S_REJ : UInt8 := 0x08
def IOHDLC_S_RNR : UInt8 := 0x04
def IOHDLC_S_SREJ : UInt8 := 0x0C
def IOHDLC_U_FUN_MASK : UInt8 := 0xEC
def IOHDLC_U_SNRM : UInt8 := 0x80
def IOHDLC_U_SARM : UInt8 := 0x0C
def IOHDLC_U_SABM : UInt8 := 0x2C
def IOHDLC_U_DISC : UInt8 := 0x40
def IOHDLC_U_UI : UInt8 := 0x00
def IOHDLC_U_TEST : UInt8 := 0xE0
def IOHDLC_U_UA : UInt8 := 0x60
def IOHDLC_U_FRMR : UInt8 := 0x84
def IOHDLC_U_DM : UInt8 := 0x0C
def IOHDLC_FRMR_Y : UInt8 := 0x04

/-- `IOHDLC_IS_I_FRM`. -/
def isIFrm (ctrl : UInt8) : Bool := ctrl &&& 0x01 = IOHDLC_I_ID
/-- `IOHDLC_IS_S_FRM`. -/
def isSFrm (ctrl : UInt8) : Bool := ctrl &&& 0x03 = IOHDLC_S_ID
/-- `IOHDLC_IS_U_FRM`. -/
def isUFrm (ctrl : UInt8) : Bool := ctrl &&& 0x03 = IOHDLC_U_ID

/-! ### Field access -/

/-- `IOHDLC_FRAME_ADDR`. -/
def Frame.addr (fr : Framing) (fp : Frame) : UInt8 := fp.frame fr.frameOffset

/-- `IOHDLC_FRAME_CTRL`. -/
def Frame.ctrl (fr : Framing) (fp : Frame) (idx : Nat) : UInt8 := fp.frame (fr.frameOffset + 1 + idx)

def Frame.setAddr (fr : Framing) (fp : Frame) (v : UInt8) : Frame := fp.setOctet fr.frameOffset v

def Frame.setCtrl (fr : Framing) (fp : Frame) (idx : Nat) (v : UInt8) : Frame :=
  fp.setOctet (fr.frameOffset + 1 + idx) v

section FieldAccess

variable (fr : Framing) (fp : Frame) (idx : Nat) (v : UInt8)

@[simp] theorem Frame.addr_setAddr : (fp.setAddr fr v).addr fr = v := by
  simp [Frame.addr, Frame.setAddr]

@[simp] theorem Frame.ctrl_setAddr : (fp.setAddr fr v).ctrl fr idx = fp.ctrl fr idx := by
  simp [Frame.ctrl, Frame.setAddr]; omega

@[simp] theorem Frame.addr_setCtrl : (fp.setCtrl fr idx v).addr fr = fp.addr fr := by
  simp [Frame.addr, Frame.setCtrl]; omega

@[simp] theorem Frame.ctrl_setCtrl (j : Nat) :
    (fp.setCtrl fr idx v).ctrl fr j = if j = idx then v else fp.ctrl fr j := by
  simp [Frame.ctrl, Frame.setCtrl]

@[simp] theorem Frame.setAddr_elen : (fp.setAddr fr v).elen = fp.elen := rfl
@[simp] theorem Frame.setCtrl_elen : (fp.setCtrl fr idx v).elen = fp.elen := rfl
@[simp] theorem Frame.setAddr_txCtrlLen : (fp.setAddr fr v).txCtrlLen = fp.txCtrlLen := rfl
@[simp] theorem Frame.setCtrl_txCtrlLen : (fp.setCtrl fr idx v).txCtrlLen = fp.txCtrlLen := rfl

end FieldAccess

/-- `setNSInCtrl`, the body of `IOHDLC_FRAME_SET_NS`. -/
def setNSInCtrl (fr : Framing) (fp : Frame) (ns : UInt32) : Frame :=
  if fr.modmask = 7 then
    fp.setCtrl fr 0 ((fp.ctrl fr 0 &&& ~~~(0x0E : UInt8)) ||| ((ns &&& 0x07) <<< 1).toUInt8)
  else
    fp.setCtrl fr 0 ((fp.ctrl fr 0 &&& ~~~(0xFE : UInt8)) ||| ((ns &&& 0x7F) <<< 1).toUInt8)

/-- `setNRInCtrl`, the body of `IOHDLC_FRAME_SET_NR`. -/
def setNRInCtrl (fr : Framing) (fp : Frame) (nr : UInt32) : Frame :=
  if fr.modmask = 7 then
    fp.setCtrl fr 0 ((fp.ctrl fr 0 &&& ~~~(0xE0 : UInt8)) ||| ((nr &&& 0x07) <<< 5).toUInt8)
  else
    fp.setCtrl fr 1 ((fp.ctrl fr 1 &&& ~~~(0xFE : UInt8)) ||| ((nr &&& 0x7F) <<< 1).toUInt8)

/-- `setPFInCtrl`, the body of `IOHDLC_FRAME_SET_PF`. -/
def setPFInCtrl (fr : Framing) (fp : Frame) (pf : Bool) : Frame :=
  if fr.pfoctet = 0 then
    if pf then fp.setCtrl fr 0 (fp.ctrl fr 0 ||| IOHDLC_PF_BIT)
    else fp.setCtrl fr 0 (fp.ctrl fr 0 &&& ~~~IOHDLC_PF_BIT)
  else
    if pf then fp.setCtrl fr fr.pfoctet (fp.ctrl fr fr.pfoctet ||| IOHDLC_PFx_BIT)
    else fp.setCtrl fr fr.pfoctet (fp.ctrl fr fr.pfoctet &&& ~~~IOHDLC_PFx_BIT)

/-- `IOHDLC_FRAME_GET_PF`: the octet is chosen by the station's modulus, for
U frames as for the others. -/
def getPF (fr : Framing) (fp : Frame) : Bool :=
  if fr.pfoctet = 0 then fp.ctrl fr 0 &&& IOHDLC_PF_BIT != 0
  else fp.ctrl fr fr.pfoctet &&& IOHDLC_PFx_BIT != 0

def extractNS (fr : Framing) (fp : Frame) : UInt32 :=
  if fr.modmask = 7 then ((fp.ctrl fr 0 >>> 1) &&& 0x07).toUInt32
  else ((fp.ctrl fr 0 >>> 1) &&& 0x7F).toUInt32

def extractNR (fr : Framing) (fp : Frame) : UInt32 :=
  if fr.modmask = 7 then ((fp.ctrl fr 0 >>> 5) &&& 0x07).toUInt32
  else ((fp.ctrl fr 1 >>> 1) &&& 0x7F).toUInt32

/-! ### Frame builders -/

/-- The address octet of an outgoing frame: a command carries the peer's
address, a response the station's. -/
def txAddr (s : Station) (p : Peer) (isCommand : Bool) : UInt8 :=
  if isCommand then p.addr.toUInt8 else s.addr.toUInt8

def ioHdlcBuildUFrame (s : Station) (p : Peer) (fp : Frame) (uFun : UInt8) (setPf isCommand : Bool) :
    Frame :=
  let fp := fp.setAddr s.framing (txAddr s p isCommand)
  let fp := fp.setCtrl s.framing 0 (uFun ||| IOHDLC_U_ID)
  let fp := if setPf then fp.setCtrl s.framing 0 (fp.ctrl s.framing 0 ||| IOHDLC_PF_BIT) else fp
  { fp with elen := u16 (s.framing.frameOffset + 2), txCtrlLen := 1 }

def ioHdlcBuildUFrameWithInfo (s : Station) (p : Peer) (fp : Frame) (uFun : UInt8)
    (setPf isCommand : Bool) (info : List UInt8) : Frame :=
  let fp := ioHdlcBuildUFrame s p fp uFun setPf isCommand
  { fp with
    frame := fp.frame.store (s.framing.frameOffset + 2) info
    elen := u16 (fp.elen + info.length) }

/-- The information field of a FRMR response. -/
def frmrInfo (s : Station) (p : Peer) : List UInt8 :=
  if s.framing.ctrlSize = 1 then
    [p.frmrRejectedCtrl.1,
      ((p.vsHighest &&& 0x07) <<< 1).toUInt8 ||| (if p.frmrCr then (0x10 : UInt8) else 0) |||
        ((p.vr &&& 0x07) <<< 5).toUInt8,
      p.frmrReason]
  else
    [p.frmrRejectedCtrl.1, p.frmrRejectedCtrl.2, ((p.vsHighest &&& 0x7F) <<< 1).toUInt8,
      ((p.vr &&& 0x7F) <<< 1).toUInt8 ||| (if p.frmrCr then (0x01 : UInt8) else 0), p.frmrReason]

def buildFrmrResponse (s : Station) (p : Peer) (fp : Frame) (setPf : Bool) : Frame :=
  let fp := fp.setAddr s.framing s.addr.toUInt8
  let fp := fp.setCtrl s.framing 0 (IOHDLC_U_FRMR ||| IOHDLC_U_ID)
  let fp := if setPf then fp.setCtrl s.framing 0 (fp.ctrl s.framing 0 ||| IOHDLC_PF_BIT) else fp
  { fp with
    frame := fp.frame.store (s.framing.frameOffset + 2) (frmrInfo s p)
    elen := u16 (s.framing.frameOffset + 2 + (frmrInfo s p).length)
    txCtrlLen := 1 }

def buildSFrame (s : Station) (p : Peer) (fp : Frame) (sFun : UInt8) (nr : UInt32)
    (setPf isCommand : Bool) : Frame :=
  let fp := fp.setAddr s.framing (txAddr s p isCommand)
  let fp := fp.setCtrl s.framing 0 (sFun ||| IOHDLC_S_ID)
  let fp := setNRInCtrl s.framing fp nr
  let fp := setPFInCtrl s.framing fp setPf
  { fp with
    elen := u16 (s.framing.frameOffset + 1 + s.framing.ctrlSize)
    txCtrlLen := s.framing.ctrlSize }

/-- The frame that `ioHdlcWriteVTmo` queues for one fragment. -/
def writeFragment (s : Station) (p : Peer) (fp : Frame) (info : List UInt8) : Frame :=
  let fp := fp.setAddr s.framing (txAddr s p s.flags.pri)
  let fp := fp.setCtrl s.framing 0 IOHDLC_I_ID
  let infoPtr := s.framing.frameOffset + 1 + s.framing.ctrlSize
  { fp with
    frame := fp.frame.store infoPtr info
    elen := u16 (infoPtr + info.length) }

/-- Whether a queued frame already carries the header of an I frame; its N(S)
is then kept. -/
def headerStamped (fr : Framing) (fp : Frame) : Bool :=
  fp.txCtrlLen = fr.ctrlSize && isIFrm (fp.ctrl fr 0)

/-- The header that `prepareIFrameHeader` starts from. -/
def stampHeader (fr : Framing) (fp : Frame) (nsSeed : UInt32) : Frame :=
  if headerStamped fr fp then fp
  else
    let fp := fp.setCtrl fr 0 IOHDLC_I_ID
    let fp := if fr.ctrlSize > 1 then fp.setCtrl fr 1 0 else fp
    let fp := setNSInCtrl fr fp nsSeed
    { fp with txCtrlLen := fr.ctrlSize }

/-- The prepared frame and the N(S) it carries. -/
def prepareIFrameHeader (s : Station) (fp : Frame) (addr : UInt8) (nsSeed nr : UInt32)
    (setPf : Bool) : Frame × UInt32 :=
  let fp := stampHeader s.framing fp nsSeed
  let ns := extractNS s.framing fp
  let fp := setNRInCtrl s.framing fp nr
  let fp := setPFInCtrl s.framing fp setPf
  (fp.setAddr s.framing addr, ns)

end IoHdlc
