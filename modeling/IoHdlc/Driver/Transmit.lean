import IoHdlc.Driver.LowLayer

/-!
Transmission in the software driver: the frame format field, the check
sequence, the transparency and the flags that `drv_send_frame` puts around a
frame of the core.
-/

namespace IoHdlc

/-- The error codes of the driver, of the station set-up and of the API. -/
inductive Errno where
  | EMSGSIZE | ENOMEM | EINVAL | ENOTSUP | EEXIST | EISCONN | ENOTCONN | EBUSY | ECONNREFUSED
  | ETIMEDOUT | ECONNRESET | EIO
  deriving DecidableEq, Repr

/-- A configuration that `drv_configure` stores, with the frame size of the
pool the driver was started on. -/
structure DrvConfig where
  fcs : FcsPolicy
  applyTransparency : Bool
  frameFormatSize : Nat
  framesize : Nat
  fff_le : frameFormatSize ≤ 2
  exclusive : applyTransparency = true → frameFormatSize = 0

namespace DrvConfig

/-- Octet transparency without a frame format field. -/
@[simps] def transparent (fcs : FcsPolicy) (framesize : Nat) : DrvConfig :=
  { fcs := fcs, applyTransparency := true, frameFormatSize := 0, framesize := framesize,
    fff_le := by decide, exclusive := fun _ => rfl }

/-- A frame format field of `fff` octets, or none. -/
@[simps] def plain (fcs : FcsPolicy) (fff framesize : Nat) (h : fff ≤ 2) : DrvConfig :=
  { fcs := fcs, applyTransparency := false, frameFormatSize := fff, framesize := framesize,
    fff_le := h, exclusive := fun h => by cases h }

end DrvConfig

/-- The octets `s_emit_fff` stores. `payloadLen` is an integer because its
caller subtracts; `total_wire_len` has 16 bits. -/
def sEmitFff (cfg : DrvConfig) (payloadLen : Int) : Except Errno (List UInt8) :=
  let totalWireLen := ((payloadLen + cfg.frameFormatSize + cfg.fcs.fcsSize) % 65536).toNat
  if cfg.frameFormatSize = 1 then
    if totalWireLen &&& 0xFF80 ≠ 0 then .error .EMSGSIZE
    else .ok [UInt8.ofNat totalWireLen]
  else if cfg.frameFormatSize = 2 then
    if totalWireLen &&& 0xF000 ≠ 0 then .error .EMSGSIZE
    else .ok [UInt8.ofNat (0x80 ||| ((totalWireLen >>> 8) &&& 0x0F)),
      UInt8.ofNat (totalWireLen &&& 0xFF)]
  else .ok []

/-- The frame with its format field and with the check sequence appended. -/
def withFcs (cfg : DrvConfig) (fff : List UInt8) (fp : Frame) : Buffer :=
  let buf := fp.frame.store 0 fff
  buf.store fp.elen (cfg.fcs.txComputeFn (buf.slice 0 fp.elen))

def sMaterializeTxFrame (cfg : DrvConfig) (fp : Frame) : Except Errno Frame := do
  let fff ← sEmitFff cfg (fp.elen - cfg.frameFormatSize)
  let wireLen := fp.elen + cfg.fcs.fcsSize
  return { fp with
    frame := (withFcs cfg fff fp).store wireLen [IOHDLC_FLAG]
    txLen := u16 (wireLen + 1) }

/-- The frame that `drv_send_frame` hands to the port; `nfp` is what
`hdlcTakeFrame` gives for the encoded copy. -/
def drvSendFrame (cfg : DrvConfig) (fp : Frame) (nfp : Option Frame) : Except Errno Frame :=
  if cfg.applyTransparency then do
    let fff ← sEmitFff cfg (fp.elen - cfg.frameFormatSize)
    let src := { fp with frame := withFcs cfg fff fp, elen := u16 (fp.elen + cfg.fcs.fcsSize) }
    match nfp with
    | none => .error .ENOMEM
    | some nfp =>
      let nfp := ioHdlcFrameTransparentEncode nfp src
      return { nfp with
        frame := nfp.frame.store nfp.elen [IOHDLC_FLAG]
        txLen := u16 (nfp.elen + 1) }
  else sMaterializeTxFrame cfg fp

/-- `s_try_start_next_tx_i`: without an opening flag the closing flag of the
frame before serves as one. -/
def sTryStartNextTx (prependOpeningFlag : Bool) (nextFp : Frame) : Frame :=
  { nextFp with openingflag := if prependOpeningFlag then IOHDLC_FLAG else 0 }

/-- The octets that the port sends for a submitted frame. -/
def wireImage (nfp : Frame) : List UInt8 :=
  (if nfp.openingflag = IOHDLC_FLAG then [IOHDLC_FLAG] else []) ++ nfp.frame.slice 0 nfp.txLen

theorem wireImage_sTryStartNextTx (opening : Bool) (nfp : Frame) :
    wireImage (sTryStartNextTx opening nfp) =
      (if opening then [IOHDLC_FLAG] else []) ++ nfp.frame.slice 0 nfp.txLen := by
  cases opening <;> rfl

/-! ### The image of a frame -/

theorem Buffer.slice_store_before (b : Buffer) (off len : Nat) (xs : List UInt8) (h : len ≤ off) :
    (b.store off xs).slice 0 len = b.slice 0 len :=
  Buffer.slice_congr fun i _ hi => Buffer.store_lt _ _ (by omega)

/-- Appending octets to the first `off` ones. -/
theorem Buffer.slice_store_end (b : Buffer) (off : Nat) (xs : List UInt8) :
    (b.store off xs).slice 0 (off + xs.length) = b.slice 0 off ++ xs := by
  rw [Buffer.slice_add, slice_store_before _ _ _ _ le_rfl, Nat.zero_add, slice_store]

theorem slice_withFcs (cfg : DrvConfig) (fff : List UInt8) (fp : Frame) :
    (withFcs cfg fff fp).slice 0 (fp.elen + cfg.fcs.fcsSize) =
      (fp.frame.store 0 fff).slice 0 fp.elen ++
        cfg.fcs.txComputeFn ((fp.frame.store 0 fff).slice 0 fp.elen) := by
  have h := Buffer.slice_store_end (fp.frame.store 0 fff) fp.elen
    (cfg.fcs.txComputeFn ((fp.frame.store 0 fff).slice 0 fp.elen))
  rwa [cfg.fcs.length_compute] at h

/-- A frame followed by its check sequence. -/
def FcsPolicy.append (fcs : FcsPolicy) (octets : List UInt8) : List UInt8 :=
  octets ++ fcs.txComputeFn octets

@[simp] theorem FcsPolicy.length_append (fcs : FcsPolicy) (octets : List UInt8) :
    (fcs.append octets).length = octets.length + fcs.fcsSize := by
  simp [append, fcs.length_compute]

theorem Buffer.slice_store_take (b : Buffer) (xs : List UInt8) (k : Nat) (h : k ≤ xs.length) :
    (b.store 0 xs).slice 0 k = xs.take k := by
  have hx := Buffer.slice_store b 0 xs
  rw [show xs.length = k + (xs.length - k) by omega, slice_add] at hx
  calc (b.store 0 xs).slice 0 k
      = ((b.store 0 xs).slice 0 k ++ (b.store 0 xs).slice (0 + k) (xs.length - k)).take k := by
        rw [List.take_append_of_le_length (by simp), List.take_of_length_le (by simp)]
    _ = xs.take k := by rw [hx]

/-- The wire image in transparent mode: as much of the stuffed frame and check
sequence as `elen` of the encoded copy counts, and a flag. -/
theorem wireImage_transparent {cfg : DrvConfig} (ht : cfg.applyTransparency = true) (fp nfp : Frame)
    (opening : Bool) (hsize : fp.elen + cfg.fcs.fcsSize < 65536)
    (hlen : u16 (transparency.stuff (cfg.fcs.append fp.octets)).length + 1 < 65536) :
    ∃ out, drvSendFrame cfg fp (some nfp) = .ok out ∧
      wireImage (sTryStartNextTx opening out) = (if opening then [IOHDLC_FLAG] else []) ++
        ((transparency.stuff (cfg.fcs.append fp.octets)).take
            (u16 (transparency.stuff (cfg.fcs.append fp.octets)).length) ++ [IOHDLC_FLAG]) := by
  have hfff : sEmitFff cfg (fp.elen - cfg.frameFormatSize) = .ok [] := by
    simp [sEmitFff, cfg.exclusive ht]
  have hsrc : Frame.octets { fp with frame := withFcs cfg [] fp, elen := u16 (fp.elen + cfg.fcs.fcsSize) } =
      cfg.fcs.append fp.octets := by
    rw [Frame.octets, u16_of_lt hsize]
    dsimp only
    rw [slice_withFcs, Buffer.store_nil]
    rfl
  refine ⟨_, by rw [drvSendFrame, if_pos ht, hfff]; rfl, ?_⟩
  simp only [wireImage_sTryStartNextTx, ioHdlcFrameTransparentEncode, hsrc, transparentEncode_eq,
    u16_of_lt hlen]
  have h := Buffer.slice_store_end
    (nfp.frame.store 0 (transparency.stuff (cfg.fcs.append fp.octets)))
    (u16 (transparency.stuff (cfg.fcs.append fp.octets)).length) [IOHDLC_FLAG]
  rw [List.length_singleton, Buffer.slice_store_take _ _ _ (u16_le _)] at h
  rw [h]

end IoHdlc
