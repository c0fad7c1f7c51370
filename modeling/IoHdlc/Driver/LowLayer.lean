import IoHdlc.Model.Types
import IoHdlc.Kit.OctetStuffing
import IoHdlc.Kit.TableCrc

/-!
The low layer of the software driver: the frame check sequence and the octet
transparency. The check sequence is an instance of the table-driven one, the
transparency of octet stuffing.
-/

namespace IoHdlc

open Kit

def IOHDLC_FLAG : UInt8 := 0x7E
def IOHDLC_CTLESC : UInt8 := 0x7D
def IOHDLC_TMASK : UInt8 := 0x20

/-! ### Frame check sequence -/

set_option maxRecDepth 2000 in
def fcstab : Array UInt16 :=
  #[0x0000, 0x1189, 0x2312, 0x329b, 0x4624, 0x57ad, 0x6536, 0x74bf,
    0x8c48, 0x9dc1, 0xaf5a, 0xbed3, 0xca6c, 0xdbe5, 0xe97e, 0xf8f7,
    0x1081, 0x0108, 0x3393, 0x221a, 0x56a5, 0x472c, 0x75b7, 0x643e,
    0x9cc9, 0x8d40, 0xbfdb, 0xae52, 0xdaed, 0xcb64, 0xf9ff, 0xe876,
    0x2102, 0x308b, 0x0210, 0x1399, 0x6726, 0x76af, 0x4434, 0x55bd,
    0xad4a, 0xbcc3, 0x8e58, 0x9fd1, 0xeb6e, 0xfae7, 0xc87c, 0xd9f5,
    0x3183, 0x200a, 0x1291, 0x0318, 0x77a7, 0x662e, 0x54b5, 0x453c,
    0xbdcb, 0xac42, 0x9ed9, 0x8f50, 0xfbef, 0xea66, 0xd8fd, 0xc974,
    0x4204, 0x538d, 0x6116, 0x709f, 0x0420, 0x15a9, 0x2732, 0x36bb,
    0xce4c, 0xdfc5, 0xed5e, 0xfcd7, 0x8868, 0x99e1, 0xab7a, 0xbaf3,
    0x5285, 0x430c, 0x7197, 0x601e, 0x14a1, 0x0528, 0x37b3, 0x263a,
    0xdecd, 0xcf44, 0xfddf, 0xec56, 0x98e9, 0x8960, 0xbbfb, 0xaa72,
    0x6306, 0x728f, 0x4014, 0x519d, 0x2522, 0x34ab, 0x0630, 0x17b9,
    0xef4e, 0xfec7, 0xcc5c, 0xddd5, 0xa96a, 0xb8e3, 0x8a78, 0x9bf1,
    0x7387, 0x620e, 0x5095, 0x411c, 0x35a3, 0x242a, 0x16b1, 0x0738,
    0xffcf, 0xee46, 0xdcdd, 0xcd54, 0xb9eb, 0xa862, 0x9af9, 0x8b70,
    0x8408, 0x9581, 0xa71a, 0xb693, 0xc22c, 0xd3a5, 0xe13e, 0xf0b7,
    0x0840, 0x19c9, 0x2b52, 0x3adb, 0x4e64, 0x5fed, 0x6d76, 0x7cff,
    0x9489, 0x8500, 0xb79b, 0xa612, 0xd2ad, 0xc324, 0xf1bf, 0xe036,
    0x18c1, 0x0948, 0x3bd3, 0x2a5a, 0x5ee5, 0x4f6c, 0x7df7, 0x6c7e,
    0xa50a, 0xb483, 0x8618, 0x9791, 0xe32e, 0xf2a7, 0xc03c, 0xd1b5,
    0x2942, 0x38cb, 0x0a50, 0x1bd9, 0x6f66, 0x7eef, 0x4c74, 0x5dfd,
    0xb58b, 0xa402, 0x9699, 0x8710, 0xf3af, 0xe226, 0xd0bd, 0xc134,
    0x39c3, 0x284a, 0x1ad1, 0x0b58, 0x7fe7, 0x6e6e, 0x5cf5, 0x4d7c,
    0xc60c, 0xd785, 0xe51e, 0xf497, 0x8028, 0x91a1, 0xa33a, 0xb2b3,
    0x4a44, 0x5bcd, 0x6956, 0x78df, 0x0c60, 0x1de9, 0x2f72, 0x3efb,
    0xd68d, 0xc704, 0xf59f, 0xe416, 0x90a9, 0x8120, 0xb3bb, 0xa232,
    0x5ac5, 0x4b4c, 0x79d7, 0x685e, 0x1ce1, 0x0d68, 0x3ff3, 0x2e7a,
    0xe70e, 0xf687, 0xc41c, 0xd595, 0xa12a, 0xb0a3, 0x8238, 0x93b1,
    0x6b46, 0x7acf, 0x4854, 0x59dd, 0x2d62, 0x3ceb, 0x0e70, 0x1ff9,
    0xf78f, 0xe606, 0xd49d, 0xc514, 0xb1ab, 0xa022, 0x92b9, 0x8330,
    0x7bc7, 0x6a4e, 0x58d5, 0x495c, 0x3de3, 0x2c6a, 0x1ef1, 0x0f78
  ]

/-- One turn of the loop in `updateFCS`. -/
def updateFCSStep (val : UInt16) (octet : UInt8) : UInt16 :=
  ((val >>> 8) &&& 0xFF) ^^^ fcstab.getD ((val ^^^ octet.toUInt16) &&& 0xFF).toNat 0

def updateFCS (crc : UInt16) (buf : List UInt8) : UInt16 := buf.foldl updateFCSStep crc

theorem updateFCS_append (crc : UInt16) (a b : List UInt8) :
    updateFCS crc (a ++ b) = updateFCS (updateFCS crc a) b :=
  List.foldl_append

def ioHdlcFcsInit : UInt16 := 0xFFFF

def ioHdlcFcsFinalize (crc : UInt16) : UInt16 := crc ^^^ 0xFFFF

/-- What `s_fcs_compute_sw` stores after the octets it covers. -/
def sFcsComputeSw (buf : List UInt8) : List UInt8 :=
  let crc := ioHdlcFcsFinalize (updateFCS ioHdlcFcsInit buf)
  [(crc &&& 0xFF).toUInt8, (crc >>> 8).toUInt8]

/-- `s_fcs_check_sw`. -/
def sFcsCheckSw (buf : List UInt8) : Bool := updateFCS ioHdlcFcsInit buf = 0xF0B8

def fcsCrc : TableCrc := { tab := fun i => fcstab.getD i.toNat 0, init := ioHdlcFcsInit }

theorem updateFCSStep_eq (val : UInt16) (octet : UInt8) :
    updateFCSStep val octet = fcsCrc.step val octet := by
  have hidx : ((val ^^^ octet.toUInt16) &&& 0xFF).toNat = (val.toUInt8 ^^^ octet).toNat := by
    rw [UInt16.toNat_and, UInt16.toNat_xor, UInt8.toNat_xor, UInt8.toNat_toUInt16,
      UInt16.toNat_toUInt8]
    calc (val.toNat ^^^ octet.toNat) &&& (255 : Nat)
        = (val.toNat ^^^ octet.toNat) % 2 ^ 8 := Nat.and_two_pow_sub_one_eq_mod _ 8
      _ = val.toNat % 2 ^ 8 ^^^ octet.toNat % 2 ^ 8 := Nat.xor_mod_two_pow
      _ = val.toNat % 2 ^ 8 ^^^ octet.toNat := by rw [Nat.mod_eq_of_lt octet.toNat_lt]
  have hshift : (val >>> 8) &&& (0xFF : UInt16) = val >>> 8 := by
    refine TableCrc.word_ext fun i hi => ?_
    interval_cases i <;> simp
  rw [updateFCSStep, hidx, hshift, TableCrc.step, fcsCrc]

theorem updateFCS_eq (crc : UInt16) (buf : List UInt8) :
    updateFCS crc buf = fcsCrc.update crc buf := by
  rw [updateFCS, TableCrc.update, funext₂ updateFCSStep_eq]

theorem sFcsComputeSw_eq (buf : List UInt8) : sFcsComputeSw buf = fcsCrc.compute buf := by
  have h (c : UInt16) : (c &&& 0xFF).toUInt8 = c.toUInt8 := by
    refine TableCrc.word_toUInt8_ext fun i hi => ?_
    interval_cases i <;> simp
  rw [sFcsComputeSw, TableCrc.compute, updateFCS_eq, h]
  rfl

/-- A frame followed by its check sequence passes the check of the receiver. -/
theorem sFcsCheckSw_append_compute (buf : List UInt8) :
    sFcsCheckSw (buf ++ sFcsComputeSw buf) = true := by
  have h : fcsCrc.residue = 0xF0B8 := by decide +kernel
  rw [sFcsCheckSw, sFcsComputeSw_eq, updateFCS_eq, decide_eq_true_eq, ← h]
  exact fcsCrc.update_compute buf

/-- The hooks that `s_resolve_fcs_policy` installs for a configured size. The
contract of a backend is that its check accepts what it computed. -/
structure FcsPolicy where
  fcsSize : Nat
  txComputeFn : List UInt8 → List UInt8
  rxCheckFn : List UInt8 → Bool
  length_compute : ∀ buf, (txComputeFn buf).length = fcsSize
  check_compute : ∀ buf, rxCheckFn (buf ++ txComputeFn buf) = true

/-- `s_fcs_compute_none` and `s_fcs_check_none`. -/
def fcsNone : FcsPolicy :=
  { fcsSize := 0
    txComputeFn := fun _ => []
    rxCheckFn := fun _ => true
    length_compute := fun _ => rfl
    check_compute := fun _ => rfl }

/-- `s_fcs_compute_sw` and `s_fcs_check_sw`. -/
def fcsSw : FcsPolicy :=
  { fcsSize := 2
    txComputeFn := sFcsComputeSw
    rxCheckFn := sFcsCheckSw
    length_compute := fun _ => rfl
    check_compute := sFcsCheckSw_append_compute }

/-! ### Octet transparency -/

def transparency : Stuffing UInt8 :=
  { flag := IOHDLC_FLAG
    esc := IOHDLC_CTLESC
    mask := fun x => x ^^^ IOHDLC_TMASK
    mask_mask := fun x => by rw [UInt8.xor_assoc, UInt8.xor_self, UInt8.xor_zero]
    esc_ne := by decide
    mask_flag_ne := by decide
    mask_esc_ne := by decide }

/-- The octets that `ioHdlcFrameTransparentEncode` writes to the destination. -/
def transparentEncode : List UInt8 → List UInt8
  | [] => []
  | x :: xs =>
    if x = IOHDLC_FLAG ∨ x = IOHDLC_CTLESC then
      IOHDLC_CTLESC :: (x ^^^ IOHDLC_TMASK) :: transparentEncode xs
    else x :: transparentEncode xs

def ioHdlcFrameTransparentEncode (dst src : Frame) : Frame :=
  { dst with
    frame := dst.frame.store 0 (transparentEncode src.octets)
    elen := u16 (transparentEncode src.octets).length }

/-- The loop of `ioHdlcFrameTransparentDecode` on one buffer: `src` and `dst`
are the two cursors, the last argument is how many octets are left. -/
def transparentDecode (buf : Buffer) (src dst : Nat) : Nat → Buffer × Nat
  | 0 => (buf, dst)
  | 1 =>
    if buf src = IOHDLC_CTLESC then (Function.update buf dst (buf (src + 1) ^^^ IOHDLC_TMASK), dst + 1)
    else (Function.update buf dst (buf src), dst + 1)
  | n + 2 =>
    if buf src = IOHDLC_CTLESC then
      transparentDecode (Function.update buf dst (buf (src + 1) ^^^ IOHDLC_TMASK)) (src + 2) (dst + 1) n
    else transparentDecode (Function.update buf dst (buf src)) (src + 1) (dst + 1) (n + 1)

/-- `ioHdlcFrameTransparentDecode(fp, fp)`. -/
def ioHdlcFrameTransparentDecode (fp : Frame) : Frame :=
  let r := transparentDecode fp.frame 0 0 fp.elen
  { fp with frame := r.1, elen := u16 r.2 }

theorem transparentEncode_eq (xs : List UInt8) : transparentEncode xs = transparency.stuff xs := by
  induction xs with
  | nil => rfl
  | cons x xs ih =>
    rw [transparentEncode, Stuffing.stuff_cons, Stuffing.stuffOctet, ih]
    by_cases h : x = IOHDLC_FLAG ∨ x = IOHDLC_CTLESC
    · rw [if_pos h, if_pos (show transparency.Special x from h)]; rfl
    · rw [if_neg h, if_neg (show ¬transparency.Special x from h)]; rfl

/-- The decoder works in place: the write cursor never passes the read cursor,
so it reads the octets that were received. -/
theorem transparentDecode_eq (buf : Buffer) (src dst n : Nat) (h : dst ≤ src) :
    transparentDecode buf src dst n =
      let out := transparency.unstuff (buf (src + n)) (buf.slice src n)
      (buf.store dst out, dst + out.length) := by
  -- One octet written behind the read cursor changes neither what is left to
  -- read nor the octet after it.
  have hbehind (buf : Buffer) (src dst k : Nat) (x : UInt8) (h : dst < src) :
      Buffer.slice (Function.update buf dst x) src k = buf.slice src k ∧
        Function.update buf dst x (src + k) = buf (src + k) :=
    ⟨Buffer.slice_congr fun i hi _ => Function.update_of_ne (by omega) ..,
      Function.update_of_ne (by omega) ..⟩
  fun_induction transparentDecode buf src dst n with
  | case1 buf src dst => simp [Buffer.slice, Buffer.store_nil]
  | case2 buf src dst hesc =>
    have hs : buf.slice src 1 = [IOHDLC_CTLESC] := by simp [Buffer.slice, hesc]
    have hu : transparency.unstuff (buf (src + 1)) [IOHDLC_CTLESC] =
        [buf (src + 1) ^^^ IOHDLC_TMASK] := rfl
    simp only [hs, hu, Buffer.store_cons, Buffer.store_nil, List.length_singleton]
  | case3 buf src dst hesc =>
    have hs : buf.slice src 1 = [buf src] := by simp [Buffer.slice]
    rw [hs, transparency.unstuff_cons _ hesc, Stuffing.unstuff_nil]
    simp only [Buffer.store_cons, Buffer.store_nil, List.length_singleton]
  | case4 buf src dst n hesc ih =>
    obtain ⟨hs, hp⟩ := hbehind buf (src + 2) dst n (buf (src + 1) ^^^ IOHDLC_TMASK) (by omega)
    have hu : transparency.unstuff (buf (src + (n + 2))) (buf.slice src (n + 2)) =
        (buf (src + 1) ^^^ IOHDLC_TMASK) ::
          transparency.unstuff (buf (src + 2 + n)) (buf.slice (src + 2) n) := by
      rw [Buffer.slice_cons, Buffer.slice_cons, hesc, show src + (n + 2) = src + 2 + n by omega]
      exact transparency.unstuff_esc_cons ..
    rw [ih (by omega), hs, hp, hu]
    simp only [Buffer.store_cons, List.length_cons, Prod.mk.injEq, true_and]
    omega
  | case5 buf src dst n hesc ih =>
    obtain ⟨hs, hp⟩ := hbehind buf (src + 1) dst (n + 1) (buf src) (by omega)
    have hu : transparency.unstuff (buf (src + (n + 2))) (buf.slice src (n + 2)) =
        buf src :: transparency.unstuff (buf (src + 1 + (n + 1))) (buf.slice (src + 1) (n + 1)) := by
      rw [Buffer.slice_cons, show src + (n + 2) = src + 1 + (n + 1) by omega]
      exact transparency.unstuff_cons _ hesc _
    rw [ih (by omega), hs, hp, hu]
    simp only [Buffer.store_cons, List.length_cons, Prod.mk.injEq, true_and]
    omega

/-- What the decoder makes of a frame whose octets are a stuffed image. -/
theorem ioHdlcFrameTransparentDecode_octets {fp : Frame} {xs : List UInt8}
    (h : fp.octets = transparency.stuff xs) (hlen : xs.length < 65536) :
    (ioHdlcFrameTransparentDecode fp).octets = xs := by
  have hd : transparentDecode fp.frame 0 0 fp.elen = (fp.frame.store 0 xs, xs.length) := by
    rw [transparentDecode_eq _ _ _ _ le_rfl]
    have hs : fp.frame.slice 0 fp.elen = transparency.stuff xs := h
    simp only [hs, transparency.unstuff_stuff, Nat.zero_add]
  simp only [Frame.octets, ioHdlcFrameTransparentDecode, hd, u16_of_lt hlen]
  exact Buffer.slice_store ..

/-- Undoing the transparency at most halves a frame. -/
theorem ioHdlcFrameTransparentDecode_elen (fp : Frame) (hlen : fp.elen < 65536) :
    (ioHdlcFrameTransparentDecode fp).elen ≤ fp.elen ∧
      fp.elen ≤ 2 * (ioHdlcFrameTransparentDecode fp).elen := by
  have hd := transparentDecode_eq fp.frame 0 0 fp.elen le_rfl
  have hl := transparency.length_unstuff (fp.frame (0 + fp.elen)) (fp.frame.slice 0 fp.elen)
  rw [Buffer.length_slice] at hl
  simp only [ioHdlcFrameTransparentDecode, hd, Nat.zero_add] at hl ⊢
  rw [u16_of_lt (by omega)]
  exact hl

end IoHdlc
