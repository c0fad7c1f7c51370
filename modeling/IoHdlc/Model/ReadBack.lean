import IoHdlc.Model.Codec
import Mathlib.Tactic.IntervalCases

/-!
What the extractors read back from a frame after the field setters and the
builders. The setters work on single bits of the control octets, so the lemmas
about octets are proved bit by bit; everything above them is rewriting.
-/

namespace IoHdlc

/-! ### Octets, bit by bit -/

theorem octet_ext {a b : UInt8} (h : ∀ i < 8, a.toBitVec.getLsbD i = b.toBitVec.getLsbD i) :
    a = b :=
  UInt8.toBitVec_inj.mp (BitVec.eq_of_getLsbD_eq h)

section Octets

variable (c : UInt8) (n : UInt32)

theorem nsField8 :
    (((c &&& ~~~(0x0E : UInt8)) ||| ((n &&& 0x07) <<< 1).toUInt8) >>> 1) &&& 0x07 =
      (n &&& 0x07).toUInt8 := by
  refine octet_ext fun i hi => ?_
  interval_cases i <;> simp

theorem nsField128 :
    (((c &&& ~~~(0xFE : UInt8)) ||| ((n &&& 0x7F) <<< 1).toUInt8) >>> 1) &&& 0x7F =
      (n &&& 0x7F).toUInt8 := by
  refine octet_ext fun i hi => ?_
  interval_cases i <;> simp

theorem nrField8 :
    (((c &&& ~~~(0xE0 : UInt8)) ||| ((n &&& 0x07) <<< 5).toUInt8) >>> 5) &&& 0x07 =
      (n &&& 0x07).toUInt8 := by
  refine octet_ext fun i hi => ?_
  interval_cases i <;> simp

theorem nrField8_low :
    ((c &&& ~~~(0xE0 : UInt8)) ||| ((n &&& 0x07) <<< 5).toUInt8) &&& 0x1F = c &&& 0x1F := by
  refine octet_ext fun i hi => ?_
  interval_cases i <;> simp

theorem nsField8_bit0 :
    ((c &&& ~~~(0x0E : UInt8)) ||| ((n &&& 0x07) <<< 1).toUInt8) &&& 0x01 = c &&& 0x01 := by
  refine octet_ext fun i hi => ?_
  interval_cases i <;> simp

theorem nsField128_bit0 :
    ((c &&& ~~~(0xFE : UInt8)) ||| ((n &&& 0x7F) <<< 1).toUInt8) &&& 0x01 = c &&& 0x01 := by
  refine octet_ext fun i hi => ?_
  interval_cases i <;> simp

theorem low7_toUInt8_toUInt32 : (n &&& 0x07).toUInt8.toUInt32 = n &&& 0x07 := by
  apply UInt32.toNat_inj.mp
  have h : n.toNat &&& 7 < 8 := Nat.lt_of_le_of_lt Nat.and_le_right (by decide)
  simp only [UInt8.toNat_toUInt32, UInt32.toNat_toUInt8, UInt32.toNat_and]
  exact Nat.mod_eq_of_lt (by simpa using Nat.lt_of_lt_of_le h (by decide))

theorem low127_toUInt8_toUInt32 : (n &&& 0x7F).toUInt8.toUInt32 = n &&& 0x7F := by
  apply UInt32.toNat_inj.mp
  have h : n.toNat &&& 127 < 128 := Nat.lt_of_le_of_lt Nat.and_le_right (by decide)
  simp only [UInt8.toNat_toUInt32, UInt32.toNat_toUInt8, UInt32.toNat_and]
  exact Nat.mod_eq_of_lt (by simpa using Nat.lt_of_lt_of_le h (by decide))

theorem pfBit_set : (c ||| 0x10) &&& (0x10 : UInt8) = 0x10 := by
  refine octet_ext fun i hi => ?_
  interval_cases i <;> simp

theorem pfBit_clear : (c &&& ~~~(0x10 : UInt8)) &&& (0x10 : UInt8) = 0 := by
  refine octet_ext fun i hi => ?_
  interval_cases i <;> simp

theorem pfxBit_set : (c ||| 0x01) &&& 0x01 = 0x01 := by
  refine octet_ext fun i hi => ?_
  interval_cases i <;> simp

theorem pfxBit_clear : (c &&& ~~~(0x01 : UInt8)) &&& 0x01 = 0 := by
  refine octet_ext fun i hi => ?_
  interval_cases i <;> simp

/-- Setting or clearing the P/F bit of the first octet leaves N(S), N(R) and
the type bits alone. -/
theorem pfBit_fields (d : UInt8) (h : d = c ||| 0x10 ∨ d = c &&& ~~~(0x10 : UInt8)) :
    (d >>> 1) &&& (0x07 : UInt8) = (c >>> 1) &&& 0x07 ∧
      (d >>> 5) &&& (0x07 : UInt8) = (c >>> 5) &&& 0x07 ∧
      d &&& (0x0F : UInt8) = c &&& 0x0F := by
  refine ⟨octet_ext fun i hi => ?_, octet_ext fun i hi => ?_, octet_ext fun i hi => ?_⟩ <;>
    rcases h with rfl | rfl <;> interval_cases i <;> simp

/-- Setting or clearing the P/F bit of a later octet leaves its N(R) alone. -/
theorem pfxBit_fields (d : UInt8) (h : d = c ||| 0x01 ∨ d = c &&& ~~~(0x01 : UInt8)) :
    (d >>> 1) &&& (0x7F : UInt8) = (c >>> 1) &&& 0x7F := by
  refine octet_ext fun i hi => ?_
  rcases h with rfl | rfl <;> interval_cases i <;> simp

end Octets

/-! ### The setters in each modulus -/

section Modulus

variable (fp : Frame) {fff : Nat} (h : fff ≤ 2)

theorem setNSInCtrl_mod8 (ns : UInt32) :
    setNSInCtrl (.mod8 fff h) fp ns = fp.setCtrl (.mod8 fff h) 0
      ((fp.ctrl (.mod8 fff h) 0 &&& ~~~(0x0E : UInt8)) ||| ((ns &&& 0x07) <<< 1).toUInt8) := rfl

theorem setNSInCtrl_mod128 (ns : UInt32) :
    setNSInCtrl (.mod128 fff h) fp ns = fp.setCtrl (.mod128 fff h) 0
      ((fp.ctrl (.mod128 fff h) 0 &&& ~~~(0xFE : UInt8)) ||| ((ns &&& 0x7F) <<< 1).toUInt8) := rfl

theorem setNRInCtrl_mod8 (nr : UInt32) :
    setNRInCtrl (.mod8 fff h) fp nr = fp.setCtrl (.mod8 fff h) 0
      ((fp.ctrl (.mod8 fff h) 0 &&& ~~~(0xE0 : UInt8)) ||| ((nr &&& 0x07) <<< 5).toUInt8) := rfl

theorem setNRInCtrl_mod128 (nr : UInt32) :
    setNRInCtrl (.mod128 fff h) fp nr = fp.setCtrl (.mod128 fff h) 1
      ((fp.ctrl (.mod128 fff h) 1 &&& ~~~(0xFE : UInt8)) ||| ((nr &&& 0x7F) <<< 1).toUInt8) := rfl

theorem setPFInCtrl_mod8 (pf : Bool) :
    ∃ d, setPFInCtrl (.mod8 fff h) fp pf = fp.setCtrl (.mod8 fff h) 0 d ∧
      (d = fp.ctrl (.mod8 fff h) 0 ||| 0x10 ∨ d = fp.ctrl (.mod8 fff h) 0 &&& ~~~(0x10 : UInt8)) := by
  cases pf
  · exact ⟨_, rfl, .inr rfl⟩
  · exact ⟨_, rfl, .inl rfl⟩

theorem setPFInCtrl_mod128 (pf : Bool) :
    ∃ d, setPFInCtrl (.mod128 fff h) fp pf = fp.setCtrl (.mod128 fff h) 1 d ∧
      (d = fp.ctrl (.mod128 fff h) 1 ||| 0x01 ∨
        d = fp.ctrl (.mod128 fff h) 1 &&& ~~~(0x01 : UInt8)) := by
  cases pf
  · exact ⟨_, rfl, .inr rfl⟩
  · exact ⟨_, rfl, .inl rfl⟩

theorem extractNS_mod8 :
    extractNS (.mod8 fff h) fp = ((fp.ctrl (.mod8 fff h) 0 >>> 1) &&& 0x07).toUInt32 := rfl

theorem extractNS_mod128 :
    extractNS (.mod128 fff h) fp = ((fp.ctrl (.mod128 fff h) 0 >>> 1) &&& 0x7F).toUInt32 := rfl

theorem extractNR_mod8 :
    extractNR (.mod8 fff h) fp = ((fp.ctrl (.mod8 fff h) 0 >>> 5) &&& 0x07).toUInt32 := rfl

theorem extractNR_mod128 :
    extractNR (.mod128 fff h) fp = ((fp.ctrl (.mod128 fff h) 1 >>> 1) &&& 0x7F).toUInt32 := rfl

theorem getPF_mod8 :
    getPF (.mod8 fff h) fp = (fp.ctrl (.mod8 fff h) 0 &&& (0x10 : UInt8) != 0) := rfl

theorem getPF_mod128 :
    getPF (.mod128 fff h) fp = (fp.ctrl (.mod128 fff h) 1 &&& (0x01 : UInt8) != 0) := rfl

end Modulus

/-! ### The setters, read back -/

section Setters

variable (fr : Framing) (fp : Frame)

/-- The type and function bits of the first control octet. -/
def Frame.lowNibble : UInt8 := fp.ctrl fr 0 &&& 0x0F

theorem extractNS_setNS (ns : UInt32) :
    extractNS fr (setNSInCtrl fr fp ns) = ns &&& fr.modmask := by
  obtain ⟨fff, h, rfl | rfl⟩ := fr.cases
  · rw [setNSInCtrl_mod8, extractNS_mod8, Frame.ctrl_setCtrl, if_pos rfl, nsField8,
      low7_toUInt8_toUInt32, Framing.mod8_modmask]
  · rw [setNSInCtrl_mod128, extractNS_mod128, Frame.ctrl_setCtrl, if_pos rfl, nsField128,
      low127_toUInt8_toUInt32, Framing.mod128_modmask]

theorem extractNS_setNR (nr : UInt32) :
    extractNS fr (setNRInCtrl fr fp nr) = extractNS fr fp := by
  obtain ⟨fff, h, rfl | rfl⟩ := fr.cases
  · have hb (c : UInt8) : (c >>> 1) &&& (0x07 : UInt8) = ((c &&& 0x1F) >>> 1) &&& 0x07 := by
      refine octet_ext fun i hi => ?_
      interval_cases i <;> simp
    rw [setNRInCtrl_mod8, extractNS_mod8, extractNS_mod8, Frame.ctrl_setCtrl, if_pos rfl, hb,
      nrField8_low, ← hb]
  · rw [setNRInCtrl_mod128, extractNS_mod128, extractNS_mod128, Frame.ctrl_setCtrl,
      if_neg (by decide)]

theorem extractNS_setPF (pf : Bool) : extractNS fr (setPFInCtrl fr fp pf) = extractNS fr fp := by
  obtain ⟨fff, h, rfl | rfl⟩ := fr.cases
  · obtain ⟨d, hd, hc⟩ := setPFInCtrl_mod8 fp h pf
    rw [hd, extractNS_mod8, extractNS_mod8, Frame.ctrl_setCtrl, if_pos rfl, (pfBit_fields _ d hc).1]
  · obtain ⟨d, hd, -⟩ := setPFInCtrl_mod128 fp h pf
    rw [hd, extractNS_mod128, extractNS_mod128, Frame.ctrl_setCtrl, if_neg (by decide)]

theorem extractNR_setNR (nr : UInt32) :
    extractNR fr (setNRInCtrl fr fp nr) = nr &&& fr.modmask := by
  obtain ⟨fff, h, rfl | rfl⟩ := fr.cases
  · rw [setNRInCtrl_mod8, extractNR_mod8, Frame.ctrl_setCtrl, if_pos rfl, nrField8,
      low7_toUInt8_toUInt32, Framing.mod8_modmask]
  · rw [setNRInCtrl_mod128, extractNR_mod128, Frame.ctrl_setCtrl, if_pos rfl, nsField128,
      low127_toUInt8_toUInt32, Framing.mod128_modmask]

theorem extractNR_and_modmask : extractNR fr fp &&& fr.modmask = extractNR fr fp := by
  obtain ⟨fff, h, rfl | rfl⟩ := fr.cases
  · rw [extractNR_mod8, Framing.mod8_modmask, UInt8.toUInt32_and, UInt32.and_assoc]
    rfl
  · rw [extractNR_mod128, Framing.mod128_modmask, UInt8.toUInt32_and, UInt32.and_assoc]
    rfl

theorem extractNR_setPF (pf : Bool) : extractNR fr (setPFInCtrl fr fp pf) = extractNR fr fp := by
  obtain ⟨fff, h, rfl | rfl⟩ := fr.cases
  · obtain ⟨d, hd, hc⟩ := setPFInCtrl_mod8 fp h pf
    rw [hd, extractNR_mod8, extractNR_mod8, Frame.ctrl_setCtrl, if_pos rfl,
      (pfBit_fields _ d hc).2.1]
  · obtain ⟨d, hd, hc⟩ := setPFInCtrl_mod128 fp h pf
    rw [hd, extractNR_mod128, extractNR_mod128, Frame.ctrl_setCtrl, if_pos rfl,
      pfxBit_fields _ d hc]

theorem getPF_setPF (pf : Bool) : getPF fr (setPFInCtrl fr fp pf) = pf := by
  obtain ⟨fff, h, rfl | rfl⟩ := fr.cases <;> cases pf
  · simp [getPF, setPFInCtrl, IOHDLC_PF_BIT, pfBit_clear]
  · simp [getPF, setPFInCtrl, IOHDLC_PF_BIT, pfBit_set]
  · simp [getPF, setPFInCtrl, IOHDLC_PFx_BIT, pfxBit_clear]
  · simp [getPF, setPFInCtrl, IOHDLC_PFx_BIT, pfxBit_set]

theorem lowNibble_setNR (nr : UInt32) :
    (setNRInCtrl fr fp nr).lowNibble fr = fp.lowNibble fr := by
  obtain ⟨fff, h, rfl | rfl⟩ := fr.cases
  · have hb (c : UInt8) : c &&& (0x0F : UInt8) = (c &&& 0x1F) &&& 0x0F := by
      refine octet_ext fun i hi => ?_
      interval_cases i <;> simp
    rw [Frame.lowNibble, Frame.lowNibble, setNRInCtrl_mod8, Frame.ctrl_setCtrl, if_pos rfl, hb,
      nrField8_low, ← hb]
  · rw [Frame.lowNibble, Frame.lowNibble, setNRInCtrl_mod128, Frame.ctrl_setCtrl,
      if_neg (by decide)]

theorem lowNibble_setPF (pf : Bool) : (setPFInCtrl fr fp pf).lowNibble fr = fp.lowNibble fr := by
  obtain ⟨fff, h, rfl | rfl⟩ := fr.cases
  · obtain ⟨d, hd, hc⟩ := setPFInCtrl_mod8 fp h pf
    rw [Frame.lowNibble, Frame.lowNibble, hd, Frame.ctrl_setCtrl, if_pos rfl,
      (pfBit_fields _ d hc).2.2]
  · obtain ⟨d, hd, -⟩ := setPFInCtrl_mod128 fp h pf
    rw [Frame.lowNibble, Frame.lowNibble, hd, Frame.ctrl_setCtrl, if_neg (by decide)]

theorem bit0_setNS (ns : UInt32) :
    (setNSInCtrl fr fp ns).ctrl fr 0 &&& (0x01 : UInt8) = fp.ctrl fr 0 &&& 0x01 := by
  obtain ⟨fff, h, rfl | rfl⟩ := fr.cases
  · rw [setNSInCtrl_mod8, Frame.ctrl_setCtrl, if_pos rfl, nsField8_bit0]
  · rw [setNSInCtrl_mod128, Frame.ctrl_setCtrl, if_pos rfl, nsField128_bit0]

/-! The setters only touch the control octets and keep the length fields. -/

theorem frame_setCtrl {idx i : Nat} (v : UInt8)
    (hi : i < fr.frameOffset + 1 ∨ fr.frameOffset + 1 + fr.ctrlSize ≤ i) (hidx : idx < fr.ctrlSize) :
    (fp.setCtrl fr idx v).frame i = fp.frame i := by
  rw [Frame.setCtrl, Frame.setOctet_frame, if_neg (by omega)]

theorem frame_setNS (ns : UInt32) {i : Nat}
    (hi : i < fr.frameOffset + 1 ∨ fr.frameOffset + 1 + fr.ctrlSize ≤ i) :
    (setNSInCtrl fr fp ns).frame i = fp.frame i := by
  simp only [setNSInCtrl]
  split <;> exact frame_setCtrl fr fp _ hi fr.ctrlSize_pos

theorem frame_setNR (nr : UInt32) {i : Nat}
    (hi : i < fr.frameOffset + 1 ∨ fr.frameOffset + 1 + fr.ctrlSize ≤ i) :
    (setNRInCtrl fr fp nr).frame i = fp.frame i := by
  obtain ⟨fff, h, rfl | rfl⟩ := fr.cases
  · exact frame_setCtrl _ _ _ hi (by simp)
  · exact frame_setCtrl _ _ _ hi (by simp)

theorem frame_setPF (pf : Bool) {i : Nat}
    (hi : i < fr.frameOffset + 1 ∨ fr.frameOffset + 1 + fr.ctrlSize ≤ i) :
    (setPFInCtrl fr fp pf).frame i = fp.frame i := by
  obtain ⟨fff, h, rfl | rfl⟩ := fr.cases
  · obtain ⟨d, hd, -⟩ := setPFInCtrl_mod8 fp h pf
    rw [hd, frame_setCtrl _ _ _ hi (by simp)]
  · obtain ⟨d, hd, -⟩ := setPFInCtrl_mod128 fp h pf
    rw [hd, frame_setCtrl _ _ _ hi (by simp)]

@[simp] theorem setNSInCtrl_elen (ns : UInt32) : (setNSInCtrl fr fp ns).elen = fp.elen := by
  simp only [setNSInCtrl]; split <;> rfl

@[simp] theorem setNRInCtrl_elen (nr : UInt32) : (setNRInCtrl fr fp nr).elen = fp.elen := by
  simp only [setNRInCtrl]; split <;> rfl

@[simp] theorem setPFInCtrl_elen (pf : Bool) : (setPFInCtrl fr fp pf).elen = fp.elen := by
  simp only [setPFInCtrl]; split <;> split <;> rfl

@[simp] theorem setNRInCtrl_txCtrlLen (nr : UInt32) :
    (setNRInCtrl fr fp nr).txCtrlLen = fp.txCtrlLen := by
  simp only [setNRInCtrl]; split <;> rfl

@[simp] theorem setPFInCtrl_txCtrlLen (pf : Bool) :
    (setPFInCtrl fr fp pf).txCtrlLen = fp.txCtrlLen := by
  simp only [setPFInCtrl]; split <;> split <;> rfl

@[simp] theorem extractNS_setAddr (a : UInt8) :
    extractNS fr (fp.setAddr fr a) = extractNS fr fp := by
  simp only [extractNS, Frame.ctrl_setAddr]

@[simp] theorem extractNR_setAddr (a : UInt8) :
    extractNR fr (fp.setAddr fr a) = extractNR fr fp := by
  simp only [extractNR, Frame.ctrl_setAddr]

@[simp] theorem getPF_setAddr (a : UInt8) : getPF fr (fp.setAddr fr a) = getPF fr fp := by
  simp only [getPF, Frame.ctrl_setAddr]

end Setters

/-! ### The header of an I frame -/

section IFrame

variable (fp : Frame) (nsSeed nr : UInt32) (pf : Bool)

theorem frame_stampHeader (fr : Framing) {i : Nat} (hi : fr.frameOffset + 1 + fr.ctrlSize ≤ i) :
    (stampHeader fr fp nsSeed).frame i = fp.frame i := by
  have hpos := fr.ctrlSize_pos
  simp only [stampHeader]
  split
  · rfl
  · rw [frame_setNS _ _ _ (.inr hi)]
    split
    · next h => rw [frame_setCtrl _ _ _ (.inr hi) h, frame_setCtrl _ _ _ (.inr hi) hpos]
    · rw [frame_setCtrl _ _ _ (.inr hi) hpos]

/-- The header of an I frame leaves its information field alone. -/
theorem frame_prepareIFrameHeader (s : Station) (addr : UInt8) {i : Nat}
    (hi : s.framing.frameOffset + 1 + s.framing.ctrlSize ≤ i) :
    (prepareIFrameHeader s fp addr nsSeed nr pf).1.frame i = fp.frame i := by
  rw [prepareIFrameHeader, Frame.setAddr, Frame.setOctet_frame, if_neg (by omega),
    frame_setPF _ _ _ (.inr hi), frame_setNR _ _ _ (.inr hi), frame_stampHeader _ _ _ hi]

@[simp] theorem stampHeader_elen (fr : Framing) : (stampHeader fr fp nsSeed).elen = fp.elen := by
  simp only [stampHeader]
  split
  · rfl
  · split <;> simp

@[simp] theorem prepareIFrameHeader_elen (s : Station) (addr : UInt8) :
    (prepareIFrameHeader s fp addr nsSeed nr pf).1.elen = fp.elen := by
  simp [prepareIFrameHeader]

end IFrame

end IoHdlc
