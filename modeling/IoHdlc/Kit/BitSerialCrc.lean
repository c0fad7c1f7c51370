import IoHdlc.Kit.TableCrc
import Mathlib.Data.List.Basic

/-!
The reflected cyclic redundancy check bit by bit, lowest bit of an octet first,
for a register of any width. The register is linear in its content and its
input, and where the polynomial has its highest bit a step loses nothing: as
many bits as the register has are seen whatever follows them.
-/

namespace IoHdlc.Kit

variable {w : Nat}

/-- One bit into the register. -/
def bitStep (poly c : BitVec w) (b : Bool) : BitVec w :=
  if c.getLsbD 0 ^^ b then (c >>> 1) ^^^ poly else c >>> 1

def bitRun (poly c : BitVec w) (bits : List Bool) : BitVec w := bits.foldl (bitStep poly) c

/-- The word with the given bits, the first one lowest. -/
def bitWord (w : Nat) : List Bool → BitVec w
  | [] => 0
  | b :: bits => (bitWord w bits <<< 1) ^^^ BitVec.setWidth w (BitVec.ofBool b)

section Register

variable (poly c d : BitVec w) (bits bits' : List Bool)

theorem bitRun_append : bitRun poly c (bits ++ bits') = bitRun poly (bitRun poly c bits) bits' :=
  List.foldl_append

/-- The bits behind a step. -/
theorem getLsbD_bitStep (b : Bool) (i : Nat) :
    (bitStep poly c b).getLsbD i =
      (c.getLsbD (i + 1) ^^ ((c.getLsbD 0 ^^ b) && poly.getLsbD i)) := by
  rw [bitStep, Nat.add_comm i 1]
  split
  · next h => simp [h]
  · next h => simp [h]

theorem bitStep_xor (a b : Bool) :
    bitStep poly (c ^^^ d) (a ^^ b) = bitStep poly c a ^^^ bitStep poly d b := by
  refine BitVec.eq_of_getLsbD_eq fun i _ => ?_
  simp only [BitVec.getLsbD_xor, getLsbD_bitStep]
  cases c.getLsbD (i + 1) <;> cases d.getLsbD (i + 1) <;> cases c.getLsbD 0 <;> cases d.getLsbD 0 <;>
    cases a <;> cases b <;> cases poly.getLsbD i <;> rfl

/-- A step can be undone when the polynomial has its highest bit. -/
theorem bitStep_injective {poly : BitVec w} (hpoly : poly.msb = true) (b : Bool) :
    Function.Injective (bitStep poly · b) := by
  intro c d h
  have hbit (i : Nat) := congrArg (BitVec.getLsbD · i) h
  simp only [getLsbD_bitStep] at hbit
  have hw : 0 < w := by
    rcases Nat.eq_zero_or_pos w with rfl | hw
    · simp [BitVec.msb, BitVec.getMsbD] at hpoly
    · exact hw
  have htop : poly.getLsbD (w - 1) = true := by rwa [BitVec.msb_eq_getLsbD_last] at hpoly
  -- the highest bit is the one that the lowest bit and the input decide
  have hlow : c.getLsbD 0 = d.getLsbD 0 := by
    have hlast := hbit (w - 1)
    rw [Nat.sub_add_cancel hw, BitVec.getLsbD_of_ge c w le_rfl, BitVec.getLsbD_of_ge d w le_rfl, htop]
      at hlast
    simpa using hlast
  refine BitVec.eq_of_getLsbD_eq fun i _ => ?_
  cases i with
  | zero => exact hlow
  | succ i =>
    have hnext := hbit i
    rw [hlow] at hnext
    simpa using hnext

end Register

section Word

variable (poly c : BitVec w) {bits bits' : List Bool}

theorem getLsbD_bitWord (bits : List Bool) (i : Nat) :
    (bitWord w bits).getLsbD i = (decide (i < w) && bits.getD i false) := by
  induction bits generalizing i with
  | nil => simp [bitWord]
  | cons b bits ih =>
    rw [bitWord, BitVec.getLsbD_xor, BitVec.getLsbD_shiftLeft, ih, BitVec.getLsbD_setWidth,
      BitVec.getLsbD_ofBool]
    cases i with
    | zero => simp
    | succ i =>
      have hlt : i + 1 < w → i < w := by omega
      by_cases hi : i + 1 < w <;> simp [hi, hlt]

/-- A register that holds the input is empty behind it. -/
theorem bitStep_bitWord (b : Bool) (hlen : bits.length < w) :
    bitStep poly (bitWord w (b :: bits)) b = bitWord w bits := by
  refine BitVec.eq_of_getLsbD_eq fun i hi => ?_
  have hw : 0 < w := by omega
  rw [getLsbD_bitStep, getLsbD_bitWord, getLsbD_bitWord, getLsbD_bitWord]
  by_cases hnext : i + 1 < w
  · simp [hw, hnext, hi]
  · have hout : bits.length ≤ i := by omega
    simp [hw, hnext, hi, hout]

/-- A run of at most as many bits as the register has is one of zeros from the register with the
bits added to it. -/
theorem bitRun_eq_iterate (hlen : bits.length ≤ w) :
    bitRun poly c bits = (bitStep poly · false)^[bits.length] (c ^^^ bitWord w bits) := by
  induction bits generalizing c with
  | nil => simp [bitRun, bitWord]
  | cons b bits ih =>
    rw [List.length_cons] at hlen
    have hstep : bitStep poly (c ^^^ bitWord w (b :: bits)) false =
        bitStep poly c b ^^^ bitWord w bits := by
      calc bitStep poly (c ^^^ bitWord w (b :: bits)) false
          = bitStep poly (c ^^^ bitWord w (b :: bits)) (b ^^ b) := by rw [Bool.xor_self]
        _ = bitStep poly c b ^^^ bitStep poly (bitWord w (b :: bits)) b := bitStep_xor ..
        _ = bitStep poly c b ^^^ bitWord w bits := by rw [bitStep_bitWord poly b (by omega)]
    rw [List.length_cons, Function.iterate_succ_apply, hstep]
    exact ih (bitStep poly c b) (by omega)

theorem bitWord_injective (hlen : bits.length ≤ w) (hsame : bits'.length = bits.length)
    (h : bitWord w bits = bitWord w bits') : bits = bits' := by
  refine List.ext_getElem hsame.symm fun i hi hi' => ?_
  have hbit : (bitWord w bits).getLsbD i = (bitWord w bits').getLsbD i := by rw [h]
  have hw : i < w := by omega
  rw [getLsbD_bitWord, getLsbD_bitWord] at hbit
  simpa [hw, hi, hi'] using hbit

variable {poly}

theorem bitRun_injective (hpoly : poly.msb = true) (bits : List Bool) :
    Function.Injective (bitRun poly · bits) := by
  induction bits with
  | nil => exact fun _ _ h => h
  | cons b bits ih => exact fun _ _ h => bitStep_injective hpoly b (ih h)

/-- Two inputs of the same length, at most that of the register, leave two contents. -/
theorem bitRun_input_injective (hpoly : poly.msb = true) (hlen : bits.length ≤ w)
    (hsame : bits'.length = bits.length) (h : bitRun poly c bits = bitRun poly c bits') :
    bits = bits' := by
  rw [bitRun_eq_iterate poly c hlen, bitRun_eq_iterate poly c (hsame.trans_le hlen), hsame] at h
  have hword := (bitStep_injective hpoly false).iterate _ h
  exact bitWord_injective hlen hsame ((BitVec.xor_right_inj c).mp hword)

/-- An error within as many bits as the register has is not undone by what follows. -/
theorem bitRun_burst_ne (hpoly : poly.msb = true) (front behind : List Bool) (hlen : bits.length ≤ w)
    (hsame : bits'.length = bits.length) (hne : bits ≠ bits') :
    bitRun poly c (front ++ bits ++ behind) ≠ bitRun poly c (front ++ bits' ++ behind) := by
  intro h
  simp only [bitRun_append] at h
  exact hne (bitRun_input_injective _ hpoly hlen hsame (bitRun_injective hpoly behind h))

end Word

/-! ### Octets from a table -/

/-- The bits of an octet in the order of transmission. -/
def octetBits (octet : UInt8) : List Bool := (List.range 8).map (octet.toBitVec.getLsbD ·)

def octetsBits (octets : List UInt8) : List Bool := octets.flatMap octetBits

theorem length_octetBits (octet : UInt8) : (octetBits octet).length = 8 := by simp [octetBits]

theorem octetBits_injective : Function.Injective octetBits := by
  intro a b h
  refine TableCrc.word_toUInt8_ext fun i hi => ?_
  exact List.map_inj_left.mp h i (List.mem_range.mpr hi)

theorem length_octetsBits (octets : List UInt8) : (octetsBits octets).length = octets.length * 8 := by
  simp [octetsBits, length_octetBits]

theorem getLsbD_bitWord_octetBits (octet : UInt8) (i : Nat) :
    (bitWord 16 (octetBits octet)).getLsbD i = octet.toBitVec.getLsbD i := by
  rw [getLsbD_bitWord, octetBits, List.getD_eq_getElem?_getD, List.getElem?_map]
  by_cases hi : i < 8
  · have hlt : i < 16 := by omega
    simp [hi, hlt]
  · have hout : octet.toBitVec.getLsbD i = false := BitVec.getLsbD_of_ge _ _ (by omega)
    simp [hi, hout]

/-- A register with clear low bits only moves down. -/
theorem iterate_bitStep_of_clear (poly : BitVec w) {c : BitVec w} {k : Nat}
    (hclear : ∀ i < k, c.getLsbD i = false) : (bitStep poly · false)^[k] c = c >>> k := by
  induction k with
  | zero => simp
  | succ k ih =>
    have hlow : (c >>> k).getLsbD 0 = false := by simpa using hclear k (Nat.lt_succ_self k)
    rw [Function.iterate_succ_apply', ih fun i hi => hclear i (by omega), bitStep, hlow,
      if_neg (by simp), BitVec.shiftRight_add]

theorem iterate_bitStep_xor (poly c d : BitVec w) (k : Nat) :
    (bitStep poly · false)^[k] (c ^^^ d) =
      (bitStep poly · false)^[k] c ^^^ (bitStep poly · false)^[k] d := by
  induction k with
  | zero => rfl
  | succ k ih =>
    rw [Function.iterate_succ_apply', Function.iterate_succ_apply', Function.iterate_succ_apply', ih]
    exact bitStep_xor poly _ _ false false

namespace TableCrc

variable {t : TableCrc} {poly : BitVec 16}

/-- The table has what each octet makes of an empty register. -/
structure Reflects (t : TableCrc) (poly : BitVec 16) : Prop where
  top : poly.msb = true
  tab : ∀ octet, (t.tab octet).toBitVec = bitRun poly 0 (octetBits octet)

/-- An octet from the table is its eight bits. -/
theorem Reflects.step (h : t.Reflects poly) (crc : UInt16) (octet : UInt8) :
    (t.step crc octet).toBitVec = bitRun poly crc.toBitVec (octetBits octet) := by
  -- the register with the octet added, split at the octet boundary
  have hsplit : crc.toBitVec ^^^ bitWord 16 (octetBits octet) =
      bitWord 16 (octetBits (crc.toUInt8 ^^^ octet)) ^^^ (crc.toBitVec >>> 8 <<< 8) := by
    refine BitVec.eq_of_getLsbD_eq fun i hi => ?_
    simp only [BitVec.getLsbD_xor, getLsbD_bitWord_octetBits, UInt8.toBitVec_xor,
      UInt16.toBitVec_toUInt8, BitVec.getLsbD_setWidth, BitVec.getLsbD_shiftLeft,
      BitVec.getLsbD_ushiftRight]
    by_cases hlow : i < 8
    · simp [hlow]
    · have hout : octet.toBitVec.getLsbD i = false := BitVec.getLsbD_of_ge _ _ (by omega)
      have hback : 8 + (i - 8) = i := by omega
      simp [hlow, hout, hback, hi]
  have hlow : (bitStep poly · false)^[8] (bitWord 16 (octetBits (crc.toUInt8 ^^^ octet))) =
      (t.tab (crc.toUInt8 ^^^ octet)).toBitVec := by
    have hempty : (0 : BitVec 16) ^^^ bitWord 16 (octetBits (crc.toUInt8 ^^^ octet)) =
      bitWord 16 (octetBits (crc.toUInt8 ^^^ octet)) := BitVec.zero_xor
    rw [h.tab, bitRun_eq_iterate poly 0 (by simp [length_octetBits]), length_octetBits, hempty]
  have hhigh : (bitStep poly · false)^[8] (crc.toBitVec >>> 8 <<< 8) = crc.toBitVec >>> 8 := by
    rw [iterate_bitStep_of_clear poly fun i hi => by simp [hi]]
    refine BitVec.eq_of_getLsbD_eq fun i hi => ?_
    by_cases hout : 8 + i < 16
    · simp [hout]
    · simp [hout, BitVec.getLsbD_of_ge crc.toBitVec (8 + i) (by omega)]
  calc (t.step crc octet).toBitVec
      = (crc.toBitVec >>> 8) ^^^ (t.tab (crc.toUInt8 ^^^ octet)).toBitVec := by
        rw [TableCrc.step, UInt16.toBitVec_xor]
        rfl
    _ = (bitStep poly · false)^[8] (crc.toBitVec ^^^ bitWord 16 (octetBits octet)) := by
        rw [hsplit, iterate_bitStep_xor, hlow, hhigh, BitVec.xor_comm]
    _ = bitRun poly crc.toBitVec (octetBits octet) := by
        rw [bitRun_eq_iterate poly _ (by simp [length_octetBits]), length_octetBits]

theorem Reflects.update (h : t.Reflects poly) (crc : UInt16) (octets : List UInt8) :
    (t.update crc octets).toBitVec = bitRun poly crc.toBitVec (octetsBits octets) := by
  induction octets generalizing crc with
  | nil => rfl
  | cons octet octets ih =>
    have hcons : octetsBits (octet :: octets) = octetBits octet ++ octetsBits octets := rfl
    rw [hcons, bitRun_append, ← h.step]
    exact ih (t.step crc octet)

/-- Two octets behind a message leave the residue exactly if they are its check sequence. -/
theorem Reflects.update_eq_residue_iff (h : t.Reflects poly) (message fcs : List UInt8)
    (hlen : fcs.length = 2) :
    t.update t.init (message ++ fcs) = t.residue ↔ fcs = t.compute message := by
  constructor
  · intro hres
    rw [← t.update_compute message, update_append, update_append] at hres
    generalize t.update t.init message = crc at hres
    obtain ⟨a, b, rfl⟩ := List.length_eq_two.mp hlen
    obtain ⟨a', b', hcompute⟩ := List.length_eq_two.mp (t.length_compute message)
    rw [hcompute] at hres ⊢
    have hbits : octetsBits [a, b] = octetsBits [a', b'] := by
      refine bitRun_input_injective crc.toBitVec h.top ?_ ?_ ?_
      · simp [length_octetsBits]
      · simp [length_octetsBits]
      · rw [← h.update, ← h.update, hres]
    simp only [octetsBits, List.flatMap_cons, List.flatMap_nil, List.append_nil] at hbits
    obtain ⟨hfirst, hsecond⟩ := List.append_inj hbits (by rw [length_octetBits, length_octetBits])
    rw [octetBits_injective hfirst, octetBits_injective hsecond]
  · rintro rfl
    exact t.update_compute message

/-- An error within 16 bits changes what is left. -/
theorem Reflects.update_burst_ne (h : t.Reflects poly) (crc : UInt16) {octets octets' : List UInt8}
    {front bits bits' behind : List Bool} (hsent : octetsBits octets = front ++ bits ++ behind)
    (hreceived : octetsBits octets' = front ++ bits' ++ behind) (hlen : bits.length ≤ 16)
    (hsame : bits'.length = bits.length) (hne : bits ≠ bits') :
    t.update crc octets ≠ t.update crc octets' := by
  intro heq
  have hrun : bitRun poly crc.toBitVec (octetsBits octets) =
      bitRun poly crc.toBitVec (octetsBits octets') := by
    rw [← h.update, ← h.update, heq]
  rw [hsent, hreceived] at hrun
  exact bitRun_burst_ne crc.toBitVec h.top front behind hlen hsame hne hrun

end TableCrc

end IoHdlc.Kit
