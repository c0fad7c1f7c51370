import Mathlib.Tactic.Common
import Mathlib.Tactic.IntervalCases

/-!
A reflected 16-bit cyclic redundancy check that works octet by octet from a
table. A receiver runs the same computation over the message and the
complemented check sequence that follows it, low octet first; what is left then
depends on two entries of the table only and not on the message.
-/

namespace IoHdlc.Kit

structure TableCrc where
  tab : UInt8 → UInt16
  init : UInt16

namespace TableCrc

variable (t : TableCrc)

def step (crc : UInt16) (octet : UInt8) : UInt16 :=
  (crc >>> 8) ^^^ t.tab (crc.toUInt8 ^^^ octet)

def update (crc : UInt16) (octets : List UInt8) : UInt16 := octets.foldl t.step crc

/-- The check sequence of a message. -/
def compute (octets : List UInt8) : List UInt8 :=
  let crc := t.update t.init octets ^^^ 0xFFFF
  [crc.toUInt8, (crc >>> 8).toUInt8]

/-- What is left after a message and its check sequence. -/
def residue : UInt16 := (t.tab 0xFF >>> 8) ^^^ t.tab ((t.tab 0xFF).toUInt8 ^^^ 0xFF)

theorem update_append (crc : UInt16) (a b : List UInt8) :
    t.update crc (a ++ b) = t.update (t.update crc a) b := by
  simp [update]

theorem length_compute (octets : List UInt8) : (t.compute octets).length = 2 := rfl

theorem word_ext {a b : UInt16} (h : ∀ i < 16, a.toBitVec.getLsbD i = b.toBitVec.getLsbD i) :
    a = b :=
  UInt16.toBitVec_inj.mp (BitVec.eq_of_getLsbD_eq h)

theorem word_toUInt8_ext {a b : UInt8} (h : ∀ i < 8, a.toBitVec.getLsbD i = b.toBitVec.getLsbD i) :
    a = b :=
  UInt8.toBitVec_inj.mp (BitVec.eq_of_getLsbD_eq h)

section Residue

variable (c d : UInt16)

theorem low_xor_compl : c.toUInt8 ^^^ (c ^^^ 0xFFFF).toUInt8 = 0xFF := by
  refine word_toUInt8_ext fun i hi => ?_
  interval_cases i <;> simp

theorem high_xor_compl :
    ((c >>> 8) ^^^ d).toUInt8 ^^^ ((c ^^^ 0xFFFF) >>> 8).toUInt8 = d.toUInt8 ^^^ 0xFF := by
  refine word_toUInt8_ext fun i hi => ?_
  interval_cases i <;> simp <;> grind

theorem shift_shift_xor : ((c >>> 8) ^^^ d) >>> 8 = d >>> 8 := by
  refine word_ext fun i hi => ?_
  interval_cases i <;> simp

end Residue

/-- The check sequence drives the register to the residue, whatever the
message was. -/
theorem update_compute (octets : List UInt8) :
    t.update t.init (octets ++ t.compute octets) = t.residue := by
  rw [update_append]
  generalize hc : t.update t.init octets = c
  have h₁ : t.step c (c ^^^ 0xFFFF).toUInt8 = (c >>> 8) ^^^ t.tab 0xFF := by
    rw [step, low_xor_compl]
  have h₂ : t.step ((c >>> 8) ^^^ t.tab 0xFF) ((c ^^^ 0xFFFF) >>> 8).toUInt8 = t.residue := by
    rw [step, high_xor_compl, shift_shift_xor, residue]
  calc t.update c (t.compute octets)
      = t.step (t.step c (c ^^^ 0xFFFF).toUInt8) ((c ^^^ 0xFFFF) >>> 8).toUInt8 := by
        simp only [compute, hc]
        rfl
    _ = t.residue := by rw [h₁, h₂]

end TableCrc

end IoHdlc.Kit
