import IoHdlc.Driver.LowLayer
import IoHdlc.Kit.BitSerialCrc

/-!
What the software frame check accepts and which errors it detects, for buffers
of any length. The hooks take lengths as `size_t` and hand them to `updateFCS`
with 32 bits; the frames of the driver are far below that, so the check of
`LowLayer` is this one for them.
-/

namespace IoHdlc

open Kit

namespace FcsHooks

/-- `ioHdlcFcsUpdate`: `updateFCS` over `(uint32_t)len` octets. -/
def ioHdlcFcsUpdate (crc : UInt16) (buf : List UInt8) : UInt16 :=
  updateFCS crc (buf.take (buf.length % 2 ^ 32))

/-- `s_fcs_check_sw`. -/
def sFcsCheckSw (buf : List UInt8) : Bool := ioHdlcFcsUpdate ioHdlcFcsInit buf = 0xF0B8

/-- `s_fcs_compute_sw`, over its segments. -/
def sFcsComputeSw (segv : List (List UInt8)) : List UInt8 :=
  let crc := segv.foldl (fun crc seg => if 0 < seg.length then ioHdlcFcsUpdate crc seg else crc)
    ioHdlcFcsInit
  let crc := ioHdlcFcsFinalize crc
  [(crc &&& 0xFF).toUInt8, (crc >>> 8).toUInt8]

theorem ioHdlcFcsUpdate_eq {buf : List UInt8} (h : buf.length < 2 ^ 32) (crc : UInt16) :
    ioHdlcFcsUpdate crc buf = updateFCS crc buf := by
  rw [ioHdlcFcsUpdate, Nat.mod_eq_of_lt h, List.take_length]

theorem sFcsCheckSw_eq {buf : List UInt8} (h : buf.length < 2 ^ 32) :
    sFcsCheckSw buf = IoHdlc.sFcsCheckSw buf := by
  rw [sFcsCheckSw, IoHdlc.sFcsCheckSw, ioHdlcFcsUpdate_eq h]

/-- Segments that the 32-bit count can hold are one message. -/
theorem foldl_ioHdlcFcsUpdate {segv : List (List UInt8)} (h : ∀ seg ∈ segv, seg.length < 2 ^ 32)
    (crc : UInt16) : segv.foldl ioHdlcFcsUpdate crc = updateFCS crc segv.flatten := by
  induction segv generalizing crc with
  | nil => rfl
  | cons seg segv ih =>
    rw [List.foldl_cons, ioHdlcFcsUpdate_eq (h seg List.mem_cons_self), List.flatten_cons,
      updateFCS_append]
    exact ih (fun seg hseg => h seg (List.mem_cons_of_mem _ hseg)) _

theorem update_flatten {segv : List (List UInt8)} (h : segv.flatten.length < 2 ^ 32) (crc : UInt16) :
    segv.foldl (fun crc seg => if 0 < seg.length then ioHdlcFcsUpdate crc seg else crc) crc =
      updateFCS crc segv.flatten := by
  have hempty : (fun crc seg => if 0 < seg.length then ioHdlcFcsUpdate crc seg else crc) =
      ioHdlcFcsUpdate := by
    funext crc seg
    cases seg <;> rfl
  have hshort : ∀ seg ∈ segv, seg.length < 2 ^ 32 := fun seg hseg =>
    (List.sublist_flatten_of_mem hseg).length_le.trans_lt h
  rw [hempty, foldl_ioHdlcFcsUpdate hshort]

/-- The segments are one message. -/
theorem sFcsComputeSw_eq {segv : List (List UInt8)} (h : segv.flatten.length < 2 ^ 32) :
    sFcsComputeSw segv = IoHdlc.sFcsComputeSw segv.flatten := by
  rw [sFcsComputeSw, IoHdlc.sFcsComputeSw, update_flatten h]

end FcsHooks

/-- The generator polynomial, highest coefficient in the lowest bit. -/
def fcsPoly : BitVec 16 := 0x8408

theorem fcstab_eq : fcstab.toList.map UInt16.toBitVec =
    (List.range 256).map fun i => bitRun fcsPoly 0 (octetBits (UInt8.ofNat i)) := by
  decide +kernel

/-- `fcstab` is the table of the generator. -/
theorem fcsCrc_reflects : fcsCrc.Reflects fcsPoly where
  top := by decide
  tab := by
    intro octet
    have hentry := congrArg (·[octet.toNat]?) fcstab_eq
    simp only [List.getElem?_map, List.getElem?_range octet.toNat_lt, Array.getElem?_toList,
      Option.map_some, UInt8.ofNat_toNat] at hentry
    obtain ⟨entry, hget, hbits⟩ := Option.map_eq_some_iff.mp hentry
    have htab : fcsCrc.tab octet = entry := by
      simp [fcsCrc, Array.getD_eq_getD_getElem?, hget]
    rw [htab, hbits]

/-! ### The register bit by bit -/

/-- What `updateFCS` leaves is what the division leaves that shifts the register bit by bit,
however the octets are cut into segments. The exported function has the segments that its count
can hold. -/
theorem updateFCS_bitSerial (crc : UInt16) (octets : List UInt8) :
    (updateFCS crc octets).toBitVec = bitRun fcsPoly crc.toBitVec (octetsBits octets) ∧
      ∀ segv : List (List UInt8), segv.flatten = octets →
        segv.foldl updateFCS crc = updateFCS crc octets ∧
          ((∀ seg ∈ segv, seg.length < 2 ^ 32) →
            segv.foldl FcsHooks.ioHdlcFcsUpdate crc = updateFCS crc octets) := by
  constructor
  · rw [updateFCS_eq]
    exact fcsCrc_reflects.update crc octets
  · rintro segv rfl
    refine ⟨?_, fun hshort => FcsHooks.foldl_ioHdlcFcsUpdate hshort crc⟩
    induction segv generalizing crc with
    | nil => rfl
    | cons seg segv ih => rw [List.foldl_cons, List.flatten_cons, updateFCS_append, ih]

/-- Three octets in two segments, one of them empty. -/
theorem updateFCS_bitSerial_three :
    (updateFCS 0 [0x31, 0x32, 0x33]).toBitVec = bitRun fcsPoly 0 (octetsBits [0x31, 0x32, 0x33]) ∧
      [[0x31], [], [0x32, 0x33]].foldl updateFCS 0 = updateFCS 0 [0x31, 0x32, 0x33] ∧
      [[0x31], [], [0x32, 0x33]].foldl FcsHooks.ioHdlcFcsUpdate 0 =
        updateFCS 0 [0x31, 0x32, 0x33] := by
  obtain ⟨hbits, hcut⟩ := updateFCS_bitSerial 0 [0x31, 0x32, 0x33]
  obtain ⟨hsegv, hexported⟩ := hcut [[0x31], [], [0x32, 0x33]] (by decide)
  exact ⟨hbits, hsegv, hexported (by decide)⟩

/-! ### Acceptance and detection -/

/-- What the check of a buffer is for: acceptance of exactly the check sequences that the sender
computes, however the message is split, and detection of every error within 16 transmitted bits. -/
structure FcsHooks.Checks (buf : List UInt8) : Prop where
  accepts : ∀ segv : List (List UInt8), segv.flatten = buf.take (buf.length - 2) →
    (FcsHooks.sFcsCheckSw buf = true ↔ buf.drop (buf.length - 2) = FcsHooks.sFcsComputeSw segv)
  detects : FcsHooks.sFcsCheckSw buf = true → ∀ (buf' : List UInt8) (front bits bits' behind : List Bool),
    octetsBits buf = front ++ bits ++ behind → octetsBits buf' = front ++ bits' ++ behind →
    bits.length ≤ 16 → bits'.length = bits.length → bits ≠ bits' →
    FcsHooks.sFcsCheckSw buf' = false

theorem fcsCrc_residue : fcsCrc.residue = 0xF0B8 := by decide +kernel

theorem sFcsCheckSw_append_iff (message fcs : List UInt8) (hlen : fcs.length = 2) :
    sFcsCheckSw (message ++ fcs) = true ↔ fcs = sFcsComputeSw message := by
  rw [sFcsCheckSw, sFcsComputeSw_eq, decide_eq_true_eq, updateFCS_eq, ← fcsCrc_residue]
  exact fcsCrc_reflects.update_eq_residue_iff message fcs hlen

/-- Buffers of less than 2^32 octets. -/
theorem fcs_checks {buf : List UInt8} (hmin : 2 ≤ buf.length) (hmax : buf.length < 2 ^ 32) :
    FcsHooks.Checks buf := by
  constructor
  case accepts =>
    intro segv hsegv
    have hfcs : (buf.drop (buf.length - 2)).length = 2 := by
      rw [List.length_drop]
      omega
    have hshort : segv.flatten.length < 2 ^ 32 := by
      rw [hsegv, List.length_take]
      omega
    rw [FcsHooks.sFcsCheckSw_eq hmax, FcsHooks.sFcsComputeSw_eq hshort, hsegv,
      ← sFcsCheckSw_append_iff _ _ hfcs, List.take_append_drop]
  case detects =>
    intro haccept buf' front bits bits' behind hsent hreceived hlen hsame hne
    have hsize : buf'.length = buf.length := by
      have hsent := congrArg List.length hsent
      have hreceived := congrArg List.length hreceived
      rw [length_octetsBits] at hsent hreceived
      simp only [List.length_append] at hsent hreceived
      omega
    have hres : fcsCrc.update ioHdlcFcsInit buf = 0xF0B8 := by
      rw [FcsHooks.sFcsCheckSw_eq hmax, sFcsCheckSw, decide_eq_true_eq, updateFCS_eq] at haccept
      exact haccept
    have hdiff := fcsCrc_reflects.update_burst_ne ioHdlcFcsInit hsent hreceived hlen hsame hne
    rw [FcsHooks.sFcsCheckSw_eq (hsize.trans_lt hmax), sFcsCheckSw, decide_eq_false_iff_not,
      updateFCS_eq]
    rw [hres] at hdiff
    exact Ne.symm hdiff

/-- The check sequence of an empty message is accepted. -/
theorem fcs_checks_empty : FcsHooks.Checks [0, 0] ∧ FcsHooks.sFcsCheckSw [0, 0] = true :=
  ⟨fcs_checks (by decide) (by decide), by decide +kernel⟩

/-- Of a buffer of 2^32 + 2 octets two are checked. -/
theorem sFcsCheckSw_long (a b : UInt8) {rest : List UInt8} (h : rest.length = 2 ^ 32) :
    FcsHooks.sFcsCheckSw (a :: b :: rest) = FcsHooks.sFcsCheckSw [a, b] := by
  have hmod : (a :: b :: rest).length % 2 ^ 32 = 2 := by
    rw [List.length_cons, List.length_cons, h]
    rfl
  rw [FcsHooks.sFcsCheckSw, FcsHooks.sFcsCheckSw, FcsHooks.ioHdlcFcsUpdate, hmod]
  rfl

/-- So an error behind them is not detected. -/
theorem fcs_checks_fails : ¬∀ buf : List UInt8, 2 ≤ buf.length → FcsHooks.Checks buf := by
  intro h
  obtain ⟨tail, htail⟩ : ∃ tail : List UInt8, tail.length = 2 ^ 32 - 1 :=
    ⟨List.replicate _ 0, List.length_replicate⟩
  have hlen (octet : UInt8) : (octet :: tail).length = 2 ^ 32 := by
    rw [List.length_cons, htail]
    rfl
  have haccept (octet : UInt8) : FcsHooks.sFcsCheckSw (0 :: 0 :: octet :: tail) = true := by
    rw [sFcsCheckSw_long 0 0 (hlen octet)]
    decide +kernel
  have hbits (octet : UInt8) : octetsBits (0 :: 0 :: octet :: tail) =
      octetsBits [0, 0] ++ octetBits octet ++ octetsBits tail := by
    simp [octetsBits]
  have hreject := (h (0 :: 0 :: 0 :: tail) (by simp)).detects (haccept 0) (0 :: 0 :: 1 :: tail)
    (octetsBits [0, 0]) (octetBits 0) (octetBits 1) (octetsBits tail) (hbits 0) (hbits 1)
    (by decide) (by decide) (by decide)
  rw [haccept 1] at hreject
  exact absurd hreject (by decide)

end IoHdlc
