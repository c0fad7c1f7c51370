import IoHdlc.Kit.Alignment
import Mathlib.Data.List.Nodup

/-!
The arena of the frame pool, cut into slots of one stride. A slot holds the
frame header and the frame; its payload is aligned for the memory transfers of
the port.

Addresses and sizes are words of the platform's width, so the computation is the
one of the source also where it would wrap.
-/

namespace IoHdlc

open Kit

/-- What the frame pool takes from the platform. `uintptr_t` has the width of `size_t`. -/
structure PoolPlatform where
  /-- The width of `size_t`. -/
  sizeBits : Nat
  /-- `offsetof(iohdlc_frame_t, frame)`. -/
  headerSize : BitVec sizeBits
  /-- `iohdlc_fmempool_min_object_align`. -/
  minObjectAlign : BitVec sizeBits
  /-- `IOHDLC_FRAME_PAYLOAD_ALIGNMENT`. -/
  payloadAlign : BitVec sizeBits
  /-- `iohdlc_dma_buffer_alignment`. -/
  dmaBufferAlignment : BitVec sizeBits → BitVec sizeBits → BitVec sizeBits
  headerSize_pos : 0 < headerSize.toNat
  minObjectAlign_pow : IsPow minObjectAlign
  payloadAlign_pow : IsPow payloadAlign
  /-- `iohdlc_frame_payload_alignment_check`. -/
  header_aligned : payloadAlign.toNat ∣ headerSize.toNat

/-- `iohdlc_fmempool_layout_t`. -/
structure FmempoolLayout (w : Nat) where
  base : BitVec w
  elementSize : BitVec w
  count : UInt32
  deriving DecidableEq, Repr

/-- The address of a slot, `layout.base + (i * layout.element_size)`. -/
def FmempoolLayout.slot {w : Nat} (layout : FmempoolLayout w) (i : Nat) : BitVec w :=
  layout.base + BitVec.ofNat w i * layout.elementSize

/-- `iohdlc_fmempool_align_up_size` and `iohdlc_fmempool_align_up_uintptr`. -/
def fmempoolAlignUp {w : Nat} (value align : BitVec w) : BitVec w :=
  (value + align - 1) &&& ~~~(align - 1)

/-- `object_align` of `iohdlc_fmempool_layout`. -/
def PoolPlatform.objectAlign (pl : PoolPlatform) (preferredAlign : BitVec pl.sizeBits) :
    BitVec pl.sizeBits :=
  let objectAlign :=
    if preferredAlign < pl.minObjectAlign then pl.minObjectAlign else preferredAlign
  if objectAlign < pl.payloadAlign then pl.payloadAlign else objectAlign

/-- `iohdlc_fmempool_layout`. -/
def fmempoolLayout (pl : PoolPlatform) (arena arenasize framesize preferredAlign : BitVec pl.sizeBits) :
    FmempoolLayout pl.sizeBits :=
  let dataAlign := pl.dmaBufferAlignment arena arenasize
  if dataAlign > pl.payloadAlign then { base := 0, elementSize := 0, count := 0 }
  else
    let objectAlign := pl.objectAlign preferredAlign
    let elementSize := fmempoolAlignUp (pl.headerSize + framesize) objectAlign
    let stop := arena + arenasize
    let base := fmempoolAlignUp arena objectAlign
    if base ≥ stop then { base := 0, elementSize := elementSize, count := 0 }
    else
      let usable := stop - base
      { base := base, elementSize := elementSize, count := UInt32.ofNat (usable / elementSize).toNat }

/-! ### The alignments -/

namespace PoolPlatform

variable (pl : PoolPlatform) {preferredAlign : BitVec pl.sizeBits}

/-- The alignment of the slots is the strictest of the three that ask for one. -/
theorem objectAlign_spec (h : IsPow preferredAlign) :
    IsPow (pl.objectAlign preferredAlign) ∧
      preferredAlign.toNat ∣ (pl.objectAlign preferredAlign).toNat ∧
      pl.minObjectAlign.toNat ∣ (pl.objectAlign preferredAlign).toNat ∧
      pl.payloadAlign.toNat ∣ (pl.objectAlign preferredAlign).toNat := by
  obtain ⟨hpow₁, hpreferred, hmin⟩ := h.max pl.minObjectAlign_pow
  obtain ⟨hpow₂, hobject, hpayload⟩ := hpow₁.max pl.payloadAlign_pow
  exact ⟨hpow₂, hpreferred.trans hobject, hmin.trans hobject, hpayload⟩

end PoolPlatform

/-! ### The slots -/

section Slots

variable {pl : PoolPlatform} {arena arenasize framesize preferredAlign : BitVec pl.sizeBits}

/-- No computation of the layout leaves the range of its type. -/
structure LayoutFits (pl : PoolPlatform)
    (arena arenasize framesize preferredAlign : BitVec pl.sizeBits) : Prop where
  stride : pl.headerSize.toNat + framesize.toNat + (pl.objectAlign preferredAlign).toNat - 1 <
    2 ^ pl.sizeBits
  start : arena.toNat + (pl.objectAlign preferredAlign).toNat - 1 < 2 ^ pl.sizeBits
  stop : arena.toNat + arenasize.toNat < 2 ^ pl.sizeBits
  count : (arena.toNat + arenasize.toNat - alignUp arena.toNat (pl.objectAlign preferredAlign).toNat) /
    alignUp (pl.headerSize.toNat + framesize.toNat) (pl.objectAlign preferredAlign).toNat < 2 ^ 32

/-- What the users of a layout rely on. -/
structure SlotsPlaced (pl : PoolPlatform)
    (arena arenasize framesize preferredAlign : BitVec pl.sizeBits)
    (layout : FmempoolLayout pl.sizeBits) : Prop where
  aligned : ∀ i < layout.count.toNat,
    preferredAlign.toNat ∣ (layout.slot i).toNat ∧ pl.minObjectAlign.toNat ∣ (layout.slot i).toNat
  payloadAligned : ∀ i < layout.count.toNat,
    pl.payloadAlign.toNat ∣ (layout.slot i).toNat + pl.headerSize.toNat ∧
      (pl.dmaBufferAlignment arena arenasize).toNat ∣ (layout.slot i).toNat + pl.headerSize.toNat
  disjoint : ∀ i < layout.count.toNat, ∀ j < i,
    (layout.slot j).toNat + layout.elementSize.toNat ≤ (layout.slot i).toNat
  inside : ∀ i < layout.count.toNat, arena.toNat ≤ (layout.slot i).toNat ∧
    (layout.slot i).toNat + layout.elementSize.toNat ≤ arena.toNat + arenasize.toNat
  room : ∀ i < layout.count.toNat,
    pl.headerSize.toNat + framesize.toNat ≤ layout.elementSize.toNat
  maximal : arena.toNat + arenasize.toNat < alignUp arena.toNat (pl.objectAlign preferredAlign).toNat +
    (layout.count.toNat + 1) * layout.elementSize.toNat

/-- An arena that the port cannot transfer from or to is refused. -/
theorem fmempoolLayout_refused (h : pl.payloadAlign < pl.dmaBufferAlignment arena arenasize) :
    fmempoolLayout pl arena arenasize framesize preferredAlign =
      { base := 0, elementSize := 0, count := 0 } := by
  simp only [fmempoolLayout]
  exact if_pos h

theorem toNat_fmempoolAlignUp {w : Nat} {value align : BitVec w} (ha : IsPow align)
    (hfit : value.toNat + align.toNat - 1 < 2 ^ w) :
    (fmempoolAlignUp value align).toNat = alignUp value.toNat align.toNat :=
  toNat_maskUp ha hfit

/-- The layout of an accepted arena, with the arithmetic of the natural numbers. -/
theorem fmempoolLayout_spec (hpow : IsPow preferredAlign)
    (hdma : ¬pl.payloadAlign < pl.dmaBufferAlignment arena arenasize)
    (hfits : LayoutFits pl arena arenasize framesize preferredAlign) :
    let object := (pl.objectAlign preferredAlign).toNat
    let first := alignUp arena.toNat object
    let stride := alignUp (pl.headerSize.toNat + framesize.toNat) object
    let layout := fmempoolLayout pl arena arenasize framesize preferredAlign
    layout.elementSize.toNat = stride ∧
      layout.count.toNat = (arena.toNat + arenasize.toNat - first) / stride ∧
      (0 < layout.count.toNat → layout.base.toNat = first) := by
  intro object first stride layout
  have hobject := (pl.objectAlign_spec hpow).1
  have hpos : 0 < object := hobject.pos
  have hheader : (pl.headerSize + framesize).toNat = pl.headerSize.toNat + framesize.toNat := by
    have h := hfits.stride
    rw [BitVec.toNat_add]
    exact Nat.mod_eq_of_lt (by omega)
  have hstride : (fmempoolAlignUp (pl.headerSize + framesize) (pl.objectAlign preferredAlign)).toNat =
      stride := by
    rw [toNat_fmempoolAlignUp hobject (by rw [hheader]; exact hfits.stride), hheader]
  have hfirst : (fmempoolAlignUp arena (pl.objectAlign preferredAlign)).toNat = first :=
    toNat_fmempoolAlignUp hobject hfits.start
  have hstop : (arena + arenasize).toNat = arena.toNat + arenasize.toNat := by
    rw [BitVec.toNat_add, Nat.mod_eq_of_lt hfits.stop]
  have hlayout : layout = fmempoolLayout pl arena arenasize framesize preferredAlign := rfl
  rw [fmempoolLayout, if_neg hdma] at hlayout
  by_cases hge : fmempoolAlignUp arena (pl.objectAlign preferredAlign) ≥ arena + arenasize
  · -- no address of the arena is aligned
    rw [if_pos hge] at hlayout
    rw [ge_iff_le, BitVec.le_def, hstop, hfirst] at hge
    rw [hlayout]
    refine ⟨hstride, ?_, fun h => absurd h (by simp)⟩
    rw [Nat.sub_eq_zero_of_le hge, Nat.zero_div]
    rfl
  · rw [if_neg hge] at hlayout
    have hle : fmempoolAlignUp arena (pl.objectAlign preferredAlign) ≤ arena + arenasize :=
      BitVec.le_of_lt (BitVec.not_le.mp hge)
    rw [hlayout]
    refine ⟨hstride, ?_, fun _ => hfirst⟩
    rw [UInt32.toNat_ofNat', BitVec.toNat_udiv, BitVec.toNat_sub_of_le hle, hstop, hfirst, hstride]
    exact Nat.mod_eq_of_lt hfits.count

/-- The address of a slot does not wrap. -/
theorem FmempoolLayout.toNat_slot {w : Nat} {layout : FmempoolLayout w} {i : Nat}
    (h : layout.base.toNat + i * layout.elementSize.toNat < 2 ^ w) :
    (layout.slot i).toNat = layout.base.toNat + i * layout.elementSize.toNat := by
  rw [slot, BitVec.toNat_add, BitVec.toNat_mul, BitVec.toNat_ofNat, Nat.mod_mul_mod, Nat.add_mod_mod]
  exact Nat.mod_eq_of_lt h

theorem fmempoolLayout_placed (hpow : IsPow preferredAlign)
    (hdmaPow : IsPow (pl.dmaBufferAlignment arena arenasize))
    (hdma : ¬pl.payloadAlign < pl.dmaBufferAlignment arena arenasize)
    (hfits : LayoutFits pl arena arenasize framesize preferredAlign) :
    SlotsPlaced pl arena arenasize framesize preferredAlign
      (fmempoolLayout pl arena arenasize framesize preferredAlign) := by
  obtain ⟨hobject, hpreferred, hmin, hpayload⟩ := pl.objectAlign_spec hpow
  have hpos := hobject.pos
  obtain ⟨hstride, hcount, hbase⟩ := fmempoolLayout_spec hpow hdma hfits
  generalize fmempoolLayout pl arena arenasize framesize preferredAlign = layout at *
  generalize hobj : (pl.objectAlign preferredAlign).toNat = object at *
  generalize hfirst : alignUp arena.toNat object = first at *
  have hroom : pl.headerSize.toNat + framesize.toNat ≤ layout.elementSize.toNat :=
    hstride ▸ le_alignUp hpos
  have hstridePos : 0 < layout.elementSize.toNat := Nat.lt_of_lt_of_le
    (Nat.add_pos_left pl.headerSize_pos _) hroom
  rw [← hstride] at hcount
  have hdvdStride : object ∣ layout.elementSize.toNat := hstride ▸ dvd_alignUp ..
  have hdvdFirst : object ∣ first := hfirst ▸ dvd_alignUp ..
  have hle : arena.toNat ≤ first := hfirst ▸ le_alignUp hpos
  -- what is used of the arena
  have hused : layout.count.toNat * layout.elementSize.toNat ≤
      arena.toNat + arenasize.toNat - first := hcount ▸ Nat.div_mul_le_self ..
  have hslot : ∀ i < layout.count.toNat,
      (layout.slot i).toNat = first + i * layout.elementSize.toNat ∧
        first + i * layout.elementSize.toNat + layout.elementSize.toNat ≤
          arena.toNat + arenasize.toNat := by
    intro i hi
    have hend : i * layout.elementSize.toNat + layout.elementSize.toNat ≤
        layout.count.toNat * layout.elementSize.toNat := by
      rw [← Nat.succ_mul]
      exact Nat.mul_le_mul_right _ hi
    have hfirst' : layout.base.toNat = first := hbase (by omega)
    have hlt : layout.base.toNat + i * layout.elementSize.toNat < 2 ^ pl.sizeBits := by
      have hstop := hfits.stop
      omega
    refine ⟨?_, by omega⟩
    rw [FmempoolLayout.toNat_slot hlt, hfirst']
  have hdvdSlot : ∀ i < layout.count.toNat, object ∣ (layout.slot i).toNat := by
    intro i hi
    rw [(hslot i hi).1]
    exact Nat.dvd_add hdvdFirst (hdvdStride.mul_left i)
  constructor
  case aligned =>
    intro i hi
    exact ⟨hpreferred.trans (hdvdSlot i hi), hmin.trans (hdvdSlot i hi)⟩
  case payloadAligned =>
    intro i hi
    have hslotPayload := Nat.dvd_add (hpayload.trans (hdvdSlot i hi)) pl.header_aligned
    exact ⟨hslotPayload,
      (hdmaPow.dvd pl.payloadAlign_pow (BitVec.not_lt.mp hdma)).trans hslotPayload⟩
  case disjoint =>
    intro i hi j hj
    rw [(hslot i hi).1, (hslot j (by omega)).1, Nat.add_assoc, ← Nat.succ_mul]
    exact Nat.add_le_add_left (Nat.mul_le_mul_right _ hj) _
  case inside =>
    intro i hi
    obtain ⟨heq, hend⟩ := hslot i hi
    omega
  case room => exact fun _ _ => hroom
  case maximal =>
    have hlt := Nat.lt_div_mul_add (a := arena.toNat + arenasize.toNat - first) hstridePos
    rw [← hcount] at hlt
    rw [hobj, hfirst, Nat.succ_mul]
    omega

/-- The slots are as many addresses, also where the computation of the layout wraps. -/
theorem fmempoolLayout_nodup (pl : PoolPlatform)
    (arena arenasize framesize preferredAlign : BitVec pl.sizeBits) :
    let layout := fmempoolLayout pl arena arenasize framesize preferredAlign
    ((List.range layout.count.toNat).map layout.slot).Nodup := by
  intro layout
  have hused : layout.count.toNat * layout.elementSize.toNat < 2 ^ pl.sizeBits ∧
      (layout.elementSize.toNat = 0 → layout.count.toNat = 0) := by
    have hlayout : layout = fmempoolLayout pl arena arenasize framesize preferredAlign := rfl
    simp only [fmempoolLayout] at hlayout
    split at hlayout
    · simp [hlayout]
    · split at hlayout
      · simp [hlayout]
      · generalize fmempoolAlignUp (pl.headerSize + framesize) (pl.objectAlign preferredAlign) = stride
          at hlayout
        generalize arena + arenasize - fmempoolAlignUp arena (pl.objectAlign preferredAlign) = usable
          at hlayout
        rw [hlayout]
        have hcount : (UInt32.ofNat (usable / stride).toNat).toNat ≤ usable.toNat / stride.toNat := by
          rw [UInt32.toNat_ofNat', BitVec.toNat_udiv]
          exact Nat.mod_le ..
        refine ⟨?_, fun hzero => ?_⟩
        · calc (UInt32.ofNat (usable / stride).toNat).toNat * stride.toNat
              ≤ usable.toNat / stride.toNat * stride.toNat := Nat.mul_le_mul_right _ hcount
            _ ≤ usable.toNat := Nat.div_mul_le_self ..
            _ < 2 ^ pl.sizeBits := usable.isLt
        · rw [hzero, Nat.div_zero] at hcount
          exact Nat.le_zero.mp hcount
  obtain ⟨hlt, hzero⟩ := hused
  have hmul : ∀ i < layout.count.toNat,
      (BitVec.ofNat pl.sizeBits i * layout.elementSize).toNat = i * layout.elementSize.toNat := by
    intro i hi
    rw [BitVec.toNat_mul, BitVec.toNat_ofNat, Nat.mod_mul_mod]
    exact Nat.mod_eq_of_lt ((Nat.mul_le_mul_right _ hi.le).trans_lt hlt)
  refine List.Nodup.map_on (fun i hi j hj heq => ?_) List.nodup_range
  rw [List.mem_range] at hi hj
  have hpos : 0 < layout.elementSize.toNat := by
    by_contra h
    have hcount := hzero (Nat.eq_zero_of_not_pos h)
    omega
  have hstride := congrArg BitVec.toNat ((BitVec.add_right_inj layout.base).mp heq)
  rw [hmul i hi, hmul j hj] at hstride
  exact Nat.eq_of_mul_eq_mul_right hpos hstride

/-- The slots of a layout; an arena that needs a stricter alignment than the payload has gets none. -/
theorem fmempoolLayout_slots (hpow : IsPow preferredAlign)
    (hdmaPow : IsPow (pl.dmaBufferAlignment arena arenasize))
    (hfits : LayoutFits pl arena arenasize framesize preferredAlign) :
    (pl.dmaBufferAlignment arena arenasize ≤ pl.payloadAlign →
      SlotsPlaced pl arena arenasize framesize preferredAlign
        (fmempoolLayout pl arena arenasize framesize preferredAlign)) ∧
    (pl.payloadAlign < pl.dmaBufferAlignment arena arenasize →
      fmempoolLayout pl arena arenasize framesize preferredAlign =
        { base := 0, elementSize := 0, count := 0 }) :=
  ⟨fun hle => fmempoolLayout_placed hpow hdmaPow (BitVec.not_lt.mpr hle) hfits,
    fun hlt => fmempoolLayout_refused hlt⟩

end Slots

/-! ### Two platforms -/

/-- A 64-bit platform whose buffers need the given alignment. -/
def platformWith (dmaAlign : BitVec 64) : PoolPlatform :=
  { sizeBits := 64, headerSize := 32, minObjectAlign := 8, payloadAlign := 8,
    dmaBufferAlignment := fun _ _ => dmaAlign, headerSize_pos := by decide,
    minObjectAlign_pow := ⟨3, rfl⟩, payloadAlign_pow := ⟨3, rfl⟩, header_aligned := by decide }

/-- A 64-bit platform with coherent memory. -/
def platform64 : PoolPlatform := platformWith 1

theorem platformWith_fits (dmaAlign : BitVec 64) :
    LayoutFits (platformWith dmaAlign) (4096 : BitVec 64) (4096 : BitVec 64) (16 : BitVec 64)
      (8 : BitVec 64) where
  stride := (by decide : 32 + 16 + 8 - 1 < 2 ^ 64)
  start := (by decide : 4096 + 8 - 1 < 2 ^ 64)
  stop := (by decide : 4096 + 4096 < 2 ^ 64)
  count := (by decide : (4096 + 4096 - alignUp 4096 8) / alignUp (32 + 16) 8 < 2 ^ 32)

/-- On coherent memory an arena of 4096 octets holds 85 slots of 48. -/
theorem fmempoolLayout_slots_platform64 :
    (fmempoolLayout platform64 4096 4096 16 8).count = 85 ∧
      SlotsPlaced platform64 (4096 : BitVec 64) (4096 : BitVec 64) (16 : BitVec 64) (8 : BitVec 64)
        (fmempoolLayout platform64 4096 4096 16 8) :=
  ⟨by decide, (@fmempoolLayout_slots platform64 4096 4096 16 8 ⟨3, rfl⟩ ⟨0, rfl⟩
    (platformWith_fits 1)).1 (by decide)⟩

/-- Where the buffers need the alignment of a cache line of 32 octets the arena is refused, although
slots would fit. -/
theorem fmempoolLayout_slots_fails :
    ¬∀ (pl : PoolPlatform) (arena arenasize framesize preferredAlign : BitVec pl.sizeBits),
      IsPow preferredAlign → IsPow (pl.dmaBufferAlignment arena arenasize) →
      LayoutFits pl arena arenasize framesize preferredAlign →
      SlotsPlaced pl arena arenasize framesize preferredAlign
        (fmempoolLayout pl arena arenasize framesize preferredAlign) := by
  intro h
  have hplaced := h (platformWith 32) (4096 : BitVec 64) (4096 : BitVec 64) (16 : BitVec 64)
    (8 : BitVec 64) ⟨3, rfl⟩ ⟨5, rfl⟩ (platformWith_fits 32)
  exact absurd hplaced.maximal (by decide)

end IoHdlc
