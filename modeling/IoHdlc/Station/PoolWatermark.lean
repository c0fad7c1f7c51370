import IoHdlc.Pool.PoolRuns
import IoHdlc.Station.BufferFit

/-!
The watermarks that the set-up of a station configures. The percentage for the
upper one is twice the lower one, in 8 bits; the products with the number of
frames have 32 bits.
-/

namespace IoHdlc

open Kit

variable {C A : Type}

def IOHDLC_POOL_WATERMARK_PCT_DEFAULT : UInt8 := 20
def IOHDLC_POOL_WATERMARK_HIGH_MULTIPLIER : UInt32 := 2

namespace StationConfig

variable (conf : StationConfig)

/-- `watermark_pct`. -/
def watermarkPct : UInt8 :=
  if conf.poolWatermark ≠ 0 then conf.poolWatermark else IOHDLC_POOL_WATERMARK_PCT_DEFAULT

/-- `watermark_pct * IOHDLC_POOL_WATERMARK_HIGH_MULTIPLIER`, as the parameter takes it. -/
def watermarkHighPct : UInt8 :=
  (conf.watermarkPct.toUInt32 * IOHDLC_POOL_WATERMARK_HIGH_MULTIPLIER).toUInt8

/-- The slots of the arena. -/
def poolSlots (d : SwDriver) (pl : PoolPlatform) (arena : Nat) : List (BitVec pl.sizeBits) :=
  (List.range (conf.poolLayout d pl arena).count.toNat).map (conf.poolLayout d pl arena).slot

/-- The frame pool that `ioHdlcStationInit` leaves, in an arena of the given content. -/
def framePool (d : SwDriver) (pl : PoolPlatform) (arena : Nat)
    (frames : BitVec pl.sizeBits → PoolFrame (BitVec pl.sizeBits)) :
    FrameMemPool (BitVec pl.sizeBits) C A :=
  let pool := fmpInit pl frames (.ofNat _ arena) (.ofNat _ conf.frameArenaSize)
    (.ofNat _ (conf.frameSize d)) (.ofNat _ IOHDLC_FRAME_POOL_ALIGNMENT)
  (pool.configWatermark conf.watermarkPct conf.watermarkHighPct none none none).1

end StationConfig

/-- What the watermarks of a station are for, in a pool over the given slots. -/
structure WatermarksUsable {F : Type} [DecidableEq F] (conf : StationConfig) (slots : List F)
    (p : FrameMemPool F C A) : Prop where
  /-- The percentage is not cut to 8 bits. -/
  noWrap : conf.watermarkHighPct.toNat = conf.watermarkPct.toNat * 2
  /-- The assertions of `hdlcPoolConfigWatermark`. -/
  asserted : conf.watermarkPct < conf.watermarkHighPct ∧ conf.watermarkHighPct ≤ 100
  thresholds : p.lowThreshold ≤ p.highThreshold ∧ p.highThreshold < p.total
  recovers : ∀ r, Reachable (· = .start p) (PoolStepWithin 255) r →
    (r.releaseAll slots).pool.state = .normal

/-! ### The arithmetic -/

/-- The product of the frames and the lower percentage, as 32 bits have it, can be doubled. -/
def Doubles (x : Nat) : Prop := x < 2 ^ 31 ∨ 2 ^ 32 ≤ x + 48 ∨ x + 97 = 2 ^ 32 ∨ x + 98 = 2 ^ 32

theorem doubles_iff {x : Nat} (hx : x < 2 ^ 32) : x / 100 ≤ 2 * x % 2 ^ 32 / 100 ↔ Doubles x := by
  rw [Doubles]
  omega

/-- The upper threshold is below the total unless all frames make it up. -/
theorem highThreshold_lt_iff {n pct : Nat} (hn : 0 < n) (hpct : pct ≤ 100) :
    n * pct % 2 ^ 32 / 100 < n ↔ (pct = 100 → 2 ^ 32 ≤ n * 100) := by
  have hmod : n * pct % 2 ^ 32 ≤ n * pct := Nat.mod_le ..
  rw [Nat.div_lt_iff_lt_mul (by decide)]
  rcases Nat.lt_or_eq_of_le hpct with hlt | rfl
  · refine iff_of_true ?_ (fun h => absurd h (Nat.ne_of_lt hlt))
    exact hmod.trans_lt (Nat.mul_lt_mul_of_pos_left hlt hn)
  · rcases Nat.lt_or_ge (n * 100) (2 ^ 32) with hsmall | hlarge
    · rw [Nat.mod_eq_of_lt hsmall]
      exact iff_of_false (Nat.lt_irrefl _) (fun h => absurd (h rfl) (Nat.not_le.mpr hsmall))
    · exact iff_of_true ((Nat.mod_lt _ (by decide)).trans_le hlarge) (fun _ => hlarge)

namespace StationConfig

variable {conf : StationConfig} {d : SwDriver} {pl : PoolPlatform} {arena : Nat}
  {frames : BitVec pl.sizeBits → PoolFrame (BitVec pl.sizeBits)}

theorem watermarkPct_pos : 0 < conf.watermarkPct.toNat := by
  rw [watermarkPct]
  split
  · next h => exact Nat.pos_of_ne_zero fun hzero => h (UInt8.toNat_inj.mp hzero)
  · decide

theorem toNat_watermarkHighPct :
    conf.watermarkHighPct.toNat = conf.watermarkPct.toNat * 2 % 2 ^ 8 := by
  have hlt := conf.watermarkPct.toNat_lt
  have hmul : (conf.watermarkPct.toUInt32 * IOHDLC_POOL_WATERMARK_HIGH_MULTIPLIER).toNat =
      conf.watermarkPct.toNat * 2 := by
    rw [UInt32.toNat_mul, UInt8.toNat_toUInt32]
    exact Nat.mod_eq_of_lt (show conf.watermarkPct.toNat * 2 < 2 ^ 32 by omega)
  rw [watermarkHighPct, UInt32.toNat_toUInt8, hmul]

/-- The pool is one that is set up over its slots, if the assertions hold. -/
theorem framePool_initial (hlt : conf.watermarkPct < conf.watermarkHighPct)
    (hle : conf.watermarkHighPct ≤ 100) :
    InitialPool frames (conf.poolSlots d pl arena)
      (conf.framePool d pl arena frames : FrameMemPool _ C A) := by
  refine .config _ none none none ?_ hle hlt
  rw [UInt8.lt_iff_toNat_lt] at hlt
  rw [UInt8.le_iff_toNat_le] at hle ⊢
  omega

theorem length_poolSlots :
    (conf.poolSlots d pl arena).length = (conf.poolLayout d pl arena).count.toNat := by
  rw [poolSlots, List.length_map, List.length_range]

theorem nodup_poolSlots : (conf.poolSlots d pl arena).Nodup := fmempoolLayout_nodup ..

theorem framePool_total : (conf.framePool d pl arena frames : FrameMemPool _ C A).total =
    (conf.poolLayout d pl arena).count := by
  have hlen : (conf.framePool d pl arena frames : FrameMemPool _ C A).total =
    UInt32.ofNat (conf.poolSlots d pl arena).length := rfl
  rw [hlen, length_poolSlots, UInt32.ofNat_toNat]

theorem toNat_threshold (total : UInt32) (pct : UInt8) :
    (total * pct.toUInt32 / 100).toNat = total.toNat * pct.toNat % 2 ^ 32 / 100 := by
  rw [UInt32.toNat_div, UInt32.toNat_mul, UInt8.toNat_toUInt32]
  rfl

theorem toNat_lowThreshold :
    (conf.framePool d pl arena frames : FrameMemPool _ C A).lowThreshold.toNat =
      (conf.poolLayout d pl arena).count.toNat * conf.watermarkPct.toNat % 2 ^ 32 / 100 := by
  have hlow : (conf.framePool d pl arena frames : FrameMemPool _ C A).lowThreshold =
    (conf.framePool d pl arena frames : FrameMemPool _ C A).total * conf.watermarkPct.toUInt32 / 100 := rfl
  rw [hlow, toNat_threshold, framePool_total]

theorem toNat_highThreshold :
    (conf.framePool d pl arena frames : FrameMemPool _ C A).highThreshold.toNat =
      (conf.poolLayout d pl arena).count.toNat * conf.watermarkHighPct.toNat % 2 ^ 32 / 100 := by
  have hhigh : (conf.framePool d pl arena frames : FrameMemPool _ C A).highThreshold =
    (conf.framePool d pl arena frames : FrameMemPool _ C A).total * conf.watermarkHighPct.toUInt32 / 100 :=
    rfl
  rw [hhigh, toNat_threshold, framePool_total]

end StationConfig

open StationConfig

theorem ioHdlcStationInit_pool {d : SwDriver} {pl : PoolPlatform} {conf : StationConfig}
    {init : Initialised} {arena : Nat} (h : ioHdlcStationInit d pl conf = .ok init)
    (harena : conf.frameArena = some arena) : 2 ≤ (conf.poolLayout d pl arena).count.toNat := by
  simp only [ioHdlcStationInit, harena] at h
  repeat' split at h
  all_goals cases h
  next hcount => exact UInt32.le_iff_toNat_le.mp (UInt32.not_lt.mp hcount)

/-- The watermarks are usable up to a percentage of 49, and with 50 where the product wraps; the
product must also be one that can be doubled. -/
theorem watermarksUsable_iff {d : SwDriver} {pl : PoolPlatform} {conf : StationConfig}
    {init : Initialised} {arena : Nat} (h : ioHdlcStationInit d pl conf = .ok init)
    (harena : conf.frameArena = some arena)
    (frames : BitVec pl.sizeBits → PoolFrame (BitVec pl.sizeBits)) :
    WatermarksUsable conf (conf.poolSlots d pl arena)
        (conf.framePool d pl arena frames : FrameMemPool _ C A) ↔
      conf.watermarkPct.toNat ≤ 50 ∧
        (conf.watermarkPct.toNat = 50 →
          2 ^ 32 ≤ (conf.poolLayout d pl arena).count.toNat * 100) ∧
        Doubles ((conf.poolLayout d pl arena).count.toNat * conf.watermarkPct.toNat % 2 ^ 32) := by
  have hcount := ioHdlcStationInit_pool h harena
  have hpos := conf.watermarkPct_pos
  have hhighPct := conf.toNat_watermarkHighPct
  have hlen : (conf.poolSlots d pl arena).length < 2 ^ 32 :=
    conf.length_poolSlots ▸ UInt32.toNat_lt _
  have htotal := congrArg UInt32.toNat
    (framePool_total : (conf.framePool d pl arena frames : FrameMemPool _ C A).total = _)
  have hlow := (toNat_lowThreshold : (conf.framePool d pl arena frames :
    FrameMemPool _ C A).lowThreshold.toNat = _)
  have hhigh := (toNat_highThreshold : (conf.framePool d pl arena frames :
    FrameMemPool _ C A).highThreshold.toNat = _)
  generalize (conf.poolLayout d pl arena).count.toNat = n at *
  generalize hq : conf.watermarkPct.toNat = q at *
  have hdouble : n * (q * 2) % 2 ^ 32 = 2 * (n * q % 2 ^ 32) % 2 ^ 32 := by
    rw [Nat.mul_mod_mod, ← Nat.mul_assoc, Nat.mul_comm]
  have hmod : n * q % 2 ^ 32 < 2 ^ 32 := Nat.mod_lt _ (by decide)
  constructor
  · rintro ⟨hwrap, ⟨-, hle⟩, ⟨horder, hbelow⟩, -⟩
    rw [UInt8.le_iff_toNat_le, hwrap, hq] at hle
    have hle' : q * 2 ≤ 100 := hle
    rw [hwrap, hq] at hhigh
    rw [UInt32.le_iff_toNat_le, hlow, hhigh, hdouble, doubles_iff hmod] at horder
    rw [UInt32.lt_iff_toNat_lt, hhigh, htotal, highThreshold_lt_iff (by omega) hle'] at hbelow
    exact ⟨by omega, fun h50 => hbelow (by omega), horder⟩
  · rintro ⟨hle, hfifty, hdoubles⟩
    have hwrap : conf.watermarkHighPct.toNat = q * 2 := by omega
    rw [hwrap] at hhigh
    have hlt : conf.watermarkPct < conf.watermarkHighPct := by
      rw [UInt8.lt_iff_toNat_lt]
      omega
    have hle' : conf.watermarkHighPct ≤ 100 := by
      rw [UInt8.le_iff_toNat_le, hwrap]
      exact (by omega : q * 2 ≤ 100)
    have horder : (conf.framePool d pl arena frames : FrameMemPool _ C A).lowThreshold ≤
        (conf.framePool d pl arena frames : FrameMemPool _ C A).highThreshold := by
      rw [UInt32.le_iff_toNat_le, hlow, hhigh, hdouble, doubles_iff hmod]
      exact hdoubles
    have hbelow : (conf.framePool d pl arena frames : FrameMemPool _ C A).highThreshold <
        (conf.framePool d pl arena frames : FrameMemPool _ C A).total := by
      rw [UInt32.lt_iff_toNat_lt, hhigh, htotal, highThreshold_lt_iff (by omega) (by omega)]
      exact fun h100 => hfifty (by omega)
    exact ⟨by rw [hwrap, hq], ⟨hlt, hle'⟩, ⟨horder, hbelow⟩, fun r hr =>
      (framePool_initial hlt hle').normal_of_released nodup_poolSlots hlen horder hbelow hr⟩

/-! ### Two percentages -/

/-- The arena of the examples, all octets 0. -/
def blankArena : BitVec 64 → PoolFrame (BitVec 64) := fun _ => blankFrame _ 0

/-- The default percentage is usable. -/
theorem watermarksUsable_iff_default :
    ∃ init, ioHdlcStationInit plainDriver platform64 (basicConfig none) = .ok init ∧
      WatermarksUsable (basicConfig none) ((basicConfig none).poolSlots plainDriver platform64 4096)
        ((basicConfig none).framePool plainDriver platform64 4096 blankArena :
          FrameMemPool (BitVec 64) Unit Unit) := by
  have hsetup : ∃ init, ioHdlcStationInit plainDriver platform64 (basicConfig none) = .ok init :=
    ⟨_, rfl⟩
  obtain ⟨init, hinit⟩ := hsetup
  exact ⟨init, hinit, (watermarksUsable_iff hinit rfl blankArena).mpr
    ⟨by decide, fun h => absurd h (by decide), .inl (by decide +kernel)⟩⟩

/-- With a percentage of 50 the upper threshold is the total, which is never exceeded. -/
theorem watermarksUsable_fails :
    ¬∀ (d : SwDriver) (pl : PoolPlatform) (conf : StationConfig) (init : Initialised) (arena : Nat)
      (frames : BitVec pl.sizeBits → PoolFrame (BitVec pl.sizeBits)),
      ioHdlcStationInit d pl conf = .ok init → conf.frameArena = some arena →
      WatermarksUsable conf (conf.poolSlots d pl arena)
        (conf.framePool d pl arena frames : FrameMemPool _ Unit Unit) := by
  intro h
  generalize hconf : { basicConfig none with poolWatermark := 50 } = conf
  have hsetup : ∃ init, ioHdlcStationInit plainDriver platform64 conf = .ok init := by
    rw [← hconf]
    exact ⟨_, rfl⟩
  obtain ⟨init, hinit⟩ := hsetup
  have husable := h plainDriver platform64 conf init 4096 blankArena hinit (by rw [← hconf]; rfl)
  have hbelow := husable.thresholds.2
  rw [← hconf] at hbelow
  exact absurd hbelow (by decide +kernel)

end IoHdlc
