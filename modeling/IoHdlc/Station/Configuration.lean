import IoHdlc.Driver.Transmit
import IoHdlc.Model.Types
import IoHdlc.Pool.Layout

/-!
Set-up: the configurations that `ioHdlcStationInit` and `ioHdlcAddPeer` accept,
and the sizes they derive from them.

The frame size is computed in 32 bits from the largest information field asked
for, the information length of a peer is computed back from the frame size.
-/

namespace IoHdlc

/-- Conversion to a 32-bit value, `(uint32_t)x`. -/
def u32 (x : Nat) : Nat := x % 2 ^ 32

theorem u32_of_lt {x : Nat} (h : x < 2 ^ 32) : u32 x = x := Nat.mod_eq_of_lt h

theorem u32_le (x : Nat) : u32 x ≤ x := Nat.mod_le ..

/-! ### Configuration -/

/-- The optional functions that the set-up reads. -/
structure OptFuncs where
  rej : Bool
  fff : Bool
  stb : Bool
  inh : Bool
  deriving DecidableEq, Repr

/-- The optional functions of a configuration that names none. -/
def defaultOptfuncs : OptFuncs := { rej := true, fff := true, stb := false, inh := true }

/-- `struct iohdlc_station_config`. The driver lists `log2mod` 0 among the
supported values; a station without sequence numbers is left out here. -/
structure StationConfig where
  mode : Mode
  flags : StationFlags
  log2mod : Nat
  addr : UInt32
  /-- The address of the arena, if there is one. -/
  frameArena : Option Nat
  frameArenaSize : Nat
  maxInfoLen : Nat
  fffType : Nat
  optfuncs : Option OptFuncs
  /-- `IOHDLC_PORT_CONSTR_TWA_ONLY` of the physical driver. -/
  portTwaOnly : Bool
  replyTimeoutMs : UInt16
  pollRetryMax : UInt8
  idlePollTimeoutMs : UInt32
  poolWatermark : UInt8
  log2mod_eq : log2mod = 3 ∨ log2mod = 7
  maxInfoLen_lt : maxInfoLen < 2 ^ 32
  fffType_lt : fffType < 256

/-- The driver after `s_resolve_fcs_caps`: the hooks for its default FCS size,
which is 2 unless a backend brings another one. -/
structure SwDriver where
  fcs : FcsPolicy
  fcs_le : fcs.fcsSize ≤ 4

def IOHDLC_REPLY_TIMEOUT_MS_DEFAULT : UInt32 := 100
def IOHDLC_REPLY_TIMEOUT_ADDR_SKEW_DIVISOR : UInt32 := 10
def IOHDLC_DFL_T3_IDLE_T1_RATIO : UInt32 := 2
def IOHDLC_POLL_RETRY_MAX_DEFAULT : UInt8 := 8
def IOHDLC_MAX_INFO_LEN_DEFAULT_NO_FFF : Nat := 122
def IOHDLC_MIN_FRAME_POOL_FRAMES : UInt32 := 2
def IOHDLC_FRAME_POOL_ALIGNMENT : Nat := 8

namespace StationConfig

variable (conf : StationConfig)

def optfuncsOrDefault : OptFuncs := conf.optfuncs.getD defaultOptfuncs

/-- `ctrl_size`. -/
def ctrlSize : Nat := if conf.log2mod = 3 then 1 else (conf.log2mod + 1) / 8 * 2

/-- `fff_type` after the detection from the optional functions. -/
def fffTypeOrAuto : Nat :=
  if conf.fffType = 0 then if conf.optfuncsOrDefault.fff then 1 else 0 else conf.fffType

/-- `want_transparency`, without the precedence of the format field. -/
def transparencyAsked : Bool := conf.optfuncsOrDefault.stb

/-- `want_transparency` once the options are reconciled. -/
def wantTransparency : Bool :=
  if conf.optfuncsOrDefault.fff && conf.transparencyAsked && conf.optfuncsOrDefault.inh then false
  else conf.transparencyAsked

/-- `max_info`, with the default for a configuration that says 0. -/
def maxInfo (fcsSize : Nat) : Nat :=
  if conf.maxInfoLen = 0 then
    if conf.fffTypeOrAuto = 1 then u32 (127 + 2 ^ 32 - 1 - 1 - conf.ctrlSize - fcsSize)
    else if conf.fffTypeOrAuto = 2 then u32 (4095 + 2 ^ 32 - 2 - 1 - conf.ctrlSize - fcsSize)
    else IOHDLC_MAX_INFO_LEN_DEFAULT_NO_FFF
  else conf.maxInfoLen

/-- The base of the reply timeout. -/
def baseReplyTimeout : UInt32 :=
  if conf.replyTimeoutMs ≠ 0 then conf.replyTimeoutMs.toUInt32 else IOHDLC_REPLY_TIMEOUT_MS_DEFAULT

/-- What is added to it for the address. -/
def addrSkew : UInt32 :=
  ((conf.addr - 1) &&& 0xFF) * (conf.baseReplyTimeout / IOHDLC_REPLY_TIMEOUT_ADDR_SKEW_DIVISOR)

/-- `reply_timeout_ms`, skewed by the address in asynchronous balanced mode. The sum has 32 bits,
the field 16. -/
def replyTimeout : UInt16 :=
  if conf.mode = .abm ∨ conf.mode = .adm then (conf.baseReplyTimeout + conf.addrSkew).toUInt16
  else conf.baseReplyTimeout.toUInt16

/-- `idle_poll_timeout_ms`, or nothing when the configured value is refused. -/
def idlePollTimeout : Option UInt32 :=
  if conf.mode = .ndm ∧ conf.idlePollTimeoutMs ≠ 0 then
    if conf.idlePollTimeoutMs < conf.replyTimeout.toUInt32 ∨ conf.idlePollTimeoutMs > 65535 then
      none
    else some conf.idlePollTimeoutMs
  else some (conf.replyTimeout.toUInt32 * IOHDLC_DFL_T3_IDLE_T1_RATIO)

/-- `poll_retry_max_cfg`. -/
def pollRetryMaxOrDefault : UInt8 :=
  if conf.pollRetryMax ≠ 0 then conf.pollRetryMax else IOHDLC_POLL_RETRY_MAX_DEFAULT

theorem ctrlSize_eq :
    (conf.log2mod = 3 ∧ conf.ctrlSize = 1) ∨ (conf.log2mod = 7 ∧ conf.ctrlSize = 2) := by
  rw [ctrlSize]
  rcases conf.log2mod_eq with h | h <;> rw [h] <;> decide

end StationConfig

/-! ### Sizes -/

def calculateFrameSize (log2mod fffType fcsSize maxInfoLen : Nat) (transparency : Bool) : Nat :=
  let ctrlSize := if log2mod = 3 then 1 else (log2mod + 1) / 4
  let elen := u32 (fffType + 1 + ctrlSize + maxInfoLen)
  let elen :=
    if fffType ≠ 0 then
      let fffLimit := if fffType = 1 then 127 else 4095
      let maxElen := u32 (fffLimit + 2 ^ 32 - fcsSize)
      if elen > maxElen then maxElen else elen
    else elen
  let frameSize := u32 (elen + fcsSize + 1)
  if transparency then u32 (frameSize * 2) else frameSize

/-- `frame_size`. -/
def StationConfig.frameSize (conf : StationConfig) (d : SwDriver) : Nat :=
  calculateFrameSize conf.log2mod conf.fffTypeOrAuto d.fcs.fcsSize (conf.maxInfo d.fcs.fcsSize)
    conf.wantTransparency

/-- `pool_layout`. -/
def StationConfig.poolLayout (conf : StationConfig) (d : SwDriver) (pl : PoolPlatform)
    (arena : Nat) : FmempoolLayout pl.sizeBits :=
  fmempoolLayout pl (.ofNat _ arena) (.ofNat _ conf.frameArenaSize) (.ofNat _ (conf.frameSize d))
    (.ofNat _ IOHDLC_FRAME_POOL_ALIGNMENT)

/-! ### The driver and the station -/

/-- `drv_configure`. The stored configuration waits for the frame size of the
pool that `drv_start` brings. -/
def drvConfigure (d : SwDriver) (transparency : Bool) (fffType : Nat) :
    Except Errno (Nat → DrvConfig) :=
  if hfff : fffType ≤ 2 then
    if hexcl : transparency = true → fffType = 0 then
      .ok fun framesize =>
        { fcs := d.fcs, applyTransparency := transparency, frameFormatSize := fffType,
          framesize := framesize, fff_le := hfff, exclusive := hexcl }
    else .error .EINVAL
  else .error .ENOTSUP

/-- The framing parameters of an accepted configuration. -/
def StationConfig.framing (conf : StationConfig) (fffType : Nat) (h : fffType ≤ 2) : Framing :=
  { modmask := (1 <<< UInt32.ofNat conf.log2mod) - 1
    pfoctet := (conf.log2mod + 1) / 8
    ctrlSize := if conf.log2mod = 3 then 1 else (conf.log2mod + 1) / 8 * 2
    frameOffset := fffType
    layout := by rcases conf.log2mod_eq with h | h <;> rw [h] <;> decide
    offset_le := h }

/-- What the set-up leaves: the station, its driver started on its pool, and the
retry limit for the peers to come. -/
structure Initialised where
  station : Station
  driver : DrvConfig
  pollRetryMaxCfg : UInt8

def ioHdlcStationInit (d : SwDriver) (pl : PoolPlatform) (conf : StationConfig) :
    Except Errno Initialised :=
  if conf.mode ≠ .ndm ∧ conf.mode ≠ .adm then .error .EINVAL
  else
    match conf.frameArena with
    | none => .error .EINVAL
    | some arena =>
      if conf.frameArenaSize = 0 then .error .EINVAL
      else if conf.portTwaOnly ∧ ¬conf.flags.twa then .error .EINVAL
      else
        match conf.idlePollTimeout with
        | none => .error .EINVAL
        | some idlePollTimeoutMs =>
          if conf.optfuncsOrDefault.fff ∧ conf.transparencyAsked ∧ ¬conf.optfuncsOrDefault.inh then
            .error .EINVAL
          else
            match drvConfigure d conf.wantTransparency conf.fffTypeOrAuto with
            | .error e => .error e
            | .ok config =>
              if (conf.poolLayout d pl arena).count < IOHDLC_MIN_FRAME_POOL_FRAMES then
                .error .ENOMEM
              else
                let driver := config (conf.frameSize d)
                .ok
                  { station := initialStation conf.mode conf.flags
                      (conf.framing driver.frameFormatSize driver.fff_le) d.fcs.fcsSize
                      conf.optfuncsOrDefault.rej conf.replyTimeout idlePollTimeoutMs conf.addr
                    driver := driver
                    pollRetryMaxCfg := conf.pollRetryMaxOrDefault }

/-- `ioHdlcAddPeer` to the peers that the station already has. -/
def ioHdlcAddPeer (init : Initialised) (peers : List Peer) (addr : UInt32) : Except Errno Peer :=
  let s := init.station
  if ¬s.flags.pri ∧ s.mode ≠ .ndm ∧ s.mode ≠ .adm then .error .EINVAL
  else if peers.any (·.addr = addr) then .error .EEXIST
  else .ok (initialPeer s init.driver.framesize init.pollRetryMaxCfg addr)

/-! ### What an accepted configuration leads to -/

/-- The sizes of a set-up that was accepted. -/
structure StationConfig.Accepted (conf : StationConfig) (d : SwDriver) (init : Initialised) : Prop where
  fcs : init.driver.fcs = d.fcs
  transparency : init.driver.applyTransparency = conf.wantTransparency
  fff : init.driver.frameFormatSize = conf.fffTypeOrAuto
  framesize : init.driver.framesize = calculateFrameSize conf.log2mod conf.fffTypeOrAuto
    d.fcs.fcsSize (conf.maxInfo d.fcs.fcsSize) conf.wantTransparency
  fcsSize : init.station.fcsSize = d.fcs.fcsSize
  frameOffset : init.station.framing.frameOffset = conf.fffTypeOrAuto
  ctrlSize : init.station.framing.ctrlSize = conf.ctrlSize

theorem drvConfigure_ok {d : SwDriver} {transparency : Bool} {fffType : Nat}
    {config : Nat → DrvConfig} (h : drvConfigure d transparency fffType = .ok config)
    (framesize : Nat) :
    (config framesize).fcs = d.fcs ∧ (config framesize).applyTransparency = transparency ∧
      (config framesize).frameFormatSize = fffType ∧ (config framesize).framesize = framesize := by
  rw [drvConfigure] at h
  split at h
  · split at h
    · cases h
      exact ⟨rfl, rfl, rfl, rfl⟩
    · cases h
  · cases h

theorem ioHdlcStationInit_accepted {d : SwDriver} {pl : PoolPlatform} {conf : StationConfig}
    {init : Initialised} (h : ioHdlcStationInit d pl conf = .ok init) : conf.Accepted d init := by
  simp only [ioHdlcStationInit] at h
  repeat' split at h
  all_goals cases h
  next hconfig _ =>
    obtain ⟨h₁, h₂, h₃, h₄⟩ := drvConfigure_ok hconfig (calculateFrameSize conf.log2mod
      conf.fffTypeOrAuto d.fcs.fcsSize (conf.maxInfo d.fcs.fcsSize) conf.wantTransparency)
    exact ⟨h₁, h₂, h₃, h₄, rfl, h₃, rfl⟩

theorem ioHdlcAddPeer_mifls {init : Initialised} {peers : List Peer} {addr : UInt32} {p : Peer}
    (h : ioHdlcAddPeer init peers addr = .ok p) :
    p.mifls = peerMifl init.station.framing init.station.fcsSize init.driver.framesize := by
  simp only [ioHdlcAddPeer] at h
  split at h
  · cases h
  · split at h
    · cases h
    · cases h
      rfl

end IoHdlc
