import IoHdlc.Driver.LengthFraming
import IoHdlc.Model.ReadBack
import IoHdlc.Station.Configuration

/-!
Do the wire images fit the buffers?

`ioHdlcAddPeer` gives a peer as many information octets as the frame size leaves
after a header, a check sequence and a flag. `calculate_frame_size` doubles the
frame size when octets may be escaped, and the doubled size is then given to the
information field as well.
-/

namespace IoHdlc

/-! ### The frames of the core -/

/-- The frames the core sends. `stale` is the buffer from the pool. -/
inductive CoreFrame where
  | iFrame (stale : Frame) (info : List UInt8) (nsSeed nr : UInt32) (pf isCommand : Bool)
  | sFrame (stale : Frame) (sFun : UInt8) (nr : UInt32) (pf isCommand : Bool)
  | uFrame (stale : Frame) (uFun : UInt8) (pf isCommand : Bool)
  | ui (stale : Frame) (value : Vector UInt8 4) (pf isCommand : Bool)
  | test (stale : Frame) (info : List UInt8) (pf isCommand : Bool)
  | frmr (stale : Frame) (pf : Bool)

namespace CoreFrame

def frame (s : Station) (p : Peer) : CoreFrame → Frame
  | .iFrame stale info nsSeed nr pf c =>
    (prepareIFrameHeader s (writeFragment s p stale info) (txAddr s p c) nsSeed nr pf).1
  | .sFrame stale sFun nr pf c => buildSFrame s p stale sFun nr pf c
  | .uFrame stale uFun pf c => ioHdlcBuildUFrame s p stale uFun pf c
  | .ui stale value pf c => ioHdlcBuildUFrameWithInfo s p stale IOHDLC_U_UI pf c value.toList
  | .test stale info pf c => ioHdlcBuildUFrameWithInfo s p stale IOHDLC_U_TEST pf c info
  | .frmr stale pf => buildFrmrResponse s p stale pf

/-- The length of header and information field. -/
def length (s : Station) : CoreFrame → Nat
  | .iFrame _ info _ _ _ _ => s.framing.frameOffset + 1 + s.framing.ctrlSize + info.length
  | .sFrame .. => s.framing.frameOffset + 1 + s.framing.ctrlSize
  | .uFrame .. => s.framing.frameOffset + 2
  | .ui .. => s.framing.frameOffset + 2 + 4
  | .test _ info _ _ => s.framing.frameOffset + 2 + info.length
  | .frmr .. => s.framing.frameOffset + 2 + if s.framing.ctrlSize = 1 then 3 else 5

/-- The information fields that `ioHdlcWriteVTmo` and the TEST exchange use. -/
def Bounded (mifls : Nat) : CoreFrame → Prop
  | .iFrame _ info _ _ _ _ => 1 ≤ info.length ∧ info.length ≤ mifls
  | .test _ info _ _ => info.length ≤ mifls
  | _ => True

theorem frame_elen (s : Station) (p : Peer) (f : CoreFrame) :
    (f.frame s p).elen = u16 (f.length s) := by
  have hinfo (stale : Frame) (uFun : UInt8) (pf c : Bool) (info : List UInt8) :
      (ioHdlcBuildUFrameWithInfo s p stale uFun pf c info).elen =
        u16 (s.framing.frameOffset + 2 + info.length) :=
    Nat.mod_add_mod ..
  cases f with
  | iFrame => exact prepareIFrameHeader_elen ..
  | sFrame => rfl
  | uFrame => rfl
  | ui stale value pf c => rw [frame, hinfo, Vector.length_toList, length]
  | test => exact hinfo ..
  | frmr =>
    simp only [frame, buildFrmrResponse, length, frmrInfo]
    split <;> rfl

/-- The information field of an I frame lies behind its header. -/
theorem slice_iFrame (s : Station) (p : Peer) (stale : Frame) (info : List UInt8)
    (nsSeed nr : UInt32) (pf c : Bool) :
    ((iFrame stale info nsSeed nr pf c).frame s p).frame.slice
      (s.framing.frameOffset + 1 + s.framing.ctrlSize) info.length = info := by
  calc ((iFrame stale info nsSeed nr pf c).frame s p).frame.slice
        (s.framing.frameOffset + 1 + s.framing.ctrlSize) info.length
      = (writeFragment s p stale info).frame.slice
        (s.framing.frameOffset + 1 + s.framing.ctrlSize) info.length :=
        Buffer.slice_congr fun _ hi _ => frame_prepareIFrameHeader _ _ _ _ _ _ hi
    _ = info := Buffer.slice_store ..

end CoreFrame

/-! ### Fitting -/

/-- The octets that `drv_send_frame` makes of a frame, with the closing flag. -/
def imageLength (cfg : DrvConfig) (fp : Frame) : Nat :=
  (if cfg.applyTransparency then (transparentEncode (cfg.fcs.append fp.octets)).length
    else fp.elen + cfg.fcs.fcsSize) + 1

/-- A frame of `n` octets keeps its length, is sent, and its image fits the buffer
and the transmit length. -/
structure Fits (cfg : DrvConfig) (n : Nat) (fp : Frame) : Prop where
  elen : fp.elen = n
  room : imageLength cfg fp ≤ cfg.framesize
  send : ∀ nfp, ∃ out, drvSendFrame cfg fp (some nfp) = .ok out ∧ out.txLen = imageLength cfg fp

/-- Every frame to a peer fits, whatever the peer's state, and no length is cut. -/
structure FramesFit (init : Initialised) (p : Peer) : Prop where
  framesize : init.driver.framesize < 65536
  mifl : p.mifls < 65536
  frames : ∀ (p' : Peer) (f : CoreFrame), p'.mifls = p.mifls → f.Bounded p.mifls →
    Fits init.driver (f.length init.station) (f.frame init.station p')

section Plain

variable {cfg : DrvConfig} {n : Nat} {fp : Frame}

/-- Without transparency the frame, the check sequence and a flag have to fit. -/
theorem fits_plain (hnt : cfg.applyTransparency = false) (hn : fp.elen = n)
    (hroom : n + cfg.fcs.fcsSize + 1 ≤ cfg.framesize) (h16 : cfg.framesize < 65536)
    (hfff : cfg.frameFormatSize ≠ 0 →
      cfg.frameFormatSize ≤ n ∧ n + cfg.fcs.fcsSize ≤ fffLimit cfg.frameFormatSize) :
    Fits cfg n fp := by
  have himage : imageLength cfg fp = n + cfg.fcs.fcsSize + 1 := by
    rw [imageLength, hnt, hn]
    rfl
  refine ⟨hn, himage.trans_le hroom, fun nfp => ?_⟩
  obtain ⟨octets, hemit⟩ : ∃ octets, sEmitFff cfg (fp.elen - cfg.frameFormatSize) = .ok octets := by
    by_cases hf : cfg.frameFormatSize = 0
    · exact ⟨[], by simp [sEmitFff, hf]⟩
    · have hle := cfg.fff_le
      obtain ⟨hfield, htotal⟩ := hfff hf
      exact ⟨_, sEmitFff_eq (t := ⟨fp, nfp, false⟩) (by omega)
        ⟨by rw [hn]; exact htotal, by rw [hn]; exact hfield⟩⟩
  refine ⟨_, by rw [drvSendFrame, hnt, sMaterializeTxFrame, hemit]; rfl, ?_⟩
  rw [himage, hn]
  exact u16_of_lt (by omega)

end Plain

/-! ### Sizes -/

/-- The configurations whose frames fit. -/
def StationConfig.SizesFit (conf : StationConfig) (fcsSize : Nat) : Prop :=
  conf.wantTransparency = false ∧ 4 ≤ conf.maxInfo fcsSize ∧
    if conf.fffTypeOrAuto = 0 then conf.ctrlSize + conf.maxInfo fcsSize + fcsSize + 2 ≤ 65535
    else conf.fffTypeOrAuto + 1 + conf.ctrlSize + conf.maxInfo fcsSize < 2 ^ 32

section Sizes

variable (conf : StationConfig) {fcsSize : Nat}

/-- `calculate_frame_size` and the framing agree on the control field. -/
theorem calculateFrameSize_eq (fcsSize maxInfoLen : Nat) :
    calculateFrameSize conf.log2mod conf.fffTypeOrAuto fcsSize maxInfoLen false =
      u32 ((if conf.fffTypeOrAuto ≠ 0 then
          min (u32 (conf.fffTypeOrAuto + 1 + conf.ctrlSize + maxInfoLen))
            (u32 (fffLimit conf.fffTypeOrAuto + 2 ^ 32 - fcsSize))
        else u32 (conf.fffTypeOrAuto + 1 + conf.ctrlSize + maxInfoLen)) + fcsSize + 1) := by
  have hctrl : (if conf.log2mod = 3 then 1 else (conf.log2mod + 1) / 4) = conf.ctrlSize := by
    rw [StationConfig.ctrlSize]
    rcases conf.log2mod_eq with h | h <;> rw [h]
    rfl
  have hmin (a b : Nat) : (if a > b then b else a) = min a b := by
    rw [min_def]
    split <;> split <;> omega
  simp only [calculateFrameSize, hctrl, hmin, fffLimit, Bool.false_eq_true, if_false]

/-- The frame size is no larger than what was asked for. -/
theorem calculateFrameSize_le (fcsSize maxInfoLen : Nat) :
    calculateFrameSize conf.log2mod conf.fffTypeOrAuto fcsSize maxInfoLen false ≤
      conf.fffTypeOrAuto + 1 + conf.ctrlSize + maxInfoLen + fcsSize + 1 := by
  rw [calculateFrameSize_eq]
  refine (u32_le _).trans ?_
  have h := u32_le (conf.fffTypeOrAuto + 1 + conf.ctrlSize + maxInfoLen)
  split
  · have := min_le_left (u32 (conf.fffTypeOrAuto + 1 + conf.ctrlSize + maxInfoLen))
      (u32 (fffLimit conf.fffTypeOrAuto + 2 ^ 32 - fcsSize))
    omega
  · omega

/-- A size that fits leaves at least four octets of information, and the format
field can express it. -/
theorem calculateFrameSize_of_sizesFit (hfff : conf.fffTypeOrAuto ≤ 2) (hfcs : fcsSize ≤ 4)
    (hfit : conf.SizesFit fcsSize) :
    let size := calculateFrameSize conf.log2mod conf.fffTypeOrAuto fcsSize (conf.maxInfo fcsSize)
      false
    conf.fffTypeOrAuto + 1 + conf.ctrlSize + 4 + fcsSize + 1 ≤ size ∧ size < 65536 ∧
      (conf.fffTypeOrAuto ≠ 0 → size ≤ fffLimit conf.fffTypeOrAuto + 1) := by
  obtain ⟨-, hmin, hmax⟩ := hfit
  have hctrl : conf.ctrlSize ≤ 2 := by rcases conf.ctrlSize_eq with h | h <;> omega
  dsimp only
  rw [calculateFrameSize_eq]
  generalize conf.maxInfo fcsSize = m at *
  by_cases hf : conf.fffTypeOrAuto = 0
  · rw [if_pos hf] at hmax
    rw [if_neg (not_not.mpr hf), hf, u32_of_lt (show 0 + 1 + conf.ctrlSize + m < 2 ^ 32 by omega),
      u32_of_lt (by omega)]
    exact ⟨by omega, by omega, fun h => absurd rfl h⟩
  · rw [if_neg hf] at hmax
    have hlimit : 127 ≤ fffLimit conf.fffTypeOrAuto ∧ fffLimit conf.fffTypeOrAuto ≤ 4095 := by
      rw [fffLimit]
      split <;> decide
    have hcap : u32 (fffLimit conf.fffTypeOrAuto + 2 ^ 32 - fcsSize) =
        fffLimit conf.fffTypeOrAuto - fcsSize := by
      rw [show fffLimit conf.fffTypeOrAuto + 2 ^ 32 - fcsSize =
        fffLimit conf.fffTypeOrAuto - fcsSize + 2 ^ 32 by omega, u32, Nat.add_mod_right]
      exact Nat.mod_eq_of_lt (by omega)
    rw [if_pos hf, u32_of_lt hmax, hcap, u32_of_lt (by omega)]
    omega

/-- A wrapped size leaves no room for four octets of information. -/
theorem calculateFrameSize_wrapped {maxInfoLen : Nat} (hmax : maxInfoLen < 2 ^ 32)
    (hfff : conf.fffTypeOrAuto ≤ 2) (hfcs : fcsSize ≤ 4)
    (hwrap : 2 ^ 32 ≤ conf.fffTypeOrAuto + 1 + conf.ctrlSize + maxInfoLen ∨
      (conf.fffTypeOrAuto = 0 ∧ 2 ^ 32 ≤ 1 + conf.ctrlSize + maxInfoLen + fcsSize + 1)) :
    calculateFrameSize conf.log2mod conf.fffTypeOrAuto fcsSize maxInfoLen false <
      conf.fffTypeOrAuto + 2 + 4 + fcsSize + 1 := by
  have hctrl : conf.ctrlSize ≤ 2 := by rcases conf.ctrlSize_eq with h | h <;> omega
  rw [calculateFrameSize_eq]
  generalize conf.fffTypeOrAuto = fff at *
  generalize fffLimit fff = limit
  simp only [u32]
  split <;> omega

end Sizes

/-! ### The frames of an accepted configuration -/

theorem CoreFrame.length_le {s : Station} {mifls : Nat} (h4 : 4 ≤ mifls) {f : CoreFrame}
    (hf : f.Bounded mifls) :
    s.framing.frameOffset ≤ f.length s ∧
      f.length s ≤ s.framing.frameOffset + 1 + s.framing.ctrlSize + mifls := by
  have hpos := s.framing.ctrlSize_pos
  have hle := s.framing.ctrlSize_le
  cases f with
  | iFrame stale info nsSeed nr pf c =>
    have := hf.2
    simp only [length]
    omega
  | test stale info pf c =>
    have hf : info.length ≤ mifls := hf
    simp only [length]
    omega
  | sFrame | uFrame | ui => simp only [length]; omega
  | frmr =>
    simp only [length]
    split <;> omega

section Accepted

variable {conf : StationConfig} {d : SwDriver} {init : Initialised} {p : Peer}

theorem framesFit_of_sizesFit (acc : conf.Accepted d init)
    (hp : p.mifls = peerMifl init.station.framing init.station.fcsSize init.driver.framesize)
    (hfit : conf.SizesFit d.fcs.fcsSize) : FramesFit init p := by
  have hfff : conf.fffTypeOrAuto ≤ 2 := acc.fff ▸ init.driver.fff_le
  obtain ⟨hmin, h16, hlimit⟩ := calculateFrameSize_of_sizesFit conf hfff d.fcs_le hfit
  rw [← hfit.1, ← acc.framesize] at hmin h16 hlimit
  have hmifls : p.mifls + (conf.fffTypeOrAuto + 1 + conf.ctrlSize + d.fcs.fcsSize + 1) =
      init.driver.framesize := by
    rw [hp, peerMifl, acc.frameOffset, acc.ctrlSize, acc.fcsSize, if_pos (by omega)]
    omega
  refine ⟨h16, by omega, fun p' f _ hf => ?_⟩
  obtain ⟨hfield, hlen⟩ := CoreFrame.length_le (s := init.station) (by omega) hf
  rw [acc.frameOffset] at hfield
  rw [acc.frameOffset, acc.ctrlSize] at hlen
  have hfcs : init.driver.fcs.fcsSize = d.fcs.fcsSize := by rw [acc.fcs]
  refine fits_plain (acc.transparency.trans hfit.1) ?_ (by omega) h16 fun hne => ?_
  · rw [CoreFrame.frame_elen]
    exact u16_of_lt (by omega)
  · rw [acc.fff] at hne ⊢
    have := hlimit hne
    exact ⟨hfield, by omega⟩

/-- Escaped octets take two, and the doubled buffer is filled with information. -/
theorem not_framesFit_of_transparency (acc : conf.Accepted d init)
    (hp : p.mifls = peerMifl init.station.framing init.station.fcsSize init.driver.framesize)
    (ht : conf.wantTransparency = true) : ¬FramesFit init p := by
  intro hall
  have hpos : 1 ≤ p.mifls ∧ init.driver.framesize ≤ p.mifls +
      (init.station.framing.frameOffset + 1 + init.station.framing.ctrlSize +
        init.station.fcsSize + 1) := by
    rw [hp, peerMifl, IOHDLC_PEER_MIFL_FALLBACK]
    split <;> omega
  -- An I frame of flag octets.
  obtain ⟨info, hinfo⟩ : ∃ info, info = List.replicate p.mifls IOHDLC_FLAG := ⟨_, rfl⟩
  have hlen : info.length = p.mifls := by rw [hinfo, List.length_replicate]
  have hfits := hall.frames p (.iFrame default info 0 0 false false) rfl ⟨by omega, by omega⟩
  have hslice := CoreFrame.slice_iFrame init.station p default info 0 0 false false
  have helen := hfits.elen
  have hroom := hfits.room
  generalize CoreFrame.frame init.station p (.iFrame default info 0 0 false false) = fp
    at hslice helen hroom
  simp only [CoreFrame.length] at helen
  have hcount : p.mifls ≤ fp.octets.countP (transparency.Special ·) := by
    rw [Frame.octets, helen, Buffer.slice_add, Nat.zero_add, hslice, List.countP_append, hinfo,
      List.countP_replicate, if_pos (by decide)]
    omega
  rw [imageLength, acc.transparency, ht, if_pos rfl, transparentEncode_eq,
    transparency.length_stuff, FcsPolicy.append, List.countP_append, List.length_append,
    Frame.length_octets, init.driver.fcs.length_compute, acc.fcs, helen] at hroom
  have := acc.fcsSize
  omega

theorem sizesFit_of_framesFit (acc : conf.Accepted d init)
    (hp : p.mifls = peerMifl init.station.framing init.station.fcsSize init.driver.framesize)
    (hall : FramesFit init p) : conf.SizesFit d.fcs.fcsSize := by
  have hfff : conf.fffTypeOrAuto ≤ 2 := acc.fff ▸ init.driver.fff_le
  have hfcs : init.driver.fcs.fcsSize = d.fcs.fcsSize := by rw [acc.fcs]
  have hnt : conf.wantTransparency = false := by
    by_contra h
    exact not_framesFit_of_transparency acc hp (Bool.eq_true_of_not_eq_false h) hall
  have himage (f : CoreFrame) (hf : f.Bounded p.mifls) :
      f.length init.station + d.fcs.fcsSize + 1 ≤ init.driver.framesize := by
    have hfits := hall.frames p f rfl hf
    have hroom := hfits.room
    rwa [imageLength, acc.transparency, hnt, if_neg (by decide), hfits.elen, hfcs] at hroom
  -- The two frames with an information field of fixed length.
  have hui := himage (.ui default (Vector.replicate 4 0) false false) trivial
  have hfrmr := himage (.frmr default false) trivial
  simp only [CoreFrame.length, acc.frameOffset, acc.ctrlSize] at hui hfrmr
  have hsize := acc.framesize
  rw [hnt] at hsize
  have hle := calculateFrameSize_le conf d.fcs.fcsSize (conf.maxInfo d.fcs.fcsSize)
  rw [← hsize] at hle
  have h32 : conf.maxInfo d.fcs.fcsSize < 2 ^ 32 := by
    have := conf.maxInfoLen_lt
    have hmod (x : Nat) : u32 x < 2 ^ 32 := Nat.mod_lt _ (by decide)
    rw [StationConfig.maxInfo]
    split
    · split
      · exact hmod _
      · split
        · exact hmod _
        · decide
    · exact this
  have hwrap := mt (calculateFrameSize_wrapped conf h32 hfff d.fcs_le) (by rw [← hsize]; omega)
  have h16 := hall.framesize
  refine ⟨hnt, ?_, ?_⟩
  · rcases conf.ctrlSize_eq with ⟨-, hc⟩ | ⟨-, hc⟩ <;> rw [hc] at hle hfrmr
    · omega
    · rw [if_neg (by decide)] at hfrmr
      omega
  · split
    · next hf =>
      rw [calculateFrameSize_eq, if_neg (not_not.mpr hf), hf] at hsize
      rw [hf] at hwrap
      rw [u32_of_lt (show 0 + 1 + conf.ctrlSize + conf.maxInfo d.fcs.fcsSize < 2 ^ 32 by omega),
        u32_of_lt (by omega)] at hsize
      omega
    · omega

end Accepted

/-- Every frame of a station that was set up fits its buffers exactly when octets
are not escaped, at least four octets of information are asked for, and the sum
of the lengths stays inside 16 bits, or with a format field inside 32 bits. -/
theorem framesFit_iff_sizesFit {d : SwDriver} {pl : PoolPlatform} {conf : StationConfig}
    {init : Initialised} (hinit : ioHdlcStationInit d pl conf = .ok init) {peers : List Peer}
    {addr : UInt32} {p : Peer} (hpeer : ioHdlcAddPeer init peers addr = .ok p) :
    FramesFit init p ↔ conf.SizesFit d.fcs.fcsSize :=
  ⟨sizesFit_of_framesFit (ioHdlcStationInit_accepted hinit) (ioHdlcAddPeer_mifls hpeer),
    framesFit_of_sizesFit (ioHdlcStationInit_accepted hinit) (ioHdlcAddPeer_mifls hpeer)⟩

/-! ### Two configurations -/

/-- The software driver without a backend. -/
def plainDriver : SwDriver := { fcs := fcsSw, fcs_le := by decide }

/-- A secondary in modulus 8 with an arena of 4096 octets and the given options. -/
def basicConfig (optfuncs : Option OptFuncs) : StationConfig :=
  { mode := .ndm, flags := {}, log2mod := 3, addr := 1, frameArena := some 4096,
    frameArenaSize := 4096, maxInfoLen := 8, fffType := 0, optfuncs := optfuncs,
    portTwaOnly := false, replyTimeoutMs := 0, pollRetryMax := 0, idlePollTimeoutMs := 0,
    poolWatermark := 0,
    log2mod_eq := .inl rfl, maxInfoLen_lt := by decide, fffType_lt := by decide }

/-- With the default options, a TYPE 0 field and no transparency, everything fits. -/
theorem framesFit_iff_sizesFit_default :
    ∃ init p, ioHdlcStationInit plainDriver platform64 (basicConfig none) = .ok init ∧
      ioHdlcAddPeer init [] 2 = .ok p ∧ FramesFit init p := by
  have hsetup : ∃ init p, ioHdlcStationInit plainDriver platform64 (basicConfig none) = .ok init ∧
      ioHdlcAddPeer init [] 2 = .ok p := ⟨_, _, rfl, rfl⟩
  obtain ⟨init, p, hinit, hpeer⟩ := hsetup
  exact ⟨init, p, hinit, hpeer,
    (framesFit_iff_sizesFit hinit hpeer).mpr ⟨rfl, by decide, by decide⟩⟩

/-- With the transparency an accepted configuration overruns its buffers. -/
theorem framesFit_fails :
    ¬∀ (d : SwDriver) (pl : PoolPlatform) (conf : StationConfig) (init : Initialised)
      (peers : List Peer) (addr : UInt32) (p : Peer), ioHdlcStationInit d pl conf = .ok init →
      ioHdlcAddPeer init peers addr = .ok p → FramesFit init p := by
  intro h
  generalize hconf : basicConfig (some { rej := true, fff := false, stb := true, inh := false }) = conf
  have hsetup : ∃ init p, ioHdlcStationInit plainDriver platform64 conf = .ok init ∧
      ioHdlcAddPeer init [] 2 = .ok p := by
    rw [← hconf]
    exact ⟨_, _, rfl, rfl⟩
  obtain ⟨init, p, hinit, hpeer⟩ := hsetup
  exact not_framesFit_of_transparency (ioHdlcStationInit_accepted hinit) (ioHdlcAddPeer_mifls hpeer)
    (by rw [← hconf]; rfl) (h _ _ conf init [] 2 p hinit hpeer)

end IoHdlc
