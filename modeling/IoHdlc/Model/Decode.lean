import IoHdlc.Model.ReadBack

/-!
What a receiver reads in the frames the core builds.

`Built` lists those frames with the arguments of their builders, `Meaning` is
what a frame says, and `decode` is what `ioHdlcRxEntry`, `handleUFrame` and
`commonRx` read out of a received buffer. Beyond the octets the builder wrote
the received buffer holds the frame check sequence and whatever the last owner
of the buffer left there.
-/

namespace IoHdlc

/-- A function code of a U frame has no bits outside `IOHDLC_U_FUN_MASK`. -/
structure UFunction where
  code : UInt8
  masked : code &&& IOHDLC_U_FUN_MASK = code

/-- A function code of an S frame has no bits outside `IOHDLC_S_FUN_MASK`. -/
structure SFunction where
  code : UInt8
  masked : code &&& IOHDLC_S_FUN_MASK = code

/-- The class of a frame, with the fields that only this class has. -/
inductive Fields where
  | iFrame (ns nr : UInt32)
  | sFrame (sFun : UInt8) (nr : UInt32)
  | uFrame (uFun : UInt8)
  deriving DecidableEq, Repr

structure Meaning where
  isCommand : Bool
  pf : Bool
  fields : Fields
  deriving DecidableEq, Repr

/-- The frames the core builds. `fp` is the buffer the builder is given: a
frame just taken from the pool, the stored information of a TEST, or for an I
frame the one at the head of `i_trans_q`. -/
inductive Built where
  | iFrame (fp : Frame) (nsSeed nr : UInt32) (pf isCommand : Bool)
  | sFrame (fp : Frame) (sFun : SFunction) (nr : UInt32) (pf isCommand : Bool)
  | uFrame (fp : Frame) (uFun : UFunction) (pf isCommand : Bool)
  | uFrameWithInfo (fp : Frame) (uFun : UFunction) (pf isCommand : Bool) (info : List UInt8)
  | frmr (fp : Frame) (pf : Bool)

def Built.isCommand : Built → Bool
  | .iFrame _ _ _ _ c => c
  | .sFrame _ _ _ _ c => c
  | .uFrame _ _ _ c => c
  | .uFrameWithInfo _ _ _ c _ => c
  | .frmr .. => false

def Built.pf : Built → Bool
  | .iFrame _ _ _ pf _ => pf
  | .sFrame _ _ _ pf _ => pf
  | .uFrame _ _ pf _ => pf
  | .uFrameWithInfo _ _ pf _ _ => pf
  | .frmr _ pf => pf

def Built.isUFrame : Built → Bool
  | .iFrame .. => false
  | .sFrame .. => false
  | .uFrame .. => true
  | .uFrameWithInfo .. => true
  | .frmr .. => true

/-- The fields handed to the builder. An I frame that was sent before keeps
the N(S) it went out with. -/
def Built.fields (fr : Framing) : Built → Fields
  | .iFrame fp nsSeed nr _ _ =>
    .iFrame (if headerStamped fr fp then extractNS fr fp else nsSeed &&& fr.modmask) (nr &&& fr.modmask)
  | .sFrame _ sFun nr _ _ => .sFrame sFun.code (nr &&& fr.modmask)
  | .uFrame _ uFun _ _ => .uFrame uFun.code
  | .uFrameWithInfo _ uFun _ _ _ => .uFrame uFun.code
  | .frmr .. => .uFrame IOHDLC_U_FRMR

def Built.meaning (fr : Framing) (b : Built) : Meaning :=
  { isCommand := b.isCommand, pf := b.pf, fields := b.fields fr }

/-- The frame the builder leaves. -/
def Built.frame (s : Station) (p : Peer) : Built → Frame
  | .iFrame fp nsSeed nr pf c => (prepareIFrameHeader s fp (txAddr s p c) nsSeed nr pf).1
  | .sFrame fp sFun nr pf c => buildSFrame s p fp sFun.code nr pf c
  | .uFrame fp uFun pf c => ioHdlcBuildUFrame s p fp uFun.code pf c
  | .uFrameWithInfo fp uFun pf c info => ioHdlcBuildUFrameWithInfo s p fp uFun.code pf c info
  | .frmr fp pf => buildFrmrResponse s p fp pf

/-- Where the octets that the builder writes end. -/
def Built.writtenEnd (s : Station) (p : Peer) : Built → Nat
  | .iFrame .. => s.framing.frameOffset + 1 + s.framing.ctrlSize
  | .sFrame .. => s.framing.frameOffset + 1 + s.framing.ctrlSize
  | .uFrame .. => s.framing.frameOffset + 2
  | .uFrameWithInfo _ _ _ _ info => s.framing.frameOffset + 2 + info.length
  | .frmr .. => s.framing.frameOffset + 2 + (frmrInfo s p).length

/-- What the receiver `r` reads in a frame: `ioHdlcRxEntry` separates the U
frames, `handleUFrame` and the receive handlers compare the address with the
station's, and all of them take the P/F bit with `IOHDLC_FRAME_GET_PF`. -/
def decode (r : Station) (fp : Frame) : Meaning :=
  let ctrl := fp.ctrl r.framing 0
  { isCommand := (fp.addr r.framing).toUInt32 = r.addr
    pf := getPF r.framing fp
    fields :=
      if isUFrm ctrl then .uFrame (ctrl &&& IOHDLC_U_FUN_MASK)
      else if isIFrm ctrl then .iFrame (extractNS r.framing fp) (extractNR r.framing fp)
      else .sFrame (ctrl &&& IOHDLC_S_FUN_MASK) (extractNR r.framing fp) }

/-! ### The type bits -/

theorem isUFrm_iff_lowNibble (fr : Framing) (fp : Frame) :
    isUFrm (fp.ctrl fr 0) = isUFrm (fp.lowNibble fr) := by
  have h (c : UInt8) : c &&& (0x03 : UInt8) = (c &&& 0x0F) &&& 0x03 := by
    refine octet_ext fun i hi => ?_
    interval_cases i <;> simp
  rw [isUFrm, isUFrm, Frame.lowNibble, h]

theorem isIFrm_iff_lowNibble (fr : Framing) (fp : Frame) :
    isIFrm (fp.ctrl fr 0) = isIFrm (fp.lowNibble fr) := by
  have h (c : UInt8) : c &&& (0x01 : UInt8) = (c &&& 0x0F) &&& 0x01 := by
    refine octet_ext fun i hi => ?_
    interval_cases i <;> simp
  rw [isIFrm, isIFrm, Frame.lowNibble, h]

theorem sFun_eq_lowNibble (fr : Framing) (fp : Frame) :
    fp.ctrl fr 0 &&& IOHDLC_S_FUN_MASK = fp.lowNibble fr &&& IOHDLC_S_FUN_MASK := by
  have h (c : UInt8) : c &&& (0x0C : UInt8) = (c &&& 0x0F) &&& 0x0C := by
    refine octet_ext fun i hi => ?_
    interval_cases i <;> simp
  rw [Frame.lowNibble, IOHDLC_S_FUN_MASK, h]

/-- An octet is not both of type I and of type U. -/
theorem not_isUFrm_of_isIFrm {c : UInt8} (h : isIFrm c = true) : isUFrm c = false := by
  simp only [isIFrm, isUFrm, decide_eq_true_eq, decide_eq_false_iff_not] at h ⊢
  intro hu
  have h₀ : c &&& 0x01 = (c &&& 0x03) &&& 0x01 := by
    refine octet_ext fun i hi => ?_
    interval_cases i <;> simp
  rw [h₀, hu] at h
  exact absurd h (by decide)

/-- The first control octet of an S frame. -/
theorem sFunction_octet (f : SFunction) :
    isUFrm ((f.code ||| IOHDLC_S_ID) &&& 0x0F) = false ∧
      isIFrm ((f.code ||| IOHDLC_S_ID) &&& 0x0F) = false ∧
      (f.code ||| IOHDLC_S_ID) &&& 0x0F &&& IOHDLC_S_FUN_MASK = f.code := by
  obtain ⟨c, hc⟩ := f
  dsimp only
  rw [← hc]
  have h₁ : (c &&& IOHDLC_S_FUN_MASK ||| IOHDLC_S_ID) &&& 0x0F &&& 0x03 = (0x01 : UInt8) := by
    refine octet_ext fun i hi => ?_
    interval_cases i <;> simp [IOHDLC_S_FUN_MASK, IOHDLC_S_ID]
  have h₂ : (c &&& IOHDLC_S_FUN_MASK ||| IOHDLC_S_ID) &&& 0x0F &&& 0x01 = (0x01 : UInt8) := by
    refine octet_ext fun i hi => ?_
    interval_cases i <;> simp [IOHDLC_S_FUN_MASK, IOHDLC_S_ID]
  refine ⟨?_, ?_, octet_ext fun i hi => ?_⟩
  · rw [isUFrm, h₁]; decide
  · rw [isIFrm, h₂]; decide
  · interval_cases i <;> simp [IOHDLC_S_FUN_MASK, IOHDLC_S_ID]

/-- The control octet of a U frame. -/
def uCtrl (uFun : UInt8) (pf : Bool) : UInt8 :=
  if pf then uFun ||| IOHDLC_U_ID ||| IOHDLC_PF_BIT else uFun ||| IOHDLC_U_ID

theorem uFunction_octet (f : UFunction) (pf : Bool) :
    isUFrm (uCtrl f.code pf) = true ∧ uCtrl f.code pf &&& IOHDLC_U_FUN_MASK = f.code ∧
      (uCtrl f.code pf &&& IOHDLC_PF_BIT != 0) = pf := by
  obtain ⟨c, hc⟩ := f
  dsimp only
  rw [← hc]
  have h₁ : uCtrl (c &&& IOHDLC_U_FUN_MASK) pf &&& 0x03 = (0x03 : UInt8) := by
    refine octet_ext fun i hi => ?_
    cases pf <;> interval_cases i <;> simp [uCtrl, IOHDLC_U_FUN_MASK, IOHDLC_U_ID, IOHDLC_PF_BIT]
  have h₂ : uCtrl (c &&& IOHDLC_U_FUN_MASK) pf &&& IOHDLC_PF_BIT = if pf then 0x10 else 0 := by
    refine octet_ext fun i hi => ?_
    cases pf <;> interval_cases i <;> simp [uCtrl, IOHDLC_U_FUN_MASK, IOHDLC_U_ID, IOHDLC_PF_BIT]
  refine ⟨?_, octet_ext fun i hi => ?_, ?_⟩
  · rw [isUFrm, h₁]; decide
  · cases pf <;> interval_cases i <;> simp [uCtrl, IOHDLC_U_FUN_MASK, IOHDLC_U_ID, IOHDLC_PF_BIT]
  · rw [h₂]; cases pf <;> decide

/-! ### Reading a header

The extractors look at the address and at the control octets, so a received
buffer that agrees with the built one there is read in the same way. -/

section Header

variable {fr : Framing} {rx fp : Frame}

theorem extractNS_congr (h : rx.ctrl fr 0 = fp.ctrl fr 0) : extractNS fr rx = extractNS fr fp := by
  simp only [extractNS, h]

theorem extractNR_congr (h : ∀ i < fr.ctrlSize, rx.ctrl fr i = fp.ctrl fr i) :
    extractNR fr rx = extractNR fr fp := by
  obtain ⟨fff, hf, rfl | rfl⟩ := fr.cases
  · rw [extractNR_mod8, extractNR_mod8, h 0 (by simp)]
  · rw [extractNR_mod128, extractNR_mod128, h 1 (by simp)]

theorem getPF_congr (h : ∀ i < fr.ctrlSize, rx.ctrl fr i = fp.ctrl fr i) :
    getPF fr rx = getPF fr fp := by
  obtain ⟨fff, hf, rfl | rfl⟩ := fr.cases
  · rw [getPF_mod8, getPF_mod8, h 0 (by simp)]
  · rw [getPF_mod128, getPF_mod128, h 1 (by simp)]

end Header

section Decode

variable {r : Station} {rx fp : Frame}

theorem decode_fields_iFrame (h : ∀ i < r.framing.ctrlSize, rx.ctrl r.framing i = fp.ctrl r.framing i)
    (hi : isIFrm (fp.ctrl r.framing 0) = true) :
    (decode r rx).fields = .iFrame (extractNS r.framing fp) (extractNR r.framing fp) := by
  have h₀ := h 0 r.framing.ctrlSize_pos
  simp only [decode, h₀, not_isUFrm_of_isIFrm hi, hi, extractNS_congr h₀, extractNR_congr h,
    if_true, Bool.false_eq_true, if_false]

theorem decode_fields_sFrame (h : ∀ i < r.framing.ctrlSize, rx.ctrl r.framing i = fp.ctrl r.framing i)
    (hu : isUFrm (fp.ctrl r.framing 0) = false) (hi : isIFrm (fp.ctrl r.framing 0) = false) :
    (decode r rx).fields =
      .sFrame (fp.ctrl r.framing 0 &&& IOHDLC_S_FUN_MASK) (extractNR r.framing fp) := by
  have h₀ := h 0 r.framing.ctrlSize_pos
  simp only [decode, h₀, hu, hi, extractNR_congr h, Bool.false_eq_true, if_false]

theorem decode_fields_uFrame (h : isUFrm (rx.ctrl r.framing 0) = true) :
    (decode r rx).fields = .uFrame (rx.ctrl r.framing 0 &&& IOHDLC_U_FUN_MASK) := by
  simp only [decode, h, if_true]

end Decode

/-! ### The built headers -/

section Builders

variable (s : Station) (p : Peer) (fp : Frame)

theorem stampHeader_isIFrm (fr : Framing) (nsSeed : UInt32) :
    isIFrm ((stampHeader fr fp nsSeed).ctrl fr 0) = true := by
  simp only [stampHeader]
  split
  · next h => simp only [headerStamped, Bool.and_eq_true] at h; exact h.2
  · rw [isIFrm]
    have h₀ (fp' : Frame) (h : fp'.ctrl fr 0 = IOHDLC_I_ID) :
        (setNSInCtrl fr fp' nsSeed).ctrl fr 0 &&& (0x01 : UInt8) = 0 := by
      rw [bit0_setNS, h]; decide
    split
    · simpa [Frame.ctrl, IOHDLC_I_ID] using h₀ ((fp.setCtrl fr 0 IOHDLC_I_ID).setCtrl fr 1 0) (by simp)
    · simpa [Frame.ctrl, IOHDLC_I_ID] using h₀ (fp.setCtrl fr 0 IOHDLC_I_ID) (by simp)

/-- A frame that was sent before keeps its N(S), any other gets the seed. -/
theorem extractNS_stampHeader (fr : Framing) (nsSeed : UInt32) :
    extractNS fr (stampHeader fr fp nsSeed) =
      if headerStamped fr fp then extractNS fr fp else nsSeed &&& fr.modmask := by
  simp only [stampHeader]
  split
  · rfl
  · exact extractNS_setNS fr _ nsSeed

variable (nsSeed nr : UInt32) (pf c : Bool)

theorem prepareIFrameHeader_isIFrm (addr : UInt8) :
    isIFrm ((prepareIFrameHeader s fp addr nsSeed nr pf).1.ctrl s.framing 0) = true := by
  rw [prepareIFrameHeader, Frame.ctrl_setAddr, isIFrm_iff_lowNibble, lowNibble_setPF,
    lowNibble_setNR, ← isIFrm_iff_lowNibble, stampHeader_isIFrm]

theorem prepareIFrameHeader_txCtrlLen (addr : UInt8) :
    (prepareIFrameHeader s fp addr nsSeed nr pf).1.txCtrlLen = s.framing.ctrlSize := by
  have hset (fp : Frame) :
      (setPFInCtrl s.framing (setNRInCtrl s.framing fp nr) pf).txCtrlLen = fp.txCtrlLen := by
    simp only [setPFInCtrl, setNRInCtrl]
    split <;> split <;> split <;> rfl
  have hstamp : (stampHeader s.framing fp nsSeed).txCtrlLen = s.framing.ctrlSize := by
    simp only [stampHeader]
    split
    · next h =>
      simp only [headerStamped, Bool.and_eq_true, decide_eq_true_eq] at h
      exact h.1
    · rfl
  exact (hset _).trans hstamp

/-- A prepared frame keeps its number when it is sent again. -/
theorem headerStamped_prepareIFrameHeader (addr : UInt8) :
    headerStamped s.framing (prepareIFrameHeader s fp addr nsSeed nr pf).1 = true := by
  rw [headerStamped, prepareIFrameHeader_txCtrlLen, prepareIFrameHeader_isIFrm, decide_eq_true rfl]
  rfl

theorem extractNS_prepareIFrameHeader (addr : UInt8) :
    extractNS s.framing (prepareIFrameHeader s fp addr nsSeed nr pf).1 =
      if headerStamped s.framing fp then extractNS s.framing fp
      else nsSeed &&& s.framing.modmask := by
  rw [prepareIFrameHeader, extractNS_setAddr, extractNS_setPF, extractNS_setNR,
    extractNS_stampHeader]

theorem extractNR_prepareIFrameHeader (addr : UInt8) :
    extractNR s.framing (prepareIFrameHeader s fp addr nsSeed nr pf).1 =
      nr &&& s.framing.modmask := by
  rw [prepareIFrameHeader, extractNR_setAddr, extractNR_setPF, extractNR_setNR]

theorem getPF_prepareIFrameHeader (addr : UInt8) :
    getPF s.framing (prepareIFrameHeader s fp addr nsSeed nr pf).1 = pf := by
  rw [prepareIFrameHeader, getPF_setAddr, getPF_setPF]

/-- The elements of `buildSFrame` before the length fields are set. -/
theorem ctrl_buildSFrame (sFun : UInt8) (i : Nat) :
    (buildSFrame s p fp sFun nr pf c).ctrl s.framing i =
      (setPFInCtrl s.framing (setNRInCtrl s.framing
        ((fp.setAddr s.framing (txAddr s p c)).setCtrl s.framing 0 (sFun ||| IOHDLC_S_ID)) nr)
        pf).ctrl s.framing i := rfl

theorem lowNibble_buildSFrame (sFun : UInt8) :
    (buildSFrame s p fp sFun nr pf c).lowNibble s.framing = (sFun ||| IOHDLC_S_ID) &&& 0x0F := by
  rw [Frame.lowNibble, ctrl_buildSFrame, ← Frame.lowNibble, lowNibble_setPF, lowNibble_setNR,
    Frame.lowNibble, Frame.ctrl_setCtrl, if_pos rfl]

theorem extractNR_buildSFrame (sFun : UInt8) :
    extractNR s.framing (buildSFrame s p fp sFun nr pf c) = nr &&& s.framing.modmask := by
  rw [extractNR_congr fun i _ => ctrl_buildSFrame s p fp nr pf c sFun i, extractNR_setPF,
    extractNR_setNR]

theorem getPF_buildSFrame (sFun : UInt8) :
    getPF s.framing (buildSFrame s p fp sFun nr pf c) = pf := by
  rw [getPF_congr fun i _ => ctrl_buildSFrame s p fp nr pf c sFun i, getPF_setPF]

theorem ctrl_ioHdlcBuildUFrame (uFun : UInt8) :
    (ioHdlcBuildUFrame s p fp uFun pf c).ctrl s.framing 0 = uCtrl uFun pf := by
  cases pf <;> simp [ioHdlcBuildUFrame, uCtrl, Frame.ctrl, Frame.setCtrl, Frame.setAddr]

end Builders

/-! ### What is built is what is read -/

section ReadBuilt

variable (s r : Station) (p : Peer) (b : Built) (rx : Frame)

theorem addr_built : (b.frame s p).addr s.framing = txAddr s p b.isCommand := by
  have hset (fp : Frame) (nr : UInt32) (pf : Bool) :
      (setPFInCtrl s.framing (setNRInCtrl s.framing fp nr) pf).addr s.framing = fp.addr s.framing := by
    rw [Frame.addr, frame_setPF _ _ _ (.inl (by omega)), frame_setNR _ _ _ (.inl (by omega)),
      Frame.addr]
  have hu (fp : Frame) (uFun : UInt8) (pf c : Bool) :
      (ioHdlcBuildUFrame s p fp uFun pf c).addr s.framing = txAddr s p c := by
    cases pf <;> simp [ioHdlcBuildUFrame, Frame.addr, Frame.setCtrl, Frame.setAddr]
  cases b with
  | iFrame fp nsSeed nr pf c => simp [Built.frame, Built.isCommand, prepareIFrameHeader]
  | sFrame fp sFun nr pf c =>
    have h : (buildSFrame s p fp sFun.code nr pf c).addr s.framing =
        (setPFInCtrl s.framing (setNRInCtrl s.framing ((fp.setAddr s.framing (txAddr s p c)).setCtrl
          s.framing 0 (sFun.code ||| IOHDLC_S_ID)) nr) pf).addr s.framing := rfl
    rw [Built.frame, h, hset, Frame.addr_setCtrl, Frame.addr_setAddr, Built.isCommand]
  | uFrame fp uFun pf c => exact hu fp uFun.code pf c
  | uFrameWithInfo fp uFun pf c info =>
    have h : (ioHdlcBuildUFrameWithInfo s p fp uFun.code pf c info).addr s.framing =
        (ioHdlcBuildUFrame s p fp uFun.code pf c).addr s.framing :=
      Buffer.store_lt _ _ (by omega)
    rw [Built.frame, h, hu, Built.isCommand]
  | frmr fp pf =>
    have h : (buildFrmrResponse s p fp pf).addr s.framing =
        (ioHdlcBuildUFrame s p fp IOHDLC_U_FRMR pf false).addr s.framing :=
      Buffer.store_lt _ _ (by omega)
    rw [Built.frame, h, hu, Built.isCommand]

/-- The control octet of a U frame the core builds. -/
theorem ctrl_built_uFrame (h : b.isUFrame = true) :
    ∃ f : UFunction, (b.frame s p).ctrl s.framing 0 = uCtrl f.code b.pf ∧
      b.fields s.framing = .uFrame f.code := by
  cases b with
  | iFrame | sFrame => cases h
  | uFrame fp uFun pf c => exact ⟨uFun, ctrl_ioHdlcBuildUFrame .., rfl⟩
  | uFrameWithInfo fp uFun pf c info =>
    refine ⟨uFun, ?_, rfl⟩
    rw [Built.pf, ← ctrl_ioHdlcBuildUFrame s p fp pf c]
    exact Buffer.store_lt _ _ (by omega)
  | frmr fp pf =>
    refine ⟨⟨IOHDLC_U_FRMR, by decide⟩, ?_, rfl⟩
    rw [Built.pf, ← ctrl_ioHdlcBuildUFrame s p fp pf false]
    exact Buffer.store_lt _ _ (by omega)

variable {s r p b rx}

/-- The address octet tells a command from a response when the receiver's
address is one octet and differs from the sender's. -/
theorem decode_isCommand_iff (ha : r.addr = p.addr) (hf : r.framing = s.framing)
    (hrx : rx.addr s.framing = (b.frame s p).addr s.framing) :
    (decode r rx).isCommand = b.isCommand ↔
      (b.isCommand = true → r.addr < 256) ∧
        (b.isCommand = false → s.addr.toUInt8.toUInt32 ≠ r.addr) := by
  rw [addr_built] at hrx
  simp only [decode, hf, hrx]
  cases b.isCommand with
  | true =>
    have h : p.addr.toUInt8.toUInt32 = r.addr ↔ r.addr < 256 := by
      rw [← ha, ← UInt32.toNat_inj, UInt32.lt_iff_toNat_lt, UInt8.toNat_toUInt32,
        UInt32.toNat_toUInt8]
      exact ⟨fun h => h ▸ Nat.mod_lt _ (by decide), fun h => Nat.mod_eq_of_lt h⟩
    simpa [txAddr] using h
  | false => simp [txAddr]

/-- The fields and the P/F bit of an I or S frame. -/
theorem decode_built_iSFrame (hf : r.framing = s.framing) (hu : b.isUFrame = false)
    (hrx : ∀ i < s.framing.ctrlSize, rx.ctrl s.framing i = (b.frame s p).ctrl s.framing i) :
    (decode r rx).fields = b.fields s.framing ∧ (decode r rx).pf = b.pf := by
  have hpf : (decode r rx).pf = getPF s.framing (b.frame s p) := by
    rw [decode, hf, getPF_congr hrx]
  rw [← hf] at hrx
  cases b with
  | iFrame fp nsSeed nr pf c =>
    have hi : isIFrm ((Built.frame s p (.iFrame fp nsSeed nr pf c)).ctrl r.framing 0) = true := by
      rw [hf]; exact prepareIFrameHeader_isIFrm ..
    refine ⟨?_, hpf.trans (getPF_prepareIFrameHeader ..)⟩
    rw [decode_fields_iFrame hrx hi, hf, Built.frame, extractNS_prepareIFrameHeader,
      extractNR_prepareIFrameHeader, Built.fields]
  | sFrame fp sFun nr pf c =>
    have hn := lowNibble_buildSFrame s p fp nr pf c sFun.code
    obtain ⟨h₁, h₂, h₃⟩ := sFunction_octet sFun
    refine ⟨?_, hpf.trans (getPF_buildSFrame ..)⟩
    rw [decode_fields_sFrame hrx, hf, Built.frame, sFun_eq_lowNibble, hn, h₃, extractNR_buildSFrame,
      Built.fields]
    · rw [hf, Built.frame, isUFrm_iff_lowNibble, hn, h₁]
    · rw [hf, Built.frame, isIFrm_iff_lowNibble, hn, h₂]
  | uFrame | uFrameWithInfo | frmr => cases hu

/-- The fields of a U frame. Its P/F bit is in the control octet, but in
modulus 128 the receiver looks for it in the octet after that. -/
theorem decode_built_uFrame (hf : r.framing = s.framing) (hu : b.isUFrame = true)
    (hrx : rx.ctrl s.framing 0 = (b.frame s p).ctrl s.framing 0) :
    (decode r rx).fields = b.fields s.framing ∧
      ((decode r rx).pf = b.pf ↔
        (s.framing.ctrlSize = 2 → (rx.ctrl s.framing 1 &&& IOHDLC_PFx_BIT != 0) = b.pf)) := by
  obtain ⟨f, hc, hfields⟩ := ctrl_built_uFrame s p b hu
  obtain ⟨h₁, h₂, h₃⟩ := uFunction_octet f b.pf
  rw [hc] at hrx
  constructor
  · rw [decode_fields_uFrame (by rw [hf, hrx, h₁]), hf, hrx, h₂, hfields]
  · have hpf : (decode r rx).pf = getPF s.framing rx := by rw [decode, hf]
    rw [hpf]
    rcases s.framing.layout with ⟨-, hp, hs⟩ | ⟨-, hp, hs⟩
    · simp only [getPF, hp, if_true, hs, hrx, h₃]
      simp
    · simp only [getPF, hp, hs, Nat.one_ne_zero, if_false, true_imp_iff]

end ReadBuilt

/-- The receiver `r` reads in a buffer what the station `s` encoded in it if
and only if the addresses tell commands from responses and, for a U frame in
modulus 128, the octet that follows its control octet happens to repeat the
P/F bit in bit 0. -/
theorem decode_eq_meaning_iff (s r : Station) (p : Peer) (b : Built) (rx : Frame)
    (hf : r.framing = s.framing) (ha : r.addr = p.addr)
    (hrx : ∀ i, s.framing.frameOffset ≤ i → i < b.writtenEnd s p →
      rx.frame i = (b.frame s p).frame i) :
    decode r rx = b.meaning s.framing ↔
      (b.isUFrame = true → s.framing.ctrlSize = 2 →
        (rx.ctrl s.framing 1 &&& IOHDLC_PFx_BIT != 0) = b.pf) ∧
      (b.isCommand = true → r.addr < 256) ∧
      (b.isCommand = false → s.addr.toUInt8.toUInt32 ≠ r.addr) := by
  have hend : s.framing.frameOffset + 2 ≤ b.writtenEnd s p := by
    have := s.framing.ctrlSize_pos
    cases b <;> simp only [Built.writtenEnd] <;> omega
  have hcmd := decode_isCommand_iff ha hf (hrx s.framing.frameOffset le_rfl (by omega))
  have hext : decode r rx = b.meaning s.framing ↔ (decode r rx).isCommand = b.isCommand ∧
      (decode r rx).pf = b.pf ∧ (decode r rx).fields = b.fields s.framing := by
    rw [Meaning.mk.injEq (decode r rx).isCommand]
    rfl
  rw [hext, hcmd]
  cases hu : b.isUFrame with
  | true =>
    obtain ⟨hfields, hpf⟩ := decode_built_uFrame hf hu (hrx _ (by omega) (by omega))
    rw [hpf]
    constructor
    · rintro ⟨h₁, h₂, -⟩
      exact ⟨fun _ => h₂, h₁⟩
    · rintro ⟨h₂, h₁⟩
      exact ⟨h₁, h₂ rfl, hfields⟩
  | false =>
    have hlen : b.writtenEnd s p = s.framing.frameOffset + 1 + s.framing.ctrlSize := by
      cases b with
      | iFrame | sFrame => rfl
      | uFrame | uFrameWithInfo | frmr => cases hu
    obtain ⟨hfields, hpf⟩ := decode_built_iSFrame (p := p) hf hu
      fun i hi => hrx _ (by omega) (by omega)
    constructor
    · rintro ⟨h₁, -, -⟩
      exact ⟨fun h => by simp at h, h₁⟩
    · rintro ⟨-, h₁⟩
      exact ⟨h₁, hpf, hfields⟩

/-- A station in modulus 128 without format field and with a 16-bit FCS. -/
def station128 (addr : UInt32) : Station :=
  initialStation .ndm {} (.mod128 0 Framing.zero_le_two) 2 true 100 200 addr

/-- The buffer of SNRM with P=1 for the secondary 16 when it arrives there: address,
control octet and FCS. -/
def snrmReceived : Frame :=
  { (default : Frame) with frame := fun i => [0x10, 0x93, 0xC4, 0x3C].getD i 0, elen := 2 }

/-- The poll of that SNRM is not seen. -/
theorem snrm_read_without_poll :
    ¬ ∀ (s r : Station) (p : Peer) (b : Built) (rx : Frame), r.framing = s.framing →
      r.addr = p.addr → s.addr < 256 → r.addr < 256 → s.addr ≠ r.addr →
      (∀ i, s.framing.frameOffset ≤ i → i < b.writtenEnd s p →
        rx.frame i = (b.frame s p).frame i) →
      decode r rx = b.meaning s.framing := by
  intro h
  have hread := h (station128 1) (station128 16) (initialPeer (station128 1) 128 8 16)
    (.uFrame default ⟨IOHDLC_U_SNRM, by decide⟩ true true) snrmReceived rfl rfl (by decide)
    (by decide) (by decide) fun i _ hi => by
      have hi : i < 2 := hi
      interval_cases i <;> decide
  exact absurd (congrArg Meaning.pf hread) (by decide)

/-- RR with N(R) = 100 from the same secondary reaches the primary as it was built. -/
theorem decode_eq_meaning_iff_rr :
    decode (station128 1)
        (buildSFrame (station128 16) (initialPeer (station128 16) 128 8 1) default IOHDLC_S_RR 100
          true false) =
      { isCommand := false, pf := true, fields := .sFrame IOHDLC_S_RR 100 } :=
  (decode_eq_meaning_iff (station128 16) (station128 1) (initialPeer (station128 16) 128 8 1)
    (.sFrame default ⟨IOHDLC_S_RR, by decide⟩ 100 true false) _ rfl rfl fun _ _ _ => rfl).mpr
    ⟨by decide, by decide, by decide⟩

end IoHdlc
