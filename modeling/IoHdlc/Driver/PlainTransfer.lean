import IoHdlc.Driver.MinimumLength

/-!
One frame over an idle line, without transparency.

The driver of the sender puts the format field, the check sequence and the flags
around the frame, the receive machine at the other end waits for a flag or for
the first octet of a frame. `Sending.Survives` is what the length and the
octets of the frame have to meet, and `received_plain_iff` says that the frame is
received as it was sent exactly then.

That a frame is lost is read off invariants of the receive machine: a queued
frame has at least `HDLC_BASIC_MIN_L` octets and fewer than the frame size, with
a TYPE 0 field it does not start with a flag, and without a field it is shorter
than what the line carried if that contained a flag.
-/

namespace IoHdlc

/-! ### The image -/

/-- The format field of a frame of `n` octets in all, if there is one. -/
def formatOctets (fff n : Nat) : List UInt8 := if fff = 0 then [] else fffOctets fff n

theorem length_formatOctets {fff : Nat} (h : fff ≤ 2) (n : Nat) :
    (formatOctets fff n).length = fff := by
  rw [formatOctets]
  split
  · next h0 => rw [h0]; rfl
  · exact length_fffOctets (by omega) n

/-- The octets that the core of the other station is to get. -/
def Sending.plainContent (cfg : DrvConfig) (t : Sending) : List UInt8 :=
  formatOctets cfg.frameFormatSize (t.fp.elen + cfg.fcs.fcsSize) ++
    t.fp.octets.drop cfg.frameFormatSize

/-- What is on the line between the flags. -/
def Sending.plainBody (cfg : DrvConfig) (t : Sending) : List UInt8 :=
  cfg.fcs.append (t.plainContent cfg)

/-- What a frame has to meet: it is not taken for a fragment, it fits the buffers
and the 16-bit lengths, the format field can express its length, and the receiver
sees no flag before its end. -/
structure Sending.Survives (cfg : DrvConfig) (t : Sending) : Prop where
  min : HDLC_BASIC_MIN_L ≤ t.fp.elen + cfg.fcs.fcsSize
  fits : t.fp.elen + cfg.fcs.fcsSize < cfg.framesize
  total : t.fp.elen + cfg.fcs.fcsSize < 65535
  limit : cfg.frameFormatSize ≠ 0 → t.fp.elen + cfg.fcs.fcsSize ≤ fffLimit cfg.frameFormatSize
  noFlag : cfg.frameFormatSize = 1 → t.fp.elen + cfg.fcs.fcsSize ≠ 0x7E
  flagFree : cfg.frameFormatSize = 0 → IOHDLC_FLAG ∉ t.plainBody cfg

section Image

variable {cfg : DrvConfig} {t : Sending}

theorem Sending.length_plainContent (hfield : cfg.frameFormatSize ≤ t.fp.elen) :
    (t.plainContent cfg).length = t.fp.elen := by
  rw [plainContent, List.length_append, length_formatOctets cfg.fff_le, List.length_drop,
    Frame.length_octets]
  omega

theorem Sending.length_plainBody (hfield : cfg.frameFormatSize ≤ t.fp.elen) :
    (t.plainBody cfg).length = t.fp.elen + cfg.fcs.fcsSize := by
  rw [plainBody, FcsPolicy.length_append, length_plainContent hfield]

/-- With a format field these are the octets of length-prefixed framing. -/
theorem Sending.plainContent_eq_content (h : cfg.frameFormatSize ≠ 0) :
    t.plainContent cfg = t.content cfg := by
  rw [plainContent, formatOctets, if_neg h]
  rfl

theorem Sending.plainBody_eq_body (h : cfg.frameFormatSize ≠ 0) :
    t.plainBody cfg = t.body cfg := by
  rw [plainBody, plainContent, formatOctets, if_neg h]
  rfl

/-- Without a format field the transmit length decides what leaves the port. -/
theorem Sending.wire_noField (hnt : cfg.applyTransparency = false) (hf : cfg.frameFormatSize = 0) :
    ∃ b : Buffer, t.wire cfg = (if t.opening then [IOHDLC_FLAG] else []) ++
        b.slice 0 (u16 (t.fp.elen + cfg.fcs.fcsSize + 1)) ∧
      b.slice 0 (t.fp.elen + cfg.fcs.fcsSize + 1) = t.plainBody cfg ++ [IOHDLC_FLAG] := by
  have hemit : sEmitFff cfg (t.fp.elen - cfg.frameFormatSize) = .ok [] := by
    simp [sEmitFff, hf]
  refine ⟨(withFcs cfg [] t.fp).store (t.fp.elen + cfg.fcs.fcsSize) [IOHDLC_FLAG], ?_, ?_⟩
  · simp only [wire, drvSendFrame, hnt, sMaterializeTxFrame, hemit]
    exact wireImage_sTryStartNextTx t.opening _
  · have h := Buffer.slice_store_end (withFcs cfg [] t.fp) (t.fp.elen + cfg.fcs.fcsSize)
      [IOHDLC_FLAG]
    rw [slice_withFcs, Buffer.store_nil] at h
    rw [plainBody, plainContent, formatOctets, if_pos hf, hf, List.drop_zero, List.nil_append]
    exact h

/-- The lengths that are sent as they are. -/
theorem Sending.wire_plain (hnt : cfg.applyTransparency = false)
    (hfield : cfg.frameFormatSize ≤ t.fp.elen) (htotal : t.fp.elen + cfg.fcs.fcsSize < 65535)
    (hlimit : cfg.frameFormatSize ≠ 0 →
      t.fp.elen + cfg.fcs.fcsSize ≤ fffLimit cfg.frameFormatSize) :
    t.wire cfg =
      (if t.opening then [IOHDLC_FLAG] else []) ++ (t.plainBody cfg ++ [IOHDLC_FLAG]) := by
  have hle := cfg.fff_le
  by_cases hf : cfg.frameFormatSize = 0
  · obtain ⟨b, hwire, hslice⟩ := t.wire_noField hnt hf
    rw [hwire, u16_of_lt (by omega), hslice]
  · rw [plainBody_eq_body hf]
    exact t.wire_eq_body hnt (by omega) ⟨hlimit hf, hfield⟩

theorem and_0xFF80_ne_zero {n : Nat} (h : 128 ≤ n) (h16 : n < 65536) : n &&& 0xFF80 ≠ 0 := by
  intro h0
  have hshift : (n >>> 7) &&& 0x1FF = 0 := by
    rw [show (0x1FF : Nat) = 0xFF80 >>> 7 from rfl, ← Nat.shiftRight_and_distrib, h0]
    rfl
  rw [show (0x1FF : Nat) = 2 ^ 9 - 1 from rfl, Nat.and_two_pow_sub_one_eq_mod,
    Nat.shiftRight_eq_div_pow] at hshift
  omega

theorem and_0xF000_ne_zero {n : Nat} (h : 4096 ≤ n) (h16 : n < 65536) : n &&& 0xF000 ≠ 0 := by
  intro h0
  have hshift : (n >>> 12) &&& 0xF = 0 := by
    rw [show (0xF : Nat) = 0xF000 >>> 12 from rfl, ← Nat.shiftRight_and_distrib, h0]
    rfl
  rw [show (0xF : Nat) = 2 ^ 4 - 1 from rfl, Nat.and_two_pow_sub_one_eq_mod,
    Nat.shiftRight_eq_div_pow] at hshift
  omega

/-- A length that the format field cannot express is refused. -/
theorem Sending.wire_refused (hnt : cfg.applyTransparency = false) (hf : cfg.frameFormatSize ≠ 0)
    (hlimit : fffLimit cfg.frameFormatSize < t.fp.elen + cfg.fcs.fcsSize)
    (h16 : t.fp.elen + cfg.fcs.fcsSize < 65536) : t.wire cfg = [] := by
  have hle := cfg.fff_le
  have hmod : (((t.fp.elen : Int) - cfg.frameFormatSize + cfg.frameFormatSize + cfg.fcs.fcsSize) %
      65536).toNat = t.fp.elen + cfg.fcs.fcsSize := by
    omega
  have hemit : sEmitFff cfg (t.fp.elen - cfg.frameFormatSize) = .error .EMSGSIZE := by
    simp only [sEmitFff, hmod]
    rcases (by omega : cfg.frameFormatSize = 1 ∨ cfg.frameFormatSize = 2) with h | h
    · rw [h] at hlimit ⊢
      rw [if_pos rfl, if_pos (and_0xFF80_ne_zero hlimit h16)]
    · rw [h] at hlimit ⊢
      rw [if_neg (by decide), if_pos rfl, if_pos (and_0xF000_ne_zero hlimit h16)]
  simp only [wire, drvSendFrame, hnt, sMaterializeTxFrame, hemit]
  rfl

/-- One octet more than the transmit length can count. -/
theorem Sending.wire_cut (hnt : cfg.applyTransparency = false) (hf : cfg.frameFormatSize = 0)
    (htotal : t.fp.elen + cfg.fcs.fcsSize = 65535) :
    t.wire cfg = if t.opening then [IOHDLC_FLAG] else [] := by
  obtain ⟨b, hwire, -⟩ := t.wire_noField hnt hf
  rw [hwire, htotal]
  exact List.append_nil _

/-- Without transparency and format field the check sequence decides. -/
theorem recvFrame_plain (hnt : cfg.applyTransparency = false) (hf : cfg.frameFormatSize = 0)
    (htotal : t.fp.elen + cfg.fcs.fcsSize < 65535) {fp : Frame}
    (hfp : fp.octets = t.plainBody cfg) :
    ∃ out, recvFrame cfg fp = some out ∧ out.octets = t.plainContent cfg := by
  have hcontent : (t.plainContent cfg).length = t.fp.elen := t.length_plainContent (by omega)
  have helen : fp.elen = t.fp.elen + cfg.fcs.fcsSize := by
    rw [← Frame.length_octets, hfp, t.length_plainBody (by omega)]
  have hcheck : cfg.fcs.rxCheckFn fp.octets = true := by
    rw [hfp]
    exact cfg.fcs.check_compute _
  have hu : u16 (fp.elen + 65536 - cfg.fcs.fcsSize) = t.fp.elen := by
    rw [helen,
      show t.fp.elen + cfg.fcs.fcsSize + 65536 - cfg.fcs.fcsSize = t.fp.elen + 65536 by omega, u16,
      Nat.add_mod_right, Nat.mod_eq_of_lt (by omega)]
  refine ⟨{ fp with elen := t.fp.elen }, by simp [recvFrame, hnt, hf, hcheck, hu], ?_⟩
  rw [Frame.octets, helen, Sending.plainBody, FcsPolicy.append, Buffer.slice_add] at hfp
  exact (List.append_inj hfp (by simp [hcontent])).1

/-- A frame that survives is one frame on the line. -/
theorem Sending.Survives.framed (hnt : cfg.applyTransparency = false)
    (hfield : cfg.frameFormatSize ≤ t.fp.elen) (h : t.Survives cfg) :
    t.Framed cfg (t.plainBody cfg) (t.plainContent cfg) := by
  have hle := cfg.fff_le
  by_cases hf : cfg.frameFormatSize = 0
  · have hlen := t.length_plainBody hfield
    have hmin := h.min
    have hfits := h.fits
    have htotal := h.total
    exact
      { wire := t.wire_plain hnt hfield htotal h.limit
        collect := fun p stream hstream hat =>
          hat.feed_image hf (h.flagFree hf) (by omega) (by omega) (by omega) stream hstream
        accept := fun fp hfp => recvFrame_plain hnt hf htotal hfp }
  · rw [plainBody_eq_body hf, plainContent_eq_content hf]
    exact t.framed_body (by omega) ⟨h.limit hf, hfield⟩ ⟨h.min, h.fits, h.noFlag⟩

end Image

/-! ### The idle line -/

/-- A receive machine that was just started or is between two frames, with all
frames taken. -/
structure RxPort.Quiet (p : RxPort) : Prop where
  queue : p.rx.receptQ = []
  between : p.At [] ∨ (p.rx.inFrame = none ∧ p.request = stageRequest ∧ p.got = 0)

section Quiet

variable {cfg : DrvConfig} {p : RxPort}

theorem quiet_drvStart : drvStart.Quiet := ⟨rfl, .inr ⟨rfl, rfl, rfl⟩⟩

theorem RxPort.Quiet.signalled (h : p.Quiet) : p.rx.Signalled := by
  rw [RxState.Signalled, h.queue]
  exact Nat.zero_le _

/-- A frame that has been taken waits for its first octet. -/
theorem RxPort.Quiet.inFrame (h : p.Quiet) {fp : Frame} (hin : p.rx.inFrame = some fp) :
    fp.elen = 0 ∧ p.request.target = .inFrame 0 ∧ p.request.len = 1 ∧ p.got = 0 := by
  rcases h.between with hat | ⟨hnone, -⟩
  · obtain ⟨fp', hin', hxs⟩ := hat.inFrame
    obtain rfl : fp' = fp := Option.some.inj (hin'.symm.trans hin)
    have hlen := fp'.length_octets
    rw [hxs] at hlen
    exact ⟨hlen.symm, hat.target, hat.len, hat.got⟩
  · rw [hnone] at hin
    cases hin

theorem RxPort.Quiet.lengths (h : p.Quiet) : p.rx.Lengths cfg := by
  constructor
  · intro fp hin
    exact .inl ((h.inFrame hin).1.le.trans (Nat.zero_le 1))
  · rw [h.queue]
    exact nofun

variable (cfg) in
/-- The opening flag of a transmission. -/
theorem RxPort.Quiet.opening (h : p.Quiet) (fresh : Frame) :
    (p.octet cfg (some fresh) IOHDLC_FLAG).At [] ∧
      (p.octet cfg (some fresh) IOHDLC_FLAG).rx.receptQ = [] := by
  rcases h.between with hat | ⟨hnone, hreq, hgot⟩
  · obtain ⟨hat', fp, -, hq, -⟩ := hat.octet_flag cfg (.inr (by decide)) fresh
    refine ⟨hat', ?_⟩
    rw [hq, h.queue]
    rfl
  · have hst : p.octet cfg (some fresh) IOHDLC_FLAG =
        { rx := { p.rx with stagep := 0, inFrame := some { fresh with elen := 0 } }
          request := frameRequest 0 1
          got := 0 } := by
      simp [RxPort.octet, RxPort.store, hreq, hgot, stageRequest, RxPort.call, sOnRx, sOnRxData,
        hnone, newframe]
    rw [hst]
    exact ⟨At_open rfl rfl, h.queue⟩

/-- What is received is what the checks leave of the queue. -/
theorem RxPort.Quiet.received (h : p.Quiet) (stream : List (UInt8 × Frame)) :
    received cfg (p.feed cfg stream).rx =
      (p.feed cfg stream).rx.receptQ.filterMap (recvFrame cfg) :=
  drvRecvFrames_eq cfg _ (RxPort.feed_signalled stream h.signalled) le_rfl

/-- Without transparency the checks only shorten a frame. -/
theorem recvFrame_noTransparency (hnt : cfg.applyTransparency = false) {fp out : Frame}
    (h : recvFrame cfg fp = some out) :
    out = { fp with elen := u16 (fp.elen + 65536 - cfg.fcs.fcsSize) } := by
  simp only [recvFrame, hnt, Option.ite_none_right_eq_some, Option.some.injEq] at h
  exact h.2.symm

/-- A received frame comes from a queued one, with its length bounds. -/
theorem RxPort.Quiet.of_mem (h : p.Quiet) (hnt : cfg.applyTransparency = false)
    (hfcs : cfg.fcs.fcsSize ≤ 4) (stream : List (UInt8 × Frame)) {out : Frame}
    (hout : out ∈ IoHdlc.received cfg (p.feed cfg stream).rx) :
    ∃ fp ∈ (p.feed cfg stream).rx.receptQ, out.frame = fp.frame ∧
      fp.elen = out.elen + cfg.fcs.fcsSize ∧ HDLC_BASIC_MIN_L ≤ fp.elen ∧ fp.elen < 65536 ∧
      fp.elen < cfg.framesize := by
  rw [h.received] at hout
  obtain ⟨fp, hmem, hrecv⟩ := List.mem_filterMap.mp hout
  have hlengths : (p.feed cfg stream).rx.Lengths cfg := by
    rw [RxPort.feed_eq_run]
    exact RxPort.run_inv (fun p b h => p.store_lengths b h) (fun _ _ hd h => hd.lengths h) _
      h.lengths
  have hbounds := hlengths.queue fp hmem
  have heq := recvFrame_noTransparency hnt hrecv
  rw [HDLC_BASIC_MIN_L] at hbounds
  refine ⟨fp, hmem, by rw [heq], ?_, hbounds⟩
  rw [heq, show fp.elen + 65536 - cfg.fcs.fcsSize = fp.elen - cfg.fcs.fcsSize + 65536 by omega]
  dsimp only
  rw [u16, Nat.add_mod_right, Nat.mod_eq_of_lt (by omega)]
  omega

end Quiet

/-! ### What a queued frame is like -/

section Queue

variable {cfg : DrvConfig}

/-- A callback adds the frame it found, when that ends at a flag, or nothing. -/
theorem RxState.Calls.receptQ {take : Option Frame} {d : RxState} {r : RxState × RxRequest}
    (h : d.Calls cfg take r) :
    r.1.receptQ = d.receptQ ∨
      ∃ fp, d.inFrame = some fp ∧ fp.frame fp.elen = IOHDLC_FLAG ∧ HDLC_BASIC_MIN_L ≤ fp.elen ∧
        r.1.receptQ = d.receptQ ++ [fp] := by
  cases h with
  | search => exact .inl (newframe_queue take d).1
  | drop => exact .inl (newframe_queue take (sHandleRxError d)).1
  | restart | more => exact .inl rfl
  | @queue fp hin hflag hmin => exact .inr ⟨fp, hin, hflag, hmin, (newframe_queue ..).1⟩

/-- Every queued frame is followed by a flag in its buffer. -/
def RxState.EndsAtFlag (d : RxState) : Prop :=
  ∀ fp ∈ d.receptQ, fp.frame fp.elen = IOHDLC_FLAG

theorem RxPort.octet_endsAtFlag (p : RxPort) (take : Option Frame) (b : UInt8)
    (h : p.rx.EndsAtFlag) : (p.octet cfg take b).rx.EndsAtFlag := by
  have hstore : (p.store b).rx.EndsAtFlag := by
    rw [RxState.EndsAtFlag, (p.store_queue b).1]
    exact h
  simp only [RxPort.octet]
  split
  · intro fp hmem
    replace hmem : fp ∈ (sOnRxData cfg take (p.store b).rx).1.receptQ := hmem
    rcases (sOnRxData_calls cfg take (p.store b).rx).receptQ with hq | ⟨fp', -, hend, -, hq⟩
    · rw [hq] at hmem
      exact hstore fp hmem
    · rw [hq, List.mem_append, List.mem_singleton] at hmem
      rcases hmem with hmem | rfl
      · exact hstore fp hmem
      · exact hend
  · exact hstore

theorem RxPort.feed_endsAtFlag {p : RxPort} (stream : List (UInt8 × Frame))
    (h : p.rx.EndsAtFlag) : (p.feed cfg stream).rx.EndsAtFlag := by
  induction stream generalizing p with
  | nil => exact h
  | cons x rest ih =>
    rw [RxPort.feed_cons]
    exact ih (p.octet_endsAtFlag (some x.2) x.1 h)

/-- With a TYPE 0 field: no queued frame starts with a flag, and a frame being
assembled waits for its first octet or does not start with one either. -/
structure RxPort.NoFlagFirst (p : RxPort) : Prop where
  queue : ∀ fp ∈ p.rx.receptQ, fp.frame 0 ≠ IOHDLC_FLAG
  inFrame : ∀ fp, p.rx.inFrame = some fp →
    (fp.elen = 0 ∧ p.request.target = .inFrame 0 ∧ p.request.len = 1 ∧ p.got = 0) ∨
      (fp.frame 0 ≠ IOHDLC_FLAG ∧ ∃ off, p.request.target = .inFrame (off + 1))

/-- A frame that `newframe` takes waits for its first octet. -/
theorem newframe_noFlagFirst (take : Option Frame) {d : RxState} (hin : d.inFrame = none)
    (hqueue : ∀ fp ∈ d.receptQ, fp.frame 0 ≠ IOHDLC_FLAG) :
    RxPort.NoFlagFirst
      { rx := (newframe take d).1, request := (newframe take d).2, got := 0 } := by
  constructor
  case queue =>
    rw [(newframe_queue take d).1]
    exact hqueue
  case inFrame =>
    intro fp hfp
    have hreq : (newframe take d).2 = frameRequest 0 1 := by
      simp only [newframe] at hfp ⊢
      split
      next hflag =>
        cases take with
        | none => rw [if_pos hflag, hin] at hfp; cases hfp
        | some fresh => rfl
      next hflag => rw [if_neg hflag, hin] at hfp; cases hfp
    refine .inl ⟨newframe_frame hin fp hfp, ?_, ?_, rfl⟩ <;> dsimp only <;> rw [hreq] <;> rfl

/-- What a callback leaves when the frame it found does not start with a flag. -/
theorem RxState.Calls.noFlagFirst (hf : cfg.frameFormatSize = 1) {take : Option Frame} {d : RxState}
    {r : RxState × RxRequest} (h : d.Calls cfg take r)
    (hqueue : ∀ fp ∈ d.receptQ, fp.frame 0 ≠ IOHDLC_FLAG)
    (hfirst : ∀ fp, d.inFrame = some fp → fp.elen ≠ 0 → fp.frame 0 ≠ IOHDLC_FLAG) :
    RxPort.NoFlagFirst { rx := r.1, request := r.2, got := 0 } := by
  cases h with
  | search hin => exact newframe_noFlagFirst take hin hqueue
  | drop => exact newframe_noFlagFirst take rfl hqueue
  | restart hin hflag =>
    refine ⟨hqueue, ?_⟩
    rintro fp' ⟨⟩
    exact .inl ⟨rfl, rfl, rfl, rfl⟩
  | @queue fp hin hflag hmin =>
    refine newframe_noFlagFirst take rfl fun fp' hmem => ?_
    rcases List.mem_append.mp hmem with hmem | hmem
    · exact hqueue fp' hmem
    · rw [List.mem_singleton.mp hmem]
      exact hfirst fp hin (by rw [HDLC_BASIC_MIN_L] at hmin; omega)
  | @more fp elen off len hin hflag hlen =>
    refine ⟨hqueue, ?_⟩
    rintro fp' ⟨⟩
    refine .inr ⟨?_, off, rfl⟩
    -- An empty frame was just looked at; it is no flag, or the callback would have begun again.
    by_cases h0 : fp.elen = 0
    · intro hzero
      rw [h0] at hflag
      have := hflag hzero
      omega
    · exact hfirst fp hin h0

theorem RxPort.NoFlagFirst.octet (hf : cfg.frameFormatSize = 1) {p : RxPort} (h : p.NoFlagFirst)
    (take : Option Frame) (b : UInt8) : (p.octet cfg take b).NoFlagFirst := by
  have hqueue : ∀ fp ∈ (p.store b).rx.receptQ, fp.frame 0 ≠ IOHDLC_FLAG := by
    rw [(p.store_queue b).1]
    exact h.queue
  -- Storing an octet touches the first one only while the frame is empty.
  have hstored (fp : Frame) (hin : (p.store b).rx.inFrame = some fp) :
      (fp.elen = 0 ∧ (p.store b).got = p.request.len) ∨
        (fp.frame 0 ≠ IOHDLC_FLAG ∧ ∃ off, p.request.target = .inFrame (off + 1)) := by
    cases hd : p.rx.inFrame with
    | none =>
      simp only [RxPort.store, hd] at hin
      split at hin <;> cases hin
    | some fp' =>
      rcases h.inFrame fp' hd with ⟨h0, htarget, hlen, hgot⟩ | ⟨hfirst, off, htarget⟩
      · simp only [RxPort.store, hd, htarget] at hin
        cases hin
        exact .inl ⟨h0, by simp [RxPort.store, hlen, hgot]⟩
      · simp only [RxPort.store, hd, htarget] at hin
        cases hin
        refine .inr ⟨?_, off, htarget⟩
        rw [Frame.setOctet_frame, if_neg (by omega)]
        exact hfirst
  simp only [RxPort.octet]
  split
  · refine (sOnRxData_calls cfg take (p.store b).rx).noFlagFirst hf hqueue fun fp hin hne => ?_
    exact ((hstored fp hin).resolve_left fun h0 => hne h0.1).1
  · next hgot =>
    refine ⟨hqueue, fun fp hin => .inr ?_⟩
    exact (hstored fp hin).resolve_left fun h0 => hgot h0.2

theorem RxPort.NoFlagFirst.feed (hf : cfg.frameFormatSize = 1) {p : RxPort}
    (stream : List (UInt8 × Frame)) (h : p.NoFlagFirst) : (p.feed cfg stream).NoFlagFirst := by
  induction stream generalizing p with
  | nil => exact h
  | cons x rest ih =>
    rw [RxPort.feed_cons]
    exact ih (h.octet hf (some x.2) x.1)

theorem RxPort.Quiet.noFlagFirst {p : RxPort} (h : p.Quiet) : p.NoFlagFirst := by
  constructor
  · rw [h.queue]
    exact nofun
  · intro fp hin
    exact .inl (h.inFrame hin)

/-- Without a format field every frame is shorter than what was fed, with what
was collected before. -/
theorem RxPort.At.feed_shorter (hf : cfg.frameFormatSize = 0) {p : RxPort} {xs : List UInt8}
    (h : p.At xs) (stream : List (UInt8 × Frame))
    (hroom : xs.length + stream.length < cfg.framesize) (h16 : xs.length + stream.length < 65536) :
    ∃ q, (p.feed cfg stream).rx.receptQ = p.rx.receptQ ++ q ∧
      ∀ fp ∈ q, fp.elen < xs.length + stream.length := by
  induction stream generalizing p xs with
  | nil => exact ⟨[], (List.append_nil _).symm, nofun⟩
  | cons x rest ih =>
    rw [List.length_cons] at hroom h16 ⊢
    rw [RxPort.feed_cons]
    by_cases hx : x.1 = IOHDLC_FLAG
    · obtain ⟨hat, fp, hfp, hq, -⟩ := h.octet_flag cfg (.inl (by omega)) x.2
      obtain ⟨q, hq', hlen⟩ := ih hat (by simp; omega) (by simp; omega)
      rw [hx, hq', hq, List.append_assoc]
      refine ⟨_, rfl, fun fp' hmem => ?_⟩
      rcases List.mem_append.mp hmem with hmem | hmem
      · split at hmem
        · rw [List.mem_singleton.mp hmem, ← Frame.length_octets, hfp]
          omega
        · cases hmem
      · have := hlen fp' hmem
        rw [List.length_nil] at this
        omega
    · obtain ⟨hat, hq, -⟩ := h.octet_append (some x.2) hf hx (by omega) (by omega)
      obtain ⟨q, hq', hlen⟩ := ih hat (by simp; omega) (by simp; omega)
      refine ⟨q, by rw [hq', hq], fun fp' hmem => ?_⟩
      have := hlen fp' hmem
      rw [List.length_append, List.length_singleton] at this
      omega

/-- A flag among the octets of a body: what is received is shorter. -/
theorem RxPort.At.feed_flagged (hf : cfg.frameFormatSize = 0) {p : RxPort} (h : p.At [])
    {body : List UInt8} (hflag : IOHDLC_FLAG ∈ body) (hroom : body.length < cfg.framesize)
    (h16 : body.length < 65536) (stream : List (UInt8 × Frame))
    (hstream : stream.map Prod.fst = body ++ [IOHDLC_FLAG]) :
    ∃ q, (p.feed cfg stream).rx.receptQ = p.rx.receptQ ++ q ∧ ∀ fp ∈ q, fp.elen < body.length := by
  -- The body is cut at its first flag.
  obtain ⟨u, v, rfl, hu⟩ := List.eq_append_cons_of_mem hflag
  rw [List.append_assoc, List.cons_append] at hstream
  obtain ⟨first, rest, rfl, rfl, hrest⟩ := List.map_eq_append_iff.mp hstream
  obtain ⟨x, later, rfl, hx, hlater⟩ := List.map_eq_cons_iff.mp hrest
  rw [List.length_append, List.length_cons, List.length_map] at hroom h16 ⊢
  have hlen : later.length = v.length + 1 := by
    rw [← List.length_map (f := Prod.fst), hlater, List.length_append, List.length_singleton]
  obtain ⟨hat, hq, -⟩ := h.feed_body hf first hu (by simp; omega) (by simp; omega)
  obtain ⟨hat', fp, hfp, hq', -⟩ := hat.octet_flag cfg (.inl (by omega)) x.2
  obtain ⟨q, hq'', hshort⟩ := hat'.feed_shorter hf later (by simp; omega) (by simp; omega)
  rw [RxPort.feed_append, RxPort.feed_cons, hx, hq'', hq', hq, List.append_assoc]
  refine ⟨_, rfl, fun fp' hmem => ?_⟩
  rcases List.mem_append.mp hmem with hmem | hmem
  · split at hmem
    · rw [List.mem_singleton.mp hmem, ← Frame.length_octets, hfp]
      simp
    · cases hmem
  · have := hshort fp' hmem
    rw [List.length_nil] at this
    omega

end Queue

/-! ### One frame -/

section OneFrame

variable {cfg : DrvConfig} {t : Sending} {p : RxPort}

/-- A frame that survives is received as it was sent, and a flag follows it in its
buffer. -/
theorem Sending.Survives.received (hnt : cfg.applyTransparency = false)
    (hfield : cfg.frameFormatSize ≤ t.fp.elen) (h : t.Survives cfg) (hopen : t.opening = true)
    (hp : p.Quiet) (stream : List (UInt8 × Frame)) (hwire : stream.map Prod.fst = t.wire cfg) :
    ∃ out, IoHdlc.received cfg (p.feed cfg stream).rx = [out] ∧
      out.octets = t.plainContent cfg ∧
      ∀ i x, (t.plainBody cfg ++ [IOHDLC_FLAG])[i]? = some x → out.frame i = x := by
  have hframed := h.framed hnt hfield
  rw [hframed.wire, hopen, if_pos rfl, List.singleton_append] at hwire
  obtain ⟨x, rest, rfl, hx, hrest⟩ := List.map_eq_cons_iff.mp hwire
  obtain ⟨hat, hq⟩ := hp.opening cfg x.2
  obtain ⟨-, fp, hfp, hq', -⟩ := hframed.collect _ rest hrest hat
  obtain ⟨out, hout, hoctets⟩ := hframed.accept fp hfp
  have hqueue : (p.feed cfg (x :: rest)).rx.receptQ = [fp] := by
    rw [RxPort.feed_cons, hx, hq', hq, List.nil_append]
  have hend : fp.frame fp.elen = IOHDLC_FLAG :=
    RxPort.feed_endsAtFlag (x :: rest) (by rw [RxState.EndsAtFlag, hp.queue]; exact nofun) fp
      (by rw [hqueue]; exact List.mem_singleton_self fp)
  refine ⟨out, by rw [hp.received, hqueue, List.filterMap_cons_some hout]; rfl, hoctets, ?_⟩
  intro i x hi
  have hbody : fp.frame.slice 0 (fp.elen + 1) = t.plainBody cfg ++ [IOHDLC_FLAG] := by
    rw [Buffer.slice_succ, Nat.zero_add, hend, ← hfp]
    rfl
  rw [recvFrame_noTransparency hnt hout]
  have hoctets' : Frame.octets { fp with elen := fp.elen + 1 } =
    t.plainBody cfg ++ [IOHDLC_FLAG] := hbody
  exact Frame.frame_eq_of_octets hoctets' hi

/-- A frame that is received as it was sent survives. -/
theorem Sending.survives_of_received (hnt : cfg.applyTransparency = false)
    (hfcs : cfg.fcs.fcsSize ≤ 4) (hfield : cfg.frameFormatSize ≤ t.fp.elen)
    (hopen : t.opening = true) (hp : p.Quiet)
    (stream : List (UInt8 × Frame)) (hwire : stream.map Prod.fst = t.wire cfg) {out : Frame}
    (hout : out ∈ IoHdlc.received cfg (p.feed cfg stream).rx)
    (hoctets : out.octets = t.plainContent cfg) : t.Survives cfg := by
  obtain ⟨fp, hmem, hframe, helen, hmin, h16, hfits⟩ := hp.of_mem hnt hfcs stream hout
  have hle := cfg.fff_le
  rw [← out.length_octets, hoctets, t.length_plainContent hfield] at helen
  rw [helen] at hmin h16 hfits
  -- An empty line, or one with nothing but the opening flag, delivers nothing.
  have hempty (h : t.wire cfg = [] ∨ t.wire cfg = [IOHDLC_FLAG]) : False := by
    rcases h with h | h
    · rw [h, List.map_eq_nil_iff] at hwire
      rw [hwire] at hmem
      replace hmem : fp ∈ p.rx.receptQ := hmem
      rw [hp.queue] at hmem
      cases hmem
    · rw [h] at hwire
      obtain ⟨x, rfl, hx⟩ := List.map_eq_singleton_iff.mp hwire
      rw [RxPort.feed_cons, hx] at hmem
      replace hmem : fp ∈ (p.octet cfg (some x.2) IOHDLC_FLAG).rx.receptQ := hmem
      rw [(hp.opening cfg x.2).2] at hmem
      cases hmem
  have hlimit : cfg.frameFormatSize ≠ 0 →
      t.fp.elen + cfg.fcs.fcsSize ≤ fffLimit cfg.frameFormatSize := by
    intro hf
    by_contra hlim
    exact hempty (.inl (t.wire_refused hnt hf (by omega) h16))
  have htotal : t.fp.elen + cfg.fcs.fcsSize < 65535 := by
    by_cases hf : cfg.frameFormatSize = 0
    · by_contra hge
      have hcut := t.wire_cut hnt hf (by omega)
      rw [hopen, if_pos rfl] at hcut
      exact hempty (.inr hcut)
    · have := hlimit hf
      have := fffLimit_le cfg.frameFormatSize
      omega
  refine ⟨hmin, hfits, htotal, hlimit, fun hf h7E => ?_, fun hf hflag => ?_⟩
  · -- The length octet would be the first octet of the queued frame.
    have hfirst := (hp.noFlagFirst.feed hf stream).queue fp hmem
    refine hfirst ?_
    rw [← hframe]
    refine Frame.frame_eq_of_octets hoctets ?_
    rw [Sending.plainContent, h7E, hf]
    rfl
  · have hwire' := hwire
    rw [t.wire_plain hnt hfield htotal hlimit, hopen, if_pos rfl, List.singleton_append] at hwire'
    obtain ⟨x, rest, rfl, hx, hrest⟩ := List.map_eq_cons_iff.mp hwire'
    have hlen := t.length_plainBody hfield
    obtain ⟨hat, hq⟩ := hp.opening cfg x.2
    obtain ⟨q, hq', hshort⟩ :=
      hat.feed_flagged hf hflag (by omega) (by omega) rest hrest
    rw [RxPort.feed_cons, hx, hq', hq, List.nil_append] at hmem
    have := hshort fp hmem
    omega

/-- On an idle line a frame is received as it was sent exactly when it survives. -/
theorem received_plain_iff (hnt : cfg.applyTransparency = false) (hfcs : cfg.fcs.fcsSize ≤ 4)
    (hfield : cfg.frameFormatSize ≤ t.fp.elen) (hopen : t.opening = true) (hp : p.Quiet)
    (stream : List (UInt8 × Frame)) (hwire : stream.map Prod.fst = t.wire cfg) :
    (∃ out, IoHdlc.received cfg (p.feed cfg stream).rx = [out] ∧
      out.octets = t.plainContent cfg) ↔ t.Survives cfg := by
  constructor
  · rintro ⟨out, hrecv, hoctets⟩
    exact Sending.survives_of_received hnt hfcs hfield hopen hp stream hwire
      (by rw [hrecv]; exact List.mem_singleton_self out) hoctets
  · intro h
    obtain ⟨out, hrecv, hoctets, -⟩ := h.received hnt hfield hopen hp stream hwire
    exact ⟨out, hrecv, hoctets⟩

end OneFrame

end IoHdlc
