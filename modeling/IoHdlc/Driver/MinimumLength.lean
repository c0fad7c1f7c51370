import IoHdlc.Driver.FlagFraming
import IoHdlc.Driver.LengthFraming
import IoHdlc.Model.Codec

/-!
How short a received frame can be.

`s_on_rx` compares the length with `HDLC_BASIC_MIN_L` before the transparency is
undone and before the check sequence is removed, and with the same constant for
every modulus and format field. What is left can be shorter than the header
that the core reads.
-/

namespace IoHdlc

/-- The format field, the address and the control field of the frame's class. -/
def headerLen (fr : Framing) (fp : Frame) : Nat :=
  fr.frameOffset + 1 + if isUFrm (fp.ctrl fr 0) then 1 else fr.ctrlSize

def LongEnough (fr : Framing) (fp : Frame) : Prop := headerLen fr fp ≤ fp.elen

instance (fr : Framing) (fp : Frame) : Decidable (LongEnough fr fp) :=
  inferInstanceAs (Decidable (_ ≤ _))

theorem not_longEnough {fr : Framing} {fp : Frame}
    (helen : fp.elen < fr.frameOffset + 1 + fr.ctrlSize)
    (hctrl : fr.frameOffset + 2 ≤ fp.elen → fp.ctrl fr 0 = 0) : ¬LongEnough fr fp := by
  rw [LongEnough, headerLen]
  by_cases h2 : fr.frameOffset + 2 ≤ fp.elen
  · rw [hctrl h2, if_neg (by decide)]
    omega
  · have := fr.ctrlSize_pos
    split <;> omega

/-! ### The queue -/

/-- The lengths of the frame being assembled and of the delivered ones. -/
structure RxState.Lengths (cfg : DrvConfig) (d : RxState) : Prop where
  frame : ∀ fp, d.inFrame = some fp → fp.elen ≤ 1 ∨ (fp.elen < 65536 ∧ fp.elen < cfg.framesize)
  queue : ∀ fp ∈ d.receptQ,
    HDLC_BASIC_MIN_L ≤ fp.elen ∧ fp.elen < 65536 ∧ fp.elen < cfg.framesize

section Queue

variable {cfg : DrvConfig}

theorem RxState.Leaves.lengths {d d' : RxState} (hd : d.Leaves cfg d') (h : d.Lengths cfg) :
    d'.Lengths cfg := by
  constructor
  · intro fp' hfp
    rcases hd.frame fp' hfp with hsame | h0 | ⟨-, h1⟩ | hfit
    · exact h.frame fp' hsame
    · exact .inl (by omega)
    · exact .inl (by omega)
    · exact .inr hfit
  · intro fp' hmem
    rcases hd.queue with ⟨hq, -⟩ | ⟨fp, hin, hmin, hq, -⟩
    · rw [hq] at hmem
      exact h.queue fp' hmem
    · rw [hq, List.mem_append, List.mem_singleton] at hmem
      rcases hmem with hmem | rfl
      · exact h.queue fp' hmem
      · rw [HDLC_BASIC_MIN_L] at hmin ⊢
        exact ⟨hmin, (h.frame fp' hin).resolve_left (by omega)⟩

theorem RxPort.store_lengths (p : RxPort) (b : UInt8) (h : p.rx.Lengths cfg) :
    (p.store b).rx.Lengths cfg := by
  constructor
  · intro fp' hfp
    obtain ⟨fp, hin, helen⟩ := p.store_frame b hfp
    rw [helen]
    exact h.frame fp hin
  · rw [(p.store_queue b).1]
    exact h.queue

/-- In every run the delivered frames have at least `HDLC_BASIC_MIN_L` octets
and stay below the frame size. -/
theorem run_lengths (events : List (RxEvent × Option Frame)) :
    (drvStart.run cfg events).rx.Lengths cfg := by
  have hstart : drvStart.rx.Lengths cfg := ⟨nofun, nofun⟩
  exact RxPort.run_inv (fun p b h => p.store_lengths b h) (fun _ _ hd h => hd.lengths h) events hstart

/-- What is received is what the checks leave of the queue. -/
theorem received_run (events : List (RxEvent × Option Frame)) :
    received cfg (drvStart.run cfg events).rx =
      (drvStart.run cfg events).rx.receptQ.filterMap (recvFrame cfg) :=
  drvRecvFrames_eq cfg _ (RxPort.run_signalled events (Nat.le_refl 0)) le_rfl

/-- Undoing the transparency at most halves a frame, then the check sequence
goes. -/
theorem recvFrame_elen {fp out : Frame} (h : recvFrame cfg fp = some out) (hlen : fp.elen < 65536) :
    ∃ n, out.elen = u16 (n + 65536 - cfg.fcs.fcsSize) ∧ n ≤ fp.elen ∧
      fp.elen ≤ (if cfg.applyTransparency then 2 else 1) * n := by
  simp only [recvFrame, Option.ite_none_right_eq_some, Option.some.injEq] at h
  obtain ⟨-, rfl⟩ := h
  cases cfg.applyTransparency with
  | true =>
    have hdec := ioHdlcFrameTransparentDecode_elen fp hlen
    exact ⟨_, rfl, hdec.1, hdec.2⟩
  | false => exact ⟨fp.elen, rfl, le_rfl, by simp⟩

/-- A configuration in which the header fits what the minimum leaves. -/
def HeaderFits (cfg : DrvConfig) (fr : Framing) : Prop :=
  if cfg.applyTransparency then fr.ctrlSize = 1 ∧ cfg.fcs.fcsSize = 0
  else cfg.frameFormatSize + 1 + fr.ctrlSize + cfg.fcs.fcsSize ≤ HDLC_BASIC_MIN_L

theorem longEnough_of_headerFits {fr : Framing} (hfr : fr.frameOffset = cfg.frameFormatSize)
    (hfits : cfg.framesize ≤ HDLC_BASIC_MIN_L ∨ HeaderFits cfg fr)
    (events : List (RxEvent × Option Frame)) (out : Frame)
    (hout : out ∈ received cfg (drvStart.run cfg events).rx) : LongEnough fr out := by
  rw [received_run] at hout
  obtain ⟨fp, hmem, hrecv⟩ := List.mem_filterMap.mp hout
  obtain ⟨hmin, h16, hsize⟩ := (run_lengths events).queue fp hmem
  obtain ⟨n, helen, hle, hhalf⟩ := recvFrame_elen hrecv h16
  replace hfits : HeaderFits cfg fr := hfits.resolve_left (by omega)
  -- The smallest payload still has the larger of the two headers.
  have hpay : cfg.fcs.fcsSize ≤ n ∧ fr.frameOffset + 1 + fr.ctrlSize ≤ n - cfg.fcs.fcsSize := by
    rw [HDLC_BASIC_MIN_L] at hmin
    rw [HeaderFits, HDLC_BASIC_MIN_L] at hfits
    cases ht : cfg.applyTransparency with
    | true =>
      simp only [ht, if_true] at hfits hhalf
      have := cfg.exclusive ht
      omega
    | false =>
      simp only [ht, Bool.false_eq_true, if_false] at hfits hhalf
      omega
  have hu : u16 (n + 65536 - cfg.fcs.fcsSize) = n - cfg.fcs.fcsSize := by
    rw [show n + 65536 - cfg.fcs.fcsSize = (n - cfg.fcs.fcsSize) + 65536 by omega, u16,
      Nat.add_mod_right, Nat.mod_eq_of_lt (by omega)]
  have hheader : headerLen fr out ≤ fr.frameOffset + 1 + fr.ctrlSize := by
    have := fr.ctrlSize_pos
    rw [headerLen]
    split <;> omega
  rw [LongEnough, helen, hu]
  omega

end Queue

/-! ### Short frames -/

section Short

variable {cfg : DrvConfig} {fr : Framing}

/-- On the line `body` is one frame, and `drv_recv_frame` makes of it a frame
that ends before its control field does. -/
structure ShortBody (cfg : DrvConfig) (fr : Framing) (body : List UInt8) : Prop where
  collect : ∀ (p : RxPort) (stream : List (UInt8 × Frame)),
    stream.map Prod.fst = body ++ [IOHDLC_FLAG] → p.At [] →
      (p.feed cfg stream).At [] ∧ ∃ fp : Frame, fp.octets = body ∧
        (p.feed cfg stream).rx.receptQ = p.rx.receptQ ++ [fp] ∧
        (p.feed cfg stream).rx.receptSem = p.rx.receptSem + 1
  accept : ∀ fp : Frame, fp.octets = body →
    ∃ out, recvFrame cfg fp = some out ∧ ¬LongEnough fr out

/-- Between two flags such a body is received. -/
theorem ShortBody.exists_received {body : List UInt8} (h : ShortBody cfg fr body) :
    ∃ events, ∃ fp ∈ received cfg (drvStart.run cfg events).rx, ¬LongEnough fr fp := by
  have hat : (drvStart.feed cfg [(IOHDLC_FLAG, default)]).At [] := At_open rfl rfl
  obtain ⟨-, fp, hfp, hq, -⟩ := h.collect _ (streamOf (body ++ [IOHDLC_FLAG])) (by simp) hat
  obtain ⟨out, hout, hshort⟩ := h.accept fp hfp
  rw [← RxPort.feed_append, RxPort.feed_eq_run] at hq
  generalize List.map _ _ = events at hq
  refine ⟨events, out, ?_, hshort⟩
  rw [received_run, hq]
  exact List.mem_filterMap.mpr ⟨fp, by simp, hout⟩

/-- With a format field: four octets in all, of which the check sequence is
removed again. -/
theorem shortBody_type (hf : cfg.frameFormatSize = 1 ∨ cfg.frameFormatSize = 2)
    (hfr : fr.frameOffset = cfg.frameFormatSize) (hfcs : cfg.fcs.fcsSize ≤ 2)
    (hsize : HDLC_BASIC_MIN_L < cfg.framesize)
    (hover : HDLC_BASIC_MIN_L < cfg.frameFormatSize + 1 + fr.ctrlSize + cfg.fcs.fcsSize) :
    ∃ body, ShortBody cfg fr body := by
  rw [HDLC_BASIC_MIN_L] at hsize hover
  obtain ⟨t, ht⟩ : ∃ t : Sending, t =
      { fp := { (default : Frame) with elen := 4 - cfg.fcs.fcsSize }, nfp := default,
        opening := false } := ⟨_, rfl⟩
  have helen : t.fp.elen = 4 - cfg.fcs.fcsSize := by rw [ht]
  have hzero (i : Nat) : t.fp.frame i = 0 := by rw [ht]; rfl
  have hlimit : 4 ≤ fffLimit cfg.frameFormatSize := by
    rcases hf with hf | hf <;> rw [hf] <;> decide
  have hframed : t.Framed cfg (t.body cfg) (t.content cfg) := by
    refine t.framed_body hf ⟨by omega, by omega⟩ ⟨?_, by omega, by omega⟩
    rw [HDLC_BASIC_MIN_L]
    omega
  refine ⟨t.body cfg, hframed.collect, fun fp hfp => ?_⟩
  obtain ⟨out, hout, hoctets⟩ := hframed.accept fp hfp
  have hfield := length_fffOctets hf (t.fp.elen + cfg.fcs.fcsSize)
  have hlen : out.elen = t.fp.elen := by
    rw [← Frame.length_octets, hoctets, Sending.content, List.length_append, List.length_drop,
      Frame.length_octets, hfield]
    omega
  refine ⟨out, hout, not_longEnough (by omega) fun h2 => ?_⟩
  refine Frame.frame_eq_of_octets hoctets ?_
  rw [Sending.content, List.getElem?_append_right (by omega), hfield, hfr,
    List.getElem?_eq_getElem (by simp; omega), List.getElem_drop]
  exact congrArg some ((Buffer.getElem_slice ..).trans (hzero _))

/-- Without one, an I frame in modulus 128 that lacks its second control octet. -/
theorem shortBody_plain (hnt : cfg.applyTransparency = false) (hf : cfg.frameFormatSize = 0)
    (hfr : fr.frameOffset = cfg.frameFormatSize) (hfcs : cfg.fcs = fcsSw)
    (hsize : HDLC_BASIC_MIN_L < cfg.framesize)
    (hctrl : fr.ctrlSize = 2) : ∃ body, ShortBody cfg fr body := by
  refine ⟨fcsSw.append [0, 0], fun p stream hstream h => ?_, fun fp hfp => ?_⟩
  · have hlen : (fcsSw.append [0, 0]).length = HDLC_BASIC_MIN_L := by decide
    exact h.feed_image hf (by decide +kernel) hlen.ge (by rwa [hlen]) (by decide) stream hstream
  · have helen : fp.elen = 4 := by rw [← Frame.length_octets, hfp]; rfl
    have hcheck : cfg.fcs.rxCheckFn fp.octets = true := by
      rw [hfcs, hfp]
      exact fcsSw.check_compute _
    have h1 : fp.frame 1 = 0 := Frame.frame_eq_of_octets hfp (i := 1) rfl
    refine ⟨{ fp with elen := 2 }, ?_, not_longEnough ?_ fun _ => ?_⟩
    · have hsw : cfg.fcs.fcsSize = 2 := by rw [hfcs]; rfl
      simp [recvFrame, hnt, hf, hcheck, helen, hsw, u16]
    · rw [hfr, hf, hctrl]
      exact Nat.lt_succ_self 2
    · rw [Frame.ctrl, hfr, hf]
      exact h1

/-- With the transparency, two escaped octets: too few for modulus 128, and
nothing at all once they are taken for the check sequence. -/
theorem shortBody_transparent (ht : cfg.applyTransparency = true)
    (hfr : fr.frameOffset = cfg.frameFormatSize) (hfcs : cfg.fcs = fcsNone ∨ cfg.fcs = fcsSw)
    (hsize : HDLC_BASIC_MIN_L < cfg.framesize)
    (hfits : ¬(fr.ctrlSize = 1 ∧ cfg.fcs.fcsSize = 0)) : ∃ body, ShortBody cfg fr body := by
  have hf := cfg.exclusive ht
  refine ⟨[0x7D, 0x20, 0x7D, 0x20], fun p stream hstream h => ?_, fun fp hfp => ?_⟩
  · have hlen : ([0x7D, 0x20, 0x7D, 0x20] : List UInt8).length = HDLC_BASIC_MIN_L := rfl
    exact h.feed_image hf (by decide) hlen.ge (by rwa [hlen]) (by decide) stream hstream
  · have helen : fp.elen = 4 := by rw [← Frame.length_octets, hfp]; rfl
    obtain ⟨fp', hfp'⟩ : ∃ fp', fp' = ioHdlcFrameTransparentDecode fp := ⟨_, rfl⟩
    have hslice : fp.frame.slice 0 4 = [0x7D, 0x20, 0x7D, 0x20] := by
      rw [← helen]
      exact hfp
    have hunstuff (tail : UInt8) : transparency.unstuff tail [0x7D, 0x20, 0x7D, 0x20] = [0, 0] := rfl
    have hdec : fp'.frame = fp.frame.store 0 [0, 0] ∧ fp'.elen = 2 := by
      rw [hfp', ioHdlcFrameTransparentDecode, helen, transparentDecode_eq _ _ _ _ le_rfl, hslice,
        hunstuff]
      exact ⟨rfl, rfl⟩
    have hoctets : fp'.octets = [0, 0] := by
      rw [Frame.octets, hdec.1, hdec.2]
      exact Buffer.slice_store fp.frame 0 [0, 0]
    have h1 : fp'.frame 1 = 0 := Frame.frame_eq_of_octets hoctets (i := 1) rfl
    have hcheck : ¬cfg.fcs.fcsSize = 0 → cfg.fcs.rxCheckFn fp'.octets = true := by
      rw [hoctets]
      rcases hfcs with hfcs | hfcs <;> rw [hfcs] <;> decide +kernel
    refine ⟨{ fp' with elen := u16 (fp'.elen + 65536 - cfg.fcs.fcsSize) }, ?_, ?_⟩
    · simp only [recvFrame, ht, if_true, ← hfp', hf]
      simpa using hcheck
    · refine not_longEnough ?_ fun _ => ?_
      · have hpos := fr.ctrlSize_pos
        rw [hfr, hf, hdec.2]
        rcases hfcs with hfcs | hfcs
        · have hnone : cfg.fcs.fcsSize = 0 := by rw [hfcs]; rfl
          rw [hnone]
          simp only [u16]
          omega
        · have hsw : cfg.fcs.fcsSize = 2 := by rw [hfcs]; rfl
          rw [hsw]
          simp only [u16]
          omega
      · rw [Frame.ctrl, hfr, hf]
        exact h1

theorem exists_shortBody (hfr : fr.frameOffset = cfg.frameFormatSize)
    (hfcs : cfg.fcs = fcsNone ∨ cfg.fcs = fcsSw) (hsize : HDLC_BASIC_MIN_L < cfg.framesize)
    (hfits : ¬HeaderFits cfg fr) : ∃ body, ShortBody cfg fr body := by
  have hle : cfg.fcs.fcsSize ≤ 2 := by
    rcases hfcs with hfcs | hfcs <;> rw [hfcs] <;> decide
  rw [HeaderFits] at hfits
  cases ht : cfg.applyTransparency with
  | true =>
    rw [ht, if_pos rfl] at hfits
    exact shortBody_transparent ht hfr hfcs hsize hfits
  | false =>
    rw [ht, if_neg (by decide), Nat.not_le] at hfits
    have hfff := cfg.fff_le
    by_cases hf : cfg.frameFormatSize = 0
    · have hctrl := fr.ctrlSize_le
      rw [HDLC_BASIC_MIN_L, hf] at hfits
      have hsw : cfg.fcs = fcsSw := hfcs.resolve_left fun hnone => by
        rw [hnone] at hfits
        simp only [fcsNone] at hfits
        omega
      exact shortBody_plain ht hf hfr hsw hsize (by omega)
    · exact shortBody_type (by omega) hfr hle hsize hfits

end Short

/-- Every frame received in every run has its header exactly when the header
fits what the minimum leaves, or the frame size keeps every frame out. -/
theorem received_longEnough_iff (cfg : DrvConfig) (fr : Framing)
    (hfr : fr.frameOffset = cfg.frameFormatSize) (hfcs : cfg.fcs = fcsNone ∨ cfg.fcs = fcsSw) :
    (∀ events, ∀ fp ∈ received cfg (drvStart.run cfg events).rx, LongEnough fr fp) ↔
      cfg.framesize ≤ HDLC_BASIC_MIN_L ∨ HeaderFits cfg fr := by
  constructor
  · intro h
    by_contra hnot
    rw [not_or, Nat.not_le] at hnot
    obtain ⟨body, hbody⟩ := exists_shortBody hfr hfcs hnot.1 hnot.2
    obtain ⟨events, fp, hmem, hshort⟩ := hbody.exists_received
    exact hshort (h events fp hmem)
  · exact fun hfits events out hout => longEnough_of_headerFits hfr hfits events out hout

/-- Modulus 8 without a format field and with the check sequence. -/
theorem received_longEnough_iff_basic :
    HeaderFits (.plain fcsSw 0 256 (by decide)) (.mod8 0 (by decide)) ∧
      ((∀ events, ∀ fp ∈ received (.plain fcsSw 0 256 (by decide))
          (drvStart.run (.plain fcsSw 0 256 (by decide)) events).rx,
            LongEnough (.mod8 0 (by decide)) fp) ↔
        256 ≤ HDLC_BASIC_MIN_L ∨
          HeaderFits (.plain fcsSw 0 256 (by decide)) (.mod8 0 (by decide))) :=
  ⟨Nat.le_refl 4, received_longEnough_iff (.plain fcsSw 0 256 (by decide)) (.mod8 0 (by decide))
    rfl (.inr rfl)⟩

/-- A TYPE 0 field, an address and the check sequence: with the check sequence
removed there is no control field left. -/
theorem received_without_control :
    ¬∀ fp ∈ received (.plain fcsSw 1 256 (by decide))
      (drvStart.run (.plain fcsSw 1 256 (by decide))
        ([0x7E, 0x04, 0x01, 0xAE, 0x79, 0x7E].map fun b => (.octet b, some default))).rx,
      LongEnough (.mod8 1 (by decide)) fp := by
  decide +kernel

end IoHdlc
