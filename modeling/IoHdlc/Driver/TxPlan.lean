import IoHdlc.Driver.Transmit

/-!
The transmit plan of `s_build_tx_plan`: the image of a frame as a prefix, the
payload where it lies and a suffix, with the part that the check sequence
covers described by segment indices.

The octets of a segment are those its pointer and length denote when the plan
is handed over.
-/

namespace IoHdlc

def IOHDLC_TXPLAN_SEG_NONE : Nat := 0xFF

structure TxPlanOpts where
  prependOpeningFlag : Bool

/-- `eff_opts`. -/
def effOpts (opts : Option TxPlanOpts) : TxPlanOpts := opts.getD { prependOpeningFlag := false }

/-- `iohdlc_tx_fcs_desc_t`. -/
structure TxFcsDesc where
  size : Nat
  beginOff : Nat
  endExclusive : Nat
  beginSeg : Nat
  endSeg : Nat
  emitted : Bool
  deriving DecidableEq, Repr

/-- `iohdlc_tx_plan_t`. -/
structure TxPlan where
  prefixOctets : List UInt8
  suffixOctets : List UInt8
  segv : List (List UInt8)
  fcs : TxFcsDesc
  wireLen : Nat
  deriving DecidableEq, Repr

namespace TxPlan

/-- `segc`. -/
def segc (plan : TxPlan) : Nat := plan.segv.length

/-- The octets from `segv[begin_seg][begin_off]` to
`segv[end_seg][end_exclusive - 1]`, whole segments in between. -/
def coverage (plan : TxPlan) : List UInt8 :=
  let d := plan.fcs
  if d.size = 0 then []
  else if d.beginSeg = d.endSeg then
    ((plan.segv.getD d.beginSeg []).take d.endExclusive).drop d.beginOff
  else
    (plan.segv.getD d.beginSeg []).drop d.beginOff ++
      ((plan.segv.take d.endSeg).drop (d.beginSeg + 1)).flatten ++
      (plan.segv.getD d.endSeg []).take d.endExclusive

/-- What a backend sends for the plan: its segments in order and, when the plan
does not hold it, the check sequence of the coverage before the last one. -/
def wire (plan : TxPlan) (fcs : FcsPolicy) : List UInt8 :=
  if plan.fcs.size = 0 ∨ plan.fcs.emitted = true then plan.segv.flatten
  else (plan.segv.take (plan.segc - 1)).flatten ++ fcs.txComputeFn plan.coverage ++
    (plan.segv.drop (plan.segc - 1)).flatten

end TxPlan

/-- `s_build_tx_plan` from the filled prefix on: the check sequence, the
suffix and the segments. `body` is what `fp->frame[info_off]` denotes. -/
def finishTxPlan (fcs : FcsPolicy) (txDeferToPort : Bool) (prefixOctets : List UInt8)
    (prefixCovOff : Nat) (body : List UInt8) : TxPlan :=
  let prefixLen := prefixOctets.length
  let bodyLen := body.length
  let prefixCovLen := if prefixLen > prefixCovOff then prefixLen - prefixCovOff else 0
  -- the segments handed to the compute hook
  let fcsSegv :=
    (if prefixCovLen > 0 then [(prefixOctets.drop prefixCovOff).take prefixCovLen] else []) ++
      (if bodyLen > 0 then [body] else [])
  let emitted := decide (fcs.fcsSize ≠ 0) && !txDeferToPort
  let suffixOctets := (if emitted then fcs.txComputeFn fcsSegv.flatten else []) ++ [IOHDLC_FLAG]
  let prefixSegv := if prefixLen > 0 then [prefixOctets] else []
  let bodySegv := if bodyLen > 0 then [body] else []
  let prefixSegIdx := if prefixLen > 0 then 0 else IOHDLC_TXPLAN_SEG_NONE
  let bodySegIdx := if bodyLen > 0 then prefixSegv.length else IOHDLC_TXPLAN_SEG_NONE
  let desc : TxFcsDesc :=
    if fcs.fcsSize ≠ 0 then
      { size := fcs.fcsSize
        beginOff := if prefixCovLen > 0 then prefixCovOff else 0
        endExclusive :=
          if bodyLen > 0 then bodyLen else if prefixCovLen > 0 then prefixLen else bodyLen
        beginSeg := if prefixCovLen > 0 then prefixSegIdx else bodySegIdx
        endSeg :=
          if bodyLen > 0 then bodySegIdx else if prefixCovLen > 0 then prefixSegIdx
          else IOHDLC_TXPLAN_SEG_NONE
        emitted := emitted }
    else
      { size := 0, beginOff := 0, endExclusive := 0, beginSeg := IOHDLC_TXPLAN_SEG_NONE,
        endSeg := IOHDLC_TXPLAN_SEG_NONE, emitted := false }
  { prefixOctets := prefixOctets
    suffixOctets := suffixOctets
    segv := prefixSegv ++ bodySegv ++ [suffixOctets]
    fcs := desc
    wireLen := prefixLen + bodyLen + suffixOctets.length +
      (if desc.size > 0 ∧ desc.emitted = false then desc.size else 0) }

/-- `s_build_tx_plan`, with `tx_defer_to_port` as an argument. -/
def sBuildTxPlan (cfg : DrvConfig) (txDeferToPort : Bool) (fp : Frame)
    (opts : Option TxPlanOpts) : Except Errno TxPlan :=
  if cfg.applyTransparency then .error .ENOTSUP
  else
    let ctrlLen := fp.txCtrlLen
    if ctrlLen > 2 then .error .ENOTSUP
    else
      let infoOff := cfg.frameFormatSize + 1 + ctrlLen
      let bodyLen := fp.elen - infoOff
      let hdlcLen : Nat := 1 + ctrlLen + bodyLen
      match if cfg.frameFormatSize ≠ 0 then sEmitFff cfg hdlcLen else .ok [] with
      | .error e => .error e
      | .ok fff =>
        let prefixOctets := (if (effOpts opts).prependOpeningFlag then [IOHDLC_FLAG] else []) ++ fff ++
          [fp.frame cfg.frameFormatSize] ++ fp.frame.slice (cfg.frameFormatSize + 1) ctrlLen
        .ok (finishTxPlan cfg.fcs txDeferToPort prefixOctets
          (if (effOpts opts).prependOpeningFlag then 1 else 0) (fp.frame.slice infoOff bodyLen))

/-! ### What the plan denotes

The prefix is `pre`, which the check sequence leaves out, and a header behind
it that is not empty.
-/

section FinishTxPlan

variable (fcs : FcsPolicy) (defer : Bool) (pre header body : List UInt8)

theorem FcsPolicy.txComputeFn_eq_nil (h : fcs.fcsSize = 0) (buf : List UInt8) :
    fcs.txComputeFn buf = [] :=
  List.eq_nil_of_length_eq_zero (by rw [fcs.length_compute, h])

theorem suffixOctets_finishTxPlan :
    (finishTxPlan fcs defer (pre ++ header) pre.length body).suffixOctets =
      (if defer then [] else fcs.txComputeFn (header ++ body)) ++ [IOHDLC_FLAG] := by
  have hif : (finishTxPlan fcs defer (pre ++ header) pre.length body).suffixOctets =
      (if decide (fcs.fcsSize ≠ 0) && !defer then fcs.txComputeFn (header ++ body) else []) ++
        [IOHDLC_FLAG] := by
    cases header <;> cases body <;> simp [finishTxPlan]
  rw [hif]
  by_cases hz : fcs.fcsSize = 0
  · simp [hz, fcs.txComputeFn_eq_nil]
  · cases defer <;> simp [hz]

theorem segv_finishTxPlan (hh : header ≠ []) :
    (finishTxPlan fcs defer (pre ++ header) pre.length body).segv =
      ((pre ++ header) :: if body = [] then [] else [body]) ++
        [(if defer then [] else fcs.txComputeFn (header ++ body)) ++ [IOHDLC_FLAG]] := by
  have hpos : 0 < header.length := List.length_pos_iff.2 hh
  rw [← suffixOctets_finishTxPlan fcs defer pre header body]
  cases body <;> simp [finishTxPlan, hpos]

/-- The declared coverage is header and payload. -/
theorem coverage_finishTxPlan (hh : header ≠ []) :
    (finishTxPlan fcs defer (pre ++ header) pre.length body).coverage =
      if fcs.fcsSize = 0 then [] else header ++ body := by
  have hpos : 0 < header.length := List.length_pos_iff.2 hh
  by_cases hz : fcs.fcsSize = 0
  · simp [finishTxPlan, TxPlan.coverage, hz]
  · have htake : ((pre ++ header).take (pre.length + header.length)).drop pre.length = header := by
      rw [← List.length_append, List.take_length, List.drop_left]
    cases body <;> simp [finishTxPlan, TxPlan.coverage, hz, hpos, htake]

theorem wire_finishTxPlan (hh : header ≠ []) :
    (finishTxPlan fcs defer (pre ++ header) pre.length body).wire fcs =
      pre ++ fcs.append (header ++ body) ++ [IOHDLC_FLAG] := by
  have hbody : (if body = [] then [] else [body]).flatten = body := by cases body <;> simp
  by_cases hz : fcs.fcsSize = 0
  · have hsize : (finishTxPlan fcs defer (pre ++ header) pre.length body).fcs.size = 0 := by
      simp [finishTxPlan, hz]
    rw [TxPlan.wire, if_pos (Or.inl hsize), segv_finishTxPlan fcs defer pre header body hh]
    simp [FcsPolicy.append, fcs.txComputeFn_eq_nil hz, hbody]
  · have hsize : (finishTxPlan fcs defer (pre ++ header) pre.length body).fcs.size ≠ 0 := by
      simp [finishTxPlan, hz]
    have hemitted : (finishTxPlan fcs defer (pre ++ header) pre.length body).fcs.emitted =
        !defer := by
      simp [finishTxPlan, hz]
    cases defer with
    | false =>
      rw [TxPlan.wire, if_pos (Or.inr (by rw [hemitted]; rfl)), segv_finishTxPlan fcs _ pre header body hh]
      simp [FcsPolicy.append, hbody]
    | true =>
      rw [TxPlan.wire, if_neg (not_or.2 ⟨hsize, by simp [hemitted]⟩), TxPlan.segc,
        coverage_finishTxPlan fcs _ pre header body hh, if_neg hz,
        segv_finishTxPlan fcs _ pre header body hh]
      simp [FcsPolicy.append, hbody]

theorem wireLen_finishTxPlan :
    (finishTxPlan fcs defer (pre ++ header) pre.length body).wireLen =
      pre.length + (fcs.append (header ++ body)).length + 1 := by
  have hsuffix := suffixOctets_finishTxPlan fcs defer pre header body
  have hlen : (finishTxPlan fcs defer (pre ++ header) pre.length body).wireLen =
      (pre ++ header).length + body.length +
        (finishTxPlan fcs defer (pre ++ header) pre.length body).suffixOctets.length +
        (if defer then fcs.fcsSize else 0) := by
    by_cases hz : fcs.fcsSize = 0
    · simp [finishTxPlan, hz]
    · cases defer <;> simp [finishTxPlan, hz, Nat.pos_iff_ne_zero]
  rw [hlen, hsuffix]
  cases defer <;> simp [fcs.length_compute] <;> omega

end FinishTxPlan

/-! ### Both images of a frame -/

theorem length_sEmitFff {cfg : DrvConfig} {payloadLen : Int} {fff : List UInt8}
    (h : sEmitFff cfg payloadLen = .ok fff) : fff.length = cfg.frameFormatSize := by
  have hle := cfg.fff_le
  simp only [sEmitFff] at h
  split_ifs at h <;> simp only [Except.ok.injEq] at h <;> subst h <;>
    simp only [List.length_cons, List.length_nil] <;> omega

/-- The octets that the check sequence of a contiguous image covers, header
first. -/
theorem slice_store_header {cfg : DrvConfig} {fp : Frame} {fff : List UInt8}
    (hlen : fff.length = cfg.frameFormatSize) (he : cfg.frameFormatSize + 1 + fp.txCtrlLen ≤ fp.elen) :
    (fp.frame.store 0 fff).slice 0 fp.elen =
      (fff ++ [fp.frame cfg.frameFormatSize] ++ fp.frame.slice (cfg.frameFormatSize + 1) fp.txCtrlLen) ++
        fp.frame.slice (cfg.frameFormatSize + 1 + fp.txCtrlLen)
          (fp.elen - (cfg.frameFormatSize + 1 + fp.txCtrlLen)) := by
  have hrest (off len : Nat) (h : cfg.frameFormatSize ≤ off) :
      (fp.frame.store 0 fff).slice off len = fp.frame.slice off len :=
    Buffer.slice_congr fun i hi _ => Buffer.store_ge _ (by omega)
  have hfirst : (fp.frame.store 0 fff).slice 0 cfg.frameFormatSize = fff := by
    rw [← hlen, Buffer.slice_store]
  obtain ⟨n, hn⟩ := Nat.exists_eq_add_of_le he
  rw [hn, Buffer.slice_add, Buffer.slice_add, Buffer.slice_add, hfirst, hrest _ _ (by omega),
    hrest _ _ (by omega), hrest _ _ (by omega), Nat.add_sub_cancel_left]
  simp [Buffer.slice]

/-- Two fallible encoders fail alike or give related results. -/
def SameResult (R : TxPlan → Frame → Prop) : Except Errno TxPlan → Except Errno Frame → Prop
  | .error e, .error e' => e = e'
  | .ok plan, .ok out => R plan out
  | _, _ => False

/-- The plan declares the length it has and covers what the contiguous image
`out` of `fp` feeds to its check sequence. -/
structure TxPlan.Declares (cfg : DrvConfig) (fp : Frame) (plan : TxPlan) (out : Frame) : Prop where
  wireLen : plan.wireLen = (plan.wire cfg.fcs).length
  coverage : plan.coverage = if cfg.fcs.fcsSize = 0 then [] else out.frame.slice 0 fp.elen

/-- What a backend sends from the plan and from the contiguous image. -/
def TxPlan.SameImage (cfg : DrvConfig) (opening : Bool) (plan : TxPlan) (out : Frame) : Prop :=
  plan.wire cfg.fcs = wireImage (sTryStartNextTx opening out)

/-- Without transparency both encoders ask `s_emit_fff` for the same length and
fail as it does; otherwise the plan is header and payload, and the contiguous
image is what follows the prefix of the plan, before `tx_len` cuts it. -/
theorem sameResult_sBuildTxPlan {cfg : DrvConfig} (hnt : cfg.applyTransparency = false)
    (defer : Bool) {fp : Frame} (opts : Option TxPlanOpts) (hctrl : fp.txCtrlLen = 1 ∨ fp.txCtrlLen = 2)
    (he : cfg.frameFormatSize + 1 + fp.txCtrlLen ≤ fp.elen) :
    SameResult
      (fun plan out => plan.Declares cfg fp out ∧
        out.txLen = u16 (fp.elen + cfg.fcs.fcsSize + 1) ∧
        plan.wire cfg.fcs = (if (effOpts opts).prependOpeningFlag then [IOHDLC_FLAG] else []) ++
          out.frame.slice 0 (fp.elen + cfg.fcs.fcsSize + 1))
      (sBuildTxPlan cfg defer fp opts)
      (sMaterializeTxFrame cfg fp) := by
  have hlen : ((1 + fp.txCtrlLen + (fp.elen - (cfg.frameFormatSize + 1 + fp.txCtrlLen)) : Nat) : Int) =
      fp.elen - cfg.frameFormatSize := by omega
  have hemit : (if cfg.frameFormatSize ≠ 0 then
      sEmitFff cfg (fp.elen - cfg.frameFormatSize) else .ok []) =
      sEmitFff cfg (fp.elen - cfg.frameFormatSize) := by
    split_ifs with h
    · rfl
    · rw [sEmitFff, if_neg (by omega), if_neg (by omega)]
  have hctrl2 : ¬2 < fp.txCtrlLen := by omega
  simp only [sBuildTxPlan, hnt, Bool.false_eq_true, if_false, gt_iff_lt, if_neg hctrl2, hlen, hemit,
    sMaterializeTxFrame]
  generalize (effOpts opts).prependOpeningFlag = opening
  cases hfff : sEmitFff cfg (fp.elen - cfg.frameFormatSize) with
  | error e => rfl
  | ok fff =>
    have hcov := slice_store_header (length_sEmitFff hfff) he
    generalize hheader : fff ++ [fp.frame cfg.frameFormatSize] ++
      fp.frame.slice (cfg.frameFormatSize + 1) fp.txCtrlLen = header at hcov
    generalize hbody : fp.frame.slice (cfg.frameFormatSize + 1 + fp.txCtrlLen)
      (fp.elen - (cfg.frameFormatSize + 1 + fp.txCtrlLen)) = body at hcov
    have hh : header ≠ [] := by simp [← hheader]
    have hpre : (if opening then 1 else 0) =
        (if opening then [IOHDLC_FLAG] else []).length := by cases opening <;> rfl
    have hplan := wire_finishTxPlan cfg.fcs defer (if opening then [IOHDLC_FLAG] else []) header body hh
    have himage : ((withFcs cfg fff fp).store (fp.elen + cfg.fcs.fcsSize) [IOHDLC_FLAG]).slice 0
        (fp.elen + cfg.fcs.fcsSize + 1) = cfg.fcs.append (header ++ body) ++ [IOHDLC_FLAG] := by
      have hend := Buffer.slice_store_end (withFcs cfg fff fp) (fp.elen + cfg.fcs.fcsSize) [IOHDLC_FLAG]
      rw [List.length_singleton, slice_withFcs, hcov] at hend
      exact hend
    have hfed : ((withFcs cfg fff fp).store (fp.elen + cfg.fcs.fcsSize) [IOHDLC_FLAG]).slice 0 fp.elen =
        header ++ body := by
      rw [Buffer.slice_store_before _ _ _ _ (by omega), withFcs,
        Buffer.slice_store_before _ _ _ _ le_rfl, hcov]
    have hlead : (if opening then [IOHDLC_FLAG] else []) ++ fff ++ [fp.frame cfg.frameFormatSize] ++
        fp.frame.slice (cfg.frameFormatSize + 1) fp.txCtrlLen =
        (if opening then [IOHDLC_FLAG] else []) ++ header := by simp [← hheader]
    simp only [hlead, hpre]
    refine ⟨⟨?_, ?_⟩, rfl, ?_⟩
    · rw [hplan, wireLen_finishTxPlan, List.length_append, List.length_append, List.length_singleton]
    · rw [coverage_finishTxPlan _ _ _ _ _ hh]
      exact congrArg _ hfed.symm
    · rw [hplan, List.append_assoc, ← himage]

theorem SameResult.imp {R S : TxPlan → Frame → Prop} {a : Except Errno TxPlan}
    {b : Except Errno Frame} (h : SameResult R a b) (hRS : ∀ plan out, R plan out → S plan out) :
    SameResult S a b := by
  cases a <;> cases b
  · exact h
  · exact h
  · exact h
  · exact hRS _ _ h

/-- Segmented and contiguous images agree: same error codes, and a plan that
declares its length and the coverage, whose octets are those of the contiguous
image whenever its length fits `tx_len`. -/
theorem txPlan_agrees_with_image (cfg : DrvConfig) (hnt : cfg.applyTransparency = false)
    (defer : Bool) (fp : Frame) (opts : Option TxPlanOpts) (hctrl : fp.txCtrlLen = 1 ∨ fp.txCtrlLen = 2)
    (he : cfg.frameFormatSize + 1 + fp.txCtrlLen ≤ fp.elen) :
    SameResult
      (fun plan out => plan.Declares cfg fp out ∧
        (fp.elen + cfg.fcs.fcsSize + 1 < 65536 → plan.SameImage cfg (effOpts opts).prependOpeningFlag out))
      (sBuildTxPlan cfg defer fp opts)
      (sMaterializeTxFrame cfg fp) := by
  refine (sameResult_sBuildTxPlan hnt defer opts hctrl he).imp ?_
  rintro plan out ⟨hdecl, htx, hwire⟩
  refine ⟨hdecl, fun hfit => ?_⟩
  rw [TxPlan.SameImage, wireImage_sTryStartNextTx, htx, u16_of_lt hfit, hwire]

/-- A frame of 65535 octets, whose image has one octet more than `tx_len`
counts. -/
def longestFrame : Frame :=
  { frame := fun _ => 0, elen := 65535, txLen := 0, txCtrlLen := 1, openingflag := 0 }

/-- With a check sequence of two octets, no format field and an opening flag. -/
theorem txPlan_agrees_with_image_short :
    SameResult
      (fun plan out => plan.Declares (.plain fcsSw 0 128 (by decide))
          { longestFrame with elen := 3 } out ∧
        (3 + 2 + 1 < 65536 → plan.SameImage (.plain fcsSw 0 128 (by decide)) true out))
      (sBuildTxPlan (.plain fcsSw 0 128 (by decide)) true { longestFrame with elen := 3 }
        (some { prependOpeningFlag := true }))
      (sMaterializeTxFrame (.plain fcsSw 0 128 (by decide)) { longestFrame with elen := 3 }) :=
  txPlan_agrees_with_image (.plain fcsSw 0 128 (by decide)) rfl true { longestFrame with elen := 3 }
    (some { prependOpeningFlag := true }) (Or.inl rfl) (by decide)

/-- The 16 bits of `tx_len` make the contiguous image of the longest frame
empty, while its plan has 65536 octets. -/
theorem txPlan_agrees_with_image_fails :
    ¬∀ (cfg : DrvConfig) (defer : Bool) (fp : Frame) (opts : Option TxPlanOpts),
      cfg.applyTransparency = false → (fp.txCtrlLen = 1 ∨ fp.txCtrlLen = 2) →
      cfg.frameFormatSize + 1 + fp.txCtrlLen ≤ fp.elen →
      SameResult
        (fun plan out => plan.Declares cfg fp out ∧
          plan.SameImage cfg (effOpts opts).prependOpeningFlag out)
        (sBuildTxPlan cfg defer fp opts) (sMaterializeTxFrame cfg fp) := by
  intro h
  have hres := h (.plain fcsNone 0 70000 (by decide)) false longestFrame none rfl (Or.inl rfl)
    (by decide)
  obtain ⟨plan, out, hplan, hout⟩ : ∃ plan out,
      sBuildTxPlan (.plain fcsNone 0 70000 (by decide)) false longestFrame none = .ok plan ∧
      sMaterializeTxFrame (.plain fcsNone 0 70000 (by decide)) longestFrame = .ok out :=
    ⟨_, _, rfl, rfl⟩
  have hstep := @sameResult_sBuildTxPlan (.plain fcsNone 0 70000 (by decide)) rfl false
    longestFrame none (Or.inl rfl) (by decide)
  rw [hplan, hout] at hres hstep
  obtain ⟨-, htx, hwire⟩ := hstep
  have hsame := hres.2
  rw [TxPlan.SameImage, hwire, wireImage_sTryStartNextTx, htx] at hsame
  have hlen := congrArg List.length (List.append_cancel_left hsame)
  rw [Buffer.length_slice, Buffer.length_slice] at hlen
  exact absurd hlen (by decide)

end IoHdlc
