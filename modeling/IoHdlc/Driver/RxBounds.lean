import IoHdlc.Driver.Receive

/-!
Where `s_on_rx` lets the port store octets.

Whatever the line, the timeouts and the pool do, a call that is not an idle
timeout submits one request, and the request stays inside the frame being
assembled except in two cases: a TYPE 1 length field of 1 asks for no octets at
all, and in a frame of 65536 octets the 16-bit `elen` wraps before the size
check sees it.
-/

namespace IoHdlc

/-- A request for at least one octet, inside the first `framesize` octets of
the frame being assembled or for the staging cell. -/
def RxRequest.InBounds (framesize : Nat) (d : RxState) (r : RxRequest) : Prop :=
  0 < r.len ∧
    match r.target with
    | .stagep => r.len = 1
    | .inFrame off => d.inFrame.isSome = true ∧ off + r.len ≤ framesize

/-- The line is idle: no octet of a frame has arrived. -/
def RxState.Idle (d : RxState) : Prop := ∀ fp, d.inFrame = some fp → fp.elen = 0

/-- A TYPE 1 field whose second octet has arrived announces one octet. -/
def RxState.LengthOne (cfg : DrvConfig) (d : RxState) : Prop :=
  cfg.frameFormatSize = 2 ∧ ∃ fp, d.inFrame = some fp ∧ fp.elen = 1 ∧ type1Length fp = 1

/-- The last octet of a frame of 65536 octets has arrived and is no flag. -/
def RxState.LengthWraps (cfg : DrvConfig) (d : RxState) : Prop :=
  cfg.framesize = 65536 ∧
    ∃ fp, d.inFrame = some fp ∧ fp.elen = 65535 ∧ fp.frame 65535 ≠ IOHDLC_FLAG

/-- `elen` has 16 bits and stays below the frame size. -/
def RxState.ElenFits (cfg : DrvConfig) (d : RxState) : Prop :=
  ∀ fp, d.inFrame = some fp → fp.elen < 65536 ∧ fp.elen < cfg.framesize

/-- The request that a call leaves is in bounds for the frame it leaves. -/
def ResultInBounds (cfg : DrvConfig) (r : RxState × RxRequest) : Prop :=
  r.2.InBounds cfg.framesize r.1

section Calls

variable {cfg : DrvConfig} {take : Option Frame} {d : RxState} {fp : Frame}

theorem newframe_inBounds (h : 1 ≤ cfg.framesize) : ResultInBounds cfg (newframe take d) := by
  simp only [newframe]
  split
  · cases take with
    | none => exact ⟨Nat.one_pos, rfl⟩
    | some fp => exact ⟨Nat.one_pos, rfl, h⟩
  · exact ⟨Nat.one_pos, rfl⟩

theorem closingFlag_inBounds (h : 1 ≤ cfg.framesize) (hd : d.inFrame = some fp) :
    ResultInBounds cfg (closingFlag take d fp) := by
  rw [closingFlag]
  split
  · exact ⟨Nat.one_pos, by rw [hd]; rfl, h⟩
  · split
    · exact ⟨Nat.one_pos, rfl, h⟩
    · exact newframe_inBounds h

theorem accumulate_inBounds_iff (hfp : fp.elen < 65536 ∧ fp.elen < cfg.framesize) :
    ResultInBounds cfg (accumulate cfg take d fp) ↔ ¬(cfg.framesize = 65536 ∧ fp.elen = 65535) := by
  rw [accumulate]
  split
  · next hle =>
    refine iff_of_true (newframe_inBounds (by omega)) ?_
    rintro ⟨hs, -⟩
    rw [hs] at hle
    exact absurd (Nat.mod_lt (fp.elen + 1) (by decide)) (Nat.not_lt.mpr hle)
  · next hlt =>
    have hreq : ResultInBounds cfg ({ d with inFrame := some { fp with elen := u16 (fp.elen + 1) } },
        frameRequest (fp.elen + 1) 1) ↔ fp.elen + 1 + 1 ≤ cfg.framesize :=
      ⟨fun h => h.2.2, fun h => ⟨Nat.one_pos, rfl, h⟩⟩
    rw [hreq]
    -- Away from the wrap the size check has just compared `elen + 1`.
    rcases Nat.lt_or_eq_of_le (Nat.le_of_lt_succ hfp.1) with hlt' | heq
    · rw [u16_of_lt (by omega)] at hlt
      omega
    · rw [heq] at hfp ⊢
      omega

theorem formatField_inBounds_iff (h : max 1 cfg.frameFormatSize ≤ cfg.framesize)
    (hfp : fp.elen < 65536 ∧ fp.elen < cfg.framesize) :
    ResultInBounds cfg (formatField cfg take d fp) ↔
      ¬(cfg.frameFormatSize = 2 ∧ fp.elen = 1 ∧ type1Length fp = 1) ∧
        ¬(cfg.framesize = 65536 ∧ fp.elen = 65535) := by
  have h₁ : 1 ≤ cfg.framesize := by omega
  simp only [formatField]
  split
  · next hc =>
    refine iff_of_true ?_ (by omega)
    split
    · next hn =>
      have : 1 + (fp.frame 0).toNat ≤ cfg.framesize := by omega
      exact ⟨Nat.pos_of_ne_zero hn.2.1, rfl, this⟩
    · exact newframe_inBounds h₁
  · split
    · next h2 =>
      split
      · refine iff_of_true ?_ (by omega)
        split
        · have : 1 + 1 ≤ cfg.framesize := by omega
          exact ⟨Nat.one_pos, rfl, this⟩
        · exact newframe_inBounds h₁
      · split
        · next he =>
          split
          · next hn =>
            have hreq : ResultInBounds cfg ({ d with inFrame := some { fp with elen := type1Length fp } },
                frameRequest 2 (type1Length fp - 1)) ↔
                  0 < type1Length fp - 1 ∧ 2 + (type1Length fp - 1) ≤ cfg.framesize :=
              ⟨fun h => ⟨h.1, h.2.2⟩, fun h => ⟨h.1, rfl, h.2⟩⟩
            rw [hreq]
            omega
          · next hn => exact iff_of_true (newframe_inBounds h₁) (by omega)
        · rw [accumulate_inBounds_iff hfp]
          omega
    · rw [accumulate_inBounds_iff hfp]
      omega

variable (take) in
/-- Complete data: the request is in bounds except in the two cases. -/
theorem sOnRxData_inBounds_iff (h : max 1 cfg.frameFormatSize ≤ cfg.framesize)
    (hd : d.ElenFits cfg) :
    ResultInBounds cfg (sOnRxData cfg take d) ↔ ¬d.LengthOne cfg ∧ ¬d.LengthWraps cfg := by
  have h₁ : 1 ≤ cfg.framesize := by omega
  simp only [sOnRxData, RxState.LengthOne, RxState.LengthWraps]
  cases hin : d.inFrame with
  | none => simpa [hin] using newframe_inBounds h₁
  | some fp =>
    have hfp := hd fp hin
    simp only [Option.some.injEq, exists_eq_left']
    split
    · next hf =>
      refine iff_of_true (closingFlag_inBounds h₁ hin) ⟨by omega, ?_⟩
      rintro ⟨-, he, hne⟩
      exact hne (he ▸ hf.1)
    · next hf =>
      have hwrap : ¬(cfg.framesize = 65536 ∧ fp.elen = 65535) ↔
          ¬(cfg.framesize = 65536 ∧ fp.elen = 65535 ∧ fp.frame 65535 ≠ IOHDLC_FLAG) := by
        have hnoFlag (h : cfg.framesize = 65536 ∧ fp.elen = 65535) : fp.frame 65535 ≠ IOHDLC_FLAG :=
          fun hflag => hf ⟨h.2 ▸ hflag, .inr (by omega)⟩
        exact not_congr ⟨fun h => ⟨h.1, h.2, hnoFlag h⟩, fun h => ⟨h.1, h.2.1⟩⟩
      split
      · rw [formatField_inBounds_iff h hfp, hwrap]
      · next hff =>
        have hne : cfg.frameFormatSize ≠ 2 := by
          intro h2
          refine hff ⟨by omega, ?_⟩
          cases ht : cfg.applyTransparency with
          | false => rfl
          | true => have := cfg.exclusive ht; omega
        rw [accumulate_inBounds_iff hfp, hwrap]
        exact ⟨fun h => ⟨fun h' => hne h'.1, h⟩, fun h => h.2⟩

end Calls

/-! ### Runs -/

/-- The event leads to no call, or to one that finds the line idle on a timeout
and leaves the pending request alone, or to one whose request is in bounds. -/
def RxPort.StepOk (cfg : DrvConfig) (take : Option Frame) (p : RxPort) (ev : RxEvent) : Prop :=
  ∀ d err, p.callOf ev = some (d, err) →
    (err = some .tmo ∧ d.Idle ∧ (sOnRx cfg take d err).2 = none ∧
        (p.step cfg take ev).request = p.request ∧ (p.step cfg take ev).got = p.got) ∨
      ∃ r, (sOnRx cfg take d err).2 = some r ∧ (p.step cfg take ev).request = r ∧
        r.InBounds cfg.framesize (p.step cfg take ev).rx

/-- The event completes a request and the call finds a length it mishandles. -/
def RxPort.BadLength (cfg : DrvConfig) (p : RxPort) (ev : RxEvent) : Prop :=
  ∃ d, p.callOf ev = some (d, none) ∧ (d.LengthOne cfg ∨ d.LengthWraps cfg)

section Runs

variable {cfg : DrvConfig} {take : Option Frame} {p : RxPort}

theorem RxPort.store_elenFits (p : RxPort) (b : UInt8) (h : p.rx.ElenFits cfg) :
    (p.store b).rx.ElenFits cfg := by
  intro fp' hfp
  obtain ⟨fp, hin, helen⟩ := p.store_frame b hfp
  rw [helen]
  exact h fp hin

theorem RxState.Leaves.elenFits (h : max 1 cfg.frameFormatSize ≤ cfg.framesize) {d d' : RxState}
    (hd : d.Leaves cfg d') (h' : d.ElenFits cfg) : d'.ElenFits cfg := by
  intro fp' hfp
  rcases hd.frame fp' hfp with hsame | h0 | ⟨h2, h1⟩ | hfit
  · exact h' fp' hsame
  · omega
  · omega
  · exact hfit

theorem RxPort.run_elenFits (h : max 1 cfg.frameFormatSize ≤ cfg.framesize)
    (events : List (RxEvent × Option Frame)) (hp : p.rx.ElenFits cfg) :
    (p.run cfg events).rx.ElenFits cfg :=
  RxPort.run_inv RxPort.store_elenFits (fun _ _ hd => hd.elenFits h) events hp

/-- What a call does on an error or a timeout. -/
theorem RxPort.stepOk_error (h : 1 ≤ cfg.framesize) (e : RxError) :
    p.StepOk cfg take (.error e) := by
  rintro d err ⟨⟩
  have hnew : ResultInBounds cfg (newframe take (sHandleRxError p.rx)) := newframe_inBounds h
  cases e with
  | other => exact .inr ⟨_, rfl, rfl, hnew⟩
  | tmo =>
    cases hin : p.rx.inFrame with
    | none =>
      refine .inl ⟨rfl, fun fp hfp => ?_, ?_⟩
      · rw [hin] at hfp; cases hfp
      · simp [sOnRx, RxPort.step, RxPort.call, hin]
    | some fp =>
      by_cases he : fp.elen = 0
      · refine .inl ⟨rfl, fun fp' hfp => ?_, ?_⟩
        · rw [hin] at hfp; cases hfp; exact he
        · simp [sOnRx, RxPort.step, RxPort.call, hin, he]
      · refine .inr ⟨(newframe take (sHandleRxError p.rx)).2, ?_, ?_, ?_⟩
        · simp [sOnRx, hin, he]
        · simp [sOnRx, RxPort.step, RxPort.call, hin, he]
        · have : (p.step cfg take (.error .tmo)).rx = (newframe take (sHandleRxError p.rx)).1 := by
            simp [sOnRx, RxPort.step, RxPort.call, hin, he]
          rw [this]
          exact hnew

theorem RxPort.stepOk_octet_iff (h : max 1 cfg.frameFormatSize ≤ cfg.framesize) (b : UInt8)
    (hp : p.rx.ElenFits cfg) : p.StepOk cfg take (.octet b) ↔ ¬p.BadLength cfg (.octet b) := by
  simp only [RxPort.StepOk, RxPort.BadLength, RxPort.callOf]
  split
  · next hgot =>
    have hstep : p.step cfg take (.octet b) = (p.store b).call cfg take none := by
      rw [RxPort.step, RxPort.octet]
      exact if_pos hgot
    have hok := sOnRxData_inBounds_iff take h (p.store_elenFits b hp)
    constructor
    · rintro hstepOk ⟨d, ⟨⟩, hbad⟩
      obtain ⟨he, -⟩ | ⟨r, hr, -, hb⟩ := hstepOk _ _ rfl
      · cases he
      · rw [hstep] at hb
        cases hr
        obtain ⟨h₁, h₂⟩ := hok.mp hb
        exact hbad.elim h₁ h₂
    · rintro hbad d err ⟨⟩
      refine .inr ⟨_, rfl, by rw [hstep]; rfl, ?_⟩
      rw [hstep]
      exact hok.mpr ⟨fun h' => hbad ⟨_, rfl, .inl h'⟩, fun h' => hbad ⟨_, rfl, .inr h'⟩⟩
  · simp

/-- One event at a port whose frame is within its length. -/
theorem RxPort.stepOk_iff (h : max 1 cfg.frameFormatSize ≤ cfg.framesize) (ev : RxEvent)
    (hp : p.rx.ElenFits cfg) : p.StepOk cfg take ev ↔ ¬p.BadLength cfg ev := by
  cases ev with
  | octet b => exact RxPort.stepOk_octet_iff h b hp
  | error e =>
    refine iff_of_true (RxPort.stepOk_error (by omega) e) ?_
    rintro ⟨d, ⟨⟩, -⟩

end Runs

/-- In a run of the receive machine every call is within bounds if and only if
no event of the run completes one of the two lengths. -/
theorem rx_run_inBounds_iff (cfg : DrvConfig) (h : max 1 cfg.frameFormatSize ≤ cfg.framesize)
    (events : List (RxEvent × Option Frame)) :
    (∀ pre x, pre ++ [x] <+: events → (drvStart.run cfg pre).StepOk cfg x.2 x.1) ↔
      ∀ pre x, pre ++ [x] <+: events → ¬(drvStart.run cfg pre).BadLength cfg x.1 := by
  have hpre (pre : List (RxEvent × Option Frame)) : (drvStart.run cfg pre).rx.ElenFits cfg := by
    refine RxPort.run_elenFits h pre fun fp hfp => ?_
    cases hfp
  exact forall_congr' fun pre => forall_congr' fun x =>
    imp_congr_right fun _ => RxPort.stepOk_iff h x.1 (hpre pre)

/-- A flag, then the TYPE 1 field of a frame of one octet. -/
def lengthOneRun : List (RxEvent × Option Frame) :=
  [(.octet 0x7E, some default), (.octet 0x80, some default), (.octet 0x01, some default)]

/-- The callback then asks for no octets, and its assertion fails. -/
theorem rx_length_one_out_of_bounds :
    ¬ ∀ (cfg : DrvConfig) (events : List (RxEvent × Option Frame)),
      max 1 cfg.frameFormatSize ≤ cfg.framesize →
        ∀ pre x, pre ++ [x] <+: events → (drvStart.run cfg pre).StepOk cfg x.2 x.1 := by
  intro hall
  have h := hall (.plain fcsSw 2 4096 (by decide)) lengthOneRun (by decide)
    [(.octet 0x7E, some default), (.octet 0x80, some default)] (.octet 0x01, some default)
    (List.prefix_refl _)
  obtain ⟨he, -⟩ | ⟨r, hr, -, hlen, -⟩ := h _ none rfl
  · cases he
  · cases hr
    exact absurd hlen (by decide)

/-- A flag, an octet and a flag in transparent mode, with a stray timeout before them. -/
theorem rx_run_inBounds_transparent :
    max 1 (DrvConfig.transparent fcsSw 256).frameFormatSize ≤ 256 ∧
      ((∀ pre x, pre ++ [x] <+: [(RxEvent.error .tmo, none),
          (.octet 0x7E, some (default : Frame)), (.octet 0x01, none), (.octet 0x7E, none)] →
          (drvStart.run (.transparent fcsSw 256) pre).StepOk (.transparent fcsSw 256) x.2 x.1) ↔
        ∀ pre x, pre ++ [x] <+: [(RxEvent.error .tmo, none),
          (.octet 0x7E, some (default : Frame)), (.octet 0x01, none), (.octet 0x7E, none)] →
          ¬(drvStart.run (.transparent fcsSw 256) pre).BadLength (.transparent fcsSw 256) x.1) :=
  ⟨by decide, rx_run_inBounds_iff (.transparent fcsSw 256) (by decide) _⟩

end IoHdlc
