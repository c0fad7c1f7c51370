import IoHdlc.Core.Link
import IoHdlc.Station.BufferFit
import Mathlib.Algebra.BigOperators.Group.Finset.Basic

/-!
The reply timeout: its skew by the address, the windows it gives to a poll and its repetitions,
and the time for which the link calls of the application wait for them.

The skew is added in 32 bits and stored in 16. The windows double until the last one, and the
calls wait for the sum of all windows.
-/

namespace IoHdlc

open Finset

/-! ### The skew -/

namespace StationConfig

variable {conf conf' : StationConfig}

theorem baseReplyTimeout_pos (conf : StationConfig) : 0 < conf.baseReplyTimeout.toNat := by
  rw [baseReplyTimeout]
  split
  next h =>
    rw [UInt16.toNat_toUInt32, Nat.pos_iff_ne_zero]
    exact fun hzero => h (UInt16.toNat_inj.mp hzero)
  · decide

/-- The field holds the sum modulo 2^16. -/
theorem toNat_replyTimeout (hmode : conf.mode = .abm ∨ conf.mode = .adm) :
    conf.replyTimeout.toNat =
      (conf.baseReplyTimeout.toNat + conf.addrSkew.toNat) % 2 ^ 16 := by
  rw [replyTimeout, if_pos hmode, UInt32.toNat_toUInt16, UInt32.toNat_add,
    Nat.mod_mod_of_dvd _ (by decide)]

/-- The reply timeout is the base with its skew, and a timeout. -/
structure KeepsSkew (conf : StationConfig) (init : Initialised) : Prop where
  exact : init.station.replyTimeoutMs.toNat = conf.baseReplyTimeout.toNat + conf.addrSkew.toNat
  ne_zero : init.station.replyTimeoutMs ≠ 0
  base_le : conf.baseReplyTimeout.toNat ≤ init.station.replyTimeoutMs.toNat

theorem ioHdlcStationInit_replyTimeout {d : SwDriver} {pl : PoolPlatform} {init : Initialised}
    (h : ioHdlcStationInit d pl conf = .ok init) :
    init.station.replyTimeoutMs = conf.replyTimeout := by
  simp only [ioHdlcStationInit] at h
  repeat' split at h
  all_goals cases h
  rfl

theorem keepsSkew_iff {d : SwDriver} {pl : PoolPlatform} {init : Initialised}
    (h : ioHdlcStationInit d pl conf = .ok init) (hmode : conf.mode = .abm ∨ conf.mode = .adm) :
    conf.KeepsSkew init ↔ conf.baseReplyTimeout.toNat + conf.addrSkew.toNat < 2 ^ 16 := by
  have hstored : init.station.replyTimeoutMs.toNat =
      (conf.baseReplyTimeout.toNat + conf.addrSkew.toNat) % 2 ^ 16 := by
    rw [ioHdlcStationInit_replyTimeout h]
    exact toNat_replyTimeout hmode
  constructor
  · intro hkeeps
    rw [← hkeeps.exact]
    exact init.station.replyTimeoutMs.toNat_lt
  · intro hfits
    have hpos := conf.baseReplyTimeout_pos
    rw [Nat.mod_eq_of_lt hfits] at hstored
    refine ⟨hstored, fun hzero => ?_, by omega⟩
    rw [hzero, UInt16.toNat_zero] at hstored
    omega

/-- Two stations of one base keep their skews, and with them different timeouts, exactly if both
sums fit the field. -/
theorem skews_kept_iff {d d' : SwDriver} {pl pl' : PoolPlatform} {init init' : Initialised}
    (h : ioHdlcStationInit d pl conf = .ok init) (h' : ioHdlcStationInit d' pl' conf' = .ok init')
    (hmode : conf.mode = .abm ∨ conf.mode = .adm) (hmode' : conf'.mode = .abm ∨ conf'.mode = .adm)
    (hbase : conf'.baseReplyTimeout = conf.baseReplyTimeout) :
    (conf.KeepsSkew init ∧ conf'.KeepsSkew init' ∧
        (conf.addrSkew ≠ conf'.addrSkew →
          init.station.replyTimeoutMs ≠ init'.station.replyTimeoutMs)) ↔
      conf.baseReplyTimeout.toNat + conf.addrSkew.toNat < 2 ^ 16 ∧
        conf'.baseReplyTimeout.toNat + conf'.addrSkew.toNat < 2 ^ 16 := by
  rw [← keepsSkew_iff h hmode, ← keepsSkew_iff h' hmode']
  constructor
  · rintro ⟨hkeeps, hkeeps', -⟩
    exact ⟨hkeeps, hkeeps'⟩
  · rintro ⟨hkeeps, hkeeps'⟩
    refine ⟨hkeeps, hkeeps', fun hne heq => hne ?_⟩
    have hsum := hkeeps.exact
    rw [heq, hkeeps'.exact, hbase] at hsum
    exact UInt32.toNat_inj.mp (Nat.add_left_cancel hsum).symm

/-- An ADM station with the given base and address. -/
def admConfig (replyTimeoutMs : UInt16) (addr : UInt32) : StationConfig :=
  { basicConfig none with mode := .adm, replyTimeoutMs := replyTimeoutMs, addr := addr }

/-- The stations 1 and 2 with the default base. -/
theorem skews_kept_iff_default :
    ∃ init init', ioHdlcStationInit plainDriver platform64 (admConfig 0 1) = .ok init ∧
      ioHdlcStationInit plainDriver platform64 (admConfig 0 2) = .ok init' ∧
      init.station.replyTimeoutMs ≠ init'.station.replyTimeoutMs := by
  have hsetup : ∃ init init', ioHdlcStationInit plainDriver platform64 (admConfig 0 1) = .ok init ∧
      ioHdlcStationInit plainDriver platform64 (admConfig 0 2) = .ok init' := ⟨_, _, rfl, rfl⟩
  obtain ⟨init, init', h, h'⟩ := hsetup
  have hkept := (skews_kept_iff h h' (.inr rfl) (.inr rfl) rfl).mpr ⟨by decide, by decide⟩
  exact ⟨init, init', h, h', hkept.2.2 (by decide)⟩

/-- With a base of 2539 ms station 250 has a reply timeout of 0. -/
theorem skews_kept_fails :
    ¬∀ (d : SwDriver) (pl : PoolPlatform) (conf : StationConfig) (init : Initialised),
      ioHdlcStationInit d pl conf = .ok init → conf.mode = .abm ∨ conf.mode = .adm →
      conf.KeepsSkew init := by
  intro h
  have hsetup : ∃ init, ioHdlcStationInit plainDriver platform64 (admConfig 2539 250) = .ok init ∧
      init.station.replyTimeoutMs = 0 := ⟨_, rfl, rfl⟩
  obtain ⟨init, hinit, hzero⟩ := hsetup
  exact (h _ _ _ init hinit (.inr rfl)).ne_zero hzero

end StationConfig

/-! ### The windows of a poll -/

/-- `s_link_api_timeout_ms`; the 64 bits of its sums are enough for them. -/
def sLinkApiTimeoutMs (s : Station) (p : Peer) : UInt32 :=
  let t1Ms := s.replyTimeoutMs.toNat
  let n2 := p.pollRetryMax.toNat
  if n2 ≥ 32 then ~~~0
  else
    let total := t1Ms * (2 ^ n2 - 1)
    let last := t1Ms * IOHDLC_LAST_RETRY_T1_RATIO
    let last := if last < IOHDLC_LAST_RETRY_TIMEOUT_MIN_MS then IOHDLC_LAST_RETRY_TIMEOUT_MIN_MS else last
    let total := total + (last + t1Ms * 2)
    if total > 2 ^ 32 - 1 then ~~~0 else UInt32.ofNat total

/-- The window behind the last repetition. -/
def lastWindow (t1 : Nat) : Nat := max (t1 * 5) 100

/-- The window of a poll that was repeated `retry` times, without a bound. -/
def replyWindow (t1 n2 retry : Nat) : Nat :=
  if 0 < retry ∧ n2 ≤ retry then lastWindow t1 else t1 * 2 ^ retry

/-- The delay with which `startPollReplyTimer` starts the reply timer after `retry` repetitions. -/
def armedReplyMs (s : Station) (p : Peer) (retry : Nat) : Nat :=
  (startPollReplyTimer ⟨s, { p with pollRetryCount := UInt8.ofNat retry }⟩).p.replyTmr.delayMs.toNat

variable {s : Station} {p : Peer}

theorem toNat_lastRetryReplyTimeoutMs (s : Station) :
    (lastRetryReplyTimeoutMs s).toNat = lastWindow s.replyTimeoutMs.toNat := by
  have hlt := s.replyTimeoutMs.toNat_lt
  have hmax : (if s.replyTimeoutMs.toNat * IOHDLC_LAST_RETRY_T1_RATIO <
      IOHDLC_LAST_RETRY_TIMEOUT_MIN_MS then IOHDLC_LAST_RETRY_TIMEOUT_MIN_MS
      else s.replyTimeoutMs.toNat * IOHDLC_LAST_RETRY_T1_RATIO) =
        lastWindow s.replyTimeoutMs.toNat := by
    rw [lastWindow, IOHDLC_LAST_RETRY_T1_RATIO, IOHDLC_LAST_RETRY_TIMEOUT_MIN_MS]
    split <;> omega
  have hsmall : lastWindow s.replyTimeoutMs.toNat < 2 ^ 32 := by
    rw [lastWindow]
    omega
  rw [lastRetryReplyTimeoutMs, hmax, if_neg (by omega), UInt32.toNat_ofNat', Nat.mod_eq_of_lt hsmall]

/-- What the link calls wait for: all windows and one reply timeout more. -/
theorem sum_replyWindow (t1 n2 : Nat) :
    ∑ retry ∈ range (n2 + 1), replyWindow t1 n2 retry + t1 ≤
      t1 * (2 ^ n2 - 1) + (lastWindow t1 + t1 * 2) := by
  have hdouble (n : Nat) : ∑ retry ∈ range n, t1 * 2 ^ retry = t1 * (2 ^ n - 1) := by
    induction n with
    | zero => simp
    | succ n ih =>
      rw [sum_range_succ, ih, ← Nat.mul_add]
      congr 1
      have := Nat.one_le_two_pow (n := n)
      rw [pow_succ]
      omega
  have hbefore : ∑ retry ∈ range n2, replyWindow t1 n2 retry = t1 * (2 ^ n2 - 1) := by
    rw [← hdouble]
    refine sum_congr rfl fun retry hretry => ?_
    rw [replyWindow, if_neg (by have := mem_range.mp hretry; omega)]
  have hlast : replyWindow t1 n2 n2 ≤ lastWindow t1 + t1 := by
    rw [replyWindow]
    split
    · omega
    next hfirst =>
      have hzero : n2 = 0 := by omega
      rw [hzero, pow_zero]
      omega
  rw [sum_range_succ, hbefore]
  omega

/-- The doubled timeout, or all ones where it does not fit. -/
theorem toNat_shifted (t1 : UInt16) {c : UInt8} (hc : c.toNat < 32) :
    (if t1.toUInt32 > ~~~0 >>> c.toUInt32 then ~~~0 else t1.toUInt32 <<< c.toUInt32).toNat =
      min (t1.toNat * 2 ^ c.toNat) (2 ^ 32 - 1) := by
  have hshift : c.toUInt32.toNat % 32 = c.toNat := by
    rw [UInt8.toNat_toUInt32, Nat.mod_eq_of_lt hc]
  have hlimit : ((~~~0 : UInt32) >>> c.toUInt32).toNat = (2 ^ 32 - 1) / 2 ^ c.toNat := by
    rw [UInt32.toNat_shiftRight, hshift, Nat.shiftRight_eq_div_pow]
    rfl
  have hpos : 0 < 2 ^ c.toNat := Nat.two_pow_pos _
  split
  next hgt =>
    have hgt' := UInt32.lt_iff_toNat_lt.mp hgt
    rw [hlimit, UInt16.toNat_toUInt32, Nat.div_lt_iff_lt_mul hpos] at hgt'
    exact (min_eq_right hgt'.le).symm
  next hle =>
    have hle' := UInt32.le_iff_toNat_le.mp (UInt32.not_lt.mp hle)
    rw [hlimit, UInt16.toNat_toUInt32, Nat.le_div_iff_mul_le hpos] at hle'
    rw [UInt32.toNat_shiftLeft, hshift, UInt16.toNat_toUInt32, Nat.shiftLeft_eq,
      Nat.mod_eq_of_lt (by omega), min_eq_left hle']

/-- The armed delay never wraps: it is the window, or all ones. -/
theorem armedReplyMs_eq (s : Station) {p : Peer} {retry : Nat}
    (hle : retry ≤ p.pollRetryMax.toNat) :
    armedReplyMs s p retry =
      if retry < 32 ∨ retry = p.pollRetryMax.toNat then
        min (replyWindow s.replyTimeoutMs.toNat p.pollRetryMax.toNat retry) (2 ^ 32 - 1)
      else 2 ^ 32 - 1 := by
  have hmax := p.pollRetryMax.toNat_lt
  have hcount : (UInt8.ofNat retry).toNat = retry := by
    rw [UInt8.toNat_ofNat', Nat.mod_eq_of_lt (by omega)]
  have hlast : (UInt8.ofNat retry > 0 ∧ UInt8.ofNat retry ≥ p.pollRetryMax) ↔
      0 < retry ∧ p.pollRetryMax.toNat ≤ retry := by
    rw [gt_iff_lt, ge_iff_le, UInt8.lt_iff_toNat_lt, UInt8.le_iff_toNat_le, hcount]
    rfl
  have hmany : UInt8.ofNat retry ≥ 32 ↔ 32 ≤ retry := by
    rw [ge_iff_le, UInt8.le_iff_toNat_le, hcount]
    rfl
  show (replyTimerTimeoutMs s { p with pollRetryCount := UInt8.ofNat retry }).toNat = _
  rw [replyTimerTimeoutMs]
  dsimp only
  rw [replyWindow]
  by_cases hwindow : 0 < retry ∧ p.pollRetryMax.toNat ≤ retry
  · have hlt := s.replyTimeoutMs.toNat_lt
    rw [if_pos (hlast.mpr hwindow), if_pos hwindow, if_pos (.inr (by omega)),
      toNat_lastRetryReplyTimeoutMs, lastWindow]
    omega
  · rw [if_neg (mt hlast.mp hwindow), if_neg hwindow]
    by_cases h32 : retry < 32
    · have hshifted := toNat_shifted s.replyTimeoutMs (c := UInt8.ofNat retry) (by omega)
      rw [hcount] at hshifted
      have hno : ¬UInt8.ofNat retry ≥ 32 := fun h => by
        have := hmany.mp h
        omega
      have hfirst : retry < 32 ∨ retry = p.pollRetryMax.toNat := .inl h32
      rw [if_pos hfirst, ← hshifted, if_congr (or_iff_right hno) rfl rfl]
    · rw [if_pos (.inl (hmany.mpr (by omega))), if_neg (by omega)]
      rfl

/-- Without saturation the time of the link calls is the sum, in less than 32 bits. -/
theorem toNat_sLinkApiTimeoutMs (h : sLinkApiTimeoutMs s p ≠ ~~~0) :
    p.pollRetryMax.toNat < 32 ∧
      (sLinkApiTimeoutMs s p).toNat =
        s.replyTimeoutMs.toNat * (2 ^ p.pollRetryMax.toNat - 1) +
          (lastWindow s.replyTimeoutMs.toNat + s.replyTimeoutMs.toNat * 2) := by
  have hlast : (if s.replyTimeoutMs.toNat * IOHDLC_LAST_RETRY_T1_RATIO <
      IOHDLC_LAST_RETRY_TIMEOUT_MIN_MS then IOHDLC_LAST_RETRY_TIMEOUT_MIN_MS
      else s.replyTimeoutMs.toNat * IOHDLC_LAST_RETRY_T1_RATIO) =
        lastWindow s.replyTimeoutMs.toNat := by
    rw [lastWindow, IOHDLC_LAST_RETRY_T1_RATIO, IOHDLC_LAST_RETRY_TIMEOUT_MIN_MS]
    split <;> omega
  simp only [sLinkApiTimeoutMs, hlast] at h ⊢
  split at h
  · exact absurd rfl h
  next hn2 =>
    rw [if_neg hn2]
    split at h
    · exact absurd rfl h
    next hfits =>
      rw [if_neg hfits, UInt32.toNat_ofNat', Nat.mod_eq_of_lt (by omega)]
      exact ⟨by omega, rfl⟩

/-- The link calls do not give up before the protocol: they wait for ever, or for all windows of
a poll and one reply timeout more. No delay wraps, and no shift of the timeout leaves 31 bits where
the calls do not wait for ever. -/
theorem link_calls_outlast_retries (s : Station) (p : Peer) :
    (∀ retry ≤ p.pollRetryMax.toNat, armedReplyMs s p retry = 2 ^ 32 - 1 ∨
        armedReplyMs s p retry =
          replyWindow s.replyTimeoutMs.toNat p.pollRetryMax.toNat retry) ∧
      (sLinkApiTimeoutMs s p = ~~~0 ∨
        (∀ retry ≤ p.pollRetryMax.toNat,
          armedReplyMs s p retry =
              replyWindow s.replyTimeoutMs.toNat p.pollRetryMax.toNat retry ∧
            armedReplyMs s p retry < 2 ^ 31) ∧
          ∑ retry ∈ range (p.pollRetryMax.toNat + 1), armedReplyMs s p retry +
            s.replyTimeoutMs.toNat ≤ (sLinkApiTimeoutMs s p).toNat) := by
  refine ⟨fun retry hle => ?_, or_iff_not_imp_left.mpr fun hsat => ?_⟩
  · rw [armedReplyMs_eq s hle]
    split
    · rcases min_choice (replyWindow s.replyTimeoutMs.toNat p.pollRetryMax.toNat retry)
        (2 ^ 32 - 1) with h | h
      · exact .inr h
      · exact .inl h
    · exact .inl rfl
  · obtain ⟨hn2, htotal⟩ := toNat_sLinkApiTimeoutMs hsat
    have hlt := s.replyTimeoutMs.toNat_lt
    have hapi := (sLinkApiTimeoutMs s p).toNat_lt
    have hsmall : ∀ retry ≤ p.pollRetryMax.toNat,
        replyWindow s.replyTimeoutMs.toNat p.pollRetryMax.toNat retry < 2 ^ 31 := by
      intro retry hle
      rw [replyWindow]
      split
      · rw [lastWindow]
        omega
      next hmore =>
        -- A window before the last one is at most half of what the calls wait for.
        rcases Nat.eq_zero_or_pos retry with rfl | hpos
        · rw [pow_zero]
          omega
        have hdouble : s.replyTimeoutMs.toNat * 2 ^ (retry + 1) ≤
            s.replyTimeoutMs.toNat * 2 ^ p.pollRetryMax.toNat :=
          Nat.mul_le_mul_left _ (Nat.pow_le_pow_right (by decide) (by omega))
        rw [Nat.mul_sub_one] at htotal
        rw [pow_succ, ← Nat.mul_assoc] at hdouble
        omega
    have harmed : ∀ retry ≤ p.pollRetryMax.toNat, armedReplyMs s p retry =
        replyWindow s.replyTimeoutMs.toNat p.pollRetryMax.toNat retry := by
      intro retry hle
      have := hsmall retry hle
      rw [armedReplyMs_eq s hle, if_pos (.inl (by omega)), min_eq_left (by omega)]
    refine ⟨fun retry hle => ⟨harmed retry hle, (harmed retry hle).trans_lt (hsmall retry hle)⟩, ?_⟩
    rw [htotal, sum_congr rfl fun retry hretry => harmed retry (by
      have := mem_range.mp hretry
      omega)]
    exact sum_replyWindow ..

end IoHdlc
