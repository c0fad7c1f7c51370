import IoHdlc.Driver.FrameCheck
import IoHdlc.Kit.Reachable
import IoHdlc.Station.Configuration
import Mathlib.Data.Finset.Card

/-!
The software driver from its initialisation on: capabilities, configuration, start and stop, and
the frame check hooks that they install.

A backend may bring hooks of its own, one of them or both, for sizes of its own. Whatever the
driver is asked to do, the installed hooks have to be there and to fit the configured size.
-/

namespace IoHdlc

open Kit

/-- `uint8_t supported_sizes[4]`; 0 stands for no size, and in the capabilities for no FCS. -/
structure FcsSizes where
  list : List UInt8
  length_list : list.length = 4

namespace FcsSizes

/-- `s_fcs_size_supported`. -/
def supports (sizes : FcsSizes) (fcsSize : UInt8) : Bool := sizes.list.contains fcsSize

def set (sizes : FcsSizes) (slot : ℕ) (fcsSize : UInt8) : FcsSizes :=
  ⟨sizes.list.set slot fcsSize, by rw [List.length_set, sizes.length_list]⟩

/-- `s_fcs_sizes_clear`. -/
def clear : FcsSizes := ⟨[0, 0, 0, 0], rfl⟩

/-- `s_swdriver_base_caps.fcs.supported_sizes`. -/
def base : FcsSizes := ⟨[0, 2, 0, 0], rfl⟩

/-- The first slot behind slot 0 that is free. -/
def nextSlot (sizes : FcsSizes) : ℕ := 1 + (sizes.list.tail.takeWhile (· ≠ 0)).length

/-- The loop of `s_resolve_fcs_caps`. Nothing where its assertion fails. -/
def addAll (sizes : FcsSizes) (nextSlot : ℕ) : List UInt8 → Option FcsSizes
  | [] => some sizes
  | fcsSize :: rest =>
    if fcsSize = 0 || sizes.supports fcsSize then sizes.addAll nextSlot rest
    else if nextSlot < 4 then (sizes.set nextSlot fcsSize).addAll (nextSlot + 1) rest
    else none

/-- The slots behind `front` are free. -/
structure Filled (sizes : FcsSizes) (front : List UInt8) : Prop where
  list : sizes.list = front ++ List.replicate (4 - front.length) 0
  le : front.length ≤ 4
  zero : 0 ∈ front

theorem supports_iff {sizes : FcsSizes} {fcsSize : UInt8} :
    sizes.supports fcsSize = true ↔ fcsSize ∈ sizes.list :=
  List.contains_iff_mem

theorem base_filled : base.Filled [0, 2] := ⟨rfl, by decide, by decide⟩

section Fill

variable {sizes sizes' : FcsSizes} {front : List UInt8} {n : UInt8}

theorem Filled.supports_iff (h : sizes.Filled front) : sizes.supports n = true ↔ n ∈ front := by
  rw [FcsSizes.supports_iff, h.list, List.mem_append]
  constructor
  · rintro (hin | hin)
    · exact hin
    · rw [List.eq_of_mem_replicate hin]
      exact h.zero
  · exact Or.inl

theorem Filled.set (h : sizes.Filled front) (hlt : front.length < 4) :
    (sizes.set front.length n).Filled (front ++ [n]) where
  list := by
    have hfree : 4 - front.length = (4 - (front ++ [n]).length) + 1 := by
      rw [List.length_append, List.length_singleton]
      omega
    show sizes.list.set front.length n = _
    rw [h.list, hfree, List.replicate_succ, List.set_append_right _ _ le_rfl,
      Nat.sub_self, List.set_cons_zero, List.append_assoc]
    rfl
  le := by
    rw [List.length_append, List.length_singleton]
    exact hlt
  zero := List.mem_append_left _ h.zero

/-- The sizes that are not there yet; one of them less to add. -/
theorem card_new {rest : List UInt8} (hnew : n ∉ front) :
    ((n :: rest).toFinset \ front.toFinset).card =
      (rest.toFinset \ (front ++ [n]).toFinset).card + 1 := by
  have hsets : (n :: rest).toFinset \ front.toFinset =
      insert n (rest.toFinset \ (front ++ [n]).toFinset) := by
    ext m
    simp only [List.toFinset_cons, Finset.mem_sdiff, Finset.mem_insert, List.mem_toFinset,
      List.mem_append, List.mem_singleton]
    by_cases hm : m = n
    · subst hm
      simp [hnew]
    · simp [hm]
  rw [hsets, Finset.card_insert_of_notMem]
  simp

/-- All sizes get a slot exactly if there are as many slots, and then no other size gets one. -/
theorem Filled.addAll (h : sizes.Filled front) (l : List UInt8) :
    ((sizes.addAll front.length l).isSome ↔
      (l.toFinset \ front.toFinset).card ≤ 4 - front.length) ∧
      ∀ sizes', sizes.addAll front.length l = some sizes' →
        ∀ m, sizes'.supports m = true ↔ m ∈ front ∨ m ∈ l := by
  induction l generalizing sizes front with
  | nil =>
    refine ⟨by simp [FcsSizes.addAll], fun sizes' hs m => ?_⟩
    cases hs
    rw [h.supports_iff]
    simp
  | cons n rest ih =>
    by_cases hin : n ∈ front
    · -- a size that is there, or the mark of an empty entry
      have hsup : sizes.supports n = true := h.supports_iff.mpr hin
      obtain ⟨hsome, hadded⟩ := ih h
      have hsets : (n :: rest).toFinset \ front.toFinset = rest.toFinset \ front.toFinset := by
        rw [List.toFinset_cons, Finset.insert_sdiff_of_mem _ (List.mem_toFinset.mpr hin)]
      simp only [FcsSizes.addAll, hsup, Bool.or_true, if_true]
      refine ⟨by rw [hsome, hsets], fun sizes' hs m => ?_⟩
      rw [hadded sizes' hs m, List.mem_cons]
      constructor
      · rintro (hm | hm)
        · exact .inl hm
        · exact .inr (.inr hm)
      · rintro (hm | rfl | hm)
        · exact .inl hm
        · exact .inl hin
        · exact .inr hm
    · have hsup : sizes.supports n = false := by
        rw [Bool.eq_false_iff, Ne, h.supports_iff]
        exact hin
      have hne : n ≠ 0 := fun hzero => hin (hzero ▸ h.zero)
      simp only [FcsSizes.addAll, hsup, hne, decide_false, Bool.or_false, Bool.false_eq_true,
        if_false]
      by_cases hlt : front.length < 4
      · obtain ⟨hsome, hadded⟩ := ih (h.set hlt (n := n))
        rw [List.length_append, List.length_singleton] at hsome hadded
        rw [if_pos hlt]
        refine ⟨?_, fun sizes' hs m => ?_⟩
        · rw [hsome, card_new hin]
          omega
        · rw [hadded sizes' hs m, List.mem_append, List.mem_singleton, List.mem_cons, or_assoc]
      · rw [if_neg hlt, card_new hin]
        refine ⟨by simp; omega, fun sizes' hs => by cases hs⟩

end Fill

end FcsSizes

/-- `ioHdlcSwDriverFcsBackend`; a hook may be missing. -/
structure FcsBackend where
  supportedSizes : FcsSizes
  defaultSize : UInt8
  check : Option (UInt8 → List UInt8 → Bool)
  compute : Option (UInt8 → List (List UInt8) → List UInt8)

/-- What the driver relies on in a backend: the segments are one message, the FCS has the size asked
for, and the check accepts what was computed, also where the other hook is that of the driver. -/
structure FcsBackend.Lawful (b : FcsBackend) : Prop where
  segments : ∀ compute, b.compute = some compute → ∀ n ∈ b.supportedSizes.list, n ≠ 0 →
    ∀ segv, compute n segv = compute n [segv.flatten]
  length : ∀ compute, b.compute = some compute → ∀ n ∈ b.supportedSizes.list, n ≠ 0 →
    ∀ buf, (compute n [buf]).length = n.toNat
  accepts : ∀ check compute, b.check = some check → b.compute = some compute →
    ∀ n ∈ b.supportedSizes.list, n ≠ 0 → ∀ buf, check n (buf ++ compute n [buf]) = true
  check_alone : ∀ check, b.check = some check → b.compute = none → 2 ∈ b.supportedSizes.list →
    ∀ buf, check 2 (buf ++ sFcsComputeSw buf) = true
  compute_alone : ∀ compute, b.compute = some compute → b.check = none →
    2 ∈ b.supportedSizes.list → ∀ buf, sFcsCheckSw (buf ++ compute 2 [buf]) = true

/-- What a stream port says of itself. -/
structure PortCaps where
  constraints : UInt32
  assists : UInt32
  txFcsOffloadSizes : FcsSizes

/-- `s_fcs_check_none`, `s_fcs_check_sw`, `s_fcs_check_backend`, and the same for the computation. -/
inductive FcsHook where
  | none
  | sw
  | backend
  deriving DecidableEq

def IOHDLC_PORT_AST_TX_NEEDS_CONTIG : UInt32 := 4

/-- `ioHdlcSwDriver`, as far as its set-up goes. `stages` counts the staging octets that are
allocated. -/
structure DrvState where
  backend : Option FcsBackend
  supportedSizes : FcsSizes
  defaultSize : UInt8
  fcsSize : UInt8
  applyTransparency : Bool
  frameFormatSize : UInt8
  rxCheckFn : FcsHook
  txComputeFn : FcsHook
  txDeferToPort : Bool
  constraints : UInt32
  assists : UInt32
  txFcsOffloadSizes : FcsSizes
  txMaterializePlan : Bool
  stagep : Bool
  stages : ℕ
  started : Bool

namespace DrvState

/-- `s_resolve_fcs_caps`. -/
def resolveFcsCaps (drv : DrvState) : Option DrvState :=
  let supportedSizes :=
    match drv.backend with
    | some b =>
      if b.check.isSome && b.compute.isSome then
        FcsSizes.base.addAll FcsSizes.base.nextSlot b.supportedSizes.list
      else some .base
    | none => some .base
  supportedSizes.map fun sizes =>
    { drv with
      supportedSizes := sizes
      defaultSize :=
        match drv.backend with
        | some b => if sizes.supports b.defaultSize then b.defaultSize else 2
        | none => 2 }

/-- Whether the backend has this hook and declares the configured size. -/
def backendHas (drv : DrvState) {α : Type} (hook : FcsBackend → Option α) : Bool :=
  match drv.backend with
  | some b => (hook b).isSome && b.supportedSizes.supports drv.fcsSize
  | none => false

/-- `s_resolve_fcs_policy`. -/
def resolveFcsPolicy (drv : DrvState) : DrvState :=
  if drv.fcsSize = 0 then
    { drv with rxCheckFn := .none, txComputeFn := .none, txDeferToPort := false }
  else
    { drv with
      rxCheckFn := if drv.backendHas FcsBackend.check then .backend else .sw
      txComputeFn := if drv.backendHas FcsBackend.compute then .backend else .sw
      txDeferToPort := !drv.applyTransparency && !drv.txMaterializePlan &&
        drv.txFcsOffloadSizes.supports drv.fcsSize }

/-- `ioHdlcSwDriverInit`. -/
def ioHdlcSwDriverInit (backend : Option FcsBackend) : Option DrvState :=
  let drv : DrvState :=
    { backend := backend
      supportedSizes := .base
      defaultSize := 2
      fcsSize := 2
      applyTransparency := false
      frameFormatSize := 0
      rxCheckFn := .sw
      txComputeFn := .sw
      txDeferToPort := false
      constraints := 0
      assists := 0
      txFcsOffloadSizes := .clear
      txMaterializePlan := true
      stagep := false
      stages := 0
      started := false }
  drv.resolveFcsCaps.map fun drv => { drv with fcsSize := drv.defaultSize }.resolveFcsPolicy

/-- `drv_start`, on a port that may say nothing of itself. -/
def drvStart (drv : DrvState) (caps : Option PortCaps) : DrvState :=
  let assists := match caps with | some c => c.assists | none => 0
  let drv := { drv with
    constraints := match caps with | some c => c.constraints | none => 0
    assists := assists
    txFcsOffloadSizes := match caps with | some c => c.txFcsOffloadSizes | none => .clear
    txMaterializePlan := caps.isNone || assists &&& IOHDLC_PORT_AST_TX_NEEDS_CONTIG ≠ 0 }
  { drv.resolveFcsPolicy with stagep := true, stages := drv.stages + 1, started := true }

/-- `drv_stop`. The policy stays as it is. -/
def drvStop (drv : DrvState) : DrvState :=
  if drv.started then
    { drv with
      stages := if drv.stagep then drv.stages - 1 else drv.stages
      stagep := false, constraints := 0, assists := 0, txFcsOffloadSizes := .clear
      txMaterializePlan := true, started := false }
  else drv

/-- `s_swdriver_base_caps.fff.supported_types`. -/
def fffTypes : List UInt8 := [0, 1, 2, 0]

/-- `drv_configure`; the driver has transparency in software, so that check never fails. -/
def drvConfigure (drv : DrvState) (fcsSize : UInt8) (transparency : Bool) (fffType : UInt8) :
    Except Errno DrvState :=
  if !drv.supportedSizes.supports fcsSize then .error .ENOTSUP
  else if fffType ∉ fffTypes then .error .ENOTSUP
  else if transparency && fffType ≠ 0 then .error .EINVAL
  else
    .ok { drv with
      fcsSize := fcsSize, applyTransparency := transparency
      frameFormatSize := fffType }.resolveFcsPolicy

/-- The check of a received frame. Nothing where a hook is missing, or asserts that the size is
another one. -/
def rxCheck (drv : DrvState) (buf : List UInt8) : Option Bool :=
  match drv.rxCheckFn with
  | .none => some true
  | .sw => if drv.fcsSize = 2 then some (FcsHooks.sFcsCheckSw buf) else none
  | .backend => drv.backend.bind fun b => b.check.map fun check => check drv.fcsSize buf

/-- The FCS of the segments of a frame to send. -/
def txCompute (drv : DrvState) (segv : List (List UInt8)) : Option (List UInt8) :=
  match drv.txComputeFn with
  | .none => some []
  | .sw => if drv.fcsSize = 2 then some (FcsHooks.sFcsComputeSw segv) else none
  | .backend => drv.backend.bind fun b => b.compute.map fun compute => compute drv.fcsSize segv

/-- The calls of a station: a start of a driver that is stopped, a stop, a configuration. -/
inductive Moves (drv drv' : DrvState) : Prop
  | start (hstopped : drv.started = false) (caps : Option PortCaps) (h : drv' = drv.drvStart caps)
  | stop (h : drv' = drv.drvStop)
  | configure (fcsSize : UInt8) (transparency : Bool) (fffType : UInt8)
    (h : drv.drvConfigure fcsSize transparency fffType = .ok drv')

/-- A driver behind its initialisation with this backend. -/
def Initial (backend : Option FcsBackend) (drv : DrvState) : Prop :=
  ioHdlcSwDriverInit backend = some drv

/-! ### What holds of the driver in every state -/

/-- The sizes that the backend adds to those of the driver. -/
def addedSizes (backend : Option FcsBackend) : Finset UInt8 :=
  match backend with
  | some b =>
    if b.check.isSome && b.compute.isSome then b.supportedSizes.list.toFinset \ {0, 2} else ∅
  | none => ∅

/-- The capabilities are the sizes of the driver and those of a backend that has both hooks. -/
structure Capable (given : Option FcsBackend) (drv : DrvState) : Prop where
  backend : drv.backend = given
  sizes : ∀ n, drv.supportedSizes.supports n = true ↔ n = 0 ∨ n = 2 ∨ n ∈ addedSizes given
  default : drv.supportedSizes.supports drv.defaultSize = true

theorem resolveFcsCaps_isSome (drv : DrvState) :
    drv.resolveFcsCaps.isSome ↔ (addedSizes drv.backend).card ≤ 2 := by
  rw [resolveFcsCaps, Option.isSome_map]
  cases hb : drv.backend with
  | none => simp [addedSizes]
  | some b =>
    by_cases hboth : (b.check.isSome && b.compute.isSome) = true
    · have hfront : ([0, 2] : List UInt8).toFinset = {0, 2} := by decide
      have hfill := (FcsSizes.base_filled.addAll b.supportedSizes.list).1
      rw [hfront] at hfill
      simp only [addedSizes, hboth, if_true]
      exact hfill
    · simp [addedSizes, hboth]

theorem resolveFcsCaps_capable {drv drv' : DrvState} (h : drv.resolveFcsCaps = some drv') :
    Capable drv.backend drv' := by
  rw [resolveFcsCaps, Option.map_eq_some_iff] at h
  obtain ⟨sizes, hsizes, rfl⟩ := h
  have hadded : ∀ n, sizes.supports n = true ↔ n = 0 ∨ n = 2 ∨ n ∈ addedSizes drv.backend := by
    intro n
    have hbase : FcsSizes.base.supports n = true ↔ n = 0 ∨ n = 2 ∨ False := by
      rw [FcsSizes.base_filled.supports_iff]
      simp
    cases hb : drv.backend with
    | none =>
      rw [hb] at hsizes
      cases hsizes
      simpa [addedSizes] using hbase
    | some b =>
      rw [hb] at hsizes
      dsimp only at hsizes
      by_cases hboth : (b.check.isSome && b.compute.isSome) = true
      · rw [if_pos hboth] at hsizes
        rw [(FcsSizes.base_filled.addAll _).2 sizes hsizes n]
        simp only [addedSizes, hboth, if_true, Finset.mem_sdiff, List.mem_toFinset,
          Finset.mem_insert, Finset.mem_singleton, List.mem_cons, List.not_mem_nil, or_false]
        tauto
      · rw [if_neg hboth] at hsizes
        cases hsizes
        simpa [addedSizes, hboth] using hbase
  refine ⟨rfl, hadded, ?_⟩
  dsimp only
  split
  · split
    · assumption
    · exact (hadded 2).mpr (.inr (.inl rfl))
  · exact (hadded 2).mpr (.inr (.inl rfl))

/-- The hooks are those that the policy asks for. -/
structure Resolved (drv : DrvState) : Prop where
  check : drv.rxCheckFn =
    if drv.fcsSize = 0 then .none else if drv.backendHas FcsBackend.check then .backend else .sw
  compute : drv.txComputeFn =
    if drv.fcsSize = 0 then .none else if drv.backendHas FcsBackend.compute then .backend else .sw

/-- The FCS is left to the port exactly where the port computes this size and gets the octets of
the frame as they are. -/
def Defers (drv : DrvState) : Prop :=
  drv.txDeferToPort = true ↔
    drv.fcsSize ≠ 0 ∧ drv.applyTransparency = false ∧ drv.txMaterializePlan = false ∧
      drv.txFcsOffloadSizes.supports drv.fcsSize = true

theorem resolveFcsPolicy_resolved (drv : DrvState) : drv.resolveFcsPolicy.Resolved := by
  rw [resolveFcsPolicy]
  split
  next h => exact ⟨(if_pos h).symm, (if_pos h).symm⟩
  next h => exact ⟨(if_neg h).symm, (if_neg h).symm⟩

theorem resolveFcsPolicy_defers (drv : DrvState) : drv.resolveFcsPolicy.Defers := by
  rw [resolveFcsPolicy, Defers]
  split
  next h => simp [h]
  next h => simp [h, and_assoc]

/-- The configuration and the life of the driver, apart from its hooks. -/
structure Sane (given : Option FcsBackend) (drv : DrvState) : Prop where
  capable : Capable given drv
  size : drv.supportedSizes.supports drv.fcsSize = true
  fff : drv.frameFormatSize ∈ fffTypes
  exclusive : drv.applyTransparency = true → drv.frameFormatSize = 0
  /-- A port that is gone has no constraints and no assists, and every plan is made at once. -/
  stopped : drv.started = false → drv.constraints = 0 ∧ drv.assists = 0 ∧ drv.txMaterializePlan = true
  stagep : drv.stagep = drv.started
  stages : drv.stages = if drv.started then 1 else 0

/-- The driver in every state. -/
structure Consistent (given : Option FcsBackend) (drv : DrvState) : Prop
    extends Sane given drv where
  resolved : drv.Resolved
  defers : drv.started = true → drv.Defers

section Steps

variable {given : Option FcsBackend} {drv drv' : DrvState}

/-- What `resolveFcsPolicy` leaves alone. -/
theorem resolveFcsPolicy_frame (drv : DrvState) :
    ∃ rxCheckFn txComputeFn txDeferToPort, drv.resolveFcsPolicy =
      { drv with
        rxCheckFn := rxCheckFn, txComputeFn := txComputeFn, txDeferToPort := txDeferToPort } := by
  rw [resolveFcsPolicy]
  split <;> exact ⟨_, _, _, rfl⟩

/-- The hooks depend on the backend and the size alone. -/
theorem resolveFcsPolicy_hooks (hbackend : drv'.backend = drv.backend)
    (hsize : drv'.fcsSize = drv.fcsSize) :
    drv'.resolveFcsPolicy.backend = drv.resolveFcsPolicy.backend ∧
      drv'.resolveFcsPolicy.fcsSize = drv.resolveFcsPolicy.fcsSize ∧
      drv'.resolveFcsPolicy.rxCheckFn = drv.resolveFcsPolicy.rxCheckFn ∧
      drv'.resolveFcsPolicy.txComputeFn = drv.resolveFcsPolicy.txComputeFn := by
  have hhas {α : Type} (hook : FcsBackend → Option α) :
      drv'.backendHas hook = drv.backendHas hook := by
    rw [backendHas, backendHas, hbackend, hsize]
  rw [resolveFcsPolicy, resolveFcsPolicy, hsize]
  split
  · exact ⟨hbackend, rfl, rfl, rfl⟩
  · refine ⟨hbackend, rfl, ?_, ?_⟩
    · dsimp only
      rw [hhas]
    · dsimp only
      rw [hhas]

theorem mem_fffTypes {fffType : UInt8} : fffType ∈ fffTypes ↔ fffType.toNat ≤ 2 := by
  constructor
  · intro h
    simp only [fffTypes, List.mem_cons, List.not_mem_nil, or_false] at h
    obtain rfl | rfl | rfl | rfl := h <;> decide
  · intro h
    have hof : UInt8.ofNat fffType.toNat = fffType := UInt8.ofNat_toNat
    rw [← hof]
    interval_cases fffType.toNat <;> decide

theorem Capable.congr (h : Capable given drv) (hbackend : drv'.backend = drv.backend)
    (hsizes : drv'.supportedSizes = drv.supportedSizes) (hdefault : drv'.defaultSize = drv.defaultSize) :
    Capable given drv' where
  backend := hbackend.trans h.backend
  sizes := by
    rw [hsizes]
    exact h.sizes
  default := by
    rw [hsizes, hdefault]
    exact h.default

/-- The policy is resolved anew after every change. -/
theorem Sane.resolve (h : Sane given drv) : Consistent given drv.resolveFcsPolicy where
  toSane := by
    obtain ⟨rx, tx, defer, hframe⟩ := resolveFcsPolicy_frame drv
    rw [hframe]
    exact
      { h with
        capable := h.capable.congr rfl rfl rfl
        size := h.size }
  resolved := resolveFcsPolicy_resolved drv
  defers _ := resolveFcsPolicy_defers drv

theorem Initial.consistent (h : Initial given drv) : Consistent given drv := by
  rw [Initial, ioHdlcSwDriverInit, Option.map_eq_some_iff] at h
  obtain ⟨drv₁, hcaps, rfl⟩ := h
  have hcap := resolveFcsCaps_capable hcaps
  rw [resolveFcsCaps, Option.map_eq_some_iff] at hcaps
  obtain ⟨sizes, -, rfl⟩ := hcaps
  refine Sane.resolve ⟨hcap.congr rfl rfl rfl, hcap.default, ?_, ?_, ?_, rfl, rfl⟩
  · exact List.mem_cons_self
  · exact fun hno => by cases hno
  · exact fun _ => ⟨rfl, rfl, rfl⟩

/-- The policy does not depend on whether the driver runs. -/
theorem resolveFcsPolicy_started (drv : DrvState) (stages : ℕ) :
    { drv.resolveFcsPolicy with stagep := true, stages := stages, started := true } =
      { drv with stagep := true, stages := stages, started := true }.resolveFcsPolicy := by
  rw [resolveFcsPolicy, resolveFcsPolicy]
  by_cases hsize : drv.fcsSize = 0
  · rw [if_pos hsize, if_pos hsize]
  · rw [if_neg hsize, if_neg hsize]
    rfl

theorem Consistent.start (h : Consistent given drv) (hstopped : drv.started = false)
    (caps : Option PortCaps) : Consistent given (drv.drvStart caps) := by
  have heq : drv.drvStart caps = _ := resolveFcsPolicy_started _ _
  rw [heq]
  have hstages : drv.stages + 1 = 1 := by
    rw [h.stages, hstopped]
    rfl
  exact Sane.resolve
    { capable := h.capable.congr rfl rfl rfl
      size := h.size
      fff := h.fff
      exclusive := h.exclusive
      stopped := fun hno => by cases hno
      stagep := rfl
      stages := hstages }

theorem Consistent.stop (h : Consistent given drv) : Consistent given drv.drvStop := by
  rw [drvStop]
  split
  next hstarted =>
    have hstages : (if drv.stagep then drv.stages - 1 else drv.stages) = 0 := by
      rw [h.stagep, h.stages, hstarted]
      rfl
    exact
      { capable := h.capable.congr rfl rfl rfl
        size := h.size
        fff := h.fff
        exclusive := h.exclusive
        stopped := fun _ => ⟨rfl, rfl, rfl⟩
        stagep := rfl
        stages := hstages
        resolved := ⟨h.resolved.check, h.resolved.compute⟩
        defers := fun hno => by cases hno }
  · exact h

/-- A configuration is taken exactly if the size is among the capabilities, the format type exists,
and transparency and format field do not meet. -/
theorem drvConfigure_ok_iff {fcsSize fffType : UInt8} {transparency : Bool} :
    drv.drvConfigure fcsSize transparency fffType = .ok drv' ↔
      (drv.supportedSizes.supports fcsSize = true ∧ fffType ∈ fffTypes ∧
        (transparency = true → fffType = 0)) ∧
        drv' = { drv with
          fcsSize := fcsSize, applyTransparency := transparency
          frameFormatSize := fffType }.resolveFcsPolicy := by
  rw [drvConfigure]
  by_cases hsize : drv.supportedSizes.supports fcsSize = true
  · rw [if_neg (by simp [hsize])]
    by_cases hfff : fffType ∈ fffTypes
    · rw [if_neg (not_not_intro hfff)]
      by_cases hexcl : transparency = true → fffType = 0
      · rw [if_neg (by simpa using hexcl), Except.ok.injEq]
        exact ⟨fun heq => ⟨⟨hsize, hfff, hexcl⟩, heq.symm⟩, fun heq => heq.2.symm⟩
      · rw [if_pos (by simpa using hexcl)]
        exact ⟨fun heq => (by cases heq), fun heq => absurd heq.1.2.2 hexcl⟩
    · rw [if_pos hfff]
      exact ⟨fun heq => (by cases heq), fun heq => absurd heq.1.2.1 hfff⟩
  · rw [if_pos (by simpa using hsize)]
    exact ⟨fun heq => (by cases heq), fun heq => absurd heq.1.1 hsize⟩

theorem Consistent.configure {fcsSize fffType : UInt8} {transparency : Bool}
    (h : Consistent given drv)
    (hok : drv.drvConfigure fcsSize transparency fffType = .ok drv') : Consistent given drv' := by
  obtain ⟨⟨hsize, hfff, hexcl⟩, rfl⟩ := drvConfigure_ok_iff.mp hok
  exact Sane.resolve
    { capable := h.capable.congr rfl rfl rfl
      size := hsize
      fff := hfff
      exclusive := hexcl
      stopped := h.stopped
      stagep := h.stagep
      stages := h.stages }

theorem Consistent.step (h : Consistent given drv) (hmove : Moves drv drv') :
    Consistent given drv' := by
  cases hmove with
  | start hstopped caps heq => exact heq ▸ h.start hstopped caps
  | stop heq => exact heq ▸ h.stop
  | configure fcsSize transparency fffType hok => exact h.configure hok

theorem consistent_of_reachable (h : Reachable (Initial given) Moves drv) : Consistent given drv :=
  h.invariant (Consistent given) (fun _ hinit => Initial.consistent hinit)
    fun _ _ hd hmove => hd.step hmove

end Steps

/-! ### The hooks -/

/-- The hooks are there, fit the size, and do what the policy says. -/
structure Presents (drv : DrvState) (f : FcsPolicy) : Prop where
  fcsSize : f.fcsSize = drv.fcsSize.toNat
  check : ∀ buf, buf.length < 2 ^ 32 → drv.rxCheck buf = some (f.rxCheckFn buf)
  compute : ∀ segv : List (List UInt8), segv.flatten.length < 2 ^ 32 →
    drv.txCompute segv = some (f.txComputeFn segv.flatten)

section Hooks

variable {given : Option FcsBackend} {drv : DrvState} {b : FcsBackend}

theorem rxCheck_sw (hfn : drv.rxCheckFn = .sw) (hsize : drv.fcsSize = 2) {buf : List UInt8}
    (hlen : buf.length < 2 ^ 32) : drv.rxCheck buf = some (sFcsCheckSw buf) := by
  rw [rxCheck, hfn, if_pos hsize, FcsHooks.sFcsCheckSw_eq hlen]

theorem txCompute_sw (hfn : drv.txComputeFn = .sw) (hsize : drv.fcsSize = 2)
    {segv : List (List UInt8)} (hlen : segv.flatten.length < 2 ^ 32) :
    drv.txCompute segv = some (sFcsComputeSw segv.flatten) := by
  rw [txCompute, hfn, if_pos hsize, FcsHooks.sFcsComputeSw_eq hlen]

theorem rxCheck_backend {check : UInt8 → List UInt8 → Bool} (hfn : drv.rxCheckFn = .backend)
    (hb : drv.backend = some b) (hcheck : b.check = some check) (buf : List UInt8) :
    drv.rxCheck buf = some (check drv.fcsSize buf) := by
  rw [rxCheck, hfn, hb, Option.bind_some, hcheck, Option.map_some]

theorem txCompute_backend {compute : UInt8 → List (List UInt8) → List UInt8}
    (hfn : drv.txComputeFn = .backend) (hb : drv.backend = some b)
    (hcompute : b.compute = some compute) (segv : List (List UInt8)) :
    drv.txCompute segv = some (compute drv.fcsSize segv) := by
  rw [txCompute, hfn, hb, Option.bind_some, hcompute, Option.map_some]

/-- Only a backend that has both hooks brings sizes that the driver does not know. -/
theorem Consistent.fcsSize_two (h : Consistent given drv) (hsize : drv.fcsSize ≠ 0)
    (hno : drv.fcsSize ∉ addedSizes given) : drv.fcsSize = 2 := by
  obtain hzero | htwo | hin := (h.capable.sizes _).mp h.size
  · exact absurd hzero hsize
  · exact htwo
  · exact absurd hin hno

theorem backendHas_some {α : Type} {hook : FcsBackend → Option α} (hb : drv.backend = some b) :
    drv.backendHas hook = true ↔ (hook b).isSome ∧ drv.fcsSize ∈ b.supportedSizes.list := by
  rw [backendHas, hb]
  simp only [Bool.and_eq_true, FcsSizes.supports_iff]

/-- Without a backend for the size the hooks are those of the driver. -/
theorem Consistent.presents_sw (h : Consistent given drv) (hsize : drv.fcsSize ≠ 0)
    (hcheck : drv.backendHas FcsBackend.check = false)
    (hcompute : drv.backendHas FcsBackend.compute = false) (htwo : drv.fcsSize = 2) :
    drv.Presents fcsSw where
  fcsSize := by rw [htwo]; rfl
  check buf hlen := by
    refine rxCheck_sw ?_ htwo hlen
    rw [h.resolved.check, if_neg hsize, hcheck]
    rfl
  compute segv hlen := by
    refine txCompute_sw ?_ htwo hlen
    rw [h.resolved.compute, if_neg hsize, hcompute]
    rfl

/-- A backend that declares the size and has a hook or two. -/
theorem Consistent.presents_backend (h : Consistent given drv) (hgiven : given = some b)
    (hb : b.Lawful) (hsize : drv.fcsSize ≠ 0) (hin : drv.fcsSize ∈ b.supportedSizes.list) :
    ∃ f, drv.Presents f := by
  have hdrv : drv.backend = some b := h.capable.backend.trans hgiven
  have hcheckFn := h.resolved.check
  have hcomputeFn := h.resolved.compute
  rw [if_neg hsize] at hcheckFn hcomputeFn
  have hcheckHas := @backendHas_some drv b _ FcsBackend.check hdrv
  have hcomputeHas := @backendHas_some drv b _ FcsBackend.compute hdrv
  -- a backend that lacks a hook adds no size
  have htwo (hlacks : (b.check.isSome && b.compute.isSome) = false) : drv.fcsSize = 2 := by
    refine h.fcsSize_two hsize ?_
    rw [hgiven, addedSizes, hlacks]
    exact Finset.notMem_empty _
  cases hc : b.check with
  | none =>
    have hcheckNo : drv.backendHas FcsBackend.check = false := by
      rw [Bool.eq_false_iff, Ne, hcheckHas, hc]
      simp
    cases hcomp : b.compute with
    | none =>
      have hcomputeNo : drv.backendHas FcsBackend.compute = false := by
        rw [Bool.eq_false_iff, Ne, hcomputeHas, hcomp]
        simp
      exact ⟨fcsSw, h.presents_sw hsize hcheckNo hcomputeNo (htwo (by rw [hc]; rfl))⟩
    | some compute =>
      have hsize₂ := htwo (by rw [hc]; rfl)
      rw [hcheckNo] at hcheckFn
      rw [hcomputeHas.mpr ⟨by rw [hcomp]; rfl, hin⟩] at hcomputeFn
      rw [hsize₂] at hin
      exact ⟨{ fcsSize := 2
               txComputeFn := fun buf => compute 2 [buf]
               rxCheckFn := sFcsCheckSw
               length_compute := hb.length compute hcomp 2 hin (by decide)
               check_compute := hb.compute_alone compute hcomp hc hin },
        { fcsSize := by rw [hsize₂]; rfl
          check := fun buf hlen => rxCheck_sw hcheckFn hsize₂ hlen
          compute := fun segv _ => by
            rw [txCompute_backend hcomputeFn hdrv hcomp, hsize₂,
              hb.segments compute hcomp 2 hin (by decide)] }⟩
  | some check =>
    rw [hcheckHas.mpr ⟨by rw [hc]; rfl, hin⟩] at hcheckFn
    cases hcomp : b.compute with
    | none =>
      have hsize₂ := htwo (by rw [hcomp, Bool.and_comm]; rfl)
      have hcomputeNo : drv.backendHas FcsBackend.compute = false := by
        rw [Bool.eq_false_iff, Ne, hcomputeHas, hcomp]
        simp
      rw [hcomputeNo] at hcomputeFn
      rw [hsize₂] at hin
      exact ⟨{ fcsSize := 2
               txComputeFn := sFcsComputeSw
               rxCheckFn := check 2
               length_compute := fun _ => rfl
               check_compute := hb.check_alone check hc hcomp hin },
        { fcsSize := by rw [hsize₂]; rfl
          check := fun buf _ => by rw [rxCheck_backend hcheckFn hdrv hc, hsize₂]
          compute := fun segv hlen => txCompute_sw hcomputeFn hsize₂ hlen }⟩
    | some compute =>
      rw [hcomputeHas.mpr ⟨by rw [hcomp]; rfl, hin⟩] at hcomputeFn
      exact ⟨{ fcsSize := drv.fcsSize.toNat
               txComputeFn := fun buf => compute drv.fcsSize [buf]
               rxCheckFn := check drv.fcsSize
               length_compute := hb.length compute hcomp _ hin hsize
               check_compute := hb.accepts check compute hc hcomp _ hin hsize },
        { fcsSize := rfl
          check := fun buf _ => rxCheck_backend hcheckFn hdrv hc buf
          compute := fun segv _ => by
            rw [txCompute_backend hcomputeFn hdrv hcomp, hb.segments compute hcomp _ hin hsize] }⟩

theorem Consistent.presents (h : Consistent given drv) (hlawful : ∀ b, given = some b → b.Lawful) :
    ∃ f, drv.Presents f := by
  by_cases hsize : drv.fcsSize = 0
  · refine ⟨fcsNone, by rw [hsize]; rfl, fun buf _ => ?_, fun segv _ => ?_⟩
    · rw [rxCheck, h.resolved.check, if_pos hsize]
      rfl
    · rw [txCompute, h.resolved.compute, if_pos hsize]
      rfl
  · cases hgiven : given with
    | none =>
      have hdrv := h.capable.backend.trans hgiven
      refine ⟨fcsSw, h.presents_sw hsize ?_ ?_ (h.fcsSize_two hsize ?_)⟩
      · rw [backendHas, hdrv]
      · rw [backendHas, hdrv]
      · rw [hgiven]
        exact Finset.notMem_empty _
    | some b =>
      by_cases hin : drv.fcsSize ∈ b.supportedSizes.list
      · exact h.presents_backend hgiven (hlawful b hgiven) hsize hin
      · have hdrv := h.capable.backend.trans hgiven
        refine ⟨fcsSw, h.presents_sw hsize ?_ ?_ (h.fcsSize_two hsize ?_)⟩
        · rw [Bool.eq_false_iff, Ne, backendHas_some hdrv]
          exact fun hno => hin hno.2
        · rw [Bool.eq_false_iff, Ne, backendHas_some hdrv]
          exact fun hno => hin hno.2
        · rw [hgiven, addedSizes]
          split
          · exact fun hno => hin (List.mem_toFinset.mp (Finset.mem_sdiff.mp hno).1)
          · exact Finset.notMem_empty _

/-- The hooks see of the driver its backend and its size. -/
theorem Presents.congr {drv' : DrvState} {f : FcsPolicy} (h : drv.Presents f)
    (hbackend : drv'.backend = drv.backend) (hsize : drv'.fcsSize = drv.fcsSize)
    (hcheck : drv'.rxCheckFn = drv.rxCheckFn) (hcompute : drv'.txComputeFn = drv.txComputeFn) :
    drv'.Presents f where
  fcsSize := by rw [hsize, h.fcsSize]
  check buf hlen := by
    rw [← h.check buf hlen, rxCheck, rxCheck, hcheck, hsize, hbackend]
  compute segv hlen := by
    rw [← h.compute segv hlen, txCompute, txCompute, hcompute, hsize, hbackend]

end Hooks

/-! ### Whole runs -/

theorem init_isSome_iff (given : Option FcsBackend) :
    (ioHdlcSwDriverInit given).isSome ↔ (addedSizes given).card ≤ 2 := by
  rw [ioHdlcSwDriverInit, Option.isSome_map]
  exact resolveFcsCaps_isSome _

/-- The initialisation succeeds exactly if a complete backend adds no more sizes than there are free
slots. From then on, whatever is started, stopped and configured, the driver is consistent and its
hooks form a policy. -/
theorem drv_presents_policy {given : Option FcsBackend} (hlawful : ∀ b, given = some b → b.Lawful) :
    ((∃ drv, Initial given drv) ↔ (addedSizes given).card ≤ 2) ∧
      ∀ drv, Reachable (Initial given) Moves drv → Consistent given drv ∧ ∃ f, drv.Presents f := by
  constructor
  · rw [← init_isSome_iff, Option.isSome_iff_exists]
    rfl
  · intro drv h
    have hconsistent := consistent_of_reachable h
    exact ⟨hconsistent, hconsistent.presents hlawful⟩

/-- A backend with an octet of parity. -/
def parityBackend : FcsBackend where
  supportedSizes := ⟨[1, 0, 0, 0], rfl⟩
  defaultSize := 1
  check := some fun _ buf => buf.foldl (· ^^^ ·) 0 == 0
  compute := some fun _ segv => [segv.flatten.foldl (· ^^^ ·) 0]

theorem parityBackend_lawful : parityBackend.Lawful where
  segments compute hcompute n _ _ segv := by
    cases hcompute
    simp
  length compute hcompute n hn hzero buf := by
    cases hcompute
    have hone : n = 1 := by
      simp only [parityBackend, List.mem_cons, List.not_mem_nil, or_false] at hn
      tauto
    rw [hone]
    rfl
  accepts check compute hcheck hcompute n _ _ buf := by
    cases hcheck
    cases hcompute
    simp [List.foldl_append]
  check_alone check _ hno := by cases hno
  compute_alone compute _ hno := by cases hno

/-- A port that computes this octet itself. -/
theorem drv_presents_policy_parity :
    ∃ drv, Consistent (some parityBackend) drv ∧ drv.fcsSize = 1 ∧ drv.txDeferToPort = true ∧
      ∃ f, drv.Presents f := by
  have hlawful : ∀ b, some parityBackend = some b → b.Lawful := by
    rintro b ⟨⟩
    exact parityBackend_lawful
  obtain ⟨-, hruns⟩ := drv_presents_policy hlawful
  have h₀ : Reachable (Initial (some parityBackend)) Moves _ := .start rfl
  have h₁ := h₀.tail (.start rfl (some ⟨0, 0, ⟨[1, 0, 0, 0], rfl⟩⟩) rfl)
  have h₂ := h₁.tail (.configure 1 false 1 rfl)
  exact ⟨_, (hruns _ h₂).1, rfl, rfl, (hruns _ h₂).2⟩

section Station

variable {given : Option FcsBackend} {drv drv' : DrvState} {fffType : UInt8} {transparency : Bool}

/-- The driver as the set-up of the station sees it. The station asks for the default size; the
configuration is refused and taken as there, and what is taken presents the same policy. -/
theorem drvConfigure_refines (hlawful : ∀ b, given = some b → b.Lawful)
    (h : Reachable (Initial given) Moves drv) (hdefault : drv.defaultSize ≤ 4) :
    ∃ d : SwDriver, d.fcs.fcsSize = drv.defaultSize.toNat ∧
      ∀ (transparency : Bool) (fffType : UInt8),
        (∀ e, drv.drvConfigure drv.defaultSize transparency fffType = .error e →
          IoHdlc.drvConfigure d transparency fffType.toNat = .error e) ∧
        ∀ drv', drv.drvConfigure drv.defaultSize transparency fffType = .ok drv' →
          ∃ config, IoHdlc.drvConfigure d transparency fffType.toNat = .ok config ∧
            ∀ framesize, drv'.Presents (config framesize).fcs ∧
              (config framesize).applyTransparency = drv'.applyTransparency ∧
              (config framesize).frameFormatSize = drv'.frameFormatSize.toNat := by
  have hconsistent := consistent_of_reachable h
  -- the driver once its default size is configured
  have hsane : Sane given
      { drv with fcsSize := drv.defaultSize, applyTransparency := false, frameFormatSize := 0 } :=
    { hconsistent.toSane with
      capable := hconsistent.capable.congr rfl rfl rfl
      size := hconsistent.capable.default
      fff := List.mem_cons_self
      exclusive := fun hno => by cases hno }
  obtain ⟨f, hf⟩ := hsane.resolve.presents hlawful
  have hsize : f.fcsSize = drv.defaultSize.toNat := by
    obtain ⟨rx, tx, defer, hframe⟩ := resolveFcsPolicy_frame
      { drv with fcsSize := drv.defaultSize, applyTransparency := false, frameFormatSize := 0 }
    rw [hframe] at hf
    exact hf.fcsSize
  have hle : f.fcsSize ≤ 4 := hsize.trans_le (UInt8.le_iff_toNat_le.mp hdefault)
  refine ⟨⟨f, hle⟩, hsize, fun transparency fffType => ⟨fun e he => ?_, fun drv' hok => ?_⟩⟩
  · rw [drvConfigure, if_neg (by simp [hconsistent.capable.default])] at he
    rw [IoHdlc.drvConfigure]
    by_cases hfff : fffType ∈ fffTypes
    · rw [if_neg (not_not_intro hfff)] at he
      rw [dif_pos (mem_fffTypes.mp hfff)]
      split at he
      next hexcl =>
        have hzero : fffType.toNat = 0 ↔ fffType = 0 := by rw [← UInt8.toNat_inj]; rfl
        rw [dif_neg (by simpa [hzero] using hexcl)]
        cases he
        rfl
      next => cases he
    · rw [if_pos hfff] at he
      rw [dif_neg (fun hle => hfff (mem_fffTypes.mpr hle))]
      cases he
      rfl
  · obtain ⟨⟨-, hfff, hexcl⟩, rfl⟩ := drvConfigure_ok_iff.mp hok
    have hexcl' : transparency = true → fffType.toNat = 0 := fun ht => by rw [hexcl ht]; rfl
    refine ⟨_, by rw [IoHdlc.drvConfigure, dif_pos (mem_fffTypes.mp hfff), dif_pos hexcl'], ?_⟩
    intro framesize
    obtain ⟨hbackend, hfcs, hcheck, hcompute⟩ := @resolveFcsPolicy_hooks
      { drv with fcsSize := drv.defaultSize, applyTransparency := false, frameFormatSize := 0 }
      { drv with
        fcsSize := drv.defaultSize, applyTransparency := transparency, frameFormatSize := fffType }
      rfl rfl
    obtain ⟨rx, tx, defer, hframe⟩ := resolveFcsPolicy_frame { drv with
      fcsSize := drv.defaultSize, applyTransparency := transparency, frameFormatSize := fffType }
    refine ⟨hf.congr hbackend hfcs hcheck hcompute, ?_⟩
    rw [hframe]
    exact ⟨rfl, rfl⟩

/-- Transparency and a format field. -/
theorem drvConfigure_refines_parity :
    ∃ d : SwDriver, d.fcs.fcsSize = 1 ∧ IoHdlc.drvConfigure d true 1 = .error .EINVAL := by
  have hlawful : ∀ b, some parityBackend = some b → b.Lawful := by
    rintro b ⟨⟩
    exact parityBackend_lawful
  have h₀ : Reachable (Initial (some parityBackend)) Moves _ := .start rfl
  obtain ⟨d, hsize, hconf⟩ := drvConfigure_refines hlawful h₀ (by decide)
  exact ⟨d, hsize, (hconf true 1).1 .EINVAL rfl⟩

end Station

end DrvState

end IoHdlc
