import IoHdlc.Driver.Receive
import Mathlib.Tactic.Common

/-!
Who owns the buffer that the port writes into.

`Receive` looks at the octets. Here `s_on_rx` is the sequence of its calls at the two
interfaces: to the pool and the receive queue, with the pointer of the frame it gives away, and
to the port, which writes into the last submitted range until the request is complete, is
cancelled or the port is stopped. A receive error does not end it.
-/

namespace IoHdlc

/-! ### The calls of `s_on_rx` -/

/-- A call of the driver; `framep` is the frame that the range lies in, or `none` for the
staging cell. -/
inductive RxOp (F : Type) where
  | release (fp : F)
  | enqueue (fp : F)
  | rxCancel
  | rxSubmit (framep : Option F) (r : RxRequest)

/-- `drv->rx` in the course of a callback: `framep` is the pointer in `in_frame`, and `ops`
are the calls so far. -/
structure RxCall (F : Type) where
  rx : RxState
  framep : Option F
  ops : List (RxOp F)

namespace RxCall

variable {F : Type}

def rxCancel (x : RxCall F) : RxCall F := { x with ops := x.ops ++ [.rxCancel] }

def rxSubmit (x : RxCall F) (r : RxRequest) : RxCall F :=
  { x with
    ops := x.ops ++ [.rxSubmit (match r.target with | .stagep => none | .inFrame _ => x.framep) r] }

def sHandleRxError (x : RxCall F) : RxCall F :=
  { rx := IoHdlc.sHandleRxError x.rx
    framep := none
    ops := x.ops ++ x.framep.toList.map .release }

/-- The code at the label `newframe` when no frame is being assembled. -/
def newframe (take : Option (F × Frame)) (x : RxCall F) : RxCall F :=
  if x.rx.stagep = IOHDLC_FLAG then
    match take with
    | none => rxSubmit { x with rx := { x.rx with stagep := 0 } } stageRequest
    | some (f, fp) =>
      rxSubmit
        { x with
          rx := { x.rx with stagep := 0, inFrame := some { fp with elen := 0 } }
          framep := some f }
        (frameRequest 0 1)
  else x.rxSubmit stageRequest

/-- The frame is complete and goes to the upper layer. -/
def enqueue (x : RxCall F) (fp : Frame) : RxCall F :=
  { rx := { x.rx with
      receptQ := x.rx.receptQ ++ [fp]
      receptSem := x.rx.receptSem + 1
      inFrame := none
      stagep := IOHDLC_FLAG }
    framep := none
    ops := x.ops ++ x.framep.toList.map .enqueue }

def setElen (x : RxCall F) (fp : Frame) (elen : Nat) : RxCall F :=
  { x with rx := { x.rx with inFrame := some { fp with elen := elen } } }

def closingFlag (take : Option (F × Frame)) (x : RxCall F) (fp : Frame) : RxCall F :=
  if fp.elen = 0 then x.rxSubmit (frameRequest 0 1)
  else if fp.elen < HDLC_BASIC_MIN_L then (x.setElen fp 0).rxSubmit (frameRequest 0 1)
  else (x.enqueue fp).newframe take

def accumulate (cfg : DrvConfig) (take : Option (F × Frame)) (x : RxCall F) (fp : Frame) :
    RxCall F :=
  if cfg.framesize ≤ u16 (fp.elen + 1) then x.sHandleRxError.newframe take
  else (x.setElen fp (u16 (fp.elen + 1))).rxSubmit (frameRequest (fp.elen + 1) 1)

def formatField (cfg : DrvConfig) (take : Option (F × Frame)) (x : RxCall F) (fp : Frame) :
    RxCall F :=
  if cfg.frameFormatSize = 1 ∧ fp.elen = 0 then
    let n := (fp.frame 0).toNat
    if fp.frame 0 &&& 0x80 = 0 ∧ n ≠ 0 ∧ n < cfg.framesize then
      (x.setElen fp n).rxSubmit (frameRequest 1 n)
    else x.sHandleRxError.newframe take
  else if cfg.frameFormatSize = 2 then
    if fp.elen = 0 then
      if fp.frame 0 &&& 0xF0 = 0x80 then (x.setElen fp 1).rxSubmit (frameRequest 1 1)
      else x.sHandleRxError.newframe take
    else if fp.elen = 1 then
      let n := type1Length fp
      if n ≠ 0 ∧ n < cfg.framesize then (x.setElen fp n).rxSubmit (frameRequest 2 (n - 1))
      else x.sHandleRxError.newframe take
    else x.accumulate cfg take fp
  else x.accumulate cfg take fp

def sOnRxData (cfg : DrvConfig) (take : Option (F × Frame)) (x : RxCall F) : RxCall F :=
  match x.rx.inFrame with
  | none => x.newframe take
  | some fp =>
    if fp.frame fp.elen = IOHDLC_FLAG ∧ (cfg.frameFormatSize ≠ 2 ∨ fp.elen ≠ 1) then
      x.closingFlag take fp
    else if cfg.frameFormatSize ≠ 0 ∧ cfg.applyTransparency = false then x.formatField cfg take fp
    else x.accumulate cfg take fp

/-- An idle timeout wakes the receiver and returns. -/
def signalIdle (x : RxCall F) : RxCall F :=
  { x with rx := { x.rx with receptSem := x.rx.receptSem + 1 } }

/-- `s_on_rx`. The timeout path cancels the request before it gives the frame back, the error
path after it. -/
def sOnRx (cfg : DrvConfig) (take : Option (F × Frame)) (x : RxCall F) (errmask : Option RxError) :
    RxCall F :=
  match errmask with
  | none => x.sOnRxData cfg take
  | some .other => x.sHandleRxError.rxCancel.newframe take
  | some .tmo =>
    match x.rx.inFrame with
    | some fp =>
      if fp.elen ≠ 0 then x.rxCancel.sHandleRxError.newframe take else x.signalIdle
    | none => x.signalIdle

/-! ### The calls and the data agree -/

/-- The pointer is the pointer of the frame being assembled. -/
def Points (x : RxCall F) : Prop := x.framep.isSome = x.rx.inFrame.isSome

/-- `y` is `x` behind the calls `hand` and one submission, with the state and the request of
the data model; the range lies in the frame that is then being assembled. -/
structure Ends (x y : RxCall F) (hand : List (RxOp F)) (r : RxState × RxRequest) : Prop where
  rx : y.rx = r.1
  ops : y.ops = x.ops ++ (hand ++ [.rxSubmit y.framep r.2])
  points : y.Points

variable (cfg : DrvConfig) (take : Option (F × Frame)) {x : RxCall F} {fp : Frame}

/-- The calls of `hand` come first, then the rest of the callback. -/
theorem Ends.behind {x₁ y : RxCall F} {hand rest : List (RxOp F)} {r : RxState × RxRequest}
    (h : Ends x₁ y rest r) (hops : x₁.ops = x.ops ++ hand) : Ends x y (hand ++ rest) r :=
  { rx := h.rx
    ops := by rw [h.ops, hops]; simp only [List.append_assoc]
    points := h.points }

theorem newframe_ends (hp : x.framep = none) (hin : x.rx.inFrame = none) :
    Ends x (x.newframe take) [] (IoHdlc.newframe (take.map Prod.snd) x.rx) := by
  have hpoints : x.Points := by rw [Points, hp, hin]; rfl
  simp only [newframe, IoHdlc.newframe]
  split
  · cases take with
    | none => exact ⟨rfl, by simp [rxSubmit, stageRequest, hp], hpoints⟩
    | some t => exact ⟨rfl, by simp [rxSubmit, frameRequest], rfl⟩
  · exact ⟨rfl, by simp [rxSubmit, stageRequest, hp], hpoints⟩

/-- A frame that is dropped goes to the pool before the next request. -/
theorem dropped_ends (x : RxCall F) :
    Ends x (x.sHandleRxError.newframe take) (x.framep.toList.map .release)
      (IoHdlc.newframe (take.map Prod.snd) (IoHdlc.sHandleRxError x.rx)) := by
  have hends : Ends x.sHandleRxError (x.sHandleRxError.newframe take) [] _ :=
    newframe_ends take rfl rfl
  exact List.append_nil (x.framep.toList.map RxOp.release) ▸ hends.behind rfl

/-- The frame stays, and the next request lies in it. -/
theorem kept_ends (hp : x.framep.isSome = true) (hin : x.rx.inFrame.isSome = true)
    (off len : Nat) :
    Ends x (x.rxSubmit (frameRequest off len)) [] (x.rx, frameRequest off len) :=
  ⟨rfl, rfl, hp.trans hin.symm⟩

theorem setElen_ends (hp : x.framep.isSome = true) (fp : Frame) (elen off len : Nat) :
    Ends x ((x.setElen fp elen).rxSubmit (frameRequest off len)) []
      ({ x.rx with inFrame := some { fp with elen := elen } }, frameRequest off len) :=
  ⟨rfl, rfl, hp⟩

theorem closingFlag_ends (hp : x.framep.isSome = true) (hin : x.rx.inFrame = some fp) :
    ∃ hand, (hand = [] ∨ hand = x.framep.toList.map .enqueue) ∧
      Ends x (x.closingFlag take fp) hand
        (IoHdlc.closingFlag (take.map Prod.snd) x.rx fp) := by
  rw [closingFlag, IoHdlc.closingFlag]
  split
  · exact ⟨[], .inl rfl, kept_ends hp (by rw [hin]; rfl) 0 1⟩
  split
  · exact ⟨[], .inl rfl, setElen_ends hp fp ..⟩
  · have hends : Ends (x.enqueue fp) ((x.enqueue fp).newframe take) [] _ :=
    newframe_ends take rfl rfl
    exact ⟨_, .inr rfl, List.append_nil (x.framep.toList.map RxOp.enqueue) ▸ hends.behind rfl⟩

theorem accumulate_ends (hp : x.framep.isSome = true) (fp : Frame) :
    ∃ hand, (hand = [] ∨ hand = x.framep.toList.map .release) ∧
      Ends x (x.accumulate cfg take fp) hand
        (IoHdlc.accumulate cfg (take.map Prod.snd) x.rx fp) := by
  rw [accumulate, IoHdlc.accumulate]
  split
  · exact ⟨_, .inr rfl, dropped_ends take x⟩
  · exact ⟨[], .inl rfl, setElen_ends hp fp ..⟩

theorem formatField_ends (hp : x.framep.isSome = true) (fp : Frame) :
    ∃ hand, (hand = [] ∨ hand = x.framep.toList.map .release) ∧
      Ends x (x.formatField cfg take fp) hand
        (IoHdlc.formatField cfg (take.map Prod.snd) x.rx fp) := by
  simp only [formatField, IoHdlc.formatField]
  split
  · split
    · exact ⟨[], .inl rfl, setElen_ends hp fp ..⟩
    · exact ⟨_, .inr rfl, dropped_ends take x⟩
  split
  · split
    · split
      · exact ⟨[], .inl rfl, setElen_ends hp fp ..⟩
      · exact ⟨_, .inr rfl, dropped_ends take x⟩
    split
    · split
      · exact ⟨[], .inl rfl, setElen_ends hp fp ..⟩
      · exact ⟨_, .inr rfl, dropped_ends take x⟩
    · exact accumulate_ends cfg take hp fp
  · exact accumulate_ends cfg take hp fp

/-- Behind a complete request a frame is given away at most once, in front of the next
request. -/
theorem sOnRxData_ends (hx : x.Points) :
    ∃ hand, (hand = [] ∨ hand = x.framep.toList.map .release ∨
        hand = x.framep.toList.map .enqueue) ∧
      Ends x (x.sOnRxData cfg take) hand
        (IoHdlc.sOnRxData cfg (take.map Prod.snd) x.rx) := by
  rw [Points] at hx
  simp only [sOnRxData, IoHdlc.sOnRxData]
  cases hin : x.rx.inFrame with
  | none =>
    rw [hin] at hx
    exact ⟨[], .inl rfl, newframe_ends take
      (Option.isNone_iff_eq_none.mp (Option.isSome_eq_false_iff.mp hx)) hin⟩
  | some fp =>
    rw [hin] at hx
    dsimp only
    split
    · obtain ⟨hand, h | h, hends⟩ := closingFlag_ends take hx hin
      · exact ⟨hand, .inl h, hends⟩
      · exact ⟨hand, .inr (.inr h), hends⟩
    split
    · obtain ⟨hand, h | h, hends⟩ := formatField_ends cfg take hx fp
      · exact ⟨hand, .inl h, hends⟩
      · exact ⟨hand, .inr (.inl h), hends⟩
    · obtain ⟨hand, h | h, hends⟩ := accumulate_ends cfg take hx fp
      · exact ⟨hand, .inl h, hends⟩
      · exact ⟨hand, .inr (.inl h), hends⟩

/-- Behind an error the frame is given away and then the request cancelled. -/
theorem sOnRx_error_ends (x : RxCall F) :
    Ends x (x.sOnRx cfg take (some .other)) (x.framep.toList.map .release ++ [.rxCancel])
      (IoHdlc.newframe (take.map Prod.snd) (IoHdlc.sHandleRxError x.rx)) := by
  have hends : Ends x.sHandleRxError.rxCancel (x.sHandleRxError.rxCancel.newframe take) [] _ :=
    newframe_ends take rfl rfl
  rw [← List.append_nil (x.framep.toList.map RxOp.release ++ [RxOp.rxCancel])]
  exact hends.behind (by simp [sHandleRxError, rxCancel])

/-- A timeout between two frames only wakes the receiver. -/
theorem sOnRx_tmo_idle (h : ∀ fp, x.rx.inFrame = some fp → fp.elen = 0) :
    x.sOnRx cfg take (some .tmo) = x.signalIdle ∧
      IoHdlc.sOnRx cfg (take.map Prod.snd) x.rx (some .tmo) = (x.signalIdle.rx, none) := by
  constructor
  · rw [sOnRx]
    split
    next fp hin => rw [if_neg (not_not.mpr (h fp hin))]
    · rfl
  · rw [IoHdlc.sOnRx]
    split
    next fp hin =>
      rw [if_neg (not_not.mpr (h fp hin))]
      rfl
    · rfl

/-- Behind a timeout in a frame the request is cancelled and then the frame given away. -/
theorem sOnRx_tmo_ends (hin : x.rx.inFrame = some fp) (helen : fp.elen ≠ 0) :
    Ends x (x.sOnRx cfg take (some .tmo)) (.rxCancel :: x.framep.toList.map .release)
      (IoHdlc.newframe (take.map Prod.snd) (IoHdlc.sHandleRxError x.rx)) := by
  have hcall : x.sOnRx cfg take (some .tmo) = x.rxCancel.sHandleRxError.newframe take := by
    simp only [sOnRx, hin]
    rw [if_pos helen]
  rw [hcall]
  exact (dropped_ends take x.rxCancel).behind rfl

end RxCall

/-! ### The port -/

/-- The request that the port serves, the frame its range lies in and the octets that arrived
for it. -/
structure RxActive (F : Type) where
  framep : Option F
  request : RxRequest
  got : Nat

section Port

variable {F : Type}

/-- What a call does to the port. While a request is active it refuses another one. -/
def RxOp.apply (active : Option (RxActive F)) : RxOp F → Option (RxActive F)
  | .release _ => active
  | .enqueue _ => active
  | .rxCancel => none
  | .rxSubmit framep r =>
    match active with
    | some a => some a
    | none => some { framep := framep, request := r, got := 0 }

/-- A frame is given away only if the port does not write into it, and a request is made only
if there is none. -/
def RxOp.Safe (active : Option (RxActive F)) : RxOp F → Prop
  | .release fp => ∀ a, active = some a → a.framep ≠ some fp
  | .enqueue fp => ∀ a, active = some a → a.framep ≠ some fp
  | .rxCancel => True
  | .rxSubmit _ _ => active = none

def OpsSafe : Option (RxActive F) → List (RxOp F) → Prop
  | _, [] => True
  | active, op :: ops => op.Safe active ∧ OpsSafe (op.apply active) ops

/-- The driver, its port and whether it is started. -/
structure RxSite (F : Type) where
  rx : RxState
  framep : Option F
  active : Option (RxActive F)
  started : Bool

inductive RxSiteEvent where
  | port (ev : RxEvent)
  | stop

/-- After `drv_start`. -/
def drvStartSite : RxSite F :=
  { rx := drvStart.rx
    framep := none
    active := some { framep := none, request := stageRequest, got := 0 }
    started := true }

namespace RxSite

variable [DecidableEq F]

/-- The port writes an octet into the range of its request. Of a frame that is not the one
being assembled the driver does not see it. -/
def store (x : RxSite F) (a : RxActive F) (octet : UInt8) : RxState :=
  match a.request.target with
  | .stagep => { x.rx with stagep := octet }
  | .inFrame off =>
    if a.framep = x.framep then
      { x.rx with inFrame := x.rx.inFrame.map (·.setOctet (off + a.got) octet) }
    else x.rx

/-- The callback that an event leads to: what it finds, and its `errmask`. -/
def callOf (x : RxSite F) : RxSiteEvent → Option (RxSite F × Option RxError)
  | .port (.octet b) =>
    match x.active with
    | some a =>
      if x.started ∧ a.got + 1 = a.request.len then
        some ({ x with rx := x.store a b, active := none }, none)
      else none
    | none => none
  | .port (.error e) => if x.started then some (x, some e) else none
  | .stop => none

/-- Where a callback starts. -/
def entry (x : RxSite F) : RxCall F := { rx := x.rx, framep := x.framep, ops := [] }

/-- The calls of the callback. -/
def trace (cfg : DrvConfig) (take : Option (F × Frame)) (x : RxSite F) (errmask : Option RxError) :
    RxCall F :=
  RxCall.sOnRx cfg take x.entry errmask

def call (cfg : DrvConfig) (take : Option (F × Frame)) (x : RxSite F) (errmask : Option RxError) :
    RxSite F :=
  let t := x.trace cfg take errmask
  { x with rx := t.rx, framep := t.framep, active := t.ops.foldl RxOp.apply x.active }

/-- An event without a callback. -/
def silent (x : RxSite F) : RxSiteEvent → RxSite F
  | .port (.octet b) =>
    match x.active with
    | some a =>
      if x.started then { x with rx := x.store a b, active := some { a with got := a.got + 1 } }
      else x
    | none => x
  | .port (.error _) => x
  | .stop => if x.started then { x with active := none, started := false } else x

def step (cfg : DrvConfig) (take : Option (F × Frame)) (x : RxSite F) (ev : RxSiteEvent) :
    RxSite F :=
  match x.callOf ev with
  | some (y, errmask) => y.call cfg take errmask
  | none => x.silent ev

/-- A run: events, each with what the pool gives if the callback asks for a frame. -/
def run (cfg : DrvConfig) (x : RxSite F) (events : List (RxSiteEvent × Option (F × Frame))) :
    RxSite F :=
  events.foldl (fun x e => x.step cfg e.2 e.1) x

/-- Every call that the event leads to is safe where the port stands then. -/
def StepSafe (cfg : DrvConfig) (take : Option (F × Frame)) (x : RxSite F) (ev : RxSiteEvent) :
    Prop :=
  ∀ y errmask, x.callOf ev = some (y, errmask) → OpsSafe y.active (y.trace cfg take errmask).ops

/-- A receive error reported while a frame is being assembled. -/
def ErrorInFrame (x : RxSite F) (ev : RxSiteEvent) : Prop :=
  ev = .port (.error .other) ∧ x.started = true ∧ x.framep.isSome = true

/-- Between two events the started port writes into the frame being assembled, or into the
staging cell if there is none. -/
structure Armed (x : RxSite F) : Prop where
  points : x.framep.isSome = x.rx.inFrame.isSome
  active : x.started = true → ∃ a, x.active = some a ∧ a.framep = x.framep

end RxSite

end Port

/-! ### What a callback does to the port -/

section Ops

variable {F : Type}

theorem opsSafe_append {active : Option (RxActive F)} (ops rest : List (RxOp F)) :
    OpsSafe active (ops ++ rest) ↔
      OpsSafe active ops ∧ OpsSafe (ops.foldl RxOp.apply active) rest := by
  induction ops generalizing active with
  | nil => rw [List.nil_append, List.foldl_nil, OpsSafe, true_and]
  | cons op ops ih =>
    rw [List.cons_append, OpsSafe, OpsSafe, ih, List.foldl_cons, and_assoc]

theorem given_release (fp : F) : RxOp.release fp = .release fp ∨ RxOp.release fp = .enqueue fp :=
  .inl rfl

theorem given_enqueue (fp : F) : RxOp.enqueue fp = .release fp ∨ RxOp.enqueue fp = .enqueue fp :=
  .inr rfl

/-- Frames given away: nothing happens at the port. -/
theorem foldl_given (active : Option (RxActive F)) (f : F → RxOp F)
    (hf : ∀ fp, f fp = .release fp ∨ f fp = .enqueue fp) (framep : Option F) :
    (framep.toList.map f).foldl RxOp.apply active = active := by
  cases framep with
  | none => rfl
  | some fp => rcases hf fp with h | h <;> simp [h, RxOp.apply]

theorem opsSafe_given {active : Option (RxActive F)} (f : F → RxOp F)
    (hf : ∀ fp, f fp = .release fp ∨ f fp = .enqueue fp) (framep : Option F) :
    OpsSafe active (framep.toList.map f) ↔
      ∀ a fp, active = some a → framep = some fp → a.framep ≠ some fp := by
  cases framep with
  | none => exact ⟨fun _ _ _ _ h => (nomatch h), fun _ => trivial⟩
  | some fp =>
    have hsafe : (f fp).Safe active ↔ ∀ a, active = some a → a.framep ≠ some fp := by
      rcases hf fp with h | h
      all_goals
        rw [h]
        exact Iff.rfl
    rw [Option.toList_some, List.map_singleton, OpsSafe, OpsSafe, and_true, hsafe]
    constructor
    · rintro h a _ ha ⟨⟩
      exact h a ha
    · intro h a ha
      exact h a fp ha rfl

end Ops

namespace RxSite

variable {F : Type} (cfg : DrvConfig) (take : Option (F × Frame)) {x : RxSite F}

/-- The submission behind an idle port is accepted. -/
theorem call_active {errmask : Option RxError} {hand : List (RxOp F)} {r : RxState × RxRequest}
    (h : RxCall.Ends x.entry (x.trace cfg take errmask) hand r)
    (hidle : hand.foldl RxOp.apply x.active = none) :
    (x.call cfg take errmask).active =
      some { framep := (x.trace cfg take errmask).framep, request := r.2, got := 0 } := by
  have hops : (x.trace cfg take errmask).ops =
      hand ++ [.rxSubmit (x.trace cfg take errmask).framep r.2] := h.ops
  show (x.trace cfg take errmask).ops.foldl RxOp.apply x.active = _
  rw [hops, List.foldl_append, hidle]
  rfl

/-- A callback that leaves the port idle before its submission. -/
theorem call_armed (errmask : Option RxError) {hand : List (RxOp F)} {r : RxState × RxRequest}
    (h : RxCall.Ends x.entry (x.trace cfg take errmask) hand r)
    (hidle : hand.foldl RxOp.apply x.active = none) :
    (x.call cfg take errmask).Armed ∧
      (OpsSafe x.active (x.trace cfg take errmask).ops ↔ OpsSafe x.active hand) := by
  have hops : (x.trace cfg take errmask).ops =
      hand ++ [.rxSubmit (x.trace cfg take errmask).framep r.2] := h.ops
  refine ⟨⟨h.points, fun _ => ⟨_, call_active cfg take h hidle, rfl⟩⟩, ?_⟩
  rw [hops, opsSafe_append, hidle]
  exact ⟨fun hs => hs.1, fun hs => ⟨hs, rfl, trivial⟩⟩

/-- Behind a complete request nothing is written any more, whatever is given away. -/
theorem call_data (hx : x.framep.isSome = x.rx.inFrame.isSome) (hidle : x.active = none) :
    (x.call cfg take none).Armed ∧ OpsSafe x.active (x.trace cfg take none).ops := by
  obtain ⟨hand, hhand, hends⟩ := RxCall.sOnRxData_ends cfg take
    (x := x.entry) hx
  have hfold : hand.foldl RxOp.apply x.active = none ∧ OpsSafe x.active hand := by
    rw [hidle]
    rcases hhand with rfl | rfl | rfl
    · exact ⟨rfl, trivial⟩
    · exact ⟨foldl_given none _ given_release _, (opsSafe_given _ given_release _).mpr nofun⟩
    · exact ⟨foldl_given none _ given_enqueue _, (opsSafe_given _ given_enqueue _).mpr nofun⟩
  have hcall := call_armed cfg take none hends hfold.1
  exact ⟨hcall.1, hcall.2.mpr hfold.2⟩

/-- Behind a receive error the frame is given away under the pen of the port. -/
theorem call_error {a : RxActive F} (hactive : x.active = some a) (ha : a.framep = x.framep) :
    (x.call cfg take (some .other)).Armed ∧
      (OpsSafe x.active (x.trace cfg take (some .other)).ops ↔ x.framep = none) := by
  have hends := RxCall.sOnRx_error_ends cfg take x.entry
  have hcall := call_armed cfg take (some .other) hends (by
    rw [List.foldl_append, foldl_given x.active _ given_release]
    rfl)
  refine ⟨hcall.1, hcall.2.trans ?_⟩
  rw [opsSafe_append, opsSafe_given _ given_release]
  constructor
  · rintro ⟨hs, -⟩
    cases hf : x.framep with
    | none => rfl
    | some fp => exact absurd (ha.trans hf) (hs a fp hactive hf)
  · intro hf
    exact ⟨fun _ _ _ h => (nomatch hf.symm.trans h), trivial, trivial⟩

/-- A timeout cancels first, or it touches neither the frame nor the port. -/
theorem call_tmo (hx : x.Armed) :
    (x.started = true → (x.call cfg take (some .tmo)).Armed) ∧
      OpsSafe x.active (x.trace cfg take (some .tmo)).ops := by
  by_cases hidle : ∀ fp, x.rx.inFrame = some fp → fp.elen = 0
  · have hquiet : x.trace cfg take (some .tmo) = _ :=
      (RxCall.sOnRx_tmo_idle cfg take (x := x.entry) hidle).1
    rw [call, hquiet]
    exact ⟨fun _ => ⟨hx.points, hx.active⟩, trivial⟩
  · push Not at hidle
    obtain ⟨fp, hin, helen⟩ := hidle
    have hends := RxCall.sOnRx_tmo_ends cfg take
      (x := x.entry) hin helen
    have hcall := call_armed cfg take (some .tmo) hends (foldl_given none _ given_release _)
    refine ⟨fun _ => hcall.1, hcall.2.mpr ⟨trivial, ?_⟩⟩
    exact (opsSafe_given _ given_release _).mpr nofun

/-! ### A run -/

theorem drvStartSite_armed : (drvStartSite : RxSite F).Armed := ⟨rfl, fun _ => ⟨_, rfl, rfl⟩⟩

/-- The driver and the port of the data model. -/
def toPort (x : RxSite F) (a : RxActive F) : RxPort :=
  { rx := x.rx, request := a.request, got := a.got }

/-- A callback that submits a request. -/
theorem call_toPort (errmask : Option RxError) {hand : List (RxOp F)} {r : RxState × RxRequest}
    (h : RxCall.Ends x.entry (x.trace cfg take errmask) hand r)
    (hidle : hand.foldl RxOp.apply x.active = none) {p : RxPort}
    (hr : IoHdlc.sOnRx cfg (take.map Prod.snd) p.rx errmask = (r.1, some r.2)) :
    ∃ a', (x.call cfg take errmask).active = some a' ∧
      (x.call cfg take errmask).toPort a' = p.call cfg (take.map Prod.snd) errmask := by
  refine ⟨_, call_active cfg take h hidle, ?_⟩
  have hrx : (x.call cfg take errmask).rx = r.1 := h.rx
  rw [RxPort.call, hr, toPort, hrx]

variable [DecidableEq F]

/-- An octet leaves the frame being assembled where it is. -/
theorem store_points (a : RxActive F) (b : UInt8) :
    (x.store a b).inFrame.isSome = x.rx.inFrame.isSome := by
  rw [store]
  split
  · rfl
  · split
    · exact Option.isSome_map
    · rfl

/-- The callback behind the last octet of a request finds the port idle. -/
theorem callOf_octet (hx : x.Armed) {b : UInt8} {y : RxSite F} {errmask : Option RxError}
    (h : x.callOf (.port (.octet b)) = some (y, errmask)) :
    errmask = none ∧ y.active = none ∧ y.framep.isSome = y.rx.inFrame.isSome := by
  simp only [callOf] at h
  split at h
  next a ha =>
    split at h
    · cases h
      exact ⟨rfl, rfl, hx.points.trans (store_points a b).symm⟩
    · cases h
  · cases h

theorem callOf_error {e : RxError} {y : RxSite F} {errmask : Option RxError}
    (h : x.callOf (.port (.error e)) = some (y, errmask)) :
    y = x ∧ errmask = some e ∧ x.started = true := by
  simp only [callOf] at h
  split at h
  next hstarted =>
    cases h
    exact ⟨rfl, rfl, hstarted⟩
  · cases h

theorem silent_armed (hx : x.Armed) (ev : RxSiteEvent) : (x.silent ev).Armed := by
  cases ev with
  | stop =>
    rw [silent]
    split
    · exact ⟨hx.points, nofun⟩
    · exact hx
  | port ev =>
    cases ev with
    | error e => exact hx
    | octet b =>
      simp only [silent]
      split
      next a ha =>
        split
        next hstarted =>
          obtain ⟨a', ha', hframep⟩ := hx.active hstarted
          obtain rfl : a = a' := Option.some.inj (ha.symm.trans ha')
          exact ⟨hx.points.trans (store_points a b).symm, fun _ => ⟨_, rfl, hframep⟩⟩
        · exact hx
      · exact hx

/-- Every event leaves the port armed, also the one whose callback is not safe. -/
theorem step_armed (hx : x.Armed) (ev : RxSiteEvent) : (x.step cfg take ev).Armed := by
  rw [step]
  cases hcall : x.callOf ev with
  | none => exact silent_armed hx ev
  | some c =>
    obtain ⟨y, errmask⟩ := c
    cases ev with
    | stop => cases hcall
    | port ev =>
      cases ev with
      | octet b =>
        obtain ⟨rfl, hidle, hpoints⟩ := callOf_octet hx hcall
        exact (call_data cfg take hpoints hidle).1
      | error e =>
        obtain ⟨rfl, rfl, hstarted⟩ := callOf_error hcall
        cases e with
        | tmo => exact (call_tmo cfg take hx).1 hstarted
        | other =>
          obtain ⟨a, ha, hframep⟩ := hx.active hstarted
          exact (call_error cfg take ha hframep).1

/-- The calls of one event are safe unless an error is reported in a frame. -/
theorem stepSafe_iff (hx : x.Armed) (ev : RxSiteEvent) :
    x.StepSafe cfg take ev ↔ ¬x.ErrorInFrame ev := by
  cases ev with
  | stop => exact iff_of_true nofun fun h => nomatch h.1
  | port ev =>
    cases ev with
    | octet b =>
      refine iff_of_true (fun y errmask hcall => ?_) fun h => nomatch h.1
      obtain ⟨rfl, hidle, hpoints⟩ := callOf_octet hx hcall
      exact (call_data cfg take hpoints hidle).2
    | error e =>
      cases e with
      | tmo =>
        refine iff_of_true (fun y errmask hcall => ?_) fun h => nomatch h.1
        obtain ⟨rfl, rfl, -⟩ := callOf_error hcall
        exact (call_tmo cfg take hx).2
      | other =>
        constructor
        · rintro h ⟨-, hstarted, hin⟩
          obtain ⟨a, ha, hframep⟩ := hx.active hstarted
          have hsafe := h x _ (if_pos hstarted)
          rw [(call_error cfg take ha hframep).2.mp hsafe] at hin
          cases hin
        · intro h y errmask hcall
          obtain ⟨rfl, rfl, hstarted⟩ := callOf_error hcall
          obtain ⟨a, ha, hframep⟩ := hx.active hstarted
          refine (call_error cfg take ha hframep).2.mpr ?_
          exact Option.not_isSome_iff_eq_none.mp fun hin => h ⟨rfl, hstarted, hin⟩

theorem toPort_store {a : RxActive F} (ha : a.framep = x.framep) (b : UInt8) :
    (x.toPort a).store b = { rx := x.store a b, request := a.request, got := a.got + 1 } := by
  cases htarget : a.request.target with
  | stagep => simp only [RxPort.store, toPort, store, htarget]
  | inFrame off => simp only [RxPort.store, toPort, store, htarget, if_pos ha]

/-- While the driver is started its data, and the request at the port, are those of the model
in which a new request simply replaces the last one. -/
theorem step_toPort (hx : x.Armed) (hstarted : x.started = true) {a : RxActive F}
    (ha : x.active = some a) (ev : RxEvent) :
    ∃ a', (x.step cfg take (.port ev)).active = some a' ∧
      (x.step cfg take (.port ev)).toPort a' = (x.toPort a).step cfg (take.map Prod.snd) ev := by
  obtain ⟨a₀, ha₀, hframep⟩ := hx.active hstarted
  obtain rfl : a₀ = a := Option.some.inj (ha₀.symm.trans ha)
  cases ev with
  | octet b =>
    rw [RxPort.step, RxPort.octet, toPort_store hframep]
    by_cases hlen : a₀.got + 1 = a₀.request.len
    · have hcall : x.callOf (.port (.octet b)) =
          some ({ x with rx := x.store a₀ b, active := none }, none) := by
        simp only [callOf, ha, hstarted, hlen, and_self, if_true]
      have hpoints := hx.points.trans (store_points a₀ b).symm
      obtain ⟨hand, hhand, hends⟩ := RxCall.sOnRxData_ends cfg take
        (x := RxSite.entry { x with rx := x.store a₀ b, active := none }) hpoints
      rw [step, hcall]
      dsimp only
      rw [if_pos hlen]
      refine call_toPort cfg take none hends ?_ rfl
      rcases hhand with rfl | rfl | rfl
      · rfl
      · exact foldl_given none _ given_release _
      · exact foldl_given none _ given_enqueue _
    · have hcall : x.callOf (.port (.octet b)) = none := by
        simp only [callOf, ha, hlen, and_false, if_false]
      rw [step, hcall]
      dsimp only
      rw [if_neg hlen, silent, ha]
      dsimp only
      rw [if_pos hstarted]
      exact ⟨_, rfl, rfl⟩
  | error e =>
    have hcall : x.callOf (.port (.error e)) = some (x, some e) := if_pos hstarted
    rw [step, hcall]
    dsimp only
    cases e with
    | other =>
      refine call_toPort cfg take (some .other) (RxCall.sOnRx_error_ends cfg take _) ?_ rfl
      rw [List.foldl_append, foldl_given x.active _ given_release]
      rfl
    | tmo =>
      by_cases hidle : ∀ fp, x.rx.inFrame = some fp → fp.elen = 0
      · obtain ⟨hquiet, hdata⟩ := RxCall.sOnRx_tmo_idle cfg take
          (x := x.entry) hidle
        have htrace : x.trace cfg take (some .tmo) = _ := hquiet
        have hport : IoHdlc.sOnRx cfg (take.map Prod.snd) (x.toPort a₀).rx (some .tmo) = _ := hdata
        rw [RxPort.step, RxPort.call, hport, call, htrace]
        exact ⟨a₀, ha, rfl⟩
      · push Not at hidle
        obtain ⟨fp, hin, helen⟩ := hidle
        refine call_toPort cfg take (some .tmo) (RxCall.sOnRx_tmo_ends cfg take hin helen)
          (foldl_given none _ given_release _) ?_
        simp only [toPort, sOnRx, hin]
        rw [if_pos helen]
        rfl

theorem run_armed (events : List (RxSiteEvent × Option (F × Frame)))
    (hx : x.Armed) : (x.run cfg events).Armed := by
  induction events generalizing x with
  | nil => exact hx
  | cons e events ih => exact ih (step_armed cfg e.2 hx e.1)

end RxSite

/-- A flag, an octet of a frame, and an error on the line. -/
def errorInFrameRun : List (RxSiteEvent × Option (Nat × Frame)) :=
  [(.port (.octet 0x7E), some (1, default)), (.port (.octet 0x01), none),
    (.port (.error .other), none)]

/-- In every run the driver gives no frame away that the port may still write into, and has
every request accepted, exactly as long as no receive error is reported in a frame. -/
theorem rx_run_safe_iff {F : Type} [DecidableEq F] (cfg : DrvConfig)
    (events : List (RxSiteEvent × Option (F × Frame))) :
    (∀ pre e, pre ++ [e] <+: events → (drvStartSite.run cfg pre).StepSafe cfg e.2 e.1) ↔
      ∀ pre e, pre ++ [e] <+: events → ¬(drvStartSite.run cfg pre).ErrorInFrame e.1 :=
  forall_congr' fun pre => forall_congr' fun e => imp_congr_right fun _ =>
    RxSite.stepSafe_iff cfg e.2 (RxSite.run_armed cfg pre RxSite.drvStartSite_armed) e.1

/-- The frame goes back to the pool while the port still waits for its second octet. -/
theorem rx_run_releases_under_request :
    ¬∀ (cfg : DrvConfig) (events : List (RxSiteEvent × Option (Nat × Frame))),
      ∀ pre e, pre ++ [e] <+: events → (drvStartSite.run cfg pre).StepSafe cfg e.2 e.1 := by
  intro hall
  have hsafe := hall (.transparent fcsSw 256) errorInFrameRun
    [(.port (.octet 0x7E), some (1, default)), (.port (.octet 0x01), none)]
    (.port (.error .other), none) (List.prefix_refl _) _ _ rfl
  exact hsafe.1 _ rfl rfl

end IoHdlc
