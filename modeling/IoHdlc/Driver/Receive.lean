import IoHdlc.Driver.Transmit

/-!
Reception in the software driver: the callback `s_on_rx`, the port that runs
it, and `drv_recv_frame`.

The callback asks the port for one octet or, once it knows the length of a
frame, for the rest of it in one piece. The port stores the octets where it was
asked to and calls back when the piece is complete, on an error or on a
timeout.
-/

namespace IoHdlc

def HDLC_BASIC_MIN_L : Nat := 4

/-- Where received octets go: the staging cell or the frame being assembled. -/
inductive RxTarget where
  | stagep
  | inFrame (off : Nat)
  deriving DecidableEq, Repr

/-- `iohdlc_rx_mode_t`. -/
inductive RxMode where
  | startPacket | continuePacket
  deriving DecidableEq, Repr

/-- The arguments of one `rx_submit`. -/
structure RxRequest where
  target : RxTarget
  len : Nat
  mode : RxMode
  deriving DecidableEq, Repr

/-- The receive side of the driver, `drv->rx`. -/
structure RxState where
  inFrame : Option Frame
  stagep : UInt8
  receptQ : List Frame
  receptSem : Nat

/-- What the port reports with a callback, besides complete data. -/
inductive RxError where
  | tmo | other
  deriving DecidableEq, Repr

def sHandleRxError (d : RxState) : RxState := { d with inFrame := none, stagep := 0 }

def stageRequest : RxRequest := { target := .stagep, len := 1, mode := .startPacket }

def frameRequest (off len : Nat) : RxRequest :=
  { target := .inFrame off, len := len, mode := .continuePacket }

/-- The code at the label `newframe` when no frame is being assembled; `take` is
what the pool gives if it is asked. -/
def newframe (take : Option Frame) (d : RxState) : RxState × RxRequest :=
  if d.stagep = IOHDLC_FLAG then
    match take with
    | none => ({ d with stagep := 0 }, stageRequest)
    | some fp => ({ d with stagep := 0, inFrame := some { fp with elen := 0 } }, frameRequest 0 1)
  else (d, stageRequest)

/-- A closing flag after `elen` octets. -/
def closingFlag (take : Option Frame) (d : RxState) (fp : Frame) : RxState × RxRequest :=
  if fp.elen = 0 then (d, frameRequest 0 1)
  else if fp.elen < HDLC_BASIC_MIN_L then
    ({ d with inFrame := some { fp with elen := 0 } }, frameRequest 0 1)
  else
    newframe take { d with
      receptQ := d.receptQ ++ [fp]
      receptSem := d.receptSem + 1
      inFrame := none
      stagep := IOHDLC_FLAG }

/-- One more octet of a frame whose length is not known, or was exceeded. -/
def accumulate (cfg : DrvConfig) (take : Option Frame) (d : RxState) (fp : Frame) :
    RxState × RxRequest :=
  if cfg.framesize ≤ u16 (fp.elen + 1) then newframe take (sHandleRxError d)
  else ({ d with inFrame := some { fp with elen := u16 (fp.elen + 1) } }, frameRequest (fp.elen + 1) 1)

/-- The length in the two octets of a TYPE 1 field. -/
def type1Length (fp : Frame) : Nat := ((fp.frame 0 &&& 0x0F).toNat <<< 8) ||| (fp.frame 1).toNat

/-- A frame format field, or an octet after it. -/
def formatField (cfg : DrvConfig) (take : Option Frame) (d : RxState) (fp : Frame) :
    RxState × RxRequest :=
  if cfg.frameFormatSize = 1 ∧ fp.elen = 0 then
    let n := (fp.frame 0).toNat
    if fp.frame 0 &&& 0x80 = 0 ∧ n ≠ 0 ∧ n < cfg.framesize then
      ({ d with inFrame := some { fp with elen := n } }, frameRequest 1 n)
    else newframe take (sHandleRxError d)
  else if cfg.frameFormatSize = 2 then
    if fp.elen = 0 then
      if fp.frame 0 &&& 0xF0 = 0x80 then
        ({ d with inFrame := some { fp with elen := 1 } }, frameRequest 1 1)
      else newframe take (sHandleRxError d)
    else if fp.elen = 1 then
      let n := type1Length fp
      -- `elen = n--`: the octets already in the buffer are not asked for again.
      if n ≠ 0 ∧ n < cfg.framesize then
        ({ d with inFrame := some { fp with elen := n } }, frameRequest 2 (n - 1))
      else newframe take (sHandleRxError d)
    else accumulate cfg take d fp
  else accumulate cfg take d fp

/-- `s_on_rx` on complete data. -/
def sOnRxData (cfg : DrvConfig) (take : Option Frame) (d : RxState) : RxState × RxRequest :=
  match d.inFrame with
  | none => newframe take d
  | some fp =>
    if fp.frame fp.elen = IOHDLC_FLAG ∧ (cfg.frameFormatSize ≠ 2 ∨ fp.elen ≠ 1) then
      closingFlag take d fp
    else if cfg.frameFormatSize ≠ 0 ∧ cfg.applyTransparency = false then formatField cfg take d fp
    else accumulate cfg take d fp

/-- `s_on_rx`. Only an idle timeout returns without a request. -/
def sOnRx (cfg : DrvConfig) (take : Option Frame) (d : RxState) (errmask : Option RxError) :
    RxState × Option RxRequest :=
  match errmask with
  | none => let r := sOnRxData cfg take d; (r.1, some r.2)
  | some .other => let r := newframe take (sHandleRxError d); (r.1, some r.2)
  | some .tmo =>
    match d.inFrame with
    | some fp =>
      if fp.elen ≠ 0 then let r := newframe take (sHandleRxError d); (r.1, some r.2)
      else ({ d with receptSem := d.receptSem + 1 }, none)
    | none => ({ d with receptSem := d.receptSem + 1 }, none)

/-! ### What a callback does -/

/-- A callback looks for a frame, begins with the one it found again, queues it, drops it, or asks
for more of it. -/
inductive RxState.Calls (cfg : DrvConfig) (take : Option Frame) (d : RxState) :
    RxState × RxRequest → Prop
  | search (hin : d.inFrame = none) : d.Calls cfg take (newframe take d)
  | restart {fp : Frame} (hin : d.inFrame = some fp) (hflag : fp.frame fp.elen = IOHDLC_FLAG) :
    d.Calls cfg take ({ d with inFrame := some { fp with elen := 0 } }, frameRequest 0 1)
  | queue {fp : Frame} (hin : d.inFrame = some fp) (hflag : fp.frame fp.elen = IOHDLC_FLAG)
    (hmin : HDLC_BASIC_MIN_L ≤ fp.elen) :
    d.Calls cfg take (newframe take { d with
      receptQ := d.receptQ ++ [fp]
      receptSem := d.receptSem + 1
      inFrame := none
      stagep := IOHDLC_FLAG })
  | drop : d.Calls cfg take (newframe take (sHandleRxError d))
  | more {fp : Frame} {elen off len : Nat} (hin : d.inFrame = some fp)
    (hflag : fp.frame fp.elen = IOHDLC_FLAG → cfg.frameFormatSize = 2)
    (hlen : (cfg.frameFormatSize = 2 ∧ elen = 1) ∨ (elen < 65536 ∧ elen < cfg.framesize)) :
    d.Calls cfg take
      ({ d with inFrame := some { fp with elen := elen } }, frameRequest (off + 1) len)

section Calls

variable {cfg : DrvConfig} {take : Option Frame} {d : RxState} {fp : Frame}

theorem accumulate_calls (hin : d.inFrame = some fp)
    (hflag : fp.frame fp.elen = IOHDLC_FLAG → cfg.frameFormatSize = 2) :
    d.Calls cfg take (accumulate cfg take d fp) := by
  rw [accumulate]
  split
  · exact .drop
  next hlt => exact .more hin hflag (.inr ⟨Nat.mod_lt _ (by decide), Nat.not_le.mp hlt⟩)

theorem closingFlag_calls (hin : d.inFrame = some fp) (hflag : fp.frame fp.elen = IOHDLC_FLAG) :
    d.Calls cfg take (closingFlag take d fp) := by
  rw [closingFlag]
  split
  next h0 =>
    have hsame : { d with inFrame := some { fp with elen := 0 } } = d := by rw [← h0, ← hin]
    have hrestart : d.Calls cfg take ({ d with inFrame := some { fp with elen := 0 } },
      frameRequest 0 1) := .restart hin hflag
    rwa [hsame] at hrestart
  · split
    · exact .restart hin hflag
    next hmin => exact .queue hin hflag (Nat.not_lt.mp hmin)

theorem type1Length_lt (fp : Frame) : type1Length fp < 4096 := by
  have h₁ : (fp.frame 0 &&& 0x0F).toNat < 2 ^ 4 := by
    rw [UInt8.toNat_and]
    exact Nat.lt_of_le_of_lt Nat.and_le_right (by decide)
  have h₂ : (fp.frame 0 &&& 0x0F).toNat <<< 8 < 2 ^ 12 := by
    rw [Nat.shiftLeft_eq]
    omega
  exact Nat.or_lt_two_pow h₂ (Nat.lt_trans (fp.frame 1).toNat_lt (by decide))

theorem formatField_calls (hin : d.inFrame = some fp)
    (hflag : fp.frame fp.elen = IOHDLC_FLAG → cfg.frameFormatSize = 2) :
    d.Calls cfg take (formatField cfg take d fp) := by
  simp only [formatField]
  split
  -- a TYPE 0 field
  · split
    next hn =>
      exact .more hin hflag (.inr ⟨Nat.lt_trans (fp.frame 0).toNat_lt (by decide), hn.2.2⟩)
    · exact .drop
  · split
    next h2 =>
      split
      -- the first octet of a TYPE 1 field
      · split
        · exact .more hin hflag (.inl ⟨h2, rfl⟩)
        · exact .drop
      · split
        -- its second octet
        · split
          next hn =>
            exact .more hin hflag (.inr ⟨Nat.lt_trans (type1Length_lt fp) (by decide), hn.2⟩)
          · exact .drop
        · exact accumulate_calls hin hflag
    · exact accumulate_calls hin hflag

theorem sOnRxData_calls (cfg : DrvConfig) (take : Option Frame) (d : RxState) :
    d.Calls cfg take (sOnRxData cfg take d) := by
  cases hin : d.inFrame with
  | none =>
    simp only [sOnRxData, hin]
    exact .search hin
  | some fp =>
    simp only [sOnRxData, hin]
    split
    next hflag => exact closingFlag_calls hin hflag.1
    next hno =>
      have hflag : fp.frame fp.elen = IOHDLC_FLAG → cfg.frameFormatSize = 2 := by
        intro h
        by_contra hne
        exact hno ⟨h, .inl hne⟩
      split
      · exact formatField_calls hin hflag
      · exact accumulate_calls hin hflag

end Calls

/-! ### What a call leaves -/

/-- A call leaves the frame it found, one it emptied, or one whose length it
compared with the frame size; only the first octet of a TYPE 1 field is counted
without that. It adds the frame it found to the queue, with a signal, or nothing. -/
structure RxState.Leaves (cfg : DrvConfig) (d d' : RxState) : Prop where
  frame : ∀ fp', d'.inFrame = some fp' → d.inFrame = some fp' ∨ fp'.elen = 0 ∨
    (cfg.frameFormatSize = 2 ∧ fp'.elen = 1) ∨ (fp'.elen < 65536 ∧ fp'.elen < cfg.framesize)
  queue : (d'.receptQ = d.receptQ ∧ d.receptSem ≤ d'.receptSem) ∨
    ∃ fp, d.inFrame = some fp ∧ HDLC_BASIC_MIN_L ≤ fp.elen ∧ d'.receptQ = d.receptQ ++ [fp] ∧
      d'.receptSem = d.receptSem + 1

section Leaves

variable {cfg : DrvConfig} {take : Option Frame} {d : RxState}

/-- A new frame for the one in the driver, and the queue untouched. -/
theorem RxState.Leaves.of_frame {d' : RxState} (hq : d'.receptQ = d.receptQ)
    (hsem : d.receptSem ≤ d'.receptSem)
    (h : ∀ fp', d'.inFrame = some fp' → d.inFrame = some fp' ∨ fp'.elen = 0 ∨
      (cfg.frameFormatSize = 2 ∧ fp'.elen = 1) ∨ (fp'.elen < 65536 ∧ fp'.elen < cfg.framesize)) :
    d.Leaves cfg d' :=
  ⟨h, .inl ⟨hq, hsem⟩⟩

/-- At `newframe` there is no frame; afterwards there is none or an empty one. -/
theorem newframe_frame (h : d.inFrame = none) (fp' : Frame)
    (hfp : (newframe take d).1.inFrame = some fp') : fp'.elen = 0 := by
  simp only [newframe] at hfp
  split at hfp
  · cases take with
    | none => rw [h] at hfp; cases hfp
    | some fp => cases hfp; rfl
  · rw [h] at hfp; cases hfp

theorem newframe_queue (take : Option Frame) (d : RxState) :
    (newframe take d).1.receptQ = d.receptQ ∧ (newframe take d).1.receptSem = d.receptSem := by
  simp only [newframe]
  split
  · cases take <;> exact ⟨rfl, rfl⟩
  · exact ⟨rfl, rfl⟩

theorem newframe_leaves : d.Leaves cfg (newframe take (sHandleRxError d)).1 := by
  have hq := newframe_queue take (sHandleRxError d)
  exact .of_frame hq.1 (Nat.le_of_eq hq.2.symm) fun fp' h => .inr (.inl (newframe_frame rfl fp' h))

theorem RxState.Calls.leaves {r : RxState × RxRequest} (h : d.Calls cfg take r) :
    d.Leaves cfg r.1 := by
  cases h with
  | search hin =>
    have hq := newframe_queue take d
    exact .of_frame hq.1 (Nat.le_of_eq hq.2.symm) fun fp' h => .inr (.inl (newframe_frame hin fp' h))
  | drop => exact newframe_leaves
  | restart => exact .of_frame rfl le_rfl (by rintro fp' ⟨⟩; exact .inr (.inl rfl))
  | @queue fp hin hflag hmin =>
    exact ⟨fun fp' h => .inr (.inl (newframe_frame rfl fp' h)),
      .inr ⟨fp, hin, hmin, newframe_queue ..⟩⟩
  | more hin hflag hlen => exact .of_frame rfl le_rfl (by rintro fp' ⟨⟩; exact .inr (.inr hlen))

/-- Every call, whatever `errmask` says. -/
theorem sOnRx_leaves (err : Option RxError) : d.Leaves cfg (sOnRx cfg take d err).1 := by
  have hidle : d.Leaves cfg { d with receptSem := d.receptSem + 1 } :=
    .of_frame rfl (Nat.le_succ _) fun fp' h => .inl h
  cases err with
  | none => exact (sOnRxData_calls cfg take d).leaves
  | some e =>
    cases e with
    | other => exact @newframe_leaves cfg take d
    | tmo =>
      simp only [sOnRx]
      split
      · split
        · exact @newframe_leaves cfg take d
        · exact hidle
      · exact hidle

end Leaves

/-! ### The port -/

/-- The driver together with the request its port is serving and the number of
octets that already arrived for it. -/
structure RxPort where
  rx : RxState
  request : RxRequest
  got : Nat

/-- The request that `drv_start` submits. -/
def drvStart : RxPort :=
  { rx := { inFrame := none, stagep := 0, receptQ := [], receptSem := 0 }
    request := stageRequest
    got := 0 }

/-- The port stores an octet for the pending request. -/
def RxPort.store (p : RxPort) (octet : UInt8) : RxPort :=
  { p with
    got := p.got + 1
    rx := match p.request.target with
      | .stagep => { p.rx with stagep := octet }
      | .inFrame off => { p.rx with inFrame := p.rx.inFrame.map (·.setOctet (off + p.got) octet) } }

/-- The port runs the callback. A new request replaces the pending one. -/
def RxPort.call (cfg : DrvConfig) (take : Option Frame) (p : RxPort) (errmask : Option RxError) :
    RxPort :=
  match sOnRx cfg take p.rx errmask with
  | (d, some r) => { rx := d, request := r, got := 0 }
  | (d, none) => { p with rx := d }

/-- One octet from the line. -/
def RxPort.octet (cfg : DrvConfig) (take : Option Frame) (p : RxPort) (octet : UInt8) : RxPort :=
  let p := p.store octet
  if p.got = p.request.len then p.call cfg take none else p

/-- What can happen at the port. -/
inductive RxEvent where
  | octet (octet : UInt8)
  | error (err : RxError)
  deriving DecidableEq, Repr

/-- The call of `s_on_rx` that an event leads to: the state it finds and its
`errmask`. -/
def RxPort.callOf (p : RxPort) : RxEvent → Option (RxState × Option RxError)
  | .octet b => if (p.store b).got = p.request.len then some ((p.store b).rx, none) else none
  | .error e => some (p.rx, some e)

def RxPort.step (cfg : DrvConfig) (take : Option Frame) (p : RxPort) : RxEvent → RxPort
  | .octet b => p.octet cfg take b
  | .error e => p.call cfg take (some e)

/-- A run: events, each with what the pool gives if the call asks for a frame. -/
def RxPort.run (cfg : DrvConfig) (p : RxPort) (events : List (RxEvent × Option Frame)) : RxPort :=
  events.foldl (fun p x => p.step cfg x.2 x.1) p

/-- A stream of octets, each with what the pool would give if it was asked
when that octet completes a request. -/
def RxPort.feed (cfg : DrvConfig) (p : RxPort) (stream : List (UInt8 × Frame)) : RxPort :=
  stream.foldl (fun p x => p.octet cfg (some x.2) x.1) p

/-- A property of the driver that storing an octet and a call keep holds in every
state of a run. -/
theorem RxPort.run_inv {cfg : DrvConfig} {Inv : RxState → Prop}
    (hstore : ∀ (p : RxPort) (b : UInt8), Inv p.rx → Inv (p.store b).rx)
    (hcall : ∀ d d', RxState.Leaves cfg d d' → Inv d → Inv d')
    (events : List (RxEvent × Option Frame)) {p : RxPort} (h : Inv p.rx) :
    Inv (p.run cfg events).rx := by
  have hcallOf (p : RxPort) (take : Option Frame) (err : Option RxError) (h : Inv p.rx) :
      Inv (p.call cfg take err).rx := by
    have hrx : (p.call cfg take err).rx = (sOnRx cfg take p.rx err).1 := by
      simp only [RxPort.call]
      split <;> next h => rw [h]
    rw [hrx]
    exact hcall _ _ (sOnRx_leaves err) h
  induction events generalizing p with
  | nil => exact h
  | cons x rest ih =>
    obtain ⟨ev, take⟩ := x
    refine ih (p := p.step cfg take ev) ?_
    cases ev with
    | octet b =>
      simp only [RxPort.step, RxPort.octet]
      split
      · exact hcallOf _ _ _ (hstore p b h)
      · exact hstore p b h
    | error e => exact hcallOf _ _ _ h

/-- A stream is the run of its octets. -/
theorem RxPort.feed_eq_run (cfg : DrvConfig) (p : RxPort) (stream : List (UInt8 × Frame)) :
    p.feed cfg stream = p.run cfg (stream.map fun x => (.octet x.1, some x.2)) := by
  rw [RxPort.feed, RxPort.run, List.foldl_map]
  rfl

/-- Storing an octet changes neither the queue nor the length of the frame. -/
theorem RxPort.store_frame (p : RxPort) (b : UInt8) {fp' : Frame}
    (h : (p.store b).rx.inFrame = some fp') : ∃ fp, p.rx.inFrame = some fp ∧ fp'.elen = fp.elen := by
  simp only [RxPort.store] at h
  split at h
  · exact ⟨fp', h, rfl⟩
  · obtain ⟨fp, hin, rfl⟩ := Option.map_eq_some_iff.mp h
    exact ⟨fp, hin, rfl⟩

theorem RxPort.store_queue (p : RxPort) (b : UInt8) :
    (p.store b).rx.receptQ = p.rx.receptQ ∧ (p.store b).rx.receptSem = p.rx.receptSem := by
  simp only [RxPort.store]
  split <;> exact ⟨rfl, rfl⟩

/-! ### Taking received frames -/

/-- The checks that `drv_recv_frame` makes on a frame of its queue. -/
def recvFrame (cfg : DrvConfig) (fp : Frame) : Option Frame :=
  let fp := if cfg.applyTransparency then ioHdlcFrameTransparentDecode fp else fp
  let totalLen := fp.elen
  let fcsOk := if cfg.fcs.fcsSize > 0 then cfg.fcs.rxCheckFn fp.octets else true
  let declaredLen :=
    if fp.frame 0 &&& 0x80 ≠ 0 then type1Length fp else (fp.frame 0).toNat
  let fffOk := if cfg.frameFormatSize ≠ 0 ∧ totalLen > 0 then decide (declaredLen = totalLen) else true
  if fcsOk && fffOk then some { fp with elen := u16 (fp.elen + 65536 - cfg.fcs.fcsSize) } else none

/-- `drv_recv_frame` on the semaphore count and the queue: frames that fail a
check are dropped until one passes or the wait runs out. -/
def drvRecvFrame (cfg : DrvConfig) : Nat → List Frame → Option Frame × Nat × List Frame
  | 0, q => (none, 0, q)
  | sem + 1, [] => (none, sem, [])
  | sem + 1, fp :: q =>
    match recvFrame cfg fp with
    | some fp => (some fp, sem, q)
    | none => drvRecvFrame cfg sem q

/-- The frames that `n` calls of `drv_recv_frame` return. -/
def drvRecvFrames (cfg : DrvConfig) : Nat → Nat → List Frame → List Frame
  | 0, _, _ => []
  | n + 1, sem, q =>
    let r := drvRecvFrame cfg sem q
    r.1.toList ++ drvRecvFrames cfg n r.2.1 r.2.2

end IoHdlc
