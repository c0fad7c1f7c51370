import IoHdlc.Driver.RxOwnership
import IoHdlc.Port.Uart

/-!
Two stations on a UART line, from `drv_send_frame` to `drv_recv_frame`.

The sending driver starts a transfer in the sections of `Uart`; its octets leave and arrive one by
one while the receiving driver runs `s_on_rx` and its reader takes frames. The invariant says what
the receive machine will make of the octets that are under way, whatever the reader does.
-/

namespace IoHdlc

/-! ### The machine without its queue -/

/-- Two receive machines that differ in their queues alone. -/
structure RxPort.SameMachine (p p' : RxPort) : Prop where
  inFrame : p'.rx.inFrame = p.rx.inFrame
  stagep : p'.rx.stagep = p.rx.stagep
  request : p'.request = p.request
  got : p'.got = p.got

theorem RxPort.SameMachine.refl (p : RxPort) : p.SameMachine p := ⟨rfl, rfl, rfl, rfl⟩

/-- The frames `q` were queued and signalled. -/
structure RxState.Adds (d d' : RxState) (q : List Frame) : Prop where
  receptQ : d'.receptQ = d.receptQ ++ q
  receptSem : d'.receptSem = d.receptSem + q.length

section Machine

variable {cfg : DrvConfig} {take : Option Frame} {p p' : RxPort} {d d' : RxState}

theorem RxState.Adds.refl (d : RxState) : d.Adds d [] := ⟨(List.append_nil _).symm, rfl⟩

theorem RxState.Adds.trans {d'' : RxState} {q q' : List Frame} (h : d.Adds d' q)
    (h' : d'.Adds d'' q') : d.Adds d'' (q ++ q') where
  receptQ := by rw [h'.receptQ, h.receptQ, List.append_assoc]
  receptSem := by rw [h'.receptSem, h.receptSem, List.length_append, Nat.add_assoc]

/-- The machine that has just queued a frame. -/
def RxState.queued (d : RxState) (fp : Frame) : RxState :=
  { d with
    receptQ := d.receptQ ++ [fp]
    receptSem := d.receptSem + 1
    inFrame := none
    stagep := IOHDLC_FLAG }

theorem RxState.adds_queued (d : RxState) (fp : Frame) : d.Adds (d.queued fp) [fp] := ⟨rfl, rfl⟩

/-- What a call makes of two machines that differ in their queues. -/
structure SameCall (d d' : RxState) (r r' : RxState × RxRequest) (q : List Frame) : Prop where
  inFrame : r'.1.inFrame = r.1.inFrame
  stagep : r'.1.stagep = r.1.stagep
  request : r'.2 = r.2
  adds : d.Adds r.1 q
  adds' : d'.Adds r'.1 q

theorem newframe_same (hin : d'.inFrame = d.inFrame) (hstage : d'.stagep = d.stagep) :
    SameCall d d' (newframe take d) (newframe take d') [] := by
  simp only [newframe, hstage]
  split
  · cases take with
    | none => exact ⟨hin, rfl, rfl, ⟨by simp, rfl⟩, ⟨by simp, rfl⟩⟩
    | some fp => exact ⟨rfl, rfl, rfl, ⟨by simp, rfl⟩, ⟨by simp, rfl⟩⟩
  · exact ⟨hin, hstage, rfl, .refl d, .refl d'⟩

theorem dropped_same :
    SameCall d d' (newframe take (sHandleRxError d)) (newframe take (sHandleRxError d')) [] := by
  have h : SameCall (sHandleRxError d) (sHandleRxError d') (newframe take (sHandleRxError d))
      (newframe take (sHandleRxError d')) [] := newframe_same rfl rfl
  exact ⟨h.inFrame, h.stagep, h.request, ⟨h.adds.receptQ, h.adds.receptSem⟩,
    ⟨h.adds'.receptQ, h.adds'.receptSem⟩⟩

theorem kept_same (fp : Frame) (hstage : d'.stagep = d.stagep) (r : RxRequest) :
    SameCall d d' ({ d with inFrame := some fp }, r) ({ d' with inFrame := some fp }, r) [] :=
  ⟨rfl, hstage, rfl, ⟨by simp, rfl⟩, ⟨by simp, rfl⟩⟩

theorem accumulate_same (fp : Frame) (hstage : d'.stagep = d.stagep) :
    SameCall d d' (accumulate cfg take d fp) (accumulate cfg take d' fp) [] := by
  simp only [accumulate]
  split
  · exact dropped_same
  · exact kept_same _ hstage _

theorem formatField_same (fp : Frame) (hstage : d'.stagep = d.stagep) :
    SameCall d d' (formatField cfg take d fp) (formatField cfg take d' fp) [] := by
  simp only [formatField]
  split
  · split
    · exact kept_same _ hstage _
    · exact dropped_same
  · split
    · split
      · split
        · exact kept_same _ hstage _
        · exact dropped_same
      · split
        · split
          · exact kept_same _ hstage _
          · exact dropped_same
        · exact accumulate_same fp hstage
    · exact accumulate_same fp hstage

theorem closingFlag_same {fp : Frame} (hin : d'.inFrame = d.inFrame) (hstage : d'.stagep = d.stagep) :
    ∃ q, SameCall d d' (closingFlag take d fp) (closingFlag take d' fp) q := by
  simp only [closingFlag]
  split
  · exact ⟨[], hin, hstage, rfl, .refl d, .refl d'⟩
  · split
    · exact ⟨[], kept_same _ hstage _⟩
    · have h : SameCall (d.queued fp) (d'.queued fp) (newframe take (d.queued fp))
          (newframe take (d'.queued fp)) [] := newframe_same rfl rfl
      exact ⟨[fp], h.inFrame, h.stagep, h.request, (d.adds_queued fp).trans h.adds,
        (d'.adds_queued fp).trans h.adds'⟩

variable (cfg take) in
theorem sOnRxData_same (hin : d'.inFrame = d.inFrame) (hstage : d'.stagep = d.stagep) :
    ∃ q, SameCall d d' (sOnRxData cfg take d) (sOnRxData cfg take d') q := by
  simp only [sOnRxData, hin]
  cases hframe : d.inFrame with
  | none => exact ⟨[], newframe_same hin hstage⟩
  | some fp =>
    dsimp only
    split
    · exact closingFlag_same hin hstage
    · split
      · exact ⟨[], formatField_same fp hstage⟩
      · exact ⟨[], accumulate_same fp hstage⟩

variable (cfg take) in
/-- The queue does not matter to what an octet does. -/
theorem RxPort.SameMachine.octet (h : p.SameMachine p') (b : UInt8) :
    ∃ q, (p.octet cfg take b).SameMachine (p'.octet cfg take b) ∧
      p.rx.Adds (p.octet cfg take b).rx q ∧ p'.rx.Adds (p'.octet cfg take b).rx q := by
  have hstore : (p.store b).SameMachine (p'.store b) := by
    obtain ⟨hin, hstage, hreq, hgot⟩ := h
    refine ⟨?_, ?_, hreq, congrArg (· + 1) hgot⟩
    · simp only [RxPort.store, hreq, hgot]
      split
      · exact hin
      · exact congrArg (Option.map _) hin
    · simp only [RxPort.store, hreq]
      split
      · rfl
      · exact hstage
  have hadds : p.rx.Adds (p.store b).rx [] :=
    ⟨by rw [(p.store_queue b).1, List.append_nil], (p.store_queue b).2⟩
  have hadds' : p'.rx.Adds (p'.store b).rx [] :=
    ⟨by rw [(p'.store_queue b).1, List.append_nil], (p'.store_queue b).2⟩
  simp only [RxPort.octet, hstore.request, hstore.got]
  split
  · obtain ⟨q, hcall⟩ := sOnRxData_same cfg take hstore.inFrame hstore.stagep
    exact ⟨q, ⟨hcall.inFrame, hcall.stagep, hcall.request, rfl⟩, hadds.trans hcall.adds,
      hadds'.trans hcall.adds'⟩
  · exact ⟨[], hstore, hadds, hadds'⟩

variable (cfg) in
/-- Nor to what a stream does. -/
theorem RxPort.SameMachine.feed (stream : List (UInt8 × Frame)) (h : p.SameMachine p') :
    ∃ q, (p.feed cfg stream).SameMachine (p'.feed cfg stream) ∧
      p.rx.Adds (p.feed cfg stream).rx q ∧ p'.rx.Adds (p'.feed cfg stream).rx q := by
  induction stream generalizing p p' with
  | nil => exact ⟨[], h, .refl _, .refl _⟩
  | cons x rest ih =>
    obtain ⟨q, hsame, hadds, hadds'⟩ := h.octet cfg (some x.2) x.1
    obtain ⟨q', hsame', hrest, hrest'⟩ := ih hsame
    exact ⟨q ++ q', hsame', hadds.trans hrest, hadds'.trans hrest'⟩

theorem RxPort.SameMachine.at {xs : List UInt8} (h : p.SameMachine p') (hat : p.At xs) :
    p'.At xs where
  inFrame := by rw [h.inFrame]; exact hat.inFrame
  target := by rw [h.request]; exact hat.target
  len := by rw [h.request]; exact hat.len
  got := h.got.trans hat.got

end Machine

/-! ### What is under way -/

/-- A flag takes the machine to the start of a frame, and queues nothing. -/
def RxPort.Opens (cfg : DrvConfig) (p : RxPort) : Prop :=
  ∀ fresh, (p.octet cfg (some fresh) IOHDLC_FLAG).At [] ∧
    p.rx.Adds (p.octet cfg (some fresh) IOHDLC_FLAG).rx []

/-- The octets under way are the rest of the frames `ts`: behind them these are queued, and the
machine is between two frames, or has not heard of one when nothing was sent (`begun`). -/
def RxPort.Ahead (cfg : DrvConfig) (p : RxPort) (octets : List UInt8) (ts : List Sending)
    (begun : Prop) : Prop :=
  ∀ stream : List (UInt8 × Frame), stream.map Prod.fst = octets →
    (p.feed cfg stream).Opens cfg ∧ (begun → (p.feed cfg stream).At []) ∧
      ∃ q : List Frame, q.map Frame.octets = ts.map (·.lineBody cfg) ∧
        p.rx.Adds (p.feed cfg stream).rx q

section Ahead

variable {cfg : DrvConfig} {p p' : RxPort} {octets : List UInt8} {ts : List Sending} {begun : Prop}

theorem RxPort.At.opens (h : p.At []) : p.Opens cfg := by
  intro fresh
  obtain ⟨hat, fp, -, hq, hsem⟩ := h.octet_flag cfg (.inr (by decide)) fresh
  exact ⟨hat, by simpa [HDLC_BASIC_MIN_L] using hq, by simpa [HDLC_BASIC_MIN_L] using hsem⟩

theorem RxPort.Opens.same (hsame : p.SameMachine p') (h : p.Opens cfg) : p'.Opens cfg := by
  intro fresh
  obtain ⟨hat, hadds⟩ := h fresh
  obtain ⟨q, hsame', hq, hq'⟩ := hsame.octet cfg (some fresh) IOHDLC_FLAG
  obtain rfl : q = [] := by
    have := hq.receptQ.symm.trans hadds.receptQ
    simpa using this
  exact ⟨hsame'.at hat, hq'⟩

/-- A driver that was just started searches for a flag. -/
theorem drvStart_opens : drvStart.Opens cfg := fun _ =>
  ⟨At_open rfl rfl, rfl, rfl⟩

theorem RxPort.Ahead.same (hsame : p.SameMachine p') (h : p.Ahead cfg octets ts begun) :
    p'.Ahead cfg octets ts begun := by
  intro stream hstream
  obtain ⟨hopens, hat, q, hoctets, hadds⟩ := h stream hstream
  obtain ⟨q', hsame', hq, hq'⟩ := hsame.feed cfg stream
  obtain rfl : q' = q := by
    have := hq.receptQ.symm.trans hadds.receptQ
    exact List.append_cancel_left this
  exact ⟨hopens.same hsame', fun hb => hsame'.at (hat hb), q', hoctets, hq'⟩

/-- With nothing under way nothing is owed. -/
theorem RxPort.Ahead.nil (h : p.Ahead cfg [] ts begun) : ts = [] := by
  obtain ⟨-, -, q, hoctets, hadds⟩ := h [] rfl
  have hq : q = [] := by
    have := hadds.receptQ
    simpa [RxPort.feed] using this
  subst hq
  exact List.map_eq_nil_iff.mp hoctets.symm

/-- One octet arrives, and with it perhaps the next frame. -/
theorem RxPort.Ahead.cons {b : UInt8} (h : p.Ahead cfg (b :: octets) ts begun) (fresh : Frame) :
    ∃ here later q, ts = here ++ later ∧ q.map Frame.octets = here.map (·.lineBody cfg) ∧
      p.rx.Adds (p.octet cfg (some fresh) b).rx q ∧
      (p.octet cfg (some fresh) b).Ahead cfg octets later begun := by
  obtain ⟨q, -, hq, -⟩ := (RxPort.SameMachine.refl p).octet cfg (some fresh) b
  -- what comes behind the octet is the rest of what was owed
  have hsplit : ∀ stream : List (UInt8 × Frame), stream.map Prod.fst = octets →
      ((p.octet cfg (some fresh) b).feed cfg stream).Opens cfg ∧
      (begun → ((p.octet cfg (some fresh) b).feed cfg stream).At []) ∧
      ∃ q' : List Frame, (p.octet cfg (some fresh) b).rx.Adds
        ((p.octet cfg (some fresh) b).feed cfg stream).rx q' ∧
        q.map Frame.octets = (ts.take q.length).map (·.lineBody cfg) ∧
        q'.map Frame.octets = (ts.drop q.length).map (·.lineBody cfg) := by
    intro stream hstream
    obtain ⟨hopens, hat, all, hall, hadds⟩ := h ((b, fresh) :: stream) (by rw [← hstream]; rfl)
    obtain ⟨q', -, hq', -⟩ :=
      (RxPort.SameMachine.refl (p.octet cfg (some fresh) b)).feed cfg stream
    have heq : all = q ++ q' :=
      List.append_cancel_left (hadds.receptQ.symm.trans (hq.trans hq').receptQ)
    subst heq
    have hlen := congrArg List.length hall
    rw [List.length_map, List.length_map, List.length_append] at hlen
    rw [List.map_append, ← List.take_append_drop q.length ts, List.map_append] at hall
    obtain ⟨hhere, hlater⟩ := List.append_inj hall (by
      rw [List.length_map, List.length_map, List.length_take]
      omega)
    exact ⟨hopens, hat, q', hq', hhere, hlater⟩
  obtain ⟨-, -, -, -, hhere, -⟩ := hsplit (streamOf octets) (map_fst_streamOf octets)
  refine ⟨ts.take q.length, ts.drop q.length, q, (List.take_append_drop _ ts).symm, hhere, hq,
    fun stream hstream => ?_⟩
  obtain ⟨hopens, hat, q', hq', -, hlater⟩ := hsplit stream hstream
  exact ⟨hopens, hat, q', hlater, hq'⟩

/-- A transfer starts. -/
theorem RxPort.Ahead.start {t : Sending} {body content : List UInt8}
    (hbody : t.lineBody cfg = body) (ht : t.Framed cfg body content)
    (hflag : t.opening = true ∨ begun) (h : p.Ahead cfg octets ts begun) (begun' : Prop) :
    p.Ahead cfg (octets ++ t.wire cfg) (ts ++ [t]) begun' := by
  intro stream hstream
  obtain ⟨old, new, rfl, hold, hnew⟩ := List.map_eq_append_iff.mp hstream
  obtain ⟨hopens, hat, q, hoctets, hadds⟩ := h old hold
  replace hnew : new.map Prod.fst = t.wire cfg := hnew
  rw [ht.wire] at hnew
  obtain ⟨pre, post, rfl, hpre, hpost⟩ := List.map_eq_append_iff.mp hnew
  -- the machine is at the start of a frame behind the opening flag, or already
  have hready : (((p.feed cfg old).feed cfg pre)).At [] ∧
      (p.feed cfg old).rx.Adds ((p.feed cfg old).feed cfg pre).rx [] := by
    cases hopening : t.opening with
    | true =>
      rw [hopening, if_pos rfl] at hpre
      obtain ⟨y, rfl, hy⟩ := List.map_eq_singleton_iff.mp hpre
      rw [RxPort.feed_cons, hy]
      exact hopens y.2
    | false =>
      rw [hopening] at hpre hflag
      rw [List.map_eq_nil_iff.mp hpre]
      exact ⟨hat (hflag.resolve_left Bool.false_ne_true), .refl _⟩
  obtain ⟨hat', fp, hfp, hq', hsem'⟩ := ht.collect _ post hpost hready.1
  rw [RxPort.feed_append, RxPort.feed_append]
  refine ⟨hat'.opens, fun _ => hat', q ++ [fp], ?_, ?_⟩
  · rw [List.map_append, List.map_append, hoctets, List.map_singleton, List.map_singleton, hbody, hfp]
  · have hlast : RxState.Adds ((p.feed cfg old).feed cfg pre).rx
        (((p.feed cfg old).feed cfg pre).feed cfg post).rx [fp] := ⟨hq', hsem'⟩
    have hall := (hadds.trans hready.2).trans hlast
    rwa [List.append_nil] at hall

end Ahead

/-! ### The two stations -/

/-- The sender, the octets on the line, the receiver, and the frames that `drv_recv_frame`
returned there. -/
structure UartLine (F : Type) where
  sender : UartSender F
  line : List UInt8
  site : RxSite F
  returned : List Frame

/-- `idle` is a timeout between two frames; the pool of the receiver gives `fp` if it is asked. -/
inductive UartLineEvent (F : Type) where
  | sender (e : UartEvent F)
  | arrive (fp : F) (fresh : Frame)
  | idle
  | recv

namespace UartLine

variable {F : Type} [DecidableEq F]

def act (cfg : DrvConfig) (g : UartLine F) : UartLineEvent F → Option (UartLine F)
  | .sender e => (g.sender.act cfg e).map fun r => { g with sender := r.1, line := g.line ++ r.2 }
  | .arrive fp fresh =>
    match g.line with
    | [] => none
    | b :: rest =>
      some { g with line := rest, site := g.site.step cfg (some (fp, fresh)) (.port (.octet b)) }
  | .idle =>
    if g.site.rx.inFrame.all (·.elen = 0) then
      some { g with site := g.site.step cfg none (.port (.error .tmo)) }
    else none
  | .recv =>
    let r := drvRecvFrame cfg g.site.rx.receptSem g.site.rx.receptQ
    some { g with
      site := { g.site with rx := { g.site.rx with receptSem := r.2.1, receptQ := r.2.2 } }
      returned := g.returned ++ r.1.toList }

structure Fresh (cfg : DrvConfig) (g : UartLine F) : Prop where
  sender : g.sender.Fresh cfg
  line : g.line = []
  site : g.site = drvStartSite
  returned : g.returned = []

def Moves (cfg : DrvConfig) (g g' : UartLine F) : Prop :=
  ∃ e, (∀ e', e = .sender e' → UartSender.Allowed cfg e') ∧ g.act cfg e = some g'

/-- What `drv_recv_frame` returned and will return of the frames in its queue. -/
def received (cfg : DrvConfig) (g : UartLine F) : List Frame :=
  g.returned ++ g.site.rx.receptQ.filterMap (recvFrame cfg)

/-- The transfers that have arrived are received, and the machine expects the others. -/
structure Connected (cfg : DrvConfig) (g : UartLine F) (past onLine : List Sending) : Prop where
  settled : g.sender.Settled cfg
  armed : g.site.Armed
  started : g.site.started = true
  signalled : g.site.rx.receptQ.length ≤ g.site.rx.receptSem
  accepted : ∀ fp ∈ g.site.rx.receptQ, (recvFrame cfg fp).isSome
  transfers : g.sender.transfers = past ++ onLine
  ahead : ∀ a, g.site.active = some a → (g.site.toPort a).Ahead cfg
    (g.line ++ g.sender.uart.remaining) onLine (g.sender.transfers ≠ [])
  past : (g.received cfg).map Frame.octets = past.map (·.lineContent cfg)

variable {cfg : DrvConfig} {g g' : UartLine F} {past onLine : List Sending}

theorem connected_of_fresh (h : g.Fresh cfg) : g.Connected cfg [] [] where
  settled := h.sender.settled
  armed := by rw [h.site]; exact RxSite.drvStartSite_armed
  started := by rw [h.site]; rfl
  signalled := by rw [h.site]; exact Nat.le_refl 0
  accepted := by rw [h.site]; exact fun _ hmem => absurd hmem List.not_mem_nil
  transfers := h.sender.transfers
  ahead a ha := by
    rw [h.line, h.sender.uart, h.site]
    rw [h.site] at ha
    cases ha
    intro stream hstream
    rw [List.map_eq_nil_iff.mp hstream]
    exact ⟨drvStart_opens, fun hbegun => absurd h.sender.transfers hbegun, [], rfl, .refl _⟩
  past := by rw [received, h.returned, h.site]; rfl

/-- The sending station moves. -/
theorem Connected.sender {e : UartEvent F} {s' : UartSender F} {out : List UInt8}
    (hsize : cfg.framesize ≤ 65535) (h : g.Connected cfg past onLine)
    (hallowed : UartSender.Allowed cfg e) (hact : g.sender.act cfg e = some (s', out)) :
    ∃ onLine', { g with sender := s', line := g.line ++ out }.Connected cfg past onLine' := by
  obtain ⟨hsettled, hshows⟩ := h.settled.act hallowed hact
  cases hshows with
  | quiet htransfers hremaining =>
    refine ⟨onLine, { h with
      settled := hsettled, transfers := htransfers.trans h.transfers, ahead := fun a ha => ?_ }⟩
    dsimp only
    rw [List.append_nil, hremaining, htransfers]
    exact h.ahead a ha
  | @start t htransfers hidle hremaining hflag =>
    refine ⟨onLine ++ [t], { h with
      settled := hsettled
      transfers := by
        dsimp only
        rw [htransfers, h.transfers, List.append_assoc]
      ahead := fun a ha => ?_ }⟩
    have hfits : t.Fits cfg := hsettled.transfers t (by
      rw [htransfers]
      exact List.mem_append_right _ (List.mem_singleton_self t))
    have hahead := h.ahead a ha
    rw [hidle] at hahead
    dsimp only
    rw [hremaining]
    exact hahead.start rfl (hfits.framed hsize) hflag _
  | @shift b htransfers hremaining =>
    refine ⟨onLine, { h with
      settled := hsettled, transfers := htransfers.trans h.transfers, ahead := fun a ha => ?_ }⟩
    have hahead := h.ahead a ha
    rw [hremaining] at hahead
    dsimp only
    rw [htransfers, List.append_assoc, List.singleton_append]
    exact hahead

/-- Only a stop ends the driver. -/
theorem step_started (x : RxSite F) (take : Option (F × Frame)) (ev : RxEvent) :
    (x.step cfg take (.port ev)).started = x.started := by
  rw [RxSite.step]
  cases hcall : x.callOf (.port ev) with
  | some c =>
    obtain ⟨y, errmask⟩ := c
    change y.started = x.started
    cases ev with
    | octet b =>
      simp only [RxSite.callOf] at hcall
      split at hcall
      · split at hcall
        · cases hcall
          rfl
        · cases hcall
      · cases hcall
    | error e =>
      obtain ⟨rfl, -, -⟩ := RxSite.callOf_error hcall
      rfl
  | none =>
    cases ev with
    | octet b =>
      simp only [RxSite.silent]
      split
      · split <;> rfl
      · rfl
    | error e => rfl

/-- The receiver keeps what it has to do with its queue. -/
theorem Connected.queue {site : RxSite F} {line : List UInt8} {here later : List Sending}
    {q : List Frame} (hsize : cfg.framesize ≤ 65535)
    (h : g.Connected cfg past (here ++ later)) (harmed : site.Armed) (hstarted : site.started = true)
    (hadds : g.site.rx.Adds site.rx q) (hq : q.map Frame.octets = here.map (·.lineBody cfg))
    (hahead : ∀ a, site.active = some a → (site.toPort a).Ahead cfg
      (line ++ g.sender.uart.remaining) later (g.sender.transfers ≠ [])) :
    { g with line := line, site := site }.Connected cfg (past ++ here) later := by
  have hframed : ∀ t ∈ here, t.Framed cfg (t.lineBody cfg) (t.lineContent cfg) := fun t ht =>
    (h.settled.transfers t (by
      rw [h.transfers]
      exact List.mem_append_right _ (List.mem_append_left _ ht))).framed hsize
  refine { h with
    armed := harmed
    started := hstarted
    signalled := ?_
    accepted := fun fp hfp => ?_
    transfers := by rw [List.append_assoc]; exact h.transfers
    ahead := hahead
    past := ?_ }
  · have hold := h.signalled
    dsimp only
    rw [hadds.receptQ, hadds.receptSem, List.length_append]
    omega
  · dsimp only at hfp
    rw [hadds.receptQ] at hfp
    rcases List.mem_append.mp hfp with hold | hnew
    · exact h.accepted fp hold
    · have hmem : fp.octets ∈ here.map (·.lineBody cfg) := hq ▸ List.mem_map_of_mem hnew
      obtain ⟨t, ht, hoctets⟩ := List.mem_map.mp hmem
      obtain ⟨out, hout, -⟩ := (hframed t ht).accept fp hoctets.symm
      rw [hout]
      rfl
  · have hpast := h.past
    rw [received] at hpast ⊢
    dsimp only
    rw [hadds.receptQ, List.filterMap_append, ← List.append_assoc, List.map_append, hpast,
      recvFrames_sent here hframed hq, List.map_append]

/-- An octet arrives. -/
theorem Connected.arrive {b : UInt8} {rest : List UInt8} (hsize : cfg.framesize ≤ 65535)
    (h : g.Connected cfg past onLine) (hline : g.line = b :: rest) (fp : F) (fresh : Frame) :
    ∃ past' onLine', { g with
      line := rest
      site := g.site.step cfg (some (fp, fresh)) (.port (.octet b)) }.Connected cfg past' onLine' := by
  obtain ⟨a, ha, -⟩ := h.armed.active h.started
  obtain ⟨a', ha', hport⟩ :=
    RxSite.step_toPort cfg (some (fp, fresh)) h.armed h.started ha (.octet b)
  have hahead := h.ahead a ha
  rw [hline, List.cons_append] at hahead
  obtain ⟨here, later, q, rfl, hq, hadds, hlater⟩ := hahead.cons fresh
  refine ⟨past ++ here, later, h.queue hsize (RxSite.step_armed cfg _ h.armed _)
    ((step_started ..).trans h.started) ?_ hq fun a₁ ha₁ => ?_⟩
  · change g.site.rx.Adds ((g.site.step cfg (some (fp, fresh)) (.port (.octet b))).toPort a').rx q
    rw [hport]
    exact hadds
  · obtain rfl : a' = a₁ := Option.some.inj (ha'.symm.trans ha₁)
    rw [hport]
    exact hlater

/-- The reader has taken frames, or was woken: the machine is as it was. -/
theorem Connected.reader {rx : RxState} {returned : List Frame} (h : g.Connected cfg past onLine)
    (hin : rx.inFrame = g.site.rx.inFrame) (hstage : rx.stagep = g.site.rx.stagep)
    (hsignalled : rx.receptQ.length ≤ rx.receptSem)
    (haccepted : ∀ fp ∈ rx.receptQ, (recvFrame cfg fp).isSome)
    (hreceived : returned ++ rx.receptQ.filterMap (recvFrame cfg) = g.received cfg) :
    ({ g with site := { g.site with rx := rx }, returned := returned } : UartLine F).Connected cfg
      past onLine :=
  { h with
    armed :=
      { points := h.armed.points.trans (congrArg Option.isSome hin.symm)
        active := h.armed.active }
    signalled := hsignalled
    accepted := haccepted
    ahead := fun a ha => RxPort.Ahead.same (p := g.site.toPort a) ⟨hin, hstage, rfl, rfl⟩ (h.ahead a ha)
    past := by
      rw [received, hreceived]
      exact h.past }

/-- A timeout between two frames. -/
theorem Connected.idle (h : g.Connected cfg past onLine)
    (hidle : ∀ fp, g.site.rx.inFrame = some fp → fp.elen = 0) :
    { g with site := g.site.step cfg none (.port (.error .tmo)) }.Connected cfg past onLine := by
  have hcall : g.site.callOf (.port (.error .tmo)) = some (g.site, some .tmo) := if_pos h.started
  have htrace : g.site.trace cfg none (some .tmo) = _ :=
    (RxCall.sOnRx_tmo_idle cfg none (x := g.site.entry) hidle).1
  have hstep : g.site.step cfg none (.port (.error .tmo)) =
      { g.site with rx := { g.site.rx with receptSem := g.site.rx.receptSem + 1 } } := by
    rw [RxSite.step, hcall]
    dsimp only
    rw [RxSite.call, htrace]
    rfl
  rw [hstep]
  exact h.reader rfl rfl (Nat.le_succ_of_le h.signalled) h.accepted rfl

/-- `drv_recv_frame` takes the first frame of the queue. -/
theorem Connected.recv (h : g.Connected cfg past onLine) :
    ({ g with
      site := { g.site with rx := { g.site.rx with
        receptSem := (drvRecvFrame cfg g.site.rx.receptSem g.site.rx.receptQ).2.1
        receptQ := (drvRecvFrame cfg g.site.rx.receptSem g.site.rx.receptQ).2.2 } }
      returned := g.returned ++
        (drvRecvFrame cfg g.site.rx.receptSem g.site.rx.receptQ).1.toList } : UartLine F).Connected
        cfg past onLine := by
  have hsignalled := h.signalled
  have haccepted := h.accepted
  cases hsem : g.site.rx.receptSem with
  | zero =>
    rw [hsem] at hsignalled
    have hq : g.site.rx.receptQ = [] := List.length_eq_zero_iff.mp (Nat.le_zero.mp hsignalled)
    rw [hq]
    exact h.reader rfl rfl (Nat.le_refl 0) (fun _ hmem => absurd hmem List.not_mem_nil)
      (by rw [received, hq, drvRecvFrame, Option.toList_none, List.append_nil])
  | succ sem =>
    cases hq : g.site.rx.receptQ with
    | nil =>
      exact h.reader rfl rfl (Nat.zero_le sem) (fun _ hmem => absurd hmem List.not_mem_nil)
        (by rw [received, hq, drvRecvFrame, Option.toList_none, List.append_nil])
    | cons fp rest =>
      rw [hq] at haccepted hsignalled
      obtain ⟨out, hout⟩ := Option.isSome_iff_exists.mp (haccepted fp List.mem_cons_self)
      have hrecv : drvRecvFrame cfg (sem + 1) (fp :: rest) = (some out, sem, rest) := by
        rw [drvRecvFrame, hout]
      rw [hrecv]
      refine h.reader rfl rfl ?_ (fun fp' hfp => haccepted fp' (List.mem_cons_of_mem _ hfp)) ?_
      · rw [List.length_cons, hsem] at hsignalled
        exact Nat.le_of_succ_le_succ hsignalled
      · rw [received, hq, List.filterMap_cons_some hout, List.append_assoc]
        rfl

/-- One step of the two stations. -/
theorem Connected.moves (hsize : cfg.framesize ≤ 65535) (h : g.Connected cfg past onLine)
    (hmove : g.Moves cfg g') : ∃ past' onLine', g'.Connected cfg past' onLine' := by
  obtain ⟨e, hallowed, hact⟩ := hmove
  cases e with
  | sender e =>
    obtain ⟨⟨s', out⟩, hs, ⟨⟩⟩ := Option.map_eq_some_iff.mp hact
    obtain ⟨onLine', h'⟩ := h.sender hsize (hallowed e rfl) hs
    exact ⟨past, onLine', h'⟩
  | arrive fp fresh =>
    simp only [act] at hact
    split at hact
    · cases hact
    next b rest hline =>
      cases hact
      exact h.arrive hsize hline fp fresh
  | idle =>
    simp only [act] at hact
    split at hact
    next hidle =>
      cases hact
      refine ⟨past, onLine, h.idle fun fp hfp => ?_⟩
      rw [hfp] at hidle
      exact of_decide_eq_true hidle
    · cases hact
  | recv =>
    cases hact
    exact ⟨past, onLine, h.recv⟩

/-- What was given, from the receiving reader back to the sending queue. -/
structure Delivers (cfg : DrvConfig) (g : UartLine F) (onLine : List Sending) : Prop where
  /-- The frames given were received, are on the line or wait in the queue, in this order and
  as they were given. -/
  given : g.sender.given.map (·.lineContent cfg) =
    (g.received cfg).map Frame.octets ++ onLine.map (·.lineContent cfg) ++
      g.sender.run.pipe.rawQ.map fun fp => (g.sender.source fp).lineContent cfg
  /-- Each frame of the receive queue has its signal. -/
  signalled : g.site.rx.receptQ.length ≤ g.site.rx.receptSem
  /-- Nothing is on a silent line. -/
  silent : g.line = [] → g.sender.uart.remaining = [] → onLine = []
  /-- Nothing waits for an idle port. -/
  served : g.sender.uart.chbTxBusy = false → g.sender.run.pipe.rawQ = []

/-- In every run over an error-free line the frames that `drv_recv_frame` returns are the frames
that the senders committed, in the order in which they got the lock; none is lost or left
behind. -/
theorem uartLine_delivers (hsize : cfg.framesize ≤ 65535)
    (h : Kit.Reachable (Fresh cfg) (Moves cfg) g) : ∃ onLine, g.Delivers cfg onLine := by
  obtain ⟨past, onLine, hc⟩ := h.invariant (fun g => ∃ past onLine, g.Connected cfg past onLine)
    (fun _ hfresh => ⟨[], [], connected_of_fresh hfresh⟩)
    fun _ _ ⟨_, _, hg⟩ hmove => hg.moves hsize hmove
  refine ⟨onLine, ?_, hc.signalled, fun hline hremaining => ?_, fun hidle => ?_⟩
  · rw [hc.settled.given, hc.transfers, hc.past]
    simp [Function.comp_def]
  · obtain ⟨a, ha, -⟩ := hc.armed.active hc.started
    have hahead := hc.ahead a ha
    rw [hline, hremaining] at hahead
    exact hahead.nil
  · rw [hc.settled.chbTxBusy] at hidle
    exact (hc.settled.idle (Option.isSome_eq_false_iff.mp hidle |> Option.isNone_iff_eq_none.mp)).1

/-- Two stations on a silent line. -/
def started : UartLine (Fin 3) where
  sender :=
    { run := TxRun.idle true
      uart := { txFramep := none, txstate := .idle, remaining := [] }
      source := fun _ => stuffedSending false
      given := []
      transfers := [] }
  line := []
  site := drvStartSite
  returned := []

/-- What happens at them in the run below. -/
def stuffedEvents : List (UartLineEvent (Fin 3)) :=
  [.sender (.commit 0 (stuffedSending false).fp (some (1, default))),
    .sender (.commit 0 (stuffedSending false).fp (some (2, default))),
    .sender (.queue 1), .sender (.queue 2), .sender .shift, .sender .txEnd, .arrive 0 default, .recv]

theorem stuffedEvents_allowed {e : UartLineEvent (Fin 3)} (he : e ∈ stuffedEvents)
    (e' : UartEvent (Fin 3)) (heq : e = .sender e') :
    UartSender.Allowed (.transparent fcsSw 256) e' := by
  subst heq
  cases e' with
  | commit fp frame take =>
    have hframe : frame = (stuffedSending false).fp := by
      simp only [stuffedEvents, List.mem_cons, UartLineEvent.sender.injEq, UartEvent.commit.injEq,
        reduceCtorEq, List.not_mem_nil, or_false] at he
      rcases he with ⟨-, hframe, -⟩ | ⟨-, hframe, -⟩
      · exact hframe
      · exact hframe
    subst hframe
    intro _ nfp
    rw [Sending.Fits, if_pos (DrvConfig.transparent_applyTransparency ..)]
    change HDLC_BASIC_MIN_L ≤ ((stuffedSending false).encoded (.transparent fcsSw 256)).length ∧
      ((stuffedSending false).encoded (.transparent fcsSw 256)).length + 1 ≤ 256
    decide +kernel
  | stamp | stamped | queue | shift | txEnd => trivial

/-- Two frames share a flag on the line; one of them is read, the other one is still queued. -/
theorem uartLine_delivers_two :
    ∃ g : UartLine (Fin 3), g.returned.map Frame.octets = [[0x01, 0x7E, 0x7D]] ∧
      g.sender.given.length = 2 ∧ ∃ onLine, g.Delivers (.transparent fcsSw 256) onLine := by
  have h₀ : Kit.Reachable (Fresh (.transparent fcsSw 256)) (Moves (.transparent fcsSw 256))
      started :=
    .start
      { sender :=
          { run := TxRun.fresh_idle true
            transparency := rfl
            txBusy := rfl
            uart := rfl
            given := rfl
            transfers := rfl }
        line := rfl
        site := rfl
        returned := rfl }
  obtain ⟨g, hrun, hp⟩ := Kit.Reachable.exists_of_run
    (fun g (n : Nat) => stuffedEvents[n]?.bind (g.act (.transparent fcsSw 256)))
    (fun g n g' h => by
      obtain ⟨e, he, hact⟩ := Option.bind_eq_some_iff.mp h
      exact ⟨e, stuffedEvents_allowed (List.mem_of_getElem? he), hact⟩) h₀
    ([0, 1, 2, 3] ++ List.replicate 9 4 ++ [5] ++ List.replicate 8 4 ++ [5] ++
      List.replicate 17 6 ++ [7])
    (fun g => decide (g.returned.map Frame.octets = [[0x01, 0x7E, 0x7D]]) &&
      decide (g.sender.given.length = 2)) (by decide +kernel)
  simp only [Bool.and_eq_true, decide_eq_true_eq] at hp
  exact ⟨g, hp.1, hp.2, uartLine_delivers (by decide) hrun⟩

end UartLine

end IoHdlc
