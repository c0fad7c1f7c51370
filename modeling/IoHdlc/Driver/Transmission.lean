import IoHdlc.Driver.RxBounds

/-!
Transmissions as the receive machine sees them.

Between frames the machine has an empty frame and has asked for its first octet
(`RxPort.At []`). If every frame of a transmission leads back there, with one
frame more in the queue that passes the checks of `drv_recv_frame`, then the
frames received are the frames sent. What is left to the framings is one frame.
-/

namespace IoHdlc

/-! ### Calls of `drv_recv_frame` -/

theorem drvRecvFrames_nil (cfg : DrvConfig) (n sem : Nat) : drvRecvFrames cfg n sem [] = [] := by
  induction n generalizing sem with
  | zero => rfl
  | succ n ih => cases sem <;> simp [drvRecvFrames, drvRecvFrame, ih]

/-- Enough calls return the frames of the queue that pass the checks, in order. -/
theorem drvRecvFrames_eq (cfg : DrvConfig) (q : List Frame) {n sem : Nat} (hq : q.length ≤ sem)
    (hn : sem ≤ n) : drvRecvFrames cfg n sem q = q.filterMap (recvFrame cfg) := by
  induction q generalizing n sem with
  | nil => exact drvRecvFrames_nil cfg n sem
  | cons fp q ih =>
    rw [List.length_cons] at hq
    obtain ⟨sem, rfl⟩ : ∃ k, sem = k + 1 := ⟨sem - 1, by omega⟩
    obtain ⟨n, rfl⟩ : ∃ k, n = k + 1 := ⟨n - 1, by omega⟩
    cases hr : recvFrame cfg fp with
    | some fp' =>
      have h := @ih n sem (by omega) (by omega)
      simp [drvRecvFrames, drvRecvFrame, hr, h]
    | none =>
      have h := @ih (n + 1) sem (by omega) (by omega)
      rw [List.filterMap_cons_none hr, ← h]
      simp [drvRecvFrames, drvRecvFrame, hr]

/-- Every frame of the queue was signalled. -/
def RxState.Signalled (d : RxState) : Prop := d.receptQ.length ≤ d.receptSem

theorem RxPort.run_signalled {cfg : DrvConfig} {p : RxPort} (events : List (RxEvent × Option Frame))
    (h : p.rx.Signalled) : (p.run cfg events).rx.Signalled := by
  refine RxPort.run_inv (fun p b h => ?_) (fun d d' hd h => ?_) events h
  · rw [RxState.Signalled, (p.store_queue b).1, (p.store_queue b).2]
    exact h
  · rw [RxState.Signalled] at h ⊢
    rcases hd.queue with ⟨hq, hsem⟩ | ⟨fp, -, -, hq, hsem⟩
    · rw [hq]; omega
    · rw [hq, hsem, List.length_append, List.length_singleton]; omega

theorem RxPort.feed_signalled {cfg : DrvConfig} {p : RxPort} (stream : List (UInt8 × Frame))
    (h : p.rx.Signalled) : (p.feed cfg stream).rx.Signalled := by
  rw [RxPort.feed_eq_run]
  exact RxPort.run_signalled _ h

/-- The frames that `drv_recv_frame` returns, called once for each signal. -/
def received (cfg : DrvConfig) (d : RxState) : List Frame :=
  drvRecvFrames cfg d.receptSem d.receptSem d.receptQ

/-! ### One octet at a time -/

/-- The machine assembles a frame and holds `xs`; it asked for the next octet. -/
structure RxPort.At (xs : List UInt8) (p : RxPort) : Prop where
  inFrame : ∃ fp, p.rx.inFrame = some fp ∧ fp.octets = xs
  target : p.request.target = .inFrame xs.length
  len : p.request.len = 1
  got : p.got = 0

section OneOctet

variable {cfg : DrvConfig} {take : Option Frame} {p : RxPort} {xs : List UInt8} {b : UInt8}

variable (cfg take b) in
/-- The octet is stored behind the ones that the frame holds. -/
theorem RxPort.At.octet (h : p.At xs) : ∃ fp, fp.octets = xs ∧ fp.elen = xs.length ∧
    fp.frame xs.length = b ∧
    p.octet cfg take b =
      let r := sOnRxData cfg take { p.rx with inFrame := some fp }
      { rx := r.1, request := r.2, got := 0 } := by
  obtain ⟨fp, hin, hxs⟩ := h.inFrame
  have hlen : fp.elen = xs.length := by rw [← hxs, Frame.length_octets]
  refine ⟨fp.setOctet xs.length b, ?_, hlen, by simp, ?_⟩
  · rw [← hxs, Frame.octets, Frame.octets, Frame.setOctet_elen]
    exact Buffer.slice_congr fun i _ hi => by
      rw [Frame.setOctet_frame, if_neg (by rw [Buffer.length_slice]; omega)]
  · have hst : p.store b =
        { p with rx := { p.rx with inFrame := some (fp.setOctet xs.length b) }, got := 1 } := by
      simp [RxPort.store, h.target, h.got, hin]
    simp [RxPort.octet, hst, h.len, RxPort.call, sOnRx]

theorem At_frameRequest {d : RxState} {fp : Frame} (hin : d.inFrame = some fp) (hxs : fp.octets = xs) :
    RxPort.At xs { rx := d, request := frameRequest xs.length 1, got := 0 } :=
  { inFrame := ⟨fp, hin, hxs⟩, target := rfl, len := rfl, got := rfl }

/-- Where an opening flag leaves the machine. -/
theorem At_open {d : RxState} {fp : Frame} (hin : d.inFrame = some fp) (he : fp.elen = 0) :
    RxPort.At [] { rx := d, request := frameRequest 0 1, got := 0 } :=
  At_frameRequest hin (by rw [Frame.octets, he]; rfl)

/-- A closing flag delivers a frame that is long enough, and opens the next one. -/
theorem closingFlag_spec (d : RxState) (fp fresh : Frame) :
    let r := closingFlag (some fresh) { d with inFrame := some fp } fp
    RxPort.At [] { rx := r.1, request := r.2, got := 0 } ∧
      r.1.receptQ = d.receptQ ++ (if HDLC_BASIC_MIN_L ≤ fp.elen then [fp] else []) ∧
      r.1.receptSem = d.receptSem + (if HDLC_BASIC_MIN_L ≤ fp.elen then 1 else 0) := by
  by_cases h0 : fp.elen = 0
  · have h4 : ¬HDLC_BASIC_MIN_L ≤ fp.elen := by rw [h0]; decide
    simp only [closingFlag, h0, if_true]
    exact ⟨At_open rfl h0, by simp [HDLC_BASIC_MIN_L], by simp [HDLC_BASIC_MIN_L]⟩
  · by_cases h4 : fp.elen < HDLC_BASIC_MIN_L
    · have h4' : ¬HDLC_BASIC_MIN_L ≤ fp.elen := Nat.not_le.mpr h4
      simp only [closingFlag, h0, h4, h4', if_true, if_false, List.append_nil, Nat.add_zero]
      exact ⟨At_open rfl rfl, trivial, trivial⟩
    · have h4' : HDLC_BASIC_MIN_L ≤ fp.elen := Nat.not_lt.mp h4
      simp only [closingFlag, h0, h4, h4', if_false, if_true, newframe]
      exact ⟨At_open rfl rfl, trivial, trivial⟩

variable (cfg) in
/-- A flag where the machine compares with the flag. -/
theorem RxPort.At.octet_flag (hcond : cfg.frameFormatSize ≠ 2 ∨ xs.length ≠ 1) (h : p.At xs)
    (fresh : Frame) :
    (p.octet cfg (some fresh) IOHDLC_FLAG).At [] ∧
      ∃ fp : Frame, fp.octets = xs ∧
        (p.octet cfg (some fresh) IOHDLC_FLAG).rx.receptQ =
          p.rx.receptQ ++ (if HDLC_BASIC_MIN_L ≤ xs.length then [fp] else []) ∧
        (p.octet cfg (some fresh) IOHDLC_FLAG).rx.receptSem =
          p.rx.receptSem + (if HDLC_BASIC_MIN_L ≤ xs.length then 1 else 0) := by
  obtain ⟨fp, hxs, hlen, hfb, hoct⟩ := h.octet cfg (some fresh) IOHDLC_FLAG
  have hcl : sOnRxData cfg (some fresh) { p.rx with inFrame := some fp } =
      closingFlag (some fresh) { p.rx with inFrame := some fp } fp := by
    simp only [sOnRxData, hlen, hfb, true_and, if_pos hcond]
  have hspec := closingFlag_spec p.rx fp fresh
  rw [hoct, hcl]
  rw [hlen] at hspec
  exact ⟨hspec.1, fp, hxs, hspec.2⟩

end OneOctet

/-! ### Streams -/

section Streams

variable {cfg : DrvConfig} {p : RxPort}

theorem RxPort.feed_cons (x : UInt8 × Frame) (rest : List (UInt8 × Frame)) :
    p.feed cfg (x :: rest) = (p.octet cfg (some x.2) x.1).feed cfg rest := rfl

theorem RxPort.feed_append (a b : List (UInt8 × Frame)) :
    p.feed cfg (a ++ b) = (p.feed cfg a).feed cfg b := by
  simp [RxPort.feed]

variable (cfg) in
/-- An opening flag of its own finds an empty frame. -/
theorem RxPort.At.feed_opening (opening : Bool) (stream : List (UInt8 × Frame))
    (hstream : stream.map Prod.fst = if opening then [IOHDLC_FLAG] else []) (h : p.At []) :
    (p.feed cfg stream).At [] ∧ (p.feed cfg stream).rx.receptQ = p.rx.receptQ ∧
      (p.feed cfg stream).rx.receptSem = p.rx.receptSem := by
  cases opening with
  | false =>
    rw [List.map_eq_nil_iff.mp hstream]
    exact ⟨h, rfl, rfl⟩
  | true =>
    obtain ⟨y, rfl, hy⟩ := List.map_eq_singleton_iff.mp hstream
    obtain ⟨hat, fp, -, hq, hsem⟩ := h.octet_flag cfg (.inr (by decide)) y.2
    have hfeed : p.feed cfg [y] = p.octet cfg (some y.2) IOHDLC_FLAG := by
      rw [RxPort.feed_cons, hy]; rfl
    rw [hfeed]
    exact ⟨hat, by simpa [HDLC_BASIC_MIN_L] using hq, by simpa [HDLC_BASIC_MIN_L] using hsem⟩

end Streams

/-- A stream from the octets alone, with empty frames from the pool. -/
def streamOf (octets : List UInt8) : List (UInt8 × Frame) := octets.map fun b => (b, default)

@[simp] theorem map_fst_streamOf (octets : List UInt8) : (streamOf octets).map Prod.fst = octets := by
  rw [streamOf, List.map_map]
  exact List.map_id octets

/-! ### Transmissions -/

/-- One call of `drv_send_frame`: the frame, what the pool gives for the
encoded copy, and whether the pipeline puts an opening flag before it. -/
structure Sending where
  fp : Frame
  nfp : Frame
  opening : Bool

/-- The octets that leave the port. -/
def Sending.wire (cfg : DrvConfig) (t : Sending) : List UInt8 :=
  match drvSendFrame cfg t.fp (some t.nfp) with
  | .ok out => wireImage (sTryStartNextTx t.opening out)
  | .error _ => []

/-- On the wire the frame is `body` before a flag, the receive machine collects it
as one frame, and `drv_recv_frame` makes `content` of it. -/
structure Sending.Framed (cfg : DrvConfig) (t : Sending) (body content : List UInt8) : Prop where
  wire : t.wire cfg = (if t.opening then [IOHDLC_FLAG] else []) ++ (body ++ [IOHDLC_FLAG])
  collect : ∀ (p : RxPort) (stream : List (UInt8 × Frame)),
    stream.map Prod.fst = body ++ [IOHDLC_FLAG] → p.At [] →
      (p.feed cfg stream).At [] ∧ ∃ fp : Frame, fp.octets = body ∧
        (p.feed cfg stream).rx.receptQ = p.rx.receptQ ++ [fp] ∧
        (p.feed cfg stream).rx.receptSem = p.rx.receptSem + 1
  accept : ∀ fp : Frame, fp.octets = body →
    ∃ out, recvFrame cfg fp = some out ∧ out.octets = content

section Transmissions

variable {cfg : DrvConfig} {body content : Sending → List UInt8}

/-- The images of a list of frames add exactly these frames to the queue. -/
theorem RxPort.At.feed_sent (sent : List Sending)
    (hsent : ∀ t ∈ sent, t.Framed cfg (body t) (content t)) {p : RxPort}
    (stream : List (UInt8 × Frame)) (hstream : stream.map Prod.fst = sent.flatMap (·.wire cfg))
    (h : p.At []) :
    ∃ q : List Frame, q.map Frame.octets = sent.map body ∧
      (p.feed cfg stream).rx.receptQ = p.rx.receptQ ++ q ∧
      (p.feed cfg stream).rx.receptSem = p.rx.receptSem + q.length := by
  induction sent generalizing p stream with
  | nil =>
    rw [List.map_eq_nil_iff.mp hstream]
    exact ⟨[], rfl, by simp [RxPort.feed], rfl⟩
  | cons t rest ih =>
    have ht := hsent t List.mem_cons_self
    obtain ⟨image, later, rfl, himage, hlater⟩ := List.map_eq_append_iff.mp hstream
    replace himage : image.map Prod.fst = t.wire cfg := himage
    rw [ht.wire] at himage
    obtain ⟨pre, post, rfl, hpre, hpost⟩ := List.map_eq_append_iff.mp himage
    obtain ⟨hat, hq, hsem⟩ := h.feed_opening cfg t.opening pre hpre
    obtain ⟨hat', fp, hfp, hq', hsem'⟩ := ht.collect _ post hpost hat
    obtain ⟨q, hqs, hq'', hsem''⟩ :=
      ih (fun u hu => hsent u (List.mem_cons_of_mem _ hu)) later hlater hat'
    rw [RxPort.feed_append, RxPort.feed_append]
    refine ⟨fp :: q, ?_, ?_, ?_⟩
    · rw [List.map_cons, List.map_cons, hfp, hqs]
    · rw [hq'', hq', hq, List.append_assoc, List.singleton_append]
    · rw [hsem'', hsem', hsem, List.length_cons]; omega

/-- The frames of such a queue are accepted. -/
theorem recvFrames_sent (sent : List Sending)
    (hsent : ∀ t ∈ sent, t.Framed cfg (body t) (content t)) {q : List Frame}
    (hq : q.map Frame.octets = sent.map body) :
    (q.filterMap (recvFrame cfg)).map Frame.octets = sent.map content := by
  induction sent generalizing q with
  | nil =>
    rw [List.map_eq_nil_iff.mp hq]
    rfl
  | cons t ts ih =>
    obtain ⟨fp, q, rfl, hfp, hq⟩ := List.map_eq_cons_iff.mp hq
    obtain ⟨out, hout, hoctets⟩ := (hsent t List.mem_cons_self).accept fp hfp
    rw [List.filterMap_cons_some hout, List.map_cons, List.map_cons, hoctets,
      ih (fun u hu => hsent u (List.mem_cons_of_mem _ hu)) hq]

/-- A transmission that starts with an opening flag, at a machine that a flag
takes to the start of a frame. -/
theorem received_transmission (sent : List Sending)
    (hsent : ∀ t ∈ sent, t.Framed cfg (body t) (content t)) {p : RxPort} (hsig : p.rx.Signalled)
    (hflag : ∀ fresh, (p.octet cfg (some fresh) IOHDLC_FLAG).At []) (x : UInt8 × Frame)
    (rest : List (UInt8 × Frame)) (hopen : ∃ t ∈ sent.head?, t.opening = true)
    (hwire : (x :: rest).map Prod.fst = sent.flatMap (·.wire cfg)) :
    (received cfg (p.feed cfg (x :: rest)).rx).map Frame.octets =
      (received cfg (p.feed cfg [x]).rx).map Frame.octets ++ sent.map content := by
  obtain ⟨t, hhead, hop⟩ := hopen
  obtain ⟨ts, rfl⟩ : ∃ ts, sent = t :: ts := List.head?_eq_some_iff.mp hhead
  have ht := hsent t List.mem_cons_self
  have hts : ∀ u ∈ ts, u.Framed cfg (body u) (content u) :=
    fun u hu => hsent u (List.mem_cons_of_mem _ hu)
  -- The first octet is the opening flag, the first frame follows it.
  rw [List.flatMap_cons, ht.wire, hop, List.map_cons, if_pos rfl, List.append_assoc,
    List.singleton_append] at hwire
  obtain ⟨hx, hrest⟩ := List.cons.inj hwire
  obtain ⟨image, later, rfl, himage, hlater⟩ := List.map_eq_append_iff.mp hrest
  have hat : (p.feed cfg [x]).At [] := by
    rw [RxPort.feed_cons, hx]
    exact hflag x.2
  obtain ⟨hat', fp, hfp, hq, hsem⟩ := ht.collect _ image himage hat
  obtain ⟨q, hqs, hq', hsem'⟩ := hat'.feed_sent ts hts later hlater
  have hback : ((fp :: q).filterMap (recvFrame cfg)).map Frame.octets = (t :: ts).map content :=
    recvFrames_sent (t :: ts) hsent (by rw [List.map_cons, List.map_cons, hfp, hqs])
  have hsplit : p.feed cfg (x :: (image ++ later)) =
      ((p.feed cfg [x]).feed cfg image).feed cfg later := by
    rw [← RxPort.feed_append, ← RxPort.feed_append, List.singleton_append]
  have hsig' : (p.feed cfg [x]).rx.Signalled := RxPort.feed_signalled _ hsig
  have hall : ((p.feed cfg [x]).rx.receptQ ++ (fp :: q)).length ≤
      (p.feed cfg [x]).rx.receptSem + 1 + q.length := by
    rw [RxState.Signalled] at hsig'
    rw [List.length_append, List.length_cons]
    omega
  rw [hsplit, received, received, hq', hsem', hq, hsem, drvRecvFrames_eq cfg _ hsig' le_rfl,
    List.append_assoc, List.singleton_append, drvRecvFrames_eq cfg _ hall le_rfl,
    List.filterMap_append, List.map_append, hback]

end Transmissions

end IoHdlc
