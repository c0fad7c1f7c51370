import IoHdlc.Driver.Transmission

/-!
The round trip of flag-delimited framing: whatever octets came before, the
frames a station sends after an opening flag are the frames the other one
receives.

In transparent mode the port is asked for one octet at a time, so after a
flag-free sequence it holds exactly that sequence. A flag then either ends a
frame or leaves the machine where an opening flag leaves it.
-/

namespace IoHdlc

/-! ### One octet at a time -/

/-- The machine asked for one octet, for the staging cell or for a frame. -/
def RxPort.Ready (framesize : Nat) (p : RxPort) : Prop :=
  (p.rx.inFrame = none ∧ p.request = stageRequest ∧ p.got = 0) ∨
    ∃ xs, p.At xs ∧ xs.length < framesize

section OneOctet

variable {cfg : DrvConfig} {take : Option Frame} {p : RxPort} {xs : List UInt8} {b : UInt8}

variable (take) in
/-- An octet that is no flag is appended as long as the frame has room. -/
theorem RxPort.At.octet_append (hfff : cfg.frameFormatSize = 0) (h : p.At xs) (hb : b ≠ IOHDLC_FLAG)
    (hroom : xs.length + 1 < cfg.framesize) (h16 : xs.length + 1 < 65536) :
    (p.octet cfg take b).At (xs ++ [b]) ∧
      (p.octet cfg take b).rx.receptQ = p.rx.receptQ ∧
      (p.octet cfg take b).rx.receptSem = p.rx.receptSem := by
  obtain ⟨fp, hxs, hlen, hfb, hoct⟩ := h.octet cfg take b
  have hacc : sOnRxData cfg take { p.rx with inFrame := some fp } =
      ({ p.rx with inFrame := some { fp with elen := xs.length + 1 } },
        frameRequest (xs.length + 1) 1) := by
    simp only [sOnRxData, hlen, hfb, hb, false_and, if_false, hfff, ne_eq, not_true_eq_false,
      accumulate, u16_of_lt h16, Nat.not_le.mpr hroom]
  rw [hoct, hacc]
  refine ⟨?_, rfl, rfl⟩
  have hoctets : Frame.octets { fp with elen := xs.length + 1 } = xs ++ [b] := by
    rw [Frame.octets, Buffer.slice_succ, Nat.zero_add, hfb, ← hlen]
    exact congrArg (· ++ [b]) hxs
  have hlen' : xs.length + 1 = (xs ++ [b]).length := by simp
  rw [hlen']
  exact At_frameRequest (by rw [← hlen']) hoctets

/-- Every octet leaves the machine asking for one octet, and a flag leaves it
at the start of a frame. -/
theorem RxPort.Ready.octet (hfff : cfg.frameFormatSize = 0) (h1 : 1 ≤ cfg.framesize)
    (hsize : cfg.framesize ≤ 65535) (h : p.Ready cfg.framesize) (fresh : Frame) (b : UInt8) :
    (p.octet cfg (some fresh) b).Ready cfg.framesize ∧
      (b = IOHDLC_FLAG → (p.octet cfg (some fresh) b).At []) := by
  obtain ⟨hnone, hreq, hgot⟩ | ⟨xs, hat, hlt⟩ := h
  · have hst : p.octet cfg (some fresh) b =
        let r := newframe (some fresh) { p.rx with stagep := b }
        { rx := r.1, request := r.2, got := 0 } := by
      simp [RxPort.octet, RxPort.store, hreq, hgot, stageRequest, RxPort.call, sOnRx, sOnRxData,
        hnone]
    rw [hst]
    by_cases hb : b = IOHDLC_FLAG
    · have hat : RxPort.At [] (let r := newframe (some fresh) { p.rx with stagep := b }
          { rx := r.1, request := r.2, got := 0 }) := by
        simp only [newframe, hb, if_true]
        exact At_open rfl rfl
      exact ⟨.inr ⟨[], hat, h1⟩, fun _ => hat⟩
    · refine ⟨.inl ?_, fun h => absurd h hb⟩
      simp [newframe, hb, hnone]
  · by_cases hb : b = IOHDLC_FLAG
    · have h := (hat.octet_flag cfg (.inl (by omega)) fresh).1
      rw [hb]
      exact ⟨.inr ⟨[], h, h1⟩, fun _ => h⟩
    · refine ⟨?_, fun h => absurd h hb⟩
      by_cases hroom : xs.length + 1 < cfg.framesize
      · exact .inr ⟨_, (hat.octet_append (some fresh) hfff hb hroom (by omega)).1, by simpa using hroom⟩
      · -- The frame is full: it is dropped and the machine hunts for a flag.
        obtain ⟨fp, hxs, hlen, hfb, hoct⟩ := hat.octet cfg (some fresh) b
        have hacc : sOnRxData cfg (some fresh) { p.rx with inFrame := some fp } =
            (sHandleRxError p.rx, stageRequest) := by
          have h0 : (0 : UInt8) ≠ IOHDLC_FLAG := by decide
          simp [sOnRxData, hlen, hfb, hb, hfff, accumulate, u16_of_lt (show xs.length + 1 < 65536 by omega),
            Nat.not_lt.mp hroom, newframe, sHandleRxError, h0]
        rw [hoct, hacc]
        exact .inl ⟨rfl, rfl, rfl⟩

/-- Whatever arrives, the machine is ready for a flag. -/
theorem RxPort.Ready.feed (hfff : cfg.frameFormatSize = 0) (h1 : 1 ≤ cfg.framesize)
    (hsize : cfg.framesize ≤ 65535) (stream : List (UInt8 × Frame)) (h : p.Ready cfg.framesize) :
    (p.feed cfg stream).Ready cfg.framesize := by
  induction stream generalizing p with
  | nil => exact h
  | cons x rest ih => exact ih (h.octet hfff h1 hsize x.2 x.1).1

/-- Octets without a flag are collected. -/
theorem RxPort.At.feed_body (hfff : cfg.frameFormatSize = 0)
    (stream : List (UInt8 × Frame)) (hflag : IOHDLC_FLAG ∉ stream.map Prod.fst) (h : p.At xs)
    (hroom : xs.length + stream.length < cfg.framesize) (h16 : xs.length + stream.length < 65536) :
    (p.feed cfg stream).At (xs ++ stream.map Prod.fst) ∧
      (p.feed cfg stream).rx.receptQ = p.rx.receptQ ∧
      (p.feed cfg stream).rx.receptSem = p.rx.receptSem := by
  induction stream generalizing p xs with
  | nil => simpa [RxPort.feed] using h
  | cons x rest ih =>
    rw [List.map_cons, List.mem_cons, not_or] at hflag
    rw [List.length_cons] at hroom h16
    obtain ⟨hat, hq, hsem⟩ :=
      h.octet_append (some x.2) hfff (Ne.symm hflag.1) (by omega) (by omega)
    obtain ⟨hat', hq', hsem'⟩ := ih hflag.2 hat (by simp; omega) (by simp; omega)
    rw [RxPort.feed_cons]
    refine ⟨?_, hq'.trans hq, hsem'.trans hsem⟩
    simpa using hat'

/-- A flag-free sequence of the right length and a flag add one frame to the
queue. -/
theorem RxPort.At.feed_image (hfff : cfg.frameFormatSize = 0) {body : List UInt8}
    (hflag : IOHDLC_FLAG ∉ body) (hmin : HDLC_BASIC_MIN_L ≤ body.length)
    (hroom : body.length < cfg.framesize) (h16 : body.length < 65536)
    (stream : List (UInt8 × Frame)) (hstream : stream.map Prod.fst = body ++ [IOHDLC_FLAG])
    (h : p.At []) :
    (p.feed cfg stream).At [] ∧ ∃ fp : Frame, fp.octets = body ∧
      (p.feed cfg stream).rx.receptQ = p.rx.receptQ ++ [fp] ∧
      (p.feed cfg stream).rx.receptSem = p.rx.receptSem + 1 := by
  obtain ⟨mid, last, rfl, rfl, hlast⟩ := List.map_eq_append_iff.mp hstream
  obtain ⟨x, rfl, hx⟩ := List.map_eq_singleton_iff.mp hlast
  rw [List.length_map] at hroom hmin h16
  obtain ⟨hat, hq, hsem⟩ := h.feed_body hfff mid hflag (by simpa using hroom) (by simpa using h16)
  rw [List.nil_append] at hat
  obtain ⟨hat', fp, hfp, hq', hsem'⟩ := hat.octet_flag cfg (.inl (by omega)) x.2
  have hfeed : p.feed cfg (mid ++ [x]) = (p.feed cfg mid).octet cfg (some x.2) IOHDLC_FLAG := by
    rw [RxPort.feed_append, RxPort.feed_cons, hx]; rfl
  rw [hfeed]
  rw [List.length_map, if_pos hmin] at hq' hsem'
  exact ⟨hat', fp, hfp, by rw [hq', hq], by rw [hsem', hsem]⟩

end OneOctet

/-! ### The round trip -/

/-- The stuffed image of a frame and its check sequence. -/
def Sending.encoded (cfg : DrvConfig) (t : Sending) : List UInt8 :=
  transparency.stuff (cfg.fcs.append t.fp.octets)

theorem Sending.wire_take {cfg : DrvConfig} (ht : cfg.applyTransparency = true) (t : Sending)
    (hsize : t.fp.elen + cfg.fcs.fcsSize < 65536) (hlen : u16 (t.encoded cfg).length + 1 < 65536) :
    t.wire cfg = (if t.opening then [IOHDLC_FLAG] else []) ++
      ((t.encoded cfg).take (u16 (t.encoded cfg).length) ++ [IOHDLC_FLAG]) := by
  obtain ⟨out, hout, hwire⟩ := wireImage_transparent ht t.fp t.nfp t.opening hsize hlen
  rw [Sending.wire, hout]
  exact hwire

theorem Sending.wire_eq {cfg : DrvConfig} (ht : cfg.applyTransparency = true) (t : Sending)
    (hlen : (t.encoded cfg).length + 1 < 65536) :
    t.wire cfg = (if t.opening then [IOHDLC_FLAG] else []) ++ (t.encoded cfg ++ [IOHDLC_FLAG]) := by
  have hsize : t.fp.elen + cfg.fcs.fcsSize ≤ (t.encoded cfg).length := by
    simpa [Sending.encoded] using
      transparency.length_le_length_stuff (cfg.fcs.append t.fp.octets)
  have hu : u16 (t.encoded cfg).length = (t.encoded cfg).length := u16_of_lt (by omega)
  have h := t.wire_take ht (by omega) (by omega)
  rwa [hu, List.take_length] at h

/-- `drv_recv_frame` undoes what `drv_send_frame` did to the octets of a frame. -/
theorem recvFrame_encoded {cfg : DrvConfig} (ht : cfg.applyTransparency = true) {t : Sending}
    {fp : Frame} (hfp : fp.octets = t.encoded cfg) (hlen : (t.encoded cfg).length < 65536) :
    ∃ out, recvFrame cfg fp = some out ∧ out.octets = t.fp.octets := by
  have hsize := transparency.length_le_length_stuff (cfg.fcs.append t.fp.octets)
  have hdec : (ioHdlcFrameTransparentDecode fp).octets = cfg.fcs.append t.fp.octets :=
    ioHdlcFrameTransparentDecode_octets hfp (Nat.lt_of_le_of_lt hsize hlen)
  have helen : (ioHdlcFrameTransparentDecode fp).elen = t.fp.elen + cfg.fcs.fcsSize := by
    rw [← Frame.length_octets, hdec, FcsPolicy.length_append, Frame.length_octets]
  have hbound : t.fp.elen < 65536 := by
    rw [FcsPolicy.length_append, Frame.length_octets] at hsize
    rw [Sending.encoded] at hlen
    omega
  have hu : u16 (t.fp.elen + cfg.fcs.fcsSize + 65536 - cfg.fcs.fcsSize) = t.fp.elen := by
    rw [show t.fp.elen + cfg.fcs.fcsSize + 65536 - cfg.fcs.fcsSize = t.fp.elen + 65536 by omega,
      u16, Nat.add_mod_right, Nat.mod_eq_of_lt hbound]
  refine ⟨{ ioHdlcFrameTransparentDecode fp with elen := t.fp.elen }, ?_, ?_⟩
  · simp [recvFrame, ht, cfg.exclusive ht, hdec, FcsPolicy.append, cfg.fcs.check_compute, helen, hu]
  · have hslice : (ioHdlcFrameTransparentDecode fp).frame.slice 0 (t.fp.elen + cfg.fcs.fcsSize) =
        t.fp.octets ++ cfg.fcs.txComputeFn t.fp.octets := by
      rw [← helen]
      exact hdec
    rw [Buffer.slice_add] at hslice
    exact (List.append_inj hslice (by simp)).1

/-- A frame whose image is long enough and fits the frame size. -/
theorem Sending.framed_encoded {cfg : DrvConfig} (ht : cfg.applyTransparency = true)
    (hsize : cfg.framesize ≤ 65535) (t : Sending) (hmin : HDLC_BASIC_MIN_L ≤ (t.encoded cfg).length)
    (hfit : (t.encoded cfg).length + 1 ≤ cfg.framesize) :
    t.Framed cfg (t.encoded cfg) t.fp.octets := by
  have hroom : (t.encoded cfg).length < cfg.framesize := by omega
  have h16 : (t.encoded cfg).length < 65536 := by omega
  exact
    { wire := t.wire_eq ht (by omega)
      collect := fun _ stream hstream h => h.feed_image (cfg.exclusive ht)
        (transparency.flag_notMem_stuff _) hmin hroom h16 stream hstream
      accept := fun _ hfp => recvFrame_encoded ht hfp h16 }

/-- What is received after the octet `x` is what was sent, octet by octet. -/
def RoundTrips (cfg : DrvConfig) (garbage : List (UInt8 × Frame)) (sent : List Sending)
    (x : UInt8 × Frame) (rest : List (UInt8 × Frame)) : Prop :=
  (received cfg (drvStart.feed cfg (garbage ++ x :: rest)).rx).map Frame.octets =
    (received cfg (drvStart.feed cfg (garbage ++ [x])).rx).map Frame.octets ++ sent.map (·.fp.octets)

/-- Whatever the line carried before, the frames received after the first
opening flag of a transmission are the frames that were sent when the image of
each has at least `HDLC_BASIC_MIN_L` octets and, with its closing flag, fits the
frame size. -/
theorem flag_framing_round_trip (cfg : DrvConfig) (ht : cfg.applyTransparency = true)
    (hsize : cfg.framesize ≤ 65535) (garbage : List (UInt8 × Frame)) (sent : List Sending)
    (hfit : ∀ t ∈ sent, HDLC_BASIC_MIN_L ≤ (t.encoded cfg).length ∧
      (t.encoded cfg).length + 1 ≤ cfg.framesize)
    (x : UInt8 × Frame) (rest : List (UInt8 × Frame)) (hopen : ∃ t ∈ sent.head?, t.opening = true)
    (hwire : (x :: rest).map Prod.fst = sent.flatMap (·.wire cfg)) :
    RoundTrips cfg garbage sent x rest := by
  have hfff := cfg.exclusive ht
  have h1 : 1 ≤ cfg.framesize := by
    obtain ⟨t, ht', -⟩ := hopen
    have := (hfit t (List.mem_of_mem_head? ht')).2
    omega
  have hready : (drvStart.feed cfg garbage).Ready cfg.framesize :=
    RxPort.Ready.feed hfff h1 hsize garbage (.inl ⟨rfl, rfl, rfl⟩)
  have hsig : (drvStart.feed cfg garbage).rx.Signalled :=
    RxPort.feed_signalled _ (Nat.le_refl 0)
  rw [RoundTrips, RxPort.feed_append, RxPort.feed_append]
  exact received_transmission sent
    (fun t hmem => t.framed_encoded ht hsize (hfit t hmem).1 (hfit t hmem).2) hsig
    (fun fresh => (hready.octet hfff h1 hsize fresh IOHDLC_FLAG).2 rfl) x rest hopen hwire

/-- A frame whose octets include a flag and an escape. -/
def stuffedSending (opening : Bool) : Sending :=
  { fp := { (default : Frame) with frame := fun i => [0x01, 0x7E, 0x7D].getD i 0, elen := 3 }
    nfp := default
    opening := opening }

/-- Two of them with a shared flag, after an escape on the line. -/
theorem flag_framing_round_trip_stuffed :
    RoundTrips (.transparent fcsSw 256) [(0x7D, default)]
      [stuffedSending true, stuffedSending false] (0x7E, default)
      ([0x01, 0x7D, 0x5E, 0x7D, 0x5D, 0xA6, 0x5E, 0x7E,
        0x01, 0x7D, 0x5E, 0x7D, 0x5D, 0xA6, 0x5E, 0x7E].map fun b => (b, default)) :=
  flag_framing_round_trip (.transparent fcsSw 256) rfl (by decide) _ _ (by decide +kernel) _ _
    ⟨_, rfl, rfl⟩ (by decide +kernel)

/-! ### The limits of the round trip -/

/-- The round trip for frames of at least address and control octets whose
image fits the frame size, without the two other bounds. -/
def FlagFramingRoundTrip (cfg : DrvConfig) : Prop :=
  ∀ (garbage : List (UInt8 × Frame)) (sent : List Sending) (x : UInt8 × Frame)
    (rest : List (UInt8 × Frame)),
    (∀ t ∈ sent, 2 ≤ t.fp.elen ∧ (t.encoded cfg).length + 1 ≤ cfg.framesize) →
    (∃ t ∈ sent.head?, t.opening = true) →
    (x :: rest).map Prod.fst = sent.flatMap (·.wire cfg) →
    RoundTrips cfg garbage sent x rest

/-- Too few octets between two flags leave the queue as it was. -/
theorem RxPort.At.feed_short {cfg : DrvConfig} {p : RxPort} (hfff : cfg.frameFormatSize = 0)
    (h : p.At []) (body : List UInt8) (hflag : IOHDLC_FLAG ∉ body)
    (hshort : body.length < HDLC_BASIC_MIN_L) (hsize : HDLC_BASIC_MIN_L ≤ cfg.framesize) :
    (p.feed cfg (streamOf (body ++ [IOHDLC_FLAG]))).rx.receptQ = p.rx.receptQ := by
  rw [HDLC_BASIC_MIN_L] at hshort hsize
  have hlen : (streamOf body).length = body.length := by simp [streamOf]
  obtain ⟨hat, hq, -⟩ := h.feed_body hfff (streamOf body) (by rwa [map_fst_streamOf])
    (by simp [hlen]; omega) (by simp [hlen]; omega)
  rw [map_fst_streamOf, List.nil_append] at hat
  obtain ⟨-, fp, -, hq', -⟩ := hat.octet_flag cfg (.inl (by omega)) default
  have hsplit : p.feed cfg (streamOf (body ++ [IOHDLC_FLAG])) =
      (p.feed cfg (streamOf body)).octet cfg (some default) IOHDLC_FLAG := by
    rw [streamOf, List.map_append, RxPort.feed_append]
    rfl
  rw [hsplit, hq', if_neg (by rw [HDLC_BASIC_MIN_L]; omega), List.append_nil, hq]

/-- A UA response without check sequence has two octets. -/
def shortSending : Sending :=
  { fp := { (default : Frame) with frame := fun i => [0x01, 0x73].getD i 0, elen := 2 }
    nfp := default
    opening := true }

/-- A frame of `n` flag octets. -/
def flagsSending (n : Nat) : Sending :=
  { fp := { (default : Frame) with frame := fun _ => IOHDLC_FLAG, elen := n }
    nfp := default
    opening := true }

/-- Each of its octets takes two in the image. -/
theorem flagsSending_encoded (n framesize : Nat) :
    2 * n + 2 ≤ ((flagsSending n).encoded (.transparent fcsSw framesize)).length ∧
      ((flagsSending n).encoded (.transparent fcsSw framesize)).length ≤ 2 * n + 4 := by
  have hoctets : (flagsSending n).fp.octets = List.replicate n IOHDLC_FLAG := by
    refine List.ext_getElem (by simp [flagsSending]) fun i h₁ _ => ?_
    rw [List.getElem_replicate]
    exact Buffer.getElem_slice _ _ _ _ h₁
  have hcount : List.countP (transparency.Special ·) (List.replicate n IOHDLC_FLAG) = n := by
    rw [List.countP_replicate, if_pos (by decide)]
  have hlen : (fcsSw.txComputeFn (List.replicate n IOHDLC_FLAG)).length = 2 :=
    fcsSw.length_compute _
  have hle := List.countP_le_length (p := (transparency.Special ·))
    (l := fcsSw.txComputeFn (List.replicate n IOHDLC_FLAG))
  rw [Sending.encoded, DrvConfig.transparent_fcs, FcsPolicy.append, hoctets,
    transparency.length_stuff, List.length_append, List.countP_append, hcount,
    List.length_replicate]
  omega

/-- The receiver drops a short frame, and the 16-bit lengths of the sender cut a
long one down to nothing. -/
theorem flag_framing_round_trip_fails :
    ¬FlagFramingRoundTrip (.transparent fcsNone 256) ∧
      ¬FlagFramingRoundTrip (.transparent fcsSw 70000) := by
  constructor
  · intro h
    have hlost := h [] [shortSending] (0x7E, default) (streamOf [0x01, 0x73, 0x7E]) (by decide)
      ⟨_, rfl, rfl⟩ (by decide)
    rw [RoundTrips] at hlost
    exact absurd hlost (by decide +kernel)
  · intro h
    have hlen := flagsSending_encoded 32767 70000
    generalize hcfg : DrvConfig.transparent fcsSw 70000 = cfg at h hlen
    have ht : cfg.applyTransparency = true := by rw [← hcfg]; rfl
    have hfff : cfg.frameFormatSize = 0 := by rw [← hcfg]; rfl
    have hsize : cfg.framesize = 70000 := by rw [← hcfg]; rfl
    have hfcs : cfg.fcs.fcsSize = 2 := by rw [← hcfg]; rfl
    generalize hk : u16 ((flagsSending 32767).encoded cfg).length = k
    have hk2 : k ≤ 2 := by rw [← hk, u16]; omega
    have hwire := (flagsSending 32767).wire_take ht (by rw [hfcs]; decide) (by omega)
    rw [hk] at hwire
    have hlost := h [] [flagsSending 32767] (IOHDLC_FLAG, default)
      (streamOf (((flagsSending 32767).encoded cfg).take k ++ [IOHDLC_FLAG]))
      (by
        intro t ht'
        rw [List.mem_singleton] at ht'
        subst ht'
        exact ⟨by decide, by omega⟩) ⟨_, rfl, rfl⟩
      (by rw [List.map_cons, map_fst_streamOf, List.flatMap_singleton, hwire]; rfl)
    -- What is left of the image is too short for the receiver.
    have hat : (drvStart.feed cfg [(IOHDLC_FLAG, default)]).At [] := At_open rfl rfl
    have hq : (drvStart.feed cfg [(IOHDLC_FLAG, default)]).rx.receptQ = [] := rfl
    have hempty := hat.feed_short hfff (((flagsSending 32767).encoded cfg).take k)
      (fun hmem => transparency.flag_notMem_stuff _ (List.mem_of_mem_take hmem))
      (by rw [List.length_take]; exact Nat.lt_of_le_of_lt (min_le_left ..) (by
        rw [HDLC_BASIC_MIN_L]; omega))
      (by rw [hsize]; decide)
    have hsplit (stream : List (UInt8 × Frame)) : drvStart.feed cfg ((IOHDLC_FLAG, default) :: stream) =
        (drvStart.feed cfg [(IOHDLC_FLAG, default)]).feed cfg stream := rfl
    rw [RoundTrips, List.nil_append, List.nil_append, hsplit, received,
      received, hempty, hq, drvRecvFrames_nil, drvRecvFrames_nil] at hlost
    cases hlost

end IoHdlc
