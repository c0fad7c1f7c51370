import IoHdlc.Driver.Transmission

/-!
The round trip of length-prefixed framing. Once the frame format field has
arrived the receiver asks for the rest of the frame and its closing flag in one
piece, so no octet of the frame is compared with the flag.
-/

namespace IoHdlc

/-! ### The format field -/

/-- The largest total length that a format field of `fff` octets can express. -/
def fffLimit (fff : Nat) : Nat := if fff = 1 then 127 else 4095

theorem fffLimit_le (fff : Nat) : fffLimit fff ≤ 4095 := by
  rw [fffLimit]
  split <;> decide

theorem type0_octet : ∀ n < 128, n &&& 0xFF80 = 0 ∧ UInt8.ofNat n &&& 0x80 = 0 ∧
    (UInt8.ofNat n).toNat = n ∧ (UInt8.ofNat n = IOHDLC_FLAG ↔ n = 0x7E) := by
  decide +kernel

theorem type1_high : ∀ h < 16, UInt8.ofNat (0x80 ||| (h &&& 0x0F)) &&& 0xF0 = 0x80 ∧
    UInt8.ofNat (0x80 ||| (h &&& 0x0F)) &&& 0x80 ≠ 0 ∧
    UInt8.ofNat (0x80 ||| (h &&& 0x0F)) ≠ IOHDLC_FLAG ∧
    (UInt8.ofNat (0x80 ||| (h &&& 0x0F)) &&& 0x0F).toNat = h := by
  decide +kernel

/-- The receiver puts a length together again from the two octets. -/
theorem type1_join {n : Nat} (hn : n < 4096) :
    ((UInt8.ofNat (0x80 ||| ((n >>> 8) &&& 0x0F)) &&& 0x0F).toNat <<< 8) |||
      (UInt8.ofNat (n &&& 0xFF)).toNat = n := by
  have hh : n >>> 8 < 16 := by rw [Nat.shiftRight_eq_div_pow]; omega
  have hlo : n &&& 0xFF = n % 2 ^ 8 := Nat.and_two_pow_sub_one_eq_mod n 8
  have hlt : n % 2 ^ 8 < 2 ^ 8 := Nat.mod_lt _ (by decide)
  rw [(type1_high _ hh).2.2.2, hlo, UInt8.toNat_ofNat_of_lt' hlt,
    ← Nat.shiftLeft_add_eq_or_of_lt hlt, Nat.shiftLeft_eq, Nat.shiftRight_eq_div_pow]
  omega

theorem and_0xF000_eq_zero {n : Nat} (hn : n < 4096) : n &&& 0xF000 = 0 := by
  refine Nat.eq_of_testBit_eq fun i => ?_
  rw [Nat.testBit_and, Nat.zero_testBit]
  rcases Nat.lt_or_ge i 12 with hi | hi
  · have h : (0xF000 : Nat).testBit i = false := by
      rw [show (0xF000 : Nat) = 0xF <<< 12 from rfl, Nat.testBit_shiftLeft]
      simp [Nat.not_le.mpr hi]
    rw [h, Bool.and_false]
  · rw [Nat.testBit_lt_two_pow (Nat.lt_of_lt_of_le hn (Nat.pow_le_pow_right Nat.two_pos hi)),
      Bool.false_and]

/-- The format field of a frame of `n` octets in all. -/
def fffOctets (fff n : Nat) : List UInt8 :=
  if fff = 1 then [UInt8.ofNat n]
  else [UInt8.ofNat (0x80 ||| ((n >>> 8) &&& 0x0F)), UInt8.ofNat (n &&& 0xFF)]

theorem length_fffOctets {fff : Nat} (hf : fff = 1 ∨ fff = 2) (n : Nat) :
    (fffOctets fff n).length = fff := by
  rcases hf with rfl | rfl <;> rfl

/-! ### The sent image -/

/-- The frame with its format field and check sequence, as it goes on the wire. -/
def Sending.body (cfg : DrvConfig) (t : Sending) : List UInt8 :=
  cfg.fcs.append
    (fffOctets cfg.frameFormatSize (t.fp.elen + cfg.fcs.fcsSize) ++
      t.fp.octets.drop cfg.frameFormatSize)

/-- The driver can express the total length of the frame, and the frame includes
its format field. -/
structure Sending.Expressible (cfg : DrvConfig) (t : Sending) : Prop where
  total : t.fp.elen + cfg.fcs.fcsSize ≤ fffLimit cfg.frameFormatSize
  field : cfg.frameFormatSize ≤ t.fp.elen

section Image

variable {cfg : DrvConfig} {t : Sending}

theorem Sending.length_body (hf : cfg.frameFormatSize = 1 ∨ cfg.frameFormatSize = 2)
    (he : t.Expressible cfg) : (t.body cfg).length = t.fp.elen + cfg.fcs.fcsSize := by
  have := he.field
  simp only [Sending.body, FcsPolicy.length_append, List.length_append, length_fffOctets hf,
    List.length_drop, Frame.length_octets]
  omega

theorem sEmitFff_eq (hf : cfg.frameFormatSize = 1 ∨ cfg.frameFormatSize = 2)
    (he : t.Expressible cfg) :
    sEmitFff cfg (t.fp.elen - cfg.frameFormatSize) =
      .ok (fffOctets cfg.frameFormatSize (t.fp.elen + cfg.fcs.fcsSize)) := by
  have htotal := he.total
  generalize hn : t.fp.elen + cfg.fcs.fcsSize = n at htotal ⊢
  have hlt : n < 65536 := by
    have := fffLimit_le cfg.frameFormatSize
    omega
  have hmod : (((t.fp.elen : Int) - cfg.frameFormatSize + cfg.frameFormatSize + cfg.fcs.fcsSize) %
      65536).toNat = n := by
    omega
  rcases hf with hf | hf
  · rw [hf] at hmod htotal
    have h128 : n < 128 := Nat.lt_succ_of_le htotal
    simp only [sEmitFff, hf, hmod, (type0_octet n h128).1, fffOctets]
    rfl
  · rw [hf] at hmod htotal
    have h4096 : n < 4096 := Nat.lt_succ_of_le htotal
    simp only [sEmitFff, hf, hmod, and_0xF000_eq_zero h4096, fffOctets]
    rfl

/-- The wire image of a frame with a format field. -/
theorem Sending.wire_eq_body (hnt : cfg.applyTransparency = false)
    (hf : cfg.frameFormatSize = 1 ∨ cfg.frameFormatSize = 2) (he : t.Expressible cfg) :
    t.wire cfg = (if t.opening then [IOHDLC_FLAG] else []) ++ (t.body cfg ++ [IOHDLC_FLAG]) := by
  have htotal := he.total
  have hfield := he.field
  have hlt : t.fp.elen + cfg.fcs.fcsSize + 1 < 65536 := by
    have := fffLimit_le cfg.frameFormatSize
    omega
  have hlen := length_fffOctets hf (t.fp.elen + cfg.fcs.fcsSize)
  have hslice : (t.fp.frame.store 0 (fffOctets cfg.frameFormatSize (t.fp.elen + cfg.fcs.fcsSize))).slice
      0 t.fp.elen = fffOctets cfg.frameFormatSize (t.fp.elen + cfg.fcs.fcsSize) ++
        t.fp.octets.drop cfg.frameFormatSize := by
    generalize fffOctets cfg.frameFormatSize (t.fp.elen + cfg.fcs.fcsSize) = field at hlen ⊢
    obtain ⟨k, hk⟩ := Nat.exists_eq_add_of_le hfield
    rw [Frame.octets, hk, Buffer.slice_add, Buffer.slice_add, ← hlen, Buffer.slice_store,
      Nat.zero_add, List.drop_left' (by simp)]
    exact congrArg _ (Buffer.slice_congr fun i hi _ => Buffer.store_ge _ (by omega))
  have hsend : drvSendFrame cfg t.fp (some t.nfp) = .ok { t.fp with
      frame := (withFcs cfg (fffOctets cfg.frameFormatSize (t.fp.elen + cfg.fcs.fcsSize)) t.fp).store
        (t.fp.elen + cfg.fcs.fcsSize) [IOHDLC_FLAG]
      txLen := u16 (t.fp.elen + cfg.fcs.fcsSize + 1) } := by
    rw [drvSendFrame, hnt, sMaterializeTxFrame, sEmitFff_eq hf he]
    rfl
  rw [Sending.wire, hsend]
  dsimp only
  rw [wireImage_sTryStartNextTx, u16_of_lt hlt]
  have h := Buffer.slice_store_end
    (withFcs cfg (fffOctets cfg.frameFormatSize (t.fp.elen + cfg.fcs.fcsSize)) t.fp)
    (t.fp.elen + cfg.fcs.fcsSize) [IOHDLC_FLAG]
  rw [slice_withFcs, hslice, List.length_singleton] at h
  rw [h, Sending.body, FcsPolicy.append]

end Image

/-! ### One piece -/

section Piece

variable {cfg : DrvConfig} {p : RxPort} {fp : Frame} {off : Nat}

/-- While a request is not complete the port only stores octets. -/
theorem RxPort.feed_store (stream : List (UInt8 × Frame)) (hin : p.rx.inFrame = some fp)
    (htarget : p.request.target = .inFrame off) (hlen : p.got + stream.length < p.request.len) :
    p.feed cfg stream =
      { p with
        rx := { p.rx with inFrame := some { fp with
          frame := fp.frame.store (off + p.got) (stream.map Prod.fst) } }
        got := p.got + stream.length } := by
  induction stream generalizing p fp with
  | nil =>
    simp only [RxPort.feed, List.foldl_nil, List.map_nil, Buffer.store_nil, List.length_nil,
      Nat.add_zero, ← hin]
  | cons x rest ih =>
    rw [List.length_cons] at hlen
    have hst : p.store x.1 =
        { p with rx := { p.rx with inFrame := some (fp.setOctet (off + p.got) x.1) }, got := p.got + 1 } := by
      simp [RxPort.store, htarget, hin]
    have hoct : p.octet cfg (some x.2) x.1 = p.store x.1 := by
      rw [RxPort.octet, hst]
      exact if_neg (show p.got + 1 ≠ p.request.len by omega)
    rw [RxPort.feed_cons, hoct, hst]
    have h := @ih
      { p with rx := { p.rx with inFrame := some (fp.setOctet (off + p.got) x.1) }, got := p.got + 1 }
      (fp.setOctet (off + p.got) x.1) rfl htarget
      (show p.got + 1 + rest.length < p.request.len by omega)
    rw [h]
    simp only [List.map_cons, List.length_cons, Buffer.store_cons, Frame.setOctet, Nat.add_assoc,
      Nat.add_comm 1 rest.length]

/-- The octets that complete a request, and the call that follows. -/
theorem RxPort.feed_piece (stream : List (UInt8 × Frame)) (hin : p.rx.inFrame = some fp)
    (htarget : p.request.target = .inFrame off) (hgot : p.got = 0) (hne : stream ≠ [])
    (hlen : stream.length = p.request.len) :
    ∃ fresh : Frame, p.feed cfg stream =
      let r := sOnRxData cfg (some fresh)
        { p.rx with inFrame := some { fp with frame := fp.frame.store off (stream.map Prod.fst) } }
      { rx := r.1, request := r.2, got := 0 } := by
  obtain ⟨init, x, rfl⟩ : ∃ init x, stream = init ++ [x] :=
    ⟨stream.dropLast, stream.getLast hne, (List.dropLast_concat_getLast hne).symm⟩
  rw [List.length_append, List.length_singleton] at hlen
  refine ⟨x.2, ?_⟩
  rw [RxPort.feed_append, RxPort.feed_store init hin htarget (by omega), RxPort.feed_cons,
    List.map_append, List.map_singleton, Buffer.store_concat, List.length_map, hgot, Nat.add_zero,
    Nat.zero_add]
  simp [RxPort.feed, RxPort.octet, RxPort.store, htarget, hlen, RxPort.call, sOnRx, Frame.setOctet]

/-- The length is known and the octets `head` are in the frame: the rest of the
frame and its closing flag arrive in one piece and deliver it. -/
theorem RxPort.feed_rest (head tail : List UInt8) (stream : List (UInt8 × Frame))
    (hin : p.rx.inFrame = some fp) (hreq : p.request = frameRequest head.length (tail.length + 1))
    (hgot : p.got = 0) (helen : fp.elen = (head ++ tail).length)
    (hhead : fp.frame.slice 0 head.length = head) (hmin : HDLC_BASIC_MIN_L ≤ (head ++ tail).length)
    (hstream : stream.map Prod.fst = tail ++ [IOHDLC_FLAG]) :
    (p.feed cfg stream).At [] ∧ ∃ out : Frame, out.octets = head ++ tail ∧
      (p.feed cfg stream).rx.receptQ = p.rx.receptQ ++ [out] ∧
      (p.feed cfg stream).rx.receptSem = p.rx.receptSem + 1 := by
  have hlen : stream.length = tail.length + 1 := by
    rw [← List.length_map (f := Prod.fst), hstream, List.length_append, List.length_singleton]
  have hne : stream ≠ [] := by rintro rfl; cases hlen
  obtain ⟨fresh, hfeed⟩ : ∃ fresh, p.feed cfg stream = _ :=
    p.feed_piece stream hin (by rw [hreq]; rfl) hgot hne (by rw [hreq, hlen]; rfl)
  rw [hstream] at hfeed
  -- The buffer now starts with the frame and the flag.
  have hbuf : (fp.frame.store head.length (tail ++ [IOHDLC_FLAG])).slice 0 (fp.elen + 1) =
      (head ++ tail) ++ [IOHDLC_FLAG] := by
    have h := Buffer.slice_store_end fp.frame head.length (tail ++ [IOHDLC_FLAG])
    rw [hhead, List.length_append, List.length_singleton, ← Nat.add_assoc,
      ← List.length_append, ← helen, ← List.append_assoc] at h
    exact h
  rw [Buffer.slice_succ, Nat.zero_add] at hbuf
  obtain ⟨hoctets, hflag⟩ := List.append_inj hbuf (by rw [Buffer.length_slice, helen])
  obtain ⟨out, hout⟩ : ∃ out : Frame,
      out = { fp with frame := fp.frame.store head.length (tail ++ [IOHDLC_FLAG]) } := ⟨_, rfl⟩
  have hoelen : out.elen = (head ++ tail).length := by rw [hout, ← helen]
  have hooctets : out.octets = head ++ tail := by rw [hout]; exact hoctets
  have hoflag : out.frame out.elen = IOHDLC_FLAG := by rw [hout]; exact (List.cons.inj hflag).1
  rw [← hout] at hfeed
  have hcl : sOnRxData cfg (some fresh) { p.rx with inFrame := some out } =
      closingFlag (some fresh) { p.rx with inFrame := some out } out := by
    rw [HDLC_BASIC_MIN_L, ← hoelen] at hmin
    have hcond : cfg.frameFormatSize ≠ 2 ∨ out.elen ≠ 1 := .inr (by omega)
    simp only [sOnRxData, hoflag, true_and, if_pos hcond]
  obtain ⟨hat, hq, hsem⟩ := closingFlag_spec p.rx out fresh
  rw [hoelen, if_pos hmin] at hq hsem
  rw [hfeed, hcl]
  exact ⟨hat, out, hooctets, hq, hsem⟩

end Piece

/-! ### One frame -/

section OneFrame

variable {cfg : DrvConfig} {p : RxPort} {t : Sending}

/-- What the receiver needs of a frame: its image is no shorter than
`HDLC_BASIC_MIN_L`, fits the frame size with its closing flag, and in TYPE 0 the
length octet is no flag. -/
structure Sending.Receivable (cfg : DrvConfig) (t : Sending) : Prop where
  min : HDLC_BASIC_MIN_L ≤ t.fp.elen + cfg.fcs.fcsSize
  fits : t.fp.elen + cfg.fcs.fcsSize < cfg.framesize
  noFlag : cfg.frameFormatSize = 1 → t.fp.elen + cfg.fcs.fcsSize ≠ 0x7E

/-- TYPE 0: the first octet is the length. -/
theorem RxPort.At.feed_type0 (hnt : cfg.applyTransparency = false) (hf : cfg.frameFormatSize = 1)
    (he : t.Expressible cfg) (hr : t.Receivable cfg) (stream : List (UInt8 × Frame))
    (hstream : stream.map Prod.fst = t.body cfg ++ [IOHDLC_FLAG]) (h : p.At []) :
    (p.feed cfg stream).At [] ∧ ∃ fp : Frame, fp.octets = t.body cfg ∧
      (p.feed cfg stream).rx.receptQ = p.rx.receptQ ++ [fp] ∧
      (p.feed cfg stream).rx.receptSem = p.rx.receptSem + 1 := by
  have hlen := t.length_body (.inl hf) he
  have htotal := he.total
  have hnoflag := hr.noFlag hf
  have hmin := hr.min
  have hfits := hr.fits
  rw [hf, fffLimit, if_pos rfl] at htotal
  generalize hn : t.fp.elen + cfg.fcs.fcsSize = n at hlen htotal hnoflag hmin hfits
  obtain ⟨-, h80, hnat, hfl⟩ := type0_octet n (by omega)
  obtain ⟨tail, htail⟩ : ∃ tail, t.body cfg = UInt8.ofNat n :: tail := by
    rw [Sending.body, hf, hn]
    exact ⟨_, rfl⟩
  rw [htail, List.cons_append] at hstream
  rw [htail, List.length_cons] at hlen
  obtain ⟨x, rest, rfl, hx, hrest⟩ := List.map_eq_cons_iff.mp hstream
  obtain ⟨fp, hxs, helen, hfb, hoct⟩ := h.octet cfg (some x.2) x.1
  rw [List.length_nil] at helen hfb
  have hff : sOnRxData cfg (some x.2) { p.rx with inFrame := some fp } =
      ({ p.rx with inFrame := some { fp with elen := n } }, frameRequest 1 n) := by
    rw [HDLC_BASIC_MIN_L] at hmin
    have hne : ¬UInt8.ofNat n = IOHDLC_FLAG := fun h' => hnoflag (hfl.mp h')
    simp [sOnRxData, helen, hfb, hx, hne, hf, hnt, formatField, h80, hnat, show n ≠ 0 by omega,
      hfits]
  rw [RxPort.feed_cons, hoct, hff]
  have hreq : frameRequest 1 n = frameRequest [UInt8.ofNat n].length (tail.length + 1) := by
    rw [hlen]; rfl
  rw [htail]
  exact RxPort.feed_rest [UInt8.ofNat n] tail rest rfl hreq rfl (by simp [hlen])
    (by simp [Buffer.slice, hfb, hx]) (by simpa [hlen] using hmin) hrest

/-- TYPE 1: the second octet completes the length, whatever it is. -/
theorem RxPort.At.feed_type1 (hnt : cfg.applyTransparency = false) (hf : cfg.frameFormatSize = 2)
    (he : t.Expressible cfg) (hr : t.Receivable cfg) (stream : List (UInt8 × Frame))
    (hstream : stream.map Prod.fst = t.body cfg ++ [IOHDLC_FLAG]) (h : p.At []) :
    (p.feed cfg stream).At [] ∧ ∃ fp : Frame, fp.octets = t.body cfg ∧
      (p.feed cfg stream).rx.receptQ = p.rx.receptQ ++ [fp] ∧
      (p.feed cfg stream).rx.receptSem = p.rx.receptSem + 1 := by
  have hlen := t.length_body (.inr hf) he
  have htotal := he.total
  have hmin := hr.min
  have hfits := hr.fits
  rw [hf, fffLimit, if_neg (by decide)] at htotal
  generalize hn : t.fp.elen + cfg.fcs.fcsSize = n at hlen htotal hmin hfits
  have hhigh : n >>> 8 < 16 := by rw [Nat.shiftRight_eq_div_pow]; omega
  have hjoin := type1_join (n := n) (by omega)
  obtain ⟨hF0, -, hne, -⟩ := type1_high _ hhigh
  generalize hb0 : UInt8.ofNat (0x80 ||| ((n >>> 8) &&& 0x0F)) = b0 at hF0 hne hjoin
  generalize hb1 : UInt8.ofNat (n &&& 0xFF) = b1 at hjoin
  obtain ⟨tail, htail⟩ : ∃ tail, t.body cfg = b0 :: b1 :: tail := by
    rw [Sending.body, hf, hn, fffOctets, if_neg (by decide), hb0, hb1]
    exact ⟨_, rfl⟩
  rw [htail, List.cons_append, List.cons_append] at hstream
  rw [htail, List.length_cons, List.length_cons] at hlen
  obtain ⟨x, rest, rfl, hx, hrest⟩ := List.map_eq_cons_iff.mp hstream
  obtain ⟨y, rest, rfl, hy, hrest⟩ := List.map_eq_cons_iff.mp hrest
  rw [HDLC_BASIC_MIN_L] at hmin
  -- The first octet asks for the second.
  obtain ⟨fp, hxs, helen, hfb, hoct⟩ := h.octet cfg (some x.2) x.1
  rw [List.length_nil] at helen hfb
  have hff : sOnRxData cfg (some x.2) { p.rx with inFrame := some fp } =
      ({ p.rx with inFrame := some { fp with elen := 1 } }, frameRequest 1 1) := by
    simp [sOnRxData, helen, hfb, hx, hne, hf, hnt, formatField, hF0]
  have hat : (p.octet cfg (some x.2) x.1).At [b0] := by
    rw [hoct, hff]
    exact At_frameRequest rfl (by simp [Frame.octets, Buffer.slice, hfb, hx])
  have hq : (p.octet cfg (some x.2) x.1).rx = { p.rx with inFrame := some { fp with elen := 1 } } := by
    rw [hoct, hff]
  -- The second octet is not compared with the flag.
  obtain ⟨fp', hxs', helen', hfb', hoct'⟩ := hat.octet cfg (some y.2) y.1
  rw [List.length_singleton] at helen' hfb'
  have h0 : fp'.frame 0 = b0 := by
    rw [Frame.octets, helen'] at hxs'
    simpa [Buffer.slice] using hxs'
  have hlen1 : type1Length fp' = n := by rw [type1Length, h0, hfb', hy, hjoin]
  have hff' : sOnRxData cfg (some y.2)
      { (p.octet cfg (some x.2) x.1).rx with inFrame := some fp' } =
      ({ p.rx with inFrame := some { fp' with elen := n } }, frameRequest 2 (n - 1)) := by
    rw [hq]
    simp [sOnRxData, helen', hf, hnt, formatField, hlen1, show n ≠ 0 by omega, hfits]
  rw [RxPort.feed_cons, RxPort.feed_cons, hoct', hff', htail]
  have hreq : frameRequest 2 (n - 1) = frameRequest [b0, b1].length (tail.length + 1) := by
    rw [show n - 1 = tail.length + 1 by omega]; rfl
  exact RxPort.feed_rest [b0, b1] tail rest rfl hreq rfl (by simp; omega)
    (by simp [Buffer.slice, List.range_succ, h0, hfb', hy]) (by simp [HDLC_BASIC_MIN_L]; omega) hrest

end OneFrame

/-! ### The round trip -/

/-- The checks of `drv_recv_frame` pass and the check sequence is removed. -/
theorem recvFrame_body {cfg : DrvConfig} (hnt : cfg.applyTransparency = false)
    (hf : cfg.frameFormatSize = 1 ∨ cfg.frameFormatSize = 2) {t : Sending} (he : t.Expressible cfg)
    {fp : Frame} (hfp : fp.octets = t.body cfg) :
    ∃ out, recvFrame cfg fp = some out ∧
      out.octets = fffOctets cfg.frameFormatSize (t.fp.elen + cfg.fcs.fcsSize) ++
        t.fp.octets.drop cfg.frameFormatSize := by
  have hlen := t.length_body hf he
  have htotal := he.total
  have hfield := he.field
  have helen : fp.elen = t.fp.elen + cfg.fcs.fcsSize := by
    rw [← Frame.length_octets, hfp, hlen]
  have hlim := fffLimit_le cfg.frameFormatSize
  have hu : u16 (fp.elen + 65536 - cfg.fcs.fcsSize) = t.fp.elen := by
    rw [helen, show t.fp.elen + cfg.fcs.fcsSize + 65536 - cfg.fcs.fcsSize = t.fp.elen + 65536 by omega,
      u16, Nat.add_mod_right, Nat.mod_eq_of_lt (by omega)]
  have hfcs : cfg.fcs.rxCheckFn fp.octets = true := by
    rw [hfp]
    exact cfg.fcs.check_compute _
  -- The length octets of the frame declare its length.
  have hdecl : (if fp.frame 0 &&& 0x80 ≠ 0 then type1Length fp else (fp.frame 0).toNat) = fp.elen := by
    rw [helen]
    rcases hf with hf | hf
    · rw [hf, fffLimit, if_pos rfl] at htotal
      obtain ⟨-, h80, hnat, -⟩ := type0_octet (t.fp.elen + cfg.fcs.fcsSize) (by omega)
      have h0 : fp.frame 0 = UInt8.ofNat (t.fp.elen + cfg.fcs.fcsSize) := by
        refine Frame.frame_eq_of_octets hfp (i := 0) ?_
        rw [Sending.body, hf]
        rfl
      rw [h0, h80, hnat]
      rfl
    · rw [hf, fffLimit, if_neg (by decide)] at htotal
      have hhigh : (t.fp.elen + cfg.fcs.fcsSize) >>> 8 < 16 := by
        rw [Nat.shiftRight_eq_div_pow]; omega
      have h80 := (type1_high _ hhigh).2.1
      have hjoin := type1_join (n := t.fp.elen + cfg.fcs.fcsSize) (by omega)
      have h0 := Frame.frame_eq_of_octets hfp (i := 0) (by rw [Sending.body, hf]; rfl)
      have h1 := Frame.frame_eq_of_octets hfp (i := 1) (by rw [Sending.body, hf]; rfl)
      rw [type1Length, h0, h1, if_pos h80, hjoin]
  refine ⟨{ fp with elen := t.fp.elen }, ?_, ?_⟩
  · simp only [recvFrame, hnt, Bool.false_eq_true, if_false, hfcs, hdecl, hu]
    simp
  · rw [Frame.octets, helen, Sending.body, FcsPolicy.append, Buffer.slice_add] at hfp
    refine (List.append_inj hfp ?_).1
    have := length_fffOctets hf (t.fp.elen + cfg.fcs.fcsSize)
    simp only [Buffer.length_slice, List.length_append, List.length_drop, Frame.length_octets]
    omega

/-- The octets of a frame as it is sent: its format field and what follows it. -/
def Sending.content (cfg : DrvConfig) (t : Sending) : List UInt8 :=
  fffOctets cfg.frameFormatSize (t.fp.elen + cfg.fcs.fcsSize) ++ t.fp.octets.drop cfg.frameFormatSize

theorem Sending.framed_body {cfg : DrvConfig}
    (hf : cfg.frameFormatSize = 1 ∨ cfg.frameFormatSize = 2) (t : Sending)
    (he : t.Expressible cfg) (hr : t.Receivable cfg) :
    t.Framed cfg (t.body cfg) (t.content cfg) := by
  have hnt : cfg.applyTransparency = false := by
    cases ht : cfg.applyTransparency with
    | false => rfl
    | true => have := cfg.exclusive ht; omega
  refine ⟨Sending.wire_eq_body hnt hf he, fun p stream hstream h => ?_,
    fun fp hfp => recvFrame_body hnt hf he hfp⟩
  rcases hf with hf | hf
  · exact h.feed_type0 hnt hf he hr stream hstream
  · exact h.feed_type1 hnt hf he hr stream hstream

/-- The frames received from a started machine are the frames sent, whatever
they contain. -/
theorem length_framing_round_trip (cfg : DrvConfig)
    (hf : cfg.frameFormatSize = 1 ∨ cfg.frameFormatSize = 2) (sent : List Sending)
    (hsent : ∀ t ∈ sent, t.Expressible cfg ∧ t.Receivable cfg)
    (hopen : ∀ t ∈ sent.head?, t.opening = true) (stream : List (UInt8 × Frame))
    (hwire : stream.map Prod.fst = sent.flatMap (·.wire cfg)) :
    (received cfg (drvStart.feed cfg stream).rx).map Frame.octets = sent.map (·.content cfg) := by
  cases sent with
  | nil =>
    rw [List.map_eq_nil_iff.mp hwire]
    rfl
  | cons t ts =>
    have hframed (u : Sending) (hu : u ∈ t :: ts) : u.Framed cfg (u.body cfg) (u.content cfg) :=
      u.framed_body hf (hsent u hu).1 (hsent u hu).2
    obtain ⟨x, rest, rfl⟩ : ∃ x rest, stream = x :: rest := by
      cases stream with
      | cons x rest => exact ⟨x, rest, rfl⟩
      | nil =>
        rw [List.flatMap_cons, (hframed t List.mem_cons_self).wire] at hwire
        simp at hwire
    have h := received_transmission (t :: ts) hframed (p := drvStart) (Nat.le_refl 0)
      (fun fresh => At_open rfl rfl) x rest ⟨t, rfl, hopen t rfl⟩ hwire
    have hflag : x.1 = IOHDLC_FLAG := by
      rw [List.flatMap_cons, (hframed t List.mem_cons_self).wire, hopen t rfl, List.map_cons] at hwire
      exact (List.cons.inj hwire).1
    have hnone : received cfg (drvStart.feed cfg [x]).rx = [] := by
      rw [RxPort.feed_cons, hflag]
      rfl
    rw [h, hnone]
    rfl

/-- Address, control and a flag octet after a TYPE 1 field. -/
def flagSending (opening : Bool) : Sending :=
  { fp := { (default : Frame) with frame := fun i => [0, 0, 0x01, 0x7E, 0x7E].getD i 0, elen := 5 }
    nfp := default
    opening := opening }

/-- Two of them with a shared flag. -/
def flagStream : List (UInt8 × Frame) :=
  [0x7E, 0x80, 0x07, 0x01, 0x7E, 0x7E, 0xF2, 0xB8, 0x7E,
    0x80, 0x07, 0x01, 0x7E, 0x7E, 0xF2, 0xB8, 0x7E].map fun b => (b, default)

theorem length_framing_round_trip_flags :
    (received (.plain fcsSw 2 256 (by decide)) (drvStart.feed (.plain fcsSw 2 256 (by decide))
      flagStream).rx).map
        Frame.octets =
      [[0x80, 0x07, 0x01, 0x7E, 0x7E], [0x80, 0x07, 0x01, 0x7E, 0x7E]] :=
  (length_framing_round_trip (.plain fcsSw 2 256 (by decide)) (.inr rfl)
    [flagSending true, flagSending false]
    (by
      intro t ht
      have htotal : t.fp.elen = 5 := by
        rcases List.mem_pair.mp ht with rfl | rfl <;> rfl
      exact ⟨⟨by rw [htotal]; decide, by rw [htotal]; decide⟩,
        ⟨by rw [htotal]; decide, by rw [htotal]; decide, fun h => by cases h⟩⟩)
    (by rintro t ⟨⟩; rfl) flagStream (by decide +kernel)).trans (by decide +kernel)

/-! ### The limits of the round trip -/

/-- The round trip for frames of at least a format field, address and control
octets whose length can be expressed, without the two other bounds. -/
def LengthFramingRoundTrip (cfg : DrvConfig) : Prop :=
  ∀ (sent : List Sending) (stream : List (UInt8 × Frame)),
    (∀ t ∈ sent, t.Expressible cfg ∧ cfg.frameFormatSize + 2 ≤ t.fp.elen ∧
      (cfg.frameFormatSize = 1 → t.fp.elen + cfg.fcs.fcsSize ≠ 0x7E)) →
    (∀ t ∈ sent.head?, t.opening = true) → stream.map Prod.fst = sent.flatMap (·.wire cfg) →
    (received cfg (drvStart.feed cfg stream).rx).map Frame.octets = sent.map (·.content cfg)

/-- A frame of `elen` octets with a TYPE 0 field. -/
def type0Sending (elen : Nat) : Sending :=
  { fp := { (default : Frame) with frame := fun i => [0, 0x01, 0x73].getD i 0, elen := elen }
    nfp := default
    opening := true }

/-- The receiver drops a frame of three octets, and a frame that is longer than
its own frame size. -/
theorem length_framing_round_trip_fails :
    ¬LengthFramingRoundTrip (.plain fcsNone 1 128 (by decide)) ∧
      ¬LengthFramingRoundTrip (.plain fcsSw 1 8 (by decide)) := by
  have hdomain (fcs : FcsPolicy) (framesize elen : Nat) (h3 : 3 ≤ elen)
      (h : elen + fcs.fcsSize ≤ 100) (t : Sending) (ht : t ∈ [type0Sending elen]) :
      t.Expressible (.plain fcs 1 framesize (by decide)) ∧
        (DrvConfig.plain fcs 1 framesize (by decide)).frameFormatSize + 2 ≤ t.fp.elen ∧
        ((DrvConfig.plain fcs 1 framesize (by decide)).frameFormatSize = 1 →
          t.fp.elen + (DrvConfig.plain fcs 1 framesize (by decide)).fcs.fcsSize ≠ 0x7E) := by
    rw [List.mem_singleton] at ht
    subst ht
    have helen : (type0Sending elen).fp.elen = elen := rfl
    refine ⟨⟨?_, ?_⟩, ?_, fun _ => ?_⟩ <;>
      simp only [helen, DrvConfig.plain_frameFormatSize, DrvConfig.plain_fcs, fffLimit, if_true] <;>
      omega
  constructor
  · intro h
    have hlost := h [type0Sending 3] ([0x7E, 0x03, 0x01, 0x73, 0x7E].map fun b => (b, default))
      (hdomain fcsNone 128 3 (by decide) (by decide)) (by rintro t ⟨⟩; rfl) (by decide +kernel)
    exact absurd hlost (by decide +kernel)
  · intro h
    have hlost := h [type0Sending 8]
      ([0x7E, 0x0A, 0x01, 0x73, 0, 0, 0, 0, 0, 0x09, 0xF3, 0x7E].map fun b => (b, default))
      (hdomain fcsSw 8 8 (by decide) (by decide)) (by rintro t ⟨⟩; rfl) (by decide +kernel)
    exact absurd hlost (by decide +kernel)

end IoHdlc
