import IoHdlc.Driver.LowLayer

/-!
The octet transparency as the source runs it: two cursors move through the
buffers of two frames, which for the decoder may be one and the same. Frames are
named by references, and every access to a buffer is recorded.
-/

namespace IoHdlc

open Kit

/-- The frames by reference. -/
abbrev FrameStore (R : Type*) := R → Frame

/-- An access to the buffer of the source or of the destination. -/
inductive Access
  | read (pos : Nat)
  | write (pos : Nat)
  deriving DecidableEq

/-- In these accesses, the latest one first, nothing is written at or beyond a position that was
not read before. -/
def Behind : List Access → Prop
  | [] => True
  | .read _ :: accesses => Behind accesses
  | .write w :: accesses => (∀ p ≤ w, .read p ∈ accesses) ∧ Behind accesses

/-- The local variables of the two loops. The source counts its turns in `i` as well, which is
always the offset of `srcbuf`. -/
structure Cursors (R : Type*) where
  frames : FrameStore R
  dst : R
  src : R
  srcbuf : Nat
  dstbuf : Nat
  encoded : Bool
  accesses : List Access

variable {R : Type*}

namespace Cursors

/-- `*srcbuf`. -/
def get (c : Cursors R) : UInt8 := (c.frames c.src).frame c.srcbuf

/-- The comparisons with `*srcbuf`. -/
def look (c : Cursors R) : Cursors R := { c with accesses := .read c.srcbuf :: c.accesses }

/-- `++srcbuf`. -/
def skip (c : Cursors R) : Cursors R := { c with srcbuf := c.srcbuf + 1 }

/-- `for (int i = 0; i < src->elen; ++i)`, for as many turns as the first argument allows. -/
def turns (turn : Cursors R → Cursors R) (elen : Nat) : Nat → Cursors R → Cursors R
  | 0, c => c
  | fuel + 1, c => if c.srcbuf < elen then turns turn elen fuel (turn c) else c

@[simp] theorem srcbuf_look (c : Cursors R) : c.look.srcbuf = c.srcbuf := rfl

@[simp] theorem srcbuf_skip (c : Cursors R) : c.skip.srcbuf = c.srcbuf + 1 := rfl

@[simp] theorem get_look (c : Cursors R) : c.look.get = c.get := rfl

variable [DecidableEq R]

/-- `*dstbuf++ = v`. -/
def put (c : Cursors R) (v : UInt8) : Cursors R :=
  { c with
    frames := Function.update c.frames c.dst ((c.frames c.dst).setOctet c.dstbuf v)
    dstbuf := c.dstbuf + 1
    accesses := .write c.dstbuf :: c.accesses }

/-- `*dstbuf++ = f(*srcbuf++)`. -/
def copy (c : Cursors R) (f : UInt8 → UInt8) : Cursors R := (c.look.put (f c.get)).skip

def encodeTurn (c : Cursors R) : Cursors R :=
  if c.get = IOHDLC_FLAG ∨ c.get = IOHDLC_CTLESC then
    { (c.look.put IOHDLC_CTLESC).copy (· ^^^ IOHDLC_TMASK) with encoded := true }
  else c.look.copy id

def decodeTurn (c : Cursors R) : Cursors R :=
  if c.get = IOHDLC_CTLESC then c.look.skip.copy (· ^^^ IOHDLC_TMASK) else c.look.copy id

@[simp] theorem srcbuf_put (c : Cursors R) (v : UInt8) : (c.put v).srcbuf = c.srcbuf := rfl

@[simp] theorem srcbuf_copy (c : Cursors R) (f : UInt8 → UInt8) :
    (c.copy f).srcbuf = c.srcbuf + 1 := rfl

@[simp] theorem encoded_copy (c : Cursors R) (f : UInt8 → UInt8) :
    (c.copy f).encoded = c.encoded := rfl

end Cursors

namespace FrameStore

variable (fs : FrameStore R) (dst src : R)

def cursors : Cursors R :=
  { frames := fs
    dst := dst
    src := src
    srcbuf := 0
    dstbuf := 0
    encoded := false
    accesses := [] }

variable [DecidableEq R]

/-- The end of the loop of `ioHdlcFrameTransparentEncode`. A turn takes one octet or more. -/
def encoding : Cursors R :=
  (fs.cursors dst src).turns Cursors.encodeTurn (fs src).elen (fs src).elen

/-- The end of the loop of `ioHdlcFrameTransparentDecode`. -/
def decoding : Cursors R :=
  (fs.cursors dst src).turns Cursors.decodeTurn (fs src).elen (fs src).elen

/-- The frames afterwards, and whether an octet was replaced. -/
def ioHdlcFrameTransparentEncode : FrameStore R × Bool :=
  let c := fs.encoding dst src
  (Function.update c.frames dst { c.frames dst with elen := u16 c.dstbuf }, c.encoded)

def ioHdlcFrameTransparentDecode : FrameStore R :=
  let c := fs.decoding dst src
  Function.update c.frames dst { c.frames dst with elen := u16 c.dstbuf }

end FrameStore

/-! ### Buffers and images -/

theorem transparentEncode_append (xs ys : List UInt8) :
    transparentEncode (xs ++ ys) = transparentEncode xs ++ transparentEncode ys := by
  rw [transparentEncode_eq, transparentEncode_eq, transparentEncode_eq, Stuffing.stuff_append]

/-- What is left to decode of the octets before `elen`, from `k` on. -/
def undecoded (b : Buffer) (elen k : Nat) : List UInt8 :=
  transparency.unstuff (b elen) (b.slice k (elen - k))

section Undecoded

variable {b : Buffer} {elen k : Nat}

theorem undecoded_end (h : elen ≤ k) : undecoded b elen k = [] := by
  rw [undecoded, Nat.sub_eq_zero_of_le h]
  exact transparency.unstuff_nil _

/-- An escape takes the octet behind it, also where that one is not part of the frame. -/
theorem undecoded_esc (hk : k < elen) (hesc : b k = IOHDLC_CTLESC) :
    undecoded b elen k = (b (k + 1) ^^^ IOHDLC_TMASK) :: undecoded b elen (k + 2) := by
  obtain ⟨n, rfl⟩ := Nat.exists_eq_add_of_lt hk
  cases n with
  | zero =>
    rw [undecoded_end (b := b) (k := k + 2) (by omega), undecoded]
    have hlast : b.slice k (k + 0 + 1 - k) = [IOHDLC_CTLESC] := by
      rw [show k + 0 + 1 - k = 0 + 1 by omega, Buffer.slice_cons, hesc]
      rfl
    rw [hlast]
    rfl
  | succ n =>
    rw [undecoded, undecoded, show k + (n + 1) + 1 - k = n + 1 + 1 by omega,
      show k + (n + 1) + 1 - (k + 2) = n by omega, Buffer.slice_cons, Buffer.slice_cons, hesc]
    exact transparency.unstuff_esc_cons ..

theorem undecoded_plain (hk : k < elen) (hplain : b k ≠ IOHDLC_CTLESC) :
    undecoded b elen k = b k :: undecoded b elen (k + 1) := by
  rw [undecoded, undecoded, show elen - k = elen - (k + 1) + 1 by omega, Buffer.slice_cons]
  exact transparency.unstuff_cons _ hplain _

end Undecoded

/-! ### The loops -/

namespace Cursors

/-- The rule for the loops: an invariant of a turn that moves the source cursor holds when all
octets have been read. -/
theorem turns_rule {turn : Cursors R → Cursors R} {elen : Nat} {P : Cursors R → Prop}
    (hturn : ∀ c, c.srcbuf < elen → P c → P (turn c) ∧ c.srcbuf < (turn c).srcbuf) (fuel : Nat)
    (c : Cursors R) (hP : P c) (hfuel : elen ≤ c.srcbuf + fuel) :
    P (turns turn elen fuel c) ∧ elen ≤ (turns turn elen fuel c).srcbuf := by
  induction fuel generalizing c with
  | zero => exact ⟨hP, hfuel⟩
  | succ fuel ih =>
    rw [turns]
    split
    · next hlt =>
      obtain ⟨hnext, hmove⟩ := hturn c hlt hP
      exact ih (turn c) hnext (by omega)
    · next hge => exact ⟨hP, Nat.le_of_not_lt hge⟩

end Cursors

/-- The loop has stored `out` and nothing else. -/
structure Writes (fs : FrameStore R) (dst src : R) (out : List UInt8) (c : Cursors R) : Prop where
  at_dst : c.dst = dst
  at_src : c.src = src
  others : ∀ r, r ≠ dst → c.frames r = fs r
  written : c.frames dst = { fs dst with frame := (fs dst).frame.store 0 out }
  length : out.length = c.dstbuf
  inside : ∀ w, .write w ∈ c.accesses → w < c.dstbuf

namespace Writes

variable {fs : FrameStore R} {dst src : R} {out : List UInt8} {c : Cursors R}

theorem cursors (fs : FrameStore R) (dst src : R) :
    Writes fs dst src [] (fs.cursors dst src) where
  at_dst := rfl
  at_src := rfl
  others := fun _ _ => rfl
  written := by rw [Buffer.store_nil]; rfl
  length := rfl
  inside := by simp [FrameStore.cursors]

theorem look (h : Writes fs dst src out c) : Writes fs dst src out c.look :=
  { h with
    inside := by
      intro w hw
      apply h.inside
      simpa [Cursors.look] using hw }

theorem skip (h : Writes fs dst src out c) : Writes fs dst src out c.skip := { h with }

/-- What is read from a frame that is not the destination. -/
theorem get_other (h : Writes fs dst src out c) (hne : src ≠ dst) :
    c.get = (fs src).frame c.srcbuf := by
  rw [Cursors.get, h.at_src, h.others src hne]

variable [DecidableEq R]

theorem put (h : Writes fs dst src out c) (v : UInt8) :
    Writes fs dst src (out ++ [v]) (c.put v) where
  at_dst := h.at_dst
  at_src := h.at_src
  others := by
    intro r hr
    rw [← h.others r hr]
    exact Function.update_of_ne (by rwa [h.at_dst]) ..
  written := by
    simp only [Cursors.put, h.at_dst, Function.update_self, h.written, Frame.setOctet, ← h.length]
    rw [Buffer.store_concat, Nat.zero_add]
  length := by
    rw [List.length_append, h.length]
    rfl
  inside := by
    intro w hw
    rcases List.mem_cons.mp hw with heq | hold
    · cases heq
      exact Nat.lt_succ_self _
    · exact Nat.lt_succ_of_lt (h.inside w hold)

theorem copy (h : Writes fs dst src out c) (f : UInt8 → UInt8) :
    Writes fs dst src (out ++ [f c.get]) (c.copy f) :=
  (h.look.put _).skip

end Writes

/-- The encoder has replaced the octets before the source cursor. -/
structure Encoded (fs : FrameStore R) (dst src : R) (c : Cursors R) : Prop where
  writes : Writes fs dst src (transparentEncode ((fs src).frame.slice 0 c.srcbuf)) c
  srcbuf_le : c.srcbuf ≤ (fs src).elen
  replaced : c.encoded = ((fs src).frame.slice 0 c.srcbuf).any (transparency.Special ·)

/-- The decoder has read the octets before the source cursor and left those from there on alone. -/
structure Decoded (fs : FrameStore R) (dst src : R) (out : List UInt8) (c : Cursors R) : Prop where
  writes : Writes fs dst src out c
  dstbuf_le : c.dstbuf ≤ c.srcbuf
  ahead : ∀ p, c.srcbuf ≤ p → (c.frames src).frame p = (fs src).frame p
  behind : Behind c.accesses
  read : ∀ p < c.srcbuf, .read p ∈ c.accesses

section Encode

variable {fs : FrameStore R} {dst src : R} {c : Cursors R}

theorem Encoded.cursors (fs : FrameStore R) (dst src : R) :
    Encoded fs dst src (fs.cursors dst src) where
  writes := Writes.cursors fs dst src
  srcbuf_le := Nat.zero_le _
  replaced := rfl

variable [DecidableEq R]

theorem Encoded.turn (hne : src ≠ dst) (hlt : c.srcbuf < (fs src).elen) (h : Encoded fs dst src c) :
    Encoded fs dst src c.encodeTurn := by
  have hslice : (fs src).frame.slice 0 (c.srcbuf + 1) =
      (fs src).frame.slice 0 c.srcbuf ++ [c.get] := by
    rw [Buffer.slice_succ, Nat.zero_add, h.writes.get_other hne]
  rw [Cursors.encodeTurn]
  split
  · next hspecial =>
    have hput := h.writes.look.put IOHDLC_CTLESC
    have hget : (c.look.put IOHDLC_CTLESC).get = c.get := by
      rw [hput.get_other hne, h.writes.get_other hne]
      rfl
    have hout : transparentEncode ((fs src).frame.slice 0 (c.srcbuf + 1)) =
        transparentEncode ((fs src).frame.slice 0 c.srcbuf) ++ [IOHDLC_CTLESC] ++
          [(c.look.put IOHDLC_CTLESC).get ^^^ IOHDLC_TMASK] := by
      rw [hslice, hget, transparentEncode_append, transparentEncode, if_pos hspecial,
        transparentEncode, List.append_assoc]
      rfl
    constructor
    case writes =>
      simp only [Cursors.srcbuf_copy, Cursors.srcbuf_put, Cursors.srcbuf_look]
      rw [hout]
      exact { hput.copy (· ^^^ IOHDLC_TMASK) with }
    case srcbuf_le => exact hlt
    case replaced =>
      have hreplace : transparency.Special c.get := hspecial
      simp [hslice, hreplace]
  · next hplain =>
    have hout : transparentEncode ((fs src).frame.slice 0 (c.srcbuf + 1)) =
        transparentEncode ((fs src).frame.slice 0 c.srcbuf) ++ [c.get] := by
      rw [hslice, transparentEncode_append, transparentEncode, if_neg hplain]
      rfl
    constructor
    case writes =>
      rw [Cursors.srcbuf_copy, Cursors.srcbuf_look, hout]
      exact h.writes.look.copy id
    case srcbuf_le => exact hlt
    case replaced =>
      have hkeep : ¬transparency.Special c.get := hplain
      rw [Cursors.srcbuf_copy, Cursors.srcbuf_look, hslice, List.any_append, ← h.replaced]
      simp [hkeep, Cursors.look]

theorem encoding_encoded (fs : FrameStore R) (hne : src ≠ dst) :
    Encoded fs dst src (fs.encoding dst src) ∧ (fs.encoding dst src).srcbuf = (fs src).elen := by
  have hturn (c : Cursors R) (hlt : c.srcbuf < (fs src).elen) (h : Encoded fs dst src c) :
      Encoded fs dst src c.encodeTurn ∧ c.srcbuf < c.encodeTurn.srcbuf := by
    refine ⟨h.turn hne hlt, ?_⟩
    rw [Cursors.encodeTurn]
    split
    · exact Nat.lt_succ_self _
    · exact Nat.lt_succ_self _
  obtain ⟨henc, hend⟩ := Cursors.turns_rule hturn (fs src).elen (fs.cursors dst src)
    (Encoded.cursors fs dst src) (by omega)
  exact ⟨henc, Nat.le_antisymm henc.srcbuf_le hend⟩

/-- The encoder makes of the destination what the transmission takes it for. -/
theorem ioHdlcFrameTransparentEncode_eq (fs : FrameStore R) (hne : src ≠ dst) :
    fs.ioHdlcFrameTransparentEncode dst src =
      (Function.update fs dst (IoHdlc.ioHdlcFrameTransparentEncode (fs dst) (fs src)),
        (fs src).octets.any (transparency.Special ·)) := by
  obtain ⟨henc, hend⟩ := encoding_encoded fs hne
  have hwrites := henc.writes
  have hreplaced := henc.replaced
  rw [hend] at hwrites hreplaced
  apply Prod.ext
  · funext r
    by_cases hr : r = dst
    · subst hr
      simp only [FrameStore.ioHdlcFrameTransparentEncode, Function.update_self, hwrites.written,
        ← hwrites.length]
      rfl
    · simp only [FrameStore.ioHdlcFrameTransparentEncode, Function.update_of_ne hr]
      exact hwrites.others r hr
  · exact hreplaced

end Encode

section Decode

variable {fs : FrameStore R} {dst src : R} {out : List UInt8} {c : Cursors R}

namespace Decoded

theorem cursors (fs : FrameStore R) (dst src : R) : Decoded fs dst src [] (fs.cursors dst src) where
  writes := Writes.cursors fs dst src
  dstbuf_le := le_rfl
  ahead := fun _ _ => rfl
  behind := trivial
  read := fun _ h => absurd h (Nat.not_lt_zero _)

theorem get (h : Decoded fs dst src out c) : c.get = (fs src).frame c.srcbuf := by
  rw [Cursors.get, h.writes.at_src]
  exact h.ahead _ le_rfl

theorem look (h : Decoded fs dst src out c) : Decoded fs dst src out c.look where
  writes := h.writes.look
  dstbuf_le := h.dstbuf_le
  ahead := h.ahead
  behind := h.behind
  read := fun p hp => List.mem_cons_of_mem _ (h.read p hp)

/-- The cursor moves over an octet that was looked at. -/
theorem look_skip (h : Decoded fs dst src out c) : Decoded fs dst src out c.look.skip where
  writes := h.writes.look.skip
  dstbuf_le := Nat.le_succ_of_le h.dstbuf_le
  ahead := fun p hp => h.ahead p (Nat.le_of_succ_le hp)
  behind := h.behind
  read := by
    intro p hp
    rcases Nat.lt_succ_iff_lt_or_eq.mp hp with hlt | rfl
    · exact h.look.read p hlt
    · exact List.mem_cons_self

variable [DecidableEq R]

/-- The octet is stored where the source cursor was or before. -/
theorem copy (h : Decoded fs dst src out c) (f : UInt8 → UInt8) :
    Decoded fs dst src (out ++ [f ((fs src).frame c.srcbuf)]) (c.copy f) where
  writes := by
    rw [← h.get]
    exact h.writes.copy f
  dstbuf_le := Nat.succ_le_succ h.dstbuf_le
  ahead := by
    intro p hp
    rw [← h.ahead p (Nat.le_of_succ_le hp)]
    have hne : p ≠ c.dstbuf := Nat.ne_of_gt (Nat.lt_of_le_of_lt h.dstbuf_le hp)
    by_cases hsrc : src = c.dst
    · subst hsrc
      simp only [Cursors.copy, Cursors.skip, Cursors.put, Cursors.look, Function.update_self]
      exact Function.update_of_ne hne ..
    · simp only [Cursors.copy, Cursors.skip, Cursors.put, Cursors.look, Function.update_of_ne hsrc]
  behind := by
    refine ⟨fun p hp => ?_, h.behind⟩
    exact h.look_skip.read p (Nat.lt_succ_of_le (hp.trans h.dstbuf_le))
  read := fun p hp => List.mem_cons_of_mem _ (h.look_skip.read p hp)

theorem turn (hlt : c.srcbuf < (fs src).elen) (h : Decoded fs dst src out c)
    (hout : undecoded (fs src).frame (fs src).elen 0 =
      out ++ undecoded (fs src).frame (fs src).elen c.srcbuf) :
    ∃ out', Decoded fs dst src out' c.decodeTurn ∧ undecoded (fs src).frame (fs src).elen 0 =
      out' ++ undecoded (fs src).frame (fs src).elen c.decodeTurn.srcbuf := by
  rw [Cursors.decodeTurn, h.get]
  split
  · next hesc =>
    refine ⟨_, h.look_skip.copy (· ^^^ IOHDLC_TMASK), ?_⟩
    rw [hout, undecoded_esc hlt hesc, List.append_assoc]
    rfl
  · next hplain =>
    refine ⟨_, h.look.copy id, ?_⟩
    rw [hout, undecoded_plain hlt hplain, List.append_assoc]
    rfl

end Decoded

variable [DecidableEq R]

/-- The decoder reads what was in the source before the call, also where it writes to it. -/
theorem decoding_decoded (fs : FrameStore R) (dst src : R) :
    Decoded fs dst src (undecoded (fs src).frame (fs src).elen 0) (fs.decoding dst src) := by
  have hturn (c : Cursors R) (hlt : c.srcbuf < (fs src).elen)
      (h : ∃ out, Decoded fs dst src out c ∧ undecoded (fs src).frame (fs src).elen 0 =
        out ++ undecoded (fs src).frame (fs src).elen c.srcbuf) :
      (∃ out, Decoded fs dst src out c.decodeTurn ∧ undecoded (fs src).frame (fs src).elen 0 =
        out ++ undecoded (fs src).frame (fs src).elen c.decodeTurn.srcbuf) ∧
        c.srcbuf < c.decodeTurn.srcbuf := by
    obtain ⟨out, hdec, hout⟩ := h
    refine ⟨hdec.turn hlt hout, ?_⟩
    rw [Cursors.decodeTurn]
    split
    · exact Nat.lt_succ_of_lt (Nat.lt_succ_self _)
    · exact Nat.lt_succ_self _
  obtain ⟨⟨out, hdec, hout⟩, hend⟩ := Cursors.turns_rule hturn (fs src).elen (fs.cursors dst src)
    ⟨[], Decoded.cursors fs dst src, rfl⟩ (by omega)
  have hlast := undecoded_end (b := (fs src).frame) hend
  rw [show fs.decoding dst src = (fs.cursors dst src).turns Cursors.decodeTurn (fs src).elen
    (fs src).elen from rfl, hout, hlast, List.append_nil]
  exact hdec

theorem ioHdlcFrameTransparentDecode_eq (fs : FrameStore R) (dst src : R) :
    fs.ioHdlcFrameTransparentDecode dst src =
      let out := undecoded (fs src).frame (fs src).elen 0
      Function.update fs dst
        { fs dst with frame := (fs dst).frame.store 0 out, elen := u16 out.length } := by
  have hwrites := (decoding_decoded fs dst src).writes
  funext r
  by_cases hr : r = dst
  · subst hr
    simp only [FrameStore.ioHdlcFrameTransparentDecode, Function.update_self, hwrites.written,
      hwrites.length]
  · simp only [FrameStore.ioHdlcFrameTransparentDecode, Function.update_of_ne hr]
    exact hwrites.others r hr

/-- The call of the receiver. -/
theorem ioHdlcFrameTransparentDecode_inPlace (fs : FrameStore R) (fp : R) :
    fs.ioHdlcFrameTransparentDecode fp fp =
      Function.update fs fp (IoHdlc.ioHdlcFrameTransparentDecode (fs fp)) := by
  have hloop := transparentDecode_eq (fs fp).frame 0 0 (fs fp).elen le_rfl
  rw [ioHdlcFrameTransparentDecode_eq, IoHdlc.ioHdlcFrameTransparentDecode, hloop]
  simp only [undecoded, Nat.zero_add, Nat.sub_zero]

/-- Whatever frame the image of some octets is decoded into, it holds these octets. -/
theorem decode_image {fs : FrameStore R} {src : R} {xs : List UInt8}
    (h : (fs src).octets = transparentEncode xs) (hlen : xs.length < 65536) (dst : R) :
    (fs.ioHdlcFrameTransparentDecode dst src dst).octets = xs ∧
      ∀ w, .write w ∈ (fs.decoding dst src).accesses → w < xs.length := by
  have hslice : (fs src).frame.slice 0 (fs src).elen = transparency.stuff xs := by
    rw [← transparentEncode_eq]
    exact h
  have hout : undecoded (fs src).frame (fs src).elen 0 = xs := by
    rw [undecoded, Nat.sub_zero, hslice, Stuffing.unstuff_stuff]
  have hwrites := (decoding_decoded fs dst src).writes
  rw [hout] at hwrites
  constructor
  · rw [ioHdlcFrameTransparentDecode_eq]
    simp only [hout, Function.update_self, Frame.octets, u16_of_lt hlen]
    exact Buffer.slice_store ..
  · rw [hwrites.length]
    exact hwrites.inside

end Decode

/-! ### Transparency -/

/-- What the transparency of the octets of `src`, replaced in `dst`, is for. -/
structure Transparent (fs : FrameStore R) (dst src : R) [DecidableEq R] : Prop where
  noFlag : IOHDLC_FLAG ∉ ((fs.ioHdlcFrameTransparentEncode dst src).1 dst).octets
  elen : ((fs.ioHdlcFrameTransparentEncode dst src).1 dst).elen =
    (fs src).elen + (fs src).octets.countP fun x => x = IOHDLC_CTLESC ∨ x = IOHDLC_FLAG
  elen_le : ((fs.ioHdlcFrameTransparentEncode dst src).1 dst).elen ≤ 2 * (fs src).elen
  inside : ∀ w, .write w ∈ (fs.encoding dst src).accesses →
    w < ((fs.ioHdlcFrameTransparentEncode dst src).1 dst).elen
  -- in place where `fp` is `dst`
  roundTrip : ∀ fp, ((fs.ioHdlcFrameTransparentEncode dst src).1.ioHdlcFrameTransparentDecode
    fp dst fp).octets = (fs src).octets
  decodeInside : ∀ fp w,
    .write w ∈ ((fs.ioHdlcFrameTransparentEncode dst src).1.decoding fp dst).accesses →
      w < (fs src).elen

section

variable [DecidableEq R] {fs : FrameStore R} {dst src : R}

/-- The destination behind the encoder, where the length of the image fits `elen`. -/
theorem encode_octets (hne : src ≠ dst) (hfit : (fs.encoding dst src).dstbuf < 65536) :
    (fs.ioHdlcFrameTransparentEncode dst src).1 dst =
        { fs dst with
          frame := (fs dst).frame.store 0 (transparentEncode (fs src).octets)
          elen := (transparentEncode (fs src).octets).length } ∧
      ((fs.ioHdlcFrameTransparentEncode dst src).1 dst).octets =
        transparentEncode (fs src).octets := by
  obtain ⟨henc, hend⟩ := encoding_encoded fs hne
  have hlength := henc.writes.length
  rw [hend] at hlength
  have hlen : (transparentEncode (fs src).octets).length < 65536 := hlength.trans_lt hfit
  have hdst : (fs.ioHdlcFrameTransparentEncode dst src).1 dst =
      { fs dst with
        frame := (fs dst).frame.store 0 (transparentEncode (fs src).octets)
        elen := (transparentEncode (fs src).octets).length } := by
    rw [ioHdlcFrameTransparentEncode_eq fs hne]
    simp only [Function.update_self, IoHdlc.ioHdlcFrameTransparentEncode, u16_of_lt hlen]
  refine ⟨hdst, ?_⟩
  simp only [hdst, Frame.octets]
  exact Buffer.slice_store ..

/-- Octets whose image fits are encoded without a flag and decoded again, in place or into any
other frame, and whatever a frame holds, decoding it in place stays behind what it reads. -/
theorem octetTransparency (fs : FrameStore R) (dst src : R) :
    (dst ≠ src → (fs.encoding dst src).dstbuf < 65536 → Transparent fs dst src) ∧
      Behind (fs.decoding src src).accesses := by
  refine ⟨fun hne hfit => ?_, (decoding_decoded fs src src).behind⟩
  obtain ⟨hdst, hoctets⟩ := encode_octets hne.symm hfit
  obtain ⟨henc, hend⟩ := encoding_encoded fs hne.symm
  have hlength := henc.writes.length
  rw [hend] at hlength
  have helen : ((fs.ioHdlcFrameTransparentEncode dst src).1 dst).elen =
      (transparency.stuff (fs src).octets).length := by
    rw [hdst, transparentEncode_eq]
  have hxlen : (fs src).octets.length < 65536 := by
    have hle := transparency.length_le_length_stuff (fs src).octets
    rw [← transparentEncode_eq] at hle
    exact Nat.lt_of_le_of_lt (hle.trans_eq hlength) hfit
  have himage := decode_image hoctets hxlen
  constructor
  case noFlag =>
    rw [hoctets, transparentEncode_eq]
    exact transparency.flag_notMem_stuff _
  case elen =>
    rw [helen, Stuffing.length_stuff, Frame.length_octets]
    congr 1
    apply List.countP_congr
    intro x _
    simp [Stuffing.Special, transparency, or_comm]
  case elen_le =>
    rw [helen, ← Frame.length_octets (fs src)]
    exact transparency.length_stuff_le _
  case inside =>
    intro w hw
    rw [hdst]
    exact (henc.writes.inside w hw).trans_eq hlength.symm
  case roundTrip => exact fun fp => (himage fp).1
  case decodeInside =>
    intro fp w hw
    rw [← Frame.length_octets (fs src)]
    exact (himage fp).2 w hw

end

/-- A frame of a flag and an escape, and a frame for its image. -/
theorem octetTransparency_two :
    let fs : FrameStore Bool := fun r =>
      if r then Frame.taken (Buffer.store (fun _ => 0) 0 [IOHDLC_FLAG, IOHDLC_CTLESC]) 2
      else default
    Transparent fs false true ∧ Behind (fs.decoding true true).accesses := by
  intro fs
  obtain ⟨htransparent, hbehind⟩ := octetTransparency fs false true
  exact ⟨htransparent (by decide) (by decide), hbehind⟩

end IoHdlc
