import IoHdlc.Core.WriteVectors
import IoHdlc.Core.Node
import IoHdlc.Kit.Termination

/-!
The fragments of one call of `ioHdlcWriteVTmo`.

The call takes its sections one after the other. What it finds when it takes the
lock, how its waits end and what the pool gives are free in every one of them, as
long as the peer stays connected.
-/

namespace IoHdlc

open Kit

/-- What a section of the call finds. -/
structure WriteVEnv where
  link : Link
  gateFree : Bool
  timedOut : Bool
  take : Option Frame

/-- The call and the frames it has queued. -/
structure WriteVRun where
  pc : WriteVPc
  queued : List Frame

namespace WriteVRun

/-- The next section of the call. -/
def step (iov : List ConstIovec) (env : WriteVEnv) (g : WriteVRun) : WriteVRun :=
  match g.pc with
  | .gate total =>
    if env.gateFree then { g with pc := .admitted total }
    else if env.timedOut then { g with pc := .returned { count := -1, errno := some .ETIMEDOUT } }
    else g
  | .admitted total => { g with pc := (writeVBegin env.link total).2 }
  | .loop w => { g with pc := (writeVReserve iov env.link w env.timedOut env.take).2 }
  | .build w fp chunkSize =>
    { pc := (writeVInsert env.link w fp chunkSize).2.1
      queued := if (writeVInsert env.link w fp chunkSize).2.2 then g.queued ++ [fp] else g.queued }
  | .done result signalTx => { g with pc := .returned (writeVDone env.link result signalTx).2 }
  | .returned _ | .fault => g

/-- The call after `k` sections. -/
def run (ssizeMax : Nat) (iov : List ConstIovec) (env : Nat → WriteVEnv) : Nat → WriteVRun
  | 0 => { pc := writeVEntry ssizeMax iov, queued := [] }
  | k + 1 => (run ssizeMax iov env k).step iov (env k)

/-- The information fields of the queued frames, one behind the other. -/
def sent (fr : Framing) (g : WriteVRun) : List UInt8 := (g.queued.map (Frame.payload fr)).flatten

/-- The peer stays connected, and the station and the peer keep their lengths. -/
structure Connected (fr : Framing) (fcsSize mifls : Nat) (env : WriteVEnv) : Prop where
  conn : env.link.p.isDisc = false
  reset : env.link.p.streamTerminalPending.txReset = false
  framing : env.link.s.framing = fr
  fcsSize : env.link.s.fcsSize = fcsSize
  mifls : env.link.p.mifls = mifls

/-- The section goes on: the gate is free, or there is room in the queue and the
pool gives a frame. -/
def FindsSpace (env : WriteVEnv) (g : WriteVRun) : Prop :=
  match g.pc with
  | .gate _ => env.gateFree = true
  | .loop _ => wWaitCond env.link = false ∧ env.take.isSome = true
  | _ => True

/-- A fragment has between 1 and `mifls` octets, and a type 0 field does not
announce the flag octet. -/
structure GoodFragment (fr : Framing) (fcsSize mifls : Nat) (fp : Frame) : Prop where
  pos : 1 ≤ (fp.payload fr).length
  le : (fp.payload fr).length ≤ mifls
  flag : fr.frameOffset = 1 → fp.elen + fcsSize ≠ 0x7E

/-- What the call has queued when it has its result: as many of the octets as the
result counts, which are all of them unless an error is told. -/
structure Outcome (ssizeMax : Nat) (iov : List ConstIovec) (sent : List UInt8) (r : WriteVResult) :
    Prop where
  sent : sent = (iovOctets iov).take r.count.toNat
  count : r.count = -1 ∨ 0 ≤ r.count ∧ r.count ≤ (iovOctets iov).length
  all : r.errno = none → r.count = (iovOctets iov).length
  errno : r.errno = none ∨ r.errno = some .ETIMEDOUT ∨
    r = { count := -1, errno := some .EINVAL } ∧ writeVTotal ssizeMax iov 0 = .error .EINVAL

section Invariant

variable {ssizeMax : Nat} {iov : List ConstIovec} {fr : Framing} {fcsSize mifls : Nat}
  {env : WriteVEnv} {g : WriteVRun}

/-- What the call has queued, copied and still to copy are the octets of the vectors. -/
def Place (ssizeMax : Nat) (iov : List ConstIovec) (fr : Framing) (fcsSize mifls : Nat)
    (sent : List UInt8) : WriteVPc → Prop
  | .gate total | .admitted total =>
    sent = [] ∧ (∀ v ∈ iov, v.Readable) ∧ total = (iovOctets iov).length
  | .loop w => w.total = (iovOctets iov).length ∧ w.At iov w.remaining ∧
      sent ++ w.iov.rest (iovSegs iov) = iovOctets iov
  | .build w fp chunkSize => w.total = (iovOctets iov).length ∧ 1 ≤ chunkSize ∧
      chunkSize ≤ w.remaining ∧ w.At iov (w.remaining - chunkSize) ∧
      GoodFragment fr fcsSize mifls fp ∧
      sent ++ (fp.payload fr ++ w.iov.rest (iovSegs iov)) = iovOctets iov
  | .done r _ | .returned r => Outcome ssizeMax iov sent r
  | .fault => False

structure Inv (ssizeMax : Nat) (iov : List ConstIovec) (fr : Framing) (fcsSize mifls : Nat)
    (g : WriteVRun) : Prop where
  fragments : ∀ fp ∈ g.queued, GoodFragment fr fcsSize mifls fp
  place : Place ssizeMax iov fr fcsSize mifls (g.sent fr) g.pc

theorem elen_writeFragment (s : Station) (p : Peer) (fp : Frame) (info : List UInt8) :
    (writeFragment s p fp info).elen =
      u16 (s.framing.frameOffset + 1 + s.framing.ctrlSize + info.length) := rfl

/-- The information field that `writeFragment` fills, when its end fits `elen`. -/
theorem payload_writeFragment {s : Station} {p : Peer} (fp : Frame) (info : List UInt8)
    (hfit : s.framing.frameOffset + 1 + s.framing.ctrlSize + info.length < 65536) :
    (writeFragment s p fp info).payload s.framing = info ∧
      (writeFragment s p fp info).elen =
        s.framing.frameOffset + 1 + s.framing.ctrlSize + info.length := by
  have helen : (writeFragment s p fp info).elen =
      s.framing.frameOffset + 1 + s.framing.ctrlSize + info.length := by
    rw [elen_writeFragment, u16_of_lt hfit]
  refine ⟨?_, helen⟩
  rw [Frame.payload, helen, Nat.add_sub_cancel_left]
  exact Buffer.slice_store ..

/-- Halving leaves the length of the flag octet, and a fragment of one octet never
has it. -/
theorem writeChunkSize_flag {l : Link} {remaining : Nat} (hpos : 1 ≤ writeChunkSize l remaining)
    (hone : 3 + l.s.framing.ctrlSize + l.s.fcsSize ≠ 0x7E) (hoff : l.s.framing.frameOffset = 1) :
    l.s.framing.frameOffset + 1 + l.s.framing.ctrlSize + writeChunkSize l remaining + l.s.fcsSize ≠
      0x7E := by
  rw [writeChunkSize] at hpos ⊢
  generalize min remaining l.p.mifls = chunkSize at hpos ⊢
  split_ifs at hpos ⊢ <;> omega

theorem GoodFragment.of_writeFragment {l : Link} (fp : Frame) (info : List UInt8) {remaining : Nat}
    (hc : Connected fr fcsSize mifls env) (hl : env.link = l)
    (hinfo : info.length = writeChunkSize l remaining) (hpos : 1 ≤ writeChunkSize l remaining)
    (hfit : fr.frameOffset + 1 + fr.ctrlSize + mifls < 65536)
    (hone : fr.frameOffset = 1 → 3 + fr.ctrlSize + fcsSize ≠ 0x7E) :
    (writeFragment l.s l.p fp info).payload fr = info ∧
      GoodFragment fr fcsSize mifls (writeFragment l.s l.p fp info) := by
  subst hl
  have hle := (writeChunkSize_le env.link remaining).2
  rw [hc.mifls] at hle
  obtain ⟨hpayload, helen⟩ := payload_writeFragment (s := env.link.s) (p := env.link.p) fp info
    (by rw [hc.framing]; omega)
  rw [hc.framing] at hpayload helen
  refine ⟨hpayload, by rw [hpayload]; omega, by rw [hpayload]; omega, fun hoff => ?_⟩
  have hflag := writeChunkSize_flag hpos (by rw [hc.framing, hc.fcsSize]; exact hone hoff)
    (by rw [hc.framing]; exact hoff)
  rw [hc.framing, hc.fcsSize, ← hinfo] at hflag
  rwa [helen]

theorem sent_snoc (pc : WriteVPc) (fp : Frame) :
    sent fr { pc := pc, queued := g.queued ++ [fp] } = g.sent fr ++ fp.payload fr := by
  simp [sent]

theorem inv_entry :
    Inv ssizeMax iov fr fcsSize mifls { pc := writeVEntry ssizeMax iov, queued := [] } := by
  refine ⟨by simp, ?_⟩
  rw [writeVEntry]
  cases htotal : writeVTotal ssizeMax iov 0 with
  | error e =>
    obtain rfl := writeVTotal_eq_error htotal
    exact ⟨rfl, .inl rfl, by simp, .inr (.inr ⟨rfl, htotal⟩)⟩
  | ok total =>
    obtain ⟨hread, hlen⟩ := writeVTotal_eq_ok htotal
    rw [Nat.zero_add] at hlen
    dsimp only
    split
    · next hz =>
      have hnil : iovOctets iov = [] := List.eq_nil_of_length_eq_zero (by omega)
      exact ⟨by simp [sent], .inr ⟨le_rfl, by simp⟩, by simp [hnil], .inl rfl⟩
    · exact ⟨rfl, hread, hlen⟩

/-- A result that counts what is not left at the head of the loop. -/
theorem Outcome.of_rest {sent rest : List UInt8} {r : WriteVResult} {remaining : Nat}
    (hsent : sent ++ rest = iovOctets iov) (hrest : rest.length = remaining)
    (hcount : r.count = ((iovOctets iov).length - remaining : Nat) ∨
      r.count = -1 ∧ remaining = (iovOctets iov).length ∧ r.errno ≠ none)
    (herrno : r.errno = none ∧ remaining = 0 ∨ r.errno = some .ETIMEDOUT) :
    Outcome ssizeMax iov sent r := by
  have hlen := congrArg List.length hsent
  rw [List.length_append] at hlen
  have htake : sent = (iovOctets iov).take ((iovOctets iov).length - remaining) := by
    rw [← hsent, List.take_left' (by simp only [List.length_append]; omega)]
  refine ⟨?_, by omega, fun hnone => ?_, ?_⟩
  · obtain hcount | ⟨hcount, hall, -⟩ := hcount
    · rw [hcount, Int.toNat_natCast, ← htake]
    · rw [hcount, htake, hall, Nat.sub_self]
      rfl
  · obtain ⟨-, hzero⟩ | htimeout := herrno
    · obtain hcount | ⟨-, -, herr⟩ := hcount
      · rw [hcount, hzero, Nat.sub_zero]
      · exact absurd hnone herr
    · rw [hnone] at htimeout
      cases htimeout
  · exact herrno.imp And.left Or.inl

/-- The head of the loop. -/
theorem place_reserve {sent : List UInt8} {w : WriteV}
    (h : Place ssizeMax iov fr fcsSize mifls sent (.loop w)) (hc : Connected fr fcsSize mifls env)
    (hm : 1 ≤ mifls) (hfit : fr.frameOffset + 1 + fr.ctrlSize + mifls < 65536)
    (hone : fr.frameOffset = 1 → 3 + fr.ctrlSize + fcsSize ≠ 0x7E) :
    Place ssizeMax iov fr fcsSize mifls sent
      (writeVReserve iov env.link w env.timedOut env.take).2 := by
  obtain ⟨htotal, hat, hsent⟩ := h
  by_cases hrem : w.remaining = 0
  · simp only [writeVReserve, hrem, if_true]
    exact .of_rest hsent hat.length (.inl (by simp [hrem, htotal])) (.inl ⟨rfl, hrem⟩)
  · cases hspace : wWaitCond env.link with
    | true =>
      simp only [writeVReserve, hrem, hc.conn, hc.reset, hspace, if_false, if_true,
        Bool.false_eq_true]
      split_ifs with htime hnone
      · refine .of_rest hsent hat.length (.inl ?_) (.inr rfl)
        simp [htotal]
      · refine .of_rest hsent hat.length (.inr ⟨rfl, ?_, by simp⟩) (.inr rfl)
        omega
      · exact ⟨htotal, ⟨hat.readable, hat.valid, hat.length⟩, hsent⟩
    | false =>
      cases htake : env.take with
      | none =>
        simp only [writeVReserve, hrem, hc.conn, hc.reset, hspace, if_false, Bool.false_eq_true]
        exact ⟨htotal, hat, hsent⟩
      | some fp =>
        obtain ⟨c, hbuild, hrest, hat'⟩ := writeVReserve_build fp hat hrem hc.reset hc.conn
          hspace env.timedOut
        have hpos := writeChunkSize_pos (l := env.link) (by rw [hc.mifls]; exact hm)
          (Nat.one_le_iff_ne_zero.2 hrem)
        have hle := (writeChunkSize_le env.link w.remaining).1
        obtain ⟨hpayload, hgood⟩ := GoodFragment.of_writeFragment (l := env.link) fp
          ((w.iov.rest (iovSegs iov)).take (writeChunkSize env.link w.remaining)) hc rfl
          (by rw [List.length_take, hat.length, min_eq_left hle]) hpos hfit hone
        rw [hbuild]
        refine ⟨htotal, hpos, hle, hat', hgood, ?_⟩
        rw [hpayload, hrest, List.take_append_drop, hsent]

/-- One section of a connected call. -/
theorem Inv.step (h : Inv ssizeMax iov fr fcsSize mifls g) (hc : Connected fr fcsSize mifls env)
    (hm : 1 ≤ mifls) (hfit : fr.frameOffset + 1 + fr.ctrlSize + mifls < 65536)
    (hone : fr.frameOffset = 1 → 3 + fr.ctrlSize + fcsSize ≠ 0x7E) :
    Inv ssizeMax iov fr fcsSize mifls (g.step iov env) := by
  obtain ⟨pc, queued⟩ := g
  obtain ⟨hfrag, hplace⟩ := h
  cases pc with
  | gate total =>
    obtain ⟨hsent, hread, htotal⟩ := hplace
    simp only [WriteVRun.step]
    split_ifs
    · exact ⟨hfrag, hsent, hread, htotal⟩
    · exact ⟨hfrag, hsent.trans (List.take_zero ..).symm, .inl rfl, by simp, .inr (.inl rfl)⟩
    · exact ⟨hfrag, hsent, hread, htotal⟩
  | admitted total =>
    obtain ⟨hsent, hread, htotal⟩ := hplace
    refine ⟨hfrag, ?_⟩
    simp only [WriteVRun.step, writeVBegin, hc.conn, Bool.false_eq_true, if_false]
    refine ⟨htotal, ⟨hread, Cursor.valid_start, htotal.symm⟩, ?_⟩
    rw [Cursor.rest_start]
    exact congrArg (· ++ _) hsent
  | loop w =>
    refine ⟨hfrag, ?_⟩
    exact place_reserve hplace hc hm hfit hone
  | build w fp chunkSize =>
    obtain ⟨htotal, hpos, hle, hat, hgood, hsent⟩ := hplace
    simp only [WriteVRun.step, writeVInsert, hc.conn, hc.reset, Bool.false_eq_true, if_false, if_true]
    refine ⟨List.forall_mem_append.2 ⟨hfrag, by simpa using hgood⟩, htotal,
      ⟨hat.readable, hat.valid, hat.length⟩, ?_⟩
    rw [← hsent, ← List.append_assoc]
    exact congrArg (· ++ _) (sent_snoc (g := ⟨.build w fp chunkSize, queued⟩) _ fp)
  | done r signalTx =>
    refine ⟨hfrag, ?_⟩
    simp only [WriteVRun.step, writeVDone, hc.reset, Bool.false_eq_true, if_false]
    exact hplace
  | returned r => exact ⟨hfrag, hplace⟩
  | fault => exact hplace.elim

/-- The gate, the check, twice what is left with one step between, the last section. -/
def left (g : WriteVRun) : Nat :=
  match g.pc with
  | .gate total => 2 * total + 4
  | .admitted total => 2 * total + 3
  | .loop w => 2 * w.remaining + 2
  | .build w _ _ => 2 * w.remaining + 1
  | .done _ _ => 1
  | .returned _ | .fault => 0

theorem Inv.left_step (h : Inv ssizeMax iov fr fcsSize mifls g)
    (hc : Connected fr fcsSize mifls env) :
    (g.step iov env).left ≤ g.left ∧
      (g.left ≠ 0 → FindsSpace env g → (g.step iov env).left < g.left) := by
  obtain ⟨pc, queued⟩ := g
  cases pc with
  | gate total =>
    simp only [WriteVRun.step, FindsSpace]
    split_ifs <;> simp_all [left]
  | admitted total =>
    simp only [WriteVRun.step, writeVBegin, hc.conn, Bool.false_eq_true, if_false, left]
    omega
  | loop w =>
    obtain ⟨-, hat, -⟩ := h.place
    simp only [WriteVRun.step, FindsSpace]
    by_cases hrem : w.remaining = 0
    · simp [writeVReserve, hrem, left]
    · cases hspace : wWaitCond env.link with
      | true =>
        cases htime : env.timedOut <;>
          simp [writeVReserve, hrem, hc.conn, hc.reset, hspace, left]
      | false =>
        cases htake : env.take with
        | none => simp [writeVReserve, hrem, hc.conn, hc.reset, hspace, left]
        | some fp =>
          obtain ⟨c, hbuild, -⟩ := writeVReserve_build fp hat hrem hc.reset hc.conn
            hspace env.timedOut
          simp [hbuild, left]
  | build w fp chunkSize =>
    obtain ⟨-, hpos, hle, -⟩ := h.place
    simp only [WriteVRun.step, writeVInsert, hc.conn, hc.reset, Bool.false_eq_true, if_false, left]
    omega
  | done r signalTx => simp [WriteVRun.step, left]
  | returned r => simp [WriteVRun.step, left]
  | fault => simp [WriteVRun.step, left]

end Invariant

/-! ### Whole calls -/

/-- Every state of the call has queued good fragments only, no more of them than
octets, and read in bounds; a result is that of `Outcome`; and the call returns if
it goes on finding space. -/
structure Fragments (ssizeMax : Nat) (iov : List ConstIovec) (fr : Framing) (fcsSize mifls : Nat)
    (env : Nat → WriteVEnv) : Prop where
  fragments : ∀ k, ∀ fp ∈ (run ssizeMax iov env k).queued, GoodFragment fr fcsSize mifls fp
  finite : ∀ k, (run ssizeMax iov env k).queued.length ≤ (iovOctets iov).length
  inBounds : ∀ k, (run ssizeMax iov env k).pc ≠ .fault
  outcome : ∀ k r, (run ssizeMax iov env k).pc = .returned r →
    Outcome ssizeMax iov ((run ssizeMax iov env k).sent fr) r
  returns : (∀ k, ∃ j, k ≤ j ∧ FindsSpace (env j) (run ssizeMax iov env j)) →
    ∃ k r, (run ssizeMax iov env k).pc = .returned r

section Run

variable {ssizeMax : Nat} {iov : List ConstIovec} {fr : Framing} {fcsSize mifls : Nat}
  {env : Nat → WriteVEnv}

theorem inv_run (ssizeMax : Nat) (iov : List ConstIovec) (hm : 1 ≤ mifls)
    (hfit : fr.frameOffset + 1 + fr.ctrlSize + mifls < 65536)
    (hone : fr.frameOffset = 1 → 3 + fr.ctrlSize + fcsSize ≠ 0x7E)
    (hc : ∀ k, Connected fr fcsSize mifls (env k)) (k : Nat) :
    Inv ssizeMax iov fr fcsSize mifls (run ssizeMax iov env k) := by
  induction k with
  | zero => exact inv_entry
  | succ k ih => exact ih.step (hc k) hm hfit hone

/-- What has been queued is part of the octets. -/
theorem Place.length_le {sent : List UInt8} {pc : WriteVPc}
    (h : Place ssizeMax iov fr fcsSize mifls sent pc) : sent.length ≤ (iovOctets iov).length := by
  cases pc with
  | gate | admitted =>
    rw [h.1]
    exact Nat.zero_le _
  | loop w =>
    rw [← h.2.2, List.length_append]
    exact Nat.le_add_right ..
  | build w fp chunkSize =>
    rw [← h.2.2.2.2.2, List.length_append]
    exact Nat.le_add_right ..
  | done | returned =>
    rw [h.sent]
    exact List.length_take_le' ..
  | fault => exact h.elim

theorem Inv.length_queued_le {g : WriteVRun} (h : Inv ssizeMax iov fr fcsSize mifls g) :
    g.queued.length ≤ (g.sent fr).length := by
  have hsum (fps : List Frame) (hfps : ∀ fp ∈ fps, GoodFragment fr fcsSize mifls fp) :
      fps.length ≤ ((fps.map (Frame.payload fr)).flatten).length := by
    induction fps with
    | nil => exact le_rfl
    | cons fp fps ih =>
      obtain ⟨hfp, hfps⟩ := List.forall_mem_cons.1 hfps
      have hpos := hfp.pos
      have hrest := ih hfps
      simp only [List.length_cons, List.map_cons, List.flatten_cons, List.length_append]
      omega
  exact hsum g.queued h.fragments

theorem eq_returned_of_left {g : WriteVRun} (h : Inv ssizeMax iov fr fcsSize mifls g)
    (hleft : g.left = 0) : ∃ r, g.pc = .returned r := by
  have hplace := h.place
  rw [left] at hleft
  cases hpc : g.pc with
  | returned r => exact ⟨r, rfl⟩
  | fault =>
    rw [hpc] at hplace
    exact hplace.elim
  | gate | admitted | loop | build | done =>
    rw [hpc] at hleft
    simp at hleft

end Run

/-- A call on a peer that stays connected queues the octets of its vectors in order,
in fragments of at most `mifls` octets. -/
theorem writeV_fragments (ssizeMax : Nat) (iov : List ConstIovec) (fr : Framing)
    (fcsSize mifls : Nat) (env : Nat → WriteVEnv) (hm : 1 ≤ mifls)
    (hfit : fr.frameOffset + 1 + fr.ctrlSize + mifls < 65536)
    (hone : fr.frameOffset = 1 → 3 + fr.ctrlSize + fcsSize ≠ 0x7E)
    (hc : ∀ k, Connected fr fcsSize mifls (env k)) :
    Fragments ssizeMax iov fr fcsSize mifls env := by
  have hinv := inv_run ssizeMax iov hm hfit hone hc
  refine ⟨fun k => (hinv k).fragments, fun k => ?_, fun k hfault => ?_, fun k r hr => ?_, fun hspace => ?_⟩
  · exact (hinv k).length_queued_le.trans (hinv k).place.length_le
  · have hplace := (hinv k).place
    rw [hfault] at hplace
    exact hplace
  · have hplace := (hinv k).place
    rw [hr] at hplace
    exact hplace
  · have hstep (k : Nat) := (hinv k).left_step (hc k)
    obtain ⟨k, hk⟩ := exists_eq_zero_of_falls (fun k => (run ssizeMax iov env k).left)
      (fun k => (hstep k).1) fun k => by
        obtain ⟨j, hkj, hj⟩ := hspace k
        exact ⟨j, hkj, fun hleft => (hstep j).2 hleft hj⟩
    exact ⟨k, eq_returned_of_left (hinv k) hk⟩

/-! ### The two bounds -/

/-- A link to a connected peer whose lengths are free. -/
def connectedLink (fr : Framing) (fcsSize mifls : Nat) : Link :=
  let l := (Node.onePeer .adm { pri := true } 1 2).link 0
  { s := { l.s with framing := fr, fcsSize := fcsSize }
    p := { l.p with mifls := mifls, ssState := { l.p.ssState with stConn := true } } }

/-- Every section finds space. -/
def spacious (fr : Framing) (fcsSize mifls : Nat) : WriteVEnv :=
  { link := connectedLink fr fcsSize mifls, gateFree := true, timedOut := false,
    take := some default }

theorem connected_spacious (fr : Framing) (fcsSize mifls : Nat) :
    Connected fr fcsSize mifls (spacious fr fcsSize mifls) := ⟨rfl, rfl, rfl, rfl, rfl⟩

/-- A vector of `n` octets. -/
def zeros (n : Nat) : ConstIovec := { iovBase := some fun _ => 0, iovLen := n }

theorem readable_zeros (n : Nat) : (zeros n).Readable := fun h => by cases h

theorem length_octets_zeros (n : Nat) : (zeros n).octets.length = n :=
  ConstIovec.length_octets (readable_zeros n)

/-- Three octets between two empty vectors, in fragments of at most two. -/
theorem writeV_fragments_zeros :
    Fragments 10 [zeros 0, zeros 3, zeros 0] (.mod8 1 (by decide)) 2 2
      fun _ => spacious (.mod8 1 (by decide)) 2 2 :=
  writeV_fragments 10 [zeros 0, zeros 3, zeros 0] (.mod8 1 (by decide)) 2 2 _ (by decide)
    (by decide) (by decide) fun _ => connected_spacious _ _ _

/-- What fits one fragment is queued as one. -/
theorem queued_zeros (fr : Framing) (fcsSize n : Nat) (hpos : 1 ≤ n)
    (hchunk : writeChunkSize (connectedLink fr fcsSize n) n = n) :
    (run n [zeros n] (fun _ => spacious fr fcsSize n) 4).queued =
      [writeFragment (connectedLink fr fcsSize n).s (connectedLink fr fcsSize n).p default
        ((zeros n).octets)] := by
  have hne : n ≠ 0 := Nat.one_le_iff_ne_zero.1 hpos
  have hread : ∀ v ∈ [zeros n], v.Readable := by simp [readable_zeros]
  have hoctets := length_octets_zeros n
  have hentry : writeVEntry n [zeros n] = .gate n := by simp [writeVEntry, writeVTotal, zeros, hne]
  have hloop : (run n [zeros n] (fun _ => spacious fr fcsSize n) 2) =
      { pc := .loop { total := n, remaining := n, iov := ⟨0, 0⟩, signalTx := false }, queued := [] } := by
    simp only [run, hentry]
    rfl
  have hat : WriteV.At [zeros n] { total := n, remaining := n, iov := ⟨0, 0⟩, signalTx := false } n :=
    ⟨hread, Cursor.valid_start, by simp [Cursor.rest_start, hoctets]⟩
  have hspace : wWaitCond (connectedLink fr fcsSize n) = false :=
    (show wWaitCond ((Node.onePeer .adm { pri := true } 1 2).link 0) = false by decide +kernel)
  obtain ⟨c, hbuild, -⟩ := writeVReserve_build (l := connectedLink fr fcsSize n) default hat hne
    rfl rfl hspace false
  have hinfo : (iovSegs [zeros n]).flatten.take n = (zeros n).octets := by
    rw [iovSegs, List.map_singleton, List.flatten_singleton, List.take_of_length_le hoctets.le]
  rw [hchunk, Cursor.rest_start, hinfo] at hbuild
  have hbuilt : run n [zeros n] (fun _ => spacious fr fcsSize n) 3 =
      { pc := .build { total := n, remaining := n, iov := c, signalTx := false }
          (writeFragment (connectedLink fr fcsSize n).s (connectedLink fr fcsSize n).p default
            (zeros n).octets) n
        queued := [] } := by
    change (run n [zeros n] (fun _ => spacious fr fcsSize n) 2).step _ _ = _
    rw [hloop]
    exact congrArg (fun r => WriteVRun.mk r.2 []) hbuild
  change ((run n [zeros n] (fun _ => spacious fr fcsSize n) 3).step _ _).queued = _
  rw [hbuilt]
  rfl

/-- With a fragment of 65534 octets the 16 bits of `elen` are 0; with a check sequence
of 122 octets the length of a frame of one octet is that of the flag. -/
theorem writeV_fragments_fails :
    (¬∀ (ssizeMax : Nat) (iov : List ConstIovec) (fr : Framing) (fcsSize mifls : Nat)
      (env : Nat → WriteVEnv), 1 ≤ mifls → (fr.frameOffset = 1 → 3 + fr.ctrlSize + fcsSize ≠ 0x7E) →
      (∀ k, Connected fr fcsSize mifls (env k)) → Fragments ssizeMax iov fr fcsSize mifls env) ∧
    ¬∀ (ssizeMax : Nat) (iov : List ConstIovec) (fr : Framing) (fcsSize mifls : Nat)
      (env : Nat → WriteVEnv), 1 ≤ mifls → fr.frameOffset + 1 + fr.ctrlSize + mifls < 65536 →
      (∀ k, Connected fr fcsSize mifls (env k)) → Fragments ssizeMax iov fr fcsSize mifls env := by
  constructor
  · intro h
    have hfrag := (h 65534 [zeros 65534] (.mod8 0 (by decide)) 2 65534
      (fun _ => spacious (.mod8 0 (by decide)) 2 65534) (by decide) (by simp)
      fun _ => connected_spacious _ _ _).fragments 4
    rw [queued_zeros (.mod8 0 (by decide)) 2 65534 (by decide) rfl] at hfrag
    have hpos := (hfrag _ (List.mem_singleton.2 rfl)).pos
    have helen : (writeFragment (connectedLink (.mod8 0 (by decide)) 2 65534).s
        (connectedLink (.mod8 0 (by decide)) 2 65534).p default (zeros 65534).octets).elen = 0 := by
      rw [elen_writeFragment, length_octets_zeros]
      rfl
    rw [Frame.payload, helen, Buffer.length_slice, Nat.zero_sub] at hpos
    exact absurd hpos (by decide)
  · intro h
    have hfrag := (h 1 [zeros 1] (.mod8 1 (by decide)) 122 1
      (fun _ => spacious (.mod8 1 (by decide)) 122 1) le_rfl (by simp)
      fun _ => connected_spacious _ _ _).fragments 4
    rw [queued_zeros (.mod8 1 (by decide)) 122 1 le_rfl rfl] at hfrag
    exact (hfrag _ (List.mem_singleton.2 rfl)).flag rfl rfl

end WriteVRun

end IoHdlc
