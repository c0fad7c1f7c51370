import IoHdlc.Core.Write
import IoHdlc.Core.Window
import IoHdlc.Driver.Transmit
import IoHdlc.Kit.Cursor

/-!
The vectors of `ioHdlcWriteVTmo`.

`Write` keeps the octets that are still to be queued as one list. The code keeps a
vector index and an offset, and copies a fragment vector by vector. A step of the
code does what the step on the list does.
-/

namespace IoHdlc

open Kit

/-- `iohdlc_const_iovec_t`. -/
structure ConstIovec where
  iovBase : Option Buffer
  iovLen : Nat

namespace ConstIovec

/-- A null base goes with a length of 0. -/
def Readable (v : ConstIovec) : Prop := v.iovBase.isNone = true → v.iovLen = 0

def octets (v : ConstIovec) : List UInt8 :=
  match v.iovBase with
  | none => []
  | some base => base.slice 0 v.iovLen

theorem length_octets {v : ConstIovec} (h : v.Readable) : v.octets.length = v.iovLen := by
  cases hb : v.iovBase with
  | none => simp [octets, hb, h (by simp [hb])]
  | some base => simp [octets, hb]

end ConstIovec

/-- The loop that checks the vectors and adds up their lengths; `ssizeMax` is
`IOHDLC_SSIZE_MAX`. -/
def writeVTotal (ssizeMax : Nat) : List ConstIovec → Nat → Except Errno Nat
  | [], total => .ok total
  | v :: iov, total =>
    if v.iovBase.isNone ∧ v.iovLen ≠ 0 then .error .EINVAL
    else if v.iovLen > ssizeMax - total then .error .EINVAL
    else writeVTotal ssizeMax iov (total + v.iovLen)

abbrev iovSegs (iov : List ConstIovec) : List (List UInt8) := iov.map ConstIovec.octets

/-- All vectors in order. -/
def iovOctets (iov : List ConstIovec) : List UInt8 := (iovSegs iov).flatten

theorem writeVTotal_eq_ok {ssizeMax start total : Nat} {iov : List ConstIovec}
    (h : writeVTotal ssizeMax iov start = .ok total) :
    (∀ v ∈ iov, v.Readable) ∧ total = start + (iovOctets iov).length := by
  induction iov generalizing start with
  | nil =>
    cases h
    simp [iovOctets]
  | cons v iov ih =>
    rw [writeVTotal] at h
    split at h
    · cases h
    · next hnull =>
      split at h
      · cases h
      · obtain ⟨hiov, htotal⟩ := ih h
        have hv : v.Readable := fun hb => by
          by_contra hlen
          exact hnull ⟨hb, hlen⟩
        refine ⟨List.forall_mem_cons.2 ⟨hv, hiov⟩, ?_⟩
        rw [htotal, iovOctets, iovOctets, iovSegs, iovSegs, List.map_cons, List.flatten_cons, List.length_append,
          ConstIovec.length_octets hv, Nat.add_assoc]

theorem writeVTotal_eq_error {ssizeMax start : Nat} {iov : List ConstIovec} {e : Errno}
    (h : writeVTotal ssizeMax iov start = .error e) : e = .EINVAL := by
  induction iov generalizing start with
  | nil => cases h
  | cons v iov ih =>
    rw [writeVTotal] at h
    split_ifs at h
    · cases h
      rfl
    · cases h
      rfl
    · exact ih h

/-! ### Copying a fragment -/

/-- The inner loop that skips the vectors that are used up. -/
def skipVectors (iov : List ConstIovec) : Nat → Cursor → Cursor
  | 0, c => c
  | k + 1, c =>
    if (iov[c.index]?.map ConstIovec.iovLen) = some c.offset then skipVectors iov k ⟨c.index + 1, 0⟩
    else c

/-- The loop that fills the information field of a fragment: `info` is what has
been copied, `none` a read behind the vectors or through a null base. -/
def copyVectors (iov : List ConstIovec) (chunkSize : Nat) :
    Nat → List UInt8 → Cursor → Option (List UInt8 × Cursor)
  | fuel, info, c =>
    if info.length < chunkSize then
      match fuel with
      | 0 => none
      | fuel + 1 =>
        let c := skipVectors iov iov.length c
        match iov[c.index]? with
        | none => none
        | some v =>
          let bytesToCopy := min (v.iovLen - c.offset) (chunkSize - info.length)
          match v.iovBase with
          | none => none
          | some base =>
            copyVectors iov chunkSize fuel (info ++ base.slice c.offset bytesToCopy)
              ⟨c.index, c.offset + bytesToCopy⟩
    else some (info, c)

section Copy

variable {iov : List ConstIovec} {c : Cursor}

theorem length_segment (hiov : ∀ v ∈ iov, v.Readable) {i : Nat} (hi : i < iov.length)
    (hi' : i < (iovSegs iov).length) : (iovSegs iov)[i].length = iov[i].iovLen := by
  rw [List.getElem_map, ConstIovec.length_octets (hiov _ (List.getElem_mem hi))]

/-- Skipping leaves the rest as it is. -/
theorem skipVectors_rest (hiov : ∀ v ∈ iov, v.Readable) (k : Nat) (c : Cursor)
    (hv : c.Valid (iovSegs iov)) :
    (skipVectors iov k c).Valid (iovSegs iov) ∧
      (skipVectors iov k c).rest (iovSegs iov) = c.rest (iovSegs iov) := by
  induction k generalizing c with
  | zero => exact ⟨hv, rfl⟩
  | succ k ih =>
    rw [skipVectors]
    split
    · next hend =>
      obtain ⟨v, hget, hlen⟩ := Option.map_eq_some_iff.1 hend
      obtain ⟨hi, rfl⟩ := List.getElem?_eq_some_iff.1 hget
      have hi' : c.index < (iovSegs iov).length := by simpa using hi
      obtain ⟨hvalid, hrest⟩ := ih ⟨c.index + 1, 0⟩ (Cursor.Valid.next hi')
      refine ⟨hvalid, hrest.trans (Cursor.rest_next hi' ?_)⟩
      rw [length_segment hiov hi hi', hlen]
    · exact ⟨hv, rfl⟩

/-- As many rounds as there are vectors end the loop. -/
theorem skipVectors_end (k : Nat) (c : Cursor) (hk : iov.length - c.index ≤ k) :
    iov[(skipVectors iov k c).index]?.map ConstIovec.iovLen ≠ some (skipVectors iov k c).offset := by
  induction k generalizing c with
  | zero =>
    rw [skipVectors, List.getElem?_eq_none (by omega)]
    exact Option.some_ne_none _ ∘ Eq.symm
  | succ k ih =>
    rw [skipVectors]
    split
    · exact ih _ (by dsimp only; omega)
    · next h => exact h

/-- A read within a vector. -/
theorem ConstIovec.take_octets {v : ConstIovec} {base : Buffer} (hbase : v.iovBase = some base)
    {off n : Nat} (hfit : off + n ≤ v.iovLen) : (v.octets.drop off).take n = base.slice off n := by
  obtain ⟨m, hm⟩ := Nat.exists_eq_add_of_le hfit
  rw [ConstIovec.octets, hbase]
  dsimp only
  rw [hm, Buffer.slice_add, Buffer.slice_add, List.append_assoc, Nat.zero_add,
    List.drop_left' (by simp), List.take_left' (by simp)]

/-- A round of the copy takes octets from the rest, at least one and not too many. -/
theorem copyVectors_round (hiov : ∀ v ∈ iov, v.Readable) {chunkSize : Nat} (fuel : Nat)
    {info : List UInt8} {c : Cursor} (hv : c.Valid (iovSegs iov)) (hmore : info.length < chunkSize)
    (hroom : chunkSize ≤ info.length + (c.rest (iovSegs iov)).length) :
    ∃ octets d, copyVectors iov chunkSize (fuel + 1) info c =
        copyVectors iov chunkSize fuel (info ++ octets) d ∧
      d.Valid (iovSegs iov) ∧ octets ++ d.rest (iovSegs iov) = c.rest (iovSegs iov) ∧
      0 < octets.length ∧ info.length + octets.length ≤ chunkSize := by
  obtain ⟨hvalid, hrest⟩ := skipVectors_rest hiov iov.length c hv
  have hend := skipVectors_end iov.length c (Nat.sub_le ..)
  rw [copyVectors, if_pos hmore]
  dsimp only
  generalize skipVectors iov iov.length c = d at hvalid hrest hend ⊢
  have hi : d.index < iov.length := by
    by_contra hi
    rw [← hrest, Cursor.rest_of_length_le (by simpa using Nat.not_lt.1 hi)] at hroom
    simp only [List.length_nil] at hroom
    omega
  have hi' : d.index < (iovSegs iov).length := by simpa using hi
  have hlen := length_segment hiov hi hi'
  have hoff : d.offset < iov[d.index].iovLen := by
    have hle := hvalid.2
    rw [List.getD_eq_getElem _ _ hi', hlen] at hle
    rw [List.getElem?_eq_getElem hi, Option.map_some, ne_eq, Option.some_inj] at hend
    omega
  obtain ⟨base, hbase⟩ : ∃ base, iov[d.index].iovBase = some base := by
    refine Option.ne_none_iff_exists'.1 fun hnull => ?_
    have hzero := hiov _ (List.getElem_mem hi) (by rw [hnull]; rfl)
    omega
  rw [List.getElem?_eq_getElem hi]
  dsimp only
  rw [hbase]
  dsimp only
  generalize hn : min (iov[d.index].iovLen - d.offset) (chunkSize - info.length) = n
  have hfit : d.offset + n ≤ (iovSegs iov)[d.index].length := by omega
  have hadv := Cursor.rest_advance hi' hfit
  have hread : ((iovSegs iov)[d.index].drop d.offset).take n = base.slice d.offset n := by
    rw [List.getElem_map]
    exact ConstIovec.take_octets hbase (hlen ▸ hfit)
  rw [hread, hrest] at hadv
  refine ⟨_, _, rfl, Cursor.Valid.advance hi' hfit, hadv.symm, ?_, ?_⟩
  · rw [Buffer.length_slice]
    omega
  · rw [Buffer.length_slice]
    omega

/-- With enough left, and a round for every octet, the copy is the next part of
the rest, and no read is out of bounds. -/
theorem copyVectors_eq_some (hiov : ∀ v ∈ iov, v.Readable) (chunkSize fuel : Nat)
    (info : List UInt8) (c : Cursor) (hv : c.Valid (iovSegs iov))
    (hinfo : info.length ≤ chunkSize) (hfuel : chunkSize ≤ info.length + fuel)
    (hroom : chunkSize ≤ info.length + (c.rest (iovSegs iov)).length) :
    ∃ c', copyVectors iov chunkSize fuel info c =
        some (info ++ (c.rest (iovSegs iov)).take (chunkSize - info.length), c') ∧
      c'.Valid (iovSegs iov) ∧
      c'.rest (iovSegs iov) =
        (c.rest (iovSegs iov)).drop (chunkSize - info.length) := by
  induction fuel generalizing info c with
  | zero =>
    have hdone : chunkSize - info.length = 0 := by omega
    refine ⟨c, ?_, hv, by rw [hdone, List.drop_zero]⟩
    rw [copyVectors, if_neg (by omega), hdone, List.take_zero, List.append_nil]
  | succ fuel ih =>
    by_cases hmore : info.length < chunkSize
    · obtain ⟨octets, d, hround, hvalid, hrest, hpos, hle⟩ :=
        copyVectors_round hiov fuel hv hmore hroom
      have hlength := congrArg List.length hrest
      rw [List.length_append] at hlength
      obtain ⟨c', hcopy, hvalid', hrest'⟩ := ih (info ++ octets) d hvalid
        (by rwa [List.length_append]) (by rw [List.length_append]; omega)
        (by rw [List.length_append]; omega)
      have hleft : chunkSize - info.length =
          octets.length + (chunkSize - (info ++ octets).length) := by
        rw [List.length_append]
        omega
      refine ⟨c', ?_, hvalid', ?_⟩
      · rw [hround, hcopy, ← hrest, hleft, List.take_length_add_append, List.append_assoc]
      · rw [hrest', ← hrest, hleft, List.drop_length_add_append]
    · have hdone : chunkSize - info.length = 0 := by omega
      refine ⟨c, ?_, hv, by rw [hdone, List.drop_zero]⟩
      rw [copyVectors, if_neg hmore, hdone, List.take_zero, List.append_nil]

end Copy

/-! ### The sections of the call -/

/-- What `ioHdlcWriteVTmo` returns, and what it stores in `iohdlc_errno`. -/
structure WriteVResult where
  count : Int
  errno : Option Errno
  deriving DecidableEq, Repr

/-- The variables of the loop. -/
structure WriteV where
  total : Nat
  remaining : Nat
  iov : Cursor
  signalTx : Bool
  deriving DecidableEq, Repr

/-- Where the call is when it does not hold the lock; `fault` is behind a read out
of bounds. -/
inductive WriteVPc where
  | gate (total : Nat)
  | admitted (total : Nat)
  | loop (w : WriteV)
  | build (w : WriteV) (fp : Frame) (chunkSize : Nat)
  | done (result : WriteVResult) (signalTx : Bool)
  | returned (result : WriteVResult)
  | fault

/-- What precedes the gate. -/
def writeVEntry (ssizeMax : Nat) (iov : List ConstIovec) : WriteVPc :=
  match writeVTotal ssizeMax iov 0 with
  | .error e => .returned { count := -1, errno := some e }
  | .ok total => if total = 0 then .returned { count := 0, errno := none } else .gate total

/-- The check that precedes the loop. -/
def writeVBegin (l : Link) (total : Nat) : Link × WriteVPc :=
  if l.p.isDisc then (l, .returned { count := -1, errno := some .ENOTCONN })
  else
    ({ l with p := { l.p with ssState := { l.p.ssState with sending := true } } },
      .loop { total := total, remaining := total, iov := ⟨0, 0⟩, signalTx := false })

/-- The head of the loop and, behind the lock, the copy of the fragment. -/
def writeVReserve (iov : List ConstIovec) (l : Link) (w : WriteV) (timedOut : Bool)
    (take : Option Frame) : Link × WriteVPc :=
  if w.remaining = 0 then (l, .done { count := w.total, errno := none } w.signalTx)
  else if l.p.streamTerminalPending.txReset then
    (l, .done { count := -1, errno := some .ECONNRESET } false)
  else if l.p.isDisc then
    (l, .done { count := (w.total - w.remaining : Nat), errno := none } w.signalTx)
  else if wWaitCond l then
    ({ l with s := { l.s with
        cmListener := if w.signalTx then l.s.cmListener ∪ {.txIfrmEnq} ∩ flagsMask else l.s.cmListener } },
      if timedOut then
        .done { count := if w.total ≠ w.remaining then (w.total - w.remaining : Nat) else -1,
                errno := some .ETIMEDOUT } false
      else .loop { w with signalTx := false })
  else
    match take with
    | none => (l, .loop w)
    | some fp =>
      let chunkSize := writeChunkSize l w.remaining
      match copyVectors iov chunkSize chunkSize [] w.iov with
      | none => (l, .fault)
      | some (info, c) => (l, .build { w with iov := c } (writeFragment l.s l.p fp info) chunkSize)

/-- The end of the loop; the last component says whether `fp` went into the queue. -/
def writeVInsert (l : Link) (w : WriteV) (fp : Frame) (chunkSize : Nat) : Link × WriteVPc × Bool :=
  if l.p.streamTerminalPending.txReset then
    (l, .done { count := -1, errno := some .ECONNRESET } false, false)
  else if l.p.isDisc then (l, .done { count := -1, errno := some .ENOTCONN } w.signalTx, false)
  else
    ({ l with p := { l.p with
        iTransQ := l.p.iTransQ ++ [fp], iPendingCount := l.p.iPendingCount + 1 } },
      .loop { w with signalTx := true, remaining := w.remaining - chunkSize }, true)

/-- The last locked section. -/
def writeVDone (l : Link) (result : WriteVResult) (signalTx : Bool) : Link × WriteVResult :=
  (writeDone l signalTx,
    if l.p.streamTerminalPending.txReset then { count := -1, errno := some .ECONNRESET } else result)

/-! ### The writer on a list of octets -/

/-- The cursor of the loop is valid, and `left` octets lie behind it. -/
structure WriteV.At (iov : List ConstIovec) (w : WriteV) (left : Nat) : Prop where
  readable : ∀ v ∈ iov, v.Readable
  valid : w.iov.Valid (iovSegs iov)
  length : (w.iov.rest (iovSegs iov)).length = left

/-- The place of the writer on a list of octets. -/
def WriteVPc.flat (iov : List ConstIovec) : WriteVPc → WriterPc
  | .loop w => .loop (w.iov.rest (iovSegs iov)) w.signalTx
  | .build w fp _ => .build fp (w.iov.rest (iovSegs iov)) w.signalTx
  | .done _ signalTx => .done signalTx
  | _ => .idle

theorem writeChunkSize_le (l : Link) (remaining : Nat) :
    writeChunkSize l remaining ≤ remaining ∧ writeChunkSize l remaining ≤ l.p.mifls := by
  have hmin : min remaining l.p.mifls ≤ remaining ∧ min remaining l.p.mifls ≤ l.p.mifls :=
    ⟨min_le_left .., min_le_right ..⟩
  rw [writeChunkSize]
  split <;> omega

theorem writeChunkSize_pos {l : Link} {remaining : Nat} (hm : 1 ≤ l.p.mifls) (hr : 1 ≤ remaining) :
    1 ≤ writeChunkSize l remaining := by
  have hmin : 1 ≤ min remaining l.p.mifls := le_min hr hm
  rw [writeChunkSize]
  split <;> omega

section Flat

variable {iov : List ConstIovec} {l : Link} {w : WriteV} {fp : Frame}

theorem WriteV.At.rest_eq_nil {left : Nat} (h : w.At iov left) :
    w.iov.rest (iovSegs iov) = [] ↔ left = 0 := by
  rw [← h.length, List.length_eq_zero_iff]

/-- A fragment within what is left is copied in bounds. -/
theorem WriteV.At.copyVectors {left chunkSize : Nat} (h : w.At iov left) (hc : chunkSize ≤ left) :
    ∃ c, copyVectors iov chunkSize chunkSize [] w.iov =
        some ((w.iov.rest (iovSegs iov)).take chunkSize, c) ∧
      c.rest (iovSegs iov) = (w.iov.rest (iovSegs iov)).drop chunkSize ∧
      WriteV.At iov { w with iov := c } (left - chunkSize) := by
  obtain ⟨c, hcopy, hvalid, hrest⟩ := copyVectors_eq_some h.readable chunkSize chunkSize []
    w.iov h.valid (Nat.zero_le _) (by simp) (by simpa [h.length] using hc)
  rw [List.length_nil, Nat.sub_zero] at hcopy hrest
  exact ⟨c, hcopy, hrest, h.readable, hvalid, by rw [hrest, List.length_drop, h.length]⟩

/-- A frame from the pool becomes the next fragment. -/
theorem writeVReserve_build (take : Frame) (h : w.At iov w.remaining) (hrem : w.remaining ≠ 0)
    (hreset : l.p.streamTerminalPending.txReset = false) (hconn : l.p.isDisc = false)
    (hspace : wWaitCond l = false) (timedOut : Bool) :
    ∃ c, writeVReserve iov l w timedOut (some take) =
        (l, .build { w with iov := c } (writeFragment l.s l.p take
          ((w.iov.rest (iovSegs iov)).take (writeChunkSize l w.remaining)))
          (writeChunkSize l w.remaining)) ∧
      c.rest (iovSegs iov) =
        (w.iov.rest (iovSegs iov)).drop (writeChunkSize l w.remaining) ∧
      WriteV.At iov { w with iov := c } (w.remaining - writeChunkSize l w.remaining) := by
  obtain ⟨c, hcopy, hrest, hat⟩ := h.copyVectors (writeChunkSize_le l w.remaining).1
  refine ⟨c, ?_, hrest, hat⟩
  simp only [writeVReserve, hrem, hreset, hconn, hspace, hcopy, if_false, Bool.false_eq_true]

/-- The head of the loop does what it does on the list of octets that are left. -/
theorem writeVReserve_flat (h : w.At iov w.remaining) (timedOut : Bool) (take : Option Frame) :
    ((writeVReserve iov l w timedOut take).1, (writeVReserve iov l w timedOut take).2.flat iov) =
      writeReserve l (w.iov.rest (iovSegs iov)) w.signalTx timedOut take := by
  by_cases hrem : w.remaining = 0
  · have hrest := h.rest_eq_nil.2 hrem
    simp [writeReserve, writeVReserve, hrem, hrest, WriteVPc.flat]
  · have hrest : ¬w.iov.rest (iovSegs iov) = [] := fun hnil => hrem (h.rest_eq_nil.1 hnil)
    cases hreset : l.p.streamTerminalPending.txReset with
    | true => simp [writeReserve, writeVReserve, hrem, hrest, hreset, WriteVPc.flat]
    | false =>
      cases hconn : l.p.isDisc with
      | true => simp [writeReserve, writeVReserve, hrem, hrest, hreset, hconn, WriteVPc.flat]
      | false =>
        cases hspace : wWaitCond l with
        | true =>
          cases timedOut <;>
            simp [writeReserve, writeVReserve, hrem, hrest, hreset, hconn, hspace, WriteVPc.flat]
        | false =>
          cases take with
          | none => simp [writeReserve, writeVReserve, hrem, hrest, hreset, hconn, hspace, WriteVPc.flat]
          | some fp =>
            obtain ⟨c, hbuild, hdrop, -⟩ := writeVReserve_build fp h hrem hreset hconn hspace
              timedOut
            rw [hbuild]
            simp [writeReserve, hrest, hreset, hconn, hspace, WriteVPc.flat, hdrop, h.length]

/-- So does the end of the loop. -/
theorem writeVInsert_flat (chunkSize : Nat) :
    ((writeVInsert l w fp chunkSize).1, (writeVInsert l w fp chunkSize).2.1.flat iov,
      (writeVInsert l w fp chunkSize).2.2) =
      writeInsert l fp (w.iov.rest (iovSegs iov)) w.signalTx := by
  simp only [writeVInsert, writeInsert]
  split
  · rfl
  · split <;> rfl

end Flat

end IoHdlc
