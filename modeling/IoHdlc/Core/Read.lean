import IoHdlc.Core.PeerStream

/-!
`ioHdlcReadVTmo`, cut where it waits for `rx_cv`.

The lock is held from one wait to the next, so a section is a loop over the frames that can be
read: the one that was read in part, if any, and the queue. Its vectors are filled in order.
-/

namespace IoHdlc

/-! ### The vectors -/

/-- An output vector, with what was copied to it. -/
structure Iovec where
  len : Nat
  base : List UInt8 := []

/-- The octets that still fit. -/
def Iovec.room (v : Iovec) : Nat := v.len - v.base.length

/-- The copying loop: the vectors behind it, and the octets that found no place. -/
def copyOut : List Iovec → List UInt8 → List Iovec × List UInt8
  | [], info => ([], info)
  | v :: iov, info =>
    let r := copyOut iov (info.drop v.room)
    ({ v with base := v.base ++ info.take v.room } :: r.1, r.2)

/-- The vectors are filled one after the other. -/
def Packed : List Iovec → Prop
  | [] => True
  | v :: iov => v.base.length ≤ v.len ∧ (v.room ≠ 0 → iov.flatMap Iovec.base = []) ∧ Packed iov

/-- A call of `ioHdlcReadVTmo`. -/
structure ReadCall where
  iov : List Iovec

namespace ReadCall

def octets (c : ReadCall) : List UInt8 := c.iov.flatMap Iovec.base

def total (c : ReadCall) : Nat := (c.iov.map Iovec.len).sum

def totalRead (c : ReadCall) : Nat := c.octets.length

end ReadCall

/-! ### The sections -/

/-- `IOHDLC_STREAM_RX_TERMINAL_MASK` of `stream_terminal_pending`. -/
def StreamTerminal.rx (t : StreamTerminal) : Bool := t.rxOrderly || t.rxAborted

def StreamTerminal.clearRx (t : StreamTerminal) : StreamTerminal :=
  { t with rxOrderly := false, rxAborted := false }

/-- The frames that can be read. -/
def Peer.rxFrames (p : Peer) : List Frame := p.partialReadFrame.toList ++ p.iReceptQ

/-- `s_peer_rx_has_data`. -/
def sPeerRxHasData (p : Peer) : Bool := p.partialReadFrame.isSome || !p.iReceptQ.isEmpty

/-- The condition under which the call waits for `rx_cv`. -/
def readWaitCond (p : Peer) : Bool :=
  !sPeerRxHasData p && !p.isDisc && !p.streamTerminalPending.rx

/-- How a section ends. -/
inductive ReadEnd where
  | waits
  | returns (result : Except Errno Unit)

structure ReadStep where
  link : Link
  call : ReadCall
  next : ReadEnd

/-- The pending terminal is reported and forgotten. -/
def reportTerminal (l : Link) (c : ReadCall) (result : Except Errno Unit) : ReadStep :=
  { link := { l with p := { l.p with
      streamTerminalPending := l.p.streamTerminalPending.clearRx } }
    call := c
    next := .returns result }

/-- The terminal of the previous connection comes before the data of the new one. -/
def readTerminal (l : Link) (c : ReadCall) : ReadStep :=
  if c.totalRead ≠ 0 then { link := l, call := c, next := .returns (.ok ()) }
  else
    reportTerminal l c
      (if l.p.streamTerminalPending.rxAborted then .error .ECONNRESET else .ok ())

/-- Nothing can be read. -/
def readEmpty (l : Link) (c : ReadCall) (timedOut : Bool) : ReadStep :=
  if !l.p.isDisc && !l.p.streamTerminalPending.rx then
    { link := l
      call := c
      next :=
        if timedOut then .returns (if c.totalRead ≠ 0 then .ok () else .error .ETIMEDOUT)
        else .waits }
  else if !l.p.isDisc then readTerminal l c
  else if c.totalRead ≠ 0 then { link := l, call := c, next := .returns (.ok ()) }
  else if l.p.ssState.termOrderly then reportTerminal l c (.ok ())
  else if l.p.ssState.termAborted then reportTerminal l c (.error .ECONNRESET)
  else { link := l, call := c, next := .returns (.error .ENOTCONN) }

/-- `partial_read_offset` of the frame that is read next. -/
def readOffset (p : Peer) : Nat := if p.partialReadFrame.isSome then p.partialReadOffset else 0

/-- The octets of `fp` that were not read yet. -/
def unread (l : Link) (fp : Frame) : List UInt8 := (fp.payload l.s.framing).drop (readOffset l.p)

/-- `fp` stays for the next call, `left` octets of it were not read. -/
def keepPartial (l : Link) (fp : Frame) (rest : List Frame) (left : Nat) : Link :=
  { l with p := { l.p with
      iReceptQ := rest
      partialReadFrame := some fp
      partialReadOffset := (fp.payload l.s.framing).length - left } }

/-- The frame was read and is released. -/
def releaseRead (l : Link) (rest : List Frame) : Link :=
  { s := if l.s.flags.busy && l.s.poolState = .normal then l.s.broadcastFlags {.poolStChg} else l.s
    p := { l.p with iReceptQ := rest, partialReadFrame := none, partialReadOffset := 0 } }

/-- The loop, over the frames that can be read; `timedOut` says how a wait ends. -/
def readLoop (timedOut : Bool) : Link → ReadCall → List Frame → ReadStep
  | l, c, [] => readEmpty l c timedOut
  | l, c, fp :: rest =>
    if !l.p.isDisc && l.p.streamTerminalPending.rx then readTerminal l c
    else
      let r := copyOut c.iov (unread l fp)
      if r.2 ≠ [] then
        { link := keepPartial l fp rest r.2.length, call := ⟨r.1⟩, next := .returns (.ok ()) }
      else if (ReadCall.mk r.1).totalRead < (ReadCall.mk r.1).total then
        readLoop timedOut (releaseRead l rest) ⟨r.1⟩ rest
      else { link := releaseRead l rest, call := ⟨r.1⟩, next := .returns (.ok ()) }

/-- From one wait to the next, or to the return. -/
def readSection (l : Link) (c : ReadCall) (timedOut : Bool) : ReadStep :=
  let r := readLoop timedOut l c l.p.rxFrames
  match r.next with
  | .waits => r
  | .returns _ =>
    { r with link := { r.link with p := { r.link.p with
        ssState := { r.link.p.ssState with recving := false } } } }

/-- The first section. -/
def readBegin (l : Link) (c : ReadCall) (timedOut : Bool) : ReadStep :=
  readSection { l with p := { l.p with ssState := { l.p.ssState with recving := true } } } c timedOut

/-! ### What is copied -/

theorem Iovec.length_fill (v : Iovec) (h : v.base.length ≤ v.len) (info : List UInt8) :
    (v.base ++ info.take v.room).length ≤ v.len := by
  rw [List.length_append, List.length_take, Iovec.room]
  omega

/-- Copying nothing changes nothing. -/
theorem copyOut_nil (iov : List Iovec) : copyOut iov [] = (iov, []) := by
  induction iov with
  | nil => rfl
  | cons v iov ih =>
    rw [copyOut, List.drop_nil, List.take_nil, List.append_nil, ih]

theorem copyOut_len (iov : List Iovec) (info : List UInt8) :
    (copyOut iov info).1.map Iovec.len = iov.map Iovec.len := by
  induction iov generalizing info with
  | nil => rfl
  | cons v iov ih =>
    rw [copyOut, List.map_cons, List.map_cons, ih]

/-- The vectors take a prefix of the octets, behind what they hold. -/
theorem copyOut_octets {iov : List Iovec} (h : Packed iov) (info : List UInt8) :
    Packed (copyOut iov info).1 ∧
      ∃ taken, (copyOut iov info).1.flatMap Iovec.base = iov.flatMap Iovec.base ++ taken ∧
        info = taken ++ (copyOut iov info).2 := by
  induction iov generalizing info with
  | nil => exact ⟨trivial, [], rfl, rfl⟩
  | cons v iov ih =>
    obtain ⟨hlen, hrest, hiov⟩ := h
    obtain ⟨hpacked, taken, hoctets, hinfo⟩ := ih hiov (info.drop v.room)
    simp only [copyOut, List.flatMap_cons]
    by_cases hroom : v.room = 0
    · -- the vector is full, and the octets go on to the next one
      rw [hroom, List.drop_zero] at hpacked hoctets hinfo
      rw [hroom, List.take_zero, List.append_nil, List.drop_zero]
      refine ⟨⟨hlen, fun hno => absurd hroom hno, hpacked⟩, taken, ?_, hinfo⟩
      rw [hoctets, List.append_assoc]
    · -- the vectors behind it are empty
      have hempty := hrest hroom
      rw [hempty, List.nil_append] at hoctets
      refine ⟨⟨Iovec.length_fill v hlen info, fun hmore => ?_, hpacked⟩,
        info.take v.room ++ taken, ?_, ?_⟩
      · have hall : info.length ≤ v.room := by
          simp only [Iovec.room, List.length_append, List.length_take] at hmore ⊢
          omega
        rw [List.drop_eq_nil_of_le hall, copyOut_nil, hempty]
      · rw [hoctets, hempty, List.append_nil, List.append_assoc]
      · rw [List.append_assoc, ← hinfo, List.take_append_drop]

theorem Packed.length_le {iov : List Iovec} (h : Packed iov) :
    (iov.flatMap Iovec.base).length ≤ (iov.map Iovec.len).sum := by
  induction iov with
  | nil => exact Nat.le_refl 0
  | cons v iov ih =>
    obtain ⟨hlen, -, hiov⟩ := h
    rw [List.flatMap_cons, List.length_append, List.map_cons, List.sum_cons]
    exact Nat.add_le_add hlen (ih hiov)

/-- What finds no place is left because the vectors are full. -/
theorem copyOut_full {iov : List Iovec} (h : Packed iov) {info : List UInt8}
    (hleft : (copyOut iov info).2 ≠ []) :
    ((copyOut iov info).1.flatMap Iovec.base).length = (iov.map Iovec.len).sum := by
  induction iov generalizing info with
  | nil => rfl
  | cons v iov ih =>
    obtain ⟨hlen, -, hiov⟩ := h
    have hlong : v.room < info.length := by
      by_contra hshort
      rw [copyOut, List.drop_eq_nil_of_le (Nat.le_of_not_lt hshort), copyOut_nil] at hleft
      exact hleft rfl
    have htail := @ih hiov (info.drop v.room) hleft
    rw [copyOut, List.flatMap_cons, List.length_append, htail, List.length_append,
      List.length_take_of_le (Nat.le_of_lt hlong), List.map_cons, List.sum_cons, Iovec.room]
    omega

namespace ReadCall

/-- The vectors are filled in order, and there is room left. -/
structure Open (c : ReadCall) : Prop where
  packed : Packed c.iov
  room : c.totalRead < c.total

end ReadCall

/-! ### What a section does -/

/-- The octets that can be read. -/
def Stream.readable (fr : Framing) (s : Stream) : List UInt8 :=
  s.partialFrame.toList.flatMap (fun fp => (fp.payload fr).drop s.partialOffset) ++
    s.recept.flatMap (Frame.payload fr)

def Stream.hasData (s : Stream) : Bool := s.partialFrame.isSome || !s.recept.isEmpty

@[simp] theorem stream_hasData (p : Peer) : p.stream.hasData = sPeerRxHasData p := rfl

/-- How a section ends, and what it makes of the pending terminal. -/
inductive ReadOutcome (l : Link) (r : ReadStep) : Prop
  | waits (hnext : r.next = .waits) (hopen : r.call.totalRead < r.call.total)
    (hpending : r.link.p.streamTerminalPending.rx = l.p.streamTerminalPending.rx)
  | data (hnext : r.next = .returns (.ok ())) (hdata : r.call.octets ≠ [])
    (hpending : r.link.p.streamTerminalPending.rx = l.p.streamTerminalPending.rx)
  | report (result : Except Errno Unit) (hnext : r.next = .returns result)
    (hresult : result = .ok () ∨ result = .error .ECONNRESET) (hnone : r.call.octets = [])
    (hpending : r.link.p.streamTerminalPending.rx = false)
    (hdata : l.p.isDisc = true → sPeerRxHasData r.link.p = false)
  | fails (e : Errno) (hnext : r.next = .returns (.error e)) (he : e ≠ .ECONNRESET)
    (hpending : r.link.p.streamTerminalPending.rx = l.p.streamTerminalPending.rx)

/-- What a section of a reader does to the peer and to its call. -/
structure Reads (l : Link) (c : ReadCall) (r : ReadStep) : Prop where
  framing : r.link.s.framing = l.s.framing
  conn : r.link.p.isDisc = l.p.isDisc
  total : r.call.total = c.total
  packed : Packed r.call.iov
  octets : ∃ taken, r.call.octets = c.octets ++ taken ∧
    l.p.stream.readable l.s.framing = taken ++ r.link.p.stream.readable l.s.framing
  data : sPeerRxHasData r.link.p = true → sPeerRxHasData l.p = true
  blocked : l.p.isDisc = false → l.p.streamTerminalPending.rx = true → r.call.octets = c.octets
  outcome : ReadOutcome l r

section Sections

variable {l l' : Link} {c : ReadCall} {r r' : ReadStep} {fp : Frame} {rest : List Frame}

/-- The octets of the frame that is read next come first. -/
theorem readable_cons (h : l.p.rxFrames = fp :: rest) :
    l.p.stream.readable l.s.framing = unread l fp ++ rest.flatMap (Frame.payload l.s.framing) := by
  rw [Peer.rxFrames] at h
  rw [Stream.readable, unread, readOffset, Peer.stream]
  cases hpart : l.p.partialReadFrame with
  | none =>
    rw [hpart] at h
    rw [show l.p.iReceptQ = fp :: rest from h]
    rfl
  | some f =>
    rw [hpart] at h
    obtain ⟨rfl, hq⟩ := List.cons.inj h
    rw [show l.p.iReceptQ = rest from hq, Option.toList_some, List.flatMap_singleton]
    rfl

theorem readable_nil (h : l.p.rxFrames = []) : sPeerRxHasData l.p = false := by
  obtain ⟨hpart, hq⟩ := List.append_eq_nil_iff.mp h
  rw [sPeerRxHasData, hq, Option.toList_eq_nil_iff.mp hpart]
  rfl

theorem hasData_cons (h : l.p.rxFrames = fp :: rest) : sPeerRxHasData l.p = true := by
  rw [Peer.rxFrames] at h
  rw [sPeerRxHasData]
  cases hpart : l.p.partialReadFrame with
  | none =>
    rw [hpart] at h
    rw [show l.p.iReceptQ = fp :: rest from h]
    rfl
  | some f => rfl

/-- An outcome is about the connection, the pending terminal and the frames alone. -/
theorem ReadOutcome.of_view (h : ReadOutcome l r) (hdisc : l'.p.isDisc = l.p.isDisc)
    (hpending : l'.p.streamTerminalPending.rx = l.p.streamTerminalPending.rx)
    (hnext : r'.next = r.next) (hcall : r'.call = r.call)
    (hpending' : r'.link.p.streamTerminalPending.rx = r.link.p.streamTerminalPending.rx)
    (hdata : sPeerRxHasData r'.link.p = sPeerRxHasData r.link.p) : ReadOutcome l' r' := by
  cases h with
  | waits hn hopen hp => exact .waits (hnext.trans hn) (hcall ▸ hopen) (by rw [hpending', hp, hpending])
  | data hn hsome hp => exact .data (hnext.trans hn) (hcall ▸ hsome) (by rw [hpending', hp, hpending])
  | report result hn hresult hnone hp hd =>
    refine .report result (hnext.trans hn) hresult (hcall ▸ hnone) (hpending'.trans hp) fun hdisc' => ?_
    rw [hdata]
    exact hd (hdisc ▸ hdisc')
  | fails e hn he hp => exact .fails e (hnext.trans hn) he (by rw [hpending', hp, hpending])

/-! The sections by which the loop ends without a frame. -/

theorem reads_report {result : Except Errno Unit} (hc : c.Open)
    (hresult : result = .ok () ∨ result = .error .ECONNRESET) (hnone : c.totalRead = 0)
    (hdata : l.p.isDisc = true → sPeerRxHasData l.p = false) :
    Reads l c (reportTerminal l c result) :=
  { framing := rfl
    conn := rfl
    total := rfl
    packed := hc.packed
    octets := ⟨[], (List.append_nil _).symm, rfl⟩
    data := id
    blocked := fun _ _ => rfl
    outcome := .report result rfl hresult (List.length_eq_zero_iff.mp hnone) rfl hdata }

/-- A call returns with what it has read. -/
theorem reads_data (hpacked : Packed c.iov) (hsome : c.totalRead ≠ 0) :
    Reads l c { link := l, call := c, next := .returns (.ok ()) } :=
  { framing := rfl
    conn := rfl
    total := rfl
    packed := hpacked
    octets := ⟨[], (List.append_nil _).symm, rfl⟩
    data := id
    blocked := fun _ _ => rfl
    outcome := .data rfl (fun hnil => hsome (List.length_eq_zero_iff.mpr hnil)) rfl }

theorem reads_fails {e : Errno} (hc : c.Open) (he : e ≠ .ECONNRESET) :
    Reads l c { link := l, call := c, next := .returns (.error e) } :=
  { framing := rfl
    conn := rfl
    total := rfl
    packed := hc.packed
    octets := ⟨[], (List.append_nil _).symm, rfl⟩
    data := id
    blocked := fun _ _ => rfl
    outcome := .fails e rfl he rfl }

theorem reads_terminal (hc : c.Open) (hconn : l.p.isDisc = false) : Reads l c (readTerminal l c) := by
  rw [readTerminal]
  split
  next hsome => exact reads_data hc.packed hsome
  next hnone =>
    refine reads_report hc ?_ (not_not.mp hnone) fun hdisc => ?_
    · split
      · exact .inr rfl
      · exact .inl rfl
    · rw [hconn] at hdisc
      cases hdisc

theorem reads_empty (hc : c.Open) (hq : l.p.rxFrames = []) (timedOut : Bool) :
    Reads l c (readEmpty l c timedOut) := by
  have hdata : sPeerRxHasData l.p = false := readable_nil hq
  rw [readEmpty]
  split
  · cases timedOut with
    | true =>
      by_cases hsome : c.totalRead ≠ 0
      · rw [if_pos rfl, if_pos hsome]
        exact reads_data hc.packed hsome
      · rw [if_pos rfl, if_neg hsome]
        exact reads_fails hc nofun
    | false =>
      exact
        { framing := rfl
          conn := rfl
          total := rfl
          packed := hc.packed
          octets := ⟨[], (List.append_nil _).symm, rfl⟩
          data := id
          blocked := fun _ _ => rfl
          outcome := .waits rfl hc.room rfl }
  split
  next hconn => exact reads_terminal hc (by rwa [Bool.not_eq_true'] at hconn)
  split
  next hsome => exact reads_data hc.packed hsome
  next hnone =>
    split
    · exact reads_report hc (.inl rfl) (not_not.mp hnone) fun _ => hdata
    split
    · exact reads_report hc (.inr rfl) (not_not.mp hnone) fun _ => hdata
    · exact reads_fails hc nofun

/-- What is copied from a frame. -/
theorem octets_copied (hc : c.Open) (fp : Frame) :
    Packed (copyOut c.iov (unread l fp)).1 ∧
      (ReadCall.mk (copyOut c.iov (unread l fp)).1).total = c.total ∧
      ∃ taken, (ReadCall.mk (copyOut c.iov (unread l fp)).1).octets = c.octets ++ taken ∧
        unread l fp = taken ++ (copyOut c.iov (unread l fp)).2 := by
  obtain ⟨hpacked, hoctets⟩ := copyOut_octets hc.packed (unread l fp)
  exact ⟨hpacked, congrArg List.sum (copyOut_len c.iov (unread l fp)), hoctets⟩

/-- A frame that is read in part fills the vectors. -/
theorem reads_partial (hc : c.Open) (hq : l.p.rxFrames = fp :: rest)
    (hlive : ¬(l.p.isDisc = false ∧ l.p.streamTerminalPending.rx = true))
    (hleft : (copyOut c.iov (unread l fp)).2 ≠ []) :
    Reads l c
      { link := keepPartial l fp rest (copyOut c.iov (unread l fp)).2.length
        call := ⟨(copyOut c.iov (unread l fp)).1⟩
        next := .returns (.ok ()) } := by
  obtain ⟨hpacked, htotal, taken, hoctets, hunread⟩ := octets_copied (l := l) hc fp
  refine
    { framing := rfl
      conn := rfl
      total := htotal
      packed := hpacked
      octets := ⟨taken, hoctets, ?_⟩
      data := fun _ => hasData_cons hq
      blocked := fun hconn hpending => absurd ⟨hconn, hpending⟩ hlive
      outcome := .data rfl (fun hnil => ?_) rfl }
  · have hsuffix : (copyOut c.iov (unread l fp)).2 <:+ fp.payload l.s.framing :=
      List.IsSuffix.trans ⟨taken, hunread.symm⟩ (List.drop_suffix _ _)
    have hkept : (keepPartial l fp rest (copyOut c.iov (unread l fp)).2.length).p.stream.readable
        l.s.framing = (copyOut c.iov (unread l fp)).2 ++
          rest.flatMap (Frame.payload l.s.framing) := by
      rw [Stream.readable, keepPartial, Peer.stream, Option.toList_some, List.flatMap_singleton,
        ← List.suffix_iff_eq_drop.mp hsuffix]
    rw [hkept, readable_cons hq, ← List.append_assoc, ← hunread]
  · have hfull := copyOut_full hc.packed hleft
    have hroom := hc.room
    change (ReadCall.mk (copyOut c.iov (unread l fp)).1).octets.length = c.total at hfull
    rw [hnil, List.length_nil] at hfull
    rw [← hfull] at hroom
    cases hroom

theorem releaseRead_framing (l : Link) (rest : List Frame) :
    (releaseRead l rest).s.framing = l.s.framing := by
  rw [releaseRead]
  dsimp only
  split <;> rfl

/-- A frame that is read to its end, and the sections behind it. -/
theorem reads_released (hc : c.Open) (hq : l.p.rxFrames = fp :: rest)
    (hlive : ¬(l.p.isDisc = false ∧ l.p.streamTerminalPending.rx = true))
    (hleft : (copyOut c.iov (unread l fp)).2 = [])
    (h : Reads (releaseRead l rest) ⟨(copyOut c.iov (unread l fp)).1⟩ r) : Reads l c r := by
  obtain ⟨hpacked, htotal, taken, hoctets, hunread⟩ := octets_copied (l := l) hc fp
  obtain ⟨more, hmore, hreadable⟩ := h.octets
  rw [releaseRead_framing] at hreadable
  rw [hleft, List.append_nil] at hunread
  exact
    { framing := h.framing.trans (releaseRead_framing l rest)
      conn := h.conn
      total := h.total.trans htotal
      packed := h.packed
      octets := by
        refine ⟨taken ++ more, ?_, ?_⟩
        · rw [hmore, hoctets, List.append_assoc]
        · rw [readable_cons hq, hunread, List.append_assoc, ← hreadable]
          rfl
      data := fun _ => hasData_cons hq
      blocked := fun hconn hpending => absurd ⟨hconn, hpending⟩ hlive
      outcome := h.outcome.of_view rfl rfl rfl rfl rfl rfl }

theorem reads_loop (hc : c.Open) (timedOut : Bool) {q : List Frame} (hq : l.p.rxFrames = q) :
    Reads l c (readLoop timedOut l c q) := by
  induction q generalizing l c with
  | nil => exact reads_empty hc hq timedOut
  | cons fp rest ih =>
    rw [readLoop]
    split
    next hpending =>
      rw [Bool.and_eq_true, Bool.not_eq_true'] at hpending
      exact reads_terminal hc hpending.1
    next hpending =>
      rw [Bool.and_eq_true, Bool.not_eq_true'] at hpending
      dsimp only
      split
      next hleft => exact reads_partial hc hq hpending hleft
      next hleft =>
        rw [not_not] at hleft
        obtain ⟨hpacked, htotal, -⟩ := octets_copied (l := l) hc fp
        split
        next hroom => exact reads_released hc hq hpending hleft (ih ⟨hpacked, hroom⟩ rfl)
        next hfull =>
          have hsome : (ReadCall.mk (copyOut c.iov (unread l fp)).1).totalRead ≠ 0 := by
            have hroom := hc.room
            omega
          exact reads_released hc hq hpending hleft (reads_data hpacked hsome)

/-- What a section of `ioHdlcReadVTmo` does. -/
theorem reads_section (l : Link) (hc : c.Open) (timedOut : Bool) :
    Reads l c (readSection l c timedOut) := by
  have h : Reads l c (readLoop timedOut l c l.p.rxFrames) := reads_loop hc timedOut rfl
  rw [readSection]
  dsimp only
  split
  · exact h
  next result hnext =>
    exact
      { framing := h.framing
        conn := h.conn
        total := h.total
        packed := h.packed
        octets := h.octets
        data := h.data
        blocked := h.blocked
        outcome := h.outcome.of_view rfl rfl rfl rfl rfl rfl }

theorem reads_begin (l : Link) (hc : c.Open) (timedOut : Bool) :
    Reads l c (readBegin l c timedOut) := by
  have h := reads_section
    { l with p := { l.p with ssState := { l.p.ssState with recving := true } } } hc timedOut
  exact
    { framing := h.framing
      conn := h.conn
      total := h.total
      packed := h.packed
      octets := h.octets
      data := h.data
      blocked := h.blocked
      outcome := h.outcome.of_view rfl rfl rfl rfl rfl rfl }

end Sections

end IoHdlc
