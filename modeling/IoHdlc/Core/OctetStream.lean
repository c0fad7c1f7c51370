import IoHdlc.Core.Delivery
import IoHdlc.Core.Fragmentation
import IoHdlc.Core.ReadCalls

/-!
Two stations with the calls of the application at both ends.

`Network` delivers payloads in order, `WriteV` cuts vectors into payloads and `ReadV` copies
payloads into vectors. Here the calls run at the ends of a network: what is read is a prefix of
what is written, and every octet between is either still to be delivered or can be read.
-/

namespace IoHdlc

open Kit

/-! ### One end -/

/-- A call of `ioHdlcWriteVTmo` behind its gate, with the octets that it has queued. -/
structure WriteVCall where
  iov : List ConstIovec
  pc : WriteVPc
  queued : List UInt8

structure WriteVReturn where
  iov : List ConstIovec
  queued : List UInt8
  result : WriteVResult

structure ReadVReturn where
  call : ReadCall
  result : Except Errno Unit

/-- An end of the connection with the calls that are behind the gates of its peer, and those that
have returned, oldest first. -/
structure StreamEnd where
  e : Endpoint
  write : Option WriteVCall
  writes : List WriteVReturn
  read : Option ReadCall
  reads : List ReadVReturn

namespace StreamEnd

/-- A call of `ioHdlcWriteVTmo` up to its loop. -/
def writeVCall (x : StreamEnd) (ssizeMax : Nat) (iov : List ConstIovec) : Option StreamEnd :=
  if x.write.isSome then none
  else
    match writeVEntry ssizeMax iov with
    | .gate total =>
      if x.e.link.p.isDisc then
        some { x with writes := x.writes ++ [⟨iov, [], { count := -1, errno := some .ENOTCONN }⟩] }
      else
        let r := writeVBegin x.e.link total
        some { x with
          e := { x.e with link := r.1, writer := r.2.flat iov }, write := some ⟨iov, r.2, []⟩ }
    | .returned result => some { x with writes := x.writes ++ [⟨iov, [], result⟩] }
    | _ => none

/-- The next section of the call. -/
def writeVSection (x : StreamEnd) (timedOut : Bool) (take : Option Frame) : Option StreamEnd :=
  match x.write with
  | none => none
  | some c =>
    match c.pc with
    | .loop w =>
      let r := writeVReserve c.iov x.e.link w timedOut take
      some { x with
        e := { x.e with link := r.1, writer := r.2.flat c.iov }, write := some { c with pc := r.2 } }
    | .build w fp chunkSize =>
      let r := writeVInsert x.e.link w fp chunkSize
      let info := fp.payload x.e.link.s.framing
      some { x with
        e := { x.e with
          link := r.1
          writer := r.2.1.flat c.iov
          queued := if r.2.2 then x.e.queued ++ [info] else x.e.queued }
        write := some { c with pc := r.2.1, queued := if r.2.2 then c.queued ++ info else c.queued } }
    | .done result signalTx =>
      let r := writeVDone x.e.link result signalTx
      some { x with
        e := { x.e with link := r.1, writer := .idle }
        write := none
        writes := x.writes ++ [⟨c.iov, c.queued, r.2⟩] }
    | _ => none

def afterRead (x : StreamEnd) (r : ReadStep) : StreamEnd :=
  match r.next with
  | .waits => { x with e := { x.e with link := r.link }, read := some r.call }
  | .returns result =>
    { x with
      e := { x.e with link := r.link }
      read := none
      reads := x.reads ++ [⟨r.call, result⟩] }

/-- A call of `ioHdlcReadVTmo` with vectors of these lengths, up to its first wait. -/
def readVCall (x : StreamEnd) (iov : List Nat) (timedOut : Bool) : Option StreamEnd :=
  if x.read.isSome then none
  else if iov.sum = 0 then some { x with reads := x.reads ++ [⟨.empty iov, .ok ()⟩] }
  else some (x.afterRead (readBegin x.e.link (.empty iov) timedOut))

/-- The call goes on behind its wait. -/
def readVSection (x : StreamEnd) (timedOut : Bool) : Option StreamEnd :=
  x.read.map fun c => x.afterRead (readSection x.e.link c timedOut)

/-- The octets that the calls have queued, in their order. -/
def written (x : StreamEnd) : List UInt8 :=
  x.writes.flatMap WriteVReturn.queued ++ x.write.toList.flatMap WriteVCall.queued

/-- The octets that the calls have got, in their order. -/
def got (x : StreamEnd) : List UInt8 :=
  x.reads.flatMap (fun r => r.call.octets) ++ x.read.toList.flatMap ReadCall.octets

/-- The octets that can be read. -/
def readable (x : StreamEnd) : List UInt8 := x.e.link.p.stream.readable x.e.link.s.framing

end StreamEnd

/-! ### Both ends -/

structure StreamNet where
  a : StreamEnd
  b : StreamEnd
  ab : List Frame
  ba : List Frame

namespace StreamNet

def net (g : StreamNet) : Network := { a := g.a.e, b := g.b.e, ab := g.ab, ba := g.ba }

def swap (g : StreamNet) : StreamNet := { a := g.b, b := g.a, ab := g.ba, ba := g.ab }

/-- What concerns the end `a`. A worker of it is no call: those are below, section by section. -/
inductive StepA (g : StreamNet) : StreamNet → Prop
  | works {out : Option Frame} {e' : Endpoint} (h : g.a.e.Step out e')
    (hwriter : e'.writer = g.a.e.writer) (hread : e'.link.p.iReceptQ = g.a.e.link.p.iReceptQ) :
    StepA g { g with a := { g.a with e := e' }, ab := g.ab ++ out.toList }
  | receives {fp rx : Frame} {rest : List Frame} (hq : g.ba = fp :: rest)
    (hrx : fp.Delivers g.a.e.link.s.framing rx) :
    StepA g { g with a := { g.a with e := g.a.e.receive rx }, ba := rest }
  | loses {fp : Frame} {older newer : List Frame} (hq : g.ab = older ++ fp :: newer) :
    StepA g { g with ab := older ++ newer }
  | writeVCall {ssizeMax : Nat} {iov : List ConstIovec} {x : StreamEnd}
    (h : g.a.writeVCall ssizeMax iov = some x) : StepA g { g with a := x }
  | writeVSection {timedOut : Bool} {take : Option Frame} {x : StreamEnd} (htake : FromPool take)
    (h : g.a.writeVSection timedOut take = some x) : StepA g { g with a := x }
  | readVCall {iov : List Nat} {timedOut : Bool} {x : StreamEnd}
    (h : g.a.readVCall iov timedOut = some x) : StepA g { g with a := x }
  | readVSection {timedOut : Bool} {x : StreamEnd}
    (h : g.a.readVSection timedOut = some x) : StepA g { g with a := x }

inductive Step (g : StreamNet) : StreamNet → Prop
  | a {g' : StreamNet} (h : g.StepA g') : Step g g'
  | b {g' : StreamNet} (h : g.swap.StepA g') : Step g g'.swap

end StreamNet

/-- An end before any call; a fragment of full length fits `elen`. -/
structure StreamEnd.Fresh (x : StreamEnd) : Prop where
  write : x.write = none
  writes : x.writes = []
  read : x.read = none
  reads : x.reads = []
  iReceptQ : x.e.link.p.iReceptQ = []
  partialReadFrame : x.e.link.p.partialReadFrame = none
  fits : x.e.link.s.framing.frameOffset + 1 + x.e.link.s.framing.ctrlSize + x.e.link.p.mifls < 65536

/-- A connection that was just opened, with nothing on the line and no calls. -/
structure StreamNet.Established (g : StreamNet) : Prop where
  net : g.net.Established
  a : g.a.Fresh
  b : g.b.Fresh

/-! ### The sections of a reader -/

/-- What a section of `ioHdlcReadVTmo` touches. -/
theorem readLoop_fields (timedOut : Bool) (l : Link) (c : ReadCall) (q : List Frame) :
    ∃ (cm : EvtFlags) (rq : List Frame) (part : Option Frame) (off : Nat) (st : StreamTerminal),
      (readLoop timedOut l c q).link =
        { s := { l.s with cmListener := cm }
          p := { l.p with
            iReceptQ := rq, partialReadFrame := part, partialReadOffset := off
            streamTerminalPending := st } } := by
  have hterminal (l : Link) (c : ReadCall) : ∃ st : StreamTerminal, (readTerminal l c).link =
      { l with p := { l.p with streamTerminalPending := st } } := by
    rw [readTerminal]
    split
    · exact ⟨_, rfl⟩
    · exact ⟨_, rfl⟩
  induction q generalizing l c with
  | nil =>
    rw [readLoop, readEmpty]
    split
    · exact ⟨_, _, _, _, _, rfl⟩
    split
    · obtain ⟨st, hst⟩ := hterminal l c
      rw [hst]
      exact ⟨_, _, _, _, _, rfl⟩
    split
    · exact ⟨_, _, _, _, _, rfl⟩
    split
    · exact ⟨_, _, _, _, _, rfl⟩
    split
    · exact ⟨_, _, _, _, _, rfl⟩
    · exact ⟨_, _, _, _, _, rfl⟩
  | cons fp rest ih =>
    have hrelease : ∃ (cm : EvtFlags) (st : StreamTerminal), releaseRead l rest =
        { s := { l.s with cmListener := cm }
          p := { l.p with
            iReceptQ := rest, partialReadFrame := none, partialReadOffset := 0
            streamTerminalPending := st } } := by
      rw [releaseRead]
      split
      · exact ⟨_, _, rfl⟩
      · exact ⟨_, _, rfl⟩
    obtain ⟨cm, st, hrelease⟩ := hrelease
    rw [readLoop]
    split
    · obtain ⟨st, hst⟩ := hterminal l c
      rw [hst]
      exact ⟨_, _, _, _, _, rfl⟩
    dsimp only
    split
    · exact ⟨_, _, _, _, _, rfl⟩
    split
    · obtain ⟨cm', rq, part, off, st', h⟩ := ih (releaseRead l rest) _
      rw [h, hrelease]
      exact ⟨_, _, _, _, _, rfl⟩
    · rw [hrelease]
      exact ⟨_, _, _, _, _, rfl⟩

/-- A section leaves the traffic alone. -/
theorem readSection_quiet (l : Link) (c : ReadCall) (timedOut : Bool) :
    l.Quiet (readSection l c timedOut).link := by
  obtain ⟨cm, rq, part, off, st, h⟩ := readLoop_fields timedOut l c l.p.rxFrames
  rw [readSection]
  dsimp only
  split
  · rw [h]
    exact ⟨by constructor <;> rfl, rfl, rfl, id, rfl⟩
  · rw [h]
    exact ⟨by constructor <;> rfl, rfl, rfl, id, rfl⟩

theorem readBegin_quiet (l : Link) (c : ReadCall) (timedOut : Bool) :
    l.Quiet (readBegin l c timedOut).link := by
  have h := readSection_quiet
    { l with p := { l.p with ssState := { l.p.ssState with recving := true } } } c timedOut
  exact ⟨⟨h.framing, h.sAddr, h.pAddr, h.ks, h.mifls, h.mode, h.rxFn, h.pri, h.connectedCount,
    h.stConn, h.umCmd, h.umSent⟩, h.vr, h.frmrCondition, h.uiTxPending, h.txWindow⟩

/-! ### The workers -/

section Workers

theorem handleTimeoutRetry_mifls (l : Link) : (handleTimeoutRetry l).1.p.mifls = l.p.mifls := by
  have habort (l : Link) : (abortPeerLink l).p.mifls = l.p.mifls := by
    rw [abortPeerLink, leaveModeIfLast_p]
    rfl
  rw [handleTimeoutRetry]
  split
  · dsimp only
    split
    · exact habort _
    · exact habort _
  · rfl

theorem serveReplyTimeout_mifls (l : Link) (flags : EvtFlags) :
    (serveReplyTimeout l flags).1.p.mifls = l.p.mifls := by
  rw [serveReplyTimeout]
  split
  · dsimp only
    split
    · exact (timeoutRecovery_keeps _).mifls.trans (handleTimeoutRetry_mifls l)
    · exact handleTimeoutRetry_mifls l
  · rfl

theorem serveT3Timeout_mifls (l : Link) (flags : EvtFlags) :
    (serveT3Timeout l flags).1.p.mifls = l.p.mifls := by
  have hretry := handleTimeoutRetry_mifls { l with p := { l.p with t3Tmr := l.p.t3Tmr.reset } }
  simp only [serveT3Timeout]
  split
  · split
    · rfl
    split
    · rfl
    split
    · exact (timeoutRecovery_keeps _).mifls.trans hretry
    · exact hretry
  · rfl

theorem connectedTxEntry_mifls (l : Link) (flags : EvtFlags) (take : Option Frame) :
    (connectedTxEntry l flags take).link.p.mifls = l.p.mifls := by
  have hreply := serveReplyTimeout_mifls l (flags \ {.lineIdle})
  simp only [connectedTxEntry]
  split
  · have ht3 := serveT3Timeout_mifls (serveReplyTimeout l (flags \ {.lineIdle})).1
      ((flags \ {.lineIdle}) \ {.cRplytmo})
    split
    · exact (sendUi_keeps _ take).1.mifls.trans (ht3.trans hreply)
    · exact ht3.trans hreply
  · exact hreply

end Workers

/-- What a worker leaves alone that is none of the calls. -/
structure Endpoint.SameStream (e e' : Endpoint) : Prop where
  framing : e'.link.s.framing = e.link.s.framing
  mifls : e'.link.p.mifls = e.link.p.mifls
  partialReadFrame : e'.link.p.partialReadFrame = e.link.p.partialReadFrame
  partialReadOffset : e'.link.p.partialReadOffset = e.link.p.partialReadOffset
  queued : e'.queued = e.queued
  delivered : e'.delivered = e.delivered

/-- The end of a connection leaves what was received. -/
theorem Link.MayEnd.readCursor {l l' : Link} (h : l.MayEnd l') :
    l'.p.partialReadFrame = l.p.partialReadFrame ∧ l'.p.partialReadOffset = l.p.partialReadOffset := by
  rcases h with h | ⟨term, -, h⟩
  · exact ⟨congrArg Stream.partialFrame h, congrArg Stream.partialOffset h⟩
  · exact ⟨congrArg Stream.partialFrame h, congrArg Stream.partialOffset h⟩

theorem Endpoint.sameStream_of_step {e e' : Endpoint} {out : Option Frame} (h : e.Step out e')
    (hwriter : e'.writer = e.writer) : e.SameStream e' := by
  cases h with
  | writeBegin octets hpc =>
    rw [IoHdlc.writeBegin]
    split <;> exact ⟨rfl, rfl, rfl, rfl, rfl, rfl⟩
  | writeReserve timedOut take hpc htake =>
    simp only [IoHdlc.writeReserve]
    repeat' split
    all_goals exact ⟨rfl, rfl, rfl, rfl, rfl, rfl⟩
  | @writeInsert fp remaining signalTx hpc =>
    -- the frame that is being built does not stay with the writer
    rw [hpc] at hwriter
    simp only [IoHdlc.writeInsert] at hwriter
    split at hwriter
    · cases hwriter
    split at hwriter
    · cases hwriter
    · cases hwriter
  | writeDone hpc => exact ⟨rfl, rfl, rfl, rfl, rfl, rfl⟩
  | txEntry flags take hpc htake hconn hmode =>
    obtain ⟨hpart, hoff⟩ := (connectedTxEntry_mayEnd e.link flags take).readCursor
    refine ⟨?_, connectedTxEntry_mifls e.link flags take, hpart, hoff, rfl, rfl⟩
    rcases connectedTxEntry_cases e.link flags take with ⟨hkeep, -⟩ | ⟨habort, -⟩
    · exact hkeep.framing
    · exact habort.framing
  | txCheck hpc => exact ⟨rfl, rfl, rfl, rfl, rfl, rfl⟩
  | @txIFrame flags iSent hpc =>
    have hstream := connectedTxIFrame_stream e.link flags iSent
    have hkeep : e.link.Keeps (connectedTxIFrame e.link flags iSent).link := by
      rcases connectedTxIFrame_cases e.link flags iSent with ⟨hkeep, -⟩ | ⟨_, _, _, hsend, -⟩
      · exact hkeep.toKeeps
      · exact hsend.toKeeps
    exact ⟨hkeep.framing, hkeep.mifls, congrArg Stream.partialFrame hstream,
      congrArg Stream.partialOffset hstream, rfl, rfl⟩
  | @txSFrame flags iSent take hpc htake =>
    have hstream := connectedTxSFrame_stream e.link flags iSent take
    obtain ⟨hkeep, -⟩ := connectedTxSFrame_keeps e.link flags iSent take
    exact ⟨hkeep.framing, hkeep.mifls, congrArg Stream.partialFrame hstream,
      congrArg Stream.partialOffset hstream, rfl, rfl⟩
  | replyTimer =>
    rw [Endpoint.replyTimerExpiry]
    split <;> exact ⟨rfl, rfl, rfl, rfl, rfl, rfl⟩
  | t3Timer =>
    rw [Endpoint.t3TimerExpiry]
    split <;> exact ⟨rfl, rfl, rfl, rfl, rfl, rfl⟩
  | idleLine => exact ⟨rfl, rfl, rfl, rfl, rfl, rfl⟩
  | poolState state => exact ⟨rfl, rfl, rfl, rfl, rfl, rfl⟩
  | broadcast flags => exact ⟨rfl, rfl, rfl, rfl, rfl, rfl⟩
  | read hq => exact ⟨rfl, rfl, rfl, rfl, rfl, rfl⟩

/-! ### The calls of one end -/

/-- A result that is no error counts the octets that were queued. -/
structure Counts (iov : List ConstIovec) (queued : List UInt8) (r : WriteVResult) : Prop where
  begins : queued <+: iovOctets iov
  count : 0 ≤ r.count → r.count = queued.length

/-- What a call has queued, copied and still to copy. -/
def WriteVCall.Placed (fr : Framing) (c : WriteVCall) : Prop :=
  match c.pc with
  | .loop w =>
    w.total = (iovOctets c.iov).length ∧ w.At c.iov w.remaining ∧
      c.queued ++ w.iov.rest (iovSegs c.iov) = iovOctets c.iov
  | .build w fp chunkSize =>
    w.total = (iovOctets c.iov).length ∧ chunkSize ≤ w.remaining ∧
      w.At c.iov (w.remaining - chunkSize) ∧
      c.queued ++ (fp.payload fr ++ w.iov.rest (iovSegs c.iov)) = iovOctets c.iov
  | .done r _ => Counts c.iov c.queued r
  | .gate _ => False
  | .admitted _ => False
  | .returned _ => False
  | .fault => False

/-- An end whose calls have queued what they were given, in order, and whose readers have got what
was delivered but for what can be read. -/
structure StreamEnd.Kept (fr : Framing) (x : StreamEnd) : Prop where
  framing : x.e.link.s.framing = fr
  fits : fr.frameOffset + 1 + fr.ctrlSize + x.e.link.p.mifls < 65536
  idle : x.write = none → x.e.writer = .idle
  write : ∀ c, x.write = some c → x.e.writer = c.pc.flat c.iov ∧ c.Placed fr
  writes : ∀ r ∈ x.writes, Counts r.iov r.queued r.result
  written : x.written = x.e.queued.flatten
  read : ∀ c, x.read = some c → c.Open
  got : x.e.delivered.flatten = x.got ++ x.readable

namespace StreamEnd

variable {fr : Framing} {x y : StreamEnd}

theorem Fresh.kept (h : x.Fresh) (hc : Network.Connected x.e) (hfr : x.e.link.s.framing = fr) :
    x.Kept fr where
  framing := hfr
  fits := hfr ▸ h.fits
  idle := fun _ => hc.writer
  write := fun c hw => by
    rw [h.write] at hw
    cases hw
  writes := fun r hr => by
    rw [h.writes] at hr
    cases hr
  written := by rw [StreamEnd.written, h.writes, h.write, hc.queued]; rfl
  read := fun c hr => by
    rw [h.read] at hr
    cases hr
  got := by
    have hreadable : x.readable = [] := by
      rw [readable, Stream.readable, Peer.stream, h.partialReadFrame, h.iReceptQ]
      rfl
    rw [hc.delivered, got, h.reads, h.read, hreadable]
    rfl

/-- What can be read does not depend on the rest of the peer. -/
theorem readable_congr (hframing : y.e.link.s.framing = x.e.link.s.framing)
    (hrecept : y.e.link.p.iReceptQ = x.e.link.p.iReceptQ)
    (hframe : y.e.link.p.partialReadFrame = x.e.link.p.partialReadFrame)
    (hoff : y.e.link.p.partialReadOffset = x.e.link.p.partialReadOffset) :
    y.readable = x.readable := by
  simp only [readable, Stream.readable, Peer.stream, hframing, hrecept, hframe, hoff]

/-- A worker that is none of the calls. -/
theorem Kept.works (h : x.Kept fr) {e' : Endpoint} (hsame : x.e.SameStream e')
    (hwriter : e'.writer = x.e.writer) (hread : e'.link.p.iReceptQ = x.e.link.p.iReceptQ) :
    ({ x with e := e' } : StreamEnd).Kept fr where
  framing := hsame.framing.trans h.framing
  fits := by
    change fr.frameOffset + 1 + fr.ctrlSize + e'.link.p.mifls < 65536
    rw [hsame.mifls]
    exact h.fits
  idle := fun hw => hwriter.trans (h.idle hw)
  write := fun c hw => ⟨hwriter.trans (h.write c hw).1, (h.write c hw).2⟩
  writes := h.writes
  written := h.written.trans (congrArg List.flatten hsame.queued.symm)
  read := h.read
  got := by
    change e'.delivered.flatten = x.got ++ readable { x with e := e' }
    rw [hsame.delivered, h.got, readable_congr (x := x) (y := { x with e := e' }) hsame.framing
      hread hsame.partialReadFrame hsame.partialReadOffset]

/-- A frame that arrives is delivered behind what can be read, or not at all. -/
theorem Kept.receives (h : x.Kept fr) (fp : Frame) :
    ({ x with e := x.e.receive fp } : StreamEnd).Kept fr := by
  have hkeep := Endpoint.receive_keeps x.e fp
  have hstream : (x.e.receive fp).link.p.stream =
      if (rxDispatch (Endpoint.lineBusy x.e.link) fp).2 then x.e.link.p.stream.deliver fp
      else x.e.link.p.stream := rxDispatch_stream
  refine
    { framing := hkeep.framing.trans h.framing
      fits := ?_
      idle := h.idle
      write := h.write
      writes := h.writes
      written := h.written
      read := h.read
      got := ?_ }
  · change fr.frameOffset + 1 + fr.ctrlSize + (x.e.receive fp).link.p.mifls < 65536
    rw [hkeep.mifls]
    exact h.fits
  · have hgot := h.got
    rw [readable] at hgot
    change (x.e.receive fp).delivered.flatten = x.got ++ Stream.readable _ _
    rw [hkeep.framing, hstream]
    change (if (rxDispatch (Endpoint.lineBusy x.e.link) fp).2 then _ else _ : List _).flatten = _
    split
    · rw [List.flatten_append, hgot, Stream.deliver, Stream.readable, Stream.readable,
        List.flatMap_append, List.flatMap_singleton, List.flatten_singleton]
      simp only [List.append_assoc]
    · exact hgot

/-- A section of a reader takes what it copies from what can be read. -/
theorem Kept.afterRead (h : x.Kept fr) {c : ReadCall} {r : ReadStep}
    (hgot : x.got = x.reads.flatMap (fun r => r.call.octets) ++ c.octets)
    (hreads : Reads x.e.link c r) (hquiet : x.e.link.Quiet r.link) : (x.afterRead r).Kept fr := by
  obtain ⟨taken, htaken, hreadable⟩ := hreads.octets
  have hstream : x.e.delivered.flatten = x.reads.flatMap (fun r => r.call.octets) ++
      r.call.octets ++ r.link.p.stream.readable r.link.s.framing := by
    rw [h.got, hgot, readable, hreadable, hreads.framing, htaken]
    simp only [List.append_assoc]
  have hfits : fr.frameOffset + 1 + fr.ctrlSize + r.link.p.mifls < 65536 := by
    rw [hquiet.mifls]
    exact h.fits
  rw [StreamEnd.afterRead]
  split
  next hnext =>
    refine
      { framing := hquiet.framing.trans h.framing
        fits := hfits
        idle := h.idle
        write := h.write
        writes := h.writes
        written := h.written
        read := fun c' hc => ?_
        got := hstream.trans ?_ }
    · cases hc
      cases hreads.outcome with
      | waits hn hopen hp => exact ⟨hreads.packed, hopen⟩
      | data hn => exact absurd (hnext.symm.trans hn) (by simp)
      | report result hn => exact absurd (hnext.symm.trans hn) (by simp)
      | fails e hn => exact absurd (hnext.symm.trans hn) (by simp)
    · simp [StreamEnd.got, readable]
  next result hnext =>
    refine
      { framing := hquiet.framing.trans h.framing
        fits := hfits
        idle := h.idle
        write := h.write
        writes := h.writes
        written := h.written
        read := fun c' hc => ?_
        got := hstream.trans ?_ }
    · cases hc
    · simp [StreamEnd.got, readable]

theorem octets_empty (iov : List Nat) : (ReadCall.empty iov).octets = [] := by
  induction iov with
  | nil => rfl
  | cons len iov ih => exact ih

theorem Kept.readVCall (h : x.Kept fr) {iov : List Nat} {timedOut : Bool}
    (hy : x.readVCall iov timedOut = some y) : y.Kept fr := by
  rw [StreamEnd.readVCall] at hy
  split at hy
  · cases hy
  next hnone =>
    have hread : x.read = none := by simpa using hnone
    split at hy
    · cases hy
      refine { h with read := h.read, got := ?_ }
      rw [h.got]
      simp [StreamEnd.got, readable, octets_empty]
    next hsum =>
      cases hy
      obtain ⟨hopen, hempty⟩ := WithReads.open_empty hsum
      refine h.afterRead (c := .empty iov) ?_ (reads_begin x.e.link hopen timedOut)
        (readBegin_quiet ..)
      rw [StreamEnd.got, hread, hempty]
      rfl

theorem Kept.readVSection (h : x.Kept fr) {timedOut : Bool}
    (hy : x.readVSection timedOut = some y) : y.Kept fr := by
  obtain ⟨c, hc, rfl⟩ := Option.map_eq_some_iff.mp hy
  refine h.afterRead ?_ (reads_section x.e.link (h.read c hc) timedOut) (readSection_quiet ..)
  rw [StreamEnd.got, hc]
  simp

/-- A call that gets no further than its gate. -/
theorem Kept.returned (h : x.Kept fr) {w : WriteVReturn} (hnone : x.write = none)
    (hw : Counts w.iov w.queued w.result) (hqueued : w.queued = []) :
    ({ x with writes := x.writes ++ [w] } : StreamEnd).Kept fr where
  framing := h.framing
  fits := h.fits
  idle := h.idle
  write := h.write
  writes := List.forall_mem_append.mpr ⟨h.writes, by simpa using hw⟩
  written := by
    have hwritten := h.written
    rw [StreamEnd.written, hnone] at hwritten
    rw [StreamEnd.written, hnone]
    simpa [hqueued] using hwritten
  read := h.read
  got := h.got

/-- The vectors of a call that comes to the gate. -/
theorem entry_gate {ssizeMax total : Nat} {iov : List ConstIovec}
    (h : writeVEntry ssizeMax iov = .gate total) :
    (∀ v ∈ iov, v.Readable) ∧ total = (iovOctets iov).length ∧ total ≠ 0 := by
  rw [writeVEntry] at h
  split at h
  · cases h
  next total' htotal =>
    obtain ⟨hread, hlen⟩ := writeVTotal_eq_ok htotal
    split at h
    · cases h
    next hpos =>
      cases h
      exact ⟨hread, hlen.trans (Nat.zero_add _), hpos⟩

theorem entry_returned {ssizeMax : Nat} {iov : List ConstIovec} {r : WriteVResult}
    (h : writeVEntry ssizeMax iov = .returned r) (hcount : 0 ≤ r.count) : r.count = 0 := by
  rw [writeVEntry] at h
  split at h
  · cases h
    exact absurd hcount (by simp)
  · split at h
    · cases h
      rfl
    · cases h

theorem Kept.writeVCall (h : x.Kept fr) {ssizeMax : Nat} {iov : List ConstIovec}
    (hy : x.writeVCall ssizeMax iov = some y) :
    y.Kept fr ∧ (y.e = x.e ∨ x.e.Step none y.e) := by
  rw [StreamEnd.writeVCall] at hy
  split at hy
  · cases hy
  next hnone =>
    have hwrite : x.write = none := by simpa using hnone
    split at hy
    next total hentry =>
      split at hy
      · cases hy
        exact ⟨h.returned hwrite ⟨List.nil_prefix, by simp⟩ rfl, .inl rfl⟩
      next hconn =>
        cases hy
        obtain ⟨hread, htotal, hpos⟩ := entry_gate hentry
        have hbegin : IoHdlc.writeVBegin x.e.link total =
            ({ x.e.link with p := { x.e.link.p with
                ssState := { x.e.link.p.ssState with sending := true } } },
              .loop { total := total, remaining := total, iov := ⟨0, 0⟩, signalTx := false }) :=
          if_neg hconn
        have hflat : (WriteVPc.loop { total := total, remaining := total, iov := ⟨0, 0⟩
                                      signalTx := false }).flat iov =
            .loop (iovOctets iov) false := rfl
        rw [hbegin, hflat]
        refine ⟨?_, .inr ?_⟩
        · refine
            { framing := h.framing
              fits := h.fits
              idle := fun hw => by cases hw
              write := fun c hc => ?_
              writes := h.writes
              written := ?_
              read := h.read
              got := h.got }
          · cases hc
            exact ⟨hflat.symm, htotal, ⟨hread, Cursor.valid_start, htotal.symm⟩, rfl⟩
          · have hwritten := h.written
            rw [StreamEnd.written, hwrite] at hwritten
            rw [StreamEnd.written]
            simpa using hwritten
        · have hstep := Endpoint.Step.writeBegin (iovOctets iov) (h.idle hwrite)
          have hnil : iovOctets iov ≠ [] := fun hnil => hpos (by rw [htotal, hnil]; rfl)
          rw [IoHdlc.writeBegin, if_neg (by simp [hnil, hconn])] at hstep
          exact hstep
    next result hentry =>
      cases hy
      refine ⟨h.returned hwrite ⟨List.nil_prefix, fun hcount => ?_⟩ rfl, .inl rfl⟩
      exact entry_returned hentry hcount
    · cases hy

/-- What a call has queued is a beginning of its octets. -/
theorem counts_of_rest {iov : List ConstIovec} {queued rest : List UInt8} {r : WriteVResult}
    (hrest : queued ++ rest = iovOctets iov)
    (hcount : 0 ≤ r.count → r.count = ((iovOctets iov).length - rest.length : Nat)) :
    Counts iov queued r := by
  refine ⟨⟨rest, hrest⟩, fun hpos => ?_⟩
  rw [hcount hpos, ← hrest, List.length_append, Nat.add_sub_cancel]

/-- The head of the loop. -/
theorem placed_reserve {c : WriteVCall} {w : WriteV} {l : Link} (hpc : c.pc = .loop w)
    (hc : c.Placed l.s.framing)
    (hfits : l.s.framing.frameOffset + 1 + l.s.framing.ctrlSize + l.p.mifls < 65536)
    (timedOut : Bool) (take : Option Frame) :
    ({ c with pc := (writeVReserve c.iov l w timedOut take).2 } : WriteVCall).Placed
      l.s.framing := by
  rw [WriteVCall.Placed, hpc] at hc
  obtain ⟨htotal, hat, hrest⟩ := hc
  by_cases hrem : w.remaining = 0
  · have hnil := hat.rest_eq_nil.2 hrem
    simp only [writeVReserve, hrem, if_true, WriteVCall.Placed]
    refine counts_of_rest hrest fun _ => ?_
    rw [hnil, htotal, List.length_nil, Nat.sub_zero]
  cases hreset : l.p.streamTerminalPending.txReset with
  | true =>
    simp only [writeVReserve, hrem, hreset, if_true, if_false, WriteVCall.Placed]
    exact counts_of_rest hrest fun hpos => absurd hpos (by simp)
  | false =>
    cases hdisc : l.p.isDisc with
    | true =>
      simp only [writeVReserve, hrem, hreset, hdisc, if_true, if_false, Bool.false_eq_true,
        WriteVCall.Placed]
      refine counts_of_rest hrest fun _ => ?_
      rw [hat.length, htotal]
    | false =>
      cases hspace : wWaitCond l with
      | true =>
        cases timedOut with
        | true =>
          simp only [writeVReserve, hrem, hreset, hdisc, hspace, if_true, if_false,
            Bool.false_eq_true, WriteVCall.Placed]
          refine counts_of_rest hrest fun hpos => ?_
          split at hpos
          next hne =>
            rw [if_pos hne, hat.length, htotal]
          · exact absurd hpos (by simp)
        | false =>
          simp only [writeVReserve, hrem, hreset, hdisc, hspace, if_true, if_false,
            Bool.false_eq_true, WriteVCall.Placed]
          exact ⟨htotal, ⟨hat.readable, hat.valid, hat.length⟩, hrest⟩
      | false =>
        cases take with
        | none =>
          simp only [writeVReserve, hrem, hreset, hdisc, hspace, if_false, Bool.false_eq_true,
            WriteVCall.Placed]
          exact ⟨htotal, hat, hrest⟩
        | some fp =>
          -- the fragment is what lies at the cursor
          obtain ⟨k, hbuild, hleft, hat'⟩ := writeVReserve_build fp hat hrem hreset hdisc hspace
            timedOut
          obtain ⟨hle, hmifls⟩ := writeChunkSize_le l w.remaining
          have hpayload := (WriteVRun.payload_writeFragment (s := l.s) (p := l.p) fp
            ((w.iov.rest (iovSegs c.iov)).take (writeChunkSize l w.remaining))
            (by rw [List.length_take]; omega)).1
          rw [hbuild]
          refine ⟨htotal, hle, hat', ?_⟩
          rw [hpayload, hleft, List.take_append_drop, hrest]

/-- The end of the loop. -/
theorem placed_insert {c : WriteVCall} {w : WriteV} {fp : Frame} {chunkSize : Nat} {l : Link}
    (hpc : c.pc = .build w fp chunkSize) (hc : c.Placed l.s.framing) :
    ({ c with
      pc := (writeVInsert l w fp chunkSize).2.1
      queued :=
        if (writeVInsert l w fp chunkSize).2.2 then c.queued ++ fp.payload l.s.framing
        else c.queued } : WriteVCall).Placed l.s.framing := by
  rw [WriteVCall.Placed, hpc] at hc
  obtain ⟨htotal, hle, hat, hrest⟩ := hc
  simp only [writeVInsert]
  split
  · exact counts_of_rest hrest fun hpos => absurd hpos (by simp)
  split
  · exact counts_of_rest hrest fun hpos => absurd hpos (by simp)
  · refine ⟨htotal, ⟨hat.readable, hat.valid, hat.length⟩, ?_⟩
    simpa using hrest

theorem counts_done {l : Link} {iov : List ConstIovec} {queued : List UInt8} {r : WriteVResult}
    (h : Counts iov queued r) (signalTx : Bool) : Counts iov queued (writeVDone l r signalTx).2 := by
  refine ⟨h.begins, fun hpos => ?_⟩
  simp only [writeVDone] at hpos ⊢
  split at hpos
  · exact absurd hpos (by simp)
  next hreset =>
    rw [if_neg hreset]
    exact h.count hpos

/-- A section of a writer leaves the readers alone. -/
theorem Kept.of_write (h : x.Kept fr) {l : Link} {writer : WriterPc} {queued : List (List UInt8)}
    {write : Option WriteVCall} {writes : List WriteVReturn}
    (hframing : l.s.framing = x.e.link.s.framing) (hmifls : l.p.mifls = x.e.link.p.mifls)
    (hstream : ∀ fr, l.p.stream.readable fr = x.e.link.p.stream.readable fr)
    (hidle : write = none → writer = .idle)
    (hwrite : ∀ c, write = some c → writer = c.pc.flat c.iov ∧ c.Placed fr)
    (hwrites : ∀ r ∈ writes, Counts r.iov r.queued r.result)
    (hwritten : writes.flatMap WriteVReturn.queued ++ write.toList.flatMap WriteVCall.queued =
      queued.flatten) :
    ({ x with
      e := { x.e with link := l, writer := writer, queued := queued }
      write := write
      writes := writes } : StreamEnd).Kept fr where
  framing := hframing.trans h.framing
  fits := by
    change fr.frameOffset + 1 + fr.ctrlSize + l.p.mifls < 65536
    rw [hmifls]
    exact h.fits
  idle := hidle
  write := hwrite
  writes := hwrites
  written := hwritten
  read := h.read
  got := by
    refine h.got.trans (congrArg (x.got ++ ·) ?_)
    rw [readable, readable]
    change x.e.link.p.stream.readable _ = l.p.stream.readable l.s.framing
    rw [hstream, hframing]

theorem Kept.writeVSection (h : x.Kept fr) {timedOut : Bool} {take : Option Frame}
    (htake : FromPool take) (hy : x.writeVSection timedOut take = some y) :
    y.Kept fr ∧ x.e.Step none y.e := by
  obtain rfl := h.framing
  rw [StreamEnd.writeVSection] at hy
  split at hy
  · cases hy
  next c hwrite =>
    obtain ⟨hwriter, hplaced⟩ := h.write c hwrite
    have hwritten := h.written
    rw [StreamEnd.written, hwrite, Option.toList_some, List.flatMap_singleton] at hwritten
    split at hy
    next w hpc =>
      have hat : w.At c.iov w.remaining := by
        rw [WriteVCall.Placed, hpc] at hplaced
        exact hplaced.2.1
      have hflat := writeVReserve_flat hat timedOut take (l := x.e.link)
      have hlink := congrArg Prod.fst hflat
      have hflat' := congrArg Prod.snd hflat
      have hkeep := Endpoint.writeReserve_keeps x.e.link (w.iov.rest (iovSegs c.iov)) w.signalTx
        timedOut take
      have hp : (writeReserve x.e.link (w.iov.rest (iovSegs c.iov)) w.signalTx timedOut take).1.p =
          x.e.link.p := by
        simp only [writeReserve]
        repeat' split
        all_goals rfl
      rw [← hlink] at hkeep hp
      cases hy
      refine ⟨h.of_write hkeep.framing hkeep.mifls (fun _ => by rw [hp]) (fun hw => by cases hw)
        (fun c' hc' => ?_) h.writes (by rw [Option.toList_some, List.flatMap_singleton]; exact hwritten),
        ?_⟩
      · cases hc'
        exact ⟨rfl, placed_reserve hpc hplaced h.fits timedOut take⟩
      · rw [hpc] at hwriter
        have hstep := Endpoint.Step.writeReserve timedOut take hwriter htake
        rw [← hlink, ← hflat'] at hstep
        exact hstep
    next w fp chunkSize hpc =>
      have hflat := @writeVInsert_flat c.iov x.e.link w fp chunkSize
      obtain ⟨q, n, hlink⟩ : ∃ q n, (writeVInsert x.e.link w fp chunkSize).1 =
          { x.e.link with p := { x.e.link.p with iTransQ := q, iPendingCount := n } } := by
        simp only [writeVInsert]
        split
        · exact ⟨_, _, rfl⟩
        split
        · exact ⟨_, _, rfl⟩
        · exact ⟨_, _, rfl⟩
      cases hy
      refine ⟨h.of_write (by rw [hlink]) (by rw [hlink]) (fun _ => by rw [hlink]; rfl)
        (fun hw => by cases hw) (fun c' hc' => ?_) h.writes ?_, ?_⟩
      · cases hc'
        exact ⟨rfl, placed_insert hpc hplaced⟩
      · rw [Option.toList_some, List.flatMap_singleton]
        dsimp only
        split
        · rw [← List.append_assoc, hwritten, List.flatten_append, List.flatten_singleton]
        · exact hwritten
      · rw [hpc] at hwriter
        have hstep := Endpoint.Step.writeInsert hwriter
        rw [← hflat] at hstep
        exact hstep
    next result signalTx hpc =>
      rw [WriteVCall.Placed, hpc] at hplaced
      cases hy
      refine ⟨h.of_write rfl rfl (fun _ => rfl) (fun _ => rfl) (fun c' hc' => by cases hc') ?_ ?_,
        ?_⟩
      · refine List.forall_mem_append.mpr ⟨h.writes, fun r hr => ?_⟩
        rw [List.mem_singleton.mp hr]
        exact counts_done hplaced signalTx
      · simpa using hwritten
      · rw [hpc] at hwriter
        exact Endpoint.Step.writeDone hwriter
    · cases hy

end StreamEnd

/-! ### Both ends -/

/-- A reader leaves the traffic of both directions alone. -/
theorem Network.Inv.reads {fr : Framing} {n : Network} {ab ba : List Message}
    {f f' : Flow (List UInt8)} (h : n.Inv fr ab ba f f') {l : Link} (hl : n.a.link.Quiet l) :
    Network.Inv fr { n with a := { n.a with link := l } } ab ba f f' :=
  { h with
    a := h.a.quiet hl (fun hw => Endpoint.windowInv_quiet hw hl rfl rfl fun hr =>
      hr.quiet hl fun _ _ _ hpc => hpc) fun hi _ => hi
    there := h.there.sender hl rfl
    back := h.back.receiver hl.stConn hl.vr rfl }

namespace StreamNet

variable {g g' : StreamNet} {fr : Framing}

/-- The traffic is in order, and both ends keep the octets. -/
structure Inv (fr : Framing) (g : StreamNet) : Prop where
  net : ∃ ab ba f f', g.net.Inv fr ab ba f f'
  a : g.a.Kept fr
  b : g.b.Kept fr

theorem Inv.swap (h : g.Inv fr) : g.swap.Inv fr := by
  obtain ⟨ab, ba, f, f', hnet⟩ := h.net
  exact ⟨⟨ba, ab, f', f, hnet.swap⟩, h.b, h.a⟩

theorem Established.inv (h : g.Established) : g.Inv g.a.e.link.s.framing :=
  ⟨⟨_, _, _, _, h.net.inv⟩, h.a.kept h.net.a rfl, h.b.kept h.net.b h.net.framing⟩

/-- A section of a reader of `a`. -/
theorem Inv.afterRead (h : g.Inv fr) {r : ReadStep} (hl : g.a.e.link.Quiet r.link)
    (hkept : (g.a.afterRead r).Kept fr) : Inv fr { g with a := g.a.afterRead r } := by
  obtain ⟨ab, ba, f, f', hnet⟩ := h.net
  refine ⟨⟨ab, ba, f, f', ?_⟩, hkept, h.b⟩
  have he : (g.a.afterRead r).e = { g.a.e with link := r.link } := by
    rw [StreamEnd.afterRead]
    split <;> rfl
  rw [StreamNet.net]
  dsimp only
  rw [he]
  exact hnet.reads hl

theorem Inv.stepA (h : g.Inv fr) (hs : g.StepA g') : g'.Inv fr := by
  obtain ⟨ab, ba, f, f', hnet⟩ := h.net
  have hnets {n : Network} (hs : g.net.StepA n) : ∃ ab ba f f', n.Inv fr ab ba f f' :=
    hnet.stepA hs
  cases hs with
  | works hs hwriter hread =>
    exact ⟨hnets (.works hs), h.a.works (Endpoint.sameStream_of_step hs hwriter) hwriter hread, h.b⟩
  | receives hq hrx => exact ⟨hnets (.receives hq hrx), h.a.receives _, h.b⟩
  | loses hq => exact ⟨hnets (.loses hq), h.a, h.b⟩
  | writeVCall hy =>
    obtain ⟨hkept, hsame | hstep⟩ := h.a.writeVCall hy
    · refine ⟨⟨ab, ba, f, f', ?_⟩, hkept, h.b⟩
      rw [StreamNet.net]
      dsimp only
      rw [hsame]
      exact hnet
    · have hn := hnets (.works hstep)
      rw [Option.toList_none, List.append_nil] at hn
      exact ⟨hn, hkept, h.b⟩
  | writeVSection htake hy =>
    obtain ⟨hkept, hstep⟩ := h.a.writeVSection htake hy
    have hn := hnets (.works hstep)
    rw [Option.toList_none, List.append_nil] at hn
    exact ⟨hn, hkept, h.b⟩
  | readVCall hy =>
    have hkept := h.a.readVCall hy
    rw [StreamEnd.readVCall] at hy
    split at hy
    · cases hy
    split at hy
    · cases hy
      exact ⟨⟨ab, ba, f, f', hnet⟩, hkept, h.b⟩
    · cases hy
      exact h.afterRead (readBegin_quiet ..) hkept
  | readVSection hy =>
    have hkept := h.a.readVSection hy
    obtain ⟨c, -, rfl⟩ := Option.map_eq_some_iff.mp hy
    exact h.afterRead (readSection_quiet ..) hkept

theorem Inv.step (h : g.Inv fr) (hs : g.Step g') : g'.Inv fr := by
  cases hs with
  | a hs => exact h.stepA hs
  | b hs => exact (h.swap.stepA hs).swap

end StreamNet

/-- The direction from `x` to `y`: what the readers of `y` have got is a beginning of what the
writers of `x` have queued, and the rest can be read or is still to be delivered. -/
structure OctetStream (x y : StreamEnd) : Prop where
  got : y.got <+: x.written
  between : x.written = y.got ++ (y.readable ++ (x.e.queued.drop y.e.delivered.length).flatten)
  writes : ∀ r ∈ x.writes, Counts r.iov r.queued r.result

namespace StreamNet

variable {g : StreamNet} {fr : Framing}

theorem Inv.octetStream (h : g.Inv fr) : OctetStream g.a g.b := by
  obtain ⟨ab, ba, f, f', hnet⟩ := h.net
  obtain ⟨rest, hrest⟩ : g.b.e.delivered <+: g.a.e.queued := hnet.inOrder.delivered
  have hbetween : g.a.written =
      g.b.got ++ (g.b.readable ++ (g.a.e.queued.drop g.b.e.delivered.length).flatten) := by
    rw [h.a.written, ← hrest, List.drop_left, List.flatten_append, h.b.got, List.append_assoc]
  exact ⟨⟨_, hbetween.symm⟩, hbetween, h.a.writes⟩

/-- In every run of both stations, the line, the writers and the readers: the octets that are read
at one end are those that were written at the other, in order, none twice and none left out. -/
theorem octetStream_reachable (h : Reachable Established Step g) :
    OctetStream g.a g.b ∧ OctetStream g.b g.a := by
  obtain ⟨fr, hinv⟩ : ∃ fr, g.Inv fr :=
    h.invariant (fun g => ∃ fr, g.Inv fr) (fun _ hg => ⟨_, hg.inv⟩) fun _ _ hg hs => by
      obtain ⟨fr, hg⟩ := hg
      exact ⟨fr, hg.step hs⟩
  exact ⟨hinv.octetStream, hinv.swap.octetStream⟩

/-- An end without calls. -/
def idleEnd (pri : Bool) (addr peerAddr : UInt32) : StreamEnd :=
  { e := .nrmEnd pri addr peerAddr, write := none, writes := [], read := none, reads := [] }

theorem fresh_idleEnd (pri : Bool) (addr peerAddr : UInt32) : (idleEnd pri addr peerAddr).Fresh where
  write := rfl
  writes := rfl
  read := rfl
  reads := rfl
  iReceptQ := rfl
  partialReadFrame := rfl
  fits := by
    change 0 + 1 + 1 + 123 < 65536
    decide

/-- Two vectors are written in one frame, and one octet of it is read. -/
theorem octetStream_reachable_segments :
    ∃ g : StreamNet, g.a.written = [0x41, 0x41, 0x42] ∧ g.b.got = [0x41] ∧
      OctetStream g.a g.b ∧ OctetStream g.b g.a := by
  have h₀ : Reachable Established Step
      { a := idleEnd true 1 2, b := idleEnd false 2 1, ab := [], ba := [] } :=
    .start
      { net :=
          { a := ⟨Endpoint.nrmEnd_opened .., rfl, rfl, rfl, rfl, rfl⟩
            b := ⟨Endpoint.nrmEnd_opened .., rfl, rfl, rfl, rfl, rfl⟩
            framing := rfl
            ab := rfl
            ba := rfl }
        a := fresh_idleEnd ..
        b := fresh_idleEnd .. }
  have hpool : FromPool (some (Frame.taken (fun _ => 0) 0)) := fun fp hfp =>
    ⟨fun _ => 0, 0, (Option.mem_some_iff.mp hfp).symm⟩
  have h₁ := h₀.tail (.a (@StepA.writeVCall _ 100
    [⟨some fun _ => 0x41, 2⟩, ⟨none, 0⟩, ⟨some fun _ => 0x42, 1⟩] _ rfl))
  have h₂ := h₁.tail (.a (@StepA.writeVSection _ false _ _ hpool rfl))
  have h₃ := h₂.tail (.a (@StepA.writeVSection _ false _ _ hpool rfl))
  have h₄ := h₃.tail (.a (.works (.txEntry ∅ none rfl nofun rfl (.inl rfl)) rfl rfl))
  have h₅ := h₄.tail (.a (.works (.txCheck rfl) rfl rfl))
  have h₆ := h₅.tail (.a (.works (.txIFrame rfl) rfl rfl))
  have h₇ := h₆.tail (.b (.receives rfl ⟨rfl, fun _ _ => rfl, rfl⟩))
  have h₈ := h₇.tail (.b (@StepA.readVCall _ [1] false _ rfl))
  refine ⟨_, ?_, ?_, octetStream_reachable h₈⟩
  · decide +kernel
  · decide +kernel

end StreamNet

end IoHdlc
