import IoHdlc.Core.PeerStream
import IoHdlc.Core.WriterWakeup

/-!
The threads in `ioHdlcWriteVTmo`.

A call waits at `write_gate` of its peer, is admitted, and goes through the sections of the
writer. A connection boundary of the peer may fall into either part. A run records for the whole
call and for the time of its admission whether it did, and whether octets of the call entered
`i_trans_q` behind it.
-/

namespace IoHdlc

open Kit

/-- A stretch of a call: whether a boundary fell into it, and whether a fragment was queued
behind one. -/
structure Watch where
  crossed : Bool := false
  queuedBehind : Bool := false

def Watch.boundary (w : Watch) (b : Bool) : Watch := { w with crossed := w.crossed || b }

def Watch.queue (w : Watch) : Watch := { w with queuedBehind := w.queuedBehind || w.crossed }

/-- A call of `ioHdlcWriteVTmo`. -/
structure WriteCall where
  octets : List UInt8
  call : Watch := {}
  admission : Watch := {}
  result : Except Errno Nat := .ok 0

/-- A node with its writers. -/
structure WithWrites (n : Nat) where
  node : Node n
  gate : Fin n → List WriteCall
  admitted : Fin n → Option WriteCall
  returned : Fin n → List WriteCall

/-- What a thread in the call does, or anything else. -/
inductive WriteAction (n : Nat) where
  | node (a : Action n)
  | call (i : Fin n) (octets : List UInt8)
  | gateTimeout (i : Fin n) (k : Nat)
  | takeGate (i : Fin n) (k : Nat)
  | reserve (i : Fin n) (timedOut : Bool) (take : Option Frame)
  | insert (i : Fin n)
  | done (i : Fin n)

/-- The actions of a node that are those of a writer. -/
def Action.isWriter {n : Nat} : Action n → Bool
  | .peer _ op => op.isWriter
  | _ => false

namespace Node

variable {n : Nat} {nd nd' : Node n} {a : Action n} {sent : List Frame} {i : Fin n}

/-- A connection of peer `i` ends, or a new one takes its place. -/
def boundary (nd : Node n) (a : Action n) (nd' : Node n) (i : Fin n) : Bool :=
  nd.opensStream i a || ((nd.peer i).ssState.stConn && !(nd'.peer i).ssState.stConn)

/-- The readers and writers of the other peers notice nothing. -/
structure OnlyStream (nd nd' : Node n) (i : Fin n) : Prop where
  stream : ∀ j, j ≠ i → (nd'.peer j).stream = (nd.peer j).stream
  writer : ∀ j, j ≠ i → nd'.writer j = nd.writer j

/-- The threads other than the writers leave the writers where they are. -/
theorem act_writer (h : nd.act a = some (nd', sent)) (ha : a.isWriter = false) :
    nd'.writer = nd.writer := by
  have hpass (nd : Node n) (r : Pass) : (nd.finishPass r).1.writer = nd.writer := by
    simp only [finishPass]
    split <;> rfl
  have htx (nd : Node n) (t : TxStep) : (nd.finishTx t).writer = nd.writer := by
    simp only [finishTx]
    split <;> rfl
  cases a with
  | receive | lineIdle | linkDown | poolState | poolChange =>
    cases h
    rfl
  | txFetch =>
    simp only [act] at h
    split at h
    · split at h
      · cases h
        rfl
      · cases h
    · cases h
  | txEntry take =>
    simp only [act] at h
    split at h
    · split at h
      · obtain rfl := congrArg Prod.fst (Option.some.inj h)
        simp only [txEntry]
        split
        · split
          · rfl
          · exact hpass ..
        · exact hpass ..
      · cases h
    · cases h
  | txSwitched take =>
    simp only [act] at h
    split at h
    · obtain rfl := congrArg Prod.fst (Option.some.inj h)
      exact hpass ..
    · cases h
  | txAdvance =>
    simp only [act] at h
    split at h
    · cases h
      simp only [txAdvance]
      split <;> rfl
    · cases h
  | txCheck | linkUpDone | linkUpFails =>
    simp only [act] at h
    split at h
    · cases h
      rfl
    · cases h
  | txIFrame | txSFrame =>
    simp only [act] at h
    split at h
    · cases h
      exact htx ..
    · cases h
  | linkUp =>
    cases h
    split <;> rfl
  | peer j op =>
    simp only [act, Option.map_eq_some_iff] at h
    obtain ⟨r, hr, h⟩ := h
    cases h
    have hsame := (PeerOp.apply_keepsWait ha hr).2
    change Function.update nd.writer j r.2 = nd.writer
    rw [hsame, Function.update_eq_self]

/-- A thread of a writer does its section on its own peer. -/
theorem act_peer {op : PeerOp} (h : nd.act (.peer i op) = some (nd', sent)) :
    (nd'.peer i).stream = op.onStream (nd.peer i).stream ∧
      (∃ l, op.apply (nd.link i) (nd.writer i) = some (l, nd'.writer i)) ∧
      nd.OnlyStream nd' i := by
  simp only [act, Option.map_eq_some_iff] at h
  obtain ⟨r, hr, h⟩ := h
  cases h
  have hwriter : Function.update nd.writer i r.2 i = r.2 := Function.update_self ..
  refine ⟨?_, ⟨r.1, ?_⟩, fun j hj => setLink_stream_of_ne r.1 hj, fun j hj => ?_⟩
  · exact (congrArg Peer.stream (setLink_peer_self nd i r.1)).trans (PeerOp.apply_stream hr)
  · exact hr.trans (congrArg (fun w => some (r.1, w)) hwriter.symm)
  · exact Function.update_of_ne hj ..

end Node

namespace WriteCall

/-- What the head of the loop makes of the result. -/
def reserved (c : WriteCall) (l : Link) (remaining : Nat) (timedOut : Bool) : WriteCall :=
  { c with
    result :=
      if remaining = 0 then .ok c.octets.length
      else if l.p.streamTerminalPending.txReset then .error .ECONNRESET
      else if l.p.isDisc then .ok (c.octets.length - remaining)
      else if wWaitCond l && timedOut then
        if c.octets.length ≠ remaining then .ok (c.octets.length - remaining)
        else .error .ETIMEDOUT
      else c.result }

/-- What the end of the loop makes of it; `queued` if the fragment went into the queue. -/
def inserted (c : WriteCall) (l : Link) (queued : Bool) : WriteCall :=
  { c with
    call := if queued then c.call.queue else c.call
    admission := if queued then c.admission.queue else c.admission
    result :=
      if l.p.streamTerminalPending.txReset then .error .ECONNRESET
      else if l.p.isDisc then .error .ENOTCONN
      else c.result }

/-- The last locked section. -/
def ended (c : WriteCall) (l : Link) : WriteCall :=
  { c with result := if l.p.streamTerminalPending.txReset then .error .ECONNRESET else c.result }

end WriteCall

namespace WithWrites

variable {n : Nat}

/-- Another thread takes a step. -/
def observed (g : WithWrites n) (a : Action n) (nd' : Node n) : WithWrites n :=
  { g with
    node := nd'
    gate := fun i => (g.gate i).map fun c =>
      { c with call := c.call.boundary (g.node.boundary a nd' i) }
    admitted := fun i => (g.admitted i).map fun c =>
      { c with
        call := c.call.boundary (g.node.boundary a nd' i)
        admission := c.admission.boundary (g.node.boundary a nd' i) } }

/-- A call without octets returns 0, any other one waits at the gate. -/
def arrive (g : WithWrites n) (i : Fin n) (octets : List UInt8) : WithWrites n :=
  { g with
    gate := Function.update g.gate i
      (if octets = [] then g.gate i else g.gate i ++ [{ octets := octets }])
    returned := Function.update g.returned i
      (if octets = [] then { octets := [] } :: g.returned i else g.returned i) }

/-- A call returns without having been admitted. -/
def leaveGate (g : WithWrites n) (i : Fin n) (k : Nat) (c : WriteCall) (e : Errno) : WithWrites n :=
  { g with
    gate := Function.update g.gate i ((g.gate i).eraseIdx k)
    returned := Function.update g.returned i ({ c with result := .error e } :: g.returned i) }

/-- The peer is connected, and the call is admitted. -/
def enter (g : WithWrites n) (i : Fin n) (k : Nat) (nd' : Node n) (c : WriteCall) : WithWrites n :=
  { g with
    node := nd'
    gate := Function.update g.gate i ((g.gate i).eraseIdx k)
    admitted := Function.update g.admitted i (some c) }

/-- The admitted call goes on. -/
def goesOn (g : WithWrites n) (i : Fin n) (nd' : Node n) (c : WriteCall) : WithWrites n :=
  { g with node := nd', admitted := Function.update g.admitted i (some c) }

/-- The admitted call returns. -/
def leave (g : WithWrites n) (i : Fin n) (nd' : Node n) (c : WriteCall) : WithWrites n :=
  { g with
    node := nd'
    admitted := Function.update g.admitted i none
    returned := Function.update g.returned i (c :: g.returned i) }

def next (g : WithWrites n) : WriteAction n → Option (WithWrites n)
  | .node a => if a.isWriter then none else (g.node.act a).map fun r => g.observed a r.1
  | .call i octets => some (g.arrive i octets)
  | .gateTimeout i k => (g.gate i)[k]?.map fun c => g.leaveGate i k c .ETIMEDOUT
  | .takeGate i k =>
    if (g.admitted i).isSome then none
    else (g.gate i)[k]?.bind fun c =>
      (g.node.act (.peer i (.writeBegin c.octets))).map fun r =>
        if (g.node.peer i).isDisc then g.leaveGate i k c .ENOTCONN else g.enter i k r.1 c
  | .reserve i timedOut take => (g.admitted i).bind fun c =>
    match g.node.writer i with
    | .loop remaining _ =>
      (g.node.act (.peer i (.writeReserve timedOut take))).map fun r =>
        g.goesOn i r.1 (c.reserved (g.node.link i) remaining.length timedOut)
    | _ => none
  | .insert i => (g.admitted i).bind fun c =>
    match g.node.writer i with
    | .build fp remaining signalTx =>
      (g.node.act (.peer i .writeInsert)).map fun r =>
        g.goesOn i r.1
          (c.inserted (g.node.link i) (writeInsert (g.node.link i) fp remaining signalTx).2.2)
    | _ => none
  | .done i => (g.admitted i).bind fun c =>
    (g.node.act (.peer i .writeDone)).map fun r => g.leave i r.1 (c.ended (g.node.link i))

structure Fresh (g : WithWrites n) : Prop where
  node : g.node.Fresh
  gate : ∀ i, g.gate i = []
  admitted : ∀ i, g.admitted i = none
  returned : ∀ i, g.returned i = []

def Moves (g g' : WithWrites n) : Prop := ∃ a, g.next a = some g'

/-- A boundary in the watched part of a call is the end of it: nothing is queued behind the
boundary, and `ECONNRESET` is what the call returns then and only then. -/
structure Aborts (watch : WriteCall → Watch) (c : WriteCall) : Prop where
  queued : (watch c).queuedBehind = false
  reset : (watch c).crossed = true → c.result = .error .ECONNRESET
  own : c.result = .error .ECONNRESET → (watch c).crossed = true

/-- The next section of the admitted call. -/
def nextSection (g : WithWrites n) (i : Fin n) (timedOut : Bool) (take : Option Frame) :
    Option (WithWrites n) :=
  match g.node.writer i with
  | .idle => none
  | .loop _ _ => g.next (.reserve i timedOut take)
  | .build _ _ _ => g.next (.insert i)
  | .done _ => g.next (.done i)

/-- The sections that a call has to go through when a boundary has aborted it. -/
def sectionsLeft (g : WithWrites n) (i : Fin n) : Nat :=
  match g.node.writer i with
  | .idle => 0
  | .loop _ _ => 2
  | .build _ _ _ => 2
  | .done _ => 1

/-- A boundary aborts the writes into which it falls and no others: nothing is queued behind it,
the call returns without another round, and the mark is gone when the next writer comes. -/
structure BoundaryAborts (watch : WriteCall → Watch) (g : WithWrites n) : Prop where
  returned : ∀ i, ∀ c ∈ g.returned i, Aborts watch c
  admitted : ∀ i, ∀ c ∈ g.admitted i, (watch c).queuedBehind = false
  returns : ∀ i, ∀ c ∈ g.admitted i, (watch c).crossed = true → ∀ timedOut take,
    ∃ g', g.nextSection i timedOut take = some g' ∧ g'.sectionsLeft i < g.sectionsLeft i
  mark : ∀ i, (g.node.peer i).streamTerminalPending.txReset = true → (g.admitted i).isSome = true

/-! ### What other threads do to the mark -/

/-- Apart from the writer the mark is set by a boundary alone, and only for a writer that the
boundary found. -/
structure Crosses (s s' : Stream) (boundary : Bool) : Prop where
  mark : s'.terminal.txReset = (s.terminal.txReset || boundary && s.conn && s.sending)
  quiet : boundary = false → s'.conn = s.conn ∧ s'.sending = s.sending
  idle : s.sending = false → s'.sending = false

variable {g g' : WithWrites n} {nd nd' : Node n} {a : Action n} {i : Fin n} {c : WriteCall}

theorem crosses_of_quiet (hopen : nd.opensStream i a = false)
    (hconn : (nd'.peer i).stream.conn = (nd.peer i).stream.conn)
    (hsending : (nd'.peer i).stream.sending = (nd.peer i).stream.sending)
    (hmark : (nd'.peer i).stream.terminal.txReset = (nd.peer i).stream.terminal.txReset) :
    Crosses (nd.peer i).stream (nd'.peer i).stream (nd.boundary a nd' i) := by
  have hnone : nd.boundary a nd' i = false := by
    change (nd.opensStream i a || (nd.peer i).stream.conn && !(nd'.peer i).stream.conn) = false
    rw [hopen, hconn, Bool.false_or, Bool.and_not_self]
  rw [hnone]
  refine ⟨?_, fun _ => ⟨hconn, hsending⟩, hsending.trans⟩
  rw [hmark, Bool.false_and, Bool.false_and, Bool.or_false]

theorem crosses_of_act (h : nd.StreamStep a nd' i) (ha : a.isWriter = false) :
    Crosses (nd.peer i).stream (nd'.peer i).stream (nd.boundary a nd' i) := by
  have hboundary : nd.boundary a nd' i =
    (nd.opensStream i a || (nd.peer i).stream.conn && !(nd'.peer i).stream.conn) := rfl
  have hquiet := @crosses_of_quiet _ nd nd' a i
  cases h with
  | same hopen hacc h =>
    rw [h] at hquiet ⊢
    exact hquiet hopen rfl rfl rfl
  | delivers fp hopen hacc h =>
    rw [h] at hquiet ⊢
    exact hquiet hopen rfl rfl rfl
  | requests hopen hacc h =>
    rw [h] at hquiet ⊢
    exact hquiet hopen rfl rfl rfl
  | reopens hopen hacc h =>
    rw [hboundary, h, hopen, Bool.true_or]
    refine ⟨?_, nofun, fun _ => rfl⟩
    rw [Bool.true_and]
    rfl
  | ends term hopen hacc hterm h =>
    have hdisc : ((nd.peer i).stream.disconnect term).conn = false := rfl
    rw [hboundary, h, hopen, hdisc, Bool.false_or, Bool.not_false, Bool.and_true]
    refine ⟨?_, fun hconn => ⟨hconn.symm, rfl⟩, id⟩
    rw [Bool.and_self]
    rfl
  | call op ha' h =>
    subst ha'
    cases op with
    | writeBegin octets => cases ha
    | writeReserve timedOut take => cases ha
    | writeInsert => cases ha
    | writeDone => cases ha
    | _ =>
      rw [h] at hquiet ⊢
      exact hquiet rfl rfl rfl rfl

/-! ### The invariant -/

/-- Nobody is admitted, or the mark says whether a boundary fell into the admission. -/
structure Tracks (s : Stream) (c : WriteCall) : Prop where
  queued : c.admission.queuedBehind = false
  live : c.admission.crossed = false →
    s.conn = true ∧ s.sending = true ∧ s.terminal.txReset = false
  crossed : c.admission.crossed = true → s.terminal.txReset = true
  own : c.result = .error .ECONNRESET → c.admission.crossed = true

/-- What holds of the calls of one peer. -/
structure InvAt (g : WithWrites n) (i : Fin n) : Prop where
  gate : ∀ c ∈ g.gate i, c.octets ≠ [] ∧ c.admission = {} ∧ c.result = .ok 0
  returned : ∀ c ∈ g.returned i, Aborts WriteCall.admission c
  idle : g.admitted i = none →
    (g.node.peer i).stream.sending = false ∧ (g.node.peer i).stream.terminal.txReset = false
  tracks : ∀ c ∈ g.admitted i, Tracks (g.node.peer i).stream c
  place : g.admitted i = none ↔ g.node.writer i = .idle

def Inv (g : WithWrites n) : Prop := ∀ i, g.InvAt i

/-- A step that touches the calls of peer `i` alone. -/
structure OnlyAt (g g' : WithWrites n) (i : Fin n) : Prop where
  node : g.node.OnlyStream g'.node i
  gate : ∀ j, j ≠ i → g'.gate j = g.gate j
  admitted : ∀ j, j ≠ i → g'.admitted j = g.admitted j
  returned : ∀ j, j ≠ i → g'.returned j = g.returned j

theorem Inv.at (h : g.Inv) (hrest : g.OnlyAt g' i) (hself : g'.InvAt i) : g'.Inv := by
  intro j
  by_cases hj : j = i
  · exact hj ▸ hself
  · obtain ⟨hgate, hreturned, hidle, htracks, hplace⟩ := h j
    rw [← hrest.gate j hj] at hgate
    rw [← hrest.returned j hj] at hreturned
    rw [← hrest.node.stream j hj, ← hrest.admitted j hj] at hidle
    rw [← hrest.node.stream j hj, ← hrest.admitted j hj] at htracks
    rw [← hrest.node.writer j hj, ← hrest.admitted j hj] at hplace
    exact ⟨hgate, hreturned, hidle, htracks, hplace⟩

theorem Tracks.crosses {s s' : Stream} {b : Bool} (h : Tracks s c) (hs : Crosses s s' b) :
    Tracks s' { c with call := c.call.boundary b, admission := c.admission.boundary b } := by
  refine ⟨h.queued, fun hno => ?_, fun hcrossed => ?_, fun hreset => ?_⟩
  · obtain ⟨hold, rfl⟩ := Bool.or_eq_false_iff.mp hno
    obtain ⟨hconn, hsending, hmark⟩ := h.live hold
    obtain ⟨hconn', hsending'⟩ := hs.quiet rfl
    refine ⟨hconn'.trans hconn, hsending'.trans hsending, ?_⟩
    rw [hs.mark, hmark]
    rfl
  · rw [hs.mark]
    cases hold : c.admission.crossed with
    | true => rw [h.crossed hold, Bool.true_or]
    | false =>
      obtain ⟨hconn, hsending, hmark⟩ := h.live hold
      have hb : b = true := by
        have : (c.admission.crossed || b) = true := hcrossed
        rwa [hold, Bool.false_or] at this
      rw [hconn, hsending, hb]
      exact Bool.or_true _
  · exact Bool.or_eq_true_iff.mpr (.inl (h.own hreset))

theorem inv_init (h : g.Fresh) : g.Inv := by
  obtain ⟨mode, flags, fr, fcs, rej, reply, poll, addr, hmode, hs⟩ := h.node.station
  intro i
  obtain ⟨framesize, retryMax, paddr, hp⟩ := h.node.peer i
  refine ⟨?_, ?_, fun _ => ?_, ?_, ?_⟩
  · rw [h.gate i]
    nofun
  · rw [h.returned i]
    nofun
  · rw [hp]
    exact ⟨rfl, rfl⟩
  · rw [h.admitted i]
    nofun
  · exact iff_of_true (h.admitted i) (h.node.writer i)

/-- Another thread takes a step. -/
theorem inv_observed {sent : List Frame} (h : g.Inv) (ha : a.isWriter = false)
    (hact : g.node.act a = some (nd', sent)) : (g.observed a nd').Inv := by
  intro i
  obtain ⟨hgate, hreturned, hidle, htracks, hplace⟩ := h i
  have hcross := crosses_of_act (Node.act_stream hact i) ha
  refine ⟨fun c hc => ?_, hreturned, fun hnone => ?_, fun c hc => ?_, ?_⟩
  · obtain ⟨c₀, hc₀, rfl⟩ := List.mem_map.mp hc
    exact hgate c₀ hc₀
  · obtain ⟨hsending, hmark⟩ := hidle (Option.map_eq_none_iff.mp hnone)
    refine ⟨hcross.idle hsending, ?_⟩
    rw [show ((g.observed a nd').node.peer i).stream = (nd'.peer i).stream from rfl, hcross.mark,
      hmark, hsending, Bool.and_false, Bool.or_false]
  · obtain ⟨c₀, hc₀, rfl⟩ := Option.map_eq_some_iff.mp hc
    exact (htracks c₀ hc₀).crosses hcross
  · change (g.admitted i).map _ = none ↔ nd'.writer i = .idle
    rw [Option.map_eq_none_iff, Node.act_writer hact ha]
    exact hplace

/-! ### The sections of a call -/

/-- While a call is admitted, the mark says whether a boundary fell into its admission. -/
theorem Tracks.mark {s : Stream} (h : Tracks s c) :
    s.terminal.txReset = c.admission.crossed := by
  cases hcrossed : c.admission.crossed with
  | true => exact h.crossed hcrossed
  | false => exact (h.live hcrossed).2.2

/-- What the last section returns. -/
theorem Tracks.ended {l : Link} (h : Tracks l.p.stream c) :
    Aborts WriteCall.admission (c.ended l) := by
  have hmark : l.p.streamTerminalPending.txReset = c.admission.crossed := h.mark
  refine ⟨h.queued, fun hcrossed => ?_, fun hown => ?_⟩
  · exact if_pos (hmark.trans hcrossed)
  · rw [WriteCall.ended, hmark] at hown
    by_cases hcrossed : c.admission.crossed = true
    · exact hcrossed
    · exact h.own ((if_neg hcrossed).symm.trans hown)

/-- The head of the loop gives up with `ECONNRESET` for the mark alone. -/
theorem Tracks.reserved {l : Link} (h : Tracks l.p.stream c) (remaining : Nat) (timedOut : Bool) :
    Tracks l.p.stream (c.reserved l remaining timedOut) := by
  refine ⟨h.queued, h.live, h.crossed, fun hreset => ?_⟩
  simp only [WriteCall.reserved] at hreset
  split at hreset
  · cases hreset
  split at hreset
  next hmark => exact h.mark.symm.trans hmark
  split at hreset
  · cases hreset
  split at hreset
  · split at hreset <;> cases hreset
  · exact h.own hreset

/-- A fragment enters the queue only while the mark is off. -/
theorem writeInsert_queued {l : Link} {fp : Frame} {remaining : List UInt8} {signalTx : Bool}
    (h : (writeInsert l fp remaining signalTx).2.2 = true) :
    l.p.streamTerminalPending.txReset = false := by
  rw [writeInsert] at h
  split at h
  · cases h
  next hmark => exact Bool.eq_false_iff.mpr hmark

theorem Tracks.inserted {l : Link} {queued : Bool} (h : Tracks l.p.stream c)
    (hqueued : queued = true → l.p.streamTerminalPending.txReset = false) :
    Tracks l.p.stream (c.inserted l queued) := by
  have hmark : l.p.streamTerminalPending.txReset = c.admission.crossed := h.mark
  have hreset (hown : (c.inserted l queued).result = .error .ECONNRESET) :
      c.admission.crossed = true := by
    rw [← hmark]
    simp only [WriteCall.inserted] at hown
    split at hown
    next hyes => exact hyes
    split at hown
    · cases hown
    · exact hmark.trans (h.own hown)
  cases queued with
  | false => exact ⟨h.queued, h.live, h.crossed, hreset⟩
  | true =>
    refine ⟨?_, h.live, h.crossed, hreset⟩
    -- no boundary has been, so the fragment is not behind one
    change (c.admission.queuedBehind || c.admission.crossed) = false
    rw [h.queued, ← hmark, hqueued rfl, Bool.or_false]

theorem onlyAt_arrive (g : WithWrites n) (i : Fin n) (octets : List UInt8) :
    g.OnlyAt (g.arrive i octets) i :=
  { node := ⟨fun _ _ => rfl, fun _ _ => rfl⟩
    gate := fun _ hj => Function.update_of_ne hj _ _
    admitted := fun _ _ => rfl
    returned := fun _ hj => Function.update_of_ne hj _ _ }

/-- A call without octets returns at once. -/
theorem invAt_arrive (h : g.InvAt i) (octets : List UInt8) : (g.arrive i octets).InvAt i := by
  have hgate : (g.arrive i octets).gate i =
    if octets = [] then g.gate i else g.gate i ++ [{ octets := octets }] := Function.update_self ..
  have hreturned : (g.arrive i octets).returned i =
    if octets = [] then { octets := [] } :: g.returned i else g.returned i :=
      Function.update_self ..
  refine ⟨?_, ?_, h.idle, h.tracks, h.place⟩
  · rw [hgate]
    split
    · exact h.gate
    next hoctets =>
      intro c hc
      rcases List.mem_append.mp hc with hc | hc
      · exact h.gate c hc
      · obtain rfl := List.mem_singleton.mp hc
        exact ⟨hoctets, rfl, rfl⟩
  · rw [hreturned]
    split
    · intro c hc
      rcases List.mem_cons.mp hc with rfl | hc
      · exact ⟨rfl, nofun, nofun⟩
      · exact h.returned c hc
    · exact h.returned

theorem onlyAt_leaveGate (g : WithWrites n) (i : Fin n) (k : Nat) (c : WriteCall) (e : Errno) :
    g.OnlyAt (g.leaveGate i k c e) i :=
  { node := ⟨fun _ _ => rfl, fun _ _ => rfl⟩
    gate := fun _ hj => Function.update_of_ne hj _ _
    admitted := fun _ _ => rfl
    returned := fun _ hj => Function.update_of_ne hj _ _ }

/-- A call that was never admitted has nothing to answer for. -/
theorem aborts_leaveGate {e : Errno} (hc : c.admission = {}) (he : e ≠ .ECONNRESET) :
    Aborts WriteCall.admission { c with result := .error e } := by
  refine ⟨?_, ?_, fun hown => absurd (Except.error.inj hown) he⟩
  · rw [hc]
  · rw [hc]
    nofun

theorem invAt_leaveGate {k : Nat} {e : Errno} (h : g.InvAt i) (hc : (g.gate i)[k]? = some c)
    (he : e ≠ .ECONNRESET) : (g.leaveGate i k c e).InvAt i := by
  have hgate : (g.leaveGate i k c e).gate i = (g.gate i).eraseIdx k := Function.update_self ..
  have hreturned : (g.leaveGate i k c e).returned i =
    { c with result := .error e } :: g.returned i := Function.update_self ..
  refine ⟨fun c' hc' => ?_, fun c' hc' => ?_, h.idle, h.tracks, h.place⟩
  · rw [hgate] at hc'
    exact h.gate c' (List.mem_of_mem_eraseIdx hc')
  · rw [hreturned] at hc'
    rcases List.mem_cons.mp hc' with rfl | hc'
    · exact aborts_leaveGate (h.gate c (List.mem_of_getElem? hc)).2.1 he
    · exact h.returned c' hc'

theorem onlyAt_enter {k : Nat} (hrest : g.node.OnlyStream nd' i) :
    g.OnlyAt (g.enter i k nd' c) i :=
  { node := hrest
    gate := fun _ hj => Function.update_of_ne hj _ _
    admitted := fun _ hj => Function.update_of_ne hj _ _
    returned := fun _ _ => rfl }

/-- A call is admitted to a connection that no boundary has touched. -/
theorem invAt_enter {k : Nat} {sent : List Frame} (h : g.InvAt i) (hnone : g.admitted i = none)
    (hc : (g.gate i)[k]? = some c) (hconn : (g.node.peer i).isDisc = false)
    (hact : g.node.act (.peer i (.writeBegin c.octets)) = some (nd', sent)) :
    (g.enter i k nd' c).InvAt i := by
  have hgate : (g.enter i k nd' c).gate i = (g.gate i).eraseIdx k := Function.update_self ..
  have hadmitted : (g.enter i k nd' c).admitted i = some c := Function.update_self ..
  obtain ⟨-, hmark⟩ := h.idle hnone
  obtain ⟨hoctets, hadmission, hresult⟩ := h.gate c (List.mem_of_getElem? hc)
  obtain ⟨hself, ⟨l, hop⟩, -⟩ := Node.act_peer hact
  have hlive : (g.node.peer i).stream.conn = true := by
    rwa [Peer.isDisc, Bool.not_eq_false'] at hconn
  have hstream : (nd'.peer i).stream = { (g.node.peer i).stream with sending := true } := by
    refine hself.trans (if_neg (not_or.mpr ⟨hoctets, ?_⟩))
    rw [hlive]
    simp
  refine ⟨fun c' hc' => ?_, h.returned, fun hidle => ?_, fun c' hc' => ?_, ?_⟩
  · rw [hgate] at hc'
    exact h.gate c' (List.mem_of_mem_eraseIdx hc')
  · rw [hadmitted] at hidle
    cases hidle
  · rw [hadmitted] at hc'
    obtain rfl := Option.mem_some_iff.mp hc'
    change Tracks (nd'.peer i).stream c
    rw [hstream]
    refine ⟨?_, fun _ => ⟨hlive, rfl, hmark⟩, ?_, ?_⟩
    · rw [hadmission]
    · rw [hadmission]
      simp
    · rw [hresult]
      simp
  · rw [hadmitted]
    refine iff_of_false (by simp) fun hwriter => ?_
    change nd'.writer i = .idle at hwriter
    rw [h.place.mp hnone, hwriter] at hop
    simp [PeerOp.apply, writeBegin, hoctets, hconn] at hop

theorem onlyAt_goesOn (hrest : g.node.OnlyStream nd' i) : g.OnlyAt (g.goesOn i nd' c) i :=
  { node := hrest
    gate := fun _ _ => rfl
    admitted := fun _ hj => Function.update_of_ne hj _ _
    returned := fun _ _ => rfl }

theorem invAt_goesOn (h : g.InvAt i) (hc : Tracks (nd'.peer i).stream c)
    (hwriter : nd'.writer i ≠ .idle) : (g.goesOn i nd' c).InvAt i := by
  have hadmitted : (g.goesOn i nd' c).admitted i = some c := Function.update_self ..
  refine ⟨h.gate, h.returned, fun hidle => ?_, fun c' hc' => ?_, ?_⟩
  · rw [hadmitted] at hidle
    cases hidle
  · rw [hadmitted] at hc'
    obtain rfl := Option.mem_some_iff.mp hc'
    exact hc
  · rw [hadmitted]
    exact iff_of_false nofun hwriter

theorem onlyAt_leave (hrest : g.node.OnlyStream nd' i) : g.OnlyAt (g.leave i nd' c) i :=
  { node := hrest
    gate := fun _ _ => rfl
    admitted := fun _ hj => Function.update_of_ne hj _ _
    returned := fun _ hj => Function.update_of_ne hj _ _ }

/-- The last section takes the mark away and tells it in the result. -/
theorem invAt_leave {sent : List Frame} (h : g.InvAt i) (hc : g.admitted i = some c)
    (hact : g.node.act (.peer i .writeDone) = some (nd', sent)) :
    (g.leave i nd' (c.ended (g.node.link i))).InvAt i := by
  have hadmitted : (g.leave i nd' (c.ended (g.node.link i))).admitted i = none :=
    Function.update_self ..
  have hreturned : (g.leave i nd' (c.ended (g.node.link i))).returned i =
    c.ended (g.node.link i) :: g.returned i := Function.update_self ..
  have htracks : Tracks (g.node.link i).p.stream c := h.tracks c hc
  obtain ⟨hself, ⟨l, hop⟩, -⟩ := Node.act_peer hact
  refine ⟨h.gate, fun c' hc' => ?_, fun _ => ?_, fun c' hc' => ?_, iff_of_true hadmitted ?_⟩
  · rw [hreturned] at hc'
    rcases List.mem_cons.mp hc' with rfl | hc'
    · exact htracks.ended
    · exact h.returned c' hc'
  · change (nd'.peer i).stream.sending = false ∧ (nd'.peer i).stream.terminal.txReset = false
    rw [hself]
    exact ⟨rfl, rfl⟩
  · rw [hadmitted] at hc'
    cases hc'
  · change nd'.writer i = .idle
    cases hpc : g.node.writer i with
    | done signalTx =>
      rw [hpc] at hop
      exact (congrArg Prod.snd (Option.some.inj hop)).symm
    | _ =>
      rw [hpc] at hop
      cases hop

/-- The head of the loop does not end the call, and leaves the loop for the mark. -/
theorem writeReserve_pc (l : Link) (remaining : List UInt8) (signalTx timedOut : Bool)
    (take : Option Frame) :
    (writeReserve l remaining signalTx timedOut take).2 ≠ .idle ∧
      (l.p.streamTerminalPending.txReset = true →
        ∃ signalTx', (writeReserve l remaining signalTx timedOut take).2 = .done signalTx') := by
  simp only [writeReserve]
  split
  · exact ⟨by simp, fun _ => ⟨_, rfl⟩⟩
  split
  · exact ⟨by simp, fun _ => ⟨_, rfl⟩⟩
  next hmark =>
    refine ⟨fun hidle => ?_, fun hyes => absurd hyes hmark⟩
    split at hidle
    · cases hidle
    split at hidle
    · cases timedOut <;> cases hidle
    split at hidle <;> cases hidle

/-- So does the end of the loop. -/
theorem writeInsert_pc (l : Link) (fp : Frame) (remaining : List UInt8) (signalTx : Bool) :
    (writeInsert l fp remaining signalTx).2.1 ≠ .idle ∧
      (l.p.streamTerminalPending.txReset = true →
        ∃ signalTx', (writeInsert l fp remaining signalTx).2.1 = .done signalTx') := by
  simp only [writeInsert]
  split
  · exact ⟨by simp, fun _ => ⟨_, rfl⟩⟩
  next hmark =>
    refine ⟨fun hidle => ?_, fun hyes => absurd hyes hmark⟩
    split at hidle <;> cases hidle

theorem inv_step {b : WriteAction n} (h : g.Inv) (hstep : g.next b = some g') : g'.Inv := by
  cases b with
  | node a =>
    simp only [next] at hstep
    split at hstep
    · cases hstep
    next ha =>
      obtain ⟨r, hact, rfl⟩ := Option.map_eq_some_iff.mp hstep
      exact inv_observed h (Bool.eq_false_iff.mpr ha) hact
  | call i octets =>
    cases hstep
    exact h.at (onlyAt_arrive g i octets) (invAt_arrive (h i) octets)
  | gateTimeout i k =>
    obtain ⟨c, hc, rfl⟩ := Option.map_eq_some_iff.mp hstep
    exact h.at (onlyAt_leaveGate g i k c _) (invAt_leaveGate (h i) hc nofun)
  | takeGate i k =>
    simp only [next] at hstep
    split at hstep
    · cases hstep
    next hnone =>
      rw [Option.not_isSome_iff_eq_none] at hnone
      obtain ⟨c, hc, hstep⟩ := Option.bind_eq_some_iff.mp hstep
      obtain ⟨r, hact, rfl⟩ := Option.map_eq_some_iff.mp hstep
      split
      · exact h.at (onlyAt_leaveGate g i k c _) (invAt_leaveGate (h i) hc nofun)
      next hconn =>
        exact h.at (onlyAt_enter (Node.act_peer hact).2.2)
          (invAt_enter (h i) hnone hc (Bool.eq_false_iff.mpr hconn) hact)
  | reserve i timedOut take =>
    obtain ⟨c, hc, hstep⟩ := Option.bind_eq_some_iff.mp hstep
    split at hstep
    next remaining signalTx hpc =>
      obtain ⟨r, hact, rfl⟩ := Option.map_eq_some_iff.mp hstep
      obtain ⟨hself, ⟨l, hop⟩, hrest⟩ := Node.act_peer hact
      refine h.at (onlyAt_goesOn hrest)
        (invAt_goesOn (h i) ?_ ?_)
      · rw [hself]
        exact Tracks.reserved (l := g.node.link i) ((h i).tracks c hc) remaining.length timedOut
      · rw [hpc] at hop
        have hpc' := congrArg Prod.snd (Option.some.inj hop)
        exact fun hidle => (writeReserve_pc ..).1 (hpc'.trans hidle)
    · cases hstep
  | insert i =>
    obtain ⟨c, hc, hstep⟩ := Option.bind_eq_some_iff.mp hstep
    split at hstep
    next fp remaining signalTx hpc =>
      obtain ⟨r, hact, rfl⟩ := Option.map_eq_some_iff.mp hstep
      obtain ⟨hself, ⟨l, hop⟩, hrest⟩ := Node.act_peer hact
      refine h.at (onlyAt_goesOn hrest)
        (invAt_goesOn (h i) ?_ ?_)
      · rw [hself]
        exact Tracks.inserted (l := g.node.link i) ((h i).tracks c hc) writeInsert_queued
      · rw [hpc] at hop
        have hpc' := congrArg Prod.snd (Option.some.inj hop)
        exact fun hidle => (writeInsert_pc ..).1 (hpc'.trans hidle)
    · cases hstep
  | done i =>
    obtain ⟨c, hc, hstep⟩ := Option.bind_eq_some_iff.mp hstep
    obtain ⟨r, hact, rfl⟩ := Option.map_eq_some_iff.mp hstep
    exact h.at (onlyAt_leave (Node.act_peer hact).2.2) (invAt_leave (h i) hc hact)

theorem inv_reachable (h : Reachable Fresh Moves g) : g.Inv :=
  h.invariant Inv (fun _ hg => inv_init hg) fun _ _ hg ⟨_, hstep⟩ => inv_step hg hstep

/-- An aborted call is through with its next section but one. -/
theorem nextSection_of_crossed (h : g.InvAt i) (hc : g.admitted i = some c)
    (hcrossed : c.admission.crossed = true) (timedOut : Bool) (take : Option Frame) :
    ∃ g', g.nextSection i timedOut take = some g' ∧ g'.sectionsLeft i < g.sectionsLeft i := by
  have hmark : (g.node.link i).p.streamTerminalPending.txReset = true :=
    (h.tracks c hc).crossed hcrossed
  have hupdate (nd : Node n) (w : WriterPc) : Function.update nd.writer i w i = w :=
    Function.update_self ..
  rw [nextSection, sectionsLeft]
  cases hpc : g.node.writer i with
  | idle => exact absurd (h.place.mpr hpc) (by rw [hc]; nofun)
  | loop remaining signalTx =>
    obtain ⟨signalTx', hdone⟩ := (writeReserve_pc (g.node.link i) remaining signalTx timedOut take).2 hmark
    simp only [next, hc, hpc, Option.bind_some, Node.act, PeerOp.apply, Option.map_some]
    refine ⟨_, rfl, ?_⟩
    simp only [sectionsLeft, goesOn, hupdate, hdone]
    decide
  | build fp remaining signalTx =>
    obtain ⟨signalTx', hdone⟩ := (writeInsert_pc (g.node.link i) fp remaining signalTx).2 hmark
    simp only [next, hc, hpc, Option.bind_some, Node.act, PeerOp.apply, Option.map_some]
    refine ⟨_, rfl, ?_⟩
    simp only [sectionsLeft, goesOn, hupdate, hdone]
    decide
  | done signalTx =>
    simp only [next, hc, hpc, Option.bind_some, Node.act, PeerOp.apply, Option.map_some]
    refine ⟨_, rfl, ?_⟩
    simp only [sectionsLeft, leave, hupdate]
    decide

/-! ### Boundaries and writers -/

/-- In every run a boundary that falls into the admission of a write aborts it and no other. -/
theorem admission_aborts (h : Reachable Fresh Moves g) : g.BoundaryAborts WriteCall.admission := by
  have hinv := inv_reachable h
  refine ⟨fun i => (hinv i).returned, fun i c hc => ((hinv i).tracks c hc).queued,
    fun i c hc hcrossed => nextSection_of_crossed (hinv i) hc hcrossed, fun i hmark => ?_⟩
  by_contra hnone
  have hidle := (hinv i).idle (Option.not_isSome_iff_eq_none.mp hnone)
  exact Bool.false_ne_true (hidle.2.symm.trans hmark)

/-- A secondary right after set-up, without a writer. -/
def secondary : WithWrites 1 where
  node := Node.onePeer .ndm {} 1 2
  gate := fun _ => []
  admitted := fun _ => none
  returned := fun _ => []

theorem fresh_secondary : secondary.Fresh :=
  { node := Node.fresh_onePeer .ndm (.inl rfl) {} 1 2
    gate := fun _ => rfl
    admitted := fun _ => rfl
    returned := fun _ => rfl }

/-- A second SNRM of the primary falls into the admission of one write, while another one waits
at the gate. -/
def twoWrites : List (WriteAction 1) :=
  [.node (.receive (Node.shortFrame 1 0x93)), .node .txFetch,
    .node (.txEntry { uResponse := some default }), .call 0 [1], .takeGate 0 0, .call 0 [2],
    .node (.receive (Node.shortFrame 1 0x93)), .reserve 0 false none, .done 0,
    .takeGate 0 0, .reserve 0 false (some default), .insert 0, .reserve 0 false none, .done 0]

/-- The first write of `twoWrites` is aborted. -/
theorem admission_aborts_twoWrites :
    ∃ g : WithWrites 1, g.BoundaryAborts WriteCall.admission ∧
      ((g.returned 0).any fun c : WriteCall => c.admission.crossed) = true := by
  obtain ⟨g, hreach, hcrossed⟩ := Reachable.exists_of_run next (fun _ a _ h => (⟨a, h⟩ : Moves _ _))
    (.start fresh_secondary) twoWrites
    (fun g => (g.returned 0).any fun c : WriteCall => c.admission.crossed) (by decide +kernel)
  exact ⟨g, admission_aborts hreach, hcrossed⟩

/-- The second one enters the connection that the boundary began, and succeeds. -/
theorem gate_waits_across_boundary :
    ¬∀ g : WithWrites 1, Reachable Fresh Moves g → g.BoundaryAborts WriteCall.call := by
  intro h
  obtain ⟨g, hreach, hqueued⟩ := Reachable.exists_of_run next (fun _ a _ h => (⟨a, h⟩ : Moves _ _))
    (.start fresh_secondary) twoWrites
    (fun g => (g.returned 0).any fun c : WriteCall => c.call.queuedBehind) (by decide +kernel)
  obtain ⟨c, hc, hbehind⟩ := List.any_eq_true.mp hqueued
  exact Bool.false_ne_true (((h g hreach).returned 0 c hc).queued.symm.trans hbehind)

end WithWrites

end IoHdlc
