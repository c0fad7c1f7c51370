import IoHdlc.Core.Read

/-!
The threads in `ioHdlcReadVTmo`.

A run numbers the connections of a peer and records which octets were delivered on each. Every
octet that can be read, and every octet that a call has read, comes from a connection.
-/

namespace IoHdlc

open Kit

/-- An octet, and the connection on which it was delivered. -/
structure Received where
  conn : Nat
  octet : UInt8

/-- The octets of one connection. -/
def octetsOf (e : Nat) (xs : List Received) : List UInt8 :=
  (xs.filter (·.conn = e)).map Received.octet

/-- A call that returned, with the connections from which its octets come. -/
structure ReadReturn where
  call : ReadCall
  origin : List Nat
  result : Except Errno Unit

namespace ReadReturn

def received (r : ReadReturn) : List Received := r.origin.zipWith Received.mk r.call.octets

/-- Whether the call told that a connection ended: `ECONNRESET`, or 0 octets of some. -/
def reportsEnd (r : ReadReturn) : Bool :=
  match r.result with
  | .ok () => r.call.octets.isEmpty && r.call.total ≠ 0
  | .error e => e = .ECONNRESET

end ReadReturn

/-- What was read since a call last told that a connection ended; the last call comes first. -/
def sinceEnd (log : List ReadReturn) : List Received :=
  (log.takeWhile (!·.reportsEnd)).flatMap ReadReturn.received

/-- All that was read, in the order of the calls. -/
def allReceived (log : List ReadReturn) : List Received :=
  log.reverse.flatMap ReadReturn.received

/-- No call mixes two connections, and between octets of two a call has told an end. -/
structure Separated (log : List ReadReturn) : Prop where
  single : ∀ r ∈ log, ∀ x ∈ r.received, ∀ y ∈ r.received, x.conn = y.conn
  separated : ∀ later r₂ between r₁ earlier, log = later ++ r₂ :: (between ++ r₁ :: earlier) →
    ∀ x ∈ r₁.received, ∀ y ∈ r₂.received, x.conn ≠ y.conn → ∃ r ∈ between, r.reportsEnd = true

/-- What the calls say of the connections: they keep them apart, and the octets of each are a
prefix of what was delivered on it. -/
structure StreamRead (delivered : Nat → List UInt8) (log : List ReadReturn) : Prop
    extends Separated log where
  isPrefix : ∀ e, octetsOf e (allReceived log) <+: delivered e

/-! ### Octets and calls -/

theorem octetsOf_append (e : Nat) (xs ys : List Received) :
    octetsOf e (xs ++ ys) = octetsOf e xs ++ octetsOf e ys := by
  rw [octetsOf, List.filter_append, List.map_append]
  rfl

/-- The octets that come from one connection. -/
theorem octetsOf_map (e : Nat) (octets : List UInt8) :
    octetsOf e (octets.map (Received.mk e)) = octets := by
  induction octets with
  | nil => rfl
  | cons o octets ih =>
    simpa [octetsOf] using ih

theorem octetsOf_map_of_ne {e e' : Nat} (h : e ≠ e') (octets : List UInt8) :
    octetsOf e' (octets.map (Received.mk e)) = [] := by
  rw [octetsOf, List.filter_eq_nil_iff.mpr]
  · rfl
  · intro x hx
    obtain ⟨o, -, rfl⟩ := List.mem_map.mp hx
    rw [decide_eq_true_eq]
    exact h

theorem allReceived_cons (r : ReadReturn) (log : List ReadReturn) :
    allReceived (r :: log) = allReceived log ++ r.received := by
  rw [allReceived, List.reverse_cons, List.flatMap_append, List.flatMap_singleton]
  rfl

/-- A call that tells an end begins anew. -/
theorem sinceEnd_report {r : ReadReturn} (h : r.reportsEnd = true) (log : List ReadReturn) :
    sinceEnd (r :: log) = [] := by
  rw [sinceEnd, List.takeWhile_cons, h]
  rfl

theorem sinceEnd_cons {r : ReadReturn} (h : r.reportsEnd = false) (log : List ReadReturn) :
    sinceEnd (r :: log) = r.received ++ sinceEnd log := by
  rw [sinceEnd, List.takeWhile_cons, h]
  rfl

/-- The calls before one whose octets come from the connection of all that was read since the
last end. -/
theorem Separated.cons {log : List ReadReturn} {r : ReadReturn} (h : Separated log)
    (hclean : ∀ r' ∈ log, r'.reportsEnd = true → r'.received = [])
    (hone : ∃ e, ∀ x ∈ sinceEnd log ++ r.received, x.conn = e) : Separated (r :: log) := by
  obtain ⟨e, he⟩ := hone
  have hnew (x : Received) (hx : x ∈ r.received) : x.conn = e :=
    he x (List.mem_append_right _ hx)
  refine ⟨fun r' hr' => ?_, fun later r₂ between r₁ earlier hlog x hx y hy hne => ?_⟩
  · rcases List.mem_cons.mp hr' with rfl | hr'
    · exact fun x hx y hy => (hnew x hx).trans (hnew y hy).symm
    · exact h.single r' hr'
  · cases later with
    | nil =>
      obtain ⟨rfl, rfl⟩ := List.cons.inj hlog
      by_contra hno
      -- then `x` was read since the last end, like `y`
      have hquiet : ∀ r' ∈ between ++ [r₁], (!r'.reportsEnd) = true := by
        intro r' hr'
        rw [Bool.not_eq_true', Bool.eq_false_iff]
        intro hreport
        rcases List.mem_append.mp hr' with hr' | hr'
        · exact hno ⟨r', hr', hreport⟩
        · obtain rfl := List.mem_singleton.mp hr'
          rw [hclean r' (by simp) hreport] at hx
          cases hx
      refine hne ((he x (List.mem_append_left _ ?_)).trans (hnew y hy).symm)
      rw [sinceEnd, ← List.singleton_append, ← List.append_assoc,
        List.takeWhile_append_of_pos hquiet, List.flatMap_append, List.flatMap_append,
        List.flatMap_singleton]
      exact List.mem_append_left _ (List.mem_append_right _ hx)
    | cons r' later =>
      obtain ⟨rfl, rfl⟩ := List.cons.inj hlog
      exact h.separated later r₂ between r₁ earlier rfl x hx y hy hne

/-! ### Readers -/

/-- A node with its readers. -/
structure WithReads (n : Nat) where
  node : Node n
  reader : Fin n → Option ReadCall
  /-- The connections from which the octets of the call under way come. -/
  origin : Fin n → List Nat
  /-- The connections from which the octets come that can be read. -/
  queue : Fin n → List Nat
  epoch : Fin n → Nat
  delivered : Fin n → Nat → List UInt8
  returned : Fin n → List ReadReturn

/-- What a thread in the call does, or anything else. -/
inductive ReadAction (n : Nat) where
  | node (a : Action n)
  | gateTimeout (i : Fin n) (iov : List Nat)
  | begin (i : Fin n) (iov : List Nat) (timedOut : Bool)
  | turn (i : Fin n) (timedOut : Bool)

/-- The actions of a node that are those of a reader. -/
def Action.isReader {n : Nat} : Action n → Bool
  | .peer _ .read => true
  | _ => false

/-- A call with vectors of these lengths. -/
def ReadCall.empty (iov : List Nat) : ReadCall := ⟨iov.map fun len => { len := len }⟩

namespace WithReads

variable {n : Nat}

/-- Another thread takes a step. -/
def observed (g : WithReads n) (a : Action n) (nd' : Node n) : WithReads n :=
  { g with
    node := nd'
    queue := fun i =>
      if g.node.opensStream i a then []
      else
        match g.node.accepted i a with
        | some fp =>
          g.queue i ++ List.replicate (fp.payload g.node.s.framing).length (g.epoch i)
        | none => g.queue i
    epoch := fun i => if g.node.opensStream i a then g.epoch i + 1 else g.epoch i
    delivered := fun i =>
      match g.node.accepted i a with
      | some fp =>
        Function.update (g.delivered i) (g.epoch i)
          (g.delivered i (g.epoch i) ++ fp.payload g.node.s.framing)
      | none => g.delivered i }

/-- The reader of peer `i` takes a section, and returns or waits. -/
def reads (g : WithReads n) (i : Fin n) (c : ReadCall) (r : ReadStep) : WithReads n :=
  let taken := r.call.totalRead - c.totalRead
  let origin := g.origin i ++ (g.queue i).take taken
  { g with
    node := g.node.setLink i r.link
    queue := Function.update g.queue i ((g.queue i).drop taken)
    reader := Function.update g.reader i
      (match r.next with
        | .waits => some r.call
        | .returns _ => none)
    origin := Function.update g.origin i
      (match r.next with
        | .waits => origin
        | .returns _ => [])
    returned := Function.update g.returned i
      (match r.next with
        | .waits => g.returned i
        | .returns result => { call := r.call, origin := origin, result := result } :: g.returned i) }

/-- A call returns without having taken a section. -/
def rejects (g : WithReads n) (i : Fin n) (iov : List Nat) (result : Except Errno Unit) :
    WithReads n :=
  { g with
    returned := Function.update g.returned i
      ({ call := .empty iov, origin := [], result := result } :: g.returned i) }

def next (g : WithReads n) : ReadAction n → Option (WithReads n)
  | .node a => if a.isReader then none else (g.node.act a).map fun r => g.observed a r.1
  | .gateTimeout i iov => some (g.rejects i iov (.error .ETIMEDOUT))
  | .begin i iov timedOut =>
    if iov.sum = 0 then some (g.rejects i iov (.ok ()))
    else if (g.reader i).isSome then none
    else some (g.reads i (.empty iov) (readBegin (g.node.link i) (.empty iov) timedOut))
  | .turn i timedOut =>
    (g.reader i).map fun c => g.reads i c (readSection (g.node.link i) c timedOut)

structure Fresh (g : WithReads n) : Prop where
  node : g.node.Fresh
  reader : ∀ i, g.reader i = none
  origin : ∀ i, g.origin i = []
  queue : ∀ i, g.queue i = []
  delivered : ∀ i e, g.delivered i e = []
  returned : ∀ i, g.returned i = []

/-- What the call under way has read. -/
def reading (g : WithReads n) (i : Fin n) : List Received :=
  match g.reader i with
  | some c => (g.origin i).zipWith Received.mk c.octets
  | none => []

/-- What was read since a call last told that a connection ended. -/
def unreported (g : WithReads n) (i : Fin n) : List Received :=
  sinceEnd (g.returned i) ++ g.reading i

/-- Whether an action ends the connection of peer `i`. -/
def ends (g : WithReads n) (a : Action n) (i : Fin n) : Bool :=
  (g.node.peer i).ssState.stConn && (g.node.act a).any fun r => !(r.1.peer i).ssState.stConn

/-- Whether the end of peer `i`'s connection keeps the streams apart: nothing was read since the
last end was told, or none waits to be told, or nothing waits to be read. -/
def endsApart (g : WithReads n) (i : Fin n) : Bool :=
  (g.unreported i).isEmpty || !(g.node.peer i).streamTerminalPending.rx ||
    !sPeerRxHasData (g.node.peer i)

/-- Whether there is nothing that a refused connection would have to tell the end of. -/
def nothingToTell (g : WithReads n) (i : Fin n) : Bool :=
  (g.node.peer i).streamTerminalPending.rx ||
    (g.unreported i).isEmpty && !sPeerRxHasData (g.node.peer i)

/-- Whether an action delivers on connections alone, and ends none that would leave octets of
two connections to be read one after the other. -/
def apart (g : WithReads n) : ReadAction n → Bool
  | .node a => decide (∀ i,
      ((g.node.accepted i a).isSome = true → (g.node.peer i).ssState.stConn = true) ∧
        (g.ends a i = true →
          g.endsApart i = true ∧ (g.node.refusal a = true → g.nothingToTell i = true)))
  | _ => true

def Apart (g : WithReads n) (a : ReadAction n) : Prop := g.apart a = true

/-- Whatever may happen. -/
def Anything (_ : WithReads n) (_ : ReadAction n) : Prop := True

def Moves (ok : WithReads n → ReadAction n → Prop) (g g' : WithReads n) : Prop :=
  ∃ a, ok g a ∧ g.next a = some g'

/-! ### The invariant -/

variable {g g' : WithReads n} {i : Fin n} {a : Action n} {nd' : Node n}

/-- All that the calls have read. -/
def taken (g : WithReads n) (i : Fin n) : List Received :=
  allReceived (g.returned i) ++ g.reading i

/-- What can be read comes from the last connection and continues what was read of it, and what
was read of the others is a prefix of what was delivered. -/
structure Counted (g : WithReads n) (i : Fin n) : Prop where
  queue : g.queue i = List.replicate
    ((g.node.peer i).stream.readable g.node.s.framing).length (g.epoch i)
  current : octetsOf (g.epoch i) (g.taken i) ++
    (g.node.peer i).stream.readable g.node.s.framing = g.delivered i (g.epoch i)
  isPrefix : ∀ e, octetsOf e (g.taken i) <+: g.delivered i e
  later : ∀ e, g.epoch i < e → octetsOf e (g.taken i) = [] ∧ g.delivered i e = []

/-- What holds of the readers of one peer. What was read since the last end comes from the last
connection, or it comes from another one, whose end waits to be told and comes first. -/
structure InvAt (g : WithReads n) (i : Fin n) : Prop extends g.Counted i where
  reader : ∀ c ∈ g.reader i, c.Open ∧ (g.origin i).length = c.octets.length
  idle : g.reader i = none → g.origin i = []
  apart : (∀ x ∈ g.unreported i, x.conn = g.epoch i) ∨
    (∃ e, ∀ x ∈ g.unreported i, x.conn = e) ∧ (g.node.peer i).stream.terminal.rx = true ∧
      ((g.node.peer i).stream.conn = false → (g.node.peer i).stream.hasData = false)
  pending : (g.node.peer i).stream.conn = false →
    g.unreported i ≠ [] ∨ (g.node.peer i).stream.hasData = true →
      (g.node.peer i).stream.terminal.rx = true
  clean : ∀ r ∈ g.returned i, r.reportsEnd = true → r.received = []
  separated : Separated (g.returned i)

def Inv (g : WithReads n) : Prop := ∀ i, g.InvAt i

theorem InvAt.one (h : g.InvAt i) : ∃ e, ∀ x ∈ g.unreported i, x.conn = e := by
  rcases h.apart with h | ⟨h, -⟩
  · exact ⟨g.epoch i, h⟩
  · exact h

/-! ### The other threads -/

/-- A step that delivers nothing to peer `i` and begins no connection of it. -/
theorem invAt_quiet (h : g.InvAt i) (hopen : g.node.opensStream i a = false)
    (hacc : g.node.accepted i a = none) (hfr : nd'.s.framing = g.node.s.framing)
    (hreadable : (nd'.peer i).stream.readable g.node.s.framing =
      (g.node.peer i).stream.readable g.node.s.framing)
    (hapart : (∀ x ∈ g.unreported i, x.conn = g.epoch i) ∨
      (∃ e, ∀ x ∈ g.unreported i, x.conn = e) ∧ (nd'.peer i).stream.terminal.rx = true ∧
        ((nd'.peer i).stream.conn = false → (nd'.peer i).stream.hasData = false))
    (hpending : (nd'.peer i).stream.conn = false →
      g.unreported i ≠ [] ∨ (nd'.peer i).stream.hasData = true →
        (nd'.peer i).stream.terminal.rx = true) : (g.observed a nd').InvAt i := by
  have hqueue : (g.observed a nd').queue i = g.queue i := by
    simp only [observed, hopen, hacc, Bool.false_eq_true, if_false]
  have hepoch : (g.observed a nd').epoch i = g.epoch i := by
    simp only [observed, hopen, Bool.false_eq_true, if_false]
  have hdelivered : (g.observed a nd').delivered i = g.delivered i := by
    simp only [observed, hacc]
  have hread : ((g.observed a nd').node.peer i).stream.readable (g.observed a nd').node.s.framing =
      (g.node.peer i).stream.readable g.node.s.framing := by
    change (nd'.peer i).stream.readable nd'.s.framing = _
    rw [hfr, hreadable]
  exact
    { queue := by rw [hqueue, hepoch, hread, h.queue]
      reader := h.reader
      idle := h.idle
      apart := by
        rw [hepoch]
        exact hapart
      pending := hpending
      current := by
        rw [hepoch, hread, hdelivered]
        exact h.current
      isPrefix := by
        rw [hdelivered]
        exact h.isPrefix
      later := by
        rw [hepoch, hdelivered]
        exact h.later
      clean := h.clean
      separated := h.separated }

/-- A step after which the stream looks the same to a reader. -/
theorem invAt_same (h : g.InvAt i) (hopen : g.node.opensStream i a = false)
    (hacc : g.node.accepted i a = none) (hfr : nd'.s.framing = g.node.s.framing)
    (hconn : (nd'.peer i).stream.conn = (g.node.peer i).stream.conn)
    (hrx : (nd'.peer i).stream.terminal.rx = (g.node.peer i).stream.terminal.rx)
    (hrecept : (nd'.peer i).stream.recept = (g.node.peer i).stream.recept)
    (hpart : (nd'.peer i).stream.partialFrame = (g.node.peer i).stream.partialFrame)
    (hoffset : (nd'.peer i).stream.partialOffset = (g.node.peer i).stream.partialOffset) :
    (g.observed a nd').InvAt i := by
  have hdata : (nd'.peer i).stream.hasData = (g.node.peer i).stream.hasData := by
    rw [Stream.hasData, hpart, hrecept]
    rfl
  refine invAt_quiet h hopen hacc hfr ?_ ?_ ?_
  · rw [Stream.readable, hpart, hoffset, hrecept]
    rfl
  · rw [hrx, hconn, hdata]
    exact h.apart
  · rw [hrx, hconn, hdata]
    exact h.pending

/-- A frame is delivered on a connection. -/
theorem invAt_delivers {fp : Frame} (h : g.InvAt i) (hopen : g.node.opensStream i a = false)
    (hacc : g.node.accepted i a = some fp) (hfr : nd'.s.framing = g.node.s.framing)
    (hconn : (g.node.peer i).stream.conn = true)
    (hs : (nd'.peer i).stream = (g.node.peer i).stream.deliver fp) :
    (g.observed a nd').InvAt i := by
  have hqueue : (g.observed a nd').queue i =
      g.queue i ++ List.replicate (fp.payload g.node.s.framing).length (g.epoch i) := by
    simp only [observed, hopen, hacc, Bool.false_eq_true, if_false]
  have hepoch : (g.observed a nd').epoch i = g.epoch i := by
    simp only [observed, hopen, Bool.false_eq_true, if_false]
  have hdelivered : (g.observed a nd').delivered i = Function.update (g.delivered i) (g.epoch i)
      (g.delivered i (g.epoch i) ++ fp.payload g.node.s.framing) := by
    simp only [observed, hacc]
  have hread : ((g.observed a nd').node.peer i).stream.readable (g.observed a nd').node.s.framing =
      (g.node.peer i).stream.readable g.node.s.framing ++ fp.payload g.node.s.framing := by
    change (nd'.peer i).stream.readable nd'.s.framing = _
    rw [hfr, hs, Stream.readable, Stream.deliver, List.flatMap_append, List.flatMap_singleton,
      ← List.append_assoc]
    rfl
  have hconn' : (nd'.peer i).stream.conn = true := by
    rw [hs]
    exact hconn
  have hgrows (e : Nat) : g.delivered i e <+: (g.observed a nd').delivered i e := by
    rw [hdelivered]
    by_cases he : e = g.epoch i
    · subst he
      rw [Function.update_self]
      exact List.prefix_append _ _
    · rw [Function.update_of_ne he]
  exact
    { queue := by
        rw [hqueue, hepoch, hread, h.queue, List.length_append, List.replicate_add]
      reader := h.reader
      idle := h.idle
      apart := by
        rw [hepoch]
        refine h.apart.imp_right fun hone => ⟨hone.1, ?_, fun hdisc => ?_⟩
        · change (nd'.peer i).stream.terminal.rx = true
          rw [hs]
          exact hone.2.1
        · exact absurd (hconn'.symm.trans hdisc) (by simp)
      pending := fun hdisc => absurd (hconn'.symm.trans hdisc) (by simp)
      current := by
        rw [hepoch, hread, hdelivered, Function.update_self, ← List.append_assoc]
        exact congrArg (· ++ fp.payload g.node.s.framing) h.current
      isPrefix := fun e => (h.isPrefix e).trans (hgrows e)
      later := by
        rw [hepoch, hdelivered]
        intro e he
        rw [Function.update_of_ne (Nat.ne_of_gt he)]
        exact h.later e he
      clean := h.clean
      separated := h.separated }

/-- A connection begins; what was not read of the last one is gone. -/
theorem invAt_reopens (h : g.InvAt i) (hopen : g.node.opensStream i a = true)
    (hacc : g.node.accepted i a = none)
    (hs : (nd'.peer i).stream = (g.node.peer i).stream.reopen) : (g.observed a nd').InvAt i := by
  have hqueue : (g.observed a nd').queue i = [] := by
    simp only [observed, hopen, if_true]
  have hepoch : (g.observed a nd').epoch i = g.epoch i + 1 := by
    simp only [observed, hopen, if_true]
  have hdelivered : (g.observed a nd').delivered i = g.delivered i := by
    simp only [observed, hacc]
  have hread (fr : Framing) : (nd'.peer i).stream.readable fr = [] := by
    rw [hs]
    rfl
  have hconn : (nd'.peer i).stream.conn = true := by
    rw [hs]
    rfl
  obtain ⟨hnone, hdelivered'⟩ := h.later (g.epoch i + 1) (Nat.lt_succ_self _)
  exact
    { queue := by
        rw [hqueue]
        change [] = List.replicate ((nd'.peer i).stream.readable nd'.s.framing).length _
        rw [hread]
        rfl
      reader := h.reader
      idle := h.idle
      apart := by
        -- what was read before is told about first
        by_cases hempty : g.unreported i = []
        · refine .inl fun x hx => ?_
          change x ∈ g.unreported i at hx
          rw [hempty] at hx
          cases hx
        · refine .inr ⟨h.one, ?_, fun hdisc => absurd (hconn.symm.trans hdisc) nofun⟩
          change (nd'.peer i).stream.terminal.rx = true
          rw [hs]
          change (_ || (_ || (g.node.peer i).stream.conn)) = true
          cases hold : (g.node.peer i).stream.conn with
          | true => rw [Bool.or_true, Bool.or_true]
          | false =>
            rw [Bool.or_false]
            exact h.pending hold (.inl hempty)
      pending := fun hdisc => absurd (hconn.symm.trans hdisc) nofun
      current := by
        change octetsOf _ (g.taken i) ++ (nd'.peer i).stream.readable nd'.s.framing = _
        rw [hepoch, hdelivered, hread, hnone, hdelivered']
        rfl
      isPrefix := by
        rw [hdelivered]
        exact h.isPrefix
      later := by
        rw [hepoch, hdelivered]
        exact fun e he => h.later e (Nat.lt_of_succ_lt he)
      clean := h.clean
      separated := h.separated }

/-- A connection ends, and leaves the streams apart. -/
theorem invAt_ends {term : TermBits} (h : g.InvAt i) (hopen : g.node.opensStream i a = false)
    (hacc : g.node.accepted i a = none) (hfr : nd'.s.framing = g.node.s.framing)
    (hs : (nd'.peer i).stream = (g.node.peer i).stream.disconnect term)
    (hends : (g.node.peer i).stream.conn = true → g.endsApart i = true ∧
      (term = .neutral → g.nothingToTell i = true)) : (g.observed a nd').InvAt i := by
  have hrx : (nd'.peer i).stream.terminal.rx = ((g.node.peer i).stream.terminal.rx ||
      (g.node.peer i).stream.conn && decide (term ≠ .neutral)) := by
    rw [hs]
    cases term <;> simp [Stream.disconnect, StreamTerminal.rx, Bool.or_comm, Bool.or_left_comm]
  have hdata : (nd'.peer i).stream.hasData = (g.node.peer i).stream.hasData := by
    rw [hs]
    rfl
  cases hconn : (g.node.peer i).stream.conn with
  | false =>
    rw [hconn, Bool.false_and, Bool.or_false] at hrx
    refine invAt_same h hopen hacc hfr ?_ hrx ?_ ?_ ?_
    all_goals rw [hs]
    · exact hconn.symm
    all_goals rfl
  | true =>
    obtain ⟨hapart, htell⟩ := hends hconn
    rw [hconn, Bool.true_and] at hrx
    have hread : (nd'.peer i).stream.readable g.node.s.framing =
        (g.node.peer i).stream.readable g.node.s.framing := by
      rw [hs]
      rfl
    refine invAt_quiet h hopen hacc hfr hread ?_ fun _ hsome => ?_
    · rcases h.apart with hcurrent | ⟨hone, hpending, -⟩
      · exact .inl hcurrent
      · rw [endsApart, Bool.or_eq_true, Bool.or_eq_true, List.isEmpty_iff, Bool.not_eq_true',
          Bool.not_eq_true'] at hapart
        rcases hapart with (hempty | hno) | hno
        · rw [hempty]
          exact .inl nofun
        · exact absurd (hpending.symm.trans hno) nofun
        · refine .inr ⟨hone, ?_, fun _ => hdata.trans hno⟩
          rw [hrx, hpending, Bool.true_or]
    · rw [hrx, Bool.or_eq_true]
      by_cases hneutral : term = .neutral
      · have htold := htell hneutral
        rw [nothingToTell, Bool.or_eq_true, Bool.and_eq_true, List.isEmpty_iff,
          Bool.not_eq_true'] at htold
        refine htold.imp_right fun ⟨hempty, hno⟩ => ?_
        rcases hsome with hne | hyes
        · exact absurd hempty hne
        · exact absurd (hno.symm.trans (hdata.symm.trans hyes)) nofun
      · exact .inr (decide_eq_true hneutral)

/-- Another thread takes a step. -/
theorem inv_observed {sent : List Frame} (h : g.Inv) (hok : g.apart (.node a) = true)
    (ha : a.isReader = false) (hact : g.node.act a = some (nd', sent)) :
    (g.observed a nd').Inv := by
  intro i
  obtain ⟨hdeliver, hends⟩ := of_decide_eq_true hok i
  have hfr : nd'.s.framing = g.node.s.framing := (Node.act_staysReady hact).framing
  cases Node.act_stream hact i with
  | same hopen hacc hs =>
    refine invAt_same (h i) hopen hacc hfr ?_ ?_ ?_ ?_ ?_
    all_goals rw [hs]
  | delivers fp hopen hacc hs =>
    exact invAt_delivers (h i) hopen hacc hfr (hdeliver (by rw [hacc]; rfl)) hs
  | reopens hopen hacc hs => exact invAt_reopens (h i) hopen hacc hs
  | ends term hopen hacc hterm hs =>
    refine invAt_ends (h i) hopen hacc hfr hs fun hconn => ?_
    have hdown : (nd'.peer i).ssState.stConn = false := congrArg Stream.conn hs
    have hend : g.ends a i = true := by
      rw [ends, show (g.node.peer i).ssState.stConn = true from hconn, hact]
      change (true && !(nd'.peer i).ssState.stConn) = true
      rw [hdown]
      rfl
    obtain ⟨hapart, htell⟩ := hends hend
    exact ⟨hapart, fun hneutral => htell (hterm hneutral).2⟩
  | requests hopen hacc hs =>
    refine invAt_same (h i) hopen hacc hfr ?_ ?_ ?_ ?_ ?_
    all_goals rw [hs]; rfl
  | call op ha' hs =>
    subst ha'
    cases op with
    | read => cases ha
    | writeBegin octets =>
      rw [PeerOp.onStream] at hs
      refine invAt_same (h i) rfl rfl hfr ?_ ?_ ?_ ?_ ?_
      all_goals rw [hs]; split <;> rfl
    | _ =>
      refine invAt_same (h i) rfl rfl hfr ?_ ?_ ?_ ?_ ?_
      all_goals rw [hs]; rfl

/-! ### The sections of a call -/

/-- What two states have in common for the readers of peer `i`. -/
structure SameAt (g g' : WithReads n) (i : Fin n) : Prop where
  peer : g'.node.peer i = g.node.peer i
  framing : g'.node.s.framing = g.node.s.framing
  reader : g'.reader i = g.reader i
  origin : g'.origin i = g.origin i
  queue : g'.queue i = g.queue i
  epoch : g'.epoch i = g.epoch i
  delivered : g'.delivered i = g.delivered i
  returned : g'.returned i = g.returned i

theorem InvAt.same (h : g.InvAt i) (hs : g.SameAt g' i) : g'.InvAt i := by
  have hreading : g'.reading i = g.reading i := by
    rw [reading, hs.reader, hs.origin]
    rfl
  have hunreported : g'.unreported i = g.unreported i := by
    rw [unreported, hs.returned, hreading]
    rfl
  have htaken : g'.taken i = g.taken i := by
    rw [taken, hs.returned, hreading]
    rfl
  exact
    { queue := by rw [hs.queue, hs.peer, hs.framing, hs.epoch, h.queue]
      reader := by
        rw [hs.reader, hs.origin]
        exact h.reader
      idle := by
        rw [hs.reader, hs.origin]
        exact h.idle
      apart := by
        rw [hunreported, hs.epoch, hs.peer]
        exact h.apart
      pending := by
        rw [hunreported, hs.peer]
        exact h.pending
      current := by rw [htaken, hs.epoch, hs.peer, hs.framing, hs.delivered, h.current]
      isPrefix := by
        rw [htaken, hs.delivered]
        exact h.isPrefix
      later := by
        rw [htaken, hs.delivered, hs.epoch]
        exact h.later
      clean := by
        rw [hs.returned]
        exact h.clean
      separated := by
        rw [hs.returned]
        exact h.separated }

theorem sameAt_reads {c : ReadCall} {r : ReadStep} {j : Fin n} (hj : j ≠ i)
    (hfr : r.link.s.framing = g.node.s.framing) : g.SameAt (g.reads i c r) j :=
  { peer := Node.setLink_peer_of_ne g.node r.link hj
    framing := hfr
    reader := Function.update_of_ne hj _ _
    origin := Function.update_of_ne hj _ _
    queue := Function.update_of_ne hj _ _
    epoch := rfl
    delivered := rfl
    returned := Function.update_of_ne hj _ _ }

theorem hasData_of_readable {s : Stream} {fr : Framing} (h : s.readable fr ≠ []) :
    s.hasData = true := by
  by_contra hno
  rw [Stream.hasData, Bool.or_eq_true, not_or, Bool.not_eq_true, Bool.not_eq_true,
    Option.isSome_eq_false_iff, Option.isNone_iff_eq_none, Bool.not_eq_false',
    List.isEmpty_iff] at hno
  apply h
  rw [Stream.readable, hno.1, hno.2]
  rfl

/-- Octets are read only of the connection of all that was read since the last end. -/
theorem apart_of_reads {c : ReadCall} {r : ReadStep} {octets : List UInt8} (h : g.InvAt i)
    (hr : Reads (g.node.link i) c r) (hoctets : r.call.octets = c.octets ++ octets)
    (hread : (g.node.peer i).stream.readable g.node.s.framing =
      octets ++ r.link.p.stream.readable g.node.s.framing) :
    (∀ x ∈ g.unreported i ++ octets.map (Received.mk (g.epoch i)), x.conn = g.epoch i) ∨
      octets = [] ∧ (∃ e, ∀ x ∈ g.unreported i, x.conn = e) ∧
        (g.node.peer i).stream.terminal.rx = true ∧
        ((g.node.peer i).stream.conn = false → (g.node.peer i).stream.hasData = false) := by
  rcases h.apart with hcurrent | ⟨hone, hrx, hdisc⟩
  · refine .inl fun x hx => ?_
    rcases List.mem_append.mp hx with hx | hx
    · exact hcurrent x hx
    · obtain ⟨o, -, rfl⟩ := List.mem_map.mp hx
      rfl
  · refine .inr ⟨?_, hone, hrx, hdisc⟩
    by_contra hsome
    cases hconn : (g.node.peer i).stream.conn with
    | true =>
      -- the terminal comes before the data
      have hlive : (g.node.peer i).isDisc = false := congrArg Bool.not hconn
      have hblocked := hr.blocked hlive hrx
      rw [hoctets, List.append_right_eq_self] at hblocked
      exact hsome hblocked
    | false =>
      have hdata : (g.node.peer i).stream.hasData = true := by
        refine @hasData_of_readable _ g.node.s.framing ?_
        rw [hread]
        exact fun hnil => hsome (List.append_eq_nil_iff.mp hnil).1
      exact Bool.false_ne_true ((hdisc hconn).symm.trans hdata)

/-- The marks of octets that all come from one connection. -/
theorem zipWith_marks (e : Nat) (octets : List UInt8) :
    (List.replicate octets.length e).zipWith Received.mk octets =
      octets.map (Received.mk e) := by
  induction octets with
  | nil => rfl
  | cons o octets ih =>
    rw [List.length_cons, List.replicate_succ, List.zipWith_cons_cons, ih, List.map_cons]

/-- The marks of a call behind a section. -/
theorem marks_reads {c : ReadCall} {r : ReadStep} {octets : List UInt8} (h : g.Counted i)
    (horigin : (g.origin i).length = c.octets.length)
    (hoctets : r.call.octets = c.octets ++ octets)
    (hread : (g.node.peer i).stream.readable g.node.s.framing =
      octets ++ r.link.p.stream.readable g.node.s.framing) :
    g.origin i ++ (g.queue i).take (r.call.totalRead - c.totalRead) =
        g.origin i ++ List.replicate octets.length (g.epoch i) ∧
      (g.origin i ++ List.replicate octets.length (g.epoch i)).zipWith Received.mk r.call.octets =
        (g.origin i).zipWith Received.mk c.octets ++ octets.map (Received.mk (g.epoch i)) ∧
      (g.queue i).drop (r.call.totalRead - c.totalRead) =
        List.replicate (r.link.p.stream.readable g.node.s.framing).length (g.epoch i) := by
  have htaken : r.call.totalRead - c.totalRead = octets.length := by
    rw [ReadCall.totalRead, ReadCall.totalRead, hoctets, List.length_append]
    omega
  have hqueue : g.queue i = List.replicate octets.length (g.epoch i) ++
      List.replicate (r.link.p.stream.readable g.node.s.framing).length (g.epoch i) := by
    rw [h.queue, hread, List.length_append, List.replicate_add]
  have hlen : (List.replicate octets.length (g.epoch i)).length = octets.length :=
    List.length_replicate
  rw [htaken, hqueue, hoctets, List.zipWith_append horigin, zipWith_marks]
  exact ⟨by rw [List.take_left' hlen], rfl, List.drop_left' hlen⟩

/-- What a section reads continues what was read of the last connection. -/
theorem counted_reads {c : ReadCall} {r : ReadStep} {octets : List UInt8} (h : g.Counted i)
    (hfr : r.link.s.framing = g.node.s.framing)
    (hqueue : (g.reads i c r).queue i =
      List.replicate (r.link.p.stream.readable g.node.s.framing).length (g.epoch i))
    (hread : (g.node.peer i).stream.readable g.node.s.framing =
      octets ++ r.link.p.stream.readable g.node.s.framing)
    (htaken : (g.reads i c r).taken i = g.taken i ++ octets.map (Received.mk (g.epoch i))) :
    (g.reads i c r).Counted i := by
  have hpeer : (g.reads i c r).node.peer i = r.link.p := Node.setLink_peer_self ..
  have hepoch : (g.reads i c r).epoch i = g.epoch i := rfl
  have hfr' : (g.reads i c r).node.s.framing = g.node.s.framing := hfr
  have hcurrent : octetsOf (g.epoch i) ((g.reads i c r).taken i) =
      octetsOf (g.epoch i) (g.taken i) ++ octets := by
    rw [htaken, octetsOf_append, octetsOf_map]
  have hother (e : Nat) (he : e ≠ g.epoch i) :
      octetsOf e ((g.reads i c r).taken i) = octetsOf e (g.taken i) := by
    rw [htaken, octetsOf_append, octetsOf_map_of_ne (Ne.symm he), List.append_nil]
  have hall := h.current
  rw [hread, ← List.append_assoc, ← hcurrent] at hall
  refine ⟨?_, ?_, fun e => ?_, fun e he => ?_⟩
  · rw [hqueue, hpeer, hfr', hepoch]
  · rw [hpeer, hfr', hepoch]
    exact hall
  · by_cases he : e = g.epoch i
    · subst he
      exact ⟨_, hall⟩
    · rw [hother e he]
      exact h.isPrefix e
  · rw [hother e (Nat.ne_of_gt he)]
    exact h.later e he

/-- What was read since the last end, while no end is told. -/
theorem order_reads {c : ReadCall} {r : ReadStep} {octets : List UInt8} (h : g.InvAt i)
    (hr : Reads (g.node.link i) c r) (hoctets : r.call.octets = c.octets ++ octets)
    (hread : (g.node.peer i).stream.readable g.node.s.framing =
      octets ++ r.link.p.stream.readable g.node.s.framing)
    (hrx : r.link.p.stream.terminal.rx = (g.node.peer i).stream.terminal.rx)
    {xs : List Received}
    (hxs : ∀ x ∈ xs, x ∈ g.unreported i ++ octets.map (Received.mk (g.epoch i))) :
    ((∀ x ∈ xs, x.conn = g.epoch i) ∨
      (∃ e, ∀ x ∈ xs, x.conn = e) ∧ r.link.p.stream.terminal.rx = true ∧
        (r.link.p.stream.conn = false → r.link.p.stream.hasData = false)) ∧
      (r.link.p.stream.conn = false → xs ≠ [] ∨ r.link.p.stream.hasData = true →
        r.link.p.stream.terminal.rx = true) := by
  have hconn : r.link.p.stream.conn = (g.node.peer i).stream.conn := Bool.not_inj hr.conn
  have hdata : r.link.p.stream.hasData = true → (g.node.peer i).stream.hasData = true := hr.data
  rw [hrx, hconn]
  constructor
  · rcases apart_of_reads h hr hoctets hread with hcurrent | ⟨hnil, ⟨e, he⟩, hpending, hdisc⟩
    · exact .inl fun x hx => hcurrent x (hxs x hx)
    · rw [hnil, List.map_nil, List.append_nil] at hxs
      refine .inr ⟨⟨e, fun x hx => he x (hxs x hx)⟩, hpending, fun hdown => ?_⟩
      exact Bool.eq_false_iff.mpr fun hyes => absurd ((hdisc hdown).symm.trans (hdata hyes)) nofun
  · intro hdown hsome
    refine h.pending hdown ?_
    rcases hsome with hsome | hyes
    · obtain ⟨x, hx⟩ := List.exists_mem_of_ne_nil xs hsome
      rcases List.mem_append.mp (hxs x hx) with hx | hx
      · exact .inl (List.ne_nil_of_mem hx)
      · refine .inr (@hasData_of_readable _ g.node.s.framing ?_)
        obtain ⟨o, ho, -⟩ := List.mem_map.mp hx
        rw [hread]
        exact List.ne_nil_of_mem (List.mem_append_left _ ho)
    · exact .inr (hdata hyes)

/-- The reader waits for more. -/
theorem invAt_waits {c : ReadCall} {r : ReadStep} (h : g.InvAt i)
    (horigin : (g.origin i).length = c.octets.length)
    (hreading : g.reading i = (g.origin i).zipWith Received.mk c.octets)
    (hr : Reads (g.node.link i) c r) (hnext : r.next = .waits)
    (hopen : r.call.totalRead < r.call.total)
    (hrx : r.link.p.stream.terminal.rx = (g.node.peer i).stream.terminal.rx) :
    (g.reads i c r).InvAt i := by
  obtain ⟨octets, hoctets, hread⟩ := hr.octets
  change (g.node.peer i).stream.readable g.node.s.framing =
    octets ++ r.link.p.stream.readable g.node.s.framing at hread
  obtain ⟨horigin', hmarks, hdrop⟩ := marks_reads h.toCounted horigin hoctets hread
  rw [← hreading] at hmarks
  have hreader : (g.reads i c r).reader i = some r.call := by
    rw [reads, hnext]
    exact Function.update_self ..
  have horigin₁ : (g.reads i c r).origin i =
      g.origin i ++ List.replicate octets.length (g.epoch i) := by
    rw [reads, hnext]
    exact (Function.update_self ..).trans horigin'
  have hreturned : (g.reads i c r).returned i = g.returned i := by
    rw [reads, hnext]
    exact Function.update_self ..
  have hpeer : (g.reads i c r).node.peer i = r.link.p := Node.setLink_peer_self ..
  have hreading₁ : (g.reads i c r).reading i =
      g.reading i ++ octets.map (Received.mk (g.epoch i)) := by
    rw [reading, hreader, horigin₁]
    exact hmarks
  have hunreported : (g.reads i c r).unreported i =
      g.unreported i ++ octets.map (Received.mk (g.epoch i)) := by
    rw [unreported, hreturned, hreading₁, ← List.append_assoc]
    rfl
  have hcounted : (g.reads i c r).Counted i := counted_reads h.toCounted hr.framing
    ((Function.update_self ..).trans hdrop) hread (by
      rw [taken, hreturned, hreading₁, ← List.append_assoc]
      rfl)
  have hall : ∀ x ∈ g.unreported i ++ octets.map (Received.mk (g.epoch i)),
      x ∈ g.unreported i ++ octets.map (Received.mk (g.epoch i)) := fun _ hx => hx
  obtain ⟨hapart, hpending⟩ := order_reads h hr hoctets hread hrx hall
  exact
    { toCounted := hcounted
      reader := by
        rw [hreader, horigin₁, List.length_append, List.length_replicate, horigin]
        rintro c' ⟨⟩
        exact ⟨⟨hr.packed, hopen⟩, by rw [hoctets, List.length_append]⟩
      idle := by
        rw [hreader]
        nofun
      apart := by
        rw [hunreported, hpeer]
        exact hapart
      pending := by
        rw [hunreported, hpeer]
        exact hpending
      clean := by
        rw [hreturned]
        exact h.clean
      separated := by
        rw [hreturned]
        exact h.separated }

/-- A call that returns tells an end, or leaves the pending terminal alone. -/
theorem returns_reports {l : Link} {c : ReadCall} {r : ReadStep} {result : Except Errno Unit}
    {origin : List Nat} (hc : c.Open) (hr : Reads l c r) (hnext : r.next = .returns result) :
    let rr : ReadReturn := { call := r.call, origin := origin, result := result }
    (rr.reportsEnd = false ∧
        r.link.p.streamTerminalPending.rx = l.p.streamTerminalPending.rx) ∨
      (rr.reportsEnd = true ∧ rr.received = [] ∧ r.link.p.streamTerminalPending.rx = false ∧
        (l.p.isDisc = true → sPeerRxHasData r.link.p = false)) := by
  have htotal : r.call.total ≠ 0 := by
    have hroom := hc.room
    rw [hr.total]
    omega
  cases hr.outcome with
  | waits hnext' hopen hrx => exact absurd (hnext'.symm.trans hnext) nofun
  | data hnext' hdata hrx =>
    cases hnext'.symm.trans hnext
    refine .inl ⟨?_, hrx⟩
    rw [ReadReturn.reportsEnd, List.isEmpty_eq_false_iff.mpr hdata, Bool.false_and]
  | report result' hnext' hresult hnone hrx hdata =>
    cases hnext'.symm.trans hnext
    refine .inr ⟨?_, ?_, hrx, hdata⟩
    · rcases hresult with rfl | rfl
      · simp only [ReadReturn.reportsEnd]
        rw [hnone, List.isEmpty_nil, Bool.true_and, decide_eq_true htotal]
      · rfl
    · rw [ReadReturn.received, hnone, List.zipWith_nil_right]
  | fails e hnext' he hrx =>
    cases hnext'.symm.trans hnext
    exact .inl ⟨decide_eq_false he, hrx⟩

/-- The call returns. -/
theorem invAt_returns {c : ReadCall} {r : ReadStep} {result : Except Errno Unit} (h : g.InvAt i)
    (hc : c.Open) (horigin : (g.origin i).length = c.octets.length)
    (hreading : g.reading i = (g.origin i).zipWith Received.mk c.octets)
    (hr : Reads (g.node.link i) c r) (hnext : r.next = .returns result) :
    (g.reads i c r).InvAt i := by
  obtain ⟨octets, hoctets, hread⟩ := hr.octets
  change (g.node.peer i).stream.readable g.node.s.framing =
    octets ++ r.link.p.stream.readable g.node.s.framing at hread
  obtain ⟨horigin', hmarks, hdrop⟩ := marks_reads h.toCounted horigin hoctets hread
  rw [← hreading] at hmarks
  obtain ⟨rr, hrr⟩ : ∃ rr : ReadReturn, rr =
    { call := r.call
      origin := g.origin i ++ List.replicate octets.length (g.epoch i)
      result := result } := ⟨_, rfl⟩
  have hreceived : rr.received = g.reading i ++ octets.map (Received.mk (g.epoch i)) := by
    rw [hrr]
    exact hmarks
  have hreader : (g.reads i c r).reader i = none := by
    rw [reads, hnext]
    exact Function.update_self ..
  have horigin₁ : (g.reads i c r).origin i = [] := by
    rw [reads, hnext]
    exact Function.update_self ..
  have hreturned : (g.reads i c r).returned i = rr :: g.returned i := by
    rw [reads, hnext, hrr, ← horigin']
    exact Function.update_self ..
  have hpeer : (g.reads i c r).node.peer i = r.link.p := Node.setLink_peer_self ..
  have hreading₁ : (g.reads i c r).reading i = [] := by
    rw [reading, hreader]
  have hunreported : (g.reads i c r).unreported i = sinceEnd (rr :: g.returned i) := by
    rw [unreported, hreturned, hreading₁, List.append_nil]
  have hcounted : (g.reads i c r).Counted i := counted_reads h.toCounted hr.framing
    ((Function.update_self ..).trans hdrop) hread (by
      rw [taken, hreturned, hreading₁, allReceived_cons, hreceived, List.append_nil,
        ← List.append_assoc]
      rfl)
  have hall : ∀ x ∈ sinceEnd (g.returned i) ++ rr.received,
      x ∈ g.unreported i ++ octets.map (Received.mk (g.epoch i)) := by
    rw [hreceived, ← List.append_assoc]
    exact fun x hx => hx
  have hreport := @returns_reports _ _ _ _ rr.origin hc hr hnext
  rw [show ({ call := r.call, origin := rr.origin, result := result } : ReadReturn) = rr by
    rw [hrr]] at hreport
  have hseparated : Separated (rr :: g.returned i) := by
    refine h.separated.cons h.clean ?_
    rcases apart_of_reads h hr hoctets hread with hcurrent | ⟨hnil, ⟨e, he⟩, -⟩
    · exact ⟨g.epoch i, fun x hx => hcurrent x (hall x hx)⟩
    · rw [hnil, List.map_nil, List.append_nil] at hall
      exact ⟨e, fun x hx => he x (hall x hx)⟩
  have horder : ((∀ x ∈ sinceEnd (rr :: g.returned i), x.conn = g.epoch i) ∨
      (∃ e, ∀ x ∈ sinceEnd (rr :: g.returned i), x.conn = e) ∧
        r.link.p.stream.terminal.rx = true ∧
        (r.link.p.stream.conn = false → r.link.p.stream.hasData = false)) ∧
      (r.link.p.stream.conn = false →
        sinceEnd (rr :: g.returned i) ≠ [] ∨ r.link.p.stream.hasData = true →
          r.link.p.stream.terminal.rx = true) := by
    rcases hreport with ⟨hno, hrx⟩ | ⟨hyes, hnone, hrx, hdata⟩
    · refine order_reads h hr hoctets hread hrx fun x hx => ?_
      rw [sinceEnd_cons hno] at hx
      exact hall x (List.mem_append.mpr (List.mem_append.mp hx).symm)
    · rw [sinceEnd_report hyes]
      refine ⟨.inl nofun, fun hdown hsome => ?_⟩
      have hempty : r.link.p.stream.hasData = false := by
        refine hdata ?_
        rw [← hr.conn]
        exact congrArg Bool.not hdown
      rcases hsome with hsome | hsome
      · exact absurd rfl hsome
      · exact absurd (hempty.symm.trans hsome) nofun
  have hclean : ∀ r' ∈ rr :: g.returned i, r'.reportsEnd = true → r'.received = [] := by
    intro r' hr' hyes
    rcases List.mem_cons.mp hr' with rfl | hr'
    · rcases hreport with ⟨hno, -⟩ | ⟨-, hnone, -⟩
      · exact absurd (hno.symm.trans hyes) nofun
      · exact hnone
    · exact h.clean r' hr' hyes
  exact
    { toCounted := hcounted
      reader := by
        rw [hreader]
        nofun
      idle := fun _ => horigin₁
      apart := by
        rw [hunreported, hpeer]
        exact horder.1
      pending := by
        rw [hunreported, hpeer]
        exact horder.2
      clean := by
        rw [hreturned]
        exact hclean
      separated := by
        rw [hreturned]
        exact hseparated }

theorem inv_reads {c : ReadCall} {r : ReadStep} (h : g.Inv) (hc : c.Open)
    (horigin : (g.origin i).length = c.octets.length)
    (hreading : g.reading i = (g.origin i).zipWith Received.mk c.octets)
    (hr : Reads (g.node.link i) c r) : (g.reads i c r).Inv := by
  intro j
  by_cases hj : j = i
  · subst hj
    cases hnext : r.next with
    | waits =>
      cases hr.outcome with
      | waits hnext' hopen hrx => exact invAt_waits (h j) horigin hreading hr hnext hopen hrx
      | data hnext' => exact absurd (hnext.symm.trans hnext') nofun
      | report result hnext' => exact absurd (hnext.symm.trans hnext') nofun
      | fails e hnext' => exact absurd (hnext.symm.trans hnext') nofun
    | returns result => exact invAt_returns (h j) hc horigin hreading hr hnext
  · exact (h j).same (sameAt_reads hj hr.framing)

/-! ### Runs -/

theorem inv_init (h : g.Fresh) : g.Inv := by
  obtain ⟨mode, flags, fr, fcs, rej, reply, poll, addr, hmode, hs⟩ := h.node.station
  intro i
  obtain ⟨framesize, retryMax, paddr, hp⟩ := h.node.peer i
  have hread : (g.node.peer i).stream.readable g.node.s.framing = [] := by
    rw [hp]
    rfl
  have hreading : g.reading i = [] := by
    rw [reading, h.reader]
  have htaken : g.taken i = [] := by
    rw [taken, hreading, h.returned]
    rfl
  have hunreported : g.unreported i = [] := by
    rw [unreported, hreading, h.returned]
    rfl
  exact
    { queue := by
        rw [hread, h.queue]
        rfl
      current := by
        rw [htaken, hread, h.delivered]
        rfl
      isPrefix := fun e => by
        rw [htaken]
        exact List.nil_prefix
      later := fun e _ => by
        rw [htaken, h.delivered]
        exact ⟨rfl, rfl⟩
      reader := by
        rw [h.reader]
        nofun
      idle := fun _ => h.origin i
      apart := by
        rw [hunreported]
        exact .inl nofun
      pending := fun _ hsome => by
        rw [hunreported, hp] at hsome
        rcases hsome with hsome | hsome
        · exact absurd rfl hsome
        · cases hsome
      clean := by
        rw [h.returned]
        nofun
      separated := by
        rw [h.returned]
        exact ⟨nofun, fun later r₂ between r₁ earlier hlog => by cases later <;> cases hlog⟩ }

theorem inv_rejects {iov : List Nat} {result : Except Errno Unit} (h : g.Inv)
    (hno : ({ call := .empty iov, origin := [], result := result } : ReadReturn).reportsEnd =
      false) : (g.rejects i iov result).Inv := by
  intro j
  by_cases hj : j = i
  · subst hj
    obtain ⟨hcounted, hreader, hidle, hapart, hpending, hclean, hseparated⟩ := h j
    have hreturned : (g.rejects j iov result).returned j =
      { call := .empty iov, origin := [], result := result } :: g.returned j :=
        Function.update_self ..
    have htaken : (g.rejects j iov result).taken j = g.taken j := by
      rw [taken, hreturned, allReceived_cons]
      exact congrArg (· ++ g.reading j) (List.append_nil _)
    have hunreported : (g.rejects j iov result).unreported j = g.unreported j := by
      rw [unreported, hreturned, sinceEnd_cons hno]
      rfl
    rw [← hunreported] at hapart hpending
    refine ⟨⟨hcounted.queue, ?_, ?_, ?_⟩, hreader, hidle, hapart, hpending, ?_, ?_⟩
    · rw [htaken]
      exact hcounted.current
    · rw [htaken]
      exact hcounted.isPrefix
    · rw [htaken]
      exact hcounted.later
    · rw [hreturned]
      intro r hr hyes
      rcases List.mem_cons.mp hr with rfl | hr
      · exact absurd (hno.symm.trans hyes) nofun
      · exact hclean r hr hyes
    · rw [hreturned]
      refine hseparated.cons hclean ?_
      obtain ⟨e, he⟩ := (h j).one
      refine ⟨e, fun x hx => he x (List.mem_append_left _ ?_)⟩
      rwa [show ReadReturn.received { call := .empty iov, origin := [], result := result } = []
        from rfl, List.append_nil] at hx
  · exact (h j).same ⟨rfl, rfl, rfl, rfl, rfl, rfl, rfl, Function.update_of_ne hj _ _⟩

theorem total_empty (iov : List Nat) : (ReadCall.empty iov).total = iov.sum := by
  rw [ReadCall.total, ReadCall.empty, List.map_map]
  exact congrArg List.sum (List.map_id _)

/-- A call begins with empty vectors. -/
theorem open_empty {iov : List Nat} (h : iov.sum ≠ 0) :
    (ReadCall.empty iov).Open ∧ (ReadCall.empty iov).octets = [] := by
  have hbase (iov : List Nat) : Packed (ReadCall.empty iov).iov ∧
      (ReadCall.empty iov).octets = [] := by
    induction iov with
    | nil => exact ⟨trivial, rfl⟩
    | cons len iov ih => exact ⟨⟨Nat.zero_le _, fun _ => ih.2, ih.1⟩, ih.2⟩
  refine ⟨⟨(hbase iov).1, ?_⟩, (hbase iov).2⟩
  rw [ReadCall.totalRead, (hbase iov).2, total_empty]
  exact Nat.pos_of_ne_zero h

theorem inv_step {b : ReadAction n} (h : g.Inv) (hok : g.Apart b) (hstep : g.next b = some g') :
    g'.Inv := by
  cases b with
  | node a =>
    simp only [next] at hstep
    split at hstep
    · cases hstep
    next ha =>
      obtain ⟨r, hact, rfl⟩ := Option.map_eq_some_iff.mp hstep
      exact inv_observed h hok (Bool.eq_false_iff.mpr ha) hact
  | gateTimeout i iov =>
    cases hstep
    exact inv_rejects h rfl
  | begin i iov timedOut =>
    simp only [next] at hstep
    split at hstep
    next hzero =>
      cases hstep
      refine inv_rejects h ?_
      simp only [ReadReturn.reportsEnd, total_empty, hzero, ne_eq, not_true_eq_false,
        decide_false, Bool.and_false]
    next hsome =>
      split at hstep
      · cases hstep
      next hnone =>
        cases hstep
        rw [Option.not_isSome_iff_eq_none] at hnone
        obtain ⟨hopen, hoctets⟩ := open_empty hsome
        have horigin := (h i).idle hnone
        refine inv_reads h hopen ?_ ?_ (reads_begin _ hopen timedOut)
        · rw [horigin, hoctets]
          rfl
        · rw [reading, hnone, horigin]
          rfl
  | turn i timedOut =>
    obtain ⟨c, hc, rfl⟩ := Option.map_eq_some_iff.mp hstep
    obtain ⟨hopen, horigin⟩ := (h i).reader c hc
    refine inv_reads h hopen horigin ?_ (reads_section _ hopen timedOut)
    rw [reading, hc]

/-- In every run whose connections end apart, the calls read the streams of the connections one
after the other. -/
theorem streamRead_of_apart (h : Reachable Fresh (Moves Apart) g) (i : Fin n) :
    StreamRead (g.delivered i) (g.returned i) := by
  have hinv : g.Inv := h.invariant Inv (fun _ hg => inv_init hg)
    fun _ _ hg ⟨_, hok, hstep⟩ => inv_step hg hok hstep
  refine ⟨(hinv i).separated, fun e => List.IsPrefix.trans ?_ ((hinv i).isPrefix e)⟩
  rw [taken, octetsOf_append]
  exact List.prefix_append _ _

/-- A secondary right after set-up, without a reader. -/
def secondary : WithReads 1 where
  node := Node.onePeer .ndm {} 1 2
  reader := fun _ => none
  origin := fun _ => []
  queue := fun _ => []
  epoch := fun _ => 0
  delivered := fun _ _ => []
  returned := fun _ => []

theorem fresh_secondary : secondary.Fresh :=
  { node := Node.fresh_onePeer .ndm (.inl rfl) {} 1 2
    reader := fun _ => rfl
    origin := fun _ => rfl
    queue := fun _ => rfl
    delivered := fun _ _ => rfl
    returned := fun _ => rfl }

/-- The first I frame of a connection, with one octet. -/
def dataFrame (octet : UInt8) : Frame :=
  { Node.shortFrame 1 0 with frame := Function.update (Node.shortFrame 1 0).frame 2 octet, elen := 3 }

/-- The worker sends a UA and, if the peer is connected, goes through its sections. -/
def answer : List (ReadAction 1) :=
  [.node .txFetch, .node (.txEntry { uResponse := some default })]

def connect : List (ReadAction 1) :=
  .node (.receive (Node.shortFrame 1 0x93)) :: answer ++
    [.node .txCheck, .node .txIFrame, .node (.txSFrame fun _ => none)]

def disconnect : List (ReadAction 1) := .node (.receive (Node.shortFrame 1 0x53)) :: answer

/-- An octet of one connection is read, then its end, then an octet of the next one. -/
theorem streamRead_of_apart_twice : ∃ g : WithReads 1,
    StreamRead (g.delivered 0) (g.returned 0) ∧ (g.returned 0).length = 3 := by
  obtain ⟨g, hreach, hlen⟩ := Reachable.exists_of_run (fun g a => if g.apart a then g.next a else none)
    (fun g a g' h => by
      split at h
      next hok => exact (⟨a, hok, h⟩ : Moves Apart g g')
      · cases h)
    (.start fresh_secondary)
    (connect ++ [.node (.receive (dataFrame 0x41)), .begin 0 [1] false] ++ disconnect ++
      [.begin 0 [1] false] ++ connect ++ [.node (.receive (dataFrame 0x42)), .begin 0 [1] false])
    (fun g => (g.returned 0).length = 3) (by decide +kernel)
  exact ⟨g, streamRead_of_apart hreach 0, of_decide_eq_true hlen⟩

/-- Two connections end before the reader comes back: it reads an octet of the second one, and
was not told that the first one ended. -/
theorem streamRead_fails :
    ¬∀ g : WithReads 1, Reachable Fresh (Moves Anything) g →
      StreamRead (g.delivered 0) (g.returned 0) := by
  intro h
  obtain ⟨g, hreach, hconns⟩ := Reachable.exists_of_run next
    (fun _ a _ h => (⟨a, trivial, h⟩ : Moves Anything _ _)) (.start fresh_secondary)
    (connect ++ [.node (.receive (dataFrame 0x41)), .begin 0 [1] false] ++ disconnect ++
      connect ++ [.node (.receive (dataFrame 0x42))] ++ disconnect ++ [.begin 0 [1] false])
    (fun g => decide ((g.returned 0).length = 2) &&
      (g.returned 0).head?.any (fun r => r.received.any fun x : Received => x.conn = 2) &&
      (g.returned 0).getLast?.any fun r => r.received.any fun x : Received => x.conn = 1)
    (by decide +kernel)
  simp only [Bool.and_eq_true, decide_eq_true_eq] at hconns
  obtain ⟨⟨hlen, h₂⟩, h₁⟩ := hconns
  obtain ⟨r₂, r₁, hlog⟩ := List.length_eq_two.mp hlen
  rw [hlog, List.head?_cons, Option.any_some] at h₂
  rw [hlog, List.getLast?_cons_cons, List.getLast?_singleton, Option.any_some] at h₁
  obtain ⟨x, hx, hx₁⟩ := List.any_eq_true.mp h₁
  obtain ⟨y, hy, hy₂⟩ := List.any_eq_true.mp h₂
  have hne : x.conn ≠ y.conn := by
    rw [of_decide_eq_true hx₁, of_decide_eq_true hy₂]
    decide
  obtain ⟨r, hr, -⟩ := (h g hreach).separated [] r₂ [] r₁ [] hlog x hx y hy hne
  cases hr

end WithReads

end IoHdlc
