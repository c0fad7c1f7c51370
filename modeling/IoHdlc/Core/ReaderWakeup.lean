import IoHdlc.Core.ReadCalls

/-!
The readers that wait for `rx_cv`.

`WithSleepers` keeps beside the calls of `ioHdlcReadVTmo` which of them wait and were not woken.
A delivery signals `rx_cv`, and so does whatever ends a connection or begins a new one in its
place. No reader sleeps through one of them.
-/

namespace IoHdlc

open Kit

/-- What a reader waits for, seen on the stream. -/
def Stream.nothingToDo (s : Stream) : Bool := !s.hasData && s.conn && !s.terminal.rx

theorem readWaitCond_eq (p : Peer) : readWaitCond p = p.stream.nothingToDo := by
  rw [readWaitCond, Stream.nothingToDo, Peer.isDisc, Bool.not_not]
  rfl

namespace Node

variable {n : Nat}

/-- Whether an action signals `rx_cv` of peer `i`: `s_peer_raw_rx_deliver`, `resetPeerVars` of a
peer that is connected, or `ioHdlcSetDisconnected`. -/
def signalsReader (nd : Node n) (a : Action n) (nd' : Node n) (i : Fin n) : Bool :=
  (nd.accepted i a).isSome ||
    (nd.peer i).ssState.stConn && (nd.opensStream i a || !(nd'.peer i).ssState.stConn)

variable {nd nd' : Node n} {a : Action n} {sent : List Frame} {i : Fin n}

/-- The calls of a peer other than a read leave its reader with what it had to do. -/
theorem onStream_nothingToDo {op : PeerOp} (hop : op ≠ .read) (s : Stream) :
    (op.onStream s).nothingToDo = s.nothingToDo := by
  cases op with
  | writeBegin octets =>
    rw [PeerOp.onStream]
    split <;> rfl
  | read => exact absurd rfl hop
  | _ => rfl

/-- What gives a reader something to do wakes it. -/
theorem act_nothingToDo (hact : nd.act a = some (nd', sent)) (ha : a.isReader = false)
    (hsignal : nd.signalsReader a nd' i = false)
    (hwait : (nd.peer i).stream.nothingToDo = true) : (nd'.peer i).stream.nothingToDo = true := by
  rw [signalsReader, Bool.or_eq_false_iff] at hsignal
  obtain ⟨hacc, hconn⟩ := hsignal
  -- a reader that waits is connected
  have hst : (nd.peer i).ssState.stConn = true := by
    rw [Stream.nothingToDo, Bool.and_eq_true, Bool.and_eq_true] at hwait
    exact hwait.1.2
  rw [hst, Bool.true_and, Bool.or_eq_false_iff, Bool.not_eq_false'] at hconn
  cases act_stream hact i with
  | same _ _ h => rwa [h]
  | delivers fp _ hdeliver h =>
    rw [hdeliver] at hacc
    cases hacc
  | reopens hopen _ h =>
    rw [hopen] at hconn
    cases hconn.1
  | ends term _ _ _ h =>
    have hend : (nd'.peer i).ssState.stConn = false := congrArg Stream.conn h
    rw [hend] at hconn
    cases hconn.2
  | requests _ _ h =>
    rw [h]
    exact hwait
  | call op hop h =>
    rw [h, onStream_nothingToDo (fun hread => ?_), hwait]
    rw [hop, hread] at ha
    cases ha

end Node

/-! ### A section that ends in the wait -/

section Sections

variable {l : Link} {c : ReadCall}

theorem readTerminal_returns (l : Link) (c : ReadCall) : (readTerminal l c).next ≠ .waits := by
  rw [readTerminal]
  split
  · simp
  · simp [reportTerminal]

theorem readEmpty_waits {timedOut : Bool} (hdata : sPeerRxHasData l.p = false)
    (h : (readEmpty l c timedOut).next = .waits) :
    readWaitCond (readEmpty l c timedOut).link.p = true := by
  rw [readEmpty] at h ⊢
  split at h
  next hwait =>
    rw [if_pos hwait, readWaitCond, hdata, Bool.not_false, Bool.true_and]
    exact hwait
  · split at h
    · exact absurd h (readTerminal_returns l c)
    · split at h
      · cases h
      · split at h
        · cases h
        · split at h <;> cases h

/-- The loop goes to wait when its condition holds, after all the frames it has read. -/
theorem readLoop_waits {timedOut : Bool} {q : List Frame} (hq : l.p.rxFrames = q)
    (h : (readLoop timedOut l c q).next = .waits) :
    readWaitCond (readLoop timedOut l c q).link.p = true := by
  induction q generalizing l c with
  | nil => exact readEmpty_waits (readable_nil hq) h
  | cons fp rest ih =>
    rw [readLoop] at h ⊢
    split at h
    · exact absurd h (readTerminal_returns l c)
    next hlive =>
      rw [if_neg hlive]
      dsimp only at h ⊢
      split at h
      · cases h
      next hleft =>
        rw [if_neg hleft]
        split at h
        next hroom =>
          rw [if_pos hroom]
          exact ih rfl h
        · cases h

theorem readSection_waits {timedOut : Bool} (h : (readSection l c timedOut).next = .waits) :
    readWaitCond (readSection l c timedOut).link.p = true := by
  rw [readSection] at h ⊢
  dsimp only at h ⊢
  split at h
  next => exact readLoop_waits rfl h
  next hloop => exact absurd (hloop.symm.trans h) (by simp)

end Sections

/-! ### The sleepers -/

/-- A node with its readers, and which of them wait and were not woken. -/
structure WithSleepers (n : Nat) where
  reads : WithReads n
  asleep : Fin n → Bool

namespace WithSleepers

variable {n : Nat}

/-- Who sleeps after an action: a call that took a section and did not return waits, and the
others sleep until they are woken. -/
def sleepsAfter (g : WithSleepers n) (a : ReadAction n) (r' : WithReads n) (i : Fin n) : Bool :=
  match a with
  | .node a => g.asleep i && !g.reads.node.signalsReader a r'.node i
  | .gateTimeout _ _ => g.asleep i
  | .begin j iov _ =>
    if i = j ∧ iov.sum ≠ 0 then (r'.reader i).isSome else g.asleep i
  | .turn j _ => if i = j then (r'.reader i).isSome else g.asleep i

def next (g : WithSleepers n) (a : ReadAction n) : Option (WithSleepers n) :=
  (g.reads.next a).map fun r' => ⟨r', g.sleepsAfter a r'⟩

def Fresh (g : WithSleepers n) : Prop := g.reads.Fresh ∧ ∀ i, g.asleep i = false

def Moves (g g' : WithSleepers n) : Prop := ∃ a, g.next a = some g'

/-- A reader that sleeps is in a call that has room left, and has nothing to do. -/
structure InvAt (g : WithSleepers n) (i : Fin n) : Prop where
  call : ∀ c ∈ g.reads.reader i, c.Open
  asleep : g.asleep i = true →
    (g.reads.reader i).isSome = true ∧ readWaitCond (g.reads.node.peer i) = true

def Inv (g : WithSleepers n) : Prop := ∀ i, g.InvAt i

variable {g g' : WithSleepers n} {i : Fin n}

theorem inv_init (h : g.Fresh) : g.Inv := by
  intro i
  refine ⟨fun c hc => ?_, fun hasleep => ?_⟩
  · rw [h.1.reader i] at hc
    cases hc
  · rw [h.2 i] at hasleep
    cases hasleep

/-- A section of the reader of peer `i`. -/
theorem invAt_reads {c : ReadCall} {r : ReadStep} {asleep : Fin n → Bool} (h : g.Inv)
    (hr : Reads (g.reads.node.link i) c r)
    (hwaits : r.next = .waits → readWaitCond r.link.p = true)
    (hself : asleep i = ((g.reads.reads i c r).reader i).isSome)
    (hother : ∀ j, j ≠ i → asleep j = g.asleep j) :
    (WithSleepers.mk (g.reads.reads i c r) asleep).Inv := by
  intro j
  by_cases hj : j = i
  · subst hj
    have hpeer : (g.reads.reads j c r).node.peer j = r.link.p := Node.setLink_peer_self _ _ _
    cases hnext : r.next with
    | waits =>
      have hreader : (g.reads.reads j c r).reader j = some r.call := by
        rw [WithReads.reads]
        dsimp only
        rw [Function.update_self, hnext]
      have hopen : r.call.Open := by
        refine ⟨hr.packed, ?_⟩
        cases hr.outcome with
        | waits _ hroom _ => exact hroom
        | data hn => exact absurd (hnext.symm.trans hn) (by simp)
        | report _ hn => exact absurd (hnext.symm.trans hn) (by simp)
        | fails _ hn => exact absurd (hnext.symm.trans hn) (by simp)
      refine ⟨fun c' hc' => ?_, fun _ => ⟨?_, ?_⟩⟩
      · change c' ∈ (g.reads.reads j c r).reader j at hc'
        rw [hreader] at hc'
        obtain rfl := Option.mem_some.mp hc'
        exact hopen
      · change ((g.reads.reads j c r).reader j).isSome = true
        rw [hreader]
        rfl
      · change readWaitCond ((g.reads.reads j c r).node.peer j) = true
        rw [hpeer]
        exact hwaits hnext
    | returns result =>
      have hreader : (g.reads.reads j c r).reader j = none := by
        rw [WithReads.reads]
        dsimp only
        rw [Function.update_self, hnext]
      refine ⟨fun c' hc' => ?_, fun hasleep => ?_⟩
      · change c' ∈ (g.reads.reads j c r).reader j at hc'
        rw [hreader] at hc'
        cases hc'
      · change asleep j = true at hasleep
        rw [hself, hreader] at hasleep
        cases hasleep
  · -- another reader, and its peer, are as they were
    have hpeer : (g.reads.reads i c r).node.peer j = g.reads.node.peer j :=
      Node.setLink_peer_of_ne _ _ hj
    have hreader : (g.reads.reads i c r).reader j = g.reads.reader j :=
      Function.update_of_ne hj _ _
    refine ⟨fun c' hc' => (h j).call c' (hreader ▸ hc'), fun hasleep => ?_⟩
    change ((g.reads.reads i c r).reader j).isSome = true ∧
      readWaitCond ((g.reads.reads i c r).node.peer j) = true
    rw [hpeer, hreader]
    exact (h j).asleep ((hother j hj).symm.trans hasleep)

theorem inv_step {b : ReadAction n} (h : g.Inv) (hstep : g.next b = some g') : g'.Inv := by
  obtain ⟨r', hnext, rfl⟩ := Option.map_eq_some_iff.mp hstep
  cases b with
  | node a =>
    simp only [WithReads.next] at hnext
    split at hnext
    · cases hnext
    next ha =>
      obtain ⟨⟨nd', sent⟩, hact, rfl⟩ := Option.map_eq_some_iff.mp hnext
      refine fun i => ⟨(h i).call, fun hasleep => ?_⟩
      obtain ⟨hasleep, hsignal⟩ := Bool.and_eq_true_iff.mp hasleep
      obtain ⟨hcall, hwait⟩ := (h i).asleep hasleep
      rw [readWaitCond_eq] at hwait
      refine ⟨hcall, (readWaitCond_eq _).trans ?_⟩
      exact Node.act_nothingToDo hact (Bool.eq_false_iff.mpr ha)
        (by rwa [Bool.not_eq_true'] at hsignal) hwait
  | gateTimeout j iov =>
    cases hnext
    exact fun i => ⟨(h i).call, (h i).asleep⟩
  | begin j iov timedOut =>
    simp only [WithReads.next] at hnext
    split at hnext
    next hzero =>
      cases hnext
      refine fun i => ⟨(h i).call, fun hasleep => (h i).asleep ?_⟩
      simpa [sleepsAfter, hzero] using hasleep
    next hsome =>
      split at hnext
      · cases hnext
      next hnone =>
        cases hnext
        obtain ⟨hopen, -⟩ := WithReads.open_empty hsome
        refine invAt_reads h (reads_begin _ hopen timedOut) readSection_waits ?_ ?_
        · exact if_pos ⟨rfl, hsome⟩
        · exact fun i hi => if_neg fun hboth => hi hboth.1
  | turn j timedOut =>
    obtain ⟨c, hc, rfl⟩ := Option.map_eq_some_iff.mp hnext
    have hopen := (h j).call c hc
    refine invAt_reads h (reads_section _ hopen timedOut) readSection_waits ?_ ?_
    · exact if_pos rfl
    · exact fun i hi => if_neg hi

/-- In every run a reader that waits and was not woken has nothing to read, is connected and has
no terminal to report, and its call has room for more. -/
theorem no_lost_reader_wakeup (h : Reachable Fresh Moves g) (hasleep : g.asleep i = true) :
    ∃ c, g.reads.reader i = some c ∧ c.totalRead < c.total ∧
      (g.reads.node.peer i).stream.readable g.reads.node.s.framing = [] ∧
        readWaitCond (g.reads.node.peer i) = true := by
  have hinv : g.Inv := h.invariant Inv (fun _ hg => inv_init hg)
    fun _ _ hg ⟨_, hstep⟩ => inv_step hg hstep
  obtain ⟨hcall, hwait⟩ := (hinv i).asleep hasleep
  obtain ⟨c, hc⟩ := Option.isSome_iff_exists.mp hcall
  refine ⟨c, hc, ((hinv i).call c hc).room, ?_, hwait⟩
  by_contra hdata
  have hhas := WithReads.hasData_of_readable hdata
  rw [readWaitCond_eq, Stream.nothingToDo, hhas] at hwait
  cases hwait

/-- The secondary of the reads, with nobody asleep. -/
def secondary : WithSleepers 1 := ⟨.secondary, fun _ => false⟩

theorem fresh_secondary : secondary.Fresh := ⟨WithReads.fresh_secondary, fun _ => rfl⟩

/-- A reader reads the one octet that is there, and sleeps for the second one. -/
theorem no_lost_reader_wakeup_second : ∃ (g : WithSleepers 1) (c : ReadCall),
    g.asleep 0 = true ∧ g.reads.reader 0 = some c ∧ c.totalRead < c.total ∧
      (g.reads.node.peer 0).stream.readable g.reads.node.s.framing = [] ∧
        readWaitCond (g.reads.node.peer 0) = true := by
  obtain ⟨g, hreach, hasleep⟩ := Reachable.exists_of_run next
    (fun _ a _ h => (⟨a, h⟩ : Moves _ _)) (.start fresh_secondary)
    (WithReads.connect ++ [.node (.receive (WithReads.dataFrame 0x41)), .begin 0 [2] false])
    (fun g => g.asleep 0) (by decide +kernel)
  obtain ⟨c, hc⟩ := no_lost_reader_wakeup hreach hasleep
  exact ⟨g, c, hasleep, hc⟩

end WithSleepers

end IoHdlc
