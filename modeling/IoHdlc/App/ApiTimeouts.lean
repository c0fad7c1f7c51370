import IoHdlc.App.AppListener
import IoHdlc.Core.Api
import IoHdlc.Core.Read
import IoHdlc.Core.WriteVectors
import IoHdlc.Kit.TimedCall
import IoHdlc.Kit.WrapClock

/-!
The time limits of `ioHdlcPeerTest`, `ioHdlcReadVTmo` and `ioHdlcWriteVTmo`.

The clock counts milliseconds modulo `2 ^ 32`. The two calls of the stream subtract the instant
at which they began from it; `ioHdlcPeerTest` keeps the instant at which it is to end, and one
value of that stands for no limit. A call begins when it reads the clock for the first time, and
the checks that precede this tell no timeout.
-/

namespace IoHdlc

open Kit

/-- What the time limit of a wait stands for. -/
def waitLimit (ms : UInt32) : Option ℕ := if ms = IOHDLC_WAIT_FOREVER then none else some ms.toNat

/-! ### The stream -/

/-- `iohdlc_api_timeout_t`. -/
structure ApiTimeout where
  startMs : UInt32
  timeoutMs : UInt32

/-- The time limit of a call that begins at `start`. -/
def ApiTimeout.begin (timeoutMs : UInt32) (start : ℕ) : ApiTimeout :=
  { timeoutMs := timeoutMs
    startMs := if timeoutMs = IOHDLC_WAIT_FOREVER then 0 else clock start }

/-- `s_api_timeout_remaining`. -/
def sApiTimeoutRemaining (timeout : ApiTimeout) (nowMs : UInt32) : UInt32 :=
  if timeout.timeoutMs = IOHDLC_WAIT_FOREVER then IOHDLC_WAIT_FOREVER
  else
    let elapsedMs := nowMs - timeout.startMs
    if elapsedMs < timeout.timeoutMs then timeout.timeoutMs - elapsedMs else 0

/-- Where `ioHdlcReadVTmo` is: before its gate, at the gate, in its loop. -/
inductive ReadVPlace where
  | entry (c : ReadCall)
  | gate (c : ReadCall)
  | loop (c : ReadCall)

def readVEnd (timeout : ApiTimeout) (now : ℕ) (r : ReadStep) :
    Link × SectionEnd ReadVPlace (Except Errno Unit) :=
  (r.link,
    match r.next with
    | .waits => .waits (.loop r.call) (waitLimit (sApiTimeoutRemaining timeout (clock now)))
    | .returns result => .returns result)

/-- `ioHdlcReadVTmo`. -/
def readVSections (timeout : ApiTimeout) : Sections Link Unit ReadVPlace (Except Errno Unit)
  | now, _, _, l, .entry c =>
    (l, .waits (.gate c) (waitLimit (sApiTimeoutRemaining timeout (clock now))))
  | _, _, true, l, .gate _ => (l, .returns (.error .ETIMEDOUT))
  | now, _, false, l, .gate c => readVEnd timeout now (readBegin l c false)
  -- The condition is read again behind a wait that has expired.
  | now, _, expired, l, .loop c => readVEnd timeout now (readSection l c (expired && readWaitCond l.p))

/-- Where `ioHdlcWriteVTmo` is. -/
inductive WriteVPlace where
  | entry (total : Nat)
  | at (pc : WriteVPc)

/-- `ioHdlcWriteVTmo`; a section of its loop finds what the pool gives. -/
def writeVSections (iov : List ConstIovec) (timeout : ApiTimeout) :
    Sections Link (Option Frame) WriteVPlace WriteVResult
  | now, _, _, l, .entry total =>
    (l, .waits (.at (.gate total)) (waitLimit (sApiTimeoutRemaining timeout (clock now))))
  | _, _, true, l, .at (.gate _) => (l, .returns { count := -1, errno := some .ETIMEDOUT })
  | _, _, false, l, .at (.gate total) => (l, .goesOn (.at (.admitted total)))
  | _, _, _, l, .at (.admitted total) =>
    let r := writeVBegin l total
    (r.1, .goesOn (.at r.2))
  | now, take, expired, l, .at (.loop w) =>
    let r := writeVReserve iov l w expired take
    (r.1,
      if w.remaining ≠ 0 ∧ writeWaitCond l ∧ !expired then
        .waits (.at r.2) (waitLimit (sApiTimeoutRemaining timeout (clock now)))
      else .goesOn (.at r.2))
  | _, _, _, l, .at (.build w fp chunkSize) =>
    let r := writeVInsert l w fp chunkSize
    (r.1, .goesOn (.at r.2.1))
  | _, _, _, l, .at (.done result signalTx) =>
    let r := writeVDone l result signalTx
    (r.1, .returns r.2)
  | _, _, _, l, .at (.returned result) => (l, .returns result)
  | _, _, _, l, .at .fault => (l, .goesOn (.at .fault))

/-! ### TEST -/

/-- `deadline_ms` of a call that begins at `start`. -/
def testDeadline (timeoutMs : UInt32) (start : ℕ) : UInt32 :=
  if timeoutMs = IOHDLC_WAIT_FOREVER then IOHDLC_WAIT_FOREVER else clock start + timeoutMs

/-- `remaining_ms`. -/
def testRemaining (deadlineMs nowMs : UInt32) : UInt32 :=
  if deadlineMs = IOHDLC_WAIT_FOREVER then IOHDLC_WAIT_FOREVER
  else if nowMs < deadlineMs then deadlineMs - nowMs else 0

/-- Where `ioHdlcPeerTest` is: before its locked section, at the head of its loop, behind the
wait, behind the loop without a response. -/
inductive PeerTestPlace where
  | entry (len : Nat)
  | loop (len : Nat)
  | event (len : Nat)
  | expired (len : Nat)

/-- What the sections of `ioHdlcPeerTest` find: what the pool gives, and whether the flags of the
listener tell that the test is done. -/
structure PeerTestEnv where
  take : Option Frame
  testDone : Bool

/-- `ioHdlcPeerTest`. -/
def peerTestSections (timeoutMs deadlineMs : UInt32) :
    Sections Link PeerTestEnv PeerTestPlace (Except Errno Unit)
  | _, env, _, l, .entry len =>
    if timeoutMs = 0 then (l, .returns (.error .EINVAL))
    else
      match peerTestStart l len env.take with
      | (l, .error e) => (l, .returns (.error e))
      | (l, .ok ()) => (l, .goesOn (.loop len))
  | now, _, _, l, .loop len =>
    let remainingMs := testRemaining deadlineMs (clock now)
    (l,
      if remainingMs = 0 then .goesOn (.expired len)
      else .waits (.event len) (waitLimit remainingMs))
  | _, env, expired, l, .event len =>
    if expired then (l, .goesOn (.expired len))
    else if !env.testDone then (l, .goesOn (.loop len))
    else
      match sTakeCompletedTestFrame l with
      | (l, some rsp) => (l, .returns (peerTestResult l.s rsp len))
      | (l, none) => (l, .goesOn (.loop len))
  | _, _, _, l, .expired len =>
    (peerTestExpire l,
      match (sTakeCompletedTestFrame l).2 with
      | some rsp => .returns (peerTestResult l.s rsp len)
      | none => .returns (.error .ETIMEDOUT))

/-! ### What the waits ask for -/

section Limits

variable {start t : ℕ} {timeoutMs : UInt32}

theorem waitLimit_of_ne {ms : UInt32} (h : ms ≠ IOHDLC_WAIT_FOREVER) :
    waitLimit ms = some ms.toNat := if_neg h

/-- A request of at most the time limit of a call, when that is finite. -/
theorem waitLimit_of_le {ms : UInt32} (hfin : timeoutMs ≠ IOHDLC_WAIT_FOREVER) (h : ms ≤ timeoutMs) :
    waitLimit ms = some ms.toNat := by
  refine waitLimit_of_ne fun heq => hfin (UInt32.le_antisymm ?_ (heq ▸ h))
  exact UInt32.le_iff_toNat_le.mpr (Nat.le_of_lt_succ timeoutMs.toNat_lt)

/-- The time that is left by the difference of two readings of the clock. -/
theorem sApiTimeoutRemaining_limit (hfin : timeoutMs ≠ IOHDLC_WAIT_FOREVER) (hst : start ≤ t)
    (ht : t < start + 2 ^ 32) :
    ∃ ms, waitLimit (sApiTimeoutRemaining (.begin timeoutMs start) (clock t)) = some ms ∧
      start + timeoutMs.toNat ≤ t + ms := by
  have helapsed := toNat_clock_sub_clock hst ht
  have heq : sApiTimeoutRemaining (.begin timeoutMs start) (clock t) =
      if clock t - clock start < timeoutMs then timeoutMs - (clock t - clock start) else 0 := by
    simp only [sApiTimeoutRemaining, ApiTimeout.begin, if_neg hfin]
  rw [heq]
  split_ifs with hlt
  · have hle : clock t - clock start ≤ timeoutMs := UInt32.le_of_lt hlt
    have hsub : (timeoutMs - (clock t - clock start)).toNat = timeoutMs.toNat - (t - start) := by
      rw [UInt32.toNat_sub_of_le _ _ hle, helapsed]
    refine ⟨_, waitLimit_of_le hfin ?_, ?_⟩
    · rw [UInt32.le_iff_toNat_le, hsub]
      omega
    · rw [hsub]
      omega
  · refine ⟨0, waitLimit_of_le hfin ?_, ?_⟩
    · exact UInt32.le_iff_toNat_le.mpr (Nat.zero_le _)
    · rw [UInt32.lt_iff_toNat_lt, helapsed] at hlt
      omega

theorem toNat_forever : IOHDLC_WAIT_FOREVER.toNat = 2 ^ 32 - 1 := rfl

theorem toNat_testDeadline (hfin : timeoutMs ≠ IOHDLC_WAIT_FOREVER)
    (hwrap : start % 2 ^ 32 + timeoutMs.toNat < 2 ^ 32) :
    (testDeadline timeoutMs start).toNat = start % 2 ^ 32 + timeoutMs.toNat := by
  rw [testDeadline, if_neg hfin, UInt32.toNat_add, toNat_clock, Nat.mod_eq_of_lt hwrap]

theorem testDeadline_ne (hfin : timeoutMs ≠ IOHDLC_WAIT_FOREVER)
    (hwrap : start % 2 ^ 32 + timeoutMs.toNat < 2 ^ 32 - 1) :
    testDeadline timeoutMs start ≠ IOHDLC_WAIT_FOREVER := by
  intro heq
  have hdeadline := toNat_testDeadline hfin (by omega : start % 2 ^ 32 + timeoutMs.toNat < 2 ^ 32)
  rw [heq, toNat_forever] at hdeadline
  omega

/-- The time that is left of a deadline that lies on this side of the wrap. -/
theorem testRemaining_limit (hfin : timeoutMs ≠ IOHDLC_WAIT_FOREVER)
    (hwrap : start % 2 ^ 32 + timeoutMs.toNat < 2 ^ 32 - 1) (hst : start ≤ t)
    (hrem : testRemaining (testDeadline timeoutMs start) (clock t) ≠ 0) :
    ∃ ms, waitLimit (testRemaining (testDeadline timeoutMs start) (clock t)) = some ms ∧
      start + timeoutMs.toNat ≤ t + ms := by
  have hdeadline := toNat_testDeadline hfin (hwrap.trans (by decide))
  have hne := testDeadline_ne hfin hwrap
  simp only [testRemaining, if_neg hne] at hrem ⊢
  split_ifs at hrem ⊢ with hlt
  · have hle : clock t ≤ testDeadline timeoutMs start := UInt32.le_of_lt hlt
    have hsub := UInt32.toNat_sub_of_le _ _ hle
    rw [hdeadline, toNat_clock] at hsub
    refine ⟨_, waitLimit_of_ne fun heq => ?_, by rw [hsub]; omega⟩
    have hforever := congrArg UInt32.toNat heq
    rw [hsub, toNat_forever] at hforever
    omega
  · exact absurd rfl hrem

/-- When nothing is left of such a deadline the time limit has passed. -/
theorem testRemaining_eq_zero (hfin : timeoutMs ≠ IOHDLC_WAIT_FOREVER)
    (hwrap : start % 2 ^ 32 + timeoutMs.toNat < 2 ^ 32 - 1) (hst : start ≤ t)
    (hrem : testRemaining (testDeadline timeoutMs start) (clock t) = 0) :
    start + timeoutMs.toNat ≤ t := by
  have hdeadline := toNat_testDeadline hfin (hwrap.trans (by decide))
  have hne := testDeadline_ne hfin hwrap
  simp only [testRemaining, if_neg hne] at hrem
  split_ifs at hrem with hlt
  · have hle : clock t ≤ testDeadline timeoutMs start := UInt32.le_of_lt hlt
    have hsub := UInt32.toNat_sub_of_le _ _ hle
    have hpos : (clock t).toNat < (testDeadline timeoutMs start).toNat := UInt32.lt_iff_toNat_lt.mp hlt
    rw [hrem] at hsub
    simp only [UInt32.toNat_zero] at hsub
    omega
  · rw [UInt32.lt_iff_toNat_lt, hdeadline, toNat_clock] at hlt
    omega

/-- A deadline that is the value for no limit, or lies behind the wrap, is over at once or never. -/
theorem testRemaining_start (hfin : timeoutMs ≠ IOHDLC_WAIT_FOREVER)
    (hwrap : 2 ^ 32 - 1 ≤ start % 2 ^ 32 + timeoutMs.toNat) :
    testRemaining (testDeadline timeoutMs start) (clock start) = 0 ∨
      testRemaining (testDeadline timeoutMs start) (clock start) = IOHDLC_WAIT_FOREVER := by
  by_cases hne : testDeadline timeoutMs start = IOHDLC_WAIT_FOREVER
  · exact .inr (if_pos hne)
  · have hlt := timeoutMs.toNat_lt
    have hsum : (testDeadline timeoutMs start).toNat = (start % 2 ^ 32 + timeoutMs.toNat) % 2 ^ 32 := by
      rw [testDeadline, if_neg hfin, UInt32.toNat_add, toNat_clock]
    have hdeadline : (testDeadline timeoutMs start).toNat ≠ 2 ^ 32 - 1 := fun heq =>
      hne (UInt32.toNat_inj.mp (heq.trans toNat_forever.symm))
    refine .inl ?_
    rw [testRemaining, if_neg hne, if_neg]
    rw [UInt32.lt_iff_toNat_lt, toNat_clock, hsum]
    omega

end Limits

/-! ### The runs -/

/-- The result of a call that tells a timeout. -/
def tellsTimeout (result : Except Errno Unit) : Prop := result = .error .ETIMEDOUT

def WriteVResult.TellsTimeout (result : WriteVResult) : Prop := result.errno = some .ETIMEDOUT

section Runs

variable {start t : ℕ} {timeoutMs : UInt32} {l : Link} {iov : List ConstIovec}

/-- The loop tells a timeout only when a wait has expired. -/
theorem readLoop_timedOut {timedOut : Bool} {c : ReadCall} {q : List Frame}
    (h : (readLoop timedOut l c q).next = .returns (.error .ETIMEDOUT)) : timedOut = true := by
  have hterminal : ∀ l c, (readTerminal l c).next ≠ .returns (.error .ETIMEDOUT) := by
    intro l c
    rw [readTerminal]
    split_ifs <;> simp [reportTerminal]
  induction q generalizing l c with
  | nil =>
    rw [readLoop, readEmpty] at h
    split_ifs at h with hopen htime
    all_goals first | assumption | exact absurd h (hterminal _ _) | simp [reportTerminal] at h
  | cons fp rest ih =>
    simp only [readLoop] at h
    split_ifs at h
    · exact absurd h (hterminal _ _)
    · cases h
    · exact ih h
    · cases h

theorem readSection_timedOut {timedOut : Bool} {c : ReadCall}
    (h : (readSection l c timedOut).next = .returns (.error .ETIMEDOUT)) : timedOut = true := by
  rw [readSection] at h
  cases hnext : (readLoop timedOut l c l.p.rxFrames).next with
  | waits => simp [hnext] at h
  | returns result =>
    simp only [hnext, ReadEnd.returns.injEq] at h
    subst h
    exact readLoop_timedOut hnext

theorem readVEnd_keeps {due : ℕ} {timeout : ApiTimeout} {r : ReadStep}
    (hlimit : ∃ ms, waitLimit (sApiTimeoutRemaining timeout (clock t)) = some ms ∧ due ≤ t + ms)
    (hnext : r.next = .returns (.error .ETIMEDOUT) → due ≤ t) :
    (readVEnd timeout t r).2.Keeps (fun _ => False) tellsTimeout due t := by
  rw [readVEnd]
  cases h : r.next with
  | waits => exact ⟨False.elim, hlimit⟩
  | returns result =>
    intro htells
    exact hnext (h.trans (congrArg _ htells))

theorem readV_keepsDue (hfin : timeoutMs ≠ IOHDLC_WAIT_FOREVER) :
    KeepsDue (readVSections (.begin timeoutMs start)) (fun _ => False) tellsTimeout start (2 ^ 32)
      (start + timeoutMs.toNat) := by
  intro t e expired l s hst ht hlate
  have hlimit := sApiTimeoutRemaining_limit hfin hst ht
  cases s with
  | entry c => exact ⟨False.elim, hlimit⟩
  | gate c =>
    cases expired with
    | true => exact fun _ => hlate (.inr rfl)
    | false => exact readVEnd_keeps hlimit fun h => by cases readSection_timedOut h
  | loop c =>
    refine readVEnd_keeps hlimit fun h => hlate (.inr ?_)
    exact (Bool.and_eq_true_iff.mp (readSection_timedOut h)).1

/-- A writer that is on its way out with a timeout. -/
def WriteVPlace.Late : WriteVPlace → Prop
  | .at (.done result _) | .at (.returned result) => result.TellsTimeout
  | _ => False

/-- The head of the loop gives up only behind a wait that has expired. -/
theorem late_writeVReserve {w : WriteV} {expired : Bool} {take : Option Frame}
    (h : (WriteVPlace.at (writeVReserve iov l w expired take).2).Late) : expired = true := by
  cases expired with
  | true => rfl
  | false =>
    cases take with
    | none =>
      simp only [writeVReserve, Bool.false_eq_true, if_false] at h
      split_ifs at h <;> simp [WriteVPlace.Late, WriteVResult.TellsTimeout] at h
    | some fp =>
      simp only [writeVReserve, Bool.false_eq_true, if_false] at h
      cases hcopy : copyVectors iov (writeChunkSize l w.remaining) (writeChunkSize l w.remaining) []
        w.iov <;> rw [hcopy] at h <;> split_ifs at h <;>
        simp [WriteVPlace.Late, WriteVResult.TellsTimeout] at h

theorem writeV_keepsDue (hfin : timeoutMs ≠ IOHDLC_WAIT_FOREVER) :
    KeepsDue (writeVSections iov (.begin timeoutMs start)) WriteVPlace.Late WriteVResult.TellsTimeout
      start (2 ^ 32) (start + timeoutMs.toNat) := by
  intro t take expired l s hst ht hlate
  have hlimit := sApiTimeoutRemaining_limit hfin hst ht
  cases s with
  | entry total => exact ⟨False.elim, hlimit⟩
  | «at» pc =>
    cases pc with
    | gate total =>
      cases expired with
      | true => exact fun _ => hlate (.inr rfl)
      | false => exact False.elim
    | admitted total =>
      simp only [writeVSections, writeVBegin]
      split_ifs
      · intro h
        cases h
      · exact False.elim
    | loop w =>
      simp only [writeVSections]
      split_ifs with hwaits
      · exact ⟨fun h => hlate (.inr (late_writeVReserve h)), hlimit⟩
      · exact fun h => hlate (.inr (late_writeVReserve h))
    | build w fp chunkSize =>
      simp only [writeVSections, writeVInsert]
      split_ifs <;> intro h <;> cases h
    | done result signalTx =>
      simp only [writeVSections, writeVDone]
      split_ifs
      · intro h
        cases h
      · exact fun h => hlate (.inl h)
    | returned result => exact fun h => hlate (.inl h)
    | fault => exact False.elim

/-- `ioHdlcPeerTest` behind its loop. -/
def PeerTestPlace.Late : PeerTestPlace → Prop
  | .expired _ => True
  | _ => False

theorem peerTestResult_ne (s : Station) (rsp : Frame) (len : Nat) :
    ¬tellsTimeout (peerTestResult s rsp len) := by
  rw [tellsTimeout, peerTestResult]
  dsimp only
  split_ifs <;> simp

theorem peerTestStart_ne (l : Link) (len : Nat) (take : Option Frame) :
    ¬tellsTimeout (peerTestStart l len take).2 := by
  simp only [tellsTimeout, peerTestStart]
  cases take <;> split_ifs <;> simp

theorem peerTest_keepsDue (hfin : timeoutMs ≠ IOHDLC_WAIT_FOREVER)
    (hwrap : start % 2 ^ 32 + timeoutMs.toNat < 2 ^ 32 - 1) :
    KeepsDue (peerTestSections timeoutMs (testDeadline timeoutMs start)) PeerTestPlace.Late tellsTimeout
      start (2 ^ 32) (start + timeoutMs.toNat) := by
  intro t env expired l s hst ht hlate
  cases s with
  | entry len =>
    have hstart := peerTestStart_ne l len env.take
    simp only [peerTestSections]
    split_ifs
    · intro h
      cases h
    · cases hr : peerTestStart l len env.take with
      | mk l' result =>
        rw [hr] at hstart
        cases result with
        | error e => exact fun h => absurd h hstart
        | ok u => exact False.elim
  | loop len =>
    simp only [peerTestSections]
    split_ifs with hrem
    · exact fun _ => testRemaining_eq_zero hfin hwrap hst hrem
    · exact ⟨False.elim, testRemaining_limit hfin hwrap hst hrem⟩
  | event len =>
    simp only [peerTestSections]
    split_ifs with hexpired hdone
    · exact fun _ => hlate (.inr hexpired)
    · exact False.elim
    · cases hr : sTakeCompletedTestFrame l with
      | mk l' rsp =>
        cases rsp with
        | none => exact False.elim
        | some rsp => exact fun h => (peerTestResult_ne _ _ _ h).elim
  | expired len =>
    simp only [peerTestSections]
    cases (sTakeCompletedTestFrame l).2 with
    | none => exact fun _ => hlate (.inl trivial)
    | some rsp => exact fun h => (peerTestResult_ne _ _ _ h).elim

/-- A TEST with the time limit 0 is refused at once. -/
theorem peerTest_zero {len : Nat} {g : TimedCall Link PeerTestPlace (Except Errno Unit)}
    (hrun : Reachable (TimedCall.Begins start (.entry len))
      (TimedCall.Step (peerTestSections 0 (testDeadline 0 start)) (2 ^ 32)) g) :
    g.place = .ready (.entry len) false ∨ ∃ time, g.place = .returned (.error .EINVAL) time := by
  refine hrun.invariant
    (fun g => g.place = .ready (.entry len) false ∨ ∃ time, g.place = .returned (.error .EINVAL) time)
    (fun g h => .inl h.place) fun g g' h hstep => ?_
  cases hstep with
  | elapse | others => exact h
  | act e hpc =>
    obtain hentry | ⟨time, hreturned⟩ := h
    · rw [hpc] at hentry
      cases hentry
      exact .inr ⟨g.now, rfl⟩
    · rw [hpc] at hreturned
      cases hreturned
  | wake hpc | expire hpc =>
    obtain hentry | ⟨time, hreturned⟩ := h
    · rw [hpc] at hentry
      cases hentry
    · rw [hpc] at hreturned
      cases hreturned

end Runs

/-- Every run of a TEST with a finite time limit keeps it. -/
def PeerTestTimely (start : ℕ) (timeoutMs : UInt32) : Prop :=
  ∀ len g, Reachable (TimedCall.Begins start (.entry len))
    (TimedCall.Step (peerTestSections timeoutMs (testDeadline timeoutMs start)) (2 ^ 32)) g →
    g.Timely tellsTimeout (start + timeoutMs.toNat)

/-- Every run of a read with a finite time limit keeps it. -/
def ReadVTimely (start : ℕ) (timeoutMs : UInt32) : Prop :=
  ∀ c g, Reachable (TimedCall.Begins start (.entry c))
    (TimedCall.Step (readVSections (.begin timeoutMs start)) (2 ^ 32)) g →
    g.Timely tellsTimeout (start + timeoutMs.toNat)

/-- Every run of a write with a finite time limit keeps it. -/
def WriteVTimely (start : ℕ) (timeoutMs : UInt32) : Prop :=
  ∀ iov total g, Reachable (TimedCall.Begins start (.entry total))
    (TimedCall.Step (writeVSections iov (.begin timeoutMs start)) (2 ^ 32)) g →
    g.Timely WriteVResult.TellsTimeout (start + timeoutMs.toNat)

theorem readV_timely (start : ℕ) {timeoutMs : UInt32} (hfin : timeoutMs ≠ IOHDLC_WAIT_FOREVER) :
    ReadVTimely start timeoutMs := fun _ _ hrun =>
  TimedCall.timely (readV_keepsDue hfin) not_false (by decide) hrun

theorem writeV_timely (start : ℕ) {timeoutMs : UInt32} (hfin : timeoutMs ≠ IOHDLC_WAIT_FOREVER) :
    WriteVTimely start timeoutMs := fun _ _ _ hrun =>
  TimedCall.timely (writeV_keepsDue hfin) (s := .entry _) not_false (by decide) hrun

theorem peerTest_timely {start : ℕ} {timeoutMs : UInt32} (hfin : timeoutMs ≠ IOHDLC_WAIT_FOREVER)
    (hwrap : timeoutMs = 0 ∨ start % 2 ^ 32 + timeoutMs.toNat < 2 ^ 32 - 1) :
    PeerTestTimely start timeoutMs := by
  intro len g hrun
  obtain rfl | hwrap := hwrap
  · constructor
    · intro s since hpc
      obtain hentry | ⟨time, hreturned⟩ := peerTest_zero hrun
      · rw [hpc] at hentry
        cases hentry
      · rw [hpc] at hreturned
        cases hreturned
    · intro r time hpc htells
      obtain hentry | ⟨time, hreturned⟩ := peerTest_zero hrun
      · rw [hpc] at hentry
        cases hentry
      · rw [hpc] at hreturned
        cases hreturned
        cases htells
  · exact TimedCall.timely (peerTest_keepsDue hfin hwrap) (s := .entry _) not_false (by decide) hrun

/-- A primary that has just been initialised. -/
def quietPrimary : Link :=
  let s := initialStation .ndm { pri := true } (.mod8 0 Framing.zero_le_two) 2 true 100 200 1
  ⟨applyModeState s .ndm, initialPeer s 128 8 2⟩

/-- A TEST whose deadline is the value for no limit waits without one; behind the wrap it is over
when it begins. -/
theorem peerTest_untimely {start : ℕ} {timeoutMs : UInt32} (hfin : timeoutMs ≠ IOHDLC_WAIT_FOREVER)
    (hpos : timeoutMs ≠ 0) (hwrap : 2 ^ 32 - 1 ≤ start % 2 ^ 32 + timeoutMs.toNat) :
    ¬PeerTestTimely start timeoutMs := by
  intro h
  let act := peerTestSections timeoutMs (testDeadline timeoutMs start)
  have hbegin : Reachable (TimedCall.Begins start (.entry 0)) (TimedCall.Step act (2 ^ 32))
      { start := start, now := start, shared := quietPrimary, place := .ready (.entry 0) false } :=
    .start ⟨rfl, rfl, rfl⟩
  have htaken : (act start ⟨some default, false⟩ false quietPrimary (.entry 0)) =
      ((peerTestStart quietPrimary 0 (some default)).1, .goesOn (.loop 0)) := by
    simp only [act, peerTestSections, if_neg hpos]
    rfl
  have hloop := hbegin.tail (.act _ ⟨some default, false⟩ rfl)
  rw [TimedCall.after, htaken] at hloop
  obtain hrem | hrem := testRemaining_start hfin hwrap
  · have hexpired := hloop.tail (.act _ ⟨none, false⟩ rfl)
    simp only [act, peerTestSections, hrem, if_true, TimedCall.after] at hexpired
    have hreturned := hexpired.tail (.act _ ⟨none, false⟩ rfl)
    have hdue := (h _ _ hreturned).due (.error .ETIMEDOUT) start rfl rfl
    have hzero := mt UInt32.toNat_inj.mp hpos
    simp only [UInt32.toNat_zero] at hzero
    omega
  · have hwaits := hloop.tail (.act _ ⟨none, false⟩ rfl)
    refine (h _ _ hwaits).limited (.event 0) start ?_
    simp only [act, peerTestSections, hrem, TimedCall.after]
    rfl

/-- What is asked of the time limits of the three calls that begin at `start`. -/
structure ApiTimely (start : ℕ) (timeoutMs : UInt32) : Prop where
  peerTest : PeerTestTimely start timeoutMs
  readV : ReadVTimely start timeoutMs
  writeV : WriteVTimely start timeoutMs

/-- The time limits are kept as long as the deadline of the TEST does not reach the last value of
the clock. -/
theorem apiTimely_iff (start : ℕ) {timeoutMs : UInt32} (hfin : timeoutMs ≠ IOHDLC_WAIT_FOREVER) :
    ApiTimely start timeoutMs ↔
      timeoutMs = 0 ∨ (clock start).toNat + timeoutMs.toNat < 2 ^ 32 - 1 := by
  rw [toNat_clock]
  constructor
  · intro h
    by_contra hwrap
    rw [not_or, not_lt] at hwrap
    exact peerTest_untimely hfin hwrap.1 hwrap.2 h.peerTest
  · intro hwrap
    exact ⟨peerTest_timely hfin hwrap, readV_timely start hfin, writeV_timely start hfin⟩

/-- Two seconds, at the start of the clock. -/
theorem apiTimely_iff_begin : ApiTimely 0 2000 :=
  (apiTimely_iff 0 (by decide)).mpr (.inr (by decide))

/-- Two seconds, one second before the clock wraps. -/
theorem apiTimely_fails :
    ¬∀ start timeoutMs, timeoutMs ≠ IOHDLC_WAIT_FOREVER → ApiTimely start timeoutMs := fun h =>
  peerTest_untimely (by decide) (by decide) (by decide)
    (h (2 ^ 32 - 1000) 2000 (by decide)).peerTest

end IoHdlc
