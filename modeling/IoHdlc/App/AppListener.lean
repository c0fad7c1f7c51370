import IoHdlc.Kit.Reachable
import Mathlib.Algebra.Order.Group.Nat

/-!
One application listener, the thread that waits at it and the threads that
broadcast.

The flags of the listener are guarded by its lock, the event bit of the thread by
another. A broadcast holds the lock of the listener while it sets first the flags
and then the bit; a wait clears the bit and takes the flags at two moments. The
event bit is used for nothing else. A run logs what is published, taken and
returned, the newest first.
-/

namespace IoHdlc

open Kit

def IOHDLC_WAIT_FOREVER : UInt32 := 0xFFFFFFFF

/-- A call of `ioHdlcAppListenerWait`. -/
structure WaitCall where
  timeoutMs : UInt32
  start : Nat
  deriving DecidableEq, Repr

/-- Where the waiting thread is. -/
inductive ListenerPc where
  | idle
  | first (call : WaitCall)
  | drain (call : WaitCall) (flags : UInt32)
  | enter (call : WaitCall)
  | blocked (call : WaitCall) (deadline : Option Nat)
  | collect (call : WaitCall)
  deriving DecidableEq, Repr

inductive ListenerEvent where
  | published (flags : UInt32)
  | taken (flags : UInt32)
  | returned (call : WaitCall) (time : Nat) (flags : UInt32)
  deriving DecidableEq, Repr

/-- The listener, the event bit of its thread, whether a broadcast holds its lock, and
the clock. -/
structure AppListener where
  wflags : UInt32
  flags : UInt32
  pending : Bool
  broadcasting : Bool
  pc : ListenerPc
  now : Nat
  log : List ListenerEvent
  deriving DecidableEq, Repr

inductive ListenerAction where
  | tick
  | broadcast (flags : UInt32)
  | signal
  | call (timeoutMs : UInt32)
  | step
  | expire

namespace AppListener

/-- `iohdlc_evt_get_and_clear_flags`, which waits for the lock of the listener. -/
def evtGetAndClearFlags (m : AppListener) : Option (AppListener × UInt32) :=
  if m.broadcasting then none
  else some ({ m with flags := 0, log := .taken m.flags :: m.log }, m.flags)

def ret (m : AppListener) (call : WaitCall) (flags : UInt32) : AppListener :=
  { m with pc := .idle, log := .returned call m.now flags :: m.log }

/-- The next section of the waiting thread. -/
def waitStep (m : AppListener) : Option AppListener :=
  match m.pc with
  | .idle => none
  | .first call => do
    let (m, flags) ← m.evtGetAndClearFlags
    some { m with pc := if flags ≠ 0 then .drain call flags else .enter call }
  | .drain call flags => some ({ m with pending := false }.ret call flags)
  -- `iohdlc_evt_wait_any_timeout`
  | .enter call =>
    if m.pending then some { m with pending := false, pc := .collect call }
    else if call.timeoutMs = 0 then some (m.ret call 0)
    else
      some { m with
        pc := .blocked call
          (if call.timeoutMs = IOHDLC_WAIT_FOREVER then none else some (m.now + call.timeoutMs.toNat)) }
  | .blocked call _ =>
    if m.pending then some { m with pending := false, pc := .collect call } else none
  | .collect call => do
    let (m, flags) ← m.evtGetAndClearFlags
    some (m.ret call flags)

/-- What a thread does; broadcasts come one after the other. -/
def next (m : AppListener) : ListenerAction → Option AppListener
  | .tick => some { m with now := m.now + 1 }
  | .broadcast flags =>
    if m.broadcasting then none
    else
      some { m with
        flags := m.flags ||| (flags &&& m.wflags), broadcasting := true
        log := .published (flags &&& m.wflags) :: m.log }
  | .signal =>
    if m.broadcasting then
      some { m with
        broadcasting := false, pending := m.pending || decide (m.flags &&& m.wflags ≠ 0) }
    else none
  | .call timeoutMs =>
    match m.pc with
    | .idle => some { m with pc := .first { timeoutMs := timeoutMs, start := m.now } }
    | _ => none
  | .step => m.waitStep
  -- `pthread_cond_timedwait` gives up.
  | .expire =>
    match m.pc with
    | .blocked call (some deadline) => if deadline ≤ m.now then some (m.ret call 0) else none
    | _ => none

/-- A listener that was just registered. -/
structure Registered (m : AppListener) : Prop where
  flags : m.flags = 0
  pending : m.pending = false
  broadcasting : m.broadcasting = false
  pc : m.pc = .idle
  log : m.log = []

def Moves (cond : AppListener → ListenerAction → Prop) (m m' : AppListener) : Prop :=
  ∃ a, cond m a ∧ m.next a = some m'

/-! ### What a listener has to keep -/

/-- What has been published since flags were last taken. -/
def publishedSince : List ListenerEvent → UInt32
  | [] => 0
  | .published flags :: log => flags ||| publishedSince log
  | .taken _ :: _ => 0
  | .returned _ _ _ :: log => publishedSince log

/-- What has been taken since a wait last returned. -/
def takenSince : List ListenerEvent → UInt32
  | [] => 0
  | .published _ :: log => takenSince log
  | .taken flags :: log => flags ||| takenSince log
  | .returned _ _ _ :: _ => 0

/-- Every published flag is taken once, with what was published meanwhile, what is not
taken yet is kept, and a wait returns what it took. -/
structure Delivers (m : AppListener) : Prop where
  taken : ∀ post flags pre, m.log = post ++ .taken flags :: pre → flags = publishedSince pre
  kept : m.flags = publishedSince m.log
  returned : ∀ post call time flags pre, m.log = post ++ .returned call time flags :: pre →
    flags = takenSince pre

/-- A wait is blocked only while nothing is published. -/
def NeverBlocks (m : AppListener) : Prop :=
  ∀ call deadline, m.pc = .blocked call deadline → m.pending = false → m.broadcasting = false →
    m.flags = 0 ∧ takenSince m.log = 0

/-- A wait returns 0 only when its time has passed. -/
def Timely (m : AppListener) : Prop :=
  ∀ call time, .returned call time 0 ∈ m.log →
    call.timeoutMs ≠ IOHDLC_WAIT_FOREVER ∧ call.start + call.timeoutMs.toNat ≤ time

/-- No broadcast raises the event bit between the moment a wait consumes it and the
moment it takes the flags. -/
def KeepsBit (m : AppListener) (a : ListenerAction) : Prop :=
  (match a, m.pc with
    | .signal, .collect _ => decide (m.flags &&& m.wflags = 0)
    | _, _ => true) = true

instance (m : AppListener) (a : ListenerAction) : Decidable (m.KeepsBit a) :=
  inferInstanceAs (Decidable (_ = true))

/-! ### The steps of a run -/

section Step

variable {m m' : AppListener} {a : ListenerAction}

/-- What the running wait has taken and not returned yet. -/
def inHand : ListenerPc → UInt32
  | .drain _ flags => flags
  | _ => 0

/-- A wait that has found no flags and not yet seen the event bit. -/
def waits : ListenerPc → Bool
  | .enter _ | .blocked _ _ => true
  | _ => false

structure Inv (m : AppListener) : Prop where
  delivers : Delivers m
  masked : m.flags &&& m.wflags = m.flags
  hand : takenSince m.log = inHand m.pc
  bit : waits m.pc = true → m.flags ≠ 0 → m.broadcasting = false → m.pending = true

theorem Delivers.published (h : Delivers m) (flags : UInt32) (hf : m'.flags = flags ||| m.flags)
    (hlog : m'.log = .published flags :: m.log) : Delivers m' where
  taken post f pre hm := by
    rw [hlog] at hm
    cases post with
    | nil => cases hm
    | cons _ post => exact h.taken post f pre (List.cons.inj hm).2
  kept := by rw [hf, hlog, publishedSince, h.kept]
  returned post call time f pre hm := by
    rw [hlog] at hm
    cases post with
    | nil => cases hm
    | cons _ post => exact h.returned post call time f pre (List.cons.inj hm).2

theorem Delivers.take (h : Delivers m) (hf : m'.flags = 0) (hlog : m'.log = .taken m.flags :: m.log) :
    Delivers m' where
  taken post f pre hm := by
    rw [hlog] at hm
    cases post with
    | nil =>
      cases hm
      exact h.kept
    | cons _ post => exact h.taken post f pre (List.cons.inj hm).2
  kept := by
    rw [hf, hlog]
    rfl
  returned post call time f pre hm := by
    rw [hlog] at hm
    cases post with
    | nil => cases hm
    | cons _ post => exact h.returned post call time f pre (List.cons.inj hm).2

theorem Delivers.ret (h : Delivers m) (call : WaitCall) :
    Delivers (m.ret call (takenSince m.log)) where
  taken post f pre hm := by
    cases post with
    | nil => cases hm
    | cons _ post => exact h.taken post f pre (List.cons.inj hm).2
  kept := h.kept
  returned post c time f pre hm := by
    cases post with
    | nil =>
      cases hm
      rfl
    | cons _ post => exact h.returned post c time f pre (List.cons.inj hm).2

/-- Nothing that the deliveries depend on changes. -/
theorem Delivers.congr (h : Delivers m) (hf : m'.flags = m.flags) (hlog : m'.log = m.log) :
    Delivers m' := by
  obtain ⟨htaken, hkept, hreturned⟩ := h
  exact ⟨hlog ▸ htaken, by rw [hf, hlog, hkept], hlog ▸ hreturned⟩

/-- Selected flags stay selected. -/
theorem or_and_masked {x f w : UInt32} (h : x &&& w = x) : (x ||| f &&& w) &&& w = x ||| f &&& w := by
  rw [← UInt32.toBitVec_inj] at h ⊢
  rw [UInt32.toBitVec_and, UInt32.toBitVec_or, BitVec.and_or_distrib_right, ← UInt32.toBitVec_and, h,
    UInt32.toBitVec_and, BitVec.and_assoc, BitVec.and_self]

theorem evtGetAndClearFlags_eq {r : AppListener × UInt32} (h : m.evtGetAndClearFlags = some r) :
    m.broadcasting = false ∧ r = ({ m with flags := 0, log := .taken m.flags :: m.log }, m.flags) := by
  rw [evtGetAndClearFlags] at h
  split at h
  · cases h
  · next hb => exact ⟨by simpa using hb, (Option.some.inj h).symm⟩

/-- One section of the waiting thread. -/
theorem Inv.waitStep (h : Inv m) (hm : m.waitStep = some m') : Inv m' := by
  obtain ⟨wflags, flags, pending, broadcasting, pc, now, log⟩ := m
  obtain ⟨hd, hmask, hhand, hbit⟩ := h
  cases pc with
  | idle => cases hm
  | first call =>
    obtain ⟨r, hr, hm⟩ := Option.bind_eq_some_iff.1 hm
    obtain ⟨-, rfl⟩ := evtGetAndClearFlags_eq hr
    cases hm
    refine ⟨hd.take rfl rfl, UInt32.zero_and, ?_, fun _ hne => absurd rfl hne⟩
    have hnone : takenSince log = 0 := hhand
    by_cases hf : flags = 0
    · simp [takenSince, hnone, hf, inHand]
    · simp [takenSince, hnone, hf, inHand]
  | drain call f =>
    cases hm
    obtain rfl : takenSince log = f := hhand
    have hret := Delivers.ret (m := ⟨wflags, flags, false, broadcasting, .idle, now, log⟩)
      (hd.congr rfl rfl) call
    exact ⟨hret, hmask, rfl, fun hw => by cases hw⟩
  | enter call =>
    simp only [AppListener.waitStep] at hm
    split at hm
    · cases hm
      exact ⟨hd.congr rfl rfl, hmask, hhand, fun hw => by cases hw⟩
    · split at hm
      · cases hm
        have hret := hd.ret call
        rw [show takenSince _ = 0 from hhand] at hret
        exact ⟨hret, hmask, rfl, fun hw => by cases hw⟩
      · cases hm
        exact ⟨hd.congr rfl rfl, hmask, hhand, fun _ => hbit rfl⟩
  | blocked call deadline =>
    simp only [AppListener.waitStep] at hm
    split_ifs at hm with hp
    cases hm
    exact ⟨hd.congr rfl rfl, hmask, hhand, fun hw => by cases hw⟩
  | collect call =>
    obtain ⟨r, hr, hm⟩ := Option.bind_eq_some_iff.1 hm
    obtain ⟨-, rfl⟩ := evtGetAndClearFlags_eq hr
    cases hm
    have hnone : takenSince log = 0 := hhand
    have htaken : Delivers ⟨wflags, 0, pending, broadcasting, .collect call, now,
        .taken flags :: log⟩ := hd.take rfl rfl
    have hret := htaken.ret call
    rw [show takenSince (.taken flags :: log) = flags by simp [takenSince, hnone]] at hret
    exact ⟨hret, UInt32.zero_and, rfl, fun hw => by cases hw⟩

theorem Inv.next (h : Inv m) (hm : m.next a = some m') : Inv m' := by
  obtain ⟨wflags, flags, pending, broadcasting, pc, now, log⟩ := m
  obtain ⟨hd, hmask, hhand, hbit⟩ := h
  cases a with
  | tick =>
    cases hm
    exact ⟨hd.congr rfl rfl, hmask, hhand, hbit⟩
  | broadcast f =>
    simp only [AppListener.next] at hm
    split at hm
    · cases hm
    · cases hm
      exact ⟨hd.published (f &&& wflags) (UInt32.or_comm ..) rfl, or_and_masked hmask, hhand,
        fun _ _ hb => by cases hb⟩
  | signal =>
    simp only [AppListener.next] at hm
    split at hm
    · cases hm
      refine ⟨hd.congr rfl rfl, hmask, hhand, fun _ hne _ => ?_⟩
      dsimp only at hne hmask ⊢
      rw [hmask, decide_eq_true hne, Bool.or_true]
    · cases hm
  | call t =>
    cases pc with
    | idle =>
      cases hm
      exact ⟨hd.congr rfl rfl, hmask, hhand, fun hw => by cases hw⟩
    | _ => cases hm
  | step => exact Inv.waitStep ⟨hd, hmask, hhand, hbit⟩ hm
  | expire =>
    cases pc with
    | blocked call deadline =>
      cases deadline with
      | none => cases hm
      | some d =>
        simp only [AppListener.next] at hm
        split at hm
        · cases hm
          have hret := hd.ret call
          rw [show takenSince _ = 0 from hhand] at hret
          exact ⟨hret, hmask, rfl, fun hw => by cases hw⟩
        · cases hm
    | _ => cases hm

/-- The event bit stands for flags that are there, outside the two moments of a wait. -/
def BitTold (m : AppListener) : Prop :=
  match m.pc with
  | .idle => m.pending = true → m.flags ≠ 0
  | .first call | .enter call => (m.pending = true → m.flags ≠ 0) ∧ call.start ≤ m.now
  | .blocked call deadline => (m.pending = true → m.flags ≠ 0) ∧
      ∀ t ∈ deadline, call.timeoutMs ≠ IOHDLC_WAIT_FOREVER ∧ call.start + call.timeoutMs.toNat ≤ t
  | .drain _ flags => flags ≠ 0
  | .collect _ => m.pending = false ∧ m.flags ≠ 0

structure TimeInv (m : AppListener) : Prop where
  inv : Inv m
  bit : BitTold m
  timely : Timely m

/-- A return of flags, or of 0 in time. -/
theorem Timely.ret (h : Timely m) {call : WaitCall} {flags : UInt32}
    (hf : flags = 0 → call.timeoutMs ≠ IOHDLC_WAIT_FOREVER ∧
      call.start + call.timeoutMs.toNat ≤ m.now) : Timely (m.ret call flags) := by
  intro c time hc
  obtain heq | hc := List.mem_cons.1 hc
  · cases heq
    exact hf rfl
  · exact h c time hc

theorem TimeInv.waitStep (h : TimeInv m) (hm : m.waitStep = some m') : BitTold m' ∧ Timely m' := by
  obtain ⟨wflags, flags, pending, broadcasting, pc, now, log⟩ := m
  obtain ⟨-, hbit, htimely⟩ := h
  cases pc with
  | idle => cases hm
  | first call =>
    obtain ⟨r, hr, hm⟩ := Option.bind_eq_some_iff.1 hm
    obtain ⟨-, rfl⟩ := evtGetAndClearFlags_eq hr
    cases hm
    refine ⟨?_, fun c time hc => htimely c time ((List.mem_cons.1 hc).resolve_left (by simp))⟩
    by_cases hf : flags = 0
    · subst hf
      exact hbit
    · rw [BitTold]
      simp [hf]
  | drain call f =>
    cases hm
    exact ⟨fun hp => by (cases hp), htimely.ret fun hz => absurd hz hbit⟩
  | enter call =>
    simp only [AppListener.waitStep] at hm
    split at hm
    · next hp =>
      cases hm
      exact ⟨⟨rfl, hbit.1 hp⟩, htimely⟩
    · split at hm
      · next ht =>
        cases hm
        refine ⟨hbit.1, htimely.ret fun _ => ⟨?_, ?_⟩⟩
        · rw [ht]
          decide
        · rw [ht]
          exact hbit.2
      · cases hm
        refine ⟨⟨hbit.1, fun t ht => ?_⟩, htimely⟩
        split at ht
        · cases ht
        · next hforever =>
          cases ht
          exact ⟨hforever, Nat.add_le_add_right hbit.2 _⟩
  | blocked call deadline =>
    simp only [AppListener.waitStep] at hm
    split at hm
    · next hp =>
      cases hm
      exact ⟨⟨rfl, hbit.1 hp⟩, htimely⟩
    · cases hm
  | collect call =>
    obtain ⟨r, hr, hm⟩ := Option.bind_eq_some_iff.1 hm
    obtain ⟨-, rfl⟩ := evtGetAndClearFlags_eq hr
    cases hm
    have htaken : Timely ⟨wflags, 0, pending, broadcasting, .collect call, now, .taken flags :: log⟩ :=
      fun c time hc => htimely c time ((List.mem_cons.1 hc).resolve_left (by simp))
    exact ⟨fun hp => absurd (hbit.1.symm.trans hp) (by decide), htaken.ret fun hz => absurd hz hbit.2⟩

theorem TimeInv.next (h : TimeInv m) (ha : KeepsBit m a) (hm : m.next a = some m') : TimeInv m' := by
  have hinv := h.inv.next hm
  suffices hrest : BitTold m' ∧ Timely m' from ⟨hinv, hrest.1, hrest.2⟩
  clear hinv
  obtain ⟨wflags, flags, pending, broadcasting, pc, now, log⟩ := m
  obtain ⟨⟨hd, hmask, hhand, hb⟩, hbit, htimely⟩ := h
  cases a with
  | tick =>
    cases hm
    refine ⟨?_, htimely⟩
    cases pc with
    | first | enter => exact ⟨hbit.1, hbit.2.trans (Nat.le_succ _)⟩
    | _ => exact hbit
  | broadcast f =>
    simp only [AppListener.next] at hm
    split at hm
    · cases hm
    · cases hm
      refine ⟨?_, fun c time hc => htimely c time ((List.mem_cons.1 hc).resolve_left (by simp))⟩
      have hor (hf : flags ≠ 0) : flags ||| f &&& wflags ≠ 0 := fun hz =>
        hf (UInt32.or_eq_zero_iff.1 hz).1
      cases pc with
      | idle => exact fun hp => hor (hbit hp)
      | first | enter | blocked => exact ⟨fun hp => hor (hbit.1 hp), hbit.2⟩
      | drain => exact hbit
      | collect => exact ⟨hbit.1, hor hbit.2⟩
  | signal =>
    simp only [AppListener.next] at hm
    split at hm
    · cases hm
      refine ⟨?_, htimely⟩
      have htold (hp : pending = true → flags ≠ 0)
          (h : (pending || decide (flags &&& wflags ≠ 0)) = true) : flags ≠ 0 := by
        obtain h | h := Bool.or_eq_true_iff.1 h
        · exact hp h
        · exact fun hz => of_decide_eq_true h (by rw [hz, UInt32.zero_and])
      cases pc with
      | idle => exact htold hbit
      | first | enter | blocked => exact ⟨htold hbit.1, hbit.2⟩
      | drain => exact hbit
      | collect =>
        -- the condition leaves no flags to signal
        exact absurd (hmask.symm.trans (of_decide_eq_true ha)) hbit.2
    · cases hm
  | call t =>
    cases pc with
    | idle =>
      cases hm
      exact ⟨⟨hbit, le_rfl⟩, htimely⟩
    | _ => cases hm
  | step => exact TimeInv.waitStep ⟨⟨hd, hmask, hhand, hb⟩, hbit, htimely⟩ hm
  | expire =>
    cases pc with
    | blocked call deadline =>
      cases deadline with
      | none => cases hm
      | some d =>
        simp only [AppListener.next] at hm
        split at hm
        · next hd =>
          cases hm
          obtain ⟨hforever, hle⟩ := hbit.2 d rfl
          exact ⟨hbit.1, htimely.ret fun _ => ⟨hforever, hle.trans hd⟩⟩
        · cases hm
    | _ => cases hm

end Step

/-! ### Whole runs -/

theorem Inv.registered {m : AppListener} (h : Registered m) : Inv m where
  delivers :=
    { taken := by simp [h.log]
      kept := by simp [h.log, h.flags, publishedSince]
      returned := by simp [h.log] }
  masked := by rw [h.flags, UInt32.zero_and]
  hand := by simp [h.log, h.pc, takenSince, inHand]
  bit := fun hw => by simp [h.pc, waits] at hw

/-- Whatever broadcasts do, deliveries are exact and no wait blocks on published flags. -/
theorem delivers_of_reachable {cond : AppListener → ListenerAction → Prop} {m : AppListener}
    (h : Kit.Reachable Registered (Moves cond) m) : Delivers m ∧ NeverBlocks m := by
  have hinv : Inv m := h.invariant Inv (fun _ => Inv.registered) fun m m' hm hstep => by
    obtain ⟨a, -, ha⟩ := hstep
    exact hm.next ha
  refine ⟨hinv.delivers, fun call deadline hpc hp hb => ?_⟩
  have hw : waits m.pc = true := by rw [hpc]; rfl
  refine ⟨?_, by rw [hinv.hand, hpc]; rfl⟩
  by_contra hne
  exact absurd (hinv.bit hw hne hb) (by simp [hp])

/-- If no broadcast raises the event bit between the two moments of a wait, the waits are also
in time. -/
theorem listener_keeps {m : AppListener} (h : Kit.Reachable Registered (Moves KeepsBit) m) :
    Delivers m ∧ NeverBlocks m ∧ Timely m := by
  have hinv : TimeInv m := h.invariant TimeInv
    (fun m hm => ⟨.registered hm, by simp [BitTold, hm.pc, hm.pending], by simp [Timely, hm.log]⟩)
    fun m m' hm hstep => by
      obtain ⟨a, hcond, ha⟩ := hstep
      exact hm.next hcond ha
  obtain ⟨hdelivers, hblocks⟩ := delivers_of_reachable h
  exact ⟨hdelivers, hblocks, hinv.timely⟩

/-- A listener for two flags. -/
def fresh : AppListener :=
  { wflags := 3, flags := 0, pending := false, broadcasting := false, pc := .idle, now := 0, log := [] }

theorem registered_fresh : Registered fresh := ⟨rfl, rfl, rfl, rfl, rfl⟩

/-- A run that can be evaluated. -/
theorem exists_of_actions (cond : AppListener → ListenerAction → Prop) [∀ m a, Decidable (cond m a)]
    (as : List ListenerAction) (p : AppListener → Bool)
    (hp : (as.foldlM (fun (m : AppListener) a => if cond m a then m.next a else none)
      fresh).any p = true) : ∃ m, Kit.Reachable Registered (Moves cond) m ∧ p m = true :=
  Kit.Reachable.exists_of_run _ (fun m a m' ha => by
    split at ha
    · next hc => exact ⟨a, hc, ha⟩
    · cases ha) (.start registered_fresh) as p hp

/-- A wait that blocks until a flag is published. -/
theorem listener_keeps_woken :
    ∃ m : AppListener, (Delivers m ∧ NeverBlocks m ∧ Timely m) ∧
      m.log.head? = some (.returned { timeoutMs := IOHDLC_WAIT_FOREVER, start := 0 } 0 1) := by
  obtain ⟨m, hm, hp⟩ := exists_of_actions KeepsBit
    [.call IOHDLC_WAIT_FOREVER, .step, .step, .broadcast 1, .signal, .step, .step]
    (fun m => m.log.head? = some (.returned { timeoutMs := IOHDLC_WAIT_FOREVER, start := 0 } 0 1))
    (by decide +kernel)
  exact ⟨m, listener_keeps hm, of_decide_eq_true hp⟩

/-- A second broadcast between the two moments of a wait leaves the event bit behind, and the
next wait returns 0 although it has no time limit. -/
theorem listener_keeps_fails :
    ¬∀ m, Kit.Reachable Registered (Moves fun _ _ => True) m →
      Delivers m ∧ NeverBlocks m ∧ Timely m := by
  intro h
  obtain ⟨m, hm, hp⟩ := exists_of_actions (fun _ _ => True)
    [.call IOHDLC_WAIT_FOREVER, .step, .broadcast 1, .signal, .step, .broadcast 2, .signal, .step,
      .call IOHDLC_WAIT_FOREVER, .step, .step, .step]
    (fun m => decide (.returned { timeoutMs := IOHDLC_WAIT_FOREVER, start := 0 } 0 0 ∈ m.log))
    (by decide +kernel)
  exact ((h m hm).2.2 _ _ (of_decide_eq_true hp)).1 rfl

end AppListener

end IoHdlc
