import IoHdlc.Kit.Reachable
import IoHdlc.Model.Types

/-!
The reply timers of a peer over the POSIX virtual timers. What one of them is
set to expires at a time of the clock, and the operating system handles the
firing on a thread of its own at any time from then on. The calls of other
threads come in between: the sections of a call under the lock of the timer are
one step each. The reply and the T3 timer share nothing, this is either of them.
-/

namespace IoHdlc

open Kit

/-- `iohdlc_virtual_timer_t` with the setting of its POSIX timer: the arming that set it and the
time at which it expires, in nanoseconds. The model counts the armings, the program knows nothing
of them. `callback` is whether `s_timer_cb` is installed. -/
structure VirtualTimer where
  armed : Bool
  expired : Bool
  callback : Bool
  posix : Option (Nat × Nat)

namespace VirtualTimer

/-- `its.it_value`. -/
def itValue (delayMs : UInt32) : Nat :=
  (delayMs / 1000).toNat * 1000000000 + (delayMs % 1000).toNat * 1000000

/-- `timer_settime` with a relative value, where zero disarms. -/
def timerSettime (vtp : VirtualTimer) (arming now value : Nat) : VirtualTimer :=
  { vtp with posix := if value = 0 then none else some (arming, now + value) }

def iohdlcVtInit : VirtualTimer :=
  { armed := false, expired := false, callback := false, posix := none }

def iohdlcVtSet (vtp : VirtualTimer) (arming now : Nat) (delayMs : UInt32) : VirtualTimer :=
  let vtp := if vtp.armed then vtp.timerSettime arming now 0 else vtp
  let vtp := { vtp with callback := true, armed := true, expired := false }
  vtp.timerSettime arming now (itValue delayMs)

def iohdlcVtReset (vtp : VirtualTimer) (arming now : Nat) : VirtualTimer :=
  let vtp := if vtp.armed then { vtp.timerSettime arming now 0 with armed := false } else vtp
  { vtp with expired := false }

/-- `s_timer_cb`, which also broadcasts the event that makes the station look at the timer. -/
def sTimerCb (vtp : VirtualTimer) : VirtualTimer := { vtp with expired := true }

def timerSignalHandler (vtp : VirtualTimer) : VirtualTimer :=
  if vtp.armed then
    let vtp := { vtp with armed := false, expired := true }
    if vtp.callback then vtp.sTimerCb else vtp
  else vtp

section

variable (vtp : VirtualTimer) (arming now : Nat) (delayMs : UInt32)

@[simp] theorem armed_iohdlcVtSet : (vtp.iohdlcVtSet arming now delayMs).armed = true := rfl

@[simp] theorem expired_iohdlcVtSet : (vtp.iohdlcVtSet arming now delayMs).expired = false := rfl

/-- A timer that was set expires for this arming, at its deadline. -/
theorem posix_of_iohdlcVtSet {arming' due : Nat}
    (h : (vtp.iohdlcVtSet arming now delayMs).posix = some (arming', due)) :
    arming' = arming ∧ due = now + itValue delayMs := by
  have hset : (if itValue delayMs = 0 then none else some (arming, now + itValue delayMs)) =
      some (arming', due) :=
    h
  split_ifs at hset
  cases hset
  exact ⟨rfl, rfl⟩

@[simp] theorem armed_iohdlcVtReset : (vtp.iohdlcVtReset arming now).armed = false := by
  rw [iohdlcVtReset]
  split
  · rfl
  · next h => simpa using h

@[simp] theorem expired_iohdlcVtReset : (vtp.iohdlcVtReset arming now).expired = false := rfl

/-- A reset sets the POSIX timer to nothing new. -/
theorem posix_of_iohdlcVtReset {setting : Nat × Nat}
    (h : (vtp.iohdlcVtReset arming now).posix = some setting) : vtp.posix = some setting := by
  rw [iohdlcVtReset] at h
  split at h
  · cases h
  · exact h

@[simp] theorem posix_timerSignalHandler : vtp.timerSignalHandler.posix = vtp.posix := by
  cases h : vtp.armed <;> cases hc : vtp.callback <;> simp [timerSignalHandler, sTimerCb, h, hc]

@[simp] theorem armed_timerSignalHandler : vtp.timerSignalHandler.armed = false := by
  cases h : vtp.armed <;> cases hc : vtp.callback <;> simp [timerSignalHandler, sTimerCb, h, hc]

/-- The handler marks a timer that it finds armed. -/
theorem expired_timerSignalHandler :
    vtp.timerSignalHandler.expired = (vtp.armed || vtp.expired) := by
  cases h : vtp.armed <;> cases hc : vtp.callback <;> simp [timerSignalHandler, sTimerCb, h, hc]

end

end VirtualTimer

/-- Where a thread is in a call on the timer. -/
inductive TimerCaller
  | idle
  /-- In `ioHdlcRestartReplyTimer`, behind the check whether the timer is armed. -/
  | restarting (timeoutMs : UInt32)
  /-- In `ioHdlcStopReplyTimer`, behind `iohdlc_vt_reset`. -/
  | stopping
  /-- In `ioHdlcIsReplyTimerExpired`, behind `iohdlc_vt_is_armed`. -/
  | asking
  deriving DecidableEq

/-- The timer, the armings whose firings wait for their handler, the clock and the callers. The
last three fields are what happened: how often the timer was started, the deadline of the latest
start, and whether it was stopped since. -/
structure TimerRun (T : Type*) where
  timer : VirtualTimer
  firings : List Nat
  now : Nat
  callers : T → TimerCaller
  armings : Nat
  deadline : Nat
  stopped : Bool

/-- A section of a call, the passing of time, the expiry of the POSIX timer, or the handler of one
of the firings. -/
inductive TimerAction (T : Type*)
  | start (timeoutMs : UInt32)
  | restartCheck (t : T) (timeoutMs : UInt32)
  | restartSet (t : T)
  | stopReset (t : T)
  | stopClear (t : T)
  | askArmed (t : T)
  | askExpired (t : T)
  | pass (ns : Nat)
  | expire
  | handle (k : Nat)

namespace TimerRun

variable {T : Type*}

def initial : TimerRun T :=
  { timer := VirtualTimer.iohdlcVtInit
    firings := []
    now := 0
    callers := fun _ => .idle
    armings := 0
    deadline := 0
    stopped := false }

/-- `iohdlc_vt_set`. -/
def set (s : TimerRun T) (timeoutMs : UInt32) : TimerRun T :=
  { s with
    timer := s.timer.iohdlcVtSet (s.armings + 1) s.now timeoutMs
    armings := s.armings + 1
    deadline := s.now + VirtualTimer.itValue timeoutMs
    stopped := false }

/-- `iohdlc_vt_reset`. -/
def reset (s : TimerRun T) : TimerRun T :=
  { s with timer := s.timer.iohdlcVtReset s.armings s.now, stopped := true }

variable [DecidableEq T]

def goto (s : TimerRun T) (t : T) (place : TimerCaller) : TimerRun T :=
  { s with callers := Function.update s.callers t place }

def next (s : TimerRun T) : TimerAction T → Option (TimerRun T)
  | .start timeoutMs => some (s.set timeoutMs)
  | .restartCheck t timeoutMs =>
    if s.callers t ≠ .idle then none
    else if s.timer.armed then some (s.goto t (.restarting timeoutMs))
    else some s
  | .restartSet t =>
    match s.callers t with
    | .restarting timeoutMs => some ((s.set timeoutMs).goto t .idle)
    | _ => none
  | .stopReset t => if s.callers t ≠ .idle then none else some (s.reset.goto t .stopping)
  | .stopClear t =>
    if s.callers t ≠ .stopping then none
    else some { s.goto t .idle with timer := { s.timer with expired := false } }
  | .askArmed t =>
    if s.callers t ≠ .idle then none
    else if s.timer.armed then some s
    else some (s.goto t .asking)
  | .askExpired t => if s.callers t ≠ .asking then none else some (s.goto t .idle)
  | .pass ns => some { s with now := s.now + ns }
  | .expire =>
    match s.timer.posix with
    | some (arming, due) =>
      if due ≤ s.now then
        some { s with timer := { s.timer with posix := none }, firings := s.firings ++ [arming] }
      else none
    | none => none
  | .handle k =>
    if k < s.firings.length then
      some { s with timer := s.timer.timerSignalHandler, firings := s.firings.eraseIdx k }
    else none

/-! ### What a run is to keep -/

/-- `ioHdlcIsReplyTimerExpired` where nothing comes in between. -/
def ioHdlcIsReplyTimerExpired (s : TimerRun T) : Bool := !s.timer.armed && s.timer.expired

/-- What `ioHdlcIsReplyTimerExpired` answers in this section, if it answers. -/
def answer (s : TimerRun T) : TimerAction T → Option Bool
  | .askArmed _ => if s.timer.armed then some false else none
  | .askExpired _ => some s.timer.expired
  | _ => none

/-- The deadline of the latest start has passed, and the timer was not stopped since. -/
def Due (s : TimerRun T) : Prop := 0 < s.armings ∧ s.deadline ≤ s.now ∧ s.stopped = false

/-- What a step has to show: the timer counts as expired and is reported as expired only when it
is due, and a firing of an earlier arming does not mark it. -/
structure Truthful (s : TimerRun T) (a : TimerAction T) (s' : TimerRun T) : Prop where
  expired : s'.ioHdlcIsReplyTimerExpired = true → s'.Due
  answered : s.answer a = some true → s.Due
  marks : ∀ k arming, a = .handle k → s.firings[k]? = some arming → arming ≠ s.armings →
    s'.timer.expired = s.timer.expired

/-- A handler that finds the timer armed has the firing of the latest arming. -/
def Timely (s : TimerRun T) (a : TimerAction T) (_ : TimerRun T) : Prop :=
  ∀ k arming, a = .handle k → s.firings[k]? = some arming → s.timer.armed = true →
    arming = s.armings

/-! ### Steps -/

/-- What an action can change. -/
inductive Effect (s : TimerRun T) : TimerAction T → TimerRun T → Prop
  | set {a : TimerAction T} (timeoutMs : UInt32) (callers : T → TimerCaller) :
    Effect s a { s.set timeoutMs with callers := callers }
  | reset {a : TimerAction T} (callers : T → TimerCaller) :
    Effect s a { s.reset with callers := callers }
  | clear {a : TimerAction T} (callers : T → TimerCaller) :
    Effect s a { s with callers := callers, timer := { s.timer with expired := false } }
  | callers {a : TimerAction T} (callers : T → TimerCaller) :
    Effect s a { s with callers := callers }
  | pass (ns : Nat) : Effect s (.pass ns) { s with now := s.now + ns }
  | expire {arming due : Nat} (hposix : s.timer.posix = some (arming, due)) (hdue : due ≤ s.now) :
    Effect s .expire
      { s with timer := { s.timer with posix := none }, firings := s.firings ++ [arming] }
  | handle {k : Nat} (hk : k < s.firings.length) :
    Effect s (.handle k)
      { s with timer := s.timer.timerSignalHandler, firings := s.firings.eraseIdx k }

variable {s s' : TimerRun T} {a : TimerAction T}

theorem next_effect (h : next s a = some s') : Effect s a s' := by
  cases a with
  | start timeoutMs =>
    cases h
    exact .set timeoutMs s.callers
  | restartCheck t timeoutMs =>
    rw [next] at h
    split_ifs at h
    · cases h
      exact .callers _
    · cases h
      exact .callers s.callers
  | restartSet t =>
    rw [next] at h
    split at h
    · next timeoutMs _ =>
      cases h
      exact .set timeoutMs _
    · cases h
  | stopReset t =>
    rw [next] at h
    split_ifs at h
    cases h
    exact .reset _
  | stopClear t =>
    rw [next] at h
    split_ifs at h
    cases h
    exact .clear _
  | askArmed t =>
    rw [next] at h
    split_ifs at h
    · cases h
      exact .callers s.callers
    · cases h
      exact .callers _
  | askExpired t =>
    rw [next] at h
    split_ifs at h
    cases h
    exact .callers _
  | pass ns =>
    cases h
    exact .pass ns
  | expire =>
    rw [next] at h
    split at h
    · next arming due hposix =>
      split_ifs at h with hdue
      cases h
      exact .expire hposix hdue
    · cases h
  | handle k =>
    rw [next] at h
    split_ifs at h with hk
    cases h
    exact .handle hk

/-- An armed timer is not marked. -/
def Unmarked (s : TimerRun T) : Prop := s.timer.armed = true → s.timer.expired = false

theorem Unmarked.step (h : s.Unmarked) (hnext : next s a = some s') : s'.Unmarked := by
  cases next_effect hnext with
  | set | reset | clear => exact fun _ => rfl
  | callers | pass | expire => exact h
  | handle =>
    intro harmed
    simp at harmed

/-- What is known of a run in which no firing of an earlier arming found the timer armed. -/
structure Punctual (s : TimerRun T) : Prop where
  unmarked : s.Unmarked
  started : s.timer.armed = true → 0 < s.armings ∧ s.stopped = false
  posix : ∀ arming due, s.timer.posix = some (arming, due) → arming = s.armings ∧ due = s.deadline
  firings : ∀ arming ∈ s.firings, arming ≤ s.armings ∧ (arming = s.armings → s.deadline ≤ s.now)
  due : s.timer.expired = true → s.Due

namespace Punctual

omit [DecidableEq T] in
theorem start : (initial : TimerRun T).Punctual where
  unmarked := fun _ => rfl
  started := fun h => by cases h
  posix := fun _ _ h => by cases h
  firings := fun _ h => by cases h
  due := fun h => by cases h

theorem step (h : s.Punctual) (hnext : next s a = some s') (htimely : s.Timely a s') :
    s'.Punctual := by
  have hunmarked := h.unmarked.step hnext
  cases next_effect hnext with
  | set timeoutMs callers =>
    refine ⟨hunmarked, fun _ => ⟨Nat.succ_pos _, rfl⟩, ?_, ?_, fun hexp => by cases hexp⟩
    · exact fun arming due hposix => VirtualTimer.posix_of_iohdlcVtSet _ _ _ _ hposix
    · intro arming hmem
      -- what is on its way now belongs to an earlier arming
      have hold := (h.firings arming hmem).1
      exact ⟨Nat.le_succ_of_le hold, fun heq => absurd heq (Nat.ne_of_lt (Nat.lt_succ_of_le hold))⟩
  | reset callers =>
    refine ⟨hunmarked, fun harmed => ?_, ?_, h.firings, fun hexp => by cases hexp⟩
    · exact absurd harmed (by simp [reset])
    · intro arming due hposix
      exact h.posix arming due (VirtualTimer.posix_of_iohdlcVtReset _ _ _ hposix)
  | clear callers => exact ⟨hunmarked, h.started, h.posix, h.firings, fun hexp => by cases hexp⟩
  | callers callers => exact ⟨hunmarked, h.started, h.posix, h.firings, h.due⟩
  | pass ns =>
    refine ⟨hunmarked, h.started, h.posix, ?_, ?_⟩
    · intro arming hmem
      obtain ⟨hle, hdue⟩ := h.firings arming hmem
      exact ⟨hle, fun heq => Nat.le_add_right_of_le (hdue heq)⟩
    · intro hexp
      obtain ⟨hpos, hdue, hstopped⟩ := h.due hexp
      exact ⟨hpos, Nat.le_add_right_of_le hdue, hstopped⟩
  | expire hposix hdue =>
    obtain ⟨hlatest, hdeadline⟩ := h.posix _ _ hposix
    refine ⟨hunmarked, h.started, (fun _ _ hnone => by cases hnone), ?_, h.due⟩
    intro arming hmem
    rcases List.mem_append.mp hmem with hmem | hmem
    · exact h.firings arming hmem
    · rw [List.mem_singleton.mp hmem]
      exact ⟨Nat.le_of_eq hlatest, fun _ => hdeadline ▸ hdue⟩
  | handle hk =>
    refine ⟨hunmarked, fun harmed => ?_, ?_, ?_, ?_⟩
    · simp at harmed
    · intro arming due hposix
      rw [VirtualTimer.posix_timerSignalHandler] at hposix
      exact h.posix arming due hposix
    · exact fun arming hmem => h.firings arming (List.mem_of_mem_eraseIdx hmem)
    · intro hexp
      rw [VirtualTimer.expired_timerSignalHandler, Bool.or_eq_true] at hexp
      rcases hexp with harmed | hexp
      · -- the firing is the one of the latest arming, so its deadline has passed
        have hmem := List.getElem_mem hk
        have hlatest := htimely _ _ rfl (List.getElem?_eq_getElem hk) harmed
        obtain ⟨hpos, hstopped⟩ := h.started harmed
        exact ⟨hpos, (h.firings _ hmem).2 hlatest, hstopped⟩
      · exact h.due hexp

end Punctual

/-- Under the condition a step is as it should be. -/
theorem Punctual.truthful (h : s.Punctual) (hnext : next s a = some s') (htimely : s.Timely a s') :
    s.Truthful a s' where
  expired := by
    intro hexp
    rw [ioHdlcIsReplyTimerExpired, Bool.and_eq_true] at hexp
    exact (h.step hnext htimely).due hexp.2
  answered := by
    intro hanswer
    cases a with
    | askArmed t =>
      rw [answer] at hanswer
      split_ifs at hanswer
      cases hanswer
    | askExpired t => exact h.due (Option.some.inj hanswer)
    | start | restartCheck | restartSet | stopReset | stopClear | pass | expire | handle =>
      cases hanswer
  marks := by
    rintro k arming rfl hk hearlier
    have hidle : s.timer.armed = false :=
      Bool.eq_false_iff.mpr fun harmed => hearlier (htimely k arming rfl hk harmed)
    rw [next] at hnext
    split_ifs at hnext
    cases hnext
    rw [VirtualTimer.expired_timerSignalHandler, hidle, Bool.false_or]

/-- A firing of an earlier arming that finds the timer armed marks it. -/
theorem Truthful.timely (h : s.Truthful a s') (hs : s.Unmarked) (hnext : next s a = some s') :
    s.Timely a s' := by
  rintro k arming rfl hk harmed
  by_contra hearlier
  have hmark := h.marks k arming rfl hk hearlier
  rw [next] at hnext
  split_ifs at hnext
  cases hnext
  rw [VirtualTimer.expired_timerSignalHandler, harmed, hs harmed] at hmark
  cases hmark

/-- In a run of calls, expiries and handlers in any order the timer is reported as expired only
when it is due, and no firing of an earlier arming marks it, exactly if each handler that finds
the timer armed has the firing of the latest arming. -/
theorem replyTimer_truthful_iff (as : List (TimerAction T)) :
    Along next Truthful initial as ↔ Along next Timely initial as := by
  constructor
  · intro h
    refine Along.imp Unmarked (fun s a s' hs hnext hstep => ?_) Punctual.start.unmarked h
    exact ⟨hstep.timely hs hnext, hs.step hnext⟩
  · intro h
    refine Along.imp Punctual (fun s a s' hs hnext hstep => ?_) Punctual.start h
    exact ⟨hs.truthful hnext hstep, hs.step hnext hstep⟩

/-- A timer of 1 ms expires, is started again with 1 s before its firing is handled, and then
counts as expired. -/
theorem replyTimer_truthful_fails :
    ¬∀ as : List (TimerAction Unit), Along next Truthful initial as := by
  intro h
  obtain ⟨-, -, -, -, hhandled, -⟩ :=
    h [.start 1, .pass 1000000, .expire, .start 1000, .handle 0]
  obtain ⟨-, hdeadline, -⟩ := hhandled.expired rfl
  exact absurd hdeadline (by decide)

/-! ### Starts with nothing on its way -/

/-- A start finds every firing handled. -/
def StartsQuiet (s : TimerRun T) (_ : TimerAction T) (s' : TimerRun T) : Prop :=
  s.armings < s'.armings → s.firings = []

/-- All that is on its way is from the latest arming. -/
def OneArming (s : TimerRun T) : Prop :=
  (∀ arming ∈ s.firings, arming = s.armings) ∧
    ∀ arming due, s.timer.posix = some (arming, due) → arming = s.armings

theorem OneArming.step (h : s.OneArming) (hnext : next s a = some s')
    (hquiet : s.StartsQuiet a s') : s'.OneArming := by
  obtain ⟨hfirings, hposix⟩ := h
  cases next_effect hnext with
  | set timeoutMs callers =>
    have hnone : s.firings = [] := hquiet (Nat.lt_succ_self _)
    refine ⟨?_, fun arming due hset => (VirtualTimer.posix_of_iohdlcVtSet _ _ _ _ hset).1⟩
    intro arming hmem
    have hold : arming ∈ s.firings := hmem
    rw [hnone] at hold
    cases hold
  | reset callers =>
    exact ⟨hfirings, fun arming due hset =>
      hposix arming due (VirtualTimer.posix_of_iohdlcVtReset _ _ _ hset)⟩
  | clear callers | callers callers | pass ns => exact ⟨hfirings, hposix⟩
  | expire hdue _ =>
    refine ⟨fun arming hmem => ?_, fun _ _ hnone => by cases hnone⟩
    rcases List.mem_append.mp hmem with hmem | hmem
    · exact hfirings arming hmem
    · rw [List.mem_singleton.mp hmem]
      exact hposix _ _ hdue
  | handle hk =>
    refine ⟨fun arming hmem => hfirings arming (List.mem_of_mem_eraseIdx hmem), ?_⟩
    intro arming due hset
    rw [VirtualTimer.posix_timerSignalHandler] at hset
    exact hposix arming due hset

/-- A run whose starts all find the firings handled reports the timer as it is. -/
theorem truthful_of_startsQuiet {as : List (TimerAction T)}
    (h : Along next StartsQuiet initial as) : Along next Truthful initial as := by
  refine Along.imp (fun s => s.Punctual ∧ s.OneArming) ?_ ⟨Punctual.start, ?_⟩ h
  · intro s a s' ⟨hs, hone⟩ hnext hquiet
    have htimely : s.Timely a s' := by
      rintro k arming - hk -
      exact hone.1 arming (List.mem_of_getElem? hk)
    exact ⟨hs.truthful hnext htimely, hs.step hnext htimely, hone.step hnext hquiet⟩
  · exact ⟨(fun _ hmem => by cases hmem), fun _ _ hset => by cases hset⟩

/-! ### The timer of the station -/

/-- The timer that the station works with. -/
def Represents (s : TimerRun T) (t : VTimer) : Prop :=
  t.armed = s.timer.armed ∧ t.expired = s.timer.expired

/-- Every action is at most one operation of that timer: a start, a stop, the second half of a stop,
or its expiry while it is armed. -/
theorem next_represents {t : VTimer} (h : s.Represents t) (hnext : next s a = some s') :
    ∃ t', s'.Represents t' ∧ (t' = t ∨ (∃ delayMs, t' = t.set delayMs) ∨ t' = t.reset ∨
      t' = { t with expired := false } ∨ t.armed = true ∧ t' = t.fire) := by
  obtain ⟨harmed, hexpired⟩ := h
  cases next_effect hnext with
  | set timeoutMs callers => exact ⟨t.set timeoutMs, ⟨rfl, rfl⟩, .inr (.inl ⟨timeoutMs, rfl⟩)⟩
  | reset callers =>
    refine ⟨t.reset, ⟨?_, rfl⟩, .inr (.inr (.inl rfl))⟩
    simp [reset, VTimer.reset]
  | clear callers =>
    exact ⟨{ t with expired := false }, ⟨harmed, rfl⟩, .inr (.inr (.inr (.inl rfl)))⟩
  | callers callers => exact ⟨t, ⟨harmed, hexpired⟩, .inl rfl⟩
  | pass ns => exact ⟨t, ⟨harmed, hexpired⟩, .inl rfl⟩
  | expire => exact ⟨t, ⟨harmed, hexpired⟩, .inl rfl⟩
  | handle hk =>
    cases hidle : s.timer.armed with
    | true =>
      refine ⟨t.fire, ⟨?_, ?_⟩, .inr (.inr (.inr (.inr ⟨harmed.trans hidle, rfl⟩)))⟩
      · simp [VTimer.fire]
      · simp [VTimer.fire, VirtualTimer.expired_timerSignalHandler, hidle]
    | false =>
      refine ⟨t, ⟨?_, ?_⟩, .inl rfl⟩
      · simp [harmed, hidle]
      · simp [hexpired, VirtualTimer.expired_timerSignalHandler, hidle]

end TimerRun

end IoHdlc
