import IoHdlc.Kit.Reachable
import IoHdlc.Kit.WrapClock
import Mathlib.Algebra.Order.Group.Nat

/-!
The link manager: a thread that watches a peer and asks for the link again.

`ioHdlcLinkManagerRun` is cut at its calls. What a call tells, the peer's state,
a stop request, readiness or the clock, is free, and time goes on between any
two of them. A run records what it asks, sees and reports, the newest first.
-/

namespace IoHdlc

open Kit

/-- `iohdlc_peer_state_t`. -/
inductive PeerState where
  | invalid | disconnected | connected | orderlyClosed | aborted
  deriving DecidableEq, Repr

/-- What the loop depends on of `iohdlc_link_manager_config_t`. -/
structure LinkManagerConfig where
  retryIntervalMs : UInt32
  active : Bool
  isReady : Bool
  onStateChange : Bool

/-- An attempt begins or ends, the loop samples the peer's state, the callback is
invoked, a stop request is seen. -/
inductive LinkManagerEvent where
  | attemptBegins (t : Nat)
  | attemptEnds (t : Nat)
  | sampled (state : PeerState)
  | callback (state : PeerState)
  | stopSeen
  deriving DecidableEq, Repr

inductive LinkManagerPc where
  | entry | register | firstNotify | head | sample | wait | notify | clock | ready | stopCheck
  | connect | connecting | attemptNotify | recheck | deadline
  | returned (result : Int)
  deriving DecidableEq, Repr

/-- The variables of the function, the time of its last call and its record. -/
structure LinkManager where
  pc : LinkManagerPc
  lastState : PeerState
  retryDeadline : UInt32
  retryPending : Bool
  time : Nat
  trace : List LinkManagerEvent
  deriving DecidableEq, Repr

/-- What the next call finds. -/
structure LinkManagerEnv where
  now : Nat
  running : Bool
  registered : Bool
  stopRequested : Bool
  isReady : Bool
  state : PeerState

namespace LinkManager

/-- `notifyState`. -/
def notifyState (cfg : LinkManagerConfig) (env : LinkManagerEnv) (m : LinkManager) : LinkManager :=
  if env.state = m.lastState then m
  else
    { m with
      lastState := env.state
      trace := if cfg.onStateChange then .callback env.state :: m.trace else m.trace }

/-- The next call of `ioHdlcLinkManagerRun`. -/
def next (cfg : LinkManagerConfig) (env : LinkManagerEnv) (m : LinkManager) : LinkManager :=
  let m := { m with time := env.now }
  match m.pc with
  | .entry =>
    if env.running then { m with pc := .returned (-1) }
    else if env.stopRequested then { m with pc := .returned 0, trace := .stopSeen :: m.trace }
    else { m with pc := .register }
  | .register =>
    if env.registered then { m with pc := .firstNotify } else { m with pc := .returned (-1) }
  | .firstNotify => { m.notifyState cfg env with pc := .head }
  | .head =>
    if env.stopRequested then { m with pc := .returned 0, trace := .stopSeen :: m.trace }
    else { m with pc := .sample }
  | .sample =>
    let m := { m with trace := .sampled env.state :: m.trace }
    if cfg.active = false ∨ env.state = .connected then { m with retryPending := false, pc := .wait }
    else if m.retryPending then { m with pc := .clock }
    else { m with pc := .ready }
  -- However long a wait lasts, what follows it is the same.
  | .wait => { m with pc := .notify }
  | .notify => { m.notifyState cfg env with pc := .head }
  | .clock =>
    if signedDiff (clock env.now) m.retryDeadline < 0 then { m with pc := .wait }
    else { m with retryPending := false, pc := .ready }
  | .ready =>
    if cfg.isReady = false ∨ env.isReady then { m with pc := .stopCheck }
    else { m with pc := .deadline }
  | .stopCheck =>
    if env.stopRequested then { m with pc := .returned 0, trace := .stopSeen :: m.trace }
    else { m with pc := .connect }
  | .connect => { m with pc := .connecting, trace := .attemptBegins env.now :: m.trace }
  | .connecting => { m with pc := .attemptNotify, trace := .attemptEnds env.now :: m.trace }
  | .attemptNotify => { m.notifyState cfg env with pc := .recheck }
  | .recheck =>
    { m with
      pc := if env.state = .connected then .head else .deadline
      trace := .sampled env.state :: m.trace }
  | .deadline =>
    { m with
      pc := .head, retryDeadline := clock env.now + cfg.retryIntervalMs, retryPending := true }
  | .returned _ => m

/-- The function is called. -/
structure Start (m : LinkManager) : Prop where
  pc : m.pc = .entry
  lastState : m.lastState = .invalid
  retryPending : m.retryPending = false
  trace : m.trace = []

/-- Time does not run backwards. -/
def Moves (cfg : LinkManagerConfig) (m m' : LinkManager) : Prop :=
  ∃ env, m.time ≤ env.now ∧ m' = m.next cfg env

/-! ### What a run has to keep -/

/-- Neither an attempt nor a sampled connection. -/
def Quiet (mid : List LinkManagerEvent) : Prop :=
  (∀ t, .attemptBegins t ∉ mid) ∧ (∀ t, .attemptEnds t ∉ mid) ∧ .sampled .connected ∉ mid

/-- Attempts are paced, a seen stop request is the end of them, and no state is
reported twice in a row. -/
structure Keeps (cfg : LinkManagerConfig) (trace : List LinkManagerEvent) : Prop where
  paced : ∀ post mid pre t t₀,
    trace = post ++ .attemptBegins t :: (mid ++ .attemptEnds t₀ :: pre) → Quiet mid →
      t₀ + cfg.retryIntervalMs.toNat ≤ t
  stopped : ∀ post pre t, trace = post ++ .attemptBegins t :: pre → .stopSeen ∉ pre
  changed : ∀ post mid pre s s₀,
    trace = post ++ .callback s :: (mid ++ .callback s₀ :: pre) → (∀ s, .callback s ∉ mid) → s ≠ s₀

/-! ### The newest entries of a record -/

/-- The end of the last attempt, unless one is under way or a connection was sampled
behind it. -/
def lastEnd : List LinkManagerEvent → Option Nat
  | [] => none
  | .attemptEnds t :: _ => some t
  | .attemptBegins _ :: _ => none
  | .sampled .connected :: _ => none
  | _ :: trace => lastEnd trace

/-- The last state reported. -/
def lastCallback : List LinkManagerEvent → Option PeerState
  | [] => none
  | .callback s :: _ => some s
  | _ :: trace => lastCallback trace

theorem lastEnd_of_quiet {mid pre : List LinkManagerEvent} {t₀ : Nat} (h : Quiet mid) :
    lastEnd (mid ++ .attemptEnds t₀ :: pre) = some t₀ := by
  induction mid with
  | nil => rfl
  | cons e mid ih =>
    obtain ⟨hbegins, hends, hconn⟩ := h
    have hrest := ih ⟨fun t ht => hbegins t (.tail _ ht), fun t ht => hends t (.tail _ ht),
      fun hc => hconn (.tail _ hc)⟩
    cases e with
    | attemptBegins t => exact absurd (.head _) (hbegins t)
    | attemptEnds t => exact absurd (.head _) (hends t)
    | sampled s =>
      cases s with
      | connected => exact absurd (.head _) hconn
      | _ => exact hrest
    | callback s => exact hrest
    | stopSeen => exact hrest

theorem lastCallback_of_not_mem {mid pre : List LinkManagerEvent} {s₀ : PeerState}
    (h : ∀ s, .callback s ∉ mid) : lastCallback (mid ++ .callback s₀ :: pre) = some s₀ := by
  induction mid with
  | nil => rfl
  | cons e mid ih =>
    have hrest := ih fun s hs => h s (.tail _ hs)
    cases e with
    | callback s => exact absurd (.head _) (h s)
    | _ => exact hrest

theorem Keeps.nil (cfg : LinkManagerConfig) : Keeps cfg [] where
  paced := by simp
  stopped := by simp
  changed := by simp

/-- What a new entry has to respect. -/
theorem Keeps.cons {cfg : LinkManagerConfig} {trace : List LinkManagerEvent} {e : LinkManagerEvent}
    (h : Keeps cfg trace)
    (hbegins : ∀ t, e = .attemptBegins t →
      .stopSeen ∉ trace ∧ ∀ t₀ ∈ lastEnd trace, t₀ + cfg.retryIntervalMs.toNat ≤ t)
    (hcallback : ∀ s, e = .callback s → ∀ s₀ ∈ lastCallback trace, s ≠ s₀) :
    Keeps cfg (e :: trace) where
  paced post mid pre t t₀ htrace hquiet := by
    cases post with
    | nil =>
      obtain ⟨he, rfl⟩ := List.cons.inj htrace
      exact (hbegins t he).2 t₀ (lastEnd_of_quiet hquiet)
    | cons _ post => exact h.paced post mid pre t t₀ (List.cons.inj htrace).2 hquiet
  stopped post pre t htrace := by
    cases post with
    | nil =>
      obtain ⟨he, rfl⟩ := List.cons.inj htrace
      exact (hbegins t he).1
    | cons _ post => exact h.stopped post pre t (List.cons.inj htrace).2
  changed post mid pre s s₀ htrace hmid := by
    cases post with
    | nil =>
      obtain ⟨he, rfl⟩ := List.cons.inj htrace
      exact hcallback s he s₀ (lastCallback_of_not_mem hmid)
    | cons _ post => exact h.changed post mid pre s s₀ (List.cons.inj htrace).2 hmid

/-- An entry that is no attempt and no report. -/
theorem Keeps.cons_other {cfg : LinkManagerConfig} {trace : List LinkManagerEvent}
    {e : LinkManagerEvent} (h : Keeps cfg trace) (hb : ∀ t, e ≠ .attemptBegins t)
    (hc : ∀ s, e ≠ .callback s) : Keeps cfg (e :: trace) :=
  h.cons (fun t ht => absurd ht (hb t)) fun s hs => absurd hs (hc s)

/-! ### The invariant -/

/-- The deadline of the last attempt was set behind its end. -/
def Waiting (cfg : LinkManagerConfig) (m : LinkManager) : Prop :=
  ∀ t₀ ∈ lastEnd m.trace, m.retryPending = true ∧
    ∃ s, t₀ ≤ s ∧ s ≤ m.time ∧ m.retryDeadline = Kit.clock s + cfg.retryIntervalMs

/-- What is known about the time since the last attempt. -/
def Due (cfg : LinkManagerConfig) (m : LinkManager) : Prop :=
  match m.pc with
  | .entry | .register | .firstNotify | .connecting => lastEnd m.trace = none
  | .head | .sample | .wait | .notify | .clock => Waiting cfg m
  | .ready | .stopCheck | .connect =>
    ∀ t₀ ∈ lastEnd m.trace, t₀ + cfg.retryIntervalMs.toNat ≤ m.time
  | .attemptNotify | .recheck | .deadline | .returned _ => True

/-- Where a manager without connection attempts can be. -/
def isPassive : LinkManagerPc → Bool
  | .entry | .register | .firstNotify | .head | .sample | .wait | .notify | .returned _ => true
  | _ => false

structure Inv (cfg : LinkManagerConfig) (m : LinkManager) : Prop where
  keeps : Keeps cfg m.trace
  last : ∀ s ∈ lastCallback m.trace, cfg.onStateChange = true ∧ s = m.lastState
  stopped : .stopSeen ∈ m.trace → ∃ r, m.pc = .returned r
  time : ∀ t₀ ∈ lastEnd m.trace, t₀ ≤ m.time
  passive : cfg.active = false → isPassive m.pc = true ∧ lastEnd m.trace = none
  due : Due cfg m

section Step

variable {cfg : LinkManagerConfig} {env : LinkManagerEnv} {m : LinkManager}

/-- `notifyState` reports a state that differs from the last one, and nothing else changes. -/
theorem notifyState_spec (h : Keeps cfg m.trace)
    (hlast : ∀ s ∈ lastCallback m.trace, cfg.onStateChange = true ∧ s = m.lastState) :
    Keeps cfg (m.notifyState cfg env).trace ∧
      (∀ s ∈ lastCallback (m.notifyState cfg env).trace,
        cfg.onStateChange = true ∧ s = (m.notifyState cfg env).lastState) ∧
      (.stopSeen ∈ (m.notifyState cfg env).trace → .stopSeen ∈ m.trace) ∧
      lastEnd (m.notifyState cfg env).trace = lastEnd m.trace ∧
      (m.notifyState cfg env).time = m.time ∧
      (m.notifyState cfg env).retryPending = m.retryPending ∧
      (m.notifyState cfg env).retryDeadline = m.retryDeadline := by
  rw [notifyState]
  split
  · exact ⟨h, hlast, id, rfl, rfl, rfl, rfl⟩
  · next hne =>
    cases hcb : cfg.onStateChange with
    | false =>
      refine ⟨h, fun s hs => ?_, id, rfl, rfl, rfl, rfl⟩
      have hnone := (hlast s hs).1
      rw [hcb] at hnone
      cases hnone
    | true =>
      refine ⟨h.cons (by simp) ?_, ?_, ?_, rfl, rfl, rfl, rfl⟩
      · rintro s ⟨⟩ s₀ hs₀ rfl
        exact hne (hlast _ hs₀).2
      · rintro s ⟨⟩
        exact ⟨rfl, rfl⟩
      · rintro ⟨⟩
        assumption

/-- A sampled state keeps the end of the last attempt unless it is a connection. -/
theorem lastEnd_sampled (state : PeerState) (trace : List LinkManagerEvent) :
    lastEnd (.sampled state :: trace) = if state = .connected then none else lastEnd trace := by
  cases state <;> rfl

/-- Later, with a record whose last attempt is the same. -/
theorem Waiting.later {m' : LinkManager} (h : Waiting cfg m) (htime : m.time ≤ m'.time)
    (htrace : lastEnd m'.trace = lastEnd m.trace) (hpending : m'.retryPending = m.retryPending)
    (hdeadline : m'.retryDeadline = m.retryDeadline) : Waiting cfg m' := by
  intro t₀ h₀
  obtain ⟨hp, s, hs, hst, hd⟩ := h t₀ (htrace ▸ h₀)
  exact ⟨hpending.trans hp, s, hs, Nat.le_trans hst htime, hdeadline.trans hd⟩

theorem Due.congr {m' : LinkManager} (h : Due cfg m) (hpc : m'.pc = m.pc) (htime : m'.time = m.time)
    (htrace : lastEnd m'.trace = lastEnd m.trace) (hpending : m'.retryPending = m.retryPending)
    (hdeadline : m'.retryDeadline = m.retryDeadline) : Due cfg m' := by
  rw [Due, hpc, htime, htrace]
  rw [Due] at h
  cases hm : m.pc with
  | head | sample | wait | notify | clock =>
    rw [hm] at h
    exact Waiting.later h htime.ge htrace hpending hdeadline
  | _ =>
    rw [hm] at h
    exact h

/-- A call of `notifyState` on the way to `pc`. -/
theorem Inv.of_notify (pc : LinkManagerPc) (hkeeps : Keeps cfg m.trace)
    (hlast : ∀ s ∈ lastCallback m.trace, cfg.onStateChange = true ∧ s = m.lastState)
    (hstop : .stopSeen ∉ m.trace) (htime : ∀ t₀ ∈ lastEnd m.trace, t₀ ≤ m.time)
    (hpassive : cfg.active = false → isPassive pc = true ∧ lastEnd m.trace = none)
    (hdue : Due cfg { m with pc := pc }) : Inv cfg { m.notifyState cfg env with pc := pc } := by
  obtain ⟨hk, hl, hs, he, ht, hp, hd⟩ := @notifyState_spec cfg env m hkeeps hlast
  refine ⟨hk, hl, fun h => absurd (hs h) hstop, fun t₀ h₀ => ?_, fun h => ?_, ?_⟩
  · exact (htime t₀ (he ▸ h₀)).trans_eq ht.symm
  · exact ⟨(hpassive h).1, he.trans (hpassive h).2⟩
  · exact hdue.congr rfl ht he hp hd

/-- Every call of the function. -/
theorem Inv.next (hI : cfg.active = true → cfg.retryIntervalMs.toNat ≤ 2 ^ 31) (h : Inv cfg m)
    (hnow : m.time ≤ env.now) : Inv cfg (m.next cfg env) := by
  obtain ⟨pc, lastState, retryDeadline, retryPending, time, trace⟩ := m
  obtain ⟨hkeeps, hlast, hstopped, htime, hpassive, hdue⟩ := h
  dsimp only at hnow hkeeps hlast hstopped htime hpassive
  have htime' : ∀ t₀ ∈ lastEnd trace, t₀ ≤ env.now := fun t₀ h₀ => (htime t₀ h₀).trans hnow
  have hstop (hne : ∀ r, pc ≠ .returned r) : .stopSeen ∉ trace := fun hs => by
    obtain ⟨r, hr⟩ := hstopped hs
    exact hne r hr
  have hactive (hpc : isPassive pc = false) : cfg.active = true := by
    by_contra hp
    have := (hpassive (by simpa using hp)).1
    simp_all
  cases pc with
  | entry =>
    have hnone : lastEnd trace = none := hdue
    simp only [LinkManager.next]
    split_ifs
    · exact ⟨hkeeps, hlast, fun _ => ⟨_, rfl⟩, htime', fun _ => ⟨rfl, hnone⟩, trivial⟩
    · exact ⟨hkeeps.cons_other (by simp) (by simp), hlast, fun _ => ⟨_, rfl⟩, htime',
        fun _ => ⟨rfl, hnone⟩, trivial⟩
    · exact ⟨hkeeps, hlast, fun hs => absurd hs (hstop (by simp)), htime', fun _ => ⟨rfl, hnone⟩, hnone⟩
  | register =>
    have hnone : lastEnd trace = none := hdue
    simp only [LinkManager.next]
    split_ifs
    · exact ⟨hkeeps, hlast, fun hs => absurd hs (hstop (by simp)), htime', fun _ => ⟨rfl, hnone⟩, hnone⟩
    · exact ⟨hkeeps, hlast, fun _ => ⟨_, rfl⟩, htime', fun _ => ⟨rfl, hnone⟩, trivial⟩
  | firstNotify =>
    have hnone : lastEnd trace = none := hdue
    exact Inv.of_notify .head hkeeps hlast (hstop (by simp)) htime' (fun _ => ⟨rfl, hnone⟩)
      fun t₀ h₀ => by simp [hnone] at h₀
  | head =>
    simp only [LinkManager.next]
    split_ifs
    · exact ⟨hkeeps.cons_other (by simp) (by simp), hlast, fun _ => ⟨_, rfl⟩, htime',
        fun hp => ⟨rfl, (hpassive hp).2⟩, trivial⟩
    · exact ⟨hkeeps, hlast, fun hs => absurd hs (hstop (by simp)), htime',
        fun hp => ⟨rfl, (hpassive hp).2⟩, Waiting.later hdue hnow rfl rfl rfl⟩
  | sample =>
    have hk := hkeeps.cons_other (e := .sampled env.state) (by simp) (by simp)
    have hs : .stopSeen ∉ LinkManagerEvent.sampled env.state :: trace := by
      simpa using hstop (by simp)
    have hle : ∀ t₀ ∈ lastEnd (.sampled env.state :: trace), t₀ ≤ env.now := by
      rw [lastEnd_sampled]
      split_ifs
      · simp
      · exact htime'
    simp only [LinkManager.next]
    split_ifs with hwait hpending
    · refine ⟨hk, hlast, fun h => absurd h hs, hle, fun hp => ⟨rfl, ?_⟩, fun t₀ h₀ => ?_⟩
      · rw [lastEnd_sampled, (hpassive hp).2, ite_self]
      · rw [lastEnd_sampled] at h₀
        obtain hp | hconn := hwait
        · simp [(hpassive hp).2] at h₀
        · simp [hconn] at h₀
    · obtain ⟨hact, hconn⟩ := not_or.1 hwait
      refine ⟨hk, hlast, fun h => absurd h hs, hle, fun hp => absurd hp hact, ?_⟩
      exact Waiting.later hdue hnow (by rw [lastEnd_sampled, if_neg hconn]) rfl rfl
    · obtain ⟨hact, hconn⟩ := not_or.1 hwait
      refine ⟨hk, hlast, fun h => absurd h hs, hle, fun hp => absurd hp hact, fun t₀ h₀ => ?_⟩
      rw [lastEnd_sampled, if_neg hconn] at h₀
      exact absurd (hdue t₀ h₀).1 hpending
  | wait =>
    exact ⟨hkeeps, hlast, fun hs => absurd hs (hstop (by simp)), htime',
      fun hp => ⟨rfl, (hpassive hp).2⟩, Waiting.later hdue hnow rfl rfl rfl⟩
  | notify =>
    exact Inv.of_notify .head hkeeps hlast (hstop (by simp)) htime'
      (fun hp => ⟨rfl, (hpassive hp).2⟩) (Waiting.later hdue hnow rfl rfl rfl)
  | clock =>
    simp only [LinkManager.next]
    split_ifs with hearly
    · exact ⟨hkeeps, hlast, fun hs => absurd hs (hstop (by simp)), htime',
        fun hp => ⟨rfl, (hpassive hp).2⟩, Waiting.later hdue hnow rfl rfl rfl⟩
    · refine ⟨hkeeps, hlast, fun hs => absurd hs (hstop (by simp)), htime',
        fun hp => absurd hp (by simp [hactive rfl]), fun t₀ h₀ => ?_⟩
      obtain ⟨-, s, hs, hst, rfl⟩ := hdue t₀ h₀
      by_contra hlt
      exact hearly (signedDiff_neg_of_lt (hI (hactive rfl)) (hst.trans hnow)
        (by dsimp only at hlt ⊢; omega))
  | ready =>
    simp only [LinkManager.next]
    split_ifs
    · exact ⟨hkeeps, hlast, fun hs => absurd hs (hstop (by simp)), htime',
        fun hp => absurd hp (by simp [hactive rfl]), fun t₀ h₀ => (hdue t₀ h₀).trans hnow⟩
    · exact ⟨hkeeps, hlast, fun hs => absurd hs (hstop (by simp)), htime',
        fun hp => absurd hp (by simp [hactive rfl]), trivial⟩
  | stopCheck =>
    simp only [LinkManager.next]
    split_ifs
    · exact ⟨hkeeps.cons_other (by simp) (by simp), hlast, fun _ => ⟨_, rfl⟩, htime',
        fun hp => absurd hp (by simp [hactive rfl]), trivial⟩
    · exact ⟨hkeeps, hlast, fun hs => absurd hs (hstop (by simp)), htime',
        fun hp => absurd hp (by simp [hactive rfl]), fun t₀ h₀ => (hdue t₀ h₀).trans hnow⟩
  | connect =>
    refine ⟨hkeeps.cons ?_ (by simp), hlast, fun hs => ?_, by simp [LinkManager.next, lastEnd],
      fun hp => absurd hp (by simp [hactive rfl]), rfl⟩
    · rintro t ⟨⟩
      exact ⟨hstop (by simp), fun t₀ h₀ => (hdue t₀ h₀).trans hnow⟩
    · exact absurd (by simpa [LinkManager.next] using hs) (hstop (by simp))
  | connecting =>
    refine ⟨hkeeps.cons_other (by simp) (by simp), hlast, fun hs => ?_, ?_,
      fun hp => absurd hp (by simp [hactive rfl]), trivial⟩
    · exact absurd (by simpa [LinkManager.next] using hs) (hstop (by simp))
    · rintro t₀ ⟨⟩
      exact le_rfl
  | attemptNotify =>
    exact Inv.of_notify .recheck hkeeps hlast (hstop (by simp)) htime'
      (fun hp => absurd hp (by simp [hactive rfl])) trivial
  | recheck =>
    have hk := hkeeps.cons_other (e := .sampled env.state) (by simp) (by simp)
    have hact : cfg.active = true := hactive rfl
    refine ⟨hk, hlast, fun hs => ?_, fun t₀ h₀ => ?_, fun hp => absurd hp (by simp [hact]), ?_⟩
    · exact absurd (by simpa [LinkManager.next] using hs) (hstop (by simp))
    · simp only [LinkManager.next, lastEnd_sampled] at h₀
      split_ifs at h₀
      · cases h₀
      · exact htime' t₀ h₀
    · simp only [LinkManager.next]
      split_ifs with hconn
      · intro t₀ h₀
        simp [hconn, lastEnd] at h₀
      · trivial
  | deadline =>
    refine ⟨hkeeps, hlast, fun hs => absurd hs (hstop (by simp)), htime',
      fun hp => absurd hp (by simp [hactive rfl]), fun t₀ h₀ => ⟨rfl, env.now, htime' t₀ h₀, le_rfl, rfl⟩⟩
  | returned r =>
    exact ⟨hkeeps, hlast, hstopped, htime', hpassive, trivial⟩

end Step

/-! ### Whole runs -/

theorem Inv.start {cfg : LinkManagerConfig} {m : LinkManager} (h : Start m) : Inv cfg m where
  keeps := h.trace ▸ Keeps.nil cfg
  last := by simp [h.trace, lastCallback]
  stopped := by simp [h.trace]
  time := by simp [h.trace, lastEnd]
  passive := fun _ => by simp [h.pc, h.trace, isPassive, lastEnd]
  due := by simp [Due, h.pc, h.trace, lastEnd]

theorem keeps_of_reachable {cfg : LinkManagerConfig}
    (hI : cfg.active = true → cfg.retryIntervalMs.toNat ≤ 2 ^ 31) {m : LinkManager}
    (h : Kit.Reachable Start (Moves cfg) m) : Keeps cfg m.trace := by
  have hinv : Inv cfg m := h.invariant (Inv cfg) (fun _ => Inv.start) fun m m' hm hstep => by
    obtain ⟨env, hnow, rfl⟩ := hstep
    exact hm.next hI hnow
  exact hinv.keeps

/-- The call of the function at the instant 0. -/
def started : LinkManager :=
  { pc := .entry, lastState := .invalid, retryDeadline := 0, retryPending := false, time := 0,
    trace := [] }

/-- The peer stays disconnected, the manager may try, and no time passes. -/
def standstill : LinkManagerEnv :=
  { now := 0, running := false, registered := true, stopRequested := false, isReady := true,
    state := .disconnected }

theorem next_time (cfg : LinkManagerConfig) (env : LinkManagerEnv) (m : LinkManager) :
    (m.next cfg env).time = env.now := by
  have hnotify (m : LinkManager) : (m.notifyState cfg env).time = m.time := by
    rw [notifyState]
    split <;> rfl
  rw [next]
  dsimp only
  split <;> (try split_ifs) <;> first | rfl | exact hnotify _

theorem reachable_standstill (cfg : LinkManagerConfig) (n : Nat) :
    Kit.Reachable Start (Moves cfg) ((next cfg standstill)^[n] started) ∧
      ((next cfg standstill)^[n] started).time = 0 := by
  induction n with
  | zero => exact ⟨.start ⟨rfl, rfl, rfl, rfl⟩, rfl⟩
  | succ n ih =>
    rw [Function.iterate_succ_apply']
    exact ⟨ih.1.tail ⟨standstill, ih.2.le, rfl⟩, next_time ..⟩

/-- With more than half a turn of the clock to wait, the deadline is past when it is set. -/
theorem exists_early_attempt {cfg : LinkManagerConfig} (hactive : cfg.active = true)
    (hI : 2 ^ 31 < cfg.retryIntervalMs.toNat) :
    ∃ m pre, Kit.Reachable Start (Moves cfg) m ∧
      m.trace = .attemptBegins 0 :: .sampled .disconnected :: .sampled .disconnected ::
        .attemptEnds 0 :: pre := by
  obtain ⟨I, active, isReady, onStateChange⟩ := cfg
  obtain rfl : active = true := hactive
  have hclock := signedDiff_nonneg_of_lt hI 0
  -- the first attempt fails, its deadline is set and compared with the clock
  obtain ⟨pre, hfirst⟩ : ∃ pre, (next ⟨I, true, isReady, onStateChange⟩ standstill)^[14] started =
      { pc := .clock, lastState := .disconnected, retryDeadline := Kit.clock 0 + I,
        retryPending := true, time := 0,
        trace := .sampled .disconnected :: .sampled .disconnected :: .attemptEnds 0 :: pre } := by
    cases isReady <;> cases onStateChange <;> exact ⟨_, rfl⟩
  have hlast : (next ⟨I, true, isReady, onStateChange⟩ standstill)^[18] started =
      (next ⟨I, true, isReady, onStateChange⟩ standstill)^[3]
        { pc := .ready, lastState := .disconnected, retryDeadline := Kit.clock 0 + I,
          retryPending := false, time := 0,
          trace := .sampled .disconnected :: .sampled .disconnected :: .attemptEnds 0 :: pre } := by
    rw [show 18 = 3 + 1 + 14 from rfl, Function.iterate_add_apply, hfirst, Function.iterate_add_apply]
    refine congrArg _ ?_
    rw [Function.iterate_one, next]
    exact if_neg hclock
  refine ⟨_, pre, (reachable_standstill _ 18).1, ?_⟩
  rw [hlast]
  cases isReady <;> rfl

/-- A manager keeps the pace in every run exactly if it makes no attempts or its
interval is at most half a turn of the clock. -/
theorem keeps_iff (cfg : LinkManagerConfig) :
    (∀ m, Kit.Reachable Start (Moves cfg) m → Keeps cfg m.trace) ↔
      (cfg.active = true → cfg.retryIntervalMs.toNat ≤ 2 ^ 31) := by
  refine ⟨fun h hactive => ?_, fun hI m => keeps_of_reachable hI⟩
  by_contra hlt
  obtain ⟨m, pre, hm, htrace⟩ := exists_early_attempt hactive (Nat.not_le.1 hlt)
  have hpaced := (h m hm).paced [] [.sampled .disconnected, .sampled .disconnected] pre 0 0 htrace
    (by simp [Quiet])
  omega

/-- Thirty days. -/
def thirtyDays : LinkManagerConfig :=
  { retryIntervalMs := 2592000000, active := true, isReady := false, onStateChange := true }

/-- A manager that should wait thirty days tries again at once. -/
theorem keeps_thirtyDays_fails :
    ¬∀ (cfg : LinkManagerConfig), cfg.retryIntervalMs ≠ 0 →
      ∀ m, Kit.Reachable Start (Moves cfg) m → Keeps cfg m.trace := by
  intro h
  obtain ⟨m, pre, hm, htrace⟩ := @exists_early_attempt thirtyDays rfl (by decide)
  have hpaced := (h thirtyDays (by decide) m hm).paced []
    [.sampled .disconnected, .sampled .disconnected] pre 0 0 htrace (by simp [Quiet])
  exact absurd hpaced (by decide)

end LinkManager

end IoHdlc
