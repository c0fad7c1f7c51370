import IoHdlc.Kit.Reachable
import IoHdlc.Kit.Termination
import Mathlib.Algebra.Order.BigOperators.Group.Finset
import Mathlib.Data.Fintype.Basic

/-!
The binary semaphore of the Linux port as a gate: `write_gate` and `read_gate` let one call after
the other to the stream of a peer.

A call that has to wait sleeps on the condition of the semaphore. The signal of the call that leaves
wakes one of the sleepers, but it is any thread that may take the semaphore then.
-/

namespace IoHdlc

open Kit

/-- Where a thread is: in no call, in `pthread_cond_wait`, behind it and about to look at the
semaphore again, or in the section behind the gate. -/
inductive GatePlace where
  | out
  | sleeps (timed : Bool)
  | woken (timed : Bool)
  | inside

/-- `iohdlc_bsem_t`, and the threads that use it. -/
structure Gate (T : Type) where
  signaled : Bool
  place : T → GatePlace

namespace Gate

variable {T : Type} [DecidableEq T]

def move (g : Gate T) (t : T) (place : GatePlace) : Gate T :=
  { g with place := Function.update g.place t place }

/-- The semaphore is taken. -/
def take (g : Gate T) (t : T) : Gate T := { g.move t .inside with signaled := false }

/-- The steps of the calls that are under way, each under the lock of the semaphore. -/
inductive Step (g : Gate T) : Gate T → Prop
  | recheckTakes {t : T} {timed : Bool} (hwoken : g.place t = .woken timed)
    (hsignaled : g.signaled = true) : Step g (g.take t)
  | recheckSleeps {t : T} {timed : Bool} (hwoken : g.place t = .woken timed)
    (hsignaled : g.signaled = false) : Step g (g.move t (.sleeps timed))
  | expire {t : T} (hsleeps : g.place t = .sleeps true) : Step g (g.move t .out)
  -- `iohdlc_bsem_signal`, with and without a thread to wake
  | leaveWakes {t u : T} {timed : Bool} (hinside : g.place t = .inside)
    (hsleeps : g.place u = .sleeps timed) :
    Step g { (g.move t .out).move u (.woken timed) with signaled := true }
  | leave {t : T} (hinside : g.place t = .inside) (hnone : ∀ u timed, g.place u ≠ .sleeps timed) :
    Step g { g.move t .out with signaled := true }

/-- Calls that begin, and wake-ups without a reason. -/
inductive Other (g : Gate T) : Gate T → Prop
  | takes (t : T) (hout : g.place t = .out) (hsignaled : g.signaled = true) : Other g (g.take t)
  | refuses (t : T) (hout : g.place t = .out) (hsignaled : g.signaled = false) : Other g g
  | sleeps (t : T) (timeout : UInt32) (hout : g.place t = .out) (hsignaled : g.signaled = false)
    (hpos : timeout ≠ 0) : Other g (g.move t (.sleeps (timeout ≠ 0xFFFFFFFF)))
  | wake {t : T} {timed : Bool} (hsleeps : g.place t = .sleeps timed) :
    Other g (g.move t (.woken timed))

def Moves (g g' : Gate T) : Prop := Step g g' ∨ Other g g'

/-- `iohdlc_bsem_init` with the semaphore available. -/
structure Fresh (g : Gate T) : Prop where
  signaled : g.signaled = true
  place : ∀ t, g.place t = .out

/-- At most one call is behind the gate, and none sleeps while the gate is open and nobody is on the
way to it. -/
structure Excludes (g : Gate T) : Prop where
  one : ∀ t u, g.place t = .inside → g.place u = .inside → t = u
  signaled : g.signaled = true ↔ ∀ t, g.place t ≠ .inside
  awake : g.signaled = true → ∀ t timed, g.place t = .sleeps timed →
    ∃ u timed, g.place u = .woken timed

section Steps

variable {g g' : Gate T} {t u : T} {p : GatePlace}

@[simp] theorem move_self (g : Gate T) (t : T) (p : GatePlace) : (g.move t p).place t = p :=
  Function.update_self ..

theorem move_of_ne (g : Gate T) {t u : T} (h : u ≠ t) (p : GatePlace) :
    (g.move t p).place u = g.place u :=
  Function.update_of_ne h ..

@[simp] theorem move_signaled (g : Gate T) (t : T) (p : GatePlace) :
    (g.move t p).signaled = g.signaled := rfl

omit [DecidableEq T] in
theorem excludes_of_fresh (h : g.Fresh) : g.Excludes where
  one t _ ht := by simp [h.place t] at ht
  signaled := ⟨fun _ t => by simp [h.place t], fun _ => h.signaled⟩
  awake _ t timed ht := by simp [h.place t] at ht

/-- A thread outside the gate goes on outside it. -/
theorem Excludes.move (h : g.Excludes) (hwas : g.place t ≠ .inside) (hp : p ≠ .inside)
    (hawake : g.signaled = true → (∀ timed, p ≠ .woken timed) →
      (∀ timed, g.place t ≠ .woken timed) ∧ ∀ timed, p ≠ .sleeps timed) : (g.move t p).Excludes := by
  have hinside (u : T) : (g.move t p).place u = .inside ↔ g.place u = .inside := by
    by_cases hu : u = t
    · subst hu
      simp [hwas, hp]
    · rw [move_of_ne g hu]
  refine ⟨fun u v hu hv => h.one u v ((hinside u).mp hu) ((hinside v).mp hv), ?_,
    fun hsignaled u timed hu => ?_⟩
  · rw [move_signaled, h.signaled]
    exact forall_congr' fun u => (not_congr (hinside u)).symm
  · by_cases hwoken : ∃ timed, p = .woken timed
    · obtain ⟨timed', rfl⟩ := hwoken
      exact ⟨t, timed', move_self ..⟩
    · obtain ⟨hnot, hsleeps⟩ := hawake hsignaled fun timed' hno => hwoken ⟨timed', hno⟩
      have hne : u ≠ t := by
        rintro rfl
        rw [move_self] at hu
        exact hsleeps timed hu
      rw [move_of_ne g hne] at hu
      obtain ⟨v, timed', hv⟩ := h.awake hsignaled u timed hu
      refine ⟨v, timed', ?_⟩
      rwa [move_of_ne g]
      rintro rfl
      exact hnot timed' hv

/-- The gate is taken. -/
theorem Excludes.take (h : g.Excludes) (hsignaled : g.signaled = true) (t : T) :
    (g.take t).Excludes := by
  have hnone := h.signaled.mp hsignaled
  have hinside (u : T) (hu : (g.take t).place u = .inside) : u = t := by
    by_contra hne
    exact hnone u ((move_of_ne g hne _).symm.trans hu)
  refine ⟨fun u v hu hv => (hinside u hu).trans (hinside v hv).symm, ?_, fun hno => by cases hno⟩
  exact ⟨fun hno => (by cases hno), fun hno => absurd (move_self g t .inside) (hno t)⟩

/-- Behind the gate was this call alone. -/
theorem Excludes.none_inside (h : g.Excludes) (ht : g.place t = .inside) (v : T) :
    (g.move t .out).place v ≠ .inside := by
  by_cases hv : v = t
  · subst hv
    simp
  · rw [move_of_ne g hv]
    exact fun hin => hv (h.one v t hin ht)

theorem Excludes.leaveWakes {timed : Bool} (h : g.Excludes) (ht : g.place t = .inside) :
    ({ (g.move t .out).move u (.woken timed) with signaled := true } : Gate T).Excludes := by
  have hnone (v : T) : ((g.move t .out).move u (.woken timed)).place v ≠ .inside := by
    by_cases hv : v = u
    · subst hv
      simp
    · rw [move_of_ne _ hv]
      exact h.none_inside ht v
  exact ⟨fun v _ hv => absurd hv (hnone v), ⟨fun _ => hnone, fun _ => rfl⟩,
    fun _ _ _ _ => ⟨u, timed, move_self ..⟩⟩

theorem Excludes.leave (h : g.Excludes) (ht : g.place t = .inside)
    (hnone : ∀ u timed, g.place u ≠ .sleeps timed) :
    ({ g.move t .out with signaled := true } : Gate T).Excludes := by
  refine ⟨fun v _ hv => absurd hv (h.none_inside ht v), ⟨fun _ => h.none_inside ht, fun _ => rfl⟩,
    fun _ u timed hu => ?_⟩
  have hne : u ≠ t := by
    rintro rfl
    exact absurd ((move_self g u .out).symm.trans hu) (by simp)
  exact absurd ((move_of_ne g hne _).symm.trans hu) (hnone u timed)

theorem Excludes.step (h : g.Excludes) (hstep : Step g g') : g'.Excludes := by
  cases hstep with
  | recheckTakes hwoken hsignaled => exact h.take hsignaled _
  | recheckSleeps hwoken hsignaled =>
    exact h.move (by simp [hwoken]) (by simp) fun hno => by simp [hsignaled] at hno
  | expire hsleeps =>
    exact h.move (by simp [hsleeps]) (by simp) fun _ _ => ⟨by simp [hsleeps], by simp⟩
  | leaveWakes hinside hsleeps => exact h.leaveWakes hinside
  | leave hinside hnone => exact h.leave hinside hnone

theorem Excludes.other (h : g.Excludes) (hother : Other g g') : g'.Excludes := by
  cases hother with
  | takes t hout hsignaled => exact h.take hsignaled _
  | refuses t hout hsignaled => exact h
  | sleeps t timeout hout hsignaled hpos =>
    exact h.move (by simp [hout]) (by simp) fun hno => by simp [hsignaled] at hno
  | wake hsleeps => exact h.move (by simp [hsleeps]) (by simp) fun _ hno => absurd rfl (hno _)

theorem excludes_of_reachable (h : Reachable Fresh Moves g) : g.Excludes :=
  h.invariant Excludes (fun _ hfresh => excludes_of_fresh hfresh) fun _ _ hg hmove => by
    rcases hmove with hstep | hother
    · exact hg.step hstep
    · exact hg.other hother

end Steps

/-! ### Every call comes to its end -/

/-- What a call has before it. -/
def weight : GatePlace → ℕ
  | .out => 0
  | .inside => 1
  | _ => 2

/-- Whether it is about to look at the semaphore. -/
def looks : GatePlace → ℕ
  | .woken _ => 1
  | _ => 0

section Ends

variable [Fintype T] {g g' : Gate T}

def rank (g : Gate T) : Rank := .of (∑ t, weight (g.place t)) (∑ t, looks (g.place t)) 0 0

theorem sum_move_lt (f : GatePlace → ℕ) {t : T} {p : GatePlace} (hlt : f p < f (g.place t)) :
    ∑ u, f ((g.move t p).place u) < ∑ u, f (g.place u) := by
  refine Finset.sum_lt_sum (fun u _ => ?_) ⟨t, Finset.mem_univ t, ?_⟩
  · by_cases hu : u = t
    · subst hu
      rw [move_self]
      exact hlt.le
    · rw [move_of_ne g hu]
  · rw [move_self]
    exact hlt

theorem sum_move_eq (f : GatePlace → ℕ) {t : T} {p : GatePlace} (heq : f p = f (g.place t)) :
    ∑ u, f ((g.move t p).place u) = ∑ u, f (g.place u) := by
  refine Finset.sum_congr rfl fun u _ => ?_
  by_cases hu : u = t
  · subst hu
    rw [move_self, heq]
  · rw [move_of_ne g hu]

theorem rank_lt (hstep : Step g g') : g'.rank < g.rank := by
  cases hstep with
  | @recheckTakes t timed hwoken hsignaled =>
    refine Rank.of_lt_of.mpr (.inl ?_)
    exact sum_move_lt weight (by simp [hwoken, weight])
  | @recheckSleeps t timed hwoken hsignaled =>
    refine Rank.of_lt_of.mpr (.inr ⟨?_, .inl ?_⟩)
    · exact sum_move_eq weight (by simp [hwoken, weight])
    · exact sum_move_lt looks (by simp [hwoken, looks])
  | @expire t hsleeps =>
    refine Rank.of_lt_of.mpr (.inl ?_)
    exact sum_move_lt weight (by simp [hsleeps, weight])
  | @leaveWakes t u timed hinside hsleeps =>
    have hne : u ≠ t := by
      rintro rfl
      rw [hinside] at hsleeps
      cases hsleeps
    -- the thread that is woken keeps its weight
    have hsame : ∑ v, weight (((g.move t .out).move u (.woken timed)).place v) =
        ∑ v, weight ((g.move t .out).place v) :=
      sum_move_eq weight (by rw [move_of_ne g hne, hsleeps]; rfl)
    refine Rank.of_lt_of.mpr (.inl ?_)
    exact hsame.trans_lt (sum_move_lt weight (by simp [hinside, weight]))
  | @leave t hinside hnone =>
    refine Rank.of_lt_of.mpr (.inl ?_)
    exact sum_move_lt weight (by simp [hinside, weight])

omit [Fintype T] in
/-- No call gets stuck while another one is behind the gate or on its way to it. -/
theorem Excludes.can_step (h : g.Excludes) {t : T} (ht : g.place t ≠ .out) : ∃ g', Step g g' := by
  have hleave {u : T} (hu : g.place u = .inside) : ∃ g', Step g g' := by
    by_cases hsleeper : ∃ v timed, g.place v = .sleeps timed
    · obtain ⟨v, timed, hv⟩ := hsleeper
      exact ⟨_, .leaveWakes hu hv⟩
    · exact ⟨_, .leave hu fun v timed hv => hsleeper ⟨v, timed, hv⟩⟩
  have hlook {u : T} {timed : Bool} (hu : g.place u = .woken timed) : ∃ g', Step g g' := by
    cases hsignaled : g.signaled with
    | true => exact ⟨_, .recheckTakes hu hsignaled⟩
    | false => exact ⟨_, .recheckSleeps hu hsignaled⟩
  cases hplace : g.place t with
  | out => exact absurd hplace ht
  | inside => exact hleave hplace
  | woken timed => exact hlook hplace
  | sleeps timed =>
    by_cases hsignaled : g.signaled = true
    · obtain ⟨u, timed', hu⟩ := h.awake hsignaled t timed hplace
      exact hlook hu
    · rw [h.signaled] at hsignaled
      obtain ⟨u, hu⟩ := not_forall.mp hsignaled
      exact hleave (not_not.mp hu)

/-- In every run of any number of calls with any timeouts at most one is behind the gate. Where every
call that is behind it leaves it, and none begins, all the calls come to their end. -/
theorem gate_serves (h : Reachable Fresh Moves g) :
    g.Excludes ∧ Inevitable Step (fun g => ∀ t, g.place t = .out) g := by
  have hex := excludes_of_reachable h
  refine ⟨hex, .of_rank rank Excludes (fun g hg hgoal => ?_) (fun g g' hg _ hstep => ?_) hex⟩
  · obtain ⟨t, ht⟩ := not_forall.mp hgoal
    exact hg.can_step ht
  · exact ⟨hg.step hstep, rank_lt hstep⟩

/-- Two calls, one behind the gate and one that sleeps for it. -/
theorem gate_serves_two : ∃ g : Gate Bool, g.place true = .inside ∧ g.place false = .sleeps false ∧
    g.Excludes ∧ Inevitable Step (fun g => ∀ t, g.place t = .out) g := by
  have h₀ : Reachable Fresh Moves (⟨true, fun _ => .out⟩ : Gate Bool) := .start ⟨rfl, fun _ => rfl⟩
  have h₁ := h₀.tail (.inr (.takes true rfl rfl))
  have h₂ := h₁.tail (.inr (.sleeps false 0xFFFFFFFF rfl rfl (by decide)))
  exact ⟨_, rfl, rfl, gate_serves h₂⟩

end Ends

end Gate

end IoHdlc
