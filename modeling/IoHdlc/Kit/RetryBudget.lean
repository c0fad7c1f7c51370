import Mathlib.Data.Nat.Basic

/-!
A party that asks, waits for the answer, and asks again when a timer runs out.

`Budget` is the counter by which it gives up, `Windows` is what has really happened in the
exchange. Neither looks at the other: a timer runs out at one moment, the party takes notice of
it at another, and an exchange may end without the counter being cleared. `InTime` says when the
two stay together, and then the counter is the number of windows that ran out.
-/

namespace IoHdlc.Kit

/-- The retries that were made, and how many there may be. -/
structure Budget where
  count : ℕ
  max : ℕ

/-- What happens in the course of an exchange. -/
inductive Occurrence where
  /-- The timer runs out. -/
  | ranOut
  /-- The party takes notice of that, and tries again or gives up. -/
  | served (givesUp : Bool)
  /-- Another timer has run out, and the party takes notice of it. -/
  | otherServed (givesUp : Bool)
  /-- The exchange is over, whether or not the counter is cleared. -/
  | ended (clears : Bool)

/-- The response windows of the exchange in progress. -/
structure Windows where
  /-- How many of them ran out. -/
  expired : ℕ := 0
  /-- The party has yet to take notice of the last one. -/
  unserved : Bool := false
  /-- For every time the party gave up, how many windows had run out, latest first. -/
  losses : List ℕ := []

namespace Budget

def cleared (b : Budget) : Budget := { b with count := 0 }

/-- One more retry, or the end. -/
def served (b : Budget) (givesUp : Bool) : Budget :=
  if givesUp then b.cleared else { b with count := b.count + 1 }

def step (b : Budget) : Occurrence → Budget
  | .ranOut => b
  | .served givesUp => b.served givesUp
  | .otherServed givesUp => b.served givesUp
  | .ended clears => if clears then b.cleared else b

/-- The party gives up when the retries are used up, and not before. -/
def Decides (b : Budget) : Occurrence → Prop
  | .served givesUp => givesUp = decide (b.max ≤ b.count)
  | .otherServed givesUp => givesUp = decide (b.max ≤ b.count)
  | _ => True

/-- What a party that goes by its budget makes of a course of events. -/
inductive Run : Budget → List Occurrence → Budget → Prop
  | nil (b : Budget) : Run b [] b
  | cons {b b' : Budget} {o : Occurrence} {os : List Occurrence} (ho : b.Decides o)
    (h : Run (b.step o) os b') : Run b (o :: os) b'

variable {b b' b'' : Budget} {o : Occurrence} {os os' : List Occurrence}

theorem Run.of_eq (h : b' = b) : b.Run [] b' := by
  subst h
  exact .nil b'

theorem Run.single (ho : b.Decides o) (h : b' = b.step o) : b.Run [o] b' := by
  subst h
  exact .cons ho (.nil _)

theorem Run.append (h : b.Run os b') (h' : b'.Run os' b'') : b.Run (os ++ os') b'' := by
  induction h with
  | nil => exact h'
  | cons ho _ ih => exact .cons ho (ih h')

end Budget

namespace Windows

/-- No window is open, and nothing is left to take notice of. -/
def ended (w : Windows) : Windows := { w with expired := 0, unserved := false }

def lost (w : Windows) : Windows := { w.ended with losses := w.expired :: w.losses }

def step (w : Windows) : Occurrence → Windows
  | .ranOut => { w with expired := w.expired + 1, unserved := true }
  | .served givesUp => if givesUp then w.lost else { w with unserved := false }
  | .otherServed givesUp =>
    let w := { w with expired := w.expired + 1 }
    if givesUp then w.lost else w
  | .ended _ => w.ended

/-- What a course of events leaves. -/
def run (w : Windows) (os : List Occurrence) : Windows := os.foldl step w

variable {w : Windows} {b b' : Budget} {o : Occurrence} {os os' : List Occurrence}

@[simp] theorem run_nil (w : Windows) : w.run [] = w := rfl

theorem run_append (w : Windows) (os os' : List Occurrence) :
    w.run (os ++ os') = (w.run os).run os' := List.foldl_append ..

/-- The counter is the number of windows that ran out, as far as they were taken notice of, and
the party never gave up before or after all the retries. -/
structure Exact (w : Windows) (b : Budget) : Prop where
  retries : b.count + w.unserved.toNat = w.expired
  within : b.count ≤ b.max
  losses : ∀ k ∈ w.losses, k = b.max + 1

/-- Whether the counter keeps up with an occurrence: a timer runs out when the last time it did
was taken notice of, notice is taken of a timer that did run out, and an exchange that leaves
the counter alone ends with none. -/
def InTime (w : Windows) (b : Budget) : Occurrence → Prop
  | .ranOut => w.unserved = false
  | .served _ => w.unserved = true
  | .otherServed _ => w.unserved = true → b.count < b.max
  | .ended clears => clears = true ∨ b.count = 0

/-- The same for a course of events. -/
def AllInTime (w : Windows) (b : Budget) : List Occurrence → Prop
  | [] => True
  | o :: os => w.InTime b o ∧ (w.step o).AllInTime (b.step o) os

instance (w : Windows) (b : Budget) : (o : Occurrence) → Decidable (w.InTime b o)
  | .ranOut => inferInstanceAs (Decidable (w.unserved = false))
  | .served _ => inferInstanceAs (Decidable (w.unserved = true))
  | .otherServed _ => inferInstanceAs (Decidable (w.unserved = true → b.count < b.max))
  | .ended clears => inferInstanceAs (Decidable (clears = true ∨ b.count = 0))

instance decidableAllInTime (w : Windows) (b : Budget) :
    (os : List Occurrence) → Decidable (w.AllInTime b os)
  | [] => .isTrue trivial
  | o :: os =>
    have := decidableAllInTime (w.step o) (b.step o) os
    inferInstanceAs (Decidable (w.InTime b o ∧ (w.step o).AllInTime (b.step o) os))

theorem Exact.served (h : w.Exact b) (hw : w.unserved = true) {givesUp : Bool}
    (hb : givesUp = decide (b.max ≤ b.count)) :
    (w.step (.served givesUp)).Exact (b.served givesUp) := by
  obtain ⟨hretries, hwithin, hlosses⟩ := h
  rw [hw, Bool.toNat_true] at hretries
  by_cases hmax : b.max ≤ b.count
  · rw [decide_eq_true hmax] at hb
    subst hb
    refine ⟨rfl, Nat.zero_le _, fun k hk => ?_⟩
    rcases List.mem_cons.mp hk with rfl | hk
    · change w.expired = b.max + 1
      omega
    · exact hlosses k hk
  · rw [decide_eq_false hmax] at hb
    subst hb
    refine ⟨hretries, ?_, hlosses⟩
    change b.count + 1 ≤ b.max
    omega

theorem Exact.otherServed (h : w.Exact b) (hw : w.unserved = true → b.count < b.max)
    {givesUp : Bool} (hb : givesUp = decide (b.max ≤ b.count)) :
    (w.step (.otherServed givesUp)).Exact (b.served givesUp) := by
  obtain ⟨hretries, hwithin, hlosses⟩ := h
  by_cases hmax : b.max ≤ b.count
  · rw [decide_eq_true hmax] at hb
    subst hb
    have hnone : w.unserved = false := Bool.eq_false_iff.mpr fun hyes => by
      have := hw hyes
      omega
    rw [hnone, Bool.toNat_false] at hretries
    refine ⟨rfl, Nat.zero_le _, fun k hk => ?_⟩
    rcases List.mem_cons.mp hk with rfl | hk
    · change w.expired + 1 = b.max + 1
      omega
    · exact hlosses k hk
  · rw [decide_eq_false hmax] at hb
    subst hb
    refine ⟨?_, ?_, hlosses⟩
    · change b.count + 1 + w.unserved.toNat = w.expired + 1
      omega
    · change b.count + 1 ≤ b.max
      omega

theorem Exact.ended (h : w.Exact b) {clears : Bool} (hb : clears = true ∨ b.count = 0) :
    (w.step (.ended clears)).Exact (b.step (.ended clears)) := by
  cases clears with
  | true => exact ⟨rfl, Nat.zero_le _, h.losses⟩
  | false =>
    have hzero : b.count = 0 := hb.resolve_left nofun
    exact ⟨hzero, h.within, h.losses⟩

theorem Exact.step (h : w.Exact b) (ho : b.Decides o) (hin : w.InTime b o) :
    (w.step o).Exact (b.step o) := by
  cases o with
  | ranOut =>
    refine ⟨?_, h.within, h.losses⟩
    have hretries := h.retries
    rw [show w.unserved = false from hin] at hretries
    change b.count + 1 = w.expired + 1
    rw [← hretries]
    rfl
  | served givesUp => exact h.served hin ho
  | otherServed givesUp => exact h.otherServed hin ho
  | ended clears => exact h.ended hin

theorem Exact.run (h : w.Exact b) (hrun : b.Run os b') (hin : w.AllInTime b os) :
    (w.run os).Exact b' := by
  induction hrun generalizing w with
  | nil => exact h
  | cons ho _ ih => exact ih (h.step ho hin.1) hin.2

/-- While notice is taken of every window that ran out, there are no more of them than the
retries allow; one more, and the party gives up on taking notice of it. -/
theorem Exact.expired_le (h : w.Exact b) :
    w.expired ≤ b.max + 1 ∧ (w.unserved = false → w.expired ≤ b.max) := by
  obtain ⟨hretries, hwithin, -⟩ := h
  cases hw : w.unserved with
  | true =>
    rw [hw, Bool.toNat_true] at hretries
    exact ⟨by omega, nofun⟩
  | false =>
    rw [hw, Bool.toNat_false] at hretries
    exact ⟨by omega, fun _ => by omega⟩

end Windows

end IoHdlc.Kit
