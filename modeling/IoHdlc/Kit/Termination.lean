import Mathlib.Data.Prod.Lex
import Mathlib.Logic.Relation
import Mathlib.Order.WellFounded

/-!
Transition systems in which no run goes on for ever.
-/

namespace IoHdlc.Kit

variable {σ : Type*}

/-- Every run of `step` from this state is finite. -/
def Settles (step : σ → σ → Prop) (s : σ) : Prop := Acc (fun s' s => step s s') s

namespace Settles

variable {step : σ → σ → Prop} {s s' : σ}

/-- A rank that every step lowers. -/
theorem of_rank {ρ : Type*} [LT ρ] [WellFoundedLT ρ] (rank : σ → ρ)
    (hrank : ∀ s s', step s s' → rank s' < rank s) (s : σ) : Settles step s :=
  (Subrelation.wf (hrank _ _) (InvImage.wf rank wellFounded_lt)).apply s

/-- A run that comes back to where it was goes on for ever. -/
theorem not_of_cycle (h : Relation.TransGen step s s) : ¬Settles step s := by
  intro hs
  have hacc : Acc (Relation.TransGen fun s' s => step s s') s := hs.transGen
  have hcycle : Relation.TransGen (fun s' s => step s s') s s := Relation.transGen_swap.mpr h
  clear hs h
  induction hacc with
  | intro s _ ih => exact ih s hcycle hcycle

end Settles

/-- Every run of `step` that goes on as long as it can comes to the goal. -/
inductive Inevitable (step : σ → σ → Prop) (goal : σ → Prop) : σ → Prop
  | now {s : σ} (h : goal s) : Inevitable step goal s
  | next {s : σ} (hcan : ∃ s', step s s') (hall : ∀ s', step s s' → Inevitable step goal s') :
      Inevitable step goal s

namespace Inevitable

variable {step : σ → σ → Prop} {goal : σ → Prop} {s : σ}

/-- A rank that falls with every step, where no state short of the goal is stuck. -/
theorem of_rank {ρ : Type*} [LT ρ] [WellFoundedLT ρ] (rank : σ → ρ) (inv : σ → Prop)
    (hcan : ∀ s, inv s → ¬goal s → ∃ s', step s s')
    (hstep : ∀ s s', inv s → ¬goal s → step s s' → inv s' ∧ rank s' < rank s) (hs : inv s) :
    Inevitable step goal s := by
  have hwf : WellFounded fun s' s => rank s' < rank s := InvImage.wf rank wellFounded_lt
  induction s using hwf.induction with
  | _ s ih =>
    by_cases hgoal : goal s
    · exact .now hgoal
    · refine .next (hcan s hs hgoal) fun s' h => ?_
      obtain ⟨hs', hlt⟩ := hstep s s' hs hgoal h
      exact ih s' hlt hs'

/-- What every step keeps and the goal contradicts. -/
theorem not_of_invariant (inv : σ → Prop) (hgoal : ∀ s, inv s → ¬goal s)
    (hstep : ∀ s s', inv s → step s s' → inv s') (hs : inv s) : ¬Inevitable step goal s := by
  intro h
  induction h with
  | now h => exact hgoal _ hs h
  | next hcan _ ih =>
    obtain ⟨s', h⟩ := hcan
    exact ih s' h (hstep _ _ hs h)

/-- Some run that need not come to the goal goes through `s'`. -/
theorem not_of_step {s' : σ} (hgoal : ¬goal s) (hstep : step s s')
    (h : ¬Inevitable step goal s') : ¬Inevitable step goal s := by
  intro hs
  cases hs with
  | now hs => exact hgoal hs
  | next _ hall => exact h (hall s' hstep)

end Inevitable

/-- A count that never rises, and falls again and again as long as it is not 0, comes to 0. -/
theorem exists_eq_zero_of_falls (count : ℕ → ℕ) (hle : ∀ k, count (k + 1) ≤ count k)
    (hfalls : ∀ k, ∃ j, k ≤ j ∧ (count j ≠ 0 → count (j + 1) < count j)) : ∃ k, count k = 0 := by
  have hanti (k j : ℕ) (h : k ≤ j) : count j ≤ count k := by
    induction j, h using Nat.le_induction with
    | base => exact le_rfl
    | succ j _ ih => exact (hle j).trans ih
  have hfrom (m : ℕ) : ∀ k, count k = m → ∃ j, count j = 0 := by
    induction m using Nat.strong_induction_on with
    | h m ih =>
      intro k hk
      obtain ⟨j, hkj, hj⟩ := hfalls k
      by_cases hz : count j = 0
      · exact ⟨j, hz⟩
      · have hlt := (hj hz).trans_le (hanti k j hkj)
        exact ih (count (j + 1)) (hk ▸ hlt) (j + 1) rfl
  exact hfrom _ 0 rfl

/-- Four counters, the first of them the most significant. -/
abbrev Rank : Type := ℕ ×ₗ ℕ ×ₗ ℕ ×ₗ ℕ

def Rank.of (a b c d : ℕ) : Rank := toLex (a, toLex (b, toLex (c, d)))

theorem Rank.of_lt_of {a b c d a' b' c' d' : ℕ} :
    Rank.of a' b' c' d' < Rank.of a b c d ↔
      a' < a ∨ a' = a ∧ (b' < b ∨ b' = b ∧ (c' < c ∨ c' = c ∧ d' < d)) := by
  simp only [Rank.of, Prod.Lex.toLex_lt_toLex]

instance : WellFoundedLT Rank := inferInstance

end IoHdlc.Kit
