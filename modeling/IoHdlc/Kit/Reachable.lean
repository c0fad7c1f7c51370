import Mathlib.Logic.Relation

/-!
States that a transition system reaches, and the one induction about them.
-/

namespace IoHdlc.Kit

variable {σ : Type*}

/-- The states that `step` reaches from an initial one. -/
def Reachable (init : σ → Prop) (step : σ → σ → Prop) (s : σ) : Prop :=
  ∃ s₀, init s₀ ∧ Relation.ReflTransGen step s₀ s

namespace Reachable

variable {init : σ → Prop} {step : σ → σ → Prop} {s s' : σ}

theorem start (h : init s) : Reachable init step s := ⟨s, h, .refl⟩

theorem tail (hs : Reachable init step s) (h : step s s') : Reachable init step s' := by
  obtain ⟨s₀, h₀, hrun⟩ := hs
  exact ⟨s₀, h₀, hrun.tail h⟩

/-- A run of fewer steps. -/
theorem mono {step' : σ → σ → Prop} (h : ∀ s s', step s s' → step' s s')
    (hs : Reachable init step s) : Reachable init step' s := by
  obtain ⟨s₀, h₀, hrun⟩ := hs
  exact ⟨s₀, h₀, Relation.ReflTransGen.mono h _ _ hrun⟩

/-- What holds initially and is kept by every step holds of every reachable state. -/
theorem invariant (inv : σ → Prop) (hinit : ∀ s, init s → inv s) (hstep : ∀ s s', inv s → step s s' → inv s')
    (hs : Reachable init step s) : inv s := by
  obtain ⟨s₀, h₀, hrun⟩ := hs
  induction hrun with
  | refl => exact hinit s₀ h₀
  | tail _ hlast ih => exact hstep _ _ ih hlast

/-- A run that can be evaluated: `act` does one step for each element of `as`. -/
theorem exists_of_run {α : Type*} (act : σ → α → Option σ)
    (hact : ∀ s a s', act s a = some s' → step s s') (hs : Reachable init step s) (as : List α)
    (p : σ → Bool) (hp : (as.foldlM act s).any p = true) :
    ∃ s', Reachable init step s' ∧ p s' = true := by
  induction as generalizing s with
  | nil => exact ⟨s, hs, hp⟩
  | cons a as ih =>
    rw [List.foldlM_cons] at hp
    cases ha : act s a with
    | none => simp [ha] at hp
    | some s₁ =>
      rw [ha] at hp
      exact ih (hs.tail (hact s a s₁ ha)) hp

end Reachable

/-- What each action keeps holds behind a run of them. -/
theorem foldlM_invariant {α : Type*} {act : σ → α → Option σ} (inv : σ → Prop) {as : List α}
    (hact : ∀ a ∈ as, ∀ s s', inv s → act s a = some s' → inv s') {s s' : σ} (hs : inv s)
    (h : as.foldlM act s = some s') : inv s' := by
  induction as generalizing s with
  | nil =>
    cases h
    exact hs
  | cons a as ih =>
    rw [List.foldlM_cons] at h
    obtain ⟨s₁, ha, hrest⟩ := Option.bind_eq_some_iff.mp h
    exact ih (fun b hb => hact b (List.mem_cons_of_mem a hb))
      (hact a List.mem_cons_self s s₁ hs ha) hrest

/-- Each step that `as` makes from `s` meets `P`, up to an action that cannot be done. -/
def Along {α : Type*} (act : σ → α → Option σ) (P : σ → α → σ → Prop) (s : σ) : List α → Prop
  | [] => True
  | a :: as =>
    match act s a with
    | some s' => P s a s' ∧ Along act P s' as
    | none => True

/-- From one property of the steps of a run to another, with an invariant that the first keeps. -/
theorem Along.imp {α : Type*} {act : σ → α → Option σ} {P Q : σ → α → σ → Prop} (inv : σ → Prop)
    (hact : ∀ s a s', inv s → act s a = some s' → P s a s' → Q s a s' ∧ inv s') {as : List α} {s : σ}
    (hs : inv s) (h : Along act P s as) : Along act Q s as := by
  induction as generalizing s with
  | nil => trivial
  | cons a as ih =>
    rw [Along] at h ⊢
    cases ha : act s a with
    | none => trivial
    | some s' =>
      rw [ha] at h
      obtain ⟨hstep, hrest⟩ := h
      obtain ⟨hgoal, hs'⟩ := hact s a s' hs ha hstep
      exact ⟨hgoal, ih hs' hrest⟩

end IoHdlc.Kit
