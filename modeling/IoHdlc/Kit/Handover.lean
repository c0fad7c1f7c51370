import Mathlib.Tactic.Common

/-!
Things handed over one at a time: each is accepted, and completed before the next one is, or
the service is stopped and nothing more is said about it.
-/

namespace IoHdlc.Kit

/-- What is said about the things handed over. -/
inductive Hand (α : Type*) where
  | accepted (a : α)
  | completed (a : α)
  | stopped

namespace Hand

variable {α : Type*}

/-- A log in which every completion follows its acceptance, with the thing that is open at
its end. -/
inductive Open : List (Hand α) → Option α → Prop
  | nil : Open [] none
  | accepted {l : List (Hand α)} (h : Open l none) (a : α) : Open (l ++ [.accepted a]) (some a)
  | completed {l : List (Hand α)} {a : α} (h : Open l (some a)) : Open (l ++ [.completed a]) none
  | stopped {l : List (Hand α)} {o : Option α} (h : Open l o) : Open (l ++ [.stopped]) none

/-- An entry of a log with one more entry at its end is the last one or lies before it. -/
theorem entry_of_append {l pre post : List (Hand α)} {x y : Hand α}
    (h : l ++ [x] = pre ++ y :: post) :
    (x = y ∧ l = pre ∧ post = []) ∨ ∃ post', l = pre ++ y :: post' ∧ post = post' ++ [x] := by
  obtain rfl | ⟨post', z, rfl⟩ := List.eq_nil_or_concat post
  · have hend := List.append_inj' h rfl
    exact .inl ⟨List.head_eq_of_cons_eq hend.2, hend.1, rfl⟩
  · have hend : l ++ [x] = (pre ++ y :: post') ++ [z] := by
      rw [h, List.concat_eq_append, List.append_assoc, List.cons_append]
    have hsplit := List.append_inj' hend rfl
    exact .inr ⟨post', hsplit.1, by rw [hsplit.2, List.concat_eq_append]⟩

/-- The last entry about what is open is its acceptance. -/
theorem Open.last {l : List (Hand α)} {a : α} (h : Open l (some a)) :
    ∃ l', l = l' ++ [.accepted a] := by
  cases h with
  | accepted h => exact ⟨_, rfl⟩

/-- What was accepted is open, or its completion or a stop comes next. -/
theorem Open.accepted_cases {l : List (Hand α)} {o : Option α} (h : Open l o)
    {pre post : List (Hand α)} {a : α} (hl : l = pre ++ .accepted a :: post) :
    (post = [] ∧ o = some a) ∨ ∃ post', post = .completed a :: post' ∨ post = .stopped :: post' := by
  -- An entry behind the one that follows changes nothing.
  have hlater {post₀ : List (Hand α)} (x : Hand α)
      (h : ∃ post', post₀ = .completed a :: post' ∨ post₀ = .stopped :: post') :
      ∃ post', post₀ ++ [x] = .completed a :: post' ∨ post₀ ++ [x] = .stopped :: post' := by
    obtain ⟨post', rfl | rfl⟩ := h
    · exact ⟨post' ++ [x], .inl rfl⟩
    · exact ⟨post' ++ [x], .inr rfl⟩
  induction h generalizing post with
  | nil => simp at hl
  | accepted _ b ih =>
    rcases entry_of_append hl with ⟨hb, -, rfl⟩ | ⟨post₀, hl₀, rfl⟩
    · cases hb
      exact .inl ⟨rfl, rfl⟩
    · rcases ih hl₀ with ⟨-, hnone⟩ | hnext
      · cases hnone
      · exact .inr (hlater _ hnext)
  | completed _ ih =>
    rcases entry_of_append hl with ⟨hb, -, -⟩ | ⟨post₀, hl₀, rfl⟩
    · cases hb
    · rcases ih hl₀ with ⟨rfl, hsome⟩ | hnext
      · cases hsome
        exact .inr ⟨[], .inl rfl⟩
      · exact .inr (hlater _ hnext)
  | stopped _ ih =>
    rcases entry_of_append hl with ⟨hb, -, -⟩ | ⟨post₀, hl₀, rfl⟩
    · cases hb
    · rcases ih hl₀ with ⟨rfl, -⟩ | hnext
      · exact .inr ⟨[], .inr rfl⟩
      · exact .inr (hlater _ hnext)

/-- A completion directly follows the acceptance. -/
theorem Open.completed_cases {l : List (Hand α)} {o : Option α} (h : Open l o)
    {pre post : List (Hand α)} {a : α} (hl : l = pre ++ .completed a :: post) :
    ∃ pre', pre = pre' ++ [.accepted a] := by
  induction h generalizing post with
  | nil => simp at hl
  | accepted _ b ih =>
    rcases entry_of_append hl with ⟨hb, -, -⟩ | ⟨post₀, hl₀, rfl⟩
    · cases hb
    · exact ih hl₀
  | completed h ih =>
    rcases entry_of_append hl with ⟨hb, rfl, -⟩ | ⟨post₀, hl₀, rfl⟩
    · cases hb
      exact h.last
    · exact ih hl₀
  | stopped _ ih =>
    rcases entry_of_append hl with ⟨hb, -, -⟩ | ⟨post₀, hl₀, rfl⟩
    · cases hb
    · exact ih hl₀

end Hand

end IoHdlc.Kit
