import Mathlib.Data.List.Basic
import Mathlib.Tactic.Common

/-!
A level with two thresholds. It counts as low from a fall to the lower threshold
until a rise above the upper one; in between the past decides. The changes of
the state alternate.

Histories have their newest move first.
-/

namespace IoHdlc.Kit

/-- A move of the level, with the level behind it. -/
inductive LevelMove where
  | fall (level : Nat)
  | rise (level : Nat)
  deriving DecidableEq

structure Thresholds where
  low : Nat
  high : Nat

namespace Thresholds

variable (t : Thresholds)

/-- Whether the level is low behind a move, from whether it was before. -/
def lowAfter (low : Bool) : LevelMove → Bool
  | .fall level => low || level ≤ t.low
  | .rise level => low && level ≤ t.high

variable {ε : Type*} (move : ε → Option LevelMove)

/-- Whether the level is low behind a history of events, some of which move it. -/
def isLow : List ε → Bool
  | [] => false
  | event :: earlier => ((move event).map (t.lowAfter (isLow earlier))).getD (isLow earlier)

/-- A fall to the lower threshold that no later rise above the upper one undid. -/
def FellLow (events : List ε) : Prop :=
  ∃ later event level earlier, events = later ++ event :: earlier ∧ move event = some (.fall level) ∧
    level ≤ t.low ∧ ∀ e ∈ later, ∀ level', move e = some (.rise level') → level' ≤ t.high

theorem fellLow_cons (event : ε) (events : List ε) :
    t.FellLow move (event :: events) ↔
      (∃ level, move event = some (.fall level) ∧ level ≤ t.low) ∨
        t.FellLow move events ∧ ∀ level, move event = some (.rise level) → level ≤ t.high := by
  constructor
  · rintro ⟨later, e, level, earlier, heq, hfall, hlow, hlater⟩
    cases later with
    | nil =>
      rw [List.nil_append, List.cons.injEq] at heq
      exact .inl ⟨level, heq.1 ▸ hfall, hlow⟩
    | cons e' later =>
      rw [List.cons_append, List.cons.injEq] at heq
      obtain ⟨rfl, rfl⟩ := heq
      exact .inr ⟨⟨later, e, level, earlier, rfl, hfall, hlow,
        fun e' h => hlater e' (List.mem_cons_of_mem _ h)⟩, hlater event List.mem_cons_self⟩
  · rintro (⟨level, hfall, hlow⟩ | ⟨⟨later, e, level, earlier, rfl, hfall, hlow, hlater⟩, hrise⟩)
    · exact ⟨[], event, level, events, rfl, hfall, hlow, fun _ h => nomatch h⟩
    · refine ⟨event :: later, e, level, earlier, rfl, hfall, hlow, fun e' h => ?_⟩
      rcases List.mem_cons.mp h with rfl | h
      · exact hrise
      · exact hlater e' h

/-- The state is low exactly behind a fall that was not undone. -/
theorem isLow_iff (events : List ε) : t.isLow move events = true ↔ t.FellLow move events := by
  induction events with
  | nil => simp [isLow, FellLow]
  | cons event events ih =>
    rw [fellLow_cons, isLow, ← ih]
    rcases hmove : move event with _ | ⟨level⟩ | ⟨level⟩
    · simp
    · simp [lowAfter, or_comm]
    · simp [lowAfter]

end Thresholds

/-- A list, its newest element first, that starts with `first` and takes turns with `other`; and
whether `first` was the last one. -/
inductive TakesTurns {α : Type*} (first other : α) : List α → Bool → Prop
  | start : TakesTurns first other [] false
  | first {l : List α} (h : TakesTurns first other l false) : TakesTurns first other (first :: l) true
  | other {l : List α} (h : TakesTurns first other l true) : TakesTurns first other (other :: l) false

namespace TakesTurns

variable {α : Type*} {first other : α} {l : List α} {atFirst : Bool}

theorem length_mod_two (h : TakesTurns first other l atFirst) : l.length % 2 = atFirst.toNat := by
  induction h with
  | start => rfl
  | first _ ih =>
    rw [Bool.toNat_false] at ih
    rw [List.length_cons, Bool.toNat_true]
    omega
  | other _ ih =>
    rw [Bool.toNat_true] at ih
    rw [List.length_cons, Bool.toNat_false]
    omega

/-- In the order of time the elements at even places are the first one. -/
theorem reverse_eq (h : TakesTurns first other l atFirst) :
    l.reverse = (List.range l.length).map fun i => if i % 2 = 0 then first else other := by
  induction h with
  | start => rfl
  | first h ih =>
    have hlen := h.length_mod_two
    rw [Bool.toNat_false] at hlen
    rw [List.reverse_cons, ih, List.length_cons, List.range_succ, List.map_append, List.map_singleton,
      if_pos hlen]
  | other h ih =>
    have hlen := h.length_mod_two
    rw [Bool.toNat_true] at hlen
    rw [List.reverse_cons, ih, List.length_cons, List.range_succ, List.map_append, List.map_singleton,
      if_neg (by omega)]

end TakesTurns

end IoHdlc.Kit
