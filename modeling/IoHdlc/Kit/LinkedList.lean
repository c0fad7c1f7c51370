import Mathlib.Data.List.Chain
import Mathlib.Logic.Function.Basic
import Mathlib.Tactic.Common

/-!
Lists that live in the links of their elements: a head and, for every element,
the one behind it. What is written outside the elements of the list does not
move it.
-/

namespace IoHdlc.Kit

variable {α : Type*}

/-- The links from `head` on run through the elements of a list and end. -/
def Linked (next : α → Option α) : Option α → List α → Prop
  | head, [] => head = none
  | head, x :: xs => head = some x ∧ Linked next (next x) xs

namespace Linked

variable {next next' : α → Option α} {head : Option α} {x : α} {xs ys : List α}

theorem nil_iff : Linked next none xs ↔ xs = [] := by
  cases xs with
  | nil => exact ⟨fun _ => rfl, fun _ => rfl⟩
  | cons x xs => exact iff_of_false (fun h => absurd h.1.symm (Option.some_ne_none x)) (List.cons_ne_nil x xs)

/-- The head of a list that is not empty, and what its link leads to. -/
theorem of_some (h : Linked next (some x) xs) : ∃ rest, xs = x :: rest ∧ Linked next (next x) rest := by
  cases xs with
  | nil => cases h
  | cons y rest =>
    obtain ⟨hhead, hrest⟩ := h
    cases hhead
    exact ⟨rest, rfl, hrest⟩

theorem head_eq (h : Linked next head xs) : head = xs.head? := by
  cases xs with
  | nil => exact h
  | cons x xs => exact h.1

/-- Each element links to the one behind it. -/
theorem isChain (h : Linked next head xs) : List.IsChain (fun a b => next a = some b) xs := by
  induction xs generalizing head with
  | nil => exact .nil
  | cons x xs ih =>
    cases xs with
    | nil => exact .singleton x
    | cons y xs => exact List.isChain_cons_cons.mpr ⟨h.2.1, ih h.2⟩

/-- The last element links to nothing. -/
theorem next_last {x : α} (h : Linked next head (xs ++ [x])) : next x = none := by
  induction xs generalizing head with
  | nil => exact h.2
  | cons y xs ih => exact ih h.2

theorem congr (h : Linked next head xs) (heq : ∀ x ∈ xs, next' x = next x) :
    Linked next' head xs := by
  induction xs generalizing head with
  | nil => exact h
  | cons x xs ih =>
    obtain ⟨hhead, hrest⟩ := h
    refine ⟨hhead, ih ?_ fun y hy => heq y (List.mem_cons_of_mem x hy)⟩
    rw [heq x List.mem_cons_self]
    exact hrest

/-- An element that is not in the list goes in front of it. -/
theorem push (h : Linked next head xs) (hx : x ∉ xs) (hlink : next' x = head)
    (heq : ∀ y ≠ x, next' y = next y) : Linked next' (some x) (x :: xs) := by
  refine ⟨rfl, ?_⟩
  rw [hlink]
  exact h.congr fun y hy => heq y (ne_of_mem_of_not_mem hy hx)

/-- An element that is not in the list goes behind its last one. -/
theorem concat {y : α} (h : Linked next head (xs ++ [y])) (hy : y ∉ xs) (hx : x ∉ xs ++ [y])
    (hlast : next' y = some x) (hend : next' x = none)
    (heq : ∀ z, z ≠ y → z ≠ x → next' z = next z) : Linked next' head (xs ++ [y, x]) := by
  induction xs generalizing head with
  | nil => exact ⟨h.1, hlast, hend⟩
  | cons z xs ih =>
    obtain ⟨hhead, hrest⟩ := h
    rw [List.mem_cons, not_or] at hy
    rw [List.cons_append, List.mem_cons, not_or] at hx
    refine ⟨hhead, ih ?_ hy.2 hx.2⟩
    rw [heq z (Ne.symm hy.1) (Ne.symm hx.1)]
    exact hrest

end Linked

end IoHdlc.Kit
