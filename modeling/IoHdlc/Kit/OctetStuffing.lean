import Mathlib.Data.List.Basic
import Mathlib.Tactic.Common

/-!
Octet stuffing over an arbitrary alphabet: a flag delimits frames, and inside
a frame the flag and the escape are each replaced by the escape followed by a
masked octet.
-/

namespace IoHdlc.Kit

variable {α : Type*}

/-- The octets with a meaning of their own, and the mask that hides them. -/
structure Stuffing (α : Type*) where
  flag : α
  esc : α
  mask : α → α
  mask_mask : ∀ x, mask (mask x) = x
  esc_ne : esc ≠ flag
  mask_flag_ne : mask flag ≠ flag
  mask_esc_ne : mask esc ≠ flag

namespace Stuffing

variable [DecidableEq α] (st : Stuffing α)

def Special (x : α) : Prop := x = st.flag ∨ x = st.esc

instance (x : α) : Decidable (st.Special x) := inferInstanceAs (Decidable (_ ∨ _))

def stuffOctet (x : α) : List α := if st.Special x then [st.esc, st.mask x] else [x]

def stuff (xs : List α) : List α := xs.flatMap st.stuffOctet

/-- The inverse of `stuff`. A sequence that ends in an escape takes `past`, the
octet that follows it, as the escaped one. -/
def unstuff (past : α) : List α → List α
  | [] => []
  | [x] => if x = st.esc then [st.mask past] else [x]
  | x :: y :: rest =>
    if x = st.esc then st.mask y :: unstuff past rest else x :: unstuff past (y :: rest)

@[simp] theorem stuff_nil : st.stuff [] = [] := rfl

@[simp] theorem stuff_cons (x : α) (xs : List α) :
    st.stuff (x :: xs) = st.stuffOctet x ++ st.stuff xs := by
  simp [stuff]

theorem stuff_append (xs ys : List α) : st.stuff (xs ++ ys) = st.stuff xs ++ st.stuff ys := by
  simp [stuff]

@[simp] theorem unstuff_nil (past : α) : st.unstuff past [] = [] := by
  simp [unstuff]

theorem unstuff_esc_cons (past y : α) (rest : List α) :
    st.unstuff past (st.esc :: y :: rest) = st.mask y :: st.unstuff past rest := by
  simp [unstuff]

theorem unstuff_cons (past : α) {x : α} (hx : x ≠ st.esc) (rest : List α) :
    st.unstuff past (x :: rest) = x :: st.unstuff past rest := by
  cases rest with
  | nil => simp [unstuff, hx]
  | cons y rest => simp [unstuff, hx]

theorem unstuff_stuffOctet_append (past x : α) (rest : List α) :
    st.unstuff past (st.stuffOctet x ++ rest) = x :: st.unstuff past rest := by
  rw [stuffOctet]
  split
  · rw [List.cons_append, List.singleton_append, unstuff_esc_cons, mask_mask]
  · next h => exact st.unstuff_cons past (fun he => h (.inr he)) rest

theorem unstuff_stuff (past : α) (xs : List α) : st.unstuff past (st.stuff xs) = xs := by
  induction xs with
  | nil => simp
  | cons x xs ih => rw [stuff_cons, unstuff_stuffOctet_append, ih]

/-- Stuffed octets never contain the flag. -/
theorem flag_notMem_stuff (xs : List α) : st.flag ∉ st.stuff xs := by
  induction xs with
  | nil => simp
  | cons x xs ih =>
    rw [stuff_cons, List.mem_append, not_or]
    refine ⟨?_, ih⟩
    rw [stuffOctet]
    split
    · next h =>
      have hm : st.mask x ≠ st.flag := by
        rcases h with rfl | rfl
        · exact st.mask_flag_ne
        · exact st.mask_esc_ne
      simp [st.esc_ne.symm, hm.symm]
    · next h =>
      rw [List.mem_singleton]
      exact fun he => h (.inl he.symm)

theorem length_stuffOctet (x : α) :
    (st.stuffOctet x).length = if st.Special x then 2 else 1 := by
  rw [stuffOctet]
  split <;> rfl

/-- Each special octet costs one more. -/
theorem length_stuff (xs : List α) :
    (st.stuff xs).length = xs.length + xs.countP (st.Special ·) := by
  induction xs with
  | nil => rfl
  | cons x xs ih =>
    rw [stuff_cons, List.length_append, length_stuffOctet, ih, List.length_cons, List.countP_cons]
    by_cases h : st.Special x <;> simp [h] <;> omega

theorem length_le_length_stuff (xs : List α) : xs.length ≤ (st.stuff xs).length := by
  rw [length_stuff]
  omega

theorem length_stuff_le (xs : List α) : (st.stuff xs).length ≤ 2 * xs.length := by
  have := xs.countP_le_length (p := (st.Special ·))
  rw [length_stuff]
  omega

/-- Undoing the stuffing at most halves a sequence and never lengthens it. -/
theorem length_unstuff (past : α) (xs : List α) :
    (st.unstuff past xs).length ≤ xs.length ∧ xs.length ≤ 2 * (st.unstuff past xs).length := by
  fun_induction st.unstuff past xs with
  | case1 => simp
  | case2 | case3 => simp
  | case4 y rest ih =>
    simp only [List.length_cons] at ih ⊢
    omega
  | case5 x y rest h ih =>
    simp only [List.length_cons] at ih ⊢
    omega

end Stuffing

end IoHdlc.Kit
