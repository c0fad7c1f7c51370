import Mathlib.Data.List.Basic

/-!
A place in a list that is stored in segments: the number of a segment and an
offset into it. Segments may be empty, and a place at the end of a segment is
also one at the start of the next.
-/

namespace IoHdlc.Kit

variable {α : Type*}

structure Cursor where
  index : ℕ
  offset : ℕ
  deriving DecidableEq, Repr

namespace Cursor

variable {segs : List (List α)} {c : Cursor}

/-- A place inside a segment, at its end, or behind the last segment. -/
def Valid (segs : List (List α)) (c : Cursor) : Prop :=
  c.index ≤ segs.length ∧ c.offset ≤ (segs.getD c.index []).length

/-- What lies behind the place. -/
def rest (segs : List (List α)) (c : Cursor) : List α :=
  (segs.drop c.index).flatten.drop c.offset

theorem valid_start : Valid segs ⟨0, 0⟩ := ⟨Nat.zero_le _, Nat.zero_le _⟩

theorem rest_start : rest segs ⟨0, 0⟩ = segs.flatten := rfl

theorem rest_eq_append (h : c.index < segs.length) (hv : c.Valid segs) :
    c.rest segs = (segs[c.index].drop c.offset) ++ (segs.drop (c.index + 1)).flatten := by
  have hle : c.offset ≤ segs[c.index].length := by
    simpa [List.getD_eq_getElem?_getD, h] using hv.2
  rw [rest, List.drop_eq_getElem_cons h, List.flatten_cons, List.drop_append_of_le_length hle]

theorem rest_of_length_le (h : segs.length ≤ c.index) : c.rest segs = [] := by
  rw [rest, List.drop_eq_nil_of_le h, List.flatten_nil, List.drop_nil]

/-- From the end of a segment to the start of the next. -/
theorem Valid.next (h : c.index < segs.length) : Valid segs ⟨c.index + 1, 0⟩ :=
  ⟨h, Nat.zero_le _⟩

theorem rest_next (h : c.index < segs.length) (hend : c.offset = segs[c.index].length) :
    rest segs ⟨c.index + 1, 0⟩ = c.rest segs := by
  have hv : c.Valid segs := ⟨Nat.le_of_lt h, by simp [List.getD_eq_getElem?_getD, h, hend]⟩
  rw [rest_eq_append h hv, hend, List.drop_length]
  rfl

/-- Reading `n` entries of the segment. -/
theorem Valid.advance (h : c.index < segs.length) {n : ℕ}
    (hn : c.offset + n ≤ segs[c.index].length) : Valid segs ⟨c.index, c.offset + n⟩ :=
  ⟨Nat.le_of_lt h, by simpa [List.getD_eq_getElem?_getD, h] using hn⟩

theorem rest_advance (h : c.index < segs.length) {n : ℕ}
    (hn : c.offset + n ≤ segs[c.index].length) :
    c.rest segs =
      (segs[c.index].drop c.offset).take n ++ rest segs ⟨c.index, c.offset + n⟩ := by
  have hv : c.Valid segs :=
    ⟨Nat.le_of_lt h, by simpa [List.getD_eq_getElem?_getD, h] using Nat.le_trans (Nat.le_add_right _ n) hn⟩
  have hsplit : segs[c.index].drop c.offset =
      (segs[c.index].drop c.offset).take n ++ segs[c.index].drop (c.offset + n) := by
    rw [← List.drop_drop, List.take_append_drop]
  rw [rest_eq_append h hv, rest_eq_append (c := ⟨c.index, c.offset + n⟩) h (Valid.advance h hn),
    ← List.append_assoc, ← hsplit]

end Cursor

end IoHdlc.Kit
