import Mathlib.Data.List.Chain
import Mathlib.Tactic.Common

/-!
Round robin on a cycle. A search walks from a place to the next one that is
accepted and ends at the latest where it started; searches one after the other
meet the accepted places in the order of the cycle.
-/

namespace IoHdlc.Kit

variable {α : Type*}

/-- The places behind `c` along `next`, in order, up to `c` itself. -/
structure Turn (next : α → α) (c : α) (places : List α) : Prop where
  chain : List.IsChain (fun a b => next a = b) (c :: places)
  last : places.getLast? = some c
  nodup : places.Nodup

/-- The walk from `x`: to the first place that is accepted or is `start`. -/
def walk [DecidableEq α] (next : α → α) (accepts : α → Bool) (start : α) : Nat → α → Option α
  | 0, _ => none
  | fuel + 1, x =>
    if accepts (next x) then some (next x)
    else if next x = start then some (next x)
    else walk next accepts start fuel (next x)

/-- The cycle behind a place has the places of the list. -/
theorem cycle_perm (before behind : List α) (c : α) :
    (behind ++ before ++ [c]).Perm (before ++ c :: behind) := by
  calc (behind ++ before ++ [c]).Perm (before ++ behind ++ [c]) :=
        List.perm_append_comm.append_right [c]
    _ = before ++ (behind ++ [c]) := List.append_assoc ..
    List.Perm _ (before ++ c :: behind) := (List.perm_append_singleton c behind).append_left before

/-- The results of `k` searches, each from where the one before ended. -/
def visits (search : α → α) : Nat → α → List α
  | 0, _ => []
  | k + 1, c => search c :: visits search k (search c)

section Walk

variable [DecidableEq α] {next : α → α} {accepts : α → Bool} {start x : α} {places : List α}
  {fuel : Nat}

/-- The walk over the places that are left of a turn. -/
theorem walk_eq (hchain : List.IsChain (fun a b => next a = b) (x :: places))
    (hlast : places.getLast? = some start) (hnodup : places.Nodup) (hfuel : places.length ≤ fuel) :
    walk next accepts start fuel x = some ((places.find? accepts).getD start) := by
  induction places generalizing x fuel with
  | nil => simp at hlast
  | cons y rest ih =>
    obtain ⟨fuel, rfl⟩ : ∃ k, fuel = k + 1 := ⟨fuel - 1, by simp at hfuel; omega⟩
    obtain ⟨rfl, hrest⟩ := List.isChain_cons_cons.mp hchain
    obtain ⟨hy, hnodup⟩ := List.nodup_cons.mp hnodup
    rw [walk, List.find?_cons]
    cases haccepts : accepts (next x) with
    | true => simp
    | false =>
      rw [if_neg (by simp)]
      cases rest with
      | nil =>
        have heq : next x = start := by simpa using hlast
        simp [heq]
      | cons z rest =>
        have hstart : (z :: rest).getLast? = some start := by simpa using hlast
        have hne : next x ≠ start := fun heq => hy (heq ▸ List.mem_of_getLast? hstart)
        rw [if_neg hne]
        exact ih hrest hstart hnodup (by simp at hfuel ⊢; omega)

/-- A walk that ends does not depend on how long it may be. -/
theorem walk_mono {y : α} {fuel' : Nat} (h : walk next accepts start fuel x = some y)
    (hle : fuel ≤ fuel') : walk next accepts start fuel' x = some y := by
  induction fuel generalizing x fuel' with
  | zero => cases h
  | succ fuel ih =>
    obtain ⟨fuel', rfl⟩ : ∃ k, fuel' = k + 1 := ⟨fuel' - 1, by omega⟩
    rw [walk] at h ⊢
    split at h
    next haccepts => rwa [if_pos haccepts]
    next hrejects =>
      rw [if_neg hrejects]
      split at h
      next hstart => rwa [if_pos hstart]
      next hgo =>
        rw [if_neg hgo]
        exact ih h (Nat.le_of_succ_le_succ hle)

end Walk

namespace Turn

variable {next : α → α} {accepts : α → Bool} {c e : α} {places before behind : List α}

/-- A search from `c` ends at the first place of the turn that is accepted. -/
theorem walk [DecidableEq α] (h : Turn next c places) {fuel : Nat} (hfuel : places.length ≤ fuel) :
    walk next accepts c fuel c = some ((places.find? accepts).getD c) :=
  walk_eq h.chain h.last h.nodup hfuel

/-- The turn from another place of the cycle. -/
theorem rotate (h : Turn next c (before ++ e :: behind)) : Turn next e (behind ++ before ++ [e]) := by
  obtain ⟨hfirst, hrest⟩ := List.isChain_split.mp
    (show List.IsChain (fun a b => next a = b) ((c :: before) ++ e :: behind) from h.chain)
  have hlast : (e :: behind).getLast? = some c := by
    have hlast := h.last
    rwa [List.getLast?_append_cons] at hlast
  obtain ⟨front, hfront⟩ := List.getLast?_eq_some_iff.mp hlast
  constructor
  case chain =>
    -- the two parts meet at `c`
    have hsplit : e :: (behind ++ before ++ [e]) = front ++ c :: (before ++ [e]) := by
      rw [List.append_assoc, ← List.cons_append, hfront, List.append_assoc]
      rfl
    rw [hsplit, List.isChain_split]
    exact ⟨hfront ▸ hrest, hfirst⟩
  case last => exact List.getLast?_concat
  case nodup =>
    exact (cycle_perm before behind e).nodup_iff.mpr h.nodup

/-- One search after the other meets the accepted places in the order of the turn. -/
theorem visits_eq {search : α → α} {n : Nat}
    (hsearch : ∀ c places, Turn next c places → places.length = n →
      search c = (places.find? accepts).getD c)
    (h : Turn next c places) (hn : places.length = n) {k : Nat}
    (hk : k ≤ (places.filter accepts).length) :
    visits search k c = (places.filter accepts).take k := by
  induction k generalizing c places with
  | zero => rfl
  | succ k ih =>
    cases hfind : places.find? accepts with
    | none =>
      have hnone : places.filter accepts = [] := by
        rw [List.filter_eq_nil_iff]
        exact List.find?_eq_none.mp hfind
      rw [hnone] at hk
      exact absurd hk (Nat.not_succ_le_zero k)
    | some e =>
      obtain ⟨haccepts, before, behind, rfl, hbefore⟩ := List.find?_eq_some_iff_append.mp hfind
      have hnone : before.filter accepts = [] := by
        rw [List.filter_eq_nil_iff]
        exact fun a ha => by simpa using hbefore a ha
      have hnext : search c = e := by rw [hsearch c _ h hn, hfind, Option.getD_some]
      have hturn := h.rotate
      have hlen : (behind ++ before ++ [e]).length = n := by
        simp only [List.length_append, List.length_cons, List.length_nil] at hn ⊢
        omega
      have hfilter : (behind ++ before ++ [e]).filter accepts = behind.filter accepts ++ [e] := by
        rw [List.filter_append, List.filter_append, hnone, List.append_nil, List.filter_singleton,
          haccepts]
        rfl
      rw [List.filter_append, hnone, List.nil_append, List.filter_cons_of_pos haccepts] at hk ⊢
      have hle : k ≤ (behind.filter accepts).length := Nat.le_of_succ_le_succ hk
      rw [visits, hnext, ih hturn hlen (by rw [hfilter, List.length_append]; omega), hfilter,
        List.take_append_of_le_length hle, List.take_succ_cons]

end Turn

/-! ### How far ahead a place is -/

section Between

variable [DecidableEq α]

/-- How many places of the cycle lie between `c` and `p`. -/
def between (places : List α) (c p : α) : Nat :=
  if places.idxOf c < places.idxOf p then places.idxOf p - places.idxOf c - 1
  else places.idxOf p + places.length - places.idxOf c - 1

variable {places before behind : List α} {c p q : α}

theorem between_lt (hc : c ∈ places) (hp : p ∈ places) : between places c p < places.length := by
  have hci := List.idxOf_lt_length_of_mem hc
  have hpi := List.idxOf_lt_length_of_mem hp
  rw [between]
  split <;> omega

/-- A new last place is one more at most. -/
theorem between_concat_le (hc : c ∈ places) (hp : p ∈ places) :
    between (places ++ [q]) c p ≤ between places c p + 1 := by
  have hci := List.idxOf_lt_length_of_mem hc
  rw [between, between, List.idxOf_append_of_mem hc, List.idxOf_append_of_mem hp,
    List.length_append, List.length_singleton]
  split <;> omega

/-- From `c` to `p` by way of a nearer place. -/
theorem between_of_lt (hc : c ∈ places) (hp : p ∈ places) (hq : q ∈ places)
    (h : between places c q < between places c p) :
    between places c q + 1 + between places q p = between places c p := by
  have hci := List.idxOf_lt_length_of_mem hc
  have hpi := List.idxOf_lt_length_of_mem hp
  have hqi := List.idxOf_lt_length_of_mem hq
  simp only [between] at h ⊢
  split_ifs at h ⊢ <;> omega

/-- The cycle behind `c` has each place where it is counted. -/
theorem idxOf_cycle (hnodup : (before ++ c :: behind).Nodup) (hp : p ∈ before ++ c :: behind) :
    (behind ++ before ++ [c]).idxOf p = between (before ++ c :: behind) c p := by
  obtain ⟨-, hrest, hdisjoint⟩ := List.nodup_append.mp hnodup
  obtain ⟨hcbehind, -⟩ := List.nodup_cons.mp hrest
  have hcbefore : c ∉ before := fun hmem => hdisjoint c hmem c List.mem_cons_self rfl
  have hci : (before ++ c :: behind).idxOf c = before.length := by
    rw [List.idxOf_append_of_notMem hcbefore, List.idxOf_cons_self, Nat.add_zero]
  have hlength : (before ++ c :: behind).length = before.length + behind.length + 1 := by
    rw [List.length_append, List.length_cons, Nat.add_assoc]
  rw [between, hci, hlength, List.append_assoc]
  rcases List.mem_append.mp hp with hbefore | hp
  · have hpbehind : p ∉ behind := fun hmem =>
      hdisjoint p hbefore p (List.mem_cons_of_mem c hmem) rfl
    have hpi := List.idxOf_lt_length_of_mem hbefore
    rw [List.idxOf_append_of_notMem hpbehind, List.idxOf_append_of_mem hbefore,
      List.idxOf_append_of_mem hbefore, if_neg (by omega)]
    omega
  rcases List.mem_cons.mp hp with rfl | hbehind
  · rw [List.idxOf_append_of_notMem hcbehind, List.idxOf_append_of_notMem hcbefore,
      List.idxOf_append_of_notMem hcbefore, List.idxOf_cons_self, List.idxOf_cons_self,
      if_neg (by omega)]
    omega
  · have hpbefore : p ∉ before := fun hmem => hdisjoint p hmem p hp rfl
    have hne : c ≠ p := fun heq => hcbehind (heq ▸ hbehind)
    rw [List.idxOf_append_of_mem hbehind, List.idxOf_append_of_notMem hpbefore,
      List.idxOf_cons_ne _ hne, if_pos (by omega)]
    omega

/-- A search meets an accepted place before it passes it. -/
theorem between_find_lt {accepts : α → Bool} (hnodup : (before ++ c :: behind).Nodup)
    (hq : q ∈ before ++ c :: behind)
    (hfind : ((behind ++ before ++ [c]).find? accepts).getD c = q)
    (hp : p ∈ before ++ c :: behind) (haccepts : accepts p = true) (hne : q ≠ p) :
    between (before ++ c :: behind) c q < between (before ++ c :: behind) c p := by
  have hcycle : p ∈ behind ++ before ++ [c] := (cycle_perm before behind c).mem_iff.mpr hp
  rw [← idxOf_cycle hnodup hq, ← idxOf_cycle hnodup hp]
  cases hfound : (behind ++ before ++ [c]).find? accepts with
  | none => exact absurd haccepts (List.find?_eq_none.mp hfound p hcycle)
  | some q' =>
    rw [hfound, Option.getD_some] at hfind
    subst hfind
    obtain ⟨-, skipped, rest, hsplit, hskipped⟩ := List.find?_eq_some_iff_append.mp hfound
    have hpskipped : p ∉ skipped := by
      intro hmem
      have hno := hskipped p hmem
      rw [haccepts] at hno
      cases hno
    have hnodup' := (cycle_perm before behind c).nodup_iff.mpr hnodup
    rw [hsplit] at hnodup' ⊢
    have hqskipped : q' ∉ skipped := fun hmem =>
      (List.nodup_append.mp hnodup').2.2 q' hmem q' List.mem_cons_self rfl
    rw [List.idxOf_append_of_notMem hqskipped, List.idxOf_append_of_notMem hpskipped,
      List.idxOf_cons_self, List.idxOf_cons_ne _ hne]
    omega

end Between

end IoHdlc.Kit
