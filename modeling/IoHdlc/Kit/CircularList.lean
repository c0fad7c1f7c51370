import Mathlib.Data.List.Chain
import Mathlib.Data.List.Nodup
import Mathlib.Logic.Function.Basic
import Mathlib.Tactic.Common

/-!
Circular doubly linked lists in the links of their elements. A ring is a list
whose elements follow each other and whose last one is followed by the first,
read from any of them. A range is taken out of a ring with one join, of what is
before it to what is behind it, and put into one with two.
-/

namespace IoHdlc.Kit

variable {α : Type*}

/-- What each node has on either side. -/
structure Links (α : Type*) where
  next : α → α
  prev : α → α

namespace Links

/-- Both nodes know the other one. -/
def Joined (l : Links α) (a b : α) : Prop := l.next a = b ∧ l.prev b = a

def Chain (l : Links α) (xs : List α) : Prop := List.IsChain l.Joined xs

instance [DecidableEq α] (l : Links α) (a b : α) : Decidable (l.Joined a b) :=
  inferInstanceAs (Decidable (_ ∧ _))

instance [DecidableEq α] (l : Links α) (xs : List α) : Decidable (l.Chain xs) :=
  inferInstanceAs (Decidable (List.IsChain _ _))

/-- The elements in a circle, whichever of them the list begins with. -/
def Ring (l : Links α) (xs : List α) : Prop :=
  l.Chain xs ∧ ∀ a ∈ xs.head?, ∀ b ∈ xs.getLast?, l.Joined b a

variable {l : Links α} {xs ys zs : List α} {a b c d : α}

theorem ring_iff (hfirst : xs.head? = some a) (hlast : xs.getLast? = some b) :
    l.Ring xs ↔ l.Chain xs ∧ l.Joined b a := by
  rw [Ring, hfirst, hlast]
  simp

/-- A ring is two chains and the two seams between them. -/
theorem ring_append (hxs : xs.head? = some a) (hxs' : xs.getLast? = some b)
    (hys : ys.head? = some c) (hys' : ys.getLast? = some d) :
    l.Ring (xs ++ ys) ↔ l.Chain xs ∧ l.Chain ys ∧ l.Joined b c ∧ l.Joined d a := by
  have hfirst : (xs ++ ys).head? = some a := by rw [List.head?_append, hxs]; rfl
  have hlast : (xs ++ ys).getLast? = some d := by rw [List.getLast?_append, hys']; rfl
  rw [ring_iff hfirst hlast, Chain, List.isChain_append, hxs', hys]
  simp [Chain, and_assoc]

theorem ring_comm : l.Ring (xs ++ ys) ↔ l.Ring (ys ++ xs) := by
  cases xs with
  | nil => rw [List.nil_append, List.append_nil]
  | cons a xs =>
    cases ys with
    | nil => rw [List.nil_append, List.append_nil]
    | cons c ys =>
      have hxs := List.getLast?_eq_some_getLast (List.cons_ne_nil a xs)
      have hys := List.getLast?_eq_some_getLast (List.cons_ne_nil c ys)
      rw [ring_append rfl hxs rfl hys, ring_append rfl hys rfl hxs]
      tauto

theorem notMem_tail_of_head? (hnodup : xs.Nodup) (hfirst : xs.head? = some a) : a ∉ xs.tail := by
  obtain ⟨rest, rfl⟩ := List.head?_eq_some_iff.mp hfirst
  exact (List.nodup_cons.mp hnodup).1

theorem notMem_dropLast_of_getLast? (hnodup : xs.Nodup) (hlast : xs.getLast? = some b) :
    b ∉ xs.dropLast := by
  obtain ⟨front, rfl⟩ := List.getLast?_eq_some_iff.mp hlast
  rw [List.dropLast_concat]
  exact fun hmem => List.disjoint_of_nodup_append hnodup hmem List.mem_cons_self

section Join

variable [DecidableEq α]

def setNext (l : Links α) (a b : α) : Links α := { l with next := Function.update l.next a b }

def setPrev (l : Links α) (a b : α) : Links α := { l with prev := Function.update l.prev a b }

/-- `b` behind `a`. -/
def join (l : Links α) (a b : α) : Links α := (l.setNext a b).setPrev b a

theorem joined_join (l : Links α) (a b : α) : (l.join a b).Joined a b :=
  ⟨Function.update_self .., Function.update_self ..⟩

theorem Joined.join (h : l.Joined c d) (ha : c ≠ a) (hb : d ≠ b) : (l.join a b).Joined c d :=
  ⟨(Function.update_of_ne ha ..).trans h.1, (Function.update_of_ne hb ..).trans h.2⟩

theorem join_comm (hac : a ≠ c) (hbd : b ≠ d) :
    (l.join a b).join c d = (l.join c d).join a b := by
  simp only [Links.join, setNext, setPrev]
  rw [Function.update_comm hac, Function.update_comm hbd]

/-- A join leaves a chain alone that goes on neither behind the one nor before the other. -/
theorem Chain.join (h : l.Chain xs) (ha : a ∉ xs.dropLast) (hb : b ∉ xs.tail) :
    (l.join a b).Chain xs := by
  rw [Chain, List.isChain_iff_getElem] at h ⊢
  intro i hi
  apply (h i hi).join
  · rintro rfl
    apply ha
    rw [← List.getElem_dropLast (by simpa using Nat.lt_sub_of_add_lt hi)]
    exact List.getElem_mem _
  · rintro rfl
    apply hb
    have hlt : i < xs.tail.length := by simpa using Nat.lt_sub_of_add_lt hi
    rw [← List.getElem_tail hlt]
    exact List.getElem_mem _

theorem Chain.join_of_notMem (h : l.Chain xs) (ha : a ∉ xs) (hb : b ∉ xs) :
    (l.join a b).Chain xs :=
  h.join (fun hmem => ha (List.dropLast_subset _ hmem)) fun hmem => hb (List.mem_of_mem_tail hmem)

theorem Ring.join_of_notMem (h : l.Ring xs) (ha : a ∉ xs) (hb : b ∉ xs) : (l.join a b).Ring xs := by
  refine ⟨h.1.join_of_notMem ha hb, fun x hx y hy => ?_⟩
  apply (h.2 x hx y hy).join
  · exact ne_of_mem_of_not_mem (List.mem_of_getLast? hy) ha
  · exact ne_of_mem_of_not_mem (List.mem_of_head? hx) hb

/-- A chain becomes a ring when its ends are joined. -/
theorem Chain.close (h : l.Chain xs) (hnodup : xs.Nodup) (hfirst : xs.head? = some a)
    (hlast : xs.getLast? = some b) : (l.join b a).Ring xs := by
  rw [ring_iff hfirst hlast]
  refine ⟨?_, joined_join l b a⟩
  exact h.join (notMem_dropLast_of_getLast? hnodup hlast) (notMem_tail_of_head? hnodup hfirst)

/-- A chain goes into a ring behind its last element. -/
theorem Ring.splice (h : l.Ring xs) (hzs : l.Chain zs) (hnodup : (xs ++ zs).Nodup)
    (hfirst : xs.head? = some a) (hlast : xs.getLast? = some b) (hfirst' : zs.head? = some c)
    (hlast' : zs.getLast? = some d) : ((l.join b c).join d a).Ring (xs ++ zs) := by
  obtain ⟨hnodupx, hnodupz, hdisj⟩ := List.nodup_append'.mp hnodup
  have ha := List.mem_of_head? hfirst
  have hb := List.mem_of_getLast? hlast
  have hc := List.mem_of_head? hfirst'
  have hd := List.mem_of_getLast? hlast'
  obtain ⟨hxs, -⟩ := (ring_iff hfirst hlast).mp h
  rw [ring_append hfirst hlast hfirst' hlast']
  refine ⟨?_, ?_, ?_, joined_join _ d a⟩
  · apply Chain.join (hxs.join ?_ ?_)
    · exact fun hmem => hdisj (List.dropLast_subset _ hmem) hd
    · exact notMem_tail_of_head? hnodupx hfirst
    · exact notMem_dropLast_of_getLast? hnodupx hlast
    · exact fun hmem => hdisj (List.mem_of_mem_tail hmem) hc
  · apply Chain.join (hzs.join ?_ ?_)
    · exact notMem_dropLast_of_getLast? hnodupz hlast'
    · exact fun hmem => hdisj ha (List.mem_of_mem_tail hmem)
    · exact fun hmem => hdisj hb (List.dropLast_subset _ hmem)
    · exact notMem_tail_of_head? hnodupz hfirst'
  · apply (joined_join l b c).join
    · rintro rfl
      exact hdisj hb hd
    · rintro rfl
      exact hdisj ha hc

end Join

end Links

/-! ### Many rings -/

section Rings

variable {ι : Type*} {head : ι → α} {elems : ι → List α} {l : Links α}

/-- Rings of a head and elements each, which have nothing in common. -/
structure Rings (l : Links α) (head : ι → α) (elems : ι → List α) : Prop where
  ring : ∀ i, l.Ring (head i :: elems i)
  nodup : ∀ i, (head i :: elems i).Nodup
  disjoint : ∀ i j, i ≠ j → (head i :: elems i).Disjoint (head j :: elems j)

/-- A node that is neither a head nor an element. -/
def FreeNode (head : ι → α) (elems : ι → List α) (x : α) : Prop := ∀ i, x ∉ head i :: elems i

/-- The rings beside a chain that is in none of them. -/
structure RingsBeside (l : Links α) (head : ι → α) (elems : ι → List α) (zs : List α) : Prop where
  rings : Rings l head elems
  chain : l.Chain zs
  nodup : zs.Nodup
  free : ∀ x ∈ zs, FreeNode head elems x

namespace Rings

variable {i j : ι} {xs ys zs : List α} {a b f t x : α}

theorem beside (h : Rings l head elems) (hx : FreeNode head elems x) :
    RingsBeside l head elems [x] where
  rings := h
  chain := .singleton x
  nodup := List.nodup_singleton x
  free := by
    intro y hy
    rw [List.mem_singleton.mp hy]
    exact hx

/-- What is before a head. -/
theorem getLast?_eq (h : Rings l head elems) (i : ι) :
    (head i :: elems i).getLast? = some (l.prev (head i)) := by
  obtain ⟨b, hb⟩ : ∃ b, (head i :: elems i).getLast? = some b :=
    ⟨_, List.getLast?_eq_some_getLast (List.cons_ne_nil _ _)⟩
  obtain ⟨-, -, hprev⟩ := (Links.ring_iff rfl hb).mp (h.ring i)
  rw [hb, hprev]

/-- What is behind a head. -/
theorem head?_eq (h : Rings l head elems) (i : ι) :
    (elems i ++ [head i]).head? = some (l.next (head i)) := by
  obtain ⟨a, ha⟩ : ∃ a, (elems i ++ [head i]).head? = some a :=
    ⟨_, List.head?_eq_some_head (by simp)⟩
  have hring : l.Ring (elems i ++ [head i]) := Links.ring_comm.mp (h.ring i)
  obtain ⟨-, hnext, -⟩ := (Links.ring_iff ha List.getLast?_concat).mp hring
  rw [ha, hnext]

/-- Around a range of elements: the rest of the ring begins behind the range and ends before it. -/
theorem around (h : Rings l head elems) (hi : elems i = xs ++ zs ++ ys) (hf : zs.head? = some f)
    (ht : zs.getLast? = some t) :
    (ys ++ head i :: xs).head? = some (l.next t) ∧ (ys ++ head i :: xs).getLast? = some (l.prev f) ∧
      l.Chain (ys ++ head i :: xs) ∧ l.Chain zs := by
  obtain ⟨a, ha⟩ : ∃ a, (ys ++ head i :: xs).head? = some a :=
    ⟨_, List.head?_eq_some_head (by simp)⟩
  obtain ⟨b, hb⟩ : ∃ b, (ys ++ head i :: xs).getLast? = some b :=
    ⟨_, List.getLast?_eq_some_getLast (by simp)⟩
  have hring : l.Ring ((ys ++ head i :: xs) ++ zs) := by
    have hturned := h.ring i
    rw [hi, ← List.cons_append, Links.ring_comm] at hturned
    rwa [List.append_assoc]
  obtain ⟨hrest, hzs, hbefore, hbehind⟩ := (Links.ring_append ha hb hf ht).mp hring
  rw [ha, hb, hbehind.1, hbefore.2]
  exact ⟨rfl, rfl, hrest, hzs⟩

theorem nodup_around (h : Rings l head elems) (hi : elems i = xs ++ zs ++ ys) :
    ((ys ++ head i :: xs) ++ zs).Nodup := by
  have hnodup := h.nodup i
  rw [hi, ← List.cons_append] at hnodup
  rw [List.append_assoc]
  exact List.nodup_append_comm.mp hnodup

/-- The neighbours of a range are not in it. -/
theorem outside (h : Rings l head elems) (hi : elems i = xs ++ zs ++ ys) (hf : zs.head? = some f)
    (ht : zs.getLast? = some t) : l.prev f ∉ zs ∧ l.next t ∉ zs := by
  obtain ⟨hnext, hprev, -⟩ := h.around hi hf ht
  have hdisj := List.disjoint_of_nodup_append (h.nodup_around hi)
  exact ⟨hdisj (List.mem_of_getLast? hprev), hdisj (List.mem_of_head? hnext)⟩

variable [DecidableEq α] [DecidableEq ι]

omit [DecidableEq α] in
/-- The elements of one ring are replaced, and the others stay as they are. -/
theorem update (h : Rings l head elems) {l' : Links α} (hring : l'.Ring (head i :: xs))
    (hnodup : (head i :: xs).Nodup) (hothers : ∀ j, j ≠ i → l'.Ring (head j :: elems j))
    (hdisj : ∀ j, j ≠ i → List.Disjoint (head i :: xs) (head j :: elems j)) :
    Rings l' head (Function.update elems i xs) where
  ring := by
    intro j
    rcases eq_or_ne j i with rfl | hj
    · rwa [Function.update_self]
    · rw [Function.update_of_ne hj]
      exact hothers j hj
  nodup := by
    intro j
    rcases eq_or_ne j i with rfl | hj
    · rwa [Function.update_self]
    · rw [Function.update_of_ne hj]
      exact h.nodup j
  disjoint := by
    intro j k hjk
    rcases eq_or_ne j i with rfl | hj
    · rw [Function.update_self, Function.update_of_ne hjk.symm]
      exact hdisj k hjk.symm
    · rcases eq_or_ne k i with rfl | hk
      · rw [Function.update_of_ne hj, Function.update_self]
        exact List.disjoint_comm.mp (hdisj j hj)
      · rw [Function.update_of_ne hj, Function.update_of_ne hk]
        exact h.disjoint j k hjk

/-- A join inside one ring changes the elements of this one. -/
theorem join_update (h : Rings l head elems) (ha : a ∈ head i :: elems i)
    (hb : b ∈ head i :: elems i) (hring : (l.join a b).Ring (head i :: xs))
    (hsub : xs.Sublist (elems i)) :
    Rings (l.join a b) head (Function.update elems i xs) := by
  have hsub' : (head i :: xs).Sublist (head i :: elems i) := hsub.cons_cons _
  have hdisj (j : ι) (hj : j ≠ i) : List.Disjoint (head i :: elems i) (head j :: elems j) :=
    h.disjoint i j hj.symm
  apply h.update hring ((h.nodup i).sublist hsub')
  · intro j hj
    exact (h.ring j).join_of_notMem (hdisj j hj ha) (hdisj j hj hb)
  · intro j hj x hx
    exact hdisj j hj (hsub'.subset hx)

/-- A range is taken out. -/
theorem cut (h : Rings l head elems) (hi : elems i = xs ++ zs ++ ys) (hf : zs.head? = some f)
    (ht : zs.getLast? = some t) :
    RingsBeside (l.join (l.prev f) (l.next t)) head (Function.update elems i (xs ++ ys)) zs := by
  obtain ⟨hnext, hprev, hrest, hzs⟩ := h.around hi hf ht
  obtain ⟨hnodup, hnodupz, hdisj⟩ := List.nodup_append'.mp (h.nodup_around hi)
  have hmem {x : α} (hx : x ∈ ys ++ head i :: xs) : x ∈ head i :: elems i := by
    rw [hi]
    simp only [List.mem_append, List.mem_cons] at hx ⊢
    tauto
  have hsub : (xs ++ ys).Sublist (elems i) := by
    rw [hi, List.append_assoc]
    exact List.Sublist.append_left (List.sublist_append_right zs ys) xs
  obtain ⟨houtf, houtt⟩ := h.outside hi hf ht
  constructor
  case rings =>
    apply h.join_update (hmem (List.mem_of_getLast? hprev)) (hmem (List.mem_of_head? hnext)) _ hsub
    exact Links.ring_comm.mp (hrest.close hnodup hnext hprev)
  case chain => exact hzs.join_of_notMem houtf houtt
  case nodup => exact hnodupz
  case free =>
    intro x hx j
    have hxi : x ∈ head i :: elems i := by
      rw [hi]
      simp [hx]
    by_cases hj : j = i
    · subst hj
      rw [Function.update_self]
      intro hmemj
      refine hdisj (a := x) ?_ hx
      simp only [List.mem_append, List.mem_cons] at hmemj ⊢
      tauto
    · rw [Function.update_of_ne hj]
      exact h.disjoint i j (Ne.symm hj) hxi

end Rings

/-- The chain beside the rings goes into one of them. -/
theorem RingsBeside.splice [DecidableEq α] [DecidableEq ι] {j : ι} {xs ys zs : List α}
    {f t p s : α} (h : RingsBeside l head elems zs) (hj : elems j = xs ++ ys)
    (hf : zs.head? = some f) (ht : zs.getLast? = some t) (hp : (head j :: xs).getLast? = some p)
    (hs : (ys ++ [head j]).head? = some s) :
    Rings ((l.join p f).join t s) head (Function.update elems j (xs ++ zs ++ ys)) := by
  have hperm : List.Perm (head j :: (xs ++ zs ++ ys)) ((ys ++ head j :: xs) ++ zs) := by
    rw [← List.cons_append, List.append_assoc]
    exact List.perm_append_comm
  have hmem {x : α} : x ∈ head j :: elems j ↔ x ∈ ys ++ head j :: xs := by
    rw [hj]
    simp only [List.mem_append, List.mem_cons]
    tauto
  have hring : l.Ring (ys ++ head j :: xs) := by
    have hturned := h.rings.ring j
    rwa [hj, ← List.cons_append, Links.ring_comm] at hturned
  have hnodup : ((ys ++ head j :: xs) ++ zs).Nodup := by
    have hold := h.rings.nodup j
    rw [hj, ← List.cons_append] at hold
    refine List.nodup_append'.mpr ⟨List.nodup_append_comm.mp hold, h.nodup, fun x hx hz => ?_⟩
    exact h.free x hz j (hmem.mpr hx)
  have hfirst : (ys ++ head j :: xs).head? = some s := by
    cases ys <;> simpa using hs
  have hlast : (ys ++ head j :: xs).getLast? = some p := by
    rw [List.getLast?_append, hp]
    rfl
  have hfresh (k : ι) (hk : k ≠ j) {x : α} (hx : x ∈ (ys ++ head j :: xs) ++ zs) :
      x ∉ head k :: elems k := by
    rcases List.mem_append.mp hx with hx | hx
    · exact h.rings.disjoint j k hk.symm (hmem.mpr hx)
    · exact h.free x hx k
  apply h.rings.update
  case hring =>
    have hnew := hring.splice h.chain hnodup hfirst hlast hf ht
    rw [List.append_assoc, Links.ring_comm] at hnew
    exact hnew
  case hnodup => exact hperm.nodup_iff.mpr hnodup
  case hothers =>
    intro k hk
    have hbefore := (h.rings.ring k).join_of_notMem
      (hfresh k hk (List.mem_append_left _ (List.mem_of_getLast? hlast)))
      (hfresh k hk (List.mem_append_right _ (List.mem_of_head? hf)))
    exact hbefore.join_of_notMem (hfresh k hk (List.mem_append_right _ (List.mem_of_getLast? ht)))
      (hfresh k hk (List.mem_append_left _ (List.mem_of_head? hfirst)))
  case hdisj => exact fun k hk x hx => hfresh k hk (hperm.mem_iff.mp hx)

end Rings

end IoHdlc.Kit
