import IoHdlc.Kit.CircularList
import IoHdlc.Core.Window

/-!
The intrusive frame queues. A queue header of a frame and the head of a queue
are nodes of one heap, and every operation is the sequence of assignments of
the source.
-/

namespace IoHdlc

open Kit

variable {N : Type*}

section Source

variable [DecidableEq N]

def ioHdlcFrameqInit (h : Links N) (qp : N) : Links N :=
  let h := h.setNext qp qp
  h.setPrev qp qp

def ioHdlcFrameqIsempty (h : Links N) (qp : N) : Bool := h.next qp = qp

def ioHdlcFrameqInsert (h : Links N) (qp fqp : N) : Links N :=
  let h := h.setNext fqp qp
  let h := h.setPrev fqp (h.prev qp)
  let h := h.setNext (h.prev fqp) fqp
  h.setPrev qp fqp

def ioHdlcFrameqInsertHead (h : Links N) (qp fqp : N) : Links N :=
  let h := h.setNext fqp (h.next qp)
  let h := h.setPrev fqp qp
  let h := h.setPrev (h.next fqp) fqp
  h.setNext qp fqp

def ioHdlcFrameqRemove (h : Links N) (qp : N) : Links N × N :=
  let rfqp := h.next qp
  let h := h.setNext qp (h.next rfqp)
  let h := h.setPrev (h.next qp) qp
  (h, rfqp)

/-- The last argument and the last result are what `next_fqp` points to, if it points to anything;
there `none` is `NULL`. -/
def ioHdlcFrameqRemoveLa (h : Links N) (qp : N) (nextFqp : Option (Option N)) :
    Links N × N × Option (Option N) :=
  let rfqp := h.next qp
  let h := h.setNext qp (h.next rfqp)
  let h := h.setPrev (h.next qp) qp
  let nextFqp :=
    nextFqp.map fun _ => if ioHdlcFrameqIsempty h qp then none else some (h.next qp)
  (h, rfqp, nextFqp)

def ioHdlcFrameqLifoRemove (h : Links N) (qp : N) : Links N × N :=
  let rfqp := h.prev qp
  let h := h.setPrev qp (h.prev rfqp)
  let h := h.setNext (h.prev qp) qp
  (h, rfqp)

def ioHdlcFrameqDelete (h : Links N) (fqp : N) : Links N :=
  let h := h.setNext (h.prev fqp) (h.next fqp)
  h.setPrev (h.next fqp) (h.prev fqp)

def ioHdlcFrameqMove (h : Links N) (destQp sourceFromFqp sourceToFqp : N) : Links N :=
  let h := h.setNext (h.prev sourceFromFqp) (h.next sourceToFqp)
  let h := h.setPrev (h.next sourceToFqp) (h.prev sourceFromFqp)
  let h := h.setNext sourceToFqp (h.next destQp)
  let h := h.setPrev (h.next destQp) sourceToFqp
  let h := h.setNext destQp sourceFromFqp
  h.setPrev sourceFromFqp destQp

def ioHdlcFrameqMoveTail (h : Links N) (destQp fqp : N) : Links N :=
  let h := h.setNext (h.prev fqp) (h.next fqp)
  let h := h.setPrev (h.next fqp) (h.prev fqp)
  let h := h.setNext fqp destQp
  let h := h.setPrev fqp (h.prev destQp)
  let h := h.setNext (h.prev fqp) fqp
  h.setPrev destQp fqp

/-! ### Calls -/

/-- The calls on the queues. -/
inductive FrameqCall (N : Type*)
  | insert (qp fqp : N)
  | insertHead (qp fqp : N)
  | remove (qp : N)
  | removeLa (qp : N) (nextFqp : Option (Option N))
  | lifoRemove (qp : N)
  | delete (fqp : N)
  | move (destQp sourceFromFqp sourceToFqp : N)
  | moveTail (destQp fqp : N)

/-- What a call returns and what `next_fqp` points to behind it. -/
structure FrameqRet (N : Type*) where
  returned : Option N
  nextFqp : Option (Option N)

def FrameqCall.run (h : Links N) : FrameqCall N → Links N × FrameqRet N
  | .insert qp fqp => (ioHdlcFrameqInsert h qp fqp, ⟨none, none⟩)
  | .insertHead qp fqp => (ioHdlcFrameqInsertHead h qp fqp, ⟨none, none⟩)
  | .remove qp =>
    let r := ioHdlcFrameqRemove h qp
    (r.1, ⟨some r.2, none⟩)
  | .removeLa qp nextFqp =>
    let r := ioHdlcFrameqRemoveLa h qp nextFqp
    (r.1, ⟨some r.2.1, r.2.2⟩)
  | .lifoRemove qp =>
    let r := ioHdlcFrameqLifoRemove h qp
    (r.1, ⟨some r.2, none⟩)
  | .delete fqp => (ioHdlcFrameqDelete h fqp, ⟨none, none⟩)
  | .move destQp sourceFromFqp sourceToFqp =>
    (ioHdlcFrameqMove h destQp sourceFromFqp sourceToFqp, ⟨none, none⟩)
  | .moveTail destQp fqp => (ioHdlcFrameqMoveTail h destQp fqp, ⟨none, none⟩)

end Source

/-- The queues as lists: what each call, made where its documentation allows it, leaves of the
lists and returns. A range or a frame may be moved to the queue it is in. -/
inductive FrameqSpec {ι : Type*} [DecidableEq ι] (head : ι → N) (elems : ι → List N) :
    FrameqCall N → (ι → List N) → FrameqRet N → Prop
  | insert (i : ι) {x : N} (hfree : FreeNode head elems x) :
    FrameqSpec head elems (.insert (head i) x) (Function.update elems i (elems i ++ [x]))
      ⟨none, none⟩
  | insertHead (i : ι) {x : N} (hfree : FreeNode head elems x) :
    FrameqSpec head elems (.insertHead (head i) x) (Function.update elems i (x :: elems i))
      ⟨none, none⟩
  | remove {i : ι} {x : N} {xs : List N} (hi : elems i = x :: xs) :
    FrameqSpec head elems (.remove (head i)) (Function.update elems i xs) ⟨some x, none⟩
  | removeLa {i : ι} {x : N} {xs : List N} (hi : elems i = x :: xs) (nextFqp : Option (Option N)) :
    FrameqSpec head elems (.removeLa (head i) nextFqp) (Function.update elems i xs)
      ⟨some x, nextFqp.map fun _ => xs.head?⟩
  | lifoRemove {i : ι} {x : N} {xs : List N} (hi : elems i = xs ++ [x]) :
    FrameqSpec head elems (.lifoRemove (head i)) (Function.update elems i xs) ⟨some x, none⟩
  | delete {i : ι} {x : N} {xs ys : List N} (hi : elems i = xs ++ x :: ys) :
    FrameqSpec head elems (.delete x) (Function.update elems i (xs ++ ys)) ⟨none, none⟩
  | move {i : ι} {f t : N} {xs zs ys : List N} (hi : elems i = xs ++ zs ++ ys)
      (hf : zs.head? = some f) (ht : zs.getLast? = some t) (j : ι) :
    FrameqSpec head elems (.move (head j) f t)
      (Function.update (Function.update elems i (xs ++ ys)) j
        (zs ++ Function.update elems i (xs ++ ys) j)) ⟨none, none⟩
  | moveTail {i : ι} {x : N} {xs ys : List N} (hi : elems i = xs ++ x :: ys) (j : ι) :
    FrameqSpec head elems (.moveTail (head j) x)
      (Function.update (Function.update elems i (xs ++ ys)) j
        (Function.update elems i (xs ++ ys) j ++ [x])) ⟨none, none⟩

/-! ### The assignments as joins -/

section Joins

variable [DecidableEq N] {h : Links N} {qp fqp : N}

theorem ioHdlcFrameqInsert_eq (hprev : h.prev qp ≠ fqp) :
    ioHdlcFrameqInsert h qp fqp = (h.join (h.prev qp) fqp).join fqp qp := by
  simp only [ioHdlcFrameqInsert, Links.join, Links.setNext, Links.setPrev, Function.update_self]
  rw [Function.update_comm hprev.symm]

theorem ioHdlcFrameqInsertHead_eq (hne : fqp ≠ qp) :
    ioHdlcFrameqInsertHead h qp fqp = (h.join qp fqp).join fqp (h.next qp) := by
  simp only [ioHdlcFrameqInsertHead, Links.join, Links.setNext, Links.setPrev, Function.update_self]
  rw [Function.update_comm hne]

theorem ioHdlcFrameqRemove_eq :
    ioHdlcFrameqRemove h qp = (h.join qp (h.next (h.next qp)), h.next qp) := by
  simp only [ioHdlcFrameqRemove, Links.join, Links.setNext, Links.setPrev, Function.update_self]

theorem ioHdlcFrameqLifoRemove_eq :
    ioHdlcFrameqLifoRemove h qp = (h.join (h.prev (h.prev qp)) qp, h.prev qp) := by
  simp only [ioHdlcFrameqLifoRemove, Links.join, Links.setNext, Links.setPrev, Function.update_self]

/-- The lookahead is the first element of what is left. -/
theorem ioHdlcFrameqRemoveLa_eq (nextFqp : Option (Option N)) :
    ioHdlcFrameqRemoveLa h qp nextFqp =
      ((ioHdlcFrameqRemove h qp).1, h.next qp, nextFqp.map fun _ =>
        if ioHdlcFrameqIsempty (ioHdlcFrameqRemove h qp).1 qp then none
        else some ((ioHdlcFrameqRemove h qp).1.next qp)) :=
  rfl

theorem ioHdlcFrameqDelete_eq (hprev : h.prev fqp ≠ fqp) :
    ioHdlcFrameqDelete h fqp = h.join (h.prev fqp) (h.next fqp) := by
  simp only [ioHdlcFrameqDelete, Links.join, Links.setNext, Links.setPrev,
    Function.update_of_ne hprev.symm]

/-- The first two assignments of a move take the range out, the other four put it in again. -/
theorem ioHdlcFrameqMove_eq {destQp f t : N} (hprev : h.prev f ≠ t) (hdest : destQp ≠ t)
    (hnext : (h.join (h.prev f) (h.next t)).next destQp ≠ f) :
    ioHdlcFrameqMove h destQp f t =
      let h := h.join (h.prev f) (h.next t)
      (h.join destQp f).join t (h.next destQp) := by
  have hout : ioHdlcFrameqMove h destQp f t =
      let h := h.join (h.prev f) (h.next t)
      (h.join t (h.next destQp)).join destQp f := by
    simp only [ioHdlcFrameqMove, Links.join, Links.setNext, Links.setPrev,
      Function.update_of_ne hprev.symm, Function.update_of_ne hdest]
  rw [hout]
  exact Links.join_comm hdest.symm hnext

end Joins

/-! ### The queues as lists -/

section Lists

variable {ι : Type*} {h : Links N} {head : ι → N} {elems : ι → List N} {i : ι} {x : N}

theorem next_head_mem (hq : Rings h head elems) (i : ι) : h.next (head i) ∈ head i :: elems i := by
  have hmem := List.mem_of_head? (hq.head?_eq i)
  rw [List.mem_append, List.mem_singleton] at hmem
  exact List.mem_cons.mpr hmem.symm

theorem prev_head_mem (hq : Rings h head elems) (i : ι) : h.prev (head i) ∈ head i :: elems i :=
  List.mem_of_getLast? (hq.getLast?_eq i)

theorem next_head_of_cons {xs : List N} (hq : Rings h head elems) (hi : elems i = x :: xs) :
    h.next (head i) = x := by
  have hnext := hq.head?_eq i
  rw [hi] at hnext
  exact (Option.some.inj hnext).symm

theorem prev_head_of_concat {xs : List N} (hq : Rings h head elems) (hi : elems i = xs ++ [x]) :
    h.prev (head i) = x := by
  have hprev := hq.getLast?_eq i
  rw [hi, ← List.cons_append, List.getLast?_concat] at hprev
  exact (Option.some.inj hprev).symm

variable [DecidableEq N]

theorem ioHdlcFrameqIsempty_iff (hq : Rings h head elems) (i : ι) :
    ioHdlcFrameqIsempty h (head i) = true ↔ elems i = [] := by
  rw [ioHdlcFrameqIsempty, decide_eq_true_eq]
  cases hi : elems i with
  | nil =>
    have hnext := hq.head?_eq i
    rw [hi] at hnext
    exact iff_of_true (Option.some.inj hnext).symm rfl
  | cons y ys =>
    have hnodup := hq.nodup i
    rw [hi, List.nodup_cons, List.mem_cons, not_or] at hnodup
    rw [next_head_of_cons hq hi]
    exact iff_of_false (Ne.symm hnodup.1.1) (List.cons_ne_nil y ys)

/-- `NULL` exactly where there is nothing to look at. -/
theorem lookahead_eq (hq : Rings h head elems) (i : ι) :
    (if ioHdlcFrameqIsempty h (head i) then none else some (h.next (head i))) =
      (elems i).head? := by
  cases hi : elems i with
  | nil => rw [if_pos ((ioHdlcFrameqIsempty_iff hq i).mpr hi), List.head?_nil]
  | cons y ys =>
    have hne : ¬ioHdlcFrameqIsempty h (head i) = true := by
      rw [ioHdlcFrameqIsempty_iff hq, hi]
      exact List.cons_ne_nil y ys
    rw [if_neg hne, next_head_of_cons hq hi, List.head?_cons]

/-- A new queue beside the others. -/
theorem init_rings (hq : Rings h head elems) (hfree : FreeNode head elems x) :
    Rings (ioHdlcFrameqInit h x) (fun i : Option ι => i.elim x head) fun i => i.elim [] elems where
  ring := by
    rintro (_ | i)
    · rw [Links.ring_iff rfl rfl]
      exact ⟨.singleton x, h.joined_join x x⟩
    · exact (hq.ring i).join_of_notMem (hfree i) (hfree i)
  nodup := by
    rintro (_ | i)
    · exact List.nodup_singleton x
    · exact hq.nodup i
  disjoint := by
    rintro (_ | i) (_ | j) hij
    · exact absurd rfl hij
    · exact List.singleton_disjoint.mpr (hfree j)
    · exact (List.singleton_disjoint.mpr (hfree i)).symm
    · exact hq.disjoint i j fun heq => hij (congrArg some heq)

variable [DecidableEq ι]

theorem insert_rings (hb : RingsBeside h head elems [x]) (i : ι) :
    Rings (ioHdlcFrameqInsert h (head i) x) head (Function.update elems i (elems i ++ [x])) := by
  have hprev : h.prev (head i) ≠ x := by
    rintro rfl
    exact hb.free _ List.mem_cons_self i (prev_head_mem hb.rings i)
  rw [ioHdlcFrameqInsert_eq hprev]
  have hspliced := hb.splice (List.append_nil (elems i)).symm rfl rfl (hb.rings.getLast?_eq i) rfl
  rwa [List.append_nil] at hspliced

/-- A chain put in behind the head of a queue. -/
theorem splice_head_rings {zs : List N} {f t : N} (hb : RingsBeside h head elems zs)
    (hf : zs.head? = some f) (ht : zs.getLast? = some t) (i : ι) :
    Rings ((h.join (head i) f).join t (h.next (head i))) head
      (Function.update elems i (zs ++ elems i)) :=
  hb.splice (List.nil_append (elems i)).symm hf ht rfl (hb.rings.head?_eq i)

theorem insertHead_rings (hb : RingsBeside h head elems [x]) (i : ι) :
    Rings (ioHdlcFrameqInsertHead h (head i) x) head (Function.update elems i (x :: elems i)) := by
  have hne : x ≠ head i := by
    rintro rfl
    exact hb.free _ List.mem_cons_self i List.mem_cons_self
  rw [ioHdlcFrameqInsertHead_eq hne]
  exact splice_head_rings hb rfl rfl i

theorem remove_rings {xs : List N} (hq : Rings h head elems) (hi : elems i = x :: xs) :
    Rings (ioHdlcFrameqRemove h (head i)).1 head (Function.update elems i xs) ∧
      (ioHdlcFrameqRemove h (head i)).2 = x := by
  have hrange : elems i = [] ++ [x] ++ xs := hi
  have hnext := next_head_of_cons hq hi
  obtain ⟨-, hprev, -⟩ := hq.around hrange rfl rfl
  have hbefore : h.prev x = head i := by
    rw [List.getLast?_concat] at hprev
    exact (Option.some.inj hprev).symm
  have hcut := (hq.cut hrange rfl rfl).rings
  rw [ioHdlcFrameqRemove_eq, hnext]
  rw [hbefore] at hcut
  exact ⟨hcut, rfl⟩

theorem lifoRemove_rings {xs : List N} (hq : Rings h head elems) (hi : elems i = xs ++ [x]) :
    Rings (ioHdlcFrameqLifoRemove h (head i)).1 head (Function.update elems i xs) ∧
      (ioHdlcFrameqLifoRemove h (head i)).2 = x := by
  have hrange : elems i = xs ++ [x] ++ [] := by rw [hi, List.append_nil]
  have hprev := prev_head_of_concat hq hi
  obtain ⟨hnext, -⟩ := hq.around (f := x) (t := x) hrange rfl rfl
  have hbehind : h.next x = head i := (Option.some.inj hnext).symm
  have hcut := (hq.cut (f := x) (t := x) hrange rfl rfl).rings
  rw [ioHdlcFrameqLifoRemove_eq, hprev]
  rw [hbehind, List.append_nil] at hcut
  exact ⟨hcut, rfl⟩

/-- The deleted header is beside the queues. -/
theorem delete_rings {xs ys : List N} (hq : Rings h head elems) (hi : elems i = xs ++ x :: ys) :
    RingsBeside (ioHdlcFrameqDelete h x) head (Function.update elems i (xs ++ ys)) [x] := by
  have hrange : elems i = xs ++ [x] ++ ys := by
    rw [hi, List.append_assoc]
    rfl
  obtain ⟨hprev, -⟩ := hq.outside hrange rfl rfl
  rw [ioHdlcFrameqDelete_eq (List.ne_of_not_mem_cons hprev)]
  exact hq.cut hrange rfl rfl

theorem move_rings {xs zs ys : List N} {f t : N} (hq : Rings h head elems)
    (hi : elems i = xs ++ zs ++ ys) (hf : zs.head? = some f) (ht : zs.getLast? = some t) (j : ι) :
    Rings (ioHdlcFrameqMove h (head j) f t) head
      (Function.update (Function.update elems i (xs ++ ys)) j
        (zs ++ Function.update elems i (xs ++ ys) j)) := by
  obtain ⟨hprev, -⟩ := hq.outside hi hf ht
  have hb := hq.cut hi hf ht
  have hout : h.prev f ≠ t := by
    rintro heq
    exact hprev (heq ▸ List.mem_of_getLast? ht)
  have hdest : head j ≠ t := by
    rintro rfl
    exact hb.free _ (List.mem_of_getLast? ht) j List.mem_cons_self
  have hnext : (h.join (h.prev f) (h.next t)).next (head j) ≠ f := by
    intro heq
    exact hb.free f (List.mem_of_head? hf) j (heq ▸ next_head_mem hb.rings j)
  rw [ioHdlcFrameqMove_eq hout hdest hnext]
  exact splice_head_rings hb hf ht j

/-- Each call does to the heap what it does to the lists. -/
theorem frameq_refines {c : FrameqCall N} {elems' : ι → List N} {r : FrameqRet N}
    (hq : Rings h head elems) (hspec : FrameqSpec head elems c elems' r) :
    Rings (c.run h).1 head elems' ∧ (c.run h).2 = r := by
  cases hspec with
  | insert i hfree => exact ⟨insert_rings (hq.beside hfree) i, rfl⟩
  | insertHead i hfree => exact ⟨insertHead_rings (hq.beside hfree) i, rfl⟩
  | remove hi =>
    obtain ⟨hrings, hret⟩ := remove_rings hq hi
    refine ⟨hrings, ?_⟩
    simp only [FrameqCall.run, hret]
  | removeLa hi nextFqp =>
    obtain ⟨hrings, -⟩ := remove_rings hq hi
    refine ⟨hrings, ?_⟩
    simp only [FrameqCall.run, ioHdlcFrameqRemoveLa_eq, lookahead_eq hrings, Function.update_self,
      next_head_of_cons hq hi]
  | lifoRemove hi =>
    obtain ⟨hrings, hret⟩ := lifoRemove_rings hq hi
    refine ⟨hrings, ?_⟩
    simp only [FrameqCall.run, hret]
  | delete hi => exact ⟨(delete_rings hq hi).rings, rfl⟩
  | move hi hf ht j => exact ⟨move_rings hq hi hf ht j, rfl⟩
  | moveTail hi j => exact ⟨insert_rings (delete_rings hq hi) j, rfl⟩

/-- Two queues, three headers in the first: the first two of them go to the head of the other. -/
theorem frameq_refines_move :
    let h : Links (Fin 5) :=
      { next := fun x => if x = 1 then 1 else if x = 0 then 2 else if x = 4 then 0 else x + 1
        prev := fun x => if x = 1 then 1 else if x = 0 then 4 else if x = 2 then 0 else x - 1 }
    let head : Bool → Fin 5 := fun i => if i then 1 else 0
    let elems : Bool → List (Fin 5) := fun i => if i then [] else [2, 3, 4]
    Rings (FrameqCall.run h (.move 1 2 3)).1 head
        (Function.update (Function.update elems false [4]) true [2, 3]) ∧
      (FrameqCall.run h (.move 1 2 3)).2 = ⟨none, none⟩ := by
  intro h head elems
  have hrings : Rings h head elems := by
    constructor
    · rintro (_ | _)
      · exact (Links.ring_iff rfl rfl).mpr ⟨by decide, by decide⟩
      · exact (Links.ring_iff rfl rfl).mpr ⟨by decide, by decide⟩
    · decide
    · have hdisj : ∀ i j : Bool, i ≠ j → ∀ x : Fin 5,
          x ∈ head i :: elems i → x ∉ head j :: elems j := by
        decide
      exact fun i j hij x hi hj => hdisj i j hij x hi hj
  have hrange : elems false = [] ++ [2, 3] ++ [4] := rfl
  have hspec : FrameqSpec head elems (.move (head true) 2 3)
      (Function.update (Function.update elems false ([] ++ [4])) true
        ([2, 3] ++ Function.update elems false ([] ++ [4]) true)) ⟨none, none⟩ :=
    .move hrange rfl rfl true
  exact frameq_refines hrings hspec

/-- Calls one after the other, with what they return. -/
def FrameqCall.runs (h : Links N) : List (FrameqCall N) → Links N × List (FrameqRet N)
  | [] => (h, [])
  | c :: cs =>
    let r := c.run h
    let rs := runs r.1 cs
    (rs.1, r.2 :: rs.2)

/-- The same for the lists. -/
inductive FrameqSpecs (head : ι → N) : (ι → List N) → List (FrameqCall N) → (ι → List N) →
    List (FrameqRet N) → Prop
  | nil (elems : ι → List N) : FrameqSpecs head elems [] elems []
  | cons {elems mid last : ι → List N} {c : FrameqCall N} {cs : List (FrameqCall N)}
      {r : FrameqRet N} {rs : List (FrameqRet N)} (hstep : FrameqSpec head elems c mid r)
      (hrest : FrameqSpecs head mid cs last rs) : FrameqSpecs head elems (c :: cs) last (r :: rs)

/-- Any number of calls. -/
theorem frameq_runs_refine {cs : List (FrameqCall N)} {last : ι → List N} {rs : List (FrameqRet N)}
    (hq : Rings h head elems) (hspecs : FrameqSpecs head elems cs last rs) :
    Rings (FrameqCall.runs h cs).1 head last ∧ (FrameqCall.runs h cs).2 = rs := by
  induction hspecs generalizing h with
  | nil elems => exact ⟨hq, rfl⟩
  | cons hstep hrest ih =>
    obtain ⟨hmid, hret⟩ := frameq_refines hq hstep
    obtain ⟨hlast, hrets⟩ := ih hmid
    exact ⟨hlast, congrArg₂ List.cons hret hrets⟩

end Lists

/-! ### The queues of a peer -/

section PeerQueues

variable {ι : Type*} {frameOf : N → Frame} {h : Links N} {head : ι → N} {trans retrans : ι}
  {p : Peer}

/-- `i_trans_q` and `i_retrans_q` in the heap, among other queues; `frameOf` is
`IOHDLC_FRAME_FROM_Q`. -/
def PeerQueues (frameOf : N → Frame) (h : Links N) (head : ι → N) (trans retrans : ι)
    (p : Peer) : Prop :=
  ∃ elems, Rings h head elems ∧ (elems trans).map frameOf = p.iTransQ ∧
    (elems retrans).map frameOf = p.iRetransQ

/-- The call of `checkpointRetransmit` and of a received reject: all of `i_retrans_q`, from the
header behind its head to the one before it, goes to the head of `i_trans_q`. -/
theorem moveRetransQ_refines [DecidableEq N] (hne : trans ≠ retrans)
    (hp : PeerQueues frameOf h head trans retrans p)
    (hfull : ioHdlcFrameqIsempty h (head retrans) = false) :
    PeerQueues frameOf
      (ioHdlcFrameqMove h (head trans) (h.next (head retrans)) (h.prev (head retrans)))
      head trans retrans (moveRetransQ p) := by
  classical
  obtain ⟨elems, hq, htrans, hretrans⟩ := hp
  have hnonempty : elems retrans ≠ [] := by
    intro hempty
    rw [(ioHdlcFrameqIsempty_iff hq retrans).mpr hempty] at hfull
    cases hfull
  obtain ⟨x, xs, hcons⟩ := List.exists_cons_of_ne_nil hnonempty
  obtain ⟨ys, y, hconcat⟩ := (List.eq_nil_or_concat' (elems retrans)).resolve_left hnonempty
  have hall : elems retrans = [] ++ elems retrans ++ [] := by simp
  have hmoved := move_rings hq hall (by rw [hcons]; rfl)
    (by rw [hconcat]; exact List.getLast?_concat) trans
  rw [next_head_of_cons hq hcons, prev_head_of_concat hq hconcat]
  refine ⟨_, hmoved, ?_, ?_⟩
  · simp only [Function.update_self, Function.update_of_ne hne, List.append_nil, List.map_append,
      htrans, hretrans]
    rfl
  · simp only [Function.update_of_ne hne.symm, Function.update_self]
    rfl

end PeerQueues

end IoHdlc
