import IoHdlc.Kit.Reachable
import Mathlib.Data.Finset.Basic
import Mathlib.Data.Finset.Insert
import Mathlib.Data.Finset.Erase
import Mathlib.Data.Nat.Notation
import Mathlib.Logic.Function.Iterate
import Mathlib.Tactic.Common

/-!
Programs of one thread over a set of mutexes, and the rules by which their use of the mutexes is
checked.

A thread goes from place to place. The program of a place looks at the state that the threads
share, of which it knows no more than what is always found there, and its operations on the
mutexes are the only ones that are kept. The weakest precondition of a program is computed along
its branches; a thread whose places are checked so follows its rules in every run.
-/

namespace IoHdlc.Kit

/-- A program over the mutexes `M` that looks at a shared state `S`. The wait for a condition
variable holds its mutex again when it returns, and tells whether its limit has passed. A touch
changes what the mutex guards. -/
inductive LockProg (M S α : Type) where
  | ret (a : α)
  | lock (m : M) (k : LockProg M S α)
  | unlock (m : M) (k : LockProg M S α)
  | wait (m : M) (k : Bool → LockProg M S α)
  | touch (m : M) (k : LockProg M S α)
  | look (k : S → LockProg M S α)

namespace LockProg

variable {M S α β : Type}

def bind : LockProg M S α → (α → LockProg M S β) → LockProg M S β
  | .ret a, f => f a
  | .lock m k, f => .lock m (k.bind f)
  | .unlock m k, f => .unlock m (k.bind f)
  | .wait m k, f => .wait m fun expired => (k expired).bind f
  | .touch m k, f => .touch m (k.bind f)
  | .look k, f => .look fun s => (k s).bind f

instance : Monad (LockProg M S) where
  pure := .ret
  bind := bind

/-- The operations. -/
def acquire (m : M) : LockProg M S Unit := .lock m (.ret ())

def release (m : M) : LockProg M S Unit := .unlock m (.ret ())

def condWait (m : M) : LockProg M S Bool := .wait m .ret

def change (m : M) : LockProg M S Unit := .touch m (.ret ())

def sight : LockProg M S S := .look .ret

/-! ### The weakest precondition -/

variable [DecidableEq M]

/-- The program may run while the mutexes `held` are held: it locks none of them, gives back and
waits with none but them, changes only what `allowed` says, and ends as `post` says. -/
def Safe (allowed : Finset M → M → Prop) (found : S → Prop) (post : Finset M → α → Prop) :
    Finset M → LockProg M S α → Prop
  | held, .ret a => post held a
  | held, .lock m k => m ∉ held ∧ Safe allowed found post (insert m held) k
  | held, .unlock m k => m ∈ held ∧ Safe allowed found post (held.erase m) k
  | held, .wait m k => m ∈ held ∧ ∀ expired, Safe allowed found post held (k expired)
  | held, .touch m k => allowed held m ∧ Safe allowed found post held k
  | held, .look k => ∀ s, found s → Safe allowed found post held (k s)

section Rules

variable {allowed : Finset M → M → Prop} {found : S → Prop} {post : Finset M → β → Prop}
  {held : Finset M} {m : M}

@[simp] theorem safe_pure (b : β) :
    Safe allowed found post held (pure b : LockProg M S β) ↔ post held b := Iff.rfl

/-- One program behind another. -/
@[simp] theorem safe_bind (p : LockProg M S α) (f : α → LockProg M S β) :
    Safe allowed found post held (p >>= f) ↔
      Safe allowed found (fun held a => Safe allowed found post held (f a)) held p := by
  change Safe allowed found post held (p.bind f) ↔ _
  induction p generalizing held with
  | ret a => rfl
  | lock m k ih | unlock m k ih | touch m k ih => exact and_congr_right fun _ => ih
  | wait m k ih => exact and_congr_right fun _ => forall_congr' fun expired => ih expired
  | look k ih => exact forall_congr' fun s => imp_congr_right fun _ => ih s

@[simp] theorem safe_acquire {post : Finset M → Unit → Prop} :
    Safe allowed found post held (acquire m) ↔ m ∉ held ∧ post (insert m held) () := Iff.rfl

@[simp] theorem safe_release {post : Finset M → Unit → Prop} :
    Safe allowed found post held (release m) ↔ m ∈ held ∧ post (held.erase m) () := Iff.rfl

@[simp] theorem safe_condWait {post : Finset M → Bool → Prop} :
    Safe allowed found post held (condWait m) ↔ m ∈ held ∧ ∀ expired, post held expired := Iff.rfl

@[simp] theorem safe_change {post : Finset M → Unit → Prop} :
    Safe allowed found post held (change m) ↔ allowed held m ∧ post held () := Iff.rfl

@[simp] theorem safe_sight {post : Finset M → S → Prop} :
    Safe allowed found post held sight ↔ ∀ s, found s → post held s := Iff.rfl

/-- A branch is checked on both sides. -/
theorem safe_ite {c : Prop} [Decidable c] {p q : LockProg M S β} :
    Safe allowed found post held (if c then p else q) ↔
      (c → Safe allowed found post held p) ∧ (¬c → Safe allowed found post held q) := by
  split
  next h => simp [h]
  next h => simp [h]

end Rules

end LockProg

/-! ### Threads -/

/-- A thread at a place, with what is left of the program there. -/
structure LockThread (M S P : Type) where
  place : P
  held : Finset M
  rest : LockProg M S P

namespace LockThread

variable {M S P : Type} [DecidableEq M]

/-- The next operation of a thread. -/
inductive Step (prog : P → LockProg M S P) (found : P → S → Prop) :
    LockThread M S P → LockThread M S P → Prop
  | lock (t : LockThread M S P) {m : M} {k : LockProg M S P} (h : t.rest = .lock m k) :
      Step prog found t { t with held := insert m t.held, rest := k }
  | unlock (t : LockThread M S P) {m : M} {k : LockProg M S P} (h : t.rest = .unlock m k) :
      Step prog found t { t with held := t.held.erase m, rest := k }
  | wait (t : LockThread M S P) {m : M} {k : Bool → LockProg M S P} (expired : Bool)
      (h : t.rest = .wait m k) : Step prog found t { t with rest := k expired }
  | touch (t : LockThread M S P) {m : M} {k : LockProg M S P} (h : t.rest = .touch m k) :
      Step prog found t { t with rest := k }
  | look (t : LockThread M S P) {k : S → LockProg M S P} (s : S) (hs : found t.place s)
      (h : t.rest = .look k) : Step prog found t { t with rest := k s }
  | go (t : LockThread M S P) {x : P} (h : t.rest = .ret x) :
      Step prog found t { t with place := x, rest := prog x }

/-- A thread that begins at `x`. -/
def Begins (prog : P → LockProg M S P) (x : P) (t : LockThread M S P) : Prop :=
  t = { place := x, held := ∅, rest := prog x }

/-- The next operation keeps the rules, and the thread holds nothing at the places `free`. -/
structure Disciplined (allowed : Finset M → M → Prop) (free : P → Prop) (t : LockThread M S P) :
    Prop where
  lock : ∀ m k, t.rest = .lock m k → m ∉ t.held
  unlock : ∀ m k, t.rest = .unlock m k → m ∈ t.held
  wait : ∀ m k, t.rest = .wait m k → m ∈ t.held
  touch : ∀ m k, t.rest = .touch m k → allowed t.held m
  free : ∀ x, t.rest = .ret x → free x → t.held = ∅

variable {prog : P → LockProg M S P} {found : P → S → Prop} {allowed : Finset M → M → Prop}
  {inv : Finset M → P → Prop} {free : P → Prop} {t t' : LockThread M S P}

/-- The rest of the program of a checked thread is safe. -/
def Checked (allowed : Finset M → M → Prop) (found : P → S → Prop) (inv : Finset M → P → Prop)
    (t : LockThread M S P) : Prop :=
  t.rest.Safe allowed (found t.place) inv t.held

theorem Checked.step (h : t.Checked allowed found inv)
    (hprog : ∀ held x, inv held x → (prog x).Safe allowed (found x) inv held)
    (hstep : Step prog found t t') : t'.Checked allowed found inv := by
  rw [Checked] at h
  cases hstep with
  | lock hrest | unlock hrest | touch hrest =>
    rw [hrest] at h
    exact h.2
  | wait expired hrest =>
    rw [hrest] at h
    exact h.2 expired
  | look s hs hrest =>
    rw [hrest] at h
    exact h s hs
  | go hrest =>
    rw [hrest] at h
    exact hprog _ _ h

theorem Checked.disciplined {found : P → S → Prop} (h : t.Checked allowed found inv)
    (hfree : ∀ held x, inv held x → free x → held = ∅) : t.Disciplined allowed free := by
  rw [Checked] at h
  constructor
  case lock | unlock | wait | touch =>
    intro m k hrest
    rw [hrest] at h
    exact h.1
  case free =>
    intro x hrest hx
    rw [hrest] at h
    exact hfree _ _ h hx

/-- A thread whose places are checked keeps the rules in every run. -/
theorem disciplined (inv : Finset M → P → Prop) {x : P}
    (hprog : ∀ held x, inv held x → (prog x).Safe allowed (found x) inv held)
    (hfree : ∀ held x, inv held x → free x → held = ∅) (hx : inv ∅ x)
    (hrun : Reachable (Begins prog x) (Step prog found) t) : t.Disciplined allowed free := by
  have hchecked : t.Checked allowed found inv := by
    refine hrun.invariant _ (fun t h => ?_) fun _ _ h hstep => h.step hprog hstep
    rw [h]
    exact hprog _ _ hx
  exact hchecked.disciplined hfree

/-- The next operation of a thread that finds `s`, and whose waits are woken. -/
def next (prog : P → LockProg M S P) (s : S) (t : LockThread M S P) : LockThread M S P :=
  match t.rest with
  | .ret x => { t with place := x, rest := prog x }
  | .lock m k => { t with held := insert m t.held, rest := k }
  | .unlock m k => { t with held := t.held.erase m, rest := k }
  | .wait _ k => { t with rest := k false }
  | .touch _ k => { t with rest := k }
  | .look k => { t with rest := k s }

theorem step_next {s : S} (hs : found t.place s) : Step prog found t (t.next prog s) := by
  rw [next]
  cases hrest : t.rest with
  | ret x => exact .go t hrest
  | lock m k => exact .lock t hrest
  | unlock m k => exact .unlock t hrest
  | wait m k => exact .wait t false hrest
  | touch m k => exact .touch t hrest
  | look k => exact .look t s hs hrest

/-- A run in which nobody else does anything. -/
theorem reachable_alone {init : LockThread M S P → Prop} {s : S} (hs : ∀ x, found x s)
    (ht : Reachable init (Step prog found) t) (k : ℕ) :
    Reachable init (Step prog found) ((next prog s)^[k] t) := by
  induction k with
  | zero => exact ht
  | succ k ih =>
    rw [Function.iterate_succ_apply']
    exact ih.tail (step_next (hs _))

end LockThread

end IoHdlc.Kit
