import IoHdlc.Kit.Reachable
import Mathlib.Algebra.Order.Group.Nat

/-!
A call that waits with limits on a state that it shares with others.

The call does one section after the other, each at one instant. Between two of them time
passes, others change the shared state, and a wait ends: at any instant, or because of its
limit. The time limit of the whole call is kept when no wait ends by its limit before the due
time, and the call gives up only behind such an end.
-/

namespace IoHdlc.Kit

/-- How a section ends. A wait without a limit lasts until something wakes it. -/
inductive SectionEnd (σ ρ : Type*) where
  | goesOn (s : σ)
  | waits (s : σ) (limit : Option ℕ)
  | returns (r : ρ)

/-- What the sections do, each with what it finds besides the shared state; the flag tells it that
the wait before it ended by its limit. -/
abbrev Sections (S E σ ρ : Type*) := ℕ → E → Bool → S → σ → S × SectionEnd σ ρ

/-- Where a call is between two sections. -/
inductive CallPlace (σ ρ : Type*) where
  | ready (s : σ) (expired : Bool)
  | waiting (s : σ) (since : ℕ) (limit : Option ℕ)
  | returned (r : ρ) (time : ℕ)

structure TimedCall (S σ ρ : Type*) where
  start : ℕ
  now : ℕ
  shared : S
  place : CallPlace σ ρ

namespace TimedCall

variable {S E σ ρ : Type*}

/-- The call behind a section. -/
def after (g : TimedCall S σ ρ) (r : S × SectionEnd σ ρ) : TimedCall S σ ρ :=
  { g with
    shared := r.1
    place :=
      match r.2 with
      | .goesOn s => .ready s false
      | .waits s limit => .waiting s g.now limit
      | .returns r => .returned r g.now }

/-- One step of a call that lasts less than `span`. -/
inductive Step (act : Sections S E σ ρ) (span : ℕ) : TimedCall S σ ρ → TimedCall S σ ρ → Prop
  | elapse (g : TimedCall S σ ρ) {t : ℕ} (hle : g.now ≤ t) (hspan : t < g.start + span) :
      Step act span g { g with now := t }
  | others (g : TimedCall S σ ρ) (shared : S) : Step act span g { g with shared := shared }
  | act (g : TimedCall S σ ρ) {s : σ} {expired : Bool} (e : E) (h : g.place = .ready s expired) :
      Step act span g (g.after (act g.now e expired g.shared s))
  | wake (g : TimedCall S σ ρ) {s : σ} {since : ℕ} {limit : Option ℕ}
      (h : g.place = .waiting s since limit) : Step act span g { g with place := .ready s false }
  | expire (g : TimedCall S σ ρ) {s : σ} {since ms : ℕ} (h : g.place = .waiting s since (some ms))
      (hdue : since + ms ≤ g.now) : Step act span g { g with place := .ready s true }

/-- A call that begins at `start` with the place `s`. -/
structure Begins (start : ℕ) (s : σ) (g : TimedCall S σ ρ) : Prop where
  begun : g.start = start
  clock : g.now = start
  place : g.place = .ready s false

/-- No wait is without a limit, and the results that tell so come at the due time or later. -/
structure Timely (reports : ρ → Prop) (due : ℕ) (g : TimedCall S σ ρ) : Prop where
  limited : ∀ s since, g.place ≠ .waiting s since none
  due : ∀ r time, g.place = .returned r time → reports r → due ≤ time

end TimedCall

/-- The end of a section at `t`, for a call that is `late` once it has given up. -/
def SectionEnd.Keeps {σ ρ : Type*} (late : σ → Prop) (reports : ρ → Prop) (due t : ℕ) :
    SectionEnd σ ρ → Prop
  | .goesOn s => late s → due ≤ t
  | .waits s limit => (late s → due ≤ t) ∧ ∃ ms, limit = some ms ∧ due ≤ t + ms
  | .returns r => reports r → due ≤ t

/-- A section that comes neither behind an expired wait nor late keeps the due time. -/
def KeepsDue {S E σ ρ : Type*} (act : Sections S E σ ρ) (late : σ → Prop) (reports : ρ → Prop)
    (start span due : ℕ) : Prop :=
  ∀ t e expired shared s, start ≤ t → t < start + span → (late s ∨ expired = true → due ≤ t) →
    (act t e expired shared s).2.Keeps late reports due t

namespace TimedCall

variable {S E σ ρ : Type*} {act : Sections S E σ ρ} {late : σ → Prop} {reports : ρ → Prop}
  {start span due : ℕ} {g g' : TimedCall S σ ρ}

/-- What holds between two sections. -/
def PlaceKeeps (late : σ → Prop) (reports : ρ → Prop) (due now : ℕ) : CallPlace σ ρ → Prop
  | .ready s expired => late s ∨ expired = true → due ≤ now
  | .waiting s since limit => (late s → due ≤ now) ∧ ∃ ms, limit = some ms ∧ due ≤ since + ms
  | .returned r time => reports r → due ≤ time

theorem PlaceKeeps.later {now t : ℕ} {place : CallPlace σ ρ}
    (h : PlaceKeeps late reports due now place) (hle : now ≤ t) :
    PlaceKeeps late reports due t place := by
  cases place with
  | ready s expired => exact fun hlate => (h hlate).trans hle
  | waiting s since limit => exact ⟨fun hlate => (h.1 hlate).trans hle, h.2⟩
  | returned r time => exact h

/-- The invariant of a run. -/
structure Inv (late : σ → Prop) (reports : ρ → Prop) (start span due : ℕ) (g : TimedCall S σ ρ) :
    Prop where
  begun : g.start = start
  le : start ≤ g.now
  lt : g.now < start + span
  place : PlaceKeeps late reports due g.now g.place

theorem Inv.after (h : g.Inv late reports start span due) {r : S × SectionEnd σ ρ}
    (hr : r.2.Keeps late reports due g.now) : (g.after r).Inv late reports start span due := by
  obtain ⟨shared, last⟩ := r
  refine ⟨h.begun, h.le, h.lt, ?_⟩
  cases last with
  | goesOn s =>
    intro hlate
    exact hr (hlate.resolve_right (by simp))
  | waits s limit => exact hr
  | returns r => exact hr

theorem Inv.step (h : g.Inv late reports start span due)
    (hact : KeepsDue act late reports start span due) (hstep : Step act span g g') :
    g'.Inv late reports start span due := by
  have hplace := h.place
  cases hstep with
  | elapse hle hspan => exact ⟨h.begun, h.le.trans hle, h.begun ▸ hspan, hplace.later hle⟩
  | others shared => exact ⟨h.begun, h.le, h.lt, hplace⟩
  | act e hpc =>
    rw [hpc] at hplace
    exact h.after (hact _ _ _ _ _ h.le h.lt hplace)
  | wake hpc =>
    rw [hpc] at hplace
    refine ⟨h.begun, h.le, h.lt, fun hlate => ?_⟩
    exact hplace.1 (hlate.resolve_right (by simp))
  | expire hpc hdue =>
    rw [hpc] at hplace
    obtain ⟨-, ms, hlimit, hms⟩ := hplace
    cases hlimit
    exact ⟨h.begun, h.le, h.lt, fun _ => hms.trans hdue⟩

/-- A call whose sections keep the due time keeps it in every run. -/
theorem timely {s : σ} (hact : KeepsDue act late reports start span due) (hs : ¬late s)
    (hspan : 0 < span) (hrun : Reachable (Begins start s) (Step act span) g) :
    g.Timely reports due := by
  have hinv : g.Inv late reports start span due := by
    refine hrun.invariant _ (fun g₀ h₀ => ?_) (fun _ _ h hstep => h.step hact hstep)
    refine ⟨h₀.begun, by rw [h₀.clock], by rw [h₀.clock]; omega, ?_⟩
    rw [h₀.place]
    rintro (hlate | hexpired)
    · exact absurd hlate hs
    · cases hexpired
  have hplace := hinv.place
  constructor
  · intro s since hpc
    rw [hpc] at hplace
    obtain ⟨-, ms, hlimit, -⟩ := hplace
    cases hlimit
  · intro r time hpc hr
    rw [hpc] at hplace
    exact hplace hr

end TimedCall

end IoHdlc.Kit
