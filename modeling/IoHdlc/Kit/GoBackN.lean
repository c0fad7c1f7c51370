import Mathlib.Data.List.Pairwise
import Mathlib.Order.Lattice
import Mathlib.Order.Nat
import Mathlib.Tactic.Common

/-!
Go-back-N over two lossy first-in first-out channels.

The sender has a log of payloads and three positions in it: everything before
`base` is acknowledged, `next` is the one to send now and `high` is the first
one that was never sent. The receiver has taken the first `rcvd` payloads. What
is in flight is a list of numbered payloads one way and a list of
acknowledgements the other way, oldest first.

`Inv w` is the invariant for a window of `w`; every operation keeps it. It
bounds what is in flight from both sides, so that a payload or an
acknowledgement can be recognised from its number modulo anything above `w`.
-/

namespace IoHdlc.Kit

structure Flow (α : Type*) where
  log : List α
  base : Nat
  next : Nat
  high : Nat
  rcvd : Nat
  data : List (Nat × α)
  acks : List Nat

namespace Flow

variable {α : Type*}

/-- Nothing was queued yet. -/
def start : Flow α :=
  { log := [], base := 0, next := 0, high := 0, rcvd := 0, data := [], acks := [] }

/-- What the receiver has taken, in order. -/
def delivered (f : Flow α) : List α := f.log.take f.rcvd

/-- The invariant for a window of `w` payloads. -/
structure Inv (w : Nat) (f : Flow α) : Prop where
  base_le_next : f.base ≤ f.next
  next_le_high : f.next ≤ f.high
  high_le_window : f.high ≤ f.base + w
  high_le_log : f.high ≤ f.log.length
  base_le_rcvd : f.base ≤ f.rcvd
  rcvd_le_high : f.rcvd ≤ f.high
  acks_sorted : f.acks.Pairwise (· ≤ ·)
  acks_ge : ∀ a ∈ f.acks, f.base ≤ a
  acks_le : ∀ a ∈ f.acks, a ≤ f.rcvd
  data_order : f.data.Pairwise fun x y => x.1 + 1 ≤ y.1 + w
  data_near : ∀ x ∈ f.data, f.rcvd ≤ x.1 + w
  data_lt : ∀ x ∈ f.data, x.1 < f.high
  data_log : ∀ x ∈ f.data, f.log[x.1]? = some x.2

theorem inv_start (w : Nat) : (start : Flow α).Inv w := by
  constructor <;> simp [start]

/-! ### Operations -/

/-- A payload is queued. -/
def enqueue (f : Flow α) (x : α) : Flow α := { f with log := f.log ++ [x] }

/-- The payload at `next` is sent. -/
def send (f : Flow α) (x : α) : Flow α :=
  { f with
    next := f.next + 1
    high := max f.high (f.next + 1)
    data := f.data ++ [(f.next, x)] }

/-- The sender goes back to the first payload that is not acknowledged. -/
def rewind (f : Flow α) : Flow α := { f with next := f.base }

/-- The sender takes an acknowledgement. What lies between `next` and `high` is
going to be sent again and stays unacknowledged. -/
def ack (f : Flow α) (a : Nat) : Flow α := { f with base := min a f.next }

/-- The receiver acknowledges what it has taken. -/
def sendAck (f : Flow α) : Flow α := { f with acks := f.acks ++ [f.rcvd] }

/-- The receiver takes the next payload. -/
def accept (f : Flow α) : Flow α := { f with rcvd := f.rcvd + 1 }

/-- What arrives or is lost is no longer in flight. -/
def setData (f : Flow α) (data : List (Nat × α)) : Flow α := { f with data := data }

def setAcks (f : Flow α) (acks : List Nat) : Flow α := { f with acks := acks }

/-! ### The operations keep the invariant -/

section Operations

variable {w : Nat} {f : Flow α}

theorem Inv.enqueue (h : f.Inv w) (x : α) : (f.enqueue x).Inv w :=
  { h with
    high_le_log := by
      have := h.high_le_log
      simp only [Flow.enqueue, List.length_append, List.length_singleton]
      omega
    data_log := fun y hy => by
      have hlog := h.data_log y hy
      obtain ⟨hlt, -⟩ := List.getElem?_eq_some_iff.mp hlog
      rw [Flow.enqueue, List.getElem?_append_left hlt]
      exact hlog }

theorem Inv.send (h : f.Inv w) {x : α} (hx : f.log[f.next]? = some x) (hw : f.next < f.base + w) :
    (f.send x).Inv w := by
  obtain ⟨hlt, -⟩ := List.getElem?_eq_some_iff.mp hx
  have hhigh : max f.high (f.next + 1) ≤ f.base + w := max_le h.high_le_window hw
  exact
    { h with
      base_le_next := h.base_le_next.trans (Nat.le_succ _)
      next_le_high := le_max_right ..
      high_le_window := hhigh
      high_le_log := max_le h.high_le_log hlt
      rcvd_le_high := h.rcvd_le_high.trans (le_max_left ..)
      data_order := by
        refine List.pairwise_append.mpr ⟨h.data_order, List.pairwise_singleton .., ?_⟩
        intro y hy z hz
        rw [List.mem_singleton] at hz
        subst hz
        have := h.data_lt y hy
        have := h.high_le_window
        have := h.base_le_next
        dsimp only
        omega
      data_near := by
        intro y hy
        rcases List.mem_append.mp hy with hy | hy
        · exact h.data_near y hy
        · rw [List.mem_singleton] at hy
          subst hy
          have := h.rcvd_le_high
          have := h.high_le_window
          have := h.base_le_next
          show f.rcvd ≤ f.next + w
          omega
      data_lt := by
        intro y hy
        rcases List.mem_append.mp hy with hy | hy
        · exact lt_of_lt_of_le (h.data_lt y hy) (le_max_left ..)
        · rw [List.mem_singleton] at hy
          subst hy
          exact lt_of_lt_of_le (Nat.lt_succ_self _) (le_max_right ..)
      data_log := by
        intro y hy
        rcases List.mem_append.mp hy with hy | hy
        · exact h.data_log y hy
        · rw [List.mem_singleton] at hy
          subst hy
          exact hx }

theorem Inv.rewind (h : f.Inv w) : f.rewind.Inv w :=
  { h with
    base_le_next := le_rfl
    next_le_high := h.base_le_next.trans h.next_le_high }

/-- An acknowledgement that is not older than `base` and not newer than the ones
still in flight. -/
theorem Inv.ack (h : f.Inv w) {a : Nat} (hbase : f.base ≤ a) (hrcvd : a ≤ f.rcvd)
    (hacks : ∀ b ∈ f.acks, a ≤ b) : (f.ack a).Inv w := by
  have hle : min a f.next ≤ a := min_le_left ..
  have hge : f.base ≤ min a f.next := le_min hbase h.base_le_next
  exact
    { h with
      base_le_next := min_le_right ..
      high_le_window := by
        have := h.high_le_window
        show f.high ≤ min a f.next + w
        omega
      base_le_rcvd := hle.trans hrcvd
      acks_ge := fun b hb => hle.trans (hacks b hb) }

theorem Inv.sendAck (h : f.Inv w) : f.sendAck.Inv w :=
  { h with
    acks_sorted := by
      refine List.pairwise_append.mpr ⟨h.acks_sorted, List.pairwise_singleton .., ?_⟩
      intro b hb c hc
      rw [List.mem_singleton] at hc
      subst hc
      exact h.acks_le b hb
    acks_ge := by
      intro b hb
      rcases List.mem_append.mp hb with hb | hb
      · exact h.acks_ge b hb
      · rw [List.mem_singleton] at hb
        subst hb
        exact h.base_le_rcvd
    acks_le := by
      intro b hb
      rcases List.mem_append.mp hb with hb | hb
      · exact h.acks_le b hb
      · rw [List.mem_singleton] at hb
        subst hb
        exact le_rfl }

/-- The receiver takes a payload that was sent and precedes the ones still in
flight. -/
theorem Inv.accept (h : f.Inv w) (hlt : f.rcvd < f.high)
    (hdata : ∀ y ∈ f.data, f.rcvd + 1 ≤ y.1 + w) : f.accept.Inv w :=
  { h with
    base_le_rcvd := h.base_le_rcvd.trans (Nat.le_succ _)
    rcvd_le_high := hlt
    acks_le := fun b hb => (h.acks_le b hb).trans (Nat.le_succ _)
    data_near := hdata }

theorem Inv.setData (h : f.Inv w) {data : List (Nat × α)} (hsub : data.Sublist f.data) :
    (f.setData data).Inv w :=
  { h with
    data_order := h.data_order.sublist hsub
    data_near := fun y hy => h.data_near y (hsub.subset hy)
    data_lt := fun y hy => h.data_lt y (hsub.subset hy)
    data_log := fun y hy => h.data_log y (hsub.subset hy) }

theorem Inv.setAcks (h : f.Inv w) {acks : List Nat} (hsub : acks.Sublist f.acks) :
    (f.setAcks acks).Inv w :=
  { h with
    acks_sorted := h.acks_sorted.sublist hsub
    acks_ge := fun b hb => h.acks_ge b (hsub.subset hb)
    acks_le := fun b hb => h.acks_le b (hsub.subset hb) }

/-- The oldest acknowledgement arrives. -/
theorem Inv.ackHead (h : f.Inv w) {a : Nat} {rest : List Nat} (ha : f.acks = a :: rest) :
    ((f.setAcks rest).ack a).Inv w := by
  have hsorted := h.acks_sorted
  rw [ha] at hsorted
  have hmem : a ∈ f.acks := by rw [ha]; exact List.mem_cons_self
  exact (h.setAcks (by rw [ha]; exact List.sublist_cons_self ..)).ack (h.acks_ge a hmem)
    (h.acks_le a hmem) fun _ hb => List.rel_of_pairwise_cons hsorted hb

/-- The oldest payload in flight arrives and is the one the receiver waits for. -/
theorem Inv.acceptHead (h : f.Inv w) {x : α} {rest : List (Nat × α)}
    (hx : f.data = (f.rcvd, x) :: rest) : ((f.setData rest).accept).Inv w := by
  have horder := h.data_order
  rw [hx] at horder
  have hmem : (f.rcvd, x) ∈ f.data := by rw [hx]; exact List.mem_cons_self
  exact (h.setData (by rw [hx]; exact List.sublist_cons_self ..)).accept (h.data_lt _ hmem)
    fun _ hy => List.rel_of_pairwise_cons horder hy

end Operations

/-! ### What the invariant says about numbers -/

section Numbers

variable {w : Nat} {f : Flow α}

/-- A payload in flight is within one window of the one the receiver waits for. -/
theorem Inv.data_bounds (h : f.Inv w) {x : Nat × α} (hx : x ∈ f.data) :
    x.1 < f.rcvd + w ∧ f.rcvd ≤ x.1 + w := by
  have := h.data_lt x hx
  have := h.high_le_window
  have := h.base_le_rcvd
  exact ⟨by omega, h.data_near x hx⟩

/-- An acknowledgement in flight is for payloads that were sent. -/
theorem Inv.ack_bounds (h : f.Inv w) {a : Nat} (ha : a ∈ f.acks) :
    f.base ≤ a ∧ a ≤ f.high :=
  ⟨h.acks_ge a ha, (h.acks_le a ha).trans h.rcvd_le_high⟩

/-- What is delivered is a prefix of what was queued. -/
theorem delivered_prefix (f : Flow α) : f.delivered <+: f.log := List.take_prefix ..

/-- Taking the payload that the receiver waits for delivers it. -/
theorem delivered_accept {x : α} (hx : f.log[f.rcvd]? = some x) :
    f.accept.delivered = f.delivered ++ [x] := by
  obtain ⟨hlt, hget⟩ := List.getElem?_eq_some_iff.mp hx
  rw [delivered, delivered, accept, List.take_succ_eq_append_getElem hlt, hget]

/-- Queueing more leaves what is delivered. -/
theorem delivered_enqueue (h : f.Inv w) (x : α) : (f.enqueue x).delivered = f.delivered := by
  rw [delivered, delivered, enqueue]
  exact List.take_append_of_le_length (h.rcvd_le_high.trans h.high_le_log)

end Numbers

end Flow

end IoHdlc.Kit
