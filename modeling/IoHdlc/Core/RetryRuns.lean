import IoHdlc.Core.RetryBudget
import IoHdlc.Core.UCommandOnWire

/-!
`poll_retry_count` over whole runs, with any number of peers.

A run records the response windows of the exchange with each peer: how many of them ran out, and
whether the worker has yet to serve the last one. One `C_RPLYTMO` flag stands for the timers of all
peers, and some exchanges end without a reset of the counter; `InTime` says when neither does harm,
and then the counter of every peer is the number of its own windows that ran out.
-/

namespace IoHdlc

open Kit

/-- A node, with the response windows of the exchange with each peer and the U command that went
out to it last. -/
structure WithWindows (n : Nat) where
  node : Node n
  windows : Fin n → Windows
  command : Fin n → UInt8

namespace WithWindows

variable {n : Nat} {g g' : WithWindows n} {a : Action n} {i : Fin n}

def occurrences (g : WithWindows n) (i : Fin n) (a : Action n) : List Occurrence :=
  g.node.occurrences (g.command i) i a

def next (g : WithWindows n) (a : Action n) : Option (WithWindows n) :=
  (g.node.act a).map fun r =>
    { node := r.1
      windows := fun i => (g.windows i).run (g.occurrences i a)
      command := fun i =>
        if i = g.node.cPeer ∧ (g.node.uCommandOut a).isSome then (g.node.peer i).umCmd
        else g.command i }

/-- Right after set-up no window was ever open. -/
structure Fresh (g : WithWindows n) : Prop where
  node : g.node.Fresh
  windows : ∀ i, g.windows i = {}

def Moves (ok : WithWindows n → Action n → Prop) (g g' : WithWindows n) : Prop :=
  ∃ a, ok g a ∧ g.next a = some g'

/-- Whether the counters keep up with an action. The worker serves a timeout of a peer only when
T1 of that peer ran out in the exchange in progress and that was not served yet, and T1 does not
run out once more before; the last retry is not given up for T3 while that is to be done; and an
exchange that ends without a reset of the counter ends with none. -/
def InTime (g : WithWindows n) (a : Action n) : Prop :=
  ∀ i, (g.windows i).AllInTime (g.node.peer i).budget (g.occurrences i a)

instance (g : WithWindows n) (a : Action n) : Decidable (g.InTime a) :=
  inferInstanceAs (Decidable (∀ i,
    (g.windows i).AllInTime (g.node.peer i).budget (g.occurrences i a)))

/-- The retry budget of a peer. -/
structure KeepsBudget (g : WithWindows n) (i : Fin n) : Prop where
  /-- The retries are the windows of the exchange in progress that ran out, without the one that
  is yet to be served. -/
  retries : (g.node.peer i).pollRetryCount.toNat + (g.windows i).unserved.toNat =
    (g.windows i).expired
  /-- An exchange starts without retries. -/
  starts : (g.windows i).expired = 0 → (g.node.peer i).pollRetryCount = 0
  /-- The peer is not declared lost too late. -/
  expired : (g.windows i).expired ≤ (g.node.peer i).pollRetryMax.toNat + 1
  served : (g.windows i).unserved = false →
    (g.windows i).expired ≤ (g.node.peer i).pollRetryMax.toNat
  /-- Nor too early. -/
  losses : ∀ k ∈ (g.windows i).losses, k = (g.node.peer i).pollRetryMax.toNat + 1

/-! ### The invariant -/

/-- Every counter is the number of windows that ran out. -/
def Exact (g : WithWindows n) : Prop := ∀ i, (g.windows i).Exact (g.node.peer i).budget

theorem Exact.keepsBudget (h : g.Exact) (i : Fin n) : g.KeepsBudget i where
  retries := (h i).retries
  starts hzero := by
    have hcount := (h i).retries
    rw [hzero] at hcount
    exact UInt8.toNat_inj.mp (Nat.eq_zero_of_add_eq_zero_right hcount)
  expired := (h i).expired_le.1
  served := (h i).expired_le.2
  losses := (h i).losses

theorem exact_fresh (h : g.Fresh) : g.Exact := by
  intro i
  obtain ⟨framesize, pollRetryMax, addr, hpeer⟩ := h.node.peer i
  rw [h.windows i, hpeer]
  exact ⟨rfl, Nat.zero_le _, nofun⟩

theorem exact_step (h : g.Exact) (hmove : Moves InTime g g') : g'.Exact := by
  obtain ⟨a, hin, hnext⟩ := hmove
  obtain ⟨⟨nd', sent⟩, hact, rfl⟩ := Option.map_eq_some_iff.mp hnext
  exact fun i => (h i).run (Node.act_run hact (g.command i) i) (hin i)

/-- In a run that is in time, every peer has its retry budget in every state. -/
theorem keepsBudget_of_inTime (hrun : Reachable Fresh (Moves InTime) g) (i : Fin n) :
    g.KeepsBudget i :=
  Exact.keepsBudget
    (hrun.invariant Exact (fun _ => exact_fresh) fun _ _ hg => exact_step hg) i

/-! ### Two runs -/

/-- An NRM primary that retries once, with one peer. -/
def retriesOnce : WithWindows 1 :=
  let nd := Node.onePeer .ndm { pri := true } 1 2
  { node := { nd with peer := fun _ => initialPeer nd.s 128 1 2 }
    windows := fun _ => {}
    command := fun _ => 0 }

theorem fresh_retriesOnce : retriesOnce.Fresh :=
  { node :=
      { station := ⟨_, _, _, _, _, _, _, _, .inl rfl, rfl⟩
        peer := fun _ => ⟨_, _, _, rfl⟩
        pc := rfl
        writer := fun _ => rfl
        linkUps := rfl }
    windows := fun _ => rfl }

/-- A peer that does not answer is lost when two windows ran out. -/
theorem keepsBudget_of_inTime_lost :
    ∃ g : WithWindows 1, (g.windows 0).losses = [2] ∧ g.KeepsBudget 0 := by
  obtain ⟨g, hrun, hp⟩ := Kit.Reachable.exists_of_run
    (fun g a => if g.InTime a then g.next a else none)
    (fun g a g' h => by
      split at h
      next hok => exact ⟨a, hok, h⟩
      · cases h)
    (.start fresh_retriesOnce : Kit.Reachable Fresh (Moves InTime) retriesOnce)
    [.linkUp 0 .nrm false, .txFetch, .txEntry { uCommand := some default }, .peer 0 .replyTimer,
      .txFetch, .txEntry { uCommand := some default }, .peer 0 .replyTimer, .txFetch, .txEntry {}]
    (fun g => decide ((g.windows 0).losses = [2])) (by decide +kernel)
  exact ⟨g, of_decide_eq_true hp, keepsBudget_of_inTime hrun 0⟩

/-- A SNRM is refused just when its timer has run out, and the next one is charged with that: the
peer is lost when a single window of it ran out. -/
theorem keepsBudget_fails :
    ¬∀ g : WithWindows 1, Reachable Fresh (Moves fun _ _ => True) g → ∀ i, g.KeepsBudget i := by
  intro hclaim
  obtain ⟨g, hrun, hp⟩ := Kit.Reachable.exists_of_run next (fun _ a _ h => ⟨a, trivial, h⟩)
    (.start fresh_retriesOnce : Kit.Reachable Fresh (Moves fun _ _ => True) retriesOnce)
    [.linkUp 0 .nrm false, .txFetch, .txEntry { uCommand := some default }, .peer 0 .replyTimer,
      .receive (Node.shortFrame 2 0x1F), .linkUpFails ⟨0, .ndm⟩, .linkUp 0 .nrm false, .txFetch,
      .txEntry { uCommand := some default }, .peer 0 .replyTimer, .txFetch, .txEntry {}]
    (fun g => decide ((g.windows 0).losses = [1] ∧ (g.node.peer 0).pollRetryMax = 1))
    (by decide +kernel)
  obtain ⟨hlosses, hmax⟩ := of_decide_eq_true hp
  have hlost := (hclaim g hrun 0).losses 1 (by rw [hlosses]; exact List.mem_singleton.mpr rfl)
  rw [hmax] at hlost
  exact absurd hlost (by decide)

end WithWindows

end IoHdlc
