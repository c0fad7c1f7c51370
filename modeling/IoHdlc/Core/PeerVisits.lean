import IoHdlc.Core.NodeEmission
import IoHdlc.Core.PeerList

/-!
Which peers the transmit worker goes past.

`ioHdlcNextPeer` alone changes the current peer. `WithVisits` counts for each peer how often the
worker went on to another one while it waited for the command that connects it, and it is never
gone past as often as there are peers.
-/

namespace IoHdlc

open Kit

namespace Node

variable {n : Nat} {nd nd' : Node n} {a : Action n} {sent : List Frame} {i : Fin n}

/-- A peer with a command under way passes the other filter too. -/
theorem accepts_of_pending (h : nd.accepts true i = true) (findPendingOnly : Bool) :
    nd.accepts findPendingOnly i = true := by
  cases findPendingOnly with
  | true => exact h
  | false =>
    simp only [accepts, if_true, Bool.and_eq_true] at h
    simp only [accepts, Bool.false_eq_true, if_false, Bool.or_eq_true]
    exact .inr h.2

/-- The current peer is searched for behind the one before, after a section of that one. Another
peer is as the search has seen it. -/
def Searches (nd nd' : Node n) : Prop :=
  ∃ (found : Node n) (findPendingOnly : Bool), found.cPeer = nd.cPeer ∧
    nd'.cPeer = found.ioHdlcNextPeer findPendingOnly ∧ ∀ i, i ≠ nd'.cPeer → nd'.peer i = found.peer i

theorem finishPass_searches (nd : Node n) (r : Pass) :
    (nd.finishPass r).1.cPeer = nd.cPeer ∨ nd.Searches (nd.finishPass r).1 := by
  simp only [finishPass]
  split
  · exact .inl rfl
  · exact .inr ⟨nd.setLink nd.cPeer r.link, false, rfl, rfl, fun _ _ => rfl⟩
  · exact .inl rfl
  · exact .inl rfl

theorem finishTx_searches (nd : Node n) (t : TxStep) :
    (nd.finishTx t).cPeer = nd.cPeer ∨ nd.Searches (nd.finishTx t) := by
  simp only [finishTx]
  split
  · refine .inr ⟨{ nd.setLink nd.cPeer t.link with pc := .sched t.pc }, false, rfl, rfl, ?_⟩
    intro i hi
    dsimp only at hi ⊢
    split
    · exact Function.update_of_ne hi _ _
    · rfl
  · exact .inl rfl

theorem txAdvance_searches (nd : Node n) : nd.Searches nd.txAdvance := by
  simp only [txAdvance]
  split
  · exact ⟨nd, false, rfl, rfl, fun _ _ => rfl⟩
  · exact ⟨nd, false, rfl, rfl, fun i hi => Function.update_of_ne hi _ _⟩

theorem txEntry_searches (nd : Node n) (flags : EvtFlags) (take : Takes) :
    (nd.txEntry flags take).1.cPeer = nd.cPeer ∨ nd.Searches (nd.txEntry flags take).1 := by
  simp only [txEntry]
  split
  · split
    · exact .inr ⟨nd, true, rfl, rfl, fun _ _ => rfl⟩
    · exact finishPass_searches nd _
  · exact finishPass_searches nd _

/-- An action keeps the current peer, or searches for another one. -/
theorem act_searches (h : nd.act a = some (nd', sent)) :
    nd'.cPeer = nd.cPeer ∨ nd.Searches nd' := by
  cases a with
  | receive fp =>
    cases h
    exact .inl rfl
  | lineIdle =>
    cases h
    exact .inl rfl
  | txFetch =>
    simp only [act] at h
    split at h
    · split at h
      · cases h
        exact .inl rfl
      · cases h
    · cases h
  | txEntry take =>
    simp only [act] at h
    split at h
    next flags _ =>
      split at h
      · obtain rfl := congrArg Prod.fst (Option.some.inj h)
        exact txEntry_searches nd flags take
      · cases h
    · cases h
  | txSwitched take =>
    simp only [act] at h
    split at h
    · obtain rfl := congrArg Prod.fst (Option.some.inj h)
      exact finishPass_searches nd _
    · cases h
  | txAdvance =>
    simp only [act] at h
    split at h
    · cases h
      exact .inr (txAdvance_searches nd)
    · cases h
  | txCheck =>
    simp only [act] at h
    split at h
    · cases h
      exact .inl rfl
    · cases h
  | txIFrame =>
    simp only [act] at h
    split at h
    · cases h
      exact finishTx_searches nd _
    · cases h
  | txSFrame take =>
    simp only [act] at h
    split at h
    · cases h
      exact finishTx_searches nd _
    · cases h
  | linkUp i mode nrmOnly =>
    cases h
    refine .inl ?_
    split <;> rfl
  | linkUpDone call =>
    simp only [act] at h
    split at h
    · cases h
      exact .inl rfl
    · cases h
  | linkUpFails call =>
    simp only [act] at h
    split at h
    · cases h
      exact .inl rfl
    · cases h
  | linkDown i =>
    cases h
    exact .inl rfl
  | peer i op =>
    simp only [act, Option.map_eq_some_iff] at h
    obtain ⟨r, -, h⟩ := h
    cases h
    exact .inl rfl
  | poolState state =>
    cases h
    exact .inl rfl
  | poolChange =>
    cases h
    exact .inl rfl

/-- A search comes nearer to a peer that waits for a command, or finds it. -/
theorem Searches.between_lt (h : nd.Searches nd') (hne : nd'.cPeer ≠ i)
    (hpending : nd'.accepts true i = true) :
    between (List.finRange n) nd.cPeer nd'.cPeer < between (List.finRange n) nd.cPeer i := by
  obtain ⟨found, findPendingOnly, hcurrent, hfound, hpeer⟩ := h
  obtain ⟨before, behind, hsplit⟩ := List.append_of_mem (List.mem_finRange found.cPeer)
  have hnodup : (before ++ found.cPeer :: behind).Nodup := hsplit ▸ List.nodup_finRange n
  have hcycle := found.ioHdlcNextPeer_eq_cycle findPendingOnly hsplit
  have hseen : found.accepts true i = true := by
    rw [accepts] at hpending ⊢
    rwa [hpeer i (Ne.symm hne)] at hpending
  rw [← hcurrent, hsplit]
  exact between_find_lt hnodup (hsplit ▸ List.mem_finRange _) (hcycle.symm.trans hfound.symm)
    (hsplit ▸ List.mem_finRange i) (accepts_of_pending hseen findPendingOnly) hne

end Node

/-- A node, and how often its worker went past each peer that waits for a command. -/
structure WithVisits (n : Nat) where
  node : Node n
  passedOver : Fin n → Nat

namespace WithVisits

variable {n : Nat}

/-- The count for a peer: it begins anew where the worker comes to the peer, or finds nothing to
send for it. -/
def passedAfter (g : WithVisits n) (nd' : Node n) (i : Fin n) : Nat :=
  if nd'.cPeer = g.node.cPeer then g.passedOver i
  else if nd'.cPeer = i ∨ nd'.accepts true i = false then 0
  else g.passedOver i + 1

def next (g : WithVisits n) (a : Action n) : Option (WithVisits n) :=
  (g.node.act a).map fun r => { node := r.1, passedOver := g.passedAfter r.1 }

def Fresh (g : WithVisits n) : Prop := g.node.Fresh ∧ ∀ i, g.passedOver i = 0

def Moves (g g' : WithVisits n) : Prop := ∃ a, g.next a = some g'

/-- The peers that were visited instead and those still ahead are fewer than the peers. -/
def Inv (g : WithVisits n) : Prop :=
  ∀ i, g.passedOver i + between (List.finRange n) g.node.cPeer i < n

variable {g g' : WithVisits n}

theorem between_finRange_lt (c i : Fin n) : between (List.finRange n) c i < n := by
  have h := between_lt (List.mem_finRange c) (List.mem_finRange i)
  rwa [List.length_finRange] at h

theorem inv_init (h : g.Fresh) : g.Inv := by
  intro i
  rw [h.2 i, Nat.zero_add]
  exact between_finRange_lt _ _

theorem inv_step (h : g.Inv) (hmove : g.Moves g') : g'.Inv := by
  obtain ⟨a, hnext⟩ := hmove
  obtain ⟨⟨nd', sent⟩, hact, rfl⟩ := Option.map_eq_some_iff.mp hnext
  intro i
  change g.passedAfter nd' i + between (List.finRange n) nd'.cPeer i < n
  rw [passedAfter]
  by_cases hsame : nd'.cPeer = g.node.cPeer
  · rw [if_pos hsame, hsame]
    exact h i
  · rw [if_neg hsame]
    split
    · rw [Nat.zero_add]
      exact between_finRange_lt _ _
    next hpassed =>
      rw [not_or, Bool.not_eq_false] at hpassed
      have hsearch := (Node.act_searches hact).resolve_left hsame
      have hturn := h i
      have hcloser := hsearch.between_lt hpassed.1 hpassed.2
      have hway := between_of_lt (List.mem_finRange _) (List.mem_finRange i) (List.mem_finRange _)
        hcloser
      omega

/-- In every run, a peer that waits for its command is gone past by the worker at most once for
each other peer. -/
theorem visits_reachable (h : Reachable Fresh Moves g) (i : Fin n) : g.passedOver i < n := by
  have hinv : g.Inv := h.invariant Inv (fun _ hg => inv_init hg) fun _ _ hg hmove => inv_step hg hmove
  exact Nat.lt_of_le_of_lt (Nat.le_add_right _ _) (hinv i)

/-- A primary with three peers right after set-up. -/
def primary : WithVisits 3 :=
  let s := initialStation .ndm { pri := true } (.mod8 0 Framing.zero_le_two) 2 true 100 200 1
  { node :=
      { s := s
        peer := fun i => initialPeer s 128 8 (if i = 0 then 2 else if i = 1 then 3 else 4)
        cPeer := 0
        pc := .sched (.idle ∅)
        writer := fun _ => .idle
        linkUps := [] }
    passedOver := fun _ => 0 }

theorem fresh_primary : primary.Fresh :=
  ⟨{ station := ⟨.ndm, { pri := true }, _, _, _, _, _, _, .inl rfl, rfl⟩
     peer := fun _ => ⟨_, _, _, rfl⟩
     pc := rfl
     writer := fun _ => rfl
     linkUps := rfl }, fun _ => rfl⟩

/-- Two connections are asked for, and the worker goes to the first of the two peers. -/
theorem visits_reachable_three : ∃ g : WithVisits 3,
    g.node.cPeer = 1 ∧ g.passedOver 2 = 1 ∧ g.passedOver 2 < 3 := by
  obtain ⟨g, hreach, hg⟩ := Reachable.exists_of_run next
    (fun _ a _ h => (⟨a, h⟩ : Moves _ _)) (.start fresh_primary)
    [.linkUp 1 .nrm false, .linkUp 2 .nrm false, .txFetch, .txEntry {}]
    (fun g => decide (g.node.cPeer = 1 ∧ g.passedOver 2 = 1)) (by decide +kernel)
  obtain ⟨hc, hpassed⟩ := of_decide_eq_true hg
  exact ⟨g, hc, hpassed, visits_reachable hreach 2⟩

end WithVisits

end IoHdlc
