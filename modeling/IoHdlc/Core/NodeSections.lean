import IoHdlc.Core.NodeEmission

/-!
The sections behind the actions of a node.

An action works on one peer in one section, or on none. What holds of every section holds of the
peers behind an action, but for the note that a peer is to be polled.
-/

namespace IoHdlc

namespace Node

variable {n : Nat} {nd nd' : Node n} {a : Action n} {sent : List Frame}

/-- The section of an action, by the peer it works on and the link it leaves. -/
inductive Section (nd : Node n) : Action n → Fin n → Link → Prop
  | uFrame (fp : Frame) (hu : isUFrm (fp.ctrl nd.s.framing 0) = true) :
    nd.Section (.receive fp) nd.cPeer (handleUFrame (Endpoint.lineBusy (nd.link nd.cPeer)) fp)
  | frame (fp : Frame) (hu : isUFrm (fp.ctrl nd.s.framing 0) = false) :
    nd.Section (.receive fp) nd.cPeer (rxDispatch (Endpoint.lineBusy (nd.link nd.cPeer)) fp).1
  | lineIdle : nd.Section .lineIdle nd.cPeer (Endpoint.lineIdle (nd.link nd.cPeer))
  | entryRequest (take : Takes) (flags : EvtFlags) (timedOut : Bool) :
    nd.Section (.txEntry take) nd.cPeer (serveRequest (nd.link nd.cPeer) flags timedOut take).link
  | entryServe (take : Takes) (flags : EvtFlags) :
    nd.Section (.txEntry take) nd.cPeer (servePeer (nd.link nd.cPeer) flags take).link
  | switched (take : Takes) (flags : EvtFlags) (timedOut : Bool) :
    nd.Section (.txSwitched take) nd.cPeer
      (serveRequest (nd.link nd.cPeer) flags timedOut take).link
  | iFrame (flags : EvtFlags) (iSent : Bool) :
    nd.Section .txIFrame nd.cPeer (connectedTxIFrame (nd.link nd.cPeer) flags iSent).link
  | sFrame (take : Nat → Option Frame) (flags : EvtFlags) (iSent : Bool) :
    nd.Section (.txSFrame take) nd.cPeer
      (connectedTxSFrame (nd.link nd.cPeer) flags iSent take).link
  | linkUp (i : Fin n) (mode : Mode) (nrmOnly : Bool) :
    nd.Section (.linkUp i mode nrmOnly) i (linkUpStart (nd.link i) mode nrmOnly).1
  | linkDown (i : Fin n) : nd.Section (.linkDown i) i (linkDownStart (nd.link i)).1
  | call (i : Fin n) (op : PeerOp) (r : Link × WriterPc)
    (hr : op.apply (nd.link i) (nd.writer i) = some r) : nd.Section (.peer i op) i r.1

/-- The node behind a section that leaves `l` for peer `j`. -/
structure Leaves (nd nd' : Node n) (j : Fin n) (l : Link) : Prop where
  s : nd'.s = l.s
  peer : ∀ i, nd'.peer i = (nd.setLink j l).peer i ∨
    nd'.peer i = setNeedP l.s ((nd.setLink j l).peer i)

/-- The node behind an action without a section. -/
structure SameLinks (nd nd' : Node n) : Prop where
  appEs : nd'.s.appEs = nd.s.appEs
  flags : nd'.s.flags = nd.s.flags
  peer : ∀ i, nd'.peer i = nd.peer i ∨ nd'.peer i = setNeedP nd.s (nd.peer i)

/-- What does not depend on the note of a poll is what the section has left. -/
theorem Leaves.field {α : Type} {j : Fin n} {l : Link} (h : nd.Leaves nd' j l) (f : Peer → α)
    (hf : ∀ s p, f (setNeedP s p) = f p) (i : Fin n) :
    f (nd'.peer i) = f ((nd.setLink j l).peer i) := by
  rcases h.peer i with hi | hi
  · rw [hi]
  · rw [hi, hf]

theorem SameLinks.field {α : Type} (h : nd.SameLinks nd') (f : Peer → α)
    (hf : ∀ s p, f (setNeedP s p) = f p) (i : Fin n) : f (nd'.peer i) = f (nd.peer i) := by
  rcases h.peer i with hi | hi
  · rw [hi]
  · rw [hi, hf]

theorem finishPass_leaves (nd : Node n) (r : Pass) :
    nd.Leaves (nd.finishPass r).1 nd.cPeer r.link := by
  simp only [finishPass]
  split <;> exact ⟨rfl, fun _ => .inl rfl⟩

theorem finishTx_leaves (nd : Node n) (t : TxStep) : nd.Leaves (nd.finishTx t) nd.cPeer t.link := by
  simp only [finishTx]
  split
  · refine ⟨rfl, fun i => ?_⟩
    dsimp only
    split
    · exact needP_peers (nd.setLink nd.cPeer t.link) _ i
    · exact .inl rfl
  · exact ⟨rfl, fun _ => .inl rfl⟩

theorem txEntry_section (nd : Node n) (flags : EvtFlags) (take : Takes) :
    (∃ l, nd.Section (.txEntry take) nd.cPeer l ∧
        nd.Leaves (nd.txEntry flags take).1 nd.cPeer l) ∨
      nd.SameLinks (nd.txEntry flags take).1 := by
  simp only [txEntry]
  split
  · split
    · exact .inr ⟨rfl, rfl, fun _ => .inl rfl⟩
    · exact .inl ⟨_, .entryRequest take _ _, finishPass_leaves nd _⟩
  · exact .inl ⟨_, .entryServe take flags, finishPass_leaves nd _⟩

/-- Every action is a section of one peer, or leaves the links alone. -/
theorem act_section (h : nd.act a = some (nd', sent)) :
    (∃ j l, nd.Section a j l ∧ nd.Leaves nd' j l) ∨ nd.SameLinks nd' := by
  cases a with
  | receive fp =>
    cases h
    rw [receive]
    split
    next hu => exact .inl ⟨_, _, .uFrame fp hu, rfl, fun _ => .inl rfl⟩
    next hu => exact .inl ⟨_, _, .frame fp (Bool.not_eq_true _ ▸ hu), rfl, fun _ => .inl rfl⟩
  | lineIdle =>
    cases h
    exact .inl ⟨_, _, .lineIdle, rfl, fun _ => .inl rfl⟩
  | txFetch =>
    simp only [act] at h
    split at h
    · split at h
      · cases h
        exact .inr ⟨rfl, rfl, fun _ => .inl rfl⟩
      · cases h
    · cases h
  | txEntry take =>
    simp only [act] at h
    split at h
    next flags _ =>
      split at h
      · obtain rfl := congrArg Prod.fst (Option.some.inj h)
        rcases txEntry_section nd flags take with ⟨l, hsection, hleaves⟩ | hsame
        · exact .inl ⟨_, l, hsection, hleaves⟩
        · exact .inr hsame
      · cases h
    · cases h
  | txSwitched take =>
    simp only [act] at h
    split at h
    · obtain rfl := congrArg Prod.fst (Option.some.inj h)
      exact .inl ⟨_, _, .switched take _ _, finishPass_leaves nd _⟩
    · cases h
  | txAdvance =>
    simp only [act] at h
    split at h
    · cases h
      simp only [txAdvance]
      split
      · exact .inr ⟨rfl, rfl, fun _ => .inl rfl⟩
      · exact .inr ⟨rfl, rfl, needP_peers nd _⟩
    · cases h
  | txCheck =>
    simp only [act] at h
    split at h
    · cases h
      exact .inr ⟨rfl, rfl, fun _ => .inl rfl⟩
    · cases h
  | txIFrame =>
    simp only [act] at h
    split at h
    next flags iSent _ =>
      cases h
      exact .inl ⟨_, _, .iFrame flags iSent, finishTx_leaves nd _⟩
    · cases h
  | txSFrame take =>
    simp only [act] at h
    split at h
    next flags iSent _ =>
      cases h
      exact .inl ⟨_, _, .sFrame take flags iSent, finishTx_leaves nd _⟩
    · cases h
  | linkUp i mode nrmOnly =>
    cases h
    refine .inl ⟨_, _, .linkUp i mode nrmOnly, ?_, fun _ => .inl ?_⟩
    · split <;> rfl
    · split <;> rfl
  | linkUpDone call =>
    simp only [act] at h
    split at h
    · cases h
      exact .inr ⟨rfl, rfl, fun _ => .inl rfl⟩
    · cases h
  | linkUpFails call =>
    simp only [act] at h
    split at h
    · cases h
      exact .inr ⟨rfl, rfl, fun _ => .inl rfl⟩
    · cases h
  | linkDown i =>
    cases h
    exact .inl ⟨_, _, .linkDown i, rfl, fun _ => .inl rfl⟩
  | peer i op =>
    simp only [act, Option.map_eq_some_iff] at h
    obtain ⟨r, hr, h⟩ := h
    cases h
    exact .inl ⟨_, _, .call i op r hr, rfl, fun _ => .inl rfl⟩
  | poolState state =>
    cases h
    exact .inr ⟨rfl, rfl, fun _ => .inl rfl⟩
  | poolChange =>
    cases h
    exact .inr ⟨rfl, rfl, fun _ => .inl rfl⟩

end Node

end IoHdlc
