import IoHdlc.Core.LinkUpCalls

/-!
What the result of a LinkUp says of its peer.

The flags of a listener are those of all peers. A call tests the connection of its own peer
next to the flag of a connection, but next to the flag of a refusal only that its peer is not
connected.
-/

namespace IoHdlc

namespace WithCalls

variable {n : Nat} {g g' : WithCalls n} {a : CallAction n} {c : UpCall n}

/-- The result of a call is about its own peer. -/
def Attributed (result : Except Errno Unit) (c : UpCall n) : Prop :=
  (result = .ok () → c.reached = true) ∧ (result = .error .ECONNREFUSED → c.answered = true)

/-- Whether a refusal reaches no call but the one that it answers, and no call begins that has
nothing to wait for. -/
def attributable (g : WithCalls n) : CallAction n → Bool
  | .node a =>
    !g.node.refusal a || g.calls.all fun c => c.answered || g.wire g.node.cPeer = some c.id
  | .start i mode _ =>
    g.node.s.flags.pri || mode = .abm || (g.node.peer i).ssState.stConn
  | _ => true

def Attributable (g : WithCalls n) (a : CallAction n) : Prop := g.attributable a = true

/-- What a call knows is true of its peer. -/
structure KnowsPeer (g : WithCalls n) (c : UpCall n) : Prop where
  reached : (g.node.peer c.call.peer).ssState.stConn = true → c.reached = true
  answered : c.sawRefusal = true → c.answered = true

theorem KnowsPeer.of_peer (h : g.KnowsPeer c)
    (hpeer : ∀ i, (g'.node.peer i).ssState.stConn = (g.node.peer i).ssState.stConn) :
    g'.KnowsPeer c :=
  ⟨fun hconn => h.reached ((hpeer _).symm.trans hconn), h.answered⟩

/-- Another thread takes a step. -/
theorem KnowsPeer.observed {a : Action n} {nd' : Node n} {sent : List Frame}
    (h : g.KnowsPeer c) (hc : c ∈ g.calls) (hok : g.attributable (.node a) = true)
    (hact : g.node.act a = some (nd', sent)) :
    (g.observed a nd').KnowsPeer (g.observe a nd' c) := by
  constructor
  · intro hconn
    exact Bool.or_eq_true_iff.mpr (.inr hconn)
  · intro hsaw
    simp only [UpCall.sawRefusal, observe, Bool.or_eq_true, decide_eq_true_eq, Finset.mem_union]
      at hsaw
    rcases hsaw with (hold | hnew) | hpc
    · refine Bool.or_eq_true_iff.mpr (.inl (h.answered ?_))
      rw [UpCall.sawRefusal, decide_eq_true hold, Bool.true_or]
    · -- a refusal that was just received is one of this call
      have hrefusal := published_refused (Node.act_tells hact) hnew
      rw [attributable, hrefusal, Bool.not_true, Bool.false_or, List.all_eq_true] at hok
      have hwhy := hok c hc
      rw [Bool.or_eq_true, decide_eq_true_eq] at hwhy
      refine Bool.or_eq_true_iff.mpr (hwhy.imp_right fun hwire => ?_)
      rw [hrefusal, decide_eq_true hwire, Bool.and_self]
    · refine Bool.or_eq_true_iff.mpr (.inl (h.answered ?_))
      rw [UpCall.sawRefusal, Bool.or_eq_true]
      exact .inr hpc

/-- A call that goes on knows what it knew. -/
theorem KnowsPeer.setCall (hg : ∀ c ∈ g.calls, g.KnowsPeer c) {c' : UpCall n}
    (hc : c ∈ g.calls) (hpeer : c'.call.peer = c.call.peer) (hreached : c'.reached = c.reached)
    (hanswered : c'.answered = c.answered) (hsaw : c'.sawRefusal = true → c.sawRefusal = true) :
    ∀ c₁ ∈ (g.setCall c').calls, (g.setCall c').KnowsPeer c₁ := by
  intro c₁ hc₁
  rcases setCall_mem hc₁ with rfl | hc₁
  · have h := hg c hc
    refine ⟨fun hconn => ?_, fun hs => ?_⟩
    · rw [hpeer] at hconn
      exact hreached.trans (h.reached hconn)
    · exact hanswered.trans (h.answered (hsaw hs))
  · exact ⟨(hg c₁ hc₁).reached, (hg c₁ hc₁).answered⟩

theorem KnowsPeer.endCall (hg : ∀ c ∈ g.calls, g.KnowsPeer c) {id : Nat} {nd' : Node n}
    (hpeer : nd'.peer = g.node.peer) :
    ∀ c ∈ (g.endCall id nd').calls, (g.endCall id nd').KnowsPeer c := by
  intro c hc
  refine (hg c (endCall_mem hc)).of_peer fun i => ?_
  change (nd'.peer i).ssState.stConn = _
  rw [hpeer]

theorem knowsPeer_step (hg : ∀ c ∈ g.calls, g.KnowsPeer c) (hmove : Moves Attributable g g') :
    ∀ c ∈ g'.calls, g'.KnowsPeer c := by
  obtain ⟨a, hok, hnext⟩ := hmove
  rw [Attributable] at hok
  cases a with
  | node a =>
    simp only [next] at hnext
    split at hnext
    · cases hnext
    obtain ⟨⟨nd', sent⟩, hact, rfl⟩ := Option.map_eq_some_iff.mp hnext
    intro c' hc'
    obtain ⟨c, hc, rfl⟩ := List.mem_map.mp hc'
    exact (hg c hc).observed hc hok hact
  | start i mode nrmOnly =>
    simp only [next] at hnext
    obtain ⟨⟨nd', sent⟩, hact, rfl⟩ := Option.map_eq_some_iff.mp hnext
    obtain ⟨hsame, hdisc⟩ := start_stConn hact
    intro c hc
    split at hc
    next hret =>
      exact (hg c hc).of_peer hsame
    next sMode hwait =>
      rcases List.mem_cons.mp hc with rfl | hc
      · refine ⟨fun hconn => ?_, nofun⟩
        have hconn' := (hsame i).symm.trans hconn
        rw [hdisc sMode hwait] at hconn'
        cases hconn'
      · exact (hg c hc).of_peer hsame
  | fetch id =>
    simp only [next] at hnext
    obtain ⟨c, hfind, hnext⟩ := Option.bind_eq_some_iff.mp hnext
    obtain ⟨hc, -⟩ := find_mem hfind
    split at hnext
    next hpc =>
      cases hnext
      exact KnowsPeer.setCall hg hc rfl rfl rfl (UpCall.sawRefusal_fetch hpc).symm.trans
    · cases hnext
  | testUp id =>
    simp only [next] at hnext
    obtain ⟨c, hfind, hnext⟩ := Option.bind_eq_some_iff.mp hnext
    obtain ⟨hc, -⟩ := find_mem hfind
    split at hnext
    next flags hpc =>
      split at hnext
      · obtain ⟨⟨nd', sent⟩, hact, rfl⟩ := Option.map_eq_some_iff.mp hnext
        exact KnowsPeer.endCall hg (return_peer (.inl rfl) hact)
      · cases hnext
        exact KnowsPeer.setCall hg hc rfl rfl rfl (UpCall.sawRefusal_test hpc).symm.trans
    · cases hnext
  | testRefused id =>
    simp only [next] at hnext
    obtain ⟨c, hfind, hnext⟩ := Option.bind_eq_some_iff.mp hnext
    obtain ⟨hc, -⟩ := find_mem hfind
    split at hnext
    next hpc =>
      split at hnext
      · obtain ⟨⟨nd', sent⟩, hact, rfl⟩ := Option.map_eq_some_iff.mp hnext
        exact KnowsPeer.endCall hg (return_peer (.inr rfl) hact)
      · cases hnext
        refine KnowsPeer.setCall hg hc rfl rfl rfl fun _ => ?_
        rw [UpCall.sawRefusal, hpc, Bool.or_true]
    · cases hnext
  | timeout id =>
    simp only [next] at hnext
    obtain ⟨c, hfind, hnext⟩ := Option.bind_eq_some_iff.mp hnext
    split at hnext
    · obtain ⟨⟨nd', sent⟩, hact, rfl⟩ := Option.map_eq_some_iff.mp hnext
      exact KnowsPeer.endCall hg (return_peer (.inr rfl) hact)
    · cases hnext

/-- In a run in which a refusal reaches no call but the one that it answers, the result of every
call is about its own peer. -/
theorem attributed_of_attributable (hrun : Kit.Reachable Fresh (Moves Attributable) g)
    (hok : g.Attributable a) {result : Except Errno Unit}
    (hret : g.returned a = some (result, c)) : Attributed result c := by
  have hg : ∀ c ∈ g.calls, g.KnowsPeer c := by
    refine hrun.invariant (fun g => ∀ c ∈ g.calls, g.KnowsPeer c) (fun _ h c hc => ?_)
      fun _ _ hg => knowsPeer_step hg
    rw [h.calls] at hc
    cases hc
  cases a with
  | node a => cases hret
  | fetch id => cases hret
  | start i mode nrmOnly =>
    simp only [returned] at hret
    split at hret
    next result' hwhy =>
      cases hret
      rcases linkUpStart_returns hwhy with
        ⟨hres, -⟩ | ⟨-, hdisc, hsec, hmode, -⟩ | ⟨hres, -⟩ | ⟨hres, -⟩
      · rw [hres]
        exact ⟨by simp, by simp⟩
      · -- a secondary that does not ask for ABM
        rw [Node.link_s] at hsec
        rw [Node.link_p] at hdisc
        rw [Attributable, attributable, hsec, hdisc, decide_eq_false hmode] at hok
        cases hok
      · rw [hres]
        exact ⟨by simp, by simp⟩
      · rw [hres]
        exact ⟨by simp, by simp⟩
    · cases hret
  | testUp id =>
    simp only [returned] at hret
    obtain ⟨c', hfind, hret⟩ := Option.bind_eq_some_iff.mp hret
    obtain ⟨hc, -⟩ := find_mem hfind
    split at hret
    · split at hret
      next hup =>
        cases hret
        refine ⟨fun _ => (hg _ hc).reached ?_, by simp⟩
        have hconn := hup.2
        rwa [Peer.isDisc, Bool.not_eq_false'] at hconn
      · cases hret
    · cases hret
  | testRefused id =>
    simp only [returned] at hret
    obtain ⟨c', hfind, hret⟩ := Option.bind_eq_some_iff.mp hret
    obtain ⟨hc, -⟩ := find_mem hfind
    split at hret
    next hpc =>
      split at hret
      · cases hret
        refine ⟨by simp, fun _ => (hg _ hc).answered ?_⟩
        rw [UpCall.sawRefusal, hpc, Bool.or_true]
      · cases hret
    · cases hret
  | timeout id =>
    simp only [returned] at hret
    obtain ⟨c', hfind, hret⟩ := Option.bind_eq_some_iff.mp hret
    split at hret
    · cases hret
      exact ⟨by simp, by simp⟩
    · cases hret

/-- A call whose command is answered with DM returns `ECONNREFUSED`. -/
theorem attributed_of_attributable_refused :
    ∃ (g : WithCalls 2) (c : UpCall 2), g.returned (.testRefused 0) =
      some (.error .ECONNREFUSED, c) ∧ Attributed (.error .ECONNREFUSED) c := by
  obtain ⟨g, hrun, hp⟩ := Kit.Reachable.exists_of_run
    (fun g a => if g.attributable a then g.next a else none)
    (fun g a g' h => by
      split at h
      next hok => exact ⟨a, hok, h⟩
      · cases h)
    (.start (fresh_twoPeers .ndm (.inl rfl) { pri := true }) :
      Kit.Reachable Fresh (Moves Attributable) _)
    [.start 0 .nrm false, .node .txFetch, .node (.txEntry { uCommand := some default }),
      .node (.receive (Node.shortFrame 2 0x1F)), .fetch 0, .testUp 0]
    (fun g => (g.find 0).any fun c : UpCall 2 =>
      decide (c.pc = .refused) && (g.node.peer c.call.peer).isDisc) (by decide +kernel)
  rw [Option.any_eq_true] at hp
  obtain ⟨c, hfind, hp⟩ := hp
  rw [Bool.and_eq_true, decide_eq_true_eq] at hp
  have hret : g.returned (.testRefused 0) = some (.error .ECONNREFUSED, c) := by
    simp only [returned, hfind, Option.bind_some, hp.1, hp.2, if_true]
  have hok : g.Attributable (.testRefused 0) := rfl
  exact ⟨g, c, hret, attributed_of_attributable hrun hok hret⟩

/-- A secondary returns at once. Of two calls at a primary, a DM for the command of one ends the
other. -/
theorem attributed_fails :
    (¬∀ g : WithCalls 2, Kit.Reachable Fresh (Moves Anything) g → ∀ a c,
      g.returned a = some (.ok (), c) → c.reached = true) ∧
    ¬∀ g : WithCalls 2, Kit.Reachable Fresh (Moves Anything) g → ∀ a c,
      g.returned a = some (.error .ECONNREFUSED, c) → c.answered = true := by
  constructor
  · intro hclaim
    have hstart : Kit.Reachable Fresh (Moves Anything) (twoPeers .ndm {}) :=
      .start (fresh_twoPeers .ndm (.inl rfl) {})
    exact Bool.false_ne_true (hclaim _ hstart (.start 0 .nrm false) _ rfl)
  · intro hclaim
    have hstart : Kit.Reachable Fresh (Moves Anything) (twoPeers .ndm { pri := true }) :=
      .start (fresh_twoPeers .ndm (.inl rfl) { pri := true })
    obtain ⟨g, hrun, hp⟩ := Kit.Reachable.exists_of_run next (fun _ a _ h => ⟨a, trivial, h⟩)
      hstart
      [.start 0 .nrm false, .start 1 .nrm false, .node .txFetch,
        .node (.txEntry { uCommand := some default }),
        .node (.receive (Node.shortFrame 2 0x1F)), .fetch 1, .testUp 1]
      (fun g => (g.find 1).any fun c : UpCall 2 =>
        decide (c.pc = .refused) && (g.node.peer c.call.peer).isDisc && !c.answered)
      (by decide +kernel)
    rw [Option.any_eq_true] at hp
    obtain ⟨c, hfind, hp⟩ := hp
    simp only [Bool.and_eq_true, decide_eq_true_eq, Bool.not_eq_true'] at hp
    obtain ⟨⟨hpc, hdisc⟩, hno⟩ := hp
    have hret : g.returned (.testRefused 1) = some (.error .ECONNREFUSED, c) := by
      simp only [returned, hfind, Option.bind_some, hpc, hdisc, if_true]
    exact Bool.false_ne_true (hno.symm.trans (hclaim g hrun _ c hret))

end WithCalls

end IoHdlc
