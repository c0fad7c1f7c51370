import IoHdlc.Core.PfCycle

/-!
The pairing of P and F over whole runs of a node.

`WithPolls` carries the cycles beside the node: they are read off the frames on the line and
the timers, not off the P/F state. `keepsCycles` is what the code has to avoid, and under it
`Paired` is an invariant.
-/

namespace IoHdlc

instance {l : Link} {flags : EvtFlags} {timedOut : Bool} {take : Takes} {out : Bool} :
    Decidable (l.ServesCycle flags timedOut take out) :=
  decidable_of_iff
    ((exhaustsUCommand l timedOut = true → out = false ∧ l.s.pfState.pRcved = false) ∧
      (out = true → presetsF l = true → emitsUCommand l timedOut take.uCommand = true) ∧
      (closesByDisc l = true → out = false ∧ emitsUCommand l timedOut take.uCommand = false) ∧
      (out = true → recoversOnT3 l flags = false))
    ⟨fun ⟨h₁, h₂, h₃, h₄⟩ => ⟨h₁, h₂, h₃, h₄⟩, fun ⟨h₁, h₂, h₃, h₄⟩ => ⟨h₁, h₂, h₃, h₄⟩⟩

/-- A node and the cycles with each peer: whether a frame with P=1 that was sent is neither
answered nor timed out, the commands of TEST apart, and how many P bits were received and not
answered. -/
structure WithPolls (n : Nat) where
  node : Node n
  polled : Fin n → Bool
  tested : Fin n → Bool
  owed : Fin n → Nat

namespace WithPolls

variable {n : Nat}

/-- The current peer, under its lock. -/
def link (g : WithPolls n) : Link := g.node.link g.node.cPeer

/-- Whether a P bit that was sent to the current peer is neither answered nor timed out. -/
def out (g : WithPolls n) : Bool := g.polled g.node.cPeer || g.tested g.node.cPeer

/-- Whether an action ends the cycle that a command other than TEST began: it is the F of the
peer, or the end of its reply timer. -/
def endsPoll (g : WithPolls n) (i : Fin n) : Action n → Bool
  | .receive fp => (g.node.link i).peerPF fp
  | .peer j .replyTimer => j = i && (g.node.peer i).replyTmr.armed
  | _ => false

/-- Whether an action ends the cycle of a TEST: it is the F of the peer, or the deadline of
the call. -/
def endsTest (g : WithPolls n) (i : Fin n) : Action n → Bool
  | .receive fp => (g.node.link i).peerPF fp
  | .peer j .peerTestExpire => j = i
  | _ => false

/-- The P bits that an action receives from a peer. -/
def receivesP (g : WithPolls n) (i : Fin n) : Action n → Nat
  | .receive fp => if i = g.node.cPeer ∧ g.link.ownPF fp = true then 1 else 0
  | _ => 0

/-- The cycles behind an action. -/
def after (g : WithPolls n) (a : Action n) (nd' : Node n) (sent : List Frame) : WithPolls n where
  node := nd'
  polled i :=
    g.polled i && !g.endsPoll i a || decide (i = g.node.cPeer) && sent.any g.link.polls
  tested i :=
    g.tested i && !g.endsTest i a || decide (i = g.node.cPeer) && sent.any g.link.tests
  owed i := g.owed i + g.receivesP i a - if i = g.node.cPeer then g.link.answers sent else 0

/-- Whether the worker may turn to peer `i`. -/
def keepsPeer (g : WithPolls n) (i : Fin n) : Bool :=
  i = g.node.cPeer || !g.out && !g.node.s.pfState.pRcved

/-- Whether an action keeps the cycle under way. -/
def keepsCycle (g : WithPolls n) : Action n → Bool
  | .receive fp => !isUFrm (fp.ctrl g.node.s.framing 0) ||
      linePF g.node.s.framing fp = getPF g.node.s.framing fp && !(g.out && setsMode g.link fp)
  | .txEntry take => match g.node.pc with
    | .sched (.idle flags) =>
      if uCommandDue g.link flags then
        if requestsOtherPeer g.link flags then g.keepsPeer (g.node.ioHdlcNextPeer true)
        else g.link.ServesCycle (flags \ uCommandFlags) (decide (.cRplytmo ∈ flags)) take g.out
      else !(g.out && (closesByDisc g.link || recoversOnT3 g.link flags))
    | _ => true
  | .txSwitched take => match g.node.pc with
    | .switched flags timedOut => g.link.ServesCycle flags timedOut take g.out
    | _ => true
  | .txAdvance => g.keepsPeer (g.node.ioHdlcNextPeer false)
  | .txIFrame => !(g.out && pollsOnIdle g.link)
  | .txSFrame _ =>
    !(g.node.s.isNrmPrimary && g.node.s.pfState.pRcved) ||
      g.node.ioHdlcNextPeer false = g.node.cPeer
  | .peer j .peerTestExpire =>
    (g.node.peer j).umCmd ≠ IOHDLC_U_TEST ||
      !g.polled g.node.cPeer && (!g.tested g.node.cPeer || j = g.node.cPeer)
  | _ => true

/-- The two stations have two addresses, and the action keeps the cycle under way. -/
structure KeepsCycles (g : WithPolls n) (a : Action n) : Prop where
  addr : g.link.s.addr.toUInt8 ≠ g.link.p.addr.toUInt8
  cycle : g.keepsCycle a = true

instance {g : WithPolls n} {a : Action n} : Decidable (g.KeepsCycles a) :=
  decidable_of_iff (g.link.s.addr.toUInt8 ≠ g.link.p.addr.toUInt8 ∧ g.keepsCycle a = true)
    ⟨fun ⟨haddr, hcycle⟩ => ⟨haddr, hcycle⟩, fun ⟨haddr, hcycle⟩ => ⟨haddr, hcycle⟩⟩

/-- The cycles are those that the P/F state knows of, and all with the current peer. -/
structure Paired (g : WithPolls n) : Prop where
  current : g.link.Paired (g.polled g.node.cPeer) (g.tested g.node.cPeer) (g.owed g.node.cPeer)
  others : ∀ i, i ≠ g.node.cPeer → g.polled i = false ∧ g.tested i = false

/-- What the frames of an action have to respect: no I or S frame polls while a P waits for
its F, and each F answers a P. -/
structure Pairs (g : WithPolls n) (sent : List Frame) : Prop where
  turn : ∀ fp ∈ sent, frameType g.node.s.framing fp ≠ .uFrame → g.link.peerPF fp = true →
    g.polled g.node.cPeer = false ∧ g.tested g.node.cPeer = false
  answers : g.link.answers sent ≤ g.owed g.node.cPeer

section Step

variable {g : WithPolls n} {nd' : Node n} {a : Action n} {sent : List Frame} {l : Link} {i : Fin n}

@[simp] theorem after_polled_nil (g : WithPolls n) (a : Action n) (nd' : Node n) (i : Fin n) :
    (g.after a nd' []).polled i = (g.polled i && !g.endsPoll i a) := by
  simp [after]

@[simp] theorem after_tested_nil (g : WithPolls n) (a : Action n) (nd' : Node n) (i : Fin n) :
    (g.after a nd' []).tested i = (g.tested i && !g.endsTest i a) := by
  simp [after]

@[simp] theorem after_owed_nil (g : WithPolls n) (a : Action n) (nd' : Node n) (i : Fin n) :
    (g.after a nd' []).owed i = g.owed i + g.receivesP i a := by
  simp [after, Link.answers]

theorem after_polled_of_ne (hg : g.Paired) (hi : i ≠ g.node.cPeer) :
    (g.after a nd' sent).polled i = false ∧ (g.after a nd' sent).tested i = false := by
  obtain ⟨hp, ht⟩ := hg.others i hi
  simp [after, hp, ht, hi]

/-- The worker turns to another peer, or not, with no cycle under way. -/
theorem paired_of_idle (hg : g.Paired) (hp : (g.after a nd' sent).polled g.node.cPeer = false)
    (ht : (g.after a nd' sent).tested g.node.cPeer = false)
    (hpRcved : nd'.s.pfState.pRcved = false) : (g.after a nd' sent).Paired := by
  have hnone (i : Fin n) : (g.after a nd' sent).polled i = false ∧
      (g.after a nd' sent).tested i = false := by
    by_cases hi : i = g.node.cPeer
    · rw [hi]
      exact ⟨hp, ht⟩
    · exact after_polled_of_ne hg hi
  refine ⟨?_, fun i _ => hnone i⟩
  rw [(hnone _).1, (hnone _).2]
  refine .of_none fun h => ?_
  exact absurd (hpRcved.symm.trans h) Bool.false_ne_true

/-- The peer stays the same. -/
theorem paired_of_stays (hg : g.Paired) (hc : nd'.cPeer = g.node.cPeer)
    (h : (nd'.link g.node.cPeer).Paired ((g.after a nd' sent).polled g.node.cPeer)
      ((g.after a nd' sent).tested g.node.cPeer) ((g.after a nd' sent).owed g.node.cPeer)) :
    (g.after a nd' sent).Paired := by
  refine ⟨?_, fun i hi => ?_⟩
  · change (nd'.link nd'.cPeer).Paired ((g.after a nd' sent).polled nd'.cPeer)
      ((g.after a nd' sent).tested nd'.cPeer) ((g.after a nd' sent).owed nd'.cPeer)
    rw [hc]
    exact h
  · change i ≠ nd'.cPeer at hi
    exact after_polled_of_ne hg (hc ▸ hi)

/-- Nothing but what is sent matters to the cycles. -/
structure Quiet (g : WithPolls n) (a : Action n) : Prop where
  polled : ∀ i, g.endsPoll i a = false
  tested : ∀ i, g.endsTest i a = false
  owed : ∀ i, g.receivesP i a = 0

theorem Quiet.after (h : g.Quiet a) (nd' : Node n) (sent : List Frame) :
    (g.after a nd' sent).polled g.node.cPeer =
        (g.polled g.node.cPeer || sent.any g.link.polls) ∧
      (g.after a nd' sent).tested g.node.cPeer =
        (g.tested g.node.cPeer || sent.any g.link.tests) ∧
      (g.after a nd' sent).owed g.node.cPeer =
        g.owed g.node.cPeer - g.link.answers sent := by
  simp [WithPolls.after, h.polled, h.tested, h.owed]

/-- An action that leaves the P/F state, the timer and the U command alone. -/
theorem paired_of_same (hg : g.Paired) (hq : g.Quiet a) (hc : nd'.cPeer = g.node.cPeer)
    (hpf : nd'.s.pfState = g.node.s.pfState)
    (harmed : (nd'.peer g.node.cPeer).replyTmr.armed = g.link.p.replyTmr.armed)
    (hsent : (nd'.peer g.node.cPeer).umState.sent = g.link.p.umState.sent) :
    (g.after a nd' []).Paired := by
  refine paired_of_stays hg hc ?_
  obtain ⟨hp, ht, ho⟩ := hq.after nd' []
  rw [hp, ht, ho, List.any_nil, List.any_nil, Bool.or_false, Bool.or_false]
  exact hg.current.cycle (.of_eq hpf harmed hsent)

/-- A section that sends, and what the worker does behind it. -/
theorem paired_of_sends (hg : g.Paired) (hq : g.Quiet a) (hlink : nd'.link g.node.cPeer = l)
    (h : g.link.SendsPaired l sent (g.polled g.node.cPeer) (g.tested g.node.cPeer)
      (g.owed g.node.cPeer))
    (hmove : nd'.cPeer = g.node.cPeer ∨ l.s.pfState.pRcved = false ∧
      (g.polled g.node.cPeer || sent.any g.link.polls) = false ∧
      (g.tested g.node.cPeer || sent.any g.link.tests) = false) :
    (g.after a nd' sent).Paired ∧ g.Pairs sent := by
  refine ⟨?_, h.turn, h.answers⟩
  obtain ⟨hp, ht, ho⟩ := hq.after nd' sent
  rcases hmove with hc | ⟨hpRcved, hp', ht'⟩
  · refine paired_of_stays hg hc ?_
    rw [hlink, hp, ht, ho]
    exact h.paired
  · refine paired_of_idle hg (hp.trans hp') (ht.trans ht') ?_
    rw [← hlink] at hpRcved
    exact hpRcved

theorem pairs_nil : g.Pairs [] := ⟨nofun, Nat.zero_le _⟩

/-! ### The receive worker and the timers -/

theorem receive_paired (fp : Frame) (hg : g.Paired) (hk : g.KeepsCycles (.receive fp)) :
    (g.after (.receive fp) (g.node.receive fp) []).Paired := by
  have hlink : (g.node.receive fp).link g.node.cPeer =
      if isUFrm (fp.ctrl g.node.s.framing 0) then handleUFrame (Endpoint.lineBusy g.link) fp
      else (rxDispatch (Endpoint.lineBusy g.link) fp).1 := by
    rw [Node.receive, Node.setLink_link]
    rfl
  have hbusy : (Endpoint.lineBusy g.link).Paired (g.polled g.node.cPeer) (g.tested g.node.cPeer)
      (g.owed g.node.cPeer) := hg.current.cycle (.of_eq rfl rfl rfl)
  have hout : g.out = false → g.polled g.node.cPeer = false ∧ g.tested g.node.cPeer = false :=
    fun h => Bool.or_eq_false_iff.mp h
  refine paired_of_stays hg rfl ?_
  have hafter : (g.after (.receive fp) (g.node.receive fp) []).polled g.node.cPeer =
        (g.polled g.node.cPeer && !g.link.peerPF fp) ∧
      (g.after (.receive fp) (g.node.receive fp) []).tested g.node.cPeer =
        (g.tested g.node.cPeer && !g.link.peerPF fp) ∧
      (g.after (.receive fp) (g.node.receive fp) []).owed g.node.cPeer =
        g.owed g.node.cPeer + (g.link.ownPF fp).toNat := by
    refine ⟨by simp [after, endsPoll, link], by simp [after, endsTest, link], ?_⟩
    simp only [after, receivesP, true_and, if_true, Link.answers, List.countP_nil, Nat.sub_zero]
    cases g.link.ownPF fp <;> rfl
  rw [hlink, hafter.1, hafter.2.1, hafter.2.2]
  have hcycle := hk.cycle
  simp only [keepsCycle] at hcycle
  split
  next hu =>
    rw [hu, Bool.not_true, Bool.false_or, Bool.and_eq_true, decide_eq_true_eq] at hcycle
    obtain ⟨hpf, hmode⟩ := hcycle
    by_cases hset : setsMode g.link fp = true
    · rw [hset, Bool.and_true, Bool.not_eq_true'] at hmode
      rw [(hout hmode).1, (hout hmode).2, Bool.false_and]
      refine .of_none fun hp => ?_
      rcases handleUFrame_pRcved (l := Endpoint.lineBusy g.link) hpf hp with hp | hp
      · exact Nat.lt_of_lt_of_le (hbusy.owed hp) (Nat.le_add_right ..)
      · change g.link.ownPF fp = true at hp
        rw [hp]
        exact Nat.succ_pos _
    · exact hbusy.receive (handleUFrame_cycle (l := Endpoint.lineBusy g.link) hpf
        (Bool.eq_false_iff.mpr hset))
  next hu =>
    refine hbusy.receive (rxDispatch_cycle (l := Endpoint.lineBusy g.link) ?_)
    exact if_neg hu

/-- A thread of the application leaves the cycles alone, but for the deadline of a TEST and the
end of the reply timer. -/
theorem PeerOp.apply_cycle {op : PeerOp} {w : WriterPc} {r : Link × WriterPc}
    (h : op.apply l w = some r) (hexpire : op ≠ .peerTestExpire) (hfire : op ≠ .replyTimer) :
    r.1.s.pfState = l.s.pfState ∧ r.1.p.replyTmr.armed = l.p.replyTmr.armed ∧
      r.1.p.umState.sent = l.p.umState.sent := by
  cases op with
  | writeBegin octets =>
    cases w <;> simp only [PeerOp.apply, reduceCtorEq, Option.some.injEq] at h
    subst h
    rw [IoHdlc.writeBegin]
    split <;> exact ⟨rfl, rfl, rfl⟩
  | writeReserve timedOut take =>
    cases w <;> simp only [PeerOp.apply, reduceCtorEq, Option.some.injEq] at h
    subst h
    simp only [IoHdlc.writeReserve]
    repeat' split
    all_goals exact ⟨rfl, rfl, rfl⟩
  | writeInsert =>
    cases w <;> simp only [PeerOp.apply, reduceCtorEq, Option.some.injEq] at h
    subst h
    simp only [IoHdlc.writeInsert]
    repeat' split
    all_goals exact ⟨rfl, rfl, rfl⟩
  | writeDone =>
    cases w <;> simp only [PeerOp.apply, reduceCtorEq, Option.some.injEq] at h
    subst h
    exact ⟨rfl, rfl, rfl⟩
  | read =>
    simp only [PeerOp.apply] at h
    split at h
    · cases h
      exact ⟨rfl, rfl, rfl⟩
    · cases h
  | replyTimer => exact absurd rfl hfire
  | t3Timer =>
    cases h
    rw [Endpoint.t3TimerExpiry]
    split <;> exact ⟨rfl, rfl, rfl⟩
  | uiSend value =>
    cases h
    rw [ioHdlcPeerUiSend]
    split <;> exact ⟨rfl, rfl, rfl⟩
  | uiGet =>
    cases h
    rw [ioHdlcPeerUiGet]
    split <;> exact ⟨rfl, rfl, rfl⟩
  | peerTest len take =>
    cases h
    simp only [peerTestStart]
    repeat' split
    all_goals exact ⟨rfl, rfl, rfl⟩
  | peerTestTake =>
    cases h
    rw [sTakeCompletedTestFrame]
    split <;> exact ⟨rfl, rfl, rfl⟩
  | peerTestExpire => exact absurd rfl hexpire

theorem replyTimer_paired {j : Fin n} (hg : g.Paired) :
    (g.after (.peer j .replyTimer)
      { g.node.setLink j (Endpoint.replyTimerExpiry (g.node.link j)) with
        writer := Function.update g.node.writer j (g.node.writer j) } []).Paired := by
  refine paired_of_stays hg rfl ?_
  rw [after_polled_nil, after_tested_nil, after_owed_nil]
  by_cases hj : g.node.cPeer = j
  · subst hj
    refine Eq.mpr (congrArg (fun l => Link.Paired l _ _ _) (Node.setLink_link ..)) ?_
    rw [Endpoint.replyTimerExpiry]
    split
    next harmed =>
      refine ⟨fun hp => ?_, fun ht => ?_, hg.current.owed⟩
      · simp [endsPoll, show (g.node.peer g.node.cPeer).replyTmr.armed = true from harmed] at hp
      · exact hg.current.tested (Bool.and_eq_true_iff.mp ht).1
    · exact ⟨fun hp => hg.current.polled (Bool.and_eq_true_iff.mp hp).1,
        fun ht => hg.current.tested (Bool.and_eq_true_iff.mp ht).1, hg.current.owed⟩
  · refine Eq.mpr (congrArg (fun l => Link.Paired l _ _ _) (Node.setLink_link_of_ne g.node _ hj)) ?_
    have hpf : (Endpoint.replyTimerExpiry (g.node.link j)).s.pfState = g.node.s.pfState := by
      rw [Endpoint.replyTimerExpiry]
      split <;> rfl
    have hcycle : g.link.Cycle ⟨(Endpoint.replyTimerExpiry (g.node.link j)).s,
      g.node.peer g.node.cPeer⟩ false false := .of_eq hpf rfl rfl
    have hsame := hg.current.cycle hcycle
    exact ⟨fun hp => hsame.polled (Bool.and_eq_true_iff.mp hp).1,
      fun ht => hsame.tested (Bool.and_eq_true_iff.mp ht).1, hsame.owed⟩

theorem peerTestExpire_paired {j : Fin n} (hg : g.Paired)
    (hk : g.KeepsCycles (.peer j .peerTestExpire)) :
    (g.after (.peer j .peerTestExpire)
      { g.node.setLink j (peerTestExpire (g.node.link j)) with
        writer := Function.update g.node.writer j (g.node.writer j) } []).Paired := by
  have hcycle := hk.cycle
  simp only [keepsCycle, Bool.or_eq_true, decide_eq_true_eq, Bool.and_eq_true,
    Bool.not_eq_true'] at hcycle
  refine paired_of_stays hg rfl ?_
  rw [after_polled_nil, after_tested_nil, after_owed_nil]
  by_cases hj : g.node.cPeer = j
  · subst hj
    refine Eq.mpr (congrArg (fun l => Link.Paired l _ _ _) (Node.setLink_link ..)) ?_
    rcases peerTestExpire_eq (g.node.link g.node.cPeer) with h | h | ⟨htest, h⟩ <;> rw [h]
    · exact ⟨fun hp => hg.current.polled (Bool.and_eq_true_iff.mp hp).1,
        fun ht => hg.current.tested (Bool.and_eq_true_iff.mp ht).1, hg.current.owed⟩
    · exact ⟨fun hp => hg.current.polled (Bool.and_eq_true_iff.mp hp).1,
        fun ht => hg.current.tested (Bool.and_eq_true_iff.mp ht).1, hg.current.owed⟩
    · obtain ⟨hp, -⟩ := hcycle.resolve_left (not_not.mpr htest)
      refine ⟨fun hp' => ?_, fun ht => ?_, hg.current.owed⟩
      · simp [hp] at hp'
      · simp [endsTest] at ht
  · refine Eq.mpr (congrArg (fun l => Link.Paired l _ _ _) (Node.setLink_link_of_ne g.node _ hj)) ?_
    rcases peerTestExpire_eq (g.node.link j) with h | h | ⟨htest, h⟩ <;> rw [h]
    · exact ⟨fun hp => hg.current.polled (Bool.and_eq_true_iff.mp hp).1,
        fun ht => hg.current.tested (Bool.and_eq_true_iff.mp ht).1, hg.current.owed⟩
    · exact ⟨fun hp => hg.current.polled (Bool.and_eq_true_iff.mp hp).1,
        fun ht => hg.current.tested (Bool.and_eq_true_iff.mp ht).1, hg.current.owed⟩
    · obtain ⟨hp, ht⟩ := hcycle.resolve_left (not_not.mpr htest)
      refine ⟨fun hp' => ?_, fun ht' => ?_, hg.current.owed⟩
      · simp [hp] at hp'
      · simp [ht.resolve_right fun h => hj h.symm] at ht'

theorem linkUpStart_cycle (l : Link) (mode : Mode) (nrmOnly : Bool) :
    (linkUpStart l mode nrmOnly).1.s.pfState = l.s.pfState ∧
      (linkUpStart l mode nrmOnly).1.p.replyTmr.armed = l.p.replyTmr.armed ∧
      (linkUpStart l mode nrmOnly).1.p.umState.sent = l.p.umState.sent := by
  simp only [linkUpStart]
  split
  · exact ⟨rfl, rfl, rfl⟩
  split
  · exact ⟨rfl, rfl, rfl⟩
  split
  · exact ⟨rfl, rfl, rfl⟩
  split <;> exact ⟨rfl, rfl, rfl⟩

theorem linkDownStart_cycle (l : Link) :
    (linkDownStart l).1.s.pfState = l.s.pfState ∧
      (linkDownStart l).1.p.replyTmr.armed = l.p.replyTmr.armed ∧
      (linkDownStart l).1.p.umState.sent = l.p.umState.sent := by
  simp only [linkDownStart]
  split
  · exact ⟨rfl, rfl, rfl⟩
  split <;> exact ⟨rfl, rfl, rfl⟩

theorem peer_paired {j : Fin n} {op : PeerOp} {r : Link × WriterPc} (hg : g.Paired)
    (hk : g.KeepsCycles (.peer j op))
    (h : op.apply (g.node.link j) (g.node.writer j) = some r) :
    (g.after (.peer j op)
      { g.node.setLink j r.1 with writer := Function.update g.node.writer j r.2 } []).Paired := by
  by_cases hexpire : op = .peerTestExpire
  · subst hexpire
    cases h
    exact peerTestExpire_paired hg hk
  by_cases hfire : op = .replyTimer
  · subst hfire
    cases h
    exact replyTimer_paired hg
  obtain ⟨hpf, harmed, hsent⟩ := PeerOp.apply_cycle h hexpire hfire
  have hq : g.Quiet (.peer j op) := by
    constructor <;> intro i <;> cases op <;> first | rfl | contradiction
  exact paired_of_same hg hq rfl hpf
    (Node.setLink_peer_field (fun p => p.replyTmr.armed) g.node r.1 harmed _)
    (Node.setLink_peer_field (fun p => p.umState.sent) g.node r.1 hsent _)

/-! ### The transmit worker -/

/-- The link is given up after the last retry. -/
theorem serveRequest_linkDown {flags : EvtFlags} {timedOut : Bool} {take : Takes}
    (h : (serveRequest l flags timedOut take).next = .linkDown) :
    exhaustsUCommand l timedOut = true ∧
      (serveRequest l flags timedOut take).link = (sendUCommand l timedOut take.uCommand).link ∧
      (serveRequest l flags timedOut take).sent = [] := by
  rcases sendUCommand_cases l timedOut take.uCommand with ⟨hex, hdown, -⟩ | ⟨-, hdown, -⟩
  · refine ⟨hex, ?_⟩
    simp only [serveRequest, hdown, and_self]
  · simp only [serveRequest] at h
    split at h
    · cases h
    next hdown' => exact absurd hdown' hdown
    · cases h
    · exact (servePeer_ne_linkDown _ _ _ h).elim

theorem request_paired {flags : EvtFlags} {timedOut : Bool} {take : Takes} (hg : g.Paired)
    (hq : g.Quiet a) (hready : g.node.UmReady)
    (haddr : g.link.s.addr.toUInt8 ≠ g.link.p.addr.toUInt8)
    (hk : g.link.ServesCycle flags timedOut take g.out) :
    let r := g.node.finishPass (serveRequest g.link flags timedOut take)
    (g.after a r.1 r.2).Paired ∧ g.Pairs r.2 := by
  have hsends := serveRequest_paired (hready g.node.cPeer) haddr hg.current hk
  refine paired_of_sends hg hq (Node.finishPass_link ..) hsends ?_
  by_cases hdown : (serveRequest g.link flags timedOut take).next = .linkDown
  · obtain ⟨hex, hlink, hsent⟩ := serveRequest_linkDown hdown
    obtain ⟨hout, hp⟩ := hk.exhausts hex
    refine .inr ⟨?_, ?_⟩
    · rw [hlink, sendUCommand_pRcved]
      exact hp
    · change (_ || (serveRequest g.link flags timedOut take).sent.any _) = false ∧
        (_ || (serveRequest g.link flags timedOut take).sent.any _) = false
      rw [hsent, List.any_nil, List.any_nil, Bool.or_false, Bool.or_false]
      exact Bool.or_eq_false_iff.mp hout
  · exact .inl (Node.finishPass_cPeer hdown)

theorem txEntry_paired {flags : EvtFlags} {take : Takes} (hg : g.Paired)
    (hready : g.node.UmReady) (hpc : g.node.pc = .sched (.idle flags))
    (hk : g.KeepsCycles (.txEntry take)) :
    let r := g.node.txEntry flags take
    (g.after (.txEntry take) r.1 r.2).Paired ∧ g.Pairs r.2 := by
  have hq : g.Quiet (.txEntry take) := ⟨fun _ => rfl, fun _ => rfl, fun _ => rfl⟩
  have hcycle := hk.cycle
  simp only [keepsCycle, hpc] at hcycle
  simp only [Node.txEntry]
  split
  next hdue =>
    rw [if_pos (show uCommandDue g.link flags = true from hdue)] at hcycle
    split
    next hother =>
      rw [if_pos (show requestsOtherPeer g.link flags = true from hother), keepsPeer,
        Bool.or_eq_true, decide_eq_true_eq, Bool.and_eq_true, Bool.not_eq_true',
        Bool.not_eq_true'] at hcycle
      refine paired_of_sends hg hq rfl (.nothing hg.current) ?_
      refine hcycle.imp_right fun hout => ⟨hout.2, ?_⟩
      rw [List.any_nil, List.any_nil, Bool.or_false, Bool.or_false]
      exact Bool.or_eq_false_iff.mp hout.1
    next hother =>
      rw [if_neg (show ¬requestsOtherPeer g.link flags = true from hother),
        decide_eq_true_eq] at hcycle
      exact request_paired hg hq hready hk.addr hcycle
  next hdue =>
    rw [if_neg (show ¬uCommandDue g.link flags = true from hdue)] at hcycle
    refine paired_of_sends hg hq (Node.finishPass_link ..)
      (servePeer_sends (hready g.node.cPeer) hk.addr hg.current fun hout => ?_)
      (.inl (Node.finishPass_cPeer (servePeer_ne_linkDown _ _ _)))
    have hout : g.out = true := Bool.or_eq_true_iff.mpr hout
    rw [hout, Bool.true_and, Bool.not_eq_true', Bool.or_eq_false_iff] at hcycle
    exact hcycle

theorem txAdvance_paired (hg : g.Paired) (hk : g.KeepsCycles .txAdvance) :
    (g.after .txAdvance g.node.txAdvance []).Paired := by
  have hq : g.Quiet .txAdvance := ⟨fun _ => rfl, fun _ => rfl, fun _ => rfl⟩
  have hcycle := hk.cycle
  simp only [keepsCycle, keepsPeer, Bool.or_eq_true, decide_eq_true_eq, Bool.and_eq_true,
    Bool.not_eq_true'] at hcycle
  have hs : g.node.txAdvance.s = g.node.s := by
    simp only [Node.txAdvance]
    split <;> rfl
  rcases hcycle with hsame | ⟨hout, hp⟩
  · have hc : g.node.txAdvance.cPeer = g.node.cPeer := by
      simp only [Node.txAdvance]
      split <;> exact hsame
    have hpeer : g.node.txAdvance.peer g.node.cPeer = g.link.p ∨
        g.node.txAdvance.peer g.node.cPeer = setNeedP g.node.s g.link.p := by
      simp only [Node.txAdvance]
      split
      · exact .inl rfl
      · exact Node.needP_peers g.node _ _
    refine paired_of_same hg hq hc (congrArg Station.pfState hs) ?_ ?_
    · rcases hpeer with h | h <;> rw [h]
      rfl
    · rcases hpeer with h | h <;> rw [h]
      rfl
  · obtain ⟨hpolled, htested, -⟩ := hq.after g.node.txAdvance []
    rw [List.any_nil, Bool.or_false] at hpolled htested
    obtain ⟨hp', ht'⟩ := Bool.or_eq_false_iff.mp hout
    exact paired_of_idle hg (hpolled.trans hp') (htested.trans ht') (hs ▸ hp)

theorem connectedTxSFrame_pRcved (l : Link) (flags : EvtFlags) (iSent : Bool)
    (take : Nat → Option Frame)
    (h : (connectedTxSFrame l flags iSent take).link.s.pfState.pRcved = true) :
    l.s.pfState.pRcved = true := by
  simp only [connectedTxSFrame] at h
  cases chooseSFrame_chooses (getAndClearFlags l flags).1 iSent take with
  | nothing hnone =>
    rw [hnone] at h
    exact h
  | frame stale sFun rejpend busy hfun hopp hsome =>
    rw [hsome] at h
    exact (Bool.and_eq_true_iff.mp h).1

theorem txSFrame_paired {flags : EvtFlags} {iSent : Bool} {take : Nat → Option Frame}
    (hg : g.Paired) (hk : g.KeepsCycles (.txSFrame take)) :
    let t := connectedTxSFrame g.link flags iSent take
    (g.after (.txSFrame take) (g.node.finishTx t) t.sent.toList).Paired ∧ g.Pairs t.sent.toList := by
  dsimp only
  have hq : g.Quiet (.txSFrame take) := ⟨fun _ => rfl, fun _ => rfl, fun _ => rfl⟩
  have hsends := connectedTxSFrame_paired hg.current hk.addr flags iSent take
  have hkeep := (connectedTxSFrame_keeps g.link flags iSent take).1.toKeeps
  have hcycle := hk.cycle
  simp only [keepsCycle, Bool.or_eq_true, decide_eq_true_eq, Bool.not_eq_true'] at hcycle
  have hpRcved := connectedTxSFrame_pRcved g.link flags iSent take
  have hnext : (connectedTxSFrame g.link flags iSent take).nextPeer = true →
      (connectedTxSFrame g.link flags iSent take).link.s.isNrmPrimary = true ∧
        (connectedTxSFrame g.link flags iSent take).link.s.pfState.fRcved = true := by
    intro h
    simp only [connectedTxSFrame, Bool.and_eq_true] at h ⊢
    exact ⟨h.1.1.1.1, h.1.1.1.2⟩
  generalize connectedTxSFrame g.link flags iSent take = t at *
  refine paired_of_sends hg hq (Node.finishTx_link ..) hsends ?_
  by_cases hmove : t.nextPeer = true
  · have hsame := Node.ioHdlcNextPeer_setLink g.node t.link (.sched t.pc) false
      (congrArg Bool.not hkeep.stConn) hkeep.umCmd
    have hc : (g.node.finishTx t).cPeer = g.node.ioHdlcNextPeer false := by
      simp only [Node.finishTx, if_pos hmove]
      exact hsame
    rw [hc]
    refine hcycle.symm.imp_right fun hidle => ⟨?_, ?_, ?_⟩
    · obtain ⟨hpri, -⟩ := hnext hmove
      have hpri' : g.node.s.isNrmPrimary = true := by
        rw [Station.isNrmPrimary, hkeep.mode, hkeep.pri] at hpri
        exact hpri
      rw [hpri', Bool.true_and] at hidle
      exact Bool.eq_false_iff.mpr fun h => Bool.false_ne_true (hidle.symm.trans (hpRcved h))
    · refine Bool.eq_false_iff.mpr fun hp => ?_
      exact Bool.false_ne_true ((hsends.paired.polled hp).1.symm.trans (hnext hmove).2)
    · refine Bool.eq_false_iff.mpr fun ht => ?_
      exact Bool.false_ne_true ((hsends.paired.tested ht).1.symm.trans (hnext hmove).2)
  · refine .inl ?_
    simp only [Node.finishTx, if_neg hmove]
    rfl

theorem after_paired (hready : g.node.UmReady) (hg : g.Paired) (hk : g.KeepsCycles a)
    (hact : g.node.act a = some (nd', sent)) : (g.after a nd' sent).Paired ∧ g.Pairs sent := by
  cases a with
  | receive fp =>
    cases hact
    exact ⟨receive_paired fp hg hk, pairs_nil⟩
  | lineIdle =>
    cases hact
    exact ⟨paired_of_same hg ⟨fun _ => rfl, fun _ => rfl, fun _ => rfl⟩ rfl rfl
      (Node.setLink_peer_field (fun p => p.replyTmr.armed) g.node _ rfl _)
      (Node.setLink_peer_field (fun p => p.umState.sent) g.node _ rfl _), pairs_nil⟩
  | txFetch =>
    simp only [Node.act] at hact
    split at hact
    · split at hact
      · cases hact
        exact ⟨paired_of_same hg ⟨fun _ => rfl, fun _ => rfl, fun _ => rfl⟩ rfl rfl rfl rfl,
          pairs_nil⟩
      · cases hact
    · cases hact
  | txEntry take =>
    simp only [Node.act] at hact
    split at hact
    next flags hpc =>
      split at hact
      · have hentry := txEntry_paired hg hready hpc hk
        rw [Option.some.inj hact] at hentry
        exact hentry
      · cases hact
    · cases hact
  | txSwitched take =>
    simp only [Node.act] at hact
    split at hact
    next flags timedOut hpc =>
      have hcycle := hk.cycle
      simp only [keepsCycle, hpc, decide_eq_true_eq] at hcycle
      have hrequest := @request_paired n g (.txSwitched take) flags timedOut take hg
        ⟨fun _ => rfl, fun _ => rfl, fun _ => rfl⟩ hready hk.addr hcycle
      rw [link, Option.some.inj hact] at hrequest
      exact hrequest
    · cases hact
  | txAdvance =>
    simp only [Node.act] at hact
    split at hact
    · cases hact
      exact ⟨txAdvance_paired hg hk, pairs_nil⟩
    · cases hact
  | txCheck =>
    simp only [Node.act] at hact
    split at hact
    · cases hact
      exact ⟨paired_of_same hg ⟨fun _ => rfl, fun _ => rfl, fun _ => rfl⟩ rfl rfl rfl rfl,
        pairs_nil⟩
    · cases hact
  | txIFrame =>
    simp only [Node.act] at hact
    split at hact
    next flags iSent hpc =>
      cases hact
      have hcycle := hk.cycle
      simp only [keepsCycle, Bool.not_eq_true'] at hcycle
      have hsends := connectedTxIFrame_paired hg.current hk.addr (fun hout => by
        rw [show g.out = true from hout, Bool.true_and] at hcycle
        exact hcycle) flags iSent
      refine paired_of_sends hg ⟨fun _ => rfl, fun _ => rfl, fun _ => rfl⟩ (Node.finishTx_link ..) hsends
        (.inl ?_)
      have hstay : (connectedTxIFrame g.link flags iSent).nextPeer = false :=
        connectedTxIFrame_nextPeer g.link flags iSent
      simp only [Node.finishTx]
      rw [if_neg (by rw [show g.node.link g.node.cPeer = g.link from rfl, hstay]; decide)]
      rfl
    · cases hact
  | txSFrame take =>
    simp only [Node.act] at hact
    split at hact
    next flags iSent hpc =>
      cases hact
      exact txSFrame_paired hg hk
    · cases hact
  | linkUp i mode nrmOnly =>
    cases hact
    obtain ⟨hpf, harmed, hsent⟩ := linkUpStart_cycle (g.node.link i) mode nrmOnly
    refine ⟨paired_of_same hg ⟨fun _ => rfl, fun _ => rfl, fun _ => rfl⟩ ?_ ?_ ?_ ?_, pairs_nil⟩
    · split <;> rfl
    · split <;> exact hpf
    · split
      all_goals exact Node.setLink_peer_field (fun p => p.replyTmr.armed) g.node _ harmed _
    · split
      all_goals exact Node.setLink_peer_field (fun p => p.umState.sent) g.node _ hsent _
  | linkUpDone call | linkUpFails call =>
    simp only [Node.act] at hact
    split at hact
    · cases hact
      exact ⟨paired_of_same hg ⟨fun _ => rfl, fun _ => rfl, fun _ => rfl⟩ rfl rfl rfl rfl,
        pairs_nil⟩
    · cases hact
  | linkDown i =>
    cases hact
    have hlink := linkDownStart_cycle (g.node.link i)
    exact ⟨paired_of_same hg ⟨fun _ => rfl, fun _ => rfl, fun _ => rfl⟩ rfl hlink.1
      (Node.setLink_peer_field (fun p => p.replyTmr.armed) g.node _ hlink.2.1 _)
      (Node.setLink_peer_field (fun p => p.umState.sent) g.node _ hlink.2.2 _), pairs_nil⟩
  | peer i op =>
    simp only [Node.act, Option.map_eq_some_iff] at hact
    obtain ⟨r, hr, hact⟩ := hact
    cases hact
    exact ⟨peer_paired hg hk hr, pairs_nil⟩
  | poolState | poolChange =>
    cases hact
    exact ⟨paired_of_same hg ⟨fun _ => rfl, fun _ => rfl, fun _ => rfl⟩ rfl rfl rfl rfl,
      pairs_nil⟩

end Step

def Fresh (g : WithPolls n) : Prop :=
  g.node.Fresh ∧ ∀ i, g.polled i = false ∧ g.tested i = false ∧ g.owed i = 0

def Moves (ok : WithPolls n → Action n → Prop) (g g' : WithPolls n) : Prop :=
  ∃ a nd' sent, ok g a ∧ g.node.act a = some (nd', sent) ∧ g' = g.after a nd' sent

variable {g : WithPolls n} {nd' : Node n} {a : Action n} {sent : List Frame}

theorem Fresh.paired (h : g.Fresh) : g.Paired := by
  obtain ⟨hnode, hghost⟩ := h
  obtain ⟨_, _, _, _, _, _, _, _, -, hs⟩ := hnode.station
  refine ⟨?_, fun i _ => ⟨(hghost i).1, (hghost i).2.1⟩⟩
  rw [(hghost _).1, (hghost _).2.1]
  refine .of_none fun hp => ?_
  rw [link, Node.link_s, hs] at hp
  cases hp

theorem paired_reachable (hrun : Kit.Reachable Fresh (Moves KeepsCycles) g) :
    g.node.UmReady ∧ g.Paired :=
  hrun.invariant (fun g => g.node.UmReady ∧ g.Paired) (fun _ h => ⟨h.1.umReady, h.paired⟩)
    fun _ _ hg hmove => by
      obtain ⟨a, nd', sent, hk, hact, rfl⟩ := hmove
      exact ⟨(Node.act_staysReady hact).ready hg.1, (after_paired hg.1 hg.2 hk hact).1⟩

/-- The node and the cycles behind an action. -/
def next (g : WithPolls n) (a : Action n) : Option (WithPolls n) :=
  (g.node.act a).map fun r => g.after a r.1 r.2

theorem moves_next {ok : WithPolls n → Action n → Prop} {g g' : WithPolls n} {a : Action n}
    (hok : ok g a) (h : g.next a = some g') : Moves ok g g' := by
  obtain ⟨⟨nd', sent⟩, hact, rfl⟩ := Option.map_eq_some_iff.mp h
  exact ⟨a, nd', sent, hok, hact, rfl⟩

/-- A station with one peer right after set-up, with no cycle under way. -/
def onePeer (mode : Mode) (flags : StationFlags) : WithPolls 1 :=
  ⟨Node.onePeer mode flags 1 2, fun _ => false, fun _ => false, fun _ => 0⟩

theorem fresh_onePeer (mode : Mode) (hmode : mode = .ndm ∨ mode = .adm) (flags : StationFlags) :
    (onePeer mode flags).Fresh :=
  ⟨Node.fresh_onePeer mode hmode flags 1 2, fun _ => ⟨rfl, rfl, rfl⟩⟩

/-- A run of a station with one peer whose actions keep the cycle under way. -/
theorem exists_keepsCycles (g₀ : WithPolls 1) (h₀ : g₀.Fresh) (as : List (Action 1))
    (p : WithPolls 1 → Bool)
    (hp : (as.foldlM (fun (g : WithPolls 1) a => if g.KeepsCycles a then g.next a else none)
      g₀).any p = true) :
    ∃ g, Kit.Reachable Fresh (Moves KeepsCycles) g ∧ p g = true :=
  Kit.Reachable.exists_of_run _ (fun g a g' h => by
    split at h
    next hk => exact moves_next hk h
    · cases h) (.start h₀) as p hp

end WithPolls

end IoHdlc
