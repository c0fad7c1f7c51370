import IoHdlc.Core.PfState

/-!
The P/F cycles of the current peer: the P bits sent to it that are neither answered nor timed
out, and the P bits received from it and not answered.

`Link.Paired` is what the P/F state has to say about them. A pass keeps it if it does not cut
off the cycle under way.
-/

namespace IoHdlc

variable {l l' : Link} {fp : Frame} {p f : Bool}

/-! ### The cycles of the current peer -/

/-- What the P/F state says about the cycles with the peer: a P that waits for its F has taken
`F_RCVED`, under the reply timer or as the U command under way, and `P_RCVED` stands for a P
that was received. -/
structure Link.Paired (l : Link) (polled tested : Bool) (owed : Nat) : Prop where
  polled : polled = true → l.s.pfState.fRcved = false ∧ l.p.replyTmr.armed = true
  tested : tested = true → l.s.pfState.fRcved = false ∧ l.p.umState.sent = true
  owed : l.s.pfState.pRcved = true → 0 < owed

section Paired

variable {polled tested : Bool} {owed : Nat}

theorem Link.Paired.cycle (h : l.Paired polled tested owed) (hc : l.Cycle l' false false) :
    l'.Paired polled tested owed where
  polled hp := by
    obtain ⟨hf, ha⟩ := h.polled hp
    exact ⟨Bool.eq_false_iff.mpr fun hf' => by simpa [hf] using hc.fRcved hf', by
      simpa using hc.armed ha⟩
  tested ht := by
    obtain ⟨hf, hs⟩ := h.tested ht
    exact ⟨Bool.eq_false_iff.mpr fun hf' => by simpa [hf] using hc.fRcved hf', by
      simpa using hc.sent hs⟩
  owed hp := h.owed (by simpa using hc.pRcved hp)

/-- Without a cycle under way nothing but the received P matters. -/
theorem Link.Paired.of_none (h : l.s.pfState.pRcved = true → 0 < owed) :
    l.Paired false false owed :=
  ⟨nofun, nofun, h⟩

/-- A P bit or an F bit is received. -/
theorem Link.Paired.receive (h : l.Paired polled tested owed) (hc : l.Cycle l' p f) :
    l'.Paired (polled && !f) (tested && !f) (owed + p.toNat) where
  polled hp := by
    rw [Bool.and_eq_true, Bool.not_eq_true'] at hp
    obtain ⟨hf, ha⟩ := h.polled hp.1
    exact ⟨Bool.eq_false_iff.mpr fun hf' => by simpa [hf, hp.2] using hc.fRcved hf', by
      simpa [hp.2] using hc.armed ha⟩
  tested ht := by
    rw [Bool.and_eq_true, Bool.not_eq_true'] at ht
    obtain ⟨hf, hs⟩ := h.tested ht.1
    exact ⟨Bool.eq_false_iff.mpr fun hf' => by simpa [hf, ht.2] using hc.fRcved hf', by
      simpa [ht.2] using hc.sent hs⟩
  owed hp := by
    rcases hc.pRcved hp with hp | rfl
    · exact Nat.lt_of_lt_of_le (h.owed hp) (Nat.le_add_right ..)
    · exact Nat.succ_pos _

/-- The number of frames that answer a P. -/
def Link.answers (l : Link) (sent : List Frame) : Nat := sent.countP l.ownPF

/-- Whether a sent frame is the command of a TEST. -/
def Link.forTest (l : Link) (fp : Frame) : Bool :=
  frameType l.s.framing fp = .uFrame && l.p.umCmd = IOHDLC_U_TEST

/-- Whether a sent frame has a P bit, and does not have it for a TEST. -/
def Link.polls (l : Link) (fp : Frame) : Bool := l.peerPF fp && !l.forTest fp

/-- Whether a sent frame has the P bit of a TEST. -/
def Link.tests (l : Link) (fp : Frame) : Bool := l.peerPF fp && l.forTest fp

/-- What the frames of one section do to the cycles of the current peer. -/
structure Link.SendsPaired (l l' : Link) (sent : List Frame) (polled tested : Bool) (owed : Nat) :
    Prop where
  turn : ∀ fp ∈ sent, frameType l.s.framing fp ≠ .uFrame → l.peerPF fp = true →
    polled = false ∧ tested = false
  answers : l.answers sent ≤ owed
  paired : l'.Paired (polled || sent.any l.polls) (tested || sent.any l.tests)
    (owed - l.answers sent)

theorem Link.SendsPaired.nothing (h : l'.Paired polled tested owed) :
    l.SendsPaired l' [] polled tested owed where
  turn := nofun
  answers := Nat.zero_le _
  paired := by
    rw [List.any_nil, List.any_nil, Bool.or_false, Bool.or_false]
    exact h

theorem uResponseStage_answers (flags : EvtFlags) (take : Option Frame) (hl : l.UmReady) :
    (∀ fp ∈ (uResponseStage l flags take).2.1, l.ownPF fp = l.s.pfState.pRcved) ∧
      ((uResponseStage l flags take).2.1 ≠ none → l.p.umState.rcved = true) := by
  refine ⟨fun fp hfp => ?_, fun hne => ?_⟩
  · obtain ⟨-, hreads⟩ := uResponseStage_reads hl hfp
    rw [Link.ownPF, hreads.pf, hreads.addr, txAddr, if_neg Bool.false_ne_true, decide_eq_true rfl,
      Bool.and_true]
  · obtain ⟨fp, hfp⟩ := Option.ne_none_iff_exists'.mp hne
    exact (uResponseStage_reads hl hfp).1

/-- A pass behind the section for U commands. -/
theorem servePeer_paired (flags : EvtFlags) (take : Takes) (hl : l.UmReady)
    (h : l.Paired polled tested owed)
    (hout : polled = true ∨ tested = true → closesByDisc l = false ∧
      (l.p.umState.sent = true ∨ recoversOnT3 l flags = false)) :
    l.answers (servePeer l flags take).sent ≤ owed ∧
      (servePeer l flags take).link.Paired polled tested
        (owed - l.answers (servePeer l flags take).sent) := by
  obtain ⟨hown, hrcved⟩ := uResponseStage_answers flags take.uResponse hl
  have hinh := uResponseStage_inherits l flags take.uResponse
  have hnone : (dispatchTx (uResponseStage l flags take.uResponse).1
      (uResponseStage l flags take.uResponse).2.2 take.ui).sent.countP l.ownPF = 0 := by
    rw [List.countP_eq_zero]
    intro fp hfp
    have hpf := dispatchTx_pf fp hfp
    rw [hinh.framing] at hpf
    rw [Link.ownPF, hpf, Bool.false_and]
    exact Bool.false_ne_true
  have hpRcved (h : (servePeer l flags take).link.s.pfState.pRcved = true) :
      l.s.pfState.pRcved = true ∧ l.p.umState.rcved = false :=
    uResponseStage_pRcved ((dispatchTx_pRcved ..).symm.trans h)
  have hcycle (hpt : polled = true ∨ tested = true) :
      l.Cycle (servePeer l flags take).link false false := by
    obtain ⟨hclose, ht3⟩ := hout hpt
    obtain ⟨hc, hsame⟩ := uResponseStage_cycle (p := false) (f := false) flags take.uResponse hclose
    have hsub : (uResponseStage l flags take.uResponse).2.2 ⊆ flags := by
      rw [uResponseStage]
      split
      · exact Finset.sdiff_subset
      · exact Finset.Subset.refl _
    refine hc.trans (dispatchTx_cycle ?_)
    have hkeep (hs : l.p.umState.sent = true) := (hc.sent hs).resolve_right Bool.false_ne_true
    rcases ht3 with hs | ht3
    · exact .inl (hkeep hs)
    · rcases hpt with hp | ht
      · exact .inr ⟨(hc.armed (h.polled hp).2).resolve_right Bool.false_ne_true,
          (hsame.recoversOnT3 _).trans (recoversOnT3_mono hsub ht3)⟩
      · exact .inl (hkeep (h.tested ht).2)
  have hcount : l.answers (servePeer l flags take).sent =
      (uResponseStage l flags take.uResponse).2.1.toList.countP l.ownPF := by
    rw [Link.answers, servePeer, List.countP_append, hnone, Nat.add_zero]
  rw [hcount]
  refine ⟨?_, fun hp => ?_, fun ht => ?_, fun hp => ?_⟩
  · cases hsent : (uResponseStage l flags take.uResponse).2.1 with
    | none => exact Nat.zero_le _
    | some fp =>
      rw [Option.toList_some, List.countP_singleton, hown fp hsent]
      split
      next hp => exact h.owed hp
      · exact Nat.zero_le _
  · exact (h.cycle (hcycle (.inl hp))).polled hp
  · exact (h.cycle (hcycle (.inr ht))).tested ht
  · obtain ⟨hold, hno⟩ := hpRcved hp
    have hsilent : (uResponseStage l flags take.uResponse).2.1 = none := by
      by_contra hsent
      exact Bool.false_ne_true (hno.symm.trans (hrcved hsent))
    rw [hsilent]
    exact h.owed hold

/-- In TWA a connection command takes `F_RCVED` on its own authority. -/
def presetsF (l : Link) : Bool :=
  l.p.isDisc && l.s.flags.twa && isConnectionUCommand l.p.umCmd

/-- A pass that serves a U command without cutting off the cycle under way, or the one it
starts. -/
structure Link.ServesCycle (l : Link) (flags : EvtFlags) (timedOut : Bool) (take : Takes)
    (out : Bool) : Prop where
  exhausts : exhaustsUCommand l timedOut = true → out = false ∧ l.s.pfState.pRcved = false
  presets : out = true → presetsF l = true → emitsUCommand l timedOut take.uCommand = true
  closes : closesByDisc l = true → out = false ∧ emitsUCommand l timedOut take.uCommand = false
  recovers : out = true → recoversOnT3 l flags = false

theorem Link.Inherits.ownPF (h : l.Inherits l') : l'.ownPF = l.ownPF := by
  funext fp
  rw [Link.ownPF, Link.ownPF, h.framing, h.sAddr]

theorem Link.Inherits.peerPF (h : l.Inherits l') : l'.peerPF = l.peerPF := by
  funext fp
  rw [Link.peerPF, Link.peerPF, h.framing, h.pAddr]

theorem Link.Inherits.answers (h : l.Inherits l') : l'.answers = l.answers := by
  funext sent
  rw [Link.answers, Link.answers, h.ownPF]

theorem any_of_peerPF {sent : List Frame} (h : ∀ fp ∈ sent, l.peerPF fp = false) :
    sent.any l.polls = false ∧ sent.any l.tests = false := by
  constructor
  all_goals
    rw [List.any_eq_false]
    intro fp hfp
  · rw [Link.polls, h fp hfp, Bool.false_and]
    exact Bool.false_ne_true
  · rw [Link.tests, h fp hfp, Bool.false_and]
    exact Bool.false_ne_true

theorem peerPF_of_ownAddr (haddr : l.s.addr.toUInt8 ≠ l.p.addr.toUInt8)
    (h : fp.addr l.s.framing = l.s.addr.toUInt8) : l.peerPF fp = false := by
  rw [Link.peerPF, h, decide_eq_false haddr, Bool.and_false]

/-- Behind the section for U commands no P goes out. -/
theorem servePeer_peerPF (flags : EvtFlags) (take : Takes) (hl : l.UmReady)
    (haddr : l.s.addr.toUInt8 ≠ l.p.addr.toUInt8) :
    ∀ fp ∈ (servePeer l flags take).sent, l.peerPF fp = false := by
  have hinh := uResponseStage_inherits l flags take.uResponse
  intro fp hfp
  rcases List.mem_append.mp hfp with hrsp | hui
  · obtain ⟨-, hreads⟩ := uResponseStage_reads hl (Option.mem_toList.mp hrsp)
    refine peerPF_of_ownAddr haddr ?_
    rw [hreads.addr, txAddr, if_neg Bool.false_ne_true]
  · have hpf := dispatchTx_pf fp hui
    rw [hinh.framing] at hpf
    rw [Link.peerPF, hpf, Bool.false_and]

theorem retryUCommand_inherits (l : Link) (timedOut : Bool) :
    l.Inherits (retryUCommand l timedOut) :=
  .of_eq rfl rfl rfl rfl rfl rfl

/-- What is kept back leaves the link as it was, or with one more retry and the preset. -/
theorem sendUCommand_idle {timedOut : Bool} {take : Option Frame}
    (hno : emitsUCommand l timedOut take = false) (hex : exhaustsUCommand l timedOut = false) :
    (sendUCommand l timedOut take).link = l ∨
      (sendUCommand l timedOut take).link = retryUCommand l timedOut := by
  by_cases hmay : mayOriginateUCommand l = true
  · rcases sendUCommand_emits l timedOut take with ⟨hemit, -⟩ | ⟨-, hsent⟩
    · exact absurd (hno.symm.trans hemit) Bool.false_ne_true
    · rw [sendUCommand_eq l timedOut take hmay hex] at hsent ⊢
      dsimp only at hsent ⊢
      split
      · split
        next hsome => simp [*] at hsent
        · exact .inr rfl
      · exact .inr rfl
  · exact .inl (by rw [sendUCommand, if_neg hmay])

theorem sendUCommand_pRcved (l : Link) (timedOut : Bool) (take : Option Frame) :
    (sendUCommand l timedOut take).link.s.pfState.pRcved = l.s.pfState.pRcved := by
  have hretry : (retryBefore l timedOut).1.s.pfState.pRcved = l.s.pfState.pRcved := by
    rw [retryBefore]
    split
    · exact handleTimeoutRetry_pRcved l
    · rfl
  rcases sendUCommand_ends l timedOut take with
    ⟨-, h⟩ | ⟨-, -, h⟩ | ⟨-, -, h, -⟩ | ⟨-, -, -, fp, -, h⟩
  · rw [h]
  · rw [h, hretry]
  · rw [h]
    exact hretry
  · obtain ⟨t3, delay, hsent⟩ := uCommandSent_eq (presetF (retryBefore l timedOut).1)
    rw [h, hsent]
    exact hretry

/-- A pass whose U command is kept back. -/
theorem serveRequest_paired_idle {flags : EvtFlags} {timedOut : Bool} {take : Takes}
    (hl : l.UmReady) (haddr : l.s.addr.toUInt8 ≠ l.p.addr.toUInt8)
    (h : l.Paired polled tested owed)
    (hk : l.ServesCycle flags timedOut take (polled || tested))
    (hex : exhaustsUCommand l timedOut = false)
    (hno : emitsUCommand l timedOut take.uCommand = false)
    (hnone : (sendUCommand l timedOut take.uCommand).sent = none) :
    let r := serveRequest l flags timedOut take
    l.answers r.sent ≤ owed ∧ (∀ fp ∈ r.sent, l.peerPF fp = false) ∧
      r.link.Paired polled tested (owed - l.answers r.sent) := by
  obtain ⟨l₁, hl₁⟩ : ∃ l₁, (sendUCommand l timedOut take.uCommand).link = l₁ := ⟨_, rfl⟩
  have hsame : l.Inherits l₁ ∧ closesByDisc l₁ = closesByDisc l ∧
      l₁.p.umState.sent = l.p.umState.sent ∧ l.SameT3 l₁ := by
    rcases sendUCommand_idle hno hex with h | h <;> rw [← hl₁, h]
    · exact ⟨.refl l, rfl, rfl, rfl, rfl, rfl⟩
    · exact ⟨retryUCommand_inherits l timedOut, rfl, rfl, rfl, rfl, rfl⟩
  obtain ⟨hinh, hclose, hsent, ht3⟩ := hsame
  have hpaired : l₁.Paired polled tested owed := by
    by_cases hout : (polled || tested) = true
    · refine h.cycle ?_
      have hpreset : presetsF l = false := Bool.eq_false_iff.mpr fun hp =>
        Bool.false_ne_true (hno.symm.trans (hk.presets hout hp))
      rcases sendUCommand_idle hno hex with h | h <;> rw [← hl₁, h]
      · exact .refl l
      · refine ⟨fun hf => .inl ?_, .inl, .inl, .inl⟩
        change (l.s.pfState.fRcved || presetsF l) = true at hf
        rwa [hpreset, Bool.or_false] at hf
    · rw [Bool.not_eq_true, Bool.or_eq_false_iff] at hout
      obtain ⟨rfl, rfl⟩ := hout
      refine .of_none fun hp => h.owed ?_
      rwa [← hl₁, sendUCommand_pRcved] at hp
  have hserve := servePeer_paired flags take (hl.inherits hinh) hpaired
    fun hout => by
      have hout : (polled || tested) = true := by rwa [Bool.or_eq_true]
      refine ⟨Bool.eq_false_iff.mpr fun hc => ?_, .inr ?_⟩
      · exact Bool.false_ne_true ((hk.closes (hclose ▸ hc)).1.symm.trans hout)
      · rw [ht3.recoversOnT3]
        exact hk.recovers hout
  have hsilent : l.answers [] ≤ owed ∧ (∀ fp ∈ ([] : List Frame), l.peerPF fp = false) ∧
      l₁.Paired polled tested (owed - l.answers []) := ⟨Nat.zero_le _, nofun, hpaired⟩
  simp only [serveRequest]
  rw [hnone]
  split
  · exact hl₁ ▸ hsilent
  · exact hl₁ ▸ hsilent
  · exact hl₁ ▸ hsilent
  · rw [hl₁]
    have hpf := servePeer_peerPF flags take (hl.inherits hinh)
      (by rwa [hinh.sAddr, hinh.pAddr])
    rw [hinh.peerPF] at hpf
    rw [hinh.answers] at hserve
    exact ⟨hserve.1, hpf, hserve.2⟩

/-- A pass whose U command goes out. -/
theorem serveRequest_paired_emits {flags : EvtFlags} {timedOut : Bool} {take : Takes}
    (hl : l.UmReady) (haddr : l.s.addr.toUInt8 ≠ l.p.addr.toUInt8)
    (h : l.Paired polled tested owed)
    (hk : l.ServesCycle flags timedOut take (polled || tested))
    (hemit : emitsUCommand l timedOut take.uCommand = true) {fp : Frame}
    (hsend : sendUCommand l timedOut take.uCommand =
      { link := uCommandSent (retryUCommand l timedOut), sent := some fp, next := .go }) :
    l.SendsPaired (serveRequest l flags timedOut take).link
      (serveRequest l flags timedOut take).sent polled tested owed := by
  obtain ⟨t3, delay, heq⟩ := uCommandSent_eq (retryUCommand l timedOut)
  have hinh : l.Inherits (uCommandSent (retryUCommand l timedOut)) :=
    (retryUCommand_inherits l timedOut).trans (uCommandSent_inherits _)
  generalize uCommandSent (retryUCommand l timedOut) = u at *
  have hreads := @sendUCommand_reads l timedOut take.uCommand fp hl (by rw [hsend]; rfl)
  have hown : l.ownPF fp = false := by
    rw [Link.ownPF, hreads.2, txAddr, if_pos rfl, decide_eq_false haddr.symm, Bool.and_false]
  have hclose : closesByDisc l = false := by
    refine Bool.eq_false_iff.mpr fun hc => ?_
    exact Bool.false_ne_true ((hk.closes hc).2.symm.trans hemit)
  have hu : u.Paired (polled || l.polls fp) (tested || l.tests fp) owed := by
    refine ⟨fun hp => ?_, fun _ => ?_, fun hp => ?_⟩
    · rw [heq]
      refine ⟨rfl, ?_⟩
      dsimp only
      split
      next htest =>
        have htest : l.p.umCmd = IOHDLC_U_TEST := htest
        rw [Link.polls, Link.forTest, hreads.1, htest, decide_eq_true rfl, decide_eq_true rfl,
          Bool.and_true, Bool.not_true, Bool.and_false, Bool.or_false] at hp
        exact (h.polled hp).2
      · rfl
    · rw [heq]
      exact ⟨rfl, rfl⟩
    · rw [heq] at hp
      exact h.owed hp
  have hserve := servePeer_paired flags take (hl.inherits hinh) hu fun _ => by
    refine ⟨?_, .inl ?_⟩
    · rw [heq]
      exact hclose
    · rw [heq]
  have hpf := servePeer_peerPF flags take (hl.inherits hinh)
    (by rwa [hinh.sAddr, hinh.pAddr])
  rw [hinh.peerPF] at hpf
  rw [hinh.answers] at hserve
  have hcount (rest : List Frame) : l.answers (fp :: rest) = l.answers rest := by
    rw [Link.answers, List.countP_cons, hown, if_neg Bool.false_ne_true, Nat.add_zero,
      Link.answers]
  obtain ⟨hpolls, htests⟩ := any_of_peerPF hpf
  refine ⟨fun fp' hfp' htype => absurd (serveRequest_type hl flags timedOut take fp' hfp') htype,
    ?_, ?_⟩
  all_goals
    simp only [serveRequest, hsend, Option.toList_some, List.singleton_append, hcount,
      List.any_cons, hpolls, htests, Bool.or_false]
  · exact hserve.1
  · exact hserve.2

theorem serveRequest_paired {flags : EvtFlags} {timedOut : Bool} {take : Takes} (hl : l.UmReady)
    (haddr : l.s.addr.toUInt8 ≠ l.p.addr.toUInt8) (h : l.Paired polled tested owed)
    (hk : l.ServesCycle flags timedOut take (polled || tested)) :
    l.SendsPaired (serveRequest l flags timedOut take).link
      (serveRequest l flags timedOut take).sent polled tested owed := by
  by_cases hex : exhaustsUCommand l timedOut = true
  · obtain ⟨hdown, -, -⟩ := sendUCommand_exhausted hex take.uCommand
    obtain ⟨hout, hp⟩ := hk.exhausts hex
    have hpRcved := sendUCommand_pRcved l timedOut take.uCommand
    rw [Bool.or_eq_false_iff] at hout
    obtain ⟨rfl, rfl⟩ := hout
    simp only [serveRequest, hdown]
    refine .nothing (.of_none fun h => ?_)
    rw [hpRcved, hp] at h
    cases h
  rcases sendUCommand_emits l timedOut take.uCommand with ⟨hemit, fp, hsend⟩ | ⟨hno, hnone⟩
  · exact serveRequest_paired_emits hl haddr h hk hemit hsend
  · obtain ⟨hcount, hpf, hpaired⟩ :=
      serveRequest_paired_idle hl haddr h hk (Bool.eq_false_iff.mpr hex) hno hnone
    obtain ⟨hpolls, htests⟩ := any_of_peerPF hpf
    refine ⟨fun fp hfp htype => absurd (serveRequest_type hl flags timedOut take fp hfp) htype,
      hcount, ?_⟩
    rw [hpolls, htests, Bool.or_false, Bool.or_false]
    exact hpaired

/-- An I or S frame goes out with this P/F bit. -/
structure Link.EmitsPF (l l' : Link) (fp : Frame) (setPf isCommand : Bool) : Prop where
  pf : linePF l.s.framing fp = setPf
  addr : fp.addr l.s.framing = txAddr l.s l.p isCommand
  fRcved : l'.s.pfState.fRcved = (l.s.pfState.fRcved && !(setPf && isCommand))
  pRcved : l'.s.pfState.pRcved = (l.s.pfState.pRcved && !(setPf && !isCommand))
  armed : l'.p.replyTmr.armed = (l.p.replyTmr.armed || (setPf && isCommand))
  sent : l'.p.umState.sent = l.p.umState.sent
  answers : (setPf && !isCommand) = true → l.s.pfState.pRcved = true

theorem Link.EmitsPF.peerPF {setPf isCommand : Bool} (he : l.EmitsPF l' fp setPf isCommand)
    (haddr : l.s.addr.toUInt8 ≠ l.p.addr.toUInt8) : l.peerPF fp = (setPf && isCommand) := by
  rw [Link.peerPF, he.pf, he.addr]
  cases isCommand with
  | true => rw [txAddr, if_pos rfl, decide_eq_true rfl]
  | false => rw [txAddr, if_neg Bool.false_ne_true, decide_eq_false haddr]

theorem Link.EmitsPF.ownPF {setPf isCommand : Bool} (he : l.EmitsPF l' fp setPf isCommand)
    (haddr : l.s.addr.toUInt8 ≠ l.p.addr.toUInt8) : l.ownPF fp = (setPf && !isCommand) := by
  rw [Link.ownPF, he.pf, he.addr]
  cases isCommand with
  | true => rw [txAddr, if_pos rfl, decide_eq_false haddr.symm, Bool.not_true]
  | false => rw [txAddr, if_neg Bool.false_ne_true, decide_eq_true rfl, Bool.not_false]

theorem Link.Paired.emits {setPf isCommand : Bool} (h : l.Paired polled tested owed)
    (haddr : l.s.addr.toUInt8 ≠ l.p.addr.toUInt8) (he : l.EmitsPF l' fp setPf isCommand) :
    l.answers [fp] ≤ owed ∧ l'.Paired (polled || l.peerPF fp) tested (owed - l.answers [fp]) := by
  have hcount : l.answers [fp] = (setPf && !isCommand).toNat := by
    rw [Link.answers, List.countP_singleton, he.ownPF haddr]
    cases setPf && !isCommand <;> rfl
  rw [hcount, he.peerPF haddr]
  refine ⟨?_, fun hp => ?_, fun ht => ?_, fun hp => ?_⟩
  · cases hanswer : setPf && !isCommand with
    | true => exact h.owed (he.answers hanswer)
    | false => exact Nat.zero_le _
  · rw [he.fRcved, he.armed]
    rcases Bool.or_eq_true_iff.mp hp with hp | hp
    · obtain ⟨hf, harmed⟩ := h.polled hp
      rw [hf, harmed]
      exact ⟨rfl, rfl⟩
    · rw [hp, Bool.not_true, Bool.and_false, Bool.or_true]
      exact ⟨rfl, rfl⟩
  · obtain ⟨hf, hs⟩ := h.tested ht
    rw [he.fRcved, he.sent, hf]
    exact ⟨rfl, hs⟩
  · rw [he.pRcved, Bool.and_eq_true, Bool.not_eq_true'] at hp
    rw [hp.2]
    exact h.owed hp.1

theorem responseShouldSetF_pRcved {s : Station} {isLast : Bool}
    (h : responseShouldSetF s isLast = true) : s.pfState.pRcved = true := by
  rw [responseShouldSetF] at h
  split at h
  · cases h
  next hp => simpa using hp

theorem transmitIFrame_emits (l : Link) (fp : Frame) (rest : List Frame) :
    l.EmitsPF (transmitIFrame l fp rest).1 (transmitIFrame l fp rest).2.1
      (transmitIFrame l fp rest).2.2 (sendsCommand l.s) where
  pf := (transmitIFrame_reads l fp rest).pf
  addr := (transmitIFrame_reads l fp rest).addr
  fRcved := rfl
  pRcved := rfl
  armed := by
    simp only [transmitIFrame, startIFrameReplyTimer, startPollReplyTimerIf]
    split
    next hpoll => rw [hpoll, Bool.or_true]; rfl
    next hpoll => rw [Bool.eq_false_iff.mpr hpoll, Bool.or_false]; rfl
  sent := rfl
  answers h := by
    rw [Bool.and_eq_true, Bool.not_eq_true'] at h
    have hset := h.1
    simp only [transmitIFrame, iFrameSetPf, h.2, Bool.false_eq_true, if_false,
      Bool.and_eq_true] at hset
    exact responseShouldSetF_pRcved hset.2

/-- In TWA the last I frame of a burst takes the P bit of an asynchronous mode without asking
for an F bit. -/
def pollsOnIdle (l : Link) : Bool :=
  l.s.flags.twa && l.s.mode ≠ .nrm && l.s.mode ≠ .ndm && sendsCommand l.s && !l.s.flags.busy &&
    sendOpportunity l.s &&
    match l.p.iTransQ with
    | [] => false
    | _ :: rest => outstanding l + 1 ≥ l.p.ks ∨ rest = []

theorem transmitIFrame_turn {rest : List Frame} (hq : l.p.iTransQ = fp :: rest)
    (hopp : sendOpportunity l.s = true) (hidle : pollsOnIdle l = false)
    (hp : ((transmitIFrame l fp rest).2.2 && sendsCommand l.s) = true) :
    l.s.pfState.fRcved = true := by
  rw [Bool.and_eq_true] at hp
  obtain ⟨hset, hcommand⟩ := hp
  simp only [transmitIFrame, iFrameSetPf, hcommand, if_true, Bool.and_eq_true,
    Bool.not_eq_true'] at hset
  obtain ⟨hbusy, hset⟩ := hset
  by_cases htwa : l.s.flags.twa = true
  · rw [if_pos htwa] at hset
    by_cases hnrm : l.s.mode = .nrm ∨ l.s.mode = .ndm
    · have habm : l.s.mode ≠ .abm := by rcases hnrm with h | h <;> simp [h]
      rw [sendsCommand, if_neg habm] at hcommand
      rw [sendOpportunity, if_pos hnrm, nrmSendOpportunity, if_pos hcommand, if_pos htwa] at hopp
      exact hopp
    · rw [not_or] at hnrm
      rw [pollsOnIdle, htwa, hcommand, hbusy, hopp, hq, decide_eq_true hnrm.1,
        decide_eq_true hnrm.2] at hidle
      exact absurd (hset.symm.trans hidle) (by decide)
  · rw [if_neg htwa] at hset
    exact hset

theorem sFrameSent_emits (l : Link) (stale : Frame) {sFun : UInt8}
    (hfun : sFun = IOHDLC_S_RR ∨ sFun = IOHDLC_S_RNR ∨ sFun = IOHDLC_S_REJ) (isCommand : Bool) :
    l.EmitsPF (sFrameSent l isCommand)
      (buildSFrame l.s l.p stale sFun l.p.vr (sFrameSetPf l isCommand) isCommand)
      (sFrameSetPf l isCommand) isCommand where
  pf := (readsAs_buildSFrame l.s l.p stale _ _ _ hfun).pf
  addr := (readsAs_buildSFrame l.s l.p stale _ _ _ hfun).addr
  fRcved := rfl
  pRcved := rfl
  armed := by
    simp only [sFrameSent, restartIFrameReplyTimer, startPollReplyTimerIf]
    split
    next hpoll => rw [hpoll, Bool.or_true]; rfl
    next hpoll => rw [Bool.eq_false_iff.mpr hpoll, Bool.or_false]; rfl
  sent := rfl
  answers h := by
    rw [Bool.and_eq_true, Bool.not_eq_true'] at h
    have hset := h.1
    rw [sFrameSetPf, h.2, if_neg Bool.false_ne_true] at hset
    exact responseShouldSetF_pRcved hset

theorem sFrameSetPf_turn (h : sFrameSetPf l true = true) : l.s.pfState.fRcved = true := by
  rw [sFrameSetPf, if_pos rfl] at h
  split at h
  · exact (Bool.and_eq_true_iff.mp h).1
  · exact h

theorem Link.Paired.frame {setPf isCommand : Bool} (h : l.Paired polled tested owed)
    (haddr : l.s.addr.toUInt8 ≠ l.p.addr.toUInt8) (he : l.EmitsPF l' fp setPf isCommand)
    (htype : frameType l.s.framing fp ≠ .uFrame)
    (hturn : (polled || tested) = true → (setPf && isCommand) = true →
      l.s.pfState.fRcved = true) :
    l.SendsPaired l' [fp] polled tested owed := by
  have hforTest : l.forTest fp = false := by
    rw [Link.forTest, decide_eq_false htype, Bool.false_and]
  obtain ⟨hcount, hpaired⟩ := h.emits haddr he
  refine ⟨fun fp' hfp' _ hpf => ?_, hcount, ?_⟩
  · obtain rfl := List.mem_singleton.mp hfp'
    rw [he.peerPF haddr] at hpf
    constructor
    all_goals refine Bool.eq_false_iff.mpr fun hout => ?_
    · have hf := hturn (by rw [hout, Bool.true_or]) hpf
      exact Bool.false_ne_true ((h.polled hout).1.symm.trans hf)
    · have hf := hturn (by rw [hout, Bool.or_true]) hpf
      exact Bool.false_ne_true ((h.tested hout).1.symm.trans hf)
  · rw [List.any_cons, List.any_cons, List.any_nil, List.any_nil, Link.polls, Link.tests, hforTest,
      Bool.not_false, Bool.and_true, Bool.and_false, Bool.or_false, Bool.or_false, Bool.or_false]
    exact hpaired

theorem Link.Paired.clearFlags (h : l.Paired polled tested owed) (flags : EvtFlags) :
    (getAndClearFlags l flags).1.Paired polled tested owed :=
  h.cycle (.of_eq rfl rfl rfl)

theorem Link.SendsPaired.of_clear (flags : EvtFlags) {sent : List Frame}
    (h : (getAndClearFlags l flags).1.SendsPaired l' sent polled tested owed) :
    l.SendsPaired l' sent polled tested owed :=
  ⟨h.turn, h.answers, h.paired⟩

theorem connectedTxIFrame_paired (h : l.Paired polled tested owed)
    (haddr : l.s.addr.toUInt8 ≠ l.p.addr.toUInt8)
    (hidle : (polled || tested) = true → pollsOnIdle l = false) (flags : EvtFlags) (iSent : Bool) :
    let r := connectedTxIFrame l flags iSent
    l.SendsPaired r.link r.sent.toList polled tested owed := by
  dsimp only
  rcases connectedTxIFrame_ends l flags iSent with ⟨hlink, hsent⟩ | ⟨fp, rest, hq, hopp, hlink, hsent⟩
  · rw [hsent]
    refine .nothing ?_
    rcases hlink with hlink | hlink <;> rw [hlink]
    · exact h
    · exact h.clearFlags flags
  · rw [hlink, hsent]
    have hreads := transmitIFrame_reads (getAndClearFlags l flags).1 fp rest
    have hemits := transmitIFrame_emits (getAndClearFlags l flags).1 fp rest
    refine .of_clear flags ((h.clearFlags flags).frame haddr hemits ?_ fun hout hp => ?_)
    · rw [hreads.type]
      decide
    · exact transmitIFrame_turn (l := (getAndClearFlags l flags).1) hq hopp (hidle hout) hp

theorem connectedTxSFrame_paired (h : l.Paired polled tested owed)
    (haddr : l.s.addr.toUInt8 ≠ l.p.addr.toUInt8) (flags : EvtFlags) (iSent : Bool)
    (take : Nat → Option Frame) :
    let r := connectedTxSFrame l flags iSent take
    l.SendsPaired r.link r.sent.toList polled tested owed := by
  simp only [connectedTxSFrame]
  have hclear := h.clearFlags flags
  cases chooseSFrame_chooses (getAndClearFlags l flags).1 iSent take with
  | nothing hnone =>
    rw [hnone]
    exact .nothing hclear
  | frame stale sFun rejpend busy hfun hopp hsome =>
    rw [hsome]
    have hemits := sFrameSent_emits (getAndClearFlags l flags).1 stale hfun
      (sendsCommand (getAndClearFlags l flags).1.s)
    refine .of_clear flags ?_
    refine hclear.frame haddr ⟨hemits.pf, hemits.addr, hemits.fRcved, hemits.pRcved, hemits.armed,
      hemits.sent, hemits.answers⟩ ?_ fun _ hp => ?_
    · rw [(readsAs_buildSFrame _ _ _ _ _ _ hfun).type]
      decide
    · rw [Bool.and_eq_true] at hp
      rw [hp.2] at hp
      exact sFrameSetPf_turn hp.1

/-- A pass that serves no U command. -/
theorem servePeer_sends {flags : EvtFlags} {take : Takes} (hl : l.UmReady)
    (haddr : l.s.addr.toUInt8 ≠ l.p.addr.toUInt8) (h : l.Paired polled tested owed)
    (hout : polled = true ∨ tested = true → closesByDisc l = false ∧
      recoversOnT3 l flags = false) :
    l.SendsPaired (servePeer l flags take).link (servePeer l flags take).sent polled tested
      owed := by
  obtain ⟨hcount, hpaired⟩ := servePeer_paired flags take hl h fun hpt =>
    ⟨(hout hpt).1, .inr (hout hpt).2⟩
  obtain ⟨hpolls, htests⟩ := any_of_peerPF (servePeer_peerPF flags take hl haddr)
  refine ⟨fun fp hfp htype => absurd (servePeer_type hl flags take fp hfp) htype, hcount, ?_⟩
  rw [hpolls, htests, Bool.or_false, Bool.or_false]
  exact hpaired

end Paired

end IoHdlc
