import IoHdlc.Core.PfPairing

/-!
The turn of a primary in two-way alternate NRM: behind its P nothing goes out until the F.

The turn is `F_RCVED`, and `PfPairing` has it in step with the cycles. What is left are the
two frames that do not ask for it, a U response and a U command that presets it.
-/

namespace IoHdlc

/-- A primary that takes turns with its secondaries. -/
def Station.isTwaPrimary (s : Station) : Bool :=
  s.flags.pri && s.flags.twa && (s.mode = .nrm || s.mode = .ndm)

theorem sendOpportunity_twaPrimary {s : Station} (h : s.isTwaPrimary = true) :
    sendOpportunity s = s.pfState.fRcved := by
  simp only [Station.isTwaPrimary, Bool.and_eq_true, Bool.or_eq_true, decide_eq_true_eq] at h
  rw [sendOpportunity, if_pos h.2, nrmSendOpportunity, if_pos h.1.1, if_pos h.1.2]

section Pass

variable {l : Link} {fp : Frame} {polled tested : Bool} {owed : Nat}

theorem serveT3Timeout_s {flags : EvtFlags} (h : recoversOnT3 l flags = false) :
    (serveT3Timeout l flags).1.s = l.s := by
  simp only [serveT3Timeout]
  split
  next hexp =>
    split
    · rfl
    next hmode =>
      split
      · rfl
      next hq => simp [recoversOnT3, hexp, show l.s.mode ≠ .nrm from hmode, hq] at h
  · rfl

/-- Without a turn no UI frame goes out. -/
theorem connectedTxEntry_silent {flags : EvtFlags} {take : Option Frame}
    (hturn : sendOpportunity l.s = false) (harmed : l.p.replyTmr.armed = true)
    (h : recoversOnT3 l flags = false) : (connectedTxEntry l flags take).sent = none := by
  have ht3 : recoversOnT3 l ((flags \ {.lineIdle}) \ {.cRplytmo}) = false := by
    simpa [recoversOnT3] using h
  simp only [connectedTxEntry]
  rw [serveReplyTimeout_of_armed harmed, if_pos rfl]
  split
  · by_contra hsent
    obtain ⟨fp, hfp⟩ := Option.ne_none_iff_exists'.mp hsent
    have hopp := (sendUi_reads hfp).2
    rw [serveT3Timeout_s ht3, hturn] at hopp
    cases hopp
  · rfl

theorem dispatchTx_silent {flags : EvtFlags} {take : Option Frame}
    (h : l.p.umState.sent = true ∨ sendOpportunity l.s = false ∧ l.p.replyTmr.armed = true ∧
      recoversOnT3 l flags = false) : (dispatchTx l flags take).sent = [] := by
  simp only [dispatchTx]
  split
  · split <;> rfl
  next hdisc =>
    have hsent : l.p.umState.sent ≠ true := fun hs => hdisc (by rw [hs, Bool.or_true])
    obtain ⟨hturn, harmed, ht3⟩ := h.resolve_left hsent
    split
    · dsimp only
      rw [connectedTxEntry_silent hturn harmed (recoversOnT3_mono Finset.sdiff_subset ht3)]
      rfl
    · rfl

theorem servePeer_silent (flags : EvtFlags) (take : Takes) (hrcved : l.p.umState.rcved = false)
    (h : l.p.umState.sent = true ∨ sendOpportunity l.s = false ∧ l.p.replyTmr.armed = true ∧
      recoversOnT3 l flags = false) : (servePeer l flags take).sent = [] := by
  have hstage : uResponseStage l flags take.uResponse = (l, none, flags) := by
    rw [uResponseStage, if_neg (by rw [hrcved]; exact Bool.false_ne_true)]
  simp only [servePeer, hstage, Option.toList_none, List.nil_append]
  exact dispatchTx_silent h

/-- A pass that serves a U command and keeps the turn: no U response goes with it, and no turn
is taken that the primary does not have. -/
structure Link.ServesTurn (l : Link) (timedOut : Bool) (take : Takes) (out : Bool) : Prop where
  rcved : out = true ∨ emitsUCommand l timedOut take.uCommand = true → l.p.umState.rcved = false
  presets : out = true → presetsF l = false

theorem emitsUCommand_turn {timedOut : Bool} {take : Option Frame} (hl : l.s.isTwaPrimary = true)
    (hturn : l.s.pfState.fRcved = false) (hpreset : presetsF l = false) :
    emitsUCommand l timedOut take = false := by
  have hopp : sendOpportunity (retryUCommand l timedOut).s = false := by
    rw [sendOpportunity_twaPrimary (s := (retryUCommand l timedOut).s) hl]
    change (l.s.pfState.fRcved || presetsF l) = false
    rw [hturn, hpreset, Bool.or_false]
  rw [emitsUCommand, hopp, Bool.and_false, Bool.false_and]

/-- What the section for U commands leaves if it keeps its command back. -/
theorem serveRequest_silent {flags : EvtFlags} {timedOut : Bool} {take : Takes}
    (hl : l.s.isTwaPrimary = true) (hk : l.ServesTurn timedOut take true)
    (h : l.Paired polled tested owed) (hout : (polled || tested) = true)
    (hc : l.ServesCycle flags timedOut take true) : (serveRequest l flags timedOut take).sent = [] := by
  have hturn : l.s.pfState.fRcved = false :=
    (Bool.or_eq_true_iff.mp hout).elim (fun hp => (h.polled hp).1) fun ht => (h.tested ht).1
  have hno : emitsUCommand l timedOut take.uCommand = false :=
    emitsUCommand_turn hl hturn (hk.presets rfl)
  have hex : exhaustsUCommand l timedOut = false :=
    Bool.eq_false_iff.mpr fun hex => Bool.false_ne_true (hc.exhausts hex).1.symm
  have hnone : (sendUCommand l timedOut take.uCommand).sent = none := by
    rcases sendUCommand_emits l timedOut take.uCommand with ⟨hemit, -⟩ | ⟨-, hnone⟩
    · exact absurd (hno.symm.trans hemit) Bool.false_ne_true
    · exact hnone
  obtain ⟨l₁, hl₁⟩ : ∃ l₁, (sendUCommand l timedOut take.uCommand).link = l₁ := ⟨_, rfl⟩
  have hsame : l₁.p.umState = l.p.umState ∧ l₁.p.replyTmr = l.p.replyTmr ∧ l.SameT3 l₁ ∧
      sendOpportunity l₁.s = false := by
    rcases sendUCommand_idle hno hex with h | h <;> rw [← hl₁, h]
    · refine ⟨rfl, rfl, ⟨rfl, rfl, rfl⟩, ?_⟩
      rw [sendOpportunity_twaPrimary hl, hturn]
    · refine ⟨rfl, rfl, ⟨rfl, rfl, rfl⟩, ?_⟩
      rw [sendOpportunity_twaPrimary (s := (retryUCommand l timedOut).s) hl]
      change (l.s.pfState.fRcved || presetsF l) = false
      rw [hturn, hk.presets rfl, Bool.or_false]
  obtain ⟨hum, htmr, ht3, hopp⟩ := hsame
  simp only [serveRequest]
  split
  · rfl
  · rfl
  · rfl
  · rw [hnone, hl₁, Option.toList_none, List.nil_append]
    refine servePeer_silent _ _ (by rw [hum]; exact hk.rcved (.inl rfl)) ?_
    rcases Bool.or_eq_true_iff.mp hout with hp | ht
    · refine .inr ⟨hopp, by rw [htmr]; exact (h.polled hp).2, ?_⟩
      rw [ht3.recoversOnT3]
      exact hc.recovers rfl
    · exact .inl (by rw [hum]; exact (h.tested ht).2)

/-- The frames of a pass that serves a U command. -/
theorem serveRequest_last {flags : EvtFlags} {timedOut : Bool} {take : Takes} (hr : l.UmReady)
    (haddr : l.s.addr.toUInt8 ≠ l.p.addr.toUInt8)
    (hk : emitsUCommand l timedOut take.uCommand = true → l.p.umState.rcved = false) :
    (∀ fp ∈ (serveRequest l flags timedOut take).sent, l.peerPF fp = false) ∨
      ∃ fp, (serveRequest l flags timedOut take).sent = [fp] := by
  rcases sendUCommand_emits l timedOut take.uCommand with ⟨hemit, fp, hsend⟩ | ⟨-, hnone⟩
  · refine .inr ⟨fp, ?_⟩
    have hsilent := servePeer_silent flags take
      (l := uCommandSent (retryUCommand l timedOut)) ?_ (.inl ?_)
    · simp only [serveRequest, hsend, hsilent]
      rfl
    all_goals
      obtain ⟨t3, delay, heq⟩ := uCommandSent_eq (retryUCommand l timedOut)
      rw [heq]
    exact hk hemit
  · refine .inl fun fp hfp => ?_
    simp only [serveRequest] at hfp
    split at hfp
    · cases hfp
    · cases hfp
    · cases hfp
    · rw [hnone, Option.toList_none, List.nil_append] at hfp
      have hinh := sendUCommand_inherits l timedOut take.uCommand
      rw [← hinh.peerPF]
      exact servePeer_peerPF _ _ (hr.inherits hinh) (by rwa [hinh.sAddr, hinh.pAddr]) fp hfp

end Pass

instance {l : Link} {timedOut : Bool} {take : Takes} {out : Bool} :
    Decidable (l.ServesTurn timedOut take out) :=
  decidable_of_iff
    ((out = true ∨ emitsUCommand l timedOut take.uCommand = true → l.p.umState.rcved = false) ∧
      (out = true → presetsF l = false))
    ⟨fun ⟨hrcved, hpresets⟩ => ⟨hrcved, hpresets⟩, fun ⟨hrcved, hpresets⟩ => ⟨hrcved, hpresets⟩⟩

namespace WithPolls

variable {n : Nat}

/-- Whether an action takes no turn but its own. -/
def keepsTurn (g : WithPolls n) : Action n → Bool
  | .txEntry take => match g.node.pc with
    | .sched (.idle flags) =>
      if uCommandDue g.link flags then
        requestsOtherPeer g.link flags ||
          g.link.ServesTurn (decide (.cRplytmo ∈ flags)) take g.out
      else !(g.out && g.link.p.umState.rcved)
    | _ => true
  | .txSwitched take => match g.node.pc with
    | .switched _ timedOut => g.link.ServesTurn timedOut take g.out
    | _ => true
  | _ => true

/-- The cycles are kept, and by a primary that takes turns its turn as well. -/
structure KeepsTurn (g : WithPolls n) (a : Action n) : Prop extends g.KeepsCycles a where
  turn : g.node.s.isTwaPrimary = true → g.keepsTurn a = true

instance {g : WithPolls n} {a : Action n} : Decidable (g.KeepsTurn a) :=
  decidable_of_iff (g.KeepsCycles a ∧ (g.node.s.isTwaPrimary = true → g.keepsTurn a = true))
    ⟨fun ⟨hk, hturn⟩ => ⟨hk, hturn⟩, fun h => ⟨h.toKeepsCycles, h.turn⟩⟩

/-- What the frames of an action have to respect: a P that is out silences the station, and a
frame that polls is the last. -/
structure Alternates (g : WithPolls n) (sent : List Frame) : Prop where
  silent : ∀ i, (g.polled i || g.tested i) = true → sent = []
  last : ∀ before fp behind, sent = before ++ fp :: behind → g.link.peerPF fp = true → behind = []

section Step

variable {g : WithPolls n} {nd' : Node n} {a : Action n} {sent : List Frame} {i : Fin n}

theorem Paired.stays (hg : g.Paired) (hout : (g.polled i || g.tested i) = true) :
    i = g.node.cPeer := by
  by_contra hi
  obtain ⟨hp, ht⟩ := hg.others i hi
  rw [hp, ht] at hout
  cases hout

theorem alternates_nil : g.Alternates [] :=
  ⟨fun _ _ => rfl, fun before _ _ h => absurd h.symm (by simp)⟩

/-- It is enough to look at the current peer. -/
theorem Paired.alternates (hg : g.Paired) (hsilent : g.out = true → sent = [])
    (hlast : (∀ fp ∈ sent, g.link.peerPF fp = false) ∨ sent.length ≤ 1) : g.Alternates sent := by
  refine ⟨fun i hout => ?_, fun before fp behind hsent hpf => ?_⟩
  · obtain rfl := hg.stays hout
    exact hsilent hout
  · rcases hlast with hno | hone
    · have hfp : fp ∈ sent := by simp [hsent]
      exact absurd ((hno fp hfp).symm.trans hpf) Bool.false_ne_true
    · rw [hsent, List.length_append, List.length_cons] at hone
      exact List.length_eq_zero_iff.mp (by omega)

theorem Paired.turn (hg : g.Paired) (htwa : g.node.s.isTwaPrimary = true) (hout : g.out = true) :
    sendOpportunity g.link.s = false := by
  rw [sendOpportunity_twaPrimary (s := g.link.s) htwa]
  exact (Bool.or_eq_true_iff.mp hout).elim (fun hp => (hg.current.polled hp).1)
    fun ht => (hg.current.tested ht).1

theorem request_alternates {flags : EvtFlags} {timedOut : Bool} {take : Takes} (hg : g.Paired)
    (htwa : g.node.s.isTwaPrimary = true) (hready : g.node.UmReady)
    (haddr : g.link.s.addr.toUInt8 ≠ g.link.p.addr.toUInt8)
    (hc : g.link.ServesCycle flags timedOut take g.out)
    (hk : g.link.ServesTurn timedOut take g.out) :
    g.Alternates (serveRequest g.link flags timedOut take).sent := by
  refine hg.alternates (fun hout => ?_) ?_
  · rw [hout] at hc hk
    exact serveRequest_silent htwa hk hg.current hout hc
  · refine (serveRequest_last (hready g.node.cPeer) haddr fun hemit => hk.rcved (.inr hemit)).imp_right ?_
    rintro ⟨fp, hsent⟩
    exact (congrArg List.length hsent).le

theorem txEntry_alternates {flags : EvtFlags} {take : Takes} (hg : g.Paired)
    (htwa : g.node.s.isTwaPrimary = true) (hready : g.node.UmReady)
    (hpc : g.node.pc = .sched (.idle flags)) (hk : g.KeepsTurn (.txEntry take)) :
    g.Alternates (g.node.txEntry flags take).2 := by
  have hcycle := hk.cycle
  have hturn := hk.turn htwa
  simp only [keepsCycle, keepsTurn, hpc] at hcycle hturn
  simp only [Node.txEntry]
  split
  next hdue =>
    rw [if_pos (show uCommandDue g.link flags = true from hdue)] at hcycle hturn
    split
    · exact alternates_nil
    next hother =>
      have hother : requestsOtherPeer g.link flags = false := Bool.eq_false_iff.mpr hother
      rw [hother, if_neg Bool.false_ne_true, decide_eq_true_eq] at hcycle
      rw [hother, Bool.false_or, decide_eq_true_eq] at hturn
      exact request_alternates hg htwa hready hk.addr hcycle hturn
  next hdue =>
    rw [if_neg (show ¬uCommandDue g.link flags = true from hdue)] at hcycle hturn
    refine hg.alternates (fun hout => ?_)
      (.inl (servePeer_peerPF (l := g.link) _ _ (hready g.node.cPeer) hk.addr))
    rw [hout, Bool.true_and, Bool.not_eq_true'] at hturn
    rw [hout, Bool.true_and, Bool.not_eq_true', Bool.or_eq_false_iff] at hcycle
    refine servePeer_silent _ _ hturn ?_
    rcases Bool.or_eq_true_iff.mp hout with hp | ht
    · exact .inr ⟨hg.turn htwa hout, (hg.current.polled hp).2, hcycle.2⟩
    · exact .inl (hg.current.tested ht).2

theorem connectedTx_alternates {t : TxStep} (hg : g.Paired) (htwa : g.node.s.isTwaPrimary = true)
    (h : t.sent ≠ none → sendOpportunity g.link.s = true) : g.Alternates t.sent.toList := by
  refine hg.alternates (fun hout => ?_) (.inr ?_)
  · have hnone : t.sent = none := by
      by_contra hsent
      exact Bool.false_ne_true ((hg.turn htwa hout).symm.trans (h hsent))
    rw [hnone, Option.toList_none]
  · cases t.sent <;> simp

theorem act_alternates (hready : g.node.UmReady) (hg : g.Paired)
    (htwa : g.node.s.isTwaPrimary = true) (hk : g.KeepsTurn a)
    (hact : g.node.act a = some (nd', sent)) : g.Alternates sent := by
  cases a with
  | txEntry take =>
    simp only [Node.act] at hact
    split at hact
    next flags hpc =>
      split at hact
      · have hentry := txEntry_alternates hg htwa hready hpc hk
        rw [Option.some.inj hact] at hentry
        exact hentry
      · cases hact
    · cases hact
  | txSwitched take =>
    simp only [Node.act] at hact
    split at hact
    next flags timedOut hpc =>
      have hcycle := hk.cycle
      have hturn := hk.turn htwa
      simp only [keepsCycle, keepsTurn, hpc, decide_eq_true_eq] at hcycle hturn
      have hsent := request_alternates hg htwa hready hk.addr hcycle hturn
      cases hact
      exact hsent
    · cases hact
  | txIFrame =>
    simp only [Node.act] at hact
    split at hact
    next flags iSent hpc =>
      cases hact
      refine connectedTx_alternates hg htwa fun hsent => ?_
      rcases connectedTxIFrame_ends g.link flags iSent with ⟨-, hnone⟩ | ⟨-, -, -, hopp, -⟩
      · exact absurd hnone hsent
      · exact hopp
    · cases hact
  | txSFrame take =>
    simp only [Node.act] at hact
    split at hact
    next flags iSent hpc =>
      cases hact
      refine connectedTx_alternates hg htwa fun hsent => ?_
      change (chooseSFrame (getAndClearFlags g.link flags).1 iSent take).2 ≠ none at hsent
      cases chooseSFrame_chooses (getAndClearFlags g.link flags).1 iSent take with
      | nothing hnone => exact absurd (by rw [hnone]) hsent
      | frame stale sFun rejpend busy hfun hopp hsome => exact hopp
    · cases hact
  | txFetch =>
    simp only [Node.act] at hact
    split at hact
    · split at hact
      · cases hact
        exact alternates_nil
      · cases hact
    · cases hact
  | txAdvance | txCheck =>
    simp only [Node.act] at hact
    split at hact
    · cases hact
      exact alternates_nil
    · cases hact
  | receive | lineIdle | linkUp | linkUpDone | linkUpFails | linkDown | peer | poolState
  | poolChange =>
    obtain rfl := (Node.act_of_not_isTx rfl hact).2.2
    exact alternates_nil

end Step

variable {g : WithPolls n}

/-- A primary with two secondaries right after set-up, with no cycle under way. -/
def twoPeers (flags : StationFlags) : WithPolls 2 :=
  let s := initialStation .ndm flags (.mod8 0 Framing.zero_le_two) 2 true 100 200 1
  { node :=
      { s := s
        peer := fun i => initialPeer s 128 8 (if i = 0 then 2 else 3)
        cPeer := 0
        pc := .sched (.idle ∅)
        writer := fun _ => .idle
        linkUps := [] }
    polled := fun _ => false
    tested := fun _ => false
    owed := fun _ => 0 }

theorem fresh_twoPeers (flags : StationFlags) : (twoPeers flags).Fresh :=
  ⟨{ station := ⟨.ndm, flags, _, _, _, _, _, _, .inl rfl, rfl⟩
     peer := fun _ => ⟨_, _, _, rfl⟩
     pc := rfl
     writer := fun _ => rfl
     linkUps := rfl }, fun _ => ⟨rfl, rfl, rfl⟩⟩

end WithPolls

end IoHdlc
