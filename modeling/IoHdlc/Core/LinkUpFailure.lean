import IoHdlc.Core.LinkUpCalls

/-!
What a LinkUp that fails leaves behind.

The role flag is set before the port is asked, the saved mode is zero if the station was not
disconnected, and nothing takes the command back that a call gives up to wait for.
-/

namespace IoHdlc

theorem linkUpStart_waits {l : Link} {mode sMode : Mode} {nrmOnly : Bool}
    (h : (linkUpStart l mode nrmOnly).2 = .waits sMode) :
    (linkUpStart l mode nrmOnly).1.s.flags.pri = true ∧
      sMode = if l.s.mode = .ndm ∨ l.s.mode = .adm then l.s.mode else .unset := by
  generalize hr : linkUpStart l mode nrmOnly = r at h ⊢
  simp only [linkUpStart] at hr
  split at hr
  · subst hr
    cases h
  split at hr
  · subst hr
    cases h
  next hmay =>
    split at hr
    · subst hr
      cases h
    split at hr
    · subst hr
      cases h
    · subst hr
      cases h
      constructor
      · rw [not_and, not_not, Bool.not_eq_true'] at hmay
        change (l.s.flags.pri || decide (mode = .abm)) = true
        cases hpri : l.s.flags.pri with
        | true => rfl
        | false => rw [hmay hpri, decide_eq_true rfl, Bool.or_true]
      · change (if l.s.isDisc = true then l.s.mode else .unset) = _
        have hdisc : l.s.isDisc = true ↔ l.s.mode = .ndm ∨ l.s.mode = .adm := by
          simp [Station.isDisc]
        simp only [hdisc]

namespace WithCalls

variable {n : Nat} {g g' : WithCalls n} {a : CallAction n} {c c' : UpCall n}

/-- A step of a call is one of its node, or changes the call alone. -/
theorem next_node (h : g.next a = some g') :
    g'.node = g.node ∨ ∃ b sent, g.node.act b = some (g'.node, sent) := by
  cases a with
  | node a =>
    simp only [next] at h
    split at h
    · cases h
    obtain ⟨⟨nd', sent⟩, hact, rfl⟩ := Option.map_eq_some_iff.mp h
    exact .inr ⟨a, sent, hact⟩
  | start i mode nrmOnly =>
    simp only [next] at h
    obtain ⟨⟨nd', sent⟩, hact, rfl⟩ := Option.map_eq_some_iff.mp h
    refine .inr ⟨_, sent, hact.trans ?_⟩
    split <;> rfl
  | fetch id =>
    obtain ⟨c, -, h⟩ := Option.bind_eq_some_iff.mp h
    split at h
    · cases h
      exact .inl rfl
    · cases h
  | testUp id =>
    obtain ⟨c, -, h⟩ := Option.bind_eq_some_iff.mp h
    split at h
    · split at h
      · obtain ⟨⟨nd', sent⟩, hact, rfl⟩ := Option.map_eq_some_iff.mp h
        exact .inr ⟨_, sent, hact⟩
      · cases h
        exact .inl rfl
    · cases h
  | testRefused id =>
    obtain ⟨c, -, h⟩ := Option.bind_eq_some_iff.mp h
    split at h
    · split at h
      · obtain ⟨⟨nd', sent⟩, hact, rfl⟩ := Option.map_eq_some_iff.mp h
        exact .inr ⟨_, sent, hact⟩
      · cases h
        exact .inl rfl
    · cases h
  | timeout id =>
    obtain ⟨c, -, h⟩ := Option.bind_eq_some_iff.mp h
    split at h
    · obtain ⟨⟨nd', sent⟩, hact, rfl⟩ := Option.map_eq_some_iff.mp h
      exact .inr ⟨_, sent, hact⟩
    · cases h

/-- A primary stays one. -/
theorem next_pri (h : g.next a = some g') (hpri : g.node.s.flags.pri = true) :
    g'.node.s.flags.pri = true := by
  rcases next_node h with heq | ⟨b, sent, hact⟩
  · rwa [heq]
  · exact (Node.act_tells hact g.node.cPeer g.node.cPeer).pri hpri

/-- A call that waits was there before, or begins. -/
theorem next_calls (h : g.next a = some g') (hc : c' ∈ g'.calls) :
    (∃ c ∈ g.calls, c'.call = c.call ∧ c'.before = c.before) ∨
      ∃ i mode nrmOnly sMode, (linkUpStart (g.node.link i) mode nrmOnly).2 = .waits sMode ∧
        g'.node.s = (linkUpStart (g.node.link i) mode nrmOnly).1.s ∧ c' = g.opened i sMode := by
  have hset {c : UpCall n} {pc : UpPc} {listener : Finset AppEvt} (hold : c ∈ g.calls)
      (hnew : c' ∈ (g.setCall { c with pc := pc, listener := listener }).calls) :
      ∃ c ∈ g.calls, c'.call = c.call ∧ c'.before = c.before := by
    rcases setCall_mem hnew with rfl | hsame
    · exact ⟨c, hold, rfl, rfl⟩
    · exact ⟨c', hsame, rfl, rfl⟩
  cases a with
  | node a =>
    simp only [next] at h
    split at h
    · cases h
    obtain ⟨⟨nd', sent⟩, hact, rfl⟩ := Option.map_eq_some_iff.mp h
    obtain ⟨c, hold, rfl⟩ := List.mem_map.mp hc
    exact .inl ⟨c, hold, rfl, rfl⟩
  | start i mode nrmOnly =>
    simp only [next] at h
    obtain ⟨⟨nd', sent⟩, hact, rfl⟩ := Option.map_eq_some_iff.mp h
    split at hc
    · exact .inl ⟨c', hc, rfl, rfl⟩
    next sMode hwait =>
      rcases List.mem_cons.mp hc with rfl | hc
      · refine .inr ⟨i, mode, nrmOnly, sMode, hwait, ?_, rfl⟩
        cases hact
        split <;> rfl
      · exact .inl ⟨c', hc, rfl, rfl⟩
  | fetch id =>
    obtain ⟨c, hfind, h⟩ := Option.bind_eq_some_iff.mp h
    split at h
    · cases h
      exact .inl (hset (find_mem hfind).1 hc)
    · cases h
  | testUp id =>
    obtain ⟨c, hfind, h⟩ := Option.bind_eq_some_iff.mp h
    split at h
    · split at h
      · obtain ⟨⟨nd', sent⟩, hact, rfl⟩ := Option.map_eq_some_iff.mp h
        exact .inl ⟨c', endCall_mem hc, rfl, rfl⟩
      · cases h
        exact .inl (hset (find_mem hfind).1 hc)
    · cases h
  | testRefused id =>
    obtain ⟨c, hfind, h⟩ := Option.bind_eq_some_iff.mp h
    split at h
    · split at h
      · obtain ⟨⟨nd', sent⟩, hact, rfl⟩ := Option.map_eq_some_iff.mp h
        exact .inl ⟨c', endCall_mem hc, rfl, rfl⟩
      · cases h
        exact .inl (hset (find_mem hfind).1 hc)
    · cases h
  | timeout id =>
    obtain ⟨c, hfind, h⟩ := Option.bind_eq_some_iff.mp h
    split at h
    · obtain ⟨⟨nd', sent⟩, hact, rfl⟩ := Option.map_eq_some_iff.mp h
      exact .inl ⟨c', endCall_mem hc, rfl, rfl⟩
    · cases h

/-- The calls have begun in order, and the station is a primary since. -/
structure Begun (g : WithCalls n) : Prop where
  owner : ∀ i id, g.owner i = some id → id < g.nextId
  pri : g.calls ≠ [] → g.node.s.flags.pri = true
  sMode : ∀ c ∈ g.calls, c.call.sMode =
    if c.before.mode = .ndm ∨ c.before.mode = .adm then c.before.mode else .unset

theorem begun_fresh (h : g.Fresh) : g.Begun where
  owner i id hid := by
    rw [h.owner i] at hid
    cases hid
  pri hne := absurd h.calls hne
  sMode c hc := by
    rw [h.calls] at hc
    cases hc

theorem next_owner (hg : ∀ i id, g.owner i = some id → id < g.nextId) (h : g.next a = some g') :
    ∀ i id, g'.owner i = some id → id < g'.nextId := by
  cases a with
  | node a =>
    simp only [next] at h
    split at h
    · cases h
    obtain ⟨r, -, rfl⟩ := Option.map_eq_some_iff.mp h
    intro i id hid
    simp only [observed] at hid
    split at hid
    · exact hg i id hid
    · cases hid
  | start i mode nrmOnly =>
    simp only [next] at h
    obtain ⟨r, -, rfl⟩ := Option.map_eq_some_iff.mp h
    intro j id hid
    split at hid
    · exact hg j id hid
    · dsimp only at hid ⊢
      by_cases hj : j = i
      · subst hj
        rw [Function.update_self] at hid
        cases hid
        exact Nat.lt_succ_self _
      · rw [Function.update_of_ne hj] at hid
        exact Nat.lt_succ_of_lt (hg j id hid)
  | fetch id =>
    obtain ⟨c, -, h⟩ := Option.bind_eq_some_iff.mp h
    split at h
    · cases h
      exact hg
    · cases h
  | testUp id =>
    obtain ⟨c, -, h⟩ := Option.bind_eq_some_iff.mp h
    split at h
    · split at h
      · obtain ⟨r, -, rfl⟩ := Option.map_eq_some_iff.mp h
        exact hg
      · cases h
        exact hg
    · cases h
  | testRefused id =>
    obtain ⟨c, -, h⟩ := Option.bind_eq_some_iff.mp h
    split at h
    · split at h
      · obtain ⟨r, -, rfl⟩ := Option.map_eq_some_iff.mp h
        exact hg
      · cases h
        exact hg
    · cases h
  | timeout id =>
    obtain ⟨c, -, h⟩ := Option.bind_eq_some_iff.mp h
    split at h
    · obtain ⟨r, -, rfl⟩ := Option.map_eq_some_iff.mp h
      exact hg
    · cases h

theorem begun_step (hg : g.Begun) (h : g.next a = some g') : g'.Begun where
  owner := next_owner hg.owner h
  pri hne := by
    obtain ⟨c', hc'⟩ := List.exists_mem_of_ne_nil _ hne
    rcases next_calls h hc' with ⟨c, hc, -⟩ | ⟨i, mode, nrmOnly, sMode, hwait, hs, -⟩
    · exact next_pri h (hg.pri (List.ne_nil_of_mem hc))
    · rw [hs]
      exact (linkUpStart_waits hwait).1
  sMode c' hc' := by
    rcases next_calls h hc' with ⟨c, hc, hcall, hbefore⟩ | ⟨i, mode, nrmOnly, sMode, hwait, -, rfl⟩
    · rw [hcall, hbefore]
      exact hg.sMode c hc
    · exact (linkUpStart_waits hwait).2

/-! ### The trace of a failure -/

/-- Whether some peer is connected. -/
def AnyConnected (g : WithCalls n) : Prop := ∃ i, (g.node.peer i).ssState.stConn = true

/-- The roles that the connected peers imply, with the role flag as it was in NRM. -/
def Implied (g : WithCalls n) (before : Roles) : Prop :=
  g.AnyConnected ∧
    (g.node.s.roles = ⟨.abm, true, some .ioHdlcAbmRx⟩ ∨
      g.node.s.roles = ⟨.nrm, before.pri, some .ioHdlcNrmRx⟩)

/-- A call that failed left the roles as they were or as the peers imply, has no command in its
peer, and did nothing to another one. -/
structure NoTrace (g g' : WithCalls n) (c : UpCall n) : Prop where
  roles : g'.node.s.roles = c.before ∨ g'.Implied c.before
  command : g'.owner c.call.peer ≠ some c.id
  others : ∀ j, j ≠ c.call.peer → g'.node.peer j = g.node.peer j

/-- The failures without a trace. -/
def LeavesNoTrace (g : WithCalls n) (c : UpCall n) : Errno → Prop
  | .ENOTSUP =>
    c.before.pri = true ∨
      g.AnyConnected ∧ c.before.mode = .abm ∧ c.before.rxFn = some .ioHdlcAbmRx
  | .ECONNREFUSED | .ETIMEDOUT =>
    (c.before.mode = .ndm ∨ c.before.mode = .adm ∨ c.before.mode = .unset) ∧
      c.before.pri = true ∧ g.node.s.rxFn = c.before.rxFn ∧ g.owner c.call.peer ≠ some c.id
  | _ => True

/-- A call that gives up restores the mode that it saved. -/
theorem noTrace_gives_up {id : Nat} {nd' : Node n} {sent : List Frame} (hg : g.Begun)
    (hc : c ∈ g.calls)
    (hact : g.node.act (.linkUpFails c.call) = some (nd', sent)) :
    NoTrace g (g.endCall id nd') c ↔
      (c.before.mode = .ndm ∨ c.before.mode = .adm ∨ c.before.mode = .unset) ∧
        c.before.pri = true ∧ g.node.s.rxFn = c.before.rxFn ∧ g.owner c.call.peer ≠ some c.id := by
  have hroles : nd'.s.roles = ⟨c.call.sMode, true, g.node.s.rxFn⟩ := by
    rw [← hg.pri (List.ne_nil_of_mem hc)]
    simp only [Node.act] at hact
    split at hact
    · cases hact
      rfl
    · cases hact
  have hmode := hg.sMode c hc
  have himplied : ¬(g.endCall id nd').Implied c.before := by
    rintro ⟨-, himp⟩
    change nd'.s.roles = _ ∨ nd'.s.roles = _ at himp
    rw [hroles, Roles.mk.injEq, Roles.mk.injEq, hmode] at himp
    by_cases hdisc : c.before.mode = .ndm ∨ c.before.mode = .adm
    · rw [if_pos hdisc] at himp
      rcases hdisc with h | h
      · simp [h] at himp
      · simp [h] at himp
    · simp [if_neg hdisc] at himp
  have hsaved : c.call.sMode = c.before.mode ↔
      c.before.mode = .ndm ∨ c.before.mode = .adm ∨ c.before.mode = .unset := by
    rw [hmode]
    by_cases hdisc : c.before.mode = .ndm ∨ c.before.mode = .adm
    · rw [if_pos hdisc, ← or_assoc]
      exact iff_of_true rfl (.inl hdisc)
    · rw [if_neg hdisc, ← or_assoc, or_iff_right hdisc]
      exact eq_comm
  constructor
  · rintro ⟨hr, hcmd, -⟩
    have hr := hr.resolve_right himplied
    have hbefore : (⟨c.call.sMode, true, g.node.s.rxFn⟩ : Roles) = c.before := hroles.symm.trans hr
    refine ⟨hsaved.mp (congrArg Roles.mode hbefore), (congrArg Roles.pri hbefore).symm,
      congrArg Roles.rxFn hbefore, hcmd⟩
  · rintro ⟨hsave, hpri, hrx, hcmd⟩
    refine ⟨.inl (hroles.trans ?_), hcmd, fun j _ => ?_⟩
    · rw [hsaved.mpr hsave, ← hpri, hrx]
    · exact congrFun (return_peer (.inr rfl) hact) j

/-- What a failure leaves, by its error. -/
theorem noTrace_iff (hrun : Kit.Reachable Fresh (Moves Anything) g) {e : Errno}
    (hret : g.returned a = some (.error e, c)) (hnext : g.next a = some g') :
    NoTrace g g' c ↔ g.LeavesNoTrace c e := by
  have hg : g.Begun := hrun.invariant Begun (fun _ => begun_fresh)
    fun _ _ hg hmove => by
      obtain ⟨b, -, hb⟩ := hmove
      exact begun_step hg hb
  cases a with
  | node a => cases hret
  | fetch id => cases hret
  | start i mode nrmOnly =>
    simp only [returned] at hret
    split at hret
    next result hwhy =>
      simp only [next] at hnext
      obtain ⟨⟨nd', sent⟩, hact, rfl⟩ := Option.map_eq_some_iff.mp hnext
      rw [hwhy]
      obtain ⟨rfl, rfl⟩ := Prod.mk.inj (Option.some.inj hret)
      have hnd : nd' = g.node.setLink i (linkUpStart (g.node.link i) mode nrmOnly).1 := by
        simp only [Node.act, hwhy, Option.some.injEq, Prod.mk.injEq] at hact
        exact hact.1.symm
      have hothers (j : Fin n) (hj : j ≠ i) : nd'.peer j = g.node.peer j := by
        rw [hnd, Node.setLink_peer_of_ne _ _ hj]
      have hcmd : g.owner i ≠ some g.nextId := fun h => Nat.lt_irrefl _ (hg.owner i _ h)
      have hkept (hl : (linkUpStart (g.node.link i) mode nrmOnly).1 = g.node.link i) :
          NoTrace g { g with node := nd' } (g.opened i .unset) := by
        refine ⟨.inl ?_, hcmd, hothers⟩
        rw [hnd, hl]
        rfl
      rcases linkUpStart_returns hwhy with
        ⟨hres, -, hl⟩ | ⟨hres, -⟩ | ⟨hres, hl⟩ | ⟨hres, hl⟩
      · cases hres
        exact iff_of_true (hkept hl) trivial
      · cases hres
      · cases hres
        have hroles : nd'.s.roles = ⟨g.node.s.mode, true, g.node.s.rxFn⟩ := by
          rw [hnd, hl]
          rfl
        have hpeer (j : Fin n) : (nd'.peer j).ssState.stConn = (g.node.peer j).ssState.stConn :=
          (start_stConn hact).1 j
        constructor
        · rintro ⟨hr, -, -⟩
          rcases hr with hr | ⟨⟨j, hj⟩, hr⟩
          · exact .inl (congrArg Roles.pri (hroles.symm.trans hr)).symm
          · rcases hr with hr | hr
            · have habm := hroles.symm.trans hr
              exact .inr ⟨⟨j, (hpeer j).symm.trans hj⟩, congrArg Roles.mode habm,
                congrArg Roles.rxFn habm⟩
            · exact .inl (congrArg Roles.pri (hroles.symm.trans hr)).symm
        · rintro (hpri | ⟨⟨j, hj⟩, hmode, hrx⟩)
          · refine ⟨.inl (hroles.trans ?_), hcmd, hothers⟩
            change _ = (⟨g.node.s.mode, g.node.s.flags.pri, g.node.s.rxFn⟩ : Roles)
            rw [show g.node.s.flags.pri = true from hpri]
          · refine ⟨.inr ⟨⟨j, (hpeer j).trans hj⟩, .inl (hroles.trans ?_)⟩, hcmd, hothers⟩
            rw [show g.node.s.mode = .abm from hmode,
              show g.node.s.rxFn = some .ioHdlcAbmRx from hrx]
      · cases hres
        exact iff_of_true (hkept hl) trivial
    · cases hret
  | testUp id =>
    obtain ⟨c', hfind, hret⟩ := Option.bind_eq_some_iff.mp hret
    split at hret
    · split at hret
      · cases hret
      · cases hret
    · cases hret
  | testRefused id =>
    obtain ⟨c', hfind, hret⟩ := Option.bind_eq_some_iff.mp hret
    obtain ⟨hc, -⟩ := find_mem hfind
    split at hret
    next hpc =>
      split at hret
      next hdisc =>
        cases hret
        simp only [next, hfind, Option.bind_some, hpc, hdisc, if_true, Option.map_eq_some_iff]
          at hnext
        obtain ⟨⟨nd', sent⟩, hact, rfl⟩ := hnext
        exact noTrace_gives_up hg hc hact
      · cases hret
    · cases hret
  | timeout id =>
    obtain ⟨c', hfind, hret⟩ := Option.bind_eq_some_iff.mp hret
    obtain ⟨hc, -⟩ := find_mem hfind
    split at hret
    next hpc =>
      cases hret
      simp only [next, hfind, Option.bind_some, hpc, Option.map_eq_some_iff] at hnext
      obtain ⟨⟨nd', sent⟩, hact, rfl⟩ := hnext
      exact noTrace_gives_up hg hc hact
    · cases hret

/-- Whether an action ends a call with an error, and `p` holds of the call and of what is behind. -/
def failsWith (g : WithCalls n) (a : CallAction n) (error : Errno)
    (p : UpCall n → WithCalls n → Bool) : Bool :=
  match g.returned a, g.next a with
  | some (.error e, c), some g' => decide (e = error) && p c g'
  | _, _ => false

theorem exists_of_failsWith {g : WithCalls n} {a : CallAction n} {error : Errno}
    {p : UpCall n → WithCalls n → Bool} (h : g.failsWith a error p = true) :
    ∃ c g', g.returned a = some (.error error, c) ∧ g.next a = some g' ∧ p c g' = true := by
  rw [failsWith] at h
  split at h
  next e c g' hret hnext =>
    rw [Bool.and_eq_true, decide_eq_true_eq] at h
    obtain ⟨rfl, hp⟩ := h
    exact ⟨c, g', hret, hnext, hp⟩
  · cases h

/-- A LinkUp in NRM that is refused leaves a primary as it was. -/
theorem noTrace_iff_refused :
    ∃ (g g' : WithCalls 2) (c : UpCall 2),
      g.returned (.testRefused 0) = some (.error .ECONNREFUSED, c) ∧
        g.next (.testRefused 0) = some g' ∧ NoTrace g g' c := by
  obtain ⟨g, hrun, hp⟩ := Kit.Reachable.exists_of_run next (fun _ a _ h => ⟨a, trivial, h⟩)
    (.start (fresh_twoPeers .ndm (.inl rfl) { pri := true }) :
      Kit.Reachable Fresh (Moves Anything) _)
    [.start 0 .nrm false, .node .txFetch, .node (.txEntry { uCommand := some default }),
      .node (.receive (Node.shortFrame 2 0x1F)), .fetch 0, .testUp 0]
    (fun g => g.failsWith (.testRefused 0) .ECONNREFUSED fun c _ =>
      decide (c.before.mode = .ndm) && c.before.pri && decide (g.node.s.rxFn = c.before.rxFn) &&
        decide (g.owner c.call.peer ≠ some c.id)) (by decide +kernel)
  obtain ⟨c, g', hret, hnext, hc⟩ := exists_of_failsWith hp
  simp only [Bool.and_eq_true, decide_eq_true_eq] at hc
  obtain ⟨⟨⟨hmode, hpri⟩, hrx⟩, hcmd⟩ := hc
  exact ⟨g, g', c, hret, hnext, (noTrace_iff hrun hret hnext).mpr ⟨.inl hmode, hpri, hrx, hcmd⟩⟩

/-- A port without ABM leaves a combined station with the flag of a primary. A call that times
out leaves its command in the peer. A refusal takes the mode from a peer that is connected. -/
theorem noTrace_fails :
    (¬∀ (g g' : WithCalls 2) (a : CallAction 2) (c : UpCall 2),
      Kit.Reachable Fresh (Moves Anything) g → g.returned a = some (.error .ENOTSUP, c) →
        g.next a = some g' → NoTrace g g' c) ∧
    (¬∀ (g g' : WithCalls 2) (a : CallAction 2) (c : UpCall 2),
      Kit.Reachable Fresh (Moves Anything) g → g.returned a = some (.error .ETIMEDOUT, c) →
        g.next a = some g' → NoTrace g g' c) ∧
    ¬∀ (g g' : WithCalls 2) (a : CallAction 2) (c : UpCall 2),
      Kit.Reachable Fresh (Moves Anything) g → g.returned a = some (.error .ECONNREFUSED, c) →
        g.next a = some g' → NoTrace g g' c := by
  have hstart (mode : Mode) (hmode : mode = .ndm ∨ mode = .adm) (flags : StationFlags) :
      Kit.Reachable Fresh (Moves Anything) (twoPeers mode flags) :=
    .start (fresh_twoPeers mode hmode flags)
  refine ⟨fun hclaim => ?_, fun hclaim => ?_, fun hclaim => ?_⟩
  · obtain ⟨g, hrun, hp⟩ := Kit.Reachable.exists_of_run next (fun _ a _ h => ⟨a, trivial, h⟩)
      (hstart .adm (.inr rfl) {}) []
      (fun g => g.failsWith (.start 0 .abm true) .ENOTSUP fun c g' =>
        decide (g'.node.s.roles ≠ c.before) && decide (g'.node.s.mode = .adm)) (by decide +kernel)
    obtain ⟨c, g', hret, hnext, hc⟩ := exists_of_failsWith hp
    rw [Bool.and_eq_true, decide_eq_true_eq, decide_eq_true_eq] at hc
    obtain ⟨hne, hmode⟩ := hc
    rcases (hclaim g g' _ c hrun hret hnext).roles with h | ⟨-, h⟩
    · exact hne h
    · rcases h with h | h
      · cases hmode.symm.trans (congrArg Roles.mode h)
      · cases hmode.symm.trans (congrArg Roles.mode h)
  · obtain ⟨g, hrun, hp⟩ := Kit.Reachable.exists_of_run next (fun _ a _ h => ⟨a, trivial, h⟩)
      (hstart .ndm (.inl rfl) { pri := true }) [.start 0 .nrm false]
      (fun g => g.failsWith (.timeout 0) .ETIMEDOUT fun c g' =>
        decide (g'.owner c.call.peer = some c.id)) (by decide +kernel)
    obtain ⟨c, g', hret, hnext, howner⟩ := exists_of_failsWith hp
    exact (hclaim g g' _ c hrun hret hnext).command (of_decide_eq_true howner)
  · obtain ⟨g, hrun, hp⟩ := Kit.Reachable.exists_of_run next (fun _ a _ h => ⟨a, trivial, h⟩)
      (hstart .ndm (.inl rfl) { pri := true })
      [.start 0 .nrm false, .node .txFetch, .node (.txEntry { uCommand := some default }),
        .node (.receive (Node.shortFrame 2 0x73)), .fetch 0, .testUp 0, .start 1 .nrm false,
        .node .txFetch, .node (.txEntry { uCommand := some default }),
        .node (.txSwitched { uCommand := some default }),
        .node (.receive (Node.shortFrame 3 0x1F)), .fetch 1, .testUp 1]
      (fun g => g.failsWith (.testRefused 1) .ECONNREFUSED fun c g' =>
        decide (g'.node.s.mode = .unset) && decide (c.before.mode = .nrm) &&
          (g.node.peer 0).ssState.stConn) (by decide +kernel)
    obtain ⟨c, g', hret, hnext, hc⟩ := exists_of_failsWith hp
    simp only [Bool.and_eq_true, decide_eq_true_eq] at hc
    obtain ⟨⟨hmode, hbefore⟩, -⟩ := hc
    rcases (hclaim g g' _ c hrun hret hnext).roles with h | ⟨-, h⟩
    · cases hmode.symm.trans ((congrArg Roles.mode h).trans hbefore)
    · rcases h with h | h
      · cases hmode.symm.trans (congrArg Roles.mode h)
      · cases hmode.symm.trans (congrArg Roles.mode h)

end WithCalls

end IoHdlc
