import IoHdlc.Core.ConnectionCount

/-!
The mode of the station and its receive handler against the connections.

The family of a station is the disconnected mode it was set up in or the one that
belongs to the mode it last operated in. It is not a field of the station, so a
run carries it along.
-/

namespace IoHdlc

open Kit

namespace Node

variable {n : Nat}

/-- A node with the family that its past has given it. -/
structure WithFamily (n : Nat) where
  node : Node n
  family : Mode

/-- The disconnected mode that belongs to a mode of operation. -/
def familyOf (family : Mode) : Mode → Mode
  | .nrm => .ndm
  | .abm => .adm
  | _ => family

/-- A station operates as soon as a peer is connected. -/
def operated (family : Mode) (nd : Node n) : Mode :=
  if ∃ i, (nd.peer i).ssState.stConn = true then familyOf family nd.s.mode else family

structure FreshFamily (h : WithFamily n) : Prop where
  fresh : h.node.Fresh
  family : h.family = h.node.s.mode

def FamilyMoves (ok : WithFamily n → Action n → Prop) (h h' : WithFamily n) : Prop :=
  ∃ a sent, ok h a ∧ h.node.act a = some (h'.node, sent) ∧ h'.family = operated h.family h'.node

/-- The mode is in order. -/
structure ModeInv (h : WithFamily n) : Prop where
  count : h.node.CountExact
  family : h.family = .ndm ∨ h.family = .adm
  connected : (∃ i, h.node.Connected i) →
    (h.node.s.mode = .nrm ∨ h.node.s.mode = .abm) ∧ h.node.s.rxFn = rxFnOf h.node.s.mode ∧
      h.family = closedMode h.node.s.mode
  closed : (∀ i, ¬h.node.Connected i) → h.node.linkUps = [] → h.node.s.mode = h.family

/-- What keeps the mode in order besides what keeps the count exact: a frame opens the
link only in NRM or ABM; a link is closed in NDM only while a LinkUp waits; a LinkUp
fails only while no peer is connected, and the last one restores the family. -/
def ModeRegular (h : WithFamily n) (a : Action n) : Prop :=
  h.node.CountRegular a ∧
  (h.node.closesLink a = true → h.node.s.mode = .ndm → (∀ i, ¬h.node.Connected i) →
    h.node.linkUps ≠ []) ∧
  match a with
  | .receive fp => opensLink (h.node.link h.node.cPeer) fp = true →
      openedMode (h.node.link h.node.cPeer) fp = .nrm ∨ openedMode (h.node.link h.node.cPeer) fp = .abm
  | .linkUpFails call => (∀ i, ¬h.node.Connected i) ∧
      (h.node.linkUps.erase call = [] → call.sMode = h.family)
  | _ => True

section Steps

variable {h h' : WithFamily n} {a : Action n} {nd nd' : Node n}

theorem operated_of_none {family : Mode} (hnone : ∀ i, ¬nd.Connected i) :
    operated family nd = family := by
  rw [operated, if_neg]
  rintro ⟨i, hi⟩
  exact hnone i hi

theorem operated_of_connected {family : Mode} (hconn : ∃ i, nd.Connected i)
    (hmode : nd.s.mode = .nrm ∨ nd.s.mode = .abm) :
    operated family nd = closedMode nd.s.mode := by
  rw [operated, if_pos (show ∃ i, (nd.peer i).ssState.stConn = true from hconn)]
  rcases hmode with hm | hm <;> rw [hm] <;> rfl

theorem closedMode_cases (mode : Mode) : closedMode mode = .ndm ∨ closedMode mode = .adm := by
  rw [closedMode]
  split
  · exact .inl rfl
  · exact .inr rfl

theorem ModeInv.of_connected (hcount : h'.node.CountExact) (hconn : ∃ i, h'.node.Connected i)
    (hfam : h'.family = operated h.family h'.node)
    (hmode : h'.node.s.mode = .nrm ∨ h'.node.s.mode = .abm)
    (hrx : h'.node.s.rxFn = rxFnOf h'.node.s.mode) : ModeInv h' where
  count := hcount
  family := by
    rw [hfam, operated_of_connected hconn hmode]
    exact closedMode_cases _
  connected _ := ⟨hmode, hrx, by rw [hfam, operated_of_connected hconn hmode]⟩
  closed hnone := by
    obtain ⟨i, hi⟩ := hconn
    exact absurd hi (hnone i)

theorem ModeInv.of_closed (hinv : ModeInv h) (hcount : h'.node.CountExact) (hnone : ∀ i, ¬h'.node.Connected i)
    (hfam : h'.family = operated h.family h'.node)
    (hmode : h'.node.linkUps = [] → h'.node.s.mode = h.family) : ModeInv h' where
  count := hcount
  family := by
    rw [hfam, operated_of_none hnone]
    exact hinv.family
  connected := by
    rintro ⟨i, hi⟩
    exact absurd hi (hnone i)
  closed _ hlink := by rw [hmode hlink, hfam, operated_of_none hnone]

/-- A step that keeps the connections keeps the invariant if it keeps the mode, or if
only the mode of a station without connections is touched. -/
theorem ModeInv.of_stConn (hinv : ModeInv h) (hcount : h'.node.CountExact)
    (hfam : h'.family = operated h.family h'.node)
    (hconn : ∀ i, h'.node.Connected i ↔ h.node.Connected i)
    (hmode : (∃ i, h.node.Connected i) →
      h'.node.s.mode = h.node.s.mode ∧ h'.node.s.rxFn = h.node.s.rxFn)
    (hclosed : (∀ i, ¬h.node.Connected i) → h'.node.linkUps = [] →
      h'.node.s.mode = h.family) : ModeInv h' := by
  by_cases hsome : ∃ i, h.node.Connected i
  · obtain ⟨hm, hrx, -⟩ := hinv.connected hsome
    obtain ⟨hm', hrx'⟩ := hmode hsome
    refine .of_connected hcount ?_ hfam (by rw [hm']; exact hm) (by rw [hrx', hm']; exact hrx)
    obtain ⟨i, hi⟩ := hsome
    exact ⟨i, (hconn i).mpr hi⟩
  · rw [not_exists] at hsome
    exact .of_closed hinv hcount (fun i hi => hsome i ((hconn i).mp hi)) hfam (hclosed hsome)

/-- The end of a connection. -/
theorem modeInv_closes (hinv : ModeInv h) (hcount : h'.node.CountExact)
    (hfam : h'.family = operated h.family h'.node) {c : Fin n}
    (hclose : (h.node.link c).Closes (h'.node.link c)) (rest : h.node.OnlyAt h'.node c)
    (hndm : h.node.s.mode = .ndm → (∀ i, ¬h.node.Connected i) → h.node.linkUps ≠ []) :
    ModeInv h' := by
  have hmode := hclose.mode
  have hrx := hclose.rxFn
  by_cases hsome : ∃ i, h'.node.Connected i
  · rw [link_s, link_s, if_neg (mt hcount.eq_zero_iff.mp fun hnone => hsome.elim hnone)] at hmode hrx
    obtain ⟨i, hi⟩ := hsome
    have hne : i ≠ c := by
      rintro rfl
      exact absurd (hclose.stConn.symm.trans hi) nofun
    obtain ⟨hm, hr, -⟩ := hinv.connected ⟨i, (rest.stConn i hne).symm.trans hi⟩
    exact .of_connected hcount ⟨i, hi⟩ hfam (by rw [hmode]; exact hm) (by rw [hrx, hmode]; exact hr)
  · rw [not_exists] at hsome
    rw [link_s, link_s, if_pos (hcount.eq_zero_iff.mpr hsome)] at hmode
    refine .of_closed hinv hcount hsome hfam fun hlink => ?_
    rw [rest.linkUps] at hlink
    by_cases hbefore : ∃ i, h.node.Connected i
    · rw [hmode, (hinv.connected hbefore).2.2]
    · rw [not_exists] at hbefore
      have hfamily := hinv.closed hbefore hlink
      -- Without a connection only ADM is closed into itself.
      rcases hinv.family with hfam' | hfam'
      · exact absurd hlink (hndm (hfamily.trans hfam') hbefore)
      · rw [hmode, hfamily, hfam']
        rfl

theorem modeInv_step (hinv : ModeInv h) (hok : ModeRegular h a)
    (hstep : h.node.ConnStep a h'.node) (hfam : h'.family = operated h.family h'.node) :
    ModeInv h' := by
  have hcount := countExact_step hinv.count hok.1 hstep
  obtain ⟨hreg, hndm, hact⟩ := hok
  cases hstep with
  | same hs =>
    refine hinv.of_stConn hcount hfam (fun i => by rw [Connected, Connected, hs.stConn])
      (fun _ => ⟨hs.mode, hs.rxFn⟩) fun hnone hlink => ?_
    rw [hs.mode, hinv.closed hnone (hs.linkUps.symm.trans hlink)]
  | opens fp ha hfp hopen rest =>
    subst ha
    have hmode := hopen.mode
    have hrx := hopen.rxFn
    rw [link_s] at hmode hrx
    refine .of_connected hcount ⟨_, hopen.stConn⟩ hfam ?_ ?_
    · rw [hmode]
      exact hact hfp
    · rw [hrx, hmode]
  | closes hclose rest why =>
    refine modeInv_closes hinv hcount hfam hclose rest fun hm hnone => ?_
    rcases why with hclosing | ⟨hconn, -⟩
    · exact hndm hclosing hm hnone
    · exact absurd hconn (hnone _)
  | refuses fp ha hfp hrefuse rest =>
    subst ha
    have hmode := hrefuse.mode
    have hrx := hrefuse.rxFn
    rw [link_s, link_s] at hmode hrx
    by_cases hsome : ∃ i, h'.node.Connected i
    · obtain ⟨i, hi⟩ := hsome
      have hne : i ≠ h.node.cPeer := by
        rintro rfl
        exact absurd (hrefuse.stConn.symm.trans hi) (by simp)
      obtain ⟨hm, hr, -⟩ := hinv.connected ⟨i, (rest.stConn i hne).symm.trans hi⟩
      exact .of_connected hcount ⟨i, hi⟩ hfam (by rw [hmode]; exact hm)
        (by rw [hrx, hmode]; exact hr)
    · rw [not_exists] at hsome
      refine .of_closed hinv hcount hsome hfam fun hlink => ?_
      rw [hmode]
      refine hinv.closed (fun i hi => ?_) (rest.linkUps.symm.trans hlink)
      by_cases hi' : i = h.node.cPeer
      · subst hi'
        rcases hreg.2 hfp with hclosed | ⟨j, hj, hconn⟩
        · exact hclosed hi
        · exact hsome j ((rest.stConn j hj).trans hconn)
      · exact hsome i ((rest.stConn i hi').trans hi)
  | linkUp call hcall stConn hcount' hrx hmode =>
    refine hinv.of_stConn hcount hfam (fun i => by rw [Connected, Connected, stConn])
      (fun hsome => ⟨?_, hrx⟩) fun _ hlink => absurd (hcall.symm.trans hlink) (by simp)
    rcases hmode with ⟨hdisc, -⟩ | ⟨-, -, hm⟩
    · rcases (hinv.connected hsome).1 with hm | hm <;> simp [Station.isDisc, hm] at hdisc
    · exact hm
  | linkUpDone call hcall hconn hnd' =>
    refine hinv.of_stConn hcount hfam (fun i => by rw [hnd']; exact Iff.rfl)
      (fun _ => by rw [hnd']; exact ⟨rfl, rfl⟩) fun hnone _ => absurd hconn (hnone _)
  | linkUpFails call ha hcall hnd' =>
    subst ha
    obtain ⟨hnone, hlast⟩ := hact
    refine hinv.of_stConn hcount hfam (fun i => by rw [hnd']; exact Iff.rfl)
      (fun hsome => absurd hsome (not_exists.mpr hnone)) fun _ hlink => ?_
    rw [hnd'] at hlink ⊢
    exact hlast hlink

end Steps

/-! ### Whole runs -/

theorem modeInv_fresh {h : WithFamily n} (hfresh : FreshFamily h) : ModeInv h := by
  obtain ⟨mode, _, _, _, _, _, _, _, hmode, hs⟩ := hfresh.fresh.station
  exact
    { count := hfresh.fresh.countExact
      family := by
        rw [hfresh.family, hs]
        exact hmode
      connected := by
        rintro ⟨i, hi⟩
        exact absurd hi (hfresh.fresh.not_connected i)
      closed := fun _ _ => hfresh.family.symm }

theorem modeInv_reachable {h : WithFamily n}
    (hrun : Reachable FreshFamily (FamilyMoves ModeRegular) h) : ModeInv h := by
  refine hrun.invariant ModeInv (fun _ hfresh => modeInv_fresh hfresh) fun h₁ h₂ hinv hmove => ?_
  obtain ⟨a, sent, hok, hact, hfam⟩ := hmove
  exact modeInv_step hinv hok (act_connStep hact) hfam

/-- With a connection the station is in NRM or ABM with the handler of that mode, without
one and with no LinkUp under way it is in the disconnected mode of its family. -/
theorem modeCoherence_reachable {h : WithFamily n}
    (hrun : Reachable FreshFamily (FamilyMoves ModeRegular) h) :
    ((∃ i, h.node.Connected i) →
      (h.node.s.mode = .nrm ∧ h.node.s.rxFn = some .ioHdlcNrmRx) ∨
        (h.node.s.mode = .abm ∧ h.node.s.rxFn = some .ioHdlcAbmRx)) ∧
      ((∀ i, ¬h.node.Connected i) → h.node.linkUps = [] →
        h.node.s.mode = h.family ∧ (h.family = .ndm ∨ h.family = .adm)) := by
  have hinv := modeInv_reachable hrun
  refine ⟨fun hconn => ?_, fun hnone hlink => ⟨hinv.closed hnone hlink, hinv.family⟩⟩
  obtain ⟨hmode, hrx, -⟩ := hinv.connected hconn
  rcases hmode with hm | hm
  · exact .inl ⟨hm, by rw [hrx, hm]; rfl⟩
  · exact .inr ⟨hm, by rw [hrx, hm]; rfl⟩

/-- The family of the state behind an action. -/
def nextFamily (h : WithFamily n) (a : Action n) : Option (WithFamily n) :=
  (h.node.next a).map fun nd => ⟨nd, operated h.family nd⟩

theorem moves_nextFamily {h h' : WithFamily n} {a : Action n} (hnext : nextFamily h a = some h') :
    FamilyMoves (fun _ _ => True) h h' := by
  obtain ⟨nd, hnd, rfl⟩ := Option.map_eq_some_iff.mp hnext
  obtain ⟨⟨nd₁, sent⟩, hact, rfl⟩ := Option.map_eq_some_iff.mp hnd
  exact ⟨a, sent, trivial, hact, rfl⟩

/-- A secondary of the NDM family that accepts a SNRM. -/
theorem modeCoherence_reachable_snrm :
    ∃ h : WithFamily 1, (∃ i, h.node.Connected i) ∧
      ((h.node.s.mode = .nrm ∧ h.node.s.rxFn = some .ioHdlcNrmRx) ∨
        (h.node.s.mode = .abm ∧ h.node.s.rxFn = some .ioHdlcAbmRx)) := by
  have hstart : Reachable FreshFamily (FamilyMoves ModeRegular) ⟨onePeer .ndm {} 1 2, .ndm⟩ :=
    .start ⟨fresh_onePeer .ndm (.inl rfl) {} 1 2, rfl⟩
  have hok : ModeRegular (n := 1) ⟨onePeer .ndm {} 1 2, .ndm⟩ (.receive (shortFrame 1 0x93)) :=
    ⟨⟨fun _ => ⟨nofun, by decide⟩, fun hfp => absurd hfp (by decide)⟩,
      fun hclose => absurd hclose (by decide), fun _ => .inl (by decide)⟩
  have hrun : Reachable FreshFamily (FamilyMoves ModeRegular)
      ⟨(onePeer .ndm {} 1 2).receive (shortFrame 1 0x93), .ndm⟩ :=
    hstart.tail ⟨_, _, hok, rfl, by decide⟩
  have hconn : ∃ i, ((onePeer .ndm {} 1 2).receive (shortFrame 1 0x93)).Connected i :=
    ⟨0, by unfold Connected; decide⟩
  exact ⟨_, hconn, (modeCoherence_reachable hrun).1 hconn⟩

/-- A DISC that reaches a secondary in NDM is answered by DM, and the station is in ADM. -/
theorem modeCoherence_disc :
    ¬∀ h : WithFamily 1, Reachable FreshFamily (FamilyMoves fun _ _ => True) h →
      (∀ i, ¬h.node.Connected i) → h.node.linkUps = [] → h.node.s.mode = h.family := by
  intro hclaim
  have hstart : Reachable FreshFamily (FamilyMoves fun _ _ => True) ⟨onePeer .ndm {} 1 2, .ndm⟩ :=
    .start ⟨fresh_onePeer .ndm (.inl rfl) {} 1 2, rfl⟩
  obtain ⟨h, hrun, hp⟩ := Reachable.exists_of_run nextFamily (fun _ _ _ => moves_nextFamily) hstart
    [.receive (shortFrame 1 0x53), .txFetch, .txEntry { uResponse := some default }]
    (fun h => decide ((h.node.peer 0).ssState.stConn = false ∧ h.node.linkUps = [] ∧
      h.node.s.mode ≠ h.family)) (by decide +kernel)
  obtain ⟨hnone, hlink, hne⟩ := of_decide_eq_true hp
  refine hne (hclaim h hrun (fun i hi => ?_) hlink)
  rw [Fin.fin_one_eq_zero i, Connected, hnone] at hi
  cases hi

end Node

end IoHdlc
