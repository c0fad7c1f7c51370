import IoHdlc.Station.SetUp

/-!
The peers of a station in service.

`ioHdlcNextPeer` goes round the list while `ioHdlcAddPeer` makes it longer and the sections of the
workers change what the descriptors hold. `WithTurns` counts for each peer the calls that passed
it over although their filter let it through, since the last call that did not. No peer is passed
over as often as there are peers.
-/

namespace IoHdlc

open Kit

/-- A station in service, and how often each of its peers was passed over. -/
structure WithTurns (P : Type) extends SetUp P where
  passedOver : P → Nat

/-- What happens to the peers; the calls do not overlap. -/
inductive ServiceAction (P : Type) where
  | addPeer (peer : P) (addr : UInt32) (fuel : Nat)
  | nextPeer (findPendingOnly : Bool) (fuel : Nat)
  /-- A section of a worker, or a call for one of the peers. -/
  | work (peer : P → Peer)

namespace WithTurns

variable {P : Type} [DecidableEq P]

/-- The counts after a call that returned `r`. -/
def afterCall (g : WithTurns P) (findPendingOnly : Bool) (r : Option P) (p : P) : Nat :=
  if r = some p ∨ g.ring.accepts findPendingOnly p = false then 0 else g.passedOver p + 1

def next (init : Initialised) (g : WithTurns P) : ServiceAction P → Option (WithTurns P)
  | .addPeer peer addr fuel =>
    (SetUp.call init g.ring (.addPeer peer addr fuel)).map fun r =>
      { ring := r.1
        added := g.added ++ (SetUpCall.addPeer peer addr fuel).added r.2
        passedOver := Function.update g.passedOver peer 0 }
  | .nextPeer findPendingOnly fuel =>
    (g.ring.ioHdlcNextPeer findPendingOnly fuel).map fun r =>
      { g with ring := r.1, passedOver := g.afterCall findPendingOnly r.2 }
  | .work peer => some { g with ring := { g.ring with peer := peer } }

omit [DecidableEq P] in
/-- A new descriptor is not one of the list. Nothing but `ioHdlcAddPeer` writes an address. -/
def Proper (g : WithTurns P) : ServiceAction P → Prop
  | .addPeer peer _ _ => ∀ ps, g.ring.peers.Lists ps → peer ∉ ps
  | .nextPeer _ _ => True
  | .work peer => ∀ p, (peer p).addr = (g.ring.peer p).addr

def Fresh (g : WithTurns P) : Prop := SetUp.Begins g.toSetUp

def Moves (init : Initialised) (g g' : WithTurns P) : Prop :=
  ∃ a, g.Proper a ∧ g.next init a = some g'

omit [DecidableEq P] in
/-- The calls that passed a peer over and those that may still do so are fewer than the peers. -/
structure Inv [DecidableEq P] (g : WithTurns P) : Prop where
  lists : g.ring.peers.Lists g.added
  distinct : (g.added.map fun p => (g.ring.peer p).addr).Nodup
  none_iff : g.ring.cPeer = none ↔ g.added = []
  current : ∀ c, g.ring.cPeer = some c → c ∈ g.added
  turns : ∀ c, g.ring.cPeer = some c → ∀ p ∈ g.added,
    g.passedOver p + between g.added c p < g.added.length

section Steps

variable {init : Initialised} {g g' : WithTurns P}

theorem inv_init (h : g.Fresh) : g.Inv := by
  obtain ⟨⟨links, peer, hring⟩, hadded⟩ := h
  have hnone : g.ring.cPeer = none := by rw [hring]; rfl
  refine ⟨?_, ?_, iff_of_true hnone hadded, fun c hc => ?_, fun c hc => ?_⟩
  · rw [hring, hadded]
    exact .init links
  · rw [hadded]
    exact List.nodup_nil
  · rw [hnone] at hc
    cases hc
  · rw [hnone] at hc
    cases hc

/-- The current peer, and the list on both of its sides. -/
theorem Inv.split (h : g.Inv) (hne : g.added ≠ []) : ∃ before c behind,
    g.added = before ++ c :: behind ∧ g.ring.cPeer = some c := by
  obtain ⟨c, hc⟩ := Option.ne_none_iff_exists'.mp (mt h.none_iff.mp hne)
  obtain ⟨before, behind, hsplit⟩ := List.append_of_mem (h.current c hc)
  exact ⟨before, c, behind, hsplit, hc⟩

/-- A peer that is added waits at the end of the list. -/
theorem Inv.addPeer (h : g.Inv) {peer : P} {content : Peer} (hnew : peer ∉ g.added)
    (hfree : ∀ p ∈ g.added, (g.ring.peer p).addr ≠ content.addr) :
    (WithTurns.mk ⟨g.ring.addPeer peer content, g.added ++ [peer]⟩
      (Function.update g.passedOver peer 0)).Inv := by
  have hcurrent (c : P) (hc : (g.ring.addPeer peer content).cPeer = some c) :
      g.ring.cPeer = some c ∨ g.added = [] ∧ c = peer := by
    change (if g.ring.cPeer.isNone then some peer else g.ring.cPeer) = some c at hc
    split at hc
    next hnone =>
      exact .inr ⟨h.none_iff.mp (Option.isNone_iff_eq_none.mp hnone), (Option.some.inj hc).symm⟩
    · exact .inl hc
  have hmem (c : P) (hc : (g.ring.addPeer peer content).cPeer = some c) : c ∈ g.added ++ [peer] := by
    rcases hcurrent c hc with hc | ⟨-, rfl⟩
    · exact List.mem_append_left _ (h.current c hc)
    · exact List.mem_append_right _ (List.mem_singleton_self c)
  constructor
  case lists => exact h.lists.addPeer hnew
  case distinct => exact SetUp.addrs_addPeer h.distinct hnew hfree
  case none_iff =>
    refine iff_of_false ?_ (by simp)
    change (if g.ring.cPeer.isNone then some peer else g.ring.cPeer) ≠ none
    cases g.ring.cPeer <;> simp
  case current => exact hmem
  case turns =>
    intro c hc p hp
    change Function.update g.passedOver peer 0 p + between (g.added ++ [peer]) c p <
      (g.added ++ [peer]).length
    by_cases hpeer : p = peer
    · subst hpeer
      rw [Function.update_self, Nat.zero_add]
      exact between_lt (hmem c hc) hp
    · have hold : p ∈ g.added := by
        rcases List.mem_append.mp hp with hp | hp
        · exact hp
        · exact absurd (List.mem_singleton.mp hp) hpeer
      rcases hcurrent c hc with hc | ⟨hnil, -⟩
      · have hturn := h.turns c hc p hold
        have hle := between_concat_le (q := peer) (h.current c hc) hold
        rw [Function.update_of_ne hpeer, List.length_append, List.length_singleton]
        omega
      · rw [hnil] at hold
        cases hold

/-- A call returns a peer, and whoever is passed over comes nearer. -/
theorem Inv.nextPeer (h : g.Inv) {findPendingOnly : Bool} {fuel : Nat}
    {r : PeerRing P × Option P} (hret : g.ring.ioHdlcNextPeer findPendingOnly fuel = some r) :
    (WithTurns.mk ⟨r.1, g.added⟩ (g.afterCall findPendingOnly r.2)).Inv := by
  by_cases hne : g.added = []
  · -- no peer is there, and the call changes nothing
    have hnone : g.ring.peers.next none = none := by
      have hhead := h.lists.linked.head_eq
      rwa [hne] at hhead
    rw [PeerRing.ioHdlcNextPeer, if_pos hnone] at hret
    cases hret
    refine ⟨h.lists, h.distinct, h.none_iff, h.current, fun c _ p hp => ?_⟩
    change p ∈ g.added at hp
    rw [hne] at hp
    cases hp
  obtain ⟨before, c, behind, hsplit, hc⟩ := h.split hne
  have hlists : g.ring.peers.Lists (before ++ c :: behind) := hsplit ▸ h.lists
  have hcall := @PeerRing.ioHdlcNextPeer_eq P g.ring before behind c findPendingOnly _ hlists hc _
    (Nat.le_max_right fuel _)
  have hlong := PeerRing.ioHdlcNextPeer_mono hret
    (Nat.le_max_left fuel (before ++ c :: behind).length)
  obtain rfl := Option.some.inj (hcall.symm.trans hlong)
  generalize hq : ((behind ++ before ++ [c]).find? (g.ring.accepts findPendingOnly)).getD c = q
  have hqmem : q ∈ g.added := by
    rw [hsplit, ← hq]
    exact PeerRing.getD_find_mem (g.ring.accepts findPendingOnly) before behind c
  refine ⟨h.lists, h.distinct, ?_, ?_, ?_⟩
  · exact iff_of_false (by simp) hne
  · rintro c' hc'
    obtain rfl := Option.some.inj hc'
    exact hqmem
  · rintro c' hc' p hp
    obtain rfl := Option.some.inj hc'
    change g.afterCall findPendingOnly (some q) p + between g.added q p < g.added.length
    rw [afterCall]
    split
    · rw [Nat.zero_add]
      exact between_lt hqmem hp
    next hpassed =>
      rw [not_or, Option.some.injEq, Bool.not_eq_false] at hpassed
      have hturn := h.turns c hc p hp
      have hmem := h.current c hc
      have hcloser : between g.added c q < between g.added c p := by
        rw [hsplit]
        exact between_find_lt hlists.nodup (hsplit ▸ hqmem) hq (hsplit ▸ hp) hpassed.2 hpassed.1
      have hway := between_of_lt hmem hp hqmem hcloser
      omega

theorem inv_step (h : g.Inv) (hmove : Moves init g g') : g'.Inv := by
  obtain ⟨a, hproper, hnext⟩ := hmove
  cases a with
  | addPeer peer addr fuel =>
    obtain ⟨⟨ring, result⟩, hcall, rfl⟩ := Option.map_eq_some_iff.mp hnext
    have hnew : peer ∉ g.added := hproper g.added h.lists
    rcases SetUp.call_addPeer h.lists hcall with ⟨e, rfl, rfl⟩ | ⟨rfl, hfree, rfl⟩
    · simp only [SetUpCall.added_error, List.append_nil]
      refine ⟨h.lists, h.distinct, h.none_iff, h.current, fun c hc p hp => ?_⟩
      dsimp only
      rw [Function.update_of_ne (ne_of_mem_of_not_mem hp hnew)]
      exact h.turns c hc p hp
    · exact h.addPeer hnew hfree
  | nextPeer findPendingOnly fuel =>
    obtain ⟨r, hret, rfl⟩ := Option.map_eq_some_iff.mp hnext
    exact h.nextPeer hret
  | work peer =>
    cases hnext
    refine ⟨h.lists, ?_, h.none_iff, h.current, h.turns⟩
    have haddr : g.added.map (fun p => (peer p).addr) = g.added.map fun p => (g.ring.peer p).addr :=
      List.map_congr_left fun p _ => hproper p
    exact haddr ▸ h.distinct

end Steps

/-- How the peers of a station are served. -/
structure Serves (g : WithTurns P) : Prop where
  lists : g.ring.peers.Lists g.added
  /-- An address finds the peer that has it, and no other. -/
  finds : ∀ addr fuel, g.added.length < fuel →
    ∃ found, g.ring.ioHdlcAddr2peer addr fuel = some found ∧
      ∀ p, found = some p ↔ p ∈ g.added ∧ (g.ring.peer p).addr = addr
  /-- A call returns NULL as long as there is no peer, and else a peer; its filter lets that one
  through unless it lets none through. -/
  selects : ∀ findPendingOnly fuel, g.added.length ≤ fuel → ∃ ring r,
    g.ring.ioHdlcNextPeer findPendingOnly fuel = some (ring, r) ∧ (r = none ↔ g.added = []) ∧
      ∀ q, r = some q → q ∈ g.added ∧
        ((∃ p ∈ g.added, g.ring.accepts findPendingOnly p = true) →
          g.ring.accepts findPendingOnly q = true)
  /-- Nobody waits longer than for all the others. -/
  waits : ∀ p ∈ g.added, g.passedOver p < g.added.length

variable {init : Initialised} {g : WithTurns P}

theorem Inv.serves (h : g.Inv) : g.Serves := by
  refine ⟨h.lists, fun addr fuel hfuel => ?_, fun findPendingOnly fuel hfuel => ?_, fun p hp => ?_⟩
  · exact ⟨_, PeerRing.ioHdlcAddr2peer_eq h.lists hfuel, SetUp.find_iff h.distinct addr⟩
  · by_cases hne : g.added = []
    · have hnone : g.ring.peers.next none = none := by
        have hhead := h.lists.linked.head_eq
        rwa [hne] at hhead
      refine ⟨g.ring, none, ?_, iff_of_true rfl hne, fun q hq => ?_⟩
      · rw [PeerRing.ioHdlcNextPeer, if_pos hnone]
      · cases hq
    · obtain ⟨before, c, behind, hsplit, hc⟩ := h.split hne
      have hlists : g.ring.peers.Lists (before ++ c :: behind) := hsplit ▸ h.lists
      refine ⟨_, _, PeerRing.ioHdlcNextPeer_eq hlists hc (hsplit ▸ hfuel),
        iff_of_false (by simp) hne, ?_⟩
      intro q hq
      have hq := Option.some.inj hq
      rw [hsplit]
      refine ⟨hq ▸ PeerRing.getD_find_mem (g.ring.accepts findPendingOnly) before behind c, ?_⟩
      rintro ⟨p, hp, haccepts⟩
      cases hfind : (behind ++ before ++ [c]).find? (g.ring.accepts findPendingOnly) with
      | none =>
        have hcycle := (cycle_perm before behind c).mem_iff.mpr hp
        exact absurd haccepts (List.find?_eq_none.mp hfind p hcycle)
      | some q' =>
        rw [hfind, Option.getD_some] at hq
        rw [← hq]
        exact List.find?_some hfind
  · obtain ⟨before, c, behind, -, hc⟩ := h.split (List.ne_nil_of_mem hp)
    exact Nat.lt_of_le_of_lt (Nat.le_add_right _ _) (h.turns c hc p hp)

/-- The calls that set a station up are calls in service. -/
theorem moves_of_setUp {s s' : SetUp P} (hmove : SetUp.Moves init s s') :
    Moves init ⟨s, fun _ => 0⟩ ⟨s', fun _ => 0⟩ := by
  obtain ⟨ring, added⟩ := s
  obtain ⟨ring', added'⟩ := s'
  obtain ⟨c, result, hproper, hcall, rfl⟩ := hmove
  cases c with
  | addPeer peer addr fuel =>
    refine ⟨.addPeer peer addr fuel, hproper, ?_⟩
    rw [next, hcall, Option.map_some, Function.update_eq_self]
  | setWindow peer ks kr =>
    rw [SetUpCall.added_setWindow, List.append_nil]
    simp only [SetUp.call] at hcall
    split at hcall
    · cases hcall
      exact ⟨.work _, fun _ => rfl, rfl⟩
    next p hp =>
      cases hcall
      refine ⟨.work _, fun q => ?_, rfl⟩
      rw [ioHdlcPeerSetWindow] at hp
      split at hp
      · cases hp
      · cases hp
        by_cases hq : q = peer
        · subst hq
          rw [Function.update_self]
        · rw [Function.update_of_ne hq]

/-- Service begins wherever they have led to. -/
theorem reachable_of_setUp {s : SetUp P} (hrun : Reachable SetUp.Begins (SetUp.Moves init) s) :
    Reachable Fresh (Moves init) ⟨s, fun _ => 0⟩ :=
  hrun.invariant (fun s => Reachable Fresh (Moves init) ⟨s, fun _ => 0⟩) (fun _ h => .start h)
    fun _ _ ih hmove => ih.tail (moves_of_setUp hmove)

/-- Whatever peers are added and whatever becomes of them, each one that has something to do is
served before it was passed over as often as there are peers. -/
theorem serves_reachable (hrun : Reachable Fresh (Moves init) g) : g.Serves :=
  (hrun.invariant Inv (fun _ hg => inv_init hg) fun _ _ hg hmove => inv_step hg hmove).serves

/-- Every peer is asked for a connection. -/
def askAll (s : PeerRing (Fin 2)) : PeerRing (Fin 2) :=
  { s with peer := fun p => { s.peer p with umCmd := IOHDLC_U_SNRM } }

/-- Two peers are asked, and the second one is served first. -/
theorem serves_reachable_two : ∃ g : WithTurns (Fin 2),
    g.Serves ∧ g.added = [0, 1] ∧ g.ring.cPeer = some 1 ∧ g.passedOver 0 = 1 := by
  obtain ⟨init, s, -, hsetup, -, -, hholds⟩ := SetUp.reachable_two
  have hcurrent : s.cPeer = some 0 := hholds.first
  have hlists : (askAll s).peers.Lists ([] ++ 0 :: [1]) := hholds.lists
  have hask : Moves init ⟨⟨s, [0, 1]⟩, fun _ => 0⟩ ⟨⟨askAll s, [0, 1]⟩, fun _ => 0⟩ :=
    ⟨.work (askAll s).peer, fun _ => rfl, rfl⟩
  have haccepts (p : Fin 2) : (askAll s).accepts false p = true := by
    have hcmd : IOHDLC_U_SNRM ≠ 0 := by decide
    simp [PeerRing.accepts, askAll, hcmd]
  have hcall := @PeerRing.ioHdlcNextPeer_eq _ (askAll s) [] [1] 0 false _ hlists hcurrent 2
    (Nat.le_refl 2)
  simp only [List.append_nil, List.singleton_append, List.find?_cons, haccepts,
    Option.getD_some] at hcall
  have hserve : Moves init ⟨⟨askAll s, [0, 1]⟩, fun _ => 0⟩
      ⟨⟨{ askAll s with cPeer := some 1 }, [0, 1]⟩,
        afterCall ⟨⟨askAll s, [0, 1]⟩, fun _ => 0⟩ false (some 1)⟩ := by
    refine ⟨.nextPeer false 2, trivial, ?_⟩
    rw [next, hcall]
    rfl
  refine ⟨_, serves_reachable (((reachable_of_setUp hsetup).tail hask).tail hserve), rfl, rfl, ?_⟩
  dsimp only
  rw [afterCall, if_neg]
  rw [not_or, haccepts]
  decide

end WithTurns

end IoHdlc
