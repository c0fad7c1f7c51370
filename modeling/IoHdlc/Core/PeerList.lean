import IoHdlc.Core.Node
import IoHdlc.Kit.LinkedList
import IoHdlc.Kit.RoundRobin

/-!
The circular list of the peers of a station and the round robin over it. The
list header takes part in the circle without being a peer.
-/

namespace IoHdlc

open Kit

variable {P : Type}

/-- The links of a station's peers. A node is a peer, or nothing for the header `&s->peers`. -/
structure PeerList (P : Type) where
  next : Option P → Option P
  prev : Option P → Option P

/-- `ioHdlc_peerl_init`, for peers whose links have any content. -/
def PeerList.init (l : PeerList P) [DecidableEq P] : PeerList P :=
  { next := Function.update l.next none none, prev := Function.update l.prev none none }

/-- The insertion at the end of `ioHdlcAddPeer`. -/
def PeerList.addPeer [DecidableEq P] (l : PeerList P) (peer : P) : PeerList P :=
  let last := l.prev none
  { next := Function.update (Function.update l.next (some peer) none) last (some peer)
    prev := Function.update (Function.update l.prev (some peer) last) none (some peer) }

/-- What `ioHdlcNextPeer` uses of a station. -/
structure PeerRing (P : Type) where
  peers : PeerList P
  peer : P → Peer
  /-- `c_peer`, which is a peer as soon as there is one. -/
  cPeer : Option P

namespace PeerRing

/-- One turn of the loop: `c_peer` moves on and skips the header. -/
def nextNode (s : PeerRing P) (cPeer : Option P) : Option P :=
  let cPeer := s.peers.next cPeer
  if cPeer.isNone then s.peers.next none else cPeer

/-- Whether the peer passes the filter. -/
def accepts (s : PeerRing P) (findPendingOnly : Bool) (p : P) : Bool :=
  if findPendingOnly then (s.peer p).isDisc && (s.peer p).umCmd ≠ 0
  else !(s.peer p).isDisc || (s.peer p).umCmd ≠ 0

variable [DecidableEq P]

/-- The loop of `ioHdlcNextPeer`, with at most `fuel` turns. -/
def nextPeerLoop (s : PeerRing P) (findPendingOnly : Bool) (start : Option P) :
    Nat → Option P → Option (Option P)
  | 0, _ => none
  | fuel + 1, cPeer =>
    let cPeer := s.nextNode cPeer
    if cPeer.any (s.accepts findPendingOnly) then some cPeer
    else if cPeer = start then some cPeer
    else nextPeerLoop s findPendingOnly start fuel cPeer

/-- `ioHdlcNextPeer`: the peer it returns, and the station behind it. -/
def ioHdlcNextPeer (s : PeerRing P) (findPendingOnly : Bool) (fuel : Nat) :
    Option (PeerRing P × Option P) :=
  if s.peers.next none = none then some (s, none)
  else (s.nextPeerLoop findPendingOnly s.cPeer fuel s.cPeer).map fun c => ({ s with cPeer := c }, c)

/-- The peers that `k` calls return one after the other. -/
def nextPeers (s : PeerRing P) (findPendingOnly : Bool) (fuel : Nat) : Nat → Option (List P)
  | 0 => some []
  | k + 1 => do
    let (s', p) ← s.ioHdlcNextPeer findPendingOnly fuel
    let p ← p
    let rest ← nextPeers s' findPendingOnly fuel k
    pure (p :: rest)

end PeerRing

/-! ### The list -/

/-- The links run through the given peers and back to the header. -/
structure PeerList.Lists (l : PeerList P) (ps : List P) : Prop where
  linked : Linked (fun p => l.next (some p)) (l.next none) ps
  nodup : ps.Nodup
  last : l.prev none = ps.getLast?

namespace PeerList.Lists

variable [DecidableEq P] {l : PeerList P} {ps : List P}

theorem init (l : PeerList P) : l.init.Lists [] where
  linked := by simp [PeerList.init, Linked]
  nodup := List.nodup_nil
  last := by simp [PeerList.init]

/-- A peer that is added comes last. -/
theorem addPeer (h : l.Lists ps) {peer : P} (hnew : peer ∉ ps) :
    (l.addPeer peer).Lists (ps ++ [peer]) := by
  constructor
  case linked =>
    rcases List.eq_nil_or_concat' ps with rfl | ⟨xs, y, rfl⟩
    · have hlast : l.prev none = none := h.last
      simp [PeerList.addPeer, hlast, Linked]
    · have hlast : l.prev none = some y := h.last.trans List.getLast?_concat
      have hy : y ∉ xs := by
        have hnodup := h.nodup
        rw [List.nodup_append_comm, List.singleton_append] at hnodup
        exact (List.nodup_cons.mp hnodup).1
      have hne : peer ≠ y := fun heq => hnew (by simp [heq])
      have hhead : (l.addPeer peer).next none = l.next none := by simp [PeerList.addPeer, hlast]
      rw [hhead, List.append_assoc]
      refine h.linked.concat hy hnew ?_ ?_ ?_
      · simp [PeerList.addPeer, hlast]
      · simp [PeerList.addPeer, hlast, hne]
      · intro z hzy hzx
        simp [PeerList.addPeer, hlast, hzy, hzx]
  case nodup =>
    rw [List.nodup_append_comm, List.singleton_append]
    exact List.nodup_cons.mpr ⟨hnew, h.nodup⟩
  case last => simp [PeerList.addPeer]

end PeerList.Lists

/-! ### The round robin -/

namespace PeerRing

variable {s : PeerRing P} {ps before behind : List P} {c : P} {findPendingOnly : Bool}

theorem nextNode_of_some {p q : P} (h : s.peers.next (some p) = some q) :
    s.nextNode (some p) = some q := by
  simp [nextNode, h]

theorem nextNode_of_none {p : P} (h : s.peers.next (some p) = none) :
    s.nextNode (some p) = s.peers.next none := by
  simp [nextNode, h]

/-- The circle of the list, seen from any of its peers, without the header. -/
theorem turn (h : s.peers.Lists (before ++ c :: behind)) :
    Turn s.nextNode (some c) ((behind ++ before ++ [c]).map some) := by
  obtain ⟨front, z, hfront⟩ := (List.eq_nil_or_concat' (before ++ c :: behind)).resolve_left (by simp)
  have hlinked := h.linked
  have hnodup : ((before ++ c :: behind).map some).Nodup :=
    (List.nodup_map_iff (Option.some_injective P)).mpr h.nodup
  -- from the last peer the turn is the list itself
  have hturn : Turn s.nextNode (some z) ((before ++ c :: behind).map some) := by
    constructor
    case chain =>
      have hchain : List.IsChain (fun a b => s.nextNode a = b) ((before ++ c :: behind).map some) := by
        rw [List.isChain_map]
        exact hlinked.isChain.imp fun _ _ => nextNode_of_some
      refine hchain.cons fun y hy => ?_
      rw [nextNode_of_none (hfront ▸ hlinked).next_last, hlinked.head_eq]
      simpa using hy
    case last => rw [hfront, List.map_append, List.map_singleton, List.getLast?_concat]
    case nodup => exact hnodup
  rw [List.map_append, List.map_cons] at hturn
  rw [List.map_append, List.map_append, List.map_singleton]
  exact hturn.rotate

/-- The peer that a call selects is in the list. -/
theorem getD_find_mem (f : P → Bool) (before behind : List P) (c : P) :
    ((behind ++ before ++ [c]).find? f).getD c ∈ before ++ c :: behind := by
  rw [← (cycle_perm before behind c).mem_iff]
  cases hfind : (behind ++ before ++ [c]).find? f with
  | none => simp
  | some p => exact List.mem_of_find?_eq_some hfind

variable [DecidableEq P]

theorem nextPeerLoop_eq_walk (s : PeerRing P) (findPendingOnly : Bool) (start : Option P) (fuel : Nat)
    (c : Option P) : s.nextPeerLoop findPendingOnly start fuel c =
      walk s.nextNode (·.any (s.accepts findPendingOnly)) start fuel c := by
  induction fuel generalizing c with
  | zero => rfl
  | succ fuel ih =>
    rw [nextPeerLoop, walk]
    simp only [ih]

/-- The search from a peer ends at the first one behind it that passes the filter. -/
theorem walk_eq_find (findPendingOnly : Bool) (h : s.peers.Lists (before ++ c :: behind)) {fuel : Nat}
    (hfuel : (before ++ c :: behind).length ≤ fuel) :
    walk s.nextNode (·.any (s.accepts findPendingOnly)) (some c) fuel (some c) =
      some (some (((behind ++ before ++ [c]).find? (s.accepts findPendingOnly)).getD c)) := by
  have hlen : ((behind ++ before ++ [c]).map some).length ≤ fuel := by
    simp only [List.length_map, List.length_append, List.length_cons, List.length_nil] at hfuel ⊢
    omega
  have hcomp : (Option.any (s.accepts findPendingOnly) ∘ some) = s.accepts findPendingOnly := rfl
  rw [(turn h).walk hlen, List.find?_map, hcomp]
  cases (behind ++ before ++ [c]).find? (s.accepts findPendingOnly) <;> rfl

theorem ioHdlcNextPeer_eq (h : s.peers.Lists (before ++ c :: behind)) (hc : s.cPeer = some c)
    {fuel : Nat} (hfuel : (before ++ c :: behind).length ≤ fuel) :
    s.ioHdlcNextPeer findPendingOnly fuel =
      some ({ s with
        cPeer := some (((behind ++ before ++ [c]).find? (s.accepts findPendingOnly)).getD c) },
        some (((behind ++ before ++ [c]).find? (s.accepts findPendingOnly)).getD c)) := by
  have hne : s.peers.next none ≠ none := by
    rw [h.linked.head_eq]
    simp
  rw [ioHdlcNextPeer, if_neg hne, nextPeerLoop_eq_walk, hc, walk_eq_find findPendingOnly h hfuel]
  rfl

/-- A call that returns does not depend on the turns it may take. -/
theorem ioHdlcNextPeer_mono {fuel fuel' : Nat} {r : PeerRing P × Option P}
    (hret : s.ioHdlcNextPeer findPendingOnly fuel = some r) (hle : fuel ≤ fuel') :
    s.ioHdlcNextPeer findPendingOnly fuel' = some r := by
  rw [ioHdlcNextPeer] at hret ⊢
  split at hret
  next hempty => rwa [if_pos hempty]
  next hne =>
    rw [if_neg hne]
    obtain ⟨q, hloop, rfl⟩ := Option.map_eq_some_iff.mp hret
    rw [nextPeerLoop_eq_walk] at hloop ⊢
    rw [walk_mono hloop hle]
    rfl

/-- Where a search ends that starts at the node `x`. -/
def search (s : PeerRing P) (findPendingOnly : Bool) (fuel : Nat) (x : Option P) : Option P :=
  (walk s.nextNode (·.any (s.accepts findPendingOnly)) x fuel x).getD x

/-- Successive calls are successive searches. -/
theorem nextPeers_eq (h : s.peers.Lists (before ++ c :: behind)) (hc : s.cPeer = some c)
    {fuel : Nat} (hfuel : (before ++ c :: behind).length ≤ fuel) (k : Nat) :
    ∃ qs, s.nextPeers findPendingOnly fuel k = some qs ∧
      qs.map some = visits (s.search findPendingOnly fuel) k (some c) := by
  induction k generalizing s before behind c with
  | zero => exact ⟨[], rfl, rfl⟩
  | succ k ih =>
    have hmem := getD_find_mem (s.accepts findPendingOnly) before behind c
    rw [nextPeers, ioHdlcNextPeer_eq h hc hfuel, visits, search, walk_eq_find findPendingOnly h hfuel,
      Option.getD_some]
    generalize ((behind ++ before ++ [c]).find? (s.accepts findPendingOnly)).getD c = p at hmem ⊢
    obtain ⟨before', behind', hsplit⟩ := List.append_of_mem hmem
    obtain ⟨rest, hnext, hrest⟩ := ih (s := { s with cPeer := some p }) (hsplit ▸ h) rfl (hsplit ▸ hfuel)
    refine ⟨p :: rest, ?_, ?_⟩
    · simp [hnext]
    · rw [List.map_cons, hrest]
      rfl

/-- The peers that pass the filter, in the order of the circle behind `c`, are the ones that as many
calls return. -/
theorem nextPeers_eq_filter (h : s.peers.Lists (before ++ c :: behind)) (hc : s.cPeer = some c)
    {fuel : Nat} (hfuel : (before ++ c :: behind).length ≤ fuel) :
    s.nextPeers findPendingOnly fuel
        ((before ++ c :: behind).filter (s.accepts findPendingOnly)).length =
      some ((behind ++ before ++ [c]).filter (s.accepts findPendingOnly)) := by
  have hperm := cycle_perm before behind c
  have hlen := (hperm.filter (s.accepts findPendingOnly)).length_eq
  have hfilter : ((behind ++ before ++ [c]).map some).filter (·.any (s.accepts findPendingOnly)) =
      ((behind ++ before ++ [c]).filter (s.accepts findPendingOnly)).map some := List.filter_map ..
  have hsearch : ∀ x places, Turn s.nextNode x places →
      places.length = ((behind ++ before ++ [c]).map some).length →
      s.search findPendingOnly fuel x =
        (places.find? (·.any (s.accepts findPendingOnly))).getD x := by
    intro x places hturn hplaces
    rw [List.length_map, hperm.length_eq] at hplaces
    rw [search, hturn.walk (hplaces.trans_le hfuel), Option.getD_some]
  have hvisits := (turn h).visits_eq hsearch rfl (k := (behind ++ before ++ [c]).countP _)
    (by rw [hfilter, List.length_map, List.countP_eq_length_filter])
  obtain ⟨qs, hqs, hmap⟩ := nextPeers_eq h hc hfuel
    ((before ++ c :: behind).filter (s.accepts findPendingOnly)).length
  rw [hqs]
  rw [← hlen, ← List.countP_eq_length_filter, hvisits, hfilter, List.take_of_length_le
    (by rw [List.length_map, List.countP_eq_length_filter])] at hmap
  exact congrArg some (List.map_injective_iff.mpr (Option.some_injective P) hmap)

end PeerRing

/-! ### What a call selects -/

/-- `ioHdlcNextPeer` selects the first peer behind the current one that passes the filter; the current
one only if no other does; and as many calls as there are such peers return each of them once. -/
theorem ioHdlcNextPeer_round_robin [DecidableEq P] {s : PeerRing P} {before behind : List P} {c : P}
    (findPendingOnly : Bool) (h : s.peers.Lists (before ++ c :: behind)) (hc : s.cPeer = some c) :
    ∃ p qs, ∀ fuel ≥ (before ++ c :: behind).length,
      s.ioHdlcNextPeer findPendingOnly fuel = some ({ s with cPeer := some p }, some p) ∧
      ((∃ q ∈ before ++ c :: behind, s.accepts findPendingOnly q = true) →
        s.accepts findPendingOnly p = true ∧ ∃ skipped rest,
          behind ++ before ++ [c] = skipped ++ p :: rest ∧
            ∀ q ∈ skipped, s.accepts findPendingOnly q = false) ∧
      (p = c → ∀ q ∈ before ++ c :: behind, s.accepts findPendingOnly q = true → q = c) ∧
      ((∀ q ∈ before ++ c :: behind, s.accepts findPendingOnly q = false) → p = c) ∧
      s.nextPeers findPendingOnly fuel
        ((before ++ c :: behind).filter (s.accepts findPendingOnly)).length = some qs ∧
      qs.Perm ((before ++ c :: behind).filter (s.accepts findPendingOnly)) ∧ qs.Nodup := by
  have hperm := cycle_perm before behind c
  have hnodup : (behind ++ before ++ [c]).Nodup := hperm.nodup_iff.mpr h.nodup
  refine ⟨_, _, fun fuel hfuel => ⟨PeerRing.ioHdlcNextPeer_eq h hc hfuel, ?_, ?_, ?_,
    PeerRing.nextPeers_eq_filter h hc hfuel, hperm.filter _, hnodup.filter _⟩⟩
  · rintro ⟨q, hq, haccepts⟩
    cases hfind : (behind ++ before ++ [c]).find? (s.accepts findPendingOnly) with
    | none => exact absurd haccepts (List.find?_eq_none.mp hfind q (hperm.mem_iff.mpr hq))
    | some p =>
      obtain ⟨hp, skipped, rest, hsplit, hskipped⟩ := List.find?_eq_some_iff_append.mp hfind
      exact ⟨hp, skipped, rest, hsplit, fun q hq => by simpa using hskipped q hq⟩
  · intro hp q hq haccepts
    rw [List.find?_append] at hp
    cases hfind : (behind ++ before).find? (s.accepts findPendingOnly) with
    | none =>
      have hmem := hperm.mem_iff.mpr hq
      rw [List.mem_append, List.mem_singleton] at hmem
      exact hmem.resolve_left fun hmem => List.find?_eq_none.mp hfind q hmem haccepts
    | some p =>
      -- a peer found before the end of the circle is not the last one
      rw [hfind, Option.some_or, Option.getD_some] at hp
      have hmem := List.mem_of_find?_eq_some hfind
      rw [List.nodup_append_comm, List.singleton_append, List.nodup_cons] at hnodup
      exact absurd (hp ▸ hmem) hnodup.1
  · intro hnone
    have hfind : (behind ++ before ++ [c]).find? (s.accepts findPendingOnly) = none :=
      List.find?_eq_none.mpr fun q hq => by simp [hnone q (hperm.mem_iff.mp hq)]
    rw [hfind, Option.getD_none]

/-- A ring of three peers, added one after the other, of which the last two have a command to send. -/
def threePeers : PeerRing (Fin 3) :=
  { peers := ((({ next := id, prev := id } : PeerList (Fin 3)).init.addPeer 0).addPeer 1).addPeer 2
    peer := fun i => { (Node.onePeer .ndm {} 1 2).peer 0 with umCmd := if i = 0 then 0 else IOHDLC_U_SNRM }
    cPeer := some 1 }

/-- From the second peer the search ends at the third, and two calls return both. -/
theorem ioHdlcNextPeer_round_robin_three :
    ∃ p qs, ∀ fuel ≥ 3,
      threePeers.ioHdlcNextPeer true fuel = some ({ threePeers with cPeer := some p }, some p) ∧
        threePeers.nextPeers true fuel 2 = some qs ∧ qs.Nodup := by
  have hlists : threePeers.peers.Lists ([0] ++ 1 :: [2]) :=
    (((PeerList.Lists.init _).addPeer (by decide)).addPeer (by decide)).addPeer (by decide)
  obtain ⟨p, qs, h⟩ := ioHdlcNextPeer_round_robin true hlists rfl
  refine ⟨p, qs, fun fuel hfuel => ?_⟩
  obtain ⟨hnext, -, -, -, hqs, -, hnodup⟩ := h fuel hfuel
  exact ⟨hnext, hqs, hnodup⟩

/-- Every list of different peers comes about by adding them in turn. -/
theorem PeerList.exists_lists [DecidableEq P] {ps : List P} (h : ps.Nodup) :
    ∃ l : PeerList P, l.Lists ps := by
  induction ps using List.reverseRecOn with
  | nil => exact ⟨_, .init { next := id, prev := id }⟩
  | append_singleton ps p ih =>
    rw [List.nodup_append_comm, List.singleton_append, List.nodup_cons] at h
    obtain ⟨l, hl⟩ := ih h.2
    exact ⟨l.addPeer p, hl.addPeer h.1⟩

/-! ### The round robin of the node -/

namespace Node

variable {n : Nat} {nd : Node n} {l : PeerList (Fin n)}

/-- The station of a node whose peers were added one after the other. -/
def ring (nd : Node n) (l : PeerList (Fin n)) : PeerRing (Fin n) :=
  { peers := l, peer := nd.peer, cPeer := some nd.cPeer }

/-- The circular list of the peers 0, 1, .. is what the node goes round. -/
theorem nextNode_ring (h : l.Lists (List.finRange n)) (i : Fin n) :
    (nd.ring l).nextNode (some i) = some (after i) := by
  by_cases hi : i.val + 1 < n
  · have hlink := List.isChain_iff_getElem.mp h.linked.isChain i.val (by simpa using hi)
    have hafter : after i = ⟨i.val + 1, hi⟩ := Fin.ext (Nat.mod_eq_of_lt hi)
    rw [hafter]
    have hnext : l.next (some i) = some ⟨i.val + 1, hi⟩ := by simpa using hlink
    exact PeerRing.nextNode_of_some hnext
  · obtain ⟨m, rfl⟩ : ∃ m, n = m + 1 := ⟨n - 1, by have := i.isLt; omega⟩
    have hlast : i = Fin.last m := Fin.ext (by simp; omega)
    have hafter : after i = 0 := Fin.ext (by simp [after, hlast])
    have hend : l.next (some i) = none := by
      have hlinked := h.linked
      rw [List.finRange_succ_last] at hlinked
      rw [hlast]
      exact hlinked.next_last
    have hhead : (nd.ring l).peers.next none = some 0 := by
      have hhead := h.linked.head_eq
      rw [List.finRange_succ] at hhead
      exact hhead
    rw [PeerRing.nextNode_of_none hend, hhead, hafter]

theorem nextPeerLoop_ring (h : l.Lists (List.finRange n)) {findPendingOnly : Bool} {start : Fin n}
    {fuel : Nat} {i : Fin n} {c : Option (Fin n)}
    (hloop : (nd.ring l).nextPeerLoop findPendingOnly (some start) fuel (some i) = some c) :
    c = some (nextPeerLoop (nd.accepts findPendingOnly) start fuel i) := by
  induction fuel generalizing i with
  | zero => cases hloop
  | succ fuel ih =>
    rw [PeerRing.nextPeerLoop, nextNode_ring h] at hloop
    have haccepts : (some (after i)).any ((nd.ring l).accepts findPendingOnly) =
      nd.accepts findPendingOnly (after i) := rfl
    simp only [haccepts, Option.some.injEq] at hloop
    rw [nextPeerLoop]
    cases hacc : nd.accepts findPendingOnly (after i) with
    | true =>
      rw [hacc, if_pos rfl] at hloop
      simpa using hloop.symm
    | false =>
      rw [hacc, if_neg (by simp)] at hloop
      by_cases hstart : after i = start
      · rw [if_pos hstart] at hloop
        simpa [hstart] using hloop.symm
      · rw [if_neg hstart] at hloop
        simpa [hstart] using ih hloop

/-- The round robin of the node is the one over its list. -/
theorem ioHdlcNextPeer_ring (nd : Node n) (h : l.Lists (List.finRange n)) (findPendingOnly : Bool) :
    (nd.ring l).ioHdlcNextPeer findPendingOnly n =
      some ({ nd.ring l with cPeer := some (nd.ioHdlcNextPeer findPendingOnly) },
        some (nd.ioHdlcNextPeer findPendingOnly)) := by
  obtain ⟨before, behind, hsplit⟩ := List.append_of_mem (List.mem_finRange nd.cPeer)
  have hlists : (nd.ring l).peers.Lists (before ++ nd.cPeer :: behind) := hsplit ▸ h
  have hlen : (before ++ nd.cPeer :: behind).length ≤ n := by rw [← hsplit, List.length_finRange]
  have hne : (nd.ring l).peers.next none ≠ none := by
    rw [hlists.linked.head_eq]
    simp
  have hwalk := PeerRing.walk_eq_find findPendingOnly hlists hlen
  rw [← PeerRing.nextPeerLoop_eq_walk] at hwalk
  rw [PeerRing.ioHdlcNextPeer, if_neg hne]
  have hcPeer : (nd.ring l).cPeer = some nd.cPeer := rfl
  rw [hcPeer, hwalk, nextPeerLoop_ring h hwalk]
  rfl

/-- The round robin ends at the first accepted peer of the circle behind the current one. -/
theorem ioHdlcNextPeer_eq_cycle (nd : Node n) (findPendingOnly : Bool) {before behind : List (Fin n)}
    (hsplit : List.finRange n = before ++ nd.cPeer :: behind) :
    nd.ioHdlcNextPeer findPendingOnly =
      ((behind ++ before ++ [nd.cPeer]).find? (nd.accepts findPendingOnly)).getD nd.cPeer := by
  obtain ⟨l, h⟩ := PeerList.exists_lists (List.nodup_finRange n)
  have hlists : (nd.ring l).peers.Lists (before ++ nd.cPeer :: behind) := hsplit ▸ h
  have hlen : (before ++ nd.cPeer :: behind).length ≤ n := by rw [← hsplit, List.length_finRange]
  have hring := ioHdlcNextPeer_ring nd h findPendingOnly
  rw [PeerRing.ioHdlcNextPeer_eq hlists rfl hlen] at hring
  exact (Option.some.inj (Prod.mk.inj (Option.some.inj hring)).2).symm

theorem ioHdlcNextPeer_eq_find (nd : Node n) (findPendingOnly : Bool) :
    ∃ places : List (Fin n), (∀ i, i ∈ places) ∧
      nd.ioHdlcNextPeer findPendingOnly =
        (places.find? (nd.accepts findPendingOnly)).getD nd.cPeer := by
  obtain ⟨before, behind, hsplit⟩ := List.append_of_mem (List.mem_finRange nd.cPeer)
  refine ⟨behind ++ before ++ [nd.cPeer], fun i => ?_,
    nd.ioHdlcNextPeer_eq_cycle findPendingOnly hsplit⟩
  rw [(cycle_perm before behind nd.cPeer).mem_iff, ← hsplit]
  exact List.mem_finRange i

/-- It finds the only peer it looks for. -/
theorem ioHdlcNextPeer_only {findPendingOnly : Bool} {j : Fin n}
    (hj : nd.accepts findPendingOnly j = true)
    (honly : ∀ k, nd.accepts findPendingOnly k = true → k = j) :
    nd.ioHdlcNextPeer findPendingOnly = j := by
  obtain ⟨places, hall, heq⟩ := nd.ioHdlcNextPeer_eq_find findPendingOnly
  rw [heq]
  cases hfind : places.find? (nd.accepts findPendingOnly) with
  | none => exact absurd hj (List.find?_eq_none.mp hfind j (hall j))
  | some k => exact honly k (List.find?_some hfind)

end Node

end IoHdlc
