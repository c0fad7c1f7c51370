import IoHdlc.App.ConnectionEvents
import IoHdlc.Core.LinkUpCalls

/-!
The threads in `ioHdlcStationLinkDownEx`.

A call is cut where it reads the state of its peer without a lock: at its first test, and next to
the flag of its listener. `missed` says that its connection ended without the event it waits for:
it was lost or refused, or it was gone before the listener was there. Every other end is heard.
-/

namespace IoHdlc

open Kit

/-- Whether `ioHdlcStationLinkDownEx` goes on to its request. -/
def linkDownWaits (l : Link) : Bool := l.p.ssState.stConn && (l.s.flags.pri || l.s.mode = .abm)

/-- The DISC of `ioHdlcStationLinkDownEx`. -/
def linkDownRequest (l : Link) : Link :=
  { s := l.s.broadcastFlags {.linkReq}, p := requestUCommand l.p IOHDLC_U_DISC }

/-- The two sections in one. -/
theorem linkDownStart_eq (l : Link) : linkDownStart l =
    if linkDownWaits l then (linkDownRequest l, .ok ())
    else (l, if l.p.ssState.stConn then .ok () else .error .ENOTCONN) := by
  rw [linkDownStart, linkDownWaits]
  cases hconn : l.p.ssState.stConn with
  | false => rfl
  | true =>
    by_cases hsec : l.s.flags.pri = false ∧ l.s.mode ≠ .abm
    · simp [hsec.1, hsec.2]
    · cases hpri : l.s.flags.pri with
      | true => simp [linkDownRequest]
      | false =>
        have habm : l.s.mode = .abm := by
          by_contra hno
          exact hsec ⟨hpri, hno⟩
        simp [habm, linkDownRequest]

/-- Where a call is. -/
inductive DownPc where
  | checked
  | waits
  /-- It has fetched the flags of its listener. -/
  | fetched (down : Bool)
  deriving DecidableEq

/-- A call for a peer that was connected, with the flag of its listener. -/
structure DownCall (n : Nat) where
  peer : Fin n
  pc : DownPc
  listener : Bool
  /-- Its connection has ended since the call began. -/
  ended : Bool
  missed : Bool

namespace DownCall

variable {n : Nat}

/-- The event is there, or was fetched. -/
def heard (c : DownCall n) : Bool := c.listener || c.pc = .fetched true

end DownCall

/-- A node with the calls of its threads. -/
structure WithDown (τ : Type) (n : Nat) where
  node : Node n
  call : τ → Option (DownCall n)

/-- What a thread in the call does, or anything else. -/
inductive DownAction (τ : Type) (n : Nat) where
  | node (a : Action n)
  | check (t : τ) (i : Fin n)
  | request (t : τ)
  | fetch (t : τ)
  | test (t : τ)
  | timeout (t : τ)

namespace WithDown

variable {τ : Type} {n : Nat}

/-- What a call is told by another thread. -/
def observe (nd nd' : Node n) (c : DownCall n) : DownCall n :=
  if c.pc = .checked then { c with ended := c.ended || !(nd'.peer c.peer).ssState.stConn }
  else
    { c with
      listener := c.listener || .linkDown ∈ nd.tells nd'
      ended := c.ended || !(nd'.peer c.peer).ssState.stConn
      missed := c.missed || (decide (c.peer = nd.cPeer) &&
        (.linkLost ∈ nd.tells nd' || .linkRefused ∈ nd.tells nd')) }

def observed (g : WithDown τ n) (nd' : Node n) : WithDown τ n where
  node := nd'
  call t := (g.call t).map (observe g.node nd')

variable [DecidableEq τ]

/-- A call goes on, or returns. -/
def setCall (g : WithDown τ n) (t : τ) (c : Option (DownCall n)) : WithDown τ n :=
  { g with call := Function.update g.call t c }

def next (g : WithDown τ n) : DownAction τ n → Option (WithDown τ n)
  | .node a => (g.node.act a).map fun r => g.observed r.1
  | .check t i =>
    if (g.call t).isSome then none
    else if linkDownWaits (g.node.link i) then
      some (g.setCall t (some
        { peer := i, pc := .checked, listener := false, ended := false, missed := false }))
    else some g
  | .request t => (g.call t).bind fun c =>
    match c.pc with
    | .checked => some
      { node := g.node.setLink c.peer (linkDownRequest (g.node.link c.peer))
        call := Function.update g.call t (some
          { c with pc := .waits, missed := !(g.node.peer c.peer).ssState.stConn }) }
    | _ => none
  | .fetch t => (g.call t).bind fun c =>
    match c.pc with
    | .waits => some (g.setCall t (some { c with pc := .fetched c.listener, listener := false }))
    | _ => none
  | .test t => (g.call t).bind fun c =>
    match c.pc with
    | .fetched down =>
      some (g.setCall t
        (if down && !(g.node.peer c.peer).ssState.stConn then none else some { c with pc := .waits }))
    | _ => none
  | .timeout t => (g.call t).bind fun c =>
    match c.pc with
    | .waits => some (g.setCall t none)
    | _ => none

/-- What a call that waited returns, if it does. -/
def returned (g : WithDown τ n) : DownAction τ n → Option (Except Errno Unit × DownCall n)
  | .test t => (g.call t).bind fun c =>
    match c.pc with
    | .fetched down =>
      if down && !(g.node.peer c.peer).ssState.stConn then some (.ok (), c) else none
    | _ => none
  | .timeout t => (g.call t).bind fun c =>
    match c.pc with
    | .waits => some (.error .ETIMEDOUT, c)
    | _ => none
  | _ => none

def Fresh (g : WithDown τ n) : Prop := g.node.Fresh ∧ ∀ t, g.call t = none

def Moves (g g' : WithDown τ n) : Prop := ∃ a, g.next a = some g'

/-! ### The invariant -/

/-- A call whose peer is not connected knows that, and has heard it or missed it. -/
structure InvAt (nd : Node n) (c : DownCall n) : Prop where
  ended : (nd.peer c.peer).ssState.stConn = false → c.ended = true
  heard : c.pc ≠ .checked → (nd.peer c.peer).ssState.stConn = false →
    c.heard = true ∨ c.missed = true

def Inv (g : WithDown τ n) : Prop := ∀ t, ∀ c ∈ g.call t, InvAt g.node c

variable {g g' : WithDown τ n} {nd nd' : Node n} {c : DownCall n} {t : τ}

omit [DecidableEq τ] in
/-- A connection that ends was the one of the current peer, and its end was told. -/
theorem told_of_ends {i : Fin n} (h : nd.Announces nd')
    (hconn : (nd.peer i).ssState.stConn = true) (hend : (nd'.peer i).ssState.stConn = false) :
    i = nd.cPeer ∧ (.linkDown ∈ nd.tells nd' ∨ .linkLost ∈ nd.tells nd' ∨
      .linkRefused ∈ nd.tells nd') := by
  have hi : i = nd.cPeer := by
    by_contra hne
    rw [h.others i hne, hconn] at hend
    cases hend
  subst hi
  refine ⟨rfl, ?_⟩
  rw [h.current, hconn, connAfter] at hend
  cases hword : (nd.tells nd').findSome? AppEvt.connection with
  | none =>
    rw [hword] at hend
    cases hend
  | some conn =>
    rw [hword] at hend
    obtain rfl : conn = false := hend
    obtain ⟨e, he, hsays⟩ := List.exists_of_findSome?_eq_some hword
    cases e with
    | linkDown => exact .inl he
    | linkLost => exact .inr (.inl he)
    | linkRefused => exact .inr (.inr he)
    | linkUp => cases hsays
    | frmrReceived => cases hsays
    | uiReceived => cases hsays
    | internalTestDone => cases hsays

omit [DecidableEq τ] in
/-- Another thread takes a step. -/
theorem InvAt.observe (h : InvAt nd c) (htells : nd.Announces nd') :
    InvAt nd' (observe nd nd' c) := by
  by_cases hpc : c.pc = .checked
  · rw [WithDown.observe, if_pos hpc]
    refine ⟨fun hend => ?_, fun hno => absurd hpc hno⟩
    change (nd'.peer c.peer).ssState.stConn = false at hend
    dsimp only
    rw [hend, Bool.not_false, Bool.or_true]
  · rw [WithDown.observe, if_neg hpc]
    refine ⟨fun hend => ?_, fun _ hend => ?_⟩
    · change (nd'.peer c.peer).ssState.stConn = false at hend
      dsimp only
      rw [hend, Bool.not_false, Bool.or_true]
    · change (nd'.peer c.peer).ssState.stConn = false at hend
      simp only [DownCall.heard, Bool.or_eq_true, decide_eq_true_eq, Bool.and_eq_true]
      cases hconn : (nd.peer c.peer).ssState.stConn with
      | false =>
        -- it had ended before
        have hold := h.heard hpc hconn
        simp only [DownCall.heard, Bool.or_eq_true, decide_eq_true_eq] at hold
        rcases hold with (hl | hf) | hm
        · exact .inl (.inl (.inl hl))
        · exact .inl (.inr hf)
        · exact .inr (.inl hm)
      | true =>
        obtain ⟨hi, hdown | hother⟩ := told_of_ends htells hconn hend
        · exact .inl (.inl (.inr hdown))
        · exact .inr (.inr ⟨hi, hother⟩)

omit [DecidableEq τ] in
/-- A step of a thread in the call leaves the connections alone. -/
theorem InvAt.of_peer (h : InvAt nd c)
    (hpeer : ∀ i, (nd'.peer i).ssState.stConn = (nd.peer i).ssState.stConn) : InvAt nd' c := by
  refine ⟨fun hend => h.ended ?_, fun hpc hend => h.heard hpc ?_⟩
  · rw [← hpeer]
    exact hend
  · rw [← hpeer]
    exact hend

theorem Inv.setCall {call : Option (DownCall n)} (h : g.Inv) (hcall : ∀ c ∈ call, InvAt g.node c) :
    (g.setCall t call).Inv := by
  intro t' c hc
  change c ∈ Function.update g.call t call t' at hc
  by_cases ht : t' = t
  · subst ht
    rw [Function.update_self] at hc
    exact hcall c hc
  · rw [Function.update_of_ne ht] at hc
    exact h t' c hc

omit [DecidableEq τ] in
theorem request_stConn (nd : Node n) (i j : Fin n) :
    ((nd.setLink i (linkDownRequest (nd.link i))).peer j).ssState.stConn =
      (nd.peer j).ssState.stConn := by
  by_cases hj : j = i
  · subst hj
    rw [Node.setLink_peer_self]
    rfl
  · rw [Node.setLink_peer_of_ne nd _ hj]

omit [DecidableEq τ] in
theorem inv_init (h : g.Fresh) : g.Inv := by
  intro t c hc
  rw [h.2 t] at hc
  cases hc

theorem inv_step (h : g.Inv) (hstep : g.Moves g') : g'.Inv := by
  obtain ⟨a, hnext⟩ := hstep
  cases a with
  | node a =>
    obtain ⟨⟨nd', sent⟩, hact, rfl⟩ := Option.map_eq_some_iff.mp hnext
    intro t c' hc'
    obtain ⟨c, hc, rfl⟩ := Option.map_eq_some_iff.mp hc'
    exact (h t c hc).observe (Node.act_announces hact)
  | check t i =>
    simp only [next] at hnext
    split at hnext
    · cases hnext
    split at hnext
    next hwaits =>
      cases hnext
      refine h.setCall fun c hc => ?_
      obtain rfl := Option.mem_some.mp hc
      -- the peer was connected a moment ago
      have hconn : (g.node.peer i).ssState.stConn = true := (Bool.and_eq_true_iff.mp hwaits).1
      refine ⟨fun hend => ?_, fun hno => absurd rfl hno⟩
      rw [hconn] at hend
      cases hend
    · cases hnext
      exact h
  | request t =>
    simp only [next] at hnext
    obtain ⟨c, hc, hnext⟩ := Option.bind_eq_some_iff.mp hnext
    split at hnext
    · cases hnext
      intro t' c' hc'
      by_cases ht : t' = t
      · subst ht
        dsimp only at hc'
        rw [Function.update_self] at hc'
        obtain rfl := Option.mem_some.mp hc'
        refine ⟨fun hend => (h t' c hc).ended ((request_stConn ..).symm.trans hend),
          fun _ hend => .inr ?_⟩
        have hgone : (g.node.peer c.peer).ssState.stConn = false :=
          (request_stConn ..).symm.trans hend
        dsimp only
        rw [hgone, Bool.not_false]
      · dsimp only at hc'
        rw [Function.update_of_ne ht] at hc'
        exact (h t' c' hc').of_peer fun j => request_stConn _ _ j
    · cases hnext
  | fetch t =>
    simp only [next] at hnext
    obtain ⟨c, hc, hnext⟩ := Option.bind_eq_some_iff.mp hnext
    split at hnext
    next hpc =>
      cases hnext
      have hold := h t c hc
      refine h.setCall fun c' hc' => ?_
      obtain rfl := Option.mem_some.mp hc'
      refine ⟨hold.ended, fun _ hend => (hold.heard (by simp [hpc]) hend).imp_left fun hheard => ?_⟩
      -- what the listener held is in the flags now
      simpa [DownCall.heard, hpc] using hheard
    · cases hnext
  | test t =>
    simp only [next] at hnext
    obtain ⟨c, hc, hnext⟩ := Option.bind_eq_some_iff.mp hnext
    split at hnext
    next down hpc =>
      cases hnext
      have hold := h t c hc
      refine h.setCall fun c' hc' => ?_
      split at hc'
      · cases hc'
      next hgo =>
        obtain rfl := Option.mem_some.mp hc'
        refine ⟨hold.ended, fun _ hend => ?_⟩
        change (g.node.peer c.peer).ssState.stConn = false at hend
        -- the flag was not the one of this call, or its peer is connected
        rw [hend, Bool.not_false, Bool.and_true] at hgo
        have hheard := hold.heard (by simp [hpc]) hend
        simpa [DownCall.heard, hpc, hgo] using hheard
    · cases hnext
  | timeout t =>
    simp only [next] at hnext
    obtain ⟨c, hc, hnext⟩ := Option.bind_eq_some_iff.mp hnext
    split at hnext
    · cases hnext
      refine h.setCall fun c' hc' => ?_
      cases hc'
    · cases hnext

omit [DecidableEq τ] in
/-- A call that returns has fetched its flag and sees its peer disconnected, or it has waited long
enough. -/
theorem returned_cases {a : DownAction τ n} {r : Except Errno Unit}
    (h : g.returned a = some (r, c)) :
    (∃ t, g.call t = some c ∧ r = .ok () ∧ (g.node.peer c.peer).ssState.stConn = false) ∨
      ∃ t, g.call t = some c ∧ r = .error .ETIMEDOUT ∧ c.pc = .waits := by
  cases a with
  | test t =>
    obtain ⟨c', hc, h⟩ := Option.bind_eq_some_iff.mp h
    split at h
    · split at h
      next hgo =>
        cases h
        rw [Bool.and_eq_true, Bool.not_eq_true'] at hgo
        exact .inl ⟨t, hc, rfl, hgo.2⟩
      · cases h
    · cases h
  | timeout t =>
    obtain ⟨c', hc, h⟩ := Option.bind_eq_some_iff.mp h
    split at h
    next hpc =>
      cases h
      exact .inr ⟨t, hc, rfl, hpc⟩
    · cases h
  | _ => cases h

/-- A call that waits for a peer that is gone has the event, or missed it. -/
theorem InvAt.listener_or_missed (h : InvAt nd c) (hpc : c.pc = .waits)
    (hend : (nd.peer c.peer).ssState.stConn = false) : c.listener = true ∨ c.missed = true := by
  have hheard := h.heard (by simp [hpc]) hend
  simpa [DownCall.heard, hpc] using hheard

/-- What the calls that wait say of their peers. -/
structure Informed (g : WithDown τ n) : Prop where
  /-- Success means that the connection has ended. -/
  ok : ∀ a c, g.returned a = some (.ok (), c) →
    (g.node.peer c.peer).ssState.stConn = false ∧ c.ended = true
  /-- A call that gives up is connected, or has the event before it, or missed the end. -/
  timedOut : ∀ a c, g.returned a = some (.error .ETIMEDOUT, c) →
    (g.node.peer c.peer).ssState.stConn = true ∨ c.listener = true ∨ c.missed = true
  /-- A call that waits and did not miss the end of its connection returns when it fetches its
  flags. -/
  returns : ∀ t c, g.call t = some c → c.pc = .waits →
    (g.node.peer c.peer).ssState.stConn = false → c.missed = false →
      ∃ g', g.next (.fetch t) = some g' ∧ ∃ c', g'.returned (.test t) = some (.ok (), c')

/-- A primary with two peers right after set-up, and two threads. -/
def primary : WithDown (Fin 2) 2 := ⟨(WithCalls.twoPeers .ndm { pri := true }).node, fun _ => none⟩

theorem fresh_primary : primary.Fresh :=
  ⟨(WithCalls.fresh_twoPeers .ndm (.inl rfl) { pri := true }).node, fun _ => rfl⟩

end WithDown

end IoHdlc
