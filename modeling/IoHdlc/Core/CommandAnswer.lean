import IoHdlc.Core.UResponse

/-!
A U command with P=1 is answered by its own response, over whole runs of a node.

`WithCommand` carries beside the node the last command that was taken up, until a frame with an
F bit goes out. `KeepsAnswer` is what the code has to avoid for the response to be that frame.
-/

namespace IoHdlc

variable {l : Link}

/-- What is left alone for one peer is left alone for the current one. -/
theorem setLink_keepsResponse {n : Nat} {nd : Node n} {i : Fin n}
    (h : (nd.link i).KeepsResponse l) :
    (nd.link nd.cPeer).KeepsResponse ((nd.setLink i l).link nd.cPeer) :=
  ⟨Node.setLink_peer_field Peer.response nd l h.response nd.cPeer, h.pRcved⟩

/-- Whether a received frame is a U command with a P bit that is taken up. -/
def takesUp (l : Link) (fp : Frame) : Bool :=
  isUFrm (fp.ctrl l.s.framing 0) && (fp.addr l.s.framing).toUInt32 = l.s.addr &&
    uFunction l fp ≠ IOHDLC_U_UI && acceptsUCommand l fp && linePF l.s.framing fp

/-- A node and the U command with P=1 that it has taken up and not answered. -/
structure WithCommand (n : Nat) where
  node : Node n
  due : Option UInt8

namespace WithCommand

variable {n : Nat}

/-- The current peer, under its lock. -/
def link (g : WithCommand n) : Link := g.node.link g.node.cPeer

/-- The command that waits behind an action: the last one that was taken up, until a frame with
an F bit is sent. -/
def after (g : WithCommand n) (a : Action n) (nd' : Node n) (sent : List Frame) : WithCommand n where
  node := nd'
  due := match a with
    | .receive fp => if takesUp g.link fp then some (uFunction g.link fp) else g.due
    | _ => if sent.any g.link.ownPF then none else g.due

/-- Whether an action leaves the command that waits to its response. -/
def keepsAnswer (g : WithCommand n) : Action n → Bool
  | .receive fp =>
    if isUFrm (fp.ctrl g.node.s.framing 0) then
      linePF g.node.s.framing fp = getPF g.node.s.framing fp &&
        (g.due.isNone || !answersUCommand g.link fp)
    else g.due.isNone || !rejectsFrame g.link fp
  | .txEntry take => g.due.isNone || take.uResponse.isSome && match g.node.pc with
    | .sched (.idle flags) =>
      !uCommandDue g.link flags ||
        if requestsOtherPeer g.link flags then g.node.ioHdlcNextPeer true = g.node.cPeer
        else !exhaustsUCommand g.link (.cRplytmo ∈ flags)
    | _ => true
  | .txSwitched take => g.due.isNone || take.uResponse.isSome && match g.node.pc with
    | .switched _ timedOut => !exhaustsUCommand g.link timedOut
    | _ => true
  | .txAdvance => g.due.isNone || g.node.ioHdlcNextPeer false = g.node.cPeer
  | .txIFrame => g.due.isNone || !answersByIFrame g.link
  | .txSFrame _ => g.due.isNone || match g.node.pc with
    | .sched (.skipIFrames _ iSent) =>
      !answersBySFrame g.link iSent &&
        (!g.node.s.isNrmPrimary || g.node.ioHdlcNextPeer false = g.node.cPeer)
    | _ => true
  | _ => true

/-- The two stations have two addresses, and the action leaves the command that waits to its
response. -/
structure KeepsAnswer (g : WithCommand n) (a : Action n) : Prop where
  addr : g.link.s.addr.toUInt8 ≠ g.link.p.addr.toUInt8
  answer : g.keepsAnswer a = true

instance {g : WithCommand n} {a : Action n} : Decidable (g.KeepsAnswer a) :=
  decidable_of_iff (g.link.s.addr.toUInt8 ≠ g.link.p.addr.toUInt8 ∧ g.keepsAnswer a = true)
    ⟨fun ⟨haddr, hanswer⟩ => ⟨haddr, hanswer⟩, fun ⟨haddr, hanswer⟩ => ⟨haddr, hanswer⟩⟩

/-- The response to the command that waits is prepared. -/
def Prepared (g : WithCommand n) : Prop := ∀ cmd ∈ g.due, g.link.Due cmd

/-- What the frames of an action have to respect: the F bit for a command is on its response. -/
def Answers (g : WithCommand n) (sent : List Frame) : Prop :=
  ∀ cmd ∈ g.due, ∀ fp ∈ sent, g.link.ownPF fp = true → g.link.Responds cmd fp

section Step

variable {g : WithCommand n} {nd' : Node n} {a : Action n} {sent : List Frame}

theorem answers_nil : g.Answers [] := fun _ _ _ h => absurd h List.not_mem_nil

theorem after_due (ha : ∀ fp, a ≠ .receive fp) :
    (g.after a nd' sent).due = if sent.any g.link.ownPF then none else g.due := by
  cases a with
  | receive fp => exact absurd rfl (ha fp)
  | _ => rfl

/-- A section that answers the command that waits, or leaves its response alone. -/
theorem step_of_section (ha : ∀ fp, a ≠ .receive fp) (hg : g.Prepared)
    (h : ∀ cmd ∈ g.due, (∀ fp ∈ sent, g.link.ownPF fp = true → g.link.Responds cmd fp) ∧
      ((∃ fp ∈ sent, g.link.Responds cmd fp) ∨
        nd'.cPeer = g.node.cPeer ∧ g.link.KeepsResponse (nd'.link g.node.cPeer))) :
    (g.after a nd' sent).Prepared ∧ g.Answers sent := by
  refine ⟨fun cmd hcmd => ?_, fun cmd hcmd => (h cmd hcmd).1⟩
  rw [after_due ha] at hcmd
  split at hcmd
  · cases hcmd
  next hno =>
    rcases (h cmd hcmd).2 with ⟨fp, hfp, hresponds⟩ | ⟨hc, hkeep⟩
    · exact absurd (List.any_eq_true.mpr ⟨fp, hfp, hresponds.ownPF⟩) hno
    · change (nd'.link nd'.cPeer).Due cmd
      rw [hc]
      exact (hg cmd hcmd).keeps hkeep

/-- A section that sends nothing and leaves the response alone. -/
theorem step_of_silent (ha : ∀ fp, a ≠ .receive fp) (hg : g.Prepared)
    (h : ∀ cmd ∈ g.due, nd'.cPeer = g.node.cPeer ∧ g.link.KeepsResponse (nd'.link g.node.cPeer)) :
    (g.after a nd' []).Prepared ∧ g.Answers [] :=
  step_of_section ha hg fun cmd hcmd => ⟨nofun, .inr (h cmd hcmd)⟩

theorem receive_answers (fp : Frame) (hg : g.Prepared) (hk : g.KeepsAnswer (.receive fp)) :
    (g.after (.receive fp) (g.node.receive fp) []).Prepared ∧ g.Answers [] := by
  refine ⟨fun cmd hcmd => ?_, answers_nil⟩
  have hlink : (g.node.receive fp).link g.node.cPeer =
      if isUFrm (fp.ctrl g.node.s.framing 0) then handleUFrame (Endpoint.lineBusy g.link) fp
      else (rxDispatch (Endpoint.lineBusy g.link) fp).1 := by
    rw [Node.receive, Node.setLink_link]
    rfl
  change ((g.node.receive fp).link g.node.cPeer).Due cmd
  change cmd ∈ (if takesUp g.link fp then some (uFunction g.link fp) else g.due) at hcmd
  rw [hlink]
  have hbusy : g.link.KeepsResponse (Endpoint.lineBusy g.link) := .of_eq rfl rfl
  have hanswer := hk.answer
  simp only [keepsAnswer] at hanswer
  split at hcmd
  next htake =>
    obtain rfl := Option.some.inj hcmd
    simp only [takesUp, Bool.and_eq_true, decide_eq_true_eq, ne_eq] at htake
    obtain ⟨⟨⟨⟨hu, haddr⟩, hui⟩, hacc⟩, hpf⟩ := htake
    rw [if_pos (show isUFrm (fp.ctrl g.node.s.framing 0) = true from hu), Bool.and_eq_true,
      decide_eq_true_eq] at hanswer
    rw [if_pos (show isUFrm (fp.ctrl g.node.s.framing 0) = true from hu), handleUFrame]
    have haddr' : (fp.addr (Endpoint.lineBusy g.link).s.framing).toUInt32 =
        (Endpoint.lineBusy g.link).s.addr := haddr
    have hui' : ¬uFunction (Endpoint.lineBusy g.link) fp = IOHDLC_U_UI := hui
    simp only [haddr', hui', not_true_eq_false, false_and, if_false, if_true]
    exact receiveUCommand_due (l := Endpoint.lineBusy g.link) hacc (hanswer.1 ▸ hpf)
  · have hdue := (hg cmd hcmd).keeps hbusy
    have hsome : g.due.isNone = false := Option.isNone_eq_false_iff.mpr (Option.isSome_of_mem hcmd)
    refine hdue.keeps ?_
    split at hanswer
    next hu =>
      rw [hsome, Bool.false_or, Bool.and_eq_true, Bool.not_eq_true'] at hanswer
      rw [if_pos hu]
      exact handleUFrame_keepsResponse hdue hanswer.2
    next hu =>
      rw [hsome, Bool.false_or, Bool.not_eq_true'] at hanswer
      rw [if_neg hu]
      exact rxDispatch_keepsResponse (Bool.eq_false_iff.mpr hu) hdue.frmrCondition hanswer

theorem request_answers {flags : EvtFlags} {timedOut : Bool} {take : Takes}
    (ha : ∀ fp, a ≠ .receive fp) (hg : g.Prepared) (hready : g.node.UmReady)
    (haddr : g.link.s.addr.toUInt8 ≠ g.link.p.addr.toUInt8)
    (hk : g.due.isNone = false → take.uResponse.isSome = true ∧
      exhaustsUCommand g.link timedOut = false) :
    let r := g.node.finishPass (serveRequest g.link flags timedOut take)
    (g.after a r.1 r.2).Prepared ∧ g.Answers r.2 := by
  refine step_of_section ha hg fun cmd hcmd => ?_
  obtain ⟨htake, hex⟩ := hk (Option.isNone_eq_false_iff.mpr (Option.isSome_of_mem hcmd))
  obtain ⟨hsent, hall⟩ := serveRequest_responds flags timedOut _
    (hready g.node.cPeer) haddr (hg cmd hcmd) hex htake
  refine ⟨hall, hsent.imp_right fun ⟨_, hkeep, hnext⟩ => ⟨Node.finishPass_cPeer hnext, ?_⟩⟩
  rw [Node.finishPass_link]
  exact hkeep

theorem txEntry_answers {flags : EvtFlags} {take : Takes} (hg : g.Prepared)
    (hready : g.node.UmReady) (hpc : g.node.pc = .sched (.idle flags))
    (hk : g.KeepsAnswer (.txEntry take)) :
    let r := g.node.txEntry flags take
    (g.after (.txEntry take) r.1 r.2).Prepared ∧ g.Answers r.2 := by
  have ha : ∀ fp, Action.txEntry (n := n) take ≠ .receive fp := nofun
  have hanswer : g.due.isNone = false → take.uResponse.isSome = true ∧
      (uCommandDue g.link flags = true →
        if requestsOtherPeer g.link flags then g.node.ioHdlcNextPeer true = g.node.cPeer
        else exhaustsUCommand g.link (.cRplytmo ∈ flags) = false) := by
    intro hsome
    have hanswer := hk.answer
    simp only [keepsAnswer, hpc, hsome, Bool.false_or, Bool.and_eq_true, Bool.or_eq_true,
      Bool.not_eq_true'] at hanswer
    refine hanswer.imp_right fun h hdue => ?_
    have h := h.resolve_left (Bool.eq_false_iff.not.mpr (not_not.mpr hdue))
    split at h
    next hother => simpa [hother] using h
    next hother => simpa [hother] using h
  simp only [Node.txEntry]
  split
  next hdue =>
    split
    next hother =>
      refine step_of_silent ha hg fun cmd hcmd => ?_
      obtain ⟨-, h⟩ := hanswer (Option.isNone_eq_false_iff.mpr (Option.isSome_of_mem hcmd))
      have h := h hdue
      rw [if_pos (show requestsOtherPeer g.link flags = true from hother)] at h
      exact ⟨h, .refl _⟩
    next hother =>
      refine request_answers ha hg hready hk.addr fun hsome => ?_
      obtain ⟨htake, h⟩ := hanswer hsome
      have h := h hdue
      rw [if_neg (show ¬requestsOtherPeer g.link flags = true from hother)] at h
      exact ⟨htake, h⟩
  · refine step_of_section ha hg fun cmd hcmd => ?_
    obtain ⟨htake, -⟩ := hanswer (Option.isNone_eq_false_iff.mpr (Option.isSome_of_mem hcmd))
    obtain ⟨hsent, hall⟩ := servePeer_responds flags _ (hready g.node.cPeer) (hg cmd hcmd)
      htake
    exact ⟨hall, .inl hsent⟩

theorem txIFrame_answers {flags : EvtFlags} {iSent : Bool} (hg : g.Prepared)
    (hk : g.KeepsAnswer .txIFrame) :
    let t := connectedTxIFrame g.link flags iSent
    (g.after .txIFrame (g.node.finishTx t) t.sent.toList).Prepared ∧ g.Answers t.sent.toList := by
  refine step_of_section nofun hg fun cmd hcmd => ?_
  have hanswer := hk.answer
  rw [keepsAnswer, Option.isNone_eq_false_iff.mpr (Option.isSome_of_mem hcmd), Bool.false_or,
    Bool.not_eq_true'] at hanswer
  obtain ⟨hkeep, hno⟩ := connectedTxIFrame_keepsResponse hk.addr hanswer flags iSent
  refine ⟨fun fp hfp hpf => ?_, .inr ⟨?_, ?_⟩⟩
  · exact absurd ((hno fp (Option.mem_toList.mp hfp)).symm.trans hpf) Bool.false_ne_true
  · simp only [Node.finishTx, connectedTxIFrame_nextPeer, Bool.false_eq_true, if_false]
    rfl
  · rw [Node.finishTx_link]
    exact hkeep

theorem txSFrame_answers {flags : EvtFlags} {iSent : Bool} {take : Nat → Option Frame}
    (hg : g.Prepared) (hpc : g.node.pc = .sched (.skipIFrames flags iSent))
    (hk : g.KeepsAnswer (.txSFrame take)) :
    let t := connectedTxSFrame g.link flags iSent take
    (g.after (.txSFrame take) (g.node.finishTx t) t.sent.toList).Prepared ∧
      g.Answers t.sent.toList := by
  refine step_of_section nofun hg fun cmd hcmd => ?_
  have hanswer := hk.answer
  simp only [keepsAnswer, hpc, Option.isNone_eq_false_iff.mpr (Option.isSome_of_mem hcmd),
    Bool.false_or, Bool.and_eq_true, Bool.or_eq_true, Bool.not_eq_true', decide_eq_true_eq]
    at hanswer
  obtain ⟨hkeep, hno⟩ := connectedTxSFrame_keepsResponse hk.addr hanswer.1 flags take
  refine ⟨fun fp hfp hpf => ?_, .inr ⟨?_, ?_⟩⟩
  · exact absurd ((hno fp (Option.mem_toList.mp hfp)).symm.trans hpf) Bool.false_ne_true
  · have hconn := (connectedTxSFrame_keeps g.link flags iSent take).1.toKeeps
    refine Node.finishTx_cPeer (congrArg Bool.not hconn.stConn) hconn.umCmd fun hnext => ?_
    refine hanswer.2.resolve_left fun hpri => ?_
    exact Bool.false_ne_true (hpri.symm.trans (connectedTxSFrame_nextPeer hnext))
  · rw [Node.finishTx_link]
    exact hkeep

theorem after_prepared (hready : g.node.UmReady) (hg : g.Prepared) (hk : g.KeepsAnswer a)
    (hact : g.node.act a = some (nd', sent)) : (g.after a nd' sent).Prepared ∧ g.Answers sent := by
  cases a with
  | receive fp =>
    cases hact
    exact receive_answers fp hg hk
  | lineIdle =>
    cases hact
    refine step_of_silent (by simp) hg fun _ _ => ⟨rfl, ?_⟩
    rw [Node.setLink_link]
    exact .of_eq rfl rfl
  | txFetch =>
    simp only [Node.act] at hact
    split at hact
    · split at hact
      · cases hact
        exact step_of_silent (by simp) hg fun _ _ => ⟨rfl, .of_eq rfl rfl⟩
      · cases hact
    · cases hact
  | txEntry take =>
    simp only [Node.act] at hact
    split at hact
    next flags hpc =>
      split at hact
      · have hentry := txEntry_answers hg hready hpc hk
        rw [Option.some.inj hact] at hentry
        exact hentry
      · cases hact
    · cases hact
  | txSwitched take =>
    simp only [Node.act] at hact
    split at hact
    next flags timedOut hpc =>
      have hrequest := @request_answers n g (.txSwitched take) flags timedOut take (by simp) hg hready
        hk.addr fun hsome => by
          have hanswer := hk.answer
          simpa only [keepsAnswer, hpc, hsome, Bool.false_or, Bool.and_eq_true,
            Bool.not_eq_true'] using hanswer
      rw [link, Option.some.inj hact] at hrequest
      exact hrequest
    · cases hact
  | txAdvance =>
    simp only [Node.act] at hact
    split at hact
    · cases hact
      refine step_of_silent (by simp) hg fun cmd hcmd => ?_
      have hanswer := hk.answer
      rw [keepsAnswer, Option.isNone_eq_false_iff.mpr (Option.isSome_of_mem hcmd), Bool.false_or,
        decide_eq_true_eq] at hanswer
      simp only [Node.txAdvance]
      split
      · exact ⟨hanswer, .refl _⟩
      · refine ⟨hanswer, ?_⟩
        rcases Node.needP_peers g.node (g.node.ioHdlcNextPeer false) g.node.cPeer with h | h
        · exact .of_eq (congrArg Peer.response h) rfl
        · exact .of_eq ((congrArg Peer.response h).trans rfl) rfl
    · cases hact
  | txCheck =>
    simp only [Node.act] at hact
    split at hact
    · cases hact
      exact step_of_silent (by simp) hg fun _ _ => ⟨rfl, .refl _⟩
    · cases hact
  | txIFrame =>
    simp only [Node.act] at hact
    split at hact
    · cases hact
      exact txIFrame_answers hg hk
    · cases hact
  | txSFrame take =>
    simp only [Node.act] at hact
    split at hact
    next flags iSent hpc =>
      cases hact
      exact txSFrame_answers hg hpc hk
    · cases hact
  | linkUp i mode nrmOnly =>
    cases hact
    have hkeep := linkUpStart_keepsResponse (g.node.link i) mode nrmOnly
    refine step_of_silent (by simp) hg fun _ _ => ?_
    split
    all_goals exact ⟨rfl, (setLink_keepsResponse hkeep :)⟩
  | linkUpDone call | linkUpFails call =>
    simp only [Node.act] at hact
    split at hact
    · cases hact
      exact step_of_silent (by simp) hg fun _ _ => ⟨rfl, .of_eq rfl rfl⟩
    · cases hact
  | linkDown i =>
    cases hact
    exact step_of_silent (by simp) hg fun _ _ =>
      ⟨rfl, setLink_keepsResponse (linkDownStart_keepsResponse (g.node.link i))⟩
  | peer i op =>
    simp only [Node.act, Option.map_eq_some_iff] at hact
    obtain ⟨r, hr, hact⟩ := hact
    cases hact
    exact step_of_silent (by simp) hg fun _ _ =>
      ⟨rfl, (setLink_keepsResponse (PeerOp.apply_keepsResponse hr) :)⟩
  | poolState | poolChange =>
    cases hact
    exact step_of_silent (by simp) hg fun _ _ => ⟨rfl, .of_eq rfl rfl⟩

end Step

def Fresh (g : WithCommand n) : Prop := g.node.Fresh ∧ g.due = none

def Moves (ok : WithCommand n → Action n → Prop) (g g' : WithCommand n) : Prop :=
  ∃ a nd' sent, ok g a ∧ g.node.act a = some (nd', sent) ∧ g' = g.after a nd' sent

variable {g : WithCommand n}

/-- In a run whose actions leave the commands to their responses, the response to a command with
P=1 is prepared until it is sent: the pass that comes to it, with a frame from the pool, answers
with it, and no other frame takes the F bit. -/
theorem answers_of_keepsAnswer (hrun : Kit.Reachable Fresh (Moves KeepsAnswer) g) :
    (∀ cmd ∈ g.due, ∀ flags (take : Takes), take.uResponse.isSome = true →
        ∃ fp ∈ (servePeer g.link flags take).sent, g.link.Responds cmd fp) ∧
      ∀ a nd' sent, g.KeepsAnswer a → g.node.act a = some (nd', sent) → g.Answers sent := by
  obtain ⟨hready, hg⟩ := hrun.invariant (fun g => g.node.UmReady ∧ g.Prepared)
    (fun g h => ⟨h.1.umReady, fun cmd hcmd => by rw [h.2] at hcmd; cases hcmd⟩)
    fun _ _ hg hmove => by
      obtain ⟨a, nd', sent, hk, hact, rfl⟩ := hmove
      exact ⟨(Node.act_staysReady hact).ready hg.1, (after_prepared hg.1 hg.2 hk hact).1⟩
  refine ⟨fun cmd hcmd flags take htake => ?_, fun a nd' sent hk hact => ?_⟩
  · exact (servePeer_responds _ _ (hready g.node.cPeer) (hg cmd hcmd) htake).1
  · exact (after_prepared hready hg hk hact).2

/-- The node and the command that waits behind an action. -/
def next (g : WithCommand n) (a : Action n) : Option (WithCommand n) :=
  (g.node.act a).map fun r => g.after a r.1 r.2

theorem moves_next {ok : WithCommand n → Action n → Prop} {g g' : WithCommand n} {a : Action n}
    (hok : ok g a) (h : g.next a = some g') : Moves ok g g' := by
  obtain ⟨⟨nd', sent⟩, hact, rfl⟩ := Option.map_eq_some_iff.mp h
  exact ⟨a, nd', sent, hok, hact, rfl⟩

/-- A secondary right after set-up. -/
def secondary : WithCommand 1 := ⟨Node.onePeer .ndm {} 1 2, none⟩

theorem fresh_secondary : secondary.Fresh := ⟨Node.fresh_onePeer .ndm (.inl rfl) {} 1 2, rfl⟩

/-- A connected secondary receives a DISC, and its worker is about to serve it. -/
theorem answers_of_keepsAnswer_disc :
    ∃ g : WithCommand 1, g.due = some IOHDLC_U_DISC ∧
      ∃ (a : Action 1) (nd' : Node 1) (fp : Frame), g.node.act a = some (nd', [fp]) ∧
        g.link.ownPF fp = true ∧ g.Answers [fp] := by
  obtain ⟨g, hrun, hp⟩ := Kit.Reachable.exists_of_run
    (fun (g : WithCommand 1) a => if g.KeepsAnswer a then g.next a else none)
    (fun g a g' h => by
      split at h
      next hk => exact moves_next hk h
      · cases h)
    (.start fresh_secondary : Kit.Reachable Fresh (Moves KeepsAnswer) _)
    [.receive (Node.shortFrame 1 0x93), .txFetch, .txEntry { uResponse := some default }, .txCheck,
      .txIFrame, .txSFrame fun _ => none, .receive (Node.shortFrame 1 0x53), .txFetch]
    (fun g => decide (g.due = some IOHDLC_U_DISC) &&
      decide (g.KeepsAnswer (.txEntry { uResponse := some default })) &&
      g.node.sendsOne (.txEntry { uResponse := some default }) g.link.ownPF) (by decide +kernel)
  simp only [Bool.and_eq_true, decide_eq_true_eq] at hp
  obtain ⟨⟨hdue, hk⟩, hsent⟩ := hp
  obtain ⟨nd', fp, hact, hpf⟩ := Node.exists_of_sendsOne hsent
  exact ⟨g, hdue, _, nd', fp, hact, hpf, (answers_of_keepsAnswer hrun).2 _ nd' [fp] hk hact⟩

/-- The DISC arrives when the worker is in its last section: the F bit goes out on RR. -/
theorem answers_fails_in_connectedTx :
    ¬∀ g : WithCommand 1, Kit.Reachable Fresh (Moves fun _ _ => True) g →
      ∀ a nd' sent, g.node.act a = some (nd', sent) → g.Answers sent := by
  intro hclaim
  obtain ⟨g, hrun, hp⟩ := Kit.Reachable.exists_of_run next
    (fun _ _ _ h => moves_next trivial h)
    (.start fresh_secondary : Kit.Reachable Fresh (Moves fun _ _ => True) _)
    [.receive (Node.shortFrame 1 0x93), .txFetch, .txEntry { uResponse := some default }, .txCheck,
      .txIFrame, .receive (Node.shortFrame 1 0x53)]
    (fun g => decide (g.due = some IOHDLC_U_DISC) &&
      g.node.sendsOne (.txSFrame fun _ => some default) fun fp =>
        g.link.ownPF fp && decide (frameType g.link.s.framing fp = .sFrame)) (by decide +kernel)
  rw [Bool.and_eq_true, decide_eq_true_eq] at hp
  obtain ⟨hdue, hsent⟩ := hp
  obtain ⟨nd', fp, hact, hfp⟩ := Node.exists_of_sendsOne hsent
  rw [Bool.and_eq_true, decide_eq_true_eq] at hfp
  have hresponds := hclaim g hrun _ nd' [fp] hact IOHDLC_U_DISC hdue fp (List.mem_singleton.mpr rfl)
    hfp.1
  have htype := hfp.2.symm.trans hresponds.type
  cases htype

end WithCommand

/-! ### No frame for the response -/

/-- What is recorded of a received command. -/
structure PendingCommand where
  rcved : Bool
  umCmd : UInt8
  umRsp : UInt8
  umRspFrame : Option Frame
  pRcved : Bool
  stConn : Bool

def Link.pendingCommand (l : Link) : PendingCommand where
  rcved := l.p.umState.rcved
  umCmd := l.p.umCmd
  umRsp := l.p.umRsp
  umRspFrame := l.p.umRspFrame
  pRcved := l.s.pfState.pRcved
  stConn := l.p.ssState.stConn

/-- Where the section for U responses sends nothing, the command is as pending as it was. -/
def KeepsCommand (l : Link) (flags : EvtFlags) (take : Option Frame) : Prop :=
  (uResponseStage l flags take).2.1 = none →
    (uResponseStage l flags take).1.pendingCommand = l.pendingCommand

/-- Whether there is a frame for the response: the received one for TEST, one from the pool for
the others. -/
def hasResponseFrame (l : Link) (take : Option Frame) : Bool :=
  if l.p.umRsp = IOHDLC_U_TEST then l.p.umRspFrame.isSome else take.isSome

theorem uResponseFrame_isSome (l : Link) (setf : Bool) (take : Option Frame) :
    (uResponseFrame l setf take).isSome = hasResponseFrame l take := by
  rw [uResponseFrame, hasResponseFrame]
  split
  · rw [Option.isSome_map]
  · rw [Option.isSome_map]

/-- The section takes the command off before it knows of a frame. -/
theorem not_keepsCommand {l : Link} {take : Option Frame} (hrcved : l.p.umState.rcved = true)
    (hno : hasResponseFrame l take = false) (flags : EvtFlags) : ¬KeepsCommand l flags take := by
  rw [← uResponseFrame_isSome l l.s.pfState.pRcved take, Option.isSome_eq_false_iff,
    Option.isNone_iff_eq_none] at hno
  rw [KeepsCommand, uResponseStage, if_pos hrcved]
  simp only [sendUResponse, hno]
  intro h
  have hlost := congrArg PendingCommand.rcved (h trivial)
  exact Bool.false_ne_true (hlost.trans hrcved)

/-- A command that is being answered comes through the section just if there is a frame for its
response. -/
theorem keepsCommand_iff {l : Link} (hrcved : l.p.umState.rcved = true) (flags : EvtFlags)
    (take : Option Frame) : KeepsCommand l flags take ↔ hasResponseFrame l take = true := by
  constructor
  · intro hkeeps
    by_contra hno
    exact not_keepsCommand hrcved (Bool.eq_false_iff.mpr hno) flags hkeeps
  · intro hframe hnone
    rw [← uResponseFrame_isSome l l.s.pfState.pRcved take] at hframe
    obtain ⟨fp, hfp⟩ := Option.isSome_iff_exists.mp hframe
    rw [uResponseStage, if_pos hrcved] at hnone
    simp only [sendUResponse, hfp] at hnone
    cases hnone

namespace Node

/-- A connected secondary that has received a DISC. -/
theorem exists_disc_pending :
    ∃ nd : Node 1, Kit.Reachable Fresh (Moves Anything) nd ∧
      (nd.peer nd.cPeer).umState.rcved = true ∧ (nd.peer nd.cPeer).umCmd = IOHDLC_U_DISC ∧
        (nd.peer nd.cPeer).umRsp = IOHDLC_U_UA := by
  obtain ⟨nd, hrun, hp⟩ := Kit.Reachable.exists_of_run next (fun _ _ _ h => moves_next h)
    (.start (fresh_onePeer .ndm (.inl rfl) {} 1 2))
    [.receive (shortFrame 1 0x93), .txFetch, .txEntry { uResponse := some default }, .txCheck,
      .txIFrame, .txSFrame fun _ => none, .receive (shortFrame 1 0x53)]
    (fun nd => (nd.peer nd.cPeer).umState.rcved && decide ((nd.peer nd.cPeer).umCmd = IOHDLC_U_DISC) &&
      decide ((nd.peer nd.cPeer).umRsp = IOHDLC_U_UA)) (by decide +kernel)
  simp only [Bool.and_eq_true, decide_eq_true_eq] at hp
  exact ⟨nd, hrun, hp.1.1, hp.1.2, hp.2⟩

end Node

/-- The DISC is kept where the pool gives a frame. -/
theorem keepsCommand_iff_disc :
    ∃ nd : Node 1, (nd.peer nd.cPeer).umCmd = IOHDLC_U_DISC ∧
      KeepsCommand (nd.link nd.cPeer) {.umRecvd} (some default) := by
  obtain ⟨nd, -, hrcved, hcmd, hrsp⟩ := Node.exists_disc_pending
  refine ⟨nd, hcmd, (keepsCommand_iff hrcved _ _).mpr ?_⟩
  rw [hasResponseFrame, Node.link_p, hrsp, if_neg (by decide)]
  rfl

/-- The pool is empty when the DISC is to be answered: no UA, and no disconnection. -/
theorem keepsCommand_fails_on_shortage :
    ¬∀ nd : Node 1, Kit.Reachable Node.Fresh (Node.Moves Node.Anything) nd →
      (nd.peer nd.cPeer).umState.rcved = true →
        ∀ flags take, KeepsCommand (nd.link nd.cPeer) flags take := by
  intro hclaim
  obtain ⟨nd, hrun, hrcved, -, hrsp⟩ := Node.exists_disc_pending
  refine not_keepsCommand hrcved ?_ {.umRecvd} (hclaim nd hrun hrcved {.umRecvd} none)
  rw [hasResponseFrame, Node.link_p, hrsp, if_neg (by decide)]
  rfl

end IoHdlc
