import IoHdlc.Frames.Ownership
import Mathlib.Algebra.Order.BigOperators.Group.Finset

/-!
No frame that somebody writes is with the driver.

The driver and the core share a frame only while it is an I frame in one of the transmit queues.
The TX gate keeps the worker from its header meanwhile; any other frame that a thread or the
reception works on came from the pool, which gives no frame that the driver refers to, and leaves
the places of its peer before it is sent.
-/

namespace IoHdlc

open Kit

/-! ### The places that are not sent from -/

/-- What a peer refers to outside its transmit queues. -/
def PeerFrames.apart {F : Type} (p : PeerFrames F) : List F :=
  p.iReceptQ ++ p.umApiFrame.toList ++ p.umRspFrame.toList ++ p.partialReadFrame.toList

namespace Holdings

variable {F C A : Type} [DecidableEq F] (l : Link) (x : Holdings F C A) {fp f : F}

omit [DecidableEq F] in
theorem mem_apart {p : PeerFrames F} : f ∈ p.apart ↔
    f ∈ p.iReceptQ ∨ p.umApiFrame = some f ∨ p.umRspFrame = some f ∨
      p.partialReadFrame = some f := by
  simp [PeerFrames.apart]

theorem resetPeerVars_apart : x.resetPeerVars.peer.apart = [] := rfl

theorem resetPeerProtocolState_apart (h : f ∈ x.resetPeerProtocolState.peer.apart) :
    f ∈ x.peer.apart := by
  rw [mem_apart] at h ⊢
  simp only [resetPeerProtocolState, clearPeerUmFrames] at h
  rcases h with h | h | h | h
  · exact .inl h
  · cases h
  · cases h
  · exact .inr (.inr (.inr h))

theorem closePeerOrderly_apart (h : f ∈ x.closePeerOrderly.peer.apart) : f ∈ x.peer.apart :=
  x.resetPeerProtocolState_apart h

theorem serveUCommand_apart (v : Frame) (h : f ∈ (x.serveUCommand l v fp).1.peer.apart) :
    f ∈ fp :: x.peer.apart := by
  simp only [serveUCommand] at h
  split at h
  · rw [resetPeerVars_apart] at h
    cases h
  split at h
  · exact List.mem_cons_of_mem _ h
  split at h
  · rw [mem_apart] at h
    rw [List.mem_cons, mem_apart]
    rcases h with h | h | h | h
    · exact .inr (.inl h)
    · exact .inr (.inr (.inl h))
    · exact .inl (Option.some.inj h).symm
    · exact .inr (.inr (.inr (.inr h)))
  · exact List.mem_cons_of_mem _ h

theorem serveTestResponse_apart (h : f ∈ (x.serveTestResponse fp).peer.apart) :
    f ∈ fp :: x.peer.apart := by
  rw [mem_apart] at h
  rw [List.mem_cons, mem_apart]
  rcases h with h | h | h | h
  · exact .inr (.inl h)
  · exact .inl (Option.some.inj h).symm
  · exact .inr (.inr (.inr (.inl h)))
  · exact .inr (.inr (.inr (.inr h)))

theorem serveUResponse_apart (v : Frame) (h : f ∈ (x.serveUResponse l v).peer.apart) :
    f ∈ x.peer.apart := by
  have hreset (h : f ∈ x.resetPeerVars.peer.apart) : f ∈ x.peer.apart := by
    rw [resetPeerVars_apart] at h
    cases h
  simp only [serveUResponse] at h
  split at h
  · split at h
    · exact x.closePeerOrderly_apart h
    · exact hreset h
  split at h
  · split at h
    · exact x.closePeerOrderly_apart h
    · exact h
  · exact h

theorem handleUFrame_apart (v : Frame) (h : f ∈ (x.handleUFrame l v fp).1.peer.apart) :
    f ∈ fp :: x.peer.apart := by
  have hkept (h : f ∈ x.peer.apart) : f ∈ fp :: x.peer.apart := List.mem_cons_of_mem _ h
  simp only [handleUFrame] at h
  split at h
  · exact hkept h
  split at h
  · exact hkept h
  split at h
  · split at h
    · exact x.serveUCommand_apart l v h
    · exact hkept h
  split at h
  · split at h
    · exact x.serveTestResponse_apart h
    · exact hkept (x.serveUResponse_apart l v h)
  · exact hkept h

/-- An acknowledgement works on the transmit queues only. -/
theorem handleCheckpointAndAck_apart (nr : UInt32) (pf isCommand : Bool) :
    (x.handleCheckpointAndAck l nr pf isCommand).peer.apart = x.peer.apart := by
  simp only [handleCheckpointAndAck, checkpointRetransmit]
  split
  · split <;> rfl
  · rfl

omit [DecidableEq F] in
theorem handleSFrame_apart (v : Frame) : (x.handleSFrame l v).peer.apart = x.peer.apart := by
  rw [handleSFrame]
  split <;> rfl

omit [DecidableEq F] in
theorem deliver_apart (h : f ∈ (x.deliver fp).peer.apart) : f ∈ fp :: x.peer.apart := by
  rw [mem_apart] at h
  rw [List.mem_cons, mem_apart]
  rcases h with h | h | h | h
  · rcases List.mem_append.mp h with h | h
    · exact .inr (.inl h)
    · exact .inl (List.mem_singleton.mp h)
  · exact .inr (.inr (.inl h))
  · exact .inr (.inr (.inr (.inl h)))
  · exact .inr (.inr (.inr (.inr h)))

theorem commonRx_apart (v : Frame) (isCommand : Bool)
    (h : f ∈ (x.commonRx l v isCommand fp).1.peer.apart) : f ∈ fp :: x.peer.apart := by
  simp only [commonRx] at h
  split at h
  · exact List.mem_cons_of_mem _ h
  split at h
  · exact List.mem_cons_of_mem _ h
  split at h
  · split at h
    · have hdelivered := deliver_apart _ h
      rwa [handleCheckpointAndAck_apart] at hdelivered
    · rw [handleCheckpointAndAck_apart] at h
      exact List.mem_cons_of_mem _ h
  · rw [handleSFrame_apart, handleCheckpointAndAck_apart] at h
    exact List.mem_cons_of_mem _ h

theorem rxEntry_apart (v : Frame) (h : f ∈ (x.rxEntry l v fp).1.peer.apart) :
    f ∈ fp :: x.peer.apart := by
  rw [rxEntry] at h
  split at h
  · exact x.handleUFrame_apart l v h
  split at h
  · exact x.commonRx_apart l v _ h
  · exact List.mem_cons_of_mem _ h

theorem handleTimeoutRetry_apart (h : f ∈ (x.handleTimeoutRetry l).peer.apart) :
    f ∈ x.peer.apart := by
  rw [handleTimeoutRetry] at h
  split at h
  · exact x.resetPeerProtocolState_apart h
  · exact h

/-- A frame that a section gives to the TX worker was with the peer, or comes from the pool. -/
theorem uCommandFrame_apart (h : f ∈ x.uCommandFrame.2.toList ∨ f ∈ x.uCommandFrame.1.peer.apart) :
    f ∈ x.peer.apart ∨ x.pool.taken = some f := by
  rw [uCommandFrame] at h
  split at h
  next fp hfp =>
    rw [mem_apart] at h ⊢
    rcases h with h | h | h | h | h
    · exact .inl (.inr (.inl (hfp.trans (Option.mem_toList.mp h))))
    · exact .inl (.inl h)
    · cases h
    · exact .inl (.inr (.inr (.inl h)))
    · exact .inl (.inr (.inr (.inr h)))
  · rcases h with h | h
    · exact .inr (Option.mem_toList.mp h)
    · exact .inl h

theorem uResponseFrame_apart
    (h : f ∈ (x.uResponseFrame l).2.toList ∨ f ∈ (x.uResponseFrame l).1.peer.apart) :
    f ∈ x.peer.apart ∨ x.pool.taken = some f := by
  rw [uResponseFrame] at h
  split at h
  · rw [mem_apart] at *
    rcases h with h | h | h | h | h
    · exact .inl (.inr (.inr (.inl (Option.mem_toList.mp h))))
    · exact .inl (.inl h)
    · exact .inl (.inr (.inl h))
    · cases h
    · exact .inl (.inr (.inr (.inr h)))
  · rcases h with h | h
    · exact .inr (Option.mem_toList.mp h)
    · exact .inl h

theorem uResponseSent_apart (h : f ∈ (x.uResponseSent l).peer.apart) : f ∈ x.peer.apart := by
  rw [uResponseSent] at h
  split at h
  · exact x.closePeerOrderly_apart h
  · exact h

omit [DecidableEq F] in
theorem writeInsert_apart : (x.writeInsert l fp).1.peer.apart = x.peer.apart := by
  rw [writeInsert]
  split <;> rfl

theorem readFrame_apart (consumed : Bool) (h : f ∈ (x.readFrame consumed).peer.apart) :
    f ∈ x.peer.apart := by
  simp only [readFrame] at h
  split at h
  · split at h
    · rw [mem_apart] at *
      rcases h with h | h | h | h
      · exact .inl h
      · exact .inr (.inl h)
      · exact .inr (.inr (.inl h))
      · cases h
    · exact h
  next hpartial =>
    split at h
    · exact h
    next fp q hq =>
      rw [mem_apart, hq]
      split at h
      · rw [mem_apart] at h
        rcases h with h | h | h | h
        · exact .inl (List.mem_cons_of_mem _ h)
        · exact .inr (.inl h)
        · exact .inr (.inr (.inl h))
        · exact .inr (.inr (.inr h))
      · rw [mem_apart] at h
        rcases h with h | h | h | h
        · exact .inl (List.mem_cons_of_mem _ h)
        · exact .inr (.inl h)
        · exact .inr (.inr (.inl h))
        · cases h
          exact .inl List.mem_cons_self

omit [DecidableEq F] in
theorem peerTestStart_apart (h : f ∈ (x.peerTestStart l fp).1.peer.apart) :
    f ∈ fp :: x.peer.apart := by
  rw [peerTestStart] at h
  split at h
  · exact List.mem_cons_of_mem _ h
  · rw [mem_apart] at h
    rw [List.mem_cons, mem_apart]
    rcases h with h | h | h | h
    · exact .inr (.inl h)
    · exact .inl (Option.some.inj h).symm
    · exact .inr (.inr (.inr (.inl h)))
    · exact .inr (.inr (.inr (.inr h)))

omit [DecidableEq F] in
/-- The slot of the API is emptied. -/
theorem apart_of_umApiFrame (h : f ∈ ({ x.peer with umApiFrame := none } : PeerFrames F).apart) :
    f ∈ x.peer.apart := by
  rw [mem_apart] at h ⊢
  rcases h with h | h | h | h
  · exact .inl h
  · cases h
  · exact .inr (.inr (.inl h))
  · exact .inr (.inr (.inr h))

omit [DecidableEq F] in
theorem sTakeCompletedTestFrame_apart (h : f ∈ (x.sTakeCompletedTestFrame l).1.peer.apart) :
    f ∈ x.peer.apart := by
  rw [sTakeCompletedTestFrame] at h
  split at h
  · exact h
  · exact x.apart_of_umApiFrame h

omit [DecidableEq F] in
theorem peerTestExpire_apart (h : f ∈ (x.peerTestExpire l).1.peer.apart) : f ∈ x.peer.apart := by
  simp only [peerTestExpire] at h
  split at h
  next y rspFp hr => exact x.sTakeCompletedTestFrame_apart l (hr ▸ h)
  next y hr =>
    have hkept : ∀ f ∈ y.peer.apart, f ∈ x.peer.apart := fun f hf =>
      x.sTakeCompletedTestFrame_apart l (hr ▸ hf)
    split at h
    · exact hkept f (y.apart_of_umApiFrame h)
    · exact hkept f h

end Holdings

/-! ### The station -/

/-- The frame whose header the worker writes, up to `hdlcSendFrame`. -/
def TxHold.edited {P F : Type} : TxHold P F → Option F
  | .outside => none
  | .inside _ => none
  | .dequeued _ _ => none
  | .stamping _ fp => some fp
  | .sending _ fp _ => some fp
  | .sent _ _ => none

namespace FrameSite

variable {P F C A : Type} {g g' : FrameSite P F C A} {fp : F}

/-- The frames of the reception, of the writers and of the PeerTest callers. -/
def edited (g : FrameSite P F C A) : List F :=
  g.inFrame.toList ++ g.receptQ ++ g.rxFp.toList ++ g.writing.map Prod.snd ++
    g.testing.map Prod.snd

/-- Somebody reads or writes the octets of the frame, or will. -/
def InUse (g : FrameSite P F C A) (fp : F) : Prop :=
  (fp ∈ g.edited ∨ ∃ p, fp ∈ (g.peer p).apart) ∨ g.txHold.edited = some fp

theorem mem_edited : fp ∈ g.edited ↔ g.inFrame = some fp ∨ fp ∈ g.receptQ ∨ g.rxFp = some fp ∨
    (∃ p, (p, fp) ∈ g.writing) ∨ ∃ p, (p, fp) ∈ g.testing := by
  simp [edited]

variable [DecidableEq F] [Fintype P]

/-- The references by their places. -/
theorem count_owned (g : FrameSite P F C A) (fp : F) : g.owned.count fp =
    (g.edited.count fp + ∑ p, (g.peer p).apart.count fp) +
      (g.txHold.hand.toList.count fp + ∑ p, ((g.peer p).iTransQ ++ (g.peer p).iRetransQ).count fp) +
      (g.dropping.count fp + g.lost.count fp) := by
  have hplaces : ∀ p, (g.peer p).owned.count fp =
      (g.peer p).apart.count fp + ((g.peer p).iTransQ ++ (g.peer p).iRetransQ).count fp := by
    intro p
    simp only [PeerFrames.owned, PeerFrames.apart, Multiset.count_add, Multiset.coe_count,
      List.count_append]
    omega
  have hsum : ∑ p, (g.peer p).owned.count fp = ∑ p, (g.peer p).apart.count fp +
      ∑ p, ((g.peer p).iTransQ ++ (g.peer p).iRetransQ).count fp := by
    rw [← Finset.sum_add_distrib]
    exact Finset.sum_congr rfl fun p _ => hplaces p
  rw [owned, Multiset.count_add, Multiset.count_add, Multiset.count_sum', hsum]
  simp only [inHands, edited, Multiset.coe_count, List.count_append]
  omega

/-- A frame in one of those places is counted there. -/
theorem count_places (h : fp ∈ g.edited ∨ ∃ p, fp ∈ (g.peer p).apart) :
    1 ≤ g.edited.count fp + ∑ p, (g.peer p).apart.count fp := by
  rcases h with h | ⟨p, h⟩
  · exact Nat.le_add_right_of_le (List.count_pos_iff.mpr h)
  · have hp : (g.peer p).apart.count fp ≤ ∑ p, (g.peer p).apart.count fp :=
      Finset.single_le_sum (f := fun p => (g.peer p).apart.count fp) (fun _ _ => Nat.zero_le _)
        (Finset.mem_univ p)
    exact Nat.le_add_left_of_le ((List.count_pos_iff.mpr h).trans_le hp)

namespace Balanced

variable {u : PoolSetup F C A} {p : P}

/-- The frame that the worker sends is nowhere else but in the transmit queues. -/
theorem notMem_places (h : g.Balanced u) {own : Bool} (hhold : g.txHold = .sending p fp own) :
    ¬(fp ∈ g.edited ∨ ∃ p, fp ∈ (g.peer p).apart) := by
  intro hplaces
  have hone : g.owned.count fp ≤ 1 := Multiset.nodup_iff_count_le_one.mp h.settled.nodup fp
  have hplace := count_places hplaces
  have hsent : 1 ≤ g.txHold.hand.toList.count fp +
      ∑ p, ((g.peer p).iTransQ ++ (g.peer p).iRetransQ).count fp := by
    cases own with
    | true => simp [hhold, TxHold.hand]
    | false =>
      have hqueued : 0 < ((g.peer p).iTransQ ++ (g.peer p).iRetransQ).count fp :=
        List.count_pos_iff.mpr (List.mem_append_right _ (h.queued p fp hhold))
      have hp : ((g.peer p).iTransQ ++ (g.peer p).iRetransQ).count fp ≤
          ∑ p, ((g.peer p).iTransQ ++ (g.peer p).iRetransQ).count fp :=
        Finset.single_le_sum
          (f := fun p => ((g.peer p).iTransQ ++ (g.peer p).iRetransQ).count fp)
          (fun _ _ => Nat.zero_le _) (Finset.mem_univ p)
      exact Nat.le_add_left_of_le (hqueued.trans_le hp)
  rw [count_owned] at hone
  omega

/-- The pool gives no frame that the driver refers to, and none that is in use. -/
theorem refs_taken (h : g.Balanced u) (htaken : g.pool.taken = some fp) :
    g.tx.pipe.refs fp = 0 ∧ fp ∉ g.owned := by
  have hheld : g.pool.held fp = 0 := by
    rcases h.settled.run.taken with ⟨hnone, -⟩ | ⟨fp', hsome, hzero, -⟩
    · exact absurd (htaken.symm.trans hnone) (by simp)
    · cases hsome.symm.trans htaken
      exact hzero
  have hsum : g.pool.held fp = g.owned.count fp + g.tx.pipe.refs fp := h.settled.held fp
  exact ⟨by omega, Multiset.count_eq_zero.mp (by omega)⟩

/-- An open gate: the driver does not have the frame. -/
theorem refs_of_gate (h : g.Balanced u) (hgate : ¬g.tx.pipe.txGate fp = true) :
    g.tx.pipe.refs fp = 0 := by
  obtain ⟨past, failures, hb⟩ := h.accounted
  rw [hb.refs, List.append_nil]
  refine List.count_eq_zero.mpr fun hmem => hgate ((hb.txGate fp).mpr ?_)
  rw [List.append_assoc]
  exact List.mem_append_right _ hmem

end Balanced

/-- Nothing in use is with the driver. -/
structure Gated (u : PoolSetup F C A) (g : FrameSite P F C A) : Prop where
  balanced : g.Balanced u
  refs : ∀ fp, g.InUse fp → g.tx.pipe.refs fp = 0

namespace Gated

variable {u : PoolSetup F C A} {p : P}

theorem of_fresh (hg : g.Fresh u.pool) : g.Gated u :=
  ⟨.of_fresh hg, fun fp _ => hg.tx.pipe.refs fp⟩

/-- A step that leaves the driver alone, and uses only what was in use or new. -/
theorem of_use (h : g.Gated u) (hb : g'.Balanced u) (hrefs : g'.tx.pipe.refs = g.tx.pipe.refs)
    (huse : ∀ fp, g'.InUse fp → g.InUse fp ∨ g.pool.taken = some fp) : g'.Gated u := by
  refine ⟨hb, fun fp hfp => ?_⟩
  rw [hrefs]
  rcases huse fp hfp with hold | hnew
  · exact h.refs fp hold
  · exact (h.balanced.refs_taken hnew).1

/-- A section of a peer. -/
theorem of_section [DecidableEq P] (h : g.Gated u) (hb : g'.Balanced u) {x : Holdings F C A}
    (hrefs : g'.tx.pipe.refs = g.tx.pipe.refs)
    (hpeer : g'.peer = Function.update g.peer p x.peer)
    (hedited : ∀ f ∈ g'.edited, f ∈ g.edited ∨ g.pool.taken = some f)
    (hhold : ∀ f, g'.txHold.edited = some f → g.InUse f ∨ g.pool.taken = some f)
    (hapart : ∀ f ∈ x.peer.apart, f ∈ g.edited ∨ f ∈ (g.peer p).apart ∨ g.pool.taken = some f) :
    g'.Gated u := by
  refine h.of_use hb hrefs fun f hf => ?_
  rcases hf with (hf | ⟨p', hf⟩) | hf
  · exact (hedited f hf).imp_left fun hf => .inl (.inl hf)
  · rw [hpeer] at hf
    by_cases hp : p' = p
    · subst hp
      rw [Function.update_self] at hf
      rcases hapart f hf with hf | hf | hf
      · exact .inl (.inl (.inl hf))
      · exact .inl (.inl (.inr ⟨p', hf⟩))
      · exact .inr hf
    · rw [Function.update_of_ne hp] at hf
      exact .inl (.inl (.inr ⟨p', hf⟩))
  · exact hhold f hf

theorem onRx (h : g.Gated u) (give : RxGive) (asks : Bool) :
    (if asks then (g.giveInFrame give).newframe else g.giveInFrame give).Gated u := by
  have hgive : (g.giveInFrame give).Gated u := by
    refine h.of_use (h.balanced.onRx give false) (by cases give <;> rfl) fun f hf => .inl ?_
    cases give with
    | keep => exact hf
    | release =>
      rcases hf with (hf | hf) | hf
      · refine .inl (.inl ?_)
        simp only [edited, giveInFrame, List.mem_append] at hf ⊢
        tauto
      · exact .inl (.inr hf)
      · exact .inr hf
    | enqueue =>
      rcases hf with (hf | hf) | hf
      · refine .inl (.inl ?_)
        simp only [edited, giveInFrame, List.mem_append] at hf ⊢
        tauto
      · exact .inl (.inr hf)
      · exact .inr hf
  split
  · refine hgive.of_use (hgive.balanced.onRx .keep true) ?_ fun f hf => ?_
    · rw [newframe]
      split <;> rfl
    · rw [newframe] at hf
      split at hf
      · exact .inl hf
      · rcases hf with (hf | hf) | hf
        · have hcases : (g.giveInFrame give).pool.taken = some f ∨ f ∈ (g.giveInFrame give).edited := by
            simp only [edited, List.mem_append, Option.mem_toList] at hf ⊢
            tauto
          exact hcases.symm.imp_left fun hf => .inl (.inl hf)
        · exact .inl (.inl (.inr hf))
        · exact .inl (.inr hf)
  · exact hgive

/-- The driver only drops references here. -/
theorem driver (h : g.Gated u) {a : TxStimulus F} (ha : a.ofDriver = true) {tx : TxRun F}
    (htx : g.tx.act a = some tx) :
    ({ g with
      pool := g.pool.clearFrameQ (releasedTo g.tx.pipe tx.pipe), tx := tx } :
        FrameSite P F C A).Gated u := by
  refine ⟨h.balanced.driver ha htx, fun fp hfp => ?_⟩
  have hrefs := h.balanced.accounted.refs_released ha htx fp
  rw [h.refs fp hfp] at hrefs
  exact (Nat.add_eq_zero_iff.mp hrefs.symm).2

theorem refs_commit {tx tx' : TxRun F} {prepared : Bool} {take : Option F}
    (htx : tx.act (.commit fp prepared take) = some tx') {f : F} (hfp : f ≠ fp)
    (htake : take ≠ some f) : tx'.pipe.refs f = tx.pipe.refs f := by
  simp only [TxRun.act] at htx
  split at htx
  · cases htx
    simp only [TxPipe.drvSendFrameCommit]
    split
    · rfl
    split
    · rfl
    split
    · cases take with
      | none => rfl
      | some nfp =>
        have hne : f ≠ nfp := fun heq => htake (congrArg some heq.symm)
        dsimp only
        split
        · rfl
        · exact Function.update_of_ne hne _ _
    · exact Function.update_of_ne hfp _ _
  · cases htx

/-- The frame leaves the places in use before the driver gets it. -/
theorem send (h : g.Gated u) {own prepared : Bool} (hhold : g.txHold = .sending p fp own)
    {tx : TxRun F} (htx : g.tx.act (.commit fp prepared g.pool.taken) = some tx) :
    ({ g with
      pool := sendPool g.tx.pipe fp prepared g.pool
      tx := tx
      txHold := if own then .sent p fp else .inside p } : FrameSite P F C A).Gated u := by
  refine ⟨h.balanced.sent hhold htx, fun f hf => ?_⟩
  have hplaces : f ∈ g.edited ∨ ∃ p, f ∈ (g.peer p).apart := by
    rcases hf with hf | hf
    · exact hf
    · cases own <;> cases hf
  have hfp : f ≠ fp := by
    rintro rfl
    exact h.balanced.notMem_places hhold hplaces
  have htake : g.pool.taken ≠ some f := by
    intro htaken
    have hcount := count_places hplaces
    have hnone : g.owned.count f = 0 := Multiset.count_eq_zero.mpr (h.balanced.refs_taken htaken).2
    rw [count_owned] at hnone
    omega
  change tx.pipe.refs f = 0
  rw [refs_commit htx hfp htake]
  exact h.refs f (.inl hplaces)

/-- The worker is not between its TX gate and the driver. -/
theorem of_released (h : g.Gated u) (hb : g'.Balanced u)
    (hrefs : g'.tx.pipe.refs = g.tx.pipe.refs) (hpeer : g'.peer = g.peer)
    (hedited : g'.edited = g.edited) (hhold : g'.txHold.edited = none) : g'.Gated u := by
  refine h.of_use hb hrefs fun f hf => .inl ?_
  rcases hf with hf | hf
  · rw [hpeer, hedited] at hf
    exact .inl hf
  · rw [hhold] at hf
    cases hf

theorem stamp (h : g.Gated u) (hhold : g.txHold = .dequeued p fp) {tx : TxRun F}
    (htx : g.tx.act (.stamp fp) = some tx) :
    ({ g with tx := tx, txHold := .stamping p fp } : FrameSite P F C A).Gated u := by
  refine ⟨h.balanced.stamp hhold htx, fun f hf => ?_⟩
  simp only [TxRun.act] at htx
  split at htx
  · cases htx
  next hgate =>
    cases htx
    rcases hf with hf | hf
    · exact h.refs f (.inl hf)
    · cases hf
      exact h.balanced.refs_of_gate hgate

variable [DecidableEq P]

/-- A section of the TX worker that gives it a frame, or does not. -/
theorem txSection (h : g.Gated u) {r : Holdings F C A × Option F}
    (hb : (g.txSection p r).Balanced u)
    (hgives : ∀ f, f ∈ r.2.toList ∨ f ∈ r.1.peer.apart →
      f ∈ (g.peer p).apart ∨ g.pool.taken = some f) : (g.txSection p r).Gated u := by
  refine h.of_section hb rfl rfl (fun f => .inl) (fun f hf => ?_) fun f hf => .inr ?_
  · have hgiven : f ∈ r.2.toList := by
      simp only [FrameSite.txSection] at hf
      cases hr : r.2 with
      | none =>
        rw [hr] at hf
        cases hf
      | some fp =>
        rw [hr] at hf
        exact Option.mem_toList.mpr hf
    exact (hgives f (.inl hgiven)).imp_left fun hf => .inl (.inr ⟨p, hf⟩)
  · exact hgives f (.inr hf)

theorem enterRetransQ (h : g.Gated u) (hhold : g.txHold = .stamping p fp) {tx : TxRun F}
    (htx : g.tx.act (.stamped fp) = some tx) :
    ({ g.put p ((g.holdings p).enterRetransQ fp) with
      tx := tx, txHold := .sending p fp false } : FrameSite P F C A).Gated u := by
  have hrefs : tx.pipe.refs = g.tx.pipe.refs := by
    simp only [TxRun.act] at htx
    split at htx
    · cases htx
      rfl
    · cases htx
  refine h.of_section (h.balanced.enterRetransQ hhold htx) hrefs rfl (fun f => .inl)
    (fun f hf => .inl (.inr ?_)) fun f hf => .inr (.inl hf)
  rw [hhold]
  exact hf

theorem txWorker (h : g.Gated u) {a : TxWorkerAct P} (hb : g'.Balanced u)
    (hact : g.txWorker a = some g') : g'.Gated u := by
  simp only [FrameSite.txWorker] at hact
  split at hact
  next p hhold =>
    cases hact
    exact h.of_released hb rfl rfl rfl rfl
  next p hhold =>
    cases hact
    exact h.of_released hb rfl rfl rfl rfl
  next p l hhold =>
    cases hact
    refine h.of_section hb rfl rfl (fun f => .inl) (fun f hf => .inl (.inr hf)) fun f hf => ?_
    exact .inr (.inl ((g.holdings p).handleTimeoutRetry_apart l hf))
  next p hhold =>
    cases hact
    exact h.txSection hb fun f => (g.holdings p).uCommandFrame_apart
  next p l hhold =>
    cases hact
    exact h.txSection hb fun f => (g.holdings p).uResponseFrame_apart l
  next p l hhold =>
    cases hact
    refine h.of_section hb rfl rfl (fun f => .inl) (fun f hf => .inl (.inr hf)) fun f hf => ?_
    exact .inr (.inl ((g.holdings p).uResponseSent_apart l hf))
  next p hhold =>
    cases hact
    refine h.txSection hb fun f hf => ?_
    rcases hf with hf | hf
    · exact .inr (Option.mem_toList.mp hf)
    · exact .inl hf
  next p hhold =>
    split at hact
    next x fp hr =>
      cases hact
      obtain rfl : _ = x := congrArg Prod.fst hr
      refine h.of_section hb rfl rfl (fun f => .inl) (fun f hf => ?_) fun f hf => .inr (.inl hf)
      cases hf
    · cases hact
  next p fp hhold =>
    obtain ⟨tx, htx, rfl⟩ := Option.map_eq_some_iff.mp hact
    exact h.stamp hhold htx
  next p fp hhold =>
    obtain ⟨tx, htx, rfl⟩ := Option.map_eq_some_iff.mp hact
    exact h.enterRetransQ hhold htx
  next p fp own prepared hhold =>
    obtain ⟨tx, htx, rfl⟩ := Option.map_eq_some_iff.mp hact
    exact h.send hhold htx
  next p fp hhold =>
    cases hact
    exact h.of_released hb rfl rfl rfl rfl
  · cases hact

omit [DecidableEq F] [DecidableEq P] [Fintype P] in
/-- A caller holds its frames so far, and the new one. -/
theorem mem_held_taken {taken : Option F} {held : List (P × F)} {q : P × F}
    (hf : q ∈ taken.toList.map (p, ·) ++ held) :
    (∃ p', (p', q.2) ∈ held) ∨ taken = some q.2 := by
  rcases List.mem_append.mp hf with hf | hf
  · obtain ⟨fp, hfp, rfl⟩ := List.mem_map.mp hf
    exact .inr (Option.mem_toList.mp hfp)
  · exact .inl ⟨q.1, hf⟩

theorem call (h : g.Gated u) {a : CallAct P F} (hb : g'.Balanced u) (hact : g.call a = some g') :
    g'.Gated u := by
  have hkept (f : F) (hf : g.txHold.edited = some f) : g.InUse f ∨ g.pool.taken = some f :=
    .inl (.inr hf)
  cases a with
  | testTake p =>
    cases hact
    refine h.of_section (p := p) (x := g.holdings p) hb rfl
      (Function.update_eq_self p g.peer).symm (fun f hf => ?_) hkept fun f hf => .inr (.inl hf)
    rw [mem_edited] at hf ⊢
    rcases hf with hf | hf | hf | hf | ⟨q, hf⟩
    · exact .inl (.inl hf)
    · exact .inl (.inr (.inl hf))
    · exact .inl (.inr (.inr (.inl hf)))
    · exact .inl (.inr (.inr (.inr (.inl hf))))
    · rcases mem_held_taken hf with hf | hf
      · exact .inl (.inr (.inr (.inr (.inr hf))))
      · exact .inr hf
  | writeTake p =>
    obtain ⟨-, hact⟩ := Option.ite_none_right_eq_some.mp hact
    cases hact
    refine h.of_section (p := p) hb rfl rfl (fun f hf => ?_) hkept fun f hf => .inr (.inl hf)
    rw [mem_edited] at hf ⊢
    rcases hf with hf | hf | hf | ⟨q, hf⟩ | hf
    · exact .inl (.inl hf)
    · exact .inl (.inr (.inl hf))
    · exact .inl (.inr (.inr (.inl hf)))
    · rcases mem_held_taken hf with hf | hf
      · exact .inl (.inr (.inr (.inr (.inl hf))))
      · exact .inr hf
    · exact .inl (.inr (.inr (.inr (.inr hf))))
  | writeInsert p fp l =>
    obtain ⟨-, hact⟩ := Option.ite_none_right_eq_some.mp hact
    cases hact
    refine h.of_section (p := p) hb rfl rfl (fun f hf => .inl ?_) hkept fun f hf => .inr (.inl ?_)
    · rw [mem_edited] at hf ⊢
      exact hf.imp_right (.imp_right (.imp_right
        (.imp_left (.imp fun q hq => List.mem_of_mem_erase hq))))
    · rwa [(g.holdings p).writeInsert_apart l] at hf
  | read p consumed =>
    obtain ⟨-, hact⟩ := Option.ite_none_right_eq_some.mp hact
    cases hact
    refine h.of_section (p := p) hb rfl rfl (fun f => .inl) hkept fun f hf => .inr (.inl ?_)
    exact (g.holdings p).readFrame_apart consumed hf
  | testStart p fp l =>
    obtain ⟨ht, hact⟩ := Option.ite_none_right_eq_some.mp hact
    cases hact
    refine h.of_section (p := p) hb rfl rfl (fun f hf => .inl ?_) hkept fun f hf => ?_
    · rw [mem_edited] at hf ⊢
      exact hf.imp_right (.imp_right (.imp_right
        (.imp_right (.imp fun q hq => List.mem_of_mem_erase hq))))
    · rcases List.mem_cons.mp ((g.holdings p).peerTestStart_apart l hf) with rfl | hf
      · exact .inl (mem_edited.mpr (.inr (.inr (.inr (.inr ⟨p, ht.1⟩)))))
      · exact .inr (.inl hf)
  | testCompleted p l =>
    obtain ⟨-, hact⟩ := Option.ite_none_right_eq_some.mp hact
    cases hact
    refine h.of_section (p := p) hb rfl rfl (fun f => .inl) hkept fun f hf => .inr (.inl ?_)
    exact (g.holdings p).sTakeCompletedTestFrame_apart l hf
  | testExpire p l =>
    obtain ⟨-, hact⟩ := Option.ite_none_right_eq_some.mp hact
    cases hact
    refine h.of_section (p := p) hb rfl rfl (fun f => .inl) hkept fun f hf => .inr (.inl ?_)
    exact (g.holdings p).peerTestExpire_apart l hf

theorem step (h : g.Gated u) {a : FrameAct P F} (hact : g.act a = some g') : g'.Gated u := by
  have hb : g'.Balanced u := h.balanced.step hact
  cases a with
  | onRx give asks =>
    cases hact
    exact h.onRx give asks
  | driver a =>
    obtain ⟨ha, hact⟩ := Option.ite_none_right_eq_some.mp hact
    obtain ⟨tx, htx, rfl⟩ := Option.map_eq_some_iff.mp hact
    exact h.driver ha htx
  | recvFrame passes =>
    simp only [act] at hact
    split at hact
    next fp q hfp hq =>
      cases hact
      refine h.of_use hb (by split <;> rfl) fun f hf => .inl ?_
      rcases hf with (hf | hf) | hf
      · refine .inl (.inl ?_)
        rw [mem_edited] at hf ⊢
        rw [hq, List.mem_cons]
        split at hf
        · rcases hf with hf | hf | hf | hf
          · exact .inl hf
          · exact .inr (.inl (.inr hf))
          · exact .inr (.inl (.inl (Option.some.inj hf).symm))
          · exact .inr (.inr (.inr hf))
        · exact hf.imp_right (.imp_left .inr)
      · split at hf
        · exact .inl (.inr hf)
        · exact .inl (.inr hf)
      · split at hf
        · exact .inr hf
        · exact .inr hf
    · cases hact
  | rxEntry p l v =>
    simp only [act] at hact
    split at hact
    next fp hfp =>
      obtain ⟨hfree, hact⟩ := Option.ite_none_right_eq_some.mp hact
      cases hact
      refine h.of_section (p := p) hb rfl rfl (fun f hf => .inl ?_) (fun f hf => .inl (.inr hf))
        fun f hf => ?_
      · rw [mem_edited] at hf ⊢
        rcases hf with hf | hf | hf | hf
        · exact .inl hf
        · exact .inr (.inl hf)
        · cases hf
        · exact .inr (.inr (.inr hf))
      · rcases List.mem_cons.mp ((g.holdings p).rxEntry_apart l v hf) with rfl | hf
        · exact .inl (mem_edited.mpr (.inr (.inr (.inl hfp))))
        · exact .inr (.inl hf)
    · cases hact
  | rxDiscard =>
    obtain ⟨fp, hfp, rfl⟩ := Option.map_eq_some_iff.mp hact
    refine h.of_use hb rfl fun f hf => .inl ?_
    rcases hf with (hf | hf) | hf
    · refine .inl (.inl ?_)
      rw [mem_edited] at hf ⊢
      rcases hf with hf | hf | hf | hf
      · exact .inl hf
      · exact .inr (.inl hf)
      · cases hf
      · exact .inr (.inr (.inr hf))
    · exact .inl (.inr hf)
    · exact .inr hf
  | drop fp =>
    obtain ⟨hmem, hact⟩ := Option.ite_none_right_eq_some.mp hact
    cases hact
    exact h.of_use hb rfl fun f => .inl
  | tx a => exact h.txWorker hb hact
  | call a => exact h.call hb hact

end Gated

section Main

variable [DecidableEq P] {u : PoolSetup F C A}

/-- In every run of all the threads, the driver and the port: no frame that a thread or the reception
works on is committed to the driver, waits there, or is with the port. -/
theorem inUse_notMem_driver (h : Reachable (Fresh u.pool) Moves g) (huse : g.InUse fp) :
    fp ∉ g.tx.committing ++ g.tx.pipe.pipeline := by
  have hg : g.Gated u :=
    h.invariant (Gated u) (fun _ => Gated.of_fresh) fun _ _ hg hmoves => by
      obtain ⟨a, hact⟩ := hmoves
      exact hg.step hact
  intro hmem
  have hrefs := hg.balanced.accounted.refs_eq fp
  rw [hg.refs fp huse] at hrefs
  exact List.count_eq_zero.mp hrefs.symm hmem

end Main

/-- The port has the first frame while the header of the second one is written. -/
theorem inUse_notMem_driver_second : ∃ g : FrameSite Unit (Fin 5) Unit Unit,
    g.tx.pipe.pipeline = [4] ∧ 3 ∉ g.tx.committing ++ g.tx.pipe.pipeline := by
  have hstart : Reachable (Fresh fiveFrames.pool) Moves quietSite := .start fresh_quietSite
  obtain ⟨g, hg, hp⟩ := hstart.exists_of_run act (fun _ a _ ha => ⟨a, ha⟩)
    [.call (.writeTake ()), .call (.writeInsert () 4 openLink), .call (.writeTake ()),
      .call (.writeInsert () 3 openLink), .tx (.lock ()), .tx .dequeue, .tx .stamp,
      .tx .enterRetransQ, .tx (.send true), .driver (.queue 4 ⟨true, true⟩ ⟨false, true⟩),
      .tx .dequeue, .tx .stamp]
    (fun g => g.tx.pipe.pipeline = [4] ∧ g.txHold.edited = some 3) (by decide +kernel)
  obtain ⟨hport, hheader⟩ := of_decide_eq_true hp
  exact ⟨g, hport, inUse_notMem_driver hg (.inr hheader)⟩

end FrameSite

end IoHdlc
