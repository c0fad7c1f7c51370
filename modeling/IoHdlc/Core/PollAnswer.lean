import IoHdlc.Core.Emission
import Mathlib.Data.Finset.Lattice.Lemmas

/-!
One pass of `ioHdlcConnectedTx`, from its entry to its return, with what the world
around it may contribute: the flags that arrive before each section, the frames of a
pool that is not empty, and the state that the pool shows to the last section.

A received P and the frames with F that were handed to the driver are counted
together, and no section changes the sum. So a pass that starts under a poll hands
over at most one F, and it hands over one exactly if it leaves no P behind.
-/

namespace IoHdlc

open Kit

/-! ### A pass -/

/-- A frame that the driver got, and the `is_command` it was built under. -/
structure HandedFrame where
  fp : Frame
  isCommand : Bool

/-- A response with the P/F bit: F = 1. -/
def HandedFrame.isFinal (fr : Framing) (h : HandedFrame) : Bool := !h.isCommand && linePF fr h.fp

structure PassEnv where
  uiFrame : Frame
  sFrame : ℕ → Frame
  /-- What is broadcast before the `i`-th section behind the entry. -/
  arrivals : ℕ → EvtFlags
  poolState : PoolState

structure TxPass where
  link : Link
  pc : TxPc
  sent : List HandedFrame
  sections : ℕ

namespace PassEnv

variable (env : PassEnv)

/-- From the entry to the first release of the lock. -/
def enter (l : Link) (flags : EvtFlags) : TxPass :=
  let r := connectedTxEntry l flags (some env.uiFrame)
  { link := r.link
    pc := r.pc
    sent := (r.sent.map fun fp => ⟨fp, sendsCommand l.s⟩).toList
    sections := 0 }

/-- A section whose frames are built under the role of `l`. -/
def leave (x : TxPass) (l : Link) (r : TxStep) : TxPass :=
  { link := r.link
    pc := r.pc
    sent := x.sent ++ (r.sent.map fun fp => ⟨fp, sendsCommand l.s⟩).toList
    sections := x.sections + 1 }

/-- The link that the next section finds. -/
def found (x : TxPass) : Link :=
  { x.link with s := x.link.s.broadcastFlags (env.arrivals x.sections) }

/-- The link that the last section finds. -/
def foundLast (x : TxPass) : Link :=
  { env.found x with s := { (env.found x).s with poolState := env.poolState } }

def next (x : TxPass) : TxPass :=
  match x.pc with
  | .idle _ => x
  | .check flags => leave x (env.found x) (connectedTxCheck (env.found x) flags)
  | .iFrame flags iSent => leave x (env.found x) (connectedTxIFrame (env.found x) flags iSent)
  | .skipIFrames flags iSent =>
    leave x (env.foundLast x)
      (connectedTxSFrame (env.foundLast x) flags iSent fun i => some (env.sFrame i))

/-- The whole pass: behind the entry there is the test of the FRMR condition, a round for
each I frame and one that finds no more, and the section of the S frame. -/
def pass (l : Link) (flags : EvtFlags) : TxPass :=
  env.next^[l.p.iTransQ.length + 3] (env.enter l flags)

end PassEnv

/-- The frames with F among those handed over. -/
def TxPass.finals (fr : Framing) (x : TxPass) : ℕ := x.sent.countP (·.isFinal fr)

/-! ### A pass ends -/

/-- At most as many sections are left. -/
def TxPc.sectionsLeft (queued : ℕ) : TxPc → ℕ
  | .idle _ => 0
  | .skipIFrames _ _ => 1
  | .iFrame _ _ => queued + 2
  | .check _ => queued + 3

theorem connectedTxIFrame_left (l : Link) (flags : EvtFlags) (iSent : Bool) :
    let r := connectedTxIFrame l flags iSent
    r.pc.sectionsLeft r.link.p.iTransQ.length < l.p.iTransQ.length + 2 := by
  dsimp only
  rw [connectedTxIFrame]
  split
  next hq => simp [TxPc.sectionsLeft]
  next fp rest hq =>
    split
    · simp [TxPc.sectionsLeft]
    dsimp only
    split
    · simp [TxPc.sectionsLeft]
    · have hrest : (transmitIFrame (getAndClearFlags l flags).1 fp rest).1.p.iTransQ = rest := rfl
      dsimp only
      rw [hrest, hq, List.length_cons]
      split
      all_goals
        simp only [TxPc.sectionsLeft]
        omega

/-- A section leaves fewer sections behind it. -/
theorem PassEnv.next_left (env : PassEnv) (x : TxPass) :
    (env.next x).pc.sectionsLeft (env.next x).link.p.iTransQ.length ≤
      x.pc.sectionsLeft x.link.p.iTransQ.length - 1 := by
  rw [PassEnv.next]
  split
  next h => simp [h, TxPc.sectionsLeft]
  next flags h =>
    simp only [leave, connectedTxCheck, h]
    split <;> simp [TxPc.sectionsLeft, found]
  next flags iSent h =>
    have hround := connectedTxIFrame_left (env.found x) flags iSent
    have hq : (env.found x).p.iTransQ = x.link.p.iTransQ := rfl
    rw [hq] at hround
    rw [h]
    exact Nat.le_sub_one_of_lt hround
  next flags iSent h =>
    simp [leave, connectedTxSFrame, h, TxPc.sectionsLeft]

theorem PassEnv.iterate_left (env : PassEnv) (x : TxPass) (n : ℕ) :
    (env.next^[n] x).pc.sectionsLeft (env.next^[n] x).link.p.iTransQ.length ≤
      x.pc.sectionsLeft x.link.p.iTransQ.length - n := by
  induction n with
  | zero => exact le_rfl
  | succ n ih =>
    rw [Function.iterate_succ_apply']
    have hnext := env.next_left (env.next^[n] x)
    omega

/-- Behind the return nothing happens. -/
theorem PassEnv.iterate_idle (env : PassEnv) {x : TxPass} {flags : EvtFlags}
    (h : x.pc = .idle flags) (n : ℕ) : env.next^[n] x = x := by
  have hfix : env.next x = x := by rw [PassEnv.next, h]
  exact Function.iterate_fixed hfix n

/-! ### One F for one P -/

/-- 1 while a received P waits for its answer. -/
def TxPass.pending (x : TxPass) : ℕ := x.link.s.pfState.pRcved.toNat

/-- The P/F bit of an I frame that is a response is only set for a pending P. -/
theorem iFrameSetPf_response {l : Link} {isLastFrame : Bool}
    (h : iFrameSetPf l false isLastFrame = true) : l.s.pfState.pRcved = true := by
  simp only [iFrameSetPf, Bool.false_eq_true, if_false, Bool.and_eq_true] at h
  have hset := h.2
  rw [responseShouldSetF] at hset
  cases hp : l.s.pfState.pRcved with
  | true => rfl
  | false => simp [hp] at hset

theorem sFrameSetPf_response (l : Link) : sFrameSetPf l false = l.s.pfState.pRcved := by
  rw [sFrameSetPf, if_neg Bool.false_ne_true, responseShouldSetF]
  cases l.s.pfState.pRcved <;> simp

/-- A section that hands over at most one frame: the F of this frame is the P that is no
longer pending. -/
structure AnswersWith (fr : Framing) (l l' : Link) (sent : Option Frame) : Prop where
  framing : l'.s.framing = l.s.framing
  paid : (sent.map fun fp => HandedFrame.isFinal fr ⟨fp, sendsCommand l.s⟩).getD false =
    (l.s.pfState.pRcved && !l'.s.pfState.pRcved)
  kept : l'.s.pfState.pRcved = true → l.s.pfState.pRcved = true

theorem AnswersWith.idle {fr : Framing} {l l' : Link} (hfr : l'.s.framing = l.s.framing)
    (hp : l'.s.pfState.pRcved = l.s.pfState.pRcved) : AnswersWith fr l l' none := by
  refine ⟨hfr, ?_, fun h => hp ▸ h⟩
  rw [hp]
  cases l.s.pfState.pRcved <;> rfl

/-- The frame has the P/F bit `setPf` and the section acknowledges a P with it. -/
theorem AnswersWith.of_setPf {fr : Framing} {l l' : Link} {fp : Frame} {setPf : Bool}
    (hfr : l'.s.framing = l.s.framing) (hpf : linePF fr fp = setPf)
    (hset : sendsCommand l.s = false → setPf = true → l.s.pfState.pRcved = true)
    (hp : l'.s.pfState.pRcved = (l.s.pfState.pRcved && !(setPf && !sendsCommand l.s))) :
    AnswersWith fr l l' (some fp) := by
  refine ⟨hfr, ?_, fun h => ?_⟩
  · simp only [Option.map_some, Option.getD_some, HandedFrame.isFinal]
    rw [hpf, hp]
    cases hc : sendsCommand l.s with
    | true => cases l.s.pfState.pRcved <;> cases setPf <;> rfl
    | false =>
      cases hs : setPf with
      | false => cases l.s.pfState.pRcved <;> rfl
      | true => rw [hset hc hs]; rfl
  · rw [hp, Bool.and_eq_true] at h
    exact h.1

theorem connectedTxIFrame_answers (l : Link) (flags : EvtFlags) (iSent : Bool) :
    let r := connectedTxIFrame l flags iSent
    AnswersWith l.s.framing l r.link r.sent := by
  dsimp only
  rcases connectedTxIFrame_ends l flags iSent with ⟨hl | hl, hs⟩ | ⟨fp, rest, -, -, hl, hs⟩
  · rw [hl, hs]
    exact .idle rfl rfl
  · rw [hl, hs]
    exact .idle rfl rfl
  · rw [hl, hs]
    have hreads := transmitIFrame_reads (getAndClearFlags l flags).1 fp rest
    refine .of_setPf rfl hreads.pf (fun hc hset => ?_) rfl
    have hc' : sendsCommand (getAndClearFlags l flags).1.s = false := hc
    simp only [transmitIFrame, hc'] at hset
    exact iFrameSetPf_response hset

theorem connectedTxSFrame_answers (l : Link) (flags : EvtFlags) (iSent : Bool)
    (take : ℕ → Option Frame) :
    let r := connectedTxSFrame l flags iSent take
    AnswersWith l.s.framing l r.link r.sent := by
  simp only [connectedTxSFrame]
  cases chooseSFrame_chooses (getAndClearFlags l flags).1 iSent take with
  | nothing h =>
    rw [h]
    exact .idle rfl rfl
  | frame stale sFun rejpend busy hfun hopp h =>
    rw [h]
    refine .of_setPf rfl (readsAs_buildSFrame _ _ _ _ _ _ hfun).pf (fun hc hset => ?_) rfl
    have hc' : sendsCommand (getAndClearFlags l flags).1.s = false := hc
    rw [hc', sFrameSetPf_response] at hset
    exact hset

section Conservation

variable {env : PassEnv} {x : TxPass} {fr : Framing}

/-- At most one frame: the F among them. -/
theorem countP_sent (sent : Option Frame) (isCommand : Bool) :
    (sent.map fun fp => (⟨fp, isCommand⟩ : HandedFrame)).toList.countP (·.isFinal fr) =
      ((sent.map fun fp => HandedFrame.isFinal fr ⟨fp, isCommand⟩).getD false).toNat := by
  cases sent with
  | none => rfl
  | some fp =>
    rw [Option.map_some, Option.toList_some, List.countP_singleton, Option.map_some,
      Option.getD_some]
    cases HandedFrame.isFinal fr ⟨fp, isCommand⟩ <;> rfl

theorem leave_finals {l : Link} {r : TxStep} (h : AnswersWith fr l r.link r.sent)
    (hp : l.s.pfState.pRcved = x.link.s.pfState.pRcved) :
    (PassEnv.leave x l r).finals fr + (PassEnv.leave x l r).pending = x.finals fr + x.pending := by
  have hkept := h.kept
  simp only [PassEnv.leave, TxPass.finals, TxPass.pending, List.countP_append]
  rw [countP_sent, h.paid, hp, Nat.add_assoc]
  rw [hp] at hkept
  congr 1
  cases hr : r.link.s.pfState.pRcved with
  | true =>
    rw [hkept hr]
    rfl
  | false =>
    rw [Bool.not_false, Bool.and_true]
    rfl

/-- No section changes the sum of the F handed over and the P still pending. -/
theorem PassEnv.next_finals (hfr : x.link.s.framing = fr) :
    (env.next x).finals fr + (env.next x).pending = x.finals fr + x.pending ∧
      (env.next x).link.s.framing = fr := by
  have hfound : (env.found x).s.framing = fr := hfr
  have hlast : (env.foundLast x).s.framing = fr := hfr
  rw [PassEnv.next]
  split
  · exact ⟨rfl, hfr⟩
  next flags _ =>
    have hkeep : AnswersWith fr (env.found x) (connectedTxCheck (env.found x) flags).link none :=
      .idle rfl rfl
    exact ⟨leave_finals hkeep rfl, hfr⟩
  next flags iSent _ =>
    have hround := connectedTxIFrame_answers (env.found x) flags iSent
    rw [hfound] at hround
    exact ⟨leave_finals hround rfl, hround.framing.trans hfound⟩
  next flags iSent _ =>
    have hsframe := connectedTxSFrame_answers (env.foundLast x) flags iSent
      fun i => some (env.sFrame i)
    rw [hlast] at hsframe
    exact ⟨leave_finals hsframe rfl, hsframe.framing.trans hlast⟩

theorem PassEnv.iterate_finals (hfr : x.link.s.framing = fr) (n : ℕ) :
    (env.next^[n] x).finals fr + (env.next^[n] x).pending = x.finals fr + x.pending ∧
      (env.next^[n] x).link.s.framing = fr := by
  refine Function.Iterate.rec
    (fun y : TxPass => y.finals fr + y.pending = x.finals fr + x.pending ∧ y.link.s.framing = fr)
    ⟨rfl, hfr⟩ (fun y hy => ?_) n
  have hnext := env.next_finals hy.2
  exact ⟨hnext.1.trans hy.1, hnext.2⟩

end Conservation

/-! ### The entry -/

/-- What the timeouts and the UI frame at the entry may change of a link whose connection
goes on. -/
def Link.served (l : Link) (fRcved : Bool) (rejActioned : UInt32) (needP : Bool) (count : UInt8)
    (t3Tmr : VTimer) (uiTxPending : Bool) : Link :=
  { s := { l.s with pfState := { l.s.pfState with fRcved := fRcved } }
    p := { l.p with
      rejActioned := rejActioned
      ssState := { l.p.ssState with needP := needP }
      pollRetryCount := count
      t3Tmr := t3Tmr
      uiTxPending := uiTxPending } }

def Link.Served (l l' : Link) : Prop :=
  ∃ fRcved rejActioned needP count t3Tmr uiTxPending,
    l' = l.served fRcved rejActioned needP count t3Tmr uiTxPending

theorem Link.Served.refl (l : Link) : l.Served l := ⟨_, _, _, _, _, _, rfl⟩

theorem Link.Served.trans {l l' l'' : Link} (h : l.Served l') (h' : l'.Served l'') :
    l.Served l'' := by
  obtain ⟨f, r, n, c, t, u, rfl⟩ := h
  obtain ⟨f', r', n', c', t', u', rfl⟩ := h'
  exact ⟨f', r', n', c', t', u', rfl⟩

theorem timeoutRecovery_served {l : Link} (h : (handleTimeoutRetry l).2 = true) :
    l.Served (timeoutRecovery (handleTimeoutRetry l).1) := by
  rw [handleTimeoutRetry] at h ⊢
  split at h
  · cases h
  next hcount =>
    rw [if_neg hcount]
    exact ⟨_, _, _, _, _, _, rfl⟩

theorem serveReplyTimeout_served {l : Link} {flags : EvtFlags}
    (h : (serveReplyTimeout l flags).2 = true) : l.Served (serveReplyTimeout l flags).1 := by
  simp only [serveReplyTimeout] at h ⊢
  split at h
  next hexpired =>
    split at h
    next hretry =>
      rw [if_pos hexpired, if_pos hretry]
      exact timeoutRecovery_served hretry
    · cases h
  next hno =>
    rw [if_neg hno]
    exact .refl l

theorem serveT3Timeout_served {l : Link} {flags : EvtFlags}
    (h : (serveT3Timeout l flags).2 = true) : l.Served (serveT3Timeout l flags).1 := by
  have hstop : l.Served { l with p := { l.p with t3Tmr := l.p.t3Tmr.reset } } :=
    ⟨_, _, _, _, _, _, rfl⟩
  simp only [serveT3Timeout] at h ⊢
  by_cases hexpired : .t3Tmo ∈ flags ∧ l.p.t3Tmr.isExpired = true
  · rw [if_pos hexpired] at h ⊢
    by_cases hmode : l.s.mode = .nrm
    · rw [if_pos hmode]
      exact ⟨_, _, _, _, _, _, rfl⟩
    · rw [if_neg hmode] at h ⊢
      split
      · exact hstop
      next fp rest hq =>
        split
        next hretry => exact hstop.trans (timeoutRecovery_served hretry)
        next hretry =>
          split at h
          next hnil => cases hq.symm.trans hnil
          · rw [if_neg hretry] at h
            cases h
  · rw [if_neg hexpired]
    exact .refl l

theorem sendUi_served (l : Link) (take : Option Frame) : l.Served (sendUi l take).1 := by
  simp only [sendUi]
  split
  · split
    · exact ⟨_, _, _, _, _, _, rfl⟩
    · exact .refl l
  · exact .refl l

/-- The entry ends the connection, or it leaves the poll, the window and the flags as they are
and hands over no F. -/
theorem connectedTxEntry_served (l : Link) (flags : EvtFlags) (take : Option Frame) :
    let r := connectedTxEntry l flags take
    (l.Aborted r.link ∧ ∃ f, r.pc = .idle f) ∨
      (l.Served r.link ∧ r.pc = .check (((flags \ {.lineIdle}) \ {.cRplytmo}) \ {.t3Tmo}) ∧
        ∀ fp ∈ r.sent, linePF l.s.framing fp = false) := by
  dsimp only
  rcases connectedTxEntry_cases l flags take with ⟨-, ⟨f, hpc⟩, -⟩ | ⟨habort, hpc, -⟩
  · right
    have hreply := serveReplyTimeout_inherits l (flags \ {.lineIdle})
    have ht3 := hreply.trans (serveT3Timeout_inherits _ ((flags \ {.lineIdle}) \ {.cRplytmo}))
    simp only [connectedTxEntry] at hpc ⊢
    split at hpc
    next h =>
      split at hpc
      next h' =>
        rw [if_pos h, if_pos h']
        refine ⟨(serveReplyTimeout_served h).trans
          ((serveT3Timeout_served h').trans (sendUi_served _ take)), rfl, fun fp hfp => ?_⟩
        rw [← ht3.framing]
        exact (sendUi_reads hfp).1.pf
      · cases hpc
    · cases hpc
  · exact .inl ⟨habort, hpc⟩

/-! ### The burst of I frames -/

/-- The I frames that a burst may still send. -/
def sendableIFrames (l : Link) : ℕ :=
  if l.p.ssState.busy then 0
  else min l.p.iTransQ.length (l.p.ks.toNat - (outstanding l).toNat)

/-- The modes whose first response carries the F. -/
def answersAtOnce (s : Station) : Bool := s.mode = .abm || s.mode = .arm

theorem toNat_outstanding (l : Link) :
    (outstanding l).toNat =
      (2 ^ 32 - l.p.nr.toNat + l.p.vs.toNat) % 2 ^ 32 % l.s.framing.serial.modulus := by
  rw [outstanding, ← l.s.framing.serial_mask, SerialSpace.toNat_and_mask, UInt32.toNat_sub]

/-- Below a window that the modulus admits an I frame adds one to the outstanding ones. -/
theorem outstanding_transmitIFrame {l : Link} {fp : Frame} {rest : List Frame}
    (hks : l.p.ks ≤ l.s.framing.modmask) (hroom : outstanding l < l.p.ks) :
    (outstanding (transmitIFrame l fp rest).1).toNat = (outstanding l).toNat + 1 := by
  have hvs : (transmitIFrame l fp rest).1.p.vs = (l.p.vs + 1) &&& l.s.framing.serial.mask := rfl
  have hnr : (transmitIFrame l fp rest).1.p.nr = l.p.nr := rfl
  have hfr : (transmitIFrame l fp rest).1.s.framing = l.s.framing := rfl
  have hmod := l.s.framing.modulus_serial
  have hlt := UInt32.lt_iff_toNat_lt.mp hroom
  have hle := UInt32.le_iff_toNat_le.mp hks
  have hnrlt := l.p.nr.toNat_lt
  have hvslt := l.p.vs.toNat_lt
  rw [toNat_outstanding] at hlt
  rw [toNat_outstanding, toNat_outstanding, hvs, hnr, hfr, SerialSpace.toNat_and_mask,
    UInt32.toNat_add, UInt32.toNat_one]
  rcases l.s.framing.layout with ⟨hm, -⟩ | ⟨hm, -⟩
  all_goals
    rw [hm] at hmod hle
    simp only [UInt32.reduceToNat, Nat.reduceAdd] at hmod hle
    rw [hmod] at hlt ⊢
    omega

/-- Nothing to send: the round leaves the loop. -/
theorem connectedTxIFrame_none {l : Link} (hn : sendableIFrames l = 0) (flags : EvtFlags)
    (iSent : Bool) :
    connectedTxIFrame l flags iSent =
      { link := l, sent := none, pc := .skipIFrames flags iSent, nextPeer := false } := by
  rw [connectedTxIFrame]
  split
  · rfl
  next fp rest hq =>
    have hstop : outstanding l ≥ l.p.ks ∨ (!sendOpportunity l.s) = true ∨
        l.p.ssState.busy = true := by
      rw [sendableIFrames, hq, List.length_cons] at hn
      split at hn
      next hbusy => exact .inr (.inr hbusy)
      · refine .inl (UInt32.le_iff_toNat_le.mpr ?_)
        omega
    exact if_pos hstop

section Round

variable {l : Link} {n : ℕ} {fp : Frame} {rest : List Frame}

/-- A round that sends the head of the queue. -/
theorem connectedTxIFrame_sends (hq : l.p.iTransQ = fp :: rest) (hroom : outstanding l < l.p.ks)
    (hbusy : l.p.ssState.busy = false) (hopp : sendOpportunity l.s = true) {flags : EvtFlags}
    (hdown : .linkDown ∉ flags ∪ l.s.cmListener) (iSent : Bool) :
    connectedTxIFrame l flags iSent =
      let tx := transmitIFrame (getAndClearFlags l flags).1 fp rest
      { link := tx.1
        sent := some tx.2.1
        pc :=
          if (flags ∪ l.s.cmListener) ∩ urgentFlags ≠ ∅ ∨ (l.s.flags.twa ∧ tx.2.2) then
            .skipIFrames (flags ∪ l.s.cmListener) true
          else .iFrame (flags ∪ l.s.cmListener) true
        nextPeer := false } := by
  have hgo : ¬(outstanding l ≥ l.p.ks ∨ (!sendOpportunity l.s) = true ∨
      l.p.ssState.busy = true) := by
    have hout : ¬outstanding l ≥ l.p.ks := UInt32.not_le.mpr hroom
    simp [hout, hopp, hbusy]
  have hnodown : .linkDown ∉ (getAndClearFlags l flags).2 := hdown
  rw [connectedTxIFrame]
  simp only [hq]
  rw [if_neg hgo, if_neg hnodown]
  rfl

/-- With something to send there is a head of the queue, and room for it. -/
theorem exists_of_sendable (hn : sendableIFrames l = n + 1) :
    l.p.ssState.busy = false ∧ ∃ fp rest, l.p.iTransQ = fp :: rest ∧ outstanding l < l.p.ks ∧
      min rest.length (l.p.ks.toNat - (outstanding l).toNat - 1) = n := by
  rw [sendableIFrames] at hn
  split at hn
  · cases hn
  next hbusy =>
    refine ⟨Bool.eq_false_iff.mpr hbusy, ?_⟩
    cases hq : l.p.iTransQ with
    | nil => simp [hq] at hn
    | cons fp rest =>
      rw [hq, List.length_cons] at hn
      refine ⟨fp, rest, rfl, UInt32.lt_iff_toNat_lt.mpr ?_, ?_⟩ <;> omega

/-- The last frame of the burst is the last of the window or of the queue. -/
theorem isLastFrame_iff (hroom : outstanding l < l.p.ks)
    (hn : min rest.length (l.p.ks.toNat - (outstanding l).toNat - 1) = n) :
    (outstanding l + 1 ≥ l.p.ks ∨ rest = []) ↔ n = 0 := by
  have hlt := UInt32.lt_iff_toNat_lt.mp hroom
  have hks := l.p.ks.toNat_lt
  have hsucc : (outstanding l + 1).toNat = (outstanding l).toNat + 1 := by
    rw [UInt32.toNat_add, UInt32.toNat_one, Nat.mod_eq_of_lt]
    omega
  have hle : outstanding l + 1 ≥ l.p.ks ↔ l.p.ks.toNat ≤ (outstanding l).toNat + 1 := by
    rw [ge_iff_le, UInt32.le_iff_toNat_le, hsucc]
  rw [hle, ← List.length_eq_zero_iff]
  omega

theorem sendable_transmitIFrame (hks : l.p.ks ≤ l.s.framing.modmask)
    (hbusy : l.p.ssState.busy = false) (hroom : outstanding l < l.p.ks)
    (hn : min rest.length (l.p.ks.toNat - (outstanding l).toNat - 1) = n) :
    sendableIFrames (transmitIFrame l fp rest).1 = n := by
  have hb : (transmitIFrame l fp rest).1.p.ssState.busy = false := hbusy
  have hq : (transmitIFrame l fp rest).1.p.iTransQ = rest := rfl
  have hk : (transmitIFrame l fp rest).1.p.ks = l.p.ks := rfl
  rw [sendableIFrames, hb, if_neg Bool.false_ne_true, hq, hk,
    outstanding_transmitIFrame hks hroom, Nat.sub_add_eq, hn]

/-- The P/F bit of the head of the queue when it answers a P. -/
theorem setPf_transmitIFrame (hrsp : sendsCommand l.s = false) (hp : l.s.pfState.pRcved = true)
    (hlast : (outstanding l + 1 ≥ l.p.ks ∨ rest = []) ↔ n = 0) :
    (transmitIFrame l fp rest).2.2 = (!l.s.flags.busy && (answersAtOnce l.s || n = 0)) := by
  have hset : (transmitIFrame l fp rest).2.2 =
      iFrameSetPf l false (outstanding l + 1 ≥ l.p.ks ∨ rest = []) := by
    simp only [transmitIFrame, hrsp]
  have hdec : decide (outstanding l + 1 ≥ l.p.ks ∨ rest = []) = decide (n = 0) :=
    decide_eq_decide.mpr hlast
  rw [hset, iFrameSetPf, if_neg Bool.false_ne_true, responseShouldSetF, hp, hdec]
  simp only [Bool.not_true, Bool.false_eq_true, if_false, answersAtOnce]
  congr 1
  split <;> simp_all

end Round

/-- `x` is the link `l` in a pass that has not answered yet. -/
structure Link.Polled (l x : Link) : Prop where
  mode : x.s.mode = l.s.mode
  flags : x.s.flags = l.s.flags
  pRcved : x.s.pfState.pRcved = true
  framing : x.s.framing = l.s.framing
  ks : x.p.ks = l.p.ks
  rejpend : x.p.ssState.rejpend = l.p.ssState.rejpend

namespace Link.Polled

variable {l x : Link}

theorem sendsCommand (h : l.Polled x) (hp : l.s.pfState.pRcved = true) :
    IoHdlc.sendsCommand x.s = IoHdlc.sendsCommand l.s := by
  rw [IoHdlc.sendsCommand, IoHdlc.sendsCommand, h.mode, h.flags, h.pRcved, hp]

/-- The opportunity to answer stays until the answer. -/
theorem opportunity (h : l.Polled x) (hrsp : IoHdlc.sendsCommand l.s = false)
    (hopp : sendOpportunity l.s = true) : sendOpportunity x.s = true := by
  rw [sendOpportunity, h.mode] at *
  by_cases hnrm : l.s.mode = .nrm ∨ l.s.mode = .ndm
  · have habm : l.s.mode ≠ .abm := by rcases hnrm with hm | hm <;> rw [hm] <;> decide
    rw [IoHdlc.sendsCommand, if_neg habm] at hrsp
    rw [if_pos hnrm, nrmSendOpportunity, h.flags, hrsp, if_neg Bool.false_ne_true, h.pRcved]
  · rw [if_neg hnrm, abmSendOpportunity] at hopp ⊢
    rw [h.flags, hopp]

end Link.Polled

/-! ### When the burst carries the F -/

/-- No flag that ends a burst was seen, and none arrives before the next `m` sections. -/
def PassEnv.Quiet (env : PassEnv) (seen : EvtFlags) (k m : ℕ) : Prop :=
  seen ∩ urgentFlags = ∅ ∧ ∀ i < m, env.arrivals (k + i) ∩ urgentFlags = ∅

/-- A burst of `n` I frames that starts with these flags carries the F. -/
def PassEnv.BurstAnswers (env : PassEnv) (s : Station) (n : ℕ) (seen : EvtFlags) (k : ℕ) : Prop :=
  0 < n ∧ s.flags.busy = false ∧ (answersAtOnce s = true ∨ n = 1 ∨ env.Quiet seen k (n - 1))

/-- The flags that end a burst are among those the worker listens for. -/
theorem inter_urgentFlags (seen cm arrivals : EvtFlags) :
    (seen ∪ (cm ∪ arrivals ∩ flagsMask)) ∩ urgentFlags =
      (seen ∪ cm) ∩ urgentFlags ∪ arrivals ∩ urgentFlags := by
  have hmask : flagsMask ∩ urgentFlags = urgentFlags := by decide
  rw [← Finset.union_assoc, Finset.union_inter_distrib_right, Finset.inter_assoc arrivals,
    hmask]

theorem PassEnv.quiet_succ {env : PassEnv} {seen cm : EvtFlags} {k m : ℕ} :
    env.Quiet (seen ∪ cm) k (m + 1) ↔
      env.Quiet (seen ∪ (cm ∪ env.arrivals k ∩ flagsMask)) (k + 1) m := by
  rw [Quiet, Quiet, inter_urgentFlags, Finset.union_eq_empty, and_assoc]
  refine and_congr_right fun _ =>
    ⟨fun h => ⟨h 0 m.succ_pos, fun i hi => ?_⟩, fun ⟨h₀, h⟩ i hi => ?_⟩
  · rw [Nat.add_assoc, Nat.add_comm 1 i]
    exact h (i + 1) (Nat.succ_lt_succ hi)
  · cases i with
    | zero => exact h₀
    | succ i =>
      have hi' := h i (Nat.lt_of_succ_lt_succ hi)
      rwa [Nat.add_assoc, Nat.add_comm 1 i] at hi'

section Cut

variable {env : PassEnv} {s : Station} {n k : ℕ} {flags cm : EvtFlags}

/-- A burst that goes on behind a frame without F. -/
theorem burstAnswers_succ (hcarry : ¬(s.flags.busy = false ∧ (answersAtOnce s = true ∨ n = 0)))
    (hcalm : (flags ∪ (cm ∪ env.arrivals k ∩ flagsMask)) ∩ urgentFlags = ∅) :
    env.BurstAnswers s n (flags ∪ (cm ∪ env.arrivals k ∩ flagsMask)) (k + 1) ↔
      env.BurstAnswers s (n + 1) (flags ∪ cm) k := by
  rw [PassEnv.BurstAnswers, PassEnv.BurstAnswers]
  cases n with
  | zero =>
    refine ⟨fun h => absurd h.1 (lt_irrefl 0), fun h => absurd ⟨h.2.1, .inr rfl⟩ hcarry⟩
  | succ m =>
    rw [Nat.add_sub_cancel, Nat.add_sub_cancel, PassEnv.quiet_succ]
    refine and_congr (by omega) (and_congr_right fun _ => or_congr_right ?_)
    constructor
    · rintro (h | h)
      · obtain rfl : m = 0 := by omega
        exact .inr ⟨hcalm, fun _ hi => absurd hi (Nat.not_lt_zero _)⟩
      · exact .inr h
    · rintro (h | h)
      · omega
      · exact .inr h

/-- A burst that an urgent flag ends behind a frame without F. -/
theorem not_burstAnswers (hcarry : ¬(s.flags.busy = false ∧ (answersAtOnce s = true ∨ n = 0)))
    (hurgent : (flags ∪ (cm ∪ env.arrivals k ∩ flagsMask)) ∩ urgentFlags ≠ ∅) :
    ¬env.BurstAnswers s (n + 1) (flags ∪ cm) k := by
  rintro ⟨-, hbusy, heager | hlast | hquiet⟩
  · exact hcarry ⟨hbusy, .inl heager⟩
  · exact hcarry ⟨hbusy, .inr (Nat.succ_injective hlast)⟩
  · cases n with
    | zero => exact hcarry ⟨hbusy, .inr rfl⟩
    | succ m => exact hurgent (PassEnv.quiet_succ.mp hquiet).1

/-- The worker does not listen for LINK_DOWN. -/
theorem linkDown_notMem {arrivals : EvtFlags} (h : .linkDown ∉ flags ∪ cm) :
    .linkDown ∉ flags ∪ (cm ∪ arrivals ∩ flagsMask) := by
  intro hmem
  rw [← Finset.union_assoc] at hmem
  rcases Finset.mem_union.mp hmem with hmem | hmem
  · exact h hmem
  · exact absurd (Finset.mem_inter.mp hmem).2 (by decide)

end Cut

/-- A round of a burst with `n + 1` frames to go, as a section of the pass. -/
theorem PassEnv.next_iFrame (env : PassEnv) {l : Link} (hrsp : sendsCommand l.s = false)
    (hp : l.s.pfState.pRcved = true) (hopp : sendOpportunity l.s = true)
    (hks : l.p.ks ≤ l.s.framing.modmask) {x : TxPass} {flags : EvtFlags} {iSent : Bool} {n : ℕ}
    (hpc : x.pc = .iFrame flags iSent) (hx : l.Polled x.link)
    (hn : sendableIFrames x.link = n + 1)
    (hdown : .linkDown ∉ flags ∪ x.link.s.cmListener) :
    let y := env.next x
    let seen := flags ∪ (x.link.s.cmListener ∪ env.arrivals x.sections ∩ flagsMask)
    y.sections = x.sections + 1 ∧ y.link.s.cmListener = ∅ ∧ sendableIFrames y.link = n ∧
      ((y.link.s.pfState.pRcved = false ∧
          (l.s.flags.busy = false ∧ (answersAtOnce l.s = true ∨ n = 0))) ∨
        (l.Polled y.link ∧ ¬(l.s.flags.busy = false ∧ (answersAtOnce l.s = true ∨ n = 0)) ∧
          y.pc = if seen ∩ urgentFlags ≠ ∅ then .skipIFrames seen true else .iFrame seen true)) := by
  obtain ⟨hbusy, fp, rest, hq, hroom, hmin⟩ := exists_of_sendable hn
  have hxrsp : sendsCommand x.link.s = false := (hx.sendsCommand hp).trans hrsp
  have hxks : x.link.p.ks ≤ x.link.s.framing.modmask := by rw [hx.ks, hx.framing]; exact hks
  have hnodown : .linkDown ∉ flags ∪ (env.found x).s.cmListener := linkDown_notMem hdown
  have hqf : (env.found x).p.iTransQ = fp :: rest := hq
  have hround := connectedTxIFrame_sends hqf hroom hbusy (hx.opportunity hrsp hopp) hnodown iSent
  have hset : (transmitIFrame (getAndClearFlags (env.found x) flags).1 fp rest).2.2 =
      (!l.s.flags.busy && (answersAtOnce l.s || n = 0)) := by
    have hmode : (getAndClearFlags (env.found x) flags).1.s.mode = l.s.mode := hx.mode
    have hflags : (getAndClearFlags (env.found x) flags).1.s.flags = l.s.flags := hx.flags
    have hlast : (transmitIFrame (getAndClearFlags (env.found x) flags).1 fp rest).2.2 =
        (!(getAndClearFlags (env.found x) flags).1.s.flags.busy &&
          (answersAtOnce (getAndClearFlags (env.found x) flags).1.s || n = 0)) :=
      setPf_transmitIFrame hxrsp hx.pRcved (isLastFrame_iff hroom hmin)
    rw [hlast, answersAtOnce, answersAtOnce, hmode, hflags]
  have hnext : env.next x = leave x (env.found x) (connectedTxIFrame (env.found x) flags iSent) := by
    rw [PassEnv.next, hpc]
  have hpRcved :
      (transmitIFrame (getAndClearFlags (env.found x) flags).1 fp rest).1.s.pfState.pRcved =
        !(transmitIFrame (getAndClearFlags (env.found x) flags).1 fp rest).2.2 := by
    have hack :
        (transmitIFrame (getAndClearFlags (env.found x) flags).1 fp rest).1.s.pfState.pRcved =
          (x.link.s.pfState.pRcved &&
            !((transmitIFrame (getAndClearFlags (env.found x) flags).1 fp rest).2.2 &&
              !sendsCommand x.link.s)) := rfl
    rw [hack, hx.pRcved, hxrsp]
    simp
  dsimp only
  rw [hnext, hround]
  refine ⟨rfl, rfl, sendable_transmitIFrame hxks hbusy hroom hmin, ?_⟩
  by_cases hcarry : l.s.flags.busy = false ∧ (answersAtOnce l.s = true ∨ n = 0)
  · refine .inl ⟨?_, hcarry⟩
    have htrue : (!l.s.flags.busy && (answersAtOnce l.s || decide (n = 0))) = true := by
      simpa using hcarry
    exact hpRcved.trans (by rw [hset, htrue]; rfl)
  · have hfalse : (!l.s.flags.busy && (answersAtOnce l.s || decide (n = 0))) = false := by
      simpa using hcarry
    refine .inr ⟨⟨hx.mode, hx.flags, hpRcved.trans (by rw [hset, hfalse]; rfl), hx.framing, hx.ks,
      hx.rejpend⟩, hcarry, ?_⟩
    simp only [leave, hset, hfalse, Bool.false_eq_true, and_false, or_false]
    rfl

/-- The burst carries the F, or it ends in front of the S frame with the P pending. -/
theorem PassEnv.burst (env : PassEnv) {l : Link} (hrsp : sendsCommand l.s = false)
    (hp : l.s.pfState.pRcved = true) (hopp : sendOpportunity l.s = true)
    (hks : l.p.ks ≤ l.s.framing.modmask) (n : ℕ) {x : TxPass} {flags : EvtFlags} {iSent : Bool}
    (hpc : x.pc = .iFrame flags iSent) (hx : l.Polled x.link) (hn : sendableIFrames x.link = n)
    (hdown : .linkDown ∉ flags ∪ x.link.s.cmListener) :
    (env.BurstAnswers l.s n (flags ∪ x.link.s.cmListener) x.sections ∧
        ∃ j, (env.next^[j] x).link.s.pfState.pRcved = false) ∨
      (¬env.BurstAnswers l.s n (flags ∪ x.link.s.cmListener) x.sections ∧
        ∃ j f, (env.next^[j] x).pc = .skipIFrames f (iSent || 0 < n) ∧
          l.Polled (env.next^[j] x).link) := by
  induction n generalizing x flags iSent with
  | zero =>
    have hnf : sendableIFrames (env.found x) = 0 := hn
    have hnext : env.next x = leave x (env.found x)
        { link := env.found x, sent := none, pc := .skipIFrames flags iSent, nextPeer := false } := by
      rw [PassEnv.next, hpc]
      exact congrArg (leave x (env.found x)) (connectedTxIFrame_none hnf flags iSent)
    refine .inr ⟨fun h => absurd h.1 (lt_irrefl 0), 1, flags, ?_⟩
    rw [Function.iterate_one, hnext]
    refine ⟨?_, ⟨hx.mode, hx.flags, hx.pRcved, hx.framing, hx.ks, hx.rejpend⟩⟩
    rw [decide_eq_false (lt_irrefl 0), Bool.or_false]
    rfl
  | succ n ih =>
    obtain ⟨hsections, hcm, hn', hcarry | ⟨hpolled, hcarry, hpc'⟩⟩ :=
      env.next_iFrame hrsp hp hopp hks hpc hx hn hdown
    · refine .inl ⟨⟨n.succ_pos, hcarry.2.1, ?_⟩, 1, hcarry.1⟩
      exact hcarry.2.2.imp_right fun hn0 => .inl (congrArg Nat.succ hn0)
    · rw [decide_eq_true n.succ_pos, Bool.or_true]
      split at hpc'
      next hurgent => exact .inr ⟨not_burstAnswers hcarry hurgent, 1, _, hpc', hpolled⟩
      next hcalm =>
        rw [not_not] at hcalm
        have hdown' : .linkDown ∉ flags ∪ (x.link.s.cmListener ∪ env.arrivals x.sections ∩ flagsMask) ∪
            (env.next x).link.s.cmListener := by
          rw [hcm, Finset.union_empty]
          exact linkDown_notMem hdown
        have hrest := ih hpc' hpolled hn' hdown'
        rw [hcm, hsections, Finset.union_empty, burstAnswers_succ hcarry hcalm] at hrest
        rcases hrest with ⟨hans, j, hj⟩ | ⟨hno, j, f, hj, hpj⟩
        · exact .inl ⟨hans, j + 1, hj⟩
        · exact .inr ⟨hno, j + 1, f, hj, hpj⟩

/-! ### The S frame -/

/-- With an opportunity and a frame of the pool an S frame is prepared. -/
theorem prepareSFrame_some {l : Link} (hopp : sendOpportunity l.s = true) (stale : Frame)
    (sFun : UInt8) (isCommand : Bool) :
    prepareSFrame l (some stale) sFun isCommand =
      (sFrameSent l isCommand,
        some (buildSFrame l.s l.p stale sFun l.p.vr (sFrameSetPf l isCommand) isCommand)) := by
  simp [prepareSFrame, hopp, sFrameSent, sFrameSetPf]

/-- An S response acknowledges the P. -/
theorem pRcved_sFrameSent {l : Link} (hrsp : sendsCommand l.s = false) :
    (sFrameSent l (sendsCommand l.s)).s.pfState.pRcved = false := by
  have hack : (sFrameSent l (sendsCommand l.s)).s.pfState.pRcved =
      (l.s.pfState.pRcved && !(sFrameSetPf l (sendsCommand l.s) && !sendsCommand l.s)) := rfl
  rw [hack, hrsp, sFrameSetPf_response]
  cases l.s.pfState.pRcved <;> rfl

/-- The last section answers a pending P unless I frames without F went before and there is
neither a REJ to send nor a local busy condition to take back. -/
theorem chooseSFrame_pRcved {l : Link} (hrsp : sendsCommand l.s = false)
    (hp : l.s.pfState.pRcved = true) (hopp : sendOpportunity l.s = true) (iSent : Bool)
    (stale : ℕ → Frame) :
    (chooseSFrame l iSent fun i => some (stale i)).1.s.pfState.pRcved = false ↔
      iSent = false ∨ l.p.ssState.rejpend = true ∨
        (l.s.flags.busy = true ∧ l.s.poolState = .normal) := by
  have hsent := pRcved_sFrameSent hrsp
  simp only [chooseSFrame, prepareSFrame_some hopp]
  cases hrej : l.p.ssState.rejpend with
  | true => simp [hsent]
  | false =>
    by_cases hbusy : l.s.flags.busy = true ∧ l.s.poolState = .normal
    · simp [hbusy, hsent, prepareSFrame_some hopp]
    · have hno : (l.s.flags.busy && decide (l.s.poolState = .normal)) = false := by
        simpa using hbusy
      cases iSent with
      | false => simp [hno, hp, hsent, prepareSFrame_some hopp]
      | true => simp [hno, hp, hbusy]

/-! ### The pass -/

/-- When a pass answers the P that is pending at its entry. A command cannot answer it. Behind
I frames without F only a REJ or the end of a local busy condition still brings an F. While
the station is busy no I frame has one, otherwise the first of the asynchronous modes has it
and the last of the others, if no urgent flag ends the burst before. -/
def PassEnv.Answers (env : PassEnv) (l : Link) (flags : EvtFlags) : Prop :=
  sendsCommand l.s = false ∧
    (sendableIFrames l = 0 ∨ l.p.ssState.rejpend = true ∨
      if l.s.flags.busy = true then env.poolState = .normal
      else answersAtOnce l.s = true ∨ sendableIFrames l = 1 ∨
        env.Quiet (flags ∪ l.s.cmListener) 0 (sendableIFrames l))

theorem PassEnv.enter_sectionsLeft (env : PassEnv) (l : Link) (flags : EvtFlags) :
    let x := env.enter l flags
    x.pc.sectionsLeft x.link.p.iTransQ.length ≤ l.p.iTransQ.length + 3 := by
  dsimp only
  rcases connectedTxEntry_served l flags (some env.uiFrame) with ⟨-, f, hpc⟩ | ⟨hserved, hpc, -⟩
  · simp only [enter, hpc, TxPc.sectionsLeft]
    omega
  · obtain ⟨_, _, _, _, _, _, hlink⟩ := hserved
    simp only [enter, hpc, TxPc.sectionsLeft, hlink]
    exact le_rfl

theorem PassEnv.pass_idle (env : PassEnv) (l : Link) (flags : EvtFlags) :
    ∃ f, (env.pass l flags).pc = .idle f := by
  have hleft := env.iterate_left (env.enter l flags) (l.p.iTransQ.length + 3)
  have henter := env.enter_sectionsLeft l flags
  have hzero : (env.pass l flags).pc.sectionsLeft (env.pass l flags).link.p.iTransQ.length = 0 := by
    rw [pass]
    dsimp only at henter
    omega
  cases hpc : (env.pass l flags).pc with
  | idle f => exact ⟨f, rfl⟩
  | check f | iFrame f i | skipIFrames f i => simp [hpc, TxPc.sectionsLeft] at hzero

/-- The end of a pass lies behind each of its states. -/
theorem PassEnv.pass_after (env : PassEnv) (l : Link) (flags : EvtFlags) (j : ℕ) :
    ∃ k, env.pass l flags = env.next^[k] (env.next^[j] (env.enter l flags)) := by
  rcases Nat.le_total j (l.p.iTransQ.length + 3) with hle | hle
  · refine ⟨l.p.iTransQ.length + 3 - j, ?_⟩
    rw [pass, ← Function.iterate_add_apply, Nat.sub_add_cancel hle]
  · obtain ⟨f, hidle⟩ := env.pass_idle l flags
    refine ⟨0, ?_⟩
    rw [Function.iterate_zero, id, ← Nat.sub_add_cancel hle, Function.iterate_add_apply]
    exact (env.iterate_idle hidle _).symm

/-- A station that sends commands goes on with them, and with the P. -/
structure TxPass.Commands (x : TxPass) : Prop where
  mode : x.link.s.mode ≠ .abm
  pri : x.link.s.flags.pri = true
  pRcved : x.link.s.pfState.pRcved = true

theorem AnswersWith.pRcved_of_command {fr : Framing} {l l' : Link} {sent : Option Frame}
    (h : AnswersWith fr l l' sent) (hcmd : sendsCommand l.s = true)
    (hp : l.s.pfState.pRcved = true) : l'.s.pfState.pRcved = true := by
  have hpaid := h.paid
  rw [hp, hcmd, Bool.true_and] at hpaid
  cases sent with
  | none => simpa using hpaid.symm
  | some fp => simpa [HandedFrame.isFinal] using hpaid.symm

theorem PassEnv.next_commands (env : PassEnv) {x : TxPass} (h : x.Commands) :
    (env.next x).Commands := by
  have hcmd : sendsCommand x.link.s = true := by
    rw [sendsCommand, if_neg h.mode, h.pri]
  rw [PassEnv.next]
  split
  · exact h
  next flags _ => exact ⟨h.mode, h.pri, h.pRcved⟩
  next flags iSent _ =>
    have hround := connectedTxIFrame_answers (env.found x) flags iSent
    have hkeep : (env.found x).KeepsRx (connectedTxIFrame (env.found x) flags iSent).link := by
      rcases connectedTxIFrame_cases (env.found x) flags iSent with ⟨hk, -⟩ | ⟨_, _, _, hk, -⟩
      · exact hk.toKeepsRx
      · exact hk.toKeepsRx
    exact ⟨fun hm => h.mode (hkeep.mode.symm.trans hm), hkeep.pri.trans h.pri,
      hround.pRcved_of_command hcmd h.pRcved⟩
  next flags iSent _ =>
    have hsframe := connectedTxSFrame_answers (env.foundLast x) flags iSent
      fun i => some (env.sFrame i)
    have hkeep := (connectedTxSFrame_keeps (env.foundLast x) flags iSent
      fun i => some (env.sFrame i)).1
    exact ⟨fun hm => h.mode (hkeep.mode.symm.trans hm), hkeep.pri.trans h.pri,
      hsframe.pRcved_of_command hcmd h.pRcved⟩

/-- Once the P is answered it stays so. -/
theorem PassEnv.next_kept (env : PassEnv) {x : TxPass}
    (h : (env.next x).link.s.pfState.pRcved = true) : x.link.s.pfState.pRcved = true := by
  rw [PassEnv.next] at h
  split at h
  · exact h
  · exact h
  next flags iSent _ => exact (connectedTxIFrame_answers (env.found x) flags iSent).kept h
  next flags iSent _ =>
    exact (connectedTxSFrame_answers (env.foundLast x) flags iSent
      fun i => some (env.sFrame i)).kept h

theorem PassEnv.iterate_kept (env : PassEnv) {x : TxPass} (hx : x.link.s.pfState.pRcved = false)
    (k : ℕ) : (env.next^[k] x).link.s.pfState.pRcved = false := by
  refine Function.Iterate.rec (fun y : TxPass => y.link.s.pfState.pRcved = false) hx
    (fun y hy => ?_) k
  exact Bool.eq_false_iff.mpr fun h => Bool.false_ne_true (hy.symm.trans (env.next_kept h))

section FromEntry

variable {env : PassEnv} {l : Link} {flags : EvtFlags}

/-- What the first section behind the entry finds. -/
theorem found_served (env : PassEnv) {x : TxPass} (hserved : l.Served x.link)
    (hp : l.s.pfState.pRcved = true) :
    l.Polled (env.found x) ∧ sendableIFrames (env.found x) = sendableIFrames l ∧
      (env.found x).p.frmrCondition = l.p.frmrCondition ∧
      (env.found x).s.cmListener = l.s.cmListener ∪ env.arrivals x.sections ∩ flagsMask := by
  obtain ⟨link, pc, sent, sections⟩ := x
  obtain ⟨f, r, n, c, t, u, rfl⟩ := hserved
  exact ⟨⟨rfl, rfl, hp, rfl, rfl, rfl⟩, rfl, rfl, rfl⟩

/-- The flags that the entry serves do not end a burst. -/
theorem served_inter_urgentFlags (flags cm : EvtFlags) :
    (((flags \ {.lineIdle}) \ {.cRplytmo}) \ {.t3Tmo} ∪ cm) ∩ urgentFlags =
      (flags ∪ cm) ∩ urgentFlags := by
  have hdisj : Disjoint ({.lineIdle, .cRplytmo, .t3Tmo} : EvtFlags) urgentFlags := by decide
  have hserved : ((flags \ {.lineIdle}) \ {.cRplytmo}) \ {.t3Tmo} =
      flags \ {.lineIdle, .cRplytmo, .t3Tmo} := by
    rw [sdiff_sdiff_left, sdiff_sdiff_left]
    rfl
  rw [hserved, Finset.union_inter_distrib_right, Finset.union_inter_distrib_right]
  congr 1
  ext e
  simp only [Finset.mem_inter, Finset.mem_sdiff]
  constructor
  · rintro ⟨⟨he, -⟩, hu⟩
    exact ⟨he, hu⟩
  · rintro ⟨he, hu⟩
    exact ⟨⟨he, fun hs => Finset.disjoint_left.mp hdisj hs hu⟩, hu⟩

/-- The condition of a whole burst, from the flags at the entry. -/
theorem burstAnswers_entry (s : Station) (n : ℕ) (cm : EvtFlags) :
    env.BurstAnswers s n
        (((flags \ {.lineIdle}) \ {.cRplytmo}) \ {.t3Tmo} ∪ (cm ∪ env.arrivals 0 ∩ flagsMask)) 1 ↔
      0 < n ∧ s.flags.busy = false ∧
        (answersAtOnce s = true ∨ n = 1 ∨ env.Quiet (flags ∪ cm) 0 n) := by
  rw [PassEnv.BurstAnswers]
  refine and_congr_right fun hn => ?_
  obtain ⟨m, rfl⟩ := Nat.exists_eq_succ_of_ne_zero hn.ne'
  rw [Nat.succ_eq_add_one, Nat.add_sub_cancel, ← PassEnv.quiet_succ (k := 0), PassEnv.Quiet,
    PassEnv.Quiet, served_inter_urgentFlags]

/-- The last section of a pass with the P still pending. -/
theorem next_skipIFrames (hrsp : sendsCommand l.s = false) (hp : l.s.pfState.pRcved = true)
    (hopp : sendOpportunity l.s = true) {x : TxPass} (hx : l.Polled x.link) {f : EvtFlags}
    {iSent : Bool} (hpc : x.pc = .skipIFrames f iSent) :
    (env.next x).link.s.pfState.pRcved = false ↔
      iSent = false ∨ l.p.ssState.rejpend = true ∨
        (l.s.flags.busy = true ∧ env.poolState = .normal) := by
  have hfound : l.Polled (getAndClearFlags (env.foundLast x) f).1 :=
    ⟨hx.mode, hx.flags, hx.pRcved, hx.framing, hx.ks, hx.rejpend⟩
  have hchoose := chooseSFrame_pRcved ((hfound.sendsCommand hp).trans hrsp) hfound.pRcved
    (hfound.opportunity hrsp hopp) iSent env.sFrame
  rw [hfound.rejpend, hfound.flags] at hchoose
  have hnext : env.next x = PassEnv.leave x (env.foundLast x)
      (connectedTxSFrame (env.foundLast x) f iSent fun i => some (env.sFrame i)) := by
    rw [PassEnv.next, hpc]
  rw [hnext]
  exact hchoose

/-- The section behind `skip_i_frames` is the last one. -/
theorem pass_of_skipIFrames {j : ℕ} {f : EvtFlags} {iSent : Bool}
    (hpc : (env.next^[j] (env.enter l flags)).pc = .skipIFrames f iSent) :
    env.pass l flags = env.next (env.next^[j] (env.enter l flags)) := by
  obtain ⟨k, hk⟩ := env.pass_after l flags j
  cases k with
  | zero =>
    obtain ⟨f', hidle⟩ := env.pass_idle l flags
    rw [hk, Function.iterate_zero, id, hpc] at hidle
    cases hidle
  | succ k =>
    have hidle : ∃ f', (env.next (env.next^[j] (env.enter l flags))).pc = .idle f' := by
      rw [PassEnv.next, hpc]
      exact ⟨_, rfl⟩
    obtain ⟨f', hidle⟩ := hidle
    rw [hk, Function.iterate_succ_apply, env.iterate_idle hidle k]

/-- A pass that its entry does not end answers the P exactly under the condition. -/
theorem pass_pRcved (hp : l.s.pfState.pRcved = true) (hopp : sendOpportunity l.s = true)
    (hfrmr : l.p.frmrCondition = false) (hks : l.p.ks ≤ l.s.framing.modmask)
    (hdown : .linkDown ∉ flags ∪ l.s.cmListener) (hserved : l.Served (env.enter l flags).link)
    (hpc : (env.enter l flags).pc = .check (((flags \ {.lineIdle}) \ {.cRplytmo}) \ {.t3Tmo})) :
    (env.pass l flags).link.s.pfState.pRcved = false ↔ env.Answers l flags := by
  obtain ⟨hpolled, hsend, hfrmr', hcm⟩ := found_served env hserved hp
  have hcheck : env.next (env.enter l flags) = PassEnv.leave (env.enter l flags)
      (env.found (env.enter l flags)) (connectedTxCheck (env.found (env.enter l flags))
        (((flags \ {.lineIdle}) \ {.cRplytmo}) \ {.t3Tmo})) := by
    rw [PassEnv.next, hpc]
  cases hrsp : sendsCommand l.s with
  | true =>
    have hmode : l.s.mode ≠ .abm := by
      intro habm
      simp [sendsCommand, habm, hp] at hrsp
    have hpri : l.s.flags.pri = true := by rwa [sendsCommand, if_neg hmode] at hrsp
    have hcmd : (env.enter l flags).Commands :=
      ⟨fun hm => hmode (hpolled.mode.symm.trans hm), (congrArg StationFlags.pri hpolled.flags).trans hpri,
        hpolled.pRcved⟩
    have hend := (Function.Iterate.rec TxPass.Commands hcmd (fun _ => env.next_commands)
      (l.p.iTransQ.length + 3)).pRcved
    refine iff_of_false (fun h => Bool.false_ne_true (h.symm.trans hend)) fun h => ?_
    exact Bool.false_ne_true (h.1.symm.trans hrsp)
  | false =>
    have hfirst : (env.next (env.enter l flags)).pc =
        .iFrame (((flags \ {.lineIdle}) \ {.cRplytmo}) \ {.t3Tmo}) false := by
      rw [hcheck]
      simp only [PassEnv.leave, connectedTxCheck, hfrmr', hfrmr, Bool.false_eq_true, if_false]
    have hfound : (env.next (env.enter l flags)).link = env.found (env.enter l flags) := by
      rw [hcheck]
      rfl
    have hsections : (env.next (env.enter l flags)).sections = 1 := by
      rw [hcheck]
      rfl
    have hcm' : (env.next (env.enter l flags)).link.s.cmListener =
        l.s.cmListener ∪ env.arrivals 0 ∩ flagsMask := by
      rw [hfound]
      exact hcm
    have hdown' : .linkDown ∉ ((flags \ {.lineIdle}) \ {.cRplytmo}) \ {.t3Tmo} ∪
        (env.next (env.enter l flags)).link.s.cmListener := by
      rw [hcm']
      refine linkDown_notMem fun h => hdown ?_
      rw [Finset.mem_union] at h ⊢
      exact h.imp_left fun h => by simpa using h
    have hburst := env.burst hrsp hp hopp hks (sendableIFrames l) hfirst (hfound ▸ hpolled)
      (hfound ▸ hsend) hdown'
    rw [hcm', hsections, burstAnswers_entry] at hburst
    rcases hburst with ⟨⟨hpos, hbusy, hwhen⟩, j, hj⟩ | ⟨hno, j, f, hskip, hpj⟩
    · obtain ⟨k, hk⟩ := env.pass_after l flags (j + 1)
      rw [hk]
      refine iff_of_true (env.iterate_kept hj k) ⟨hrsp, .inr (.inr ?_)⟩
      rwa [if_neg (Bool.eq_false_iff.mp hbusy)]
    · have hskip' : (env.next^[j + 1] (env.enter l flags)).pc =
          .skipIFrames f (false || decide (0 < sendableIFrames l)) := hskip
      have hpj' : l.Polled (env.next^[j + 1] (env.enter l flags)).link := hpj
      rw [pass_of_skipIFrames hskip', next_skipIFrames hrsp hp hopp hpj' hskip', PassEnv.Answers]
      rw [Bool.false_or, decide_eq_false_iff_not, not_lt, Nat.le_zero]
      refine ⟨fun h => ⟨hrsp, ?_⟩, fun h => ?_⟩
      · rcases h with h | h | ⟨hbusy, hpool⟩
        · exact .inl h
        · exact .inr (.inl h)
        · exact .inr (.inr (by rwa [if_pos hbusy]))
      · rcases h.2 with h | h | h
        · exact .inl h
        · exact .inr (.inl h)
        · split at h
          next hbusy => exact .inr (.inr ⟨hbusy, h⟩)
          next hbusy =>
            refine .inl (Nat.eq_zero_of_not_pos fun hpos => hno ⟨hpos, ?_, h⟩)
            exact Bool.eq_false_iff.mpr hbusy

end FromEntry

/-- A pass that is entered under a poll it may answer, and that no disconnection ends. -/
structure PassEnv.Polls (env : PassEnv) (l : Link) (flags : EvtFlags) : Prop where
  pRcved : l.s.pfState.pRcved = true
  opportunity : sendOpportunity l.s = true
  frmrCondition : l.p.frmrCondition = false
  /-- The windows that `ioHdlcPeerSetWindow` accepts. -/
  ks_le : l.p.ks ≤ l.s.framing.modmask
  linkDown : .linkDown ∉ flags ∪ l.s.cmListener
  stConn : (env.pass l flags).link.p.ssState.stConn = true

/-- The pass returns after one frame with F, and no P is pending. -/
structure PassEnv.AnsweredOnce (env : PassEnv) (l : Link) (flags : EvtFlags) : Prop where
  returns : ∃ f, (env.pass l flags).pc = .idle f
  finals : (env.pass l flags).finals l.s.framing = 1
  pRcved : (env.pass l flags).link.s.pfState.pRcved = false

theorem PassEnv.Polls.served {env : PassEnv} {l : Link} {flags : EvtFlags}
    (h : env.Polls l flags) :
    l.Served (env.enter l flags).link ∧
      (env.enter l flags).pc = .check (((flags \ {.lineIdle}) \ {.cRplytmo}) \ {.t3Tmo}) ∧
      (env.enter l flags).finals l.s.framing + (env.enter l flags).pending = 1 := by
  rcases connectedTxEntry_served l flags (some env.uiFrame) with
    ⟨habort, f, hpc⟩ | ⟨hserved, hpc, hsent⟩
  · have hpass : env.pass l flags = env.enter l flags := env.iterate_idle hpc _
    have hgone : (env.enter l flags).link.p.ssState.stConn = false := habort.stConn
    exact absurd (hpass ▸ h.stConn) (Bool.eq_false_iff.mp hgone)
  · refine ⟨hserved, hpc, ?_⟩
    have hp : (env.enter l flags).link.s.pfState.pRcved = true := by
      obtain ⟨_, _, _, _, _, _, hlink⟩ := hserved
      exact (congrArg (fun m : Link => m.s.pfState.pRcved) hlink).trans h.pRcved
    have hnone : ((connectedTxEntry l flags (some env.uiFrame)).sent.map fun fp =>
        HandedFrame.isFinal l.s.framing ⟨fp, sendsCommand l.s⟩).getD false = false := by
      cases hs : (connectedTxEntry l flags (some env.uiFrame)).sent with
      | none => rfl
      | some fp => simp [HandedFrame.isFinal, hsent fp (Option.mem_def.mpr hs)]
    rw [TxPass.pending, hp]
    exact congrArg (· + 1) ((countP_sent _ _).trans (congrArg Bool.toNat hnone))

/-- A poll is answered, by one frame with F, exactly under the condition `Answers`. -/
theorem answeredOnce_iff (env : PassEnv) (l : Link) (flags : EvtFlags) (h : env.Polls l flags) :
    env.AnsweredOnce l flags ↔ env.Answers l flags := by
  obtain ⟨hserved, hpc, hone⟩ := h.served
  have hcleared := pass_pRcved h.pRcved h.opportunity h.frmrCondition h.ks_le h.linkDown hserved hpc
  refine ⟨fun ha => hcleared.mp ha.pRcved, fun ha => ?_⟩
  have hp := hcleared.mpr ha
  have hfr : (env.enter l flags).link.s.framing = l.s.framing := by
    obtain ⟨_, _, _, _, _, _, hlink⟩ := hserved
    rw [hlink]
    rfl
  have hsum := (env.iterate_finals hfr (l.p.iTransQ.length + 3)).1.trans hone
  refine ⟨env.pass_idle l flags, ?_, hp⟩
  have hzero : (env.pass l flags).pending = 0 := by rw [TxPass.pending, hp]; rfl
  exact (Nat.add_zero _).symm.trans ((congrArg _ hzero.symm).trans hsum)

/-- A secondary of NRM in modulus 8 that is polled with two I frames in its queue. -/
def polledSecondary (busy : Bool) : Link :=
  let s := initialStation .nrm {} (.mod8 0 Framing.zero_le_two) 2 true 100 200 1
  { s := { s with flags := { s.flags with busy := busy }, pfState := { s.pfState with pRcved := true } }
    p := { initialPeer s 128 8 2 with ssState := { stConn := true }, iTransQ := [default, default] } }

def quietEnv (poolState : PoolState) : PassEnv :=
  { uiFrame := default, sFrame := fun _ => default, arrivals := fun _ => ∅, poolState := poolState }

theorem answeredOnce_polledSecondary :
    (quietEnv .normal).AnsweredOnce (polledSecondary false) {.pfRecvd} :=
  (answeredOnce_iff _ _ _
    { pRcved := by decide
      opportunity := by decide
      frmrCondition := by decide
      ks_le := by decide
      linkDown := by decide
      stConn := by decide +kernel }).mpr (by
    refine ⟨by decide, .inr (.inr ?_)⟩
    rw [if_neg (by decide)]
    exact .inr (.inr ⟨by decide, fun _ _ => rfl⟩))

/-- Local busy, with the pool still at low water: both I frames go out without an F, and
because they went out no RNR follows. -/
theorem answeredOnce_fails :
    ¬∀ (env : PassEnv) (l : Link) (flags : EvtFlags), env.Polls l flags →
      env.AnsweredOnce l flags := by
  intro h
  have hans := h (quietEnv .lowWater) (polledSecondary true) {.pfRecvd}
    { pRcved := by decide
      opportunity := by decide
      frmrCondition := by decide
      ks_le := by decide
      linkDown := by decide
      stConn := by decide +kernel }
  have hnone : ((quietEnv .lowWater).pass (polledSecondary true) {.pfRecvd}).link.s.pfState.pRcved =
      true := by decide +kernel
  exact Bool.false_ne_true (hans.pRcved.symm.trans hnone)

end IoHdlc
