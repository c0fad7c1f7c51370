import IoHdlc.Frames.Site

/-!
A frame has as many references as owners.

Whatever a thread or the driver does is a `Trade` of references, a reference that the driver adds,
or releases of the driver; each of them keeps the count of every frame equal to the number of its
owners (`Settled`). A frame is in one place of the core at most, and the TX gate keeps it in one
place of the driver at most, so the counts do not come near the end of their octet.
-/

namespace IoHdlc

open Kit

/-! ### What the transmit pipeline releases -/

namespace TxPipe

variable {F : Type} [DecidableEq F]

theorem sTryStartNextTxI_frameReleases (d : TxPipe F) (prependOpeningFlag : Bool)
    (r : SubmitResult) : (d.sTryStartNextTxI prependOpeningFlag r).1.frameReleases = d.frameReleases := by
  rw [sTryStartNextTxI]
  split
  · rfl
  split
  · rfl
  split
  · rfl
  dsimp only
  split
  · rfl
  split <;> rfl

variable {d : TxPipe F} {past : List F}

theorem prefix_releaseFrame (h : past <+: d.frameReleases) (fp : F) :
    past <+: (d.releaseFrame fp).frameReleases :=
  h.trans (List.prefix_append _ _)

theorem prefix_release (h : past <+: d.frameReleases) (fp : Option F) :
    past <+: (d.release fp).frameReleases := by
  cases fp with
  | none => exact h
  | some fp => exact prefix_releaseFrame h fp

theorem prefix_sTryStartNextTxI (h : past <+: d.frameReleases) (prependOpeningFlag : Bool)
    (r : SubmitResult) : past <+: (d.sTryStartNextTxI prependOpeningFlag r).1.frameReleases := by
  rw [sTryStartNextTxI_frameReleases]
  exact h

theorem prefix_drain (h : past <+: d.frameReleases) (q : List F) :
    past <+: (d.drain q).frameReleases := by
  induction q generalizing d with
  | nil => exact h
  | cons fp q ih => exact ih (prefix_releaseFrame h fp)

theorem prefix_sOnTxErrorI (h : past <+: d.frameReleases) (framep : Option F) :
    past <+: (d.sOnTxErrorI framep).frameReleases := by
  simp only [sOnTxErrorI]
  refine prefix_release (prefix_drain ?_ _) _
  split <;> exact h

theorem prefix_sOnTxReadyI (h : past <+: d.frameReleases) (next : SubmitResult) :
    past <+: (d.sOnTxReadyI next).frameReleases :=
  prefix_release (prefix_sTryStartNextTxI h true next) _

theorem prefix_sOnTxDone (h : past <+: d.frameReleases) (doneFp : Option F) (next : SubmitResult) :
    past <+: (d.sOnTxDone doneFp next).frameReleases := by
  simp only [sOnTxDone]
  refine prefix_release (prefix_release (prefix_sTryStartNextTxI ?_ false next) _) _
  split <;> exact h

theorem prefix_drvSendFrameQueue (h : past <+: d.frameReleases) (nfp : F)
    (first next : SubmitResult) : past <+: (d.drvSendFrameQueue nfp first next).frameReleases := by
  simp only [drvSendFrameQueue]
  split
  · split
    · refine prefix_release (prefix_sTryStartNextTxI ?_ true next) _
      exact h
    split
    · exact h
    · exact prefix_releaseFrame h nfp
  split
  · refine prefix_release (prefix_sTryStartNextTxI ?_ true next) _
    exact h
  · exact prefix_releaseFrame h nfp

end TxPipe

namespace TxRun

variable {F : Type} [DecidableEq F] {g g' : TxRun F} {a : TxStimulus F}

theorem prefix_act (ha : a.ofDriver = true) (hact : g.act a = some g') :
    g.pipe.frameReleases <+: g'.pipe.frameReleases := by
  cases a with
  | stamp fp => simp [TxStimulus.ofDriver] at ha
  | stamped fp => simp [TxStimulus.ofDriver] at ha
  | commit fp prepared take => simp [TxStimulus.ofDriver] at ha
  | queue nfp first next =>
    simp only [act] at hact
    split at hact
    · cases hact
      exact TxPipe.prefix_drvSendFrameQueue List.prefix_rfl nfp first next
    · cases hact
  | done doneFp txBusy next =>
    simp only [act] at hact
    split at hact
    · cases hact
      refine TxPipe.prefix_sOnTxDone ?_ doneFp next
      exact List.prefix_rfl
    · cases hact
  | ready txBusy next =>
    cases hact
    refine TxPipe.prefix_sOnTxReadyI ?_ next
    exact List.prefix_rfl
  | error framep txBusy =>
    simp only [act] at hact
    split at hact
    · cases hact
      refine TxPipe.prefix_sOnTxErrorI ?_ framep
      exact List.prefix_rfl
    · cases hact
  | stop =>
    cases hact
    simp only [TxPipe.drvStop]
    split
    · refine TxPipe.prefix_sOnTxErrorI ?_ none
      exact List.prefix_rfl
    · exact List.prefix_rfl
  | busy txBusy =>
    cases hact
    exact List.prefix_rfl

/-- A frame that was committed waits for the lock or got it. -/
theorem count_committed (ha : a.ofDriver = true) (hact : g.act a = some g') (fp : F) :
    g'.committing.count fp + g'.sent.count fp = g.committing.count fp + g.sent.count fp := by
  cases a with
  | stamp fp => simp [TxStimulus.ofDriver] at ha
  | stamped fp => simp [TxStimulus.ofDriver] at ha
  | commit fp prepared take => simp [TxStimulus.ofDriver] at ha
  | queue nfp first next =>
    simp only [act] at hact
    split at hact
    next hmem =>
      cases hact
      have hcount : (g.committing.erase nfp).count fp = _ := List.count_erase
      have hpos : g.committing.count nfp ≠ 0 := (List.count_pos_iff.mpr hmem).ne'
      dsimp only
      rw [hcount, List.count_append, List.count_singleton]
      by_cases heq : nfp = fp
      · subst heq
        simp
        omega
      · simp [heq]
    · cases hact
  | done doneFp txBusy next =>
    simp only [act] at hact
    split at hact
    · cases hact
      rfl
    · cases hact
  | ready txBusy next =>
    cases hact
    rfl
  | error framep txBusy =>
    simp only [act] at hact
    split at hact
    · cases hact
      rfl
    · cases hact
  | stop =>
    cases hact
    rfl
  | busy txBusy =>
    cases hact
    rfl

/-- The references of the driver, by the account of its frames. -/
theorem Accounted.refs_eq (h : g.Accounted) (fp : F) :
    g.pipe.refs fp = (g.committing ++ (g.pipe.inflightFp.toList ++ g.pipe.rawQ)).count fp := by
  obtain ⟨past, failures, hb⟩ := h
  rw [hb.refs, List.append_nil, TxPipe.pipeline]

theorem Accounted.refs_le (h : g.Accounted) (fp : F) : g.pipe.refs fp ≤ 1 := by
  obtain ⟨past, failures, hb⟩ := h
  have hnodup : (g.committing ++ g.pipe.pipeline).Nodup := by
    have hall := hb.nodup
    rw [List.append_assoc] at hall
    exact hall.of_append_right
  rw [hb.refs, List.append_nil]
  exact List.nodup_iff_count_le_one.mp hnodup fp

/-- What was committed is with the driver or was released. -/
theorem Accounted.refs_add (h : g.Accounted) (fp : F) :
    g.pipe.refs fp + g.pipe.frameReleases.count fp = g.committing.count fp + g.sent.count fp := by
  obtain ⟨past, failures, hb⟩ := h
  have hreleases := hb.frameReleases fp
  rw [List.count_nil, Nat.add_zero] at hreleases
  rw [hb.refs, hreleases, hb.sent]
  simp only [List.count_append, List.count_nil]
  omega

/-- The driver drops a reference for each frame that it releases, and no other. -/
theorem Accounted.refs_released (h : g.Accounted) (ha : a.ofDriver = true)
    (hact : g.act a = some g') (fp : F) :
    g.pipe.refs fp = (releasedTo g.pipe g'.pipe).count fp + g'.pipe.refs fp := by
  have h' : g'.Accounted := accounted_step h hact
  obtain ⟨rel, hrel⟩ := prefix_act ha hact
  have hcommitted := count_committed ha hact fp
  have hbefore := h.refs_add fp
  have hbehind := h'.refs_add fp
  have hreleased : releasedTo g.pipe g'.pipe = rel := by
    rw [releasedTo, ← hrel, List.drop_left]
  rw [← hrel, List.count_append] at hbehind
  rw [hreleased]
  omega

end TxRun

/-! ### Counts and owners -/

section Settled

variable {F C A : Type} [DecidableEq F]

/-- A pool whose slots are set up, and a run of it in which only owners release. -/
structure PoolSetup (F C A : Type) [DecidableEq F] where
  frames : F → PoolFrame F
  slots : List F
  pool : FrameMemPool F C A
  initial : InitialPool frames slots pool
  nodup : slots.Nodup
  length_lt : slots.length < 2 ^ 32
  lt : pool.lowThreshold < pool.highThreshold

variable {u : PoolSetup F C A} {r : PoolRun F C A} {d d' : F → Nat} {a b : Account F C A}

/-- Its runs, with at most 255 references of a frame. -/
def PoolSetup.Runs (u : PoolSetup F C A) (r : PoolRun F C A) : Prop :=
  Reachable (· = .start u.pool) (PoolStepWithin 255) r

theorem PoolSetup.Runs.divided (h : u.Runs r) : ∃ free, r.Divided u.frames u.slots free := by
  obtain ⟨free, hdivided, -⟩ := u.initial.run_divided u.nodup u.length_lt
    (u.initial.total_pos u.lt) (UInt32.le_of_lt u.lt) h
  exact ⟨free, hdivided⟩

/-- A frame from the pool has no owner so far. -/
theorem PoolSetup.Runs.taken (h : u.Runs r) :
    (r.taken = none ∧ r.take.held = r.held) ∨
      ∃ fp, r.taken = some fp ∧ r.held fp = 0 ∧ r.take.held = Function.update r.held fp 1 := by
  obtain ⟨free, hdivided⟩ := h.divided
  cases hhead : r.pool.freeList with
  | none =>
    have htake := r.pool.take_of_none hhead
    exact .inl ⟨by rw [PoolRun.taken, htake], by rw [PoolRun.take, htake]; rfl⟩
  | some fp =>
    obtain ⟨rest, hfree, -⟩ := (hhead ▸ hdivided.linked).of_some
    obtain ⟨notice, htake⟩ := r.pool.take_of_some hhead
    have hheld : r.held fp = 0 := hdivided.held_of_mem (hfree ▸ List.mem_cons_self)
    refine .inr ⟨fp, by rw [PoolRun.taken, htake], hheld, ?_⟩
    rw [PoolRun.take, htake]
    simp only [PoolRun.after, Option.elim_some, hheld]

/-- The counts are those of the owners and of the driver, `d`; an owner has one reference. -/
structure PoolSetup.Settled (u : PoolSetup F C A) (d : F → Nat) (a : Account F C A) : Prop where
  run : u.Runs a.2
  held : ∀ fp, a.2.held fp = a.1.count fp + d fp
  nodup : a.1.Nodup

namespace PoolSetup.Settled

theorem held_le (h : u.Settled d a) (hd : ∀ fp, d fp ≤ 1) (fp : F) : a.2.held fp ≤ 2 := by
  rw [h.held]
  exact Nat.add_le_add (Multiset.nodup_iff_count_le_one.mp h.nodup fp) (hd fp)

theorem step (h : u.Settled d a) (hd : ∀ fp, d fp ≤ 1) (hstep : TradeStep a b) : u.Settled d b := by
  cases hstep with
  | take m r =>
    have hheld := h.held
    have hnodup : m.Nodup := h.nodup
    rcases h.run.taken with ⟨hnone, hsame⟩ | ⟨fp, hsome, hzero, hupd⟩
    · refine ⟨h.run.tail ⟨.take r, fun fp => ?_⟩, fun fp => ?_, ?_⟩
      · rw [hsame]
        exact (h.held_le hd fp).trans (by decide)
      · change r.take.held fp = _
        rw [hsame, hnone, hheld]
        simp
      · rw [hnone]
        simpa using hnodup
    · have hcount : m.count fp + d fp = 0 := (hheld fp).symm.trans hzero
      have hnew : fp ∉ m := Multiset.count_eq_zero.mp (by omega)
      have hsettled : ∀ fp', r.take.held fp' = (fp ::ₘ m).count fp' + d fp' := by
        intro fp'
        rw [hupd, Multiset.count_cons]
        by_cases heq : fp' = fp
        · subst heq
          rw [Function.update_self, if_pos rfl]
          omega
        · rw [Function.update_of_ne heq, if_neg heq, Nat.add_zero]
          exact hheld fp'
      have hnodup' : (fp ::ₘ m).Nodup := Multiset.nodup_cons.mpr ⟨hnew, hnodup⟩
      refine ⟨h.run.tail ⟨.take r, fun fp' => ?_⟩, fun fp' => ?_, ?_⟩
      · rw [hsettled]
        have hle := Multiset.nodup_iff_count_le_one.mp hnodup' fp'
        have hle' := hd fp'
        omega
      · rw [hsome]
        exact hsettled fp'
      · rw [hsome]
        exact hnodup'
  | release m r fp =>
    have hheld : ∀ fp', r.held fp' = (fp ::ₘ m).count fp' + d fp' := h.held
    have hpos : 0 < r.held fp := by
      rw [hheld, Multiset.count_cons_self]
      omega
    have hsettled : ∀ fp', (r.release fp).held fp' = m.count fp' + d fp' := by
      intro fp'
      rw [PoolRun.held_release]
      by_cases heq : fp' = fp
      · subst heq
        rw [Function.update_self, hheld, Multiset.count_cons_self]
        omega
      · rw [Function.update_of_ne heq, hheld, Multiset.count_cons_of_ne heq]
    have hnodup : m.Nodup := (Multiset.nodup_cons.mp h.nodup).2
    refine ⟨h.run.tail ⟨.release r hpos, fun fp' => ?_⟩, hsettled, hnodup⟩
    rw [hsettled]
    have hle := Multiset.nodup_iff_count_le_one.mp hnodup fp'
    have hle' := hd fp'
    omega

/-- Whatever owners trade, the counts stay those of the owners. -/
theorem trade (h : u.Settled d a) (hd : ∀ fp, d fp ≤ 1) (htrade : Trade a b) : u.Settled d b := by
  induction htrade with
  | refl => exact h
  | tail _ hlast ih => exact ih.step hd hlast

/-- The driver refers to a frame that has an owner. -/
theorem addref (h : u.Settled d a) (hd : ∀ fp, d fp ≤ 1) {fp : F} (hmem : fp ∈ a.1)
    (hfp : d fp = 0) : u.Settled (Function.update d fp 1) (a.1, a.2.addref fp) := by
  have hsettled : ∀ fp', (a.2.addref fp).held fp' = a.1.count fp' + Function.update d fp 1 fp' := by
    intro fp'
    change Function.update a.2.held fp (a.2.held fp + 1) fp' = _
    by_cases heq : fp' = fp
    · subst heq
      rw [Function.update_self, Function.update_self, h.held, hfp]
    · rw [Function.update_of_ne heq, Function.update_of_ne heq, h.held]
  have hpos : 0 < a.2.held fp := by
    rw [h.held, hfp]
    exact Multiset.count_pos.mpr hmem
  refine ⟨h.run.tail ⟨.addref a.2 hpos, fun fp' => ?_⟩, hsettled, h.nodup⟩
  rw [hsettled]
  have hle := Multiset.nodup_iff_count_le_one.mp h.nodup fp'
  by_cases heq : fp' = fp
  · subst heq
    rw [Function.update_self]
    omega
  · rw [Function.update_of_ne heq]
    have hle' := hd fp'
    omega

/-- The driver takes a frame of its own. -/
theorem driverTakes (h : u.Settled d a) (hd : ∀ fp, d fp ≤ 1) {fp : F} (hfp : a.2.taken = some fp) :
    u.Settled (Function.update d fp 1) (a.1, a.2.take) := by
  rcases h.run.taken with ⟨hnone, -⟩ | ⟨fp', hsome, hzero, hupd⟩
  · rw [hnone] at hfp
    cases hfp
  · obtain rfl : fp' = fp := Option.some.inj (hsome.symm.trans hfp)
    have hcount : a.1.count fp' + d fp' = 0 := (h.held fp').symm.trans hzero
    have hsettled : ∀ x, a.2.take.held x = a.1.count x + Function.update d fp' 1 x := by
      intro x
      rw [hupd]
      by_cases heq : x = fp'
      · subst heq
        rw [Function.update_self, Function.update_self]
        omega
      · rw [Function.update_of_ne heq, Function.update_of_ne heq, h.held]
    refine ⟨h.run.tail ⟨.take a.2, fun x => ?_⟩, hsettled, h.nodup⟩
    rw [hupd]
    by_cases heq : x = fp'
    · subst heq
      rw [Function.update_self]
      decide
    · rw [Function.update_of_ne heq]
      exact (h.held_le hd x).trans (by decide)

/-- The driver releases frames. -/
theorem driverReleases (h : u.Settled d a) (hd : ∀ fp, d fp ≤ 1) (q : List F)
    (hq : ∀ fp, d fp = q.count fp + d' fp) : u.Settled d' (a.1, a.2.clearFrameQ q) := by
  induction q generalizing d a with
  | nil =>
    obtain rfl : d = d' := funext fun fp => by simpa using hq fp
    exact h
  | cons fp q ih =>
    have hone : d fp = 1 := by
      have hfp := hq fp
      have hle := hd fp
      rw [List.count_cons_self] at hfp
      omega
    have hsettled : ∀ fp', (a.2.release fp).held fp' =
        a.1.count fp' + Function.update d fp 0 fp' := by
      intro fp'
      rw [PoolRun.held_release]
      by_cases heq : fp' = fp
      · subst heq
        rw [Function.update_self, Function.update_self, h.held, hone]
        omega
      · rw [Function.update_of_ne heq, Function.update_of_ne heq, h.held]
    have hd' : ∀ fp', Function.update d fp 0 fp' ≤ 1 := by
      intro fp'
      by_cases heq : fp' = fp
      · subst heq
        rw [Function.update_self]
        exact Nat.zero_le 1
      · rw [Function.update_of_ne heq]
        exact hd fp'
    have hpos : 0 < a.2.held fp := by
      rw [h.held, hone]
      omega
    refine ih (a := (a.1, a.2.release fp)) ⟨h.run.tail ⟨.release a.2 hpos, fun fp' => ?_⟩,
      hsettled, h.nodup⟩ hd' fun fp' => ?_
    · rw [hsettled]
      have hle := Multiset.nodup_iff_count_le_one.mp h.nodup fp'
      have hle' := hd' fp'
      omega
    · by_cases heq : fp' = fp
      · subst heq
        have hfp := hq fp'
        rw [List.count_cons_self] at hfp
        rw [Function.update_self]
        omega
      · have hfp := hq fp'
        rw [Function.update_of_ne heq, hfp, List.count_cons_of_ne (Ne.symm heq)]

end PoolSetup.Settled

end Settled

/-! ### The station -/

namespace FrameSite

section Accounts

variable {P F C A : Type} [DecidableEq F] [Fintype P]

/-- Every reference outside the transmit pipeline, and the lost frames. -/
def owned (g : FrameSite P F C A) : Multiset F :=
  g.inHands + (∑ p, (g.peer p).owned + g.lost)

def account (g : FrameSite P F C A) : Account F C A := (g.owned, g.pool)

omit [DecidableEq F] [Fintype P] in
theorem coe_inHands (g : FrameSite P F C A) : (g.inHands : Multiset F) =
    g.inFrame.toList + g.receptQ + g.rxFp.toList + g.txHold.hand.toList +
      (g.writing.map Prod.snd : List F) + (g.testing.map Prod.snd : List F) + g.dropping := by
  simp only [inHands, Multiset.coe_add]

omit [Fintype P] in
/-- A frame that a thread keeps with its peer. -/
theorem coe_map_erase [DecidableEq P] {p : P} {fp : F} {held : List (P × F)} (hmem : (p, fp) ∈ held) :
    ((held.map Prod.snd : List F) : Multiset F) =
      {fp} + ((held.erase (p, fp)).map Prod.snd : List F) := by
  have hperm := (List.perm_cons_erase hmem).map Prod.snd
  rw [Multiset.coe_eq_coe.mpr hperm, List.map_cons, ← Multiset.cons_coe, Multiset.singleton_add]

omit [DecidableEq F] [Fintype P] in
theorem coe_map_taken (p : P) (taken : Option F) (held : List (P × F)) :
    (((taken.toList.map (p, ·) ++ held).map Prod.snd : List F) : Multiset F) =
      taken.toList + (held.map Prod.snd : List F) := by
  rw [List.map_append, List.map_map, ← Multiset.coe_add]
  congr 2
  exact List.map_id taken.toList

variable {g g' : FrameSite P F C A} {p : P}

/-- A step outside the mutexes. -/
theorem trade_of_hands (hpeer : g'.peer = g.peer) (hlost : g'.lost = g.lost)
    (h : Trade (g.inHands, g.pool) (g'.inHands, g'.pool)) : Trade g.account g'.account := by
  have hframe := h.frame (∑ p, (g.peer p).owned + g.lost)
  rw [account, account, owned, owned, hpeer, hlost]
  exact hframe

/-- The peers but one. -/
def others [DecidableEq P] (g : FrameSite P F C A) (p : P) : Multiset F := ∑ p' ∈ Finset.univ.erase p, (g.peer p').owned

section Peers

variable [DecidableEq P]

omit [DecidableEq F] in
/-- What the other peers refer to is apart. -/
theorem account_eq {x : Holdings F C A} (hpool : g'.pool = x.pool)
    (hpeer : g'.peer = Function.update g.peer p x.peer) (hlost : g'.lost = x.lost) :
    g'.account = x.account (g'.inHands + g.others p) := by
  have hothers : ∑ p' ∈ Finset.univ.erase p, (Function.update g.peer p x.peer p').owned =
      g.others p :=
    Finset.sum_congr rfl fun p' hp' => by
      rw [Function.update_of_ne (Finset.ne_of_mem_erase hp')]
  have hsum : ∑ p', (Function.update g.peer p x.peer p').owned = x.peer.owned + g.others p := by
    rw [← Finset.add_sum_erase _ _ (Finset.mem_univ p), Function.update_self, hothers]
  rw [account, Holdings.account, owned, Holdings.owned, hpool, hpeer, hlost, hsum]
  congr 1
  abel

/-- A section of a peer. -/
theorem trade_of_section {r : Holdings F C A × Option F} {b c : Multiset F}
    (hpool : g'.pool = r.1.pool) (hpeer : g'.peer = Function.update g.peer p r.1.peer)
    (hlost : g'.lost = r.1.lost) (hbefore : (g.inHands : Multiset F) = b + c)
    (hbehind : (g'.inHands : Multiset F) = r.2.toList + c)
    (h : ∀ k, Trade ((g.holdings p).account (b + k)) (r.1.account (r.2.toList + k))) :
    Trade g.account g'.account := by
  have hg : g.account = (g.holdings p).account (g.inHands + g.others p) :=
    account_eq rfl (Function.update_eq_self p g.peer).symm rfl
  rw [hg, account_eq hpool hpeer hlost, hbefore, hbehind, add_assoc, add_assoc]
  exact h (c + g.others p)

/-- A section that takes no frame over and leaves none. -/
theorem trade_of_put {x : Holdings F C A} (hpool : g'.pool = x.pool)
    (hpeer : g'.peer = Function.update g.peer p x.peer) (hlost : g'.lost = x.lost)
    (hhands : g'.inHands = g.inHands)
    (h : ∀ k, Trade ((g.holdings p).account k) (x.account k)) : Trade g.account g'.account := by
  refine trade_of_section (r := (x, none)) (b := 0) (c := g.inHands) hpool hpeer hlost
    (zero_add _).symm ?_ fun k => ?_
  · rw [hhands]
    exact (zero_add _).symm
  · rw [Option.toList_none, Multiset.coe_nil, zero_add]
    exact h k

end Peers

/-- The counts are those of the owners, and an I frame on its way to the driver is in
`i_retrans_q`. -/
structure Balanced (u : PoolSetup F C A) (g : FrameSite P F C A) : Prop where
  settled : u.Settled g.tx.pipe.refs g.account
  accounted : g.tx.Accounted
  queued : ∀ p fp, g.txHold = .sending p fp false → fp ∈ (g.peer p).iRetransQ

namespace Balanced

variable {u : PoolSetup F C A} {l : Link} {v : Frame} {fp : F}

/-- A step that trades and leaves the transmit pipeline alone. -/
theorem of_trade (h : g.Balanced u) (htx : g'.tx = g.tx) (htrade : Trade g.account g'.account)
    (hqueued : ∀ p fp, g'.txHold = .sending p fp false → fp ∈ (g'.peer p).iRetransQ) :
    g'.Balanced u := by
  refine ⟨?_, ?_, hqueued⟩
  · rw [htx]
    exact h.settled.trade h.accounted.refs_le htrade
  · rw [htx]
    exact h.accounted

omit [DecidableEq F] [Fintype P] in
/-- Outside `hdlcSendFrame` there is nothing to be in the queue. -/
theorem queued_of_hold (hhold : ∀ p fp, g'.txHold ≠ .sending p fp false) :
    ∀ p fp, g'.txHold = .sending p fp false → fp ∈ (g'.peer p).iRetransQ :=
  fun p fp h => absurd h (hhold p fp)

theorem of_fresh (hg : g.Fresh u.pool) : g.Balanced u := by
  have hrefs : ∀ fp, g.tx.pipe.refs fp = 0 := hg.tx.pipe.refs
  have hempty : g.owned = 0 := by
    have hpeers : ∑ p, (g.peer p).owned = 0 :=
      Finset.sum_eq_zero fun p _ => by rw [hg.peer, PeerFrames.owned_empty]
    rw [owned, hpeers, coe_inHands, hg.inFrame, hg.receptQ, hg.rxFp, hg.txHold, hg.writing,
      hg.testing, hg.dropping, hg.lost]
    rfl
  refine ⟨⟨?_, fun fp => ?_, ?_⟩, TxRun.accounted_of_fresh hg.tx, ?_⟩
  · rw [account, hg.pool]
    exact .start rfl
  · rw [account, hempty, hrefs, hg.pool]
    rfl
  · rw [account, hempty]
    exact Multiset.nodup_zero
  · exact queued_of_hold fun p fp => by rw [hg.txHold]; simp

/-- A section of another thread does not touch the peer of the TX worker. -/
theorem queued_of_unlocked [DecidableEq P] (h : g.Balanced u) (hfree : g.unlocked p = true)
    {places : PeerFrames F} (hhold : g'.txHold = g.txHold)
    (hpeer : g'.peer = Function.update g.peer p places) :
    ∀ p' fp, g'.txHold = .sending p' fp false → fp ∈ (g'.peer p').iRetransQ := by
  intro p' fp hsending
  rw [hhold] at hsending
  have hne : p' ≠ p := by
    rintro rfl
    simp [unlocked, hsending, TxHold.mutex] at hfree
  rw [hpeer, Function.update_of_ne hne]
  exact h.queued p' fp hsending

/-! ### Steps of the driver -/

theorem onRx (h : g.Balanced u) (give : RxGive) (asks : Bool) :
    (if asks then (g.giveInFrame give).newframe else g.giveInFrame give).Balanced u := by
  have hgive : (g.giveInFrame give).Balanced u := by
    cases give with
    | keep => exact h
    | release =>
      refine h.of_trade rfl (trade_of_hands rfl rfl ?_) h.queued
      refine (trade_clearFrameQ _ g.pool g.inFrame.toList).congr ?_ rfl
      simp only [coe_inHands, giveInFrame, Option.toList_none, Multiset.coe_nil]
      abel
    | enqueue =>
      refine h.of_trade rfl (trade_of_hands rfl rfl ?_) h.queued
      refine (Trade.refl (_, g.pool)).congr rfl ?_
      simp only [coe_inHands, giveInFrame, Option.toList_none, Multiset.coe_nil, ← Multiset.coe_add]
      abel
  split
  · rw [newframe]
    split
    · exact hgive
    next hnone =>
      refine hgive.of_trade rfl (trade_of_hands rfl rfl ?_) hgive.queued
      refine (Trade.take _ _).congr rfl ?_
      simp only [coe_inHands, hnone, Option.toList_none, Multiset.coe_nil]
      abel
  · exact hgive

/-- The port, or the second half of `drv_send_frame`. -/
theorem driver (h : g.Balanced u) {a : TxStimulus F} (ha : a.ofDriver = true) {tx : TxRun F}
    (htx : g.tx.act a = some tx) :
    ({ g with
      pool := g.pool.clearFrameQ (releasedTo g.tx.pipe tx.pipe), tx := tx } :
        FrameSite P F C A).Balanced u :=
  { settled := h.settled.driverReleases h.accounted.refs_le _ (h.accounted.refs_released ha htx)
    accounted := TxRun.accounted_step h.accounted htx
    queued := h.queued }

/-- Whoever sends a frame, somebody else refers to it. -/
theorem mem_owned_of_sending (h : g.Balanced u) {own : Bool} (hhold : g.txHold = .sending p fp own) :
    fp ∈ g.owned := by
  rw [owned]
  cases own with
  | true =>
    refine Multiset.mem_add.mpr (.inl ?_)
    simp [coe_inHands, hhold, TxHold.hand]
  | false =>
    refine Multiset.mem_add.mpr (.inr (Multiset.mem_add.mpr (.inl ?_)))
    refine Multiset.mem_sum.mpr ⟨p, Finset.mem_univ p, ?_⟩
    simp [PeerFrames.owned, h.queued p fp hhold]

/-- `drv_send_frame` up to the system lock. -/
theorem send (h : g.Balanced u) {own prepared : Bool} (hhold : g.txHold = .sending p fp own)
    {tx : TxRun F} (htx : g.tx.act (.commit fp prepared g.pool.taken) = some tx) :
    u.Settled tx.pipe.refs (g.owned, sendPool g.tx.pipe fp prepared g.pool) := by
  have hd := h.accounted.refs_le
  simp only [TxRun.act] at htx
  split at htx
  next hnew =>
    cases htx
    simp only [TxPipe.drvSendFrameCommit, sendPool]
    split
    · exact h.settled
    next hgate =>
      split
      · exact h.settled
      split
      · cases htaken : g.pool.taken with
        | none =>
          have htake := h.settled.trade hd (Trade.take g.owned g.pool)
          rw [htaken] at htake
          simpa using htake
        | some nfp =>
          dsimp only
          split
          · have htake := h.settled.trade hd (Trade.take g.owned g.pool)
            rw [htaken] at htake
            exact htake.trade hd (Trade.release g.owned g.pool.take nfp)
          · have hzero : g.tx.pipe.refs nfp = 0 := by simpa [htaken] using hnew
            rw [hzero]
            exact h.settled.driverTakes hd htaken
      · have hzero : g.tx.pipe.refs fp = 0 := by
          obtain ⟨past, failures, hb⟩ := h.accounted
          have hgone := fun hmem => hgate ((hb.txGate fp).mpr hmem)
          rw [hb.refs, List.append_nil]
          refine List.count_eq_zero.mpr fun hmem => hgone ?_
          rw [List.append_assoc]
          exact List.mem_append_right _ hmem
        rw [hzero]
        exact h.settled.addref hd (h.mem_owned_of_sending hhold) hzero
  · cases htx

/-! ### Steps of the threads -/

theorem drop (h : g.Balanced u) (hmem : fp ∈ g.dropping) :
    ({ g with pool := g.pool.release fp, dropping := g.dropping.erase fp } :
      FrameSite P F C A).Balanced u := by
  refine h.of_trade rfl (trade_of_hands rfl rfl ?_) h.queued
  refine (Trade.release _ g.pool fp).congr ?_ rfl
  have hdropping : (g.dropping : Multiset F) = fp ::ₘ (g.dropping.erase fp : List F) := by
    rw [Multiset.cons_coe]
    exact Multiset.coe_eq_coe.mpr (List.perm_cons_erase hmem)
  simp only [coe_inHands, hdropping, ← Multiset.singleton_add]
  abel

theorem stamp (h : g.Balanced u) (hhold : g.txHold = .dequeued p fp) {tx : TxRun F}
    (htx : g.tx.act (.stamp fp) = some tx) :
    ({ g with tx := tx, txHold := .stamping p fp } : FrameSite P F C A).Balanced u := by
  have hrefs : tx.pipe.refs = g.tx.pipe.refs := by
    simp only [TxRun.act] at htx
    split at htx
    · cases htx
    · cases htx
      rfl
  have howned : ({ g with tx := tx, txHold := .stamping p fp } : FrameSite P F C A).owned =
      g.owned := by
    simp only [owned, coe_inHands, hhold, TxHold.hand]
  refine ⟨?_, TxRun.accounted_step h.accounted htx, queued_of_hold fun p' fp' => by simp⟩
  rw [account, howned, hrefs]
  exact h.settled

theorem sent (h : g.Balanced u) {own prepared : Bool} (hhold : g.txHold = .sending p fp own)
    {tx : TxRun F} (htx : g.tx.act (.commit fp prepared g.pool.taken) = some tx) :
    ({ g with
      pool := sendPool g.tx.pipe fp prepared g.pool
      tx := tx
      txHold := if own then .sent p fp else .inside p } : FrameSite P F C A).Balanced u := by
  have hhand : (if own then .sent p fp else .inside p : TxHold P F).hand = g.txHold.hand := by
    cases own <;> simp [hhold, TxHold.hand]
  have howned : ({ g with
      pool := sendPool g.tx.pipe fp prepared g.pool
      tx := tx
      txHold := if own then .sent p fp else .inside p } : FrameSite P F C A).owned = g.owned := by
    simp only [owned, coe_inHands, hhand]
  refine ⟨?_, TxRun.accounted_step h.accounted htx, queued_of_hold fun p' fp' => ?_⟩
  · rw [account, howned]
    exact h.send hhold htx
  · cases own <;> simp

section Threads

variable [DecidableEq P]

/-- A section of a thread that leaves a frame to release, if any. -/
theorem peerSection (h : g.Balanced u) (hfree : g.unlocked p = true)
    {r : Holdings F C A × Option F} {b c : Multiset F}
    (hpool : g'.pool = r.1.pool) (hpeer : g'.peer = Function.update g.peer p r.1.peer)
    (hlost : g'.lost = r.1.lost) (htx : g'.tx = g.tx) (hhold : g'.txHold = g.txHold)
    (hbefore : (g.inHands : Multiset F) = b + c)
    (hbehind : (g'.inHands : Multiset F) = r.2.toList + c)
    (htrade : ∀ k, Trade ((g.holdings p).account (b + k)) (r.1.account (r.2.toList + k))) :
    g'.Balanced u :=
  h.of_trade htx (trade_of_section hpool hpeer hlost hbefore hbehind htrade)
    (h.queued_of_unlocked hfree hhold hpeer)

/-- A section of the TX worker that gives it a frame, or does not. -/
theorem txSection (h : g.Balanced u) (hhold : g.txHold = .inside p)
    {r : Holdings F C A × Option F}
    (htrade : ∀ k, Trade ((g.holdings p).account k) (r.1.account (r.2.toList + k))) :
    (g.txSection p r).Balanced u := by
  have hhand : (g.txSection p r).txHold.hand = r.2 := by
    cases hr : r.2 with
    | none => simp [FrameSite.txSection, hr, TxHold.withFrame, TxHold.hand]
    | some fp => simp [FrameSite.txSection, hr, TxHold.withFrame, TxHold.hand]
  refine h.of_trade rfl (trade_of_section (p := p) (r := r) (b := 0) (c := g.inHands)
    rfl rfl rfl (zero_add _).symm ?_ fun k => ?_) (queued_of_hold fun p' fp' => ?_)
  · rw [coe_inHands, coe_inHands, hhand, hhold]
    simp only [FrameSite.txSection, put, TxHold.hand, Option.toList_none, Multiset.coe_nil]
    abel
  · rw [zero_add]
    exact htrade k
  · cases hr : r.2 with
    | none => simp [FrameSite.txSection, hr, TxHold.withFrame]
    | some fp => simp [FrameSite.txSection, hr, TxHold.withFrame]

/-- A section of the TX worker that leaves its hands as they are. -/
theorem txPut (h : g.Balanced u) (hhold : g.txHold = .inside p) {x : Holdings F C A}
    (htrade : ∀ k, Trade ((g.holdings p).account k) (x.account k)) : (g.put p x).Balanced u :=
  h.of_trade rfl (trade_of_put rfl rfl rfl rfl htrade)
    (queued_of_hold fun p' fp' => by
      change g.txHold ≠ _
      rw [hhold]
      simp)

theorem rxEntry (h : g.Balanced u) (hfp : g.rxFp = some fp) (hfree : g.unlocked p = true)
    (l : Link) (v : Frame) :
    ({ g.peerSection p ((g.holdings p).rxEntry l v fp) with rxFp := none } :
      FrameSite P F C A).Balanced u := by
  let common : Multiset F := ({ g with rxFp := none } : FrameSite P F C A).inHands
  refine h.peerSection (p := p) (r := (g.holdings p).rxEntry l v fp) (b := {fp})
    (c := common) hfree rfl rfl rfl rfl rfl ?_ ?_
    fun k => (g.holdings p).rxEntry_trade k l v fp
  · simp only [common, coe_inHands, hfp, Option.toList_some, Option.toList_none,
      Multiset.coe_singleton, Multiset.coe_nil]
    abel
  · simp only [common, coe_inHands, FrameSite.peerSection, put, Option.toList_none,
      Multiset.coe_nil, ← Multiset.coe_add]
    abel

theorem writeTake (h : g.Balanced u) (hfree : g.unlocked p = true) :
    ({ g.put p (g.holdings p).hdlcTakeFrame.1 with
      writing := (g.holdings p).hdlcTakeFrame.2.toList.map (p, ·) ++ g.writing } :
      FrameSite P F C A).Balanced u := by
  refine h.peerSection (p := p) (r := (g.holdings p).hdlcTakeFrame) (b := 0)
    (c := g.inHands) hfree rfl rfl rfl rfl rfl (zero_add _).symm ?_ fun k => ?_
  · simp only [coe_inHands, put, coe_map_taken]
    abel
  · rw [zero_add]
    exact (g.holdings p).hdlcTakeFrame_trade k

theorem writeInsert (h : g.Balanced u) (hmem : (p, fp) ∈ g.writing) (hfree : g.unlocked p = true)
    (l : Link) :
    ({ g.peerSection p ((g.holdings p).writeInsert l fp) with
      writing := g.writing.erase (p, fp) } : FrameSite P F C A).Balanced u := by
  let common : Multiset F :=
    ({ g with writing := g.writing.erase (p, fp) } : FrameSite P F C A).inHands
  refine h.peerSection (p := p) (r := (g.holdings p).writeInsert l fp) (b := {fp})
    (c := common) hfree rfl rfl rfl rfl rfl ?_ ?_
    fun k => (g.holdings p).writeInsert_trade k l fp
  · simp only [common, coe_inHands, coe_map_erase hmem]
    abel
  · simp only [common, coe_inHands, FrameSite.peerSection, put, ← Multiset.coe_add]
    abel

theorem testStart (h : g.Balanced u) (hmem : (p, fp) ∈ g.testing) (hfree : g.unlocked p = true)
    (l : Link) :
    ({ g.peerSection p ((g.holdings p).peerTestStart l fp) with
      testing := g.testing.erase (p, fp) } : FrameSite P F C A).Balanced u := by
  let common : Multiset F :=
    ({ g with testing := g.testing.erase (p, fp) } : FrameSite P F C A).inHands
  refine h.peerSection (p := p) (r := (g.holdings p).peerTestStart l fp) (b := {fp})
    (c := common) hfree rfl rfl rfl rfl rfl ?_ ?_
    fun k => (g.holdings p).peerTestStart_trade k l fp
  · simp only [common, coe_inHands, coe_map_erase hmem]
    abel
  · simp only [common, coe_inHands, FrameSite.peerSection, put, ← Multiset.coe_add]
    abel

/-- A section that takes nothing over and may leave a frame to release. -/
theorem leaving (h : g.Balanced u) (hfree : g.unlocked p = true) {r : Holdings F C A × Option F}
    (htrade : ∀ k, Trade ((g.holdings p).account k) (r.1.account (r.2.toList + k))) :
    (g.peerSection p r).Balanced u := by
  refine h.peerSection (p := p) (r := r) (b := 0) (c := g.inHands) hfree rfl rfl rfl rfl
    rfl (zero_add _).symm ?_ fun k => ?_
  · simp only [coe_inHands, FrameSite.peerSection, put, ← Multiset.coe_add]
    abel
  · rw [zero_add]
    exact htrade k

theorem dequeue (h : g.Balanced u) (hhold : g.txHold = .inside p) {x : Holdings F C A}
    (hr : (g.holdings p).dequeueIFrame = (x, some fp)) :
    ({ g.put p x with txHold := .dequeued p fp } : FrameSite P F C A).Balanced u := by
  refine h.of_trade rfl (trade_of_section (p := p) (r := (x, some fp)) (b := 0)
    (c := g.inHands) rfl rfl rfl (zero_add _).symm ?_ fun k => ?_)
    (queued_of_hold fun p' fp' => by simp)
  · simp only [coe_inHands, hhold, put, TxHold.hand, Option.toList_none, Option.toList_some,
      Multiset.coe_nil]
    abel
  · have htrade := (g.holdings p).dequeueIFrame_trade k
    rw [hr] at htrade
    rw [zero_add]
    exact htrade

theorem enterRetransQ (h : g.Balanced u) (hhold : g.txHold = .stamping p fp) {tx : TxRun F}
    (htx : g.tx.act (.stamped fp) = some tx) :
    ({ g.put p ((g.holdings p).enterRetransQ fp) with
      tx := tx, txHold := .sending p fp false } : FrameSite P F C A).Balanced u := by
  have hrefs : tx.pipe.refs = g.tx.pipe.refs := by
    simp only [TxRun.act] at htx
    split at htx
    · cases htx
      rfl
    · cases htx
  let common : Multiset F := ({ g with txHold := .inside p } : FrameSite P F C A).inHands
  have htrade : Trade g.account ({ g.put p ((g.holdings p).enterRetransQ fp) with
      tx := tx, txHold := .sending p fp false } : FrameSite P F C A).account := by
    refine trade_of_section (p := p) (r := ((g.holdings p).enterRetransQ fp, none))
      (b := {fp}) (c := common) rfl rfl rfl ?_ ?_ fun k => ?_
    · simp only [common, coe_inHands, hhold, TxHold.hand, Option.toList_none, Option.toList_some,
        Multiset.coe_singleton, Multiset.coe_nil]
      abel
    · simp only [common, coe_inHands, put, TxHold.hand, Option.toList_none, Multiset.coe_nil]
      rw [if_neg Bool.false_ne_true, Option.toList_none, Multiset.coe_nil]
      abel
    · rw [Option.toList_none, Multiset.coe_nil, zero_add]
      exact (g.holdings p).enterRetransQ_trade k fp
  refine ⟨?_, TxRun.accounted_step h.accounted htx, ?_⟩
  · rw [hrefs]
    exact h.settled.trade h.accounted.refs_le htrade
  · rintro p' fp' ⟨⟩
    simp [put, Holdings.enterRetransQ]

theorem txWorker (h : g.Balanced u) {a : TxWorkerAct P} (hact : g.txWorker a = some g') :
    g'.Balanced u := by
  simp only [FrameSite.txWorker] at hact
  split at hact
  next p hhold =>
    cases hact
    refine h.of_trade rfl (trade_of_hands rfl rfl ?_) (queued_of_hold fun p' fp' => by simp)
    simp only [inHands, hhold, TxHold.hand]
    exact .refl _
  next p hhold =>
    cases hact
    refine h.of_trade rfl (trade_of_hands rfl rfl ?_) (queued_of_hold fun p' fp' => by simp)
    simp only [inHands, hhold, TxHold.hand]
    exact .refl _
  next p l hhold =>
    cases hact
    exact h.txPut hhold fun k => (g.holdings p).handleTimeoutRetry_trade k l
  next p hhold =>
    cases hact
    exact h.txSection hhold fun k => (g.holdings p).uCommandFrame_trade k
  next p l hhold =>
    cases hact
    exact h.txSection hhold fun k => (g.holdings p).uResponseFrame_trade k l
  next p l hhold =>
    cases hact
    exact h.txPut hhold fun k => (g.holdings p).uResponseSent_trade k l
  next p hhold =>
    cases hact
    exact h.txSection hhold fun k => (g.holdings p).hdlcTakeFrame_trade k
  next p hhold =>
    split at hact
    next x fp hr =>
      cases hact
      exact h.dequeue hhold hr
    · cases hact
  next p fp hhold =>
    obtain ⟨tx, htx, rfl⟩ := Option.map_eq_some_iff.mp hact
    exact h.stamp hhold htx
  next p fp hhold =>
    obtain ⟨tx, htx, rfl⟩ := Option.map_eq_some_iff.mp hact
    exact h.enterRetransQ hhold htx
  next p fp own prepared hhold =>
    obtain ⟨tx, htx, rfl⟩ := Option.map_eq_some_iff.mp hact
    exact h.sent hhold htx
  next p fp hhold =>
    cases hact
    refine h.of_trade rfl (trade_of_hands rfl rfl ?_) (queued_of_hold fun p' fp' => by simp)
    refine (Trade.release _ g.pool fp).congr ?_ rfl
    simp only [coe_inHands, hhold, TxHold.hand, Option.toList_none, Option.toList_some,
      Multiset.coe_nil, Multiset.coe_singleton, ← Multiset.singleton_add]
    abel
  · cases hact

theorem call (h : g.Balanced u) {a : CallAct P F} (hact : g.call a = some g') : g'.Balanced u := by
  cases a with
  | testTake p =>
    cases hact
    refine h.of_trade rfl (trade_of_hands rfl rfl ?_) h.queued
    refine (Trade.take _ g.pool).congr rfl ?_
    simp only [coe_inHands, coe_map_taken]
    abel
  | writeTake p =>
    obtain ⟨hfree, hact⟩ := Option.ite_none_right_eq_some.mp hact
    cases hact
    exact h.writeTake hfree
  | writeInsert p fp l =>
    obtain ⟨hw, hact⟩ := Option.ite_none_right_eq_some.mp hact
    cases hact
    exact h.writeInsert hw.1 hw.2 l
  | read p consumed =>
    obtain ⟨hfree, hact⟩ := Option.ite_none_right_eq_some.mp hact
    cases hact
    exact h.of_trade rfl
      (trade_of_put rfl rfl rfl rfl fun k => (g.holdings p).readFrame_trade k consumed)
      (h.queued_of_unlocked hfree rfl rfl)
  | testStart p fp l =>
    obtain ⟨ht, hact⟩ := Option.ite_none_right_eq_some.mp hact
    cases hact
    exact h.testStart ht.1 ht.2 l
  | testCompleted p l =>
    obtain ⟨hfree, hact⟩ := Option.ite_none_right_eq_some.mp hact
    cases hact
    exact h.leaving hfree fun k => (g.holdings p).sTakeCompletedTestFrame_trade k l
  | testExpire p l =>
    obtain ⟨hfree, hact⟩ := Option.ite_none_right_eq_some.mp hact
    cases hact
    exact h.leaving hfree fun k => (g.holdings p).peerTestExpire_trade k l

theorem step (h : g.Balanced u) {a : FrameAct P F} (hact : g.act a = some g') : g'.Balanced u := by
  cases a with
  | onRx give asks =>
    cases hact
    exact h.onRx give asks
  | driver a =>
    obtain ⟨ha, hact⟩ := Option.ite_none_right_eq_some.mp hact
    obtain ⟨tx, htx, rfl⟩ := Option.map_eq_some_iff.mp hact
    exact h.driver ha htx
  | recvFrame passes =>
    simp only [act] at hact
    split at hact
    next fp q hfp hq =>
      cases hact
      split
      · refine h.of_trade rfl (trade_of_hands rfl rfl ?_) h.queued
        refine (Trade.refl (_, g.pool)).congr rfl ?_
        simp only [coe_inHands, hfp, hq, Option.toList_none, Option.toList_some, Multiset.coe_nil,
          ← Multiset.cons_coe, ← Multiset.singleton_add]
        abel
      · refine h.of_trade rfl (trade_of_hands rfl rfl ?_) h.queued
        refine (Trade.refl (_, g.pool)).congr rfl ?_
        simp only [coe_inHands, hfp, hq, Option.toList_none, Multiset.coe_nil,
          ← Multiset.cons_coe, ← Multiset.singleton_add]
        abel
    · cases hact
  | rxEntry p l v =>
    simp only [act] at hact
    split at hact
    next fp hfp =>
      obtain ⟨hfree, hact⟩ := Option.ite_none_right_eq_some.mp hact
      cases hact
      exact h.rxEntry hfp hfree l v
    · cases hact
  | rxDiscard =>
    obtain ⟨fp, hfp, rfl⟩ := Option.map_eq_some_iff.mp hact
    refine h.of_trade rfl (trade_of_hands rfl rfl ?_) h.queued
    refine (Trade.refl (_, g.pool)).congr rfl ?_
    simp only [coe_inHands, hfp, Option.toList_none, Option.toList_some, Multiset.coe_nil,
      ← Multiset.cons_coe, ← Multiset.singleton_add]
    abel
  | drop fp =>
    obtain ⟨hmem, hact⟩ := Option.ite_none_right_eq_some.mp hact
    cases hact
    exact h.drop hmem
  | tx a => exact h.txWorker hact
  | call a => exact h.call hact

end Threads

end Balanced

section Main

variable [DecidableEq P] {u : PoolSetup F C A}

omit [Fintype P] in
theorem txWorker_lost {a : TxWorkerAct P} (hact : g.txWorker a = some g') : g'.lost = g.lost := by
  simp only [txWorker] at hact
  split at hact
  next p _ =>
    cases hact
    rfl
  next p _ =>
    cases hact
    rfl
  next p l _ =>
    cases hact
    exact ((g.holdings p).lost_txSections l).1
  next p _ =>
    cases hact
    exact Holdings.lost_uCommandFrame _
  next p l _ =>
    cases hact
    exact ((g.holdings p).lost_txSections l).2.1
  next p l _ =>
    cases hact
    exact ((g.holdings p).lost_txSections l).2.2
  next p _ =>
    cases hact
    rfl
  next p _ =>
    split at hact
    next x fp hr =>
      cases hact
      exact congrArg (fun r => r.1.lost) hr.symm
    · cases hact
  next p fp _ =>
    obtain ⟨tx, -, rfl⟩ := Option.map_eq_some_iff.mp hact
    rfl
  next p fp _ =>
    obtain ⟨tx, -, rfl⟩ := Option.map_eq_some_iff.mp hact
    rfl
  next p fp own prepared _ =>
    obtain ⟨tx, -, rfl⟩ := Option.map_eq_some_iff.mp hact
    rfl
  next p fp _ =>
    cases hact
    rfl
  · cases hact

omit [Fintype P] in
theorem call_lost {a : CallAct P F} (hact : g.call a = some g') : g'.lost = g.lost := by
  cases a with
  | testTake p =>
    cases hact
    rfl
  | writeTake p =>
    obtain ⟨-, hact⟩ := Option.ite_none_right_eq_some.mp hact
    cases hact
    rfl
  | writeInsert p fp l =>
    obtain ⟨-, hact⟩ := Option.ite_none_right_eq_some.mp hact
    cases hact
    exact ((g.holdings p).lost_callSections l fp).1
  | read p consumed =>
    obtain ⟨-, hact⟩ := Option.ite_none_right_eq_some.mp hact
    cases hact
    exact (g.holdings p).lost_readFrame consumed
  | testStart p fp l =>
    obtain ⟨-, hact⟩ := Option.ite_none_right_eq_some.mp hact
    cases hact
    exact ((g.holdings p).lost_callSections l fp).2
  | testCompleted p l =>
    obtain ⟨-, hact⟩ := Option.ite_none_right_eq_some.mp hact
    cases hact
    exact ((g.holdings p).lost_testSections l).1
  | testExpire p l =>
    obtain ⟨-, hact⟩ := Option.ite_none_right_eq_some.mp hact
    cases hact
    exact ((g.holdings p).lost_testSections l).2

omit [Fintype P] in
/-- Only a TEST command that is parked over another one loses a frame. -/
theorem act_lost {a : FrameAct P F} (hact : g.act a = some g') :
    g'.lost = g.displaced a ++ g.lost := by
  cases a with
  | onRx give asks =>
    cases hact
    have hgive : (g.giveInFrame give).lost = g.lost := by cases give <;> rfl
    split
    · rw [newframe]
      split <;> exact hgive
    · exact hgive
  | driver a =>
    obtain ⟨-, hact⟩ := Option.ite_none_right_eq_some.mp hact
    obtain ⟨tx, -, rfl⟩ := Option.map_eq_some_iff.mp hact
    rfl
  | recvFrame passes =>
    simp only [act] at hact
    split at hact
    · cases hact
      split <;> rfl
    · cases hact
  | rxEntry p l v =>
    simp only [act] at hact
    split at hact
    · obtain ⟨-, hact⟩ := Option.ite_none_right_eq_some.mp hact
      cases hact
      exact (g.holdings p).lost_rxEntry l v _
    · cases hact
  | rxDiscard =>
    obtain ⟨fp, -, rfl⟩ := Option.map_eq_some_iff.mp hact
    rfl
  | drop fp =>
    obtain ⟨-, hact⟩ := Option.ite_none_right_eq_some.mp hact
    cases hact
    rfl
  | tx a => exact txWorker_lost hact
  | call a => exact call_lost hact

/-- The references of every frame. -/
structure Owned (u : PoolSetup F C A) (g : FrameSite P F C A) : Prop where
  /-- A frame has as many references as owners; a lost one keeps the reference of its last place. -/
  refs : ∀ fp, 0 < g.owners fp + g.lost.count fp →
    fp ∈ u.slots ∧ (g.pool.pool.frames fp).refs.toNat = g.owners fp + g.lost.count fp
  /-- The free list holds every slot that nobody refers to, once. -/
  free : ∃ free, Linked g.pool.pool.link g.pool.pool.freeList free ∧ free.Nodup ∧
    ∀ fp, fp ∈ free ↔ fp ∈ u.slots ∧ g.owners fp = 0 ∧ fp ∉ g.lost
  /-- Every frame that was released had a reference of its releaser. -/
  run : u.Runs g.pool

/-- In every run of all the threads, the driver and the port: the count of every frame is the number
of its owners, except that a TEST command which is parked over another one loses that frame. -/
theorem refs_eq_owners (h : Reachable (Fresh u.pool) Moves g) :
    g.Owned u ∧ ∀ a g', g.act a = some g' → g'.lost = g.displaced a ++ g.lost := by
  have hb : g.Balanced u :=
    h.invariant (Balanced u) (fun _ => Balanced.of_fresh) fun _ _ hg ⟨_, hact⟩ => hg.step hact
  have hheld : ∀ fp, g.pool.held fp = g.owners fp + g.lost.count fp := by
    intro fp
    have hsettled : g.pool.held fp = g.owned.count fp + g.tx.pipe.refs fp := hb.settled.held fp
    rw [hsettled, hb.accounted.refs_eq, owned, owners, Multiset.count_add, Multiset.count_add,
      Multiset.count_sum', Multiset.coe_count, Multiset.coe_count]
    omega
  obtain ⟨free, hdivided⟩ := hb.settled.run.divided
  refine ⟨⟨fun fp hfp => ?_, ⟨free, hdivided.linked, hdivided.nodup, fun fp => ?_⟩,
    hb.settled.run⟩, fun a g' => act_lost⟩
  · rw [← hheld] at hfp ⊢
    exact ⟨hdivided.held_mem fp hfp, hdivided.refs fp hfp⟩
  · rw [hdivided.mem_free, show g.account.2.held fp = _ from hheld fp, Nat.add_eq_zero_iff,
      List.count_eq_zero]

end Main

end Accounts

/-- Five frames in a pool that was just set up. -/
def fiveFrames : PoolSetup (Fin 5) Unit Unit where
  frames := fun _ => blankFrame _ 0
  slots := List.finRange 5
  pool := plainPool 5 0
  initial := .init 16
  nodup := List.nodup_finRange 5
  length_lt := by decide
  lt := by decide +kernel

/-- A station with one peer, before anything happened. -/
def quietSite : FrameSite Unit (Fin 5) Unit Unit where
  pool := .start (plainPool 5 0)
  peer := fun _ => {}
  lost := []
  tx := .idle false
  inFrame := none
  receptQ := []
  rxFp := none
  txHold := .outside
  writing := []
  testing := []
  dropping := []

theorem fresh_quietSite : quietSite.Fresh fiveFrames.pool where
  pool := rfl
  peer := fun _ => rfl
  lost := rfl
  tx := TxRun.fresh_idle false
  inFrame := rfl
  receptQ := rfl
  rxFp := rfl
  txHold := rfl
  writing := rfl
  testing := rfl
  dropping := rfl

/-- A link whose peer is connected. -/
def openLink : Link where
  s := initialStation .nrm {} (.mod8 0 Framing.zero_le_two) 0 false 0 0 1
  p := { addr := 2, ks := 7, mifls := 64, pollRetryMax := 3, ssState := { stConn := true } }

/-- A frame is written and sent: it is in `i_retrans_q` and with the port, and has two references. -/
theorem refs_eq_owners_sent : ∃ g : FrameSite Unit (Fin 5) Unit Unit,
    g.owners 4 = 2 ∧ g.Owned fiveFrames := by
  have hstart : Reachable (Fresh fiveFrames.pool) Moves quietSite := .start fresh_quietSite
  obtain ⟨g, hg, hp⟩ := hstart.exists_of_run act (fun _ a _ ha => ⟨a, ha⟩)
    [.call (.writeTake ()), .call (.writeInsert () 4 openLink), .tx (.lock ()), .tx .dequeue,
      .tx .stamp, .tx .enterRetransQ, .tx (.send true), .driver (.queue 4 ⟨true, true⟩ ⟨false, true⟩)]
    (fun g => g.owners 4 = 2) (by decide +kernel)
  exact ⟨g, of_decide_eq_true hp, (refs_eq_owners hg).1⟩

end FrameSite

end IoHdlc
