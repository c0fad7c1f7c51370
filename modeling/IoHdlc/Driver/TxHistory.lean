import IoHdlc.Driver.TxPipeline

/-!
What becomes of the frames that `drv_send_frame` commits.

`Books` compares the driver with an account of the frames sent, in their order: those that have
left the pipeline, and how often the port refused the one at its head. Every section keeps the
books; the frames in `owed` have left the pipeline and still have their reference.
-/

namespace IoHdlc

/-- What became of one frame sent. -/
structure TxEntry (F : Type) where
  fp : F
  /-- How often the port refused it. -/
  failures : Nat
  accepted : Bool

/-- The calls of `tx_submit_frame` for the frame. -/
def TxEntry.attempts {F : Type} (e : TxEntry F) : List (F × Bool) :=
  List.replicate e.failures (e.fp, false) ++ if e.accepted then [(e.fp, true)] else []

namespace TxPipe

variable {F : Type}

/-- The frames that nobody submitted so far. -/
def untried (q : List F) : List (TxEntry F) := q.map (⟨·, 0, false⟩)

/-- The entries of the pipeline; only its head was submitted. -/
def entries (d : TxPipe F) (failures : Nat) : List (TxEntry F) :=
  match d.inflightFp, d.rawQ with
  | some fp, q => ⟨fp, failures, true⟩ :: untried q
  | none, [] => []
  | none, fp :: q => ⟨fp, failures, false⟩ :: untried q

@[simp] theorem map_fp_untried (q : List F) : (untried q).map TxEntry.fp = q := by
  simp [untried, Function.comp_def]

@[simp] theorem flatMap_attempts_untried (q : List F) :
    (untried q).flatMap TxEntry.attempts = [] := by
  simp [untried, List.flatMap_map, TxEntry.attempts]

theorem map_fp_entries (d : TxPipe F) (failures : Nat) :
    (d.entries failures).map TxEntry.fp = d.pipeline := by
  simp only [entries, pipeline]
  cases d.inflightFp with
  | some fp => simp
  | none => cases d.rawQ <;> simp

/-- Nothing at the head was tried. -/
theorem attempts_entries_zero {d : TxPipe F} (h : d.inflightFp = none) :
    (d.entries 0).flatMap TxEntry.attempts = [] := by
  rw [entries, h]
  cases d.rawQ with
  | nil => rfl
  | cons fp q => simp [TxEntry.attempts]

variable [DecidableEq F]

/-- A gate that is taken. -/
theorem update_true_iff {gate : F → Bool} {l : List F} (h : ∀ fp, gate fp = true ↔ fp ∈ l)
    (fp fp' : F) : Function.update gate fp true fp' = true ↔ fp' ∈ fp :: l := by
  rw [List.mem_cons, ← h]
  by_cases heq : fp' = fp
  · simp [heq]
  · simp [heq]

/-- A gate that is signalled. -/
theorem update_false_iff {gate : F → Bool} {fp : F} {l : List F}
    (h : ∀ fp', gate fp' = true ↔ fp' ∈ fp :: l) (hfp : fp ∉ l) (fp' : F) :
    Function.update gate fp false fp' = true ↔ fp' ∈ l := by
  by_cases heq : fp' = fp
  · subst heq
    rw [Function.update_self]
    exact iff_of_false Bool.false_ne_true hfp
  · rw [Function.update_of_ne heq, h, List.mem_cons, or_iff_right heq]

/-- The driver and the account of its frames. -/
structure Books (d : TxPipe F) (stamping committing sent owed : List F) (past : List (TxEntry F))
    (failures : Nat) : Prop where
  sent : sent = past.map TxEntry.fp ++ d.pipeline
  submits : d.submits =
    past.flatMap TxEntry.attempts ++ (d.entries failures).flatMap TxEntry.attempts
  uncompleted : d.uncompleted = d.inflightFp.toList
  gateReleases : ∀ fp, d.gateReleases.count fp = (past.map TxEntry.fp).count fp
  frameReleases : ∀ fp, d.frameReleases.count fp + owed.count fp = (past.map TxEntry.fp).count fp
  txGate : ∀ fp, d.txGate fp = true ↔ fp ∈ stamping ++ committing ++ d.pipeline
  refs : ∀ fp, d.refs fp = (committing ++ d.pipeline ++ owed).count fp
  nodup : (stamping ++ committing ++ d.pipeline).Nodup

section Books

variable {d : TxPipe F} {stamping committing sent owed : List F} {past : List (TxEntry F)}
  {failures : Nat} {fp : F}

/-- The books do not look at `tx_busy`. -/
theorem Books.busy (h : d.Books stamping committing sent owed past failures) (txBusy : Bool) :
    { d with txBusy := txBusy }.Books stamping committing sent owed past failures :=
  { h with }

/-- A reference that was owed is dropped. -/
theorem Books.releaseFrame (h : d.Books stamping committing sent (fp :: owed) past failures) :
    (d.releaseFrame fp).Books stamping committing sent owed past failures := by
  refine ⟨h.sent, h.submits, h.uncompleted, h.gateReleases, fun fp' => ?_, h.txGate, fun fp' => ?_,
    h.nodup⟩
  · have hcount := h.frameReleases fp'
    simp only [TxPipe.releaseFrame, List.count_append, List.count_cons, List.count_nil] at hcount ⊢
    omega
  · have href := h.refs fp'
    change Function.update d.refs fp (d.refs fp - 1) fp' = (committing ++ d.pipeline ++ owed).count fp'
    by_cases hfp : fp' = fp
    · subst hfp
      rw [Function.update_self, href]
      simp only [List.count_append, List.count_cons_self]
      omega
    · rw [Function.update_of_ne hfp, href]
      simp [List.count_append, Ne.symm hfp]

theorem Books.perm_owed {owed' : List F} (hperm : owed.Perm owed')
    (h : d.Books stamping committing sent owed past failures) :
    d.Books stamping committing sent owed' past failures :=
  { h with
    frameReleases := fun fp => by rw [← hperm.count_eq]; exact h.frameReleases fp
    refs := fun fp => (h.refs fp).trans ((hperm.append_left _).count_eq fp) }

/-- The head of the pipeline leaves it, and its gate is signalled. -/
theorem Books.leave {d' : TxPipe F} (h : d.Books stamping committing sent owed past failures)
    (hpipe : d.pipeline = fp :: d'.pipeline) (tries : Nat) (accepted : Bool)
    (hsub : d'.submits = past.flatMap TxEntry.attempts ++ TxEntry.attempts ⟨fp, tries, accepted⟩)
    (hentries : (d'.entries 0).flatMap TxEntry.attempts = [])
    (huncompleted : d'.uncompleted = d'.inflightFp.toList)
    (hgates : d'.gateReleases = d.gateReleases ++ [fp]) (hframes : d'.frameReleases = d.frameReleases)
    (hgate : d'.txGate = Function.update d.txGate fp false) (hrefs : d'.refs = d.refs) :
    d'.Books stamping committing sent (fp :: owed) (past ++ [⟨fp, tries, accepted⟩]) 0 := by
  have hnodup := h.nodup
  rw [hpipe] at hnodup
  have hgone : fp ∉ stamping ++ committing ++ d'.pipeline := fun hmem =>
    (List.nodup_middle.mp hnodup).notMem (by simpa using hmem)
  refine ⟨?_, ?_, huncompleted, fun fp' => ?_, fun fp' => ?_, fun fp' => ?_, fun fp' => ?_, ?_⟩
  · rw [h.sent, hpipe]
    simp
  · rw [hsub, hentries]
    simp
  · rw [hgates, List.count_append, h.gateReleases]
    simp
  · have hcount := h.frameReleases fp'
    rw [hframes]
    simp only [List.map_append, List.map_cons, List.map_nil, List.count_append,
      List.count_cons, List.count_nil] at hcount ⊢
    omega
  · rw [hgate]
    refine update_false_iff (fun fp' => ?_) hgone fp'
    rw [h.txGate, hpipe]
    exact List.perm_middle.mem_iff
  · rw [hrefs, h.refs, hpipe]
    simp only [List.count_append, List.count_cons]
    omega
  · exact hnodup.sublist (List.Sublist.append_left (List.sublist_cons_self _ _) _)

/-- A submission of the head that leaves it in the pipeline. -/
theorem Books.resubmitted {d' : TxPipe F} {failures' : Nat}
    (h : d.Books stamping committing sent owed past failures) (hpipe : d'.pipeline = d.pipeline)
    (hsub : d'.submits =
      past.flatMap TxEntry.attempts ++ (d'.entries failures').flatMap TxEntry.attempts)
    (huncompleted : d'.uncompleted = d'.inflightFp.toList)
    (hgates : d'.gateReleases = d.gateReleases) (hframes : d'.frameReleases = d.frameReleases)
    (hgate : d'.txGate = d.txGate) (hrefs : d'.refs = d.refs) :
    d'.Books stamping committing sent owed past failures' where
  sent := hpipe ▸ h.sent
  submits := hsub
  uncompleted := huncompleted
  gateReleases := hgates ▸ h.gateReleases
  frameReleases := hframes ▸ h.frameReleases
  txGate := by rw [hpipe, hgate]; exact h.txGate
  refs := by rw [hpipe, hrefs]; exact h.refs
  nodup := hpipe ▸ h.nodup

theorem Books.sTryStartNextTxI (h : d.Books stamping committing sent owed past failures)
    (prependOpeningFlag : Bool) (r : SubmitResult) :
    ∃ past' failures', (d.sTryStartNextTxI prependOpeningFlag r).1.Books stamping committing sent
      (owed ++ (d.sTryStartNextTxI prependOpeningFlag r).2.toList) past' failures' := by
  have hsame : d.Books stamping committing sent (owed ++ (none : Option F).toList) past failures :=
    (List.append_nil owed).symm ▸ h
  simp only [TxPipe.sTryStartNextTxI]
  split
  · exact ⟨past, failures, hsame⟩
  next hidle =>
    have hnone : d.inflightFp = none := by simpa using hidle
    cases hq : d.rawQ with
    | nil => exact ⟨past, failures, hsame⟩
    | cons nextFp rest =>
      have hpipe : d.pipeline = nextFp :: rest := by simp [pipeline, hnone, hq]
      have hsub := h.submits
      simp only [entries, hnone, hq, List.flatMap_cons, flatMap_attempts_untried, List.append_nil,
        TxEntry.attempts, Bool.false_eq_true, if_false] at hsub
      have hun := h.uncompleted
      rw [hnone, Option.toList_none] at hun
      dsimp only
      split
      · exact ⟨past, failures, hsame⟩
      split
      next hok =>
        -- the head goes into flight
        refine ⟨past, failures, hsame.resubmitted (by rw [hpipe]; rfl) ?_ ?_ rfl rfl rfl rfl⟩
        · simp only [submit, hsub, hok, entries, List.flatMap_cons, flatMap_attempts_untried,
            List.append_nil, TxEntry.attempts, if_true, List.append_assoc]
        · simp only [submit, hok, if_true, hun, List.nil_append, Option.toList_some]
      next hrefused =>
        have hfail : r.ok = false := by simpa using hrefused
        split
        · -- it is put back
          refine ⟨past, failures + 1, hsame.resubmitted ?_ ?_ ?_ rfl rfl rfl rfl⟩
          · simp only [pipeline, submit, hnone, hq]
          · simp only [submit, hsub, hfail, entries, hnone, List.flatMap_cons,
              flatMap_attempts_untried, List.append_nil, TxEntry.attempts, Bool.false_eq_true,
              if_false, List.append_assoc, List.replicate_succ']
          · simp only [submit, hun, hnone, hfail, Bool.false_eq_true, if_false, Option.toList_none]
        · -- it is given up
          refine ⟨past ++ [⟨nextFp, failures + 1, false⟩], 0, ?_⟩
          refine Books.perm_owed (List.perm_append_singleton nextFp owed).symm
            (h.leave ?_ (failures + 1) false ?_ ?_ ?_ rfl rfl rfl rfl)
          · simp only [pipeline, releaseGate, submit, hnone, hq, Option.toList_none,
              List.nil_append]
          · simp [releaseGate, submit, hsub, hfail, TxEntry.attempts, List.replicate_succ']
          · exact attempts_entries_zero hnone
          · simp only [releaseGate, submit, hun, hnone, hfail, Bool.false_eq_true, if_false,
              Option.toList_none]

theorem Books.release (h : d.Books stamping committing sent owed past failures) {fp : Option F}
    {owed' : List F} (howed : owed = fp.toList ++ owed') :
    (d.release fp).Books stamping committing sent owed' past failures := by
  subst howed
  cases fp with
  | none => exact h
  | some fp => exact h.releaseFrame

/-- The completion of the frame in flight. -/
theorem Books.complete (h : d.Books stamping committing sent owed past failures)
    (hfp : d.inflightFp = some fp) :
    ∃ past', ({ d with uncompleted := [], inflightFp := none }.releaseGate fp).Books stamping
      committing sent (fp :: owed) past' 0 := by
  have hsub := h.submits
  simp only [entries, hfp, List.flatMap_cons, flatMap_attempts_untried, List.append_nil] at hsub
  refine ⟨past ++ [⟨fp, failures, true⟩], ?_⟩
  refine h.leave ?_ failures true hsub ?_ rfl rfl rfl rfl rfl
  · simp only [pipeline, releaseGate, hfp, Option.toList_some, Option.toList_none,
      List.nil_append, List.cons_append]
  · exact attempts_entries_zero rfl

theorem Books.drain {q : List F} (h : d.Books stamping committing sent owed past failures)
    (hidle : d.inflightFp = none) (hq : d.rawQ = q) :
    ∃ past' failures', (d.drain q).Books stamping committing sent owed past' failures' := by
  induction q generalizing d past failures with
  | nil =>
    have hsame : d.drain [] = d := by
      rw [TxPipe.drain, ← hq]
    exact ⟨past, failures, hsame ▸ h⟩
  | cons fp rest ih =>
    have hsub := h.submits
    simp only [entries, hidle, hq, List.flatMap_cons, flatMap_attempts_untried, List.append_nil]
      at hsub
    have hleave : ({ d with rawQ := rest }.releaseGate fp).Books stamping committing sent
        (fp :: owed) (past ++ [TxEntry.mk fp failures false]) 0 := by
      refine h.leave ?_ failures false hsub ?_ h.uncompleted rfl rfl rfl rfl
      · simp only [pipeline, releaseGate, hidle, hq, Option.toList_none, List.nil_append]
      · exact attempts_entries_zero hidle
    exact ih hleave.releaseFrame hidle rfl

theorem Books.sOnTxDone (h : d.Books stamping committing sent [] past failures)
    {doneFp : Option F} (hdone : doneFp.all (· ∈ d.uncompleted)) (next : SubmitResult) :
    ∃ past' failures', ({ d with uncompleted := d.uncompleted.diff doneFp.toList }.sOnTxDone doneFp
      next).Books stamping committing sent [] past' failures' := by
  cases doneFp with
  | none =>
    have hsame : { d with
        uncompleted := d.uncompleted.diff (none : Option F).toList
        inflightFp := if d.inflightFp = none then none else d.inflightFp } = d := by
      have hfp : (if d.inflightFp = none then none else d.inflightFp) = d.inflightFp := by
        split
        next hnone => exact hnone.symm
        · rfl
      rw [hfp]
      rfl
    simp only [TxPipe.sOnTxDone, hsame]
    obtain ⟨past', failures', hstart⟩ := h.sTryStartNextTxI false next
    exact ⟨past', failures', Books.release hstart (List.append_nil _).symm⟩
  | some fp =>
    have hmem : fp ∈ d.inflightFp.toList := by
      rw [← h.uncompleted]
      simpa using hdone
    have hfp : d.inflightFp = some fp := by simpa using hmem
    obtain ⟨past', hgone⟩ := h.complete hfp
    obtain ⟨past', failures', hstart⟩ := hgone.sTryStartNextTxI false next
    have hun : d.uncompleted.diff [fp] = [] := by simp [h.uncompleted, hfp]
    simp only [TxPipe.sOnTxDone, hfp, if_true, Option.toList_some, hun]
    exact ⟨past', failures', hstart.releaseFrame.release (List.append_nil _).symm⟩

theorem Books.sOnTxReadyI (h : d.Books stamping committing sent [] past failures)
    (next : SubmitResult) :
    ∃ past' failures', (d.sOnTxReadyI next).Books stamping committing sent [] past' failures' := by
  obtain ⟨past', failures', hstart⟩ := h.sTryStartNextTxI true next
  exact ⟨past', failures', hstart.release (List.append_nil _).symm⟩

theorem Books.sOnTxErrorI (h : d.Books stamping committing sent [] past failures)
    {framep : Option F} (hframe : framep.all (· ∈ d.uncompleted)) :
    ∃ past' failures', ({ d with
      uncompleted := match framep with
        | some fp => d.uncompleted.erase fp
        | none => [] }.sOnTxErrorI framep).Books stamping committing sent [] past' failures' := by
  have hdone : framep.or d.inflightFp = d.inflightFp := by
    cases framep with
    | none => rfl
    | some fp =>
      have hmem : fp ∈ d.inflightFp.toList := by
        rw [← h.uncompleted]
        simpa using hframe
      simpa [eq_comm] using hmem
  have hun : (match framep with
      | some fp => d.uncompleted.erase fp
      | none => []) = [] := by
    cases framep with
    | none => rfl
    | some fp =>
      have hfp : some fp = d.inflightFp := hdone
      simp [h.uncompleted, ← hfp]
  simp only [TxPipe.sOnTxErrorI, hdone, hun]
  cases hfp : d.inflightFp with
  | none =>
    have hidle : ({ d with uncompleted := [], inflightFp := none } : TxPipe F) = d := by
      have hd := h.uncompleted
      rw [hfp] at hd
      rw [← hfp, ← show d.uncompleted = [] from hd]
    dsimp only
    rw [hidle]
    exact h.drain hfp rfl
  | some fp =>
    obtain ⟨past', hgone⟩ := h.complete hfp
    obtain ⟨past', failures', hdrain⟩ := hgone.drain rfl rfl
    exact ⟨past', failures', hdrain.releaseFrame⟩

theorem Books.drvStop (h : d.Books stamping committing sent [] past failures) :
    ∃ past' failures', ({ d with uncompleted := if d.started then [] else d.uncompleted }.drvStop).Books
      stamping committing sent [] past' failures' := by
  simp only [TxPipe.drvStop]
  split
  · have hnone : (none : Option F).all (· ∈ d.uncompleted) := rfl
    obtain ⟨past', failures', herror⟩ := h.sOnTxErrorI hnone
    exact ⟨past', failures', { herror with }⟩
  · exact ⟨past, failures, h⟩

/-- A committed frame enters the pipeline behind the others. -/
theorem Books.enter {d' : TxPipe F} {failures' : Nat}
    (h : d.Books stamping committing sent owed past failures) (hfp : fp ∈ committing)
    (hpipe : d'.pipeline = d.pipeline ++ [fp])
    (hsub : d'.submits =
      past.flatMap TxEntry.attempts ++ (d'.entries failures').flatMap TxEntry.attempts)
    (huncompleted : d'.uncompleted = d'.inflightFp.toList)
    (hgates : d'.gateReleases = d.gateReleases) (hframes : d'.frameReleases = d.frameReleases)
    (hgate : d'.txGate = d.txGate) (hrefs : d'.refs = d.refs) :
    d'.Books stamping (committing.erase fp) (sent ++ [fp]) owed past failures' := by
  have hperm : (committing ++ d.pipeline).Perm (committing.erase fp ++ d'.pipeline) := by
    rw [hpipe, ← List.append_assoc]
    refine (((List.perm_cons_erase hfp).append_right _).trans ?_)
    exact (List.perm_append_singleton fp (committing.erase fp ++ d.pipeline)).symm
  have hall : (stamping ++ committing ++ d.pipeline).Perm
      (stamping ++ committing.erase fp ++ d'.pipeline) := by
    rw [List.append_assoc, List.append_assoc]
    exact hperm.append_left stamping
  refine ⟨?_, hsub, huncompleted, hgates ▸ h.gateReleases, hframes ▸ h.frameReleases,
    fun fp' => ?_, fun fp' => ?_, hall.nodup_iff.mp h.nodup⟩
  · rw [h.sent, hpipe, List.append_assoc]
  · rw [hgate, h.txGate, hall.mem_iff]
  · rw [hrefs, h.refs]
    exact (hperm.append_right owed).count_eq fp'

theorem Books.drvSendFrameQueue (h : d.Books stamping committing sent [] past failures)
    (hfp : fp ∈ committing) (first next : SubmitResult) :
    ∃ past' failures', (d.drvSendFrameQueue fp first next).Books stamping (committing.erase fp)
      (sent ++ [fp]) [] past' failures' := by
  have hsub := h.submits
  have hun := h.uncompleted
  simp only [TxPipe.drvSendFrameQueue]
  split
  next hidle =>
    obtain ⟨-, hnone, hq⟩ := hidle
    have hpipe : d.pipeline = [] := by rw [pipeline, hnone, hq]; rfl
    simp only [entries, hnone, hq, List.flatMap_nil, List.append_nil] at hsub
    rw [hnone, Option.toList_none] at hun
    split
    next hok =>
      have henter : ({ ({ d with
          openingflag := Function.update d.openingflag fp true } : TxPipe F).submit fp first with
          inflightFp := some fp }).Books stamping (committing.erase fp) (sent ++ [fp]) [] past 0 := by
        refine h.enter hfp ?_ ?_ ?_ rfl rfl rfl rfl
        · rw [hpipe]
          simp only [pipeline, submit, hq, Option.toList_some, List.nil_append, List.append_nil]
        · simp [submit, hsub, hok, entries, TxEntry.attempts]
        · simp [submit, hun, hok]
      obtain ⟨past', failures', hstart⟩ := henter.sTryStartNextTxI true next
      exact ⟨past', failures', hstart.release (List.append_nil _).symm⟩
    next hrefused =>
      have hfail : first.ok = false := by simpa using hrefused
      -- the frame is in the queue, or would be if it were not given up
      have henter (flag : F → Bool) : ({ ({ d with
          openingflag := Function.update d.openingflag fp true } : TxPipe F).submit fp first with
          openingflag := flag, rawQ := d.rawQ ++ [fp] }).Books stamping (committing.erase fp)
            (sent ++ [fp]) [] past 1 := by
        refine h.enter hfp ?_ ?_ ?_ rfl rfl rfl rfl
        · rw [hpipe]
          simp only [pipeline, submit, hnone, hq, Option.toList_none, List.nil_append]
        · simp [submit, hsub, hfail, entries, hnone, hq, TxEntry.attempts]
        · simp [submit, hun, hfail, hnone]
      split
      · exact ⟨past, 1, henter _⟩
      · refine ⟨past ++ [⟨fp, 1, false⟩], 0, ?_⟩
        refine Books.releaseFrame ((henter (Function.update d.openingflag fp true)).leave ?_ 1 false
          ?_ ?_ ?_ rfl rfl rfl rfl)
        · simp only [pipeline, releaseGate, submit, hnone, hq, Option.toList_none, List.nil_append]
        · simp [releaseGate, submit, hsub, hfail, TxEntry.attempts]
        · exact attempts_entries_zero hnone
        · simp [releaseGate, submit, hun, hfail, hnone]
  next hbusy =>
    have hnot : fp ∉ d.rawQ := fun hmem =>
      (List.nodup_append.mp h.nodup).2.2 fp (List.mem_append_right _ hfp) fp
        (List.mem_append_right _ hmem) rfl
    rw [if_pos hnot]
    obtain ⟨failures', hentries⟩ : ∃ failures', (({ d with
        openingflag := Function.update d.openingflag fp false
        rawQ := d.rawQ ++ [fp] } : TxPipe F).entries failures').flatMap TxEntry.attempts =
          (d.entries failures).flatMap TxEntry.attempts := by
      cases hfl : d.inflightFp with
      | some fp' => exact ⟨failures, by simp [entries, hfl]⟩
      | none =>
        cases hq : d.rawQ with
        | nil => exact ⟨0, by simp [entries, hfl, hq, TxEntry.attempts]⟩
        | cons fp' q => exact ⟨failures, by simp [entries, hfl, hq]⟩
    have henter : ({ d with
        openingflag := Function.update d.openingflag fp false
        rawQ := d.rawQ ++ [fp] } : TxPipe F).Books stamping (committing.erase fp) (sent ++ [fp]) []
          past failures' := by
      refine h.enter hfp ?_ (by rw [hentries]; exact hsub) hun rfl rfl rfl rfl
      rw [pipeline, pipeline, List.append_assoc]
    obtain ⟨past', failures', hstart⟩ := henter.sTryStartNextTxI true next
    exact ⟨past', failures', hstart.release (List.append_nil _).symm⟩

theorem Books.drvSendFrameCommit (h : d.Books stamping committing sent [] past failures)
    (fp : F) (prepared : Bool) (take : Option F) :
    (d.drvSendFrameCommit fp prepared take).1.Books stamping
      ((d.drvSendFrameCommit fp prepared take).2.toList ++ committing) sent [] past failures := by
  have hcommit (fp : F) (hfree : ¬d.txGate fp = true) : ({ d with
      txGate := Function.update d.txGate fp true
      refs := Function.update d.refs fp (d.refs fp + 1) } : TxPipe F).Books stamping
        (fp :: committing) sent [] past failures := by
    have hgone : fp ∉ stamping ++ committing ++ d.pipeline := fun hmem => hfree ((h.txGate fp).mpr hmem)
    have hperm : (fp :: (stamping ++ committing ++ d.pipeline)).Perm
        (stamping ++ (fp :: committing) ++ d.pipeline) := by
      rw [List.append_assoc, List.append_assoc]
      exact List.perm_middle.symm
    refine ⟨h.sent, h.submits, h.uncompleted, h.gateReleases, h.frameReleases, fun fp' => ?_,
      fun fp' => ?_, hperm.nodup_iff.mp (List.nodup_cons.mpr ⟨hgone, h.nodup⟩)⟩
    · change Function.update d.txGate fp true fp' = true ↔
        fp' ∈ stamping ++ (fp :: committing) ++ d.pipeline
      rw [← hperm.mem_iff]
      exact update_true_iff h.txGate fp fp'
    · change Function.update d.refs fp (d.refs fp + 1) fp' =
        (fp :: committing ++ d.pipeline ++ []).count fp'
      have hrefs := h.refs fp'
      by_cases heq : fp' = fp
      · subst heq
        rw [Function.update_self, hrefs]
        simp
      · rw [Function.update_of_ne heq, hrefs]
        simp [Ne.symm heq]
  simp only [TxPipe.drvSendFrameCommit]
  split
  · exact h
  next hfree =>
    split
    · exact h
    split
    · split
      · exact h
      split
      · exact h
      next nfp hfree' => exact hcommit nfp hfree'
    · exact hcommit fp hfree

end Books

end TxPipe

namespace TxRun

variable {F : Type} [DecidableEq F]

/-- There is an account of the frames sent. -/
def Accounted (g : TxRun F) : Prop :=
  ∃ past failures, g.pipe.Books g.stamping g.committing g.sent [] past failures

theorem accounted_of_fresh {g : TxRun F} (h : g.Fresh) : g.Accounted := by
  refine ⟨[], 0, ?_⟩
  have hpipe : g.pipe.pipeline = [] := by rw [TxPipe.pipeline, h.pipe.inflightFp, h.pipe.rawQ]; rfl
  rw [h.stamping, h.committing, h.sent]
  refine ⟨hpipe.symm, ?_, ?_, fun fp => ?_, fun fp => ?_, fun fp => ?_, fun fp => ?_, ?_⟩
  · rw [h.pipe.submits, TxPipe.attempts_entries_zero h.pipe.inflightFp]
    rfl
  · rw [h.pipe.uncompleted, h.pipe.inflightFp]
    rfl
  · rw [h.pipe.gateReleases]
    rfl
  · rw [h.pipe.frameReleases]
    rfl
  · rw [h.pipe.txGate, hpipe]
    simp
  · rw [h.pipe.refs, hpipe]
    rfl
  · rw [hpipe]
    exact List.nodup_nil

theorem accounted_step {g g' : TxRun F} {a : TxStimulus F} (h : g.Accounted)
    (hact : g.act a = some g') : g'.Accounted := by
  obtain ⟨past, failures, h⟩ := h
  cases a with
  | stamp fp =>
    simp only [act] at hact
    split at hact
    · cases hact
    next hfree =>
      cases hact
      have hgone : fp ∉ g.stamping ++ g.committing ++ g.pipe.pipeline :=
        fun hmem => hfree ((h.txGate fp).mpr hmem)
      exact ⟨past, failures, { h with
        txGate := TxPipe.update_true_iff h.txGate fp
        nodup := List.nodup_cons.mpr ⟨hgone, h.nodup⟩ }⟩
  | stamped fp =>
    simp only [act] at hact
    split at hact
    next hmem =>
      cases hact
      have hperm : (g.stamping ++ g.committing ++ g.pipe.pipeline).Perm
          (fp :: (g.stamping.erase fp ++ g.committing ++ g.pipe.pipeline)) :=
        ((List.perm_cons_erase hmem).append_right _).append_right _
      have hnodup := List.nodup_cons.mp (hperm.nodup_iff.mp h.nodup)
      exact ⟨past, failures, { h with
        txGate := TxPipe.update_false_iff (fun fp' => (h.txGate fp').trans hperm.mem_iff) hnodup.1
        nodup := hnodup.2 }⟩
    · cases hact
  | commit fp prepared take =>
    simp only [act] at hact
    split at hact
    · cases hact
      exact ⟨past, failures, h.drvSendFrameCommit fp prepared take⟩
    · cases hact
  | queue nfp first next =>
    simp only [act] at hact
    split at hact
    next hmem =>
      cases hact
      exact h.drvSendFrameQueue hmem first next
    · cases hact
  | done doneFp txBusy next =>
    simp only [act] at hact
    split at hact
    next hdone =>
      cases hact
      exact (h.busy txBusy).sOnTxDone hdone next
    · cases hact
  | ready txBusy next =>
    cases hact
    exact (h.busy txBusy).sOnTxReadyI next
  | error framep txBusy =>
    simp only [act] at hact
    split at hact
    next hframe =>
      cases hact
      exact (h.busy txBusy).sOnTxErrorI hframe
    · cases hact
  | stop =>
    cases hact
    exact h.drvStop
  | busy txBusy =>
    cases hact
    exact ⟨past, failures, h.busy txBusy⟩

/-- What the account says to someone who does not look into the pipeline. -/
structure SendsOnce (g : TxRun F) (past pending : List (TxEntry F)) : Prop where
  /-- Every frame sent is accounted for, and the port got them in this order. -/
  sent : g.sent = (past ++ pending).map TxEntry.fp
  submits : g.pipe.submits = (past ++ pending).flatMap TxEntry.attempts
  /-- What is pending is in flight or in the queue. -/
  pipeline : pending.map TxEntry.fp = g.pipe.inflightFp.toList ++ g.pipe.rawQ
  /-- Only the frame in flight is with the port. -/
  uncompleted : g.pipe.uncompleted = g.pipe.inflightFp.toList
  gateReleases : ∀ fp, g.pipe.gateReleases.count fp = (past.map TxEntry.fp).count fp
  frameReleases : ∀ fp, g.pipe.frameReleases.count fp = (past.map TxEntry.fp).count fp
  /-- A frame that is not through holds its gate and one reference of the driver. -/
  txGate : ∀ fp, g.pipe.txGate fp = true ↔
    fp ∈ g.stamping ++ g.committing ++ (g.pipe.inflightFp.toList ++ g.pipe.rawQ)
  refs : ∀ fp, g.pipe.refs fp =
    if fp ∈ g.committing ++ (g.pipe.inflightFp.toList ++ g.pipe.rawQ) then 1 else 0

/-- In every run: the port holds at most one frame; the frames sent reach it in their order, one
again only after the port refused it; and every frame is pending, or its gate was signalled once
and its reference dropped once. -/
theorem sendsOnce {g : TxRun F} (h : Kit.Reachable Fresh (Moves fun _ _ => True) g) :
    ∃ past pending, g.SendsOnce past pending := by
  obtain ⟨past, failures, hb⟩ : g.Accounted :=
    h.invariant Accounted (fun _ hfresh => accounted_of_fresh hfresh)
      fun _ _ hg ⟨_, _, hact⟩ => accounted_step hg hact
  refine ⟨past, g.pipe.entries failures, ?_, ?_, ?_, hb.uncompleted, hb.gateReleases, fun fp => ?_,
    hb.txGate, fun fp => ?_⟩
  · rw [hb.sent, List.map_append, TxPipe.map_fp_entries]
  · rw [hb.submits, List.flatMap_append]
  · rw [TxPipe.map_fp_entries, TxPipe.pipeline]
  · rw [← hb.frameReleases, List.count_nil, Nat.add_zero]
  · have hnodup : (g.committing ++ g.pipe.pipeline).Nodup := by
      have hall := hb.nodup
      rw [List.append_assoc] at hall
      exact hall.of_append_right
    rw [hb.refs, List.append_nil]
    exact hnodup.count

/-- A driver that was just started on a port that is idle. -/
def idle (applyTransparency : Bool) : TxRun F where
  pipe :=
    { applyTransparency := applyTransparency, started := true, rawQ := [], inflightFp := none,
      txGate := fun _ => false, openingflag := fun _ => false, refs := fun _ => 0, txBusy := false,
      submits := [], gateReleases := [], frameReleases := [], uncompleted := [] }
  stamping := []
  committing := []
  sent := []

omit [DecidableEq F] in
theorem fresh_idle (applyTransparency : Bool) : (idle applyTransparency : TxRun F).Fresh :=
  ⟨⟨rfl, rfl, rfl, fun _ => rfl, fun _ => rfl, rfl, rfl, rfl, rfl⟩, rfl, rfl, rfl⟩

/-- Two frames are sent; the first completes and the second is in flight. -/
theorem sendsOnce_two_frames :
    ∃ g : TxRun (Fin 2), g.sent = [0, 1] ∧ g.pipe.gateReleases = [0] ∧ g.pipe.inflightFp = some 1 ∧
      ∃ past pending, g.SendsOnce past pending := by
  obtain ⟨g, hrun, hp⟩ := Kit.Reachable.exists_of_run act (fun _ a _ h => ⟨a, trivial, h⟩)
    (.start (fresh_idle false) :
      Kit.Reachable Fresh (Moves fun _ _ => True) (idle false : TxRun (Fin 2)))
    [.commit 0 true none, .commit 1 true none, .queue 0 ⟨true, true⟩ ⟨true, true⟩,
      .queue 1 ⟨true, true⟩ ⟨true, true⟩, .done (some 0) false ⟨true, true⟩]
    (fun g => decide (g.sent = [0, 1]) && decide (g.pipe.gateReleases = [0]) &&
      decide (g.pipe.inflightFp = some 1)) (by decide +kernel)
  simp only [Bool.and_eq_true, decide_eq_true_eq] at hp
  exact ⟨g, hp.1.1, hp.1.2, hp.2, sendsOnce hrun⟩

/-- A port that becomes busy refuses the frame, and gets it once more when it is ready. -/
theorem sendsOnce_fails_on_retry :
    ¬∀ g : TxRun (Fin 1), Kit.Reachable Fresh (Moves fun _ _ => True) g →
      (g.pipe.submits.map Prod.fst).Sublist g.sent := by
  intro hclaim
  obtain ⟨g, hrun, hp⟩ := Kit.Reachable.exists_of_run act (fun _ a _ h => ⟨a, trivial, h⟩)
    (.start (fresh_idle false) :
      Kit.Reachable Fresh (Moves fun _ _ => True) (idle false : TxRun (Fin 1)))
    [.commit 0 true none, .queue 0 ⟨false, true⟩ ⟨true, true⟩, .ready false ⟨true, true⟩]
    (fun g => !decide ((g.pipe.submits.map Prod.fst).Sublist g.sent)) (by decide +kernel)
  rw [Bool.not_eq_true', decide_eq_false_iff_not] at hp
  exact hp (hclaim g hrun)

end TxRun

end IoHdlc
