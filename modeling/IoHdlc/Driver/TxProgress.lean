import IoHdlc.Driver.TxHistory

/-!
Whether a frame of the raw queue is left behind.

The queue is served in the callbacks of the port alone, so it must not be left waiting on a port
that is idle. It is where the port, idle, refuses the head: the frame is given up, and the one
behind it waits for nothing.
-/

namespace IoHdlc

namespace TxPipe

variable {F : Type}

/-- The queue waits for nothing that would serve it. -/
def stranded (d : TxPipe F) : Bool :=
  !d.rawQ.isEmpty && d.inflightFp.isNone && !d.txBusy

theorem stranded_of_empty {d : TxPipe F} (h : d.rawQ = []) : d.stranded = false := by
  simp [stranded, h]

/-- Whether `s_try_start_next_tx_i` gives the head up and leaves others behind it. -/
def leavesBehind (d : TxPipe F) (r : SubmitResult) : Bool :=
  d.inflightFp.isNone && !d.txBusy && r.fails && decide (1 < d.rawQ.length)

variable [DecidableEq F]

/-- Behind a start the queue is stranded just if others are left behind. -/
theorem sTryStartNextTxI_stranded (d : TxPipe F) (prependOpeningFlag : Bool) (r : SubmitResult) :
    (d.sTryStartNextTxI prependOpeningFlag r).1.stranded = d.leavesBehind r := by
  simp only [sTryStartNextTxI]
  cases hfl : d.inflightFp with
  | some fp => simp [stranded, leavesBehind, hfl]
  | none =>
    cases hq : d.rawQ with
    | nil => simp [stranded, leavesBehind, hfl, hq]
    | cons nextFp rest =>
      cases hbusy : d.txBusy with
      | true => simp [stranded, leavesBehind, hfl, hq, hbusy]
      | false =>
        cases hok : r.ok with
        | true => simp [stranded, leavesBehind, hfl, hq, hbusy, hok, submit, SubmitResult.fails]
        | false =>
          cases hafter : r.busy with
          | true =>
            simp [stranded, leavesBehind, hfl, hq, hbusy, hok, hafter, submit, SubmitResult.fails]
          | false =>
            cases rest <;>
              simp [stranded, leavesBehind, hfl, hq, hbusy, hok, hafter, submit, releaseGate,
                SubmitResult.fails]

@[simp] theorem release_stranded (d : TxPipe F) (fp : Option F) :
    (d.release fp).stranded = d.stranded := by
  cases fp <;> rfl

theorem drain_rawQ (d : TxPipe F) (q : List F) : (d.drain q).rawQ = [] := by
  induction q generalizing d with
  | nil => rfl
  | cons fp rest ih => exact ih _

theorem sOnTxErrorI_stranded (d : TxPipe F) (framep : Option F) :
    (d.sOnTxErrorI framep).stranded = false := by
  simp only [sOnTxErrorI, release_stranded]
  exact stranded_of_empty (drain_rawQ _ _)

/-- The frame that a completion takes out of flight. -/
def doneWith (d : TxPipe F) (doneFp : Option F) : TxPipe F :=
  { d with inflightFp := if d.inflightFp = doneFp then none else d.inflightFp }

theorem sOnTxDone_stranded (d : TxPipe F) (doneFp : Option F) (next : SubmitResult) :
    (d.sOnTxDone doneFp next).stranded = (d.doneWith doneFp).leavesBehind next := by
  simp only [sOnTxDone, release_stranded, sTryStartNextTxI_stranded]
  cases doneFp <;> rfl

theorem sOnTxReadyI_stranded (d : TxPipe F) (next : SubmitResult) :
    (d.sOnTxReadyI next).stranded = d.leavesBehind next := by
  simp only [sOnTxReadyI, release_stranded, sTryStartNextTxI_stranded]

/-- A frame that is not in the queue already. -/
theorem drvSendFrameQueue_stranded {d : TxPipe F} {nfp : F} (hnew : nfp ∉ d.rawQ)
    (first next : SubmitResult) :
    (d.drvSendFrameQueue nfp first next).stranded =
      { d with rawQ := d.rawQ ++ [nfp] }.leavesBehind next := by
  simp only [drvSendFrameQueue]
  split
  next hidle =>
    obtain ⟨-, hnone, hq⟩ := hidle
    -- a single frame leaves none behind
    have halone : ({ d with rawQ := d.rawQ ++ [nfp] } : TxPipe F).leavesBehind next = false := by
      simp [leavesBehind, hq]
    rw [halone]
    cases hok : first.ok with
    | true =>
      simp only [if_true, release_stranded, sTryStartNextTxI_stranded]
      simp [leavesBehind]
    | false =>
      cases hbusy : first.busy with
      | true => simp [stranded, submit, hbusy]
      | false => exact stranded_of_empty hq
  · simp only [release_stranded, sTryStartNextTxI_stranded]
    rfl

end TxPipe

namespace TxRun

variable {F : Type} [DecidableEq F]

/-- What can happen while the driver is started. A port for which alone the queue waits tells when
it becomes idle. -/
def whileStarted (g : TxRun F) : TxStimulus F → Bool
  | .stop => false
  | .busy txBusy => txBusy || g.pipe.inflightFp.isSome || g.pipe.rawQ.isEmpty
  | _ => true

/-- Whether the section gives up no frame with another one behind it. -/
def keepsServing (g : TxRun F) : TxStimulus F → Bool
  | .queue nfp _ next => !{ g.pipe with rawQ := g.pipe.rawQ ++ [nfp] }.leavesBehind next
  | .done doneFp txBusy next =>
    !({ g.pipe with txBusy := txBusy }.doneWith doneFp).leavesBehind next
  | .ready txBusy next => !{ g.pipe with txBusy := txBusy }.leavesBehind next
  | _ => true

/-- A queue that is served is stranded by a section just if that leaves frames behind. -/
theorem act_stranded {g g' : TxRun F} {a : TxStimulus F} (hacc : g.Accounted)
    (hserved : g.pipe.stranded = false) (hok : g.whileStarted a = true) (hact : g.act a = some g') :
    g'.pipe.stranded = !g.keepsServing a := by
  cases a with
  | stamp fp =>
    simp only [act] at hact
    split at hact
    · cases hact
    · cases hact
      exact hserved
  | stamped fp =>
    simp only [act] at hact
    split at hact
    · cases hact
      exact hserved
    · cases hact
  | commit fp prepared take =>
    simp only [act] at hact
    split at hact
    · cases hact
      refine Eq.trans ?_ hserved
      simp only [TxPipe.drvSendFrameCommit]
      repeat' split
      all_goals rfl
    · cases hact
  | queue nfp first next =>
    simp only [act] at hact
    split at hact
    next hmem =>
      cases hact
      obtain ⟨past, failures, hb⟩ := hacc
      have hnew : nfp ∉ g.pipe.rawQ := fun hin =>
        (List.nodup_append.mp hb.nodup).2.2 nfp (List.mem_append_right _ hmem) nfp
          (List.mem_append_right _ hin) rfl
      rw [TxPipe.drvSendFrameQueue_stranded hnew, keepsServing, Bool.not_not]
    · cases hact
  | done doneFp txBusy next =>
    simp only [act] at hact
    split at hact
    · cases hact
      rw [TxPipe.sOnTxDone_stranded, keepsServing, Bool.not_not]
      rfl
    · cases hact
  | ready txBusy next =>
    cases hact
    rw [TxPipe.sOnTxReadyI_stranded, keepsServing, Bool.not_not]
  | error framep txBusy =>
    simp only [act] at hact
    split at hact
    · cases hact
      exact TxPipe.sOnTxErrorI_stranded _ framep
    · cases hact
  | stop => cases hok
  | busy txBusy =>
    cases hact
    simp only [whileStarted, Bool.or_eq_true] at hok
    rcases hok with (rfl | hfl) | hq
    · simp [TxPipe.stranded, keepsServing]
    · have hfl' : g.pipe.inflightFp.isNone = false := by simpa using hfl
      simp only [TxPipe.stranded, hfl', Bool.and_false, Bool.false_and, keepsServing, Bool.not_true]
    · exact TxPipe.stranded_of_empty (List.isEmpty_iff.mp hq)

/-- While no frame is given up in front of another, the queue is not stranded. -/
theorem not_stranded_of_keepsServing {g : TxRun F}
    (h : Kit.Reachable Fresh (Moves fun g a => g.whileStarted a = true ∧ g.keepsServing a = true) g) :
    g.pipe.stranded = false := by
  refine (h.invariant (fun g => g.Accounted ∧ g.pipe.stranded = false)
    (fun g hfresh => ⟨accounted_of_fresh hfresh, TxPipe.stranded_of_empty hfresh.pipe.rawQ⟩)
    fun g g' hg hmove => ?_).2
  obtain ⟨a, ⟨hok, hkeep⟩, hact⟩ := hmove
  refine ⟨accounted_step hg.1 hact, ?_⟩
  rw [act_stranded hg.1 hg.2 hok hact, hkeep]
  rfl

/-- Three frames are sent and the first completes: the second is in flight, the third queued. -/
theorem not_stranded_of_keepsServing_burst :
    ∃ g : TxRun (Fin 3), g.pipe.rawQ = [2] ∧ g.pipe.stranded = false := by
  obtain ⟨g, hrun, hp⟩ := Kit.Reachable.exists_of_run
    (fun (g : TxRun (Fin 3)) a =>
      if g.whileStarted a = true ∧ g.keepsServing a = true then g.act a else none)
    (fun g a g' h => by
      split at h
      next hk => exact ⟨a, hk, h⟩
      · cases h)
    (.start (fresh_idle false) : Kit.Reachable Fresh
      (Moves fun g a => g.whileStarted a = true ∧ g.keepsServing a = true) (idle false : TxRun (Fin 3)))
    [.commit 0 true none, .commit 1 true none, .commit 2 true none,
      .queue 0 ⟨true, true⟩ ⟨true, true⟩, .queue 1 ⟨true, true⟩ ⟨true, true⟩,
      .queue 2 ⟨true, true⟩ ⟨true, true⟩, .done (some 0) false ⟨true, true⟩]
    (fun g => decide (g.pipe.rawQ = [2])) (by decide +kernel)
  exact ⟨g, of_decide_eq_true hp, not_stranded_of_keepsServing hrun⟩

/-- The port completes the first of three frames and refuses the second, though it is idle: the
third waits for nothing. -/
theorem not_stranded_fails_on_refusal :
    ¬∀ g : TxRun (Fin 3), Kit.Reachable Fresh (Moves fun g a => g.whileStarted a = true) g →
      g.pipe.stranded = false := by
  intro hclaim
  obtain ⟨g, hrun, hp⟩ := Kit.Reachable.exists_of_run
    (fun (g : TxRun (Fin 3)) a => if g.whileStarted a then g.act a else none)
    (fun g a g' h => by
      split at h
      next hk => exact ⟨a, hk, h⟩
      · cases h)
    (.start (fresh_idle false) :
      Kit.Reachable Fresh (Moves fun g a => g.whileStarted a = true) (idle false : TxRun (Fin 3)))
    [.commit 0 true none, .commit 1 true none, .commit 2 true none,
      .queue 0 ⟨true, true⟩ ⟨true, true⟩, .queue 1 ⟨true, true⟩ ⟨true, true⟩,
      .queue 2 ⟨true, true⟩ ⟨true, true⟩, .done (some 0) false ⟨false, false⟩]
    (fun g => g.pipe.stranded) (by decide +kernel)
  exact Bool.false_ne_true ((hclaim g hrun).symm.trans hp)

end TxRun

end IoHdlc
