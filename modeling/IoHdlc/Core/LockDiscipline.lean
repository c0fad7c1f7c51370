import IoHdlc.Core.PeerLocks

/-!
The discipline of the peer mutexes: a thread locks no mutex that it holds, gives back and waits
with none that it does not hold, and holds none where its loop begins or when it returns. The
primary that moves on to its next peer changes that one under the mutex of the peer it leaves.
-/

namespace IoHdlc

open Kit LockProg

variable {n : Nat}

/-- A thread that holds a mutex changes no peer but the one whose mutex it holds. -/
def Guarded (held : Finset (Fin n)) (p : Fin n) : Prop := held = ∅ ∨ p ∈ held

/-! ### Every path of a program -/

section Paths

variable {allowed : Finset (Fin n) → Fin n → Prop} {found : Sight n → Prop} {p : Fin n}

@[simp] theorem safe_linkOf {post : Finset (Fin n) → Link → Prop} {held : Finset (Fin n)} :
    (linkOf p).Safe allowed found post held ↔ ∀ g, found g → post held (g.node.link p) := by
  simp [linkOf]

/-- A wait that tells a timeout has given the mutex back. -/
theorem safe_condvarWaitTimeout {post : Finset (Fin n) → Bool → Prop} {limited : Bool}
    (hexpired : post ∅ true) (hwoken : post {p} false) :
    (condvarWaitTimeout p limited).Safe allowed found post {p} := by
  rw [condvarWaitTimeout, safe_bind, safe_condWait]
  refine ⟨Finset.mem_singleton_self p, fun expired => ?_⟩
  rw [safe_ite]
  constructor
  · intro _
    simp [hexpired]
  · intro _
    exact hwoken

/-! The transmit worker. -/

/-- The mutexes that the transmit worker holds at a place. -/
def TxPlace.held : TxPlace n → Finset (Fin n)
  | .nextPeer p _ => {p}
  | _ => ∅

theorem safe_timeoutRetry {post : Finset (Fin n) → Bool → Prop} (hown : allowed {p} p)
    (hpost : ∀ retry, post {p} retry) : (timeoutRetry p).Safe allowed found post {p} := by
  simp [timeoutRetry, hown, hpost]

/-- A retry, and the recovery that follows it. -/
theorem safe_recovery {post : Finset (Fin n) → Bool → Prop} (hown : allowed {p} p)
    (hpost : ∀ retry, post {p} retry) :
    (do
      let retry ← timeoutRetry p
      if retry then change p
      return retry).Safe allowed found post {p} := by
  rw [safe_bind]
  refine safe_timeoutRetry hown fun retry => ?_
  cases retry with
  | false => exact hpost false
  | true => exact ⟨hown, hpost true⟩

theorem safe_txReplyTmo {post : Finset (Fin n) → Bool → Prop} (hown : allowed {p} p)
    (hpost : ∀ goesOn, post {p} goesOn) (flags : EvtFlags) :
    (txReplyTmo p flags).Safe allowed found post {p} := by
  rw [txReplyTmo, safe_bind, safe_linkOf]
  intro g _
  rw [safe_ite]
  exact ⟨fun _ => safe_recovery hown hpost, fun _ => hpost true⟩

theorem safe_txT3Tmo {post : Finset (Fin n) → Bool → Prop} (hown : allowed {p} p)
    (hpost : ∀ goesOn, post {p} goesOn) (flags : EvtFlags) :
    (txT3Tmo p flags).Safe allowed found post {p} := by
  rw [txT3Tmo, safe_bind, safe_linkOf]
  intro g _
  rw [safe_ite, safe_ite, safe_ite]
  refine ⟨fun _ => ⟨fun _ => ⟨hown, hpost true⟩, fun _ => ⟨fun _ => hpost true, fun _ => ?_⟩⟩,
    fun _ => hpost true⟩
  exact safe_recovery hown hpost

theorem safe_txUi {post : Finset (Fin n) → Unit → Prop} (hown : allowed {p} p)
    (hpost : post {p} ()) : (txUi p).Safe allowed found post {p} := by
  rw [txUi, safe_bind, safe_sight]
  intro g _
  rw [safe_ite]
  exact ⟨fun _ => ⟨hown, hpost⟩, fun _ => hpost⟩

/-- The thread gives its mutex back and goes on where it holds none. -/
theorem safe_leave {α : Type} {post : Finset (Fin n) → α → Prop} {a : α} (hpost : post ∅ a) :
    (do
      release p
      return a).Safe allowed found post {p} := by
  simp [hpost]

theorem safe_txConnected (hown : allowed {p} p) (flags : EvtFlags) :
    (txConnected p flags).Safe allowed found (fun held x => held = x.held) {p} := by
  rw [txConnected, safe_bind]
  refine safe_txReplyTmo hown (fun goesOn => ?_) _
  rw [safe_ite]
  refine ⟨fun _ => ?_, fun _ => safe_leave rfl⟩
  rw [safe_bind]
  refine safe_txT3Tmo hown (fun goesOn => ?_) _
  rw [safe_ite]
  refine ⟨fun _ => ?_, fun _ => safe_leave rfl⟩
  rw [safe_bind]
  refine safe_txUi hown ?_
  rw [safe_bind, safe_release]
  refine ⟨Finset.mem_singleton_self p, ?_⟩
  rw [Finset.erase_singleton, safe_bind, safe_linkOf]
  intro g _
  rw [safe_pure]
  split <;> rfl

theorem safe_txIFrame (hown : allowed {p} p) (flags : EvtFlags) :
    (txIFrame p flags).Safe allowed found (fun held x => held = x.held) {p} := by
  rw [txIFrame, safe_bind, safe_linkOf]
  intro g _
  cases (g.node.link p).p.iTransQ with
  | nil => exact safe_leave rfl
  | cons fp rest =>
    dsimp only
    rw [safe_bind, safe_change, safe_ite]
    refine ⟨hown, fun _ => safe_leave rfl, fun _ => safe_leave ?_⟩
    split <;> rfl

theorem safe_txIFrames (hown : allowed {p} p) (flags : EvtFlags) :
    (txIFrames p flags).Safe allowed found (fun held x => held = x.held) ∅ := by
  rw [txIFrames, safe_bind, safe_acquire]
  refine ⟨Finset.notMem_empty p, ?_⟩
  rw [insert_empty_eq, safe_bind, safe_sight]
  intro g _
  simp only [safe_ite]
  refine ⟨fun _ => safe_leave rfl, fun _ => ⟨fun _ => safe_leave rfl, fun _ => ?_⟩⟩
  refine ⟨fun _ => safe_leave rfl, fun _ => ⟨fun _ => safe_leave rfl, fun _ => ?_⟩⟩
  exact ⟨fun _ => safe_leave rfl, fun _ => safe_txIFrame hown _⟩

theorem safe_txSkipIFrames (hown : allowed {p} p) (flags : EvtFlags) :
    (txSkipIFrames p flags).Safe allowed found (fun held x => held = x.held) ∅ := by
  rw [txSkipIFrames, safe_bind, safe_acquire]
  refine ⟨Finset.notMem_empty p, ?_⟩
  rw [insert_empty_eq, safe_bind, safe_sight]
  exact fun g _ => ⟨hown, rfl⟩

/-- The round robin, which may change the next peer under the mutex of this one. -/
theorem safe_txLeave {g : Sight n} (flags : EvtFlags)
    (hnext : leavesPeer (g.node.link p) = true → g.hasPeer = true → g.node.ioHdlcNextPeer false ≠ p →
      allowed {p} (g.node.ioHdlcNextPeer false)) :
    (txLeave p flags g).Safe allowed found (fun held x => held = x.held) {p} := by
  rw [txLeave, safe_ite]
  constructor
  · intro hleaves
    rw [safe_ite]
    constructor
    · intro hmoves
      rw [safe_bind, safe_change]
      exact ⟨hnext hleaves hmoves.1 hmoves.2, safe_leave rfl⟩
    · exact fun _ => safe_leave rfl
  · exact fun _ => safe_leave rfl

theorem safe_txDispatch (hown : allowed {p} p) (hfree : ∀ q, allowed ∅ q) (flags : EvtFlags) :
    (txDispatch p flags).Safe allowed found (fun held x => held = x.held) {p} := by
  rw [txDispatch, safe_bind, safe_linkOf]
  intro g _
  simp only [safe_ite]
  refine ⟨fun _ => ⟨fun _ => ?_, fun _ => safe_leave rfl⟩, fun _ =>
    ⟨fun _ => safe_txConnected hown flags, fun _ => safe_leave rfl⟩⟩
  rw [safe_bind, safe_release]
  refine ⟨Finset.mem_singleton_self p, ?_⟩
  rw [Finset.erase_singleton, safe_bind, safe_sight]
  intro g _
  rw [safe_ite]
  exact ⟨fun _ => ⟨hfree _, rfl⟩, fun _ => rfl⟩

theorem safe_txServe (hown : allowed {p} p) (hfree : ∀ q, allowed ∅ q) (flags : EvtFlags) :
    (txServe p flags).Safe allowed found (fun held x => held = x.held) {p} := by
  rw [txServe, safe_bind, safe_linkOf]
  intro g _
  rw [safe_ite]
  exact ⟨fun _ => ⟨hown, safe_txDispatch hown hfree _⟩, fun _ => safe_txDispatch hown hfree _⟩

theorem safe_txSendCommand (hown : allowed {p} p) (hfree : ∀ q, allowed ∅ q) (flags : EvtFlags) :
    (txSendCommand p flags).Safe allowed found (fun held x => held = x.held) {p} := by
  rw [txSendCommand, safe_bind, safe_sight]
  intro g _
  simp only [safe_ite]
  refine ⟨fun _ => ⟨fun _ => ?_, fun _ => safe_txServe hown hfree flags⟩, fun _ => safe_leave rfl⟩
  exact ⟨hown, safe_txServe hown hfree flags⟩

theorem safe_txCommand (hown : allowed {p} p) (hfree : ∀ q, allowed ∅ q) (flags : EvtFlags)
    (timedOut : Bool) :
    (txCommand p flags timedOut).Safe allowed found (fun held x => held = x.held) {p} := by
  rw [txCommand, safe_bind, safe_linkOf]
  intro g _
  simp only [safe_ite]
  refine ⟨fun _ => safe_leave rfl, fun _ => ⟨fun _ => ?_, fun _ => safe_txSendCommand hown hfree flags⟩⟩
  rw [safe_bind]
  refine safe_timeoutRetry hown fun retry => ?_
  rw [safe_ite]
  exact ⟨fun _ => safe_leave rfl, fun _ => safe_txSendCommand hown hfree flags⟩

theorem safe_txRequest (hown : ∀ q, allowed {q} q) (hfree : ∀ q, allowed ∅ q) (flags : EvtFlags) :
    (txRequest p flags).Safe allowed found (fun held x => held = x.held) {p} := by
  rw [txRequest, safe_bind, safe_sight]
  intro g _
  simp only [safe_ite]
  refine ⟨fun _ => ⟨fun _ => ?_, fun _ => safe_leave rfl⟩, fun _ => safe_txCommand (hown p) hfree _ _⟩
  -- the worker changes to another peer, with no mutex in between
  rw [safe_bind, safe_release]
  refine ⟨Finset.mem_singleton_self p, ?_⟩
  rw [Finset.erase_singleton, safe_bind, safe_acquire]
  refine ⟨Finset.notMem_empty _, ?_⟩
  rw [insert_empty_eq]
  exact safe_txCommand (hown _) hfree _ _

theorem safe_txHead (hown : ∀ q, allowed {q} q) (hfree : ∀ q, allowed ∅ q) (flags : EvtFlags) :
    (txHead flags).Safe allowed found (fun held x => held = x.held) ∅ := by
  rw [txHead, safe_bind, safe_sight]
  intro g _
  rw [safe_bind, safe_sight]
  intro w _
  simp only [safe_ite]
  refine ⟨fun _ => rfl, fun _ => ⟨fun _ => rfl, fun _ => ?_⟩⟩
  rw [safe_bind, safe_acquire]
  refine ⟨Finset.notMem_empty _, ?_⟩
  rw [insert_empty_eq, safe_bind, safe_linkOf]
  intro g' _
  rw [safe_ite]
  exact ⟨fun _ => safe_txRequest hown hfree _, fun _ => safe_txServe (hown _) hfree _⟩

/-! The receive worker. -/

/-- A change under the mutex, which is then given back. -/
theorem safe_changed (hown : allowed {p} p) :
    (do
      change p
      release p : PeerProg n Unit).Safe allowed found (fun held _ => held = ∅) {p} := by
  simp [hown]

theorem safe_unchanged : (release p : PeerProg n Unit).Safe allowed found (fun held _ => held = ∅) {p} := by
  simp

/-- What a handler does with the mutex of a peer once it has looked at that peer. -/
theorem safe_locked {k : Link → PeerProg n Unit}
    (hk : ∀ l, (k l).Safe allowed found (fun held _ => held = ∅) {p}) :
    (do
      acquire p
      let l ← linkOf p
      k l).Safe allowed found (fun held _ => held = ∅) ∅ := by
  rw [safe_bind, safe_acquire]
  refine ⟨Finset.notMem_empty p, ?_⟩
  rw [insert_empty_eq, safe_bind, safe_linkOf]
  exact fun g _ => hk _

theorem safe_rxUi (hown : allowed {p} p) :
    (rxUi p).Safe allowed found (fun held _ => held = ∅) ∅ := by
  refine safe_locked fun l => ?_
  rw [safe_ite]
  exact ⟨fun _ => safe_changed hown, fun _ => safe_unchanged⟩

theorem safe_rxRegister (hown : allowed {p} p) (uCmd : UInt8) (short : Bool) :
    (rxRegister p uCmd short).Safe allowed found (fun held _ => held = ∅) {p} := by
  rw [rxRegister, safe_ite]
  refine ⟨fun _ => safe_unchanged, fun _ => ?_⟩
  rw [safe_bind, safe_linkOf]
  intro g _
  rw [safe_ite]
  exact ⟨fun _ => safe_unchanged, fun _ => safe_changed hown⟩

theorem safe_rxUCommand (hown : allowed {p} p) (fp : Frame) :
    (rxUCommand p fp).Safe allowed found (fun held _ => held = ∅) ∅ := by
  refine safe_locked fun l => ?_
  simp only [safe_ite]
  exact ⟨fun _ => ⟨fun _ => ⟨hown, safe_rxRegister hown _ _⟩, fun _ => safe_unchanged⟩,
    fun _ => safe_rxRegister hown _ _⟩

theorem safe_rxUResponse (hown : allowed {p} p) (fp : Frame) :
    (rxUResponse p fp).Safe allowed found (fun held _ => held = ∅) ∅ := by
  refine safe_locked fun l => ?_
  rw [safe_ite]
  exact ⟨fun _ => safe_unchanged, fun _ => safe_changed hown⟩

theorem safe_rxUFrame (hown : ∀ q, allowed {q} q) (fp : Frame) :
    (rxUFrame fp).Safe allowed found (fun held _ => held = ∅) ∅ := by
  rw [rxUFrame, safe_bind, safe_sight]
  intro g _
  simp only [safe_ite]
  refine ⟨fun _ => rfl, fun _ => ⟨fun _ => rfl, fun _ => ⟨fun _ => ?_, fun _ => ?_⟩⟩⟩
  · exact ⟨fun _ => rfl, fun _ => safe_rxUi (hown _)⟩
  · exact ⟨fun _ => safe_rxUCommand (hown _) fp, fun _ => safe_rxUResponse (hown _) fp⟩

theorem safe_rxCommon (hown : allowed {p} p) (fp : Frame) (isCommand : Bool) :
    (rxCommon p fp isCommand).Safe allowed found (fun held _ => held = ∅) ∅ := by
  refine safe_locked fun l => ?_
  simp only [safe_ite]
  refine ⟨fun _ => ⟨fun _ => safe_changed hown, fun _ => safe_unchanged⟩, fun _ => ?_⟩
  exact ⟨fun _ => safe_changed hown, fun _ => safe_changed hown⟩

theorem safe_rxFrame (hown : ∀ q, allowed {q} q) (fp : Frame) :
    (rxFrame fp).Safe allowed found (fun held _ => held = ∅) ∅ := by
  rw [rxFrame, safe_bind, safe_sight]
  intro g _
  rw [safe_ite]
  refine ⟨fun _ => safe_rxUFrame hown fp, fun _ => ?_⟩
  split
  · rw [rxNrm, safe_bind, safe_sight]
    intro g _
    simp only [safe_ite]
    exact ⟨fun _ => ⟨fun _ => rfl, fun _ => safe_rxCommon (hown _) fp _⟩,
      fun _ => ⟨fun _ => rfl, fun _ => safe_rxCommon (hown _) fp _⟩⟩
  · rw [rxAbm, safe_bind, safe_sight]
    intro g _
    rw [safe_ite]
    exact ⟨fun _ => rfl, fun _ => safe_rxCommon (hown _) fp _⟩
  · rfl

theorem safe_rxHead (hown : ∀ q, allowed {q} q) :
    (rxHead : PeerProg n RxPlace).Safe allowed found (fun held _ => held = ∅) ∅ := by
  rw [rxHead, safe_bind, safe_sight]
  intro g _
  rw [safe_ite]
  refine ⟨fun _ => rfl, fun _ => ?_⟩
  rw [safe_bind, safe_sight]
  intro g _
  cases g.frame with
  | none => exact fun g _ => rfl
  | some fp =>
    dsimp only
    rw [safe_bind]
    exact safe_rxFrame hown fp

/-! The calls of the stream. -/

/-- The mutexes that a write holds at a place. -/
def WritePlace.held (p : Fin n) : WritePlace → Finset (Fin n)
  | .reserve _ => {p}
  | _ => ∅

/-- The mutexes that a read holds at a place. -/
def ReadPlace.held (p : Fin n) : ReadPlace → Finset (Fin n)
  | .loop _ _ => {p}
  | _ => ∅

theorem safe_writeEntry (hown : allowed {p} p) (total : Except Errno Nat) :
    (writeEntry p total).Safe allowed found (fun held x => held = x.held p) ∅ := by
  cases total with
  | error e => rfl
  | ok total =>
    rw [writeEntry, safe_bind, safe_sight]
    intro g _
    simp only [safe_ite]
    refine ⟨fun _ => rfl, fun _ => ⟨fun _ => rfl, fun _ => ?_⟩⟩
    rw [safe_bind, safe_acquire]
    refine ⟨Finset.notMem_empty p, ?_⟩
    rw [insert_empty_eq, safe_bind, safe_linkOf]
    intro g _
    rw [safe_ite]
    exact ⟨fun _ => safe_leave rfl, fun _ => ⟨hown, safe_leave rfl⟩⟩

theorem safe_writeEnqueue (hown : allowed {p} p) (remaining chunkSize : Nat) :
    (writeEnqueue p remaining chunkSize).Safe allowed found (fun held x => held = x.held p) ∅ := by
  rw [writeEnqueue, safe_bind, safe_acquire]
  refine ⟨Finset.notMem_empty p, ?_⟩
  rw [insert_empty_eq, safe_bind, safe_linkOf]
  intro g _
  rw [safe_ite]
  exact ⟨fun _ => safe_leave rfl, fun _ => ⟨hown, safe_leave rfl⟩⟩

/-- A wait with the mutex, which is locked again when the wait has given it back. -/
theorem safe_waited {α : Type} {post : Finset (Fin n) → α → Prop} {limited : Bool}
    {k : Bool → PeerProg n α} (hk : ∀ expired, (k expired).Safe allowed found post {p}) :
    (do
      let expired ← condvarWaitTimeout p limited
      if expired then acquire p
      k expired).Safe allowed found post {p} := by
  rw [safe_bind]
  refine safe_condvarWaitTimeout ?_ (hk false)
  exact ⟨Finset.notMem_empty p, hk true⟩

theorem safe_writeTake (hown : allowed {p} p) (limited : Bool) (remaining : Nat) :
    (writeTake p limited remaining).Safe allowed found (fun held x => held = x.held p) {p} := by
  rw [writeTake, safe_bind, safe_linkOf]
  intro g _
  simp only [safe_ite]
  refine ⟨fun _ => ?_, fun _ => ⟨fun _ => safe_leave rfl, fun _ => ⟨fun _ => safe_leave rfl, fun _ => ?_⟩⟩⟩
  · refine safe_waited fun expired => ?_
    rw [safe_bind, safe_linkOf]
    intro g _
    rw [safe_ite]
    exact ⟨fun _ => safe_leave rfl, fun _ => rfl⟩
  · rw [safe_bind, safe_sight]
    intro g' _
    rw [safe_bind, safe_release]
    refine ⟨Finset.mem_singleton_self p, ?_⟩
    rw [Finset.erase_singleton, safe_ite]
    exact ⟨fun _ => rfl, fun _ => safe_writeEnqueue hown _ _⟩

theorem safe_readDone (hown : allowed {p} p) :
    (readDone p).Safe allowed found (fun held x => held = x.held p) {p} := by
  exact ⟨hown, safe_leave rfl⟩

theorem safe_readEntry (hown : allowed {p} p) (total : Except Errno Nat) :
    (readEntry p total).Safe allowed found (fun held x => held = x.held p) ∅ := by
  cases total with
  | error e => rfl
  | ok total =>
    rw [readEntry, safe_bind, safe_sight]
    intro g _
    simp only [safe_ite]
    refine ⟨fun _ => rfl, fun _ => ⟨fun _ => rfl, fun _ => ?_⟩⟩
    rw [safe_bind, safe_acquire]
    exact ⟨Finset.notMem_empty p, hown, rfl⟩

theorem safe_readRound (hown : allowed {p} p) (limited : Bool) (total totalRead : Nat) :
    (readRound p limited total totalRead).Safe allowed found (fun held x => held = x.held p) {p} := by
  rw [readRound, safe_bind, safe_linkOf]
  intro g _
  simp only [safe_ite]
  refine ⟨fun _ => ?_, fun _ => ⟨fun _ => ⟨fun _ => safe_readDone hown, fun _ =>
    ⟨hown, safe_readDone hown⟩⟩, fun _ => ?_⟩⟩
  · refine safe_waited fun expired => ?_
    rw [safe_bind, safe_linkOf]
    intro g _
    rw [safe_ite]
    exact ⟨fun _ => safe_readDone hown, fun _ => rfl⟩
  · cases (g.node.link p).p.rxFrames with
    | nil =>
      simp only [safe_ite]
      exact ⟨fun _ => safe_readDone hown, fun _ => ⟨fun _ => ⟨hown, safe_readDone hown⟩,
        fun _ => safe_readDone hown⟩⟩
    | cons fp rest =>
      refine ⟨hown, ?_⟩
      split
      · exact safe_readDone hown
      · rfl

end Paths

/-! ### The discipline -/

/-- The places where the transmit worker is to hold no mutex. -/
def TxPlace.Free : TxPlace n → Prop
  | .head _ | .returned => True
  | _ => False

theorem TxPlace.held_of_free (held : Finset (Fin n)) (x : TxPlace n) (hheld : held = x.held)
    (hx : x.Free) : held = ∅ := by
  cases x with
  | head | returned => exact hheld
  | iFrames | skipIFrames | nextPeer => exact hx.elim

def WritePlace.Free (x : WritePlace) : Prop := x = .returned

def ReadPlace.Free (x : ReadPlace) : Prop := x = .returned

section Discipline

variable {allowed : Finset (Fin n) → Fin n → Prop}

/-- The transmit worker keeps the rules where its round robin does. -/
theorem txProg_disciplined (hown : ∀ q, allowed {q} q) (hfree : ∀ q, allowed ∅ q)
    {found : TxPlace n → Sight n → Prop}
    (hfound : ∀ p flags g, found (.nextPeer p flags) g → leavesPeer (g.node.link p) = true →
      g.hasPeer = true → g.node.ioHdlcNextPeer false ≠ p → allowed {p} (g.node.ioHdlcNextPeer false))
    {flags : EvtFlags} {t : LockThread (Fin n) (Sight n) (TxPlace n)}
    (hrun : Reachable (LockThread.Begins txProg (.head flags)) (LockThread.Step txProg found) t) :
    t.Disciplined allowed TxPlace.Free := by
  refine LockThread.disciplined (fun held x => held = x.held) ?_ ?_ rfl hrun
  · rintro held x rfl
    cases x with
    | head flags => exact safe_txHead hown hfree flags
    | iFrames p flags => exact safe_txIFrames (hown p) flags
    | skipIFrames p flags => exact safe_txSkipIFrames (hown p) flags
    | nextPeer p flags =>
      rw [txProg, safe_bind, safe_sight]
      exact fun g hg => safe_txLeave flags (hfound p flags g hg)
    | returned => rfl
  · exact TxPlace.held_of_free

theorem rxProg_disciplined (hown : ∀ q, allowed {q} q) {found : RxPlace → Sight n → Prop}
    {t : LockThread (Fin n) (Sight n) RxPlace}
    (hrun : Reachable (LockThread.Begins rxProg .head) (LockThread.Step rxProg found) t) :
    t.Disciplined allowed fun _ => True := by
  refine LockThread.disciplined (fun held _ => held = ∅) ?_ (fun _ _ h _ => h) rfl hrun
  rintro held x rfl
  cases x with
  | head => exact safe_rxHead hown
  | returned => rfl

theorem writeProg_disciplined (hown : ∀ q, allowed {q} q) {p : Fin n} {limited : Bool}
    {total : Except Errno Nat} {found : WritePlace → Sight n → Prop} {t : LockThread (Fin n) (Sight n) WritePlace}
    (hrun : Reachable (LockThread.Begins (writeProg p limited) (.entry total))
      (LockThread.Step (writeProg p limited) found) t) : t.Disciplined allowed WritePlace.Free := by
  refine LockThread.disciplined (fun held x => held = x.held p) ?_ ?_ rfl hrun
  · rintro held x rfl
    cases x with
    | entry total => exact safe_writeEntry (hown p) total
    | loop remaining =>
      rw [writeProg, safe_ite]
      refine ⟨fun _ => rfl, fun _ => ?_⟩
      rw [safe_bind, safe_acquire]
      exact ⟨Finset.notMem_empty p, rfl⟩
    | reserve remaining => exact safe_writeTake (hown p) limited remaining
    | done =>
      rw [writeProg, safe_bind, safe_acquire]
      exact ⟨Finset.notMem_empty p, hown p, safe_leave rfl⟩
    | returned => rfl
  · rintro held x rfl rfl
    rfl

theorem readProg_disciplined (hown : ∀ q, allowed {q} q) {p : Fin n} {limited : Bool}
    {total : Except Errno Nat} {found : ReadPlace → Sight n → Prop} {t : LockThread (Fin n) (Sight n) ReadPlace}
    (hrun : Reachable (LockThread.Begins (readProg p limited) (.entry total))
      (LockThread.Step (readProg p limited) found) t) : t.Disciplined allowed ReadPlace.Free := by
  refine LockThread.disciplined (fun held x => held = x.held p) ?_ ?_ rfl hrun
  · rintro held x rfl
    cases x with
    | entry total => exact safe_readEntry (hown p) total
    | loop total totalRead =>
      rw [readProg, safe_ite]
      exact ⟨fun _ => safe_readRound (hown p) limited total totalRead, fun _ => safe_readDone (hown p)⟩
    | returned => rfl
  · rintro held x rfl rfl
    rfl

end Discipline

/-- The primary does not move on to another peer. -/
def Sight.Stays (p : Fin n) (g : Sight n) : Prop :=
  leavesPeer (g.node.link p) = true → g.hasPeer = true → g.node.ioHdlcNextPeer false = p

/-- The last section of a pass in the node changes another peer only where the worker moves on. -/
theorem txSFrame_other {nd nd' : Node n} {sent : List Frame} {flags : EvtFlags} {iSent : Bool}
    {take : Nat → Option Frame} (hpc : nd.pc = .sched (.skipIFrames flags iSent))
    (hact : nd.act (.txSFrame take) = some (nd', sent)) {j : Fin n} (hj : j ≠ nd.cPeer)
    (hchanged : nd'.peer j ≠ nd.peer j) {g : Sight n}
    (hg : g.node =
      { nd.setLink nd.cPeer (connectedTxSFrame (nd.link nd.cPeer) flags iSent take).link with
        pc := .sched (connectedTxSFrame (nd.link nd.cPeer) flags iSent take).pc })
    (hpeer : g.hasPeer = true) : ¬g.Stays nd.cPeer := by
  intro hstays
  simp only [Node.act, hpc, Option.some.injEq, Prod.mk.injEq] at hact
  obtain ⟨rfl, -⟩ := hact
  have hlink : g.node.link nd.cPeer = (connectedTxSFrame (nd.link nd.cPeer) flags iSent take).link := by
    rw [hg]
    exact Node.setLink_link nd nd.cPeer _
  have hkept : g.node.peer j = nd.peer j := by
    rw [hg]
    exact Node.setLink_peer_of_ne nd _ hj
  refine hchanged ?_
  rw [← hkept, Node.finishTx, ← hg]
  split
  next hnext =>
    rw [connectedTxSFrame_leavesPeer, ← hlink] at hnext
    have hsame : ¬g.node.ioHdlcNextPeer false ≠ g.node.cPeer := by
      rw [not_not, hstays hnext hpeer, hg]
      rfl
    dsimp only
    rw [if_neg hsame]
  next => rfl

/-- What the round robin of the transmit worker is to find. -/
def TxPlace.Stays : TxPlace n → Sight n → Prop
  | .nextPeer p _, g => g.Stays p
  | _, _ => True

/-- The station is in a state that it reaches. -/
def Sight.Real (g : Sight n) : Prop := Reachable Node.Fresh (Node.Moves Node.Anything) g.node

/-- The discipline of the peer mutexes in the two workers and in the calls of the stream, where the
transmit worker finds what `ok` says. -/
structure PeerMutexes (n : Nat) (ok : TxPlace n → Sight n → Prop) : Prop where
  tx : ∀ t, Reachable (LockThread.Begins txProg (.head ∅))
    (LockThread.Step txProg fun x g => g.Real ∧ ok x g) t → t.Disciplined Guarded TxPlace.Free
  rx : ∀ t, Reachable (LockThread.Begins (rxProg (n := n)) .head)
    (LockThread.Step rxProg fun _ g => g.Real) t → t.Disciplined Guarded fun _ => True
  write : ∀ (p : Fin n) limited total t,
    Reachable (LockThread.Begins (writeProg p limited) (.entry total))
      (LockThread.Step (writeProg p limited) fun _ g => g.Real) t →
    t.Disciplined Guarded WritePlace.Free
  read : ∀ (p : Fin n) limited total t,
    Reachable (LockThread.Begins (readProg p limited) (.entry total))
      (LockThread.Step (readProg p limited) fun _ g => g.Real) t →
    t.Disciplined Guarded ReadPlace.Free

theorem guarded_own (p : Fin n) : Guarded {p} p := .inr (Finset.mem_singleton_self p)

theorem guarded_free (p : Fin n) : Guarded ∅ p := .inl rfl

/-- The round robin keeps the rules exactly where it does not move on. -/
theorem txLeave_disciplined_iff (p : Fin n) (flags : EvtFlags) (g : Sight n) :
    LockThread.Disciplined Guarded TxPlace.Free
        { place := .nextPeer p flags, held := {p}, rest := txLeave p flags g } ↔ g.Stays p := by
  constructor
  · intro h hleaves hpeer
    by_contra hnext
    have hrest : txLeave p flags g =
        .touch (g.node.ioHdlcNextPeer false) (.unlock p (.ret (.head flags))) := by
      rw [txLeave, if_pos hleaves]
      exact if_pos ⟨hpeer, hnext⟩
    obtain hnone | hmem := h.touch _ _ hrest
    · exact Finset.singleton_ne_empty p hnone
    · exact hnext (Finset.mem_singleton.mp hmem)
  · intro h
    have hchecked : LockThread.Checked Guarded (fun _ _ => True) (fun held x => held = x.held)
        { place := .nextPeer p flags, held := {p}, rest := txLeave p flags g } :=
      safe_txLeave flags fun hleaves hpeer hnext => absurd (h hleaves hpeer) hnext
    exact hchecked.disciplined TxPlace.held_of_free

/-- The mutexes of the peers are kept in every run in which the primary does not move on from a
peer whose mutex it holds. That step alone breaks the rules, and no other rule than the one about
the state of another peer. -/
theorem peerMutexes_disciplined (n : Nat) :
    PeerMutexes n TxPlace.Stays ∧
      (∀ p flags g, LockThread.Disciplined Guarded TxPlace.Free
        { place := .nextPeer p flags, held := {p}, rest := txLeave (n := n) p flags g } ↔ g.Stays p) ∧
      ∀ t, Reachable (LockThread.Begins (txProg (n := n)) (.head ∅))
        (LockThread.Step txProg fun _ g => g.Real) t → t.Disciplined (fun _ _ => True) TxPlace.Free := by
  refine ⟨⟨?_, ?_, ?_, ?_⟩, txLeave_disciplined_iff, ?_⟩
  · refine fun t => txProg_disciplined guarded_own guarded_free fun p flags g hg hleaves hpeer hnext => ?_
    exact absurd (hg.2 hleaves hpeer) hnext
  · exact fun t => rxProg_disciplined guarded_own
  · exact fun p limited total t => writeProg_disciplined guarded_own
  · exact fun p limited total t => readProg_disciplined guarded_own
  · exact fun t => txProg_disciplined (fun _ => trivial) (fun _ => trivial) fun _ _ _ _ _ _ _ => trivial

/-! ### A primary with two peers -/

/-- A primary that was just set up with the peers 2 and 3. -/
def twoPeers : Node 2 :=
  let s := initialStation .ndm { pri := true } (.mod8 0 Framing.zero_le_two) 2 true 100 200 1
  { s := s
    peer := fun i => initialPeer s 128 8 (if i = 0 then 2 else 3)
    cPeer := 0
    pc := .sched (.idle ∅)
    writer := fun _ => .idle
    linkUps := [] }

theorem fresh_twoPeers : twoPeers.Fresh where
  station := ⟨.ndm, _, _, _, _, _, _, _, .inl rfl, rfl⟩
  peer := fun _ => ⟨_, _, _, rfl⟩
  pc := rfl
  writer := fun _ => rfl
  linkUps := rfl

/-- Both peers are connected. -/
def connectBoth : List (Action 2) :=
  [.linkUp 0 .nrm false, .linkUp 1 .nrm false, .txFetch, .txEntry { uCommand := some default },
    .receive (Node.shortFrame 2 0x73), .txFetch, .txEntry {}, .txSwitched { uCommand := some default },
    .receive (Node.shortFrame 3 0x73)]

/-- What the workers find in the state `nd`. -/
def sightOf (nd : Node 2) : Sight 2 :=
  { node := nd, hasPeer := true, stopRequested := false, flags := nd.s.cmListener, frame := none,
    gateFree := true }

/-- The transmit worker behind `k` operations, when nobody else does anything. -/
def txAlone (nd : Node 2) (k : Nat) : LockThread (Fin 2) (Sight 2) (TxPlace 2) :=
  (LockThread.next txProg (sightOf nd))^[k] { place := .head ∅, held := ∅, rest := txHead ∅ }

/-- The next operation changes a peer under the mutex of another one. -/
def touchesOther (t : LockThread (Fin 2) (Sight 2) (TxPlace 2)) : Bool :=
  match t.rest with
  | .touch p _ => decide (t.held ≠ ∅ ∧ p ∉ t.held)
  | _ => false

/-- A primary that has nothing to send to the peer 3 moves on to the peer 2 and changes it under
the mutex of the peer 3. -/
theorem peerMutexes_fails : ¬∀ n, PeerMutexes n fun _ _ => True := by
  intro h
  obtain ⟨nd, hnd, hbad⟩ := Reachable.exists_of_run Node.next (fun _ _ _ => Node.moves_next)
    (.start fresh_twoPeers) connectBoth (fun nd => touchesOther (txAlone nd 28)) (by decide +kernel)
  have hstart : Reachable (LockThread.Begins (txProg (n := 2)) (.head ∅))
      (LockThread.Step txProg fun _ g => g.Real ∧ True)
      { place := .head ∅, held := ∅, rest := txHead ∅ } := .start rfl
  have hrun := LockThread.reachable_alone (s := sightOf nd) (fun _ => ⟨hnd, trivial⟩) hstart 28
  have hkept := ((h 2).tx _ hrun).touch
  rw [touchesOther] at hbad
  split at hbad
  next p k hrest =>
    obtain ⟨hsome, hother⟩ := of_decide_eq_true hbad
    exact (hkept p k hrest).elim hsome hother
  next => cases hbad

end IoHdlc
