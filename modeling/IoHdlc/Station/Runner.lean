import IoHdlc.Port.Events
import IoHdlc.Kit.Termination

/-!
The runner of a station: `ioHdlcRunnerStart` creates the two workers, `ioHdlcRunnerStop` ends them.

The TX worker registers a listener for `cm_es` and waits for its events; a stop sets
`stop_requested` and broadcasts on `cm_es` once. So it matters which of the two comes first.
-/

namespace IoHdlc

open Kit

/-- `EVENT_MASK(0)`. -/
def txEvents : UInt32 := 1

/-- The flags that `ioHdlcTxEntry` registers for. -/
def cmFlagsMask : UInt32 := 0xF7FF

/-- `runner_context_t`. -/
structure RunnerContext where
  txStarted : Bool
  rxStarted : Bool

/-- How a call of the runner ended. -/
inductive RunnerResult where
  | ok
  | ENOMEM
  | EAGAIN

/-- Where the end of the workers is: `stop_requested` is set, its broadcast is under way, or it
waits for one of the threads. -/
inductive StopPlace where
  | flagged
  | broadcasting
  | joinTx
  | joinRx

/-- Where the thread of the application is. A start that cannot create the second thread ends the
first one as a stop does; `started` tells the two apart. -/
inductive AppPlace where
  | out
  | createTx
  | createRx
  | stopping (place : StopPlace) (started : Bool)

/-- Where the TX worker is in `ioHdlcTxEntry`. -/
inductive TxLoop where
  | absent
  | created
  | top (cmFlags : UInt32)
  | waiting
  | fetching
  | checking (cmFlags : UInt32)
  | working
  | leaving
  | ended

/-- Where the RX worker is in `ioHdlcRxEntry`. -/
inductive RxLoop where
  | absent
  | top
  | receiving
  | handling
  | ended

/-- A station with its workers. `contexts` counts the contexts that are allocated, `thread` is the
number of the last TX thread; `late` says that the broadcast of the last stop came before the TX
worker had registered its listener. -/
structure Runner where
  es : EvtSystem Unit Unit ℕ
  context : Option RunnerContext
  contexts : ℕ
  stopRequested : Bool
  runnerStarted : Bool
  app : AppPlace
  result : RunnerResult
  thread : ℕ
  tx : TxLoop
  rx : RxLoop
  late : Bool

namespace Runner

/-- The worker has not come to `iohdlc_evt_register` yet. -/
def TxCreated : TxLoop → Bool
  | .created => true
  | _ => false

/-- Where the TX worker is behind a step of its wait. -/
def afterWait : WaitPlace → TxLoop
  | .out => .fetching
  | _ => .waiting

/-- A broadcast that ends lets a stop go on to the join. -/
def afterBroadcast : AppPlace → AppPlace
  | .stopping .broadcasting started => .stopping .joinTx started
  | app => app

theorem afterBroadcast_cases (app : AppPlace) :
    (∃ started, app = .stopping .broadcasting started ∧
      afterBroadcast app = .stopping .joinTx started) ∨
    (∀ started, app ≠ .stopping .broadcasting started) ∧ afterBroadcast app = app := by
  rw [afterBroadcast.eq_def]
  split
  · exact .inl ⟨_, rfl, rfl⟩
  next hno => exact .inr ⟨hno, rfl⟩

/-- The end of a call that frees the context. -/
def release (g : Runner) (result : RunnerResult) : Runner :=
  { g with
    context := none, contexts := g.contexts - 1, runnerStarted := false, result := result
    app := .out }

/-- The steps of the application, of the workers and of a broadcast under way. -/
inductive Step (g : Runner) : Runner → Prop
  | startFails (hout : g.app = .out) (hnone : g.context = none) : Step g { g with result := .ENOMEM }
  | start (hout : g.app = .out) (hnone : g.context = none) :
    Step g { g with
      context := some { txStarted := false, rxStarted := false }, contexts := g.contexts + 1
      stopRequested := false, runnerStarted := false, app := .createTx }
  | createTxFails (happ : g.app = .createTx) : Step g (g.release .EAGAIN)
  | createTx (happ : g.app = .createTx) :
    Step g { g with
      context := g.context.map fun ctx => { ctx with txStarted := true }
      app := .createRx, thread := g.thread + 1, tx := .created }
  | createRxFails (happ : g.app = .createRx) :
    Step g { g with stopRequested := true, app := .stopping .flagged false }
  | createRx (happ : g.app = .createRx) :
    Step g { g with
      context := g.context.map fun ctx => { ctx with rxStarted := true }
      runnerStarted := true, app := .out, result := .ok, rx := .top }
  | stopNone (hout : g.app = .out) (hnone : g.context = none) :
    Step g { g with runnerStarted := false, result := .ok }
  | stop (hout : g.app = .out) (hsome : g.context ≠ none) :
    Step g { g with stopRequested := true, app := .stopping .flagged true }
  | stopBroadcast {started : Bool} {es' : EvtSystem Unit Unit ℕ}
    (happ : g.app = .stopping .flagged started)
    (hes : EvtSystem.Step g.es (.broadcast () 0xFFFFFFFF) es') :
    Step g { g with
      es := es', app := .stopping .broadcasting started, late := TxCreated g.tx }
  | setFlags {es' : EvtSystem Unit Unit ℕ} (hes : EvtSystem.Step g.es (.setFlags ()) es') :
    Step g { g with es := es' }
  | signal {es' : EvtSystem Unit Unit ℕ} (hes : EvtSystem.Step g.es (.signal ()) es') :
    Step g { g with es := es' }
  | broadcastDone {es' : EvtSystem Unit Unit ℕ} (hes : EvtSystem.Step g.es (.broadcastDone ()) es') :
    Step g { g with es := es', app := afterBroadcast g.app }
  | joinTx {ctx : RunnerContext} (happ : g.app = .stopping .joinTx true) (hctx : g.context = some ctx)
    (hjoin : ctx.txStarted = true → g.tx = .ended) :
    Step g { g with
      context := some { ctx with txStarted := false }, app := .stopping .joinRx true }
  | joinTxFailed (happ : g.app = .stopping .joinTx false) (hjoin : g.tx = .ended) :
    Step g (g.release .EAGAIN)
  | joinRx {ctx : RunnerContext} (happ : g.app = .stopping .joinRx true) (hctx : g.context = some ctx)
    (hjoin : ctx.rxStarted = true → g.rx = .ended) : Step g (g.release .ok)
  | txRegister {es' : EvtSystem Unit Unit ℕ} (htx : g.tx = .created)
    (hes : EvtSystem.Step g.es (.register () () g.thread txEvents cmFlagsMask) es') :
    Step g { g with es := es', tx := .top 0 }
  | txNext {cmFlags : UInt32} (htx : g.tx = .top cmFlags) (hflags : cmFlags ≠ 0) :
    Step g { g with tx := .checking cmFlags }
  | txWait {es' : EvtSystem Unit Unit ℕ} (htx : g.tx = .top 0)
    (hes : EvtSystem.Step g.es (.wait g.thread txEvents 0xFFFFFFFF) es') :
    Step g { g with es := es', tx := afterWait (es'.place g.thread) }
  | txRecheck {es' : EvtSystem Unit Unit ℕ} (htx : g.tx = .waiting)
    (hes : EvtSystem.Step g.es (.recheck g.thread) es') :
    Step g { g with es := es', tx := afterWait (es'.place g.thread) }
  | txFetch {es' : EvtSystem Unit Unit ℕ} (htx : g.tx = .fetching)
    (hes : EvtSystem.Step g.es (.getAndClear ()) es') :
    Step g { g with es := es', tx := .checking (g.es.listener ()).flags }
  | txStop {cmFlags : UInt32} (htx : g.tx = .checking cmFlags) (hstop : g.stopRequested = true) :
    Step g { g with tx := .leaving }
  -- the body of the loop leaves any flags for the next turn
  | txWork {cmFlags : UInt32} (htx : g.tx = .checking cmFlags) (hstop : g.stopRequested = false) :
    Step g { g with tx := .working }
  | txWorked {cmFlags : UInt32} (htx : g.tx = .working) : Step g { g with tx := .top cmFlags }
  | txLeave {es' : EvtSystem Unit Unit ℕ} (htx : g.tx = .leaving)
    (hes : EvtSystem.Step g.es (.unregister () ()) es') : Step g { g with es := es', tx := .ended }
  | rxTop (hrx : g.rx = .top) :
    Step g { g with rx := if g.stopRequested then .ended else .receiving }
  | rxFrame (hrx : g.rx = .receiving) : Step g { g with rx := .handling }
  | rxIdle (hrx : g.rx = .receiving) :
    Step g { g with rx := if g.stopRequested then .ended else .top }
  | rxHandled (hrx : g.rx = .handling) : Step g { g with rx := .top }

/-- Broadcasts of other threads, and wake-ups without a reason. -/
inductive Other (g : Runner) : Runner → Prop
  | broadcast {flags : UInt32} {es' : EvtSystem Unit Unit ℕ}
    (hes : EvtSystem.Step g.es (.broadcast () flags) es') : Other g { g with es := es' }
  | wake {es' : EvtSystem Unit Unit ℕ} (hes : EvtSystem.Step g.es (.wake g.thread) es') :
    Other g { g with es := es' }

def Moves (g g' : Runner) : Prop := Step g g' ∨ Other g g'

/-- A station behind `ioHdlcStationInit`. -/
structure Fresh (g : Runner) : Prop where
  es : g.es.Fresh
  pending : ∀ k, g.es.pending k = 0
  context : g.context = none
  contexts : g.contexts = 0
  runnerStarted : g.runnerStarted = false
  app : g.app = .out
  tx : g.tx = .absent
  rx : g.rx = .absent

/-! ### The life of the workers -/

/-- No thread runs there. -/
def TxGone (tx : TxLoop) : Prop := tx = .absent ∨ tx = .ended

def RxGone (rx : RxLoop) : Prop := rx = .absent ∨ rx = .ended

/-- The worker runs and has not seen a request to stop. -/
def TxAlive : TxLoop → Bool
  | .absent | .leaving | .ended => false
  | _ => true

def RxAlive (rx : RxLoop) : Prop := ¬RxGone rx

/-- The listener of the worker is in the chain of `cm_es`. -/
def TxRegistered : TxLoop → Bool
  | .absent | .created | .ended => false
  | _ => true

/-- The worker may come to a wait before it looks at `stop_requested`. -/
def TxMayWait : TxLoop → Bool
  | .created | .top _ | .waiting | .working => true
  | _ => false

/-- What the application, the context and the workers are like together. -/
inductive Phase : AppPlace → Option RunnerContext → Bool → TxLoop → RxLoop → Prop
  | stopped {stop : Bool} {tx : TxLoop} {rx : RxLoop} (htx : TxGone tx) (hrx : RxGone rx) :
    Phase .out none stop tx rx
  | running {tx : TxLoop} {rx : RxLoop} (htx : TxAlive tx) (hrx : RxAlive rx) :
    Phase .out (some ⟨true, true⟩) false tx rx
  | createTx {tx : TxLoop} {rx : RxLoop} (htx : TxGone tx) (hrx : RxGone rx) :
    Phase .createTx (some ⟨false, false⟩) false tx rx
  | createRx {tx : TxLoop} {rx : RxLoop} (htx : TxAlive tx) (hrx : RxGone rx) :
    Phase .createRx (some ⟨true, false⟩) false tx rx
  | stopping {place : StopPlace} {started : Bool} {tx : TxLoop} {rx : RxLoop}
    (hplace : place ≠ .joinRx) (htx : tx ≠ .absent) (hrx : started = true → rx ≠ .absent)
    (hgone : started = false → RxGone rx) :
    Phase (.stopping place started) (some ⟨true, started⟩) true tx rx
  | joinRx {rx : RxLoop} (hrx : rx ≠ .absent) :
    Phase (.stopping .joinRx true) (some ⟨false, true⟩) true .ended rx

section Phases

variable {app : AppPlace} {context : Option RunnerContext} {stop : Bool} {tx tx' : TxLoop}
  {rx rx' : RxLoop}

/-- A step of the TX worker. -/
theorem Phase.tx_step (h : Phase app context stop tx rx) (hgone : ¬TxGone tx) (habsent : tx' ≠ .absent)
    (halive : stop = false → TxAlive tx') : Phase app context stop tx' rx := by
  cases h with
  | stopped htx hrx => exact absurd htx hgone
  | running htx hrx => exact .running (halive rfl) hrx
  | createTx htx hrx => exact absurd htx hgone
  | createRx htx hrx => exact .createRx (halive rfl) hrx
  | stopping hplace htx hrx hnone => exact .stopping hplace habsent hrx hnone
  | joinRx hrx => exact absurd (.inr rfl) hgone

/-- A step of the RX worker. -/
theorem Phase.rx_step (h : Phase app context stop tx rx) (hgone : ¬RxGone rx) (habsent : rx' ≠ .absent)
    (halive : stop = false → RxAlive rx') : Phase app context stop tx rx' := by
  cases h with
  | stopped htx hrx => exact absurd hrx hgone
  | running htx hrx => exact .running htx (halive rfl)
  | createTx htx hrx => exact absurd hrx hgone
  | createRx htx hrx => exact absurd hrx hgone
  | stopping hplace htx hrx hnone =>
    exact .stopping hplace htx (fun _ => habsent) fun hs => absurd (hnone hs) hgone
  | joinRx hrx => exact .joinRx habsent

/-- The end of the workers goes on, short of the second join. -/
theorem Phase.goes {place place' : StopPlace} {started : Bool}
    (h : Phase (.stopping place started) context stop tx rx) (hplace : place ≠ .joinRx)
    (hplace' : place' ≠ .joinRx) : Phase (.stopping place' started) context stop tx rx := by
  cases h with
  | stopping _ htx hrx hgone => exact .stopping hplace' htx hrx hgone
  | joinRx hrx => exact absurd rfl hplace

theorem Phase.stop_requested {place : StopPlace} {started : Bool}
    (h : Phase (.stopping place started) context stop tx rx) : stop = true := by
  cases h <;> rfl

/-- The TX worker leaves on request alone. -/
theorem Phase.leaving (h : Phase app context stop .leaving rx) : stop = true := by
  cases h with
  | stopped htx hrx => simp [TxGone] at htx
  | running htx hrx => cases htx
  | createTx htx hrx => simp [TxGone] at htx
  | createRx htx hrx => cases htx
  | stopping hplace htx hrx hgone => rfl

theorem Phase.context_none (h : Phase .out none stop tx rx) : TxGone tx ∧ RxGone rx := by
  cases h with
  | stopped htx hrx => exact ⟨htx, hrx⟩

theorem Phase.of_running (h : Phase .out context stop tx rx) (hsome : context ≠ none) :
    context = some ⟨true, true⟩ ∧ stop = false ∧ TxAlive tx ∧ RxAlive rx := by
  cases h with
  | stopped htx hrx => exact absurd rfl hsome
  | running htx hrx => exact ⟨rfl, rfl, htx, hrx⟩

theorem Phase.of_createTx (h : Phase .createTx context stop tx rx) :
    context = some ⟨false, false⟩ ∧ stop = false ∧ TxGone tx ∧ RxGone rx := by
  cases h with
  | createTx htx hrx => exact ⟨rfl, rfl, htx, hrx⟩

theorem Phase.of_createRx (h : Phase .createRx context stop tx rx) :
    context = some ⟨true, false⟩ ∧ stop = false ∧ TxAlive tx ∧ RxGone rx := by
  cases h with
  | createRx htx hrx => exact ⟨rfl, rfl, htx, hrx⟩

theorem Phase.of_joinTx {started : Bool} (h : Phase (.stopping .joinTx started) context stop tx rx) :
    context = some ⟨true, started⟩ ∧ stop = true ∧ tx ≠ .absent ∧
      (started = true → rx ≠ .absent) ∧ (started = false → RxGone rx) := by
  cases h with
  | stopping hplace htx hrx hgone => exact ⟨rfl, rfl, htx, hrx, hgone⟩

theorem Phase.of_joinRx {started : Bool} (h : Phase (.stopping .joinRx started) context stop tx rx) :
    started = true ∧ context = some ⟨false, true⟩ ∧ tx = .ended ∧ rx ≠ .absent := by
  cases h with
  | stopping hplace htx hrx hgone => exact absurd rfl hplace
  | joinRx hrx => exact ⟨rfl, rfl, rfl, hrx⟩

end Phases

/-- The worker was signalled by the broadcast of a stop. -/
def Signalled (g : Runner) : Prop :=
  TxMayWait g.tx → g.es.pending g.thread &&& txEvents ≠ 0

/-- How far the broadcast of a stop has come that found the listener. -/
inductive Told (g : Runner) : Prop
  | ahead (hcast : g.es.cast () = some (.walks 0xFFFFFFFF [()]))
  | held (hcast : g.es.cast () = some (.holds 0xFFFFFFFF () []))
    (hsel : (g.es.listener ()).flags &&& (g.es.listener ()).wflags ≠ 0)
  | past (hcast : g.es.cast () = some (.walks 0xFFFFFFFF [])) (hsignalled : g.Signalled)

structure Inv (g : Runner) : Prop where
  events : g.es.Inv
  phase : Phase g.app g.context g.stopRequested g.tx g.rx
  contexts : g.contexts = if g.context.isSome then 1 else 0
  runnerStarted : g.runnerStarted = true → g.context.isSome
  unborn : ∀ k, g.thread < k → g.es.place k = .out ∧ g.es.pending k = 0
  created : g.tx = .created → g.es.pending g.thread = 0
  out : g.tx ≠ .waiting → g.es.place g.thread = .out
  waiting : g.tx = .waiting →
    g.es.place g.thread = .sleeps txEvents false ∨ g.es.place g.thread = .woken txEvents false
  chain : g.es.chain () = if TxRegistered g.tx then [()] else []
  listener : TxRegistered g.tx →
    (g.es.listener ()).thread = g.thread ∧ (g.es.listener ()).events = txEvents ∧
      (g.es.listener ()).wflags = cmFlagsMask
  early : ∀ started, g.app = .stopping .broadcasting started → g.late = true → TxCreated g.tx
  casting : ∀ started, g.app = .stopping .broadcasting started → g.es.cast () ≠ none
  told : ∀ started, g.app = .stopping .broadcasting started → g.late = false → g.Told
  joining : ∀ started, g.app = .stopping .joinTx started → g.late = false → g.Signalled

section Events

variable {g : Runner} {es' : EvtSystem Unit Unit ℕ}

/-- What a step of a broadcast changes for the workers. -/
structure Walked (g : Runner) (es' : EvtSystem Unit Unit ℕ) : Prop where
  chain : es'.chain () = g.es.chain ()
  listener : (es'.listener ()).thread = (g.es.listener ()).thread ∧
    (es'.listener ()).events = (g.es.listener ()).events ∧
      (es'.listener ()).wflags = (g.es.listener ()).wflags
  place : ∀ k, es'.place k = g.es.place k ∨
    k = g.thread ∧ TxRegistered g.tx ∧ es'.place k = EvtSystem.wakeUp (g.es.place k)
  pending : ∀ k, es'.pending k = g.es.pending k ∨
    k = g.thread ∧ TxRegistered g.tx ∧ Within (g.es.pending k) (es'.pending k)

/-- The chain of `cm_es` has no other listener. -/
theorem Inv.registered (h : g.Inv) (hmem : () ∈ g.es.chain ()) : TxRegistered g.tx := by
  rw [h.chain] at hmem
  by_contra hno
  rw [if_neg hno] at hmem
  cases hmem

theorem Inv.walked_broadcast {flags : UInt32}
    (hes : EvtSystem.Step g.es (.broadcast () flags) es') :
    g.Walked es' ∧ g.es.cast () = none ∧ es'.cast () = some (.walks flags (g.es.chain ())) := by
  cases hes with
  | broadcast hfree =>
    refine ⟨⟨rfl, ?_, fun k => .inl rfl, fun k => .inl rfl⟩, hfree, rfl⟩
    dsimp only
    split <;> exact ⟨rfl, rfl, rfl⟩

theorem Inv.walked_setFlags (hes : EvtSystem.Step g.es (.setFlags ()) es') :
    g.Walked es' ∧ ∃ flags rest, g.es.cast () = some (.walks flags (() :: rest)) ∧
      es'.cast () = some (.holds flags () rest) ∧
        (es'.listener ()).flags =
          (g.es.listener ()).flags ||| (flags &&& (g.es.listener ()).wflags) := by
  cases hes with
  | @setFlags _ flags elp rest hcast =>
    exact ⟨⟨rfl, ⟨rfl, rfl, rfl⟩, fun k => .inl rfl, fun k => .inl rfl⟩, flags, rest, hcast,
      rfl, rfl⟩

theorem Inv.walked_signal (h : g.Inv) (hes : EvtSystem.Step g.es (.signal ()) es') :
    g.Walked es' ∧ ∃ flags rest, g.es.cast () = some (.holds flags () rest) ∧
      es'.cast () = some (.walks flags rest) ∧
        ((g.es.listener ()).flags &&& (g.es.listener ()).wflags ≠ 0 →
          es'.pending g.thread = g.es.pending g.thread ||| txEvents) := by
  cases hes with
  | @signal _ flags elp rest hcast hsel =>
    have hreg : TxRegistered g.tx :=
      h.registered ((h.events.cast () _ hcast).subset List.mem_cons_self)
    obtain ⟨hthread, hevents, -⟩ := h.listener hreg
    refine ⟨⟨rfl, ⟨rfl, rfl, rfl⟩, fun k => ?_, fun k => ?_⟩, flags, rest, hcast,
      rfl, fun _ => ?_⟩
    · dsimp only [EvtSystem.raise, EvtSystem.update]
      rw [hthread]
      by_cases hk : k = g.thread
      · subst hk
        exact .inr ⟨rfl, hreg, Function.update_self ..⟩
      · exact .inl (Function.update_of_ne hk ..)
    · dsimp only [EvtSystem.raise, EvtSystem.update]
      rw [hthread]
      by_cases hk : k = g.thread
      · subst hk
        rw [Function.update_self]
        exact .inr ⟨rfl, hreg, within_or_left ..⟩
      · exact .inl (Function.update_of_ne hk ..)
    · dsimp only [EvtSystem.raise, EvtSystem.update]
      rw [hthread, hevents, Function.update_self]
  | @silent _ flags elp rest hcast hsel =>
    exact ⟨⟨rfl, ⟨rfl, rfl, rfl⟩, fun k => .inl rfl, fun k => .inl rfl⟩, flags, rest, hcast,
      rfl, fun hne => absurd hsel hne⟩

theorem Inv.walked_broadcastDone (hes : EvtSystem.Step g.es (.broadcastDone ()) es') :
    g.Walked es' ∧ (∃ flags, g.es.cast () = some (.walks flags [])) ∧ es'.cast () = none := by
  cases hes with
  | @broadcastDone _ flags hcast =>
    exact ⟨⟨rfl, ⟨rfl, rfl, rfl⟩, fun k => .inl rfl, fun k => .inl rfl⟩, ⟨flags, hcast⟩,
      rfl⟩

/-- A step of a broadcast leaves the workers where they are. -/
theorem Inv.walked {app : AppPlace} {late : Bool} (h : g.Inv) (hes' : es'.Inv) (hw : g.Walked es')
    (hphase : Phase app g.context g.stopRequested g.tx g.rx)
    (hearly : ∀ started, app = .stopping .broadcasting started → late = true → TxCreated g.tx)
    (hcasting : ∀ started, app = .stopping .broadcasting started → es'.cast () ≠ none)
    (htold : ∀ started, app = .stopping .broadcasting started → late = false →
      Told { g with es := es', app := app, late := late })
    (hjoining : ∀ started, app = .stopping .joinTx started → late = false →
      Signalled { g with es := es', app := app, late := late }) :
    ({ g with es := es', app := app, late := late } : Runner).Inv where
  events := hes'
  phase := hphase
  contexts := h.contexts
  runnerStarted := h.runnerStarted
  unborn k hk := by
    obtain ⟨hplace, hpending⟩ := h.unborn k hk
    constructor
    · rcases hw.place k with heq | ⟨heq, -, -⟩
      · exact heq.trans hplace
      · exact absurd heq hk.ne'
    · rcases hw.pending k with heq | ⟨heq, -, -⟩
      · exact heq.trans hpending
      · exact absurd heq hk.ne'
  created htx := by
    rcases hw.pending g.thread with heq | ⟨-, hreg, -⟩
    · exact heq.trans (h.created htx)
    · dsimp only at htx
      rw [htx] at hreg
      cases hreg
  out htx := by
    rcases hw.place g.thread with heq | ⟨-, -, heq⟩
    · exact heq.trans (h.out htx)
    · rw [h.out htx] at heq
      exact heq
  waiting htx := by
    rcases hw.place g.thread with heq | ⟨-, -, heq⟩
    · dsimp only
      rw [heq]
      exact h.waiting htx
    · rcases h.waiting htx with hold | hold <;> rw [hold] at heq <;> exact .inr heq
  chain := hw.chain.trans h.chain
  listener hreg := by
    obtain ⟨hthread, hevents, hwflags⟩ := h.listener hreg
    exact ⟨hw.listener.1.trans hthread, hw.listener.2.1.trans hevents,
      hw.listener.2.2.trans hwflags⟩
  early := hearly
  casting := hcasting
  told := htold
  joining := hjoining

/-- Events that were raised stay so while a broadcast goes on. -/
theorem Signalled.walked {app : AppPlace} {late : Bool} (h : g.Signalled) (hw : g.Walked es') :
    Signalled { g with es := es', app := app, late := late } := by
  intro hmay
  rcases hw.pending g.thread with heq | ⟨-, -, hwithin⟩
  · dsimp only
    rw [heq]
    exact h hmay
  · exact hwithin.meets (h hmay)

theorem Inv.stopBroadcast {started : Bool} (h : g.Inv) (happ : g.app = .stopping .flagged started)
    (hes : EvtSystem.Step g.es (.broadcast () 0xFFFFFFFF) es') :
    ({ g with
      es := es', app := .stopping .broadcasting started, late := TxCreated g.tx } :
        Runner).Inv := by
  obtain ⟨hw, -, hcast⟩ := Inv.walked_broadcast hes
  have hphase : Phase (.stopping .broadcasting started) g.context g.stopRequested g.tx g.rx :=
    (happ ▸ h.phase).goes (by simp) (by simp)
  refine h.walked (h.events.step hes) hw hphase (fun _ _ hlate => hlate) (fun _ _ => ?_)
    (fun _ _ hlate => ?_) fun _ hno => by simp at hno
  · rw [hcast]
    simp
  · have hchain := h.chain
    by_cases hreg : TxRegistered g.tx
    · rw [if_pos hreg] at hchain
      refine .ahead ?_
      dsimp only
      rw [hcast, hchain]
    · rw [if_neg hreg] at hchain
      refine .past (by rw [hcast, hchain]) fun hmay => ?_
      dsimp only at hmay
      cases htx : g.tx <;> simp_all [TxRegistered, TxMayWait, TxCreated]

theorem Inv.setFlags (h : g.Inv) (hes : EvtSystem.Step g.es (.setFlags ()) es') :
    ({ g with es := es' } : Runner).Inv := by
  obtain ⟨hw, flags, rest, hcast, hcast', hflags⟩ := Inv.walked_setFlags hes
  refine h.walked (h.events.step hes) hw h.phase h.early (fun _ _ => ?_) (fun started happ hlate => ?_)
    fun started happ hlate => (h.joining started happ hlate).walked hw
  · rw [hcast']
    simp
  · obtain hold | ⟨hold, -⟩ | ⟨hold, -⟩ := h.told started happ hlate
    · rw [hcast] at hold
      cases hold
      refine .held hcast' ?_
      have hreg : TxRegistered g.tx :=
        h.registered ((h.events.cast () _ hcast).subset List.mem_cons_self)
      dsimp only
      rw [hflags, hw.listener.2.2, (h.listener hreg).2.2]
      intro hzero
      have hin : Within (0xFFFFFFFF &&& cmFlagsMask)
          ((g.es.listener ()).flags ||| (0xFFFFFFFF &&& cmFlagsMask)) := within_or_right ..
      exact hin.meets (by decide) hzero
    · rw [hcast] at hold
      cases hold
    · rw [hcast] at hold
      cases hold

theorem Inv.signal (h : g.Inv) (hes : EvtSystem.Step g.es (.signal ()) es') :
    ({ g with es := es' } : Runner).Inv := by
  obtain ⟨hw, flags, rest, hcast, hcast', hsignal⟩ := h.walked_signal hes
  refine h.walked (h.events.step hes) hw h.phase h.early (fun _ _ => ?_) (fun started happ hlate => ?_)
    fun started happ hlate => (h.joining started happ hlate).walked hw
  · rw [hcast']
    simp
  · obtain hold | ⟨hold, hsel⟩ | ⟨hold, -⟩ := h.told started happ hlate
    · rw [hcast] at hold
      cases hold
    · rw [hcast] at hold
      cases hold
      refine .past hcast' fun _ => ?_
      dsimp only
      rw [hsignal hsel]
      have hself : txEvents &&& txEvents ≠ 0 := by decide
      exact (within_or_right txEvents (g.es.pending g.thread)).meets hself
    · rw [hcast] at hold
      cases hold

theorem Inv.broadcastDone (h : g.Inv) (hes : EvtSystem.Step g.es (.broadcastDone ()) es') :
    ({ g with es := es', app := afterBroadcast g.app } : Runner).Inv := by
  obtain ⟨hw, ⟨flags, hcast⟩, hcast'⟩ := Inv.walked_broadcastDone hes
  obtain ⟨started, happ, hafter⟩ | ⟨hno, hafter⟩ := afterBroadcast_cases g.app
  · rw [hafter]
    refine h.walked (h.events.step hes) hw ((happ ▸ h.phase).goes (by simp) (by simp))
      (fun _ hb => by simp at hb) (fun _ hb => by simp at hb) (fun _ hb => by simp at hb)
      fun _ _ hlate => ?_
    obtain hold | ⟨hold, -⟩ | ⟨-, hsignalled⟩ := h.told started happ hlate
    · rw [hcast] at hold
      cases hold
    · rw [hcast] at hold
      cases hold
    · exact hsignalled.walked hw
  · rw [hafter]
    exact h.walked (h.events.step hes) hw h.phase h.early
      (fun started happ => absurd happ (hno started)) (fun started happ => absurd happ (hno started))
      fun started happ hlate => (h.joining started happ hlate).walked hw

theorem Inv.others {flags : UInt32} (h : g.Inv)
    (hes : EvtSystem.Step g.es (.broadcast () flags) es') : ({ g with es := es' } : Runner).Inv := by
  obtain ⟨hw, hfree, hcast⟩ := Inv.walked_broadcast hes
  exact h.walked (h.events.step hes) hw h.phase h.early
    (fun started happ => absurd hfree (h.casting started happ))
    (fun started happ _ => absurd hfree (h.casting started happ))
    fun started happ hlate => (h.joining started happ hlate).walked hw

/-- What a wait of the TX worker changes, a step without any event included. -/
structure Waited (g : Runner) (es' : EvtSystem Unit Unit ℕ) : Prop where
  chain : es'.chain () = g.es.chain ()
  cast : es'.cast () = g.es.cast ()
  listener : (es'.listener ()).thread = (g.es.listener ()).thread ∧
    (es'.listener ()).events = (g.es.listener ()).events ∧
      (es'.listener ()).wflags = (g.es.listener ()).wflags ∧
        (es'.listener ()).flags = (g.es.listener ()).flags
  place : ∀ k, k ≠ g.thread → es'.place k = g.es.place k
  pending : ∀ k, k ≠ g.thread → es'.pending k = g.es.pending k

theorem Waited.refl (g : Runner) : g.Waited g.es :=
  ⟨rfl, rfl, ⟨rfl, rfl, rfl, rfl⟩, fun _ _ => rfl, fun _ _ => rfl⟩

/-- A wait that returns. -/
theorem Waited.consume (g : Runner) (matched : UInt32) : g.Waited (g.es.consume g.thread matched) where
  chain := rfl
  cast := rfl
  listener := by
    dsimp only [EvtSystem.consume]
    split <;> exact ⟨rfl, rfl, rfl, rfl⟩
  place k hk := Function.update_of_ne hk ..
  pending k hk := Function.update_of_ne hk ..

/-- A wait that falls asleep, or is woken. -/
theorem Waited.sleep (g : Runner) (place : WaitPlace) :
    g.Waited { g.es with place := Function.update g.es.place g.thread place } where
  chain := rfl
  cast := rfl
  listener := ⟨rfl, rfl, rfl, rfl⟩
  place _ hk := Function.update_of_ne hk ..
  pending _ _ := rfl

theorem Inv.waited {tx : TxLoop} (h : g.Inv) (hes' : es'.Inv) (hw : g.Waited es')
    (hphase : Phase g.app g.context g.stopRequested tx g.rx)
    (hreg : TxRegistered tx = TxRegistered g.tx) (hcreated : tx ≠ .created) (hnot : ¬TxCreated g.tx)
    (hout : tx ≠ .waiting → es'.place g.thread = .out)
    (hwaiting : tx = .waiting →
      es'.place g.thread = .sleeps txEvents false ∨ es'.place g.thread = .woken txEvents false)
    (hsignalled : g.stopRequested = true → TxMayWait tx →
      TxMayWait g.tx ∧ es'.pending g.thread = g.es.pending g.thread) :
    ({ g with es := es', tx := tx } : Runner).Inv := by
  -- a request to stop keeps what its broadcast has raised
  have hkeep : g.stopRequested = true → g.Signalled →
      Signalled { g with es := es', tx := tx } := by
    intro hstop hold hmay
    obtain ⟨hmay', hpending⟩ := hsignalled hstop hmay
    dsimp only
    rw [hpending]
    exact hold hmay'
  exact
    { events := hes'
      phase := hphase
      contexts := h.contexts
      runnerStarted := h.runnerStarted
      unborn := fun k hk => by
        dsimp only
        rw [hw.place k hk.ne', hw.pending k hk.ne']
        exact h.unborn k hk
      created := fun htx => absurd htx hcreated
      out := hout
      waiting := hwaiting
      chain := by
        dsimp only
        rw [hw.chain, hreg]
        exact h.chain
      listener := fun htx => by
        dsimp only at htx ⊢
        rw [hreg] at htx
        rw [hw.listener.1, hw.listener.2.1, hw.listener.2.2.1]
        exact h.listener htx
      early := fun started happ hlate => absurd (h.early started happ hlate) hnot
      casting := fun started happ => by
        dsimp only
        rw [hw.cast]
        exact h.casting started happ
      told := fun started happ hlate => by
        have hstop : g.stopRequested = true := Phase.stop_requested (happ ▸ h.phase)
        obtain hcast | ⟨hcast, hsel⟩ | ⟨hcast, hold⟩ := h.told started happ hlate
        · exact .ahead (hw.cast.trans hcast)
        · refine .held (hw.cast.trans hcast) ?_
          dsimp only
          rw [hw.listener.2.2.1, hw.listener.2.2.2]
          exact hsel
        · exact .past (hw.cast.trans hcast) (hkeep hstop hold)
      joining := fun started happ hlate =>
        hkeep (Phase.stop_requested (happ ▸ h.phase)) (h.joining started happ hlate) }

/-- A step of the TX worker outside its wait. -/
theorem Inv.tx_step {tx : TxLoop} (h : g.Inv)
    (hphase : Phase g.app g.context g.stopRequested tx g.rx)
    (hreg : TxRegistered tx = TxRegistered g.tx) (hcreated : tx ≠ .created)
    (hnot : ¬TxCreated g.tx) (hwaiting : tx ≠ .waiting) (hwas : g.tx ≠ .waiting)
    (hmay : g.stopRequested = true → TxMayWait tx → TxMayWait g.tx) :
    ({ g with tx := tx } : Runner).Inv :=
  h.waited h.events (.refl g) hphase hreg hcreated hnot (fun _ => h.out hwas)
    (fun htx => absurd htx hwaiting) fun hstop htx => ⟨hmay hstop htx, rfl⟩

theorem Inv.txRegister (h : g.Inv) (htx : g.tx = .created)
    (hes : EvtSystem.Step g.es (.register () () g.thread txEvents cmFlagsMask) es') :
    ({ g with es := es', tx := .top 0 } : Runner).Inv := by
  have hes' := h.events.step hes
  have hgone : ¬TxGone g.tx := by simp [TxGone, htx]
  cases hes with
  | register hfree hnew =>
    refine
      { h with
        events := hes'
        phase := h.phase.tx_step hgone (by simp) fun _ => rfl
        created := fun hno => by cases hno
        out := fun _ => h.out (by rw [htx]; simp)
        waiting := fun hno => by cases hno
        chain := ?_
        listener := fun _ => ⟨rfl, rfl, rfl⟩
        early := fun started happ => absurd hfree (h.casting started happ)
        casting := h.casting
        told := fun started happ => absurd hfree (h.casting started happ)
        joining := fun started happ hlate _ => ?_ }
    · have hchain := h.chain
      rw [htx] at hchain
      dsimp only
      rw [Function.update_self, hchain]
      rfl
    · refine h.joining started happ hlate ?_
      rw [htx]
      rfl

theorem Inv.txLeave (h : g.Inv) (htx : g.tx = .leaving)
    (hes : EvtSystem.Step g.es (.unregister () ()) es') :
    ({ g with es := es', tx := .ended } : Runner).Inv := by
  have hes' := h.events.step hes
  have hgone : ¬TxGone g.tx := by simp [TxGone, htx]
  have hstop : g.stopRequested = true := (htx ▸ h.phase).leaving
  cases hes with
  | unregister hfree =>
    refine
      { h with
        events := hes'
        phase := h.phase.tx_step hgone (by simp) fun hno => by simp [hstop] at hno
        created := fun hno => by cases hno
        out := fun _ => h.out (by rw [htx]; simp)
        waiting := fun hno => by cases hno
        chain := ?_
        listener := fun hno => by cases hno
        early := fun started happ => absurd hfree (h.casting started happ)
        casting := h.casting
        told := fun started happ => absurd hfree (h.casting started happ)
        joining := fun started happ hlate hno => by cases hno }
    have hchain := h.chain
    rw [htx] at hchain
    dsimp only
    rw [Function.update_self, hchain]
    rfl

theorem Inv.txFetch (h : g.Inv) (htx : g.tx = .fetching)
    (hes : EvtSystem.Step g.es (.getAndClear ()) es') :
    ({ g with es := es', tx := .checking (g.es.listener ()).flags } : Runner).Inv := by
  have hes' := h.events.step hes
  have hgone : ¬TxGone g.tx := by simp [TxGone, htx]
  cases hes with
  | getAndClear hfree =>
    refine
      { h with
        events := hes'
        phase := h.phase.tx_step hgone (by simp) fun _ => rfl
        created := fun hno => by cases hno
        out := fun _ => h.out (by rw [htx]; simp)
        waiting := fun hno => by cases hno
        chain := ?_
        listener := fun _ => h.listener (by rw [htx]; rfl)
        early := fun started happ hlate => by simpa [htx, TxCreated] using h.early started happ hlate
        casting := h.casting
        told := fun started happ hlate => ?_
        joining := fun started happ hlate hno => by cases hno }
    · have hchain := h.chain
      rw [htx] at hchain
      exact hchain
    · obtain hcast | ⟨hcast, -⟩ | ⟨hcast, -⟩ := h.told started happ hlate
      · exact .ahead hcast
      · exact absurd ⟨_, _, hcast⟩ (hfree ())
      · exact .past hcast fun hno => by cases hno

/-- A wait that is entered, or looks at the events again. -/
theorem Inv.wait_step {timed : Bool} (h : g.Inv) (hes' : es'.Inv) (halive : TxAlive g.tx)
    (hreg : TxRegistered g.tx) (hmay : TxMayWait g.tx) (htimed : timed = false)
    (hcases : g.es.pending g.thread &&& txEvents ≠ 0 ∧
        es' = g.es.consume g.thread (g.es.pending g.thread &&& txEvents) ∨
      g.es.pending g.thread &&& txEvents = 0 ∧
        es' = { g.es with
          place := Function.update g.es.place g.thread (.sleeps txEvents timed) }) :
    ({ g with es := es', tx := afterWait (es'.place g.thread) } : Runner).Inv := by
  have hgone : ¬TxGone g.tx := by
    rintro (hno | hno) <;> rw [hno] at halive <;> cases halive
  have hnot : ¬TxCreated g.tx := by cases htx : g.tx <;> simp_all [TxRegistered, TxCreated]
  rcases hcases with ⟨-, rfl⟩ | ⟨-, rfl⟩
  · have hout : (g.es.consume g.thread (g.es.pending g.thread &&& txEvents)).place g.thread = .out :=
      Function.update_self ..
    rw [hout]
    exact h.waited hes' (.consume g _) (h.phase.tx_step hgone (by simp [afterWait]) fun _ => rfl)
      (by rw [hreg]; rfl) (by simp [afterWait]) hnot (fun _ => hout) (fun hno => by cases hno)
      fun _ hno => by cases hno
  · subst htimed
    have hsleeps : Function.update g.es.place g.thread (.sleeps txEvents false) g.thread =
        .sleeps txEvents false := Function.update_self ..
    dsimp only
    rw [hsleeps]
    exact h.waited hes' (.sleep g _) (h.phase.tx_step hgone (by simp [afterWait]) fun _ => rfl)
      (by rw [hreg]; rfl) (by simp [afterWait]) hnot (fun hno => absurd rfl hno) (fun _ => .inl hsleeps)
      fun _ _ => ⟨hmay, rfl⟩

theorem Inv.txWait (h : g.Inv) (htx : g.tx = .top 0)
    (hes : EvtSystem.Step g.es (.wait g.thread txEvents 0xFFFFFFFF) es') :
    ({ g with es := es', tx := afterWait (es'.place g.thread) } : Runner).Inv := by
  obtain ⟨-, hcases⟩ := hes.wait_cases (by decide)
  exact h.wait_step (h.events.step hes) (by rw [htx]; rfl) (by rw [htx]; rfl) (by rw [htx]; rfl)
    (by simp) hcases

theorem Inv.txRecheck (h : g.Inv) (htx : g.tx = .waiting)
    (hes : EvtSystem.Step g.es (.recheck g.thread) es') :
    ({ g with es := es', tx := afterWait (es'.place g.thread) } : Runner).Inv := by
  obtain ⟨events, timed, hwoken, hcases⟩ := hes.recheck_cases
  rcases h.waiting htx with hno | hold
  · rw [hwoken] at hno
    cases hno
  · rw [hwoken] at hold
    cases hold
    exact h.wait_step (h.events.step hes) (by rw [htx]; rfl) (by rw [htx]; rfl) (by rw [htx]; rfl)
      rfl hcases

theorem Inv.wake (h : g.Inv) (hes : EvtSystem.Step g.es (.wake g.thread) es') :
    ({ g with es := es' } : Runner).Inv := by
  have hes' := h.events.step hes
  cases hes with
  | @wake _ events timed hsleeps =>
    have htx : g.tx = .waiting := by
      by_contra hno
      rw [h.out hno] at hsleeps
      cases hsleeps
    have hwas : events = txEvents ∧ timed = false := by
      rcases h.waiting htx with hold | hold <;> rw [hsleeps] at hold <;> cases hold
      exact ⟨rfl, rfl⟩
    obtain ⟨rfl, rfl⟩ := hwas
    have hwaited := @Inv.waited g _ g.tx h hes' (.sleep g _) h.phase rfl (by simp [htx])
      (by simp [htx, TxCreated]) (fun hno => absurd htx hno) (fun _ => .inr (Function.update_self ..))
      fun _ hmay => ⟨hmay, rfl⟩
    exact hwaited

end Events

section Runs

variable {g g' : Runner}

theorem inv_of_fresh (h : g.Fresh) : g.Inv where
  events := EvtSystem.inv_of_fresh h.es
  phase := by
    rw [h.app, h.context, h.tx, h.rx]
    exact .stopped (.inl rfl) (.inl rfl)
  contexts := by
    rw [h.contexts, h.context]
    rfl
  runnerStarted hs := by simp [h.runnerStarted] at hs
  unborn k _ := ⟨h.es.place k, h.pending k⟩
  created hno := by simp [h.tx] at hno
  out _ := h.es.place _
  waiting hno := by simp [h.tx] at hno
  chain := by
    rw [h.es.chain, h.tx]
    rfl
  listener hno := by simp [h.tx, TxRegistered] at hno
  early _ hno := by simp [h.app] at hno
  casting _ hno := by simp [h.app] at hno
  told _ hno := by simp [h.app] at hno
  joining _ hno := by simp [h.app] at hno

/-- A step of the application that is no broadcast and creates no TX thread. -/
theorem Inv.app_step {context : Option RunnerContext} {contexts : ℕ} {stop started : Bool}
    {app : AppPlace} {result : RunnerResult} {rx : RxLoop} (h : g.Inv)
    (hphase : Phase app context stop g.tx rx) (hcontexts : contexts = if context.isSome then 1 else 0)
    (hstarted : started = true → context.isSome)
    (happ : ∀ s, app ≠ .stopping .broadcasting s ∧ app ≠ .stopping .joinTx s) :
    ({ g with
      context := context, contexts := contexts, stopRequested := stop, runnerStarted := started
      app := app, result := result, rx := rx } : Runner).Inv :=
  { h with
    phase := hphase
    contexts := hcontexts
    runnerStarted := hstarted
    early := fun s hno => absurd hno (happ s).1
    casting := fun s hno => absurd hno (happ s).1
    told := fun s hno => absurd hno (happ s).1
    joining := fun s hno => absurd hno (happ s).2 }

/-- A call that frees the context returns. -/
theorem Inv.release {result : RunnerResult} (h : g.Inv) (htx : TxGone g.tx) (hrx : RxGone g.rx)
    (hsome : g.context.isSome) : (g.release result).Inv := by
  refine h.app_step (.stopped htx hrx) ?_ (fun hno => by cases hno) fun s => ⟨by simp, by simp⟩
  rw [h.contexts, if_pos hsome]
  rfl

theorem Inv.rx_step {rx : RxLoop} (h : g.Inv) (hphase : Phase g.app g.context g.stopRequested g.tx rx) :
    ({ g with rx := rx } : Runner).Inv :=
  { h with
    phase := hphase
    told := fun started happ hlate => by
      obtain hcast | ⟨hcast, hsel⟩ | ⟨hcast, hold⟩ := h.told started happ hlate
      · exact .ahead hcast
      · exact .held hcast hsel
      · exact .past hcast hold }

/-- A thread that was never there before. -/
theorem Inv.txCreated (h : g.Inv) (htx : TxGone g.tx) (hrx : RxGone g.rx)
    (hctx : g.context = some ⟨false, false⟩) (hstop : g.stopRequested = false) :
    ({ g with
      context := g.context.map fun ctx => { ctx with txStarted := true }
      app := .createRx, thread := g.thread + 1, tx := .created } : Runner).Inv where
  events := h.events
  phase := by
    dsimp only
    rw [hctx, hstop]
    exact .createRx rfl hrx
  contexts := by
    dsimp only
    rw [h.contexts, hctx]
    rfl
  runnerStarted _ := by
    dsimp only
    rw [hctx]
    rfl
  unborn k hk := h.unborn k (Nat.lt_of_succ_lt hk)
  created _ := (h.unborn _ (Nat.lt_succ_self _)).2
  out _ := (h.unborn _ (Nat.lt_succ_self _)).1
  waiting hno := by cases hno
  chain := by
    have hchain := h.chain
    rcases htx with htx | htx <;> rw [htx] at hchain <;> exact hchain
  listener hno := by cases hno
  early _ hno := by cases hno
  casting _ hno := by cases hno
  told _ hno := by cases hno
  joining _ hno := by cases hno

theorem Inv.step (h : g.Inv) (hstep : Step g g') : g'.Inv := by
  have hphase := h.phase
  cases hstep with
  | startFails hout hnone =>
    rw [hout, hnone] at hphase
    exact { h with
      told := fun _ hno => by simp [hout] at hno
      joining := fun _ hno => by simp [hout] at hno }
  | start hout hnone =>
    rw [hout, hnone] at hphase
    obtain ⟨htx, hrx⟩ := hphase.context_none
    refine h.app_step (.createTx htx hrx) ?_ (fun hno => by cases hno) fun s => ⟨by simp, by simp⟩
    rw [h.contexts, hnone]
    rfl
  | createTxFails happ =>
    rw [happ] at hphase
    obtain ⟨hctx, -, htx, hrx⟩ := hphase.of_createTx
    exact h.release htx hrx (by rw [hctx]; rfl)
  | createTx happ =>
    rw [happ] at hphase
    obtain ⟨hctx, hstop, htx, hrx⟩ := hphase.of_createTx
    exact h.txCreated htx hrx hctx hstop
  | createRxFails happ =>
    rw [happ] at hphase
    obtain ⟨hctx, hstop, htx, hrx⟩ := hphase.of_createRx
    refine h.app_step ?_ h.contexts h.runnerStarted fun s => ⟨by simp, by simp⟩
    rw [hctx]
    exact .stopping (by simp) (fun hno => by simp [hno, TxAlive] at htx) (fun hno => by cases hno)
      fun _ => hrx
  | createRx happ =>
    rw [happ] at hphase
    obtain ⟨hctx, hstop, htx, hrx⟩ := hphase.of_createRx
    refine h.app_step ?_ ?_ (fun _ => by rw [hctx]; rfl) fun s => ⟨by simp, by simp⟩
    · rw [hctx, hstop]
      exact .running htx (by simp [RxAlive, RxGone])
    · rw [h.contexts, hctx]
      rfl
  | stopNone hout hnone =>
    exact h.app_step hphase h.contexts (fun hno => by cases hno) fun s => by simp [hout]
  | stop hout hsome =>
    rw [hout] at hphase
    obtain ⟨hctx, -, htx, hrx⟩ := hphase.of_running hsome
    refine h.app_step ?_ h.contexts h.runnerStarted fun s => ⟨by simp, by simp⟩
    rw [hctx]
    exact .stopping (by simp) (fun hno => by simp [hno, TxAlive] at htx) (fun _ hno => hrx (.inl hno))
      fun hno => by cases hno
  | stopBroadcast happ hes => exact h.stopBroadcast happ hes
  | setFlags hes => exact h.setFlags hes
  | signal hes => exact h.signal hes
  | broadcastDone hes => exact h.broadcastDone hes
  | @joinTx ctx happ hctx hjoin =>
    rw [happ] at hphase
    obtain ⟨hctx', hstop, -, hrx, -⟩ := hphase.of_joinTx
    rw [hctx] at hctx'
    cases hctx'
    refine h.app_step ?_ ?_ (fun _ => rfl) fun s => ⟨by simp, by simp⟩
    · rw [hjoin rfl, hstop]
      exact .joinRx (hrx rfl)
    · rw [h.contexts, hctx]
      rfl
  | joinTxFailed happ hjoin =>
    rw [happ] at hphase
    obtain ⟨hctx, -, -, -, hgone⟩ := hphase.of_joinTx
    exact h.release (.inr hjoin) (hgone rfl) (by rw [hctx]; rfl)
  | @joinRx ctx happ hctx hjoin =>
    rw [happ] at hphase
    obtain ⟨-, hctx', htx, -⟩ := hphase.of_joinRx
    rw [hctx] at hctx'
    cases hctx'
    exact h.release (.inr htx) (.inr (hjoin rfl)) (by rw [hctx]; rfl)
  | txRegister htx hes => exact h.txRegister htx hes
  | txNext htx hflags =>
    exact h.tx_step (hphase.tx_step (by simp [TxGone, htx]) (by simp) fun _ => rfl)
      (by rw [htx]; rfl) (by simp) (by simp [htx, TxCreated]) (by simp) (by simp [htx]) fun _ hno => by cases hno
  | txWait htx hes => exact h.txWait htx hes
  | txRecheck htx hes => exact h.txRecheck htx hes
  | txFetch htx hes => exact h.txFetch htx hes
  | txStop htx hstop =>
    exact h.tx_step (hphase.tx_step (by simp [TxGone, htx]) (by simp) fun hno => by simp [hstop] at hno)
      (by rw [htx]; rfl) (by simp) (by simp [htx, TxCreated]) (by simp) (by simp [htx]) fun _ hno => by cases hno
  | txWork htx hstop =>
    exact h.tx_step (hphase.tx_step (by simp [TxGone, htx]) (by simp) fun _ => rfl)
      (by rw [htx]; rfl) (by simp) (by simp [htx, TxCreated]) (by simp) (by simp [htx]) fun hno => by simp [hstop] at hno
  | txWorked htx =>
    exact h.tx_step (hphase.tx_step (by simp [TxGone, htx]) (by simp) fun _ => rfl)
      (by rw [htx]; rfl) (by simp) (by simp [htx, TxCreated]) (by simp) (by simp [htx]) fun _ _ => by rw [htx]; rfl
  | txLeave htx hes => exact h.txLeave htx hes
  | rxTop hrx =>
    refine h.rx_step (hphase.rx_step (by simp [RxGone, hrx]) ?_ fun hno => ?_)
    · split <;> simp
    · simp [hno, RxAlive, RxGone]
  | rxFrame hrx =>
    exact h.rx_step (hphase.rx_step (by simp [RxGone, hrx]) (by simp) fun _ => by simp [RxAlive, RxGone])
  | rxIdle hrx =>
    refine h.rx_step (hphase.rx_step (by simp [RxGone, hrx]) ?_ fun hno => ?_)
    · split <;> simp
    · simp [hno, RxAlive, RxGone]
  | rxHandled hrx =>
    exact h.rx_step (hphase.rx_step (by simp [RxGone, hrx]) (by simp) fun _ => by simp [RxAlive, RxGone])

theorem Inv.other (h : g.Inv) (hstep : Other g g') : g'.Inv := by
  cases hstep with
  | broadcast hes => exact h.others hes
  | wake hes => exact h.wake hes

theorem inv_of_reachable (h : Reachable Fresh Moves g) : g.Inv :=
  h.invariant Inv (fun _ hfresh => inv_of_fresh hfresh) fun _ _ hg hmove => by
    rcases hmove with hstep | hother
    · exact hg.step hstep
    · exact hg.other hother

end Runs

/-! ### The end of the workers -/

def appRank : AppPlace → ℕ
  | .stopping .flagged _ => 4
  | .stopping .broadcasting _ => 3
  | .stopping .joinTx _ => 2
  | .stopping .joinRx _ => 1
  | _ => 0

def castRank : Option (Broadcast Unit) → ℕ
  | none => 0
  | some (.walks _ rest) => 2 * rest.length + 1
  | some (.holds _ _ rest) => 2 * rest.length + 2

def txRank (place : WaitPlace) : TxLoop → ℕ
  | .created | .working => 8
  | .top _ => 7
  | .waiting =>
    match place with
    | .woken _ _ => 6
    | _ => 5
  | .fetching => 4
  | .checking _ => 3
  | .leaving => 2
  | _ => 0

def rxRank : RxLoop → ℕ
  | .receiving => 3
  | .handling => 2
  | .top => 1
  | _ => 0

/-- What is left to do until the workers are joined. -/
def rank (g : Runner) : Rank :=
  .of (appRank g.app) (castRank (g.es.cast ())) (txRank (g.es.place g.thread) g.tx) (rxRank g.rx)

section Ranks

variable {g g' : Runner} {place : StopPlace} {started : Bool}

/-- The TX worker comes closer to its end. -/
theorem rank_tx {es' : EvtSystem Unit Unit ℕ} {tx : TxLoop} (hcast : es'.cast () = g.es.cast ())
    (hlt : txRank (es'.place g.thread) tx < txRank (g.es.place g.thread) g.tx) :
    rank { g with es := es', tx := tx } < g.rank :=
  Rank.of_lt_of.mpr (.inr ⟨rfl, .inr ⟨by dsimp only; rw [hcast], .inl hlt⟩⟩)

theorem rank_rx {rx : RxLoop} (hlt : rxRank rx < rxRank g.rx) : rank { g with rx := rx } < g.rank :=
  Rank.of_lt_of.mpr (.inr ⟨rfl, .inr ⟨rfl, .inr ⟨rfl, hlt⟩⟩⟩)

theorem rank_wait {es' : EvtSystem Unit Unit ℕ} (hcast : es'.cast () = g.es.cast ())
    (hplace : es'.place g.thread = .out ∨ ∃ events timed, es'.place g.thread = .sleeps events timed)
    (hlt : 5 < txRank (g.es.place g.thread) g.tx) :
    rank { g with es := es', tx := afterWait (es'.place g.thread) } < g.rank := by
  refine rank_tx hcast ?_
  rcases hplace with hplace | ⟨events, timed, hplace⟩ <;> rw [hplace]
  · exact (show (4 : ℕ) < 5 by decide).trans hlt
  · exact hlt

theorem Inv.rank_lt (h : g.Inv) (happ : g.app = .stopping place started) (hstep : Step g g') :
    g'.rank < g.rank := by
  have hstop : g.stopRequested = true := Phase.stop_requested (happ ▸ h.phase)
  cases hstep with
  | startFails hout => simp [hout] at happ
  | start hout => simp [hout] at happ
  | createTxFails hat => simp [hat] at happ
  | createTx hat => simp [hat] at happ
  | createRxFails hat => simp [hat] at happ
  | createRx hat => simp [hat] at happ
  | stopNone hout => simp [hout] at happ
  | stop hout => simp [hout] at happ
  | stopBroadcast hat hes =>
    refine Rank.of_lt_of.mpr (.inl ?_)
    simp [hat, appRank]
  | setFlags hes =>
    obtain ⟨-, flags, rest, hcast, hcast', -⟩ := Inv.walked_setFlags hes
    refine Rank.of_lt_of.mpr (.inr ⟨rfl, .inl ?_⟩)
    simp only [hcast, hcast', castRank, List.length_cons]
    omega
  | signal hes =>
    obtain ⟨-, flags, rest, hcast, hcast', -⟩ := h.walked_signal hes
    refine Rank.of_lt_of.mpr (.inr ⟨rfl, .inl ?_⟩)
    simp [hcast, hcast', castRank]
  | broadcastDone hes =>
    obtain ⟨-, ⟨flags, hcast⟩, hcast'⟩ := Inv.walked_broadcastDone hes
    obtain ⟨s, hat, hafter⟩ | ⟨-, hafter⟩ := afterBroadcast_cases g.app
    · refine Rank.of_lt_of.mpr (.inl ?_)
      simp [hat, appRank, afterBroadcast]
    · refine Rank.of_lt_of.mpr (.inr ⟨?_, .inl ?_⟩)
      · dsimp only
        rw [hafter]
      · simp [hcast, hcast', castRank]
  | joinTx hat hctx hjoin =>
    refine Rank.of_lt_of.mpr (.inl ?_)
    simp [hat, appRank]
  | joinTxFailed hat hjoin =>
    refine Rank.of_lt_of.mpr (.inl ?_)
    show appRank .out < appRank g.app
    rw [hat]
    decide
  | joinRx hat hctx hjoin =>
    refine Rank.of_lt_of.mpr (.inl ?_)
    show appRank .out < appRank g.app
    rw [hat]
    decide
  | txRegister htx hes =>
    cases hes with
    | register hfree hnew =>
      exact rank_tx rfl (by simp [htx, txRank])
  | txNext htx hflags =>
    exact rank_tx rfl (by simp [htx, txRank])
  | txWait htx hes =>
    obtain ⟨hout, ⟨-, rfl⟩ | ⟨-, rfl⟩⟩ := hes.wait_cases (by decide)
    · exact rank_wait rfl (.inl (Function.update_self ..)) (by simp [htx, txRank])
    · exact rank_wait rfl (.inr ⟨_, _, Function.update_self ..⟩) (by simp [htx, txRank])
  | txRecheck htx hes =>
    obtain ⟨events, timed, hwoken, ⟨-, rfl⟩ | ⟨-, rfl⟩⟩ := hes.recheck_cases
    · exact rank_wait rfl (.inl (Function.update_self ..)) (by simp [htx, hwoken, txRank])
    · exact rank_wait rfl (.inr ⟨_, _, Function.update_self ..⟩) (by simp [htx, hwoken, txRank])
  | txFetch htx hes =>
    cases hes with
    | getAndClear hfree =>
      exact rank_tx rfl (by simp [htx, txRank])
  | txStop htx hstop =>
    exact rank_tx rfl (by simp [htx, txRank])
  | txWork htx hno => simp [hstop] at hno
  | txWorked htx =>
    exact rank_tx rfl (by simp [htx, txRank])
  | txLeave htx hes =>
    cases hes with
    | unregister hfree =>
      exact rank_tx rfl (by simp [htx, txRank])
  | rxTop hrx => exact rank_rx (by simp [hrx, hstop, rxRank])
  | rxFrame hrx =>
    exact rank_rx (by simp [hrx, rxRank])
  | rxIdle hrx => exact rank_rx (by simp [hrx, hstop, rxRank])
  | rxHandled hrx =>
    exact rank_rx (by simp [hrx, rxRank])

end Ranks

section Ends

variable {g g' : Runner} {place : StopPlace} {started : Bool}

/-- The end of the workers is under way, and its broadcast does not come before the TX worker has
registered its listener. -/
def Sure (g : Runner) : Prop :=
  ∀ place started, g.app = .stopping place started →
    (place = .flagged → ¬TxCreated g.tx) ∧ (place ≠ .flagged → g.late = false)

/-- A broadcast that has begun goes on. -/
theorem can_broadcast {b : Broadcast Unit} (hcast : g.es.cast () = some b) :
    ∃ g', Step g g' := by
  cases b with
  | walks flags rest =>
    cases rest with
    | nil => exact ⟨_, .broadcastDone (.broadcastDone hcast)⟩
    | cons elp rest => exact ⟨_, .setFlags (.setFlags hcast)⟩
  | holds flags elp rest =>
    by_cases hsel : (g.es.listener elp).flags &&& (g.es.listener elp).wflags = 0
    · exact ⟨_, .signal (.silent hcast hsel)⟩
    · exact ⟨_, .signal (.signal hcast hsel)⟩

/-- The TX worker goes on while no broadcast is under way, unless it sleeps. -/
theorem Inv.can_tx (h : g.Inv) (hfree : g.es.cast () = none) (habsent : g.tx ≠ .absent)
    (hended : g.tx ≠ .ended) (hawake : g.tx = .waiting → g.es.place g.thread ≠ .sleeps txEvents false) :
    ∃ g', Step g g' := by
  cases htx : g.tx with
  | absent => exact absurd htx habsent
  | created =>
    refine ⟨_, .txRegister htx (.register hfree ?_)⟩
    rintro ⟨esp, hmem⟩
    rw [h.chain, htx] at hmem
    cases hmem
  | top cmFlags =>
    by_cases hflags : cmFlags = 0
    · subst hflags
      have hout : g.es.place g.thread = .out := h.out (by simp [htx])
      by_cases hnone : g.es.pending g.thread &&& txEvents = 0
      · exact ⟨_, .txWait htx (.waitSleeps hout hnone (by decide))⟩
      · exact ⟨_, .txWait htx (.waitMatches hout hnone)⟩
    · exact ⟨_, .txNext htx hflags⟩
  | waiting =>
    have hwoken := (h.waiting htx).resolve_left (hawake htx)
    by_cases hnone : g.es.pending g.thread &&& txEvents = 0
    · exact ⟨_, .txRecheck htx (.recheckSleeps hwoken hnone)⟩
    · exact ⟨_, .txRecheck htx (.recheckMatches hwoken hnone)⟩
  | fetching =>
    refine ⟨_, .txFetch htx (.getAndClear ?_)⟩
    rintro esp ⟨flags, rest, hcast⟩
    rw [hfree] at hcast
    cases hcast
  | checking cmFlags =>
    cases hstop : g.stopRequested with
    | true => exact ⟨_, .txStop htx hstop⟩
    | false => exact ⟨_, .txWork htx hstop⟩
  | working => exact ⟨{ g with tx := .top 0 }, .txWorked htx⟩
  | leaving => exact ⟨_, .txLeave htx (.unregister hfree)⟩
  | ended => exact absurd htx hended

theorem can_rx (habsent : g.rx ≠ .absent) (hended : g.rx ≠ .ended) : ∃ g', Step g g' := by
  cases hrx : g.rx with
  | absent => exact absurd hrx habsent
  | top => exact ⟨_, .rxTop hrx⟩
  | receiving => exact ⟨_, .rxIdle hrx⟩
  | handling => exact ⟨_, .rxHandled hrx⟩
  | ended => exact absurd hrx hended

/-- No stop gets stuck that is sure of the TX worker. -/
theorem Inv.can_step (h : g.Inv) (hsure : g.Sure) (happ : g.app = .stopping place started) :
    ∃ g', Step g g' := by
  obtain ⟨hflagged, hlate⟩ := hsure place started happ
  cases hcast : g.es.cast () with
  | some b => exact can_broadcast hcast
  | none =>
    have hphase := h.phase
    rw [happ] at hphase
    cases place with
    | flagged => exact ⟨_, .stopBroadcast happ (.broadcast hcast)⟩
    | broadcasting => exact absurd hcast (h.casting started happ)
    | joinTx =>
      obtain ⟨hctx, -, habsent, -, -⟩ := hphase.of_joinTx
      by_cases hended : g.tx = .ended
      · cases started with
        | true => exact ⟨_, .joinTx happ hctx fun _ => hended⟩
        | false => exact ⟨_, .joinTxFailed happ hended⟩
      · refine h.can_tx hcast habsent hended fun htx hsleeps => ?_
        -- what it waits for was raised
        have hraised := h.joining started happ (hlate (by simp)) (by rw [htx]; rfl)
        exact hraised (h.events.sleeps _ _ _ hsleeps)
    | joinRx =>
      obtain ⟨rfl, hctx, -, habsent⟩ := hphase.of_joinRx
      by_cases hended : g.rx = .ended
      · exact ⟨_, .joinRx happ hctx fun _ => hended⟩
      · exact can_rx habsent hended

/-- A step that leaves the application where it is. -/
theorem Sure.carry (h : g.Sure) (happ : g'.app = g.app) (hlate : g'.late = g.late)
    (hcreated : TxCreated g'.tx → TxCreated g.tx) : g'.Sure := by
  intro place started hat
  obtain ⟨hflagged, hrest⟩ := h place started (happ.symm.trans hat)
  exact ⟨fun hplace hnot => hflagged hplace (hcreated hnot), fun hplace => hlate.trans (hrest hplace)⟩

theorem Sure.of_out (happ : g.app = .out) : g.Sure := fun place started hat => by simp [happ] at hat

/-- The workers come to their end, or are there. -/
def Ending (g : Runner) : Prop := g.app = .out ∨ ∃ place started, g.app = .stopping place started

theorem not_created_afterWait (place : WaitPlace) : ¬TxCreated (afterWait place) := by
  cases place <;> simp [afterWait, TxCreated]

theorem Sure.step (h : g.Sure) (happ : g.app = .stopping place started) (hstep : Step g g') :
    g'.Sure ∧ g'.Ending := by
  have hending : g.Ending := .inr ⟨place, started, happ⟩
  cases hstep with
  | startFails hout => simp [hout] at happ
  | start hout => simp [hout] at happ
  | createTxFails hat => simp [hat] at happ
  | createTx hat => simp [hat] at happ
  | createRxFails hat => simp [hat] at happ
  | createRx hat => simp [hat] at happ
  | stopNone hout => simp [hout] at happ
  | stop hout => simp [hout] at happ
  | @stopBroadcast s es' hat hes =>
    refine ⟨fun place' started' hnew => ?_, .inr ⟨_, _, rfl⟩⟩
    cases hnew
    exact ⟨by simp, fun _ => by simpa using (h _ _ hat).1 rfl⟩
  | setFlags hes => exact ⟨h.carry rfl rfl id, hending⟩
  | signal hes => exact ⟨h.carry rfl rfl id, hending⟩
  | broadcastDone hes =>
    obtain ⟨s, hat, hafter⟩ | ⟨-, hafter⟩ := afterBroadcast_cases g.app
    · refine ⟨fun place' started' hnew => ?_, .inr ⟨_, _, hafter⟩⟩
      dsimp only at hnew
      rw [hafter] at hnew
      cases hnew
      exact ⟨by simp, fun _ => (h _ _ hat).2 (by simp)⟩
    · exact ⟨h.carry hafter rfl id, .inr ⟨_, _, hafter.trans happ⟩⟩
  | joinTx hat hctx hjoin =>
    refine ⟨fun place' started' hnew => ?_, .inr ⟨_, _, rfl⟩⟩
    cases hnew
    exact ⟨by simp, fun _ => (h _ _ hat).2 (by simp)⟩
  | joinTxFailed hat hjoin => exact ⟨.of_out rfl, .inl rfl⟩
  | joinRx hat hctx hjoin => exact ⟨.of_out rfl, .inl rfl⟩
  | txRegister htx hes => exact ⟨h.carry rfl rfl (by simp [TxCreated]), hending⟩
  | txNext htx hflags => exact ⟨h.carry rfl rfl (by simp [TxCreated]), hending⟩
  | txWait htx hes =>
    exact ⟨h.carry rfl rfl fun hno => absurd hno (not_created_afterWait _), hending⟩
  | txRecheck htx hes =>
    exact ⟨h.carry rfl rfl fun hno => absurd hno (not_created_afterWait _), hending⟩
  | txFetch htx hes => exact ⟨h.carry rfl rfl (by simp [TxCreated]), hending⟩
  | txStop htx hstop => exact ⟨h.carry rfl rfl (by simp [TxCreated]), hending⟩
  | txWork htx hstop => exact ⟨h.carry rfl rfl (by simp [TxCreated]), hending⟩
  | txWorked htx => exact ⟨h.carry rfl rfl (by simp [TxCreated]), hending⟩
  | txLeave htx hes => exact ⟨h.carry rfl rfl (by simp [TxCreated]), hending⟩
  | rxTop hrx => exact ⟨h.carry rfl rfl id, hending⟩
  | rxFrame hrx => exact ⟨h.carry rfl rfl id, hending⟩
  | rxIdle hrx => exact ⟨h.carry rfl rfl id, hending⟩
  | rxHandled hrx => exact ⟨h.carry rfl rfl id, hending⟩

/-- Both workers end, and the call returns. -/
theorem Inv.returns (h : g.Inv) (hsure : g.Sure) (hending : g.Ending) :
    Inevitable Step (fun g => g.app = .out) g := by
  refine .of_rank rank (fun g => g.Inv ∧ g.Sure ∧ g.Ending) ?_ ?_ ⟨h, hsure, hending⟩
  · rintro g ⟨h, hsure, hout | ⟨place, started, happ⟩⟩ hgoal
    · exact absurd hout hgoal
    · exact h.can_step hsure happ
  · rintro g g' ⟨h, hsure, hout | ⟨place, started, happ⟩⟩ hgoal hstep
    · exact absurd hout hgoal
    · exact ⟨⟨h.step hstep, hsure.step happ hstep⟩, h.rank_lt happ hstep⟩

/-- The broadcast of the stop has gone by a worker that has not registered, or is about to. -/
structure Missed (g : Runner) : Prop where
  inv : g.Inv
  place : (∃ started flags, g.app = .stopping .broadcasting started ∧ g.tx = .created ∧
      g.es.cast () = some (.walks flags [])) ∨
    ∃ started, g.app = .stopping .joinTx started ∧ g.es.cast () = none ∧
      (g.tx = .created ∨
        (g.tx = .top 0 ∨ g.tx = .waiting) ∧ g.es.pending g.thread &&& txEvents = 0)

theorem Missed.not_out (h : g.Missed) : g.app ≠ .out := by
  obtain ⟨s, f, happ, -, -⟩ | ⟨s, happ, -, -⟩ := h.place <;> simp [happ]

theorem Missed.step (h : g.Missed) (hstep : Step g g') : g'.Missed := by
  refine ⟨h.inv.step hstep, ?_⟩
  obtain ⟨s, f, happ, htx, hcast⟩ | ⟨s, happ, hcast, htx⟩ := h.place
  · cases hstep with
    | broadcastDone hes =>
      obtain ⟨-, -, hcast'⟩ := Inv.walked_broadcastDone hes
      refine .inr ⟨s, ?_, hcast', .inl htx⟩
      dsimp only
      rw [happ]
      rfl
    | txRegister hat hes =>
      cases hes with
      | register hfree hnew => simp [hcast] at hfree
    | setFlags hes =>
      obtain ⟨-, flags, rest, hwalks, -⟩ := Inv.walked_setFlags hes
      simp [hcast] at hwalks
    | signal hes =>
      obtain ⟨-, flags, rest, hholds, -⟩ := h.inv.walked_signal hes
      simp [hcast] at hholds
    | rxTop hrx => exact .inl ⟨s, f, happ, htx, hcast⟩
    | rxFrame hrx => exact .inl ⟨s, f, happ, htx, hcast⟩
    | rxIdle hrx => exact .inl ⟨s, f, happ, htx, hcast⟩
    | rxHandled hrx => exact .inl ⟨s, f, happ, htx, hcast⟩
    | _ => simp_all
  · have htxs : g.tx ≠ .ended := by
      rcases htx with htx | ⟨htx | htx, -⟩ <;> simp [htx]
    cases hstep with
    | txRegister hat hes =>
      have hnone := h.inv.created hat
      cases hes with
      | register hfree hnew =>
        refine .inr ⟨s, happ, hcast, .inr ⟨.inl rfl, ?_⟩⟩
        dsimp only
        rw [hnone, UInt32.zero_and]
    | txWait hat hes =>
      have hnone : g.es.pending g.thread &&& txEvents = 0 := by simpa [hat] using htx
      obtain ⟨-, ⟨hsome, -⟩ | ⟨-, rfl⟩⟩ := hes.wait_cases (by decide)
      · exact absurd hnone hsome
      · exact .inr ⟨s, happ, hcast, .inr ⟨.inr (by simp [afterWait]), hnone⟩⟩
    | txRecheck hat hes =>
      have hnone : g.es.pending g.thread &&& txEvents = 0 := by simpa [hat] using htx
      obtain ⟨events, timed, hwoken, hcases⟩ := hes.recheck_cases
      have hold := h.inv.waiting hat
      rw [hwoken] at hold
      obtain hno | hold := hold
      · cases hno
      · cases hold
        obtain ⟨hsome, -⟩ | ⟨-, rfl⟩ := hcases
        · exact absurd hnone hsome
        · exact .inr ⟨s, happ, hcast, .inr ⟨.inr (by simp [afterWait]), hnone⟩⟩
    | rxTop hrx => exact .inr ⟨s, happ, hcast, htx⟩
    | rxFrame hrx => exact .inr ⟨s, happ, hcast, htx⟩
    | rxIdle hrx => exact .inr ⟨s, happ, hcast, htx⟩
    | rxHandled hrx => exact .inr ⟨s, happ, hcast, htx⟩
    | setFlags hes =>
      obtain ⟨-, flags, rest, hwalks, -⟩ := Inv.walked_setFlags hes
      simp [hcast] at hwalks
    | signal hes =>
      obtain ⟨-, flags, rest, hholds, -⟩ := h.inv.walked_signal hes
      simp [hcast] at hholds
    | broadcastDone hes =>
      obtain ⟨-, ⟨flags, hwalks⟩, -⟩ := Inv.walked_broadcastDone hes
      simp [hcast] at hwalks
    | joinTx hat hctx hjoin =>
      have hphase := h.inv.phase
      rw [hat] at hphase
      obtain ⟨hctx', -⟩ := hphase.of_joinTx
      rw [hctx] at hctx'
      cases hctx'
      exact absurd (hjoin rfl) htxs
    | joinTxFailed hat hjoin => exact absurd hjoin htxs
    | _ => simp_all

theorem Missed.stays (h : g.Missed) : ¬Inevitable Step (fun g => g.app = .out) g :=
  Inevitable.not_of_invariant Missed (fun _ hmissed => hmissed.not_out) (fun _ _ hmissed => hmissed.step) h

/-- While the TX worker is not registered, a broadcast has nobody to go to. -/
theorem Inv.walks_nil {b : Broadcast Unit} (h : g.Inv) (htx : g.tx = .created)
    (hcast : g.es.cast () = some b) : ∃ flags, b = .walks flags [] := by
  have hahead := h.events.cast () b hcast
  have hchain := h.chain
  rw [htx] at hchain
  rw [hchain] at hahead
  have hnil : b.ahead = [] := List.suffix_nil.mp hahead
  cases b with
  | walks flags rest => exact ⟨flags, by rw [show rest = [] from hnil]⟩
  | holds flags elp rest => cases hnil

/-- A stop that has its broadcast before it and a worker that has not registered may miss it. -/
theorem Inv.may_miss (h : g.Inv) (happ : g.app = .stopping .flagged started) (htx : g.tx = .created) :
    ¬Inevitable Step (fun g => g.app = .out) g := by
  have hbroadcast {g : Runner} (h : g.Inv) (happ : g.app = .stopping .flagged started)
      (htx : g.tx = .created) (hfree : g.es.cast () = none) :
      ¬Inevitable Step (fun g => g.app = .out) g := by
    have hstep := Step.stopBroadcast happ (.broadcast hfree)
    have hchain := h.chain
    rw [htx] at hchain
    refine Inevitable.not_of_step (by simp [happ]) hstep (Missed.stays ⟨h.step hstep, .inl ?_⟩)
    refine ⟨started, 0xFFFFFFFF, rfl, htx, ?_⟩
    dsimp only
    rw [Function.update_self, hchain]
    rfl
  cases hcast : g.es.cast () with
  | none => exact hbroadcast h happ htx hcast
  | some b =>
    -- the broadcast of another thread comes to its end first
    obtain ⟨flags, rfl⟩ := h.walks_nil htx hcast
    have hstep := Step.broadcastDone (.broadcastDone hcast)
    have happ' : afterBroadcast g.app = .stopping .flagged started := by rw [happ]; rfl
    exact Inevitable.not_of_step (by simp [happ]) hstep
      (hbroadcast (h.step hstep) happ' htx rfl)

end Ends

section Results

variable {g : Runner} {place : StopPlace} {started : Bool}

/-- The station in every state: one context while the runner is there, both workers alive while it
runs, and nothing of them left when it has stopped. -/
structure Sound (g : Runner) : Prop where
  contexts : g.contexts = if g.context.isSome then 1 else 0
  runnerStarted : g.runnerStarted = true → g.context.isSome
  stopped : g.app = .out → g.context = none → TxGone g.tx ∧ RxGone g.rx ∧ g.es.chain () = []
  running : g.app = .out → g.context ≠ none →
    g.stopRequested = false ∧ TxAlive g.tx ∧ RxAlive g.rx
  /-- No listener is there that the worker would register once more. -/
  registers : g.tx = .created → ¬g.es.Registered ()
  /-- The worker leaves on request alone. -/
  leaves : g.tx = .leaving → g.stopRequested = true

end Results

/-- A station that was never started. -/
def idle : Runner where
  es :=
    { chain := fun _ => []
      cast := fun _ => none
      listener := fun _ =>
        { thread := 0, events := 0, wflags := 0, flags := 0, sent := [], got := [], fetched := [],
          told := false }
      pending := fun _ => 0
      place := fun _ => .out }
  context := none
  contexts := 0
  stopRequested := false
  runnerStarted := false
  app := .out
  result := .ok
  thread := 0
  tx := .absent
  rx := .absent
  late := false

theorem idle_fresh : idle.Fresh where
  es := ⟨fun _ => rfl, fun _ => rfl, fun _ => rfl⟩
  pending _ := rfl
  context := rfl
  contexts := rfl
  runnerStarted := rfl
  app := rfl
  tx := rfl
  rx := rfl

section Results

variable {g : Runner} {place : StopPlace} {started : Bool}

/-- A stop, or a start that fails, whose broadcast is not over. Where no other thread broadcasts and
no wait ends without a reason, it comes to its end in every run exactly if the TX worker has
registered its listener, or has ended, before that. -/
theorem stop_returns_iff (h : Reachable Fresh Moves g) (happ : g.app = .stopping place started)
    (hplace : place = .flagged ∨ place = .broadcasting) :
    Inevitable Step (fun g => g.app = .out) g ↔ g.tx ≠ .created := by
  have hinv := inv_of_reachable h
  constructor
  · rintro hreturns htx
    obtain rfl | rfl := hplace
    · exact hinv.may_miss happ htx hreturns
    · cases hcast : g.es.cast () with
      | none => exact hinv.casting started happ hcast
      | some b =>
        obtain ⟨flags, rfl⟩ := hinv.walks_nil htx hcast
        exact Missed.stays ⟨hinv, .inl ⟨started, flags, happ, htx, hcast⟩⟩ hreturns
  · intro htx
    have hnot : ¬TxCreated g.tx := by cases hat : g.tx <;> simp_all [TxCreated]
    refine hinv.returns (fun place' started' happ' => ⟨fun _ => hnot, fun hother => ?_⟩)
      (.inr ⟨place, started, happ⟩)
    rw [happ] at happ'
    cases happ'
    obtain rfl | rfl := hplace
    · exact absurd rfl hother
    · exact Bool.eq_false_iff.mpr fun hlate => hnot (hinv.early started happ hlate)

theorem stop_returns_iff_start_fails :
    (∃ g : Runner, g.app = .stopping .flagged false ∧ ¬Inevitable Step (fun g => g.app = .out) g) ∧
      ∃ g : Runner, g.app = .stopping .broadcasting false ∧
        Inevitable Step (fun g => g.app = .out) g := by
  have h₀ : Reachable Fresh Moves idle := .start idle_fresh
  have h₁ := h₀.tail (.inl (.start rfl rfl))
  have h₂ := h₁.tail (.inl (.createTx rfl))
  have h₃ := h₂.tail (.inl (.createRxFails rfl))
  have h₄ := h₃.tail (.inl (.txRegister rfl (.register rfl (by rintro ⟨_, ⟨⟩⟩))))
  have h₅ := h₄.tail (.inl (.stopBroadcast rfl (.broadcast rfl)))
  exact ⟨⟨_, rfl, fun hno => (stop_returns_iff h₃ rfl (.inl rfl)).mp hno rfl⟩,
    ⟨_, rfl, (stop_returns_iff h₅ rfl (.inr rfl)).mpr (by simp)⟩⟩

end Results

end Runner

end IoHdlc
