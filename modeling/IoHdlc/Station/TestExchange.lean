import IoHdlc.Core.NodeEmission
import IoHdlc.Core.PeerList
import IoHdlc.Core.TestFrames
import IoHdlc.Driver.PlainTransfer
import IoHdlc.Station.BufferFit

/-!
The TEST exchange of `ioHdlcPeerTest`, from the call to its return.

Two stations of one configuration are connected by an idle line that loses nothing. The call
registers the command, the transmit worker sends it, the drivers carry it to the other station,
whose workers send it back, and the call checks what returns. `TestScene.exchange` runs through
this with the sections of the workers and the receive machines of the drivers, and
`peerTest_succeeds_iff` says when it succeeds.
-/

namespace IoHdlc

/-! ### The exchange -/

/-- One pass of the transmit worker from its wait on, and one more where the first one changed to
the peer that has a request. -/
def Node.serve {n : Nat} (nd : Node n) (take : Takes) : Option (Node n × List Frame) :=
  (nd.act .txFetch).bind fun woken =>
    (woken.1.act (.txEntry take)).bind fun served =>
      match served.1.pc with
      | .switched _ _ => served.1.act (.txSwitched take)
      | _ => some served

/-- A frame for a driver whose transmit pipeline is empty. -/
def soleSending (fp : Frame) : Sending := { fp := fp, nfp := default, opening := true }

/-- What the driver at the other end of the line returns. -/
def carried (cfg : DrvConfig) (p : RxPort) (fp : Frame) : List Frame :=
  received cfg (p.feed cfg (streamOf ((soleSending fp).wire cfg))).rx

/-- The only element of a list. -/
def sole {α : Type} : List α → Option α
  | [x] => some x
  | _ => none

theorem eq_of_sole {α : Type} {xs : List α} {x : α} (h : sole xs = some x) : xs = [x] := by
  match xs, h with
  | [_], h => rw [Option.some.inj h]

/-- The two stations with the receive sides of their drivers. The drivers have one configuration. -/
structure TestScene (m n : Nat) where
  cfg : DrvConfig
  caller : Node m
  peer : Fin m
  callerPort : RxPort
  other : Node n
  otherPort : RxPort

/-- The four frames of an exchange, and what the call returns. -/
structure TestExchange where
  command : Frame
  arrived : Frame
  response : Frame
  returned : Frame
  result : Except Errno Unit

namespace TestScene

variable {m n : Nat}

/-- The call up to its wait, and the frame that the worker sends for it. -/
def callerSends (t : TestScene m n) (len : Nat) (fp : Frame) (take : Takes) :
    Option (Node m × Frame) :=
  (t.caller.act (.peer t.peer (.peerTest len (some fp)))).bind fun called =>
    (called.1.serve take).bind fun served =>
      (sole served.2).map fun command => (served.1, command)

/-- What the other station sends for the frame that arrived. -/
def otherSends (t : TestScene m n) (arrived : Frame) (take : Takes) : Option Frame :=
  (t.other.act (.receive arrived)).bind fun taken =>
    (taken.1.serve take).bind fun served => sole served.2

/-- What the call returns when a frame has come back. -/
def callReturns (t : TestScene m n) (len : Nat) (caller : Node m) (returned : Frame) :
    Option (Except Errno Unit) :=
  (caller.act (.receive returned)).bind fun taken =>
    (sTakeCompletedTestFrame (taken.1.link t.peer)).2.map fun echo =>
      peerTestResult taken.1.s echo len

/-- `fp` is the frame that the pool gives the call, `take` what it gives the workers. -/
def exchange (t : TestScene m n) (len : Nat) (fp : Frame) (take : Takes) : Option TestExchange :=
  (t.callerSends len fp take).bind fun sending =>
    (sole (carried t.cfg t.otherPort sending.2)).bind fun arrived =>
      (t.otherSends arrived take).bind fun response =>
        (sole (carried t.cfg t.callerPort response)).bind fun returned =>
          (t.callReturns len sending.1 returned).map fun result =>
            { command := sending.2, arrived := arrived, response := response, returned := returned,
              result := result }

end TestScene

/-- The command arrives as it was sent and reads as a TEST with P, the response carries the same
information field with F and arrives as it was sent, and the call returns 0. -/
structure TestExchange.Succeeds (cfg : DrvConfig) (fr : Framing) (x : TestExchange) : Prop where
  intact : x.arrived.octets = (soleSending x.command).plainContent cfg
  isUFrm : isUFrm (x.arrived.ctrl fr 0) = true
  function : x.arrived.ctrl fr 0 &&& IOHDLC_U_FUN_MASK = IOHDLC_U_TEST
  poll : getPF fr x.arrived = true
  echoed : uInfo fr x.response = uInfo fr x.arrived
  final : x.response.ctrl fr 0 = uCtrl IOHDLC_U_TEST true
  returned : x.returned.octets = (soleSending x.response).plainContent cfg
  result : x.result = .ok ()

/-! ### When it succeeds -/

/-- The worker waits for an event, and none is pending. -/
structure Node.Waits {n : Nat} (nd : Node n) : Prop where
  pc : nd.pc = .sched (.idle ∅)
  cmListener : nd.s.cmListener = ∅

/-- Two stations of one configuration without transparency, connected by an idle line: both workers
wait, no UM transaction is under way, the caller may send, no UI value waits and both receive
machines are between frames. -/
structure TestScene.Idle {m n : Nat} (t : TestScene m n) : Prop where
  plain : t.cfg.applyTransparency = false
  fcsSize : t.cfg.fcs.fcsSize ≤ 4
  frameOffset : t.caller.s.framing.frameOffset = t.cfg.frameFormatSize
  framing : t.other.s.framing = t.caller.s.framing
  mifls : (t.other.peer t.other.cPeer).mifls = (t.caller.peer t.peer).mifls
  addr : (t.caller.peer t.peer).addr = t.other.s.addr
  callerWaits : t.caller.Waits
  callerMaySend : sendOpportunity t.caller.s = true
  callerFree : ∀ i, (t.caller.peer i).umCmd = 0 ∧ (t.caller.peer i).umState = {}
  otherWaits : t.other.Waits
  otherFree : (t.other.peer t.other.cPeer).umState = {} ∧
    (t.other.peer t.other.cPeer).frmrCondition = false ∧
    (t.other.peer t.other.cPeer).uiTxPending = false
  callerPort : t.callerPort.Quiet
  otherPort : t.otherPort.Quiet

/-- The octets of the frame field, the header and the information field of a TEST. -/
def testContent (cfg : DrvConfig) (addr : UInt8) (len : Nat) : List UInt8 :=
  formatOctets cfg.frameFormatSize (cfg.frameFormatSize + 2 + len + cfg.fcs.fcsSize) ++
    testOctets addr len

/-- The octets of a TEST between its flags. -/
def testBody (cfg : DrvConfig) (addr : UInt8) (len : Nat) : List UInt8 :=
  cfg.fcs.append (testContent cfg addr len)

/-- The condition on the length, the addresses and the place of the peer. -/
structure TestScene.Passes {m n : Nat} (t : TestScene m n) (len : Nat) : Prop where
  /-- The frame is no fragment for the receiver. -/
  min : HDLC_BASIC_MIN_L ≤ t.cfg.frameFormatSize + 2 + len + t.cfg.fcs.fcsSize
  /-- It fits the buffers and the transmit length. -/
  fits : t.cfg.frameFormatSize + 2 + len + t.cfg.fcs.fcsSize < t.cfg.framesize
  total : t.cfg.frameFormatSize + 2 + len + t.cfg.fcs.fcsSize < 65535
  /-- The format field can express its length. -/
  limit : t.cfg.frameFormatSize ≠ 0 →
    t.cfg.frameFormatSize + 2 + len + t.cfg.fcs.fcsSize ≤ fffLimit t.cfg.frameFormatSize
  /-- A TYPE 0 length octet is no flag. -/
  noFlag : t.cfg.frameFormatSize = 1 → 1 + 2 + len + t.cfg.fcs.fcsSize ≠ 0x7E
  /-- Without a format field no octet is a flag. -/
  flagFree : t.cfg.frameFormatSize = 0 → IOHDLC_FLAG ∉ testBody t.cfg t.other.s.addr.toUInt8 len
  /-- In modulus 128 the octet behind the control octet is odd; the first one of the pattern is. -/
  poll : t.caller.s.framing.pfoctet = 0 ∨ 0 < len ∨
    (t.cfg.fcs.txComputeFn (testContent t.cfg t.other.s.addr.toUInt8 0) ++
      [IOHDLC_FLAG]).headD 0 &&& IOHDLC_PFx_BIT ≠ 0
  /-- The address of the other station is an octet, and not the caller's. -/
  addr : t.other.s.addr < 256 ∧ t.other.s.addr ≠ t.caller.s.addr
  /-- The worker is at the peer, or changes to it because it is not connected. -/
  reached : t.caller.cPeer = t.peer ∨ (t.caller.peer t.peer).isDisc = true

/-! ### The caller -/

/-- The caller behind its command: the worker is at the peer and the call waits for the echo. -/
structure Node.AwaitsEcho {n : Nat} (nd : Node n) (i : Fin n) (s : Station) (addr : UInt32) :
    Prop where
  cPeer : nd.cPeer = i
  umCmd : (nd.peer i).umCmd = IOHDLC_U_TEST
  sent : (nd.peer i).umState.sent = true
  peerAddr : (nd.peer i).addr = addr
  framing : nd.s.framing = s.framing
  addr : nd.s.addr = s.addr

/-- The pass of a worker with these flags, and one more where it changed to another peer. -/
def Node.serveFrom {n : Nat} (nd : Node n) (flags : EvtFlags) (take : Takes) :
    Option (Node n × List Frame) :=
  let served := nd.txEntry flags take
  match served.1.pc with
  | .switched _ _ => served.1.act (.txSwitched take)
  | _ => some served

/-- A waiting worker is woken by what was broadcast. -/
theorem Node.serve_eq {n : Nat} {nd : Node n} {flags : EvtFlags} (hpc : nd.pc = .sched (.idle ∅))
    (hlistener : nd.s.cmListener = flags) (hne : flags ≠ ∅) (take : Takes) :
    nd.serve take = Node.serveFrom { nd with
      s := { nd.s with cmListener := ∅ }, pc := .sched (.idle flags) } flags take := by
  simp only [serve, act, hpc, hlistener, ne_eq, hne, not_false_eq_true, and_self, if_true,
    Option.bind_some]
  rfl

namespace TestScene

variable {m n : Nat} {t : TestScene m n} {len : Nat} {fp : Frame} {take : Takes}

/-- The events of a request and of a received command, as the worker fetches them. -/
theorem linkReq_flags : (∅ ∪ ({.linkReq} : EvtFlags) ∩ flagsMask) = {.linkReq} := by decide

theorem umRecvd_flags : (∅ ∪ ({.umRecvd} : EvtFlags) ∩ flagsMask) = {.umRecvd} := by decide

/-- The pass at the peer sends the command. -/
theorem finishPass_test {nd : Node m} {command : Frame}
    (hcmd : (nd.peer nd.cPeer).umCmd = IOHDLC_U_TEST)
    (hapi : (nd.peer nd.cPeer).umApiFrame = some command) (hstate : (nd.peer nd.cPeer).umState = {})
    (hopp : sendOpportunity nd.s = true) (take : Takes) :
    ∃ nd', nd.finishPass (serveRequest (nd.link nd.cPeer) ∅ false take) = (nd', [command]) ∧
      nd'.pc = .sched (.idle ∅) ∧
      nd'.AwaitsEcho nd.cPeer nd.s (nd.peer nd.cPeer).addr := by
  have hserve := serveRequest_test (l := nd.link nd.cPeer) hcmd hapi hstate hopp take
  obtain ⟨hcmd', hsent, haddr, hframing, hown⟩ := uCommandSent_test (l := nd.link nd.cPeer) hcmd
  refine ⟨_, by rw [hserve]; rfl, rfl, ?_⟩
  constructor
  · rfl
  all_goals
    simp only [Node.setLink_peer_self]
    assumption

/-- The caller when its worker has fetched the request. -/
structure Requested (t : TestScene m n) (command : Frame) (nd : Node m) : Prop where
  s : nd.s = t.caller.s
  peer : nd.peer = Function.update t.caller.peer t.peer { t.caller.peer t.peer with
    umCmd := IOHDLC_U_TEST, umApiFrame := some command }
  cPeer : nd.cPeer = t.caller.cPeer

theorem exists_requested (h : t.Idle)
    (hok : (peerTestStart (t.caller.link t.peer) len (some fp)).2 = .ok ()) (take : Takes) :
    ∃ called woken : Node m,
      t.caller.act (.peer t.peer (.peerTest len (some fp))) = some (called, []) ∧
      called.serve take = woken.serveFrom {.linkReq} take ∧
      t.Requested (testCommand t.caller.s (t.caller.peer t.peer) fp len) woken := by
  obtain ⟨-, -, hstart⟩ := peerTestStart_ok hok
  obtain ⟨called, hcalled⟩ : ∃ called : Node m, called =
      { t.caller.setLink t.peer (peerTestStart (t.caller.link t.peer) len (some fp)).1 with
        writer := Function.update t.caller.writer t.peer (t.caller.writer t.peer) } := ⟨_, rfl⟩
  have hs : called.s = t.caller.s.broadcastFlags {.linkReq} := by
    rw [hcalled]
    exact congrArg Link.s hstart
  have hpeer : called.peer = Function.update t.caller.peer t.peer { t.caller.peer t.peer with
      umCmd := IOHDLC_U_TEST
      umApiFrame := some (testCommand t.caller.s (t.caller.peer t.peer) fp len) } := by
    rw [hcalled]
    exact congrArg (fun l => Function.update t.caller.peer t.peer l.p) hstart
  have hlistener : called.s.cmListener = {.linkReq} := by
    rw [hs]
    change t.caller.s.cmListener ∪ {.linkReq} ∩ flagsMask = {.linkReq}
    rw [h.callerWaits.cmListener]
    exact linkReq_flags
  have hpc : called.pc = .sched (.idle ∅) := by
    rw [hcalled]
    exact h.callerWaits.pc
  refine ⟨called, _, by rw [hcalled]; rfl,
    Node.serve_eq hpc hlistener (Finset.singleton_ne_empty _) take, ?_⟩
  constructor
  · change { called.s with cmListener := ∅ } = t.caller.s
    rw [hs, ← h.callerWaits.cmListener]
    rfl
  · exact hpeer
  · rw [hcalled]
    rfl

/-- Only the peer of the call has a command. -/
theorem Requested.umCmd (h : t.Idle) {command : Frame} {nd : Node m} (hnd : t.Requested command nd)
    (i : Fin m) : (nd.peer i).umCmd ≠ 0 ↔ i = t.peer := by
  rw [hnd.peer]
  by_cases hi : i = t.peer
  · rw [hi, Function.update_self]
    have hne : IOHDLC_U_TEST ≠ 0 := by decide
    exact iff_of_true hne rfl
  · rw [Function.update_of_ne hi, (h.callerFree i).1]
    exact iff_of_false (fun hne => hne rfl) hi

theorem requestsOtherPeer_iff (h : t.Idle) {command : Frame} {nd : Node m}
    (hnd : t.Requested command nd) :
    requestsOtherPeer (nd.link nd.cPeer) {.linkReq} = true ↔ t.caller.cPeer ≠ t.peer := by
  have hcmd := hnd.umCmd h nd.cPeer
  rw [hnd.cPeer] at hcmd ⊢
  have hsent : (nd.peer t.caller.cPeer).umState.sent = false := by
    rw [hnd.peer]
    by_cases hi : t.caller.cPeer = t.peer
    · rw [hi, Function.update_self]
      exact congrArg UmState.sent (h.callerFree t.peer).2
    · rw [Function.update_of_ne hi, (h.callerFree t.caller.cPeer).2]
  have hmem : Evt.linkReq ∈ ({.linkReq} : EvtFlags) := Finset.mem_singleton_self _
  rw [requestsOtherPeer, Node.link_p, hsent]
  simp only [hmem, decide_true, Bool.true_and, Bool.not_false, Bool.and_true, decide_eq_true_eq]
  rw [ne_eq, ← hcmd, not_not]

theorem linkReq_served : ({.linkReq} : EvtFlags) \ uCommandFlags = ∅ ∧
    decide (Evt.cRplytmo ∈ ({.linkReq} : EvtFlags)) = false := by decide

/-- The pass of a worker that is at the peer. -/
theorem Requested.pass (h : t.Idle) {command : Frame} {nd nd' : Node m}
    (hnd : t.Requested command nd) (hs : nd'.s = nd.s) (hp : nd'.peer = nd.peer)
    (hc : nd'.cPeer = t.peer) (take : Takes) :
    ∃ caller, nd'.finishPass (serveRequest (nd'.link nd'.cPeer) ∅ false take) =
        (caller, [command]) ∧ caller.pc = .sched (.idle ∅) ∧
      caller.AwaitsEcho t.peer t.caller.s t.other.s.addr := by
  have hcur : nd'.peer nd'.cPeer = { t.caller.peer t.peer with
      umCmd := IOHDLC_U_TEST, umApiFrame := some command } := by
    rw [hp, hc, hnd.peer, Function.update_self]
  have hcmd : (nd'.peer nd'.cPeer).umCmd = IOHDLC_U_TEST := by rw [hcur]
  have hapi : (nd'.peer nd'.cPeer).umApiFrame = some command := by rw [hcur]
  have hstate : (nd'.peer nd'.cPeer).umState = {} := by
    rw [hcur]
    exact (h.callerFree t.peer).2
  have hopp : sendOpportunity nd'.s = true := by
    rw [hs, hnd.s]
    exact h.callerMaySend
  obtain ⟨caller, heq, hpc, hawaits⟩ := finishPass_test hcmd hapi hstate hopp take
  refine ⟨caller, heq, hpc, ?_⟩
  rw [hcur, hs, hnd.s, hc] at hawaits
  rw [← h.addr]
  exact hawaits

/-- The search for a pending peer only finds one that is not connected. -/
theorem Requested.nextPeer (h : t.Idle) {command : Frame} {nd : Node m}
    (hnd : t.Requested command nd) :
    nd.ioHdlcNextPeer true =
      if (t.caller.peer t.peer).isDisc then t.peer else t.caller.cPeer := by
  have hpeer : (nd.peer t.peer).isDisc = (t.caller.peer t.peer).isDisc := by
    rw [hnd.peer, Function.update_self]
    rfl
  have haccepts (k : Fin m) : nd.accepts true k = true ↔
      (t.caller.peer t.peer).isDisc = true ∧ k = t.peer := by
    simp only [Node.accepts, if_true, Bool.and_eq_true, decide_eq_true_eq, hnd.umCmd h k]
    refine and_congr_left fun hk => ?_
    rw [hk, hpeer]
  split
  next hdisc =>
    exact Node.ioHdlcNextPeer_only ((haccepts t.peer).mpr ⟨hdisc, rfl⟩)
      fun k hk => ((haccepts k).mp hk).2
  next hconn =>
    rw [← hnd.cPeer]
    exact (nd.ioHdlcNextPeer_cases true).resolve_right fun hk => hconn ((haccepts _).mp hk).1

theorem uCommandDue_linkReq (l : Link) : uCommandDue l {.linkReq} = true := by simp [uCommandDue]

/-- The worker at the peer, or changed to it, sends the command. -/
theorem serveFrom_sends (h : t.Idle) {command : Frame} {nd : Node m} (hnd : t.Requested command nd)
    (hreach : t.caller.cPeer = t.peer ∨ (t.caller.peer t.peer).isDisc = true) (take : Takes) :
    ∃ caller, nd.serveFrom {.linkReq} take = some (caller, [command]) ∧
      caller.AwaitsEcho t.peer t.caller.s t.other.s.addr := by
  obtain ⟨hflags, htimed⟩ := linkReq_served
  by_cases hc : t.caller.cPeer = t.peer
  · have hown : requestsOtherPeer (nd.link nd.cPeer) {.linkReq} = false := by
      rw [Bool.eq_false_iff, ne_eq, requestsOtherPeer_iff h hnd, not_not]
      exact hc
    obtain ⟨caller, heq, hpc, hawaits⟩ := hnd.pass h rfl rfl (hnd.cPeer.trans hc) take
    refine ⟨caller, ?_, hawaits⟩
    simp only [Node.serveFrom, Node.txEntry, uCommandDue_linkReq, hown, if_true, Bool.false_eq_true,
      if_false, hflags, htimed, heq, hpc]
  · have hother : requestsOtherPeer (nd.link nd.cPeer) {.linkReq} = true :=
      (requestsOtherPeer_iff h hnd).mpr hc
    have htarget : nd.ioHdlcNextPeer true = t.peer := by
      rw [hnd.nextPeer h, if_pos (hreach.resolve_left hc)]
    have hcmd := (hnd.umCmd h t.peer).mpr rfl
    -- The first pass only changes the peer; the second one sends.
    let changed : Node m := { nd with cPeer := t.peer, pc := .switched ∅ false }
    have hs : changed.s = nd.s := rfl
    obtain ⟨caller, heq, -, hawaits⟩ := hnd.pass h hs rfl rfl take
    refine ⟨caller, ?_, hawaits⟩
    simp only [Node.serveFrom, Node.txEntry, uCommandDue_linkReq, hother, if_true, htarget, hflags,
      htimed, hcmd, ne_eq, not_false_eq_true]
    exact congrArg some heq

/-- Otherwise the request is dropped. -/
theorem serveFrom_drops (h : t.Idle) {command : Frame} {nd : Node m} (hnd : t.Requested command nd)
    (hreach : ¬(t.caller.cPeer = t.peer ∨ (t.caller.peer t.peer).isDisc = true)) (take : Takes) :
    (nd.serveFrom {.linkReq} take).map Prod.snd = some [] := by
  rw [not_or] at hreach
  have hother : requestsOtherPeer (nd.link nd.cPeer) {.linkReq} = true :=
    (requestsOtherPeer_iff h hnd).mpr hreach.1
  have htarget : nd.ioHdlcNextPeer true = t.caller.cPeer := by
    rw [hnd.nextPeer h, if_neg hreach.2]
  have hcmd : (nd.peer t.caller.cPeer).umCmd = 0 := by
    by_contra hne
    exact hreach.1 ((hnd.umCmd h _).mp hne)
  simp only [Node.serveFrom, Node.txEntry, uCommandDue_linkReq, hother, if_true, htarget, hcmd,
    ne_eq, not_true_eq_false, if_false, Option.map_some]

theorem callerSends_some (h : t.Idle)
    (hok : (peerTestStart (t.caller.link t.peer) len (some fp)).2 = .ok ())
    (hreach : t.caller.cPeer = t.peer ∨ (t.caller.peer t.peer).isDisc = true) (take : Takes) :
    ∃ caller, t.callerSends len fp take =
        some (caller, testCommand t.caller.s (t.caller.peer t.peer) fp len) ∧
      caller.AwaitsEcho t.peer t.caller.s t.other.s.addr := by
  obtain ⟨called, woken, hcalled, hserve, hwoken⟩ := exists_requested h hok take
  obtain ⟨caller, hfrom, hawaits⟩ := serveFrom_sends h hwoken hreach take
  refine ⟨caller, ?_, hawaits⟩
  rw [callerSends, hcalled, Option.bind_some, hserve, hfrom]
  rfl

theorem callerSends_none (h : t.Idle)
    (hok : (peerTestStart (t.caller.link t.peer) len (some fp)).2 = .ok ())
    (hreach : ¬(t.caller.cPeer = t.peer ∨ (t.caller.peer t.peer).isDisc = true)) (take : Takes) :
    t.callerSends len fp take = none := by
  obtain ⟨called, woken, hcalled, hserve, hwoken⟩ := exists_requested h hok take
  obtain ⟨⟨caller, sent⟩, hfrom, hsent⟩ :=
    Option.map_eq_some_iff.mp (serveFrom_drops h hwoken hreach take)
  obtain rfl : sent = [] := hsent
  rw [callerSends, hcalled, Option.bind_some, hserve, hfrom]
  rfl

/-- A U frame at a station. -/
theorem receive_uFrame {n : Nat} {nd : Node n} {addr : UInt8} {fp : Frame}
    (htest : TestFrame nd.s.framing addr len fp) :
    nd.act (.receive fp) =
      some (nd.setLink nd.cPeer (handleUFrame (Endpoint.lineBusy (nd.link nd.cPeer)) fp), []) := by
  rw [Node.act, Node.receive, htest.isUFrm, if_pos rfl]

/-- The echo of the other station ends the call. -/
theorem callReturns_ok {caller : Node m} (hc : caller.AwaitsEcho t.peer t.caller.s t.other.s.addr)
    {addr : UInt8} {returned : Frame} (htest : TestFrame t.caller.s.framing addr len returned)
    (hown : addr.toUInt32 ≠ t.caller.s.addr) (hpeer : addr.toUInt32 = t.other.s.addr)
    (hpf : getPF t.caller.s.framing returned = true) :
    t.callReturns len caller returned = some (.ok ()) := by
  rw [← hc.framing] at htest hpf
  rw [← hc.addr] at hown
  rw [← hc.peerAddr] at hpeer
  obtain ⟨htake, hframing⟩ := handleUFrame_echo (l := Endpoint.lineBusy (caller.link t.peer))
    htest hown hpeer hc.umCmd hc.sent hpf
  have hresult : peerTestResult (handleUFrame (Endpoint.lineBusy (caller.link t.peer)) returned).s
      returned len = .ok () := by
    replace htest : TestFrame (Endpoint.lineBusy (caller.link t.peer)).s.framing addr len
      returned := htest
    rw [← hframing] at htest
    exact htest.peerTestResult
  rw [callReturns, receive_uFrame htest, Option.bind_some, hc.cPeer, Node.setLink_link, htake,
    Option.map_some]
  exact congrArg some hresult

/-- With the caller's own address the call waits on. -/
theorem callReturns_none {caller : Node m} (hc : caller.AwaitsEcho t.peer t.caller.s t.other.s.addr)
    {addr : UInt8} {returned : Frame} (htest : TestFrame t.caller.s.framing addr len returned)
    (hown : addr.toUInt32 = t.caller.s.addr) : t.callReturns len caller returned = none := by
  rw [← hc.framing] at htest
  rw [← hc.addr] at hown
  have htake := handleUFrame_ownAddress (l := Endpoint.lineBusy (caller.link t.peer))
    htest hown hc.umCmd hc.sent
  rw [callReturns, receive_uFrame htest, Option.bind_some, hc.cPeer, Node.setLink_link, htake]
  rfl

/-! ### The other station -/

/-- A pass that ends with the current peer. -/
theorem finishPass_serveFrom {nd : Node n} {flags : EvtFlags} {r : Pass} (take : Takes)
    (h : nd.txEntry flags take = nd.finishPass r) :
    (nd.serveFrom flags take).map Prod.snd = some r.sent := by
  -- The worker is not behind a change of the peer, so there is no second pass.
  have hpc (flags : EvtFlags) (timedOut : Bool) :
      (nd.finishPass r).1.pc ≠ .switched flags timedOut := by
    simp only [Node.finishPass]
    split <;> simp
  simp only [Node.serveFrom, h]
  rfl

/-- The other station when its worker has fetched the event of the command. -/
structure Asked (t : TestScene m n) (arrived : Frame) (l : Link) : Prop where
  framing : l.s.framing = t.other.s.framing
  addr : l.s.addr = t.other.s.addr
  pRcved : getPF t.other.s.framing arrived = true → l.s.pfState.pRcved = true
  umState : l.p.umState = { rcved := true }
  umCmd : l.p.umCmd = IOHDLC_U_TEST
  umRsp : l.p.umRsp = IOHDLC_U_TEST
  umRspFrame : l.p.umRspFrame = some arrived
  uiTxPending : l.p.uiTxPending = false

theorem exists_asked (h : t.Idle) {addr : UInt8} {arrived : Frame}
    (htest : TestFrame t.other.s.framing addr len arrived) (hown : addr.toUInt32 = t.other.s.addr)
    (hlen : len ≤ (t.other.peer t.other.cPeer).mifls) (take : Takes) :
    ∃ taken woken : Node n, t.other.act (.receive arrived) = some (taken, []) ∧
      taken.serve take = woken.serveFrom {.umRecvd} take ∧
      t.Asked arrived (woken.link woken.cPeer) := by
  obtain ⟨hstate, hfrmr, hui⟩ := h.otherFree
  have hhandle := handleUFrame_command (l := Endpoint.lineBusy (t.other.link t.other.cPeer))
    htest hown hstate hfrmr hlen
  have hact := receive_uFrame htest
  generalize handleUFrame (Endpoint.lineBusy (t.other.link t.other.cPeer)) arrived = l
    at hhandle hact
  have hlistener : (t.other.setLink t.other.cPeer l).s.cmListener = {.umRecvd} := by
    rw [hhandle]
    change t.other.s.cmListener ∪ {.umRecvd} ∩ flagsMask = {.umRecvd}
    rw [h.otherWaits.cmListener]
    exact umRecvd_flags
  have hpc : (t.other.setLink t.other.cPeer l).pc = .sched (.idle ∅) := h.otherWaits.pc
  refine ⟨_, _, hact, Node.serve_eq hpc hlistener (Finset.singleton_ne_empty _) take, ?_⟩
  have hlink : (t.other.setLink t.other.cPeer l).link t.other.cPeer = l := Node.setLink_link ..
  have hasked : t.Asked arrived { l with s := { l.s with cmListener := ∅ } } := by
    rw [hhandle]
    exact ⟨rfl, rfl, fun hpf => (congrArg (_ || ·) hpf).trans (Bool.or_true _), rfl, rfl, rfl, rfl,
      hui⟩
  rw [← hlink] at hasked
  exact hasked

/-- The echo. -/
theorem otherSends_some (h : t.Idle) {addr : UInt8} {arrived : Frame}
    (htest : TestFrame t.other.s.framing addr len arrived) (hown : addr.toUInt32 = t.other.s.addr)
    (hpf : getPF t.other.s.framing arrived = true)
    (hlen : len ≤ (t.other.peer t.other.cPeer).mifls)
    (h16 : t.other.s.framing.frameOffset + 2 + len < 65536) (take : Takes) :
    ∃ response, t.otherSends arrived take = some response ∧
      TestFrame t.other.s.framing t.other.s.addr.toUInt8 len response := by
  obtain ⟨taken, woken, hact, hserve, hasked⟩ := exists_asked h htest hown hlen take
  rw [← hasked.framing] at htest h16
  obtain ⟨response, hsent, hframe⟩ := servePeer_echo htest h16 hasked.umState hasked.umCmd
    hasked.umRsp hasked.umRspFrame (hasked.pRcved hpf) hasked.uiTxPending take
  rw [hasked.framing, hasked.addr] at hframe
  have hentry : woken.txEntry {.umRecvd} take =
      woken.finishPass (servePeer (woken.link woken.cPeer) {.umRecvd} take) := by
    have hdue : uCommandDue (woken.link woken.cPeer) {.umRecvd} = false := by
      rw [uCommandDue, hasked.umState]
      rfl
    simp only [Node.txEntry, hdue, Bool.false_eq_true, if_false]
  have hsends := finishPass_serveFrom take hentry
  rw [hsent] at hsends
  obtain ⟨⟨node, sent⟩, hnode, hone⟩ := Option.map_eq_some_iff.mp hsends
  obtain rfl : sent = [response] := hone
  refine ⟨response, ?_, hframe⟩
  rw [otherSends, hact, Option.bind_some, hserve, hnode]
  rfl

/-- A command with another address is not for this station. -/
theorem otherSends_none (h : t.Idle) {addr : UInt8} {arrived : Frame}
    (htest : TestFrame t.other.s.framing addr len arrived) (hown : addr.toUInt32 ≠ t.other.s.addr)
    (take : Takes) : t.otherSends arrived take = none := by
  have hhandle := handleUFrame_otherAddress (l := Endpoint.lineBusy (t.other.link t.other.cPeer))
    htest hown h.otherFree.1
  have hnone : (t.other.setLink t.other.cPeer (Endpoint.lineBusy (t.other.link t.other.cPeer))).act
      .txFetch = none := by
    have hpc := h.otherWaits.pc
    have hlistener := h.otherWaits.cmListener
    simp only [Node.act, Node.setLink, hpc, Endpoint.lineBusy, Node.link_s, hlistener, ne_eq,
      not_true_eq_false, and_false, if_false]
  rw [otherSends, receive_uFrame htest, hhandle, Option.bind_some, Node.serve, hnone]
  rfl

/-! ### The line -/

section Line

variable {cfg : DrvConfig} {fr : Framing} {addr : UInt8} {out : Frame} {p : RxPort}

theorem field_le_elen (hoff : fr.frameOffset = cfg.frameFormatSize)
    (htest : TestFrame fr addr len fp) : cfg.frameFormatSize ≤ (soleSending fp).fp.elen := by
  change cfg.frameFormatSize ≤ fp.elen
  rw [htest.elen, hoff, Nat.add_assoc]
  exact Nat.le_add_right _ _

theorem plainContent_soleSending (hoff : fr.frameOffset = cfg.frameFormatSize)
    (htest : TestFrame fr addr len fp) :
    (soleSending fp).plainContent cfg = testContent cfg addr len := by
  have hoctets := htest.drop_octets
  have helen := htest.elen
  rw [hoff] at hoctets helen
  rw [Sending.plainContent, soleSending, hoctets, helen]
  rfl

theorem plainBody_soleSending (hoff : fr.frameOffset = cfg.frameFormatSize)
    (htest : TestFrame fr addr len fp) :
    (soleSending fp).plainBody cfg = testBody cfg addr len := by
  rw [Sending.plainBody, plainContent_soleSending hoff htest]
  rfl

/-- What arrives with the octets of a TEST is one. -/
theorem testFrame_of_content (hoff : fr.frameOffset = cfg.frameFormatSize)
    (h : out.octets = testContent cfg addr len) : TestFrame fr addr len out :=
  .of_octets (by rw [length_formatOctets cfg.fff_le, hoff]) h

/-- A TEST that survives the line arrives as it was sent. Without an information field it is the
octet behind the header that is taken for the second control octet in modulus 128. -/
theorem carried_testFrame (hoff : fr.frameOffset = cfg.frameFormatSize)
    (hnt : cfg.applyTransparency = false) (htest : TestFrame fr addr len fp)
    (h : (soleSending fp).Survives cfg) (hp : p.Quiet) :
    ∃ out, carried cfg p fp = [out] ∧ out.octets = testContent cfg addr len ∧
      (getPF fr out = true ↔ fr.pfoctet = 0 ∨ 0 < len ∨
        (cfg.fcs.txComputeFn (testContent cfg addr 0) ++ [IOHDLC_FLAG]).headD 0 &&&
          IOHDLC_PFx_BIT ≠ 0) := by
  have hfield := field_le_elen hoff htest
  obtain ⟨out, hcarried, hoctets, hframe⟩ :=
    h.received hnt hfield rfl hp (streamOf ((soleSending fp).wire cfg)) (map_fst_streamOf _)
  rw [plainContent_soleSending hoff htest] at hoctets
  rw [plainBody_soleSending hoff htest] at hframe
  have hout := testFrame_of_content hoff hoctets
  refine ⟨out, hcarried, hoctets, ?_⟩
  by_cases h8 : fr.pfoctet = 0
  · exact iff_of_true (hout.getPF_mod8 h8) (.inl h8)
  by_cases hlen : 0 < len
  · exact iff_of_true (hout.getPF_of_info hlen) (.inr (.inl hlen))
  obtain rfl : len = 0 := by omega
  have hbehind : out.frame (fr.frameOffset + 2) =
      (cfg.fcs.txComputeFn (testContent cfg addr 0) ++ [IOHDLC_FLAG]).headD 0 := by
    have hlength : (testContent cfg addr 0).length = fr.frameOffset + 2 := by
      rw [testContent, List.length_append, length_formatOctets cfg.fff_le, length_testOctets, hoff]
    refine hframe _ _ ?_
    rw [testBody, FcsPolicy.append, List.append_assoc, List.getElem?_append_right hlength.le,
      hlength, Nat.sub_self, ← List.head?_eq_getElem?, List.headD_eq_head?_getD]
    cases cfg.fcs.txComputeFn (testContent cfg addr 0) <;> rfl
  rw [getPF_extended h8, hbehind, or_iff_right h8, or_iff_right hlen]

/-- A TEST that arrives as it was sent survived. -/
theorem survives_of_carried (hoff : fr.frameOffset = cfg.frameFormatSize)
    (hnt : cfg.applyTransparency = false) (hfcs : cfg.fcs.fcsSize ≤ 4)
    (htest : TestFrame fr addr len fp) (hp : p.Quiet) (hout : sole (carried cfg p fp) = some out)
    (hoctets : out.octets = (soleSending fp).plainContent cfg) : (soleSending fp).Survives cfg := by
  have hfield := field_le_elen hoff htest
  have hmem : out ∈ carried cfg p fp := by
    rw [eq_of_sole hout]
    exact List.mem_singleton_self out
  exact Sending.survives_of_received hnt hfcs hfield rfl hp _ (map_fst_streamOf _) hmem hoctets

end Line

/-! ### The whole exchange -/

/-- The parts of an exchange. -/
theorem exchange_eq_some {x : TestExchange} :
    t.exchange len fp take = some x ↔
      ∃ caller, t.callerSends len fp take = some (caller, x.command) ∧
        sole (carried t.cfg t.otherPort x.command) = some x.arrived ∧
        t.otherSends x.arrived take = some x.response ∧
        sole (carried t.cfg t.callerPort x.response) = some x.returned ∧
        t.callReturns len caller x.returned = some x.result := by
  simp only [exchange, Option.bind_eq_some_iff, Option.map_eq_some_iff]
  constructor
  · rintro ⟨sending, hsends, arrived, harrived, response, hresponse, returned, hreturned, result,
      hresult, rfl⟩
    exact ⟨sending.1, hsends, harrived, hresponse, hreturned, hresult⟩
  · rintro ⟨caller, hsends, harrived, hresponse, hreturned, hresult⟩
    exact ⟨_, hsends, _, harrived, _, hresponse, _, hreturned, _, hresult, rfl⟩

/-- The command that the call registers. -/
theorem testCommand_caller (h : t.Idle)
    (hok : (peerTestStart (t.caller.link t.peer) len (some fp)).2 = .ok ()) :
    TestFrame t.caller.s.framing t.other.s.addr.toUInt8 len
      (testCommand t.caller.s (t.caller.peer t.peer) fp len) := by
  rw [← h.addr]
  exact testCommand_testFrame _ _ fp (peerTestStart_ok hok).2.1

/-- What the other station sends for an accepted length. -/
theorem otherSends_testFrame (h : t.Idle)
    (hok : (peerTestStart (t.caller.link t.peer) len (some fp)).2 = .ok ())
    (htotal : t.cfg.frameFormatSize + 2 + len + t.cfg.fcs.fcsSize < 65535) {arrived : Frame}
    (htest : TestFrame t.caller.s.framing t.other.s.addr.toUInt8 len arrived)
    (haddr : t.other.s.addr.toUInt8.toUInt32 = t.other.s.addr)
    (hpf : getPF t.caller.s.framing arrived = true) (take : Takes) :
    ∃ response, t.otherSends arrived take = some response ∧
      TestFrame t.caller.s.framing t.other.s.addr.toUInt8 len response := by
  have hmifls : len ≤ (t.other.peer t.other.cPeer).mifls := by
    rw [h.mifls]
    exact (peerTestStart_ok hok).1
  have h16 : t.other.s.framing.frameOffset + 2 + len < 65536 := by
    rw [h.framing, h.frameOffset]
    omega
  rw [← h.framing] at htest hpf ⊢
  exact otherSends_some h htest haddr hpf hmifls h16 take

/-- An octet is the address of a station when that is below 256. -/
theorem toUInt32_toUInt8_iff (addr : UInt32) : addr.toUInt8.toUInt32 = addr ↔ addr < 256 := by
  have hmod : addr.toUInt8.toUInt32.toNat = addr.toNat % 256 := by simp
  rw [← UInt32.toNat_inj, hmod, UInt32.lt_iff_toNat_lt]
  change addr.toNat % 256 = addr.toNat ↔ addr.toNat < 256
  omega

theorem Passes.survives (h : t.Idle) (hpasses : t.Passes len) {fp : Frame}
    (htest : TestFrame t.caller.s.framing t.other.s.addr.toUInt8 len fp) :
    (soleSending fp).Survives t.cfg := by
  have helen : (soleSending fp).fp.elen = t.cfg.frameFormatSize + 2 + len := by
    rw [← h.frameOffset]
    exact htest.elen
  constructor
  · rw [helen]; exact hpasses.min
  · rw [helen]; exact hpasses.fits
  · rw [helen]; exact hpasses.total
  · rw [helen]; exact hpasses.limit
  · intro hf
    rw [helen, hf]
    exact hpasses.noFlag hf
  · rw [plainBody_soleSending h.frameOffset htest]
    exact hpasses.flagFree

/-- Under the conditions the exchange runs through. -/
theorem succeeds_of_passes (h : t.Idle)
    (hok : (peerTestStart (t.caller.link t.peer) len (some fp)).2 = .ok ()) (take : Takes)
    (hpasses : t.Passes len) :
    ∃ x, t.exchange len fp take = some x ∧ x.Succeeds t.cfg t.caller.s.framing := by
  obtain ⟨hlt, hne⟩ := hpasses.addr
  have haddr := (toUInt32_toUInt8_iff t.other.s.addr).mpr hlt
  obtain ⟨caller, hsends, hawaits⟩ := callerSends_some h hok hpasses.reached take
  have hcommand := testCommand_caller h hok
  generalize testCommand t.caller.s (t.caller.peer t.peer) fp len = command at hsends hcommand
  -- The command arrives and is recognised.
  obtain ⟨arrived, hcarried, hintact, hpf⟩ := carried_testFrame h.frameOffset h.plain hcommand
    (hpasses.survives h hcommand) h.otherPort
  have harrived := testFrame_of_content h.frameOffset hintact
  have hpoll := hpf.mpr hpasses.poll
  -- The other station sends it back.
  obtain ⟨response, hechoed, hresponse⟩ :=
    otherSends_testFrame h hok hpasses.total harrived haddr hpoll take
  -- The response arrives and is accepted.
  obtain ⟨returned, hcarried', hintact', hpf'⟩ := carried_testFrame h.frameOffset h.plain hresponse
    (hpasses.survives h hresponse) h.callerPort
  have hreturned := testFrame_of_content h.frameOffset hintact'
  have hresult : t.callReturns len caller returned = some (.ok ()) :=
    callReturns_ok hawaits hreturned (by rw [haddr]; exact hne) haddr (hpf'.mpr hpasses.poll)
  refine ⟨⟨command, arrived, response, returned, .ok ()⟩, exchange_eq_some.mpr
    ⟨caller, hsends, by rw [hcarried]; rfl, hechoed, by rw [hcarried']; rfl, hresult⟩, ?_⟩
  constructor
  · rw [plainContent_soleSending h.frameOffset hcommand]
    exact hintact
  · exact harrived.isUFrm
  · rw [harrived.ctrl]
    rfl
  · exact hpoll
  · rw [hresponse.uInfo_eq, harrived.uInfo_eq]
  · exact hresponse.ctrl
  · rw [plainContent_soleSending h.frameOffset hresponse]
    exact hintact'
  · rfl

/-- An exchange that succeeds met the conditions. -/
theorem passes_of_succeeds (h : t.Idle)
    (hok : (peerTestStart (t.caller.link t.peer) len (some fp)).2 = .ok ()) {x : TestExchange}
    (hx : t.exchange len fp take = some x) (hsucceeds : x.Succeeds t.cfg t.caller.s.framing) :
    t.Passes len := by
  obtain ⟨sender, hsends, harrived, hechoed, hreturned, hresult⟩ := exchange_eq_some.mp hx
  have hreached : t.caller.cPeer = t.peer ∨ (t.caller.peer t.peer).isDisc = true := by
    by_contra hreach
    rw [callerSends_none h hok hreach take] at hsends
    cases hsends
  obtain ⟨caller, hsends', hawaits⟩ := callerSends_some h hok hreached take
  obtain ⟨rfl, hcommand⟩ : caller = sender ∧
      testCommand t.caller.s (t.caller.peer t.peer) fp len = x.command :=
    Prod.mk.inj (Option.some.inj (hsends'.symm.trans hsends))
  have htest := testCommand_caller h hok
  rw [hcommand] at htest
  have hsurvives := survives_of_carried h.frameOffset h.plain h.fcsSize htest h.otherPort harrived
    hsucceeds.intact
  have helen : (soleSending x.command).fp.elen = t.cfg.frameFormatSize + 2 + len := by
    rw [← h.frameOffset]
    exact htest.elen
  -- What arrived.
  obtain ⟨out, hcarried, hoctets, hpf⟩ :=
    carried_testFrame h.frameOffset h.plain htest hsurvives h.otherPort
  obtain rfl : out = x.arrived := by
    rw [hcarried] at harrived
    exact Option.some.inj harrived
  have hout := testFrame_of_content h.frameOffset hoctets
  have hpoll := hpf.mp hsucceeds.poll
  -- Whom it reached.
  have haddr : t.other.s.addr.toUInt8.toUInt32 = t.other.s.addr := by
    by_contra hne
    rw [otherSends_none h (by rw [h.framing]; exact hout) hne take] at hechoed
    cases hechoed
  have hresponse : x.returned.octets = testContent t.cfg t.other.s.addr.toUInt8 len := by
    have htotal := hsurvives.total
    rw [helen] at htotal
    obtain ⟨response, hsent, hresponse⟩ :=
      otherSends_testFrame h hok htotal hout haddr hsucceeds.poll take
    obtain rfl : response = x.response := Option.some.inj (hsent.symm.trans hechoed)
    rw [← plainContent_soleSending h.frameOffset hresponse]
    exact hsucceeds.returned
  have hne : t.other.s.addr ≠ t.caller.s.addr := by
    intro heq
    rw [callReturns_none hawaits (testFrame_of_content h.frameOffset hresponse)
      (haddr.trans heq)] at hresult
    cases hresult
  have hflagFree := hsurvives.flagFree
  rw [plainBody_soleSending h.frameOffset htest] at hflagFree
  constructor
  · rw [← helen]; exact hsurvives.min
  · rw [← helen]; exact hsurvives.fits
  · rw [← helen]; exact hsurvives.total
  · rw [← helen]; exact hsurvives.limit
  · intro hf
    have hne := hsurvives.noFlag hf
    rw [helen, hf] at hne
    exact hne
  · exact hflagFree
  · exact hpoll
  · exact ⟨(toUInt32_toUInt8_iff _).mp haddr, hne⟩
  · exact hreached

/-- In a configuration whose frames fit, the sizes of an accepted TEST fit as well. -/
theorem sizes_of_sizesFit {d : SwDriver} {pl : PoolPlatform} {conf : StationConfig}
    {init : Initialised} (hinit : ioHdlcStationInit d pl conf = .ok init)
    (hfit : conf.SizesFit d.fcs.fcsSize) (hcfg : t.cfg = init.driver)
    (hmifls : (t.caller.peer t.peer).mifls =
      peerMifl init.station.framing init.station.fcsSize init.driver.framesize)
    (hlen : len ≤ (t.caller.peer t.peer).mifls) :
    t.cfg.frameFormatSize + 2 + len + t.cfg.fcs.fcsSize < t.cfg.framesize ∧
      t.cfg.frameFormatSize + 2 + len + t.cfg.fcs.fcsSize < 65535 ∧
      (t.cfg.frameFormatSize ≠ 0 →
        t.cfg.frameFormatSize + 2 + len + t.cfg.fcs.fcsSize ≤ fffLimit t.cfg.frameFormatSize) := by
  have acc := ioHdlcStationInit_accepted hinit
  have hfff : conf.fffTypeOrAuto ≤ 2 := acc.fff ▸ init.driver.fff_le
  obtain ⟨hmin, h16, hlimit⟩ := calculateFrameSize_of_sizesFit conf hfff d.fcs_le hfit
  rw [← hfit.1, ← acc.framesize] at hmin h16 hlimit
  have hpos : 1 ≤ conf.ctrlSize := by rcases conf.ctrlSize_eq with h | h <;> omega
  rw [hmifls, peerMifl, acc.frameOffset, acc.ctrlSize, acc.fcsSize, if_pos (by omega)] at hlen
  rw [hcfg, acc.fff, acc.fcs]
  exact ⟨by omega, by omega, fun hne => by have := hlimit hne; omega⟩

end TestScene

/-- On an idle link an accepted TEST exchange succeeds exactly under the conditions on the length,
the addresses and the place of the peer. -/
theorem peerTest_succeeds_iff {m n : Nat} (t : TestScene m n) (h : t.Idle) (len : Nat) (fp : Frame)
    (take : Takes) (hok : (peerTestStart (t.caller.link t.peer) len (some fp)).2 = .ok ()) :
    (∃ x, t.exchange len fp take = some x ∧ x.Succeeds t.cfg t.caller.s.framing) ↔ t.Passes len :=
  ⟨fun ⟨_, hx, hsucceeds⟩ => TestScene.passes_of_succeeds h hok hx hsucceeds,
    TestScene.succeeds_of_passes h hok take⟩

/-- A primary and a secondary of modulus 8 with TYPE 0 fields and buffers of 128 octets, right
after set-up. -/
def defaultScene : TestScene 1 1 :=
  let s (flags : StationFlags) (addr : UInt32) :=
    initialStation .ndm flags (.mod8 1 Framing.one_le_two) 2 true 100 200 addr
  let station (flags : StationFlags) (addr peerAddr : UInt32) : Node 1 :=
    { Node.onePeer .ndm flags addr peerAddr with
      s := s flags addr
      peer := fun _ => initialPeer (s flags addr) 128 8 peerAddr }
  { cfg := .plain fcsSw 1 128 (by decide)
    caller := station { pri := true } 1 2
    peer := 0
    callerPort := drvStart
    other := station {} 2 1
    otherPort := drvStart }

theorem idle_defaultScene : defaultScene.Idle where
  plain := rfl
  fcsSize := by decide
  frameOffset := rfl
  framing := rfl
  mifls := rfl
  addr := rfl
  callerWaits := ⟨rfl, rfl⟩
  callerMaySend := by decide
  callerFree := fun _ => ⟨rfl, rfl⟩
  otherWaits := ⟨rfl, rfl⟩
  otherFree := ⟨rfl, rfl, rfl⟩
  callerPort := quiet_drvStart
  otherPort := quiet_drvStart

/-- Four octets pass. -/
theorem peerTest_succeeds_iff_four :
    defaultScene.Passes 4 ∧ ∃ x, defaultScene.exchange 4 default {} = some x ∧
      x.Succeeds defaultScene.cfg defaultScene.caller.s.framing := by
  have hpasses : defaultScene.Passes 4 :=
    { min := by decide
      fits := by decide
      total := by decide
      limit := fun _ => by decide
      noFlag := fun _ => by decide
      flagFree := fun hf => by cases hf
      poll := .inl rfl
      addr := by decide
      reached := .inl rfl }
  exact ⟨hpasses,
    (peerTest_succeeds_iff defaultScene idle_defaultScene 4 default {} rfl).mpr hpasses⟩

/-- 121 octets are accepted, and the length octet of their frame is a flag. -/
theorem peerTest_fails :
    defaultScene.Idle ∧
      (peerTestStart (defaultScene.caller.link defaultScene.peer) 121 (some default)).2 = .ok () ∧
      ¬∃ x, defaultScene.exchange 121 default {} = some x ∧
        x.Succeeds defaultScene.cfg defaultScene.caller.s.framing := by
  have hok : (peerTestStart (defaultScene.caller.link defaultScene.peer) 121 (some default)).2 =
    .ok () := rfl
  refine ⟨idle_defaultScene, hok, fun ⟨x, hx, hsucceeds⟩ => ?_⟩
  have hpasses := TestScene.passes_of_succeeds idle_defaultScene hok hx hsucceeds
  exact hpasses.noFlag rfl rfl

end IoHdlc
