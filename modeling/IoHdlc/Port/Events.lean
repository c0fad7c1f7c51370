import IoHdlc.Kit.Reachable
import Mathlib.Data.List.Nodup
import Mathlib.Logic.Function.Basic

/-!
The event system of the Linux port: any number of sources, listeners and threads.

A broadcast holds the lock of its source and walks the chain of listeners; it holds the lock of a
listener while it sets first the flags and then the event bits of the thread. A wait clears event
bits, a listener is fetched apart from that. The listener carries the history that says what it
should deliver: the broadcasts of its source, those that its flags stand for, and what was fetched.
-/

namespace IoHdlc

open Kit

/-! ### Masks -/

/-- The mask lies within another one. -/
def Within (a b : UInt32) : Prop := a &&& b = a

section Masks

variable {a b c : UInt32}

theorem within_iff : Within a b ↔ ∀ i, a.toBitVec.getLsbD i = true → b.toBitVec.getLsbD i = true := by
  rw [Within, ← UInt32.toBitVec_inj, UInt32.toBitVec_and]
  constructor
  · intro h i hi
    have hbit := congrArg (BitVec.getLsbD · i) h
    simp only [BitVec.getLsbD_and] at hbit
    rw [hi, Bool.true_and] at hbit
    exact hbit
  · intro h
    apply BitVec.eq_of_getLsbD_eq
    intro i _
    rw [BitVec.getLsbD_and]
    cases hi : a.toBitVec.getLsbD i with
    | false => rfl
    | true => rw [h i hi, Bool.and_self]

theorem Within.or_left (h : Within a b) (c : UInt32) : Within a (b ||| c) := by
  rw [within_iff] at h ⊢
  intro i hi
  rw [UInt32.toBitVec_or, BitVec.getLsbD_or, h i hi, Bool.true_or]

theorem within_or_left (a b : UInt32) : Within a (a ||| b) := by
  rw [within_iff]
  intro i hi
  rw [UInt32.toBitVec_or, BitVec.getLsbD_or, hi, Bool.true_or]

theorem within_or_right (a b : UInt32) : Within a (b ||| a) := by
  rw [within_iff]
  intro i hi
  rw [UInt32.toBitVec_or, BitVec.getLsbD_or, hi, Bool.or_true]

/-- Events that are not consumed stay pending. -/
theorem Within.diff (h : Within a b) (hno : a &&& c = 0) : Within a (b &&& ~~~c) := by
  rw [within_iff] at h ⊢
  intro i hi
  have hc : c.toBitVec.getLsbD i = false := by
    rw [← UInt32.toBitVec_inj, UInt32.toBitVec_and] at hno
    have hbit := congrArg (BitVec.getLsbD · i) hno
    simp only [BitVec.getLsbD_and, hi, Bool.true_and] at hbit
    simpa using hbit
  have hlt : i < 32 := BitVec.lt_of_getLsbD hi
  rw [UInt32.toBitVec_and, UInt32.toBitVec_not, BitVec.getLsbD_and, h i hi, BitVec.getLsbD_not, hc]
  simpa using hlt

theorem or_and_within {f : UInt32} (h : Within a b) : Within (a ||| (f &&& b)) b := by
  rw [within_iff] at h ⊢
  intro i hi
  rw [UInt32.toBitVec_or, BitVec.getLsbD_or, Bool.or_eq_true] at hi
  rcases hi with hi | hi
  · exact h i hi
  · rw [UInt32.toBitVec_and, BitVec.getLsbD_and, Bool.and_eq_true] at hi
    exact hi.2

/-- A mask that meets what it lies within. -/
theorem Within.meets (h : Within a b) (hmeet : a &&& c ≠ 0) : b &&& c ≠ 0 := by
  intro hzero
  apply hmeet
  rw [← h, UInt32.and_assoc, hzero, UInt32.and_zero]

end Masks

/-! ### The system -/

/-- `iohdlc_event_listener_t`, with its history: the broadcasts of its source since it was
registered, those whose flags it holds, and what was fetched, each with the broadcasts behind it.
`told` says that a wait of the thread returned one of the events since the flags were signalled. -/
structure Listener (T : Type) where
  thread : T
  events : UInt32
  wflags : UInt32
  flags : UInt32
  sent : List UInt32
  got : List UInt32
  fetched : List (UInt32 × List UInt32)
  told : Bool

/-- A broadcast sets its flags. -/
def Listener.setFlags {T : Type} (flags : UInt32) (l : Listener T) : Listener T :=
  { l with flags := l.flags ||| (flags &&& l.wflags), got := l.got ++ [flags] }

/-- The thread gets its events again. -/
def Listener.signalled {T : Type} (l : Listener T) : Listener T := { l with told := false }

def Listener.getAndClear {T : Type} (l : Listener T) : Listener T :=
  { l with flags := 0, got := [], fetched := l.fetched ++ [(l.flags, l.got)], told := false }

/-- What a broadcast does while it holds the lock of the source: it goes on to the next listener,
or holds the lock of one whose flags it has set. -/
inductive Broadcast (L : Type) where
  | walks (flags : UInt32) (rest : List L)
  | holds (flags : UInt32) (elp : L) (rest : List L)

def Broadcast.flags {L : Type} : Broadcast L → UInt32
  | .walks flags _ => flags
  | .holds flags _ _ => flags

/-- The listeners that have not got the flags yet. -/
def Broadcast.rest {L : Type} : Broadcast L → List L
  | .walks _ rest => rest
  | .holds _ _ rest => rest

/-- The listeners that the walk has not left behind. -/
def Broadcast.ahead {L : Type} : Broadcast L → List L
  | .walks _ rest => rest
  | .holds _ elp rest => elp :: rest

/-- Where a thread is in `iohdlc_evt_wait_any_timeout`: in no call, in `pthread_cond_wait`, or
behind it and about to look at the events again. -/
inductive WaitPlace where
  | out
  | sleeps (events : UInt32) (timed : Bool)
  | woken (events : UInt32) (timed : Bool)

/-- Sources `S`, listeners `L` and threads `T`. -/
structure EvtSystem (S L T : Type) where
  chain : S → List L
  cast : S → Option (Broadcast L)
  listener : L → Listener T
  pending : T → UInt32
  place : T → WaitPlace

inductive EvtAction (S L T : Type) where
  | register (esp : S) (elp : L) (thread : T) (events wflags : UInt32)
  | unregister (esp : S) (elp : L)
  | broadcast (esp : S) (flags : UInt32)
  | setFlags (esp : S)
  | signal (esp : S)
  | broadcastDone (esp : S)
  | wait (thread : T) (events : UInt32) (timeoutMs : UInt32)
  | wake (thread : T)
  | recheck (thread : T)
  | expire (thread : T)
  | evtSignal (thread : T) (events : UInt32)
  | getAndClear (elp : L)

/-- The flags that a listener takes of the broadcasts. -/
def Listener.selects (wflags : UInt32) (sent : List UInt32) : UInt32 :=
  sent.foldl (fun flags f => flags ||| (f &&& wflags)) 0

theorem Listener.selects_within (wflags : UInt32) (sent : List UInt32) :
    Within (Listener.selects wflags sent) wflags := by
  have hfold : ∀ (flags : UInt32), Within flags wflags →
      Within (sent.foldl (fun flags f => flags ||| (f &&& wflags)) flags) wflags := by
    induction sent with
    | nil => exact fun flags h => h
    | cons f rest ih => exact fun flags h => ih _ (or_and_within h)
  exact hfold 0 (UInt32.zero_and)

theorem Listener.selects_append (wflags f : UInt32) (sent : List UInt32) :
    Listener.selects wflags (sent ++ [f]) = Listener.selects wflags sent ||| (f &&& wflags) := by
  rw [Listener.selects, List.foldl_append]
  rfl

/-- The history of a listener adds up; `toCome` is the broadcast it has not got yet. -/
structure Listener.Accounts {T : Type} (l : Listener T) (toCome : List UInt32) : Prop where
  sent : l.sent = (l.fetched.map Prod.snd).flatten ++ l.got ++ toCome
  flags : l.flags = Listener.selects l.wflags l.got
  fetched : ∀ x ∈ l.fetched, x.1 = Listener.selects l.wflags x.2

namespace EvtSystem

set_option linter.unusedSectionVars false

variable {S L T : Type} [DecidableEq S] [DecidableEq L] [DecidableEq T]

def update (g : EvtSystem S L T) (elp : L) (f : Listener T → Listener T) : EvtSystem S L T :=
  { g with listener := Function.update g.listener elp (f (g.listener elp)) }

/-- `pthread_cond_broadcast` on the condition of a thread. -/
def wakeUp : WaitPlace → WaitPlace
  | .sleeps events timed => .woken events timed
  | place => place

def raise (g : EvtSystem S L T) (thread : T) (events : UInt32) : EvtSystem S L T :=
  { g with
    pending := Function.update g.pending thread (g.pending thread ||| events)
    place := Function.update g.place thread (wakeUp (g.place thread)) }

/-- A wait that has found events consumes them and returns. -/
def consume (g : EvtSystem S L T) (thread : T) (matched : UInt32) : EvtSystem S L T :=
  { g with
    pending := Function.update g.pending thread (g.pending thread &&& ~~~matched)
    place := Function.update g.place thread .out
    listener := fun elp =>
      if (g.listener elp).thread = thread ∧ (g.listener elp).events &&& matched ≠ 0 then
        { g.listener elp with told := true }
      else g.listener elp }

def Registered (g : EvtSystem S L T) (elp : L) : Prop := ∃ esp, elp ∈ g.chain esp

/-- Whether a broadcast of the source holds the lock of the listener. -/
def HeldBy (g : EvtSystem S L T) (esp : S) (elp : L) : Prop :=
  ∃ flags rest, g.cast esp = some (.holds flags elp rest)

/-- The relation of the steps. A call that finds a lock taken waits, so its step is another one. -/
inductive Step (g : EvtSystem S L T) : EvtAction S L T → EvtSystem S L T → Prop
  | register {esp : S} {elp : L} {thread : T} {events wflags : UInt32} (hfree : g.cast esp = none)
    (hnew : ¬g.Registered elp) :
    Step g (.register esp elp thread events wflags)
      { g with
        chain := Function.update g.chain esp (elp :: g.chain esp)
        listener := Function.update g.listener elp
          { thread := thread, events := events, wflags := wflags, flags := 0, sent := [], got := [],
            fetched := [], told := false } }
  | unregister {esp : S} {elp : L} (hfree : g.cast esp = none) :
    Step g (.unregister esp elp)
      { g with chain := Function.update g.chain esp ((g.chain esp).erase elp) }
  | broadcast {esp : S} {flags : UInt32} (hfree : g.cast esp = none) :
    Step g (.broadcast esp flags)
      { g with
        cast := Function.update g.cast esp (some (.walks flags (g.chain esp)))
        listener := fun elp =>
          if elp ∈ g.chain esp then
            { g.listener elp with sent := (g.listener elp).sent ++ [flags] }
          else g.listener elp }
  | setFlags {esp : S} {flags : UInt32} {elp : L} {rest : List L}
    (hcast : g.cast esp = some (.walks flags (elp :: rest))) :
    Step g (.setFlags esp)
      { g.update elp (Listener.setFlags flags) with
        cast := Function.update g.cast esp (some (.holds flags elp rest)) }
  | signal {esp : S} {flags : UInt32} {elp : L} {rest : List L}
    (hcast : g.cast esp = some (.holds flags elp rest))
    (hsel : (g.listener elp).flags &&& (g.listener elp).wflags ≠ 0) :
    Step g (.signal esp)
      { (g.update elp Listener.signalled).raise (g.listener elp).thread (g.listener elp).events with
        cast := Function.update g.cast esp (some (.walks flags rest)) }
  | silent {esp : S} {flags : UInt32} {elp : L} {rest : List L}
    (hcast : g.cast esp = some (.holds flags elp rest))
    (hsel : (g.listener elp).flags &&& (g.listener elp).wflags = 0) :
    Step g (.signal esp) { g with cast := Function.update g.cast esp (some (.walks flags rest)) }
  | broadcastDone {esp : S} {flags : UInt32} (hcast : g.cast esp = some (.walks flags [])) :
    Step g (.broadcastDone esp) { g with cast := Function.update g.cast esp none }
  | waitMatches {thread : T} {events timeoutMs : UInt32} (hout : g.place thread = .out)
    (hmatched : g.pending thread &&& events ≠ 0) :
    Step g (.wait thread events timeoutMs) (g.consume thread (g.pending thread &&& events))
  | waitImmediate {thread : T} {events : UInt32} (hout : g.place thread = .out)
    (hnone : g.pending thread &&& events = 0) : Step g (.wait thread events 0) g
  | waitSleeps {thread : T} {events timeoutMs : UInt32} (hout : g.place thread = .out)
    (hnone : g.pending thread &&& events = 0) (hpos : timeoutMs ≠ 0) :
    Step g (.wait thread events timeoutMs)
      { g with
        place := Function.update g.place thread (.sleeps events (timeoutMs ≠ 0xFFFFFFFF)) }
  | wake {thread : T} {events : UInt32} {timed : Bool} (hsleeps : g.place thread = .sleeps events timed) :
    Step g (.wake thread) { g with place := Function.update g.place thread (.woken events timed) }
  | recheckMatches {thread : T} {events : UInt32} {timed : Bool}
    (hwoken : g.place thread = .woken events timed) (hmatched : g.pending thread &&& events ≠ 0) :
    Step g (.recheck thread) (g.consume thread (g.pending thread &&& events))
  | recheckSleeps {thread : T} {events : UInt32} {timed : Bool}
    (hwoken : g.place thread = .woken events timed) (hnone : g.pending thread &&& events = 0) :
    Step g (.recheck thread) { g with place := Function.update g.place thread (.sleeps events timed) }
  | expire {thread : T} {events : UInt32}
    (hin : g.place thread = .sleeps events true ∨ g.place thread = .woken events true) :
    Step g (.expire thread) { g with place := Function.update g.place thread .out }
  | evtSignal {thread : T} {events : UInt32} (hout : g.place thread = .out) :
    Step g (.evtSignal thread events) (g.raise thread events)
  | getAndClear {elp : L} (hfree : ∀ esp, ¬g.HeldBy esp elp) :
    Step g (.getAndClear elp) (g.update elp Listener.getAndClear)

section Inversion

variable {g g' : EvtSystem S L T} {thread : T} {events timeoutMs : UInt32}

/-- A wait with a timeout returns what is pending or falls asleep. -/
theorem Step.wait_cases (h : Step g (.wait thread events timeoutMs) g') (hpos : timeoutMs ≠ 0) :
    g.place thread = .out ∧
      (g.pending thread &&& events ≠ 0 ∧ g' = g.consume thread (g.pending thread &&& events) ∨
        g.pending thread &&& events = 0 ∧
          g' = { g with place :=
            Function.update g.place thread (.sleeps events (timeoutMs ≠ 0xFFFFFFFF)) }) := by
  cases h with
  | waitMatches hout hmatched => exact ⟨hout, .inl ⟨hmatched, rfl⟩⟩
  | waitImmediate hout hnone => exact absurd rfl hpos
  | waitSleeps hout hnone _ => exact ⟨hout, .inr ⟨hnone, rfl⟩⟩

theorem Step.recheck_cases (h : Step g (.recheck thread) g') :
    ∃ events timed, g.place thread = .woken events timed ∧
      (g.pending thread &&& events ≠ 0 ∧ g' = g.consume thread (g.pending thread &&& events) ∨
        g.pending thread &&& events = 0 ∧
          g' = { g with place := Function.update g.place thread (.sleeps events timed) }) := by
  cases h with
  | @recheckMatches _ events timed hwoken hmatched => exact ⟨events, timed, hwoken, .inl ⟨hmatched, rfl⟩⟩
  | @recheckSleeps _ events timed hwoken hnone => exact ⟨events, timed, hwoken, .inr ⟨hnone, rfl⟩⟩

end Inversion

/-- Event sources and threads that were just set up. -/
structure Fresh (g : EvtSystem S L T) : Prop where
  chain : ∀ esp, g.chain esp = []
  cast : ∀ esp, g.cast esp = none
  place : ∀ thread, g.place thread = .out

def Moves (g g' : EvtSystem S L T) : Prop := ∃ a, Step g a g'

/-! ### What a listener has to deliver -/

/-- The broadcast that the listener has not got yet. -/
def toCome (g : EvtSystem S L T) (esp : S) (elp : L) : List UInt32 :=
  match g.cast esp with
  | none => []
  | some b => if elp ∈ b.rest then [b.flags] else []

theorem toCome_none {g : EvtSystem S L T} {esp : S} (h : g.cast esp = none) (elp : L) :
    g.toCome esp elp = [] := by
  rw [toCome, h]

theorem toCome_mem {g : EvtSystem S L T} {esp : S} {b : Broadcast L} {elp : L}
    (h : g.cast esp = some b) (hmem : elp ∈ b.rest) : g.toCome esp elp = [b.flags] := by
  rw [toCome, h]
  exact if_pos hmem

theorem toCome_notMem {g : EvtSystem S L T} {esp : S} {b : Broadcast L} {elp : L}
    (h : g.cast esp = some b) (hmem : elp ∉ b.rest) : g.toCome esp elp = [] := by
  rw [toCome, h]
  exact if_neg hmem

/-- What is to come depends on the broadcast of the source alone. -/
theorem toCome_congr {g g' : EvtSystem S L T} {esp : S} (h : g'.cast esp = g.cast esp) (elp : L) :
    g'.toCome esp elp = g.toCome esp elp := by
  rw [toCome, toCome, h]

/-- Flags that the thread was not told of have their events pending. -/
def Announced (g : EvtSystem S L T) (esp : S) (elp : L) : Prop :=
  (g.listener elp).flags ≠ 0 → ¬g.HeldBy esp elp → (g.listener elp).told = false →
    Within (g.listener elp).events (g.pending (g.listener elp).thread)

structure Inv (g : EvtSystem S L T) : Prop where
  nodup : ∀ esp, (g.chain esp).Nodup
  disjoint : ∀ esp esp' elp, elp ∈ g.chain esp → elp ∈ g.chain esp' → esp = esp'
  cast : ∀ esp b, g.cast esp = some b → b.ahead <:+ g.chain esp
  sleeps : ∀ thread events timed, g.place thread = .sleeps events timed →
    g.pending thread &&& events = 0
  account : ∀ esp elp, elp ∈ g.chain esp → (g.listener elp).Accounts (g.toCome esp elp)
  announced : ∀ esp elp, elp ∈ g.chain esp → g.Announced esp elp

section Steps

variable {g g' : EvtSystem S L T} {esp : S} {elp : L}

theorem inv_of_fresh (h : g.Fresh) : g.Inv where
  nodup esp := by rw [h.chain]; exact List.nodup_nil
  disjoint esp _ elp hmem := by rw [h.chain] at hmem; cases hmem
  cast esp b hb := by rw [h.cast] at hb; cases hb
  sleeps thread events timed hs := by rw [h.place] at hs; cases hs
  account esp elp hmem := by rw [h.chain] at hmem; cases hmem
  announced esp elp hmem := by rw [h.chain] at hmem; cases hmem

/-- A step that touches only where the threads are. -/
theorem Inv.place {place : T → WaitPlace} (h : g.Inv)
    (hsleeps : ∀ thread events timed, place thread = .sleeps events timed →
      g.pending thread &&& events = 0) : { g with place := place }.Inv :=
  { h with sleeps := hsleeps }

theorem Inv.register {thread : T} {events wflags : UInt32} (h : g.Inv) (hfree : g.cast esp = none)
    (hnew : ¬g.Registered elp) :
    ({ g with
      chain := Function.update g.chain esp (elp :: g.chain esp)
      listener := Function.update g.listener elp
        { thread := thread, events := events, wflags := wflags, flags := 0, sent := [], got := [],
          fetched := [], told := false } } : EvtSystem S L T).Inv := by
  have hnot : ∀ esp', elp ∉ g.chain esp' := fun esp' hmem => hnew ⟨esp', hmem⟩
  -- another listener is where it was
  have hother : ∀ esp' elp', elp' ≠ elp →
      elp' ∈ Function.update g.chain esp (elp :: g.chain esp) esp' → elp' ∈ g.chain esp' := by
    intro esp' elp' hne hmem
    by_cases hesp : esp' = esp
    · subst hesp
      rw [Function.update_self] at hmem
      exact (List.mem_cons.mp hmem).resolve_left hne
    · rwa [Function.update_of_ne hesp] at hmem
  refine ⟨fun esp' => ?_, fun esp₁ esp₂ elp' h₁ h₂ => ?_, fun esp' b hb => ?_, h.sleeps,
    fun esp' elp' hmem => ?_, fun esp' elp' hmem => ?_⟩
  · dsimp only
    by_cases hesp : esp' = esp
    · subst hesp
      rw [Function.update_self]
      exact List.nodup_cons.mpr ⟨hnot esp', h.nodup esp'⟩
    · rw [Function.update_of_ne hesp]
      exact h.nodup esp'
  · dsimp only at h₁ h₂
    by_cases hne : elp' = elp
    · subst hne
      have hat : ∀ esp', elp' ∈ Function.update g.chain esp (elp' :: g.chain esp) esp' →
          esp' = esp := by
        intro esp' hmem
        by_contra hesp
        rw [Function.update_of_ne hesp] at hmem
        exact hnot esp' hmem
      rw [hat esp₁ h₁, hat esp₂ h₂]
    · exact h.disjoint esp₁ esp₂ elp' (hother esp₁ elp' hne h₁) (hother esp₂ elp' hne h₂)
  · dsimp only at hb ⊢
    have hesp : esp' ≠ esp := by
      rintro rfl
      rw [hfree] at hb
      cases hb
    rw [Function.update_of_ne hesp]
    exact h.cast esp' b hb
  · dsimp only
    by_cases hne : elp' = elp
    · subst hne
      have hesp : esp' = esp := by
        by_contra hesp
        dsimp only at hmem
        rw [Function.update_of_ne hesp] at hmem
        exact hnot esp' hmem
      subst hesp
      rw [Function.update_self, toCome]
      dsimp only
      rw [hfree]
      exact ⟨rfl, rfl, fun x hx => absurd hx List.not_mem_nil⟩
    · rw [Function.update_of_ne hne]
      exact h.account esp' elp' (hother esp' elp' hne hmem)
  · rw [Announced]
    dsimp only
    by_cases hne : elp' = elp
    · subst hne
      rw [Function.update_self]
      exact fun hflags => absurd rfl hflags
    · rw [Function.update_of_ne hne]
      exact h.announced esp' elp' (hother esp' elp' hne hmem)

theorem Inv.unregister (h : g.Inv) (hfree : g.cast esp = none) :
    { g with chain := Function.update g.chain esp ((g.chain esp).erase elp) }.Inv := by
  have hsub : ∀ esp' elp', elp' ∈ Function.update g.chain esp ((g.chain esp).erase elp) esp' →
      elp' ∈ g.chain esp' := by
    intro esp' elp' hmem
    by_cases hesp : esp' = esp
    · subst hesp
      rw [Function.update_self] at hmem
      exact List.mem_of_mem_erase hmem
    · rwa [Function.update_of_ne hesp] at hmem
  refine ⟨fun esp' => ?_, fun esp₁ esp₂ elp' h₁ h₂ => ?_, fun esp' b hb => ?_, h.sleeps,
    fun esp' elp' hmem => h.account esp' elp' (hsub esp' elp' hmem),
    fun esp' elp' hmem => h.announced esp' elp' (hsub esp' elp' hmem)⟩
  · dsimp only
    by_cases hesp : esp' = esp
    · subst hesp
      rw [Function.update_self]
      exact (h.nodup esp').erase elp
    · rw [Function.update_of_ne hesp]
      exact h.nodup esp'
  · exact h.disjoint esp₁ esp₂ elp' (hsub esp₁ elp' h₁) (hsub esp₂ elp' h₂)
  · dsimp only at hb ⊢
    have hesp : esp' ≠ esp := by
      rintro rfl
      rw [hfree] at hb
      cases hb
    rw [Function.update_of_ne hesp]
    exact h.cast esp' b hb

/-- A broadcast begins. -/
theorem Inv.broadcast {flags : UInt32} (h : g.Inv) (hfree : g.cast esp = none) :
    ({ g with
      cast := Function.update g.cast esp (some (.walks flags (g.chain esp)))
      listener := fun elp =>
        if elp ∈ g.chain esp then
          { g.listener elp with sent := (g.listener elp).sent ++ [flags] }
        else g.listener elp } : EvtSystem S L T).Inv := by
  refine ⟨h.nodup, h.disjoint, fun esp' b hb => ?_, h.sleeps, fun esp' elp' hmem => ?_,
    fun esp' elp' hmem => ?_⟩
  · dsimp only at hb
    by_cases hesp : esp' = esp
    · subst hesp
      rw [Function.update_self] at hb
      cases hb
      exact List.suffix_refl _
    · rw [Function.update_of_ne hesp] at hb
      exact h.cast esp' b hb
  · have hold := h.account esp' elp' hmem
    by_cases hesp : esp' = esp
    · subst hesp
      rw [toCome_none hfree] at hold
      rw [toCome_mem (Function.update_self ..) hmem]
      dsimp only
      rw [if_pos hmem]
      refine ⟨?_, hold.flags, hold.fetched⟩
      dsimp only [Broadcast.flags]
      rw [hold.sent, List.append_nil]
    · have hnot : elp' ∉ g.chain esp := fun hin => hesp (h.disjoint esp' esp elp' hmem hin)
      rw [toCome_congr (Function.update_of_ne hesp ..)]
      dsimp only
      rw [if_neg hnot]
      exact hold
  · have hold := h.announced esp' elp' hmem
    intro hflags hheld htold
    dsimp only at hflags htold ⊢
    have hheld' : ¬g.HeldBy esp' elp' := by
      rintro ⟨f, rest, hcast⟩
      have hesp : esp' ≠ esp := by
        rintro rfl
        rw [hfree] at hcast
        cases hcast
      exact hheld ⟨f, rest, (Function.update_of_ne hesp ..).trans hcast⟩
    split at hflags
    next hin =>
      rw [if_pos hin] at htold ⊢
      exact hold hflags hheld' htold
    next hin =>
      rw [if_neg hin] at htold ⊢
      exact hold hflags hheld' htold

/-- The rest of a walk. -/
theorem Inv.notMem_rest {b : Broadcast L} {rest : List L} (h : g.Inv) (hcast : g.cast esp = some b)
    (hahead : b.ahead = elp :: rest) : elp ∈ g.chain esp ∧ elp ∉ rest := by
  have hsuffix := h.cast esp b hcast
  rw [hahead] at hsuffix
  exact ⟨hsuffix.subset List.mem_cons_self,
    (List.nodup_cons.mp ((h.nodup esp).sublist hsuffix.sublist)).1⟩

/-- The flags of a listener are set. -/
theorem Inv.setFlags {flags : UInt32} {rest : List L} (h : g.Inv)
    (hcast : g.cast esp = some (.walks flags (elp :: rest))) :
    ({ g.update elp (Listener.setFlags flags) with
      cast := Function.update g.cast esp (some (.holds flags elp rest)) } :
      EvtSystem S L T).Inv := by
  obtain ⟨hin, hnot⟩ := h.notMem_rest hcast rfl
  refine ⟨h.nodup, h.disjoint, fun esp' b hb => ?_, h.sleeps, fun esp' elp' hmem => ?_,
    fun esp' elp' hmem => ?_⟩
  · dsimp only at hb
    by_cases hesp : esp' = esp
    · subst hesp
      rw [Function.update_self] at hb
      cases hb
      exact h.cast esp' (.walks flags (elp :: rest)) hcast
    · rw [Function.update_of_ne hesp] at hb
      exact h.cast esp' b hb
  · have hold := h.account esp' elp' hmem
    by_cases hesp : esp' = esp
    · subst hesp
      by_cases hne : elp' = elp
      · subst hne
        rw [toCome_mem hcast List.mem_cons_self] at hold
        rw [toCome_notMem (Function.update_self ..) hnot]
        dsimp only [EvtSystem.update]
        rw [Function.update_self]
        refine ⟨?_, ?_, hold.fetched⟩
        · dsimp only [Listener.setFlags]
          rw [hold.sent, List.append_nil, List.append_assoc]
          rfl
        · dsimp only [Listener.setFlags]
          rw [Listener.selects_append, hold.flags]
      · by_cases hrest : elp' ∈ rest
        · rw [toCome_mem hcast (List.mem_cons_of_mem _ hrest)] at hold
          rw [toCome_mem (Function.update_self ..) hrest]
          dsimp only [EvtSystem.update]
          rw [Function.update_of_ne hne]
          exact hold
        · rw [toCome_notMem hcast fun hin' => hrest (List.mem_of_ne_of_mem hne hin')] at hold
          rw [toCome_notMem (Function.update_self ..) hrest]
          dsimp only [EvtSystem.update]
          rw [Function.update_of_ne hne]
          exact hold
    · have hne : elp' ≠ elp := by
        rintro rfl
        exact hesp (h.disjoint esp' esp elp' hmem hin)
      rw [toCome_congr (g := g) (Function.update_of_ne hesp ..)]
      dsimp only [EvtSystem.update]
      rw [Function.update_of_ne hne]
      exact hold
  · intro hflags hheld htold
    dsimp only [EvtSystem.update] at hflags htold ⊢
    by_cases hne : elp' = elp
    · subst hne
      obtain rfl := h.disjoint esp' esp elp' hmem hin
      exact absurd ⟨flags, rest, Function.update_self ..⟩ hheld
    · rw [Function.update_of_ne hne] at hflags htold ⊢
      refine h.announced esp' elp' hmem hflags ?_ htold
      rintro ⟨f, rest', hcast'⟩
      have hesp : esp' ≠ esp := by
        rintro rfl
        rw [hcast] at hcast'
        cases hcast'
      exact hheld ⟨f, rest', (Function.update_of_ne hesp ..).trans hcast'⟩

/-- A step that changes no more of the listeners than what their threads were told. -/
theorem Inv.carry (h : g.Inv) (hchain : g'.chain = g.chain)
    (hlistener : ∀ elp, ∃ told, g'.listener elp = { g.listener elp with told := told })
    (hcome : ∀ esp elp, g'.toCome esp elp = g.toCome esp elp)
    (hcast : ∀ esp b, g'.cast esp = some b → b.ahead <:+ g.chain esp)
    (hsleeps : ∀ thread events timed, g'.place thread = .sleeps events timed →
      g'.pending thread &&& events = 0)
    (hannounced : ∀ esp elp, elp ∈ g.chain esp → g'.Announced esp elp) : g'.Inv where
  nodup := by rw [hchain]; exact h.nodup
  disjoint := by rw [hchain]; exact h.disjoint
  cast := by rw [hchain]; exact hcast
  sleeps := hsleeps
  account esp elp hmem := by
    rw [hchain] at hmem
    obtain ⟨told, htold⟩ := hlistener elp
    have hold := h.account esp elp hmem
    rw [hcome, htold]
    exact ⟨hold.sent, hold.flags, hold.fetched⟩
  announced := by rw [hchain]; exact hannounced

/-- The events of a thread are raised, and it is woken. -/
theorem sleeps_raise {thread : T} {events : UInt32}
    (h : ∀ thread events timed, g.place thread = .sleeps events timed →
      g.pending thread &&& events = 0)
    (thread' : T) (events' : UInt32) (timed : Bool)
    (hs : (g.raise thread events).place thread' = .sleeps events' timed) :
    (g.raise thread events).pending thread' &&& events' = 0 := by
  dsimp only [raise] at hs ⊢
  by_cases hthread : thread' = thread
  · subst hthread
    rw [Function.update_self, wakeUp.eq_def] at hs
    split at hs
    · cases hs
    next hno => exact absurd hs (hno events' timed)
  · rw [Function.update_of_ne hthread] at hs ⊢
    exact h thread' events' timed hs

theorem within_raise {thread thread' : T} {events a : UInt32} (h : Within a (g.pending thread')) :
    Within a ((g.raise thread events).pending thread') := by
  dsimp only [raise]
  by_cases hthread : thread' = thread
  · subst hthread
    rw [Function.update_self]
    exact h.or_left events
  · rwa [Function.update_of_ne hthread]

theorem Inv.raise (h : g.Inv) (thread : T) (events : UInt32) : (g.raise thread events).Inv :=
  h.carry rfl (fun _ => ⟨_, rfl⟩) (fun _ _ => rfl) h.cast (sleeps_raise h.sleeps)
    fun esp elp hmem hflags hheld htold => within_raise (h.announced esp elp hmem hflags hheld htold)

/-- The lock of a listener is released and the walk goes on. -/
theorem toCome_released {flags : UInt32} {rest : List L}
    (hcast : g.cast esp = some (.holds flags elp rest))
    (hcast' : g'.cast = Function.update g.cast esp (some (.walks flags rest))) (esp' : S) (elp' : L) :
    g'.toCome esp' elp' = g.toCome esp' elp' := by
  by_cases hesp : esp' = esp
  · subst hesp
    have hnew : g'.cast esp' = some (.walks flags rest) := by rw [hcast', Function.update_self]
    rw [toCome, toCome, hcast, hnew]
    rfl
  · refine toCome_congr ?_ elp'
    rw [hcast', Function.update_of_ne hesp]

theorem suffix_released {flags : UInt32} {rest : List L} (h : g.Inv)
    (hcast : g.cast esp = some (.holds flags elp rest)) (esp' : S) (b : Broadcast L)
    (hb : Function.update g.cast esp (some (.walks flags rest)) esp' = some b) :
    b.ahead <:+ g.chain esp' := by
  by_cases hesp : esp' = esp
  · subst hesp
    rw [Function.update_self] at hb
    cases hb
    exact (List.suffix_cons elp rest).trans (h.cast esp' _ hcast)
  · rw [Function.update_of_ne hesp] at hb
    exact h.cast esp' b hb

/-- Another listener is held as it was. -/
theorem heldBy_released {flags : UInt32} {rest : List L} {elp' : L} {esp' : S}
    (hcast : g.cast esp = some (.holds flags elp rest))
    (hcast' : g'.cast = Function.update g.cast esp (some (.walks flags rest))) (hne : elp' ≠ elp)
    (h : g.HeldBy esp' elp') : g'.HeldBy esp' elp' := by
  obtain ⟨f, rest', hold⟩ := h
  have hesp : esp' ≠ esp := by
    rintro rfl
    rw [hcast] at hold
    cases hold
    exact hne rfl
  exact ⟨f, rest', by rw [hcast', Function.update_of_ne hesp, hold]⟩

theorem Inv.signal {flags : UInt32} {rest : List L} (h : g.Inv)
    (hcast : g.cast esp = some (.holds flags elp rest)) :
    ({ (g.update elp Listener.signalled).raise (g.listener elp).thread (g.listener elp).events with
      cast := Function.update g.cast esp (some (.walks flags rest)) } : EvtSystem S L T).Inv := by
  refine h.carry rfl (fun elp' => ?_) (toCome_released hcast rfl) (suffix_released h hcast)
    (sleeps_raise h.sleeps) fun esp' elp' hmem hflags hheld htold => ?_
  · dsimp only [EvtSystem.raise, EvtSystem.update]
    by_cases hne : elp' = elp
    · subst hne
      exact ⟨false, Function.update_self ..⟩
    · exact ⟨_, Function.update_of_ne hne ..⟩
  · dsimp only [EvtSystem.raise, EvtSystem.update] at hflags htold ⊢
    by_cases hne : elp' = elp
    · subst hne
      rw [Function.update_self]
      dsimp only [Listener.signalled]
      rw [Function.update_self]
      exact within_or_right ..
    · rw [Function.update_of_ne hne] at hflags htold ⊢
      exact within_raise (g := g) (h.announced esp' elp' hmem hflags
        (fun hold => hheld (heldBy_released hcast rfl hne hold)) htold)

/-- No flags of the listener are selected, so it has none. -/
theorem Inv.silent {flags : UInt32} {rest : List L} (h : g.Inv)
    (hcast : g.cast esp = some (.holds flags elp rest))
    (hsel : (g.listener elp).flags &&& (g.listener elp).wflags = 0) :
    { g with cast := Function.update g.cast esp (some (.walks flags rest)) }.Inv := by
  refine h.carry rfl (fun elp' => ⟨_, rfl⟩) (toCome_released hcast rfl) (suffix_released h hcast)
    h.sleeps fun esp' elp' hmem hflags hheld htold => ?_
  by_cases hne : elp' = elp
  · subst hne
    have hwithin := Listener.selects_within (g.listener elp').wflags (g.listener elp').got
    rw [← (h.account esp' elp' hmem).flags, Within, hsel] at hwithin
    exact absurd hwithin.symm hflags
  · exact h.announced esp' elp' hmem hflags
      (fun hold => hheld (heldBy_released hcast rfl hne hold)) htold

theorem Inv.broadcastDone {flags : UInt32} (h : g.Inv)
    (hcast : g.cast esp = some (.walks flags [])) :
    { g with cast := Function.update g.cast esp none }.Inv := by
  refine h.carry rfl (fun elp' => ⟨_, rfl⟩) (fun esp' elp' => ?_) (fun esp' b hb => ?_) h.sleeps
    fun esp' elp' hmem hflags hheld htold => ?_
  · by_cases hesp : esp' = esp
    · subst hesp
      rw [toCome_none (Function.update_self ..), toCome_notMem hcast List.not_mem_nil]
    · exact toCome_congr (Function.update_of_ne hesp ..) elp'
  · dsimp only at hb
    by_cases hesp : esp' = esp
    · subst hesp
      rw [Function.update_self] at hb
      cases hb
    · rw [Function.update_of_ne hesp] at hb
      exact h.cast esp' b hb
  · refine h.announced esp' elp' hmem hflags (fun hold => hheld ?_) htold
    obtain ⟨f, rest, hold⟩ := hold
    have hesp : esp' ≠ esp := by
      rintro rfl
      rw [hcast] at hold
      cases hold
    exact ⟨f, rest, (Function.update_of_ne hesp ..).trans hold⟩

/-- A wait returns with what it found. -/
theorem Inv.consume (h : g.Inv) (thread : T) (matched : UInt32) : (g.consume thread matched).Inv := by
  refine h.carry rfl (fun elp => ?_) (fun _ _ => rfl) h.cast (fun thread' events timed hs => ?_)
    fun esp elp hmem hflags hheld htold => ?_
  · dsimp only [EvtSystem.consume]
    split
    · exact ⟨true, rfl⟩
    · exact ⟨_, rfl⟩
  · dsimp only [EvtSystem.consume] at hs ⊢
    by_cases hthread : thread' = thread
    · subst hthread
      rw [Function.update_self] at hs
      cases hs
    · rw [Function.update_of_ne hthread] at hs ⊢
      exact h.sleeps thread' events timed hs
  · dsimp only [EvtSystem.consume] at hflags htold ⊢
    split at htold
    · cases htold
    next hno =>
      rw [if_neg hno] at hflags ⊢
      have hold := h.announced esp elp hmem hflags hheld htold
      by_cases hthread : (g.listener elp).thread = thread
      · subst hthread
        rw [Function.update_self]
        refine hold.diff ?_
        by_contra hmeet
        exact hno ⟨rfl, hmeet⟩
      · rw [Function.update_of_ne hthread]
        exact hold

/-- The flags of a listener are fetched. -/
theorem Inv.getAndClear (h : g.Inv) (elp : L) : (g.update elp Listener.getAndClear).Inv := by
  refine ⟨h.nodup, h.disjoint, h.cast, h.sleeps, fun esp elp' hmem => ?_,
    fun esp elp' hmem hflags hheld htold => ?_⟩
  · have hold := h.account esp elp' hmem
    have hcome : (g.update elp Listener.getAndClear).toCome esp elp' = g.toCome esp elp' :=
      toCome_congr rfl elp'
    rw [hcome]
    dsimp only [EvtSystem.update]
    by_cases hne : elp' = elp
    · subst hne
      rw [Function.update_self]
      refine ⟨?_, rfl, fun x hx => ?_⟩
      · dsimp only [Listener.getAndClear]
        rw [hold.sent, List.map_append, List.flatten_append, List.map_singleton,
          List.flatten_singleton, List.append_nil]
      · rcases List.mem_append.mp hx with hx | hx
        · exact hold.fetched x hx
        · rw [List.mem_singleton.mp hx]
          exact hold.flags
    · rw [Function.update_of_ne hne]
      exact hold
  · dsimp only [EvtSystem.update] at hflags htold ⊢
    by_cases hne : elp' = elp
    · subst hne
      rw [Function.update_self] at hflags
      exact absurd rfl hflags
    · rw [Function.update_of_ne hne] at hflags htold ⊢
      exact h.announced esp elp' hmem hflags hheld htold

theorem Inv.step {a : EvtAction S L T} (h : g.Inv) (hstep : Step g a g') : g'.Inv := by
  cases hstep with
  | register hfree hnew => exact h.register hfree hnew
  | unregister hfree => exact h.unregister hfree
  | broadcast hfree => exact h.broadcast hfree
  | setFlags hcast => exact h.setFlags hcast
  | signal hcast hsel => exact h.signal hcast
  | silent hcast hsel => exact h.silent hcast hsel
  | broadcastDone hcast => exact h.broadcastDone hcast
  | waitMatches hout hmatched => exact h.consume _ _
  | waitImmediate hout hnone => exact h
  | @waitSleeps thread events timeoutMs hout hnone hpos =>
    refine h.place fun thread' events' timed hs => ?_
    by_cases hthread : thread' = thread
    · subst hthread
      rw [Function.update_self] at hs
      cases hs
      exact hnone
    · rw [Function.update_of_ne hthread] at hs
      exact h.sleeps thread' events' timed hs
  | @wake thread events timed hsleeps =>
    refine h.place fun thread' events' timed' hs => ?_
    by_cases hthread : thread' = thread
    · subst hthread
      rw [Function.update_self] at hs
      cases hs
    · rw [Function.update_of_ne hthread] at hs
      exact h.sleeps thread' events' timed' hs
  | recheckMatches hwoken hmatched => exact h.consume _ _
  | @recheckSleeps thread events timed hwoken hnone =>
    refine h.place fun thread' events' timed' hs => ?_
    by_cases hthread : thread' = thread
    · subst hthread
      rw [Function.update_self] at hs
      cases hs
      exact hnone
    · rw [Function.update_of_ne hthread] at hs
      exact h.sleeps thread' events' timed' hs
  | @expire thread events hin =>
    refine h.place fun thread' events' timed' hs => ?_
    by_cases hthread : thread' = thread
    · subst hthread
      rw [Function.update_self] at hs
      cases hs
    · rw [Function.update_of_ne hthread] at hs
      exact h.sleeps thread' events' timed' hs
  | evtSignal hout => exact h.raise _ _
  | getAndClear hfree => exact h.getAndClear _

end Steps

/-! ### What the system delivers -/

/-- The history of each registered listener adds up, and no thread sleeps beside flags that it was
not told of. -/
structure Delivers (g : EvtSystem S L T) : Prop where
  /-- The broadcasts of the source since the listener was registered are, in their order, those that
  were fetched, those in the flags, and the one under way. -/
  history : ∀ esp elp, elp ∈ g.chain esp → (g.listener elp).Accounts (g.toCome esp elp)
  /-- Nothing is under way once the broadcast has returned. -/
  returned : ∀ esp elp, g.cast esp = none → g.toCome esp elp = []
  asleep : ∀ thread events timed, g.place thread = .sleeps events timed →
    ∀ esp elp, elp ∈ g.chain esp → (g.listener elp).thread = thread →
      (g.listener elp).events &&& events ≠ 0 → (g.listener elp).flags ≠ 0 →
        ¬g.HeldBy esp elp → (g.listener elp).told = true

theorem Inv.delivers {g : EvtSystem S L T} (h : g.Inv) : g.Delivers where
  history := h.account
  returned _ elp hfree := toCome_none hfree elp
  asleep thread events timed hs esp elp hmem hthread hmeet hflags hheld := by
    by_contra htold
    have hwithin := h.announced esp elp hmem hflags hheld (Bool.eq_false_iff.mpr htold)
    rw [hthread] at hwithin
    exact hwithin.meets hmeet (h.sleeps thread events timed hs)

/-- In every run of any number of broadcasting, waiting and registering threads each broadcast
reaches each listener of its source once, and wakes its thread. -/
theorem evt_delivers {g : EvtSystem S L T} (h : Reachable Fresh Moves g) : g.Delivers :=
  (h.invariant Inv (fun _ hfresh => inv_of_fresh hfresh)
    fun _ _ hg ⟨_, hstep⟩ => hg.step hstep).delivers

/-- One source, one thread that has two listeners. -/
def idle : EvtSystem Unit Bool Unit where
  chain _ := []
  cast _ := none
  listener _ :=
    { thread := (), events := 0, wflags := 0, flags := 0, sent := [], got := [], fetched := [],
      told := false }
  pending _ := 0
  place _ := .out

theorem evt_delivers_two : ∃ g : EvtSystem Unit Bool Unit, g.place () = .sleeps 1 false ∧
    (g.listener true).flags = 1 ∧ (g.listener false).fetched = [(2, [3])] ∧ g.Delivers := by
  have h₀ : Reachable Fresh Moves idle := .start ⟨fun _ => rfl, fun _ => rfl, fun _ => rfl⟩
  have h₁ := h₀.tail ⟨.register () true () 1 1, .register rfl (by rintro ⟨_, ⟨⟩⟩)⟩
  have h₂ := h₁.tail ⟨.register () false () 2 2, .register rfl (by rintro ⟨_, ⟨⟩ | ⟨_, ⟨⟩⟩⟩)⟩
  -- the thread sleeps while the broadcast walks over its listeners
  have h₃ := h₂.tail ⟨.wait () 1 0xFFFFFFFF, .waitSleeps rfl rfl (by decide)⟩
  have h₄ := h₃.tail ⟨.broadcast () 3, .broadcast rfl⟩
  have h₅ := h₄.tail ⟨.setFlags (), .setFlags rfl⟩
  have h₆ := h₅.tail ⟨.signal (), .signal rfl (by decide)⟩
  have h₇ := h₆.tail ⟨.recheck (), .recheckSleeps rfl (by decide)⟩
  have h₈ := h₇.tail ⟨.setFlags (), .setFlags rfl⟩
  have h₉ := h₈.tail ⟨.signal (), .signal rfl (by decide)⟩
  have h₁₀ := h₉.tail ⟨.broadcastDone (), .broadcastDone rfl⟩
  -- it wakes, fetches the flags of one listener and sleeps again
  have h₁₁ := h₁₀.tail ⟨.recheck (), .recheckMatches rfl (by decide)⟩
  have h₁₂ := h₁₁.tail ⟨.getAndClear false, .getAndClear (by rintro esp ⟨f, rest, ⟨⟩⟩)⟩
  have h₁₃ := h₁₂.tail ⟨.wait () 1 0xFFFFFFFF, .waitSleeps rfl (by decide) (by decide)⟩
  exact ⟨_, rfl, rfl, rfl, evt_delivers h₁₃⟩

end EvtSystem

end IoHdlc
