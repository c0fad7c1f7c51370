import IoHdlc.Pool.FramePool
import IoHdlc.Kit.LinkedList
import IoHdlc.Kit.Hysteresis
import IoHdlc.Kit.Reachable

/-!
Runs of calls of the frame pool by owners that release what they own. The free
list and the frames with an owner divide the slots between them, the counts agree
with the lists, and the watermark state is that of a level with two thresholds.
-/

namespace IoHdlc

open Kit

variable {F C A : Type} [DecidableEq F]

/-! ### Runs -/

/-- A call, with its result where it has one. -/
inductive PoolCall (F : Type) where
  | take (fp : Option F)
  | addref (fp : F)
  | release (fp : F)
  | write (fp : F)

/-- A call and the number of free frames behind it. -/
structure PoolEvent (F : Type) where
  call : PoolCall F
  free : Nat

/-- The pool in a run, and what happened so far, the latest first. -/
structure PoolRun (F C A : Type) where
  pool : FrameMemPool F C A
  /-- How many references of a frame are with owners. -/
  held : F → Nat
  events : List (PoolEvent F)
  /-- The states whose notification was due. -/
  notified : List PoolState
  calls : List (C × Option A)

namespace PoolRun

def start (pool : FrameMemPool F C A) : PoolRun F C A :=
  { pool := pool, held := fun _ => 0, events := [], notified := [], calls := [] }

/-- The run behind a call that left the pool `p`. -/
def after (r : PoolRun F C A) (p : FrameMemPool F C A) (held : F → Nat) (call : PoolCall F)
    (notice : PoolNotice C A) : PoolRun F C A :=
  { pool := p
    held := held
    events := { call := call, free := p.free.toNat } :: r.events
    notified := if notice.notify then p.state :: r.notified else r.notified
    calls := notice.call.toList ++ r.calls }

def take (r : PoolRun F C A) : PoolRun F C A :=
  let (p, fp, notice) := r.pool.take
  r.after p (fp.elim r.held fun fp => Function.update r.held fp (r.held fp + 1)) (.take fp) notice

def addref (r : PoolRun F C A) (fp : F) : PoolRun F C A :=
  r.after (r.pool.addref fp) (Function.update r.held fp (r.held fp + 1)) (.addref fp) .none

def release (r : PoolRun F C A) (fp : F) : PoolRun F C A :=
  let (p, notice) := r.pool.release fp
  r.after p (Function.update r.held fp (r.held fp - 1)) (.release fp) notice

def write (r : PoolRun F C A) (fp : F) (content : PoolFrame F) : PoolRun F C A :=
  r.after (r.pool.write fp content) r.held (.write fp) .none

end PoolRun

/-- One call. Only an owner of a frame adds a reference, releases one or writes the frame. -/
inductive PoolStep : PoolRun F C A → PoolRun F C A → Prop
  | take (r : PoolRun F C A) : PoolStep r r.take
  | addref (r : PoolRun F C A) {fp : F} (h : 0 < r.held fp) : PoolStep r (r.addref fp)
  | release (r : PoolRun F C A) {fp : F} (h : 0 < r.held fp) : PoolStep r (r.release fp)
  | write (r : PoolRun F C A) {fp : F} (content : PoolFrame F) (h : 0 < r.held fp) :
    PoolStep r (r.write fp content)

/-- A call behind which no frame has more than `limit` references. -/
def PoolStepWithin (limit : Nat) (r r' : PoolRun F C A) : Prop :=
  PoolStep r r' ∧ ∀ fp, r'.held fp ≤ limit

/-- A pool as it is set up: over distinct slots, with the watermarks of `fmpInit` or with others. -/
inductive InitialPool (frames : F → PoolFrame F) (slots : List F) : FrameMemPool F C A → Prop
  | init (framesize : Nat) : InitialPool frames slots (.ofSlots frames framesize slots)
  | config (framesize : Nat) {lowPct highPct : UInt8} (onLow onNormal : Option C) (cbArg : Option A)
    (hlow : lowPct ≤ 100) (hhigh : highPct ≤ 100) (hlt : lowPct < highPct) :
    InitialPool frames slots
      ((FrameMemPool.ofSlots frames framesize slots).configWatermark lowPct highPct onLow onNormal cbArg).1

/-! ### What holds in every run -/

/-- The calls that move the number of free frames. -/
def poolMove (e : PoolEvent F) : Option LevelMove :=
  match e.call with
  | .take (some _) => some (.fall e.free)
  | .release _ => some (.rise e.free)
  | _ => none

def FrameMemPool.thresholds (p : FrameMemPool F C A) : Thresholds :=
  { low := p.lowThreshold.toNat, high := p.highThreshold.toNat }

/-- The callbacks for a list of notifications. -/
def FrameMemPool.callsFor (p : FrameMemPool F C A) (notified : List PoolState) : List (C × Option A) :=
  notified.filterMap fun state => (if state = .lowWater then p.onLow else p.onNormal).map (·, p.cbArg)

/-- Whether a frame has been taken at least once. -/
def PoolRun.Taken (r : PoolRun F C A) (fp : F) : Prop := ∃ e ∈ r.events, e.call = .take (some fp)

/-- The free list and the counts, in a run over an arena of the given content. -/
structure PoolRun.Divided (r : PoolRun F C A) (arena : F → PoolFrame F) (slots free : List F) :
    Prop where
  linked : Linked r.pool.link r.pool.freeList free
  nodup : free.Nodup
  mem_free : ∀ fp, fp ∈ free ↔ fp ∈ slots ∧ r.held fp = 0
  held_mem : ∀ fp, 0 < r.held fp → fp ∈ slots
  total : r.pool.total.toNat = slots.length
  count : free.length + r.pool.allocated.toNat = slots.length
  refs : ∀ fp, 0 < r.held fp → (r.pool.frames fp).refs.toNat = r.held fp
  returned : ∀ fp, r.held fp = 0 → (arena fp).refs = 0 ∨ r.Taken fp → (r.pool.frames fp).refs = 0

/-- The watermark state. -/
structure PoolRun.Marked (r : PoolRun F C A) (t : Thresholds) : Prop where
  thresholds : r.pool.thresholds = t
  state : r.pool.state = .lowWater ↔ t.isLow poolMove r.events = true
  low : r.pool.state = .lowWater → r.pool.free.toNat ≤ t.high
  normal : r.pool.state = .normal → t.low < r.pool.free.toNat
  turns : TakesTurns .lowWater .normal r.notified (decide (r.pool.state = .lowWater))
  calls : r.calls = r.pool.callsFor r.notified

/-! ### The operations -/

namespace FrameMemPool

variable (p : FrameMemPool F C A)

/-- What `take` does with the frame at the head of the free list. -/
theorem take_of_some {fp : F} (h : p.freeList = some fp) :
    ∃ notice, p.take = ((p.popped fp).checkLowWatermark.1, some fp, notice) :=
  ⟨_, by rw [take, h]⟩

theorem take_of_none (h : p.freeList = none) : p.take = (p, none, .none) := by
  rw [take, h]

/-- What `release` does with the last reference. -/
theorem release_last {fp : F} (h : (p.frames fp).refs - 1 = 0) :
    ∃ notice, p.release fp = ((p.pushed fp).checkHighWatermark.1, notice) :=
  ⟨_, by rw [release, if_pos h]⟩

theorem release_more {fp : F} (h : (p.frames fp).refs - 1 ≠ 0) :
    p.release fp = ({ p with
      frames := Function.update p.frames fp { p.frames fp with refs := (p.frames fp).refs - 1 } },
      .none) := by
  rw [release, if_neg h]

end FrameMemPool

/-! ### The free list -/

namespace PoolRun.Divided

variable {r : PoolRun F C A} {arena : F → PoolFrame F} {slots free : List F} {fp : F}

omit [DecidableEq F] in
/-- The counters of the pool do not wrap. -/
theorem length_lt (h : r.Divided arena slots free) : slots.length < 2 ^ 32 :=
  h.total ▸ r.pool.total.toNat_lt

omit [DecidableEq F] in
theorem held_of_mem (h : r.Divided arena slots free) (hmem : fp ∈ free) : r.held fp = 0 :=
  ((h.mem_free fp).mp hmem).2

omit [DecidableEq F] in
theorem not_mem_free (h : r.Divided arena slots free) (hheld : 0 < r.held fp) : fp ∉ free :=
  fun hmem => absurd (h.held_of_mem hmem) (by omega)

omit [DecidableEq F] in
/-- A frame with an owner is a slot outside the free list, so the counter is not 0. -/
theorem allocated_pos (h : r.Divided arena slots free) (hheld : 0 < r.held fp) : 1 ≤ r.pool.allocated := by
  have hsub : fp :: free ⊆ slots :=
    List.cons_subset.mpr ⟨h.held_mem fp hheld, fun x hx => ((h.mem_free x).mp hx).1⟩
  have hnodup : (fp :: free).Nodup := List.nodup_cons.mpr ⟨h.not_mem_free hheld, h.nodup⟩
  have hlt : free.length < slots.length := (List.subperm_of_subset hnodup hsub).length_le
  have hcount := h.count
  rw [UInt32.le_iff_toNat_le, UInt32.toNat_one]
  omega

omit [DecidableEq F] in
theorem taken_after {p : FrameMemPool F C A} {held : F → Nat} {call : PoolCall F}
    {notice : PoolNotice C A} :
    (r.after p held call notice).Taken fp ↔ call = .take (some fp) ∨ r.Taken fp := by
  simp [PoolRun.Taken, PoolRun.after]

omit [DecidableEq F] in
theorem allocated_le (h : r.Divided arena slots free) : r.pool.allocated ≤ r.pool.total := by
  have htotal := h.total
  have hcount := h.count
  rw [UInt32.le_iff_toNat_le]
  omega

omit [DecidableEq F] in
/-- `hdlcPoolFree` is the length of the free list. -/
theorem toNat_free (h : r.Divided arena slots free) : r.pool.free.toNat = free.length := by
  have hcount := h.count
  rw [FrameMemPool.free, UInt32.toNat_sub_of_le _ _ h.allocated_le, h.total]
  omega

omit [DecidableEq F] in
/-- `hdlcPoolAllocated` counts the frames with an owner. -/
theorem toNat_allocated (h : r.Divided arena slots free) (hnodup : slots.Nodup) :
    r.pool.allocated.toNat = slots.countP (fun fp => 0 < r.held fp) := by
  have hperm : free.Perm (slots.filter fun fp => ¬0 < r.held fp) := by
    rw [List.perm_ext_iff_of_nodup h.nodup (hnodup.filter _)]
    intro fp
    simp [h.mem_free]
  have hfree : free.length = slots.countP (fun fp => ¬0 < r.held fp) := by
    rw [hperm.length_eq, List.countP_eq_length_filter]
  have hsplit := List.length_eq_countP_add_countP (fun fp => decide (0 < r.held fp)) (l := slots)
  have hcount := h.count
  simp only [decide_eq_true_eq] at hsplit hfree
  omega

/-- A call that touches one slot: what holds of the others still does, and the new free list has the
slot exactly if it has no owner left. -/
theorem touched (h : r.Divided arena slots free) {p : FrameMemPool F C A} {call : PoolCall F}
    {notice : PoolNotice C A} {n : Nat} {free' : List F} (hslot : fp ∈ slots)
    (hother : ∀ x ≠ fp, p.frames x = r.pool.frames x) (htotal : p.total = r.pool.total)
    (hcall : ∀ x ≠ fp, call ≠ .take (some x))
    (hlinked : Linked p.link p.freeList free') (hnodup : free'.Nodup)
    (hfree : ∀ x ≠ fp, (x ∈ free' ↔ x ∈ free)) (hfp : fp ∈ free' ↔ n = 0)
    (hcount : free'.length + p.allocated.toNat = slots.length)
    (hrefs : (p.frames fp).refs.toNat = n) :
    (r.after p (Function.update r.held fp n) call notice).Divided arena slots free' := by
  constructor
  case linked => exact hlinked
  case nodup => exact hnodup
  case mem_free =>
    intro x
    by_cases hx : x = fp
    · simp [PoolRun.after, hx, hfp, hslot]
    · simpa [PoolRun.after, hx, hfree x hx] using h.mem_free x
  case held_mem =>
    intro x hpos
    by_cases hx : x = fp
    · exact hx ▸ hslot
    · exact h.held_mem x (by simpa [PoolRun.after, hx] using hpos)
  case total => exact htotal ▸ h.total
  case count => exact hcount
  case refs =>
    intro x hpos
    by_cases hx : x = fp
    · simp [PoolRun.after, hx, hrefs]
    · have hsame := h.refs x (by simpa [PoolRun.after, hx] using hpos)
      simpa [PoolRun.after, hx, hother x hx] using hsame
  case returned =>
    intro x hzero hclear
    by_cases hx : x = fp
    · have hn : n = 0 := by simpa [PoolRun.after, hx] using hzero
      change (p.frames x).refs = 0
      rw [hx, ← UInt8.toNat_inj, hrefs, hn]
      rfl
    · have hreturned := h.returned x (by simpa [PoolRun.after, hx] using hzero)
        (hclear.imp_right fun h => (taken_after.mp h).resolve_left (hcall x hx))
      simpa [PoolRun.after, hother x hx] using hreturned

theorem take (h : r.Divided arena slots free) : ∃ free', r.take.Divided arena slots free' := by
  cases hhead : r.pool.freeList with
  | none =>
    refine ⟨free, ?_⟩
    rw [PoolRun.take, r.pool.take_of_none hhead]
    exact ⟨h.linked, h.nodup, h.mem_free, h.held_mem, h.total, h.count, h.refs, fun fp hheld hclear =>
      h.returned fp hheld (hclear.imp_right fun h => (taken_after.mp h).resolve_left (by simp))⟩
  | some fp =>
    obtain ⟨rest, rfl, hrest⟩ := (hhead ▸ h.linked).of_some
    obtain ⟨hfp, hnodup⟩ := List.nodup_cons.mp h.nodup
    have hheld : r.held fp = 0 := h.held_of_mem List.mem_cons_self
    obtain ⟨notice, heq⟩ := r.pool.take_of_some hhead
    rw [FrameMemPool.checkLowWatermark_fst] at heq
    generalize hp : ({ r.pool.popped fp with state := _ } : FrameMemPool F C A) = p' at heq
    obtain ⟨hfreeList, hframes, hallocated, htotal⟩ : p'.freeList = r.pool.link fp ∧
        p'.frames = Function.update r.pool.frames fp (FrameMemPool.takenFrame (r.pool.frames fp)) ∧
        p'.allocated = r.pool.allocated + 1 ∧ p'.total = r.pool.total := by
      rw [← hp]
      exact ⟨rfl, rfl, rfl, rfl⟩
    have hrun : r.take =
        r.after p' (Function.update r.held fp (r.held fp + 1)) (.take (some fp)) notice := by
      rw [PoolRun.take, heq]
      rfl
    have hother : ∀ x ≠ fp, p'.frames x = r.pool.frames x := by
      intro x hx
      rw [hframes, Function.update_of_ne hx]
    refine ⟨rest, ?_⟩
    rw [hrun]
    apply h.touched ((h.mem_free fp).mp List.mem_cons_self).1 hother htotal
    case hcall => simpa using fun x hx => Ne.symm hx
    case hlinked =>
      -- the taken frame keeps its link
      have hlink : ∀ x, p'.link x = r.pool.link x := by
        intro x
        rw [FrameMemPool.link, FrameMemPool.link]
        by_cases hx : x = fp
        · rw [hx, hframes, Function.update_self]
          rfl
        · rw [hother x hx]
      exact (hfreeList ▸ hrest).congr fun x _ => hlink x
    case hnodup => exact hnodup
    case hfree => exact fun x hx => by rw [List.mem_cons, or_iff_right hx]
    case hfp => simp [hfp]
    case hcount =>
      have hcount := h.count
      have hlt := h.length_lt
      rw [List.length_cons] at hcount
      rw [hallocated, UInt32.toNat_add, UInt32.toNat_one]
      omega
    case hrefs =>
      rw [hframes, Function.update_self, hheld]
      rfl

/-- A call that leaves a frame with an owner touches no other frame. -/
theorem owned (h : r.Divided arena slots free) (p : FrameMemPool F C A) (content : PoolFrame F)
    (call : PoolCall F) (notice : PoolNotice C A) {n : Nat} (hheld : 0 < r.held fp) (hn : 0 < n)
    (hframes : p.frames = Function.update r.pool.frames fp content)
    (hrefs : content.refs.toNat = n) (hfreeList : p.freeList = r.pool.freeList)
    (hallocated : p.allocated = r.pool.allocated) (htotal : p.total = r.pool.total)
    (hcall : ∀ x, call ≠ .take (some x)) :
    (r.after p (Function.update r.held fp n) call notice).Divided arena slots free := by
  have hfp : fp ∉ free := h.not_mem_free hheld
  have hother : ∀ x ≠ fp, p.frames x = r.pool.frames x := by
    intro x hx
    rw [hframes, Function.update_of_ne hx]
  apply h.touched (h.held_mem fp hheld) hother htotal fun x _ => hcall x
  case hlinked =>
    refine (hfreeList ▸ h.linked : Linked r.pool.link p.freeList free).congr fun x hx => ?_
    exact congrArg PoolFrame.next (hother x (ne_of_mem_of_not_mem hx hfp))
  case hnodup => exact h.nodup
  case hfree => exact fun _ _ => Iff.rfl
  case hfp => exact iff_of_false hfp hn.ne'
  case hcount => exact hallocated ▸ h.count
  case hrefs => rw [hframes, Function.update_self, hrefs]

theorem addref (h : r.Divided arena slots free) (hheld : 0 < r.held fp) (hlimit : r.held fp < 255) :
    (r.addref fp).Divided arena slots free := by
  have hrefs := h.refs fp hheld
  refine h.owned (r.pool.addref fp) { r.pool.frames fp with refs := (r.pool.frames fp).refs + 1 }
    (.addref fp) .none hheld (Nat.succ_pos _) rfl ?_ rfl rfl rfl (fun _ => by simp)
  rw [UInt8.toNat_add, hrefs, UInt8.toNat_one]
  exact Nat.mod_eq_of_lt (by omega)

theorem write (h : r.Divided arena slots free) (hheld : 0 < r.held fp) (content : PoolFrame F) :
    (r.write fp content).Divided arena slots free := by
  have howned := h.owned (r.pool.write fp content)
    { content with refs := (r.pool.frames fp).refs } (.write fp) .none hheld hheld rfl
    (h.refs fp hheld) rfl rfl rfl (fun _ => by simp)
  rw [Function.update_eq_self] at howned
  exact howned

theorem release (h : r.Divided arena slots free) (hheld : 0 < r.held fp) :
    ∃ free', (r.release fp).Divided arena slots free' := by
  have hrefs := h.refs fp hheld
  have hpred : ((r.pool.frames fp).refs - 1).toNat = r.held fp - 1 := by
    rw [UInt8.toNat_sub_of_le _ _ (by rw [UInt8.le_iff_toNat_le, hrefs]; exact hheld), hrefs]
    rfl
  by_cases hlast : (r.pool.frames fp).refs - 1 = 0
  · have hone : r.held fp = 1 := by
      rw [hlast] at hpred
      have hzero : r.held fp - 1 = 0 := hpred.symm
      omega
    have hfp : fp ∉ free := h.not_mem_free hheld
    obtain ⟨notice, heq⟩ := r.pool.release_last hlast
    rw [FrameMemPool.checkHighWatermark_fst] at heq
    generalize hp : ({ r.pool.pushed fp with state := _ } : FrameMemPool F C A) = p' at heq
    obtain ⟨hfreeList, hframes, hallocated, htotal⟩ : p'.freeList = some fp ∧
        p'.frames = Function.update r.pool.frames fp
          ({ r.pool.frames fp with refs := 0, next := r.pool.freeList }) ∧
        p'.allocated = r.pool.allocated - 1 ∧ p'.total = r.pool.total := by
      rw [← hp]
      exact ⟨rfl, rfl, rfl, rfl⟩
    have hrun : r.release fp =
        r.after p' (Function.update r.held fp (r.held fp - 1)) (.release fp) notice := by
      rw [PoolRun.release, heq]
    have hother : ∀ x ≠ fp, p'.frames x = r.pool.frames x := by
      intro x hx
      rw [hframes, Function.update_of_ne hx]
    refine ⟨fp :: free, ?_⟩
    rw [hrun]
    apply h.touched (h.held_mem fp hheld) hother htotal
    case hcall => exact fun _ _ => by simp
    case hlinked =>
      refine (hfreeList ▸ h.linked.push hfp ?_ fun x hx => ?_ : Linked p'.link p'.freeList _)
      · rw [FrameMemPool.link, hframes, Function.update_self]
      · rw [FrameMemPool.link, FrameMemPool.link, hother x hx]
    case hnodup => exact List.nodup_cons.mpr ⟨hfp, h.nodup⟩
    case hfree => exact fun x hx => by rw [List.mem_cons, or_iff_right hx]
    case hfp => simp [hone]
    case hcount =>
      have hcount := h.count
      have hpos := h.allocated_pos hheld
      have hone : 1 ≤ r.pool.allocated.toNat := UInt32.le_iff_toNat_le.mp hpos
      rw [hallocated, UInt32.toNat_sub_of_le _ _ hpos, UInt32.toNat_one, List.length_cons]
      omega
    case hrefs =>
      rw [hframes, Function.update_self, hone]
      rfl
  · have hmore : 0 < r.held fp - 1 := by
      rw [← hpred, Nat.pos_iff_ne_zero]
      exact fun h => hlast (UInt8.toNat_inj.mp h)
    refine ⟨free, ?_⟩
    rw [PoolRun.release, r.pool.release_more hlast]
    exact h.owned _ { r.pool.frames fp with refs := (r.pool.frames fp).refs - 1 } (.release fp) .none
      hheld hmore rfl hpred rfl rfl rfl (fun _ => by simp)

/-- Every call keeps the free list and the counts. -/
theorem step {r' : PoolRun F C A} (h : r.Divided arena slots free) (hstep : PoolStepWithin 255 r r') :
    ∃ free', r'.Divided arena slots free' := by
  obtain ⟨hstep, hlimit⟩ := hstep
  cases hstep with
  | take => exact h.take
  | @addref fp hheld =>
    have hlt : r.held fp < 255 := by
      have hle := hlimit fp
      simp only [PoolRun.addref, PoolRun.after, Function.update_self] at hle
      omega
    exact ⟨free, h.addref hheld hlt⟩
  | release hheld => exact h.release hheld
  | write content hheld => exact ⟨free, h.write hheld content⟩

end PoolRun.Divided

/-! ### The watermarks -/

section Watermarks

omit [DecidableEq F]

/-- Two pools with one set-up of the watermarks. -/
structure FrameMemPool.SameMarks (p q : FrameMemPool F C A) : Prop where
  low : q.lowThreshold = p.lowThreshold
  high : q.highThreshold = p.highThreshold
  onLow : q.onLow = p.onLow
  onNormal : q.onNormal = p.onNormal
  cbArg : q.cbArg = p.cbArg

namespace FrameMemPool.SameMarks

variable {p q : FrameMemPool F C A}

theorem thresholds (h : p.SameMarks q) : q.thresholds = p.thresholds := by
  rw [FrameMemPool.thresholds, FrameMemPool.thresholds, h.low, h.high]

theorem callsFor (h : p.SameMarks q) (notified : List PoolState) :
    q.callsFor notified = p.callsFor notified := by
  simp only [FrameMemPool.callsFor, h.onLow, h.onNormal, h.cbArg]

end FrameMemPool.SameMarks

theorem FrameMemPool.callsFor_cons (p : FrameMemPool F C A) (state : PoolState)
    (notified : List PoolState) :
    p.callsFor (state :: notified) =
      ((if state = .lowWater then p.onLow else p.onNormal).map (·, p.cbArg)).toList ++
        p.callsFor notified := by
  rw [callsFor, List.filterMap_cons]
  cases (if state = .lowWater then p.onLow else p.onNormal) <;> rfl

namespace PoolRun.Marked

variable {r : PoolRun F C A} {t : Thresholds}

/-- What a call has to do with the state, its bounds and the notification. -/
theorem after (h : r.Marked t) (p : FrameMemPool F C A) (held : F → Nat) (call : PoolCall F)
    (notice : PoolNotice C A) (hp : r.pool.SameMarks p)
    (hstate : decide (p.state = .lowWater) =
      ((poolMove { call := call, free := p.free.toNat }).map
        (t.lowAfter (decide (r.pool.state = .lowWater)))).getD (decide (r.pool.state = .lowWater)))
    (hlow : p.state = .lowWater → p.free.toNat ≤ t.high)
    (hnormal : p.state = .normal → t.low < p.free.toNat)
    (hnotify : notice.notify = decide (p.state ≠ r.pool.state))
    (hcall : notice.call = if notice.notify then
      (if p.state = .lowWater then p.onLow else p.onNormal).map (·, p.cbArg) else none) :
    (r.after p held call notice).Marked t := by
  have hbefore : decide (r.pool.state = .lowWater) = t.isLow poolMove r.events := by
    rw [Bool.eq_iff_iff, decide_eq_true_iff]
    exact h.state
  constructor
  case thresholds => exact hp.thresholds.trans h.thresholds
  case state =>
    rw [hbefore] at hstate
    rw [PoolRun.after, Thresholds.isLow, ← hstate, decide_eq_true_iff]
  case low => exact hlow
  case normal => exact hnormal
  case turns =>
    have hturns := h.turns
    rw [PoolRun.after, hnotify]
    cases hr : r.pool.state <;> cases hs : p.state <;> rw [hr] at hturns
    · exact hturns
    · exact hturns.first
    · exact hturns.other
    · exact hturns
  case calls =>
    rw [PoolRun.after, h.calls, hcall, hp.callsFor]
    split
    · rw [FrameMemPool.callsFor_cons, hp.onLow, hp.onNormal, hp.cbArg]
    · rfl

/-- A call that leaves the state as it was and notifies nobody. -/
theorem keeps (h : r.Marked t) (p : FrameMemPool F C A) (held : F → Nat) (call : PoolCall F)
    (hp : r.pool.SameMarks p) (hstate : p.state = r.pool.state)
    (hmove : decide (p.state = .lowWater) =
      ((poolMove { call := call, free := p.free.toNat }).map
        (t.lowAfter (decide (p.state = .lowWater)))).getD (decide (p.state = .lowWater)))
    (hlow : p.state = .lowWater → p.free.toNat ≤ t.high)
    (hnormal : p.state = .normal → t.low < p.free.toNat) :
    (r.after p held call .none).Marked t := by
  refine h.after p held call .none hp ?_ hlow hnormal (by simp [PoolNotice.none, hstate]) rfl
  rw [← hstate]
  exact hmove

/-- A call that changes neither the state nor the number of free frames. -/
theorem quiet (h : r.Marked t) (p : FrameMemPool F C A) (held : F → Nat) (call : PoolCall F)
    (hp : r.pool.SameMarks p) (hstate : p.state = r.pool.state) (hfree : p.free = r.pool.free)
    (hcall : ∀ fp, call ≠ .take (some fp)) :
    (r.after p held call .none).Marked t := by
  refine h.keeps p held call hp hstate ?_ (fun hlow => hfree ▸ h.low (hstate ▸ hlow))
    fun hnormal => hfree ▸ h.normal (hstate ▸ hnormal)
  rw [hstate, hfree]
  cases call with
  | take fp =>
    cases fp with
    | none => rfl
    | some fp => exact absurd rfl (hcall fp)
  | addref fp => rfl
  | write fp => rfl
  | release fp =>
    -- behind the rise to the same level the state is still low
    cases hr : r.pool.state with
    | normal => rfl
    | lowWater => simp [poolMove, Thresholds.lowAfter, h.low hr]

theorem fall (h : r.Marked t) (ht : t.low ≤ t.high) (q : FrameMemPool F C A)
    (hq : r.pool.SameMarks q) (hstate : q.state = r.pool.state) (hle : q.free ≤ r.pool.free)
    (held : F → Nat) (fp : F) :
    (r.after q.checkLowWatermark.1 held (.take (some fp))
      (.of q.checkLowWatermark.2.1 q.checkLowWatermark.2.2 q.checkLowWatermark.1.cbArg)).Marked t := by
  have hlow : q.lowThreshold.toNat = t.low := congrArg Thresholds.low (hq.thresholds.trans h.thresholds)
  rw [UInt32.le_iff_toNat_le] at hle
  cases hs : q.state with
  | lowWater =>
    have hcheck : q.checkLowWatermark = (q, false, none) := if_neg (by simp [hs])
    rw [hcheck]
    exact h.keeps q held _ hq hstate (by simp [poolMove, Thresholds.lowAfter, hs])
      (fun _ => hle.trans (h.low (hstate ▸ hs))) fun hn => by cases hn.symm.trans hs
  | normal =>
    by_cases hfree : q.free ≤ q.lowThreshold
    · have hcheck : q.checkLowWatermark = ({ q with state := .lowWater }, true, q.onLow) :=
        if_pos ⟨hs, hfree⟩
      rw [UInt32.le_iff_toNat_le, hlow] at hfree
      rw [hcheck]
      refine h.after { q with state := .lowWater } held _ (.of true q.onLow q.cbArg)
        ⟨hq.low, hq.high, hq.onLow, hq.onNormal, hq.cbArg⟩ ?_ (fun _ => hfree.trans ht)
        (fun h => by cases h) ?_ rfl
      · have hfree' : ({ q with state := .lowWater } : FrameMemPool F C A).free.toNat ≤ t.low := hfree
        simp [poolMove, Thresholds.lowAfter, hfree']
      · rw [← hstate, hs]
        rfl
    · have hcheck : q.checkLowWatermark = (q, false, none) := if_neg fun h => hfree h.2
      rw [UInt32.le_iff_toNat_le, hlow] at hfree
      rw [hcheck]
      exact h.keeps q held _ hq hstate (by simp [poolMove, Thresholds.lowAfter, hs, hfree])
        (fun hl => by cases hl.symm.trans hs) fun _ => by omega

theorem rise (h : r.Marked t) (ht : t.low ≤ t.high) (q : FrameMemPool F C A)
    (hq : r.pool.SameMarks q) (hstate : q.state = r.pool.state) (hle : r.pool.free ≤ q.free)
    (held : F → Nat) (fp : F) :
    (r.after q.checkHighWatermark.1 held (.release fp)
      (.of q.checkHighWatermark.2.1 q.checkHighWatermark.2.2 q.checkHighWatermark.1.cbArg)).Marked t := by
  have hhigh : q.highThreshold.toNat = t.high :=
    congrArg Thresholds.high (hq.thresholds.trans h.thresholds)
  rw [UInt32.le_iff_toNat_le] at hle
  cases hs : q.state with
  | normal =>
    have hcheck : q.checkHighWatermark = (q, false, none) := if_neg (by simp [hs])
    rw [hcheck]
    exact h.keeps q held _ hq hstate (by simp [poolMove, Thresholds.lowAfter, hs])
      (fun hl => by cases hl.symm.trans hs) fun _ => (h.normal (hstate ▸ hs)).trans_le hle
  | lowWater =>
    by_cases hfree : q.free > q.highThreshold
    · have hcheck : q.checkHighWatermark = ({ q with state := .normal }, true, q.onNormal) :=
        if_pos ⟨hs, hfree⟩
      rw [gt_iff_lt, UInt32.lt_iff_toNat_lt, hhigh] at hfree
      rw [hcheck]
      refine h.after { q with state := .normal } held _ (.of true q.onNormal q.cbArg)
        ⟨hq.low, hq.high, hq.onLow, hq.onNormal, hq.cbArg⟩ ?_ (fun h => by cases h)
        (fun _ => ht.trans_lt hfree) ?_ rfl
      · have hfree' : t.high < ({ q with state := .normal } : FrameMemPool F C A).free.toNat := hfree
        simp [poolMove, Thresholds.lowAfter, hfree']
      · rw [← hstate, hs]
        rfl
    · have hcheck : q.checkHighWatermark = (q, false, none) := if_neg fun h => hfree h.2
      rw [gt_iff_lt, UInt32.lt_iff_toNat_lt, hhigh] at hfree
      rw [hcheck]
      have hle' : q.free.toNat ≤ t.high := by omega
      exact h.keeps q held _ hq hstate (by simp [poolMove, Thresholds.lowAfter, hs, hle'])
        (fun _ => hle') fun hn => by cases hn.symm.trans hs

end PoolRun.Marked

end Watermarks

/-- Every call keeps the watermark state. -/
theorem PoolRun.Marked.step {r r' : PoolRun F C A} {arena : F → PoolFrame F}
    {slots free : List F} {t : Thresholds}
    (h : r.Marked t) (ht : t.low ≤ t.high) (hr : r.Divided arena slots free) (hstep : PoolStep r r') :
    r'.Marked t := by
  have hcount := hr.count
  have htotal := hr.total
  have hlt := hr.length_lt
  cases hstep with
  | take =>
    cases hhead : r.pool.freeList with
    | none =>
      rw [PoolRun.take, r.pool.take_of_none hhead]
      exact h.quiet r.pool _ _ ⟨rfl, rfl, rfl, rfl, rfl⟩ rfl rfl (fun _ => by simp)
    | some fp =>
      obtain ⟨rest, rfl, -⟩ := (hhead ▸ hr.linked).of_some
      rw [List.length_cons] at hcount
      have hle : (r.pool.popped fp).free ≤ r.pool.free := by
        have hallocated : (r.pool.allocated + 1).toNat = r.pool.allocated.toNat + 1 := by
          rw [UInt32.toNat_add, UInt32.toNat_one]
          exact Nat.mod_eq_of_lt (by omega)
        have hfits : r.pool.allocated + 1 ≤ r.pool.total := by
          rw [UInt32.le_iff_toNat_le]
          omega
        rw [UInt32.le_iff_toNat_le, hr.toNat_free, List.length_cons, FrameMemPool.free,
          FrameMemPool.popped, UInt32.toNat_sub_of_le _ _ hfits]
        omega
      rw [PoolRun.take, FrameMemPool.take, hhead]
      exact h.fall ht (r.pool.popped fp) ⟨rfl, rfl, rfl, rfl, rfl⟩ rfl hle _ fp
  | @addref fp hheld =>
    exact h.quiet (r.pool.addref fp) _ _ ⟨rfl, rfl, rfl, rfl, rfl⟩ rfl rfl (fun _ => by simp)
  | @write fp content hheld =>
    exact h.quiet (r.pool.write fp content) _ _ ⟨rfl, rfl, rfl, rfl, rfl⟩ rfl rfl (fun _ => by simp)
  | @release fp hheld =>
    by_cases hlast : (r.pool.frames fp).refs - 1 = 0
    · have hpos : (1 : UInt32) ≤ r.pool.allocated := hr.allocated_pos hheld
      have hle : r.pool.free ≤ (r.pool.pushed fp).free := by
        have hallocated := UInt32.toNat_sub_of_le _ _ hpos
        have hfits : r.pool.allocated - 1 ≤ r.pool.total := by
          rw [UInt32.le_iff_toNat_le]
          omega
        rw [UInt32.le_iff_toNat_le, hr.toNat_free, FrameMemPool.free, FrameMemPool.pushed,
          UInt32.toNat_sub_of_le _ _ hfits]
        omega
      rw [PoolRun.release, FrameMemPool.release, if_pos hlast]
      exact h.rise ht (r.pool.pushed fp) ⟨rfl, rfl, rfl, rfl, rfl⟩ rfl hle _ fp
    · rw [PoolRun.release, r.pool.release_more hlast]
      exact h.quiet _ _ (.release fp) ⟨rfl, rfl, rfl, rfl, rfl⟩ rfl rfl (fun _ => by simp)

/-! ### The pools as they are set up -/

namespace FrameMemPool

variable {frames : F → PoolFrame F} {freeList : Option F} {slots free : List F}

/-- The loop of `fmpInit` pushes the slots in front of what is there. -/
theorem loadFrames_spec (hlinked : Linked (fun fp => (frames fp).next) freeList free)
    (hnodup : slots.Nodup) (hnew : ∀ fp ∈ slots, fp ∉ free) :
    Linked (fun fp => ((loadFrames frames freeList slots).1 fp).next)
        (loadFrames frames freeList slots).2 (slots.reverse ++ free) ∧
      ∀ fp, ((loadFrames frames freeList slots).1 fp).refs = (frames fp).refs := by
  induction slots generalizing frames freeList free with
  | nil => exact ⟨hlinked, fun _ => rfl⟩
  | cons elem slots ih =>
    obtain ⟨helem, hnodup⟩ := List.nodup_cons.mp hnodup
    have hpush : Linked (fun fp =>
        (Function.update frames elem { frames elem with next := freeList } fp).next)
        (some elem) (elem :: free) := by
      refine hlinked.push (hnew elem List.mem_cons_self) (by rw [Function.update_self]) fun fp hfp => ?_
      rw [Function.update_of_ne hfp]
    obtain ⟨hlinked', hrefs⟩ := ih hpush hnodup fun fp hfp hmem => by
      rcases List.mem_cons.mp hmem with rfl | hmem
      · exact helem hfp
      · exact hnew fp (List.mem_cons_of_mem _ hfp) hmem
    rw [List.reverse_cons, List.append_assoc]
    refine ⟨hlinked', fun fp => (hrefs fp).trans ?_⟩
    by_cases hfp : fp = elem
    · rw [hfp, Function.update_self]
    · rw [Function.update_of_ne hfp]

/-- A threshold below a hundred percent is below the total, however the product wraps. -/
theorem pct_threshold_lt {total : UInt32} {pct : UInt8} (hpct : pct.toNat < 100)
    (hpos : 0 < total.toNat) : (total * pct.toUInt32 / 100).toNat < total.toNat := by
  have hwrap : (total * pct.toUInt32).toNat ≤ total.toNat * pct.toNat := by
    rw [UInt32.toNat_mul, UInt8.toNat_toUInt32]
    exact Nat.mod_le ..
  have hlt : total.toNat * pct.toNat < total.toNat * 100 := Nat.mul_lt_mul_of_pos_left hpct hpos
  rw [UInt32.toNat_div]
  refine Nat.div_lt_of_lt_mul ((hwrap.trans_lt hlt).trans_eq ?_)
  exact Nat.mul_comm ..

end FrameMemPool

namespace InitialPool

variable {frames : F → PoolFrame F} {slots : List F} {p : FrameMemPool F C A}

theorem divided (h : InitialPool frames slots p) (hnodup : slots.Nodup)
    (hlen : slots.length < 2 ^ 32) : (PoolRun.start p).Divided frames slots slots.reverse := by
  obtain ⟨hlinked, hrefs⟩ := FrameMemPool.loadFrames_spec
    (show Linked (fun fp => (frames fp).next) none [] from rfl) hnodup (fun _ _ => by simp)
  rw [List.append_nil] at hlinked
  obtain ⟨hfreeList, hframes, htotal, hallocated⟩ :
      p.freeList = (FrameMemPool.loadFrames frames none slots).2 ∧
        p.frames = (FrameMemPool.loadFrames frames none slots).1 ∧
        p.total = UInt32.ofNat slots.length ∧ p.allocated = 0 := by
    cases h <;> exact ⟨rfl, rfl, rfl, rfl⟩
  constructor
  case linked =>
    rw [PoolRun.start, hfreeList]
    exact hlinked.congr fun x _ => by rw [FrameMemPool.link, hframes]
  case nodup => exact List.nodup_reverse.mpr hnodup
  case mem_free => simp [PoolRun.start]
  case held_mem => exact fun _ h => absurd h (Nat.lt_irrefl 0)
  case total =>
    rw [PoolRun.start, htotal, UInt32.toNat_ofNat']
    exact Nat.mod_eq_of_lt hlen
  case count =>
    rw [PoolRun.start, hallocated, List.length_reverse]
    rfl
  case refs => exact fun _ h => absurd h (Nat.lt_irrefl 0)
  case returned =>
    intro fp _ hclear
    have hzero : (frames fp).refs = 0 := hclear.resolve_right (by simp [PoolRun.Taken, PoolRun.start])
    rw [PoolRun.start, hframes, hrefs, hzero]

/-- The thresholds of a pool that is set up are percentages of its total, which is free. -/
theorem percentages (h : InitialPool frames slots p) :
    ∃ lowPct highPct : UInt8, lowPct.toNat < 100 ∧ p.free = p.total ∧
      p.lowThreshold = p.total * lowPct.toUInt32 / 100 ∧
      p.highThreshold = p.total * highPct.toUInt32 / 100 ∧
      (p.lowThreshold < p.free → p.state = .normal) := by
  cases h with
  | init framesize => exact ⟨20, 60, by decide, UInt32.sub_zero _, rfl, rfl, fun _ => rfl⟩
  | @config framesize lowPct highPct onLow onNormal cbArg hlow hhigh hlt =>
    refine ⟨lowPct, highPct, ?_, UInt32.sub_zero _, rfl, rfl, fun hfree => ?_⟩
    · rw [UInt8.le_iff_toNat_le] at hhigh
      rw [UInt8.lt_iff_toNat_lt] at hlt
      exact hlt.trans_le hhigh
    · exact if_neg (UInt32.not_le.mpr hfree)

/-- Thresholds that differ need frames. -/
theorem total_pos (h : InitialPool frames slots p) (hlt : p.lowThreshold < p.highThreshold) :
    0 < p.total.toNat := by
  obtain ⟨lowPct, highPct, -, -, hlow, hhigh, -⟩ := h.percentages
  by_contra hzero
  have htotal : p.total = 0 := UInt32.toNat_inj.mp (Nat.eq_zero_of_not_pos hzero)
  rw [hlow, hhigh, htotal, UInt32.zero_mul, UInt32.zero_mul] at hlt
  exact absurd hlt (UInt32.lt_irrefl _)

/-- The pool starts in the normal state, above its lower threshold. -/
theorem above_low (h : InitialPool frames slots p) (hpos : 0 < p.total.toNat) :
    p.state = .normal ∧ p.lowThreshold < p.free := by
  obtain ⟨lowPct, highPct, hpct, hfree, hlow, -, hstate⟩ := h.percentages
  have habove : p.lowThreshold < p.free := by
    rw [UInt32.lt_iff_toNat_lt, hfree, hlow]
    exact FrameMemPool.pct_threshold_lt hpct hpos
  exact ⟨hstate habove, habove⟩

theorem marked (h : InitialPool frames slots p) (hpos : 0 < p.total.toNat) :
    (PoolRun.start p).Marked p.thresholds := by
  obtain ⟨hnormal, hlow⟩ := h.above_low hpos
  constructor
  case thresholds => rfl
  case state => simp [PoolRun.start, hnormal, Thresholds.isLow]
  case low => exact fun hs => by cases hs.symm.trans hnormal
  case normal => exact fun _ => UInt32.lt_iff_toNat_lt.mp hlow
  case turns =>
    rw [PoolRun.start, hnormal]
    exact .start
  case calls => rfl

end InitialPool

/-! ### Every run -/

section Runs

variable {frames : F → PoolFrame F} {slots : List F} {p₀ : FrameMemPool F C A} {r : PoolRun F C A}

theorem InitialPool.run_divided (h : InitialPool frames slots p₀) (hnodup : slots.Nodup)
    (hlen : slots.length < 2 ^ 32) (hpos : 0 < p₀.total.toNat)
    (hle : p₀.lowThreshold ≤ p₀.highThreshold)
    (hr : Reachable (· = .start p₀) (PoolStepWithin 255) r) :
    ∃ free, r.Divided frames slots free ∧ r.Marked p₀.thresholds := by
  refine hr.invariant (fun r => ∃ free, r.Divided frames slots free ∧ r.Marked p₀.thresholds) ?_ ?_
  · rintro _ rfl
    exact ⟨_, h.divided hnodup hlen, h.marked hpos⟩
  · rintro r r' ⟨free, hdivided, hmarked⟩ hstep
    obtain ⟨free', hdivided'⟩ := hdivided.step hstep
    exact ⟨free', hdivided', hmarked.step hle hdivided hstep.1⟩

/-- The free list, the counts and the watermarks, in a run from the pool `p₀` over an arena. -/
structure PoolRun.Sound (r : PoolRun F C A) (arena : F → PoolFrame F) (slots : List F)
    (p₀ : FrameMemPool F C A) : Prop where
  lists : ∃ free, Linked r.pool.link r.pool.freeList free ∧ free.Nodup ∧
    (∀ fp, fp ∈ free ↔ fp ∈ slots ∧ r.held fp = 0) ∧
    free.length + r.pool.allocated.toNat = r.pool.total.toNat ∧
    (r.pool.take.2.1 = none ↔ free = [])
  allocated : r.pool.allocated.toNat = slots.countP (fun fp => 0 < r.held fp)
  refs : ∀ fp, 0 < r.held fp → (r.pool.frames fp).refs.toNat = r.held fp
  refs_pos : ∀ fp ∈ slots, (arena fp).refs = 0 ∨ r.Taken fp →
    (0 < r.held fp ↔ 0 < (r.pool.frames fp).refs)
  low : r.pool.state = .lowWater ↔ p₀.thresholds.FellLow poolMove r.events
  alternate : r.notified.reverse = (List.range r.notified.length).map
    (fun i => if i % 2 = 0 then .lowWater else .normal)
  calls : r.calls = r.pool.callsFor r.notified

end Runs

/-! ### Release of everything -/

/-- The run behind the release of every reference of the given frames. -/
def PoolRun.releaseAll (r : PoolRun F C A) : List F → PoolRun F C A
  | [] => r
  | fp :: rest => PoolRun.releaseAll ((fun r => r.release fp)^[r.held fp] r) rest

section ReleaseAll

variable {init : PoolRun F C A → Prop} {limit : Nat} {r : PoolRun F C A} {fp : F}

theorem PoolRun.held_release (r : PoolRun F C A) (fp : F) :
    (r.release fp).held = Function.update r.held fp (r.held fp - 1) := rfl

theorem PoolRun.iterate_release (hr : Reachable init (PoolStepWithin limit) r)
    (hlimit : ∀ x, r.held x ≤ limit) {k : Nat} (hk : k ≤ r.held fp) :
    Reachable init (PoolStepWithin limit) ((fun r => r.release fp)^[k] r) ∧
      ((fun r => r.release fp)^[k] r).held = Function.update r.held fp (r.held fp - k) := by
  induction k with
  | zero => exact ⟨hr, (Function.update_eq_self fp r.held).symm⟩
  | succ k ih =>
    obtain ⟨hreach, hheld⟩ := ih (by omega)
    rw [Function.iterate_succ_apply']
    generalize (fun r : PoolRun F C A => r.release fp)^[k] r = r' at hreach hheld ⊢
    have hnext : (r'.release fp).held = Function.update r.held fp (r.held fp - (k + 1)) := by
      rw [PoolRun.held_release, hheld, Function.update_idem, Function.update_self, Nat.sub_sub]
    refine ⟨hreach.tail ⟨.release r' ?_, fun x => ?_⟩, hnext⟩
    · rw [hheld, Function.update_self]
      omega
    · rw [hnext]
      by_cases hx : x = fp
      · have hle := hlimit fp
        rw [hx, Function.update_self]
        omega
      · rw [Function.update_of_ne hx]
        exact hlimit x

/-- Releasing everything is a run, behind which the frames have no owner. -/
theorem PoolRun.releaseAll_spec (hr : Reachable init (PoolStepWithin limit) r)
    (hlimit : ∀ x, r.held x ≤ limit) (slots : List F) :
    Reachable init (PoolStepWithin limit) (r.releaseAll slots) ∧
      ∀ x, (r.releaseAll slots).held x = if x ∈ slots then 0 else r.held x := by
  induction slots generalizing r with
  | nil => exact ⟨hr, fun x => by simp [PoolRun.releaseAll]⟩
  | cons fp rest ih =>
    obtain ⟨hreach, hheld⟩ := PoolRun.iterate_release hr hlimit (Nat.le_refl (r.held fp))
    rw [Nat.sub_self] at hheld
    have hlimit' : ∀ x, ((fun r => r.release fp)^[r.held fp] r).held x ≤ limit := by
      intro x
      rw [hheld]
      by_cases hx : x = fp
      · rw [hx, Function.update_self]
        exact Nat.zero_le limit
      · rw [Function.update_of_ne hx]
        exact hlimit x
    obtain ⟨hreach', hheld'⟩ := ih hreach hlimit'
    refine ⟨hreach', fun x => (hheld' x).trans ?_⟩
    rw [hheld]
    by_cases hx : x = fp
    · simp [hx]
    · simp [hx]

end ReleaseAll

/-- Where the upper threshold is below the total, the release of everything brings the pool back to
the normal state. -/
theorem InitialPool.normal_of_released {frames : F → PoolFrame F} {slots : List F}
    {p₀ : FrameMemPool F C A} {r : PoolRun F C A} (h : InitialPool frames slots p₀)
    (hnodup : slots.Nodup) (hlen : slots.length < 2 ^ 32) (hle : p₀.lowThreshold ≤ p₀.highThreshold)
    (htop : p₀.highThreshold < p₀.total)
    (hr : Reachable (· = .start p₀) (PoolStepWithin 255) r) :
    (r.releaseAll slots).pool.state = .normal := by
  rw [UInt32.lt_iff_toNat_lt] at htop
  have hpos : 0 < p₀.total.toNat := by omega
  have hlimit : ∀ fp, r.held fp ≤ 255 := by
    refine hr.invariant (fun r => ∀ fp, r.held fp ≤ 255) ?_ (fun _ _ _ hstep => hstep.2)
    rintro _ rfl fp
    exact Nat.zero_le 255
  obtain ⟨hreach, hheld⟩ := PoolRun.releaseAll_spec hr hlimit slots
  obtain ⟨free, hdivided, hmarked⟩ := h.run_divided hnodup hlen hpos hle hreach
  have hfree : free.Perm slots := by
    rw [List.perm_ext_iff_of_nodup hdivided.nodup hnodup]
    intro fp
    rw [hdivided.mem_free, hheld]
    exact ⟨fun h => h.1, fun h => ⟨h, if_pos h⟩⟩
  cases hstate : (r.releaseAll slots).pool.state with
  | normal => rfl
  | lowWater =>
    have hlow : (r.releaseAll slots).pool.free.toNat ≤ p₀.highThreshold.toNat := hmarked.low hstate
    have htotal : p₀.total.toNat = slots.length := (h.divided hnodup hlen).total
    rw [hdivided.toNat_free, hfree.length_eq] at hlow
    omega

/-- A call is recorded with the number of free frames behind it. -/
theorem PoolStep.events {r r' : PoolRun F C A} (h : PoolStep r r') :
    ∃ e : PoolEvent F, r'.events = e :: r.events ∧ e.free = r'.pool.free.toNat := by
  cases h <;> exact ⟨_, rfl, rfl⟩

/-- Where the upper threshold is not below the total, a pool that went low stays low. -/
theorem InitialPool.stays_low {frames : F → PoolFrame F} {slots : List F}
    {p₀ : FrameMemPool F C A} {r r' : PoolRun F C A} (h : InitialPool frames slots p₀)
    (hnodup : slots.Nodup) (hlen : slots.length < 2 ^ 32) (hlt : p₀.lowThreshold < p₀.highThreshold)
    (htop : p₀.total ≤ p₀.highThreshold)
    (hr : Reachable (· = .start p₀) (PoolStepWithin 255) r) (hlow : r.pool.state = .lowWater)
    (hr' : Reachable (· = r) (PoolStepWithin 255) r') : r'.pool.state = .lowWater := by
  have htotal : p₀.total.toNat = slots.length := (h.divided hnodup hlen).total
  rw [UInt32.le_iff_toNat_le, htotal] at htop
  have hrun := h.run_divided hnodup hlen (h.total_pos hlt) (UInt32.le_of_lt hlt) hr
  refine (hr'.invariant (fun r => (∃ free, r.Divided frames slots free ∧ r.Marked p₀.thresholds) ∧
    r.pool.state = .lowWater) ?_ ?_).2
  · rintro _ rfl
    exact ⟨hrun, hlow⟩
  · rintro r r' ⟨⟨free, hdivided, hmarked⟩, hlow⟩ hstep
    obtain ⟨free', hdivided'⟩ := hdivided.step hstep
    have hmarked' := hmarked.step (UInt32.le_of_lt hlt) hdivided hstep.1
    obtain ⟨e, hevents, hfree⟩ := hstep.1.events
    refine ⟨⟨free', hdivided', hmarked'⟩, hmarked'.state.mpr ?_⟩
    have hbefore : p₀.thresholds.isLow poolMove r.events = true := hmarked.state.mp hlow
    have hlevel : e.free ≤ p₀.thresholds.high := by
      have hcount := hdivided'.count
      rw [hfree, hdivided'.toNat_free]
      exact (by omega : free'.length ≤ slots.length).trans htop
    rw [hevents, Thresholds.isLow, hbefore]
    cases hcall : e.call with
    | take fp => cases fp <;> simp [poolMove, hcall, Thresholds.lowAfter]
    | release fp => simp [poolMove, hcall, Thresholds.lowAfter, hlevel]
    | addref fp => simp [poolMove, hcall]
    | write fp => simp [poolMove, hcall]

/-! ### A pool of five frames, and one whose count wraps -/

/-- A frame of an arena whose octets are all `octet` where the pool keeps its count. -/
def blankFrame (F : Type) (octet : UInt8) : PoolFrame F :=
  { next := none, auxNext := none, auxPrev := none, txLen := 0, txCtrlLen := 0, openingflag := 0,
    refs := octet }

/-- A pool of `n` frames. -/
def plainPool (n : Nat) (octet : UInt8) : FrameMemPool (Fin n) Unit Unit :=
  .ofSlots (fun _ => blankFrame _ octet) 16 (List.finRange n)

/-- An owner adds as many references as it likes. -/
theorem exists_held (k : Nat) : ∃ r : PoolRun (Fin 2) Unit Unit,
    Reachable (· = .start (plainPool 2 0)) PoolStep r ∧ r.held 1 = k + 1 ∧
      (r.pool.frames 1).refs = UInt8.ofNat (k + 1) := by
  induction k with
  | zero => exact ⟨_, .tail (.start rfl) (.take _), by decide +kernel, by decide +kernel⟩
  | succ k ih =>
    obtain ⟨r, hr, hheld, hrefs⟩ := ih
    refine ⟨r.addref 1, hr.tail (.addref r (by omega)), ?_, ?_⟩
    · simp [PoolRun.addref, PoolRun.after, hheld]
    · simp [PoolRun.addref, PoolRun.after, FrameMemPool.addref, hrefs, UInt8.ofNat_add]

end IoHdlc
