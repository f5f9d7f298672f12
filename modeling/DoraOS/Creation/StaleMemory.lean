import DoraOS.Creation.FailedCreation
import DoraOS.Creation.Session
import DoraOS.Memory.Held

/-! Creation on two heaps that differ in free memory. `dos_mem_alloc` clears
nothing, so that a new object holds stale bytes wherever its creator assigns
nothing. The two runs cannot be told apart if and only if a new task comes out
as ready and nothing else, as long as the object is not deleted. Its deletion
also asks that its blocks were cut from their nodes, since `dos_mem_free` takes
the bytes behind an uncut block for a header. -/
namespace DoraOS

open Lockstep

namespace Heap.Owns

variable {h : Heap} {bs : List Block} {owned : List (Nat × Nat)} {p k : Nat}

/-- An object of one block can be freed. -/
theorem release {c : Creator} (hOwns : h.Owns bs ((p, k) :: owned)) (hSize : c.size ≤ k)
    (hNoTask : ∀ stackSize prio tick, c ≠ .task stackSize prio tick) :
    (h.release p c).isSome = true := by
  obtain ⟨h₁, -, hFree, -⟩ := hOwns.free
  obtain ⟨h₂, -, hFree', -⟩ := (hOwns.edit List.mem_cons_self (edits_memset hSize)).1.free
  cases c with
  | task stackSize prio tick => exact absurd rfl (hNoTask _ _ _)
  | memp | fifo => rfl
  | swtmr => simp [Heap.release, hFree]
  | sem | mutex | event | queue => simp [Heap.release, hFree']

/-- The two blocks of a task can be freed. -/
theorem releaseTask {stack j : Nat} (hOwns : h.Owns bs ((p, k) :: (stack, j) :: owned))
    (hSize : sizeofTask ≤ k) (hStack : h.stackAddr p = stack) :
    (h.releaseTask p).isSome = true := by
  obtain ⟨h₁, bs₁, hFree, hReleased⟩ := hOwns.free
  have hWithin : Within ((p, k) :: (stack, j) :: owned) (p + 4) := by
    refine ⟨_, List.mem_cons_self, Nat.le_add_right _ _, ?_⟩
    rw [sizeofTask] at hSize
    show p + 4 < p + k
    omega
  have hSame : h₁.stackAddr p = stack := (hReleased.mem _ hWithin).trans hStack
  obtain ⟨h₂, -, hFree', -⟩ := hReleased.owns.free
  simp [Heap.releaseTask, hFree, hSame, hFree']

end Heap.Owns

namespace Machine

variable {m n m' n' : Machine} {bs : List Block} {owned : List (Nat × Nat)} {cut : Prop}
  {p q k size : Nat} {c : Creator}

/-- Two machines in the middle of a creation, with the same areas allocated. -/
structure Alike (m n : Machine) (bs : List Block) (owned : List (Nat × Nat)) (cut : Prop) :
    Prop where
  held : m.heap.Held bs owned cut
  twin : n.heap.Held bs owned cut
  same : m.heap.SameBounds n.heap
  sys : n.sys = { m.sys with mem := n.sys.mem }
  timers : n.timers = m.timers
  fifo : n.fifo = m.fifo

/-- The object was made on both, and `cut` is enough for it to be freed. -/
def Made (c : Creator) (p : Nat) (cut : Prop) : Machine → Machine → Prop :=
  Twin p (c.veil p .live) fun h g =>
    cut → (h.release p c).isSome = true ∧ (g.release p c).isSome = true

namespace Alike

theorem allocated {h g : Heap} {bs' : List Block} {owned' : List (Nat × Nat)} {cut' : Prop}
    (hAlike : m.Alike n bs owned cut) (hHeld : h.Held bs' owned' cut')
    (hTwin : g.Held bs' owned' cut') (hSame : h.SameBounds g) :
    (m.allocated h).Alike (n.allocated g) bs' owned' cut' := by
  refine ⟨hHeld, hTwin, hSame, ?_, hAlike.timers, hAlike.fifo⟩
  have hKernel : n.sys.k = m.sys.k := by rw [hAlike.sys]
  simp only [Machine.allocated, System.setKernel, hKernel]
  rw [hAlike.sys]

/-- An allocation has the same answer on both. -/
theorem alloc (hAlike : m.Alike n bs owned cut) (size : Nat) :
    (m.dosMemAlloc size = some (m.allocated m.heap, 0) ∧
      n.dosMemAlloc size = some (n.allocated n.heap, 0)) ∨
      ∃ h g bs' p k, p ≠ 0 ∧ dosAlign size ≤ k ∧ m.dosMemAlloc size = some (m.allocated h, p) ∧
        n.dosMemAlloc size = some (n.allocated g, p) ∧
        Heap.Given m.heap h bs' owned size p k (cut ∧ m.heap.Cuts size) ∧
        Heap.Given n.heap g bs' owned size p k (cut ∧ m.heap.Cuts size) ∧
        (m.allocated h).Alike (n.allocated g) bs' ((p, k) :: owned) (cut ∧ m.heap.Cuts size) := by
  rw [dosMemAlloc_eq hAlike.held.begin_pos, dosMemAlloc_eq hAlike.twin.begin_pos]
  rcases hAlike.held.alloc hAlike.twin hAlike.same size with
    ⟨hNull, hNull'⟩ | ⟨h, g, bs', p, k, hp, hk, hGiven, hGiven'⟩
  · left
    rw [hNull, hNull']
    exact ⟨rfl, rfl⟩
  · right
    refine ⟨h, g, bs', p, k, hp, hk, by rw [hGiven.alloc]; rfl, by rw [hGiven'.alloc]; rfl, hGiven,
      hGiven', hAlike.allocated hGiven.held hGiven'.held ⟨?_, ?_⟩⟩
    · rw [hGiven'.same.heapBegin, hAlike.same.heapBegin, hGiven.same.heapBegin]
    · rw [hGiven'.same.heapEnd, hAlike.same.heapEnd, hGiven.same.heapEnd]

/-- Both machines write to an area they own. -/
theorem edit {h g : Heap} (hAlike : m.Alike n bs owned cut) (hMem : (q, k) ∈ owned)
    (hEdits : m.heap.Edits h q k) (hEdits' : n.heap.Edits g q k) :
    Alike { m with heap := h } { n with heap := g } bs owned cut :=
  ⟨hAlike.held.edit hMem hEdits, hAlike.twin.edit hMem hEdits',
    ⟨by rw [hEdits'.same.heapBegin, hAlike.same.heapBegin, hEdits.same.heapBegin],
      by rw [hEdits'.same.heapEnd, hAlike.same.heapEnd, hEdits.same.heapEnd]⟩,
    hAlike.sys, hAlike.timers, hAlike.fifo⟩

/-- A creator with one allocation. -/
theorem single {f : Machine × Nat → Option (Machine × Nat)} {R : Machine → Machine → Prop}
    (hAlike : m.Alike n bs owned cut) (hNull : ∀ m₁, f (m₁, 0) = some (m₁, 0))
    (hMade : ∀ m₁ n₁ bs' q k m₂, dosAlign size ≤ k →
      m₁.Alike n₁ bs' ((q, k) :: owned) (cut ∧ m.heap.Cuts size) → q ≠ 0 →
      f (m₁, q) = some (m₂, p) → ∃ n₂, f (n₁, q) = some (n₂, p) ∧ R m₂ n₂)
    (hp : p ≠ 0) (hCreate : (m.dosMemAlloc size).bind f = some (m', p)) :
    ∃ n', (n.dosMemAlloc size).bind f = some (n', p) ∧ R m' n' := by
  rcases hAlike.alloc size with
    ⟨hNone, -⟩ | ⟨h, g, bs', q, k, hq, hk, hAlloc, hAlloc', -, -, hAlike'⟩
  · rw [hNone, Option.bind_some, hNull, Option.some.injEq] at hCreate
    exact absurd (congrArg Prod.snd hCreate).symm hp
  · rw [hAlloc, Option.bind_some] at hCreate
    rw [hAlloc', Option.bind_some]
    exact hMade _ _ bs' q k m' hk hAlike' hq hCreate

/-- The machines are told apart by nothing but memory. -/
theorem toTwin {I : System → Prop} {H : Heap → Heap → Prop}
    (hSys : n.sys = { m.sys with mem := n.sys.mem }) (hTimers : n.timers = m.timers)
    (hFifo : n.fifo = m.fifo) (hHeap : H m.heap n.heap) : m.Twin p I H n := by
  refine ⟨⟨fun t => (m.sys.k.tcb t).eventGet, n.sys.mem, hSys, fun _ _ => rfl, Or.inl rfl⟩,
    hTimers, ?_, hHeap⟩
  intro p
  rw [hFifo]
  exact Or.inl rfl

/-- The objects that are made out of the same arguments. -/
theorem made {h g : Heap} {f : System → System} {t : Timers → Timers} {cut' : Prop}
    (hAlike : m.Alike n bs ((q, k) :: owned) cut)
    (hf : ∀ s mem, ∃ mem', f { s with mem := mem } = { f s with mem := mem' })
    (hFrees : cut' → (h.release q c).isSome = true ∧ (g.release q c).isSome = true) :
    Made c q cut' { m with heap := h, sys := f m.sys, timers := t m.timers }
      { n with heap := g, sys := f n.sys, timers := t n.timers } := by
  refine toTwin ?_ (congrArg t hAlike.timers) hAlike.fifo hFrees
  obtain ⟨mem', hMem⟩ := hf m.sys n.sys.mem
  have hSys : f n.sys = f { m.sys with mem := n.sys.mem } := congrArg f hAlike.sys
  rw [hMem] at hSys
  show f n.sys = { f m.sys with mem := (f n.sys).mem }
  rw [hSys]

/-- A new object of one block can be freed. -/
theorem frees {h g : Heap} {cut' : Prop} (hAlike : m.Alike n bs ((q, k) :: owned) cut)
    (hCut : cut' → cut) (hSize : cut' → c.size ≤ k)
    (hNoTask : ∀ stackSize prio tick, c ≠ .task stackSize prio tick)
    (hEdits : c.size ≤ k → m.heap.Edits h q k ∧ n.heap.Edits g q k) :
    cut' → (h.release q c).isSome = true ∧ (g.release q c).isSome = true := by
  intro hHolds
  obtain ⟨hLeft, hRight⟩ := hEdits (hSize hHolds)
  have hEdited := hAlike.edit List.mem_cons_self hLeft hRight
  exact ⟨(hEdited.held.owns (hCut hHolds)).release (hSize hHolds) hNoTask,
    (hEdited.twin.owns (hCut hHolds)).release (hSize hHolds) hNoTask⟩

end Alike

end Machine

/-- Every block that the delete function of the object frees is cut from its node,
and the size of a queue does not overflow. -/
def Machine.CutsAll (m : Machine) : Creator → Prop
  | .task stackSize _ _ => m.heap.Cuts sizeofTask ∧
      ∀ r ∈ m.dosMemAlloc sizeofTask, r.1.heap.Cuts stackSize
  | .queue len size => Queue.sizeofQueue + len * size + 3 < 2 ^ 32 ∧
      m.heap.Cuts (Creator.queue len size).size
  | .memp _ _ _ | .fifo _ => True
  | c => m.heap.Cuts c.size

instance (m : Machine) : ∀ c, Decidable (m.CutsAll c)
  | .task _ _ _ => inferInstanceAs (Decidable (_ ∧ _))
  | .queue _ _ => inferInstanceAs (Decidable (_ ∧ _))
  | .memp _ _ _ | .fifo _ => inferInstanceAs (Decidable True)
  | .sem _ _ => inferInstanceAs (Decidable (m.heap.Cuts sizeofSem))
  | .mutex => inferInstanceAs (Decidable (m.heap.Cuts sizeofMutex))
  | .event => inferInstanceAs (Decidable (m.heap.Cuts sizeofEvent))
  | .swtmr _ _ _ => inferInstanceAs (Decidable (m.heap.Cuts sizeofSwtmr))

namespace Machine

variable {m n m' n' : Machine} {bs : List Block} {owned : List (Nat × Nat)} {cut : Prop} {p k : Nat}

namespace Alike

section Objects

variable (hAlike : m.Alike n bs owned cut) (hCut : cut) (hp : p ≠ 0)

include hAlike hCut hp

theorem sem {cnt maxCnt : Nat} (hCreate : m.dosSemCreate cnt maxCnt = some (m', p)) :
    ∃ n', n.dosSemCreate cnt maxCnt = some (n', p) ∧
      Made (.sem cnt maxCnt) p (m.CutsAll (.sem cnt maxCnt)) m' n' := by
  refine hAlike.single (fun _ => rfl) ?_ hp hCreate
  intro m₁ n₁ bs' q k m₂ hk hAlike' hq hf
  simp only [if_neg hq, Option.some.injEq, Prod.mk.injEq] at hf ⊢
  obtain ⟨rfl, rfl⟩ := hf
  exact ⟨_, ⟨rfl, rfl⟩, hAlike'.made (t := id)
    (f := fun s => (s.setSem q ⟨cnt, maxCnt⟩).initPend (.sem q)) (fun s mem => ⟨mem, rfl⟩)
    (hAlike'.frees (fun hCuts => ⟨hCut, hCuts⟩) (fun _ => hk) (by simp)
      fun hSize => ⟨Heap.edits_memset hSize, Heap.edits_memset hSize⟩)⟩

theorem mutex (hCreate : m.dosMutexCreate = some (m', p)) :
    ∃ n', n.dosMutexCreate = some (n', p) ∧ Made .mutex p (m.CutsAll .mutex) m' n' := by
  refine hAlike.single (fun _ => rfl) ?_ hp hCreate
  intro m₁ n₁ bs' q k m₂ hk hAlike' hq hf
  simp only [if_neg hq, Option.some.injEq, Prod.mk.injEq] at hf ⊢
  obtain ⟨rfl, rfl⟩ := hf
  exact ⟨_, ⟨rfl, rfl⟩, hAlike'.made (t := id)
    (f := fun s => (s.setMutex q {}).initPend (.mutex q)) (fun s mem => ⟨mem, rfl⟩)
    (hAlike'.frees (fun hCuts => ⟨hCut, hCuts⟩) (fun _ => hk) (by simp)
      fun hSize => ⟨Heap.edits_memset hSize, Heap.edits_memset hSize⟩)⟩

theorem event (hCreate : m.dosEventCreate = some (m', p)) :
    ∃ n', n.dosEventCreate = some (n', p) ∧ Made .event p (m.CutsAll .event) m' n' := by
  refine hAlike.single (fun _ => rfl) ?_ hp hCreate
  intro m₁ n₁ bs' q k m₂ hk hAlike' hq hf
  simp only [if_neg hq, Option.some.injEq, Prod.mk.injEq] at hf ⊢
  obtain ⟨rfl, rfl⟩ := hf
  exact ⟨_, ⟨rfl, rfl⟩, hAlike'.made (t := id)
    (f := fun s => (s.setEvent q {}).initPend (.event q)) (fun s mem => ⟨mem, rfl⟩)
    (hAlike'.frees (fun hCuts => ⟨hCut, hCuts⟩) (fun _ => hk) (by simp)
      fun _ => ⟨.refl, .refl⟩)⟩

theorem queue {len size : Nat} (hCreate : m.dosQueueCreate len size = some (m', p)) :
    ∃ n', n.dosQueueCreate len size = some (n', p) ∧
      Made (.queue len size) p (m.CutsAll (.queue len size)) m' n' := by
  unfold dosQueueCreate at hCreate ⊢
  by_cases hSizes : len = 0 ∨ size = 0
  · rw [if_pos hSizes, Option.some.injEq] at hCreate
    exact absurd (congrArg Prod.snd hCreate).symm hp
  · rw [if_neg hSizes] at hCreate ⊢
    refine hAlike.single (fun _ => rfl) ?_ hp hCreate
    intro m₁ n₁ bs' q k m₂ hk hAlike' hq hf
    -- the structure does not depend on the bytes of the block
    obtain ⟨x, hx⟩ : ∃ x, ∀ mem : Memory, Queue.dosQueueCreate mem (some q) len size =
        some (x, mem.memzero q ((Queue.sizeofQueue + len * size % 2 ^ 32) % 2 ^ 32)) :=
      ⟨_, fun _ => if_neg hSizes⟩
    simp only [if_neg hq, hx, Option.bind_eq_bind, Option.bind_some, Option.some.injEq,
      Prod.mk.injEq] at hf ⊢
    obtain ⟨rfl, rfl⟩ := hf
    have hFits (hAll : m.CutsAll (.queue len size)) : (Creator.queue len size).size ≤ k := by
      have hNoWrap := hAll.1
      refine Nat.le_trans ?_ hk
      rw [Creator.size, dosAlign]
      omega
    have hFrees := hAlike'.frees (fun hAll => ⟨hCut, hAll.2⟩) hFits (by simp)
      fun hSize => ⟨Heap.edits_memset hSize, Heap.edits_memset hSize⟩
    refine ⟨_, ⟨rfl, rfl⟩, ?_⟩
    exact hAlike'.made (t := id) (f := fun s : System => ({ s.setQueue q x with
        mem := s.mem.memzero q ((Queue.sizeofQueue + len * size % 2 ^ 32) % 2 ^ 32) }.initPend
      (.queue q .read)).initPend (.queue q .write)) (fun s mem => ⟨_, rfl⟩) hFrees

theorem swtmr {timeout mode : Nat} {cb : Bool}
    (hCreate : m.dosSwtmrCreate timeout mode cb = some (m', p)) :
    ∃ n', n.dosSwtmrCreate timeout mode cb = some (n', p) ∧
      Made (.swtmr timeout mode cb) p (m.CutsAll (.swtmr timeout mode cb)) m' n' := by
  refine hAlike.single (fun _ => rfl) ?_ hp hCreate
  intro m₁ n₁ bs' q k m₂ hk hAlike' hq hf
  have hNull {x : Machine} (hEq : some (x, 0) = some (m₂, p)) : False :=
    hp (congrArg Prod.snd (Option.some.inj hEq)).symm
  simp only [if_neg hq] at hf ⊢
  by_cases hParams : cb = false ∨ timeout = 0
  · rw [if_pos hParams] at hf
    exact absurd hf hNull
  · rw [if_neg hParams] at hf ⊢
    by_cases hMode : mode % 4 = 0 ∨ mode % 4 = 3
    · rw [if_pos hMode] at hf
      exact absurd hf hNull
    · rw [if_neg hMode] at hf ⊢
      simp only [Option.some.injEq, Prod.mk.injEq] at hf ⊢
      obtain ⟨rfl, rfl⟩ := hf
      exact ⟨_, ⟨rfl, rfl⟩, hAlike'.made (f := id) (t := (·.dosSwtmrCreate q timeout mode))
        (fun s mem => ⟨mem, rfl⟩) (hAlike'.frees (fun hCuts => ⟨hCut, hCuts⟩) (fun _ => hk) (by simp)
          fun _ => ⟨.refl, .refl⟩)⟩

omit hCut in
theorem memp {base : Option Nat} {mempSize blkSize : Nat}
    (hCreate : m.dosMempCreate base mempSize blkSize = some (m', p)) :
    ∃ n', n.dosMempCreate base mempSize blkSize = some (n', p) ∧
      Made (.memp base mempSize blkSize) p True m' n' := by
  unfold dosMempCreate at hCreate ⊢
  by_cases hArgs : blkSize = 0 ∨ mempSize = 0 ∨ mempSize < blkSize ∨ base = some 0
  · rw [if_pos hArgs, Option.some.injEq] at hCreate
    exact absurd (congrArg Prod.snd hCreate).symm hp
  · rw [if_neg hArgs] at hCreate ⊢
    refine hAlike.single (fun _ => rfl) ?_ hp hCreate
    intro m₁ n₁ bs' q k m₂ hk hAlike' hq hf
    simp only [if_neg hq, Option.some.injEq, Prod.mk.injEq] at hf ⊢
    obtain ⟨rfl, rfl⟩ := hf
    exact ⟨_, ⟨rfl, rfl⟩, hAlike'.made (f := id) (t := id) (fun s mem => ⟨mem, rfl⟩)
      fun _ => ⟨rfl, rfl⟩⟩

end Objects

section Fifo

variable {fifo : Nat} {size : BitVec 32}

/-- Both machines behind the creation of a mutex. -/
theorem mutexMade {h g : Heap} {mutex : Nat} (hk : dosAlign sizeofMutex ≤ k)
    (hAlike : (m.allocated h).Alike (n.allocated g) bs ((mutex, k) :: owned) cut) :
    (m.mutexMade h mutex).Alike (n.mutexMade g mutex) bs ((mutex, k) :: owned) cut := by
  have hEdited := hAlike.edit List.mem_cons_self
    (Heap.edits_memset (n := sizeofMutex) hk) (Heap.edits_memset (n := sizeofMutex) hk)
  refine ⟨hEdited.held, hEdited.twin, hEdited.same, ?_, hEdited.timers, hEdited.fifo⟩
  exact congrArg (fun s : System => (s.setMutex mutex {}).initPend (.mutex mutex)) hAlike.sys

/-- The fifos of both machines, whose buffers hold different stale bytes. -/
theorem initFifo (hAlike : m.Alike n bs owned cut) (hSize : size ≠ 0)
    (hCreate : m.initFifo fifo size = some (m', p)) :
    ∃ n', n.initFifo fifo size = some (n', p) ∧ Made (.fifo size) p True m' n' := by
  obtain ⟨made, hMade, hEq⟩ := Option.map_eq_some_iff.mp hCreate
  obtain ⟨made', hMade'⟩ : ∃ made', DoraOS.dosFifoCreate size
      (fun i => n.heap.byte (fifo + sizeofFifo + i)) = some made' := ⟨_, if_neg hSize⟩
  have hOther : FifoRun.start made' = (FifoRun.start made).withBuffer made'.buffer := by
    rw [DoraOS.dosFifoCreate, if_neg hSize, Option.some.injEq] at hMade hMade'
    rw [← hMade, ← hMade']
    rfl
  simp only [Prod.mk.injEq] at hEq
  obtain ⟨rfl, rfl⟩ := hEq
  refine ⟨_, by rw [Machine.initFifo, hMade', Option.map_some], ?_⟩
  have hTwin : Made (.fifo size) fifo True m n :=
    toTwin hAlike.sys hAlike.timers hAlike.fifo fun _ => ⟨rfl, rfl⟩
  refine ⟨hTwin.sys, hTwin.timers, ?_, fun _ => ⟨rfl, rfl⟩⟩
  intro q
  dsimp only
  split
  · exact Or.inr ⟨fifoOk_create hMade, fifoOk_create hMade', _, hOther⟩
  · exact hTwin.fifo q

theorem fifoWriteMutex (hAlike : m.Alike n bs owned cut) (hMem : (fifo, k) ∈ owned)
    (hRoom : sizeofFifo ≤ k) (hp : p ≠ 0) (hSize : size ≠ 0)
    (hCreate : m.fifoWriteMutex fifo size = some (m', p)) :
    ∃ n', n.fifoWriteMutex fifo size = some (n', p) ∧ Made (.fifo size) p True m' n' := by
  obtain ⟨⟨m₁, write⟩, hMutex, hRest⟩ := Option.bind_eq_some_iff.mp hCreate
  rcases hAlike.alloc sizeofMutex with
    ⟨hNull, -⟩ | ⟨h, g, bs', q, j, hq, hj, hAlloc, hAlloc', -, -, hAlike'⟩
  · -- no memory for the mutex: the call returns null
    rw [dosMutexCreate_of_null hNull, Option.some.injEq, Prod.mk.injEq] at hMutex
    obtain ⟨rfl, rfl⟩ := hMutex
    simp only [if_true, Option.bind_eq_bind, Option.bind_eq_some_iff] at hRest
    obtain ⟨freed, -, deleted, -, hEnd⟩ := hRest
    exact absurd (congrArg Prod.snd (Option.some.inj hEnd)).symm hp
  · rw [dosMutexCreate_of_alloc hq hAlloc, Option.some.injEq, Prod.mk.injEq] at hMutex
    obtain ⟨rfl, rfl⟩ := hMutex
    simp only [if_neg hq] at hRest
    have hStored := (mutexMade hj hAlike').edit (List.mem_cons_of_mem _ hMem)
      (fifo_field hRoom _ 16 (by decide) q) (fifo_field hRoom _ 16 (by decide) q)
    obtain ⟨n', hInit, hTwin⟩ := initFifo hStored hSize hRest
    refine ⟨n', ?_, hTwin⟩
    simp only [Machine.fifoWriteMutex, dosMutexCreate_of_alloc hq hAlloc', Option.bind_eq_bind,
      Option.bind_some, if_neg hq]
    exact hInit

theorem fifoReadMutex (hAlike : m.Alike n bs owned cut) (hMem : (fifo, k) ∈ owned)
    (hRoom : sizeofFifo ≤ k) (hp : p ≠ 0) (hSize : size ≠ 0)
    (hCreate : m.fifoReadMutex fifo size = some (m', p)) :
    ∃ n', n.fifoReadMutex fifo size = some (n', p) ∧ Made (.fifo size) p True m' n' := by
  obtain ⟨⟨m₁, read⟩, hMutex, hRest⟩ := Option.bind_eq_some_iff.mp hCreate
  rcases hAlike.alloc sizeofMutex with
    ⟨hNull, -⟩ | ⟨h, g, bs', q, j, hq, hj, hAlloc, hAlloc', -, -, hAlike'⟩
  · rw [dosMutexCreate_of_null hNull, Option.some.injEq, Prod.mk.injEq] at hMutex
    obtain ⟨rfl, rfl⟩ := hMutex
    simp only [if_true, Option.bind_eq_bind, Option.bind_eq_some_iff] at hRest
    obtain ⟨freed, -, hEnd⟩ := hRest
    exact absurd (congrArg Prod.snd (Option.some.inj hEnd)).symm hp
  · rw [dosMutexCreate_of_alloc hq hAlloc, Option.some.injEq, Prod.mk.injEq] at hMutex
    obtain ⟨rfl, rfl⟩ := hMutex
    simp only [if_neg hq] at hRest
    have hStored := (mutexMade hj hAlike').edit (List.mem_cons_of_mem _ hMem)
      (fifo_field hRoom _ 12 (by decide) q) (fifo_field hRoom _ 12 (by decide) q)
    obtain ⟨n', hWrite, hTwin⟩ :=
      fifoWriteMutex hStored (List.mem_cons_of_mem _ hMem) hRoom hp hSize hRest
    refine ⟨n', ?_, hTwin⟩
    simp only [Machine.fifoReadMutex, dosMutexCreate_of_alloc hq hAlloc', Option.bind_eq_bind,
      Option.bind_some, if_neg hq]
    exact hWrite

theorem fifoCreate (hAlike : m.Alike n bs owned cut) (hp : p ≠ 0)
    (hCreate : m.dosFifoCreate size = some (m', p)) :
    ∃ n', n.dosFifoCreate size = some (n', p) ∧ Made (.fifo size) p True m' n' := by
  unfold dosFifoCreate at hCreate ⊢
  by_cases hSize : size = 0
  · rw [if_pos hSize, Option.some.injEq] at hCreate
    exact absurd (congrArg Prod.snd hCreate).symm hp
  · rw [if_neg hSize] at hCreate ⊢
    refine hAlike.single (fun _ => rfl) ?_ hp hCreate
    intro m₁ n₁ bs' q k m₂ hk hAlike' hq hf
    have hRoom := Nat.le_trans (fifo_fits hSize) hk
    simp only [if_neg hq] at hf ⊢
    have hBlock := hAlike'.edit List.mem_cons_self
      (fifo_field hRoom _ 20 (by decide) (q + sizeofFifo))
      (fifo_field hRoom _ 20 (by decide) (q + sizeofFifo))
    exact fifoReadMutex hBlock List.mem_cons_self hRoom hp hSize hf

end Fifo

end Alike

section Task

variable {stackSize prio tick : Nat}

/-- The kernel behind `dos_task_create`, with `found` in the words of the new
control block. -/
def taskMade (k : Kernel) (t : TaskId) (found : Tcb) (prio tick : Nat) : Kernel :=
  ((k.mapTcb t fun _ => found).dosInitTcb t prio tick).dosInsertTaskPriorityList t

theorem dosTaskCreate_found (k : Kernel) (t : TaskId) (found : Tcb) :
    (k.mapTcb t fun _ => found).dosTaskCreate t prio tick =
      if prio > k.config.dosMaxPriorityNum then none else some (taskMade k t found prio tick) := rfl

theorem status_taskMade (k : Kernel) (t : TaskId) (found : Tcb) :
    ((taskMade k t found prio tick).tcb t).taskStatus = found.taskStatus ||| Flag.ready.mask := by
  simp only [taskMade, Kernel.dosInsertTaskPriorityList, Kernel.dosTaskItemInsert,
    Kernel.dosSetTaskStatus, Kernel.dosSetTaskPtiority, Kernel.mapPriorityWord, Kernel.dosInitTcb,
    Kernel.mapTcb, if_true]

theorem eventGet_taskMade (k : Kernel) (t : TaskId) (found : Tcb) {x : TaskId} (hx : x ≠ t) :
    ((taskMade k t found prio tick).tcb x).eventGet = (k.tcb x).eventGet := by
  simp only [taskMade, Kernel.dosInsertTaskPriorityList, Kernel.dosTaskItemInsert,
    Kernel.dosSetTaskStatus, Kernel.dosSetTaskPtiority, Kernel.mapPriorityWord, Kernel.dosInitTcb,
    Kernel.mapTcb, if_neg hx]

theorem insertPriorityList_ready (k : Kernel) (t : TaskId) :
    (k.dosSetTaskStatus t Flag.ready.mask).dosInsertTaskPriorityList t =
      k.dosInsertTaskPriorityList t := by
  have hPriority : (k.dosSetTaskStatus t Flag.ready.mask).priority t = k.priority t := by
    simp [Kernel.priority, Kernel.dosSetTaskStatus, Kernel.mapTcb]
  have hTwice : (((k.dosSetTaskStatus t Flag.ready.mask).dosSetTaskPtiority t).dosSetTaskStatus t
      Flag.ready.mask) = (k.dosSetTaskPtiority t).dosSetTaskStatus t Flag.ready.mask := by
    rw [Kernel.dosSetTaskPtiority, hPriority, Kernel.dosSetTaskPtiority]
    simp only [Kernel.dosSetTaskStatus, Kernel.mapTcb, Kernel.mapPriorityWord]
    congr 1
    funext x
    split
    · rw [BitVec.or_assoc, BitVec.or_self]
    · rfl
  rw [Kernel.dosInsertTaskPriorityList, hTwice, hPriority, Kernel.dosInsertTaskPriorityList]

/-- Of the words found in the block only the status and `event_get` survive, and of
the status not its bit for ready. -/
theorem taskMade_found (k : Kernel) (t : TaskId) {found found' : Tcb}
    (hStatus : found'.taskStatus ||| Flag.ready.mask = found.taskStatus ||| Flag.ready.mask) :
    taskMade k t found' prio tick = (taskMade k t found prio tick).withGets
      (Function.update (fun x => (k.tcb x).eventGet) t found'.eventGet) := by
  have hTcb : (((k.mapTcb t fun _ => found').dosInitTcb t prio tick).dosSetTaskStatus t
        Flag.ready.mask).tcb =
      ((((k.mapTcb t fun _ => found).dosInitTcb t prio tick).dosSetTaskStatus t
        Flag.ready.mask).withGets
        (Function.update (fun x => (k.tcb x).eventGet) t found'.eventGet)).tcb := by
    funext x
    by_cases hx : x = t
    · subst hx
      simp only [Kernel.dosSetTaskStatus, Kernel.dosInitTcb, Kernel.mapTcb, Kernel.withGets, if_true,
        Function.update_self, hStatus]
    · simp only [Kernel.dosSetTaskStatus, Kernel.dosInitTcb, Kernel.mapTcb, Kernel.withGets,
        if_neg hx, Function.update_of_ne hx]
  have hInit : ((k.mapTcb t fun _ => found').dosInitTcb t prio tick).dosSetTaskStatus t
        Flag.ready.mask =
      (((k.mapTcb t fun _ => found).dosInitTcb t prio tick).dosSetTaskStatus t
        Flag.ready.mask).withGets
        (Function.update (fun x => (k.tcb x).eventGet) t found'.eventGet) := by
    simp only [Kernel.dosSetTaskStatus, Kernel.dosInitTcb, Kernel.mapTcb, Kernel.withGets] at hTcb ⊢
    rw [hTcb]
  rw [taskMade, ← insertPriorityList_ready, hInit, Kernel.insertPriorityList_withGets,
    insertPriorityList_ready]
  rfl

/-- The state of the tasks of a machine: the tasks meet their invariant, a
control block that is not in use is outside all calls, and one that is in use
is not in free memory. -/
structure Sane (m : Machine) (bs : List Block) : Prop where
  consistent : m.sys.Consistent
  outside : ∀ t, m.sys.k.alloc t = false → m.sys.pc t = .user
  inUse : ∀ t, m.sys.k.alloc t = true → ¬m.heap.InFree bs t

/-- A change of the kernel that no task notices. -/
theorem consistent_still {s : System} {k : Kernel} (h : s.Consistent) (hStill : Kernel.Still s.k k) :
    (s.setKernel k).Consistent := by
  refine ⟨h.toCoherent.still hStill, ?_⟩
  intro c e value t hPc
  show (k.view t).alloc = true
  rw [hStill.view t]
  exact h.chosen c e value t hPc

theorem consistent_creates {s : System} {k : Kernel} {t : TaskId} (h : s.Consistent)
    (hCreates : Kernel.Creates t prio s.k k) : (s.setKernel k).Consistent := by
  have hSpec := System.spec_creates (s.cause .next) hCreates
  refine ⟨hSpec.coherent h.toCoherent, ?_⟩
  intro c e value x hPc
  exact (hSpec.task x).alloc (h.chosen c e value x hPc)

theorem consistent_allocated (hConsistent : m.sys.Consistent) (h : Heap) :
    (m.allocated h).sys.Consistent ∧ Kernel.Still m.sys.k (m.allocated h).sys.k := by
  have hLock := Kernel.still_lock hConsistent.sound
  have hStill := hLock.trans (Kernel.still_unlock hLock.sound)
  exact ⟨consistent_still hConsistent hStill, hStill⟩

/-- Two systems with a new task whose block held different words. Nothing reads the
`event_get` of the task before it is assigned. -/
theorem twin_taskMade {s : System} {t : TaskId} (h : s.Consistent) (hFree : s.k.alloc t = false)
    (hPc : s.pc t = .user) {found found' : Tcb}
    (hStatus : found'.taskStatus ||| Flag.ready.mask = found.taskStatus ||| Flag.ready.mask)
    (mem : Memory) (hPrio : prio < 2 ^ 32) :
    (s.setKernel (taskMade s.k t found prio tick)).Twin t (System.Unread t)
      ({ s with mem := mem }.setKernel (taskMade s.k t found' prio tick)) := by
  obtain ⟨hStatusOwner, hPendOwner, -⟩ := (h.ok t).free hFree
  have hCreates := Kernel.creates_initTcb h.sound hFree hStatusOwner hPendOwner (fun _ => found)
    tick hPrio
  refine ⟨Function.update (fun x => (s.k.tcb x).eventGet) t found'.eventGet, mem, ?_, ?_,
    Or.inr ⟨consistent_creates h hCreates, ?_, ?_⟩⟩
  · rw [taskMade_found s.k t hStatus]
    rfl
  · intro x hx
    rw [Function.update_of_ne hx]
    exact (eventGet_taskMade s.k t found hx).symm
  · rintro ⟨c, hSelects⟩
    obtain ⟨e, value, hAt⟩ := Pc.selects_some hSelects
    have hAlloc : s.k.alloc t = true := h.chosen c e value t hAt
    rw [hFree] at hAlloc
    cases hAlloc
  · intro e waitEvent hWait
    have hUser : s.pc t = .wait (.event e waitEvent) := hWait
    rw [hPc] at hUser
    cases hUser

/-- The status that a block holds at the place of `task_status`. -/
theorem stale_status {h h₁ g : Heap} {bs' bs'' : List Block} {t stack j : Nat} {cut cut' : Prop}
    (hSize : dosAlign sizeofTask ≤ k) (hGiven : Heap.Given g h bs' owned sizeofTask t k cut)
    (hStack : Heap.Given h h₁ bs'' ((t, k) :: owned) stackSize stack j cut') :
    (Tcb.ofWords (h₁.write (t + 4) stack) t).taskStatus = BitVec.ofNat 16 (g.mem (t + 8)) := by
  have hWithin : Heap.Within ((t, k) :: owned) (t + 8) := by
    refine ⟨_, List.mem_cons_self, Nat.le_add_right _ _, ?_⟩
    simp only [sizeofTask, dosAlign] at hSize
    show t + 8 < t + k
    omega
  have hBoth : Heap.Within ((stack, j) :: (t, k) :: owned) (t + 8) := by
    obtain ⟨area, hMem, hIn⟩ := hWithin
    exact ⟨area, List.mem_cons_of_mem _ hMem, hIn⟩
  rw [Tcb.ofWords, Heap.mem_write_of_ne (by omega), hStack.mem _ hBoth, hGiven.mem _ hWithin]

theorem Alike.task (hAlike : m.Alike n bs owned cut) (hCut : cut) (hTiled : m.heap.Tiled bs)
    (hSane : m.Sane bs) (hPrio : prio < 2 ^ 16) (hp : p ≠ 0)
    (hCreate : m.dosTaskCreate stackSize prio tick = some (m', p)) :
    ∃ n', n.dosTaskCreate stackSize prio tick = some (n', p) ∧
      (m'.sys.k.tcb p).taskStatus = BitVec.ofNat 16 (m.heap.mem (p + 8)) ||| Flag.ready.mask ∧
      (n'.sys.k.tcb p).taskStatus = BitVec.ofNat 16 (n.heap.mem (p + 8)) ||| Flag.ready.mask ∧
      ((n'.sys.k.tcb p).taskStatus = (m'.sys.k.tcb p).taskStatus →
        Made (.task stackSize prio tick) p (m.CutsAll (.task stackSize prio tick)) m' n') := by
  have hKernel : n.sys.k = m.sys.k := by rw [hAlike.sys]
  unfold dosTaskCreate at hCreate ⊢
  rw [hKernel]
  by_cases hMax : prio > m.sys.k.config.dosMaxPriorityNum
  · rw [if_pos hMax, Option.some.injEq] at hCreate
    exact absurd (congrArg Prod.snd hCreate).symm hp
  rw [if_neg hMax] at hCreate ⊢
  rcases hAlike.alloc sizeofTask with
    ⟨hNull, -⟩ | ⟨h, g, bs', t, k, ht, hk, hTask, hTask', hGiven, hGiven', hAlike'⟩
  · rw [hNull] at hCreate
    exact absurd (congrArg Prod.snd (Option.some.inj hCreate)).symm hp
  simp only [hTask, Option.bind_eq_bind, Option.bind_some, if_neg ht] at hCreate
  rcases hAlike'.alloc stackSize with
    ⟨hNull, -⟩ | ⟨h₂, g₂, bs₂, stack, j, hs, hj, hStack, hStack', hGiven₂, hGiven₂', hAlike₂⟩
  · -- no memory for the stack: the call returns null
    simp only [hNull, Option.bind_some, if_true] at hCreate
    obtain ⟨freed, -, hEnd⟩ := Option.bind_eq_some_iff.mp hCreate
    exact absurd (congrArg Prod.snd (Option.some.inj hEnd)).symm hp
  simp only [hStack, Option.bind_some, if_neg hs] at hCreate
  obtain ⟨made, hMade, hEnd⟩ := Option.bind_eq_some_iff.mp hCreate
  obtain ⟨rfl, rfl⟩ := Prod.mk.inj (Option.some.inj hEnd)
  let m₂ := ((m.allocated h).allocated h₂).store t 4 stack
  let n₂ := ((n.allocated g).allocated g₂).store t 4 stack
  have hAccepted : ¬prio > m₂.sys.k.config.dosMaxPriorityNum := by
    intro hTooBig
    rw [dosTaskCreate_found, if_pos hTooBig] at hMade
    cases hMade
  rw [dosTaskCreate_found, if_neg hAccepted, Option.some.injEq] at hMade
  have hSys : n₂.sys = { m₂.sys with mem := n₂.sys.mem } := hAlike₂.sys
  have hFound : n₂.sys.k = m₂.sys.k := by rw [hSys]
  have hFree : m.sys.k.alloc t = false := by
    cases hAllocated : m.sys.k.alloc t with
    | false => rfl
    | true =>
        exact absurd (hTiled.alloc_inFree (by decide) hGiven.alloc ht) (hSane.inUse t hAllocated)
  obtain ⟨hConsistent, hStill⟩ := consistent_allocated hSane.consistent h
  obtain ⟨hConsistent₂, hStill₂⟩ := consistent_allocated hConsistent h₂
  have hFree₂ : m₂.sys.k.alloc t = false :=
    (congrArg TaskView.alloc ((hStill.trans hStill₂).view t)).trans hFree
  let k₂ := taskMade m₂.sys.k t (Tcb.ofWords n₂.heap t) prio tick
  have hStatus : (made.tcb t).taskStatus = (Tcb.ofWords m₂.heap t).taskStatus ||| Flag.ready.mask :=
    hMade ▸ status_taskMade m₂.sys.k t (Tcb.ofWords m₂.heap t)
  have hStatus' : (k₂.tcb t).taskStatus = (Tcb.ofWords n₂.heap t).taskStatus ||| Flag.ready.mask :=
    status_taskMade m₂.sys.k t (Tcb.ofWords n₂.heap t)
  refine ⟨{ n₂ with sys := n₂.sys.setKernel k₂ }, ?_, ?_, ?_, ?_⟩
  · simp only [hTask', Option.bind_eq_bind, Option.bind_some, if_neg ht, hStack', if_neg hs]
    rw [dosTaskCreate_found]
    show (if prio > n₂.sys.k.config.dosMaxPriorityNum then none
      else some (taskMade n₂.sys.k t (Tcb.ofWords n₂.heap t) prio tick)).bind _ = _
    rw [hFound, if_neg hAccepted]
    rfl
  · exact hStatus.trans (congrArg (· ||| Flag.ready.mask) (stale_status hk hGiven hGiven₂))
  · exact hStatus'.trans (congrArg (· ||| Flag.ready.mask) (stale_status hk hGiven' hGiven₂'))
  · intro hSame
    have hTwin : (m₂.sys.setKernel made).Twin t (System.Unread t) (n₂.sys.setKernel k₂) := by
      rw [hSys, ← hMade]
      exact twin_taskMade hConsistent₂ hFree₂ (hSane.outside t hFree)
        (hStatus'.symm.trans (hSame.trans hStatus)) n₂.sys.mem (Nat.lt_trans hPrio (by decide))
    refine ⟨hTwin, hAlike.timers, fun q => Or.inl (congrFun hAlike.fifo q), ?_⟩
    intro hAll
    have hRoom : sizeofTask ≤ k := Nat.le_trans (by decide) hk
    have hBlock : (t, k) ∈ (stack, j) :: (t, k) :: owned := List.mem_cons_of_mem _ List.mem_cons_self
    have hWritten (x : Heap) : x.Edits (x.write (t + 4) stack) t k := by
      refine Heap.edits_write (Nat.le_add_right _ _) ?_
      rw [sizeofTask] at hRoom
      omega
    have hEdited := hAlike₂.edit hBlock (hWritten _) (hWritten _)
    have hCuts := And.intro (And.intro hCut hAll.1) (hAll.2 _ hTask)
    have hSwap := List.Perm.swap (stack, j) (t, k) owned
    exact ⟨((hEdited.held.owns hCuts).perm hSwap).releaseTask hRoom Heap.mem_write_self,
      ((hEdited.twin.owns hCuts).perm hSwap).releaseTask hRoom Heap.mem_write_self⟩

end Task

/-- The two machines differ in nothing but the contents of free blocks. -/
structure SameButFree (m n : Machine) (bs : List Block) : Prop where
  same : m.heap.SameBounds n.heap
  words : ∀ x, ¬m.heap.InFree bs x → n.heap.mem x = m.heap.mem x
  sys : n.sys = { m.sys with mem := n.sys.mem }
  timers : n.timers = m.timers
  fifo : n.fifo = m.fifo

theorem SameButFree.alike (hTiled : m.heap.Tiled bs) (hSame : m.SameButFree n bs) :
    m.Alike n bs (Block.areas m.heap.firstNode bs) True := by
  have hOwns : n.heap.Owns bs (Block.areas m.heap.firstNode bs) := by
    refine ⟨hTiled.of_free hSame.same hSame.words, ?_⟩
    rw [hSame.same.firstNode]
  exact ⟨Heap.Owns.held ⟨hTiled, List.Perm.rfl⟩, hOwns.held, hSame.same, hSame.sys, hSame.timers,
    hSame.fifo⟩

theorem SameButFree.write {addr : Nat} (hFree : m.heap.InFree bs addr) (word : Nat) :
    m.SameButFree { m with heap := m.heap.write addr word } bs := by
  refine ⟨⟨rfl, rfl⟩, ?_, rfl, rfl, rfl⟩
  intro x hx
  exact Heap.mem_write_of_ne fun hEq => hx (hEq ▸ hFree)

end Machine

/-- The arguments fit the parameters: `dos_task_priority` has 16 bits. -/
def Creator.Typed : Creator → Prop
  | .task _ prio _ => prio < 2 ^ 16
  | _ => True

/-- The block at `p` is clear where its creator assigns nothing and the value is
read: `task_status` may hold the bit that the creator sets, and no other one. -/
def Heap.ClearFor (h : Heap) (p : Nat) : Creator → Prop
  | .task _ _ _ => BitVec.ofNat 16 (h.mem (p + 8)) ||| Flag.ready.mask = Flag.ready.mask
  | _ => True

/-- A task is created ready and in no other state. -/
def Machine.ReadyOnly (m : Machine) (p : Nat) : Creator → Prop
  | .task _ _ _ => (m.sys.k.tcb p).taskStatus = Flag.ready.mask
  | _ => True

/-- Every sequence of operations on the object at `p` shows the same on both
machines. The sequences in which the memory of the object is freed count if
`cut`. -/
def Machine.ShowsSame (c : Creator) (p : Nat) (cut : Prop) (m n : Machine) : Prop :=
  ∀ (frees : Bool) (events : List SessionEvent), (frees = true → cut) →
    outputs (Session.step c p frees) ⟨m, .live⟩ events =
      outputs (Session.step c p frees) ⟨n, .live⟩ events

theorem Machine.Made.showsSame {m n : Machine} {c : Creator} {p : Nat} {cut : Prop}
    (hMade : Machine.Made c p cut m n) : m.ShowsSame c p cut n := by
  intro frees events hCut
  refine outputs_eq (R := Session.Twin c p frees) (fun _ _ event hTwin => hTwin.agree event) ?_ events
  exact ⟨rfl, hMade.sys, hMade.timers, hMade.fifo, fun hFrees _ => hMade.heap (hCut hFrees)⟩

/-- On two heaps that differ in free memory only, a creator that succeeds in one
succeeds in the other with the same pointer. A new task is ready and nothing else
in both, and all that is done with the object shows the same in both, exactly if
both blocks were clear. The memory of an object is freed in both if it was cut
from its nodes. -/
theorem creation_ignores_free_memory (m n : Machine) (bs : List Block) (c : Creator)
    (hTiled : m.heap.Tiled bs) (hSane : m.Sane bs) (hSame : m.SameButFree n bs) (hTyped : c.Typed)
    (m' : Machine) (p : Nat) (hCreate : m.create c = some (m', p)) (hp : p ≠ 0) :
    ∃ n', n.create c = some (n', p) ∧
      (m'.ReadyOnly p c ∧ n'.ReadyOnly p c ∧ Machine.ShowsSame c p (m.CutsAll c) m' n' ↔
        m.heap.ClearFor p c ∧ n.heap.ClearFor p c) := by
  have hAlike := hSame.alike hTiled
  have hOther {cut : Prop} (hMade : ∃ n', n.create c = some (n', p) ∧ Machine.Made c p cut m' n')
      (hAll : m.CutsAll c → cut) (hReady : ∀ m₁ : Machine, m₁.ReadyOnly p c)
      (hClear : ∀ h : Heap, h.ClearFor p c) : ∃ n', n.create c = some (n', p) ∧
        (m'.ReadyOnly p c ∧ n'.ReadyOnly p c ∧ Machine.ShowsSame c p (m.CutsAll c) m' n' ↔
          m.heap.ClearFor p c ∧ n.heap.ClearFor p c) := by
    obtain ⟨n', hCreate', hMade⟩ := hMade
    refine ⟨n', hCreate', fun _ => ⟨hClear _, hClear _⟩, fun _ => ⟨hReady _, hReady _, ?_⟩⟩
    exact fun frees events hCut => hMade.showsSame frees events fun hFrees => hAll (hCut hFrees)
  cases c with
  | task stackSize prio tick =>
      obtain ⟨n', hCreate', hStatus, hStatus', hMade⟩ :=
        hAlike.task trivial hTiled hSane hTyped hp hCreate
      refine ⟨n', hCreate', ?_, ?_⟩
      · rintro ⟨hReady, hReady', -⟩
        exact ⟨hStatus.symm.trans hReady, hStatus'.symm.trans hReady'⟩
      · rintro ⟨hClear, hClear'⟩
        have hReady := hStatus.trans hClear
        have hReady' := hStatus'.trans hClear'
        exact ⟨hReady, hReady', (hMade (hReady'.trans hReady.symm)).showsSame⟩
  | sem cnt maxCnt =>
      exact hOther (hAlike.sem trivial hp hCreate) id (fun _ => trivial) fun _ => trivial
  | mutex => exact hOther (hAlike.mutex trivial hp hCreate) id (fun _ => trivial) fun _ => trivial
  | event => exact hOther (hAlike.event trivial hp hCreate) id (fun _ => trivial) fun _ => trivial
  | queue len size =>
      exact hOther (hAlike.queue trivial hp hCreate) id (fun _ => trivial) fun _ => trivial
  | memp base mempSize blkSize =>
      exact hOther (hAlike.memp hp hCreate) id (fun _ => trivial) fun _ => trivial
  | swtmr timeout mode cb =>
      exact hOther (hAlike.swtmr trivial hp hCreate) id (fun _ => trivial) fun _ => trivial
  | fifo size => exact hOther (hAlike.fifoCreate hp hCreate) id (fun _ => trivial) fun _ => trivial

def Machine.dirty (heapSize addr word : Nat) : Machine :=
  { Machine.boot heapSize with heap := (Machine.boot heapSize).heap.write addr word }

/-- A heap of 1000 bytes in one free block, with a word of the block set. -/
theorem Machine.dirty_boot (addr word : Nat) (hLow : 0x20000018 ≤ addr) (hHigh : addr < 0x20000100) :
    ∃ bs, (Machine.boot 1000).heap.Tiled bs ∧ (Machine.boot 1000).Sane bs ∧
      (Machine.boot 1000).SameButFree (Machine.dirty 1000 addr word) bs := by
  obtain ⟨b, hFree, hTiled⟩ : ∃ b : Block, b.used = false ∧ (Machine.boot 1000).heap.Tiled [b] :=
    Heap.dosMemHeapInit_tiled (by decide +kernel) (by decide +kernel) (by decide)
  have hSize : (Machine.boot 1000).heap.nodeSize (Machine.boot 1000).heap.firstNode = 976 := by
    decide +kernel
  have hStart : Heap.userMem ((Machine.boot 1000).heap.place []) = 0x20000018 := by decide +kernel
  have hInFree : (Machine.boot 1000).heap.InFree [b] addr := by
    refine ⟨[], b, [], rfl, hFree, by rw [hStart]; exact hLow, ?_⟩
    rw [hStart, ← hTiled.chain.1.size, hSize]
    omega
  refine ⟨[b], hTiled, ⟨System.consistent_init System.initial_small, fun _ _ => rfl, ?_⟩,
    .write hInFree word⟩
  -- the idle task is the only one
  intro t hAlloc hTaken
  have hAbove := (hTiled.aside_free hTaken).2
  have hOnly : (Machine.boot 1000).sys.k.alloc t = if t = 0 then true else false := rfl
  rw [hAlloc] at hOnly
  have hIdle : t = 0 := by
    by_contra hNe
    rw [if_neg hNe] at hOnly
    cases hOnly
  rw [hIdle] at hAbove
  exact Nat.not_lt_zero _ hAbove

/-- A stale `event_get` and a stale bit for ready are not noticed, whatever is done
with the task up to its deletion. -/
theorem creation_ignores_free_memory_task : ∃ m' n' : Machine,
    (Machine.boot 1000).create (.task 100 3 5) = some (m', 0x20000018) ∧
    (Machine.dirty 1000 0x20000020 2).create (.task 100 3 5) = some (n', 0x20000018) ∧
    ∀ events, outputs (Session.step (.task 100 3 5) 0x20000018 true) ⟨m', .live⟩ events =
      outputs (Session.step (.task 100 3 5) 0x20000018 true) ⟨n', .live⟩ events := by
  obtain ⟨bs, hTiled, hSane, hSame⟩ := Machine.dirty_boot 0x20000020 2 (by decide) (by decide)
  have hResult : ((Machine.boot 1000).create (.task 100 3 5)).map Prod.snd = some 0x20000018 := by
    decide +kernel
  obtain ⟨⟨m', p⟩, hCreate, rfl⟩ := Option.map_eq_some_iff.mp hResult
  have hClear : BitVec.ofNat 16 ((Machine.boot 1000).heap.mem 0x20000020) ||| Flag.ready.mask =
      Flag.ready.mask := by decide +kernel
  have hClear' : BitVec.ofNat 16 ((Machine.dirty 1000 0x20000020 2).heap.mem 0x20000020) |||
      Flag.ready.mask = Flag.ready.mask := by decide +kernel
  obtain ⟨n', hCreate', hIff⟩ := creation_ignores_free_memory (Machine.boot 1000) _ bs
    (.task 100 3 5) hTiled hSane hSame (show 3 < 2 ^ 16 by decide) m' 0x20000018 hCreate (by decide)
  obtain ⟨-, -, hShows⟩ := hIff.mpr ⟨hClear, hClear'⟩
  exact ⟨m', n', hCreate, hCreate', fun events => hShows true events fun _ => by decide +kernel⟩

/-- The task pends on a semaphore and an interrupt posts it in time. -/
def pendGranted : List SessionEvent :=
  [.op (.sys .start), .op (.sys (.call (.semPend 0 10))), .op (.sys (.switch 0)),
    .op (.sys (.isrSemPost 0)), .op (.sys (.switch 0x20000018)), .op (.sys .next)]

def Observation.labels : Observation → List Label
  | .sys labels _ _ _ => labels
  | _ => []

/-- What the first task of `Machine.boot 1000` shows. -/
def Machine.labelsOf (m : Machine) (events : List SessionEvent) : Option (List (List Label)) :=
  (outputs (Session.step (.task 100 3 5) 0x20000018 true) ⟨m, .live⟩ events).map
    (·.map Observation.labels)

/-- The new task in a block that held a status with the timeout flag is created
with that flag. Its first pend then takes the way of a timeout although the
semaphore was posted in time, where with a clear block it returns `DOS_OK`. -/
theorem stale_status_fails_pend : ∃ (bs : List Block) (m' n' : Machine),
    (Machine.boot 1000).SameButFree (Machine.dirty 1000 0x20000020 0x10) bs ∧
    (Machine.boot 1000).create (.task 100 3 5) = some (m', 0x20000018) ∧
    (Machine.dirty 1000 0x20000020 0x10).create (.task 100 3 5) = some (n', 0x20000018) ∧
    (m'.sys.k.tcb 0x20000018).taskStatus = 0x02 ∧ (n'.sys.k.tcb 0x20000018).taskStatus = 0x12 ∧
    m'.labelsOf pendGranted =
      some [[], [.waiting 0x20000018 (.sem 0)], [], [.granted 0x20000018, .returned none .ok], [],
        [.returned (some 0x20000018) .ok]] ∧
    n'.labelsOf (pendGranted ++ [.op (.sys .next)]) =
      some [[], [.waiting 0x20000018 (.sem 0)], [], [.granted 0x20000018, .returned none .ok], [],
        [], [.timedOut 0x20000018]] ∧
    m'.labelsOf pendGranted ≠ n'.labelsOf pendGranted := by
  obtain ⟨bs, -, -, hSame⟩ := Machine.dirty_boot 0x20000020 0x10 (by decide) (by decide)
  have hClear : ((Machine.boot 1000).create (.task 100 3 5)).map (fun r =>
      (r.2, (r.1.sys.k.tcb r.2).taskStatus, r.1.labelsOf pendGranted)) =
      some (0x20000018, 0x02, some [[], [.waiting 0x20000018 (.sem 0)], [],
        [.granted 0x20000018, .returned none .ok], [], [.returned (some 0x20000018) .ok]]) := by
    decide +kernel
  have hStale : ((Machine.dirty 1000 0x20000020 0x10).create (.task 100 3 5)).map (fun r =>
      (r.2, (r.1.sys.k.tcb r.2).taskStatus, r.1.labelsOf (pendGranted ++ [.op (.sys .next)]))) =
      some (0x20000018, 0x12, some [[], [.waiting 0x20000018 (.sem 0)], [],
        [.granted 0x20000018, .returned none .ok], [], [], [.timedOut 0x20000018]]) := by
    decide +kernel
  have hShort : ((Machine.dirty 1000 0x20000020 0x10).create (.task 100 3 5)).map (fun r =>
      r.1.labelsOf pendGranted) = some (some [[], [.waiting 0x20000018 (.sem 0)], [],
        [.granted 0x20000018, .returned none .ok], [], []]) := by
    decide +kernel
  obtain ⟨⟨m', p⟩, hCreate, hEq⟩ := Option.map_eq_some_iff.mp hClear
  obtain ⟨⟨n', q⟩, hCreate', hEq'⟩ := Option.map_eq_some_iff.mp hStale
  simp only [Prod.mk.injEq] at hEq hEq'
  obtain ⟨rfl, hStatus, hLabels⟩ := hEq
  obtain ⟨rfl, hStatus', hLabels'⟩ := hEq'
  rw [hCreate', Option.map_some, Option.some.injEq] at hShort
  refine ⟨bs, m', n', hSame, hCreate, hCreate', hStatus, hStatus', hLabels, hLabels', ?_⟩
  rw [hLabels, hShort]
  decide

end DoraOS
