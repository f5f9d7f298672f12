import DoraOS.Port.ContextSwitch

/-! Runs of the processor and the kernel. The invariant is that every task but
the running one has a frame behind its `stack_point`; a step keeps the context
of every task that does not execute in it. -/
namespace DoraOS

open Thumb

section Run

variable {core : Core} {l : Layout} {b b' : Board} {t u : Thread} {k : Kernel}

theorem SameTask.running (h : SameTask b k) (cpu : Cpu) (threads : List Thread) :
    (⟨cpu, k, threads⟩ : Board).running = b.running := by
  simp only [Board.running, h.1, h.2]

/-- A new task is parked, with its first frame. -/
theorem Thread.parks_dosTaskInit {mem : Nat → Nat} {code : TaskCode}
    (hOwn : ¬(t.stackAddr ≤ t.tcb ∧ t.tcb < t.topOfStack))
    (hRoom : t.stackAddr + firstFrame core ≤ t.topOfStack) :
    Parks core t (t.dosTaskInit core code mem) ∧
      Fresh t.topOfStack code (t.parked core (t.dosTaskInit core code mem)) := by
  have hFrame : firstFrame core ≤ t.topOfStack := by omega
  have hInit : t.dosTaskInit core code mem =
      Function.update (firstMem core mem t.topOfStack code) t.tcb (t.topOfStack - firstFrame core) := by
    rw [Thread.dosTaskInit, dosStackInit_eq hFrame t.topOfStack_lt]
  have hPoint : t.dosTaskInit core code mem t.tcb = t.topOfStack - firstFrame core := by
    rw [hInit, Function.update_self]
  have hParked : t.parked core (t.dosTaskInit core code mem) = core.parked t.topOfStack
      (firstMem core mem t.topOfStack code) (t.topOfStack - firstFrame core) := by
    rw [Thread.parked, hPoint, hInit]
    apply Core.parked_congr
    · rw [show core.frameEnd _ _ = t.topOfStack - 32 from (fresh_parked hFrame).psp]
      exact Nat.sub_le _ _
    · intro x hLow hTop
      exact Function.update_of_ne (by omega) _ _
  have hFresh : Fresh t.topOfStack code (t.parked core (t.dosTaskInit core code mem)) :=
    hParked ▸ fresh_parked hFrame
  refine ⟨⟨?_, ?_, ?_, ?_⟩, hFresh⟩
  · rw [hPoint]
    have hWords : firstFrame core % 4 = 0 := by cases core <;> rfl
    unfold Thread.topOfStack at hFrame ⊢
    omega
  · rw [hPoint]
    omega
  · rw [hFresh.psp]
    exact Nat.sub_le _ _
  · rw [hFresh.excReturn]
    cases core <;> decide

/-- A new task writes its own memory only. -/
theorem Thread.dosTaskInit_off {mem : Nat → Nat} {code : TaskCode} {x : Nat}
    (hRoom : t.stackAddr + firstFrame core ≤ t.topOfStack) (hx : ¬t.Owns x) :
    t.dosTaskInit core code mem x = mem x := by
  have hFrame := le_firstFrame core
  simp only [Thread.Owns, not_or] at hx
  rw [Thread.dosTaskInit, dosStackInit_eq (by omega) t.topOfStack_lt, Function.update_of_ne hx.1]
  exact firstMem_off (by omega) (by omega)

theorem Board.Sound.create {code : TaskCode} (h : b.Sound core l)
    (hOk : BoardOk core l b (.create t code k))
    (hStep : boardStep core l b (.create t code k) = some b') :
    b'.Sound core l ∧ t ∈ b'.threads ∧ Fresh t.topOfStack code (b'.context core t) ∧
      ∀ u ∈ b.threads, u ∈ b'.threads ∧ b'.context core u = b.context core u := by
  obtain ⟨hPlaced, hNew, hNot, hRoom, hSame⟩ := hOk
  obtain rfl := Option.some.inj hStep
  have hMem : t ∈ t :: b.threads := List.mem_cons_self
  obtain ⟨hParks, hFresh⟩ := Thread.parks_dosTaskInit (hPlaced.own t hMem) hRoom
  have hRunning := hSame.running { b.cpu with mem := t.dosTaskInit core code b.cpu.mem }
    (t :: b.threads)
  -- The memory of the others and of the kernel is as it was.
  have hOther : ∀ u ∈ b.threads, ∀ x, u.Owns x → t.dosTaskInit core code b.cpu.mem x = b.cpu.mem x := by
    intro u hu x hx
    refine Thread.dosTaskInit_off hRoom fun hOwns => ?_
    exact hPlaced.apart t hMem u (List.mem_cons_of_mem _ hu) (fun hEq => hNew (hEq ▸ hu)) x hOwns hx
  have hKernel : t.dosTaskInit core code b.cpu.mem l.dosCurrentTask = b.cpu.mem l.dosCurrentTask :=
    Thread.dosTaskInit_off hRoom fun hOwns => hPlaced.kernel t hMem _ hOwns (Or.inl rfl)
  have hKept : ∀ u ∈ b.threads, b.running ≠ some u.id →
      Parks core u (t.dosTaskInit core code b.cpu.mem) ∧
        u.parked core (t.dosTaskInit core code b.cpu.mem) = u.parked core b.cpu.mem := by
    intro u hu hIdle
    have hOld := h.parked u hu hIdle
    exact hOld.congr fun x hx => hOther u hu x (hOld.owns hx)
  refine ⟨⟨hPlaced, ?_, ?_, ?_, ?_⟩, hMem, ?_, ?_⟩
  · intro hRun
    obtain ⟨u, hu, hId⟩ := h.live (hSame.2.symm.trans hRun)
    exact ⟨u, List.mem_cons_of_mem _ hu, hRunning.trans hId⟩
  · intro u hu hId
    rw [hRunning] at hId
    rcases List.mem_cons.mp hu with rfl | hu
    · exact absurd hId hNot
    · have hOld := h.running u hu hId
      exact { hOld with current := hKernel.trans hOld.current }
  · intro u hu hId
    rw [hRunning] at hId
    rcases List.mem_cons.mp hu with rfl | hu
    · exact hParks
    · exact (hKept u hu hId).1
  · intro hStopped u hu
    rcases List.mem_cons.mp hu with rfl | hu
    · exact hFresh.excReturn
    · rw [(hKept u hu (Board.running_ne_of_stopped (hSame.2.symm.trans hStopped))).2]
      exact h.fresh (hSame.2.symm.trans hStopped) u hu
  · rw [Board.context_of_parked (hRunning ▸ hNot)]
    exact hFresh
  · intro u hu
    refine ⟨List.mem_cons_of_mem _ hu, ?_⟩
    by_cases hId : b.running = some u.id
    · rw [Board.context_of_running hId, Board.context_of_running (hRunning.trans hId)]
      have hLow := (h.running u hu hId).low
      exact Core.running_congr fun x hx hTop => hOther u hu x (Or.inr ⟨by omega, hTop⟩)
    · rw [Board.context_of_parked hId, Board.context_of_parked (hRunning ▸ hId)]
      exact (hKept u hu hId).2

theorem Placed.mono {threads threads' : List Thread} (h : Placed l threads)
    (hSub : ∀ t ∈ threads', t ∈ threads) : Placed l threads' where
  current := h.current
  main := h.main
  mainTop := h.mainTop
  aligned t ht := h.aligned t (hSub t ht)
  ids t ht u hu := h.ids t (hSub t ht) u (hSub u hu)
  own t ht := h.own t (hSub t ht)
  apart t ht u hu := h.apart t (hSub t ht) u (hSub u hu)
  kernel t ht := h.kernel t (hSub t ht)

theorem Board.Sound.delete (h : b.Sound core l) (hOk : BoardOk core l b (.delete t k))
    (hStep : boardStep core l b (.delete t k) = some b') :
    b'.Sound core l ∧ ∀ u ∈ b.threads, t ≠ u → u ∈ b'.threads ∧
      b'.context core u = b.context core u := by
  obtain ⟨hNot, hSame⟩ := hOk
  obtain rfl := Option.some.inj hStep
  have hRunning := hSame.running b.cpu (b.threads.erase t)
  have hSub : ∀ u ∈ b.threads.erase t, u ∈ b.threads := fun u => List.mem_of_mem_erase
  refine ⟨⟨h.placed.mono hSub, ?_, ?_, ?_, ?_⟩, ?_⟩
  · intro hRun
    obtain ⟨u, hu, hId⟩ := h.live (hSame.2.symm.trans hRun)
    have hNe : u ≠ t := fun hEq => hNot (hEq ▸ hId)
    exact ⟨u, (List.mem_erase_of_ne hNe).mpr hu, hRunning.trans hId⟩
  · exact fun u hu hId => h.running u (hSub u hu) (hRunning.symm.trans hId)
  · exact fun u hu hId => h.parked u (hSub u hu) (hRunning ▸ hId)
  · exact fun hStopped u hu => h.fresh (hSame.2.symm.trans hStopped) u (hSub u hu)
  · intro u hu hNe
    refine ⟨(List.mem_erase_of_ne hNe.symm).mpr hu, ?_⟩
    unfold Board.context
    rw [hRunning]

theorem Board.Sound.run {next : Cpu} (h : b.Sound core l) (hOk : BoardOk core l b (.run next k))
    (hStep : boardStep core l b (.run next k) = some b') :
    b'.Sound core l ∧ ∀ u ∈ b.threads, b.running ≠ some u.id → u ∈ b'.threads ∧
      b'.context core u = b.context core u := by
  obtain ⟨hSame, hCpu, hKept⟩ := hOk
  obtain rfl := Option.some.inj hStep
  have hRunning := hSame.running next b.threads
  have hParked : ∀ u ∈ b.threads, b.running ≠ some u.id → Parks core u next.mem ∧
      u.parked core next.mem = u.parked core b.cpu.mem :=
    fun u hu hId => (h.parked u hu hId).congr (hKept u hu hId)
  refine ⟨⟨h.placed, ?_, ?_, ?_, ?_⟩, ?_⟩
  · intro hRun
    obtain ⟨u, hu, hId⟩ := h.live (hSame.2.symm.trans hRun)
    exact ⟨u, hu, hRunning.trans hId⟩
  · exact fun u hu hId => hCpu u hu (hRunning.symm.trans hId)
  · exact fun u hu hId => (hParked u hu (hRunning ▸ hId)).1
  · intro hStopped u hu
    have hOld := hSame.2.symm.trans hStopped
    rw [(hParked u hu (Board.running_ne_of_stopped hOld)).2]
    exact h.fresh hOld u hu
  · intro u hu hId
    refine ⟨hu, ?_⟩
    rw [Board.context_of_parked hId, Board.context_of_parked (hRunning ▸ hId)]
    exact (hParked u hu hId).2

/-- One step keeps the invariant, and it keeps every context but that of a
task that executes itself. -/
theorem Board.Sound.step {event : BoardEvent} (h : b.Sound core l) (hOk : BoardOk core l b event)
    (hStep : boardStep core l b event = some b') :
    b'.Sound core l ∧ ∀ u ∈ b.threads, Spares u b event → u ∈ b'.threads ∧
      b'.context core u = b.context core u := by
  cases event with
  | create t code k =>
      obtain ⟨hSound, -, -, hOthers⟩ := h.create hOk hStep
      exact ⟨hSound, fun u hu _ => hOthers u hu⟩
  | delete t k =>
      obtain ⟨hSound, hOthers⟩ := h.delete hOk hStep
      exact ⟨hSound, fun u hu hSpares => hOthers u hu hSpares⟩
  | start entry =>
      obtain ⟨b₁, hStep₁, hGoes⟩ := h.start hOk
      obtain rfl := Option.some.inj (hStep₁.symm.trans hStep)
      exact ⟨hGoes.sound, fun u hu _ => ⟨hGoes.threads ▸ hu, hGoes.context u hu⟩⟩
  | run next k => exact h.run hOk hStep
  | pendSV callee =>
      obtain ⟨b₁, hStep₁, hGoes, -⟩ := h.pendSV hOk
      obtain rfl := Option.some.inj (hStep₁.symm.trans hStep)
      exact ⟨hGoes.sound, fun u hu _ => ⟨hGoes.threads ▸ hu, hGoes.context u hu⟩⟩

/-- The kernel before its first task: nothing has been created yet. -/
structure Board.Boots (l : Layout) (b : Board) : Prop where
  placed : Placed l []
  threads : b.threads = []
  stopped : b.k.systemIsRun = false

theorem Board.Boots.sound (h : b.Boots l) : b.Sound core l := by
  obtain ⟨hPlaced, hThreads, hStopped⟩ := h
  have hNone : ∀ t, t ∉ b.threads := by simp [hThreads]
  refine ⟨hThreads ▸ hPlaced, ?_, ?_, ?_, ?_⟩
  · intro hRun
    exact absurd (hStopped.symm.trans hRun) (by decide)
  · exact fun t ht => absurd ht (hNone t)
  · exact fun t ht => absurd ht (hNone t)
  · exact fun _ t ht => absurd ht (hNone t)

theorem Board.Sound.runs {events : List BoardEvent} (h : b.Sound core l)
    (run : Transition.RunsIf (boardStep core l) (BoardOk core l) b events b') : b'.Sound core l :=
  run.invariant (Board.Sound core l) h fun _ _ _ hInv hOk hStep => (hInv.step hOk hStep).1

/-- A run in which the task itself takes no step keeps its context. -/
theorem Board.Sound.spared {events : List BoardEvent} (h : b.Sound core l) (ht : t ∈ b.threads)
    (run : Transition.RunsIf (boardStep core l)
      (fun b event => BoardOk core l b event ∧ Spares t b event) b events b') :
    t ∈ b'.threads ∧ b'.context core t = b.context core t := by
  have hAll := run.invariant
    (fun s => s.Sound core l ∧ t ∈ s.threads ∧ s.context core t = b.context core t) ⟨h, ht, rfl⟩ ?_
  · exact hAll.2
  · rintro s event s' ⟨hSound, hMem, hContext⟩ ⟨hOk, hSpares⟩ hStep
    obtain ⟨hSound', hKept⟩ := hSound.step hOk hStep
    obtain ⟨hMem', hSame⟩ := hKept t hMem hSpares
    exact ⟨hSound', hMem', hSame.trans hContext⟩

end Run

section Sample

def sampleLayout : Layout := ⟨0x20000200, 0x20000100, 0x20000200⟩

def firstThread : Thread := ⟨1, 0x20001000, 0x20002000, 256⟩

def secondThread : Thread := ⟨2, 0x20003000, 0x20004000, 256⟩

/-- Two ready tasks of one priority. -/
def sampleKernel : Kernel :=
  (((Kernel.boot shippedConfig).dosTaskCreate 1 5 10).bind (·.dosTaskCreate 2 5 10)).getD
    (Kernel.boot shippedConfig)

theorem owns_firstThread {x : Nat} (h : firstThread.Owns x) :
    0x20001000 ≤ x ∧ x < 0x20003000 := by
  simp only [Thread.Owns, Thread.topOfStack, firstThread] at h
  omega

theorem owns_secondThread {x : Nat} (h : secondThread.Owns x) :
    0x20003000 ≤ x ∧ x < 0x20005000 := by
  simp only [Thread.Owns, Thread.topOfStack, secondThread] at h
  omega

theorem sample_placed : Placed sampleLayout [secondThread, firstThread] := by
  refine ⟨by decide, by decide, by decide, by decide, by decide, by decide, ?_, ?_⟩
  · intro t ht u hu hNe x hx hx'
    rcases List.mem_pair.mp ht with rfl | rfl <;> rcases List.mem_pair.mp hu with rfl | rfl
    · exact hNe rfl
    · have hLeft := owns_secondThread hx
      have hRight := owns_firstThread hx'
      omega
    · have hLeft := owns_firstThread hx
      have hRight := owns_secondThread hx'
      omega
    · exact hNe rfl
  · intro t ht x hx hKernel
    have hRange : 0x20001000 ≤ x := by
      rcases List.mem_pair.mp ht with rfl | rfl
      · have hHigh := owns_secondThread hx
        omega
      · exact (owns_firstThread hx).1
    simp only [Layout.Owns, sampleLayout] at hKernel
    omega

def sampleCode : TaskCode := ⟨0x08000101, 7, 0x08000201⟩

def sampleCpu (mem : Nat → Nat) (word : Nat) : Cpu where
  reg r := if r = lr then word else sampleLayout.mainTop
  fp _ := 0
  special _ := firstThread.topOfStack - 32
  zero := false
  mem := mem

def sampleBoot : Board := ⟨sampleCpu (fun _ => 0) 0, sampleKernel, []⟩

/-- A `dos_choose_task` that only writes `dos_current_task`. -/
def sampleChoose (c : Cpu) : Cpu :=
  { c with mem := Function.update c.mem sampleLayout.dosCurrentTask secondThread.tcb }

def sampleOne (core : Core) : Board :=
  ⟨sampleCpu (firstThread.dosTaskInit core sampleCode fun _ => 0) 0, sampleKernel, [firstThread]⟩

def sampleTwo (core : Core) : Board :=
  ⟨sampleCpu (secondThread.dosTaskInit core sampleCode (sampleOne core).cpu.mem) 0, sampleKernel,
    [secondThread, firstThread]⟩

/-- The state in which `svc` is taken, with the first task as the current one. -/
def sampleEntry (core : Core) : Cpu :=
  sampleCpu (Function.update (sampleTwo core).cpu.mem sampleLayout.dosCurrentTask firstThread.tcb)
    excReturnMain

def sampleEvents (core : Core) (next : Cpu) (k : Kernel) : List BoardEvent :=
  [.create firstThread sampleCode sampleKernel, .create secondThread sampleCode sampleKernel,
    .start (sampleEntry core), .run next k]

/-- Two tasks are created, the first is started, executes and is preempted. -/
structure SampleRun (core : Core) (next : Cpu) (k : Kernel) (b b' : Board) : Prop where
  created₁ : BoardOk core sampleLayout sampleBoot (.create firstThread sampleCode sampleKernel)
  created₂ : BoardOk core sampleLayout (sampleOne core) (.create secondThread sampleCode sampleKernel)
  executes : Transition.RunsIf (boardStep core sampleLayout)
    (fun b event => BoardOk core sampleLayout b event ∧ Spares secondThread b event) (sampleTwo core)
    [.start (sampleEntry core), .run next k] b
  ok : BoardOk core sampleLayout b (.pendSV sampleChoose)
  preempted : boardStep core sampleLayout b (.pendSV sampleChoose) = some b'
  threads : b.threads = [secondThread, firstThread]
  first : b.running = some 1
  second : b'.running = some 2

theorem SampleRun.before {core : Core} {next : Cpu} {k : Kernel} {b b' : Board}
    (h : SampleRun core next k b b') :
    Transition.RunsIf (boardStep core sampleLayout) (BoardOk core sampleLayout) sampleBoot
      (sampleEvents core next k) b :=
  .cons h.created₁ rfl (.cons h.created₂ rfl (h.executes.mono fun _ _ hOk => hOk.1))

theorem sampleBoot_boots : sampleBoot.Boots sampleLayout :=
  ⟨sample_placed.mono (by simp), rfl, by decide +kernel⟩

theorem sample_created (core : Core) :
    BoardOk core sampleLayout sampleBoot (.create firstThread sampleCode sampleKernel) ∧
      BoardOk core sampleLayout (sampleOne core) (.create secondThread sampleCode sampleKernel) ∧
      (sampleTwo core).Sound core sampleLayout := by
  have hStopped : sampleKernel.systemIsRun = false := by decide +kernel
  have hIdle : ∀ cpu threads id, (⟨cpu, sampleKernel, threads⟩ : Board).running ≠ some id :=
    fun _ _ _ => Board.running_ne_of_stopped hStopped
  have hRoom : ∀ t ∈ [secondThread, firstThread], t.stackAddr + firstFrame core ≤ t.topOfStack := by
    cases core <;> decide
  have hSub : ∀ t ∈ [firstThread], t ∈ [secondThread, firstThread] := by simp
  have hStep₁ : boardStep core sampleLayout sampleBoot (.create firstThread sampleCode sampleKernel) =
      some (sampleOne core) := rfl
  have hStep₂ : boardStep core sampleLayout (sampleOne core)
      (.create secondThread sampleCode sampleKernel) = some (sampleTwo core) := rfl
  have hOk₁ : BoardOk core sampleLayout sampleBoot (.create firstThread sampleCode sampleKernel) :=
    ⟨sample_placed.mono hSub, by simp [sampleBoot], hIdle _ _ _, hRoom _ (by simp), rfl, rfl⟩
  obtain ⟨hSound₁, -, -, -⟩ := sampleBoot_boots.sound.create hOk₁ hStep₁
  have hOk₂ : BoardOk core sampleLayout (sampleOne core)
      (.create secondThread sampleCode sampleKernel) :=
    ⟨sample_placed, by simp [sampleOne, firstThread, secondThread], hIdle _ _ _, hRoom _ (by simp),
      rfl, rfl⟩
  obtain ⟨hSound₂, -, -, -⟩ := hSound₁.create hOk₂ hStep₂
  exact ⟨hOk₁, hOk₂, hSound₂⟩

theorem sample_room (core : Core) (mem : Nat → Nat) :
    Room core sampleLayout firstThread (sampleCpu mem excReturnThread) := by
  have hFrame := frameWords_length core (sampleCpu mem excReturnThread)
  have hHandler := handlerWords_length core 0x20000200 (sampleCpu mem excReturnThread)
  have hPsp : (sampleCpu mem excReturnThread).psp = 0x200020d8 := rfl
  have hSp : (sampleCpu mem excReturnThread).reg sp = 0x20000200 := rfl
  refine ⟨?_, ?_⟩
  · simp only [hPsp, firstThread]
    omega
  · simp only [hSp, sampleLayout]
    omega

theorem exists_sampleRun (core : Core) : ∃ next k b b', SampleRun core next k b b' := by
  obtain ⟨hOk₁, hOk₂, hSound₂⟩ := sample_created core
  have hStopped : sampleKernel.systemIsRun = false := by decide +kernel
  have hStart : sampleKernel.dosSystemStartRun.dosCurrentTask = some 1 := by decide +kernel
  have hChoose : sampleKernel.dosSystemStartRun.dosChooseTask.dosCurrentTask = some 2 := by
    decide +kernel
  have hOff : ∀ t ∈ [secondThread, firstThread], ∀ x, t.Owns x → x ≠ sampleLayout.dosCurrentTask :=
    fun t ht x hx hEq => sample_placed.kernel t ht x hx (Or.inl hEq)
  have hTop : sampleLayout.mainTop % 4 = 0 ∧ sampleLayout.mainLow ≤ sampleLayout.mainTop := by decide
  have hOk₃ : BoardOk core sampleLayout (sampleTwo core) (.start (sampleEntry core)) := by
    refine ⟨hStopped, rfl, hTop.1, hTop.2, Nat.le_refl _, fun t ht x hx => ?_, firstThread,
      List.mem_pair.mpr (Or.inr rfl), hStart, ?_⟩
    · have hOwns := (hSound₂.parked t ht (Board.running_ne_of_stopped hStopped)).owns hx
      exact Function.update_of_ne (hOff t ht x hOwns) _ _
    · simp [sampleEntry, sampleCpu]
  obtain ⟨b₃, hStep₃, hSound₃, hThreads₃, hRunning₃, -⟩ := hSound₂.start hOk₃
  replace hThreads₃ : b₃.threads = [secondThread, firstThread] := hThreads₃
  have hFirst : b₃.running = some 1 := hRunning₃.trans hStart
  have hKernel : b₃.k = sampleKernel.dosSystemStartRun := by
    obtain ⟨cpu, -, rfl⟩ := Option.map_eq_some_iff.mp hStep₃
    rfl
  have hMem : ∀ t ∈ [secondThread, firstThread], t ∈ b₃.threads := fun t ht => hThreads₃ ▸ ht
  have hCpu := hSound₃.running firstThread (hMem _ (by simp)) hFirst
  have hOk₄ : BoardOk core sampleLayout b₃ (.run (sampleCpu b₃.cpu.mem excReturnThread) b₃.k) := by
    refine ⟨⟨rfl, rfl⟩, fun t ht hId => ?_, fun _ _ _ _ _ => rfl⟩
    have hEq : t = firstThread :=
      hSound₃.placed.ids t ht firstThread (hMem _ (by simp)) (Option.some.inj (hId.symm.trans hFirst))
    subst hEq
    refine ⟨hCpu.current, ?_, ?_, ?_, ?_, hTop.1, hTop.2, Nat.le_refl _⟩
    · exact (by decide : (firstThread.topOfStack - 32) % 4 = 0)
    · exact (by decide : firstThread.stackAddr ≤ firstThread.topOfStack - 32)
    · exact Nat.sub_le _ _
    · cases core <;> exact List.mem_cons_self
  obtain ⟨hSound₄, -⟩ := hSound₃.run hOk₄ rfl
  have hOk₅ : BoardOk core sampleLayout ⟨sampleCpu b₃.cpu.mem excReturnThread, b₃.k, b₃.threads⟩
      (.pendSV sampleChoose) := by
    refine ⟨firstThread, hMem _ (by simp), hFirst, sample_room core _,
      fun c _ => ⟨rfl, fun x hLow hHigh => ?_, fun t ht x hx => ?_, secondThread,
        hMem _ (by simp), ?_, ?_⟩⟩
    · exact Function.update_of_ne (Nat.ne_of_lt hHigh) _ _
    · exact Function.update_of_ne (hOff t (hThreads₃ ▸ ht) x hx) _ _
    · exact hKernel ▸ hChoose
    · simp [sampleChoose]
  obtain ⟨b₅, hStep₅, hGoes, -⟩ := hSound₄.pendSV hOk₅
  have hAway : b₃.running ≠ some secondThread.id := by
    rw [hFirst]
    decide
  refine ⟨_, b₃.k, _, b₅, hOk₁, hOk₂, .cons ⟨hOk₃, trivial⟩ hStep₃ (.cons ⟨hOk₄, hAway⟩ rfl .nil),
    hOk₅, hStep₅, hThreads₃, hFirst, ?_⟩
  rw [hGoes.running]
  exact hKernel ▸ hChoose

end Sample

/-- At any time after the start of the kernel, whatever the tasks have done to
the registers and to their own memory, a context switch does not fault, leaves
the processor with the task that `dos_choose_task` has chosen, and keeps the
context of every task and the interrupt mask. -/
theorem context_switch_is_transparent (core : Core) (l : Layout) (b₀ b : Board)
    (events : List BoardEvent) (callee : Cpu → Cpu) (hBoot : b₀.Boots l)
    (run : Transition.RunsIf (boardStep core l) (BoardOk core l) b₀ events b)
    (hOk : BoardOk core l b (.pendSV callee)) :
    ∃ b', boardStep core l b (.pendSV callee) = some b' ∧ b'.threads = b.threads ∧
      b'.running = b.k.dosChooseTask.dosCurrentTask ∧
      (∀ t ∈ b.threads, b'.context core t = b.context core t) ∧
      b'.cpu.special .primask = b.cpu.special .primask := by
  obtain ⟨b', hStep, hGoes, hMask⟩ := (hBoot.sound.runs run).pendSV hOk
  exact ⟨b', hStep, hGoes.threads, hGoes.running, hGoes.context, hMask⟩

theorem context_switch_is_transparent_two : ∃ next b b' k,
    Transition.RunsIf (boardStep .cortexM4 sampleLayout) (BoardOk .cortexM4 sampleLayout) sampleBoot
      (sampleEvents .cortexM4 next k) b ∧
    boardStep .cortexM4 sampleLayout b (.pendSV sampleChoose) = some b' ∧ b'.running = some 2 ∧
    ∀ t ∈ b.threads, b'.context .cortexM4 t = b.context .cortexM4 t := by
  obtain ⟨next, k, b, b', h⟩ := exists_sampleRun .cortexM4
  obtain ⟨b'', hStep, -, -, hContext, -⟩ := context_switch_is_transparent .cortexM4 sampleLayout
    sampleBoot b _ sampleChoose sampleBoot_boots h.before h.ok
  obtain rfl := Option.some.inj (hStep.symm.trans h.preempted)
  exact ⟨next, b, _, k, h.before, h.preempted, h.second, hContext⟩

/-- A task that does not execute keeps its context, whatever the others do and
however often they are switched, created and deleted. So it is resumed in the
state in which it was preempted. -/
theorem preempted_task_keeps_context (core : Core) (l : Layout) (b₀ b b' : Board)
    (before during : List BoardEvent) (t : Thread) (hBoot : b₀.Boots l)
    (run : Transition.RunsIf (boardStep core l) (BoardOk core l) b₀ before b) (ht : t ∈ b.threads)
    (spared : Transition.RunsIf (boardStep core l)
      (fun b event => BoardOk core l b event ∧ Spares t b event) b during b') :
    b'.context core t = b.context core t :=
  ((hBoot.sound.runs run).spared ht spared).2

theorem preempted_task_keeps_context_switch : ∃ next b b' k,
    Transition.RunsIf (boardStep .cortexM4 sampleLayout) (BoardOk .cortexM4 sampleLayout) sampleBoot
      (sampleEvents .cortexM4 next k) b ∧ b.running = some 1 ∧
    boardStep .cortexM4 sampleLayout b (.pendSV sampleChoose) = some b' ∧ b'.running = some 2 ∧
    b'.context .cortexM4 firstThread = b.context .cortexM4 firstThread := by
  obtain ⟨next, k, b, b', h⟩ := exists_sampleRun .cortexM4
  have hMem : firstThread ∈ b.threads := by
    rw [h.threads]
    simp
  have hKept := preempted_task_keeps_context .cortexM4 sampleLayout sampleBoot b b' _
    [.pendSV sampleChoose] firstThread sampleBoot_boots h.before hMem
    (.cons ⟨h.ok, trivial⟩ h.preempted .nil)
  exact ⟨next, b, b', k, h.before, h.first, h.preempted, h.second, hKept⟩

/-- A task that is created and then, at some later time, is the running one
without having executed yet starts at its entry, with its parameter in `r0`,
in Thumb state, and returns to `dos_task_exit`. -/
theorem new_task_starts_at_entry (core : Core) (l : Layout) (b₀ b b₁ b₂ : Board)
    (before during : List BoardEvent) (t : Thread) (code : TaskCode) (k : Kernel)
    (hBoot : b₀.Boots l)
    (run : Transition.RunsIf (boardStep core l) (BoardOk core l) b₀ before b)
    (hOk : BoardOk core l b (.create t code k))
    (hCreate : boardStep core l b (.create t code k) = some b₁)
    (spared : Transition.RunsIf (boardStep core l)
      (fun b event => BoardOk core l b event ∧ Spares t b event) b₁ during b₂)
    (hRunning : b₂.running = some t.id) :
    Fresh t.topOfStack code (core.running t.topOfStack b₂.cpu) := by
  obtain ⟨hSound, ht, hFresh, -⟩ := (hBoot.sound.runs run).create hOk hCreate
  have hContext := (hSound.spared ht spared).2
  rw [Board.context_of_running hRunning] at hContext
  rw [hContext]
  exact hFresh

theorem new_task_starts_at_entry_second : ∃ next b k,
    Transition.RunsIf (boardStep .cortexM4 sampleLayout) (BoardOk .cortexM4 sampleLayout) sampleBoot
      (sampleEvents .cortexM4 next k ++ [.pendSV sampleChoose]) b ∧
    Fresh secondThread.topOfStack sampleCode
      (Core.cortexM4.running secondThread.topOfStack b.cpu) := by
  obtain ⟨next, k, b, b', h⟩ := exists_sampleRun .cortexM4
  exact ⟨next, b', k, h.before.snoc h.ok h.preempted,
    new_task_starts_at_entry .cortexM4 sampleLayout sampleBoot (sampleOne .cortexM4)
      (sampleTwo .cortexM4) b' _ _ secondThread sampleCode sampleKernel sampleBoot_boots
      (.cons h.created₁ rfl .nil) h.created₂ rfl (h.executes.snoc ⟨h.ok, trivial⟩ h.preempted)
      h.second⟩

end DoraOS
