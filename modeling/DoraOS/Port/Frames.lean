import DoraOS.Port.Handlers

/-! What the two halves of `PendSV_Handler` and `SVC_Handler` do to a context.
The first half moves it from the registers into a frame on the task's stack,
the second half and `SVC_Handler` move one from a frame into the registers. -/
namespace DoraOS

open Thumb

/-- The words that `PendSV_Handler` leaves on the stack of the task. -/
def frameWords (core : Core) (c : Cpu) : List Nat :=
  match core with
  | .cortexM3 => lowRegs.map c.reg
  | .cortexM4 => (lowRegs ++ [lr]).map c.reg ++
      if c.reg lr &&& 0x10 = 0 then highFpRegs.map c.fp else []

def frameBase (core : Core) (c : Cpu) : Nat := c.psp - 4 * (frameWords core c).length

/-- The words that `PendSV_Handler` keeps on the main stack over the call. -/
def handlerWords (core : Core) (cur : Nat) (c : Cpu) : List Nat :=
  match core with
  | .cortexM3 => [c.special .primask, cur, c.reg lr]
  | .cortexM4 => [c.special .primask, cur]

def handlerBase (core : Core) (cur : Nat) (c : Cpu) : Nat :=
  c.reg sp - 4 * (handlerWords core cur c).length

/-- The frame and the words on the main stack fit, and they overlap neither
each other nor the control block that `dos_current_task` points to. -/
structure CanSave (core : Core) (cur : Nat) (c : Cpu) : Prop where
  current : cur % 4 = 0
  tcb : c.mem cur % 4 = 0
  psp : c.psp % 4 = 0
  frame : 4 * (frameWords core c).length ≤ c.psp
  main : c.reg sp % 4 = 0
  handler : 4 * (handlerWords core cur c).length ≤ c.reg sp
  tcb_frame : c.mem cur < frameBase core c ∨ c.psp ≤ c.mem cur
  tcb_handler : c.mem cur < handlerBase core cur c ∨ c.reg sp ≤ c.mem cur
  apart : c.reg sp ≤ frameBase core c ∨ c.psp ≤ handlerBase core cur c

structure Saved (core : Core) (cur : Nat) (c c' : Cpu) : Prop where
  frame : getWords c'.mem (frameBase core c) (frameWords core c).length = frameWords core c
  point : c'.mem (c.mem cur) = frameBase core c
  handler : getWords c'.mem (c'.reg sp) (handlerWords core cur c).length = handlerWords core cur c
  main : c'.reg sp = handlerBase core cur c
  off : ∀ x, x < frameBase core c ∨ c.psp ≤ x → x ≠ c.mem cur →
    x < handlerBase core cur c ∨ c.reg sp ≤ x → c'.mem x = c.mem x

/-- Memory with the frame written. -/
structure Framed (core : Core) (c : Cpu) (mem : Nat → Nat) : Prop where
  frame : getWords mem (frameBase core c) (frameWords core c).length = frameWords core c
  off : ∀ x, x < frameBase core c ∨ c.psp ≤ x → mem x = c.mem x

section Save

variable {core : Core} {c : Cpu} {cur : Nat} {ws : List Nat}

theorem framed_putWords (hRoom : 4 * (frameWords core c).length ≤ c.psp) :
    Framed core c (putWords c.mem (frameBase core c) (frameWords core c)) where
  frame := getWords_putWords
  off x hx := putWords_off (by unfold frameBase at *; omega)

/-- A frame may be pushed in two blocks, the higher one first. -/
theorem framed_two {low high : List Nat} (hWords : frameWords core c = low ++ high)
    (hRoom : 4 * (frameWords core c).length ≤ c.psp) :
    Framed core c (putWords (putWords c.mem (c.psp - 4 * high.length) high)
      (frameBase core c) low) := by
  have hLength : (frameWords core c).length = low.length + high.length := by
    rw [hWords, List.length_append]
  have hHigh : frameBase core c + 4 * low.length = c.psp - 4 * high.length := by
    unfold frameBase
    omega
  refine ⟨?_, fun x hx => ?_⟩
  · have hLow : ∀ x, c.psp - 4 * high.length ≤ x → x < c.psp - 4 * high.length + 4 * high.length →
        putWords (putWords c.mem (c.psp - 4 * high.length) high) (frameBase core c) low x =
          putWords c.mem (c.psp - 4 * high.length) high x := by
      intro x hx _
      exact putWords_off (Or.inr (by omega))
    rw [hLength, getWords_add, getWords_putWords, hWords, hHigh, getWords_congr hLow,
      getWords_putWords]
  · unfold frameBase at *
    rw [putWords_off (by omega), putWords_off (by omega)]

/-- The stores behind the frame: `stack_point`, then the words on the main stack. -/
theorem Framed.saved {mem : Nat → Nat} (hFramed : Framed core c mem) (h : CanSave core cur c)
    {c' : Cpu} (hMain : c'.reg sp = handlerBase core cur c)
    (hMem : c'.mem = putWords (Function.update mem (c.mem cur) (frameBase core c))
      (handlerBase core cur c) (handlerWords core cur c)) : Saved core cur c c' := by
  have hTop : handlerBase core cur c + 4 * (handlerWords core cur c).length = c.reg sp :=
    Nat.sub_add_cancel h.handler
  have hEnd : frameBase core c + 4 * (frameWords core c).length = c.psp :=
    Nat.sub_add_cancel h.frame
  have hTcbFrame := h.tcb_frame
  have hApart := h.apart
  refine ⟨?_, ?_, ?_, hMain, ?_⟩
  · rw [hMem, ← hFramed.frame]
    rw [length_getWords]
    apply getWords_congr
    intro x hLow hHigh
    rw [putWords_off (by omega), Function.update_of_ne (by omega)]
  · rw [hMem, putWords_off (by rw [hTop]; exact h.tcb_handler), Function.update_self]
  · rw [hMem, hMain, getWords_putWords]
  · intro x hFrame hTcb hHandler
    rw [hMem, putWords_off (by rw [hTop]; exact hHandler), Function.update_of_ne hTcb,
      hFramed.off x hFrame]

/-- The first half of `PendSV_Handler` does not fault, and it saves the context. -/
theorem pendSVSave_run (call : PortFn → Cpu → Option Cpu) (h : CanSave core cur c) :
    ∃ c', c.run call (pendSVSave cur core) = some c' ∧ Saved core cur c c' := by
  have hCurrent := h.current
  have hTcb := h.tcb
  have hPsp := h.psp
  have hMain := h.main
  have hFrame := h.frame
  have hHandler := h.handler
  cases core with
  | cortexM3 =>
      have hFramed := framed_putWords h.frame
      simp [frameWords, handlerWords, lowRegs, Cpu.psp, sp_eq] at hFrame hHandler hPsp hMain
      refine ⟨_, by
        simp [Cpu.run, Transition.exec, pendSVSave, Cpu.exec, Cpu.push, Cpu.setReg, lowRegs, sp_eq,
          lr_eq, *]
        rfl, hFramed.saved h ?_ ?_⟩
      · simp [handlerBase, handlerWords, sp_eq]
      · simp [handlerBase, handlerWords, frameBase, frameWords, lowRegs, Cpu.psp, sp_eq, lr_eq]
  | cortexM4 =>
      -- The floating-point registers are stored by a second push if bit 4 is clear.
      by_cases hFp : c.reg lr &&& 0x10 = 0
      · have hFramed : Framed .cortexM4 c (putWords (putWords c.mem
            (c.psp - 4 * (highFpRegs.map c.fp).length) (highFpRegs.map c.fp))
            (frameBase .cortexM4 c) ((lowRegs ++ [lr]).map c.reg)) :=
          framed_two (by simp only [frameWords, if_pos hFp]) h.frame
        have hLength : (frameWords .cortexM4 c).length = 25 := by
          simp [frameWords, lowRegs, highFpRegs, hFp]
        have hSplit : c.psp - 100 = c.psp - 64 - 36 := by omega
        have hLow : 36 ≤ c.psp - 64 := by omega
        have hHigh : 64 ≤ c.psp := by omega
        have hAligned : (c.psp - 64) % 4 = 0 := by omega
        simp only [handlerWords, List.length_cons, List.length_nil] at hHandler
        simp only [Cpu.psp, sp_eq, lr_eq] at hHigh hLow hAligned hHandler hPsp hMain hFp
        refine ⟨_, by
          simp [Cpu.run, Transition.exec, pendSVSave, Cpu.exec, Cpu.push, Cpu.setReg, lowRegs,
            highFpRegs, sp_eq, lr_eq, *]
          rfl, hFramed.saved h ?_ ?_⟩
        · simp [handlerBase, handlerWords, sp_eq]
        · rw [frameBase, hLength, hSplit]
          simp [handlerBase, handlerWords, lowRegs, highFpRegs, Cpu.psp, sp_eq, lr_eq]
      · have hWords : frameWords .cortexM4 c = (lowRegs ++ [lr]).map c.reg := by
          simp only [frameWords, if_neg hFp, List.append_nil]
        have hFramed := framed_putWords h.frame
        rw [hWords] at hFramed hFrame
        simp [handlerWords, lowRegs, Cpu.psp, sp_eq] at hFrame hHandler hPsp hMain
        simp only [lr_eq] at hFp
        refine ⟨_, by
          simp [Cpu.run, Transition.exec, pendSVSave, Cpu.exec, Cpu.push, Cpu.setReg, lowRegs,
            sp_eq, lr_eq, *]
          rfl, hFramed.saved h ?_ ?_⟩
        · simp [handlerBase, handlerWords, sp_eq]
        · rw [frameBase, hWords]
          simp [handlerBase, handlerWords, lowRegs, Cpu.psp, sp_eq, lr_eq]

theorem stackWords_congr {mem mem' : Nat → Nat} {top psp : Nat}
    (h : ∀ x, psp ≤ x → x < top → mem' x = mem x) :
    Core.stackWords top mem' psp = Core.stackWords top mem psp := by
  apply getWords_congr
  intro x hLow hHigh
  exact h x hLow (by omega)

/-- A frame with the words of a context is that context, parked. -/
theorem parked_eq_running {mem : Nat → Nat} {a top : Nat}
    (hFrame : getWords mem a (frameWords core c).length = frameWords core c)
    (hEnd : a + 4 * (frameWords core c).length = c.psp) (hExc : c.reg lr ∈ core.excReturns)
    (hStack : ∀ x, c.psp ≤ x → x < top → mem x = c.mem x) :
    core.parked top mem a = core.running top c := by
  have hWords := stackWords_congr hStack
  cases core with
  | cortexM3 =>
      have hLr : c.reg lr = excReturnThread := by simpa [Core.excReturns] using hExc
      have hPsp : a + 32 = c.psp := hEnd
      have hLow : getWords mem a 8 = lowRegs.map c.reg := hFrame
      simp [Core.parked, Core.running, Core.frameEnd, hPsp, hWords, hLow, hLr]
  | cortexM4 =>
      -- The frame is cut behind `r11` and behind `lr`.
      have hLength : (frameWords .cortexM4 c).length =
          8 + (1 + (if c.reg lr &&& 0x10 = 0 then highFpRegs.map c.fp else []).length) := by
        rw [frameWords, List.length_append, ← Nat.add_assoc]
        rfl
      rw [hLength, getWords_add, getWords_add, frameWords, List.map_append, List.append_assoc] at hFrame
      obtain ⟨hLow, hRest⟩ := List.append_inj hFrame (by simp [lowRegs])
      obtain ⟨hOne, hHigh⟩ := List.append_inj hRest (by simp)
      have hLr : mem (a + 32) = c.reg lr := by simpa [getWords] using hOne
      rw [hLength] at hEnd
      by_cases hFp : c.reg lr &&& 0x10 = 0
      · simp only [if_pos hFp] at hHigh hEnd
        have hPsp : a + 100 = c.psp := by simpa [highFpRegs] using hEnd
        have hWide : getWords mem (a + 36) 16 = highFpRegs.map c.fp := hHigh
        simp [Core.parked, Core.running, Core.frameEnd, hLr, hFp, hPsp, hWords, hLow, hWide]
      · have hPsp : a + 36 = c.psp := by simpa [hFp] using hEnd
        simp [Core.parked, Core.running, Core.frameEnd, hLr, hFp, hPsp, hWords, hLow]

end Save

section Restore

/-- A frame to be loaded, with its exception return word. -/
structure CanLoad (core : Core) (mem : Nat → Nat) (cur : Nat) : Prop where
  current : cur % 4 = 0
  tcb : mem cur % 4 = 0
  aligned : mem (mem cur) % 4 = 0
  bound : core.frameEnd mem (mem (mem cur)) < 2 ^ 32
  exc : core = .cortexM4 → mem (mem (mem cur) + 32) ∈ core.excReturns

/-- A context that was loaded from the frame at `a`. -/
structure Loaded (core : Core) (mem : Nat → Nat) (a : Nat) (c : Cpu) : Prop where
  low : lowRegs.map c.reg = getWords mem a 8
  exc : c.reg lr ∈ core.excReturns
  lr : core = .cortexM4 → c.reg lr = mem (a + 32)
  high : core = .cortexM4 → mem (a + 32) &&& 0x10 = 0 →
    highFpRegs.map c.fp = getWords mem (a + 36) 16
  psp : c.psp = core.frameEnd mem a
  mem : c.mem = mem

variable {core : Core} {c c₀ : Cpu} {cur a : Nat}
  {mem : Nat → Nat} {file : Reg → Nat} {r : Reg} {word : Nat} {ws : List Nat}

theorem Loaded.running_eq_parked (h : Loaded core mem a c) (top : Nat) :
    core.running top c = core.parked top mem a := by
  cases core with
  | cortexM3 =>
      have hExc : c.reg Thumb.lr = excReturnThread := by simpa [Core.excReturns] using h.exc
      simp [Core.running, Core.parked, h.low, h.psp, h.mem, hExc]
  | cortexM4 =>
      have hLr := h.lr rfl
      by_cases hFp : mem (a + 32) &&& 0x10 = 0
      · simp [Core.running, Core.parked, h.low, h.psp, h.mem, hLr, hFp, h.high rfl hFp]
      · simp [Core.running, Core.parked, h.low, h.psp, h.mem, hLr, hFp]

/-- `PendSV_Handler` sets a bit that is set already. -/
theorem Core.or_set (h : word ∈ core.excReturns) : word ||| 4 = word := by
  cases core with
  | cortexM3 =>
      rw [List.mem_singleton.mp h]
      decide
  | cortexM4 =>
      rcases List.mem_pair.mp h with hWord | hWord <;> rw [hWord] <;> decide

theorem map_lowRegs_update (h : r ∉ lowRegs) :
    lowRegs.map (Function.update file r word) = lowRegs.map file :=
  List.map_congr_left fun _ hq => Function.update_of_ne (ne_of_mem_of_not_mem hq h) _ _

theorem map_loadRegs_low (h : ws.length = 8) : lowRegs.map (loadRegs file lowRegs ws) = ws :=
  map_loadRegs (by decide) h

/-- The frame of the Cortex-M4 ends with the exception return word. -/
theorem loadRegs_lr : lowRegs.map (loadRegs file (lowRegs ++ [lr]) (getWords mem a 9)) =
      getWords mem a 8 ∧
    loadRegs file (lowRegs ++ [lr]) (getWords mem a 9) lr = mem (a + 32) := by
  have hAll : (lowRegs ++ [lr]).map (loadRegs file (lowRegs ++ [lr]) (getWords mem a 9)) =
      getWords mem a 8 ++ [mem (a + 32)] :=
    map_loadRegs (by decide) length_getWords
  rw [List.map_append] at hAll
  obtain ⟨hLow, hLr⟩ := List.append_inj hAll (by rw [List.length_map, length_getWords]; rfl)
  exact ⟨hLow, List.singleton_inj.mp hLr⟩

/-- The second half of `PendSV_Handler` does not fault. It loads the context
of the task that `dos_current_task` points to. -/
theorem pendSVRestore_run (call : PortFn → Cpu → Option Cpu) (h : CanLoad core c.mem cur)
    (hMain : c.reg sp % 4 = 0)
    (hEnd : c.reg sp + 4 * (handlerWords core cur c₀).length < 2 ^ 32)
    (hWords : getWords c.mem (c.reg sp) (handlerWords core cur c₀).length = handlerWords core cur c₀)
    (hExc : c₀.reg lr ∈ core.excReturns) :
    ∃ c', c.run call (pendSVRestore core) = some c' ∧
      Loaded core c.mem (c.mem (c.mem cur)) c' ∧
      c'.reg sp = c.reg sp + 4 * (handlerWords core cur c₀).length ∧
      c'.special .primask = c₀.special .primask := by
  have hCurrent := h.current
  have hTcb := h.tcb
  have hAligned := h.aligned
  have hSp : c.reg 13 % 4 = 0 := hMain
  cases core with
  | cortexM3 =>
      have hOr : c₀.reg 14 ||| 4 = c₀.reg 14 := Core.or_set hExc
      have hLow : ∀ (f : Reg → Nat) ws, ∀ r ∈ [0, 1, 13, 14], loadRegs f lowRegs ws r = f r :=
        fun f ws r hr => loadRegs_of_notMem (by revert r; decide)
      have hLength : lowRegs.length = 8 := rfl
      have hTop : c.reg 13 + 12 < 4294967296 := hEnd
      have hBound : c.mem (c.mem cur) + 32 < 4294967296 := h.bound
      have hKept : getWords c.mem (c.reg 13) 3 = [c₀.special .primask, cur, c₀.reg 14] := hWords
      refine ⟨_, by
        simp [Cpu.run, Transition.exec, pendSVRestore, Cpu.exec, Cpu.pop, Cpu.setReg, sp_eq, lr_eq,
          hCurrent, hTcb, hAligned, hSp, hOr, loadRegs, hLow, hLength, hTop, hBound, hKept]
        rfl, ⟨?_, ?_, by simp, by simp, ?_, ?_⟩, ?_, ?_⟩
      · rw [map_lowRegs_update (by decide), map_loadRegs_low length_getWords]
      · simpa [lr_eq] using hExc
      · simp [Cpu.psp, Core.frameEnd]
      · rfl
      · simp [hLow, handlerWords, sp_eq]
      · simp
  | cortexM4 =>
      have hLoaded := h.exc rfl
      have hOr := Core.or_set hLoaded
      have hLow : ∀ (f : Reg → Nat) ws, ∀ r ∈ [0, 1, 13], loadRegs f (lowRegs ++ [14]) ws r = f r :=
        fun f ws r hr => loadRegs_of_notMem (by revert r; decide)
      have hLr : ∀ (f : Reg → Nat) a, loadRegs f (lowRegs ++ [14]) (getWords c.mem a 9) 14 =
          c.mem (a + 32) := fun _ _ => loadRegs_lr.2
      have hLength : lowRegs.length = 8 := rfl
      have hTop : c.reg 13 + 8 < 4294967296 := hEnd
      have hKept : getWords c.mem (c.reg 13) 2 = [c₀.special .primask, cur] := hWords
      have hBound := h.bound
      by_cases hFp : c.mem (c.mem (c.mem cur) + 32) &&& 0x10 = 0
      · have hFull : highFpRegs.length = 16 := rfl
        have hFrame : c.mem (c.mem cur) + 100 < 4294967296 := by
          simpa [Core.frameEnd, hFp] using hBound
        have hShort : c.mem (c.mem cur) + 36 < 4294967296 := by omega
        have hAligned' : (c.mem (c.mem cur) + 36) % 4 = 0 := by omega
        refine ⟨_, by
          simp [Cpu.run, Transition.exec, pendSVRestore, Cpu.exec, Cpu.pop, Cpu.setReg, sp_eq, lr_eq,
            hCurrent, hTcb, hAligned, hSp, hOr, loadRegs, hLow, hLr, hLength, hTop, hKept, hFp, hFull,
            hFrame, hShort, hAligned']
          rfl, ⟨?_, ?_, ?_, ?_, ?_, ?_⟩, ?_, ?_⟩
        · rw [map_lowRegs_update (by decide), map_lowRegs_update (by decide)]
          exact loadRegs_lr.1
        · simpa [lr_eq] using hLoaded
        · simp [lr_eq]
        · intro _ _
          exact map_loadRegs (by decide) length_getWords
        · simp [Cpu.psp, Core.frameEnd, hFp]
        · rfl
        · simp [hLow, handlerWords, sp_eq]
        · simp
      · have hFrame : c.mem (c.mem cur) + 36 < 4294967296 := by
          simpa [Core.frameEnd, hFp] using hBound
        refine ⟨_, by
          simp [Cpu.run, Transition.exec, pendSVRestore, Cpu.exec, Cpu.pop, Cpu.setReg, sp_eq, lr_eq,
            hCurrent, hTcb, hAligned, hSp, hOr, loadRegs, hLow, hLr, hLength, hTop, hKept, hFp, hFrame]
          rfl, ⟨?_, ?_, ?_, ?_, ?_, ?_⟩, ?_, ?_⟩
        · rw [map_lowRegs_update (by decide)]
          exact loadRegs_lr.1
        · simpa [lr_eq] using hLoaded
        · simp [lr_eq]
        · simp [hFp]
        · simp [Cpu.psp, Core.frameEnd, hFp]
        · rfl
        · simp [hLow, handlerWords, sp_eq]
        · simp

/-- The word in `lr` when `svc` was executed in thread mode on the main stack. -/
def excReturnMain : Nat := 0xfffffff9

/-- `SVC_Handler` does not fault. It loads the context of the task that
`dos_current_task` points to, if that context has no floating-point state. -/
theorem svcHandler_run (call : PortFn → Cpu → Option Cpu) (h : CanLoad core c.mem cur)
    (hLr : c.reg lr = excReturnMain)
    (hFirst : core = .cortexM4 → c.mem (c.mem (c.mem cur) + 32) = excReturnThread) :
    ∃ c', c.run call (svcHandler cur core) = some c' ∧
      Loaded core c.mem (c.mem (c.mem cur)) c' ∧ c'.reg sp = c.reg sp := by
  have hCurrent := h.current
  have hTcb := h.tcb
  have hAligned := h.aligned
  have hBound := h.bound
  have hLength : lowRegs.length = 8 := rfl
  cases core with
  | cortexM3 =>
      have hOr : c.reg 14 ||| 0xd = excReturnThread := by
        rw [show c.reg 14 = excReturnMain from hLr]
        decide
      have hLow : ∀ (f : Reg → Nat) ws, ∀ r ∈ [0, 13, 14], loadRegs f lowRegs ws r = f r :=
        fun f ws r hr => loadRegs_of_notMem (by revert r; decide)
      have hEnd : c.mem (c.mem cur) + 32 < 4294967296 := hBound
      refine ⟨_, by
        simp [Cpu.run, Transition.exec, svcHandler, Cpu.exec, Cpu.pop, Cpu.setReg, lr_eq,
          hCurrent, hTcb, hAligned, hOr, hLow, hLength, hEnd]
        rfl, ⟨?_, ?_, by simp, by simp, ?_, ?_⟩, ?_⟩
      · rw [map_lowRegs_update (by decide), map_lowRegs_update (by decide),
          map_loadRegs_low length_getWords]
      · simp [lr_eq, Core.excReturns]
      · simp [Cpu.psp, Core.frameEnd]
      · rfl
      · simp [hLow, sp_eq]
  | cortexM4 =>
      have hLow : ∀ (f : Reg → Nat) ws, ∀ r ∈ [0, 13], loadRegs f (lowRegs ++ [14]) ws r = f r :=
        fun f ws r hr => loadRegs_of_notMem (by revert r; decide)
      have hWord := hFirst rfl
      have hOr : excReturnThread ||| 0xd = excReturnThread := by decide
      have hFp : excReturnThread &&& 0x10 ≠ 0 := by decide
      have hEnd : c.mem (c.mem cur) + 36 < 4294967296 := by
        simpa [Core.frameEnd, hWord, hFp] using hBound
      have hLr' : ∀ (f : Reg → Nat), loadRegs f (lowRegs ++ [14])
          (getWords c.mem (c.mem (c.mem cur)) 9) 14 = excReturnThread :=
        fun _ => loadRegs_lr.2.trans hWord
      refine ⟨_, by
        simp [Cpu.run, Transition.exec, svcHandler, Cpu.exec, Cpu.pop, Cpu.setReg, lr_eq,
          hCurrent, hTcb, hAligned, hOr, hLow, hLr', hLength, hEnd]
        rfl, ⟨?_, ?_, ?_, ?_, ?_, ?_⟩, ?_⟩
      · rw [map_lowRegs_update (by decide), map_lowRegs_update (by decide)]
        exact loadRegs_lr.1
      · simp [lr_eq, Core.excReturns]
      · simp [lr_eq, hWord]
      · intro _ hFp'
        rw [hWord] at hFp'
        exact absurd hFp' hFp
      · simp [Cpu.psp, Core.frameEnd, hWord, hFp]
      · rfl
      · simp [hLow, sp_eq]

end Restore

section First

/-- The bytes below the top of the stack that the first frame takes. -/
def firstFrame : Core → Nat
  | .cortexM3 => 64
  | .cortexM4 => 68

/-- The context of a task that has not run yet: it starts at its entry with
its parameter in `r0`, in Thumb state, and returns to `dos_task_exit`. -/
structure Fresh (top : Nat) (code : TaskCode) (ctx : Context) : Prop where
  excReturn : ctx.excReturn = excReturnThread
  high : ctx.high = []
  psp : ctx.psp = top - 32
  length : ctx.stack.length = 8
  r0 : ctx.stack[0]? = some code.parameter
  returns : ctx.stack[5]? = some code.dosTaskExit
  pc : ctx.stack[6]? = some code.taskEntry
  xPSR : ctx.stack[7]? = some 0x01000000

variable {core : Core} {mem : Nat → Nat} {top n x : Nat} {code : TaskCode}

theorem le_firstFrame (core : Core) : 64 ≤ firstFrame core := by
  cases core <;> decide

theorem below_eq (hRoom : 4 * n ≤ top) (hBound : top < 2 ^ 32) : below top n = top - 4 * n := by
  unfold below
  omega

/-- The words that both ports write below the top of a new stack. -/
def firstWords (mem : Nat → Nat) (top : Nat) (code : TaskCode) : Nat → Nat :=
  Function.update (Function.update (Function.update (Function.update mem (top - 4) 0x01000000)
    (top - 8) code.taskEntry) (top - 12) code.dosTaskExit) (top - 32) code.parameter

/-- The memory that `dos_stack_init` leaves. -/
def firstMem (core : Core) (mem : Nat → Nat) (top : Nat) (code : TaskCode) : Nat → Nat :=
  match core with
  | .cortexM3 => firstWords mem top code
  | .cortexM4 => Function.update (firstWords mem top code) (top - 36) excReturnThread

theorem dosStackInit_eq (hRoom : firstFrame core ≤ top) (hBound : top < 2 ^ 32) :
    dosStackInit mem top code core = (firstMem core mem top code, top - firstFrame core) := by
  have hLow := le_firstFrame core
  have hPush : ∀ k n, 4 * (k + n) ≤ firstFrame core →
      below (top - 4 * k) n = top - 4 * (k + n) := by
    intro k n h
    rw [below_eq (by omega) (by omega)]
    omega
  have h₁ : below top 1 = top - 4 := hPush 0 1 (by omega)
  have h₂ : below (top - 4) 1 = top - 8 := hPush 1 1 (by omega)
  have h₃ : below (top - 8) 1 = top - 12 := hPush 2 1 (by omega)
  have h₄ : below (top - 12) 4 = top - 28 := hPush 3 4 (by omega)
  have h₅ : below (top - 28) 1 = top - 32 := hPush 7 1 (by omega)
  simp only [dosStackInit, h₁, h₂, h₃, h₄, h₅]
  cases core with
  | cortexM3 =>
      have h₆ : below (top - 32) 8 = top - 64 := hPush 8 8 (by decide)
      rw [h₆]
      rfl
  | cortexM4 =>
      have h₆ : below (top - 32) 1 = top - 36 := hPush 8 1 (by decide)
      have h₇ : below (top - 36) 8 = top - 68 := hPush 9 8 (by decide)
      rw [h₆, h₇]
      rfl

/-- The first frame is written into the nine words below the top. -/
theorem firstMem_off (hRoom : 36 ≤ top) (h : x < top - 36 ∨ top ≤ x) :
    firstMem core mem top code x = mem x := by
  have hWords : firstWords mem top code x = mem x := by
    unfold firstWords
    rw [Function.update_of_ne (by omega), Function.update_of_ne (by omega),
      Function.update_of_ne (by omega), Function.update_of_ne (by omega)]
  cases core with
  | cortexM3 => exact hWords
  | cortexM4 => exact (Function.update_of_ne (by omega) _ _).trans hWords

theorem firstMem_excReturn (hCore : core = .cortexM4) :
    firstMem core mem top code (top - 36) = excReturnThread := by
  subst hCore
  exact Function.update_self _ _ _

/-- The word of the exception return is below those that both ports write. -/
theorem firstMem_words (hx : top - 36 < x) :
    firstMem core mem top code x = firstWords mem top code x := by
  cases core with
  | cortexM3 => rfl
  | cortexM4 => exact Function.update_of_ne (by omega) _ _

theorem fresh_parked (hRoom : firstFrame core ≤ top) :
    Fresh top code (core.parked top (firstMem core mem top code) (top - firstFrame core)) := by
  have hLow := le_firstFrame core
  have hExc : core = .cortexM4 →
      firstMem core mem top code (top - firstFrame core + 32) = excReturnThread := by
    intro hCore
    have hPlace : top - firstFrame core + 32 = top - 36 := by
      subst hCore
      have hTop : 68 ≤ top := hRoom
      exact (by omega : top - 68 + 32 = top - 36)
    rw [hPlace, firstMem_excReturn hCore]
  have hEnd : core.frameEnd (firstMem core mem top code) (top - firstFrame core) = top - 32 := by
    cases core with
    | cortexM3 => exact (by omega : top - 64 + 32 = top - 32)
    | cortexM4 =>
        have hTop : 68 ≤ top := hRoom
        have hFp : excReturnThread &&& 0x10 ≠ 0 := by decide
        simp only [Core.frameEnd, hExc, hFp, if_false]
        exact (by omega : top - 68 + 36 = top - 32)
  have hStack : (core.parked top (firstMem core mem top code) (top - firstFrame core)).stack =
      getWords (firstMem core mem top code) (top - 32) 8 := by
    have hWords : (top - (top - 32)) / 4 = 8 := by omega
    exact (congrArg (Core.stackWords top _) hEnd).trans (congrArg (getWords _ _) hWords)
  have hAt : ∀ i, i < 8 → (getWords (firstMem core mem top code) (top - 32) 8)[i]? =
      some (firstWords mem top code (top - 32 + 4 * i)) := by
    intro i hi
    rw [getElem?_getWords hi, firstMem_words (by omega)]
  refine ⟨?_, ?_, hEnd, ?_, ?_, ?_, ?_, ?_⟩
  · cases core with
    | cortexM3 => rfl
    | cortexM4 => exact hExc rfl
  · cases core with
    | cortexM3 => rfl
    | cortexM4 => exact if_neg fun h => absurd (hExc rfl ▸ h.2) (by decide)
  · rw [hStack, length_getWords]
  · rw [hStack, hAt 0 (by decide), firstWords, Nat.mul_zero, Nat.add_zero, Function.update_self]
  · have hPlace : top - 32 + 4 * 5 = top - 12 := by omega
    rw [hStack, hAt 5 (by decide), firstWords, hPlace, Function.update_of_ne (by omega),
      Function.update_self]
  · have hPlace : top - 32 + 4 * 6 = top - 8 := by omega
    rw [hStack, hAt 6 (by decide), firstWords, hPlace, Function.update_of_ne (by omega),
      Function.update_of_ne (by omega), Function.update_self]
  · have hPlace : top - 32 + 4 * 7 = top - 4 := by omega
    rw [hStack, hAt 7 (by decide), firstWords, hPlace, Function.update_of_ne (by omega),
      Function.update_of_ne (by omega), Function.update_of_ne (by omega), Function.update_self]

end First

end DoraOS
