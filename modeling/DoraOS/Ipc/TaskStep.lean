import DoraOS.Ipc.System
import DoraOS.Kernel.Effects

/-! What a step of the system means for one task. Every step is, for each
task, a sequence of at most two local steps; an invariant of single tasks is
proved on the local steps alone. -/
namespace DoraOS

/-- The wait a task is in, from `dos_task_wait` to the end of its clean-up. -/
def Pc.waitsOn : Pc → Option Wait
  | .wait w => some w
  | .cleanUp w => some w
  | .unlink w => some w
  | _ => none

/-- One task as the other tasks see it. -/
structure TaskAt where
  view : TaskView
  pc : Pc

def System.task (s : System) (t : TaskId) : TaskAt where
  view := s.k.view t
  pc := s.pc t

/-- The labels that tell the story of a task's waits. -/
def Label.about (t : TaskId) : Label → Bool
  | .waiting x _ => x = t
  | .granted x => x = t
  | .timedOut x => x = t
  | _ => false

/-- What the state of the system says about a task before a step: `dos_event_set`
has selected it and the step wakes it, or the step is a tick and its time is up. -/
structure Cause where
  woken : Prop
  due : Prop

open Kernel in
/-- The local steps of the task `t`, with the labels about it. A post wakes nobody
that waits for an event. -/
inductive TaskStep (why : Cause) (t : TaskId) : TaskAt → List Label → TaskAt → Prop where
  | move {v : TaskView} {pc pc' : Pc} (hFrom : pc.waitsOn = none) (hTo : pc'.waitsOn = none) :
      TaskStep why t ⟨v, pc⟩ [] ⟨v, pc'⟩
  | create {v v' : TaskView} {pc : Pc} (hFree : v.alloc = false) (hAlloc : v'.alloc = true)
      (hPend : v'.pendOwner = none) : TaskStep why t ⟨v, pc⟩ [] ⟨v', pc⟩
  | priority {v : TaskView} {pc : Pc} (prio : Nat) :
      TaskStep why t ⟨v, pc⟩ [] ⟨v.withPriority prio, pc⟩
  | sleep {v v' : TaskView} {pc : Pc} (hPc : pc.waitsOn = none) (hAlloc : v.alloc = true)
      (hDozes : Dozes v v') : TaskStep why t ⟨v, pc⟩ [] ⟨v', pc⟩
  | expire {v : TaskView} {pc : Pc} (hDue : why.due) (hSleep : v.Sleeping) :
      TaskStep why t ⟨v, pc⟩ [] ⟨v.expired, pc⟩
  | wake {v : TaskView} {pc : Pc} (hWoken : why.woken) (hAlloc : v.alloc = true) :
      TaskStep why t ⟨v, pc⟩ [] ⟨v.woken, pc⟩
  | grant {v : TaskView} {pc : Pc} {id : PendId} (hOn : v.pendOwner = some (.pend id))
      (hOther : ∀ e, id ≠ .event e) : TaskStep why t ⟨v, pc⟩ [.granted t] ⟨v.woken, pc⟩
  | select {v : TaskView} {pc : Pc} {id : PendId} (hOn : v.pendOwner = some (.pend id)) :
      TaskStep why t ⟨v, pc⟩ [.granted t] ⟨v, pc⟩
  | block {v v' : TaskView} (w : Wait) (hAlloc : v.alloc = true) (hBlocked : Blocked v v' w.pendId) :
      TaskStep why t ⟨v, .user⟩ [.waiting t w.pendId] ⟨v', .wait w⟩
  | resume {v : TaskView} {w : Wait} {pc' : Pc} (hReady : Flag.test v.status .ready = true)
      (hTimeout : Flag.test v.status .timeout = false) (hTo : pc'.waitsOn = none) :
      TaskStep why t ⟨v, .wait w⟩ [] ⟨v, pc'⟩
  | giveUp {v : TaskView} {w : Wait} (hTimeout : Flag.test v.status .timeout = true) :
      TaskStep why t ⟨v, .wait w⟩ [] ⟨v, .cleanUp w⟩
  | cleanUp {v : TaskView} {w : Wait} (hAlloc : v.alloc = true) :
      TaskStep why t ⟨v, .cleanUp w⟩ [.timedOut t] ⟨v.flagsReset.unpended, .user⟩
  | reset {v : TaskView} {w : Wait} (hAlloc : v.alloc = true) :
      TaskStep why t ⟨v, .cleanUp w⟩ [] ⟨v.flagsReset, .unlink w⟩
  | unlink {v : TaskView} {w : Wait} :
      TaskStep why t ⟨v, .unlink w⟩ [.timedOut t] ⟨v.unpended, .user⟩

inductive TaskPath (why : Cause) (t : TaskId) : TaskAt → List Label → TaskAt → Prop where
  | nil (a : TaskAt) : TaskPath why t a [] a
  | snoc {a b c : TaskAt} {first last : List Label} (prior : TaskPath why t a first b)
      (step : TaskStep why t b last c) : TaskPath why t a (first ++ last) c

namespace TaskPath

variable {why : Cause} {t : TaskId} {a b c : TaskAt} {first second : List Label}

theorem trans (left : TaskPath why t a first b) (right : TaskPath why t b second c) :
    TaskPath why t a (first ++ second) c := by
  induction right with
  | nil => simpa using left
  | snoc prior step ih =>
      rw [← List.append_assoc]
      exact TaskPath.snoc ih step

theorem single (step : TaskStep why t a first b) : TaskPath why t a first b := by
  simpa using TaskPath.snoc (TaskPath.nil a) step

end TaskPath

/-- The labels of a local step are about its task. -/
theorem TaskStep.labels {why : Cause} {t : TaskId} {a b : TaskAt} {ls : List Label}
    (step : TaskStep why t a ls b) : ∀ l ∈ ls, ∀ x, l.about x = decide (t = x) := by
  cases step <;> simp [Label.about]

/-- The invariant of a single task. A control block that is not in use is on
no list, a task on a pend list is in the wait that put it there, and while it
has not found its timeout flag it is suspended and not ready without it. -/
structure TaskAt.Ok (a : TaskAt) : Prop where
  free : a.view.alloc = false → a.view.statusOwner = none ∧ a.view.pendOwner = none ∧
    Flag.test a.view.status .ready = false
  pend : ∀ l, a.view.pendOwner = some l → ∃ w, a.pc.waitsOn = some w ∧ l = .pend w.pendId
  blocked : ∀ w, a.pc = .wait w → a.view.pendOwner ≠ none →
    Flag.test a.view.status .suspend = true ∧
      (Flag.test a.view.status .ready = true → Flag.test a.view.status .timeout = true)

namespace TaskAt

/-- A task that is in use and on no pend list meets the invariant at any point. -/
theorem Ok.of_unpended {a : TaskAt} (hAlloc : a.view.alloc = true) (hPend : a.view.pendOwner = none) :
    a.Ok where
  free hFree := by
    rw [hAlloc] at hFree
    cases hFree
  pend l hOwner := by
    rw [hPend] at hOwner
    cases hOwner
  blocked _ _ hOwner := absurd hPend hOwner

theorem Ok.alloc {a : TaskAt} (h : a.Ok) {l : ListId} (hPend : a.view.pendOwner = some l) :
    a.view.alloc = true := by
  cases hAlloc : a.view.alloc with
  | true => rfl
  | false =>
      have hNone := (h.free hAlloc).2.1
      rw [hPend] at hNone
      cases hNone

/-- Outside a wait a task is on no pend list. -/
theorem Ok.unpended {a : TaskAt} (h : a.Ok) (hPc : a.pc.waitsOn = none) : a.view.pendOwner = none := by
  cases hOwner : a.view.pendOwner with
  | none => rfl
  | some l =>
      obtain ⟨w, hw, _⟩ := h.pend l hOwner
      rw [hPc] at hw
      cases hw

end TaskAt

/-- Every local step keeps the invariant. -/
theorem TaskStep.ok {why : Cause} {t : TaskId} {a b : TaskAt} {ls : List Label}
    (step : TaskStep why t a ls b) (h : a.Ok) : b.Ok := by
  cases step with
  | move hFrom hTo =>
      have hNone := h.unpended hFrom
      refine ⟨h.free, ?_, ?_⟩
      · intro l hl
        rw [hNone] at hl
        cases hl
      · intro _ _ hl
        exact absurd hNone hl
  | create hFree hAlloc hPend => exact TaskAt.Ok.of_unpended hAlloc hPend
  | priority prio =>
      refine ⟨?_, ?_, ?_⟩
      · intro hFree
        have hOld := h.free (by simpa using hFree)
        have hNot := hOld.2.2
        refine ⟨?_, by simpa using hOld.2.1, by simpa using hNot⟩
        simpa [TaskView.withPriority, hNot] using hOld.1
      · intro l hl
        exact h.pend l (by simpa using hl)
      · intro w hw hl
        simpa using h.blocked w hw (by simpa using hl)
  | sleep hPc hAlloc hDozes =>
      exact TaskAt.Ok.of_unpended (hDozes.alloc.trans hAlloc) (hDozes.pend.trans (h.unpended hPc))
  | expire hDue hSleep =>
      refine ⟨?_, h.pend, ?_⟩
      · intro hFree
        have hNone := (h.free hFree).1
        rcases hSleep with hs | hs
        · rw [hNone] at hs
          cases hs
        · rw [hNone] at hs
          cases hs
      · intro w hw hl
        have hSuspend := (h.blocked w hw hl).1
        simp only at hSuspend
        simp [hSuspend]
  | wake hWoken hAlloc => exact TaskAt.Ok.of_unpended hAlloc rfl
  | grant hOn hOther => exact TaskAt.Ok.of_unpended (h.alloc hOn) rfl
  | select hOn => exact h
  | block w hAlloc hBlocked =>
      refine ⟨?_, ?_, ?_⟩
      · intro hFree
        have hSet : _ = true := hBlocked.alloc.trans hAlloc
        rw [hSet] at hFree
        cases hFree
      · intro l hl
        refine ⟨w, rfl, ?_⟩
        have hSame := hBlocked.pend.symm.trans hl
        exact (Option.some.inj hSame).symm
      · intro _ _ _
        refine ⟨hBlocked.suspend, ?_⟩
        intro hReady
        have hNot := hBlocked.ready
        rw [hReady] at hNot
        cases hNot
  | resume hReady hTimeout hTo =>
      rename_i v w pc'
      have hNone : v.pendOwner = none := by
        by_contra hOn
        have hSet := (h.blocked w rfl hOn).2 hReady
        rw [hTimeout] at hSet
        cases hSet
      refine ⟨h.free, ?_, ?_⟩
      · intro l hl
        rw [hNone] at hl
        cases hl
      · intro _ _ hl
        exact absurd hNone hl
  | giveUp hTimeout => exact ⟨h.free, h.pend, fun _ hPc => by cases hPc⟩
  | cleanUp hAlloc => exact TaskAt.Ok.of_unpended hAlloc rfl
  | reset hAlloc =>
      refine ⟨?_, h.pend, fun _ hPc => by cases hPc⟩
      intro hFree
      exact absurd (hAlloc.symm.trans hFree) (by simp)
  | unlink =>
      refine ⟨?_, ?_, fun _ hPc => by cases hPc⟩
      · intro hFree
        have hOld := h.free hFree
        exact ⟨hOld.1, rfl, hOld.2.2⟩
      · intro l hl
        cases hl

theorem TaskPath.ok {why : Cause} {t : TaskId} {a b : TaskAt} {ls : List Label}
    (path : TaskPath why t a ls b) (h : a.Ok) : b.Ok := by
  induction path with
  | nil => exact h
  | snoc prior step ih => exact step.ok ih

/-- A task that waits for an event is on a pend list until it is selected. -/
def TaskAt.Pends (a : TaskAt) : Prop :=
  ∀ e waitEvent, a.pc = .wait (.event e waitEvent) → a.view.pendOwner ≠ none

theorem TaskPath.pends {why : Cause} {t : TaskId} {a b : TaskAt} {ls : List Label}
    (path : TaskPath why t a ls b) (hNot : ¬why.woken) (h : a.Ok) (hPends : a.Pends) : b.Pends := by
  induction path with
  | nil => exact hPends
  | snoc prior step ih =>
      have hOk := prior.ok h
      intro e waitEvent hPc
      cases step with
      | move _ hTo | resume _ _ hTo =>
          have hw : (Pc.wait (.event e waitEvent)).waitsOn = none := hPc ▸ hTo
          cases hw
      | create hFree =>
          exact absurd (hOk.free hFree).2.1 (ih e waitEvent hPc)
      | sleep hOut =>
          have hw : (Pc.wait (.event e waitEvent)).waitsOn = none := hPc ▸ hOut
          cases hw
      | priority prio => simpa using ih e waitEvent hPc
      | wake hWoken => exact absurd hWoken hNot
      | grant hOn hOther =>
          -- the waiter for an event is on no other pend list
          obtain ⟨w, hOwn, hId⟩ := hOk.pend _ hOn
          have hw : (Pc.wait (.event e waitEvent)).waitsOn = some w := hPc ▸ hOwn
          cases hw
          cases hId
          exact absurd rfl (hOther e)
      | block w _ hBlocked =>
          rw [hBlocked.pend]
          simp
      | giveUp | cleanUp | reset | unlink => cases hPc
      | expire | select => exact ih e waitEvent hPc

/-- A task stays on its pend list until it is selected or gives up. -/
theorem TaskPath.pended {why : Cause} {t : TaskId} {a b : TaskAt} {ls : List Label}
    (path : TaskPath why t a ls b) (hOk : a.Ok) (hWoken : ¬why.woken) (hGranted : .granted t ∉ ls)
    (hTimed : .timedOut t ∉ ls) {l : ListId} (hOn : a.view.pendOwner = some l) :
    b.view.pendOwner = some l := by
  induction path with
  | nil => exact hOn
  | snoc prior step ih =>
      rw [List.mem_append, not_or] at hGranted hTimed
      have hWas := ih hGranted.1 hTimed.1
      have hOk := prior.ok hOk
      cases step with
      | create hFree => exact absurd (hWas.symm.trans (hOk.free hFree).2.1) (by simp)
      | priority prio => simpa using hWas
      | sleep hPc _ hDozes => exact hDozes.pend.trans hWas
      | wake hSelected => exact absurd hSelected hWoken
      | grant | select => exact absurd List.mem_cons_self hGranted.2
      | block w => exact absurd (hWas.symm.trans (hOk.unpended rfl)) (by simp)
      | cleanUp | unlink => exact absurd List.mem_cons_self hTimed.2
      | _ => exact hWas

/-- Only a blocking call puts a task on a pend list. -/
theorem TaskPath.pend {why : Cause} {t : TaskId} {a b : TaskAt} {ls : List Label}
    (path : TaskPath why t a ls b) {id : PendId} (hOn : b.view.pendOwner = some (.pend id)) :
    a.view.pendOwner = some (.pend id) ∨ Label.waiting t id ∈ ls := by
  induction path with
  | nil => exact Or.inl hOn
  | snoc prior step ih =>
      cases step with
      | block w hAlloc hBlocked =>
          have hSame := hBlocked.pend.symm.trans hOn
          simp only [Option.some.injEq, ListId.pend.injEq] at hSame
          right
          simp [hSame]
      | create hFree hAlloc hPend =>
          rw [hPend] at hOn
          cases hOn
      | sleep hPc hAlloc hDozes =>
          exact (ih (hDozes.pend.symm.trans hOn)).imp_right (List.mem_append_left _)
      | priority prio =>
          exact (ih (by simpa using hOn)).imp_right (List.mem_append_left _)
      | wake hWoken hAlloc => cases hOn
      | grant hWas hOther => cases hOn
      | cleanUp hAlloc => cases hOn
      | unlink => cases hOn
      | _ => exact (ih hOn).imp_right (List.mem_append_left _)

/-- A control block stays in use. -/
theorem TaskPath.alloc {why : Cause} {t : TaskId} {a b : TaskAt} {ls : List Label}
    (path : TaskPath why t a ls b) (h : a.view.alloc = true) : b.view.alloc = true := by
  induction path with
  | nil => exact h
  | snoc prior step ih =>
      cases step with
      | create hFree hAlloc hPend => exact hAlloc
      | sleep hPc hAlloc hDozes => exact hDozes.alloc.trans ih
      | block w hAlloc hBlocked => exact hBlocked.alloc.trans ih
      | priority prio => simpa using ih
      | _ => exact ih

end DoraOS
