import DoraOS.Kernel.Operations

/-! What becomes of a deleted task. The status word of a deleted control block
protects it from everything but the calls that its own task still makes, since
`_dos_insert_task_sleep_list` moves the status item of the current task
whatever list it is on. -/
namespace DoraOS

/-- A call that puts the current task to sleep or on a pend list. -/
def Operation.blocks : Operation → Bool
  | .sleep sleepTick => sleepTick ≠ 0
  | .wait _ _ => true
  | _ => false

/-- A task that has deleted itself makes no call that blocks. -/
def Operation.Retires (s : OpState) (op : Operation) : Prop :=
  op.Orderly s ∧ (op.blocks = true → ∀ c ∈ s.k.dosCurrentTask, s.k.is c .unused = false)

instance (s : OpState) (op : Operation) : Decidable (op.Retires s) :=
  inferInstanceAs (Decidable (_ ∧ _))

/-- A new task in the memory of the control block `t`. -/
def Operation.creates (t : TaskId) : Operation → Bool
  | .create t' _ _ _ => t' = t
  | _ => false

/-- A deleted control block, freed or waiting to be. -/
def TaskView.Gone (v : TaskView) : Prop := v.alloc = false ∨ v.statusOwner = some .recycle

namespace OpState

open Kernel Transition

variable {s s' : OpState} {op : Operation} {t : TaskId}

/-- Both items of a deleted control block are off the ready, sleep and pend
lists. -/
theorem Tidy.gone_owner (h : s.Tidy) (hGone : (s.k.view t).Gone) :
    ((s.k.view t).statusOwner = none ∨ (s.k.view t).statusOwner = some .recycle) ∧
      (s.k.view t).pendOwner = none := by
  rcases hGone with hFree | hRecycle
  · exact ⟨Or.inl ((h.task t).free hFree).1, ((h.task t).free hFree).2⟩
  · exact ⟨Or.inr hRecycle, ((h.task t).recycle hRecycle).2⟩

/-- A successful deletion leaves a deleted control block. -/
theorem gone_delete (hDelete : (s.k.dosTaskDelete t).2 = true) :
    ((s.k.dosTaskDelete t).1.view t).Gone := by
  unfold dosTaskDelete at hDelete ⊢
  split
  · rename_i hUnused
    rw [if_pos hUnused] at hDelete
    cases hDelete
  · rename_i hUsed
    rw [if_neg hUsed] at hDelete
    split
    · rename_i hLock
      rw [if_pos hLock] at hDelete
      cases hDelete
    · split
      · left
        rw [view_freeTcb]
      · right
        rw [view_itemInsert_status _ _ rfl]

/-- The status word of a control block that waits to be freed. -/
theorem Tidy.gone_status (h : s.Tidy) (hGone : (s.k.view t).Gone) (hAlloc : s.k.alloc t = true) :
    (s.k.view t).status = Flag.unused.mask := by
  rcases hGone with hFree | hRecycle
  · cases hAlloc.symm.trans hFree
  · exact ((h.task t).recycle hRecycle).1

/-- Only a creation or a blocking call of the task itself brings it back. -/
theorem Tidy.gone_change (h : s.Tidy) (hGone : (s.k.view t).Gone) (hOk : op.Retires s)
    (hNew : op.creates t = false) {v : TaskView} {b : Bool} (hChange : Change s t op v b) :
    v.Gone := by
  have hUnused (hAlloc : s.k.alloc t = true) (f : Flag) :
      s.k.is t f = decide (f = .unused) := by
    show Flag.test (s.k.view t).status f = _
    rw [h.gone_status hGone hAlloc, Flag.test_mask]
    exact decide_eq_decide.mpr eq_comm
  obtain ⟨hStatus, hPend⟩ := h.gone_owner hGone
  -- a blocking call needs a current task without the deletion mark
  have hMute (hRun : s.Executes t) (hBlocks : op.blocks = true) : False := by
    have hClear := hOk.2 hBlocks t hRun.2.1
    rw [hUnused hRun.2.2.1] at hClear
    cases hClear
  cases hChange with
  | same => exact hGone
  | create => simp [Operation.creates] at hNew
  | sleep hRun hTicks => exact absurd (by simpa [Operation.blocks] using hTicks) (hMute hRun)
  | wait hRun => exact absurd rfl (hMute hRun)
  | waitForever hRun => exact absurd rfl (hMute hRun)
  | cleanUp hLate =>
      have hTimeout := hLate.2.2.2
      rw [hUnused hLate.2.1] at hTimeout
      cases hTimeout
  | resetFlags hLate =>
      have hTimeout := hLate.2.2.2
      rw [hUnused hLate.2.1] at hTimeout
      cases hTimeout
  | unlink => exact hGone
  | wake hOwner => cases hPend.symm.trans hOwner
  | notify hOwner => cases hPend.symm.trans hOwner
  | expire hSleep =>
      rcases hStatus with hNone | hRecycle
      · rcases hSleep with hSleep | hSleep <;> cases hNone.symm.trans hSleep
      · rcases hSleep with hSleep | hSleep <;> cases hRecycle.symm.trans hSleep
  | setPriority hAlloc =>
      have hReady : Flag.test (s.k.view t).status .ready = false := hUnused hAlloc .ready
      unfold TaskView.withPriority
      rw [if_neg (by simp [hReady])]
      exact hGone
  | deleteSelf => exact Or.inr rfl
  | deleteOther => exact Or.inl rfl
  | recycle => exact Or.inl rfl

/-- A deleted control block is in no ready list and is not chosen. -/
theorem Tidy.gone_idle (h : s.Tidy) (hGone : (s.k.view t).Gone) :
    (∀ p, t ∉ s.k.lists.items (.priority p)) ∧ s.k.dosChooseTask.dosCurrentTask ≠ some t := by
  have hOut : ∀ p, t ∉ s.k.lists.items (.priority p) := by
    intro p hMem
    have hOwner : (s.k.view t).statusOwner = some (.priority p) :=
      (h.sound.linked.mem_iff (.priority p) t).mp hMem
    rcases (h.gone_owner hGone).1 with hNone | hRecycle
    · cases hNone.symm.trans hOwner
    · cases hRecycle.symm.trans hOwner
  exact ⟨hOut, fun hNext => hOut _ (TaskLists.next_result_mem hNext)⟩

/-- A deleted task is in no ready list and is never chosen again, in every run
in which no task that has deleted itself blocks. -/
theorem deleted_task_never_runs (cfg : Config) (idle : TaskId) (k₀ : Kernel)
    (hInit : dosTaskInit cfg idle = some k₀) (before after : List Operation)
    (s s₁ s₂ : OpState) (t : TaskId)
    (hBefore : RunsIf operate (fun s op => op.Retires s) (initial k₀ idle) before s)
    (hOrderly : s.unlinking t = false) (hOk : (s.k.dosTaskDelete t).2 = true)
    (hDelete : operate s (.delete t) = some s₁)
    (hAfter : RunsIf operate (fun s op => op.Retires s ∧ op.creates t = false) s₁ after s₂) :
    (∀ p, t ∉ s₂.k.lists.items (.priority p)) ∧ s₂.k.dosChooseTask.dosCurrentTask ≠ some t := by
  have hTidy : s.Tidy := hBefore.invariant Tidy (tidy_initial hInit)
    fun _ _ _ h hRetires hStep => h.step hRetires.1 hStep
  have hFirst : s₁.Tidy := hTidy.step (show (Operation.delete t).Orderly s from hOrderly) hDelete
  have hGone : (s₁.k.view t).Gone := by
    obtain ⟨_, rfl⟩ := guard_some hDelete
    exact gone_delete hOk
  have hEnd : s₂.Tidy ∧ (s₂.k.view t).Gone := by
    refine hAfter.invariant (fun s => s.Tidy ∧ (s.k.view t).Gone) ⟨hFirst, hGone⟩ ?_
    rintro s op s' ⟨h, hGone⟩ ⟨hRetires, hNew⟩ hStep
    exact ⟨h.step hRetires.1 hStep,
      h.gone_change hGone hRetires hNew ((h.changes_operate hRetires.1 hStep).2 t)⟩
  exact hEnd.1.gone_idle hEnd.2

/-- A task that deletes itself and is switched out is freed by the idle task. -/
theorem deleted_task_never_runs_freed :
    ∃ k₀ s s₁ s₂, dosTaskInit shippedConfig 0 = some k₀ ∧
      RunsIf operate (fun s op => op.Retires s) (initial k₀ 0) [.create 1 {} 5 10, .start] s ∧
      (s.k.dosTaskDelete 1).2 = true ∧ operate s (.delete 1) = some s₁ ∧
      RunsIf operate (fun s op => op.Retires s ∧ op.creates 1 = false) s₁
        [.schedule, .choose, .recycle, .tick none] s₂ ∧
      s₂.k.alloc 1 = false ∧
      (∀ p, 1 ∉ s₂.k.lists.items (.priority p)) ∧ s₂.k.dosChooseTask.dosCurrentTask ≠ some 1 := by
  let k₀ := (dosTaskInit shippedConfig 0).get (by decide)
  let s := (execIf operate (fun s op => op.Retires s) (initial k₀ 0)
    [.create 1 {} 5 10, .start]).get (by decide +kernel)
  let s₁ := (operate s (.delete 1)).get (by decide +kernel)
  have hInit : dosTaskInit shippedConfig 0 = some k₀ := (Option.some_get _).symm
  have hBefore : RunsIf operate (fun s op => op.Retires s) (initial k₀ 0)
      [.create 1 {} 5 10, .start] s := runsIf_of_isSome _
  have hOk : (s.k.dosTaskDelete 1).2 = true := by decide +kernel
  have hDelete : operate s (.delete 1) = some s₁ := (Option.some_get _).symm
  have hAfter : RunsIf operate (fun s op => op.Retires s ∧ op.creates 1 = false) s₁
      [.schedule, .choose, .recycle, .tick none] _ := runsIf_of_isSome (by decide +kernel)
  have hNever := deleted_task_never_runs shippedConfig 0 k₀ hInit _ _ s s₁ _ 1 hBefore
    (by decide +kernel) hOk hDelete hAfter
  exact ⟨k₀, s, s₁, _, hInit, hBefore, hOk, hDelete, hAfter, by decide +kernel, hNever⟩

/-- A task that deletes itself and then sleeps leaves the recycle list; when
its time is over it is ready and chosen again. -/
theorem deleted_task_sleeps_and_runs :
    ∃ k₀ s s₁ s₂, dosTaskInit shippedConfig 0 = some k₀ ∧
      Runs operate (initial k₀ 0) [.create 1 {} 5 10, .start] s ∧
      (s.k.dosTaskDelete 1).2 = true ∧ operate s (.delete 1) = some s₁ ∧
      Runs operate s₁ [.sleep 3, .choose, .tick none, .tick none, .tick none] s₂ ∧
      1 ∈ s₂.k.lists.items (.priority 5) ∧ s₂.k.dosChooseTask.dosCurrentTask = some 1 := by
  let k₀ := (dosTaskInit shippedConfig 0).get (by decide)
  let s := (exec operate (initial k₀ 0) [.create 1 {} 5 10, .start]).get (by decide +kernel)
  let s₁ := (operate s (.delete 1)).get (by decide +kernel)
  have hAfter : Runs operate s₁ [.sleep 3, .choose, .tick none, .tick none, .tick none] _ :=
    runs_of_isSome (by decide +kernel)
  exact ⟨k₀, s, s₁, _, (Option.some_get _).symm, runs_of_isSome _, by decide +kernel,
    (Option.some_get _).symm, hAfter, by decide +kernel, by decide +kernel⟩

/-- A task that is deleted between the two steps of its queue clean-up stays on
the pend list, and a post to the queue makes the freed block ready. -/
theorem deleted_in_clean_up_is_woken :
    ∃ k₀ s s₁ s₂, dosTaskInit shippedConfig 0 = some k₀ ∧
      Runs operate (initial k₀ 0) [.create 1 {} 5 10, .create 2 {} 3 10, .start, .sleep 2, .choose,
        .wait (.queue 0 .read) 1, .schedule, .choose, .tick none, .choose, .resetFlags,
        .tick none, .choose] s ∧
      (s.k.dosTaskDelete 1).2 = true ∧ operate s (.delete 1) = some s₁ ∧ s₁.k.alloc 1 = false ∧
      Runs operate s₁ [.wake (.queue 0 .read) 1] s₂ ∧ 1 ∈ s₂.k.lists.items (.priority 5) := by
  let k₀ := (dosTaskInit shippedConfig 0).get (by decide)
  let s := (exec operate (initial k₀ 0) [.create 1 {} 5 10, .create 2 {} 3 10, .start, .sleep 2,
    .choose, .wait (.queue 0 .read) 1, .schedule, .choose, .tick none, .choose, .resetFlags,
    .tick none, .choose]).get (by decide +kernel)
  let s₁ := (operate s (.delete 1)).get (by decide +kernel)
  have hAfter : Runs operate s₁ [.wake (.queue 0 .read) 1] _ := runs_of_isSome (by decide +kernel)
  exact ⟨k₀, s, s₁, _, (Option.some_get _).symm, runs_of_isSome _, by decide +kernel,
    (Option.some_get _).symm, by decide +kernel, hAfter, by decide +kernel⟩

end OpState

end DoraOS
