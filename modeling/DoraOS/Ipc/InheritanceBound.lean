import DoraOS.Ipc.Inheritance

/-! The owner of a mutex against its waiters. `dos_mutex_pend` compares the
waiter with the priority saved at the grant and then assigns its priority to
the owner, so a later and less urgent waiter can take back what an earlier one
had given. -/
namespace DoraOS

/-- The step makes no call on a mutex other than `m`. -/
def SysEvent.onlyMutex (m : Nat) (event : SysEvent) : Prop := ∀ m', event.mutexOf = some m' → m' = m

instance (m : Nat) (event : SysEvent) : Decidable (event.onlyMutex m) :=
  match h : event.mutexOf with
  | none => isTrue fun m' hm => by rw [h] at hm; cases hm
  | some x => decidable_of_iff (x = m) ⟨fun hx m' hm => by rw [h] at hm; cases hm; exact hx,
      fun hOnly => hOnly x h⟩

/-- A task that is more urgent than the saved priority pends a mutex only when
no task that waits for it already is more urgent still. -/
def UrgentLast (s : System) : SysEvent → Prop
  | .call (.mutexPend m _) => ∀ c ∈ s.k.dosCurrentTask, (s.mutex m).mutexOwner ≠ some c →
      s.k.priority c < (s.mutex m).mutexPriority →
      ∀ w ∈ s.pending (.mutex m), s.k.priority c ≤ s.k.priority w
  | _ => True

instance (s : System) : (event : SysEvent) → Decidable (UrgentLast s event)
  | .call (.mutexPend m _) =>
      inferInstanceAs (Decidable (∀ c ∈ s.k.dosCurrentTask, (s.mutex m).mutexOwner ≠ some c → _))
  | .call (.semPend _ _) | .call (.semPost _) | .call (.mutexPost _) | .call (.queue _ _ _ _ _)
  | .call (.eventWait _ _ _ _) | .call (.eventSet _ _) | .call (.sleep _) | .call .lock
  | .call .unlock | .create _ _ _ | .start | .switch _ | .tick | .isrSemPost _ | .isrQueue _ _ _ _
  | .next => inferInstanceAs (Decidable True)

namespace System

/-- Pend keys are the priorities that tasks have while they do not own `m`, and
the owner is at least as urgent as every waiter. -/
structure Ranked (s : System) (m : Nat) : Prop where
  key : ∀ t, (s.mutex m).mutexOwner ≠ some t → s.k.priority t = s.k.lists.value .pend t
  saved : ∀ o, (s.mutex m).mutexOwner = some o →
    (s.mutex m).mutexPriority = s.k.lists.value .pend o
  boost : ∀ o, (s.mutex m).mutexOwner = some o → s.k.priority o ≤ (s.mutex m).mutexPriority
  alive : ∀ o, (s.mutex m).mutexOwner = some o → (s.k.view o).alloc = true
  empty : (s.mutex m).mutexOwner = none → s.pending (.mutex m) = []
  bound : ∀ o, (s.mutex m).mutexOwner = some o →
    ∀ w ∈ s.pending (.mutex m), s.k.priority o ≤ s.k.priority w

variable {s s' : System} {m : Nat} {event : SysEvent} {past : List Label}

/-- A step that changes neither ranks nor the owner, and adds no waiter. -/
theorem Ranked.keep (h : Ranked s m) (hOwner : (s'.mutex m).mutexOwner = (s.mutex m).mutexOwner)
    (hSaved : (s'.mutex m).mutexPriority = (s.mutex m).mutexPriority)
    (hRank : Kernel.SameRank s.k s'.k)
    (hAlive : ∀ t, (s.k.view t).alloc = true → (s'.k.view t).alloc = true)
    (hPend : ∀ w ∈ s'.pending (.mutex m), w ∈ s.pending (.mutex m)) : Ranked s' m where
  key t ht := by
    rw [hRank.priority, hRank.key]
    exact h.key t (hOwner ▸ ht)
  saved o ho := by
    rw [hSaved, hRank.key]
    exact h.saved o (hOwner ▸ ho)
  boost o ho := by
    rw [hSaved, hRank.priority]
    exact h.boost o (hOwner ▸ ho)
  alive o ho := hAlive o (h.alive o (hOwner ▸ ho))
  empty hNone := by
    rw [hOwner] at hNone
    refine List.eq_nil_iff_forall_not_mem.mpr ?_
    intro w hw
    have hOld := hPend w hw
    rw [h.empty hNone] at hOld
    cases hOld
  bound o ho w hw := by
    rw [hRank.priority, hRank.priority]
    exact h.bound o (hOwner ▸ ho) w (hPend w hw)

/-- A new task is nobody's owner and waits for nothing. -/
theorem Ranked.create (h : Ranked s m) (hCoherent : Coherent s) {t : TaskId} {prio : Nat}
    (hCreates : Kernel.Creates t prio s.k s'.k) (hMutex : s'.mutex = s.mutex)
    (hPend : ∀ w ∈ s'.pending (.mutex m), w ∈ s.pending (.mutex m)) : Ranked s' m := by
  have hOther {x : TaskId} (hx : x ≠ t) : s'.k.priority x = s.k.priority x :=
    congrArg TaskView.priority (hCreates.view x hx)
  have hAlloc {x : TaskId} (hx : (s.k.view x).alloc = true) : x ≠ t := by
    rintro rfl
    exact absurd (hCreates.free.symm.trans hx) (by simp)
  have hWaiter {w : TaskId} (hw : w ∈ s.pending (.mutex m)) : w ≠ t :=
    hAlloc ((hCoherent.ok w).alloc ((mem_pending hCoherent.sound).mp hw))
  refine ⟨?_, ?_, ?_, ?_, ?_, ?_⟩
  · intro x hx
    by_cases ht : x = t
    · subst ht
      exact hCreates.priority.trans hCreates.key.symm
    · rw [hOther ht, hCreates.key_other x ht]
      exact h.key x (hMutex ▸ hx)
  · intro o ho
    rw [hMutex] at ho ⊢
    rw [hCreates.key_other o (hAlloc (h.alive o ho))]
    exact h.saved o ho
  · intro o ho
    rw [hMutex] at ho ⊢
    rw [hOther (hAlloc (h.alive o ho))]
    exact h.boost o ho
  · intro o ho
    rw [hMutex] at ho
    have hAlive := h.alive o ho
    rw [hCreates.view o (hAlloc hAlive)]
    exact hAlive
  · intro hNone
    rw [hMutex] at hNone
    refine List.eq_nil_iff_forall_not_mem.mpr ?_
    intro w hw
    have hOld := hPend w hw
    rw [h.empty hNone] at hOld
    cases hOld
  · intro o ho w hw
    rw [hMutex] at ho
    have hOld := hPend w hw
    rw [hOther (hAlloc (h.alive o ho)), hOther (hWaiter hOld)]
    exact h.bound o ho w hOld

/-- After the mutex has changed hands everybody is at the priority of their
pend key. -/
theorem Ranked.of_keys (hKey : ∀ t, s'.k.priority t = s'.k.lists.value .pend t)
    (hEmpty : (s'.mutex m).mutexOwner = none → s'.pending (.mutex m) = [])
    (hNew : ∀ o, (s'.mutex m).mutexOwner = some o →
      (s'.mutex m).mutexPriority = s'.k.priority o ∧ (s'.k.view o).alloc = true ∧
        ∀ w ∈ s'.pending (.mutex m), s'.k.lists.value .pend o ≤ s'.k.lists.value .pend w) :
    Ranked s' m where
  key t _ := hKey t
  saved o ho := (hNew o ho).1.trans (hKey o)
  boost o ho := (hNew o ho).1.ge
  alive o ho := (hNew o ho).2.1
  empty := hEmpty
  bound o ho w hw := by
    rw [hKey, hKey]
    exact (hNew o ho).2.2 w hw

/-- A free mutex goes to the caller. -/
theorem Ranked.take (h : Ranked s m) (hFree : (s.mutex m).mutexOwner = none) {c : TaskId}
    (hAlive : (s.k.view c).alloc = true) :
    Ranked (s.setMutex m ⟨1, s.k.priority c, some c⟩) m := by
  have hNoWaiter : (s.setMutex m ⟨1, s.k.priority c, some c⟩).pending (.mutex m) = [] :=
    h.empty hFree
  refine Ranked.of_keys (fun t => h.key t (by simp [hFree])) (fun _ => hNoWaiter) ?_
  intro o ho
  rw [mutex_setMutex] at ho ⊢
  cases ho
  refine ⟨rfl, hAlive, ?_⟩
  intro w hw
  rw [hNoWaiter] at hw
  cases hw

/-- The caller waits for the owner, who may be boosted. -/
theorem Ranked.block (h : Ranked s m) {c o : TaskId} (hOwner : (s.mutex m).mutexOwner = some o)
    (hOther : o ≠ c) (hMutex : s'.mutex = s.mutex)
    (hPriority : ∀ x, s'.k.priority x = s.boosted m c x)
    (hKey : ∀ x, s'.k.lists.value .pend x = s.k.lists.value .pend x)
    (hAlive : ∀ t, (s.k.view t).alloc = true → (s'.k.view t).alloc = true)
    (hPend : ∀ w ∈ s'.pending (.mutex m), w ∈ s.pending (.mutex m) ∨ w = c)
    (hUrgent : s.k.priority c < (s.mutex m).mutexPriority →
      ∀ w ∈ s.pending (.mutex m), s.k.priority c ≤ s.k.priority w) : Ranked s' m := by
  have hElse {x : TaskId} (hx : x ≠ o) : s'.k.priority x = s.k.priority x := by
    rw [hPriority x, boosted, if_neg]
    intro hBoost
    exact hx (Option.some.inj (hOwner.symm.trans hBoost.1)).symm
  have hOwnerIs {x : TaskId} (hx : (s'.mutex m).mutexOwner = some x) : x = o := by
    rw [hMutex, hOwner] at hx
    exact (Option.some.inj hx).symm
  have hBoosted : s'.k.priority o =
      if s.k.priority c < (s.mutex m).mutexPriority then s.k.priority c else s.k.priority o := by
    rw [hPriority o]
    simp [boosted, hOwner]
  have hOld := h.boost o hOwner
  refine ⟨?_, ?_, ?_, ?_, ?_, ?_⟩
  · intro t ht
    rw [hMutex] at ht
    have hNot : t ≠ o := by
      rintro rfl
      exact ht hOwner
    rw [hElse hNot, hKey]
    exact h.key t ht
  · intro x hx
    rw [hOwnerIs hx, hMutex, hKey]
    exact h.saved o hOwner
  · intro x hx
    rw [hOwnerIs hx, hMutex, hBoosted]
    split
    · omega
    · exact hOld
  · intro x hx
    rw [hOwnerIs hx]
    exact hAlive o (h.alive o hOwner)
  · intro hNone
    rw [hMutex, hOwner] at hNone
    cases hNone
  · intro x hx w hw
    rw [hOwnerIs hx]
    by_cases hSelf : w = o
    · rw [hSelf]
    · rw [hElse hSelf, hBoosted]
      split
      · rename_i hLess
        rcases hPend w hw with hWas | rfl
        · exact hUrgent hLess w hWas
        · exact Nat.le_refl _
      · rename_i hMore
        rcases hPend w hw with hWas | rfl
        · exact h.bound o hOwner w hWas
        · omega

/-- Once the owner is back at its saved priority, every priority is a pend key. -/
theorem Ranked.keys (h : Ranked s m) {c : TaskId} (hOwner : (s.mutex m).mutexOwner = some c)
    (hPriority : ∀ x, s'.k.priority x = if x = c then (s.mutex m).mutexPriority else s.k.priority x)
    (hKey : ∀ x, s'.k.lists.value .pend x = s.k.lists.value .pend x) (t : TaskId) :
    s'.k.priority t = s'.k.lists.value .pend t := by
  rw [hPriority t, hKey t]
  split
  · rename_i ht
    rw [ht]
    exact h.saved c hOwner
  · rename_i ht
    refine h.key t ?_
    rw [hOwner]
    exact fun he => ht (Option.some.inj he).symm

/-- Every step that meets the conditions keeps the ranks. -/
theorem ranked_step (h : Consistent s) (hOk : MutexOk m past (s.mutex m))
    (hOnly : event.onlyMutex m) (hLast : UrgentLast s event) (hRanked : Ranked s m)
    {r : System × List Label} (hStep : s.exec event = some r) : Ranked r.1 m := by
  have hSpec := spec_exec h.toCoherent h.chosen hStep
  have hAlive (t : TaskId) : (s.k.view t).alloc = true → (r.1.k.view t).alloc = true :=
    (hSpec.task t).alloc
  have hPend {w : TaskId} (hw : w ∈ r.1.pending (.mutex m)) := pending_step h hStep hw
  cases effect_exec h.toCoherent hStep with
  | quiet hMutex hRank _ hWaiting =>
      refine hRanked.keep (by rw [hMutex]) (by rw [hMutex]) hRank hAlive ?_
      intro w hw
      exact (hPend hw).resolve_right (hWaiting w m)
  | create t prio tick _ hCreates hMutex hLabels =>
      refine hRanked.create h.toCoherent hCreates hMutex ?_
      intro w hw
      refine (hPend hw).resolve_right ?_
      simp [hLabels]
  | take m' timeout c hRun hEvent hCount hSystem _ =>
      obtain rfl : m' = m := hOnly m' (by rw [hEvent]; rfl)
      rw [hSystem]
      exact hRanked.take (hOk.unowned hCount) hRun.2.2.1.1
  | nest m' timeout c _ hEvent _ _ hSystem _ =>
      obtain rfl : m' = m := hOnly m' (by rw [hEvent]; rfl)
      rw [hSystem]
      refine hRanked.keep ?_ ?_ Kernel.SameRank.refl (fun _ ht => ht) (fun _ hw => hw)
      · simp [setMutex, Mutex.mutexCountInc]
      · simp [setMutex, Mutex.mutexCountInc]
  | block m' timeout c hRun hEvent hCount hOwner _ _ hMutex hPriority hKey hLabels =>
      obtain rfl : m' = m := hOnly m' (by rw [hEvent]; rfl)
      rw [hEvent] at hLast
      cases hAt : (s.mutex m').mutexOwner with
      | none => exact absurd (hOk.free hAt) hCount
      | some o =>
          have hOther : o ≠ c := by
            rintro rfl
            exact hOwner hAt
          refine hRanked.block hAt hOther hMutex hPriority hKey hAlive ?_ (hLast c hRun.2.1 hOwner)
          intro w hw
          refine (hPend hw).imp_right ?_
          intro hLabel
          simpa [hLabels] using hLabel
  | leave m' c _ hEvent _ _ hSystem _ =>
      obtain rfl : m' = m := hOnly m' (by rw [hEvent]; rfl)
      rw [hSystem]
      refine hRanked.keep ?_ ?_ Kernel.SameRank.refl (fun _ ht => ht) (fun _ hw => hw)
      · simp [setMutex]
      · simp [setMutex]
  | free m' c _ _ hEvent hOwner _ hEmpty hMutex hPriority hKey hLabels =>
      obtain rfl : m' = m := hOnly m' (by rw [hEvent]; rfl)
      have hNone : (r.1.mutex m').mutexOwner = none := by
        rw [hMutex]
        simp [setMutex]
      refine Ranked.of_keys (hRanked.keys hOwner hPriority hKey) ?_ ?_
      · intro _
        refine List.eq_nil_iff_forall_not_mem.mpr ?_
        intro w hw
        rcases hPend hw with hWas | hLabel
        · rw [hEmpty] at hWas
          cases hWas
        · simp [hLabels] at hLabel
      · intro o ho
        rw [hNone] at ho
        cases ho
  | hand m' c t rest _ _ hEvent hOwner _ hHead hOther hMutex hPriority hKey hLabels =>
      obtain rfl : m' = m := hOnly m' (by rw [hEvent]; rfl)
      have hHere : r.1.mutex m' = ⟨1, s.k.priority t, some t⟩ := by
        rw [hMutex]
        simp [setMutex]
      have hFirst : t ∈ s.pending (.mutex m') := by simp [hHead]
      refine Ranked.of_keys (hRanked.keys hOwner hPriority hKey) ?_ ?_
      · intro hNone
        rw [hHere] at hNone
        cases hNone
      · intro o ho
        rw [hHere] at ho ⊢
        cases ho
        refine ⟨?_, ?_, ?_⟩
        · rw [hPriority t, if_neg hOther]
        · exact hAlive t ((h.ok t).alloc ((mem_pending h.sound).mp hFirst))
        · -- the waiter that is handed the mutex is the first of the sorted list
          intro w hw
          rw [hKey, hKey]
          have hWas := (hPend hw).resolve_right (by simp [hLabels])
          have hSorted := h.sound.linked.sorted (.pend (.mutex m'))
          rw [show s.k.lists.items (.pend (.mutex m')) = t :: rest from hHead] at hSorted
          exact hSorted.head_le (hHead ▸ hWas)

/-- Control blocks start with equal priority and pend key. -/
theorem key_init {cfg : Config} {idle : TaskId} {k : Kernel}
    (hInit : Kernel.dosTaskInit cfg idle = some k) (t : TaskId) :
    k.priority t = k.lists.value .pend t := by
  simp only [Kernel.dosTaskInit, Kernel.dosTaskCreate, Option.map_eq_some_iff] at hInit
  obtain ⟨k₁, hCreate, hk⟩ := hInit
  split at hCreate
  · cases hCreate
  · let k₂ := (Kernel.boot cfg).dosInitTcb idle
      ((cfg.dosMaxPriorityNum + (2 ^ 32 - 1)) % 2 ^ 32 % 2 ^ 16) 20
    have hOnly := Kernel.onlyTask_insertPriorityList k₂ idle
    have hPriority : k.priority t = k₂.priority t := by
      rw [← hk, ← Option.some.inj hCreate]
      by_cases ht : t = idle
      · subst ht
        exact congrArg TaskView.priority (Kernel.view_insertPriorityList k₂ t)
      · exact hOnly.priority ht
    have hKey : k.lists.value .pend t = k₂.lists.value .pend t := by
      rw [← hk, ← Option.some.inj hCreate]
      exact hOnly.pendKey t
    rw [hPriority, hKey]
    by_cases ht : t = idle
    · simp [k₂, Kernel.priority, Kernel.dosInitTcb, ht]
    · have hZero : TaskLists.empty.value .pend t = 0 := rfl
      simp [k₂, Kernel.priority, Kernel.dosInitTcb, Kernel.boot, TaskLists.dosTaskItemInit, ht, hZero]

theorem ranked_init {cfg : Config} {idle : TaskId} (hInit : s.Initial cfg idle) (m : Nat) :
    Ranked s m := by
  have hFree : (s.mutex m).mutexOwner = none := by rw [hInit.mutex m]
  refine Ranked.of_keys (key_init hInit.kernel) ?_ ?_
  · exact fun _ => pending_init hInit _
  · intro o ho
    rw [hFree] at ho
    cases ho

end System

/-- In every run on one mutex in which its counter does not overflow and a
boosting task is as urgent as all tasks that wait already, the owner is at
least as urgent as every waiter. -/
theorem owner_as_urgent_as_waiters (cfg : Config) (idle : TaskId) (s₀ : System)
    (hInit : s₀.Initial cfg idle) (m : Nat) (events : List SysEvent) (tr : Trace)
    (run : Transition.RunsIf traceStep (fun tr event => NestingFits tr.sys event ∧
      event.onlyMutex m ∧ UrgentLast tr.sys event) ⟨s₀, []⟩ events tr)
    (o : TaskId) (hOwner : (tr.sys.mutex m).mutexOwner = some o) :
    ∀ w ∈ tr.sys.pending (.mutex m), tr.sys.k.priority o ≤ tr.sys.k.priority w := by
  have hInv : tr.sys.Consistent ∧ (∀ m, MutexOk m tr.past (tr.sys.mutex m)) ∧ tr.sys.Ranked m := by
    refine Transition.RunsIf.invariant run (fun tr => tr.sys.Consistent ∧
      (∀ m, MutexOk m tr.past (tr.sys.mutex m)) ∧ tr.sys.Ranked m) ?_ ?_
    · refine ⟨System.consistent_init hInit, ?_, System.ranked_init hInit m⟩
      intro m
      rw [hInit.mutex m]
      exact mutexOk_init m
    · intro tr event tr' h hOk hStep
      obtain ⟨r, hExec, rfl⟩ := traceStep_some hStep
      exact ⟨System.consistent_step h.1 hExec,
        System.mutexOk_step h.1.toCoherent hOk.1 h.2.1 hExec,
        System.ranked_step h.1 (h.2.1 m) hOk.2.1 hOk.2.2 h.2.2 hExec⟩
  exact hInv.2.2.bound o hOwner

/-- Two waiters that arrive in order of urgency boost the owner twice. -/
theorem owner_as_urgent_as_waiters_two : ∃ tr,
    Transition.RunsIf traceStep (fun tr event => NestingFits tr.sys event ∧
      event.onlyMutex 0 ∧ UrgentLast tr.sys event) ⟨System.small, []⟩
      [.create 1 9 5, .create 2 5 5, .create 3 2 5, .start, .switch 3, .call (.sleep 2), .switch 2,
        .call (.sleep 1), .switch 1, .call (.mutexPend 0 0), .tick, .switch 2,
        .call (.mutexPend 0 100), .switch 1, .tick, .switch 3, .call (.mutexPend 0 100)] tr ∧
    (tr.sys.mutex 0).mutexOwner = some 1 ∧ tr.sys.pending (.mutex 0) = [3, 2] ∧
    ∀ w ∈ tr.sys.pending (.mutex 0), tr.sys.k.priority 1 ≤ tr.sys.k.priority w := by
  have hRun : Transition.RunsIf traceStep (fun tr event => NestingFits tr.sys event ∧
      event.onlyMutex 0 ∧ UrgentLast tr.sys event) ⟨System.small, []⟩
      [.create 1 9 5, .create 2 5 5, .create 3 2 5, .start, .switch 3, .call (.sleep 2), .switch 2,
        .call (.sleep 1), .switch 1, .call (.mutexPend 0 0), .tick, .switch 2,
        .call (.mutexPend 0 100), .switch 1, .tick, .switch 3, .call (.mutexPend 0 100)] _ :=
    Transition.runsIf_of_isSome (by decide +kernel)
  exact ⟨_, hRun, by decide +kernel, by decide +kernel,
    owner_as_urgent_as_waiters shippedConfig 0 System.small System.initial_small 0 _ _ hRun 1
      (by decide +kernel)⟩

/-- A second and less urgent waiter lowers the owner again, below the first. -/
theorem later_waiter_lowers_owner : ∃ tr,
    Transition.Runs traceStep ⟨System.small, []⟩
      [.create 1 9 5, .create 2 2 5, .create 3 5 5, .start, .switch 2, .call (.sleep 1), .switch 3,
        .call (.sleep 2), .switch 1, .call (.mutexPend 0 0), .tick, .switch 2,
        .call (.mutexPend 0 100), .switch 1, .call (.sleep 5), .tick, .switch 3,
        .call (.mutexPend 0 100)] tr ∧
    (tr.sys.mutex 0).mutexOwner = some 1 ∧ tr.sys.pending (.mutex 0) = [2, 3] ∧
    tr.sys.k.priority 2 < tr.sys.k.priority 1 := by
  have hRun : Transition.Runs traceStep ⟨System.small, []⟩
      [.create 1 9 5, .create 2 2 5, .create 3 5 5, .start, .switch 2, .call (.sleep 1), .switch 3,
        .call (.sleep 2), .switch 1, .call (.mutexPend 0 0), .tick, .switch 2,
        .call (.mutexPend 0 100), .switch 1, .call (.sleep 5), .tick, .switch 3,
        .call (.mutexPend 0 100)] _ :=
    Transition.runs_of_isSome (by decide +kernel)
  exact ⟨_, hRun, by decide +kernel, by decide +kernel, by decide +kernel⟩

end DoraOS
