import DoraOS.Ipc.MutexEffect
import DoraOS.Library.WaitGraph

/-! Who owns a mutex and who waits for one. A task waits only for a mutex that
another task owns, and tasks that take the mutexes in a fixed order do not wait
for each other in a circle. -/
namespace DoraOS

/-- The mutex that a step asks for. -/
def SysEvent.takes : SysEvent → Option Nat
  | .call (.mutexPend m _) => some m
  | _ => none

/-- The tasks take the mutexes below `n` by ascending rank. A mutex that the task
already owns may be taken again at any time. -/
def TakesInOrder (n : Nat) (rank : Nat → Nat) (s : System) (event : SysEvent) : Prop :=
  ∀ m ∈ event.takes, m < n ∧ ((s.mutex m).mutexOwner = s.k.dosCurrentTask ∨
    ∀ m' < n, (s.mutex m').mutexOwner = s.k.dosCurrentTask → rank m' < rank m)

instance (n : Nat) (rank : Nat → Nat) (s : System) (event : SysEvent) :
    Decidable (TakesInOrder n rank s event) :=
  inferInstanceAs (Decidable (∀ m ∈ event.takes, _))

namespace System

open Kernel

variable {s : System} {c t : TaskId} {m : Nat} {event : SysEvent}
  {r : System × List Label} {n : Nat} {rank : Nat → Nat}

section Owner

def WaitsFor (s : System) (t : TaskId) (m : Nat) : Prop := t ∈ s.pending (.mutex m)

instance (s : System) (t : TaskId) (m : Nat) : Decidable (s.WaitsFor t m) :=
  inferInstanceAs (Decidable (t ∈ s.pending (.mutex m)))

/-- A task outside the kernel's calls waits for nothing. -/
theorem not_waitsFor_user (h : Coherent s) (hUser : s.pc c = .user) (m : Nat) : ¬s.WaitsFor c m := by
  intro hWaits
  have hOn := (mem_pending h.sound).mp hWaits
  have hOff := (h.ok c).unpended (by simp [task, hUser, Pc.waitsOn])
  exact absurd (hOff.symm.trans hOn) (by simp)

/-- The task that is handed a mutex waits no longer. -/
theorem not_waitsFor_handed (h : Coherent s) {rest : List TaskId}
    (hOwner : (s.mutex m).mutexOwner = some c) (hCount : (s.mutex m).mutexCount = 1)
    (hHead : s.pending (.mutex m) = t :: rest) (m' : Nat) :
    ¬(s.dosMutexPost c m).1.WaitsFor t m' := by
  have hSpec := spec_restorePriority (s.cause .next) h.sound c (s.mutex m).mutexPriority
  have hPend : (s.setKernel (s.k.restorePriority c (s.mutex m).mutexPriority)).pending (.mutex m) =
      t :: rest := by rw [pending_restore h.sound, hHead]
  obtain ⟨hTouch, hView⟩ := touches_wakeFirst hSpec.sound (.pend (.mutex m)) t
  have hPost : (s.dosMutexPost c m).1.k =
      (s.k.restorePriority c (s.mutex m).mutexPriority).wakeFirst (.pend (.mutex m)) t := by
    rw [dosMutexPost, if_neg (by simp [hOwner, hCount]), if_neg (by simp [hCount])]
    simp only [handOff, hPend]
    rfl
  have hOff : ((s.dosMutexPost c m).1.k.view t).pendOwner = none := by
    rw [hPost]
    exact congrArg TaskView.pendOwner hView
  intro hWaits
  rw [WaitsFor, mem_pending (by rw [hPost]; exact hTouch.sound), hOff] at hWaits
  cases hWaits

/-- The owner of the mutex posts it. -/
def Releases (s : System) (event : SysEvent) (m : Nat) : Prop :=
  event = .call (.mutexPost m) ∧ s.k.dosCurrentTask ≠ none ∧
    (s.mutex m).mutexOwner = s.k.dosCurrentTask

/-- What a step does to who owns a mutex and who waits for one. -/
inductive OwnerEffect (s : System) (event : SysEvent) (s' : System) : Prop where
  | same (hOwner : ∀ m, (s'.mutex m).mutexOwner = (s.mutex m).mutexOwner)
      (hWaits : ∀ t m, s'.WaitsFor t m → s.WaitsFor t m)
  | block (m timeout : Nat) (c : TaskId) (hEvent : event = .call (.mutexPend m timeout))
      (hRun : s.Running c) (hCount : (s.mutex m).mutexCount ≠ 0)
      (hOther : (s.mutex m).mutexOwner ≠ some c)
      (hOwner : ∀ m, (s'.mutex m).mutexOwner = (s.mutex m).mutexOwner)
      (hWaits : ∀ t m', s'.WaitsFor t m' → s.WaitsFor t m' ∨ t = c ∧ m' = m)
  | give (m : Nat) (o : TaskId)
      (hBefore : (∃ timeout, event = .call (.mutexPend m timeout) ∧ (s.mutex m).mutexCount = 0) ∨
        s.Releases event m)
      (hOwner : ∀ m', (s'.mutex m').mutexOwner = if m' = m then some o else (s.mutex m').mutexOwner)
      (hWaits : ∀ t m, s'.WaitsFor t m → s.WaitsFor t m) (hGoes : ∀ m, ¬s'.WaitsFor o m)
  | free (m : Nat)
      (hOwner : ∀ m', (s'.mutex m').mutexOwner = if m' = m then none else (s.mutex m').mutexOwner)
      (hWaits : ∀ t m, s'.WaitsFor t m → s.WaitsFor t m) (hNobody : ∀ t, ¬s'.WaitsFor t m)

theorem owner_setMutex {s' : System} {x : Mutex} (hMutex : s'.mutex = (s.setMutex m x).mutex)
    (m' : Nat) :
    (s'.mutex m').mutexOwner = if m' = m then x.mutexOwner else (s.mutex m').mutexOwner := by
  rw [hMutex]
  by_cases hm : m' = m
  · rw [if_pos hm, hm, mutex_setMutex]
  · rw [if_neg hm, mutex_setMutex_ne hm]

theorem owner_kept {s' : System} {x : Mutex} (hMutex : s'.mutex = (s.setMutex m x).mutex)
    (hx : x.mutexOwner = (s.mutex m).mutexOwner) (m' : Nat) :
    (s'.mutex m').mutexOwner = (s.mutex m').mutexOwner := by
  rw [owner_setMutex hMutex, hx]
  split
  · rename_i hm
    rw [hm]
  · rfl

theorem ownerEffect_exec (h : Consistent s) (hStep : s.exec event = some r) :
    OwnerEffect s event r.1 := by
  have hWaits (t : TaskId) (m : Nat) (hQuiet : .waiting t (.mutex m) ∉ r.2)
      (hw : r.1.WaitsFor t m) : s.WaitsFor t m := (pending_step h hStep hw).resolve_right hQuiet
  have hReleases {m : Nat} {c : TaskId} (hRun : s.Running c) (hEvent : event = .call (.mutexPost m))
      (hOwner : (s.mutex m).mutexOwner = some c) : s.Releases event m :=
    ⟨hEvent, by simp [hRun.2.1], hOwner.trans hRun.2.1.symm⟩
  cases effect_exec h.toCoherent hStep with
  | quiet hMutex _ _ hWaiting =>
      exact .same (fun m => by rw [hMutex]) fun t m => hWaits t m (hWaiting t m)
  | create t prio tick _ _ hMutex hLabels =>
      exact .same (fun m => by rw [hMutex]) fun t m => hWaits t m (by simp [hLabels])
  | take m timeout c hRun hEvent hCount hSystem hLabels =>
      have hLess (t : TaskId) (m : Nat) := hWaits t m (by simp [hLabels])
      refine .give m c (Or.inl ⟨timeout, hEvent, hCount⟩) (owner_setMutex (congrArg mutex hSystem))
        hLess ?_
      intro m' hw
      rw [hEvent] at hStep
      obtain ⟨c', hRun', hUser, -⟩ := call_some hStep
      obtain rfl : c = c' := Option.some.inj (hRun.2.1.symm.trans hRun'.2.1)
      exact not_waitsFor_user h.toCoherent hUser m' (hLess c m' hw)
  | nest m timeout c _ _ _ _ hSystem hLabels =>
      exact .same (owner_kept (congrArg mutex hSystem) rfl) fun t m => hWaits t m (by simp [hLabels])
  | block m timeout c hRun hEvent hCount hOther _ _ hMutex _ _ hLabels =>
      refine .block m timeout c hEvent hRun hCount hOther (fun m => by rw [hMutex]) ?_
      intro t m' hw
      refine (pending_step h hStep hw).imp_right ?_
      intro hLabel
      simpa [hLabels] using hLabel
  | leave m c _ _ _ _ hSystem hLabels =>
      exact .same (owner_kept (congrArg mutex hSystem) rfl) fun t m => hWaits t m (by simp [hLabels])
  | free m c hRun _ hEvent hOwner _ hEmpty hMutex _ _ hLabels =>
      have hLess (t : TaskId) (m : Nat) := hWaits t m (by simp [hLabels])
      refine .free m (owner_setMutex hMutex) hLess ?_
      intro t hw
      have hBefore := hLess t m hw
      rw [WaitsFor, hEmpty] at hBefore
      cases hBefore
  | hand m c t rest hRun _ hEvent hOwner hCount hHead _ hMutex _ _ hLabels =>
      refine .give m t (Or.inr (hReleases hRun hEvent hOwner)) (owner_setMutex hMutex)
        (fun t m => hWaits t m (by simp [hLabels])) ?_
      rw [hEvent] at hStep
      obtain ⟨c', hRun', -, rfl⟩ := call_some hStep
      obtain rfl : c = c' := Option.some.inj (hRun.2.1.symm.trans hRun'.2.1)
      exact not_waitsFor_handed h.toCoherent hOwner hCount hHead

/-- A mutex without an owner is free. -/
def Unowned (s : System) : Prop := ∀ m, (s.mutex m).mutexOwner = none → (s.mutex m).mutexCount = 0

theorem unowned_setMutex (hFree : s.Unowned) {s' : System} {x : Mutex}
    (hMutex : s'.mutex = (s.setMutex m x).mutex) (hx : x.mutexOwner = none → x.mutexCount = 0) :
    s'.Unowned := by
  intro m'
  rw [hMutex]
  by_cases hm : m' = m
  · rw [hm, mutex_setMutex]
    exact hx
  · rw [mutex_setMutex_ne hm]
    exact hFree m'

/-- Only the count of an owned mutex changes without its owner. -/
theorem unowned_step (h : Coherent s) (hFree : s.Unowned) (hStep : s.exec event = some r) :
    r.1.Unowned := by
  have hOwned {m : Nat} {c : TaskId} {p : Prop} (hOwner : (s.mutex m).mutexOwner = some c)
      (hNone : (s.mutex m).mutexOwner = none) : p := absurd (hOwner.symm.trans hNone) (by simp)
  cases effect_exec h hStep with
  | quiet hMutex => exact fun m => hMutex ▸ hFree m
  | create _ _ _ _ _ hMutex => exact fun m => hMutex ▸ hFree m
  | take m timeout c hRun hEvent hCount hSystem =>
      exact unowned_setMutex hFree (congrArg mutex hSystem) (by simp)
  | nest m timeout c hRun hEvent hCount hOwner hSystem =>
      exact unowned_setMutex hFree (congrArg mutex hSystem) (hOwned hOwner)
  | block _ _ _ _ _ _ _ _ _ hMutex => exact fun m => hMutex ▸ hFree m
  | leave m c hRun hEvent hOwner hCount hSystem =>
      exact unowned_setMutex hFree (congrArg mutex hSystem) (hOwned hOwner)
  | free _ _ _ _ _ _ _ _ hMutex => exact unowned_setMutex hFree hMutex fun _ => rfl
  | hand _ _ _ _ _ _ _ _ _ _ _ hMutex => exact unowned_setMutex hFree hMutex (by simp)

/-- Every task that waits for a mutex waits for one that another task owns. -/
def Blamed (s : System) : Prop :=
  ∀ t m, s.WaitsFor t m → ∃ o, (s.mutex m).mutexOwner = some o ∧ o ≠ t

theorem blamed_step (h : Consistent s) (hFree : s.Unowned) (hBlamed : s.Blamed)
    (hStep : s.exec event = some r) : r.1.Blamed := by
  intro t m hNow
  cases ownerEffect_exec h hStep with
  | same hOwner hWaits =>
      rw [hOwner m]
      exact hBlamed t m (hWaits t m hNow)
  | block m' timeout c _ _ hCount hOther hOwner hWaits =>
      rw [hOwner m]
      rcases hWaits t m hNow with hBefore | ⟨rfl, rfl⟩
      · exact hBlamed t m hBefore
      · cases hAt : (s.mutex m).mutexOwner with
        | none => exact absurd (hFree m hAt) hCount
        | some o =>
            refine ⟨o, rfl, ?_⟩
            rintro rfl
            exact hOther hAt
  | give m' o _ hOwner hWaits hGoes =>
      rw [hOwner m]
      split
      · refine ⟨o, rfl, ?_⟩
        rintro rfl
        exact hGoes m hNow
      · exact hBlamed t m (hWaits t m hNow)
  | free m' hOwner hWaits hNobody =>
      have hm : m ≠ m' := by
        rintro rfl
        exact hNobody t hNow
      rw [hOwner m, if_neg hm]
      exact hBlamed t m (hWaits t m hNow)

theorem not_waitsFor_init {cfg : Config} {idle : TaskId} (hInit : s.Initial cfg idle) (t : TaskId)
    (m : Nat) : ¬s.WaitsFor t m := by
  rw [WaitsFor, pending_init hInit]
  exact List.not_mem_nil

end Owner

section Order

def Awaits (s : System) : TaskId → TaskId → Prop :=
  WaitGraph.Awaits (fun m => (s.mutex m).mutexOwner) s.WaitsFor

/-- The mutexes that are owned are below `n`, and a task waits above all that it
owns. -/
structure Ascending (n : Nat) (rank : Nat → Nat) (s : System) : Prop where
  below : ∀ m, (s.mutex m).mutexOwner ≠ none → m < n
  above : ∀ t m m', s.WaitsFor t m → (s.mutex m').mutexOwner = some t → rank m' < rank m

theorem ascending_step (h : Consistent s) (hRanks : s.Ascending n rank)
    (hOrder : TakesInOrder n rank s event) (hStep : s.exec event = some r) :
    r.1.Ascending n rank := by
  cases ownerEffect_exec h hStep with
  | same hOwner hWaits =>
      refine ⟨?_, ?_⟩
      · intro m hm
        exact hRanks.below m (by rwa [← hOwner m])
      · intro t m m' hNow ho
        exact hRanks.above t m m' (hWaits t m hNow) (by rwa [← hOwner m'])
  | block m timeout c hEvent hRun _ hOther hOwner hWaits =>
      have hAsks := (hOrder m (by rw [hEvent]; rfl)).2
      rw [hRun.2.1] at hAsks
      have hLess := hAsks.resolve_left hOther
      refine ⟨?_, ?_⟩
      · intro m' hm
        exact hRanks.below m' (by rwa [← hOwner m'])
      · intro t m₁ m' hNow ho
        rw [hOwner m'] at ho
        rcases hWaits t m₁ hNow with hBefore | ⟨rfl, rfl⟩
        · exact hRanks.above t m₁ m' hBefore ho
        · exact hLess m' (hRanks.below m' (by simp [ho])) ho
  | give m o hBefore hOwner hWaits hGoes =>
      refine ⟨?_, ?_⟩
      · intro m' hm
        rw [hOwner m'] at hm
        split at hm
        · rename_i hEq
          subst hEq
          rcases hBefore with ⟨timeout, hEvent, -⟩ | ⟨-, hCurrent, hOwned⟩
          · exact (hOrder m' (by rw [hEvent]; rfl)).1
          · exact hRanks.below m' (by rwa [hOwned])
        · exact hRanks.below m' hm
      · intro t m₁ m' hNow ho
        rw [hOwner m'] at ho
        split at ho
        · obtain rfl := Option.some.inj ho
          exact absurd hNow (hGoes m₁)
        · exact hRanks.above t m₁ m' (hWaits t m₁ hNow) ho
  | free m hOwner hWaits _ =>
      refine ⟨?_, ?_⟩
      · intro m' hm
        rw [hOwner m'] at hm
        split at hm
        · exact absurd rfl hm
        · exact hRanks.below m' hm
      · intro t m₁ m' hNow ho
        rw [hOwner m'] at ho
        split at ho
        · cases ho
        · exact hRanks.above t m₁ m' (hWaits t m₁ hNow) ho

theorem ascending_init {cfg : Config} {idle : TaskId} (hInit : s.Initial cfg idle) :
    s.Ascending n rank where
  below m hm := by
    rw [hInit.mutex m] at hm
    exact absurd rfl hm
  above t m _ hWaits _ := absurd hWaits (not_waitsFor_init hInit t m)

end Order

end System

/-- What holds of the waiters along every run. -/
theorem blamed_run {cfg : Config} {idle : TaskId} {s₀ : System} (hInit : s₀.Initial cfg idle)
    {ok : Trace → SysEvent → Prop} {events : List SysEvent} {tr : Trace}
    (run : Transition.RunsIf traceStep ok ⟨s₀, []⟩ events tr) : tr.sys.Blamed := by
  have hInv : (tr.sys.Consistent ∧ tr.sys.Unowned) ∧ tr.sys.Blamed := by
    refine run.invariant (fun tr => (tr.sys.Consistent ∧ tr.sys.Unowned) ∧ tr.sys.Blamed) ?_ ?_
    · refine ⟨⟨System.consistent_init hInit, ?_⟩, ?_⟩
      · intro m _
        rw [hInit.mutex m]
      · intro t m hWaits
        exact absurd hWaits (System.not_waitsFor_init hInit t m)
    · rintro tr event tr' ⟨h, hBlamed⟩ _ hStep
      obtain ⟨r, hExec, rfl⟩ := traceStep_some hStep
      exact ⟨⟨System.consistent_step h.1 hExec, System.unowned_step h.1.toCoherent h.2 hExec⟩,
        System.blamed_step h.1 h.2 hBlamed hExec⟩
  exact hInv.2

/-- No wake-up of a mutex is lost: in every run, a task that is in the pend list of a
mutex waits for one that another task owns. -/
theorem mutex_waiters_wait_for_owner (cfg : Config) (idle : TaskId) (s₀ : System)
    (hInit : s₀.Initial cfg idle) (events : List SysEvent) (tr : Trace)
    (run : Transition.Runs traceStep ⟨s₀, []⟩ events tr)
    (t : TaskId) (m : Nat) (hWaits : tr.sys.WaitsFor t m) :
    ∃ o, (tr.sys.mutex m).mutexOwner = some o ∧ o ≠ t :=
  blamed_run hInit run t m hWaits

/-- The mutex has been handed to task 3, and task 2 still waits for it. -/
theorem mutex_waiters_wait_for_owner_handed : ∃ tr,
    Transition.Runs traceStep ⟨System.small, []⟩
      [.create 1 6 5, .create 2 5 5, .create 3 4 5, .start, .switch 1, .call (.mutexPend 0 0),
        .switch 2, .call (.mutexPend 0 100), .switch 3, .call (.mutexPend 0 100), .switch 1,
        .call (.mutexPost 0)] tr ∧
    tr.sys.WaitsFor 2 0 ∧ ∃ o, (tr.sys.mutex 0).mutexOwner = some o ∧ o ≠ 2 := by
  have hRun : Transition.Runs traceStep ⟨System.small, []⟩
      [.create 1 6 5, .create 2 5 5, .create 3 4 5, .start, .switch 1, .call (.mutexPend 0 0),
        .switch 2, .call (.mutexPend 0 100), .switch 3, .call (.mutexPend 0 100), .switch 1,
        .call (.mutexPost 0)] _ := Transition.runs_of_isSome (by decide +kernel)
  exact ⟨_, hRun, by decide +kernel, mutex_waiters_wait_for_owner shippedConfig 0 System.small
    System.initial_small _ _ hRun 2 0 (by decide +kernel)⟩

/-- Tasks that take the mutexes in a fixed order do not deadlock: in every run,
whatever else they wait for and whatever times out, a task that waits for a mutex
awaits, through the owners of mutexes, a task that waits for none. -/
theorem ordered_mutexes_never_deadlock (cfg : Config) (idle : TaskId) (s₀ : System)
    (hInit : s₀.Initial cfg idle) (n : Nat) (rank : Nat → Nat) (events : List SysEvent) (tr : Trace)
    (run : Transition.RunsIf traceStep (fun tr event => TakesInOrder n rank tr.sys event)
      ⟨s₀, []⟩ events tr)
    (t : TaskId) (m : Nat) (hWaits : tr.sys.WaitsFor t m) :
    ∃ o, Relation.TransGen tr.sys.Awaits t o ∧ ∀ m, ¬tr.sys.WaitsFor o m := by
  have hBlamed := blamed_run hInit run
  have hInv : tr.sys.Consistent ∧ tr.sys.Ascending n rank := by
    refine run.invariant (fun tr => tr.sys.Consistent ∧ tr.sys.Ascending n rank)
      ⟨System.consistent_init hInit, System.ascending_init hInit⟩ ?_
    rintro tr event tr' ⟨h, hRanks⟩ hOrder hStep
    obtain ⟨r, hExec, rfl⟩ := traceStep_some hStep
    exact ⟨System.consistent_step h hExec, System.ascending_step h hRanks hOrder hExec⟩
  refine WaitGraph.exists_last rank ?_ hInv.2.above ?_ hWaits
  · intro t' m' hw
    obtain ⟨o, ho, -⟩ := hBlamed t' m' hw
    exact ⟨o, ho⟩
  · exact (Set.finite_lt_nat n).subset hInv.2.below

/-- Task 3 waits for a mutex of task 2, which waits for a mutex of task 1. -/
theorem ordered_mutexes_never_deadlock_chain : ∃ tr,
    Transition.RunsIf traceStep (fun tr event => TakesInOrder 2 id tr.sys event)
      ⟨System.small, []⟩
      [.create 1 6 5, .create 2 5 5, .create 3 4 5, .start, .switch 1, .call (.mutexPend 1 0),
        .switch 2, .call (.mutexPend 0 0), .call (.mutexPend 1 100), .switch 3,
        .call (.mutexPend 0 100)] tr ∧
    tr.sys.WaitsFor 3 0 ∧ tr.sys.WaitsFor 2 1 ∧
    ∃ o, Relation.TransGen tr.sys.Awaits 3 o ∧ ∀ m, ¬tr.sys.WaitsFor o m := by
  have hRun : Transition.RunsIf traceStep (fun tr event => TakesInOrder 2 id tr.sys event)
      ⟨System.small, []⟩
      [.create 1 6 5, .create 2 5 5, .create 3 4 5, .start, .switch 1, .call (.mutexPend 1 0),
        .switch 2, .call (.mutexPend 0 0), .call (.mutexPend 1 100), .switch 3,
        .call (.mutexPend 0 100)] _ := Transition.runsIf_of_isSome (by decide +kernel)
  exact ⟨_, hRun, by decide +kernel, by decide +kernel, ordered_mutexes_never_deadlock
    shippedConfig 0 System.small System.initial_small 2 id _ _ hRun 3 0 (by decide +kernel)⟩

end DoraOS
