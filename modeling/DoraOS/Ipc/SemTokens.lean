import DoraOS.Creation.Creators
import DoraOS.Ipc.WaitOrder

/-! The tokens of a semaphore. A post goes to the counter or to a waiter, and
waiters leave the pend list by a post, by their timeout or because they are
deleted. Tokens are counted in the calls that were made, with what each of
them returned. -/
namespace DoraOS

/-- A step of the system, `dos_sem_pend` in an interrupt, or the deletion of a
task that is not the current one. -/
inductive SemEvent where
  | sys (event : SysEvent)
  | isrPend (i timeout : Nat)
  | delete (t : TaskId)
  deriving DecidableEq

namespace System

variable (s : System)

/-- `dos_sem_pend` in an interrupt, where it never waits. -/
def dosSemPendNow (i : Nat) : System × List Label :=
  if (s.sem i).semCount > 0 then
    (s.setSem i { s.sem i with semCount := (s.sem i).semCount - 1 }, [.returned none .ok])
  else (s, [.returned none .nok])

/-- `dos_task_delete`. A task that is deleted is inside no call any more. -/
def dosTaskDelete (t : TaskId) : System :=
  let r := s.k.dosTaskDelete t
  if r.2 then (s.setKernel r.1).setPc t .user else s.setKernel r.1

def semExec : SemEvent → Option (System × List Label)
  | .sys event => s.exec event
  | .isrPend i _ => if s.k.systemIsRun = true then some (s.dosSemPendNow i) else none
  | .delete t =>
      if s.k.systemIsRun = true ∧ s.k.alloc t = true ∧ s.k.dosCurrentTask ≠ some t then
        some (s.dosTaskDelete t, [])
      else none

end System

/-- A system with its steps so far and their labels. -/
structure SemTrace where
  sys : System
  past : List (SemEvent × List Label)

def semStep (tr : SemTrace) (event : SemEvent) : Option SemTrace :=
  (tr.sys.semExec event).map fun r => { sys := r.1, past := tr.past ++ [(event, r.2)] }

def SemEvent.posts (i : Nat) : SemEvent → Bool
  | .sys (.call (.semPost j)) => j = i
  | .sys (.isrSemPost j) => j = i
  | _ => false

def SemEvent.pends (i : Nat) : SemEvent → Bool
  | .sys (.call (.semPend j _)) => j = i
  | .isrPend j _ => j = i
  | _ => false

def Label.returnsOk : Label → Bool
  | .returned _ .ok => true
  | _ => false

def Label.isGrant : Label → Bool
  | .granted _ => true
  | _ => false

def posted (i : Nat) (entry : SemEvent × List Label) : Bool :=
  entry.1.posts i && entry.2.any Label.returnsOk

def taken (i : Nat) (entry : SemEvent × List Label) : Bool :=
  entry.1.pends i && entry.2.any Label.returnsOk

def woken (i : Nat) (entry : SemEvent × List Label) : Bool :=
  entry.1.posts i && entry.2.any Label.isGrant

section Effect

/-- The semaphore is as before, but for waiters that left its pend list. -/
structure SemApart (i : Nat) (s s' : System) : Prop where
  sem : s'.sem i = s.sem i
  pend : (s'.pending (.sem i)).Sublist (s.pending (.sem i))

/-- What a step does to a semaphore, and what it counts for. -/
inductive SemEffect (i : Nat) (s s' : System) (entry : SemEvent × List Label) : Prop where
  | apart (hApart : SemApart i s s')
      (hCounts : posted i entry = false ∧ taken i entry = false ∧ woken i entry = false)
  | take (hSome : 0 < (s.sem i).semCount)
      (hSem : s'.sem i = { s.sem i with semCount := (s.sem i).semCount - 1 })
      (hPend : s'.pending (.sem i) = s.pending (.sem i))
      (hCounts : posted i entry = false ∧ taken i entry = true ∧ woken i entry = false)
  | join (hNone : (s.sem i).semCount = 0) (hSem : s'.sem i = s.sem i)
      (hCounts : posted i entry = false ∧ taken i entry = false ∧ woken i entry = false)
  | store (hRoom : (s.sem i).semCount ≠ (s.sem i).semMaxCount)
      (hSem : s'.sem i = { s.sem i with semCount := ((s.sem i).semCount + 1) % 2 ^ 32 })
      (hPend : s'.pending (.sem i) = [])
      (hCounts : posted i entry = true ∧ taken i entry = false ∧ woken i entry = false)
  | hand (hWaiter : s.pending (.sem i) ≠ []) (hApart : SemApart i s s')
      (hCounts : posted i entry = true ∧ taken i entry = false ∧ woken i entry = true)

namespace System

open Kernel

variable {s : System} {c : TaskId} {i : Nat}

theorem apart_quiet {s' : System} (hSem : s'.sem i = s.sem i)
    (hPend : s'.pending (.sem i) = s.pending (.sem i)) : SemApart i s s' :=
  ⟨hSem, hPend ▸ List.Sublist.refl _⟩

theorem sem_setSem_of_ne {j : Nat} (hne : j ≠ i) (x : Sem) : (s.setSem j x).sem i = s.sem i :=
  if_neg hne.symm

theorem sem_setSem (x : Sem) : (s.setSem i x).sem i = x := if_pos rfl

theorem pair_block {s₁ : System} (hPair : s₁.k.SleepPair) (w : Wait) (timeout : Nat) :
    (s₁.block c w timeout).1.k.SleepPair :=
  ((moves_wait_linked s₁.k c hPair w.pendId timeout).trans (moves_scheduler _)).pair hPair

/-- A wait for something else. -/
theorem apart_block {s₁ : System} (hPair : s₁.k.SleepPair) (hApart : SemApart i s s₁) (w : Wait)
    (hOther : w.pendId ≠ .sem i) (timeout : Nat) : SemApart i s (s₁.block c w timeout).1 := by
  have hMoves := (moves_wait_linked s₁.k c hPair w.pendId timeout).trans (moves_scheduler _)
  have hLinked : (s₁.k.lists.dosTaskItemInsert (.pend w.pendId) c).items (.pend (.sem i)) =
      s₁.pending (.sem i) := by
    rw [TaskLists.insert_items, if_neg fun hEq => hOther (ListId.pend.inj hEq).symm]
    rfl
  have hLoses := hMoves.pend_sublist (.sem i)
  refine ⟨hApart.sem, List.Sublist.trans ?_ hApart.pend⟩
  rw [← hLinked]
  exact hLoses

theorem apart_inherit (m : Nat) : SemApart i s (s.inherit c m) := by
  refine ⟨?_, (moves_inherit c m).pend_sublist (.sem i)⟩
  unfold inherit
  split
  · split <;> rfl
  · rfl

/-- An event that is no call for the semaphore counts for nothing. -/
theorem effect_apart {s' : System} {event : SemEvent} {ls : List Label} (hApart : SemApart i s s')
    (hPosts : event.posts i = false) (hPends : event.pends i = false) :
    SemEffect i s s' (event, ls) :=
  .apart hApart (by simp [posted, taken, woken, hPosts, hPends])

/-- A step that waits for nothing and leaves the semaphores alone. -/
theorem effect_loses {s' : System} {event : SemEvent} {ls ls' : List Label}
    (hPair : s.k.SleepPair) (hLoses : PendLoses s s' ls) (hSem : s'.sem i = s.sem i)
    (hPosts : event.posts i = false) (hPends : event.pends i = false) :
    s'.k.SleepPair ∧ SemEffect i s s' (event, ls') :=
  ⟨hLoses.pair hPair, effect_apart ⟨hSem, hLoses.sub (.sem i)⟩ hPosts hPends⟩

theorem effect_moves {s' : System} {event : SemEvent} {ls : List Label} (hPair : s.k.SleepPair)
    (hMoves : Moves s.k s'.k) (hSem : s'.sem i = s.sem i) (hPosts : event.posts i = false)
    (hPends : event.pends i = false) : s'.k.SleepPair ∧ SemEffect i s s' (event, ls) :=
  ⟨hMoves.pair hPair, effect_apart ⟨hSem, hMoves.pend_sublist (.sem i)⟩ hPosts hPends⟩

theorem effect_pendNow (timeout : Nat) : SemEffect i s (s.dosSemPendNow i).1
    (.isrPend i timeout, (s.dosSemPendNow i).2) := by
  unfold dosSemPendNow
  split
  · rename_i hSome
    exact .take hSome (sem_setSem _) rfl
      (by simp [posted, taken, woken, SemEvent.posts, SemEvent.pends, Label.returnsOk])
  · exact .apart (apart_quiet rfl rfl)
      (by simp [posted, taken, woken, SemEvent.posts, SemEvent.pends, Label.returnsOk])

/-- A post, of this semaphore or of another one. -/
theorem effect_post (hPair : s.k.SleepPair) {caller : Option TaskId} {j : Nat}
    {r : System × List Label} (hPost : s.SemPosts caller j r) {event : SemEvent}
    (hPosts : event.posts i = decide (j = i)) (hPends : event.pends i = false) :
    r.1.k.SleepPair ∧ SemEffect i s r.1 (event, r.2) := by
  refine ⟨(loses_semPost hPost).pair hPair, ?_⟩
  have hSub := (loses_semPost hPost).sub (.sem i)
  by_cases hj : j = i
  · subst hj
    cases hPost with
    | full =>
        exact .apart (apart_quiet rfl rfl) (by simp [posted, taken, woken, hPends, Label.returnsOk,
          Label.isGrant])
    | credit hRoom hEmpty =>
        exact .store hRoom (sem_setSem _) hEmpty
          (by simp [posted, taken, woken, hPosts, hPends, Label.returnsOk, Label.isGrant])
    | wake t rest _ hHead =>
        exact .hand (by simp [hHead]) ⟨rfl, hSub⟩
          (by simp [posted, taken, woken, hPosts, hPends, Label.returnsOk, Label.isGrant])
  · rw [decide_eq_false hj] at hPosts
    cases hPost with
    | credit => exact effect_apart ⟨sem_setSem_of_ne hj _, hSub⟩ hPosts hPends
    | _ => exact effect_apart ⟨rfl, hSub⟩ hPosts hPends

theorem semEffect_call (hPair : s.k.SleepPair) {a : Call} {r : System × List Label}
    (hCall : s.Calls c a r) : r.1.k.SleepPair ∧ SemEffect i s r.1 (.sys (.call a), r.2) := by
  have hBack (m : Nat) : Moves s.k (s.released c m).k := moves_restorePriority s.k c _
  cases hCall with
  | fails a result hResult =>
      refine ⟨hPair, .apart (apart_quiet rfl rfl) ?_⟩
      cases result <;> simp_all [posted, taken, woken, Label.returnsOk, Label.isGrant]
  | semTake j timeout hSome =>
      refine ⟨hPair, ?_⟩
      by_cases hj : j = i
      · subst hj
        exact .take hSome (sem_setSem _) rfl
          (by simp [posted, taken, woken, SemEvent.posts, SemEvent.pends, Label.returnsOk])
      · exact effect_apart (apart_quiet (sem_setSem_of_ne hj _) rfl) rfl (decide_eq_false hj)
  | semBlock j timeout hNone =>
      refine ⟨pair_block hPair _ _, ?_⟩
      by_cases hj : j = i
      · subst hj
        exact .join hNone rfl
          (by simp [posted, taken, woken, SemEvent.posts, SemEvent.pends, Label.returnsOk, block])
      · exact effect_apart (apart_block hPair (apart_quiet rfl rfl) _ (by simpa [Wait.pendId] using hj)
          timeout) rfl (decide_eq_false hj)
  | semPost j hPost => exact effect_post hPair hPost rfl rfl
  | mutexBlock m timeout =>
      have hBoosted := (moves_inherit c m).pair hPair
      exact ⟨pair_block hBoosted _ _, effect_apart (apart_block hBoosted (apart_inherit m) _
        (by simp [Wait.pendId]) timeout) rfl rfl⟩
  | mutexFree m => exact effect_moves hPair (hBack m) rfl rfl rfl
  | mutexHand m t =>
      exact effect_moves hPair ((hBack m).trans (moves_wakeFirst _ (.pend (.mutex m)) t)) rfl rfl rfl
  | queueBlock q op buff size size' timeout =>
      exact ⟨pair_block hPair _ _, effect_apart (apart_block hPair (apart_quiet rfl rfl) _
        (by simp [Wait.pendId]) timeout) rfl rfl⟩
  | eventBlock e waitEvent op timeout =>
      have hQuiet : SemApart i s (s.setWaitEvent c waitEvent op) := apart_quiet rfl rfl
      have hSame : (s.setWaitEvent c waitEvent op).k.SleepPair := hPair
      exact ⟨pair_block hSame _ _, effect_apart (apart_block hSame hQuiet _ (by simp [Wait.pendId])
        timeout) rfl rfl⟩
  | sleep n =>
      exact effect_moves hPair (moves_sleep s.k c hPair n) rfl rfl rfl
  | unlock => exact effect_moves hPair (moves_unlock s.k) rfl rfl rfl
  | _ => exact ⟨hPair, effect_apart (apart_quiet rfl rfl) rfl rfl⟩

theorem sem_queueNow {caller : Option TaskId} {q : Nat} {op : QueueOp} {buff size : Nat}
    {r : System × List Label} (hSend : s.QueueNow caller q op buff size r) : r.1.sem = s.sem := by
  cases hSend <;> rfl

theorem sem_resumes {pc : Pc} {r : System × List Label} (hNext : s.Resumes c pc r) :
    r.1.sem = s.sem := by
  cases hNext <;> rfl

/-- What any step does to a semaphore. -/
theorem semEffect_exec (hPair : s.k.SleepPair) {event : SysEvent} {r : System × List Label}
    (hStep : s.exec event = some r) :
    r.1.k.SleepPair ∧ SemEffect i s r.1 (.sys event, r.2) := by
  have hLoses := loses_exec hStep
  cases steps_of_exec hStep with
  | overflow q sent hQueue hSend =>
      have hSem := sem_queueNow hSend
      exact effect_loses hPair (hLoses (by simp)) (congrFun hSem i) rfl rfl
  | isrSemPost j hPost => exact effect_post hPair hPost rfl rfl
  | isrQueue q op buff size hSend =>
      exact effect_loses hPair (hLoses (by simp)) (congrFun (sem_queueNow hSend) i) rfl rfl
  | call c a hRun hUser hCall => exact semEffect_call hPair hCall
  | next c hRun hPc hNext =>
      exact effect_loses hPair (hLoses (by simp)) (congrFun (sem_resumes hNext) i) rfl rfl
  | _ => exact effect_loses hPair (hLoses (by simp)) rfl rfl rfl

theorem semEffect_delete (hPair : s.k.SleepPair) (t : TaskId) : (s.dosTaskDelete t).k.SleepPair ∧
    SemEffect i s (s.dosTaskDelete t) (.delete t, []) := by
  unfold dosTaskDelete
  dsimp only
  split <;> exact effect_moves hPair (moves_delete s.k t) rfl rfl rfl

/-- What any step does to a semaphore. -/
theorem semEffect_semExec (hPair : s.k.SleepPair) {event : SemEvent} {r : System × List Label}
    (hStep : s.semExec event = some r) : r.1.k.SleepPair ∧ SemEffect i s r.1 (event, r.2) := by
  cases event with
  | sys event => exact semEffect_exec hPair hStep
  | isrPend j timeout =>
      simp only [semExec, Option.ite_none_right_eq_some, Option.some.injEq] at hStep
      rw [← hStep.2]
      have hKernel : (s.dosSemPendNow j).1.k = s.k := by
        unfold dosSemPendNow
        split
        · rfl
        · rfl
      refine ⟨hKernel ▸ hPair, ?_⟩
      by_cases hj : j = i
      · subst hj
        exact effect_pendNow timeout
      · have hPending : (s.dosSemPendNow j).1.pending (.sem i) = s.pending (.sem i) := by
          rw [pending, hKernel, pending]
        refine effect_apart (apart_quiet ?_ hPending) rfl (decide_eq_false hj)
        unfold dosSemPendNow
        split
        · exact sem_setSem_of_ne hj _
        · rfl
  | delete t =>
      simp only [semExec, Option.ite_none_right_eq_some, Option.some.injEq] at hStep
      rw [← hStep.2]
      exact semEffect_delete hPair t

end System

end Effect

namespace SemTrace

variable (tr : SemTrace) (i : Nat)

def posts : Nat := tr.past.countP (posted i)

def takes : Nat := tr.past.countP (taken i)

def wakes : Nat := tr.past.countP (woken i)

/-- The state of a semaphore that was created with `cnt` tokens. -/
structure Balanced (cnt maxCnt : Nat) : Prop where
  pair : tr.sys.k.SleepPair
  maximum : (tr.sys.sem i).semMaxCount = maxCnt
  bound : (tr.sys.sem i).semCount ≤ maxCnt
  balance : cnt + tr.posts i = (tr.sys.sem i).semCount + tr.takes i + tr.wakes i
  empty : tr.sys.pending (.sem i) ≠ [] → (tr.sys.sem i).semCount = 0

variable {tr i} {tr' : SemTrace} {cnt maxCnt : Nat} {event : SemEvent}

/-- The counts behind one more step. -/
theorem count_step {p : SemEvent × List Label → Bool} {past : List (SemEvent × List Label)}
    (entry : SemEvent × List Label) :
    (past ++ [entry]).countP p = past.countP p + (p entry).toNat := by
  rw [List.countP_append, List.countP_singleton]
  cases p entry with
  | false => rfl
  | true => rfl

/-- A step, with its effect on the semaphore. -/
theorem step_effect (hPair : tr.sys.k.SleepPair) (hStep : semStep tr event = some tr') :
    tr'.sys.k.SleepPair ∧ ∃ entry, tr'.past = tr.past ++ [entry] ∧ entry.1 = event ∧
      SemEffect i tr.sys tr'.sys entry := by
  simp only [semStep, Option.map_eq_some_iff] at hStep
  obtain ⟨r, hExec, rfl⟩ := hStep
  obtain ⟨hPair', hEffect⟩ := System.semEffect_semExec (i := i) hPair hExec
  exact ⟨hPair', (event, r.2), rfl, rfl, hEffect⟩

theorem Balanced.step (h : tr.Balanced i cnt maxCnt) (hMax : maxCnt < 2 ^ 32)
    (hStep : semStep tr event = some tr') : tr'.Balanced i cnt maxCnt := by
  obtain ⟨hPair, entry, hPast, -, hEffect⟩ := step_effect (i := i) h.pair hStep
  have hBalance := h.balance
  have hBound := h.bound
  have hCount (p : SemEvent × List Label → Bool) :
      tr'.past.countP p = tr.past.countP p + (p entry).toNat := by rw [hPast, count_step]
  have hSublist {xs ys : List TaskId} (hSub : xs.Sublist ys) (hSome : xs ≠ []) : ys ≠ [] := by
    rintro rfl
    exact hSome (List.eq_nil_of_sublist_nil hSub)
  unfold posts takes wakes at hBalance
  cases hEffect with
  | apart hApart hCounts =>
      refine ⟨hPair, by rw [hApart.sem, h.maximum], by rw [hApart.sem]; exact hBound, ?_, ?_⟩
      · rw [posts, takes, wakes, hCount, hCount, hCount, hApart.sem, hCounts.1, hCounts.2.1,
          hCounts.2.2]
        exact hBalance
      · intro hSome
        rw [hApart.sem]
        exact h.empty (hSublist hApart.pend hSome)
  | take hSome hSem hPend hCounts =>
      refine ⟨hPair, by rw [hSem, h.maximum], by rw [hSem]; exact le_trans (Nat.sub_le _ _) hBound,
        ?_, ?_⟩
      · rw [posts, takes, wakes, hCount, hCount, hCount, hSem, hCounts.1, hCounts.2.1, hCounts.2.2]
        simp only [Bool.toNat_false, Bool.toNat_true]
        omega
      · intro hWaiting
        have hZero := h.empty (hPend ▸ hWaiting)
        omega
  | join hNone hSem hCounts =>
      refine ⟨hPair, by rw [hSem, h.maximum], by rw [hSem]; exact hBound, ?_, fun _ => hSem ▸ hNone⟩
      rw [posts, takes, wakes, hCount, hCount, hCount, hSem, hCounts.1, hCounts.2.1, hCounts.2.2]
      exact hBalance
  | store hRoom hSem hPend hCounts =>
      -- below the maximum the counter does not wrap
      have hLess : (tr.sys.sem i).semCount < maxCnt := by
        rw [h.maximum] at hRoom
        omega
      have hNew : ((tr.sys.sem i).semCount + 1) % 2 ^ 32 = (tr.sys.sem i).semCount + 1 :=
        Nat.mod_eq_of_lt (by omega)
      rw [hNew] at hSem
      refine ⟨hPair, by rw [hSem, h.maximum], by rw [hSem]; exact hLess, ?_,
        fun hSome => absurd hPend hSome⟩
      rw [posts, takes, wakes, hCount, hCount, hCount, hSem, hCounts.1, hCounts.2.1, hCounts.2.2]
      simp only [Bool.toNat_false, Bool.toNat_true]
      omega
  | hand hWaiter hApart hCounts =>
      refine ⟨hPair, by rw [hApart.sem, h.maximum], by rw [hApart.sem]; exact hBound, ?_, ?_⟩
      · rw [posts, takes, wakes, hCount, hCount, hCount, hApart.sem, hCounts.1, hCounts.2.1,
          hCounts.2.2]
        simp only [Bool.toNat_false, Bool.toNat_true]
        omega
      · intro _
        rw [hApart.sem]
        exact h.empty hWaiter

/-- `dos_sem_create` makes a semaphore with its tokens and no waiter. -/
theorem balanced_create {m m' : Machine} (hCreate : m.dosSemCreate cnt maxCnt = some (m', i))
    (hSome : i ≠ 0) (hPair : m.sys.k.SleepPair) (hCnt : cnt ≤ maxCnt) :
    Balanced ⟨m'.sys, []⟩ i cnt maxCnt := by
  simp only [Machine.dosSemCreate, Option.bind_eq_bind, Option.bind_eq_some_iff] at hCreate
  obtain ⟨⟨m₁, p⟩, hAlloc, hRest⟩ := hCreate
  have hPair₁ : m₁.sys.k.SleepPair := by
    simp only [Machine.dosMemAlloc] at hAlloc
    split at hAlloc
    · rw [← (Prod.mk.inj (Option.some.inj hAlloc)).1]
      exact hPair
    · obtain ⟨r, -, hEq⟩ := Option.map_eq_some_iff.mp hAlloc
      rw [← (Prod.mk.inj hEq).1]
      exact (Kernel.moves_unlock m.sys.k.dosSchedulerLock).pair hPair
  dsimp only at hRest
  split at hRest
  · exact absurd (congrArg Prod.snd (Option.some.inj hRest)).symm hSome
  · obtain ⟨rfl, rfl⟩ := Prod.mk.inj (Option.some.inj hRest)
    refine ⟨hPair₁, ?_, ?_, ?_, ?_⟩
    · exact congrArg Sem.semMaxCount (System.sem_setSem (s := m₁.sys) _)
    · have hSem := congrArg Sem.semCount (System.sem_setSem (s := m₁.sys) (i := p) ⟨cnt, maxCnt⟩)
      exact hSem.trans_le hCnt
    · have hSem := congrArg Sem.semCount (System.sem_setSem (s := m₁.sys) (i := p) ⟨cnt, maxCnt⟩)
      exact hSem.symm
    · intro hWaiting
      exact absurd (by simp [System.pending, System.initPend, System.setKernel,
        TaskLists.dosTaskListInit, TaskLists.setList, TaskLists.items]) hWaiting

/-- A step changes the counter by one at most. -/
theorem Balanced.step_le (h : tr.Balanced i cnt maxCnt) (hMax : maxCnt < 2 ^ 32)
    (hStep : semStep tr event = some tr') :
    (tr'.sys.sem i).semCount ≤ (tr.sys.sem i).semCount + 1 ∧
      (tr.sys.sem i).semCount ≤ (tr'.sys.sem i).semCount + 1 := by
  obtain ⟨-, entry, -, -, hEffect⟩ := step_effect (i := i) h.pair hStep
  have hBound := h.bound
  cases hEffect with
  | apart hApart hCounts => simp [hApart.sem]
  | take hSome hSem hPend hCounts =>
      rw [hSem]
      dsimp only
      omega
  | join hNone hSem hCounts => simp [hSem]
  | store hRoom hSem hPend hCounts =>
      rw [h.maximum] at hRoom
      rw [hSem]
      dsimp only
      omega
  | hand hWaiter hApart hCounts => simp [hApart.sem]

/-- A step of a binary semaphore that hands out a token leaves none. -/
theorem Balanced.grant_binary (h : tr.Balanced i cnt 1) (hStep : semStep tr event = some tr')
    (hGrant : tr'.takes i + tr'.wakes i ≠ tr.takes i + tr.wakes i) :
    (tr'.sys.sem i).semCount = 0 := by
  obtain ⟨-, entry, hPast, -, hEffect⟩ := step_effect (i := i) h.pair hStep
  have hBound := h.bound
  unfold takes wakes at hGrant
  rw [hPast, count_step, count_step] at hGrant
  cases hEffect with
  | apart hApart hCounts => simp [hCounts.2.1, hCounts.2.2] at hGrant
  | take hSome hSem hPend hCounts =>
      rw [hSem]
      dsimp only
      omega
  | join hNone hSem hCounts => simp [hCounts.2.1, hCounts.2.2] at hGrant
  | store hRoom hSem hPend hCounts => simp [hCounts.2.1, hCounts.2.2] at hGrant
  | hand hWaiter hApart hCounts =>
      rw [hApart.sem]
      exact h.empty hWaiter

/-- Without tokens and posts nothing is handed out. -/
theorem Balanced.no_grant (h : tr.Balanced i cnt maxCnt) (hZero : (tr.sys.sem i).semCount = 0)
    (hStep : semStep tr event = some tr') (hPosts : event.posts i = false) :
    (tr'.sys.sem i).semCount = 0 ∧ tr'.takes i = tr.takes i ∧ tr'.wakes i = tr.wakes i := by
  obtain ⟨-, entry, hPast, rfl, hEffect⟩ := step_effect (i := i) h.pair hStep
  unfold takes wakes
  rw [hPast, count_step, count_step]
  cases hEffect with
  | apart hApart hCounts => simp [hApart.sem, hZero, hCounts.2.1, hCounts.2.2]
  | take hSome hSem hPend hCounts => omega
  | join hNone hSem hCounts => simp [hSem, hZero, hCounts.2.1, hCounts.2.2]
  | store hRoom hSem hPend hCounts => simp [posted, hPosts] at hCounts
  | hand hWaiter hApart hCounts => simp [posted, hPosts] at hCounts

theorem Balanced.run {ok : SemTrace → SemEvent → Prop} {events : List SemEvent}
    (h : tr.Balanced i cnt maxCnt) (hMax : maxCnt < 2 ^ 32)
    (run : Transition.RunsIf semStep ok tr events tr') : tr'.Balanced i cnt maxCnt :=
  run.invariant (fun tr => tr.Balanced i cnt maxCnt) h
    fun _ _ _ hBalanced _ hStep => hBalanced.step hMax hStep

end SemTrace

/-- In every run from the creation of a semaphore with `cnt ≤ max_cnt` the counter
stays within its maximum and no step wraps it. A binary semaphore hands out no
second token before it is posted again. -/
theorem sem_count_bounded (m m' : Machine) (cnt maxCnt i : Nat)
    (hCreate : m.dosSemCreate cnt maxCnt = some (m', i)) (hSome : i ≠ 0)
    (hPair : m.sys.k.SleepPair) (hCnt : cnt ≤ maxCnt) (hMax : maxCnt < 2 ^ 32)
    (events : List SemEvent) (tr : SemTrace)
    (run : Transition.Runs semStep ⟨m'.sys, []⟩ events tr) :
    (tr.sys.sem i).semCount ≤ (tr.sys.sem i).semMaxCount ∧
    ∀ event tr₁, semStep tr event = some tr₁ →
      (tr₁.sys.sem i).semCount ≤ (tr.sys.sem i).semCount + 1 ∧
      (tr.sys.sem i).semCount ≤ (tr₁.sys.sem i).semCount + 1 ∧
      (maxCnt = 1 → tr₁.takes i + tr₁.wakes i ≠ tr.takes i + tr.wakes i →
        ∀ later tr₂, Transition.Runs semStep tr₁ later tr₂ → (∀ e ∈ later, e.posts i = false) →
          tr₂.takes i + tr₂.wakes i = tr₁.takes i + tr₁.wakes i) := by
  have hBalanced := (SemTrace.balanced_create hCreate hSome hPair hCnt).run hMax run
  refine ⟨by rw [hBalanced.maximum]; exact hBalanced.bound, ?_⟩
  intro event tr₁ hStep
  obtain ⟨hUp, hDown⟩ := hBalanced.step_le hMax hStep
  refine ⟨hUp, hDown, ?_⟩
  rintro rfl hGrant later tr₂ hLater hNoPost
  have hZero := hBalanced.grant_binary hStep hGrant
  -- nothing is handed out while the counter is zero and nobody posts
  have hQuiet := (hLater.of_events hNoPost).invariant
    (fun tr => tr.Balanced i cnt 1 ∧ (tr.sys.sem i).semCount = 0 ∧ tr.takes i = tr₁.takes i ∧
      tr.wakes i = tr₁.wakes i) ⟨hBalanced.step hMax hStep, hZero, rfl, rfl⟩ ?_
  · rw [hQuiet.2.2.1, hQuiet.2.2.2]
  · rintro tr event tr' ⟨hOk, hNone, hTakes, hWakes⟩ hPosts hNext
    obtain ⟨hNone', hTakes', hWakes'⟩ := hOk.no_grant hNone hNext hPosts
    exact ⟨hOk.step hMax hNext, hNone', hTakes'.trans hTakes, hWakes'.trans hWakes⟩

/-- A binary semaphore with one token. -/
theorem sem_count_bounded_binary : ∃ m' tr,
    (Machine.boot 1000).dosSemCreate 1 1 = some (m', 0x20000018) ∧
    Transition.Runs semStep ⟨m'.sys, []⟩ [.sys (.create 1 5 5), .sys .start,
      .sys (.call (.semPend 0x20000018 0)), .sys (.call (.semPost 0x20000018))] tr ∧
    (tr.sys.sem 0x20000018).semCount ≤ (tr.sys.sem 0x20000018).semMaxCount := by
  have hResult : (((Machine.boot 1000).dosSemCreate 1 1).bind fun r =>
      (Transition.exec semStep ⟨r.1.sys, []⟩ [.sys (.create 1 5 5), .sys .start,
        .sys (.call (.semPend 0x20000018 0)), .sys (.call (.semPost 0x20000018))]).map fun _ => r.2) =
        some 0x20000018 := by
    decide +kernel
  obtain ⟨⟨m', i⟩, hCreate, hRest⟩ := Option.bind_eq_some_iff.mp hResult
  obtain ⟨tr, hExec, rfl⟩ := Option.map_eq_some_iff.mp hRest
  have hRun := Transition.runs_of_exec hExec
  exact ⟨m', tr, hCreate, hRun, (sem_count_bounded _ m' 1 1 _ hCreate (by decide)
    (Or.inl ⟨rfl, rfl⟩) (by decide) (by decide) _ tr hRun).1⟩

/-- `dos_binary_sem_create(2)` returns a semaphore with a count above its maximum,
two pends in a row get a token, and after the third post the counter is past
the maximum again. -/
theorem binary_sem_grants_twice : ∃ m' tr tr',
    (Machine.boot 1000).dosSemCreate 2 1 = some (m', 0x20000018) ∧
    (m'.sys.sem 0x20000018).semCount = 2 ∧ (m'.sys.sem 0x20000018).semMaxCount = 1 ∧
    Transition.Runs semStep ⟨m'.sys, []⟩ [.sys (.create 1 5 5), .sys .start,
      .sys (.call (.semPend 0x20000018 0)), .sys (.call (.semPend 0x20000018 0))] tr ∧
    tr.posts 0x20000018 = 0 ∧ tr.takes 0x20000018 = 2 ∧
    Transition.Runs semStep ⟨m'.sys, []⟩ [.sys (.create 1 5 5), .sys .start,
      .sys (.call (.semPost 0x20000018)), .sys (.call (.semPost 0x20000018)),
      .sys (.call (.semPost 0x20000018))] tr' ∧
    (tr'.sys.sem 0x20000018).semCount = 5 := by
  have hResult : ((Machine.boot 1000).dosSemCreate 2 1).map (fun r =>
      (r.2, (r.1.sys.sem r.2).semCount, (r.1.sys.sem r.2).semMaxCount)) =
        some (0x20000018, 2, 1) := by
    decide +kernel
  have hTaken : (((Machine.boot 1000).dosSemCreate 2 1).bind fun r =>
      (Transition.exec semStep ⟨r.1.sys, []⟩ [.sys (.create 1 5 5), .sys .start,
        .sys (.call (.semPend 0x20000018 0)), .sys (.call (.semPend 0x20000018 0))]).map fun tr =>
          (tr.posts 0x20000018, tr.takes 0x20000018)) = some (0, 2) := by
    decide +kernel
  have hPosted : (((Machine.boot 1000).dosSemCreate 2 1).bind fun r =>
      (Transition.exec semStep ⟨r.1.sys, []⟩ [.sys (.create 1 5 5), .sys .start,
        .sys (.call (.semPost 0x20000018)), .sys (.call (.semPost 0x20000018)),
        .sys (.call (.semPost 0x20000018))]).map fun tr => (tr.sys.sem 0x20000018).semCount) =
          some 5 := by
    decide +kernel
  obtain ⟨⟨m', i⟩, hCreate, hEq⟩ := Option.map_eq_some_iff.mp hResult
  simp only [Prod.mk.injEq] at hEq
  obtain ⟨rfl, hCount, hMax⟩ := hEq
  rw [hCreate, Option.bind_some, Option.map_eq_some_iff] at hTaken hPosted
  obtain ⟨tr, hExec, hTakes⟩ := hTaken
  obtain ⟨tr', hExec', hPast⟩ := hPosted
  simp only [Prod.mk.injEq] at hTakes
  exact ⟨m', tr, tr', hCreate, hCount, hMax, Transition.runs_of_exec hExec, hTakes.1, hTakes.2,
    Transition.runs_of_exec hExec', hPast⟩

end DoraOS
