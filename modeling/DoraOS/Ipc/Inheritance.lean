import DoraOS.Ipc.MutexExclusion

/-! Priority inheritance. Each mutex saves the priority its owner had when it
was granted and goes back to it when it is released, so the result depends on
how the holding times of several mutexes overlap, and the boost compares a
waiter with the saved priority only. -/
namespace DoraOS

def SysEvent.mutexOf : SysEvent → Option Nat
  | .call (.mutexPend m _) => some m
  | .call (.mutexPost m) => some m
  | _ => none

/-- The priority the task was created with. -/
def createdWith (past : List Label) (t : TaskId) : Option Nat :=
  past.foldl (fun prio l => match l with
    | .created x p => if x = t then some p else prio
    | _ => prio) none

/-- The task that `m` was last granted to, and its priority at that time. -/
def lastGrant (past : List Label) (m : Nat) : Option (TaskId × Nat) :=
  past.foldl (fun last l => match l with
    | .mutexGranted m' t prio => if m' = m then some (t, prio) else last
    | _ => last) none

/-- When a task gives back the only mutex it still holds, that mutex was
granted to it at the priority it was created with. -/
def PlainRelease (tr : Trace) : SysEvent → Prop
  | .call (.mutexPost m) => ∀ c prio, tr.sys.k.dosCurrentTask = some c →
      (tr.sys.mutex m).mutexOwner = some c → (tr.sys.mutex m).mutexCount = 1 →
      (∀ m', m' ≠ m → (tr.sys.mutex m').mutexOwner ≠ some c) →
      createdWith tr.past c = some prio → lastGrant tr.past m = some (c, prio)
  | _ => True

def SysEvent.isMutexPost : SysEvent → Bool
  | .call (.mutexPost _) => true
  | _ => false

theorem plainRelease_of_not_post (tr : Trace) {event : SysEvent} (h : event.isMutexPost = false) :
    PlainRelease tr event := by
  unfold PlainRelease
  split
  · cases h
  · trivial

section Record

variable {past ls : List Label} {m : Nat} {t : TaskId}

theorem createdWith_snoc (l : Label) : createdWith (past ++ [l]) t =
    match l with
    | .created x p => if x = t then some p else createdWith past t
    | _ => createdWith past t := by
  simp only [createdWith, List.foldl_append, List.foldl_cons, List.foldl_nil]

theorem lastGrant_snoc (l : Label) : lastGrant (past ++ [l]) m =
    match l with
    | .mutexGranted m' x p => if m' = m then some (x, p) else lastGrant past m
    | _ => lastGrant past m := by
  simp only [lastGrant, List.foldl_append, List.foldl_cons, List.foldl_nil]

theorem createdWith_append (h : ∀ x p, .created x p ∉ ls) :
    createdWith (past ++ ls) t = createdWith past t := by
  induction ls using List.reverseRecOn with
  | nil => rw [List.append_nil]
  | append_singleton ls l ih =>
      rw [← List.append_assoc, createdWith_snoc,
        ih fun x p hMem => h x p (List.mem_append_left _ hMem)]
      cases l with
      | created x p => exact absurd (List.mem_append_right _ (List.mem_singleton_self _)) (h x p)
      | _ => rfl

theorem lastGrant_append (h : ∀ x p, .mutexGranted m x p ∉ ls) :
    lastGrant (past ++ ls) m = lastGrant past m := by
  induction ls using List.reverseRecOn with
  | nil => rw [List.append_nil]
  | append_singleton ls l ih =>
      rw [← List.append_assoc, lastGrant_snoc,
        ih fun x p hMem => h x p (List.mem_append_left _ hMem)]
      cases l with
      | mutexGranted m' x p =>
          refine if_neg ?_
          rintro rfl
          exact h x p (List.mem_append_right _ (List.mem_singleton_self _))
      | _ => rfl

/-- A label of another kind is in no list without labels of tasks and mutexes. -/
theorem not_mem_of_quiet (h : ls.filter Label.isMutex = []) {l : Label} (hl : l.isMutex = true) :
    l ∉ ls := fun hMem => List.filter_eq_nil_iff.mp h l hMem hl

end Record

/-- Mutexes remember the priority of their last grant, and a task that holds
none has the priority it was created with. -/
structure Restored (s : System) (past : List Label) : Prop where
  saved : ∀ m t, (s.mutex m).mutexOwner = some t →
    lastGrant past m = some (t, (s.mutex m).mutexPriority)
  plain : ∀ t prio, createdWith past t = some prio → (∀ m, (s.mutex m).mutexOwner ≠ some t) →
    s.k.priority t = prio

namespace Restored

variable {s s' : System} {past past' : List Label}

/-- A step that changes no owner and no saved priority. -/
theorem keep (h : Restored s past)
    (hOwner : ∀ m, (s'.mutex m).mutexOwner = (s.mutex m).mutexOwner)
    (hSaved : ∀ m, (s'.mutex m).mutexPriority = (s.mutex m).mutexPriority)
    (hPriority : ∀ t, (∀ m, (s.mutex m).mutexOwner ≠ some t) → s'.k.priority t = s.k.priority t)
    (hCreated : ∀ t, createdWith past' t = createdWith past t)
    (hGrant : ∀ m, lastGrant past' m = lastGrant past m) : Restored s' past' where
  saved m t hAt := by
    rw [hGrant, hSaved]
    exact h.saved m t ((hOwner m).symm.trans hAt)
  plain t prio ht hNone := by
    have hBefore (m : Nat) : (s.mutex m).mutexOwner ≠ some t := by
      rw [← hOwner]
      exact hNone m
    rw [hPriority t hBefore]
    exact h.plain t prio ((hCreated t).symm.trans ht) hBefore

/-- A step that changes the count of a mutex only. -/
theorem recount (h : Restored s past) {m : Nat} {x : Mutex}
    (hOwner : x.mutexOwner = (s.mutex m).mutexOwner)
    (hSaved : x.mutexPriority = (s.mutex m).mutexPriority)
    (hCreated : ∀ t, createdWith past' t = createdWith past t)
    (hGrant : ∀ m, lastGrant past' m = lastGrant past m) : Restored (s.setMutex m x) past' := by
  refine h.keep ?_ ?_ (fun _ _ => rfl) hCreated hGrant
  · intro m'
    by_cases hm : m' = m
    · rw [hm, System.mutex_setMutex, hOwner]
    · rw [System.mutex_setMutex_ne hm]
  · intro m'
    by_cases hm : m' = m
    · rw [hm, System.mutex_setMutex, hSaved]
    · rw [System.mutex_setMutex_ne hm]

/-- A step that changes the owner of the mutex `m`. -/
theorem give (h : Restored s past) {m : Nat} (hElse : ∀ m', m' ≠ m → s'.mutex m' = s.mutex m')
    (hNew : ∀ t, (s'.mutex m).mutexOwner = some t →
      lastGrant past' m = some (t, (s'.mutex m).mutexPriority))
    (hPriority : ∀ t, (s.mutex m).mutexOwner ≠ some t → s'.k.priority t = s.k.priority t)
    (hBack : ∀ t prio, (s.mutex m).mutexOwner = some t →
      (∀ m', m' ≠ m → (s.mutex m').mutexOwner ≠ some t) → createdWith past t = some prio →
      s'.k.priority t = prio)
    (hCreated : ∀ t, createdWith past' t = createdWith past t)
    (hGrant : ∀ m', m' ≠ m → lastGrant past' m' = lastGrant past m') : Restored s' past' where
  saved m' t hAt := by
    by_cases hm : m' = m
    · subst hm
      exact hNew t hAt
    · rw [hElse m' hm] at hAt ⊢
      rw [hGrant m' hm]
      exact h.saved m' t hAt
  plain t prio ht hNone := by
    rw [hCreated] at ht
    have hRest (m' : Nat) (hm : m' ≠ m) : (s.mutex m').mutexOwner ≠ some t := by
      rw [← hElse m' hm]
      exact hNone m'
    by_cases hOld : (s.mutex m).mutexOwner = some t
    · exact hBack t prio hOld hRest ht
    · rw [hPriority t hOld]
      refine h.plain t prio ht ?_
      intro m'
      by_cases hm : m' = m
      · rw [hm]
        exact hOld
      · exact hRest m' hm

/-- What giving back its last mutex leaves the poster with. -/
theorem back (h : Restored s past) {m : Nat} {c : TaskId}
    (hPlain : PlainRelease ⟨s, past⟩ (.call (.mutexPost m))) (hRun : s.Running c)
    (hOwner : (s.mutex m).mutexOwner = some c) (hCount : (s.mutex m).mutexCount = 1) {t : TaskId}
    {prio : Nat} (hOld : (s.mutex m).mutexOwner = some t)
    (hRest : ∀ m', m' ≠ m → (s.mutex m').mutexOwner ≠ some t)
    (hCreated : createdWith past t = some prio) :
    (if t = c then (s.mutex m).mutexPriority else s.k.priority t) = prio := by
  obtain rfl : t = c := Option.some.inj (hOld.symm.trans hOwner)
  have hGrant := hPlain t prio hRun.2.1 hOwner hCount hRest hCreated
  have hSame := (h.saved m t hOwner).symm.trans hGrant
  rw [if_pos rfl]
  simpa using hSame

end Restored

namespace System

variable {s : System} {event : SysEvent} {past : List Label}

/-- A mutex that no call is made on stays as it is. -/
theorem mutex_elsewhere (h : Coherent s) {r : System × List Label}
    (hStep : s.exec event = some r) {m : Nat} (hEvent : event.mutexOf ≠ some m) :
    r.1.mutex m = s.mutex m := by
  have hOther {m' : Nat} {x : Mutex} (hOf : event.mutexOf = some m') :
      (s.setMutex m' x).mutex m = s.mutex m := by
    refine mutex_setMutex_ne ?_ x
    rintro rfl
    exact hEvent hOf
  cases effect_exec h hStep with
  | quiet hMutex => rw [hMutex]
  | create _ _ _ _ _ hMutex => rw [hMutex]
  | take m' timeout c _ hCall _ hSystem =>
      rw [hSystem]
      exact hOther (by rw [hCall]; rfl)
  | nest m' timeout c _ hCall _ _ hSystem =>
      rw [hSystem]
      exact hOther (by rw [hCall]; rfl)
  | block _ _ _ _ _ _ _ _ _ hMutex => rw [hMutex]
  | leave m' c _ hCall _ _ hSystem =>
      rw [hSystem]
      exact hOther (by rw [hCall]; rfl)
  | free m' c _ _ hCall _ _ _ hMutex =>
      rw [hMutex]
      exact hOther (by rw [hCall]; rfl)
  | hand m' c t rest _ _ hCall _ _ _ _ hMutex =>
      rw [hMutex]
      exact hOther (by rw [hCall]; rfl)

/-- Every step that meets the condition restores priorities. -/
theorem restored_step (h : Coherent s) (hOk : ∀ m, MutexOk m past (s.mutex m))
    (hPlain : PlainRelease ⟨s, past⟩ event) (hRestored : Restored s past) {r : System × List Label}
    (hStep : s.exec event = some r) : Restored r.1 (past ++ r.2) := by
  have hOthers {m : Nat} {c : TaskId} (hOwner : (s.mutex m).mutexOwner = some c) (t : TaskId)
      (ht : (s.mutex m).mutexOwner ≠ some t) :
      (if t = c then (s.mutex m).mutexPriority else s.k.priority t) = s.k.priority t := by
    refine if_neg ?_
    rintro rfl
    exact ht hOwner
  cases effect_exec h hStep with
  | quiet hMutex hRank hLabels _ =>
      exact hRestored.keep (fun _ => by rw [hMutex]) (fun _ => by rw [hMutex])
        (fun t _ => hRank.priority t)
        (fun _ => createdWith_append fun _ _ => not_mem_of_quiet hLabels rfl)
        (fun _ => lastGrant_append fun _ _ => not_mem_of_quiet hLabels rfl)
  | create x p tick _ hCreates hMutex hLabels =>
      rw [hLabels]
      refine ⟨?_, ?_⟩
      · intro m t hOwner
        rw [hMutex] at hOwner ⊢
        exact (lastGrant_snoc _).trans (hRestored.saved m t hOwner)
      · intro t prio hCreated hNone
        rw [createdWith_snoc] at hCreated
        rw [hMutex] at hNone
        by_cases hx : x = t
        · subst hx
          simp only [if_true, Option.some.injEq] at hCreated
          exact hCreates.priority.trans hCreated
        · simp only [hx, if_false] at hCreated
          have hSame : r.1.k.priority t = s.k.priority t :=
            congrArg TaskView.priority (hCreates.view t (Ne.symm hx))
          rw [hSame]
          exact hRestored.plain t prio hCreated hNone
  | take m timeout c _ _ hCount hSystem hLabels =>
      have hFree := (hOk m).unowned hCount
      rw [hSystem, hLabels]
      refine hRestored.give (fun m' hm => mutex_setMutex_ne hm _) ?_ (fun _ _ => rfl) ?_
        (fun _ => createdWith_append (by simp)) ?_
      · intro t hAt
        rw [mutex_setMutex] at hAt ⊢
        rw [← Option.some.inj hAt, List.append_cons, lastGrant_append (by simp), lastGrant_snoc]
        exact if_pos rfl
      · intro t prio hOld
        rw [hFree] at hOld
        cases hOld
      · exact fun m' hm => lastGrant_append (by simp [hm])
  | nest m timeout c _ _ _ _ hSystem hLabels =>
      rw [hSystem, hLabels]
      exact hRestored.recount rfl rfl (fun _ => createdWith_append (by simp))
        (fun _ => lastGrant_append (by simp))
  | block m timeout c _ _ _ _ _ _ hMutex hPriority _ hLabels =>
      rw [hLabels]
      refine hRestored.keep (fun _ => by rw [hMutex]) (fun _ => by rw [hMutex]) ?_
        (fun _ => createdWith_snoc _) (fun _ => lastGrant_snoc _)
      intro t hNone
      -- a boost only reaches the owner of the mutex
      rw [hPriority t, boosted, if_neg fun hBoost => hNone m hBoost.1]
  | leave m c _ _ _ _ hSystem hLabels =>
      rw [hSystem, hLabels]
      exact hRestored.recount rfl rfl (fun _ => createdWith_append (by simp))
        (fun _ => lastGrant_append (by simp))
  | free m c hRun _ hEvent hOwner hCount _ hMutex hPriority _ hLabels =>
      rw [hEvent] at hPlain
      rw [hLabels]
      refine hRestored.give (m := m) ?_ ?_ ?_ ?_ (fun _ => createdWith_append (by simp))
        (fun _ _ => lastGrant_append (by simp))
      · intro m' hm
        rw [hMutex, mutex_setMutex_ne hm]
      · intro t hAt
        rw [hMutex, mutex_setMutex] at hAt
        cases hAt
      · exact fun t ht => (hPriority t).trans (hOthers hOwner t ht)
      · exact fun t prio hOld hRest hCreated =>
          (hPriority t).trans (hRestored.back hPlain hRun hOwner hCount hOld hRest hCreated)
  | hand m c x rest hRun _ hEvent hOwner hCount _ _ hMutex hPriority _ hLabels =>
      rw [hEvent] at hPlain
      rw [hLabels]
      refine hRestored.give (m := m) ?_ ?_ ?_ ?_ (fun _ => createdWith_append (by simp)) ?_
      · intro m' hm
        rw [hMutex, mutex_setMutex_ne hm]
      · intro t hAt
        rw [hMutex, mutex_setMutex] at hAt ⊢
        rw [← Option.some.inj hAt, List.append_cons, List.append_cons, List.append_cons,
          lastGrant_append (by simp), lastGrant_snoc]
        exact if_pos rfl
      · exact fun t ht => (hPriority t).trans (hOthers hOwner t ht)
      · exact fun t prio hOld hRest hCreated =>
          (hPriority t).trans (hRestored.back hPlain hRun hOwner hCount hOld hRest hCreated)
      · exact fun m' hm => lastGrant_append (by simp [hm])

end System

/-- In a run that makes no call on `m` the mutex stays as it is. -/
theorem mutex_untouched {cfg : Config} {idle : TaskId} {s₀ : System} (hInit : s₀.Initial cfg idle)
    {ok : Trace → SysEvent → Prop} {events : List SysEvent} {tr : Trace}
    (run : Transition.RunsIf traceStep ok ⟨s₀, []⟩ events tr) {m : Nat}
    (hEvents : ∀ event ∈ events, event.mutexOf ≠ some m) : tr.sys.mutex m = {} := by
  have hInv : tr.sys.Consistent ∧ tr.sys.mutex m = {} := by
    refine Transition.RunsIf.invariant (run.of_events hEvents)
      (fun tr => tr.sys.Consistent ∧ tr.sys.mutex m = {})
      ⟨System.consistent_init hInit, hInit.mutex m⟩ ?_
    intro tr event tr' h hEvent hStep
    obtain ⟨r, hExec, rfl⟩ := traceStep_some hStep
    exact ⟨System.consistent_step h.1 hExec,
      (System.mutex_elsewhere h.1.toCoherent hExec hEvent).trans h.2⟩
  exact hInv.2

/-- In every run in which no mutex counter overflows and the last mutex a task
gives back was granted to it at the priority it was created with, a task that
holds no mutex has the priority it was created with. -/
theorem priority_restored (cfg : Config) (idle : TaskId) (s₀ : System)
    (hInit : s₀.Initial cfg idle) (events : List SysEvent) (tr : Trace)
    (run : Transition.RunsIf traceStep
      (fun tr event => NestingFits tr.sys event ∧ PlainRelease tr event) ⟨s₀, []⟩ events tr)
    (t : TaskId) (prio : Nat) (hCreated : createdWith tr.past t = some prio)
    (hNone : ∀ m, (tr.sys.mutex m).mutexOwner ≠ some t) : tr.sys.k.priority t = prio := by
  have hInv : tr.sys.Consistent ∧ (∀ m, MutexOk m tr.past (tr.sys.mutex m)) ∧
      Restored tr.sys tr.past := by
    refine Transition.RunsIf.invariant run (fun tr => tr.sys.Consistent ∧
      (∀ m, MutexOk m tr.past (tr.sys.mutex m)) ∧ Restored tr.sys tr.past) ?_ ?_
    · refine ⟨System.consistent_init hInit, ?_, ?_, ?_⟩
      · intro m
        rw [hInit.mutex m]
        exact mutexOk_init m
      · intro m x hOwner
        rw [hInit.mutex m] at hOwner
        cases hOwner
      · intro x p hx
        cases hx
    · intro tr event tr' h hOk hStep
      obtain ⟨r, hExec, rfl⟩ := traceStep_some hStep
      exact ⟨System.consistent_step h.1 hExec,
        System.mutexOk_step h.1.toCoherent hOk.1 h.2.1 hExec,
        System.restored_step h.1.toCoherent h.2.1 hOk.2 h.2.2 hExec⟩
  exact hInv.2.2.plain t prio hCreated hNone

/-- A task that was boosted while it held one mutex gets its priority back. -/
theorem priority_restored_boosted : ∃ tr,
    Transition.RunsIf traceStep (fun tr event => NestingFits tr.sys event ∧ PlainRelease tr event)
      ⟨System.small, []⟩
      ([.create 1 5 5, .create 2 2 5, .start, .switch 1, .call (.mutexPend 0 0), .switch 2,
        .call (.mutexPend 0 100), .switch 1] ++ [.call (.mutexPost 0)]) tr ∧
    tr.sys.k.priority 1 = 5 := by
  let tr₁ := (Transition.execIf traceStep
    (fun tr event => NestingFits tr.sys event ∧ event.isMutexPost = false) ⟨System.small, []⟩
    [.create 1 5 5, .create 2 2 5, .start, .switch 1, .call (.mutexPend 0 0), .switch 2,
      .call (.mutexPend 0 100), .switch 1]).get (by decide +kernel)
  have hBefore : Transition.RunsIf traceStep _ _ _ tr₁ := Transition.runsIf_of_isSome _
  have hPlain := hBefore.mono fun tr event h => And.imp_right (plainRelease_of_not_post tr) h
  have hOk : NestingFits tr₁.sys (.call (.mutexPost 0)) ∧
      PlainRelease tr₁ (.call (.mutexPost 0)) := by
    refine ⟨trivial, ?_⟩
    intro c prio hCurrent _ _ _ hCreated
    have hc : tr₁.sys.k.dosCurrentTask = some 1 := by decide +kernel
    have hOne : 1 = c := Option.some.inj (hc.symm.trans hCurrent)
    subst hOne
    have hFive : createdWith tr₁.past 1 = some 5 := by decide +kernel
    have hPrio : 5 = prio := Option.some.inj (hFive.symm.trans hCreated)
    subst hPrio
    decide +kernel
  have hRun := hPlain.snoc hOk
    (Option.some_get (by decide +kernel : (traceStep tr₁ (.call (.mutexPost 0))).isSome = true)).symm
  refine ⟨_, hRun, ?_⟩
  refine priority_restored shippedConfig 0 System.small System.initial_small _ _ hRun 1 5
    (by decide +kernel) ?_
  intro m
  by_cases hZero : m = 0
  · subst hZero
    decide +kernel
  · rw [mutex_untouched System.initial_small hRun (m := m) (by simp [SysEvent.mutexOf]; omega)]
    simp

/-- Two mutexes released in the order in which they were taken leave their
owner with the priority it had inherited in between. -/
theorem overlapping_mutexes_keep_boost : ∃ tr,
    Transition.Runs traceStep ⟨System.small, []⟩
      [.create 1 5 5, .create 2 2 5, .start, .switch 2, .call (.sleep 1), .switch 1,
        .call (.mutexPend 0 0), .tick, .switch 2, .call (.mutexPend 0 100), .switch 1,
        .call (.mutexPend 1 0), .call (.mutexPost 0), .switch 2, .next, .call (.mutexPost 0),
        .call (.sleep 100), .switch 1, .call (.mutexPost 1)] tr ∧
    createdWith tr.past 1 = some 5 ∧ (∀ m, (tr.sys.mutex m).mutexOwner ≠ some 1) ∧
    tr.sys.k.priority 1 = 2 := by
  have hRun : Transition.Runs traceStep ⟨System.small, []⟩
      [.create 1 5 5, .create 2 2 5, .start, .switch 2, .call (.sleep 1), .switch 1,
        .call (.mutexPend 0 0), .tick, .switch 2, .call (.mutexPend 0 100), .switch 1,
        .call (.mutexPend 1 0), .call (.mutexPost 0), .switch 2, .next, .call (.mutexPost 0),
        .call (.sleep 100), .switch 1, .call (.mutexPost 1)] _ :=
    Transition.runs_of_isSome (by decide +kernel)
  refine ⟨_, hRun, by decide +kernel, ?_, by decide +kernel⟩
  intro m
  by_cases hZero : m = 0
  · subst hZero
    decide +kernel
  · by_cases hOne : m = 1
    · subst hOne
      decide +kernel
    · have hSame := mutex_untouched System.initial_small hRun (m := m)
        (by simp [SysEvent.mutexOf]; omega)
      rw [hSame]
      simp

end DoraOS
