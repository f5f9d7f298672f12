import DoraOS.Ipc.Coherent
import DoraOS.Library.History

/-! Timeouts against posts. A tick sets the timeout flag of a waiter but leaves
it on its pend list until it runs again, so a poster can still select it, and
`dos_event_set` selects a waiter some steps before it wakes it. -/
namespace DoraOS

/-- The end of a wait: a poster selects the waiter, or it gives up. -/
def Label.isOutcome : Label → Bool
  | .granted _ => true
  | .timedOut _ => true
  | _ => false

/-- The task was selected by a poster since its latest wait began. -/
def grantedInWait (past : List Label) (t : TaskId) : Bool :=
  past.foldl (fun granted l => match l with
    | .waiting x _ => if x = t then false else granted
    | .granted x => if x = t then true else granted
    | _ => granted) false

/-- Every wait that failed because of its timeout was granted nothing. -/
def FailedUngranted (past : List Label) : Prop :=
  History.Always (fun before l => ∀ t, l = .timedOut t → grantedInWait before t = false) past

section Record

variable {past ls : List Label} {t : TaskId}

theorem grantedInWait_snoc (l : Label) : grantedInWait (past ++ [l]) t =
    match l with
    | .waiting x _ => if x = t then false else grantedInWait past t
    | .granted x => if x = t then true else grantedInWait past t
    | _ => grantedInWait past t := by
  simp only [grantedInWait, List.foldl_append, List.foldl_cons, List.foldl_nil]

/-- Without a new grant the old one is still that of the same wait. -/
theorem grantedInWait_old (hNone : .granted t ∉ ls) (h : grantedInWait (past ++ ls) t = true) :
    grantedInWait past t = true ∧ ∀ id, .waiting t id ∉ ls := by
  induction ls using List.reverseRecOn with
  | nil => simpa using h
  | append_singleton ls l ih =>
      rw [List.mem_append, not_or] at hNone
      rw [← List.append_assoc, grantedInWait_snoc] at h
      have hLast : l ≠ .granted t := fun he => hNone.2 (by simp [he])
      have hOld : grantedInWait (past ++ ls) t = true ∧ ∀ id, l ≠ .waiting t id := by
        cases l <;> simp_all
      obtain ⟨hPast, hWaits⟩ := ih hNone.1 hOld.1
      refine ⟨hPast, ?_⟩
      intro id hMem
      rcases List.mem_append.mp hMem with hMem | hMem
      · exact hWaits id hMem
      · exact hOld.2 id (List.mem_singleton.mp hMem).symm

theorem failedUngranted_append (h : FailedUngranted past) (hNone : ∀ t, .timedOut t ∉ ls) :
    FailedUngranted (past ++ ls) := by
  refine h.append ?_
  intro l hl before t hEq
  rw [hEq] at hl
  exact absurd hl (hNone t)

end Record

theorem Pc.selects_some {pc : Pc} {t : TaskId} (h : pc.selects = some t) :
    ∃ e value, pc = .setWake e value t := by
  cases pc <;> simp_all [Pc.selects]

/-- The task has not looked for its timeout flag yet. -/
def Pc.inWait : Pc → Bool
  | .wait _ => true
  | _ => false

/-- How a step ends waits, with its labels about that. -/
inductive WaitEffect (s s' : System) (ls : List Label) : Prop where
  | quiet (hLabels : ls.filter Label.isOutcome = [])
  | wake (t : TaskId) (id : PendId) (hOn : t ∈ s.pending id)
      (hView : s'.k.view t = (s.k.view t).woken) (hPc : s'.pc t = s.pc t)
      (hLabels : ls.filter Label.isOutcome = [.granted t])
  | choose (t c : TaskId) (e : Nat) (hOn : t ∈ s.pending (.event e))
      (hView : s'.k.view t = s.k.view t) (hPc : s'.pc t = s.pc t)
      (hAt : (s'.pc c).selects = some t) (hLabels : ls.filter Label.isOutcome = [.granted t])
  | giveUp (c : TaskId) (hPc : ∃ w, s.pc c = .cleanUp w ∨ s.pc c = .unlink w)
      (hLabels : ls = [.timedOut c])

namespace System

open Kernel

variable {s : System} {c : TaskId}

section Effect

theorem not_waiting_of_pending (h : Coherent s) {t : TaskId} {id : PendId} (hOn : t ∈ s.pending id)
    (hPc : (s.pc c).waitsOn = none) : t ≠ c := by
  rintro rfl
  have hOff := (h.ok t).unpended hPc
  exact absurd (hOff.symm.trans ((mem_pending h.sound).mp hOn)) (by simp)

/-- The first waiter is woken. -/
theorem wait_wakeFirst (h : s.k.Sound) {id : PendId} {t : TaskId} {rest : List TaskId}
    (hHead : s.pending id = t :: rest) {s' : System}
    (hKernel : s'.k = s.k.wakeFirst (.pend id) t) (hPc : s'.pc t = s.pc t) {ls : List Label}
    (hLabels : ls.filter Label.isOutcome = [.granted t]) : WaitEffect s s' ls := by
  have hView := (touches_wakeFirst h (.pend id) t).2
  exact WaitEffect.wake t id (by simp [hHead]) (by rw [hKernel, hView]) hPc hLabels

theorem wait_semPost (h : s.k.Sound) {caller : Option TaskId} {i : Nat} {r : System × List Label}
    (hPost : s.SemPosts caller i r) : WaitEffect s r.1 r.2 := by
  cases hPost with
  | wake t rest _ hHead => exact wait_wakeFirst h hHead rfl (by rfl) (by rfl)
  | _ => exact WaitEffect.quiet rfl

theorem wait_queueNow (h : s.k.Sound) {caller : Option TaskId} {q : Nat} {op : QueueOp}
    {buff size : Nat} {r : System × List Label} (hSend : s.QueueNow caller q op buff size r) :
    WaitEffect s r.1 r.2 := by
  cases hSend with
  | wake t rest _ hHead => exact wait_wakeFirst h hHead rfl (by rfl) (by rfl)
  | _ => exact WaitEffect.quiet rfl

/-- A tick whose count overflows. -/
theorem wait_overflow (h : s.k.Sound) {q : Nat} {r : System × List Label}
    (hSend : s.advanced.QueueNow none q .write s.swtmrMsg 8 r) : WaitEffect s r.1.expired r.2 := by
  have hAdvanced := spec_advanced (s.cause .next) h
  have hStill := still_tickAdvance h
  have hExpires := expires_tickTimeouts (spec_queueNow (s.cause .next) hAdvanced.sound hSend).sound
  have hAll := hExpires.trans (still_scheduler hExpires.sound).expires
  cases hSend with
  | wake t rest _ hHead =>
      have hOn : t ∈ s.advanced.pending (.queue q QueueOp.write.other) := by simp [hHead]
      have hView := (touches_wakeFirst hAdvanced.sound (.pend (.queue q .read)) t).2
      have hWas : t ∈ s.pending (.queue q .read) := by
        rw [mem_pending h, ← hStill.view t]
        exact (mem_pending hAdvanced.sound).mp hOn
      refine WaitEffect.wake t _ hWas ?_ rfl rfl
      -- a waiter that the overflow message has woken no longer sleeps
      rcases hAll.task t with hSame | ⟨hSleep, _⟩
      · exact (hSame.trans hView).trans (congrArg TaskView.woken (hStill.view t))
      · exact absurd (hView ▸ hSleep) (TaskView.not_sleeping_woken _)
  | _ => exact WaitEffect.quiet rfl

theorem wait_call (h : Coherent s) (hUser : s.pc c = .user) {a : Call} {r : System × List Label}
    (hCall : s.Calls c a r) : WaitEffect s r.1 r.2 := by
  cases hCall with
  | semPost i hPost => exact wait_semPost h.sound hPost
  | mutexHand m t rest _ _ hHead =>
      have hBack := spec_restorePriority (s.cause .next) h.sound c (s.mutex m).mutexPriority
      have hView := (touches_wakeFirst hBack.sound (.pend (.mutex m)) t).2
      rw [released, pending_restore h.sound] at hHead
      have hOn : t ∈ s.pending (.mutex m) := by simp [hHead]
      have hOther : t ≠ c := not_waiting_of_pending h hOn (by rw [hUser]; rfl)
      exact WaitEffect.wake t (.mutex m) hOn
        (hView.trans (congrArg TaskView.woken (view_restore h.sound _ hOther))) rfl rfl
  | _ => exact WaitEffect.quiet rfl

theorem wait_resume (h : Coherent s) {pc : Pc} (hPc : s.pc c = pc) {r : System × List Label}
    (hNext : s.Resumes c pc r) : WaitEffect s r.1 r.2 := by
  cases hNext with
  | cleanUpEvent w | cleanUp w => exact WaitEffect.giveUp c ⟨w, Or.inl hPc⟩ rfl
  | unlink w => exact WaitEffect.giveUp c ⟨w, Or.inr hPc⟩ rfl
  | woken q op t rest hHead =>
      have hOn : t ∈ s.pending (.queue q op.other) := by simp [hHead]
      have hOther := not_waiting_of_pending h hOn (by rw [hPc]; rfl)
      exact wait_wakeFirst h.sound hHead rfl (by simp [setPc, setKernel, hOther]) (by rfl)
  | setSelect e value t event hNext =>
      have hOn : t ∈ s.pending (.event e) := TaskLists.next_result_mem hNext
      have hOther := not_waiting_of_pending h hOn (by rw [hPc]; rfl)
      refine WaitEffect.choose t c e hOn ((still_select h.sound e t).view t) ?_ ?_ rfl
      · simp [setPc, setKernel, setEvent, hOther]
      · simp [setPc, Pc.selects]
  | _ => exact WaitEffect.quiet rfl

/-- Everything a step does to end waits. -/
theorem wait_exec (h : Coherent s) {event : SysEvent} {r : System × List Label}
    (hStep : s.exec event = some r) : WaitEffect s r.1 r.2 := by
  cases steps_of_exec hStep with
  | overflow q sent hQueue hSend => exact wait_overflow h.sound hSend
  | isrSemPost i hPost => exact wait_semPost h.sound hPost
  | isrQueue q op buff size hSend => exact wait_queueNow h.sound hSend
  | call c a hRun hUser hCall => exact wait_call h hUser hCall
  | next c hRun hPc hNext => exact wait_resume h hPc hNext
  | _ => exact WaitEffect.quiet rfl

end Effect

/-- A waiter that was selected cannot find its timeout flag set: the flag is
clear, and only the wake of `dos_event_set` can still be missing. -/
structure Safe (s : System) (t : TaskId) : Prop where
  alloc : (s.k.view t).alloc = true
  inside : ∀ w, s.pc t ≠ .cleanUp w ∧ s.pc t ≠ .unlink w
  clear : ∀ w, s.pc t = .wait w → s.k.is t .timeout = false
  awake : ∀ w, s.pc t = .wait w → (s.k.view t).Sleeping → s.Selected t

end System

section Local

variable {why : Cause} {t : TaskId} {a b : TaskAt} {ls : List Label}

/-- Only a blocking call brings a task into a wait. -/
theorem TaskPath.began (path : TaskPath why t a ls b) {w : Wait} (hPc : b.pc = .wait w) :
    a.pc = .wait w ∨ .waiting t w.pendId ∈ ls := by
  induction path with
  | nil => exact Or.inl hPc
  | snoc prior step ih =>
      cases step with
      | move hFrom hTo =>
          have hw : (Pc.wait w).waitsOn = none := hPc ▸ hTo
          cases hw
      | block w' hAlloc hBlocked =>
          have hw : w' = w := by simpa using hPc
          right
          simp [hw]
      | resume hReady hTimeout hTo =>
          have hw : (Pc.wait w).waitsOn = none := hPc ▸ hTo
          cases hw
      | giveUp hTimeout => cases hPc
      | cleanUp hAlloc => cases hPc
      | reset hAlloc => cases hPc
      | unlink => cases hPc
      | _ => exact (ih hPc).imp_right (List.mem_append_left _)

/-- A waiter whose flag is clear, and which is awake where `due`. -/
def TaskAt.Awake (due : Prop) (a : TaskAt) : Prop :=
  a.view.alloc = true ∧ (a.pc.waitsOn = none ∨ (∃ w, a.pc = .wait w) ∧
    Flag.test a.view.status .timeout = false ∧ (due → ¬a.view.Sleeping))

/-- Until its next wait, a waiter that is awake when its time is up cannot time
out. -/
theorem TaskPath.awake (path : TaskPath why t a ls b) (hNone : ∀ id, .waiting t id ∉ ls)
    {due : Prop} (hWhy : why.due → due) (h : a.Awake due) : b.Awake due := by
  induction path with
  | nil => exact h
  | snoc prior step ih =>
      obtain ⟨hAlloc, hWas⟩ := ih fun id hMem => hNone id (List.mem_append_left _ hMem)
      cases step with
      | move hFrom hTo => exact ⟨hAlloc, Or.inl hTo⟩
      | create hFree hNew hPend =>
          have hSet : _ = true := hAlloc
          exact absurd (hFree.symm.trans hSet) (by simp)
      | priority prio =>
          refine ⟨by simpa using hAlloc, hWas.imp_right ?_⟩
          rintro ⟨hWait, hClear, hSleep⟩
          exact ⟨hWait, by simpa using hClear,
            fun hDue hs => hSleep hDue (TaskView.sleeping_withPriority hs)⟩
      | sleep hPc _ hDozes => exact ⟨hDozes.alloc.trans hAlloc, Or.inl hPc⟩
      | expire hDue hSleep =>
          refine ⟨hAlloc, Or.inl (hWas.resolve_right ?_)⟩
          rintro ⟨_, _, hAwake⟩
          exact hAwake (hWhy hDue) hSleep
      | wake _ _ | grant _ _ =>
          refine ⟨hAlloc, hWas.imp_right ?_⟩
          rintro ⟨hWait, hClear, _⟩
          exact ⟨hWait, by simpa using hClear, fun _ => TaskView.not_sleeping_woken _⟩
      | select _ => exact ⟨hAlloc, hWas⟩
      | block w _ _ => exact absurd (List.mem_append_right _ (List.mem_singleton_self _)) (hNone _)
      | resume _ _ hTo => exact ⟨hAlloc, Or.inl hTo⟩
      | giveUp hTimeout =>
          rcases hWas with hOff | ⟨_, hClear, _⟩
          · cases hOff
          · exact absurd (hClear.symm.trans hTimeout) (by simp)
      | cleanUp _ => exact ⟨hAlloc, Or.inl rfl⟩
      | reset _ =>
          rcases hWas with hOff | ⟨⟨w, hWait⟩, _, _⟩
          · cases hOff
          · cases hWait
      | unlink => exact ⟨hAlloc, Or.inl rfl⟩

end Local

/-- A waiter has neither expired nor begun its clean-up. -/
def System.InTime (s : System) (t : TaskId) : Prop :=
  s.k.is t .timeout = false ∧ (s.pc t).inWait = true

instance (s : System) (t : TaskId) : Decidable (s.InTime t) := inferInstanceAs (Decidable (_ ∧ _))

/-- The waiter that the step selects, if any, is in time. -/
def SelectsInTime (s : System) (event : SysEvent) : Prop := ∀ t ∈ s.picks event, s.InTime t

instance (s : System) (event : SysEvent) : Decidable (SelectsInTime s event) :=
  inferInstanceAs (Decidable (∀ t ∈ s.picks event, s.InTime t))

/-- The step is no tick that is due for a task which `dos_event_set` has selected
but has not woken yet. -/
def WakesInTime (s : System) (event : SysEvent) : Prop :=
  event = .tick → ∀ t, s.Selected t → ¬s.advanced.k.Due t

namespace System

variable {s : System} {event : SysEvent} {t : TaskId} {r : System × List Label}

/-- A waiter whose flag is clear does not enter its clean-up. -/
theorem inside_step (hStep : s.exec event = some r)
    (hInside : ∀ w, s.pc t ≠ .cleanUp w ∧ s.pc t ≠ .unlink w)
    (hClear : ∀ w, s.pc t = .wait w → s.k.is t .timeout = false) (w : Wait) :
    r.1.pc t ≠ .cleanUp w ∧ r.1.pc t ≠ .unlink w := by
  rcases exec_pc hStep t with hSame | ⟨_, ⟨_, hEntry⟩ | ⟨-, hNext⟩⟩
  · rw [hSame]
    exact hInside w
  · constructor
    · intro hAt
      rw [hAt] at hEntry
      cases hEntry
    · intro hAt
      rw [hAt] at hEntry
      cases hEntry
  · generalize hPc : s.pc t = pc at hNext
    cases hNext with
    | giveUp w' hTimeout => exact absurd ((hClear w' hPc).symm.trans hTimeout) (by simp)
    | reset w' => exact absurd hPc (hInside w').1
    | _ => simp [setPc]

/-- A selected task stays selected until it is woken. -/
theorem selected_step (h : Coherent s) (hStep : s.exec event = some r) (hSelected : s.Selected t) :
    r.1.Selected t ∨ ¬(r.1.k.view t).Sleeping := by
  obtain ⟨c, hSelects⟩ := hSelected
  rcases exec_pc hStep c with hSame | ⟨_, hMoves⟩
  · exact Or.inl ⟨c, by rw [hSame, hSelects]⟩
  · obtain ⟨e, value, hPc⟩ := Pc.selects_some hSelects
    rw [hPc] at hMoves
    rcases hMoves with ⟨hUser, _⟩ | ⟨-, hNext⟩
    · cases hUser
    · right
      have hWake := Kernel.touches_wake h.sound t
      have hView := ((Kernel.still_scheduler hWake.sound).view t).trans (Kernel.view_wake_eq s.k t)
      cases hNext
      show ¬((s.k.dosTaskWake t).dosScheduler.view t).Sleeping
      rw [hView]
      exact TaskView.not_sleeping_woken _

/-- What a step does to a waiter that was selected before. -/
theorem safe_step (h : Consistent s) (hWakes : WakesInTime s event) (hStep : s.exec event = some r)
    (hSafe : Safe s t) (hNone : ∀ id, .waiting t id ∉ r.2) : Safe r.1 t := by
  have hPath := (spec_exec h.toCoherent h.chosen hStep).task t
  have hNoWait (id : PendId) : .waiting t id ∉ r.2.filter (Label.about t) :=
    fun hMem => hNone id (List.mem_of_mem_filter hMem)
  have hWas {w : Wait} (hPc : r.1.pc t = .wait w) : s.pc t = .wait w :=
    (hPath.began hPc).resolve_right (hNoWait _)
  have hStill {due : Prop} (hDue : (s.cause event t).due → due) (hNot : due → ¬s.Selected t)
      {w : Wait} (hPc : r.1.pc t = .wait w) :
      r.1.k.is t .timeout = false ∧ (due → ¬(r.1.k.view t).Sleeping) := by
    have hAwake : (s.task t).Awake due := ⟨hSafe.alloc, Or.inr ⟨⟨w, hWas hPc⟩,
      hSafe.clear w (hWas hPc), fun hd hSleep => hNot hd (hSafe.awake w (hWas hPc) hSleep)⟩⟩
    rcases (hPath.awake hNoWait hDue hAwake).2 with hOff | ⟨_, hClear⟩
    · have hOn : (r.1.task t).pc.waitsOn = some w := by
        show (r.1.pc t).waitsOn = some w
        rw [hPc]
        rfl
      exact absurd (hOff.symm.trans hOn) (by simp)
    · exact hClear
  refine ⟨hPath.alloc hSafe.alloc, inside_step hStep hSafe.inside hSafe.clear, ?_, ?_⟩
  · intro w hPc
    exact (hStill id (fun hd hSelected => hWakes hd.1 t hSelected hd.2) hPc).1
  · intro w hPc hSleep
    by_cases hSelected : s.Selected t
    · exact (selected_step h.toCoherent hStep hSelected).resolve_right (not_not_intro hSleep)
    · exact absurd hSleep ((hStill (fun _ => trivial) (fun _ => hSelected) hPc).2 trivial)

/-- A waiter in a wait that has not expired has not begun its clean-up. -/
theorem InTime.inside (hInTime : s.InTime t) {pc : Pc} (hPc : pc = s.pc t) (w : Wait) :
    pc ≠ .cleanUp w ∧ pc ≠ .unlink w := by
  have hWait : (s.pc t).inWait = true := hInTime.2
  rw [← hPc] at hWait
  constructor
  · rintro rfl
    cases hWait
  · rintro rfl
    cases hWait

/-- Being selected in time makes a waiter safe. -/
theorem safe_of_woken {s' : System} (h : Coherent s) {id : PendId} (hOn : t ∈ s.pending id)
    (hView : s'.k.view t = (s.k.view t).woken) (hPc : s'.pc t = s.pc t)
    (hInTime : s.InTime t) : Safe s' t where
  alloc := by
    rw [hView]
    exact (h.ok t).alloc ((mem_pending h.sound).mp hOn)
  inside := InTime.inside hInTime hPc
  clear w _ := by
    show Flag.test (s'.k.view t).status .timeout = false
    have hBefore : Flag.test (s.k.view t).status .timeout = false := hInTime.1
    simp [hView, hBefore]
  awake w _ hSleep := by
    rw [hView] at hSleep
    exact absurd hSleep (TaskView.not_sleeping_woken _)

theorem safe_of_chosen {s' : System} (h : Coherent s) {id : PendId} (hOn : t ∈ s.pending id)
    (hView : s'.k.view t = s.k.view t) (hPc : s'.pc t = s.pc t) (hSelected : s'.Selected t)
    (hInTime : s.InTime t) : Safe s' t where
  alloc := by
    rw [hView]
    exact (h.ok t).alloc ((mem_pending h.sound).mp hOn)
  inside := InTime.inside hInTime hPc
  clear w _ := by
    show Flag.test (s'.k.view t).status .timeout = false
    rw [hView]
    exact hInTime.1
  awake w _ _ := hSelected

/-- Every waiter that was selected since its wait began is safe, and no wait
has failed after a selection. -/
structure Granted (s : System) (past : List Label) : Prop where
  safe : ∀ t, grantedInWait past t = true → Safe s t
  failed : FailedUngranted past

theorem granted_step (h : Consistent s) {past : List Label} (hSelects : SelectsInTime s event)
    (hWakes : WakesInTime s event) (hGranted : Granted s past) (hStep : s.exec event = some r) :
    Granted r.1 (past ++ r.2) := by
  have hOutcome {l : Label} (hl : l.isOutcome = true) {ls : List Label}
      (hLabels : r.2.filter Label.isOutcome = ls) : l ∈ r.2 ↔ l ∈ ls := by
    rw [← hLabels, List.mem_filter]
    simp [hl]
  have hOld {t : TaskId} (hNone : .granted t ∉ r.2)
      (hSet : grantedInWait (past ++ r.2) t = true) : Safe r.1 t := by
    obtain ⟨hBefore, hWaits⟩ := grantedInWait_old hNone hSet
    exact safe_step h hWakes hStep (hGranted.safe t hBefore) hWaits
  have hKeep (hNone : ∀ t, .timedOut t ∉ r.2) : FailedUngranted (past ++ r.2) :=
    failedUngranted_append hGranted.failed hNone
  have hNew {x : TaskId} (hLabels : r.2.filter Label.isOutcome = [.granted x])
      (hSafe : s.InTime x → Safe r.1 x) : Granted r.1 (past ++ r.2) := by
    have hMem : .granted x ∈ r.2 := (hOutcome rfl hLabels).mpr (by simp)
    refine ⟨?_, hKeep fun t => ?_⟩
    · intro t hSet
      by_cases hx : t = x
      · subst hx
        exact hSafe (hSelects t (granted_picks h.sound hStep hMem))
      · refine hOld ?_ hSet
        rw [hOutcome rfl hLabels]
        simp [hx]
    · rw [hOutcome rfl hLabels]
      simp
  cases wait_exec h.toCoherent hStep with
  | quiet hLabels =>
      refine ⟨fun t hSet => hOld ?_ hSet, hKeep fun t => ?_⟩
      · rw [hOutcome rfl hLabels]
        simp
      · rw [hOutcome rfl hLabels]
        simp
  | wake x id hOn hView hPc hLabels =>
      exact hNew hLabels (safe_of_woken h.toCoherent hOn hView hPc)
  | choose x c e hOn hView hPc hAt hLabels =>
      exact hNew hLabels (safe_of_chosen h.toCoherent hOn hView hPc ⟨c, hAt⟩)
  | giveUp c hAt hLabels =>
      refine ⟨fun t hSet => hOld (by simp [hLabels]) hSet, ?_⟩
      rw [hLabels]
      refine hGranted.failed.snoc ?_
      intro t ht
      have hc : c = t := by simpa using ht
      subst hc
      by_contra hSet
      obtain ⟨w, hClean | hUnlink⟩ := hAt
      · exact ((hGranted.safe c (by simpa using hSet)).inside w).1 hClean
      · exact ((hGranted.safe c (by simpa using hSet)).inside w).2 hUnlink

end System

/-- In every run in which posters select waiters only while their waits have
not expired, and no tick comes between the selection and the wake of
`dos_event_set` to time out the selected task, a wait that fails because of its
timeout was granted nothing. -/
theorem failed_wait_was_granted_nothing (cfg : Config) (idle : TaskId) (s₀ : System)
    (hInit : s₀.Initial cfg idle) (events : List SysEvent) (tr : Trace)
    (run : Transition.RunsIf traceStep
      (fun tr event => SelectsInTime tr.sys event ∧ WakesInTime tr.sys event)
      ⟨s₀, []⟩ events tr) : FailedUngranted tr.past := by
  have hInv : tr.sys.Consistent ∧ tr.sys.Granted tr.past := by
    refine Transition.RunsIf.invariant run
      (fun tr => tr.sys.Consistent ∧ tr.sys.Granted tr.past) ?_ ?_
    · refine ⟨System.consistent_init hInit, ?_, History.always_nil⟩
      intro t hSet
      cases hSet
    · intro tr event tr' h hOk hStep
      obtain ⟨r, hExec, rfl⟩ := traceStep_some hStep
      exact ⟨System.consistent_step h.1 hExec, System.granted_step h.1 hOk.1 hOk.2 h.2 hExec⟩
  exact hInv.2.failed

/-- A run of a few tasks that never select anybody by `dos_event_set` has no
tick in the wrong place. -/
theorem wakesInTime_of_tasks {cfg : Config} {idle : TaskId} {s₀ : System}
    (hInit : s₀.Initial cfg idle) (tasks : List TaskId) {events : List SysEvent} {tr : Trace}
    (run : Transition.RunsIf traceStep (fun tr event =>
      (SelectsInTime tr.sys event ∧ ∀ x ∈ tasks, (tr.sys.pc x).selects = none) ∧
      ∀ x ∈ tr.sys.k.dosCurrentTask, tr.sys.Running x → x ∈ tasks) ⟨s₀, []⟩ events tr) :
    Transition.RunsIf traceStep
      (fun tr event => SelectsInTime tr.sys event ∧ WakesInTime tr.sys event) ⟨s₀, []⟩ events tr := by
  refine runsIf_of_tasks hInit tasks run ?_
  intro tr event hUser hOk
  refine ⟨hOk.1, ?_⟩
  rintro - t ⟨c, hSelects⟩
  by_cases hc : c ∈ tasks
  · rw [hOk.2 c hc] at hSelects
    cases hSelects
  · rw [hUser c hc] at hSelects
    cases hSelects

/-- A first wait that times out and a second one that is granted. -/
theorem failed_wait_was_granted_nothing_retry : ∃ tr,
    Transition.RunsIf traceStep
      (fun tr event => SelectsInTime tr.sys event ∧ WakesInTime tr.sys event) ⟨System.small, []⟩
      [.create 1 5 5, .create 2 3 5, .start, .switch 2, .call (.sleep 3), .switch 1,
        .call (.semPend 0 1), .switch 0, .tick, .switch 1, .next, .next, .call (.semPend 0 100),
        .switch 0, .tick, .tick, .switch 2, .call (.semPost 0), .call (.sleep 100), .switch 1,
        .next] tr ∧
    .timedOut 1 ∈ tr.past ∧ .granted 1 ∈ tr.past ∧ FailedUngranted tr.past := by
  have hRun : Transition.RunsIf traceStep
      (fun tr event => SelectsInTime tr.sys event ∧ WakesInTime tr.sys event) ⟨System.small, []⟩
      [.create 1 5 5, .create 2 3 5, .start, .switch 2, .call (.sleep 3), .switch 1,
        .call (.semPend 0 1), .switch 0, .tick, .switch 1, .next, .next, .call (.semPend 0 100),
        .switch 0, .tick, .tick, .switch 2, .call (.semPost 0), .call (.sleep 100), .switch 1,
        .next] _ :=
    wakesInTime_of_tasks System.initial_small [1, 2]
      (Transition.runsIf_of_isSome (by decide +kernel))
  exact ⟨_, hRun, by decide +kernel, by decide +kernel,
    failed_wait_was_granted_nothing shippedConfig 0 System.small System.initial_small _ _ hRun⟩

/-- A post between the tick that times a waiter out and the waiter's return
gives its token to a wait that fails. -/
theorem expired_waiter_takes_token : ∃ tr before,
    Transition.Runs traceStep ⟨System.small, []⟩
      [.create 1 5 5, .create 2 3 5, .start, .switch 2, .call (.sleep 1), .switch 1,
        .call (.semPend 0 1), .switch 0, .tick, .switch 2, .call (.semPost 0), .call (.sleep 100),
        .switch 1, .next, .next] tr ∧
    tr.past = before ++ [.timedOut 1] ∧ grantedInWait before 1 = true ∧
    (tr.sys.sem 0).semCount = 0 := by
  have hRun : Transition.Runs traceStep ⟨System.small, []⟩
      [.create 1 5 5, .create 2 3 5, .start, .switch 2, .call (.sleep 1), .switch 1,
        .call (.semPend 0 1), .switch 0, .tick, .switch 2, .call (.semPost 0), .call (.sleep 100),
        .switch 1, .next, .next] _ :=
    Transition.runs_of_isSome (by decide +kernel)
  exact ⟨_, [.created 1 5, .created 2 3, .waiting 1 (.sem 0), .granted 1, .returned (some 2) .ok],
    hRun, by decide +kernel, by decide +kernel, by decide +kernel⟩

end DoraOS
