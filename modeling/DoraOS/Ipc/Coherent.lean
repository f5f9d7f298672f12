import DoraOS.Ipc.TaskStep

/-! Every step of the system is a local path for every task, and keeps the
lists linked. The invariant of single tasks therefore holds along every run,
whatever the order of the steps. -/
namespace DoraOS

/-- The task that `dos_event_set` is about to wake. -/
def Pc.selects : Pc → Option TaskId
  | .setWake _ _ t => some t
  | _ => none

/-- `dos_event_set` has selected the task and is about to wake it. -/
def System.Selected (s : System) (t : TaskId) : Prop := ∃ c, (s.pc c).selects = some t

namespace System

variable (s : System)

/-- The task that a step wakes for `dos_event_set`. -/
def wakes : SysEvent → Option TaskId
  | .next => s.k.dosCurrentTask.bind fun c => (s.pc c).selects
  | _ => none

/-- What a step does to a task from outside. -/
def cause (event : SysEvent) (t : TaskId) : Cause where
  woken := s.wakes event = some t
  due := event = .tick ∧ s.advanced.k.Due t

/-- The waiter that `_dos_queue_handler` wakes if nothing comes between its
sections. -/
def queuePick (q : Nat) (op : QueueOp) (buff size : Nat) : Option TaskId :=
  if (buff = 0 ∨ size = 0) ∨ (s.queue q).queueRwCount op = 0 then none
  else (s.pending (.queue q op.other)).head?

/-- The waiter that a poster selects from the point it has reached. -/
def pickAt : Pc → Option TaskId
  | .wake q op => (s.pending (.queue q op.other)).head?
  | .setLoop e (_ + 1) => (s.k.lists.dosGetNextTask (.pend (.event e))).2.filter fun t =>
      ((s.event e).dosCheckEvent (s.k.tcb t).waitEvent (s.k.tcb t).waitEventOpt).2
  | _ => none

/-- The waiter that a step selects. -/
def picks : SysEvent → Option TaskId
  | .call (.semPost i) | .isrSemPost i =>
      if (s.sem i).semCount = (s.sem i).semMaxCount then none else (s.pending (.sem i)).head?
  | .call (.mutexPost m) =>
      if (s.mutex m).mutexOwner = s.k.dosCurrentTask ∧ (s.mutex m).mutexCount = 1 then
        (s.pending (.mutex m)).head?
      else none
  | .isrQueue q op buff size => s.queuePick q op buff size
  | .tick =>
      if s.advanced.k.dosTickCount = 0 then
        s.swtmrQueue.bind fun q => s.advanced.queuePick q .write s.swtmrMsg 8
      else none
  | .next => s.k.dosCurrentTask.bind fun c => s.pickAt (s.pc c)
  | _ => none

end System

/-- A step from `s` to `s'` with the labels `ls`, seen from every task. -/
structure StepSpec (why : TaskId → Cause) (s s' : System) (ls : List Label) : Prop where
  sound : s'.k.Sound
  task : ∀ t, TaskPath (why t) t (s.task t) (ls.filter (Label.about t)) (s'.task t)

/-- The lists are linked and every task meets its invariant. -/
structure Coherent (s : System) : Prop where
  sound : s.k.Sound
  ok : ∀ t, (s.task t).Ok

namespace StepSpec

variable {why : TaskId → Cause} {s s₁ s' : System} {ls ls' : List Label} {t c : TaskId} {k' : Kernel}
  {pc : Pc}

theorem coherent (spec : StepSpec why s s' ls) (h : Coherent s) : Coherent s' :=
  ⟨spec.sound, fun t => (spec.task t).ok (h.ok t)⟩

theorem trans (first : StepSpec why s s₁ ls) (second : StepSpec why s₁ s' ls') :
    StepSpec why s s' (ls ++ ls') where
  sound := second.sound
  task t := by
    rw [List.filter_append]
    exact (first.task t).trans (second.task t)

/-- The objects, the memory and the other labels play no part. -/
theorem congr (spec : StepSpec why s s₁ ls) (hKernel : s'.k = s₁.k) (hPc : s'.pc = s₁.pc)
    (hLabels : ∀ t, ls'.filter (Label.about t) = ls.filter (Label.about t)) :
    StepSpec why s s' ls' where
  sound := by
    rw [hKernel]
    exact spec.sound
  task t := by
    have hTask : s'.task t = s₁.task t := by simp only [System.task, hKernel, hPc]
    rw [hTask, hLabels]
    exact spec.task t

theorem of_still (h : Kernel.Still s.k k') : StepSpec why s (s.setKernel k') [] where
  sound := h.sound
  task t := by
    have hTask : (s.setKernel k').task t = s.task t := by
      simp only [System.task, System.setKernel, h.view t]
    rw [hTask]
    exact TaskPath.nil _

/-- A step that changes objects only. -/
theorem of_objects (h : s.k.Sound) (hKernel : s'.k = s.k) (hPc : s'.pc = s.pc)
    (hLabels : ∀ t, ls.filter (Label.about t) = []) : StepSpec why s s' ls :=
  (of_still (Kernel.still_refl h)).congr hKernel hPc hLabels

theorem refl (h : s.k.Sound) : StepSpec why s s [] := of_objects h rfl rfl (fun _ => rfl)

/-- A step of one task. -/
theorem of_task (hSound : s'.k.Sound) (hOther : ∀ x, x ≠ t → s'.task x = s.task x)
    (step : TaskStep (why t) t (s.task t) ls (s'.task t)) : StepSpec why s s' ls where
  sound := hSound
  task x := by
    by_cases hx : x = t
    · subst hx
      have hAll : ls.filter (Label.about x) = ls := by
        rw [List.filter_eq_self]
        intro l hl
        simp [step.labels l hl x]
      rw [hAll]
      exact TaskPath.single step
    · have hNone : ls.filter (Label.about x) = [] := by
        rw [List.filter_eq_nil_iff]
        intro l hl
        simp [step.labels l hl x, Ne.symm hx]
      rw [hNone, hOther x hx]
      exact TaskPath.nil _

theorem of_touches (h : Kernel.Touches t s.k k')
    (step : TaskStep (why t) t (s.task t) ls ⟨k'.view t, s.pc t⟩) :
    StepSpec why s (s.setKernel k') ls := by
  refine of_task (t := t) h.sound ?_ step
  intro x hx
  simp only [System.task, System.setKernel, h.view x hx]

/-- A step of a task that changes its control block and its point. -/
theorem of_own (h : Kernel.Touches c s.k k')
    (step : TaskStep (why c) c (s.task c) ls ⟨k'.view c, pc⟩) :
    StepSpec why s ((s.setKernel k').setPc c pc) ls := by
  refine of_task (t := c) h.sound ?_ ?_
  · intro x hx
    simp [System.task, System.setKernel, System.setPc, h.view x hx, hx]
  · simpa [System.task, System.setKernel, System.setPc] using step

theorem of_setPc (h : s.k.Sound) (step : TaskStep (why c) c (s.task c) ls ⟨s.k.view c, pc⟩) :
    StepSpec why s (s.setPc c pc) ls := by
  refine of_task (t := c) h ?_ ?_
  · intro x hx
    simp [System.task, System.setPc, hx]
  · simpa [System.task, System.setPc] using step

end StepSpec

theorem Coherent.still {s : System} (h : Coherent s) {k' : Kernel} (hStill : Kernel.Still s.k k') :
    Coherent (s.setKernel k') := by
  have hSpec : StepSpec (s.cause .next) s (s.setKernel k') [] := StepSpec.of_still hStill
  exact hSpec.coherent h

/-- The points at which a call leaves its first section. -/
def Pc.isEntry : Pc → Bool
  | .wait _ => true
  | .copy _ _ _ _ => true
  | .setTest _ => true
  | _ => false

namespace System

open Kernel

variable {s : System} {c : TaskId} {why : TaskId → Cause}

theorem Running.alloc (hRun : s.Running c) : (s.k.view c).alloc = true := hRun.2.2.1.1

theorem Running.idle (hRun : s.Running c) : s.k.dosIdleTask ≠ some c := hRun.2.2.2.2

theorem Running.ready (hRun : s.Running c) : Flag.test (s.k.view c).status .ready = true :=
  hRun.2.2.2.1

theorem spec_block (h : Coherent s) (hAlloc : (s.k.view c).alloc = true)
    (hIdle : s.k.dosIdleTask ≠ some c) (hUser : s.pc c = .user) (w : Wait) (timeout : Nat) :
    StepSpec why s (s.block c w timeout).1 (s.block c w timeout).2 := by
  have hFree : (s.k.view c).pendOwner = none :=
    (h.ok c).unpended (by simp [task, hUser, Pc.waitsOn])
  have hWait := touches_wait h.sound c w.pendId timeout hFree
  have hStill := still_scheduler hWait.sound
  have hBlocked := blocked_wait h.sound hIdle w.pendId timeout
  rw [← hStill.view c] at hBlocked
  have hTask : s.task c = ⟨s.k.view c, .user⟩ := by simp only [task, hUser]
  refine StepSpec.of_own (hWait.trans_still hStill) ?_
  rw [hTask]
  exact TaskStep.block w hAlloc hBlocked

theorem mem_pending (h : s.k.Sound) {id : PendId} {t : TaskId} :
    t ∈ s.pending id ↔ (s.k.view t).pendOwner = some (.pend id) :=
  h.linked.mem_iff (.pend id) t

theorem touches_wakeFirst (h : s.k.Sound) (l : ListId) (t : TaskId) :
    Touches t s.k (s.k.wakeFirst l t) ∧ (s.k.wakeFirst l t).view t = (s.k.view t).woken := by
  have hFirst := still_first h l
  have hWake := touches_wake hFirst.sound t
  have hStill := still_scheduler hWake.sound
  refine ⟨⟨hStill.sound, ?_, ?_⟩, ?_⟩
  · intro x hx
    exact ((hStill.view x).trans (hWake.view x hx)).trans (hFirst.view x)
  · intro x
    exact ((hStill.key x).trans (hWake.key x)).trans (hFirst.key x)
  · exact (hStill.view t).trans (view_wake_eq _ t)

theorem selected_of_wakes {event : SysEvent} {t : TaskId} (h : s.wakes event = some t) :
    s.Selected t := by
  cases event with
  | next =>
      obtain ⟨c, -, hSelects⟩ := Option.bind_eq_some_iff.mp h
      exact ⟨c, hSelects⟩
  | _ => cases h

theorem due_wakeFirst (h : s.k.Sound) {l : ListId} {t x : TaskId}
    (hDue : (s.k.wakeFirst l x).Due t) : s.k.Due t := by
  have hOnly := onlyTask_wake (s.k.dosGetFirstTask l).1 x
  have hSame := sameTasks_scheduler ((s.k.dosGetFirstTask l).1.dosTaskWake x)
  have hStatics : (s.k.wakeFirst l x).statics = s.k.statics := hSame.statics.trans hOnly.statics
  have hLists : (s.k.wakeFirst l x).lists = _ := hSame.lists
  have hNext : (s.k.wakeFirst l x).dosNextWakeTick = s.k.dosNextWakeTick := hSame.dosNextWakeTick
  have hTick : (s.k.wakeFirst l x).dosTickCount = _ := congrArg Statics.dosTickCount hStatics
  have hList : (s.k.wakeFirst l x).dosTaskSleepList = _ :=
    congrArg Statics.dosTaskSleepList hStatics
  have hOther : t ≠ x := by
    rintro rfl
    obtain ⟨hTouches, hView⟩ := touches_wakeFirst h l t
    have hSleep := hTouches.sound.sleeping hDue.2.1
    rw [hView] at hSleep
    exact TaskView.not_sleeping_woken _ hSleep
  rw [Kernel.Due, hNext, hTick, hList, hLists, hOnly.owner .status t hOther,
    hOnly.value .status t hOther] at hDue
  exact hDue

theorem spec_wakeFirst (h : s.k.Sound) {id : PendId} {t : TaskId} {rest : List TaskId}
    (hHead : s.pending id = t :: rest) (hOther : ∀ e, id ≠ .event e) :
    StepSpec why s (s.setKernel (s.k.wakeFirst (.pend id) t)) [.granted t] := by
  obtain ⟨hTouch, hView⟩ := touches_wakeFirst h (.pend id) t
  have hOn := (mem_pending h).mp (hHead ▸ List.mem_cons_self : t ∈ s.pending id)
  refine StepSpec.of_touches hTouch ?_
  rw [hView]
  exact TaskStep.grant hOn hOther

theorem spec_priority (h : s.k.Sound) (t : TaskId) (prio : Nat) :
    StepSpec why s (s.setKernel (s.k.dosSetTaskPriority t prio)) [] := by
  refine StepSpec.of_touches (touches_setPriority h t prio) ?_
  rw [view_setPriority_eq]
  exact TaskStep.priority prio

theorem spec_semPost (h : s.k.Sound) {caller : Option TaskId} {i : Nat} {r : System × List Label}
    (hPost : s.SemPosts caller i r) : StepSpec why s r.1 r.2 := by
  cases hPost with
  | wake t rest _ hHead =>
      exact (spec_wakeFirst h hHead (by simp)).congr rfl rfl
        (fun _ => by simp [List.filter_cons, Label.about])
  | _ => exact StepSpec.of_objects h rfl rfl (fun _ => rfl)

theorem spec_inherit (why : TaskId → Cause) (h : s.k.Sound) (c : TaskId) (m : Nat) :
    StepSpec why s (s.inherit c m) [] := by
  unfold inherit
  split
  · split
    · exact spec_priority h _ _
    · exact StepSpec.refl h
  · exact StepSpec.refl h

theorem inherit_pc (m : Nat) : (s.inherit c m).pc = s.pc := by
  unfold inherit
  split
  · split <;> rfl
  · rfl

theorem inherit_statics (m : Nat) : (s.inherit c m).k.statics = s.k.statics := by
  unfold inherit
  split
  · split
    · exact (onlyTask_setPriority _ _ _).statics
    · rfl
  · rfl

theorem inherit_idle (hIdle : s.k.dosIdleTask ≠ some c) (m : Nat) :
    (s.inherit c m).k.dosIdleTask ≠ some c := by
  have hSame := congrArg Statics.dosIdleTask (inherit_statics (s := s) (c := c) m)
  exact fun he => hIdle (hSame.symm.trans he)

theorem inherit_alloc (c : TaskId) (m : Nat) (x : TaskId) :
    (s.inherit c m).k.alloc x = s.k.alloc x := by
  unfold inherit
  split
  · split
    · exact (onlyTask_setPriority _ _ _).alloc x
    · rfl
  · rfl

theorem spec_restorePriority (why : TaskId → Cause) (h : s.k.Sound) (t : TaskId) (prio : Nat) :
    StepSpec why s (s.setKernel (s.k.restorePriority t prio)) [] := by
  unfold restorePriority
  split
  · exact spec_priority h t prio
  · exact StepSpec.refl h

/-- A change of priority leaves the pend lists alone. -/
theorem pend_items_setPriority {k : Kernel} (h : k.Sound) (t : TaskId) (prio : Nat) (id : PendId) :
    (k.dosSetTaskPriority t prio).lists.items (.pend id) = k.lists.items (.pend id) := by
  have hDel : (k.dosStatusItemDel t).lists.items (.pend id) = k.lists.items (.pend id) := by
    have hNot : k.lists.owner .status t ≠ some (.pend id) := by
      intro hOwner
      cases h.linked.kind .status t _ hOwner
    have hItems : (k.lists.dosTaskItemDel .status t).1.items (.pend id) = k.lists.items (.pend id) := by
      rw [TaskLists.del_items, if_neg hNot]
    unfold dosStatusItemDel
    dsimp only
    split <;> exact hItems
  unfold dosSetTaskPriority
  split
  · show ((k.dosStatusItemDel t).lists.dosTaskItemInsert _ t).items (.pend id) = _
    rw [TaskLists.insert_items, if_neg (by simp)]
    exact hDel
  · rfl

theorem pending_restore (h : s.k.Sound) (t : TaskId) (prio : Nat) (id : PendId) :
    (s.setKernel (s.k.restorePriority t prio)).pending id = s.pending id := by
  show (s.k.restorePriority t prio).lists.items (.pend id) = _
  unfold restorePriority
  split
  · exact pend_items_setPriority h t prio id
  · rfl

theorem view_restore (h : s.k.Sound) {t : TaskId} (prio : Nat) {x : TaskId} (hx : x ≠ t) :
    (s.k.restorePriority t prio).view x = s.k.view x := by
  unfold restorePriority
  split
  · exact (touches_setPriority h t prio).view x hx
  · rfl

theorem spec_queueNow (why : TaskId → Cause) (h : s.k.Sound) {caller : Option TaskId} {q : Nat}
    {op : QueueOp}
    {buff size : Nat} {r : System × List Label} (hSend : s.QueueNow caller q op buff size r) :
    StepSpec why s r.1 r.2 := by
  cases hSend with
  | wake t rest _ hHead =>
      exact (spec_wakeFirst h hHead (by simp)).congr rfl rfl
        (fun _ => by simp [List.filter_cons, Label.about])
  | _ => exact StepSpec.of_objects h rfl rfl (fun _ => rfl)

theorem still_waitEvent (h : s.k.Sound) (c : TaskId) (waitEvent op : BitVec 32) :
    Still s.k (s.setWaitEvent c waitEvent op).k := by
  have hFields (tcb : Tcb) : ({ tcb with waitEvent := waitEvent, waitEventOpt := op }).taskStatus =
      tcb.taskStatus ∧ ({ tcb with waitEvent := waitEvent, waitEventOpt := op }).priority =
      tcb.priority := ⟨rfl, rfl⟩
  exact still_mapTcb h hFields

theorem spec_sleep (h : Coherent s) (hRun : s.Running c) (hUser : s.pc c = .user) (n : Nat) :
    StepSpec why s (s.setKernel (s.k.dosTaskSleep c n)) [] := by
  unfold dosTaskSleep
  split
  · exact StepSpec.of_still (still_scheduler h.sound)
  · have hSleep := touches_insertSleepList h.sound c n
    have hStill := still_scheduler hSleep.sound
    refine StepSpec.of_touches (hSleep.trans_still hStill) ?_
    have hDozes := dozes_insertSleepList h.sound c n
    rw [← hStill.view c] at hDozes
    exact TaskStep.sleep (by simp [hUser, Pc.waitsOn]) hRun.alloc hDozes

/-- A task moves on inside a call without waiting. -/
theorem spec_move {s₁ : System} {ls : List Label} (spec : StepSpec why s s₁ ls) (pc : Pc)
    (hFrom : (s₁.pc c).waitsOn = none) (hTo : pc.waitsOn = none) :
    StepSpec why s (s₁.setPc c pc) ls := by
  simpa using spec.trans (StepSpec.of_setPc spec.sound (TaskStep.move hFrom hTo))

theorem spec_call (h : Coherent s) (hRun : s.Running c) (hUser : s.pc c = .user) {a : Call}
    {r : System × List Label} (hCall : s.Calls c a r) : StepSpec why s r.1 r.2 := by
  have hMove (s₁ : System) (hKernel : s₁.k = s.k) (hSame : s₁.pc = s.pc) (pc : Pc)
      (hTo : pc.waitsOn = none) : StepSpec why s (s₁.setPc c pc) [] :=
    spec_move (StepSpec.of_objects h.sound hKernel hSame (fun _ => rfl)) pc
      (by rw [hSame, hUser]; rfl) hTo
  have hBack (m : Nat) : StepSpec why s (s.released c m) [] :=
    spec_restorePriority why h.sound c (s.mutex m).mutexPriority
  cases hCall with
  | semBlock | queueBlock => exact spec_block h hRun.alloc hRun.idle hUser _ _
  | semPost i hPost => exact spec_semPost h.sound hPost
  | mutexBlock m timeout hHeld hOwner hWait =>
      have hBoost := spec_inherit why h.sound c m
      have hAlloc : ((s.inherit c m).k.view c).alloc = true := (inherit_alloc c m c).trans hRun.alloc
      have hPc : (s.inherit c m).pc c = .user := by rw [inherit_pc, hUser]
      exact hBoost.trans (spec_block (hBoost.coherent h) hAlloc (inherit_idle hRun.idle m) hPc _ _)
  | mutexFree m => exact (hBack m).congr rfl rfl (fun _ => rfl)
  | mutexHand m t rest hOwner hLast hHead =>
      exact ((hBack m).trans (spec_wakeFirst (hBack m).sound hHead (by simp))).congr rfl rfl
        (fun _ => by simp [List.filter_cons, Label.about])
  | queueTake q op buff size size' timeout hCount =>
      exact hMove (s.queueTake q op) rfl rfl (.copy q op buff size') rfl
  | eventBlock e waitEvent op timeout =>
      have hStill := still_waitEvent h.sound c waitEvent op
      have hSpec : StepSpec why s (s.setWaitEvent c waitEvent op) [] := StepSpec.of_still hStill
      have hAlloc : ((s.setWaitEvent c waitEvent op).k.view c).alloc = true := by
        rw [hStill.view c]
        exact hRun.alloc
      exact hSpec.trans (spec_block (hSpec.coherent h) hAlloc hRun.idle hUser _ _)
  | eventSet e setEvent event => exact hMove (s.setEvent e event) rfl rfl (.setTest e) rfl
  | sleep n => exact spec_sleep h hRun hUser n
  | lock => exact StepSpec.of_still (still_lock h.sound)
  | unlock => exact StepSpec.of_still (still_unlock h.sound)
  | _ => exact StepSpec.of_objects h.sound rfl rfl (fun _ => rfl)

/-- The waiter `c` finds its timeout flag clear and leaves its wait. -/
theorem spec_leave (h : s.k.Sound) (hRun : s.Running c) {w : Wait} (hPc : s.pc c = .wait w)
    (hNot : s.k.is c .timeout = false) {pc : Pc} (hTo : pc.waitsOn = none) :
    StepSpec why s (s.setPc c pc) [] := by
  have hTask : s.task c = ⟨s.k.view c, .wait w⟩ := by simp only [task, hPc]
  refine StepSpec.of_setPc h ?_
  rw [hTask]
  exact TaskStep.resume hRun.ready hNot hTo

theorem spec_cleanUp (why : TaskId → Cause) (h : s.k.Sound) (hRun : s.Running c) {w : Wait}
    (hPc : s.pc c = .cleanUp w) :
    StepSpec why s ((s.setKernel (s.k.dosTimeoutCleanUp c)).setPc c .user) [.timedOut c] := by
  have hTask : s.task c = ⟨s.k.view c, .cleanUp w⟩ := by simp only [task, hPc]
  refine StepSpec.of_own (touches_timeoutCleanUp h c) ?_
  rw [hTask, view_timeoutCleanUp_eq]
  exact TaskStep.cleanUp hRun.alloc

/-- `dos_event_set` goes on to the waiter `t` and stores its event bits. -/
theorem still_select (h : s.k.Sound) (e : Nat) (t : TaskId) : Still s.k
    (Kernel.mapTcb { s.k with lists := (s.k.lists.dosGetNextTask (.pend (.event e))).1 } t
      fun tcb => { tcb with eventGet := tcb.waitEvent }) := by
  have hNext := still_next h (.pend (.event e))
  exact hNext.trans (still_mapTcb hNext.sound fun _ => ⟨rfl, rfl⟩)

/-- A task that `dos_event_set` selected is in use. -/
def Chosen (s : System) : Prop :=
  ∀ c e value t, s.pc c = .setWake e value t → (s.k.view t).alloc = true

theorem spec_resume (h : Coherent s) (hChosen : s.Chosen) (hRun : s.Running c) {pc : Pc}
    (hPc : s.pc c = pc) {r : System × List Label} (hNext : s.Resumes c pc r) :
    StepSpec (s.cause .next) s r.1 r.2 := by
  have hTask : s.task c = ⟨s.k.view c, pc⟩ := by simp only [task, hPc]
  have hMoved (s₁ : System) (ls : List Label) (spec : StepSpec (s.cause .next) s s₁ ls)
      (hSame : s₁.pc = s.pc) (pc' : Pc) (hFrom : pc.waitsOn = none) (hTo : pc'.waitsOn = none) :
      StepSpec (s.cause .next) s (s₁.setPc c pc') ls :=
    spec_move spec pc' (by rw [hSame, hPc]; exact hFrom) hTo
  have hMove := hMoved s [] (StepSpec.refl h.sound) rfl
  cases hNext with
  | giveUp w hTimeout =>
      refine StepSpec.of_setPc h.sound ?_
      rw [hTask]
      exact TaskStep.giveUp hTimeout
  | message q op buff size hNot => exact spec_leave h.sound hRun hPc hNot rfl
  | returned w result hNot =>
      exact (spec_leave h.sound hRun hPc hNot rfl).congr rfl rfl (fun _ => rfl)
  | reset w =>
      refine StepSpec.of_own (touches_flagsReset h.sound c) ?_
      rw [hTask, view_flagsReset]
      exact TaskStep.reset hRun.alloc
  | cleanUpEvent w waitEvent =>
      have hOwn := spec_cleanUp (s.cause .next) h.sound hRun hPc
      have hStill := still_waitEvent hOwn.sound c waitEvent 0
      exact (hOwn.trans (StepSpec.of_still hStill)).congr rfl rfl (fun _ => rfl)
  | cleanUp w => exact spec_cleanUp _ h.sound hRun hPc
  | unlink w =>
      refine StepSpec.of_own (touches_pendDel h.sound c) ?_
      rw [hTask, view_itemDel_pend]
      exact TaskStep.unlink
  | copy q op buff size => exact (hMove (.test q op) rfl rfl).congr rfl rfl (fun _ => rfl)
  | empty q op hEmpty => exact hMove _ rfl rfl
  | waiter q op hWaiter => exact hMove _ rfl rfl
  | noWaiter q op hEmpty => exact (hMove .fault rfl rfl).congr rfl rfl (fun _ => rfl)
  | woken q op t rest hHead =>
      exact (hMoved _ _ (spec_wakeFirst h.sound hHead (by simp)) rfl .user rfl rfl).congr rfl rfl
        (fun _ => by simp [List.filter_cons, Label.about])
  | credit q op => exact (hMove .user rfl rfl).congr rfl rfl (fun _ => rfl)
  | setEmpty e hEmpty => exact (hMove .user rfl rfl).congr rfl rfl (fun _ => rfl)
  | setWaiters e hWaiter => exact hMove _ rfl rfl
  | setLock e => exact hMoved _ _ (StepSpec.of_still (still_lock h.sound)) rfl _ rfl rfl
  | setDone e =>
      exact (hMoved _ _ (StepSpec.of_still (still_unlock h.sound)) rfl .user rfl rfl).congr rfl rfl
        (fun _ => rfl)
  | setLost e value hNone => exact hMove _ rfl rfl
  | setSelect e value t event hNext =>
      have hOn := (mem_pending h.sound).mp (TaskLists.next_result_mem hNext)
      have hSelect : StepSpec (s.cause .next) s s [.granted t] :=
        StepSpec.of_task (t := t) h.sound (fun _ _ => rfl) (TaskStep.select hOn)
      have hGet := hSelect.trans (StepSpec.of_still (still_select h.sound e t))
      exact (hMoved _ _ hGet rfl (.setWake e value t) rfl rfl).congr rfl rfl (fun _ => rfl)
  | setTurn e value =>
      exact hMoved _ _ (StepSpec.of_still (still_next h.sound (.pend (.event e)))) rfl _ rfl rfl
  | setWake e value t =>
      have hWake := touches_wake h.sound t
      have hStill := still_scheduler hWake.sound
      have hView : (s.k.dosTaskWake t).dosScheduler.view t = (s.k.view t).woken :=
        (hStill.view t).trans (view_wake_eq s.k t)
      have hWakes : s.wakes .next = some t := by
        simp only [wakes, hRun.2.1, Option.bind_some, hPc, Pc.selects]
      have hSpec : StepSpec (s.cause .next) s
          (s.setKernel (s.k.dosTaskWake t).dosScheduler) [] := by
        refine StepSpec.of_touches (hWake.trans_still hStill) ?_
        rw [hView]
        exact TaskStep.wake hWakes (hChosen c e value t hPc)
      exact hMoved _ _ hSpec rfl _ rfl rfl

theorem spec_expires {k' : Kernel} (h : Expires s.k k')
    (hDue : ∀ t, ¬k'.view t = s.k.view t → (why t).due) : StepSpec why s (s.setKernel k') [] where
  sound := h.sound
  task t := by
    show TaskPath (why t) t (s.task t) [] ⟨k'.view t, s.pc t⟩
    by_cases hSame : k'.view t = s.k.view t
    · rw [hSame]
      exact TaskPath.nil _
    · obtain ⟨hSleep, hExp⟩ := (h.task t).resolve_left hSame
      rw [hExp]
      exact TaskPath.single (TaskStep.expire (hDue t hSame) hSleep)

theorem spec_advanced (why : TaskId → Cause) (h : s.k.Sound) : StepSpec why s s.advanced [] :=
  StepSpec.of_still (still_tickAdvance h)

/-- The second half of a tick. -/
theorem spec_expired {s₁ : System} {ls : List Label} (spec : StepSpec why s s₁ ls)
    (hDue : ∀ t, s₁.k.Due t → (why t).due) : StepSpec why s s₁.expired ls := by
  have hExpires := expires_tickTimeouts spec.sound
  have hStill := still_scheduler hExpires.sound
  rw [← List.append_nil ls]
  refine spec.trans (spec_expires (hExpires.trans hStill.expires) ?_)
  intro t hChanged
  refine hDue t ?_
  by_contra hNot
  exact hChanged ((hStill.view t).trans (view_tickTimeouts spec.sound hNot))

theorem spec_creates (why : TaskId → Cause) {t : TaskId} {prio : Nat} {k' : Kernel}
    (hCreates : Creates t prio s.k k') :
    StepSpec why s (s.setKernel k') [.created t prio] := by
  have hSpec : StepSpec why s (s.setKernel k') [] := by
    refine StepSpec.of_task (t := t) hCreates.sound ?_ ?_
    · intro x hx
      simp only [task, setKernel, hCreates.view x hx]
    · exact TaskStep.create hCreates.free hCreates.alloc hCreates.pend
  exact hSpec.congr rfl rfl (fun _ => rfl)

/-- A waiter that a message has woken is not due, and nobody else is made so. -/
theorem due_queueNow (h : s.k.Sound) {caller : Option TaskId} {q : Nat} {op : QueueOp}
    {buff size : Nat} {r : System × List Label} (hSend : s.QueueNow caller q op buff size r)
    {t : TaskId} (hDue : r.1.k.Due t) : s.k.Due t := by
  cases hSend with
  | wake x => exact due_wakeFirst h hDue
  | _ => exact hDue

theorem creates_kernelStep (h : Coherent s) {t : TaskId} {prio tick : Nat} {k' : Kernel}
    (hStep : kernelStep s.k (.create t prio tick) = some k') : Creates t prio s.k k' := by
  have hAlloc : (s.k.view t).alloc = false := by
    simp only [kernelStep, Option.ite_none_right_eq_some] at hStep
    exact hStep.1.1
  have hFree := (h.ok t).free hAlloc
  exact creates_create h.sound hFree.1 hFree.2.1 hStep

/-- Every step of the system is a local path for every task. -/
theorem spec_exec (h : Coherent s) (hChosen : s.Chosen) {event : SysEvent}
    {r : System × List Label} (hStep : s.exec event = some r) :
    StepSpec (s.cause event) s r.1 r.2 := by
  cases steps_of_exec hStep with
  | create t prio tick hCreate => exact spec_creates _ (creates_kernelStep h hCreate)
  | start => exact StepSpec.of_still (still_start h.sound)
  | switch t => exact StepSpec.of_still (still_switchTo h.sound t)
  | tick => exact spec_expired (spec_advanced _ h.sound) fun t hDue => ⟨rfl, hDue⟩
  | overflow q sent hQueue hSend =>
      have hAdvanced := spec_advanced (s.cause .tick) h.sound
      exact spec_expired (hAdvanced.trans (spec_queueNow _ hAdvanced.sound hSend))
        fun t hDue => ⟨rfl, due_queueNow hAdvanced.sound hSend hDue⟩
  | isrSemPost i hPost => exact spec_semPost h.sound hPost
  | isrQueue q op buff size hSend => exact spec_queueNow _ h.sound hSend
  | call c a hRun hUser hCall => exact spec_call h hRun hUser hCall
  | next c hRun hPc hNext => exact spec_resume h hChosen hRun hPc hNext

section Points

theorem pc_semPosts {caller : Option TaskId} {i : Nat} {r : System × List Label}
    (hPost : s.SemPosts caller i r) : r.1.pc = s.pc := by
  cases hPost <;> rfl

theorem pc_queueNow {caller : Option TaskId} {q : Nat} {op : QueueOp} {buff size : Nat}
    {r : System × List Label} (hSend : s.QueueNow caller q op buff size r) : r.1.pc = s.pc := by
  cases hSend <;> rfl

/-- A call moves its own task only, and at most to its entry. -/
theorem pc_calls {a : Call} {r : System × List Label} (hCall : s.Calls c a r) (x : TaskId) :
    r.1.pc x = s.pc x ∨ x = c ∧ (r.1.pc x).isEntry = true := by
  have hSet {s₁ : System} (hSame : s₁.pc = s.pc) {pc : Pc} (hEntry : pc.isEntry = true) :
      (s₁.setPc c pc).pc x = s.pc x ∨ x = c ∧ ((s₁.setPc c pc).pc x).isEntry = true := by
    by_cases hx : x = c
    · right
      simpa [setPc, hx] using hEntry
    · left
      simp [setPc, hx, hSame]
  cases hCall with
  | semPost i hPost => exact Or.inl (congrFun (pc_semPosts hPost) x)
  | mutexBlock m timeout =>
      have hPc := inherit_pc (s := s) (c := c) m
      exact hSet hPc rfl
  | semBlock | queueTake | queueBlock | eventBlock | eventSet => exact hSet rfl rfl
  | _ => exact Or.inl rfl

theorem pc_resumes {pc : Pc} {r : System × List Label} (hNext : s.Resumes c pc r) {x : TaskId}
    (hx : x ≠ c) : r.1.pc x = s.pc x := by
  cases hNext <;> exact if_neg hx

/-- Only the running task moves, either into a call or inside one. -/
theorem exec_pc {event : SysEvent} {r : System × List Label} (hStep : s.exec event = some r)
    (t : TaskId) : r.1.pc t = s.pc t ∨ s.Running t ∧ (s.pc t = .user ∧ (r.1.pc t).isEntry = true ∨
      event = .next ∧ s.Resumes t (s.pc t) r) := by
  cases steps_of_exec hStep with
  | overflow q sent hQueue hSend =>
      have hPc := pc_queueNow hSend
      exact Or.inl (congrFun hPc t)
  | isrSemPost i hPost => exact Or.inl (congrFun (pc_semPosts hPost) t)
  | isrQueue q op buff size hSend => exact Or.inl (congrFun (pc_queueNow hSend) t)
  | call c a hRun hUser hCall =>
      rcases pc_calls hCall t with hSame | ⟨rfl, hEntry⟩
      · exact Or.inl hSame
      · exact Or.inr ⟨hRun, Or.inl ⟨hUser, hEntry⟩⟩
  | next c hRun hPc hNext =>
      by_cases ht : t = c
      · subst ht hPc
        exact Or.inr ⟨hRun, Or.inr ⟨rfl, hNext⟩⟩
      · exact Or.inl (pc_resumes hNext ht)
  | _ => exact Or.inl rfl

end Points

structure Consistent (s : System) : Prop extends Coherent s where
  chosen : s.Chosen

theorem chosen_step (h : Consistent s) {event : SysEvent} {r : System × List Label}
    (hStep : s.exec event = some r) : r.1.Chosen := by
  intro c e value t hPc
  have hSpec := spec_exec h.toCoherent h.chosen hStep
  have hKeep : (s.k.view t).alloc = true → (r.1.k.view t).alloc = true := (hSpec.task t).alloc
  rcases exec_pc hStep c with hSame | ⟨_, ⟨_, hEntry⟩ | ⟨-, hNext⟩⟩
  · exact hKeep (h.chosen c e value t (hSame.symm.trans hPc))
  · rw [hPc] at hEntry
    cases hEntry
  · -- what `dos_event_set` selects is on the pend list
    generalize s.pc c = pc at hNext
    cases hNext with
    | setSelect _ _ x _ hNext =>
        simp only [setPc, if_true, Pc.setWake.injEq] at hPc
        obtain ⟨rfl, rfl, rfl⟩ := hPc
        exact hKeep ((h.ok _).alloc ((mem_pending h.sound).mp (TaskLists.next_result_mem hNext)))
    | _ => simp [setPc] at hPc

theorem consistent_step (h : Consistent s) {event : SysEvent} {r : System × List Label}
    (hStep : s.exec event = some r) : Consistent r.1 :=
  ⟨(spec_exec h.toCoherent h.chosen hStep).coherent h.toCoherent, chosen_step h hStep⟩

/-- Only a task that begins to wait joins a pend list. -/
theorem pending_step (h : Consistent s) {event : SysEvent} {r : System × List Label}
    (hStep : s.exec event = some r) {id : PendId} {t : TaskId} (hOn : t ∈ r.1.pending id) :
    t ∈ s.pending id ∨ .waiting t id ∈ r.2 := by
  have hSpec := spec_exec h.toCoherent h.chosen hStep
  rw [mem_pending hSpec.sound] at hOn
  rw [mem_pending h.sound]
  exact ((hSpec.task t).pend hOn).imp_right List.mem_of_mem_filter

section Picks

variable {t : TaskId} {r : System × List Label}

theorem SemPosts.picks {caller : Option TaskId} {i : Nat} (hPost : s.SemPosts caller i r)
    (hMem : .granted t ∈ r.2) : s.picks (.isrSemPost i) = some t := by
  cases hPost with
  | wake x rest hRoom hHead =>
      obtain rfl : t = x := by simpa using hMem
      simp [System.picks, hRoom, hHead]
  | _ => simp at hMem

theorem QueueNow.picks {caller : Option TaskId} {q : Nat} {op : QueueOp} {buff size : Nat}
    (hSend : s.QueueNow caller q op buff size r) (hMem : .granted t ∈ r.2) :
    s.queuePick q op buff size = some t := by
  cases hSend with
  | wake x rest hCount hHead hArgs =>
      obtain rfl : t = x := by simpa using hMem
      rw [queuePick, if_neg (not_or.mpr ⟨hArgs, hCount⟩), hHead, List.head?_cons]
  | _ => simp at hMem

/-- A step selects the waiter that its state tells. -/
theorem granted_picks (h : s.k.Sound) {event : SysEvent} (hStep : s.exec event = some r)
    (hMem : .granted t ∈ r.2) : s.picks event = some t := by
  cases steps_of_exec hStep with
  | overflow q sent hQueue hSend hOverflow =>
      simp only [System.picks, hOverflow, if_true, hQueue, Option.bind_some, hSend.picks hMem]
  | isrSemPost i hPost => exact hPost.picks hMem
  | isrQueue q op buff size hSend => exact hSend.picks hMem
  | call c a hRun hUser hCall =>
      cases hCall with
      | semPost i hPost => exact hPost.picks hMem
      | mutexHand m x rest hOwner hLast hHead =>
          obtain rfl : t = x := by simpa using hMem
          rw [released, pending_restore h] at hHead
          simp [System.picks, hOwner, hRun.2.1, hLast, hHead]
      | _ => simp [block] at hMem
  | next c hRun hPc hNext =>
      simp only [System.picks, hRun.2.1, Option.bind_some, hPc]
      cases hNext with
      | woken q op x rest hHead =>
          obtain rfl : t = x := by simpa using hMem
          simp [pickAt, hHead]
      | setSelect e value x event hNext hCheck =>
          obtain rfl : t = x := by simpa using hMem
          simp [pickAt, hNext, hCheck]
      | _ => simp at hMem
  | _ => simp at hMem

end Picks

/-- A created idle task and otherwise zeroed control blocks. -/
theorem view_init {cfg : Config} {idle : TaskId} {k : Kernel}
    (hInit : dosTaskInit cfg idle = some k) (t : TaskId) :
    (k.view t).pendOwner = none ∧
      ((k.view t).alloc = false → (k.view t).statusOwner = none ∧
        Flag.test (k.view t).status .ready = false) := by
  simp only [dosTaskInit, dosTaskCreate, Option.map_eq_some_iff] at hInit
  obtain ⟨k₁, hCreate, hk⟩ := hInit
  split at hCreate
  · cases hCreate
  · have hView : k.view t = k₁.view t := by
      rw [← hk]
      rfl
    rw [hView, ← Option.some.inj hCreate]
    by_cases ht : t = idle
    · subst ht
      rw [view_insertPriorityList]
      simp [Kernel.view, dosInitTcb]
    · rw [(onlyTask_insertPriorityList _ _).view ht]
      have hEmpty (c : ItemKind) : TaskLists.empty.owner c t = none := rfl
      have hZero : Flag.test 0#16 .ready = false := by decide
      simp [Kernel.view, dosInitTcb, Kernel.boot, TaskLists.dosTaskItemInit, ht, hEmpty, hZero]

theorem consistent_init {cfg : Config} {idle : TaskId} (hInit : s.Initial cfg idle) :
    Consistent s where
  sound := by
    have hMember := membership_init hInit.kernel
    exact ⟨hMember.linked, hMember.pair⟩
  ok t := by
    obtain ⟨hPend, hFree⟩ := view_init hInit.kernel t
    refine ⟨fun hAlloc => ⟨(hFree hAlloc).1, hPend, (hFree hAlloc).2⟩, ?_, ?_⟩
    · intro l hl
      rw [show (s.task t).view.pendOwner = none from hPend] at hl
      cases hl
    · exact fun _ _ hl => absurd hPend hl
  chosen c e value t hPc := by
    rw [hInit.pc] at hPc
    cases hPc

/-- Nobody waits in the beginning. -/
theorem pending_init {cfg : Config} {idle : TaskId} (hInit : s.Initial cfg idle) (id : PendId) :
    s.pending id = [] := by
  refine List.eq_nil_iff_forall_not_mem.mpr ?_
  intro w hw
  have hOn := (mem_pending (consistent_init hInit).sound).mp hw
  rw [(view_init hInit.kernel w).1] at hOn
  cases hOn

end System

variable {tr tr' : Trace}

theorem traceStep_some {event : SysEvent} (h : traceStep tr event = some tr') :
    ∃ r, tr.sys.exec event = some r ∧ tr' = ⟨r.1, tr.past ++ r.2⟩ := by
  simp only [traceStep, Option.map_eq_some_iff] at h
  obtain ⟨r, hr, rfl⟩ := h
  exact ⟨r, hr, rfl⟩

/-- The invariant holds along every run. -/
theorem consistent_run {cfg : Config} {idle : TaskId} {s₀ : System}
    (hInit : s₀.Initial cfg idle) {ok : Trace → SysEvent → Prop} {events : List SysEvent}
    (run : Transition.RunsIf traceStep ok ⟨s₀, []⟩ events tr) : tr.sys.Consistent := by
  refine Transition.RunsIf.invariant run (fun tr => tr.sys.Consistent)
    (System.consistent_init hInit) ?_
  intro tr event tr' h _ hStep
  obtain ⟨r, hExec, rfl⟩ := traceStep_some hStep
  exact System.consistent_step h hExec

/-- Only the tasks that run are inside calls. -/
theorem user_step {tasks : List TaskId} {event : SysEvent} (h : ∀ c, c ∉ tasks → tr.sys.pc c = .user)
    (hRuns : ∀ x ∈ tr.sys.k.dosCurrentTask, tr.sys.Running x → x ∈ tasks)
    (hStep : traceStep tr event = some tr') : ∀ c, c ∉ tasks → tr'.sys.pc c = .user := by
  intro c hc
  obtain ⟨r, hExec, rfl⟩ := traceStep_some hStep
  rcases System.exec_pc hExec c with hSame | ⟨hRunning, _⟩
  · exact hSame.trans (h c hc)
  · exact absurd (hRuns c hRunning.2.1 hRunning) hc

theorem user_run {cfg : Config} {idle : TaskId} {s₀ : System} (hInit : s₀.Initial cfg idle)
    (tasks : List TaskId) {events : List SysEvent}
    (run : Transition.RunsIf traceStep (fun tr _ =>
      ∀ x ∈ tr.sys.k.dosCurrentTask, tr.sys.Running x → x ∈ tasks) ⟨s₀, []⟩ events tr) :
    ∀ c, c ∉ tasks → tr.sys.pc c = .user :=
  run.invariant (fun tr => ∀ c, c ∉ tasks → tr.sys.pc c = .user) (fun c _ => hInit.pc c)
    fun _ _ _ h hRuns hStep => user_step h hRuns hStep

/-- In a run of a few tasks a condition need only be derived for states in
which all other tasks are outside calls. -/
theorem runsIf_of_tasks {cfg : Config} {idle : TaskId} {s₀ : System} (hInit : s₀.Initial cfg idle)
    (tasks : List TaskId) {ok ok' : Trace → SysEvent → Prop} {events : List SysEvent}
    (run : Transition.RunsIf traceStep (fun tr event => ok tr event ∧
      ∀ x ∈ tr.sys.k.dosCurrentTask, tr.sys.Running x → x ∈ tasks) ⟨s₀, []⟩ events tr)
    (h : ∀ tr event, (∀ c, c ∉ tasks → tr.sys.pc c = .user) → ok tr event → ok' tr event) :
    Transition.RunsIf traceStep ok' ⟨s₀, []⟩ events tr := by
  refine run.of_invariant (fun tr => ∀ c, c ∉ tasks → tr.sys.pc c = .user)
    (fun c _ => hInit.pc c) ?_ (fun tr event hUser hOk => h tr event hUser hOk.1)
  intro tr event tr' hUser hOk hStep
  exact user_step hUser hOk.2 hStep

end DoraOS
