import DoraOS.Timer.Rings
import DoraOS.Timer.TimerRun

/-! The rings of the software timers are the two lists of `Timers`. Every
function of the timer task does to the pointers what the function of the same
name does to the lists, so the order of the lists is that of the rings. -/
namespace DoraOS

open Links Transition

namespace SwtmrRings

variable {m : SwtmrRings} {p : SwtmrRef} {t : SwtmrId} {l : List SwtmrId}

/-- The structures and pointers hold the timers and the two lists of `s`. -/
structure Shows (m : SwtmrRings) (s : Timers) : Prop where
  alloc : m.alloc = s.alloc
  data : ∀ t, s.alloc t = true → (m.node (.timer t)).data = ({ s.swtmr t with due := 0 }, true)
  heads : m.swtmrPtr = .list1 ∧ m.swtmrOverflowPtr = .list2 ∨
    m.swtmrPtr = .list2 ∧ m.swtmrOverflowPtr = .list1
  head : ∀ p, p = .list1 ∨ p = .list2 → (m.node p).data = ({ swtmrWakeTime := 0xFFFFFFFF }, false)
  pair : m.Pair m.swtmrPtr m.swtmrOverflowPtr s.swtmrPtr s.swtmrOverflowPtr

namespace Shows

variable {s : Timers} {m' : SwtmrRings}

theorem ptr (h : m.Shows s) : m.swtmrPtr = .list1 ∨ m.swtmrPtr = .list2 :=
  h.heads.imp And.left And.left

theorem overflowPtr (h : m.Shows s) :
    m.swtmrOverflowPtr = .list1 ∨ m.swtmrOverflowPtr = .list2 :=
  h.heads.symm.imp And.right And.right

theorem head_ne {p : SwtmrRef} (hHead : p = .list1 ∨ p = .list2) (t : SwtmrId) : p ≠ .timer t := by
  rcases hHead with rfl | rfl
  · exact nofun
  · exact nofun

theorem mem_members {p : SwtmrRef} (hHead : p = .list1 ∨ p = .list2) :
    .timer t ∈ members p l ↔ t ∈ l := by
  rw [members, List.mem_cons, or_iff_right (head_ne hHead t).symm,
    List.mem_map_of_injective fun _ _ => SwtmrRef.timer.inj]

theorem status (h : m.Shows s) (hAlloc : s.alloc t = true) :
    (m.node (.timer t)).swtmrStatus = (s.swtmr t).swtmrStatus :=
  congrArg (fun x => x.1.swtmrStatus) (h.data t hAlloc)

theorem timeout (h : m.Shows s) (hAlloc : s.alloc t = true) :
    (m.node (.timer t)).swtmrTimeout = (s.swtmr t).swtmrTimeout :=
  congrArg (fun x => x.1.swtmrTimeout) (h.data t hAlloc)

theorem wakeTime (h : m.Shows s) (hAlloc : s.alloc t = true) :
    m.wakeTime (.timer t) = s.wakeTime t :=
  congrArg (fun x => x.1.swtmrWakeTime) (h.data t hAlloc)

theorem callBacke (h : m.Shows s) (hAlloc : s.alloc t = true) :
    (m.node (.timer t)).swtmrCallBacke = true :=
  congrArg Prod.snd (h.data t hAlloc)

/-- Time may go on. -/
theorem at_time (h : m.Shows s) (now : Nat) : m.Shows { s with now := now } :=
  ⟨h.alloc, h.data, h.heads, h.head, h.pair⟩

/-- The exchange of the two pointers. -/
theorem switch (h : m.Shows s) : m.dosSwtmrSwitchPtr.Shows s.dosSwtmrSwitchPtr :=
  ⟨h.alloc, h.data, h.heads.symm.imp And.symm And.symm, h.head,
    h.pair.symm.congr fun _ _ => ⟨rfl, rfl⟩⟩

/-- The timer task goes on. -/
theorem at_stage (h : m.Shows s) (stage : SwtmrStage) : { m with stage := stage }.Shows s :=
  ⟨h.alloc, h.data, h.heads, h.head, h.pair.congr fun _ _ => ⟨rfl, rfl⟩⟩

theorem not_member (h : m.Shows s) (ht : t ∉ s.swtmrPtr ++ s.swtmrOverflowPtr) :
    .timer t ∉ members m.swtmrPtr s.swtmrPtr ∧
      .timer t ∉ members m.swtmrOverflowPtr s.swtmrOverflowPtr := by
  rw [mem_members h.ptr, mem_members h.overflowPtr, ← not_or, ← List.mem_append]
  exact ht

theorem head_member (h : m.Shows s) (hHead : p = .list1 ∨ p = .list2) :
    p ∈ members m.swtmrPtr s.swtmrPtr ∨ p ∈ members m.swtmrOverflowPtr s.swtmrOverflowPtr := by
  have hEq : p = m.swtmrPtr ∨ p = m.swtmrOverflowPtr := by
    rcases h.heads with ⟨hPtr, hOverflow⟩ | ⟨hPtr, hOverflow⟩
    · rw [hPtr, hOverflow]
      exact hHead
    · rw [hPtr, hOverflow]
      exact hHead.symm
  rcases hEq with rfl | rfl
  · exact .inl List.mem_cons_self
  · exact .inr List.mem_cons_self

/-- A block that is on no list gets new content, with or without a change of the
existing timers. -/
theorem replace {s' : Timers} (h : m.Shows s) (y : SwtmrNode) {alloc : SwtmrId → Bool}
    (hPtr : p ∉ members m.swtmrPtr s.swtmrPtr)
    (hOverflow : p ∉ members m.swtmrOverflowPtr s.swtmrOverflowPtr)
    (hLists : s'.swtmrPtr = s.swtmrPtr ∧ s'.swtmrOverflowPtr = s.swtmrOverflowPtr)
    (hAlloc : alloc = s'.alloc)
    (hNew : ∀ t, s'.alloc t = true → .timer t = p → y.data = ({ s'.swtmr t with due := 0 }, true))
    (hOld : ∀ t, s'.alloc t = true → .timer t ≠ p → s.alloc t = true ∧ s'.swtmr t = s.swtmr t) :
    { m.setNode p y with alloc := alloc }.Shows s' := by
  have hNode (x : SwtmrRef) (hNe : x ≠ p) : (m.setNode p y).node x = m.node x := if_neg hNe
  refine ⟨hAlloc, ?_, h.heads, ?_, ?_⟩
  · intro t ht
    by_cases hEq : .timer t = p
    · rw [← hNew t ht hEq]
      exact congrArg SwtmrNode.data (if_pos hEq)
    · obtain ⟨hOldAlloc, hSame⟩ := hOld t ht hEq
      rw [hSame, ← h.data t hOldAlloc]
      exact congrArg SwtmrNode.data (hNode _ hEq)
  · intro x hx
    have hNe : x ≠ p := by
      rintro rfl
      exact (h.head_member hx).elim hPtr hOverflow
    rw [← h.head x hx]
    exact congrArg SwtmrNode.data (hNode x hNe)
  · rw [hLists.1, hLists.2]
    apply h.pair.congr
    intro x hx
    have hNe : x ≠ p := by
      rintro rfl
      exact hx.elim hPtr hOverflow
    exact ⟨congrArg SwtmrNode.swtmrNext (hNode x hNe), congrArg SwtmrNode.swtmrPrev (hNode x hNe)⟩

/-- Memory that is not an existing timer is on no list. -/
theorem foreign (h : m.Shows s) (hOk : s.ListsOk) (y : SwtmrNode) (hForeign : m.Foreign p) :
    (m.setNode p y).Shows s := by
  have hNot : p ∉ members m.swtmrPtr s.swtmrPtr ∧
      p ∉ members m.swtmrOverflowPtr s.swtmrOverflowPtr := by
    cases p with
    | null =>
        rcases h.heads with ⟨hPtr, hOverflow⟩ | ⟨hPtr, hOverflow⟩
        · simp [members, hPtr, hOverflow]
        · simp [members, hPtr, hOverflow]
    | list1 => exact hForeign.elim
    | list2 => exact hForeign.elim
    | timer t =>
        apply h.not_member
        intro ht
        have hFree : s.alloc t = false := h.alloc ▸ hForeign
        exact absurd ((hOk.free t hFree).symm.trans ((hOk.listed t).mpr ht)) (by simp)
  refine h.replace y hNot.1 hNot.2 ⟨rfl, rfl⟩ h.alloc ?_ fun t ht _ => ⟨ht, rfl⟩
  rintro t ht rfl
  have hFree : s.alloc t = false := h.alloc ▸ hForeign
  exact absurd (ht.symm.trans hFree) (by simp)

theorem free (h : m.Shows s) (hOk : s.ListsOk) (hIdle : (s.swtmr t).swtmrStatus ≠ .running) :
    (m.freeSwtmr (.timer t)).Shows (s.freeSwtmr t) := by
  have hNot := h.not_member fun ht => hIdle ((hOk.listed t).mpr ht)
  refine h.replace {} hNot.1 hNot.2 ⟨rfl, rfl⟩ ?_ ?_ ?_
  · funext x
    simp only [Timers.freeSwtmr, SwtmrRef.timer.injEq, h.alloc]
  · intro x hx hEq
    simp [Timers.freeSwtmr, SwtmrRef.timer.inj hEq] at hx
  · intro x hx hEq
    have hNe : x ≠ t := fun hEq' => hEq (by rw [hEq'])
    refine ⟨?_, Timers.setSwtmr_ne _ hNe⟩
    simpa [Timers.freeSwtmr, hNe] using hx

theorem create (h : m.Shows s) (hOk : s.ListsOk) (timeout mode : Nat) (hFree : s.alloc t = false) :
    (m.dosSwtmrCreate t timeout mode).Shows (s.dosSwtmrCreate t timeout mode) := by
  have hNot := h.not_member fun ht =>
    absurd ((hOk.free t hFree).symm.trans ((hOk.listed t).mpr ht)) nofun
  refine h.replace _ hNot.1 hNot.2 ⟨rfl, rfl⟩ ?_ ?_ ?_
  · rw [h.alloc]
    rfl
  · intro x hx hEq
    rw [SwtmrRef.timer.inj hEq]
    simp [Timers.dosSwtmrCreate, SwtmrNode.data, Timers.setSwtmr]
  · intro x hx hEq
    have hNe : x ≠ t := fun hEq' => hEq (by rw [hEq'])
    refine ⟨?_, Timers.setSwtmr_ne _ hNe⟩
    simpa [Timers.dosSwtmrCreate, hNe] using hx

/-- `_dos_swtmr_stop` takes a timer out of the list it is in. -/
theorem stop (h : m.Shows s) (hOk : s.ListsOk) (hRunning : (s.swtmr t).swtmrStatus = .running) :
    (m.dosSwtmrStop (.timer t)).Shows (s.dosSwtmrStop t) := by
  have hNe (p : SwtmrRef) (hHead : p = .list1 ∨ p = .list2) := head_ne hHead t
  have hPtr : (m.dosSwtmrStop (.timer t)).swtmrPtr = m.swtmrPtr ∧
      (m.dosSwtmrStop (.timer t)).swtmrOverflowPtr = m.swtmrOverflowPtr ∧
      (m.dosSwtmrStop (.timer t)).alloc = m.alloc := by
    unfold dosSwtmrStop
    split <;> exact ⟨rfl, rfl, rfl⟩
  refine ⟨?_, ?_, ?_, ?_, ?_⟩
  · rw [hPtr.2.2]
    exact h.alloc
  · intro x hx
    rw [data_stop]
    by_cases hEq : x = t
    · rw [hEq, if_pos rfl, h.data t (hEq ▸ hx)]
      simp [Timers.dosSwtmrStop]
    · rw [if_neg fun hSame => hEq (SwtmrRef.timer.inj hSame), h.data x hx]
      simp [Timers.dosSwtmrStop, Timers.setSwtmr_ne _ hEq]
  · rw [hPtr.1, hPtr.2.1]
    exact h.heads
  · intro p hp
    rw [data_stop, if_neg (hNe p hp), h.head p hp]
  · rw [hPtr.1, hPtr.2.1]
    have hPtrNe := hNe _ h.ptr
    have hOverflowNe := hNe _ h.overflowPtr
    rcases List.mem_append.mp ((hOk.listed t).mp hRunning) with ht | ht
    · exact h.pair.erase ht (.inl rfl) hPtrNe hOverflowNe
    · exact (h.pair.symm.erase ht (.inr rfl) hOverflowNe hPtrNe).symm

theorem alloc_of_mem (hOk : s.ListsOk) (ht : t ∈ s.swtmrPtr ++ s.swtmrOverflowPtr) :
    s.alloc t = true := by
  rw [← Bool.not_eq_false]
  intro hFree
  exact absurd ((hOk.free t hFree).symm.trans ((hOk.listed t).mpr ht)) nofun

/-- The timers of the lists are the existing ones that run. -/
theorem running_iff (h : m.Shows s) (hOk : s.ListsOk) : t ∈ s.swtmrPtr ++ s.swtmrOverflowPtr ↔
    m.alloc t = true ∧ (m.node (.timer t)).swtmrStatus = .running := by
  rw [← hOk.listed t, h.alloc]
  constructor
  · intro hRunning
    have hAlloc := alloc_of_mem hOk ((hOk.listed t).mp hRunning)
    exact ⟨hAlloc, (h.status hAlloc).trans hRunning⟩
  · rintro ⟨hAlloc, hRunning⟩
    exact (h.status hAlloc).symm.trans hRunning

theorem pair_setWakeTime (h : m.Shows s) (wake : Nat) :
    (m.setWakeTime (.timer t) wake).Pair m.swtmrPtr m.swtmrOverflowPtr s.swtmrPtr
      s.swtmrOverflowPtr :=
  h.pair.congr fun x _ => ⟨next_setWakeTime m _ x _, prev_setWakeTime m _ x _⟩

theorem wakeTime_head (h : m.Shows s) (wake : Nat) {p : SwtmrRef}
    (hp : p = .list1 ∨ p = .list2) :
    (m.setWakeTime (.timer t) wake).wakeTime p = 0xFFFFFFFF := by
  rw [wakeTime_setWakeTime, if_neg (head_ne hp t)]
  exact congrArg (fun x => x.1.swtmrWakeTime) (h.head p hp)

/-- The rings with the new wake time order a started timer as the lists do. -/
theorem insert_setWakeTime (h : m.Shows s) (hOk : s.ListsOk)
    (hIdle : (s.swtmr t).swtmrStatus ≠ .running) {l : List SwtmrId}
    (hl : ∀ x ∈ l, x ∈ s.swtmrPtr ++ s.swtmrOverflowPtr) :
    KeyOrder.insert
        (fun x => (m.setWakeTime (.timer t) (s.started t).swtmrWakeTime).wakeTime (.timer x)) t l =
      KeyOrder.insert (fun x => ((s.setSwtmr t (s.started t)).swtmr x).swtmrWakeTime) t l := by
  apply KeyOrder.insert_congr
  · rw [wakeTime_setWakeTime, if_pos rfl, Timers.setSwtmr_self]
  · intro x hx
    have hNe : x ≠ t := fun hEq => hIdle ((hOk.listed t).mpr (hEq ▸ hl x hx))
    rw [wakeTime_setWakeTime, if_neg fun hSame => hNe (SwtmrRef.timer.inj hSame),
      Timers.setSwtmr_ne _ hNe]
    exact h.wakeTime (alloc_of_mem hOk (hl x hx))

/-- The lists of a started timer, by the place that `_dos_swtmr_start` finds. -/
theorem exists_item (h : m.Shows s) (hOk : s.ListsOk) (hAlloc : s.alloc t = true)
    (hIdle : (s.swtmr t).swtmrStatus ≠ .running) :
    ∃ item, ((m.setWakeTime (.timer t) (s.started t).swtmrWakeTime).link item (.timer t)).Pair
        m.swtmrPtr m.swtmrOverflowPtr (s.dosSwtmrStart t).swtmrPtr
        (s.dosSwtmrStart t).swtmrOverflowPtr ∧
      ∀ fuel > s.swtmrPtr.length + s.swtmrOverflowPtr.length,
        m.dosSwtmrStart fuel s.dosGetTick (.timer t) =
          some ((m.setWakeTime (.timer t) (s.started t).swtmrWakeTime).link item (.timer t)) := by
  have hNew := h.not_member fun ht => hIdle ((hOk.listed t).mpr ht)
  have hWake : (s.dosGetTick + (m.node (.timer t)).swtmrTimeout) % 2 ^ 32 =
      (s.started t).swtmrWakeTime := by rw [h.timeout hAlloc, Timers.started]
  have hTick : s.dosGetTick < 2 ^ 32 := Nat.mod_lt _ (by decide)
  have hLess : (s.started t).swtmrWakeTime < 2 ^ 32 := Nat.mod_lt _ (by decide)
  have hPair := h.pair_setWakeTime (t := t) (s.started t).swtmrWakeTime
  have hSelf : (m.setWakeTime (.timer t) (s.started t).swtmrWakeTime).wakeTime (.timer t) =
      (s.started t).swtmrWakeTime := by rw [wakeTime_setWakeTime, if_pos rfl]
  have hHead (p : SwtmrRef) := h.wakeTime_head (t := t) (s.started t).swtmrWakeTime (p := p)
  have hInsert (l : List SwtmrId) := h.insert_setWakeTime hOk hIdle (l := l)
  have hPtr : (m.setWakeTime (.timer t) (s.started t).swtmrWakeTime).swtmrPtr = m.swtmrPtr := rfl
  have hOverflow : (m.setWakeTime (.timer t) (s.started t).swtmrWakeTime).swtmrOverflowPtr =
      m.swtmrOverflowPtr := rfl
  simp only [dosSwtmrStart, hWake, Timers.dosSwtmrStart]
  generalize m.setWakeTime (.timer t) (s.started t).swtmrWakeTime = m₁ at *
  by_cases hWrap : (s.started t).swtmrWakeTime < s.dosGetTick
  · simp only [if_pos hWrap]
    obtain ⟨item, hItem, hSeek⟩ := hPair.symm.seek (t := t)
      (by rw [hSelf, hHead _ h.overflowPtr]; omega) hNew.2 hNew.1
    rw [hInsert _ fun x hx => List.mem_append_right _ hx] at hItem
    refine ⟨item, hItem.symm, ?_⟩
    intro fuel hFuel
    rw [hOverflow, ← hSelf, hSeek fuel (by omega), Option.map_some]
  · simp only [if_neg hWrap]
    by_cases hMax : (s.started t).swtmrWakeTime = 0xFFFFFFFF
    · simp only [if_pos hMax]
      refine ⟨m₁.prev m.swtmrPtr, hPair.last hNew.1 hNew.2, ?_⟩
      intro fuel hFuel
      rw [hPtr, Option.map_some]
    · simp only [if_neg hMax]
      obtain ⟨item, hItem, hSeek⟩ := hPair.seek (t := t)
        (by rw [hSelf, hHead _ h.ptr]; omega) hNew.1 hNew.2
      rw [hInsert _ fun x hx => List.mem_append_left _ hx] at hItem
      refine ⟨item, hItem, ?_⟩
      intro fuel hFuel
      rw [hPtr, ← hSelf, hSeek fuel (by omega), Option.map_some]

/-- `_dos_swtmr_start` of a timer that is in no list. -/
theorem start (h : m.Shows s) (hOk : s.ListsOk) (hAlloc : s.alloc t = true)
    (hIdle : (s.swtmr t).swtmrStatus ≠ .running) :
    ∃ m', m'.Shows (s.dosSwtmrStart t) ∧
      ∀ fuel > s.swtmrPtr.length + s.swtmrOverflowPtr.length,
        m.dosSwtmrStart fuel s.dosGetTick (.timer t) = some m' := by
  obtain ⟨item, hPair, hStart⟩ := h.exists_item hOk hAlloc hIdle
  refine ⟨(m.setWakeTime (.timer t) (s.started t).swtmrWakeTime).link item (.timer t),
    ⟨?_, ?_, h.heads, ?_, hPair⟩, hStart⟩
  · rw [Timers.dosSwtmrStart_alloc]
    exact h.alloc
  · intro x hx
    rw [Timers.dosSwtmrStart_alloc] at hx
    rw [data_link, data_setWakeTime, if_pos rfl]
    by_cases hEq : x = t
    · rw [hEq, if_pos rfl, h.data t hAlloc, Timers.dosSwtmrStart_self]
      simp [Timers.started]
    · have hNe : SwtmrRef.timer x ≠ .timer t := fun hSame => hEq (SwtmrRef.timer.inj hSame)
      rw [if_neg hNe, data_setWakeTime, if_neg hNe, h.data x hx, Timers.dosSwtmrStart_ne s hEq]
  · intro p hp
    rw [data_link, if_neg (head_ne hp t), data_setWakeTime, if_neg (head_ne hp t), h.head p hp]

theorem delete (h : m.Shows s) (hOk : s.ListsOk) (hAlloc : s.alloc t = true) :
    (m.dosSwtmrDelete (.timer t)).Shows (s.dosSwtmrDelete t) := by
  have hStatus := h.status hAlloc
  rw [dosSwtmrDelete, if_neg (by simp), hStatus, Timers.dosSwtmrDelete]
  cases hCase : (s.swtmr t).swtmrStatus with
  | unused => exact h
  | create => exact h.free hOk (by simp [hCase])
  | stop => exact h.free hOk (by simp [hCase])
  | running => exact (h.stop hOk hCase).free (hOk.stop hCase) (by simp)

end Shows

/-- With enough rounds, `f` returns rings that hold timers in order. -/
def Returns (f : Nat → Option SwtmrRings) : Prop :=
  ∃ m' s', m'.Shows s' ∧ s'.ListsOk ∧ ∃ n, ∀ fuel ≥ n, f fuel = some m'

namespace Shows

variable {s : Timers} {tick : Nat}

theorem returns (h : m.Shows s) (hOk : s.ListsOk) : Returns fun _ => some m :=
  ⟨m, s, h, hOk, 0, fun _ _ => rfl⟩

/-- A later time with any tick: the next turn of the counter is complete before
it. -/
theorem exists_later (hOk : s.ListsOk) (hTick : tick < 2 ^ 32) :
    ∃ now, Timers.ListsOk { s with now := now } ∧ now % 2 ^ 32 = tick := by
  refine ⟨(s.now / 2 ^ 32 + 1) * 2 ^ 32 + tick, hOk.congr ⟨rfl, rfl, rfl, rfl, rfl⟩ ?_, ?_⟩
  · show s.now ≤ (s.now / 2 ^ 32 + 1) * 2 ^ 32 + tick
    omega
  · omega

/-- A timer may be started at any tick. -/
theorem returns_start (h : m.Shows s) (hOk : s.ListsOk) (hAlloc : s.alloc t = true)
    (hUsed : (s.swtmr t).swtmrStatus ≠ .unused) (hIdle : (s.swtmr t).swtmrStatus ≠ .running)
    (hTick : tick < 2 ^ 32) : Returns fun fuel => m.dosSwtmrStart fuel tick (.timer t) := by
  obtain ⟨now, hOk', rfl⟩ := exists_later hOk hTick
  obtain ⟨m', hShows, hStart⟩ := (h.at_time now).start hOk' hAlloc hIdle
  exact ⟨m', _, hShows, hOk'.start hUsed hIdle, _, hStart⟩

theorem returns_restart (h : m.Shows s) (hOk : s.ListsOk) (hAlloc : s.alloc t = true)
    (hRunning : (s.swtmr t).swtmrStatus = .running) (hTick : tick < 2 ^ 32) :
    Returns fun fuel => (m.dosSwtmrStop (.timer t)).dosSwtmrStart fuel tick (.timer t) :=
  (h.stop hOk hRunning).returns_start (hOk.stop hRunning) hAlloc (by simp) (by simp) hTick

/-- A command on an existing timer, or the overflow. -/
theorem returns_cmdHandle (h : m.Shows s) (hOk : s.ListsOk) {msg : SwtmrMsg}
    (hMsg : m.Addressed msg) (hTick : tick < 2 ^ 32) :
    Returns fun fuel => m.dosSwtmrCmdHandle fuel tick msg := by
  obtain ⟨op, target⟩ := msg
  cases target with
  | none =>
      cases hMsg
      by_cases hNull : (m.node .null).swtmrStatus = .unused
      · have hHandle (fuel : Nat) : m.dosSwtmrCmdHandle fuel tick ⟨.overflow, none⟩ = some m :=
          if_pos hNull
        simp only [hHandle]
        exact h.returns hOk
      · have hHandle (fuel : Nat) : m.dosSwtmrCmdHandle fuel tick ⟨.overflow, none⟩ =
            some m.dosSwtmrSwitchPtr := if_neg hNull
        simp only [hHandle]
        exact h.switch.returns hOk.switch
  | some t =>
      have hAlloc : s.alloc t = true := h.alloc ▸ hMsg
      simp only [dosSwtmrCmdHandle, SwtmrRings.target, h.status hAlloc]
      by_cases hUsed : (s.swtmr t).swtmrStatus = .unused
      · simp only [if_pos hUsed]
        exact h.returns hOk
      simp only [if_neg hUsed]
      cases op with
      | start =>
          by_cases hRunning : (s.swtmr t).swtmrStatus = .running
          · simp only [if_pos hRunning]
            exact h.returns_restart hOk hAlloc hRunning hTick
          · simp only [if_neg hRunning]
            exact h.returns_start hOk hAlloc hUsed hRunning hTick
      | stop =>
          by_cases hRunning : (s.swtmr t).swtmrStatus = .running
          · simp only [if_pos hRunning]
            exact (h.stop hOk hRunning).returns (hOk.stop hRunning)
          · simp only [if_neg hRunning]
            exact h.returns hOk
      | delete => exact (h.delete hOk hAlloc).returns (hOk.edited (Timers.edited_dosSwtmrDelete s t))
      | overflow => exact h.switch.returns hOk.switch

/-- The first node is the first timer, or the list head if there is none. -/
theorem first_cases (h : m.Shows s) : m.dosGetSwtmr = m.swtmrPtr ∨
    ∃ t ∈ s.swtmrPtr, m.dosGetSwtmr = .timer t := by
  have hMem : m.dosGetSwtmr ∈ members m.swtmrPtr s.swtmrPtr :=
    h.pair.ring.next_mem List.mem_cons_self
  rcases List.mem_cons.mp hMem with hHead | hTimer
  · exact .inl hHead
  · obtain ⟨t, ht, hEq⟩ := List.mem_map.mp hTimer
    exact .inr ⟨t, ht, hEq.symm⟩

/-- The expiry of a timer of the list. -/
theorem timeoutHandle (h : m.Shows s) (hOk : s.ListsOk) (ht : t ∈ s.swtmrPtr) :
    ∃ m', m'.Shows (s.dosSwtmrTimeoutHandle t) ∧
      ∃ n, ∀ fuel ≥ n, m.dosSwtmrTimeoutHandle fuel s.dosGetTick (.timer t) = some m' := by
  have hRunning := hOk.running_ptr ht
  have hAlloc := alloc_of_mem hOk (List.mem_append_left _ ht)
  have hStop := h.stop hOk hRunning
  have hMode : ((m.dosSwtmrStop (.timer t)).node (.timer t)).swtmrMode = (s.swtmr t).swtmrMode := by
    refine (congrArg (fun x => x.1.swtmrMode) (hStop.data t hAlloc)).trans ?_
    simp [Timers.dosSwtmrStop, Timers.setSwtmr]
  simp only [dosSwtmrTimeoutHandle, h.callBacke hAlloc, if_true, hMode,
    Timers.dosSwtmrTimeoutHandle]
  by_cases hPeriodic : (s.swtmr t).swtmrMode = 2
  · simp only [if_pos hPeriodic]
    obtain ⟨m', hShows, hStart⟩ := hStop.start (hOk.stop hRunning) hAlloc (by simp)
    exact ⟨m', hShows, _, fun fuel hFuel => hStart fuel hFuel⟩
  · simp only [if_neg hPeriodic]
    exact ⟨_, hStop.delete (hOk.stop hRunning) hAlloc, 0, fun _ _ => rfl⟩

/-- The expiry of the first timer. -/
theorem returns_timeoutHandle (h : m.Shows s) (hOk : s.ListsOk) (hTick : tick < 2 ^ 32) :
    Returns fun fuel => m.dosSwtmrTimeoutHandle fuel tick m.dosGetSwtmr := by
  rcases h.first_cases with hHead | ⟨t, ht, hFirst⟩
  · have hNone : (m.node m.swtmrPtr).swtmrCallBacke = false :=
      congrArg Prod.snd (h.head _ h.ptr)
    simp only [dosSwtmrTimeoutHandle, hHead, hNone, Bool.false_eq_true, if_false]
    exact h.returns hOk
  · obtain ⟨now, hOk', rfl⟩ := exists_later hOk hTick
    obtain ⟨m', hShows, hHandle⟩ := (h.at_time now).timeoutHandle hOk' ht
    rw [hFirst]
    exact ⟨m', _, hShows,
      hOk'.edited (Timers.edited_dosSwtmrTimeoutHandle (hOk'.running_ptr ht)), hHandle⟩

end Shows

section Rounds

variable {fuel more tick : Nat} {m' : SwtmrRings} (hFuel : fuel ≤ more)

include hFuel

/-- More rounds do not change a result. -/
theorem start_mono (h : m.dosSwtmrStart fuel tick p = some m') :
    m.dosSwtmrStart more tick p = some m' := by
  simp only [dosSwtmrStart, Option.map_eq_some_iff] at h ⊢
  obtain ⟨item, hItem, hLink⟩ := h
  refine ⟨item, ?_, hLink⟩
  by_cases hWrap : (tick + (m.node p).swtmrTimeout) % 2 ^ 32 < tick
  · rw [if_pos hWrap] at hItem ⊢
    exact seek_mono hFuel hItem
  · rw [if_neg hWrap] at hItem ⊢
    by_cases hMax : (tick + (m.node p).swtmrTimeout) % 2 ^ 32 = 0xFFFFFFFF
    · rw [if_pos hMax] at hItem ⊢
      exact hItem
    · rw [if_neg hMax] at hItem ⊢
      exact seek_mono hFuel hItem

theorem cmdHandle_mono {msg : SwtmrMsg} (h : m.dosSwtmrCmdHandle fuel tick msg = some m') :
    m.dosSwtmrCmdHandle more tick msg = some m' := by
  simp only [dosSwtmrCmdHandle] at h ⊢
  by_cases hUnused : (m.node (target msg)).swtmrStatus = .unused
  · rw [if_pos hUnused] at h ⊢
    exact h
  rw [if_neg hUnused] at h ⊢
  cases hOpt : msg.swtmrOpt with
  | start =>
      rw [hOpt] at h
      by_cases hRunning : (m.node (target msg)).swtmrStatus = .running
      · simp only [if_pos hRunning] at h ⊢
        exact start_mono hFuel h
      · simp only [if_neg hRunning] at h ⊢
        exact start_mono hFuel h
  | _ =>
      rw [hOpt] at h
      exact h

theorem timeoutHandle_mono (h : m.dosSwtmrTimeoutHandle fuel tick p = some m') :
    m.dosSwtmrTimeoutHandle more tick p = some m' := by
  simp only [dosSwtmrTimeoutHandle] at h ⊢
  by_cases hCall : (m.node p).swtmrCallBacke = true
  · simp only [if_pos hCall] at h ⊢
    by_cases hMode : ((m.dosSwtmrStop p).node p).swtmrMode = 2
    · rw [if_pos hMode] at h ⊢
      exact start_mono hFuel h
    · rw [if_neg hMode] at h ⊢
      exact h
  · simp only [if_neg hCall] at h ⊢
    exact h

theorem perform_mono {event : RingEvent} (h : m.perform fuel event = some m') :
    m.perform more event = some m' := by
  cases event with
  | command msg tick =>
      obtain ⟨m₁, hHandle, hStage⟩ := Option.map_eq_some_iff.mp h
      exact Option.map_eq_some_iff.mpr ⟨m₁, cmdHandle_mono hFuel hHandle, hStage⟩
  | expire curTime tick =>
      simp only [perform] at h ⊢
      cases hStage : m.stage with
      | expire wake =>
          simp only [hStage] at h ⊢
          by_cases hDue : curTime ≥ m.wakeTime wake
          · rw [if_pos hDue] at h ⊢
            obtain ⟨m₁, hHandle, hEnd⟩ := Option.map_eq_some_iff.mp h
            exact Option.map_eq_some_iff.mpr ⟨m₁, timeoutHandle_mono hFuel hHandle, hEnd⟩
          · rw [if_neg hDue] at h ⊢
            exact h
      | _ =>
          rw [hStage] at h
          exact h
  | _ => exact h

end Rounds

/-- The rings hold timers in order, and the timer that the task has looked at is
the first one still. -/
structure Sound (m : SwtmrRings) : Prop where
  holds : ∃ s, m.Shows s ∧ s.ListsOk
  first : ∀ wake, m.stage = .read wake ∨ m.stage = .expire wake → wake = m.dosGetSwtmr

namespace Sound

variable {m' : SwtmrRings} {fuel : Nat} {event : RingEvent}

/-- A write that does not touch the list heads. -/
theorem outside (h : m.Sound) {s : Timers} {y : SwtmrNode} {alloc : SwtmrId → Bool}
    (hShows : { m.setNode p y with alloc := alloc }.Shows s) (hOk : s.ListsOk)
    (hNe : m.swtmrPtr ≠ p) : { m.setNode p y with alloc := alloc }.Sound := by
  refine ⟨⟨s, hShows, hOk⟩, ?_⟩
  intro wake hStage
  rw [h.first wake hStage]
  exact congrArg SwtmrNode.swtmrNext (if_neg hNe).symm

/-- Every event that can come has a result with enough rounds, and the result
is in order. -/
theorem perform (h : m.Sound) (hReady : m.Ready event) :
    ∃ m', m'.Sound ∧ ∃ n, ∀ fuel ≥ n, m.perform fuel event = some m' := by
  obtain ⟨s, hShows, hOk⟩ := h.holds
  cases event with
  | create t timeout mode =>
      obtain ⟨hFree, hPos, hLt, -, -⟩ := hReady
      have hFree' : s.alloc t = false := hShows.alloc ▸ hFree
      exact ⟨_, h.outside (hShows.create hOk timeout mode hFree') (hOk.create hFree' ⟨hPos, hLt⟩)
        (Shows.head_ne hShows.ptr t), 0, fun _ _ => rfl⟩
  | foreign p y =>
      have hNe : m.swtmrPtr ≠ p := by
        rintro rfl
        rcases hShows.ptr with hPtr | hPtr
        · exact (hPtr ▸ hReady : m.Foreign .list1)
        · exact (hPtr ▸ hReady : m.Foreign .list2)
      exact ⟨_, h.outside (hShows.foreign hOk y hReady) hOk hNe, 0, fun _ _ => rfl⟩
  | sample =>
      refine ⟨{ m with stage := .read m.dosGetSwtmr }, ⟨⟨s, hShows.at_stage _, hOk⟩, ?_⟩, 0,
        fun _ _ => rfl⟩
      rintro wake (hRead | hRead)
      · cases hRead
        rfl
      · cases hRead
  | command msg tick =>
      obtain ⟨-, hTick, hMsg⟩ := hReady
      obtain ⟨m', s', hShows', hOk', n, hReturn⟩ := hShows.returns_cmdHandle hOk hMsg hTick
      refine ⟨{ m' with stage := .top }, ⟨⟨s', hShows'.at_stage _, hOk'⟩, ?_⟩, n, ?_⟩
      · rintro wake (hRead | hRead) <;> cases hRead
      · intro fuel hFuel
        exact Option.map_eq_some_iff.mpr ⟨m', hReturn fuel hFuel, rfl⟩
  | timeout =>
      cases hStage : m.stage with
      | read wake =>
          refine ⟨{ m with stage := .expire wake }, ⟨⟨s, hShows.at_stage _, hOk⟩, ?_⟩, 0, ?_⟩
          · rintro wake' (hRead | hRead)
            · cases hRead
            · cases hRead
              exact h.first wake (.inl hStage)
          · intro fuel _
            simp only [SwtmrRings.perform, hStage]
      | top => simp [Ready, hStage, SwtmrStage.reading] at hReady
      | expire wake => simp [Ready, hStage, SwtmrStage.reading] at hReady
  | expire curTime tick =>
      obtain ⟨hExpiring, -, hTick⟩ := hReady
      cases hStage : m.stage with
      | expire wake =>
          simp only [SwtmrRings.perform, hStage, h.first wake (.inr hStage)]
          by_cases hDue : curTime ≥ m.wakeTime m.dosGetSwtmr
          · obtain ⟨m', s', hShows', hOk', n, hReturn⟩ := hShows.returns_timeoutHandle hOk hTick
            refine ⟨{ m' with stage := .expire m'.dosGetSwtmr },
              ⟨⟨s', hShows'.at_stage _, hOk'⟩, ?_⟩, n, ?_⟩
            · rintro wake' (hRead | hRead)
              · cases hRead
              · cases hRead
                rfl
            · intro fuel hFuel
              rw [if_pos hDue]
              exact Option.map_eq_some_iff.mpr ⟨m', hReturn fuel hFuel, rfl⟩
          · refine ⟨{ m with stage := .top }, ⟨⟨s, hShows.at_stage _, hOk⟩, ?_⟩, 0, ?_⟩
            · rintro wake' (hRead | hRead) <;> cases hRead
            · intro fuel _
              rw [if_neg hDue]
      | top => simp [hStage, SwtmrStage.expiring] at hExpiring
      | read wake => simp [hStage, SwtmrStage.expiring] at hExpiring

theorem step (h : m.Sound) (hStep : ringStep fuel m event = some m') : m'.Sound := by
  simp only [ringStep, Option.ite_none_right_eq_some] at hStep
  obtain ⟨hReady, hPerform⟩ := hStep
  obtain ⟨m₁, hSound, n, hReturn⟩ := h.perform hReady
  have hSame := perform_mono (Nat.le_max_left fuel n) hPerform
  rw [hReturn _ (Nat.le_max_right fuel n), Option.some.injEq] at hSame
  exact hSame ▸ hSound

theorem init (node : SwtmrRef → SwtmrNode) : (dosSwtmrInit node).Sound := by
  have hNode (p : SwtmrRef) (hp : p = .list1 ∨ p = .list2) : (dosSwtmrInit node).node p =
      { swtmrPrev := p, swtmrNext := p, swtmrWakeTime := 0xFFFFFFFF } := by
    rcases hp with rfl | rfl
    · simp [dosSwtmrInit, dosSwtmrItemInit, setNode]
    · simp [dosSwtmrInit, dosSwtmrItemInit, setNode]
  have hRing (p : SwtmrRef) (hp : p = .list1 ∨ p = .list2) : (dosSwtmrInit node).RingOf p [] := by
    have hNext : (dosSwtmrInit node).next p = p := by rw [SwtmrRings.next, hNode p hp]
    have hPrev : (dosSwtmrInit node).prev p = p := by rw [SwtmrRings.prev, hNode p hp]
    refine ⟨List.isChain_cons_cons.mpr ⟨hNext, List.isChain_singleton p⟩, ?_,
      List.nodup_singleton p⟩
    intro x hx
    rw [List.mem_singleton.mp hx, hNext, hPrev]
  refine ⟨⟨Timers.dosSwtmrInit 0 true, ⟨rfl, ?_, .inl ⟨rfl, rfl⟩, ?_, ?_⟩,
    (Timers.TimersOk.init 0 true).toListsOk⟩, ?_⟩
  · intro t ht
    cases ht
  · intro p hp
    rw [hNode p hp]
    rfl
  · refine ⟨hRing _ (.inl rfl), hRing _ (.inr rfl), ?_⟩
    intro x hx hx'
    have hHeads : SwtmrRef.list1 = .list2 :=
      (List.mem_singleton.mp hx).symm.trans (List.mem_singleton.mp hx')
    cases hHeads
  · rintro wake (hRead | hRead) <;> cases hRead

/-- The two lists by the names of their heads. -/
theorem lists (h : m.Sound) : ∃ l₁ l₂ : List SwtmrId, m.RingOf .list1 l₁ ∧ m.RingOf .list2 l₂ ∧
    KeyOrder.Sorted (fun t => m.wakeTime (.timer t)) l₁ ∧
    KeyOrder.Sorted (fun t => m.wakeTime (.timer t)) l₂ ∧ (l₁ ++ l₂).Nodup ∧
    ∀ t, t ∈ l₁ ++ l₂ ↔ m.alloc t = true ∧ (m.node (.timer t)).swtmrStatus = .running := by
  obtain ⟨s, hShows, hOk⟩ := h.holds
  have hPtr : KeyOrder.Sorted (fun t => m.wakeTime (.timer t)) s.swtmrPtr :=
    hOk.sortedPtr.congr fun x hx =>
      hShows.wakeTime (Shows.alloc_of_mem hOk (List.mem_append_left _ hx))
  have hOverflow : KeyOrder.Sorted (fun t => m.wakeTime (.timer t)) s.swtmrOverflowPtr :=
    hOk.sortedOverflow.congr fun x hx =>
      hShows.wakeTime (Shows.alloc_of_mem hOk (List.mem_append_right _ hx))
  have hMem (t : SwtmrId) := hShows.running_iff hOk (t := t)
  have hRing := hShows.pair.ring
  have hOther := hShows.pair.other
  rcases hShows.heads with ⟨h₁, h₂⟩ | ⟨h₁, h₂⟩
  · rw [h₁] at hRing
    rw [h₂] at hOther
    exact ⟨_, _, hRing, hOther, hPtr, hOverflow, hOk.nodup, hMem⟩
  · rw [h₁] at hRing
    rw [h₂] at hOther
    refine ⟨_, _, hOther, hRing, hOverflow, hPtr, List.perm_append_comm.nodup_iff.mp hOk.nodup, ?_⟩
    intro t
    rw [List.perm_append_comm.mem_iff]
    exact hMem t

end Sound

end SwtmrRings

/-- The rings of the timers in every run of the timer task, at any ticks and in
any memory. Both rings are closed and their links are inverse to each other;
they are ordered by the wake time; a timer is in one of them, and once, if and
only if it is running; and every loop of a start ends. -/
theorem timer_rings_sorted {node : SwtmrRef → SwtmrNode} {fuel : Nat} {events : List RingEvent}
    {m : SwtmrRings} (hRun : Runs (ringStep fuel) (SwtmrRings.dosSwtmrInit node) events m) :
    (∃ l₁ l₂ : List SwtmrId, m.RingOf .list1 l₁ ∧ m.RingOf .list2 l₂ ∧
      KeyOrder.Sorted (fun t => m.wakeTime (.timer t)) l₁ ∧
      KeyOrder.Sorted (fun t => m.wakeTime (.timer t)) l₂ ∧ (l₁ ++ l₂).Nodup ∧
      ∀ t, t ∈ l₁ ++ l₂ ↔ m.alloc t = true ∧ (m.node (.timer t)).swtmrStatus = .running) ∧
    ∀ event, m.Ready event → ∃ n, ∀ fuel ≥ n, (ringStep fuel m event).isSome = true := by
  have hSound : m.Sound := by
    refine hRun.invariant SwtmrRings.Sound (SwtmrRings.Sound.init node) ?_
    intro s event s' hSound _ hStep
    exact hSound.step hStep
  refine ⟨hSound.lists, ?_⟩
  intro event hReady
  obtain ⟨m', -, n, hReturn⟩ := hSound.perform hReady
  refine ⟨n, fun fuel hFuel => ?_⟩
  rw [ringStep, if_pos hReady, hReturn fuel hFuel]
  rfl

/-- A periodic timer is started across the wrap of the counter and another one
behind it; the lists are exchanged, and the first timer expires. The memory at
the null pointer does not read as unused. -/
theorem timer_rings_sorted_wrap :
    let start := SwtmrRings.dosSwtmrInit fun _ => { swtmrStatus := .running, swtmrWakeTime := 7 }
    let events : List RingEvent :=
      [.create 8 5 2, .create 9 3 1, .sample, .command ⟨.start, some 8⟩ 0xFFFFFFFE, .sample,
       .command ⟨.start, some 9⟩ 10, .sample, .command ⟨.overflow, none⟩ 11, .sample, .timeout,
       .expire 20 21]
    ∃ m, Runs (ringStep 4) start events m ∧ m.next .list1 = .timer 9 ∧ m.next .list2 = .timer 8 ∧
      m.wakeTime (.timer 8) = 26 ∧
      ∃ l₁ l₂ : List SwtmrId, m.RingOf .list1 l₁ ∧ m.RingOf .list2 l₂ ∧ (l₁ ++ l₂).Nodup := by
  intro start events
  have hEnd : (exec (ringStep 4) start events).map
      (fun m => (m.next .list1, m.next .list2, m.wakeTime (.timer 8))) =
        some (.timer 9, .timer 8, 26) := by decide +kernel
  obtain ⟨m, hExec, hFacts⟩ := Option.map_eq_some_iff.mp hEnd
  simp only [Prod.mk.injEq] at hFacts
  have hRun := runs_of_exec hExec
  obtain ⟨l₁, l₂, hRing₁, hRing₂, -, -, hNodup, -⟩ := (timer_rings_sorted hRun).1
  exact ⟨m, hRun, hFacts.1, hFacts.2.1, hFacts.2.2, l₁, l₂, hRing₁, hRing₂, hNodup⟩

end DoraOS
