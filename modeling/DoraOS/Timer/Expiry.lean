import DoraOS.Timer.RingLists

/-! The expiry loop of the timer task, while the tick does not change. Each round
takes the first timer out of the list and starts a periodic one again behind the
tick, so the timers that are due get fewer. The loop does not know the list head:
it goes on as long as the wake time behind the pointer is not larger than the
tick, and the wake time of the head is the last tick before the wrap. -/
namespace DoraOS

open Links Transition

namespace Timers

variable {s : Timers} {t : SwtmrId} {rest : List SwtmrId}

/-- The timers of the list `_dos_swtmr_ptr` that are due. -/
def dueTimers (s : Timers) : List SwtmrId := s.swtmrPtr.filter fun t => s.wakeTime t ≤ s.dosGetTick

/-- A start never makes a timer due at once. -/
theorem dosGetTick_lt_started (hTimeout : 0 < (s.swtmr t).swtmrTimeout)
    (hLt : (s.swtmr t).swtmrTimeout < 2 ^ 32)
    (hNoWrap : s.dosGetTick ≤ (s.started t).swtmrWakeTime) :
    s.dosGetTick < (s.started t).swtmrWakeTime := by
  simp only [started, dosGetTick] at hNoWrap ⊢
  omega

theorem dosSwtmrStop_swtmrPtr (h : s.swtmrPtr = t :: rest) : (s.dosSwtmrStop t).swtmrPtr = rest := by
  simp [dosSwtmrStop, h]

/-- The due timers behind a start, apart from their order. -/
theorem dueTimers_start (hTimeout : 0 < (s.swtmr t).swtmrTimeout)
    (hLt : (s.swtmr t).swtmrTimeout < 2 ^ 32) (hNew : t ∉ s.swtmrPtr) :
    (s.dosSwtmrStart t).dueTimers.Perm s.dueTimers := by
  have hTick : (s.dosSwtmrStart t).dosGetTick = s.dosGetTick :=
    congrArg (· % 2 ^ 32) (sameQueue_dosSwtmrStart s t).now
  have hSame : s.swtmrPtr.filter (fun x => (s.dosSwtmrStart t).wakeTime x ≤ s.dosGetTick) =
      s.dueTimers := by
    apply List.filter_congr
    intro x hx
    have hNe : x ≠ t := by
      rintro rfl
      exact hNew hx
    rw [wakeTime, dosSwtmrStart_ne s hNe, wakeTime]
  rw [dueTimers, hTick]
  rcases dosSwtmrStart_joins s t with ⟨-, hPtr, -⟩ | ⟨hNoWrap, -, hJoins⟩
  · rw [hPtr, hSame]
  · have hLate := dosGetTick_lt_started hTimeout hLt hNoWrap
    rw [← hSame]
    refine (hJoins.perm.filter _).trans (List.Perm.of_eq (List.filter_cons_of_neg ?_))
    simp only [wakeTime, dosSwtmrStart_self, decide_eq_true_eq]
    omega

/-- A round of the loop. The first timer is no longer due, and the others are as
they were. -/
theorem dueTimers_timeoutHandle (hOk : s.ListsOk) (hPtr : s.swtmrPtr = t :: rest)
    (hDue : s.wakeTime t ≤ s.dosGetTick) :
    s.dueTimers.Perm (t :: (s.dosSwtmrTimeoutHandle t).dueTimers) := by
  have hMem : t ∈ s.swtmrPtr := by simp [hPtr]
  have hRunning := hOk.running_ptr hMem
  have hTimeout := hOk.timeout t (by simp [hRunning])
  have hNew : t ∉ rest := by
    have hNodup := (List.nodup_append.mp hOk.nodup).1
    rw [hPtr] at hNodup
    exact (List.nodup_cons.mp hNodup).1
  have hStop : (s.dosSwtmrStop t).swtmrPtr = rest := dosSwtmrStop_swtmrPtr hPtr
  have hFirst : s.dueTimers = t :: (s.dosSwtmrStop t).dueTimers := by
    rw [dueTimers, dueTimers, hPtr, List.filter_cons_of_pos (by simpa using hDue), hStop,
      dosSwtmrStop_wakeTime]
    rfl
  rw [hFirst, dosSwtmrTimeoutHandle]
  apply List.Perm.cons
  by_cases hMode : (s.swtmr t).swtmrMode = 2
  · rw [if_pos hMode]
    have hSelf : ((s.dosSwtmrStop t).swtmr t).swtmrTimeout = (s.swtmr t).swtmrTimeout := by
      simp [dosSwtmrStop, setSwtmr]
    refine (dueTimers_start ?_ ?_ (hStop ▸ hNew)).symm
    · exact hSelf ▸ hTimeout.1
    · exact hSelf ▸ hTimeout.2
  · rw [if_neg hMode, dosSwtmrDelete, dosSwtmrStop_status]
    apply List.Perm.of_eq
    apply List.filter_congr
    intro x hx
    have hNe : x ≠ t := by
      rintro rfl
      exact hNew (hStop ▸ hx)
    rw [wakeTime, wakeTime, show ((s.dosSwtmrStop t).freeSwtmr t).swtmr x =
      (s.dosSwtmrStop t).swtmr x from setSwtmr_ne _ hNe]
    rfl

end Timers

namespace SwtmrRings

/-- The pointers that a loop has handed to `_dos_swtmr_timeout_handle`, and those
whose callback was called. -/
structure ExpiryLog where
  handled : List SwtmrRef
  called : List SwtmrRef
  deriving DecidableEq

/-- The callback that `_dos_swtmr_timeout_handle` calls. -/
def calls (m : SwtmrRings) (swtmr : SwtmrRef) : List SwtmrRef :=
  if (m.node swtmr).swtmrCallBacke then [swtmr] else []

/-- The expiry loop of `_dos_swtmr_task` from the pointer `wake` on, while
`dos_get_tick` gives `tick`. It does not return with fewer rounds than it
needs. -/
def expiryLoop (fuel tick : Nat) : Nat → SwtmrRings → SwtmrRef → Option (ExpiryLog × SwtmrRings)
  | 0, _, _ => none
  | rounds + 1, m, wake =>
      if tick ≥ m.wakeTime wake then
        (m.dosSwtmrTimeoutHandle fuel tick wake).bind fun m' =>
          (expiryLoop fuel tick rounds m' m'.dosGetSwtmr).map fun (log, last) =>
            (⟨wake :: log.handled, m.calls wake ++ log.called⟩, last)
      else some (⟨[], []⟩, m)

/-- The contents `l` and `l'` of the two lists: rings in the order of the wake
times. An existing timer has a callback and a timeout, and it is in one of the
lists if it is running. -/
structure Holds (m : SwtmrRings) (l l' : List SwtmrId) : Prop where
  heads : m.swtmrPtr = .list1 ∧ m.swtmrOverflowPtr = .list2 ∨
    m.swtmrPtr = .list2 ∧ m.swtmrOverflowPtr = .list1
  head : ∀ p, p = .list1 ∨ p = .list2 → (m.node p).data = ({ swtmrWakeTime := 0xFFFFFFFF }, false)
  pair : m.Pair m.swtmrPtr m.swtmrOverflowPtr l l'
  sorted : KeyOrder.Sorted (fun t => m.wakeTime (.timer t)) l
  sortedOverflow : KeyOrder.Sorted (fun t => m.wakeTime (.timer t)) l'
  running : ∀ t, t ∈ l ++ l' ↔ m.alloc t = true ∧ (m.node (.timer t)).swtmrStatus = .running
  callBacke : ∀ t, m.alloc t = true → (m.node (.timer t)).swtmrCallBacke = true
  timeout : ∀ t, m.alloc t = true → (m.node (.timer t)).swtmrStatus ≠ .unused →
    0 < (m.node (.timer t)).swtmrTimeout ∧ (m.node (.timer t)).swtmrTimeout < 2 ^ 32
  wakeTime : ∀ t ∈ l ++ l', m.wakeTime (.timer t) < 2 ^ 32

/-- What the loop is for. The list has no due timer any more, the callback of
every timer that was due has been called once, and the list heads were not
handled. -/
structure Expired (m : SwtmrRings) (tick : Nat) (l : List SwtmrId) (log : ExpiryLog)
    (m' : SwtmrRings) : Prop where
  rest : ∃ rest, m'.RingOf m'.swtmrPtr rest ∧ ∀ t ∈ rest, tick < m'.wakeTime (.timer t)
  once : ∀ t ∈ l, m.wakeTime (.timer t) ≤ tick → log.called.count (.timer t) = 1
  heads : ∀ p ∈ log.handled, p ≠ .list1 ∧ p ≠ .list2

variable {m m' : SwtmrRings} {s : Timers} {t : SwtmrId} {l l' rest : List SwtmrId} {tick : Nat}

/-- The timers of the structures, with the contents `l` and `l'`. The due times
are of the first turn of the counter and the tick is of the second one. -/
def timers (m : SwtmrRings) (l l' : List SwtmrId) (tick : Nat) : Timers :=
  { Timers.dosSwtmrInit 0 true with
    now := 2 ^ 32 + tick
    swtmr := fun t =>
      if m.alloc t then { (m.node (.timer t)).data.1 with due := m.wakeTime (.timer t) } else {}
    alloc := m.alloc
    swtmrPtr := l
    swtmrOverflowPtr := l' }

theorem timers_on (ht : m.alloc t = true) : (m.timers l l' tick).swtmr t =
    { (m.node (.timer t)).data.1 with due := m.wakeTime (.timer t) } := if_pos ht

theorem timers_off (ht : m.alloc t = false) : (m.timers l l' tick).swtmr t = {} :=
  if_neg (Bool.eq_false_iff.mp ht)

theorem alloc_of_used (hUsed : ((m.timers l l' tick).swtmr t).swtmrStatus ≠ .unused) :
    m.alloc t = true := by
  rw [← Bool.not_eq_false]
  intro hFree
  rw [timers_off hFree] at hUsed
  exact hUsed rfl

namespace Holds

theorem listed (h : m.Holds l l') :
    ((m.timers l l' tick).swtmr t).swtmrStatus = .running ↔ t ∈ l ++ l' := by
  rw [h.running t]
  constructor
  · intro hRunning
    have hAlloc : m.alloc t = true := alloc_of_used (by rw [hRunning]; nofun)
    rw [timers_on hAlloc] at hRunning
    exact ⟨hAlloc, hRunning⟩
  · rintro ⟨hAlloc, hRunning⟩
    rw [timers_on hAlloc]
    exact hRunning

theorem timers_wake (h : m.Holds l l') (ht : t ∈ l ++ l') :
    (m.timers l l' tick).wakeTime t = m.wakeTime (.timer t) ∧
      ((m.timers l l' tick).swtmr t).due = m.wakeTime (.timer t) := by
  rw [Timers.wakeTime, timers_on ((h.running t).mp ht).1]
  exact ⟨rfl, rfl⟩

theorem nodup (h : m.Holds l l') : (l ++ l').Nodup := by
  have hNodup (l : List SwtmrId) (p : SwtmrRef) (hRing : m.RingOf p l) : l.Nodup :=
    (List.nodup_cons.mp hRing.nodup).2.of_map _
  refine List.nodup_append.mpr ⟨hNodup l _ h.pair.ring, hNodup l' _ h.pair.other, ?_⟩
  rintro t ht x hx rfl
  exact h.pair.apart (.timer t) (List.mem_cons_of_mem _ (List.mem_map_of_mem ht))
    (List.mem_cons_of_mem _ (List.mem_map_of_mem hx))

/-- Any contents are shown by the rings. -/
theorem shows (h : m.Holds l l') (tick : Nat) : m.Shows (m.timers l l' tick) where
  alloc := rfl
  data t ht := by
    rw [timers_on ht]
    exact Prod.ext rfl (h.callBacke t ht)
  heads := h.heads
  head := h.head
  pair := h.pair

theorem listsOk (h : m.Holds l l') (tick : Nat) : (m.timers l l' tick).ListsOk where
  listed _ := h.listed
  nodup := h.nodup
  sortedPtr := h.sorted.congr fun _ ht => (h.timers_wake (List.mem_append_left _ ht)).1
  sortedOverflow := h.sortedOverflow.congr fun _ ht =>
    (h.timers_wake (List.mem_append_right _ ht)).1
  wake t ht := by
    obtain ⟨hWake, hDue⟩ := h.timers_wake (h.listed.mp ht)
    rw [hWake, hDue, Nat.mod_eq_of_lt (h.wakeTime t (h.listed.mp ht))]
  due t ht := by
    have hBound := h.wakeTime t (h.listed.mp ht)
    rw [(h.timers_wake (h.listed.mp ht)).2]
    simp only [timers]
    omega
  timeout t ht := by
    have hAlloc := alloc_of_used ht
    rw [timers_on hAlloc] at ht ⊢
    exact h.timeout t hAlloc ht
  free t ht := by rw [timers_off ht]

end Holds

/-- The contents of the rings that show two lists. -/
theorem Shows.contents (h : m.Shows s) (hOk : s.ListsOk) :
    m.Holds s.swtmrPtr s.swtmrOverflowPtr where
  heads := h.heads
  head := h.head
  pair := h.pair
  sorted := hOk.sortedPtr.congr fun x hx =>
    h.wakeTime (alloc_of_mem hOk (List.mem_append_left _ hx))
  sortedOverflow := hOk.sortedOverflow.congr fun x hx =>
    h.wakeTime (alloc_of_mem hOk (List.mem_append_right _ hx))
  running t := h.running_iff hOk
  callBacke t ht := h.callBacke (h.alloc ▸ ht)
  timeout t ht hUsed := by
    have hAlloc : s.alloc t = true := h.alloc ▸ ht
    rw [h.timeout hAlloc]
    rw [h.status hAlloc] at hUsed
    exact hOk.timeout t hUsed
  wakeTime t ht := by
    rw [h.wakeTime (alloc_of_mem hOk ht)]
    exact Nat.lt_succ_of_le (hOk.wakeTime_le ((hOk.listed t).mpr ht))

namespace Shows

theorem dosGetSwtmr_nil (h : m.Shows s) (hPtr : s.swtmrPtr = []) : m.dosGetSwtmr = m.swtmrPtr := by
  have hRing := h.pair.ring
  rw [hPtr] at hRing
  exact hRing.linked.head

theorem dosGetSwtmr_cons (h : m.Shows s) (hPtr : s.swtmrPtr = t :: rest) :
    m.dosGetSwtmr = .timer t := by
  have hRing := h.pair.ring
  rw [hPtr] at hRing
  exact hRing.linked.head

/-- Without a due timer the pointer is to a timer or head of a later time, unless
it is the last tick before the wrap. -/
theorem lt_wakeTime (h : m.Shows s) (hOk : s.ListsOk) (hNone : s.dueTimers = [])
    (hTick : s.dosGetTick ≠ 0xFFFFFFFF) : s.dosGetTick < m.wakeTime m.dosGetSwtmr := by
  cases hPtr : s.swtmrPtr with
  | nil =>
      have hHead : m.wakeTime m.swtmrPtr = 0xFFFFFFFF :=
        congrArg (fun x => x.1.swtmrWakeTime) (h.head _ h.ptr)
      have hBound : s.dosGetTick < 2 ^ 32 := Nat.mod_lt _ (by decide)
      rw [h.dosGetSwtmr_nil hPtr, hHead]
      omega
  | cons t rest =>
      have hMem : t ∈ s.swtmrPtr := by simp [hPtr]
      have hAlloc := alloc_of_mem hOk (List.mem_append_left _ hMem)
      rw [h.dosGetSwtmr_cons hPtr, h.wakeTime hAlloc]
      simpa using List.filter_eq_nil_iff.mp hNone t hMem

/-- The first timer, if one is due. -/
theorem exists_due (hOk : s.ListsOk) (hDue : s.dueTimers ≠ []) :
    ∃ t rest, s.swtmrPtr = t :: rest ∧ s.wakeTime t ≤ s.dosGetTick := by
  obtain ⟨x, hx⟩ := List.exists_mem_of_ne_nil _ hDue
  obtain ⟨hMem, hLe⟩ := List.mem_filter.mp hx
  cases hPtr : s.swtmrPtr with
  | nil => simp [hPtr] at hMem
  | cons t rest =>
      have hFirst := hOk.head_le (by rw [hPtr]; rfl) hMem
      exact ⟨t, rest, rfl, hFirst.trans (of_decide_eq_true hLe)⟩

/-- The loop, by induction on the number of due timers. -/
theorem expiryLoop_returns (h : m.Shows s) (hOk : s.ListsOk) (hTick : s.dosGetTick ≠ 0xFFFFFFFF) :
    ∃ handled m' s', m'.Shows s' ∧ s'.ListsOk ∧ s'.dosGetTick = s.dosGetTick ∧
      s'.dueTimers = [] ∧ handled.Perm (s.dueTimers.map .timer) ∧
      ∃ n, ∀ fuel ≥ n, ∀ rounds ≥ n,
        expiryLoop fuel s.dosGetTick rounds m m.dosGetSwtmr = some (⟨handled, handled⟩, m') := by
  induction hCount : s.dueTimers.length generalizing m s with
  | zero =>
      have hNone := List.eq_nil_of_length_eq_zero hCount
      have hLater := h.lt_wakeTime hOk hNone hTick
      refine ⟨[], m, s, h, hOk, rfl, hNone, by rw [hNone]; exact .refl _, 1, ?_⟩
      rintro fuel - rounds hRounds
      obtain ⟨rounds, rfl⟩ := Nat.exists_eq_add_of_le' hRounds
      rw [expiryLoop, if_neg (Nat.not_le.mpr hLater)]
  | succ count ih =>
      obtain ⟨t, rest, hPtr, hDue⟩ := exists_due hOk (List.ne_nil_of_length_eq_add_one hCount)
      have hMem : t ∈ s.swtmrPtr := by simp [hPtr]
      have hAlloc := alloc_of_mem hOk (List.mem_append_left _ hMem)
      have hPerm := Timers.dueTimers_timeoutHandle hOk hPtr hDue
      have hSame : (s.dosSwtmrTimeoutHandle t).dosGetTick = s.dosGetTick :=
        congrArg (· % 2 ^ 32) (Timers.sameQueue_dosSwtmrTimeoutHandle s t).now
      obtain ⟨m₁, hShows, n₁, hHandle⟩ := h.timeoutHandle hOk hMem
      have hOk₁ := hOk.edited (Timers.edited_dosSwtmrTimeoutHandle (hOk.running_ptr hMem))
      have hLeft : (s.dosSwtmrTimeoutHandle t).dueTimers.length = count := by
        have hLength := hPerm.length_eq
        rw [hCount, List.length_cons] at hLength
        exact (Nat.succ.inj hLength).symm
      obtain ⟨handled, m', s', hShows', hOk', hTick', hNone, hHandled, n₂, hLoop⟩ :=
        ih hShows hOk₁ (hSame ▸ hTick) hLeft
      refine ⟨.timer t :: handled, m', s', hShows', hOk', hTick'.trans hSame, hNone,
        (hHandled.cons _).trans (hPerm.map SwtmrRef.timer).symm, max n₁ (n₂ + 1), ?_⟩
      intro fuel hFuel rounds hRounds
      obtain ⟨rounds, rfl⟩ := Nat.exists_eq_add_of_le' ((Nat.le_max_right _ _).trans hRounds)
      rw [← Nat.add_assoc, expiryLoop, h.dosGetSwtmr_cons hPtr, h.wakeTime hAlloc, if_pos hDue,
        hHandle fuel ((Nat.le_max_left _ _).trans hFuel), Option.bind_some, ← hSame,
        hLoop fuel (by omega) _ (by omega), calls, h.callBacke hAlloc]
      rfl

/-- On the last tick before the wrap the loop does not end. -/
theorem expiryLoop_last (h : m.Shows s) (hOk : s.ListsOk) (fuel rounds : Nat) :
    expiryLoop fuel 0xFFFFFFFF rounds m m.dosGetSwtmr = none := by
  induction rounds generalizing m s with
  | zero => rfl
  | succ rounds ih =>
      have hReached : m.wakeTime m.dosGetSwtmr ≤ 0xFFFFFFFF := by
        rcases h.first_cases with hHead | ⟨t, ht, hFirst⟩
        · rw [hHead]
          exact (congrArg (fun x => x.1.swtmrWakeTime) (h.head _ h.ptr)).le
        · rw [hFirst, h.wakeTime (alloc_of_mem hOk (List.mem_append_left _ ht))]
          exact hOk.wakeTime_le (hOk.running_ptr ht)
      rw [expiryLoop, if_pos hReached]
      cases hHandle : m.dosSwtmrTimeoutHandle fuel 0xFFFFFFFF m.dosGetSwtmr with
      | none => rfl
      | some m₁ =>
          obtain ⟨m', s', hShows, hOk', n, hReturn⟩ :=
            h.returns_timeoutHandle hOk (show 0xFFFFFFFF < 2 ^ 32 by decide)
          -- The handler gives one result, whatever the number of rounds.
          have hSame : m' = m₁ := Option.some.inj <| (hReturn _ (Nat.le_max_right fuel n)).symm.trans
            (timeoutHandle_mono (Nat.le_max_left fuel n) hHandle)
          subst hSame
          rw [Option.bind_some, ih hShows hOk', Option.map_none]

end Shows

end SwtmrRings

/-- The expiry loop at a constant tick, with any contents of the lists. It ends
with no due timer left, after the callback of each due timer was called once and
no list head was handled, if and only if the tick is not the last one before the
wrap. -/
theorem expiry_loop_ends_iff {m : SwtmrRings} {l l' : List SwtmrId} {tick : Nat}
    (hHolds : m.Holds l l') (hTick : tick < 2 ^ 32) :
    (∃ log m', (∃ n, ∀ fuel ≥ n, ∀ rounds ≥ n,
        SwtmrRings.expiryLoop fuel tick rounds m m.dosGetSwtmr = some (log, m')) ∧
      m.Expired tick l log m') ↔ tick ≠ 0xFFFFFFFF := by
  obtain ⟨s, hShows, hOk, rfl, rfl⟩ : ∃ s : Timers, m.Shows s ∧ s.ListsOk ∧ s.swtmrPtr = l ∧
      s.dosGetTick = tick := by
    refine ⟨m.timers l l' tick, hHolds.shows tick, hHolds.listsOk tick, rfl, ?_⟩
    simp only [SwtmrRings.timers, Timers.dosGetTick]
    omega
  constructor
  · rintro ⟨log, m', ⟨n, hLoop⟩, -⟩ hLast
    have hReturn := hLoop n (Nat.le_refl n) n (Nat.le_refl n)
    rw [hLast, hShows.expiryLoop_last hOk] at hReturn
    cases hReturn
  · intro hNotLast
    obtain ⟨handled, m', s', hShows', hOk', hTick', hNone, hPerm, hLoop⟩ :=
      hShows.expiryLoop_returns hOk hNotLast
    refine ⟨⟨handled, handled⟩, m', hLoop, ⟨s'.swtmrPtr, hShows'.pair.ring, ?_⟩, ?_, ?_⟩
    · intro t ht
      rw [hShows'.wakeTime (SwtmrRings.Shows.alloc_of_mem hOk' (List.mem_append_left _ ht)),
        ← hTick']
      simpa using List.filter_eq_nil_iff.mp hNone t ht
    · intro t ht hDue
      rw [hShows.wakeTime (SwtmrRings.Shows.alloc_of_mem hOk (List.mem_append_left _ ht))] at hDue
      have hNodup : (s.dueTimers.map SwtmrRef.timer).Nodup :=
        (((List.nodup_append.mp hOk.nodup).1).filter _).map fun _ _ => SwtmrRef.timer.inj
      refine (hPerm.count_eq _).trans (List.count_eq_one_of_mem hNodup ?_)
      exact List.mem_map_of_mem (List.mem_filter.mpr ⟨ht, decide_eq_true hDue⟩)
    · intro p hp
      obtain ⟨t, -, rfl⟩ := List.mem_map.mp (hPerm.mem_iff.mp hp)
      exact ⟨by simp, by simp⟩

namespace SwtmrRings

/-- The timers `8`, periodic, and `9` are due at the tick `0xFFFFFFFE` and
`0xFFFFFFFF`. -/
def beforeWrap : List RingEvent :=
  [.create 8 2 2, .create 9 3 1, .sample, .command ⟨.start, some 8⟩ 0xFFFFFFFC, .sample,
    .command ⟨.start, some 9⟩ 0xFFFFFFFC, .sample, .timeout]

/-- A run leaves contents of the lists. -/
theorem exists_holds {events : List RingEvent} {fuel : Nat} {node : SwtmrRef → SwtmrNode}
    (hRun : Runs (ringStep fuel) (dosSwtmrInit node) events m) : ∃ l l', m.Holds l l' := by
  have hSound : m.Sound := by
    refine hRun.invariant Sound (Sound.init node) ?_
    intro s event s' hSound _ hStep
    exact hSound.step hStep
  obtain ⟨s, hShows, hOk⟩ := hSound.holds
  exact ⟨s.swtmrPtr, s.swtmrOverflowPtr, hShows.contents hOk⟩

end SwtmrRings

theorem expiry_loop_ends_iff_before : ∃ m l l', Runs (ringStep 4)
      (SwtmrRings.dosSwtmrInit fun _ => {}) SwtmrRings.beforeWrap m ∧ m.Holds l l' ∧
    ∃ log m', (∃ n, ∀ fuel ≥ n, ∀ rounds ≥ n,
        SwtmrRings.expiryLoop fuel 0xFFFFFFFE rounds m m.dosGetSwtmr = some (log, m')) ∧
      m.Expired 0xFFFFFFFE l log m' := by
  have hEnd : (exec (ringStep 4) (SwtmrRings.dosSwtmrInit fun _ => {})
      SwtmrRings.beforeWrap).isSome = true := by decide +kernel
  have hRun := runs_of_isSome hEnd
  obtain ⟨l, l', hHolds⟩ := SwtmrRings.exists_holds hRun
  exact ⟨_, l, l', hRun, hHolds, (expiry_loop_ends_iff hHolds (by decide)).mpr (by decide)⟩

/-- One tick later the loop never ends. Behind the two timers it handles the list
head. -/
theorem expiry_loop_spins : ∃ m l l' m₁, Runs (ringStep 4)
      (SwtmrRings.dosSwtmrInit fun _ => {}) SwtmrRings.beforeWrap m ∧ m.Holds l l' ∧
    (∀ fuel rounds, SwtmrRings.expiryLoop fuel 0xFFFFFFFF rounds m m.dosGetSwtmr = none) ∧
    Runs (ringStep 4) m (List.replicate 2 (.expire 0xFFFFFFFF 0xFFFFFFFF)) m₁ ∧
    m₁.stage = .expire .list1 ∧ m₁.wakeTime .list1 ≤ 0xFFFFFFFF := by
  have hEnd : ((exec (ringStep 4) (SwtmrRings.dosSwtmrInit fun _ => {})
      SwtmrRings.beforeWrap).bind fun m =>
        (exec (ringStep 4) m (List.replicate 2 (.expire 0xFFFFFFFF 0xFFFFFFFF))).map
          fun m => (m.stage, m.wakeTime .list1)) = some (.expire .list1, 0xFFFFFFFF) := by
    decide +kernel
  obtain ⟨m, hExec, hLoop⟩ := Option.bind_eq_some_iff.mp hEnd
  obtain ⟨m₁, hExec₁, hFacts⟩ := Option.map_eq_some_iff.mp hLoop
  simp only [Prod.mk.injEq] at hFacts
  have hRun := runs_of_exec hExec
  obtain ⟨l, l', hHolds⟩ := SwtmrRings.exists_holds hRun
  exact ⟨m, l, l', m₁, hRun, hHolds, (hHolds.shows 0).expiryLoop_last (hHolds.listsOk 0),
    runs_of_exec hExec₁, hFacts.1, hFacts.2.le⟩

end DoraOS
