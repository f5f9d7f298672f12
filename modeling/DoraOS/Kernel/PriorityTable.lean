import DoraOS.Kernel.Scheduler
import Mathlib.Order.Bounds.Defs

/-! The table of ready priorities when there are more than 32 of them. The
search of `dos_check_task_priority` reads bit `p % 32` of word `p / 32` as
priority `p`, while `DOS_PRIORITY_TAB_INDEX` keeps `p` in word `(p - 1) / 32`.
The two agree except at the positive multiples of 32. -/
namespace DoraOS.Kernel

open BitSet

/-- The priorities the table stands for, as the search decodes it. -/
def Represents (k : Kernel) (p : Nat) : Prop :=
  (k.dosTaskPriority (p / 32)).getLsbD (p % 32) = true

instance (k : Kernel) (p : Nat) : Decidable (k.Represents p) :=
  inferInstanceAs (Decidable (_ = true))

/-- `DOS_SET_TASK_PTIORITY` for one task after another. -/
def markAll (k : Kernel) (ts : List TaskId) : Kernel := ts.foldl dosSetTaskPtiority k

/-- Unmarking `t` takes its priority from the represented ones and no other. -/
def ResetsExactly (k : Kernel) (t : TaskId) : Prop :=
  ∀ p, (k.dosResetTaskPtiority t).Represents p ↔ k.Represents p ∧ p ≠ k.priority t

/-- A priority that is marked in the word it is looked for. -/
def InOwnWord (p : Nat) : Prop := p = 0 ∨ p % 32 ≠ 0

instance (p : Nat) : Decidable (InOwnWord p) := inferInstanceAs (Decidable (_ ∨ _))

/-- The priority that the search reads where `p` was marked. -/
def markedAs (p : Nat) : Nat := 32 * ((p - 1) / 32) + p % 32

variable {k : Kernel} {t : TaskId} {p : Nat}

section Encoding

/-- A priority in its own word is read as itself. -/
theorem markedAs_of_own (hOwn : InOwnWord p) : markedAs p = p := by
  unfold markedAs
  rcases hOwn with rfl | hOwn
  · rfl
  · omega

/-- A positive multiple of 32 is marked as the one before it. -/
theorem markedAs_of_multiple (hOwn : ¬InOwnWord p) : markedAs p + 32 = p := by
  rw [InOwnWord, not_or, not_not] at hOwn
  unfold markedAs
  omega

/-- An assignment to one word is seen at the priorities of that word only. -/
theorem represents_mapPriorityWord (i : Nat) (f : BitVec 32 → BitVec 32) :
    (k.mapPriorityWord i f).Represents p ↔
      if p / 32 = i then (f (k.dosTaskPriority i)).getLsbD (p % 32) = true
      else k.Represents p := by
  unfold Represents mapPriorityWord
  dsimp only
  split
  · rename_i hWord
    rw [hWord]
  · exact Iff.rfl

/-- Marking adds the priority that is read in the place of the marked one. -/
theorem represents_set (hMax : 32 < k.config.dosMaxPriorityNum) :
    (k.dosSetTaskPtiority t).Represents p ↔ k.Represents p ∨ p = markedAs (k.priority t) := by
  unfold dosSetTaskPtiority
  rw [represents_mapPriorityWord, Config.priorityTabIndex, Config.priorityTabBit, if_pos hMax,
    if_pos hMax, markedAs]
  split
  · rename_i hWord
    rw [getLsbD_set _ (Nat.mod_lt _ (by decide)), Bool.or_eq_true, decide_eq_true_eq,
      Represents, hWord]
    have hBit : p % 32 = k.priority t % 32 ↔
        p = 32 * ((k.priority t - 1) / 32) + k.priority t % 32 := by omega
    rw [hBit]
  · rename_i hWord
    have hOther : p ≠ 32 * ((k.priority t - 1) / 32) + k.priority t % 32 := by omega
    rw [or_iff_left hOther]

/-- Unmarking takes away the priority that the search would have read. -/
theorem represents_reset (hMax : 32 < k.config.dosMaxPriorityNum) :
    (k.dosResetTaskPtiority t).Represents p ↔ k.Represents p ∧ p ≠ markedAs (k.priority t) := by
  unfold dosResetTaskPtiority
  rw [represents_mapPriorityWord, Config.priorityTabIndex, Config.priorityTabBit, if_pos hMax,
    if_pos hMax, markedAs]
  split
  · rename_i hWord
    rw [getLsbD_clear, Bool.and_eq_true, decide_eq_true_eq, Represents, hWord]
    have hBit : p % 32 ≠ k.priority t % 32 ↔
        p ≠ 32 * ((k.priority t - 1) / 32) + k.priority t % 32 := by omega
    rw [hBit]
  · rename_i hWord
    have hOther : p ≠ 32 * ((k.priority t - 1) / 32) + k.priority t % 32 := by omega
    rw [and_iff_left hOther]

/-- An exact reset is one of a priority in its own word, or one that finds
nothing in both places. -/
theorem resetsExactly_iff (hMax : 32 < k.config.dosMaxPriorityNum) :
    k.ResetsExactly t ↔ InOwnWord (k.priority t) ∨
      ¬k.Represents (k.priority t) ∧ ¬k.Represents (k.priority t - 32) := by
  simp only [ResetsExactly, represents_reset hMax]
  by_cases hOwn : InOwnWord (k.priority t)
  · simp [hOwn, markedAs_of_own hOwn]
  · have hMark := markedAs_of_multiple hOwn
    have hPlace : k.priority t - 32 = markedAs (k.priority t) := by omega
    rw [or_iff_right hOwn, hPlace]
    constructor
    · intro hExact
      refine ⟨fun hHere => ?_, fun hThere => ?_⟩
      · exact ((hExact _).mp ⟨hHere, by omega⟩).2 rfl
      · exact ((hExact _).mpr ⟨hThere, by omega⟩).2 rfl
    · rintro ⟨hHere, hThere⟩ p
      refine and_congr_right fun hp => ⟨fun _ hEq => ?_, fun _ hEq => ?_⟩
      · exact hHere (hEq ▸ hp)
      · exact hThere (hEq ▸ hp)

/-- Marking leaves the configuration and the control blocks alone. -/
theorem markAll_frame (k : Kernel) (ts : List TaskId) :
    (k.markAll ts).config = k.config ∧ (k.markAll ts).tcb = k.tcb := by
  induction ts generalizing k with
  | nil => exact ⟨rfl, rfl⟩
  | cons t ts ih => exact ih (k.dosSetTaskPtiority t)

theorem priority_markAll (k : Kernel) (ts : List TaskId) (t : TaskId) :
    (k.markAll ts).priority t = k.priority t := by
  rw [priority, (markAll_frame k ts).2]
  rfl

/-- Marking some tasks adds what the search reads for them. -/
theorem represents_markAll (ts : List TaskId) (hMax : 32 < k.config.dosMaxPriorityNum) :
    (k.markAll ts).Represents p ↔ k.Represents p ∨ ∃ t ∈ ts, markedAs (k.priority t) = p := by
  induction ts generalizing k with
  | nil => simp [markAll]
  | cons t ts ih =>
      have hHead := represents_set (k := k) (t := t) (p := p) hMax
      have hTail := ih (k := k.dosSetTaskPtiority t) hMax
      have hSame : ∀ u, (k.dosSetTaskPtiority t).priority u = k.priority u := fun _ => rfl
      rw [show k.markAll (t :: ts) = (k.dosSetTaskPtiority t).markAll ts from rfl, hTail, hHead]
      simp only [hSame, List.mem_cons, exists_eq_or_imp, or_assoc, eq_comm (a := p)]

/-- The largest positive multiple of 32 among the marked priorities is not
represented. -/
theorem own_of_represented {ts : List TaskId} {bound : Nat}
    (hRange : ∀ t ∈ ts, k.priority t < bound)
    (hAll : ∀ t ∈ ts, ∃ u ∈ ts, markedAs (k.priority u) = k.priority t) :
    ∀ t ∈ ts, InOwnWord (k.priority t) := by
  -- each multiple of 32 needs the next one to be marked
  have hNone (n : Nat) : ∀ t ∈ ts, bound ≤ k.priority t + n → InOwnWord (k.priority t) := by
    induction n with
    | zero => exact fun t ht hFar => absurd (hRange t ht) (Nat.not_lt.mpr hFar)
    | succ n ih =>
        intro t ht hFar
        by_contra hOwn
        obtain ⟨u, hu, hMark⟩ := hAll t ht
        by_cases hOwn' : InOwnWord (k.priority u)
        · rw [← hMark, markedAs_of_own hOwn'] at hOwn
          exact hOwn hOwn'
        · have hNext := markedAs_of_multiple hOwn'
          exact hOwn' (ih u hu (by omega))
  exact fun t ht => hNone bound t ht (Nat.le_add_left _ _)

end Encoding

section Search

/-- The first word that is not zero is the word of the least represented
priority. -/
theorem priorityWord_spec (hMax : 32 < k.config.dosMaxPriorityNum)
    (hRange : ∀ p, k.Represents p → p < k.config.dosMaxPriorityNum) (hSome : k.Represents p) :
    k.dosTaskPriority k.dosPriorityWord ≠ 0 ∧
      ∀ i, i < k.dosPriorityWord → k.dosTaskPriority i = 0 := by
  have hInside : p / 32 < k.config.dosPriorityTab := by
    have hLt := hRange p hSome
    rw [Config.dosPriorityTab, if_pos hMax]
    omega
  have hFound : ((List.range k.config.dosPriorityTab).find? fun i =>
      k.dosTaskPriority i ≠ 0).isSome = true := by
    rw [List.find?_isSome]
    exact ⟨p / 32, List.mem_range.mpr hInside, by simpa using ne_zero_of_getLsbD hSome⟩
  obtain ⟨i, hi⟩ := Option.isSome_iff_exists.mp hFound
  have hWord : k.dosPriorityWord = i := by
    rw [dosPriorityWord, if_pos hMax, hi]
    rfl
  obtain ⟨hNonzero, _, hBefore⟩ := List.find?_range_eq_some.mp hi
  rw [hWord]
  exact ⟨by simpa using hNonzero, fun j hj => by simpa using hBefore j hj⟩

/-- The search finds the least represented priority. -/
theorem findPriority_isLeast (hMax : 32 < k.config.dosMaxPriorityNum)
    (hRange : ∀ p, k.Represents p → p < k.config.dosMaxPriorityNum) (hSome : k.Represents p) :
    IsLeast {q | k.Represents q} k.dosFindPriority.dosCurPriority := by
  obtain ⟨hWord, hBefore⟩ := priorityWord_spec hMax hRange hSome
  have hLowest := dosGetHighestPriority_lowest k.config hWord
  have hCur : k.dosFindPriority.dosCurPriority =
      dosGetHighestPriority k.config (k.dosTaskPriority k.dosPriorityWord) +
        32 * k.dosPriorityWord := rfl
  have hBit : dosGetHighestPriority k.config (k.dosTaskPriority k.dosPriorityWord) < 32 :=
    BitVec.lt_of_getLsbD hLowest.1
  constructor
  · show (k.dosTaskPriority (_ / 32)).getLsbD (_ % 32) = true
    rw [hCur, Nat.add_mul_div_left _ _ (by decide), Nat.div_eq_of_lt hBit, Nat.zero_add,
      Nat.add_mul_mod_self_left, Nat.mod_eq_of_lt hBit]
    exact hLowest.1
  · intro q hq
    rw [hCur]
    rcases Nat.lt_trichotomy (q / 32) k.dosPriorityWord with hLess | hSame | hMore
    · exact absurd (hBefore _ hLess) (ne_zero_of_getLsbD hq)
    · have hLe := hLowest.le (show (k.dosTaskPriority k.dosPriorityWord).getLsbD (q % 32) = true by
        rw [← hSame]
        exact hq)
      omega
    · omega

end Search

/-- For every number of priorities above 32, the table stands for exactly the
marked priorities iff none of them is a positive multiple of 32. Iff so, the
search finds the least of them and unmarking any of them removes that one and
no other. What is unmarked need not be marked before. -/
theorem priority_table_exact (k : Kernel) (hMax : 32 < k.config.dosMaxPriorityNum)
    (hZero : ∀ i, k.dosTaskPriority i = 0) (ts : List TaskId) (hSome : ts ≠ [])
    (hRange : ∀ t ∈ ts, k.priority t < k.config.dosMaxPriorityNum) :
    ((∀ p, (k.markAll ts).Represents p ↔ ∃ t ∈ ts, k.priority t = p) ↔
      ∀ t ∈ ts, InOwnWord (k.priority t)) ∧
    (IsLeast {p | ∃ t ∈ ts, k.priority t = p}
        (k.markAll ts).dosCheckTaskPriority.1.dosCurPriority ∧
        (∀ t ∈ ts, (k.markAll ts).ResetsExactly t) ↔
      ∀ t ∈ ts, InOwnWord (k.priority t)) ∧
    ∀ t, (k.markAll ts).ResetsExactly t ↔ InOwnWord (k.priority t) ∨
      ¬(k.markAll ts).Represents (k.priority t) ∧
        ¬(k.markAll ts).Represents (k.priority t - 32) := by
  have hMaxAll : 32 < (k.markAll ts).config.dosMaxPriorityNum := by
    rwa [(markAll_frame k ts).1]
  have hMarks (p : Nat) : (k.markAll ts).Represents p ↔ ∃ t ∈ ts, markedAs (k.priority t) = p := by
    have hEmpty : ¬k.Represents p := by simp [Represents, hZero]
    rw [represents_markAll ts hMax, or_iff_right hEmpty]
  have hReset (t : TaskId) := resetsExactly_iff (t := t) hMaxAll
  simp only [priority_markAll] at hReset
  have hExact (hOwn : ∀ t ∈ ts, InOwnWord (k.priority t)) (p : Nat) :
      (k.markAll ts).Represents p ↔ ∃ t ∈ ts, k.priority t = p := by
    rw [hMarks]
    refine exists_congr fun t => and_congr_right fun ht => ?_
    rw [markedAs_of_own (hOwn t ht)]
  refine ⟨⟨fun hAll => ?_, hExact⟩, ⟨?_, fun hOwn => ⟨?_, ?_⟩⟩, hReset⟩
  · exact own_of_represented hRange fun t ht => (hMarks _).mp ((hAll _).mpr ⟨t, ht, rfl⟩)
  · -- what marking `t` has set is found by its reset
    rintro ⟨-, hResets⟩ t ht
    by_contra hOwn
    refine (((hReset t).mp (hResets t ht)).resolve_left hOwn).2 ((hMarks _).mpr ⟨t, ht, ?_⟩)
    have hPlace := markedAs_of_multiple hOwn
    omega
  · obtain ⟨t, hMem⟩ := List.exists_mem_of_ne_nil ts hSome
    have hRangeAll : ∀ p, (k.markAll ts).Represents p →
        p < (k.markAll ts).config.dosMaxPriorityNum := by
      intro p hp
      obtain ⟨u, hu, rfl⟩ := (hExact hOwn p).mp hp
      rw [(markAll_frame k ts).1]
      exact hRange u hu
    have hLeast := findPriority_isLeast hMaxAll hRangeAll ((hExact hOwn _).mpr ⟨t, hMem, rfl⟩)
    rw [check_curPriority]
    simpa only [hExact hOwn] using hLeast
  · exact fun t ht => (hReset t).mpr (Or.inl (hOwn t ht))

/-- A kernel of `n` priorities in which task `t` has priority `prio t`. -/
def withPriorities (n : Nat) (prio : TaskId → Nat) : Kernel :=
  { Kernel.boot ⟨n, true⟩ with tcb := fun t => { priority := prio t } }

/-- Priorities 70, 33 and 1 of 100, in three words of the table. -/
theorem priority_table_exact_words :
    IsLeast {p | ∃ t ∈ [0, 1, 2], (withPriorities 100 ([70, 33, 1].getD · 0)).priority t = p}
      ((withPriorities 100 ([70, 33, 1].getD · 0)).markAll
        [0, 1, 2]).dosCheckTaskPriority.1.dosCurPriority :=
  ((priority_table_exact (withPriorities 100 ([70, 33, 1].getD · 0)) (by decide) (fun _ => rfl)
    [0, 1, 2] (by decide) (by decide)).2.1.mpr (by decide)).1

/-- With 64 priorities, the lone priority 32 is found as priority 0. With the
priorities 0 and 32 marked, unmarking 32 removes 0. -/
theorem multiple_of_32_misplaced :
    ((withPriorities 64 fun _ => 32).markAll [1]).dosCheckTaskPriority.1.dosCurPriority = 0 ∧
    ((withPriorities 64 fun t => 32 * t).markAll [0, 1]).Represents 0 ∧
    ¬(((withPriorities 64 fun t => 32 * t).markAll [0, 1]).dosResetTaskPtiority 1).Represents
      0 := by
  decide +kernel

end DoraOS.Kernel
