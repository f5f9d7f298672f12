import DoraOS.Ipc.MutexEffect
import DoraOS.Library.History
import Mathlib.Algebra.BigOperators.Group.List.Basic

/-! Mutual exclusion with recursion. The labels of a run record who was
granted a mutex and who gave it back; the owner and the counter of the mutex
agree with that record as long as the 16-bit counter does not overflow. -/
namespace DoraOS

namespace Label

def mutexOf : Label → Option Nat
  | .mutexGranted m _ _ => some m
  | .mutexNested m _ => some m
  | .mutexReleased m _ => some m
  | _ => none

/-- The change in the number of grants of `m` that `t` has not given back. -/
def mutexDelta (m : Nat) (t : TaskId) : Label → Int
  | .mutexGranted m' t' _ => if m' = m ∧ t' = t then 1 else 0
  | .mutexNested m' t' => if m' = m ∧ t' = t then 1 else 0
  | .mutexReleased m' t' => if m' = m ∧ t' = t then -1 else 0
  | _ => 0

/-- A grant of `m` that makes a new owner. -/
def isNewOwner (m : Nat) : Label → Bool
  | .mutexGranted m' _ _ => m' = m
  | _ => false

/-- A direct grant, a grant by hand-off or a recursive grant of `m` to `t`. -/
def GrantsTo (m : Nat) (t : TaskId) (l : Label) : Prop :=
  (∃ prio, l = .mutexGranted m t prio) ∨ l = .mutexNested m t

end Label

/-- Grants of `m` to `t` minus successful posts by `t`. -/
def outstanding (past : List Label) (m : Nat) (t : TaskId) : Int :=
  (past.map (Label.mutexDelta m t)).sum

/-- The labels since `m` got its present owner. -/
def sinceOwned (m : Nat) (past : List Label) : List Label :=
  past.foldl (fun acc l => if l.isNewOwner m then [l] else acc ++ [l]) []

/-- Every grant of `m` came when no other task had outstanding grants. -/
def Exclusive (past : List Label) (m : Nat) : Prop :=
  History.Always (fun before l => ∀ t, l.GrantsTo m t → ∀ x, x ≠ t → outstanding before m x = 0) past

section Record

variable {past : List Label} {m : Nat} {t : TaskId} {l : Label}

theorem outstanding_snoc : outstanding (past ++ [l]) m t =
    outstanding past m t + l.mutexDelta m t := by
  simp [outstanding]

theorem sinceOwned_snoc : sinceOwned m (past ++ [l]) =
    if l.isNewOwner m then [l] else sinceOwned m past ++ [l] := by
  simp [sinceOwned]

theorem mutexDelta_other (h : l.mutexOf ≠ some m) : l.mutexDelta m t = 0 := by
  cases l <;> simp_all [Label.mutexOf, Label.mutexDelta]

theorem isNewOwner_other (h : l.mutexOf ≠ some m) : l.isNewOwner m = false := by
  cases l <;> simp_all [Label.mutexOf, Label.isNewOwner]

theorem mutexOf_of_not_isMutex (h : ¬l.isMutex = true) : l.mutexOf = none := by
  cases l <;> simp_all [Label.isMutex, Label.mutexOf]

theorem Label.GrantsTo.mutexOf (h : l.GrantsTo m t) : l.mutexOf = some m := by
  rcases h with ⟨prio, rfl⟩ | rfl <;> rfl

end Record

/-- The mutex `x` agrees with the record of its labels. -/
structure MutexOk (m : Nat) (past : List Label) (x : Mutex) : Prop where
  free : x.mutexOwner = none → x.mutexCount = 0
  held : ∀ t, x.mutexOwner = some t → 0 < x.mutexCount ∧ x.mutexCount < 2 ^ 16 ∧
    outstanding (sinceOwned m past) m t = x.mutexCount
  record : ∀ t, outstanding past m t = if x.mutexOwner = some t then (x.mutexCount : Int) else 0
  exclusive : Exclusive past m

namespace MutexOk

variable {m : Nat} {past : List Label} {x : Mutex} {l : Label}

theorem unowned (h : MutexOk m past x) (hCount : x.mutexCount = 0) : x.mutexOwner = none := by
  cases hOwner : x.mutexOwner with
  | none => rfl
  | some t =>
      have hPositive := (h.held t hOwner).1
      omega

theorem other (h : MutexOk m past x) (hl : l.mutexOf ≠ some m) : MutexOk m (past ++ [l]) x where
  free := h.free
  held t hOwner := by
    obtain ⟨hPositive, hBound, hSince⟩ := h.held t hOwner
    refine ⟨hPositive, hBound, ?_⟩
    rw [sinceOwned_snoc, isNewOwner_other hl, if_neg (by simp), outstanding_snoc,
      mutexDelta_other hl, hSince, add_zero]
  record t := by
    rw [outstanding_snoc, mutexDelta_other hl, h.record t, add_zero]
  exclusive := by
    refine h.exclusive.snoc ?_
    intro t hGrant
    exact absurd hGrant.mutexOf hl

theorem others (h : MutexOk m past x) {ls : List Label} (hls : ∀ l ∈ ls, l.mutexOf ≠ some m) :
    MutexOk m (past ++ ls) x := by
  induction ls using List.reverseRecOn with
  | nil => simpa using h
  | append_singleton ls l ih =>
      rw [← List.append_assoc]
      have hBefore := ih fun l hl => hls l (List.mem_append_left _ hl)
      exact hBefore.other (hls l (List.mem_append_right _ (List.mem_singleton_self l)))

theorem grant (h : MutexOk m past x) (hCount : x.mutexCount = 0) (c : TaskId) (prio : Nat) :
    MutexOk m (past ++ [.mutexGranted m c prio]) ⟨1, prio, some c⟩ where
  free hOwner := by cases hOwner
  held t hOwner := by
    have ht : c = t := Option.some.inj hOwner
    refine ⟨Nat.one_pos, Nat.one_lt_two_pow (by decide), ?_⟩
    rw [sinceOwned_snoc]
    simp [Label.isNewOwner, outstanding, Label.mutexDelta, ht]
  record t := by
    rw [outstanding_snoc, h.record t, h.unowned hCount]
    simp [Label.mutexDelta]
  exclusive := by
    refine h.exclusive.snoc ?_
    intro t _ y _
    rw [h.record y, h.unowned hCount]
    simp

theorem nest (h : MutexOk m past x) {c : TaskId} (hOwner : x.mutexOwner = some c)
    (hDepth : x.mutexCount < 2 ^ 16 - 1) :
    MutexOk m (past ++ [.mutexNested m c]) x.mutexCountInc where
  free hNone := by
    have hSame : x.mutexOwner = none := hNone
    rw [hOwner] at hSame
    cases hSame
  held t ht := by
    obtain ⟨hPositive, hBound, hSince⟩ := h.held t ht
    have hEq : c = t := Option.some.inj (hOwner.symm.trans ht)
    have hInc : x.mutexCountInc.mutexCount = x.mutexCount + 1 := Nat.mod_eq_of_lt (by omega)
    rw [hInc, sinceOwned_snoc, if_neg (by simp [Label.isNewOwner]), outstanding_snoc, hSince]
    exact ⟨by omega, by omega, by simp [Label.mutexDelta, hEq]⟩
  record t := by
    have hInc : x.mutexCountInc.mutexCount = x.mutexCount + 1 := Nat.mod_eq_of_lt (by omega)
    have hSame : x.mutexCountInc.mutexOwner = some c := hOwner
    rw [outstanding_snoc, h.record t, hSame, hInc, hOwner]
    by_cases ht : c = t <;> simp [Label.mutexDelta, ht]
  exclusive := by
    refine h.exclusive.snoc ?_
    intro t hGrant y hy
    have ht : c = t := by
      rcases hGrant with ⟨prio, hEq⟩ | hEq
      · cases hEq
      · cases hEq
        rfl
    rw [h.record y, hOwner, if_neg]
    rw [ht]
    simpa [eq_comm] using hy

/-- No label but a grant can break exclusion. -/
theorem exclusive_release (h : MutexOk m past x) (c : TaskId) :
    Exclusive (past ++ [.mutexReleased m c]) m := by
  refine h.exclusive.snoc ?_
  rintro t (⟨prio, hEq⟩ | hEq)
  · cases hEq
  · cases hEq

theorem leave (h : MutexOk m past x) {c : TaskId} (hOwner : x.mutexOwner = some c)
    (hCount : 1 < x.mutexCount) :
    MutexOk m (past ++ [.mutexReleased m c]) { x with mutexCount := x.mutexCount - 1 } where
  free hNone := by
    have hSame : x.mutexOwner = none := hNone
    rw [hOwner] at hSame
    cases hSame
  held t ht := by
    obtain ⟨hPositive, hBound, hSince⟩ := h.held t ht
    have hEq : c = t := Option.some.inj (hOwner.symm.trans ht)
    rw [sinceOwned_snoc, if_neg (by simp [Label.isNewOwner]), outstanding_snoc, hSince]
    refine ⟨?_, ?_, ?_⟩
    · show 0 < x.mutexCount - 1
      omega
    · show x.mutexCount - 1 < 2 ^ 16
      omega
    · simp only [Label.mutexDelta, hEq, and_self, if_true]
      omega
  record t := by
    rw [outstanding_snoc, h.record t]
    simp only [hOwner, Option.some.injEq, Label.mutexDelta, true_and]
    split
    · omega
    · simp
  exclusive := h.exclusive_release c

theorem release (h : MutexOk m past x) {c : TaskId} (hOwner : x.mutexOwner = some c)
    (hCount : x.mutexCount = 1) : MutexOk m (past ++ [.mutexReleased m c]) {} where
  free _ := rfl
  held t ht := by cases ht
  record t := by
    rw [outstanding_snoc, h.record t]
    simp only [hOwner, hCount, Option.some.injEq, Label.mutexDelta, true_and]
    split <;> simp
  exclusive := h.exclusive_release c

end MutexOk

namespace System

variable {s : System} {event : SysEvent} {past : List Label}

/-- Every step keeps each mutex in agreement with the record. -/
theorem mutexOk_step (h : Coherent s) (hFits : NestingFits s event)
    (hOk : ∀ m, MutexOk m past (s.mutex m)) {r : System × List Label}
    (hStep : s.exec event = some r) (m : Nat) : MutexOk m (past ++ r.2) (r.1.mutex m) := by
  -- a call on another mutex leaves this one and its record alone
  have hElsewhere {m' : Nat} {x : Mutex} (hm : m ≠ m') {ls : List Label}
      (hls : ∀ l ∈ ls, l.mutexOf = some m' ∨ l.mutexOf = none) :
      MutexOk m (past ++ ls) ((s.setMutex m' x).mutex m) := by
    rw [mutex_setMutex_ne hm]
    refine (hOk m).others ?_
    intro l hl hOf
    rcases hls l hl with hEq | hEq
    · rw [hEq] at hOf
      exact hm (Option.some.inj hOf).symm
    · rw [hEq] at hOf
      cases hOf
  cases effect_exec h hStep with
  | quiet hMutex _ hLabels _ =>
      rw [hMutex]
      refine (hOk m).others ?_
      intro l hl hOf
      rw [mutexOf_of_not_isMutex (List.filter_eq_nil_iff.mp hLabels l hl)] at hOf
      cases hOf
  | create t prio tick _ _ hMutex hLabels =>
      rw [hMutex, hLabels]
      exact (hOk m).other (by simp [Label.mutexOf])
  | take m' timeout c _ _ hCount hSystem hLabels =>
      rw [hSystem, hLabels]
      by_cases hm : m = m'
      · subst hm
        rw [mutex_setMutex, List.append_cons]
        exact ((hOk m).grant hCount c _).other (by simp [Label.mutexOf])
      · exact hElsewhere hm (by simp [Label.mutexOf])
  | nest m' timeout c hRun hEvent hCount hOwner hSystem hLabels =>
      rw [hSystem, hLabels]
      by_cases hm : m = m'
      · subst hm
        rw [hEvent] at hFits
        have hDepth := hFits (hOwner.trans hRun.2.1.symm)
        rw [mutex_setMutex, List.append_cons]
        exact ((hOk m).nest hOwner hDepth).other (by simp [Label.mutexOf])
      · exact hElsewhere hm (by simp [Label.mutexOf])
  | block m' timeout c _ _ _ _ _ _ hMutex _ _ hLabels =>
      rw [hMutex, hLabels]
      exact (hOk m).other (by simp [Label.mutexOf])
  | leave m' c _ _ hOwner hCount hSystem hLabels =>
      rw [hSystem, hLabels]
      by_cases hm : m = m'
      · subst hm
        rw [mutex_setMutex, List.append_cons]
        exact ((hOk m).leave hOwner hCount).other (by simp [Label.mutexOf])
      · exact hElsewhere hm (by simp [Label.mutexOf])
  | free m' c _ _ _ hOwner hCount _ hMutex _ _ hLabels =>
      rw [hMutex, hLabels]
      by_cases hm : m = m'
      · subst hm
        rw [mutex_setMutex, List.append_cons]
        exact ((hOk m).release hOwner hCount).other (by simp [Label.mutexOf])
      · exact hElsewhere hm (by simp [Label.mutexOf])
  | hand m' c t rest _ _ _ hOwner hCount _ _ hMutex _ _ hLabels =>
      rw [hMutex, hLabels]
      by_cases hm : m = m'
      · subst hm
        -- the poster gives the mutex back before the waiter is granted it
        have hFree := ((hOk m).release hOwner hCount).other
          (l := .granted t) (by simp [Label.mutexOf])
        rw [mutex_setMutex, List.append_cons, List.append_cons, List.append_cons]
        exact (hFree.grant rfl t _).other (by simp [Label.mutexOf])
      · exact hElsewhere hm (by simp [Label.mutexOf])

end System

theorem mutexOk_init (m : Nat) : MutexOk m [] {} where
  free _ := rfl
  held t ht := by cases ht
  record t := by simp [outstanding]
  exclusive := History.always_nil

/-- The agreement holds along every run in which no counter overflows. -/
theorem mutexOk_run {cfg : Config} {idle : TaskId} {s₀ : System} (hInit : s₀.Initial cfg idle)
    {ok : Trace → SysEvent → Prop} (hOk : ∀ tr event, ok tr event → NestingFits tr.sys event)
    {events : List SysEvent} {tr : Trace}
    (run : Transition.RunsIf traceStep ok ⟨s₀, []⟩ events tr) (m : Nat) :
    MutexOk m tr.past (tr.sys.mutex m) := by
  have hInv : tr.sys.Consistent ∧ ∀ m, MutexOk m tr.past (tr.sys.mutex m) := by
    refine Transition.RunsIf.invariant run
      (fun tr => tr.sys.Consistent ∧ ∀ m, MutexOk m tr.past (tr.sys.mutex m)) ?_ ?_
    · refine ⟨System.consistent_init hInit, ?_⟩
      intro m
      rw [hInit.mutex m]
      exact mutexOk_init m
    · intro tr event tr' h hFits hStep
      obtain ⟨r, hExec, rfl⟩ := traceStep_some hStep
      exact ⟨System.consistent_step h.1 hExec,
        System.mutexOk_step h.1.toCoherent (hOk _ _ hFits) h.2 hExec⟩
  exact hInv.2 m

/-- In every run in which no task pends a mutex it already holds 65535 deep,
a mutex has no owner exactly when its counter is zero, the counter is the
number of grants to the owner minus its posts since it became owner, and every
grant came when no other task had outstanding grants. -/
theorem mutex_excludes (cfg : Config) (idle : TaskId) (s₀ : System) (hInit : s₀.Initial cfg idle)
    (events : List SysEvent) (tr : Trace)
    (run : Transition.RunsIf traceStep (fun tr event => NestingFits tr.sys event) ⟨s₀, []⟩ events tr)
    (m : Nat) :
    ((tr.sys.mutex m).mutexOwner = none ↔ (tr.sys.mutex m).mutexCount = 0) ∧
    (∀ t, (tr.sys.mutex m).mutexOwner = some t →
      ((tr.sys.mutex m).mutexCount : Int) = outstanding (sinceOwned m tr.past) m t) ∧
    Exclusive tr.past m := by
  have h := mutexOk_run hInit (fun _ _ hFits => hFits) run m
  refine ⟨⟨h.free, h.unowned⟩, ?_, h.exclusive⟩
  intro t hOwner
  exact (h.held t hOwner).2.2.symm

/-- Two nested pends count as two. -/
theorem mutex_excludes_nested : ∃ tr,
    Transition.RunsIf traceStep (fun tr event => NestingFits tr.sys event) ⟨System.small, []⟩
      [.create 1 5 5, .start, .switch 1, .call (.mutexPend 0 0), .call (.mutexPend 0 0)] tr ∧
    (tr.sys.mutex 0).mutexOwner = some 1 ∧
    ((tr.sys.mutex 0).mutexCount : Int) = outstanding (sinceOwned 0 tr.past) 0 1 := by
  have hRun : Transition.RunsIf traceStep (fun tr event => NestingFits tr.sys event)
      ⟨System.small, []⟩
      [.create 1 5 5, .start, .switch 1, .call (.mutexPend 0 0), .call (.mutexPend 0 0)] _ :=
    Transition.runsIf_of_isSome (by decide +kernel)
  have hExcludes := mutex_excludes shippedConfig 0 System.small System.initial_small _ _ hRun 0
  exact ⟨_, hRun, by decide +kernel, hExcludes.2.1 1 (by decide +kernel)⟩

section Overflow

variable {s : System} {c : TaskId} {m : Nat}

theorem System.setMutex_setMutex (s : System) (m : Nat) (x y : Mutex) :
    (s.setMutex m x).setMutex m y = s.setMutex m y := by
  have hMutex : ((s.setMutex m x).setMutex m y).mutex = (s.setMutex m y).mutex := by
    funext m'
    simp only [setMutex]
    split <;> rfl
  exact congrArg (fun mutex => { s with mutex := mutex }) hMutex

theorem System.setMutex_self (s : System) (m : Nat) : s.setMutex m (s.mutex m) = s := by
  have hMutex : (s.setMutex m (s.mutex m)).mutex = s.mutex := by
    funext m'
    simp only [setMutex]
    split
    · rename_i hm
      rw [hm]
    · rfl
  exact congrArg (fun mutex => { s with mutex := mutex }) hMutex

/-- A recursive pend of the running owner. -/
theorem System.exec_nested {x : Mutex} (hRun : s.Running c) (hUser : s.pc c = .user)
    (hOwner : x.mutexOwner = some c) (hCount : x.mutexCount ≠ 0) :
    (s.setMutex m x).exec (.call (.mutexPend m 0)) =
      some (s.setMutex m x.mutexCountInc, [.mutexNested m c, .returned (some c) .ok]) := by
  have hCurrent : (s.setMutex m x).k.dosCurrentTask = some c := hRun.2.1
  have hStill : (s.setMutex m x).Running c := hRun
  have hPc : (s.setMutex m x).pc c = .user := hUser
  simp only [exec, byCurrent, hCurrent, if_pos hStill, if_pos hPc, call, dosMutexPend, mutex_setMutex,
    if_neg hCount, if_pos hOwner, setMutex_setMutex]

/-- Recursive pends change nothing but the counter, modulo its width. -/
theorem runs_nested (hRun : s.Running c) (hUser : s.pc c = .user) {prio : Nat}
    (hMutex : s.mutex m = ⟨1, prio, some c⟩) (past : List Label) (n : Nat) (hn : n < 2 ^ 16) :
    ∃ past', Transition.Runs traceStep ⟨s, past⟩ (List.replicate n (.call (.mutexPend m 0)))
      ⟨s.setMutex m ⟨(n + 1) % 2 ^ 16, prio, some c⟩, past'⟩ := by
  induction n with
  | zero =>
      have hSame : s.setMutex m ⟨1, prio, some c⟩ = s := by
        rw [← hMutex]
        exact s.setMutex_self m
      refine ⟨past, ?_⟩
      simp only [Nat.zero_add, Nat.reducePow, Nat.reduceMod, hSame]
      exact Transition.RunsIf.nil
  | succ n ih =>
      obtain ⟨past', hRuns⟩ := ih (by omega)
      have hCount : (n + 1) % 2 ^ 16 ≠ 0 := by omega
      have hExec := System.exec_nested (m := m) (x := ⟨(n + 1) % 2 ^ 16, prio, some c⟩) hRun hUser
        rfl hCount
      have hInc : Mutex.mutexCountInc ⟨(n + 1) % 2 ^ 16, prio, some c⟩ =
          ⟨(n + 1 + 1) % 2 ^ 16, prio, some c⟩ := by
        simp only [Mutex.mutexCountInc, Mutex.mk.injEq, and_true]
        omega
      rw [hInc] at hExec
      rw [List.replicate_succ']
      refine ⟨past' ++ [.mutexNested m c, .returned (some c) .ok],
        Transition.RunsIf.snoc hRuns trivial ?_⟩
      simp only [traceStep, hExec, Option.map_some]

end Overflow

/-- After 65536 pends in a row the counter of a mutex that its owner has never
given back is zero. -/
theorem nested_pends_wrap_counter : ∃ tr,
    Transition.Runs traceStep ⟨System.small, []⟩
      ([.create 1 5 5, .start, .switch 1, .call (.mutexPend 0 0)] ++
        List.replicate (2 ^ 16 - 1) (.call (.mutexPend 0 0))) tr ∧
      (tr.sys.mutex 0).mutexOwner = some 1 ∧ (tr.sys.mutex 0).mutexCount = 0 := by
  let tr₁ := (Transition.exec traceStep ⟨System.small, []⟩
    [.create 1 5 5, .start, .switch 1, .call (.mutexPend 0 0)]).get (by decide +kernel)
  have hFirst : Transition.Runs traceStep ⟨System.small, []⟩
      [.create 1 5 5, .start, .switch 1, .call (.mutexPend 0 0)] tr₁ :=
    Transition.runs_of_isSome _
  have hMutex : tr₁.sys.mutex 0 = ⟨1, 5, some 1⟩ := by decide +kernel
  obtain ⟨past', hNested⟩ := runs_nested (s := tr₁.sys) (c := 1) (m := 0)
    (by decide +kernel) (by decide +kernel) hMutex tr₁.past (2 ^ 16 - 1) (by decide)
  refine ⟨_, hFirst.trans hNested, ?_, ?_⟩
  · simp [System.setMutex]
  · simp [System.setMutex]

end DoraOS
