import DoraOS.Fifo.Stream

/-! The fill level queries of the fifo. A write and a read take the distance of
the counters modulo `2^32`; the queries compare the counters first. The two agree
until one counter has wrapped and the other one has not. -/
namespace DoraOS

open Transition

namespace Fifo

variable (fifo : Fifo)

def dosFifoReadAble : BitVec 32 :=
  if fifo.fifoIn = fifo.fifoOut then 0
  else if fifo.fifoIn > fifo.fifoOut then fifo.fifoIn - fifo.fifoOut
  else fifo.size - (fifo.fifoOut - fifo.fifoIn)

def dosFifoWriteAble : BitVec 32 := fifo.size - fifo.dosFifoReadAble

variable {fifo}

/-- Counters in their order give their distance. -/
theorem dosFifoReadAble_of_le (h : fifo.fifoOut ≤ fifo.fifoIn) :
    fifo.dosFifoReadAble = fifo.fifoIn - fifo.fifoOut := by
  unfold dosFifoReadAble
  by_cases hEq : fifo.fifoIn = fifo.fifoOut
  · rw [if_pos hEq, hEq, BitVec.sub_self]
    rfl
  · have hGt : fifo.fifoOut < fifo.fifoIn := by
      have hNe := mt BitVec.eq_of_toNat_eq hEq
      rw [BitVec.le_def] at h
      rw [BitVec.lt_def]
      omega
    rw [if_neg hEq, if_pos hGt]

/-- If only `in` has wrapped, the size is counted in. -/
theorem dosFifoReadAble_of_lt (h : fifo.fifoIn < fifo.fifoOut) :
    fifo.dosFifoReadAble = fifo.size + (fifo.fifoIn - fifo.fifoOut) := by
  unfold dosFifoReadAble
  have hNe : fifo.fifoIn ≠ fifo.fifoOut := BitVec.ne_of_lt h
  rw [if_neg hNe, if_neg (BitVec.lt_asymm h)]
  ring

end Fifo

/-- The queries tell what unlimited calls would do, and together the size. -/
structure LevelsExact (s : FifoRun) : Prop where
  read : ∃ s', exec fifoStep s (wholeRead 0xFFFFFFFF) = some s' ∧
    s'.returned.length = s.returned.length + s.fifo.dosFifoReadAble.toNat
  write : ∀ buff : List UInt8, buff.length = 2 ^ 32 - 1 →
    ∃ s', exec fifoStep s (wholeWrite buff) = some s' ∧
      s'.accepted.length = s.accepted.length + s.fifo.dosFifoWriteAble.toNat
  size : s.fifo.dosFifoReadAble.toNat + s.fifo.dosFifoWriteAble.toNat = s.fifo.size.toNat

namespace FifoOk

variable {s : FifoRun}

theorem readAble_toNat (h : FifoOk s) (hOrder : s.fifo.fifoOut ≤ s.fifo.fifoIn) :
    s.fifo.dosFifoReadAble.toNat = s.unread.length := by
  rw [Fifo.dosFifoReadAble_of_le hOrder, h.distance_eq]

theorem writeAble_toNat (h : FifoOk s) (hOrder : s.fifo.fifoOut ≤ s.fifo.fifoIn) :
    s.fifo.dosFifoWriteAble.toNat = s.fifo.size.toNat - s.unread.length := by
  have hRead := h.readAble_toNat hOrder
  have hRoom := h.room
  rw [Fifo.dosFifoWriteAble, BitVec.toNat_sub_of_le (BitVec.le_def.mpr (by omega)), hRead]

/-- With a wrapped `in` the query is too large by the size. -/
theorem readAble_ne (h : FifoOk s) (hWrapped : s.fifo.fifoIn < s.fifo.fifoOut) :
    s.fifo.dosFifoReadAble.toNat ≠ s.unread.length := by
  have hPos := h.size_pos
  have hLt := s.fifo.size.isLt
  have hDistance := (s.fifo.fifoIn - s.fifo.fifoOut).isLt
  rw [Fifo.dosFifoReadAble_of_lt hWrapped, BitVec.toNat_add, ← h.distance_eq]
  omega

/-- What an unlimited read returns. -/
theorem unlimited_read (h : FifoOk s) (hIdle : s.reader = .idle) :
    ∃ s', exec fifoStep s (wholeRead 0xFFFFFFFF) = some s' ∧
      s'.returned.length = s.returned.length + s.unread.length := by
  have hRoom := h.room
  have hSize := s.fifo.size.isLt
  have hUnlimited : (0xFFFFFFFF : BitVec 32) ≠ 0 := by decide
  have hMax : (0xFFFFFFFF : BitVec 32).toNat = 2 ^ 32 - 1 := by decide
  obtain ⟨s', hExec, -, -, -, -, hReturned⟩ := h.exec_wholeRead hIdle hUnlimited
  refine ⟨s', hExec, ?_⟩
  rw [hReturned, List.length_append, List.length_take, hMax]
  omega

/-- What an unlimited write accepts. -/
theorem unlimited_write (h : FifoOk s) (hIdle : s.writer = .idle) {buff : List UInt8}
    (hLength : buff.length = 2 ^ 32 - 1) :
    ∃ s', exec fifoStep s (wholeWrite buff) = some s' ∧
      s'.accepted.length = s.accepted.length + (s.fifo.size.toNat - s.unread.length) := by
  have hSize := s.fifo.size.isLt
  have hSome : buff ≠ [] := List.ne_nil_of_length_pos (by omega)
  obtain ⟨s', hExec, -, -, -, -, hAccepted⟩ := h.exec_wholeWrite hIdle hSome (by omega)
  refine ⟨s', hExec, ?_⟩
  rw [hAccepted, List.length_append, List.length_take]
  omega

end FifoOk

/-- The queries in every state between two calls, with any number of bytes passed
through the fifo. They are exact if and only if `in` is not below `out`, that is
unless `in` has wrapped one time more. -/
theorem fifo_levels_iff {size : BitVec 32} {stale : Nat → UInt8} {fifo : Fifo}
    (hCreate : dosFifoCreate size stale = some fifo) {events : List FifoEvent} {s : FifoRun}
    (hRun : Runs fifoStep (FifoRun.start fifo) events s) (hWriter : s.writer = .idle)
    (hReader : s.reader = .idle) : LevelsExact s ↔ ¬ s.fifo.fifoIn < s.fifo.fifoOut := by
  have h := FifoOk.of_runs hCreate hRun
  constructor
  · intro hExact hWrapped
    obtain ⟨s₁, hExec₁, hQuery⟩ := hExact.read
    obtain ⟨s₂, hExec₂, hCall⟩ := h.unlimited_read hReader
    have hSame : s₁ = s₂ := Option.some.inj (hExec₁.symm.trans hExec₂)
    subst hSame
    exact h.readAble_ne hWrapped (by omega)
  · intro hNot
    have hOrder := BitVec.not_lt.mp hNot
    have hRead := h.readAble_toNat hOrder
    have hWrite := h.writeAble_toNat hOrder
    have hRoom := h.room
    refine ⟨hRead ▸ h.unlimited_read hReader, ?_, by omega⟩
    intro buff hLength
    rw [hWrite]
    exact h.unlimited_write hWriter hLength

/-- An empty fifo between two calls, with `count` bytes passed through. -/
structure Rested (size : BitVec 32) (count : Nat) (s : FifoRun) : Prop where
  ok : FifoOk s
  size : s.fifo.size = size
  writer : s.writer = .idle
  reader : s.reader = .idle
  accepted : s.accepted.length = count
  returned : s.returned.length = count

namespace Rested

variable {size : BitVec 32} {count : Nat} {s : FifoRun} {buff : List UInt8}

theorem unread_eq (h : Rested size count s) : s.unread = [] := by
  rw [FifoRun.unread, h.returned, List.drop_eq_nil_iff, h.accepted]

theorem counters (h : Rested size count s) :
    s.fifo.fifoIn = BitVec.ofNat 32 count ∧ s.fifo.fifoOut = BitVec.ofNat 32 count := by
  rw [h.ok.fifoIn, h.ok.fifoOut, h.accepted, h.returned]
  exact ⟨rfl, rfl⟩

/-- A write of bytes that fit. -/
theorem write (h : Rested size count s) (hSome : buff ≠ []) (hFits : buff.length ≤ size.toNat) :
    ∃ s', Runs fifoStep s (wholeWrite buff) s' ∧ FifoOk s' ∧ s'.fifo.size = size ∧
      s'.writer = .idle ∧ s'.reader = .idle ∧ s'.returned.length = count ∧
      s'.accepted = s.accepted ++ buff := by
  have hSize := size.isLt
  obtain ⟨s', hExec, hSame, hReader, hWriter, hReturned, hAccepted⟩ :=
    h.ok.exec_wholeWrite h.writer hSome (by omega)
  have hRun := runs_of_exec hExec
  refine ⟨s', hRun, h.ok.runs hRun, hSame.trans h.size, hWriter, hReader.trans h.reader,
    (congrArg List.length hReturned).trans h.returned, ?_⟩
  rw [hAccepted, h.unread_eq, h.size, List.take_of_length_le]
  simp only [List.length_nil]
  omega

/-- Bytes that fit are written and read again. -/
theorem pass (h : Rested size count s) (hSome : buff ≠ []) (hFits : buff.length ≤ size.toNat) :
    ∃ s', Runs fifoStep s (wholeWrite buff ++ wholeRead (BitVec.ofNat 32 buff.length)) s' ∧
      Rested size (count + buff.length) s' := by
  have hSize := size.isLt
  have hToNat : (BitVec.ofNat 32 buff.length).toNat = buff.length := by
    rw [BitVec.toNat_ofNat, Nat.mod_eq_of_lt (by omega)]
  have hPos := List.length_pos_iff.mpr hSome
  have hLen : BitVec.ofNat 32 buff.length ≠ 0 := by
    intro hZero
    rw [hZero] at hToNat
    exact absurd hToNat hPos.ne
  obtain ⟨s₁, hRun₁, hOk₁, hSize₁, hWriter₁, hReader₁, hReturned₁, hAccepted₁⟩ :=
    h.write hSome hFits
  have hLength : s₁.accepted.length = count + buff.length := by
    rw [hAccepted₁, List.length_append, h.accepted]
  obtain ⟨s₂, hExec, hSame, hWriter₂, hReader₂, hAccepted₂, hReturned₂⟩ :=
    hOk₁.exec_wholeRead hReader₁ hLen
  have hRun₂ := runs_of_exec hExec
  have hUnread : s₁.unread.length = buff.length := by
    rw [FifoRun.unread, List.length_drop]
    omega
  refine ⟨s₂, hRun₁.trans hRun₂, hOk₁.runs hRun₂, hSame.trans hSize₁, hWriter₂.trans hWriter₁,
    hReader₂, (congrArg List.length hAccepted₂).trans hLength, ?_⟩
  rw [hReturned₂, List.length_append, List.length_take, hToNat, hUnread, hReturned₁]
  omega

/-- The same bytes again and again. -/
theorem passes (h : Rested size count s) (hSome : buff ≠ []) (hFits : buff.length ≤ size.toNat)
    (n : Nat) : ∃ events s', Runs fifoStep s events s' ∧
      Rested size (count + n * buff.length) s' := by
  induction n with
  | zero => exact ⟨[], s, .nil, by simpa using h⟩
  | succ n ih =>
      obtain ⟨events, s₁, hRun, hRested⟩ := ih
      obtain ⟨s₂, hRun₂, hRested₂⟩ := hRested.pass hSome hFits
      refine ⟨_, s₂, hRun.trans hRun₂, ?_⟩
      rw [Nat.add_mul, Nat.one_mul, ← Nat.add_assoc]
      exact hRested₂

end Rested

theorem rested_create (stale : Nat → UInt8) : ∃ fifo, dosFifoCreate 8 stale = some fifo ∧
    Rested 8 0 (FifoRun.start fifo) := by
  have hCreate : dosFifoCreate 8 stale = some ⟨8, 0, 0, stale⟩ := by
    rw [dosFifoCreate, if_neg (by decide)]
    rfl
  exact ⟨_, hCreate, fifoOk_create hCreate, rfl, rfl, rfl, rfl, rfl⟩

/-- A fifo of eight bytes whose two counters have wrapped. -/
theorem fifo_levels_iff_wrapped : ∃ fifo events s, dosFifoCreate 8 (fun _ => 0) = some fifo ∧
    Runs fifoStep (FifoRun.start fifo) events s ∧ s.accepted.length = 2 ^ 32 + 8 ∧
    LevelsExact s := by
  obtain ⟨fifo, hCreate, hStart⟩ := rested_create fun _ => 0
  obtain ⟨events, s, hRun, hRested⟩ :=
    hStart.passes (List.cons_ne_nil 1 [2, 3, 4, 5, 6, 7, 8]) (by decide) (2 ^ 29 + 1)
  refine ⟨fifo, events, s, hCreate, hRun, hRested.accepted, ?_⟩
  apply (fifo_levels_iff hCreate hRun hRested.writer hRested.reader).mpr
  rw [hRested.counters.1, hRested.counters.2]
  exact BitVec.lt_irrefl _

/-- The same fifo with eight unread bytes, of which four are behind the wrap. The
query tells sixteen. -/
theorem fifo_level_counts_size : ∃ fifo events s, dosFifoCreate 8 (fun _ => 0) = some fifo ∧
    Runs fifoStep (FifoRun.start fifo) events s ∧ s.writer = .idle ∧ s.reader = .idle ∧
    s.unread.length = 8 ∧ s.fifo.dosFifoReadAble = 16 ∧ s.fifo.dosFifoWriteAble = 0xFFFFFFF8 ∧
    ¬ LevelsExact s := by
  obtain ⟨fifo, hCreate, hStart⟩ := rested_create fun _ => 0
  obtain ⟨events₁, s₁, hRun₁, hRested₁⟩ :=
    hStart.passes (List.cons_ne_nil 1 [2, 3, 4]) (by decide) (2 ^ 30 - 1)
  obtain ⟨s, hRun₂, hOk, hSize, hWriter, hReader, hReturned, hAccepted⟩ :=
    hRested₁.write (List.cons_ne_nil 1 [2, 3, 4, 5, 6, 7, 8]) (by decide)
  have hLength : s.accepted.length = 2 ^ 32 + 4 := by
    rw [hAccepted, List.length_append, hRested₁.accepted]
    rfl
  have hIn : s.fifo.fifoIn = 4 := by
    rw [hOk.fifoIn, hLength]
    rfl
  have hOut : s.fifo.fifoOut = 0xFFFFFFFC := by
    rw [hOk.fifoOut, hReturned]
    rfl
  have hRead : s.fifo.dosFifoReadAble = 16 := by
    rw [Fifo.dosFifoReadAble, hIn, hOut, hSize]
    rfl
  have hUnread : s.unread.length = 8 := by
    rw [FifoRun.unread, List.length_drop, hLength, hReturned]
    rfl
  refine ⟨fifo, _, s, hCreate, hRun₁.trans hRun₂, hWriter, hReader, hUnread, hRead, ?_, ?_⟩
  · rw [Fifo.dosFifoWriteAble, hRead, hSize]
    rfl
  · intro hExact
    obtain ⟨s', hExec, hQuery⟩ := hExact.read
    obtain ⟨s'', hExec', hCall⟩ := hOk.unlimited_read hReader
    rw [hExec, Option.some.injEq] at hExec'
    subst hExec'
    rw [hCall, hUnread, hRead] at hQuery
    exact absurd (Nat.add_left_cancel hQuery) (by decide)

end DoraOS
