import DoraOS.Fifo.Fifo
import Mathlib.Tactic.Ring

/-! One writer and one reader on a fifo pass on a stream of bytes. The
counters are the lengths of the accepted and of the returned stream modulo
`2^32`, and the bytes in between are in the slots of their positions. A party
in the middle of a call relies on the other party only ever adding bytes or
room. -/
namespace DoraOS

namespace FifoRun

/-- The bytes that were accepted and not yet returned. -/
def unread (s : FifoRun) : List UInt8 := s.accepted.drop s.returned.length

def Holds (s : FifoRun) (start : Nat) (bytes : List UInt8) : Prop :=
  Circular.Stored s.fifo.size.toNat s.fifo.buffer start bytes

/-- There are `len` bytes to write and there is room for them. -/
def Fits (s : FifoRun) (buff : List UInt8) (len : BitVec 32) : Prop :=
  len.toNat ≤ buff.length ∧
    s.accepted.length + len.toNat ≤ s.returned.length + s.fifo.size.toNat

/-- The first segment of `len` bytes at position `pos`. -/
def Cut (s : FifoRun) (pos : Nat) (len l : BitVec 32) : Prop :=
  l.toNat = min len.toNat (s.fifo.size.toNat - pos % s.fifo.size.toNat)

def WriterOk (s : FifoRun) : Prop :=
  match s.writer with
  | .idle => True
  | .copyFirst buff len => s.Fits buff len
  | .copySecond buff len l =>
      s.Fits buff len ∧ s.Cut s.accepted.length len l ∧
        s.Holds s.accepted.length (buff.take l.toNat)
  | .publish buff len => s.Fits buff len ∧ s.Holds s.accepted.length (buff.take len.toNat)

def ReaderOk (s : FifoRun) : Prop :=
  match s.reader with
  | .idle => True
  | .copyFirst len => len.toNat ≤ s.unread.length
  | .copySecond len l got =>
      len.toNat ≤ s.unread.length ∧ s.Cut s.returned.length len l ∧ got = s.unread.take l.toNat
  | .publish len got => len.toNat ≤ s.unread.length ∧ got = s.unread.take len.toNat

end FifoRun

structure FifoOk (s : FifoRun) : Prop where
  pow : ∃ n, n < 32 ∧ s.fifo.size.toNat = 2 ^ n
  fifoIn : s.fifo.fifoIn = BitVec.ofNat 32 s.accepted.length
  fifoOut : s.fifo.fifoOut = BitVec.ofNat 32 s.returned.length
  stream : s.returned <+: s.accepted
  room : s.unread.length ≤ s.fifo.size.toNat
  stored : s.Holds s.returned.length s.unread
  writer : s.WriterOk
  reader : s.ReaderOk

namespace Fifo

variable {fifo : Fifo} {n : Nat}

theorem offset_ofNat (h : fifo.size.toNat = 2 ^ n) (hn : n < 32) (pos : Nat) :
    (fifo.offset (BitVec.ofNat 32 pos)).toNat = pos % fifo.size.toNat := by
  rw [offset, toNat_and_sub_one h, BitVec.toNat_ofNat, h,
    Nat.mod_mod_of_dvd _ (Nat.pow_dvd_pow 2 (Nat.le_of_lt hn))]

theorem firstLen_ofNat (h : fifo.size.toNat = 2 ^ n) (hn : n < 32) (pos : Nat) (len : BitVec 32) :
    (fifo.firstLen (BitVec.ofNat 32 pos) len).toNat =
      min len.toNat (fifo.size.toNat - pos % fifo.size.toNat) := by
  have hPos : 0 < fifo.size.toNat := by
    rw [h]
    exact Nat.two_pow_pos n
  have hOffset := offset_ofNat h hn pos
  have hLe : fifo.offset (BitVec.ofNat 32 pos) ≤ fifo.size := by
    rw [BitVec.le_def, hOffset]
    exact Nat.le_of_lt (Nat.mod_lt _ hPos)
  rw [firstLen, toNat_dosMin, BitVec.toNat_sub_of_le hLe, hOffset]

/-- The distance of the counters is the distance of the streams. -/
theorem counters_sub {a b : Nat} (hLe : a ≤ b) (hLt : b - a < 2 ^ 32) :
    (BitVec.ofNat 32 b - BitVec.ofNat 32 a).toNat = b - a := by
  obtain ⟨d, rfl⟩ := Nat.exists_eq_add_of_le hLe
  rw [BitVec.ofNat_add, add_sub_cancel_left, BitVec.toNat_ofNat, Nat.mod_eq_of_lt (by omega)]
  omega

/-- The free space is what the distance leaves of the size. -/
theorem counters_free {a b : Nat} (size : BitVec 32) (hLe : a ≤ b) (hRoom : b - a ≤ size.toNat) :
    (size - BitVec.ofNat 32 b + BitVec.ofNat 32 a).toNat = size.toNat - (b - a) := by
  obtain ⟨d, rfl⟩ := Nat.exists_eq_add_of_le hLe
  have hSub : size - BitVec.ofNat 32 (a + d) + BitVec.ofNat 32 a = size - BitVec.ofNat 32 d := by
    rw [BitVec.ofNat_add]
    ring
  have hSmall : (BitVec.ofNat 32 d).toNat = d := by
    have hLt := size.isLt
    rw [BitVec.toNat_ofNat, Nat.mod_eq_of_lt (by omega)]
  rw [hSub, BitVec.toNat_sub_of_le (BitVec.le_def.mpr (by omega)), hSmall]
  omega

end Fifo

namespace FifoOk

variable {s : FifoRun}

theorem size_pos (h : FifoOk s) : 0 < s.fifo.size.toNat := by
  obtain ⟨n, _, hSize⟩ := h.pow
  rw [hSize]
  exact Nat.two_pow_pos n

theorem accepted_eq (h : FifoOk s) : s.accepted = s.returned ++ s.unread :=
  List.prefix_iff_eq_append.mp h.stream |>.symm

theorem length_eq (h : FifoOk s) : s.accepted.length = s.returned.length + s.unread.length := by
  conv_lhs => rw [h.accepted_eq, List.length_append]

theorem offset_in (h : FifoOk s) : (s.fifo.offset s.fifo.fifoIn).toNat =
    s.accepted.length % s.fifo.size.toNat := by
  obtain ⟨n, hn, hSize⟩ := h.pow
  rw [h.fifoIn, Fifo.offset_ofNat hSize hn]

theorem offset_out (h : FifoOk s) : (s.fifo.offset s.fifo.fifoOut).toNat =
    s.returned.length % s.fifo.size.toNat := by
  obtain ⟨n, hn, hSize⟩ := h.pow
  rw [h.fifoOut, Fifo.offset_ofNat hSize hn]

theorem cut_in (h : FifoOk s) (len : BitVec 32) :
    s.Cut s.accepted.length len (s.fifo.firstLen s.fifo.fifoIn len) := by
  obtain ⟨n, hn, hSize⟩ := h.pow
  rw [FifoRun.Cut, h.fifoIn, Fifo.firstLen_ofNat hSize hn]

theorem cut_out (h : FifoOk s) (len : BitVec 32) :
    s.Cut s.returned.length len (s.fifo.firstLen s.fifo.fifoOut len) := by
  obtain ⟨n, hn, hSize⟩ := h.pow
  rw [FifoRun.Cut, h.fifoOut, Fifo.firstLen_ofNat hSize hn]

theorem writeLen_eq (h : FifoOk s) (len : BitVec 32) :
    (s.fifo.writeLen len).toNat = min len.toNat (s.fifo.size.toNat - s.unread.length) := by
  have hLength := h.length_eq
  have hRoom := h.room
  rw [Fifo.writeLen, toNat_dosMin, h.fifoIn, h.fifoOut,
    Fifo.counters_free _ (by omega) (by omega)]
  congr 2
  omega

theorem distance_eq (h : FifoOk s) :
    (s.fifo.fifoIn - s.fifo.fifoOut).toNat = s.unread.length := by
  have hLength := h.length_eq
  have hRoom := h.room
  have hSize := s.fifo.size.isLt
  rw [h.fifoIn, h.fifoOut, Fifo.counters_sub (by omega) (by omega)]
  omega

theorem readLen_eq (h : FifoOk s) (len : BitVec 32) :
    (s.fifo.readLen len).toNat = min len.toNat s.unread.length := by
  rw [Fifo.readLen, toNat_dosMin, h.distance_eq]

section Writer

variable {buff : List UInt8} {len l : BitVec 32}

theorem buffer_copyTo {pos offset : Nat} {seg : List UInt8}
    (hAt : seg ≠ [] → offset = pos % s.fifo.size.toNat) :
    (s.fifo.copyTo offset seg).buffer =
      Circular.copyIn s.fifo.buffer (pos % s.fifo.size.toNat) seg := Circular.copyIn_at hAt

/-- A copied segment at position `pos` of the stream is in the buffer, and so
is everything before it. -/
theorem copyTo (h : FifoOk s) {pos offset : Nat} {seg : List UInt8}
    (hAt : seg ≠ [] → offset = pos % s.fifo.size.toNat)
    (hFit : pos % s.fifo.size.toNat + seg.length ≤ s.fifo.size.toNat)
    (hBefore : s.accepted.length ≤ pos)
    (hRoom : pos + seg.length ≤ s.returned.length + s.fifo.size.toNat) :
    Circular.Stored s.fifo.size.toNat (s.fifo.copyTo offset seg).buffer pos seg ∧
      Circular.Stored s.fifo.size.toNat (s.fifo.copyTo offset seg).buffer s.returned.length
        s.unread := by
  have hLength := h.length_eq
  rw [buffer_copyTo hAt]
  exact ⟨Circular.Stored.copyIn_new hFit, h.stored.copyIn_old hFit (by omega) hRoom⟩

theorem cut_le {pos : Nat} (hCut : s.Cut pos len l) : l.toNat ≤ len.toNat := by
  rw [hCut]
  exact Nat.min_le_left _ _

/-- The first segment ends inside the buffer. -/
theorem cut_fits (h : FifoOk s) {pos : Nat} (hCut : s.Cut pos len l) :
    pos % s.fifo.size.toNat + l.toNat ≤ s.fifo.size.toNat := by
  have hMod := Nat.mod_lt pos h.size_pos
  rw [hCut]
  omega

/-- The second segment, if there is one, starts at the first slot. -/
theorem cut_rest (h : FifoOk s) {pos : Nat} (hCut : s.Cut pos len l)
    (hRest : len.toNat - l.toNat ≠ 0) : (pos + l.toNat) % s.fifo.size.toNat = 0 := by
  have hMod := Nat.mod_lt pos h.size_pos
  have hEnd : pos % s.fifo.size.toNat + l.toNat = s.fifo.size.toNat := by
    have hValue : l.toNat = min len.toNat (s.fifo.size.toNat - pos % s.fifo.size.toNat) := hCut
    omega
  rw [← Nat.mod_add_mod, hEnd, Nat.mod_self]

theorem toNat_rest {pos : Nat} (hCut : s.Cut pos len l) :
    (len - l).toNat = len.toNat - l.toNat :=
  BitVec.toNat_sub_of_le (BitVec.le_def.mpr (cut_le hCut))

theorem write (h : FifoOk s) (hLen : buff.length < 2 ^ 32) (pended : Bool) :
    FifoOk (s.dosFifoWrite buff pended) := by
  unfold FifoRun.dosFifoWrite
  split
  · exact h
  · have hLength := h.length_eq
    have hRoom := h.room
    have hTake := h.writeLen_eq (BitVec.ofNat 32 buff.length)
    rw [BitVec.toNat_ofNat, Nat.mod_eq_of_lt hLen] at hTake
    refine { h with writer := ⟨?_, ?_⟩ }
    · omega
    · show s.accepted.length + _ ≤ s.returned.length + s.fifo.size.toNat
      omega

theorem writer_copyFirst (h : FifoOk s) (hFits : s.Fits buff len)
    (hl : l = s.fifo.firstLen s.fifo.fifoIn len) :
    FifoOk { s with
      fifo := s.fifo.copyTo (s.fifo.offset s.fifo.fifoIn).toNat (buff.take l.toNat)
      writer := .copySecond buff len l } := by
  have hCut : s.Cut s.accepted.length len l := hl ▸ h.cut_in len
  have hInside := h.cut_fits hCut
  have hLe := cut_le hCut
  have hBytes : (buff.take l.toNat).length ≤ l.toNat := List.length_take_le _ _
  have hAt : buff.take l.toNat ≠ [] → (s.fifo.offset s.fifo.fifoIn).toNat =
      s.accepted.length % s.fifo.size.toNat := fun _ => h.offset_in
  obtain ⟨hNew, hOld⟩ := h.copyTo hAt (by omega) (Nat.le_refl _) (by have hRoom := hFits.2; omega)
  exact { h with stored := hOld, writer := ⟨hFits, hCut, hNew⟩ }

theorem writer_copySecond (h : FifoOk s) (hFits : s.Fits buff len)
    (hCut : s.Cut s.accepted.length len l) (hFirst : s.Holds s.accepted.length (buff.take l.toNat)) :
    FifoOk { s with
      fifo := s.fifo.copyTo 0 ((buff.drop l.toNat).take (len - l).toNat)
      writer := .publish buff len } := by
  have hLe := cut_le hCut
  obtain ⟨hBuff, hRoom⟩ := hFits
  have hLength := h.length_eq
  have hPos := h.size_pos
  have hFirstLen : (buff.take l.toNat).length = l.toNat := by
    rw [List.length_take]
    omega
  have hSegLen : ((buff.drop l.toNat).take (len - l).toNat).length = len.toNat - l.toNat := by
    rw [List.length_take, List.length_drop, toNat_rest hCut]
    omega
  have hAt : (buff.drop l.toNat).take (len - l).toNat ≠ [] →
      0 = (s.accepted.length + l.toNat) % s.fifo.size.toNat := by
    intro hSome
    have hRest := mt List.eq_nil_of_length_eq_zero hSome
    exact (h.cut_rest hCut (by omega)).symm
  have hFit : (s.accepted.length + l.toNat) % s.fifo.size.toNat +
      ((buff.drop l.toNat).take (len - l).toNat).length ≤ s.fifo.size.toNat := by
    by_cases hRest : len.toNat - l.toNat = 0
    · have hMod := Nat.mod_lt (s.accepted.length + l.toNat) hPos
      omega
    · have hZero := h.cut_rest hCut hRest
      omega
  obtain ⟨hNew, hOld⟩ := h.copyTo hAt hFit (Nat.le_add_right _ _) (by omega)
  have hKept : Circular.Stored s.fifo.size.toNat
      (s.fifo.copyTo 0 ((buff.drop l.toNat).take (len - l).toNat)).buffer s.accepted.length
      (buff.take l.toNat) := by
    rw [buffer_copyTo hAt]
    exact hFirst.copyIn_old hFit (by omega) (by omega)
  have hAll : buff.take len.toNat =
      buff.take l.toNat ++ (buff.drop l.toNat).take (len - l).toNat := by
    rw [← List.take_add, toNat_rest hCut, Nat.add_sub_cancel' hLe]
  refine { h with stored := hOld, writer := ⟨⟨hBuff, hRoom⟩, ?_⟩ }
  rw [hAll]
  refine hKept.append ?_
  rw [hFirstLen]
  exact hNew

/-- Publishing appends the bytes to the stream. -/
theorem writer_publish (h : FifoOk s) (hFits : s.Fits buff len)
    (hBytes : s.Holds s.accepted.length (buff.take len.toNat)) :
    FifoOk { s with
      fifo := { s.fifo with fifoIn := s.fifo.fifoIn + len }
      writer := .idle
      accepted := s.accepted ++ buff.take len.toNat } := by
  obtain ⟨hBuff, hRoom⟩ := hFits
  have hLength := h.length_eq
  have hTake : (buff.take len.toNat).length = len.toNat := by
    rw [List.length_take]
    omega
  have hUnread : (s.accepted ++ buff.take len.toNat).drop s.returned.length =
      s.unread ++ buff.take len.toNat := List.drop_append_of_le_length (by omega)
  have hMore : ∀ n, n ≤ s.unread.length →
      n ≤ (s.unread ++ buff.take len.toNat).length ∧
        (s.unread ++ buff.take len.toNat).take n = s.unread.take n := by
    intro n hn
    exact ⟨by rw [List.length_append]; omega, List.take_append_of_le_length hn⟩
  refine ⟨h.pow, ?_, h.fifoOut, h.stream.trans (List.prefix_append _ _), ?_, ?_, trivial, ?_⟩
  · show s.fifo.fifoIn + len = BitVec.ofNat 32 (s.accepted ++ buff.take len.toNat).length
    rw [List.length_append, hTake, BitVec.ofNat_add, BitVec.ofNat_toNat, BitVec.setWidth_eq,
      h.fifoIn]
  · show ((s.accepted ++ buff.take len.toNat).drop s.returned.length).length ≤ _
    rw [hUnread, List.length_append, hTake]
    show s.unread.length + len.toNat ≤ s.fifo.size.toNat
    omega
  · show Circular.Stored _ _ _ ((s.accepted ++ buff.take len.toNat).drop s.returned.length)
    rw [hUnread]
    exact h.stored.append (hLength ▸ hBytes)
  · have hReader := h.reader
    unfold FifoRun.ReaderOk at hReader ⊢
    dsimp only [FifoRun.unread, FifoRun.Cut] at hReader ⊢
    rw [hUnread]
    cases hPc : s.reader with
    | idle => trivial
    | copyFirst n =>
        rw [hPc] at hReader
        exact (hMore _ hReader).1
    | copySecond n l got =>
        rw [hPc] at hReader
        obtain ⟨hn, hCut, hGot⟩ := hReader
        have hl := cut_le (s := s) hCut
        exact ⟨(hMore _ hn).1, hCut, hGot.trans (hMore _ (Nat.le_trans hl hn)).2.symm⟩
    | publish n got =>
        rw [hPc] at hReader
        exact ⟨(hMore _ hReader.1).1, hReader.2.trans (hMore _ hReader.1).2.symm⟩

theorem writerStep (h : FifoOk s) {s' : FifoRun} (hStep : s.writerStep = some s') : FifoOk s' := by
  have hWriter := h.writer
  unfold FifoRun.writerStep at hStep
  unfold FifoRun.WriterOk at hWriter
  cases hPc : s.writer with
  | idle =>
      rw [hPc] at hStep
      cases hStep
  | copyFirst buff len =>
      rw [hPc] at hStep hWriter
      rw [← Option.some.inj hStep]
      exact h.writer_copyFirst hWriter rfl
  | copySecond buff len l =>
      rw [hPc] at hStep hWriter
      rw [← Option.some.inj hStep]
      exact h.writer_copySecond hWriter.1 hWriter.2.1 hWriter.2.2
  | publish buff len =>
      rw [hPc] at hStep hWriter
      rw [← Option.some.inj hStep]
      exact h.writer_publish hWriter.1 hWriter.2

end Writer

section Reader

variable {len l : BitVec 32} {got : List UInt8}

theorem read (h : FifoOk s) (len : BitVec 32) (pended : Bool) :
    FifoOk (s.dosFifoRead len pended) := by
  unfold FifoRun.dosFifoRead
  split
  · exact h
  · have hTake := h.readLen_eq len
    refine { h with reader := ?_ }
    show (s.fifo.readLen len).toNat ≤ s.unread.length
    omega

theorem reader_copyFirst (h : FifoOk s) (hLen : len.toNat ≤ s.unread.length)
    (hl : l = s.fifo.firstLen s.fifo.fifoOut len) :
    FifoOk { s with
      reader := .copySecond len l
        (Circular.copyOut s.fifo.buffer (s.fifo.offset s.fifo.fifoOut).toNat l.toNat) } := by
  have hCut : s.Cut s.returned.length len l := hl ▸ h.cut_out len
  have hLe := cut_le hCut
  refine { h with reader := ⟨hLen, hCut, ?_⟩ }
  show Circular.copyOut s.fifo.buffer _ _ = _
  rw [h.offset_out]
  exact h.stored.copyOut (h.cut_fits hCut) (by omega)

theorem reader_copySecond (h : FifoOk s) (hLen : len.toNat ≤ s.unread.length)
    (hCut : s.Cut s.returned.length len l) (hGot : got = s.unread.take l.toNat) :
    FifoOk { s with
      reader := .publish len (got ++ Circular.copyOut s.fifo.buffer 0 (len - l).toNat) } := by
  have hLe := cut_le hCut
  have hRest := toNat_rest hCut
  have hPos := h.size_pos
  have hAt : (len - l).toNat ≠ 0 → 0 = (s.returned.length + l.toNat) % s.fifo.size.toNat :=
    fun hSome => (h.cut_rest hCut (hRest ▸ hSome)).symm
  have hFit : (s.returned.length + l.toNat) % s.fifo.size.toNat + (len - l).toNat ≤
      s.fifo.size.toNat := by
    by_cases hNone : (len - l).toNat = 0
    · have hMod := Nat.mod_lt (s.returned.length + l.toNat) hPos
      omega
    · have hZero := hAt hNone
      have hRoom := h.room
      omega
  refine { h with reader := ⟨hLen, ?_⟩ }
  show got ++ Circular.copyOut s.fifo.buffer 0 (len - l).toNat = s.unread.take len.toNat
  rw [hGot, Circular.copyOut_at hAt, (h.stored.drop l.toNat).copyOut hFit
    (by rw [List.length_drop]; omega), ← List.take_add, hRest, Nat.add_sub_cancel' hLe]

/-- Publishing hands the oldest unread bytes to the caller. -/
theorem reader_publish (h : FifoOk s) (hLen : len.toNat ≤ s.unread.length)
    (hGot : got = s.unread.take len.toNat) :
    FifoOk { s with
      fifo := { s.fifo with fifoOut := s.fifo.fifoOut + len }
      reader := .idle
      returned := s.returned ++ got } := by
  have hGotLen : got.length = len.toNat := by
    rw [hGot, List.length_take]
    omega
  have hLength : (s.returned ++ got).length = s.returned.length + len.toNat := by
    rw [List.length_append, hGotLen]
  have hUnread : s.accepted.drop (s.returned ++ got).length = s.unread.drop len.toNat := by
    rw [hLength, FifoRun.unread, List.drop_drop]
  refine ⟨h.pow, h.fifoIn, ?_, ?_, ?_, ?_, ?_, trivial⟩
  · show s.fifo.fifoOut + len = BitVec.ofNat 32 (s.returned ++ got).length
    rw [hLength, BitVec.ofNat_add, BitVec.ofNat_toNat, BitVec.setWidth_eq, h.fifoOut]
  · show s.returned ++ got <+: s.accepted
    rw [h.accepted_eq, hGot]
    exact List.prefix_append_right_inj _ |>.mpr (List.take_prefix _ _)
  · show (s.accepted.drop (s.returned ++ got).length).length ≤ s.fifo.size.toNat
    have hRoom := h.room
    rw [hUnread, List.length_drop]
    omega
  · show Circular.Stored _ _ (s.returned ++ got).length (s.accepted.drop (s.returned ++ got).length)
    rw [hUnread, hLength]
    exact h.stored.drop len.toNat
  · have hWriter := h.writer
    have hMono : ∀ buff n, s.Fits buff n → n.toNat ≤ buff.length ∧
        s.accepted.length + n.toNat ≤ (s.returned ++ got).length + s.fifo.size.toNat := by
      intro buff n hFits
      have hRoom := hFits.2
      exact ⟨hFits.1, by omega⟩
    unfold FifoRun.WriterOk at hWriter ⊢
    dsimp only
    cases hPc : s.writer with
    | idle => trivial
    | copyFirst buff n =>
        rw [hPc] at hWriter
        exact hMono _ _ hWriter
    | copySecond buff n l =>
        rw [hPc] at hWriter
        exact ⟨hMono _ _ hWriter.1, hWriter.2⟩
    | publish buff n =>
        rw [hPc] at hWriter
        exact ⟨hMono _ _ hWriter.1, hWriter.2⟩

theorem readerStep (h : FifoOk s) {s' : FifoRun} (hStep : s.readerStep = some s') : FifoOk s' := by
  have hReader := h.reader
  unfold FifoRun.readerStep at hStep
  unfold FifoRun.ReaderOk at hReader
  cases hPc : s.reader with
  | idle =>
      rw [hPc] at hStep
      cases hStep
  | copyFirst len =>
      rw [hPc] at hStep hReader
      rw [← Option.some.inj hStep]
      exact h.reader_copyFirst hReader rfl
  | copySecond len l got =>
      rw [hPc] at hStep hReader
      rw [← Option.some.inj hStep]
      exact h.reader_copySecond hReader.1 hReader.2.1 hReader.2.2
  | publish len got =>
      rw [hPc] at hStep hReader
      rw [← Option.some.inj hStep]
      exact h.reader_publish hReader.1 hReader.2

end Reader

theorem step (h : FifoOk s) {event : FifoEvent} {s' : FifoRun}
    (hStep : fifoStep s event = some s') : FifoOk s' := by
  cases event with
  | write buff pended =>
      simp only [fifoStep, Option.ite_none_right_eq_some, Option.some.injEq] at hStep
      rw [← hStep.2]
      exact h.write hStep.1.2 pended
  | writer => exact h.writerStep hStep
  | read len pended =>
      simp only [fifoStep, Option.ite_none_right_eq_some, Option.some.injEq] at hStep
      rw [← hStep.2]
      exact h.read len pended
  | reader => exact h.readerStep hStep

end FifoOk

theorem fifoOk_create {size : BitVec 32} {stale : Nat → UInt8} {fifo : Fifo}
    (hCreate : dosFifoCreate size stale = some fifo) : FifoOk (FifoRun.start fifo) := by
  simp only [dosFifoCreate, Option.ite_none_left_eq_some, Option.some.injEq] at hCreate
  obtain ⟨hSize, rfl⟩ := hCreate
  exact {
    pow := (fifoSize_pow hSize).1
    fifoIn := rfl
    fifoOut := rfl
    stream := List.prefix_rfl
    room := Nat.zero_le _
    stored := Circular.Stored.nil
    writer := trivial
    reader := trivial }

def wholeWrite (buff : List UInt8) : List FifoEvent := [.write buff true, .writer, .writer, .writer]

def wholeRead (len : BitVec 32) : List FifoEvent := [.read len true, .reader, .reader, .reader]

/-- A write that nobody interrupts accepts as many bytes as there is room for. -/
theorem FifoOk.exec_wholeWrite {s : FifoRun} (h : FifoOk s) (hIdle : s.writer = .idle)
    {buff : List UInt8} (hSome : buff ≠ []) (hLen : buff.length < 2 ^ 32) :
    ∃ s', Transition.exec fifoStep s (wholeWrite buff) = some s' ∧
      s'.fifo.size = s.fifo.size ∧ s'.reader = s.reader ∧ s'.writer = .idle ∧
      s'.returned = s.returned ∧
      s'.accepted = s.accepted ++
        buff.take (min buff.length (s.fifo.size.toNat - s.unread.length)) := by
  have hTake := h.writeLen_eq (BitVec.ofNat 32 buff.length)
  rw [BitVec.toNat_ofNat, Nat.mod_eq_of_lt hLen] at hTake
  have hCall : fifoStep s (.write buff true) = some { s with
      writer := .copyFirst buff (s.fifo.writeLen (BitVec.ofNat 32 buff.length)) } := by
    rw [fifoStep, if_pos ⟨hIdle, hLen⟩, FifoRun.dosFifoWrite, if_neg (by simp [hSome])]
  rw [wholeWrite, Transition.exec, hCall]
  exact ⟨_, rfl, rfl, rfl, rfl, rfl, by rw [← hTake]⟩

/-- A read that nobody interrupts returns as many bytes as are stored. -/
theorem FifoOk.exec_wholeRead {s : FifoRun} (h : FifoOk s) (hIdle : s.reader = .idle)
    {len : BitVec 32} (hSome : len ≠ 0) :
    ∃ s', Transition.exec fifoStep s (wholeRead len) = some s' ∧
      s'.fifo.size = s.fifo.size ∧ s'.writer = s.writer ∧ s'.reader = .idle ∧
      s'.accepted = s.accepted ∧
      s'.returned = s.returned ++ s.unread.take (min len.toNat s.unread.length) := by
  have hTake := h.readLen_eq len
  have hCall : fifoStep s (.read len true) = some { s with
      reader := .copyFirst (s.fifo.readLen len) } := by
    rw [fifoStep, if_pos hIdle, FifoRun.dosFifoRead, if_neg (by simpa using hSome)]
  -- the bytes gathered in front of the publication are the oldest unread ones
  have hGathered := (((h.step hCall).readerStep rfl).readerStep rfl).reader
  rw [wholeRead, Transition.exec, hCall]
  refine ⟨_, rfl, rfl, rfl, rfl, rfl, ?_⟩
  rw [← hTake]
  exact congrArg (s.returned ++ ·) hGathered.2

theorem FifoOk.runs {s s' : FifoRun} (h : FifoOk s) {events : List FifoEvent}
    (hRun : Transition.Runs fifoStep s events s') : FifoOk s' :=
  hRun.invariant FifoOk h fun _ _ _ hOk _ hStep => hOk.step hStep

theorem FifoOk.of_runs {size : BitVec 32} {stale : Nat → UInt8} {fifo : Fifo}
    (hCreate : dosFifoCreate size stale = some fifo) {events : List FifoEvent} {s : FifoRun}
    (hRun : Transition.Runs fifoStep (FifoRun.start fifo) events s) : FifoOk s :=
  (fifoOk_create hCreate).runs hRun

/-- For every interleaving of one writer and one reader, the returned bytes
are a prefix of the accepted ones, the counters are as far apart as there are
unread bytes and never further than the size, and a call that is not
interrupted transfers as many bytes as it can. -/
theorem fifo_refines_stream {size : BitVec 32} {stale : Nat → UInt8} {fifo : Fifo}
    (hCreate : dosFifoCreate size stale = some fifo) {events : List FifoEvent} {s : FifoRun}
    (hRun : Transition.Runs fifoStep (FifoRun.start fifo) events s) :
    s.returned <+: s.accepted ∧
    (s.fifo.fifoIn - s.fifo.fifoOut).toNat = s.accepted.length - s.returned.length ∧
    (s.fifo.fifoIn - s.fifo.fifoOut).toNat ≤ s.fifo.size.toNat ∧
    (∀ buff, s.writer = .idle → buff ≠ [] → buff.length < 2 ^ 32 →
      ∃ s', Transition.exec fifoStep s (wholeWrite buff) = some s' ∧ s'.writer = .idle ∧
        s'.returned = s.returned ∧
        s'.accepted = s.accepted ++
          buff.take (min buff.length (s.fifo.size.toNat - s.unread.length))) ∧
    (∀ len : BitVec 32, s.reader = .idle → len ≠ 0 →
      ∃ s', Transition.exec fifoStep s (wholeRead len) = some s' ∧ s'.reader = .idle ∧
        s'.accepted = s.accepted ∧
        s'.returned = s.returned ++ s.unread.take (min len.toNat s.unread.length)) := by
  have h := FifoOk.of_runs hCreate hRun
  refine ⟨h.stream, ?_, ?_, ?_, ?_⟩
  · rw [h.distance_eq, h.length_eq, Nat.add_sub_cancel_left]
  · rw [h.distance_eq]
    exact h.room
  · intro buff hIdle hSome hLen
    obtain ⟨s', hExec, -, -, hEnd⟩ := h.exec_wholeWrite hIdle hSome hLen
    exact ⟨s', hExec, hEnd⟩
  · intro len hIdle hSome
    obtain ⟨s', hExec, -, -, hEnd⟩ := h.exec_wholeRead hIdle hSome
    exact ⟨s', hExec, hEnd⟩

/-- A fifo of four bytes. The reader is in the middle of a call while the
writer goes over the end of the buffer. -/
theorem fifo_refines_stream_wrapped :
    ∃ fifo s, dosFifoCreate 5 (fun _ => 0) = some fifo ∧
      Transition.Runs fifoStep (FifoRun.start fifo)
        (wholeWrite [1, 2, 3] ++ wholeRead 2 ++
          [.read 2 true, .reader, .write [4, 5, 6, 7] true, .writer, .reader, .writer, .writer])
        s ∧
      s.accepted = [1, 2, 3, 4, 5, 6] ∧ s.returned = [1, 2] ∧
      (s.fifo.fifoIn - s.fifo.fifoOut).toNat = s.accepted.length - s.returned.length := by
  let fifo := (dosFifoCreate 5 fun _ => 0).get (by decide)
  have hCreate : dosFifoCreate 5 (fun _ => 0) = some fifo := (Option.some_get _).symm
  have hRun : Transition.Runs fifoStep (FifoRun.start fifo)
      (wholeWrite [1, 2, 3] ++ wholeRead 2 ++
        [.read 2 true, .reader, .write [4, 5, 6, 7] true, .writer, .reader, .writer, .writer]) _ :=
    Transition.runs_of_isSome (by decide +kernel)
  exact ⟨fifo, _, hCreate, hRun, by decide +kernel, by decide +kernel,
    (fifo_refines_stream hCreate hRun).2.1⟩

end DoraOS
