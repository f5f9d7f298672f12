import DoraOS.Format.Follow

/-! What `dos_format_nstr` returns and what it leaves in the buffer. -/
namespace DoraOS

section Full

variable (env : FormatEnv) (fmt : List UInt8)

/-- The full output: the characters of the text and of all conversions. -/
def fullText : List UInt8 := (({} : Scan).scan env fmt).text

/-- The format does not end inside a conversion. -/
def EndsInText : Prop := (({} : Scan).scan env fmt).phase = .text

/-- No conversion prints the character 0. -/
def PrintsNoZero : Prop := (({} : Scan).scan env fmt).zero = false

instance : Decidable (EndsInText env fmt) := inferInstanceAs (Decidable (_ = _))

instance : Decidable (PrintsNoZero env fmt) := inferInstanceAs (Decidable (_ = _))

/-- The format was read to its end, the result is the length of the full output,
and a buffer holds as much of the output as fits, with a terminator. -/
structure ReturnsFull (buf : Option (Nat → UInt8)) (size : Nat) (r : Formatted) : Prop where
  whole : r.last.fmt = []
  ret : r.ret = (fullText env fmt).length
  terminator : buf.isSome → 0 < size → r.buf (min (fullText env fmt).length (size - 1)) = 0
  text : buf.isSome → 0 < size → ∀ i, i < min (fullText env fmt).length (size - 1) →
    some (r.buf i) = (fullText env fmt)[i]?

end Full

section Finish

variable {m : Formatter} {b : Nat → UInt8} {cs : List UInt8}

theorem ret_finish : m.finish.ret = toInt32 m.out.count := by
  simp only [Formatter.finish]

/-- The count behind the loop, less the terminator. -/
theorem count_of_text (hRecords : m.out.Records b) (hText : m.out.text = cs ++ [0])
    (hFits : cs.length < 2 ^ 31) : m.out.count = cs.length := by
  rw [Output.count, hRecords.pos, hText, List.length_append, List.length_singleton]
  omega

theorem finish_ret (hRecords : m.out.Records b) (hText : m.out.text = cs ++ [0])
    (hFits : cs.length < 2 ^ 31) : m.finish.ret = cs.length := by
  rw [ret_finish, count_of_text hRecords hText hFits, toInt32_of_lt hFits]

/-- The terminator is the last write, and there is one if there is room for it. -/
theorem buf_finish (m : Formatter) (i : Nat) :
    m.finish.buf i =
      if 0 < m.out.max ∧ i = min m.out.count (m.out.max - 1) then 0 else m.out.buf i := by
  by_cases hLt : m.out.count < m.out.max
  · have hMin : min m.out.count (m.out.max - 1) = m.out.count := Nat.min_eq_left (by omega)
    have hRoom : 0 < m.out.max := by omega
    simp only [Formatter.finish, if_pos hLt, hMin, hRoom, true_and]
    rfl
  · have hMin : min m.out.count (m.out.max - 1) = m.out.max - 1 := Nat.min_eq_right (by omega)
    by_cases hRoom : 0 < m.out.max
    · simp only [Formatter.finish, if_neg hLt, hMin, hRoom, true_and]
      rfl
    · simp only [Formatter.finish, if_neg hLt, gt_iff_lt, hRoom, false_and, if_false]

theorem finish_buf (hRecords : m.out.Records b) (hText : m.out.text = cs ++ [0])
    (hFits : cs.length < 2 ^ 31) (hRoom : 0 < m.out.max) (i : Nat) :
    m.finish.buf i = if i = min cs.length (m.out.max - 1) then 0 else m.out.buf i := by
  simp only [buf_finish, count_of_text hRecords hText hFits, hRoom, true_and]

end Finish

/-- The full output is counted and stored, except where the loop leaves in the
middle of a conversion, with the terminator unread, or behind a character 0 of
`%c`. The result has 32 bits. -/
theorem format_return_iff (env : FormatEnv) (buf : Option (Nat → UInt8)) (size : Nat)
    {fmt : List UInt8} (hFmt : 0 ∉ fmt) :
    (∃ r, FormatReturns env buf size fmt r ∧ ReturnsFull env fmt buf size r) ↔
      EndsInText env fmt ∧ PrintsNoZero env fmt ∧ (fullText env fmt).length < 2 ^ 31 := by
  obtain ⟨m, hReturns, hShows, hRecords, hMax⟩ := exists_formatReturns env buf size hFmt
  have hZero : (({} : Scan).scanUntil env fmt).zero = (({} : Scan).scan env fmt).zero :=
    Scan.zero_scanUntil fmt
  rw [hReturns.exists_iff]
  constructor
  · intro hFull
    obtain ⟨hNot, hPhase⟩ := hShows.fmt.mp hFull.whole
    rw [hZero] at hNot
    rw [Scan.scanUntil_eq hNot] at hPhase
    refine ⟨hPhase, hNot, ?_⟩
    have hLt := toInt32_lt m.out.count
    rw [← ret_finish, hFull.ret] at hLt
    omega
  · rintro ⟨hPhase, hNot, hFits⟩
    rw [Scan.scanUntil_eq hNot] at hShows
    have hText : m.out.text = fullText env fmt ++ [0] := by
      rw [hShows.text, if_pos ⟨hNot, hPhase⟩]
      rfl
    constructor
    · exact hShows.fmt.mpr ⟨hNot, hPhase⟩
    · exact finish_ret hRecords hText hFits
    · intro hBuf hSize
      rw [if_pos hBuf] at hMax
      rw [finish_buf hRecords hText hFits (by omega), if_pos (by rw [hMax])]
    · intro hBuf hSize i hi
      rw [if_pos hBuf] at hMax
      have hLength : m.out.text.length = (fullText env fmt).length + 1 := by
        rw [hText, List.length_append, List.length_singleton]
      rw [finish_buf hRecords hText hFits (by omega), if_neg (by rw [hMax]; omega),
        hRecords.buf (by omega), if_pos (by omega), hText,
        List.getElem?_append_left (by omega), List.getElem?_eq_getElem (by omega)]
      rfl

/-- `"%d!"` with 12 in a buffer of three bytes. -/
theorem format_return_iff_cut_off :
    ∃ r, FormatReturns (.ofWords [12]) (some fun _ => 255) 3
        ['%'.toUInt8, 'd'.toUInt8, '!'.toUInt8] r ∧
      ReturnsFull (.ofWords [12]) ['%'.toUInt8, 'd'.toUInt8, '!'.toUInt8] (some fun _ => 255) 3 r :=
  (format_return_iff (.ofWords [12]) (some fun _ => 255) 3 (by decide)).mpr
    ⟨by decide +kernel, by decide +kernel, by decide +kernel⟩

/-- `"a%cb"` with the character 0 stops behind it with the result 1, and `"5%"`
takes the `5` back. -/
theorem format_return_short :
    (¬ ∃ r, FormatReturns (.ofWords [0]) (some fun _ => 255) 8
        ['a'.toUInt8, '%'.toUInt8, 'c'.toUInt8, 'b'.toUInt8] r ∧
      ReturnsFull (.ofWords [0]) ['a'.toUInt8, '%'.toUInt8, 'c'.toUInt8, 'b'.toUInt8]
        (some fun _ => 255) 8 r) ∧
    ¬ ∃ r, FormatReturns (.ofWords []) (some fun _ => 255) 8 ['5'.toUInt8, '%'.toUInt8] r ∧
      ReturnsFull (.ofWords []) ['5'.toUInt8, '%'.toUInt8] (some fun _ => 255) 8 r := by
  constructor
  · refine not_exists_formatReturns 12 (f := Formatted.ret) (x := 1) (by decide +kernel) ?_
    intro r hRet hFull
    exact absurd (hRet.symm.trans hFull.ret) (by decide +kernel)
  · refine not_exists_formatReturns 12 (f := Formatted.ret) (x := 0) (by decide +kernel) ?_
    intro r hRet hFull
    exact absurd (hRet.symm.trans hFull.ret) (by decide +kernel)

end DoraOS
