import DoraOS.Format.Bounds

/-! The log function of `common/salof/salof.c`. The formatter gets one byte less
than the buffer has, ends its text one byte before that, and returns the length of
the whole text; `dos_salof` limits that length in its own way. -/
namespace DoraOS

/-- The buffer and the length that `dos_salof` passes on. -/
structure SalofCall where
  buff : Nat → UInt8
  len : Int

/-- The length that `dos_salof` passes on for a result of the formatter. The
comparison with `DOS_SALOF_BUFF_SIZE` is unsigned. With `DOS_USE_SALOF` the length
is the unsigned one of `dos_fifo_write`, and else the signed one of
`dos_salof_out`. -/
def salofLen (useSalof : Bool) (size : Nat) (len : Int) : Int :=
  let len := if len % 2 ^ 32 > size then toInt32 (size - 1) else len
  if useSalof then len % 2 ^ 32 else len

/-- `dos_salof` with a buffer of `size` bytes that holds whatever the last call
left. -/
def dosSalof (env : FormatEnv) (fuel : Nat) (useSalof : Bool) (size : Nat) (buff : Nat → UInt8)
    (fmt : List UInt8) : Option SalofCall :=
  (dosFormatNstr env fuel (some buff) (size - 1) fmt).map fun r =>
    { buff := r.buf, len := salofLen useSalof size r.ret }

/-- With enough rounds `dos_salof` passes this on. -/
def SalofReturns (env : FormatEnv) (useSalof : Bool) (size : Nat) (buff : Nat → UInt8)
    (fmt : List UInt8) (call : SalofCall) : Prop :=
  ∃ n, ∀ fuel, n ≤ fuel → dosSalof env fuel useSalof size buff fmt = some call

/-- Exactly this text is passed on. -/
structure SalofCall.Passes (call : SalofCall) (text : List UInt8) : Prop where
  len : call.len = text.length
  buff : ∀ i, i < text.length → some (call.buff i) = text[i]?

section Condition

variable (env : FormatEnv) (useSalof : Bool) (size : Nat) (fmt : List UInt8)

/-- The format is read to its terminator outside of a conversion. -/
def ReadsAll : Prop := EndsInText env fmt ∧ PrintsNoZero env fmt

/-- The position has wrapped, and the characters of its last turn are those of the
first one, up to the place of the terminator. -/
def WrapsAround : Prop :=
  2 ^ 32 < (putText env fmt).length ∧ ((putText env fmt).length - 1) % 2 ^ 32 = size - 2 ∧
    ∀ i, i < size - 2 →
      (putText env fmt)[i + 2 ^ 32 * (((putText env fmt).length - 1) / 2 ^ 32)]? =
        (putText env fmt)[i]?

/-- The texts that are passed on as they should be: those that fit, those where the
formatter leaves early at the right moment, and those that wrap around on
themselves. The length has to be one of the receiver. -/
def SalofExact : Prop :=
  (ReadsAll env fmt ∧ (fullText env fmt).length ≤ size - 2 ∨
    ¬ ReadsAll env fmt ∧ (putText env fmt).length = size - 1 ∨ WrapsAround env size fmt) ∧
  (useSalof = true ∨ min (fullText env fmt).length (size - 2) < 2 ^ 31)

instance : Decidable (ReadsAll env fmt) := inferInstanceAs (Decidable (_ ∧ _))

end Condition

section Put

variable {env : FormatEnv} {fmt : List UInt8}

theorem readsAll_iff : ReadsAll env fmt ↔
    (({} : Scan).scanUntil env fmt).zero = false ∧ (({} : Scan).scanUntil env fmt).phase = .text := by
  unfold ReadsAll EndsInText PrintsNoZero
  rw [Scan.zero_scanUntil]
  constructor
  · rintro ⟨hPhase, hZero⟩
    exact ⟨hZero, by rwa [Scan.scanUntil_eq hZero]⟩
  · rintro ⟨hZero, hPhase⟩
    exact ⟨by rwa [Scan.scanUntil_eq hZero] at hPhase, hZero⟩

theorem putText_of_readsAll (h : ReadsAll env fmt) : putText env fmt = fullText env fmt ++ [0] := by
  rw [putText, if_pos (readsAll_iff.mp h), Scan.scanUntil_eq h.2]
  rfl

theorem putText_of_not_readsAll (h : ¬ ReadsAll env fmt) :
    putText env fmt <+: fullText env fmt := by
  rw [putText, if_neg (mt readsAll_iff.mpr h), List.append_nil]
  exact Scan.prefix_scanUntil {} fmt

theorem length_putText_of_readsAll (h : ReadsAll env fmt) :
    (putText env fmt).length = (fullText env fmt).length + 1 := by
  rw [putText_of_readsAll h, List.length_append, List.length_singleton]

/-- All but the last of the characters put belong to the text. -/
theorem getElem?_putText {i : Nat} (hi : i + 1 < (putText env fmt).length) :
    (putText env fmt)[i]? = (fullText env fmt)[i]? := by
  by_cases hReads : ReadsAll env fmt
  · rw [length_putText_of_readsAll hReads] at hi
    rw [putText_of_readsAll hReads, List.getElem?_append_left (by omega)]
  · obtain ⟨rest, hRest⟩ := putText_of_not_readsAll hReads
    rw [← hRest, List.getElem?_append_left (by omega)]

end Put

namespace Output

variable {o : Output}

theorem puts_pos (hPos : o.pos = 0) (cs : List UInt8) : (o.puts cs).pos = cs.length % 2 ^ 32 := by
  induction cs using List.reverseRecOn with
  | nil => exact hPos
  | append_singleton cs c ih =>
      rw [puts_append, List.length_append, List.length_singleton, ← Nat.mod_add_mod, ← ih]
      rfl

/-- The buffer holds the last character that was put at a place. -/
theorem puts_buf (hPos : o.pos = 0) {i : Nat} (hRoom : i < o.max) (hWord : i < 2 ^ 32)
    (cs : List UInt8) (hi : i < cs.length) :
    some ((o.puts cs).buf i) = cs[i + 2 ^ 32 * ((cs.length - 1 - i) / 2 ^ 32)]? := by
  induction cs using List.reverseRecOn with
  | nil => exact absurd hi (Nat.not_lt_zero i)
  | append_singleton cs c ih =>
      have hPut : (o.puts (cs ++ [c])).buf i =
          if i = (o.puts cs).pos ∧ (o.puts cs).pos < (o.puts cs).max then c
          else (o.puts cs).buf i := by
        rw [puts_append]
        exact put_buf c i
      rw [List.length_append, List.length_singleton] at hi ⊢
      rw [hPut, puts_pos hPos, puts_max]
      by_cases hLast : i = cs.length % 2 ^ 32
      · have hIndex : i + 2 ^ 32 * ((cs.length + 1 - 1 - i) / 2 ^ 32) = cs.length := by omega
        rw [if_pos ⟨hLast, hLast ▸ hRoom⟩, hIndex, List.getElem?_concat_length]
      · have hSame : (cs.length + 1 - 1 - i) / 2 ^ 32 = (cs.length - 1 - i) / 2 ^ 32 := by omega
        rw [if_neg (fun h => hLast h.1), ih (by omega), hSame,
          List.getElem?_append_left (by omega)]

end Output

/-- The length that is passed on is right only if the count is. -/
theorem salofLen_eq_iff (useSalof : Bool) {size count k : Nat} (hHigh : size < 2 ^ 32)
    (hCount : count < 2 ^ 32) (hk : k + 2 ≤ size) :
    salofLen useSalof size (toInt32 count) = k ↔ count = k ∧ (useSalof = true ∨ k < 2 ^ 31) := by
  have hWord : toInt32 count % 2 ^ 32 = count := by
    rw [toInt32, Int.bmod_def]
    split <;> omega
  unfold salofLen
  rw [hWord]
  by_cases hClamp : (count : Int) > size
  · rw [if_pos hClamp, toInt32, Int.bmod_def]
    cases useSalof with
    | true =>
        simp only [if_true, true_or, and_true]
        split <;> omega
    | false =>
        simp only [Bool.false_eq_true, if_false, false_or]
        split <;> omega
  · rw [if_neg hClamp]
    cases useSalof with
    | true =>
        simp only [if_true, true_or, and_true, hWord]
        omega
    | false =>
        simp only [Bool.false_eq_true, if_false, false_or]
        rw [toInt32, Int.bmod_def]
        split <;> omega

section Passed

variable {env : FormatEnv} {useSalof : Bool} {size : Nat} {buff : Nat → UInt8} {fmt : List UInt8}

def putCount (env : FormatEnv) (fmt : List UInt8) : Nat :=
  ((putText env fmt).length + (2 ^ 32 - 1)) % 2 ^ 32

/-- What the formatter returns and leaves in front of its terminator. -/
theorem exists_formatReturns_put (size : Nat) (buff : Nat → UInt8) (hFmt : 0 ∉ fmt) :
    ∃ r, FormatReturns env (some buff) size fmt r ∧ r.ret = toInt32 (putCount env fmt) ∧
      ∀ i, i + 1 < size → i < putCount env fmt → i + 1 < (putText env fmt).length →
        some (r.buf i) =
          (putText env fmt)[i + 2 ^ 32 * (((putText env fmt).length - 1 - i) / 2 ^ 32)]? := by
  obtain ⟨m, indexed, hReturns⟩ := exists_returns_puts env hFmt
  refine ⟨_, hReturns (some buff) size, ?_⟩
  have hStart : { (Formatter.start (some buff) size fmt).out with
      indexed := (Formatter.start (some buff) size fmt).out.indexed ++ indexed }.pos = 0 := rfl
  obtain ⟨o, hOut⟩ : ∃ o, o = (Formatter.start (some buff) size fmt).out.extend
    (indexed, putText env fmt) := ⟨_, rfl⟩
  have hMax : o.max = size := hOut ▸ Output.puts_max
  have hCount : o.count = putCount env fmt := by
    rw [hOut, Output.count, Output.extend, Output.puts_pos hStart, Nat.mod_add_mod, putCount]
  rw [← hOut]
  constructor
  · rw [ret_finish, hCount]
  · intro i hi hLess hPut
    have hWord : putCount env fmt < 2 ^ 32 := Nat.mod_lt _ (Nat.two_pow_pos 32)
    rw [buf_finish]
    dsimp only
    rw [hMax, hCount, if_neg (by omega), hOut]
    exact Output.puts_buf hStart (show i < size by omega) (by omega) (putText env fmt) (by omega)

theorem exists_salofReturns_iff {P : SalofCall → Prop} {r : Formatted}
    (h : FormatReturns env (some buff) (size - 1) fmt r) :
    (∃ call, SalofReturns env useSalof size buff fmt call ∧ P call) ↔
      P { buff := r.buf, len := salofLen useSalof size r.ret } := by
  obtain ⟨n, hRun⟩ := h
  have hSalof (fuel : Nat) (hFuel : n ≤ fuel) : dosSalof env fuel useSalof size buff fmt =
      some { buff := r.buf, len := salofLen useSalof size r.ret } := by
    rw [dosSalof, hRun fuel hFuel, Option.map_some]
  constructor
  · rintro ⟨call, ⟨n', hAll⟩, hP⟩
    have hSame := (hAll (max n' n) (Nat.le_max_left ..)).symm.trans
      (hSalof (max n' n) (Nat.le_max_right ..))
    rwa [← Option.some.inj hSame]
  · exact fun hP => ⟨_, ⟨n, hSalof⟩, hP⟩

/-- The text that should be passed on has `k` characters. They are passed on if the
formatter counts `k` characters and they are those of the last turn. -/
theorem passes_iff (hLow : 2 ≤ size) (hHigh : size < 2 ^ 32) (hFmt : 0 ∉ fmt) {k : Nat}
    (hk : k = min (fullText env fmt).length (size - 2)) :
    (∃ call, SalofReturns env useSalof size buff fmt call ∧
      call.Passes ((fullText env fmt).take (size - 2))) ↔
    (putCount env fmt = k ∧ (useSalof = true ∨ k < 2 ^ 31)) ∧ ∀ i, i < k →
      (putText env fmt)[i + 2 ^ 32 * (((putText env fmt).length - 1) / 2 ^ 32)]? =
        (putText env fmt)[i]? := by
  obtain ⟨r, hReturns, hRet, hBuf⟩ := exists_formatReturns_put (size - 1) buff hFmt
  have hCount : putCount env fmt < 2 ^ 32 := Nat.mod_lt _ (Nat.two_pow_pos 32)
  have hLength : ((fullText env fmt).take (size - 2)).length = k := by
    rw [List.length_take, hk, Nat.min_comm]
  have hLen := salofLen_eq_iff useSalof hHigh hCount (show k + 2 ≤ size by omega)
  rw [exists_salofReturns_iff hReturns, hRet]
  -- a byte in front of the count is the one of the last turn, and belongs to the text
  have hByte (hSame : putCount env fmt = k) (i : Nat) (hi : i < k) :
      some (r.buf i) = ((fullText env fmt).take (size - 2))[i]? ↔
        (putText env fmt)[i + 2 ^ 32 * (((putText env fmt).length - 1) / 2 ^ 32)]? =
          (putText env fmt)[i]? := by
    rw [putCount] at hSame
    have hTurn : ((putText env fmt).length - 1 - i) / 2 ^ 32 =
        ((putText env fmt).length - 1) / 2 ^ 32 := by omega
    rw [hBuf i (by omega) (by rw [putCount]; omega) (by omega), hTurn,
      List.getElem?_take_of_lt (by omega), ← getElem?_putText (i := i) (by omega)]
  constructor
  · rintro ⟨hPassed, hBytes⟩
    rw [hLength] at hPassed hBytes
    have hSame := hLen.mp hPassed
    exact ⟨hSame, fun i hi => (hByte hSame.1 i hi).mp (hBytes i hi)⟩
  · rintro ⟨hSame, hBytes⟩
    refine ⟨?_, ?_⟩
    · rw [hLength]
      exact hLen.mpr hSame
    · rw [hLength]
      exact fun i hi => (hByte hSame.1 i hi).mpr (hBytes i hi)

/-- When the count is right. -/
theorem putCount_eq_iff (hLow : 2 ≤ size) (hHigh : size < 2 ^ 32) {k : Nat}
    (hk : k = min (fullText env fmt).length (size - 2)) :
    (putCount env fmt = k ∧ ∀ i, i < k →
      (putText env fmt)[i + 2 ^ 32 * (((putText env fmt).length - 1) / 2 ^ 32)]? =
        (putText env fmt)[i]?) ↔
    ReadsAll env fmt ∧ (fullText env fmt).length ≤ size - 2 ∨
      ¬ ReadsAll env fmt ∧ (putText env fmt).length = size - 1 ∨ WrapsAround env size fmt := by
  have hLength : if ReadsAll env fmt then (putText env fmt).length = (fullText env fmt).length + 1
      else (putText env fmt).length ≤ (fullText env fmt).length := by
    split
    next h => exact length_putText_of_readsAll h
    next h => exact (putText_of_not_readsAll h).length_le
  unfold putCount WrapsAround
  by_cases hWrap : 2 ^ 32 < (putText env fmt).length
  · -- the text is longer than the buffer
    have hFull : k = size - 2 := by split at hLength <;> omega
    have hMod : ((putText env fmt).length + (2 ^ 32 - 1)) % 2 ^ 32 =
        ((putText env fmt).length - 1) % 2 ^ 32 := by omega
    rw [hMod, hFull]
    constructor
    · exact fun h => .inr (.inr ⟨hWrap, h⟩)
    · rintro (⟨hReads, hFits⟩ | ⟨hReads, hEarly⟩ | ⟨-, h⟩)
      · rw [if_pos hReads] at hLength
        omega
      · omega
      · exact h
  · -- nothing has been put twice at a place
    have hTurn (h : ((putText env fmt).length + (2 ^ 32 - 1)) % 2 ^ 32 = k) :
        ((putText env fmt).length - 1) / 2 ^ 32 = 0 := by omega
    constructor
    · rintro ⟨hSame, -⟩
      by_cases hReads : ReadsAll env fmt
      · rw [if_pos hReads] at hLength
        exact .inl ⟨hReads, by omega⟩
      · rw [if_neg hReads] at hLength
        exact .inr (.inl ⟨hReads, by omega⟩)
    · intro h
      have hSame : ((putText env fmt).length + (2 ^ 32 - 1)) % 2 ^ 32 = k := by
        rcases h with ⟨hReads, hFits⟩ | ⟨hReads, hEarly⟩ | ⟨hLong, -⟩
        · rw [if_pos hReads] at hLength
          omega
        · rw [if_neg hReads] at hLength
          omega
        · exact absurd hLong hWrap
      refine ⟨hSame, fun i _ => ?_⟩
      rw [hTurn hSame, Nat.mul_zero, Nat.add_zero]

end Passed

/-- The first `DOS_SALOF_BUFF_SIZE - 2` characters of the text are passed on exactly
for texts with no more characters and the coincidences of `SalofExact`. -/
theorem salof_exact_iff (env : FormatEnv) (useSalof : Bool) {size : Nat} (hLow : 2 ≤ size)
    (hHigh : size < 2 ^ 32) (buff : Nat → UInt8) {fmt : List UInt8} (hFmt : 0 ∉ fmt) :
    (∃ call, SalofReturns env useSalof size buff fmt call ∧
      call.Passes ((fullText env fmt).take (size - 2))) ↔ SalofExact env useSalof size fmt := by
  rw [passes_iff hLow hHigh hFmt rfl, and_right_comm, putCount_eq_iff hLow hHigh rfl, SalofExact]

/-- `"%d!"` with 12 and a buffer of eight bytes. -/
theorem salof_exact_iff_short :
    ∃ call, SalofReturns (.ofWords [12]) true 8 (fun _ => 255)
        ['%'.toUInt8, 'd'.toUInt8, '!'.toUInt8] call ∧
      call.Passes ((fullText (.ofWords [12]) ['%'.toUInt8, 'd'.toUInt8, '!'.toUInt8]).take (8 - 2)) :=
  (salof_exact_iff (.ofWords [12]) true (by decide) (by decide) (fun _ => 255) (by decide)).mpr
    ⟨.inl ⟨by decide +kernel, by decide +kernel⟩, .inl rfl⟩

/-- With the default of 256 bytes a text of 255 characters is followed by its
terminator, and `"%"` passes on what the last call left. -/
theorem salof_not_exact :
    (¬ ∃ call, SalofReturns (.ofWords []) true 256 (fun _ => 255) (List.replicate 255 'a'.toUInt8)
        call ∧ call.Passes
          ((fullText (.ofWords []) (List.replicate 255 'a'.toUInt8)).take (256 - 2))) ∧
    ¬ ∃ call, SalofReturns (.ofWords []) true 256 (fun _ => 255) ['%'.toUInt8] call ∧
      call.Passes ((fullText (.ofWords []) ['%'.toUInt8]).take (256 - 2)) := by
  constructor
  · rw [passes_iff (by decide) (by decide) (by decide) rfl]
    rintro ⟨⟨hCount, -⟩, -⟩
    exact absurd hCount (by decide +kernel)
  · rw [passes_iff (by decide) (by decide) (by decide) rfl]
    rintro ⟨⟨hCount, -⟩, -⟩
    exact absurd hCount (by decide +kernel)

end DoraOS
