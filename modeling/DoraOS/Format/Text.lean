import DoraOS.Format.Format

/-! The characters that the formatting functions put. All of them go through
`_dos_buff_put_char`, so the buffer holds the first ones of the text and the
position is its length. -/
namespace DoraOS

theorem toInt32_of_lt {n : Nat} (h : n < 2 ^ 31) : toInt32 n = n := by
  rw [toInt32, Int.bmod_def]
  omega

theorem toInt32_lt (x : Int) : toInt32 x < 2 ^ 31 := by
  rw [toInt32, Int.bmod_def]
  omega

namespace Output

variable {o : Output} {b : Nat → UInt8} {cs ds : List UInt8}

@[simp] theorem puts_nil : o.puts [] = o := rfl

theorem puts_append : o.puts (cs ++ ds) = (o.puts cs).puts ds := List.foldl_append

theorem put_max (c : UInt8) : (o.dosBuffPutChar c).max = o.max := by
  unfold dosBuffPutChar
  dsimp only
  split <;> rfl

theorem put_indexed (c : UInt8) : (o.dosBuffPutChar c).indexed = o.indexed := by
  unfold dosBuffPutChar
  dsimp only
  split <;> rfl

theorem put_buf (c : UInt8) (i : Nat) :
    (o.dosBuffPutChar c).buf i = if i = o.pos ∧ o.pos < o.max then c else o.buf i := by
  by_cases hRoom : o.pos < o.max
  · simp [dosBuffPutChar, hRoom, store]
  · simp [dosBuffPutChar, hRoom]

@[simp] theorem puts_text : (o.puts cs).text = o.text ++ cs := by
  induction cs generalizing o with
  | nil => exact (List.append_nil _).symm
  | cons c cs ih =>
      show ((o.dosBuffPutChar c).puts cs).text = _
      rw [ih]
      exact List.append_assoc o.text [c] cs

@[simp] theorem puts_max : (o.puts cs).max = o.max := by
  induction cs generalizing o with
  | nil => rfl
  | cons c cs ih => exact (ih (o := o.dosBuffPutChar c)).trans (put_max c)

@[simp] theorem puts_indexed : (o.puts cs).indexed = o.indexed := by
  induction cs generalizing o with
  | nil => rfl
  | cons c cs ih => exact (ih (o := o.dosBuffPutChar c)).trans (put_indexed c)

/-- The buffer `b` with the text put into it. The position is 32 bits wide; once
it has wrapped, nothing is said about the buffer. -/
structure Records (b : Nat → UInt8) (o : Output) : Prop where
  pos : o.pos = o.text.length % 2 ^ 32
  buf : o.text.length ≤ 2 ^ 32 → ∀ i, o.buf i = if i < o.max then o.text[i]?.getD (b i) else b i

theorem Records.put (h : o.Records b) (c : UInt8) : (o.dosBuffPutChar c).Records b where
  pos := by
    show (o.pos + 1) % 2 ^ 32 = (o.text ++ [c]).length % 2 ^ 32
    rw [h.pos, List.length_append, List.length_singleton, Nat.mod_add_mod]
  buf hFits i := by
    have hText : (o.dosBuffPutChar c).text = o.text ++ [c] := rfl
    rw [hText, List.length_append, List.length_singleton] at hFits
    have hPos : o.pos = o.text.length := by rw [h.pos, Nat.mod_eq_of_lt (by omega)]
    rw [put_buf, hText, put_max, h.buf (by omega) i, hPos]
    rcases Nat.lt_trichotomy i o.text.length with hLt | hEq | hGt
    · rw [if_neg (by omega), List.getElem?_append_left hLt]
    · subst hEq
      simp
    · have hBehind : (o.text ++ [c])[i]? = none := by
        rw [List.getElem?_eq_none_iff, List.length_append, List.length_singleton]
        omega
      rw [if_neg (by omega), hBehind, List.getElem?_eq_none (by omega)]

theorem Records.puts (h : o.Records b) : (o.puts cs).Records b := by
  induction cs generalizing o with
  | nil => exact h
  | cons c cs ih => exact ih (h.put c)

/-- The digit tables do not concern the buffer. -/
theorem Records.index (h : o.Records b) (indexed : List (Int × Nat)) :
    { o with indexed := indexed }.Records b := ⟨h.pos, h.buf⟩

end Output

section Texts

variable (env : FormatEnv) (o : Output)

/-- The indices into the digit table, the last digit first. -/
def intIndices (num : Int) (base : Nat) (flags : FormatFlags) : List Int :=
  digitLoop base 64 (intValue num flags)

def intDigits (num : Int) (base : Nat) (flags : FormatFlags) : List UInt8 :=
  ((intIndices num base flags).map (env.digit flags.small)).reverse

def fieldOfInt (npad : Nat) (altb digits : List UInt8) (flags : FormatFlags) : List UInt8 :=
  if flags.left then altb ++ digits ++ List.replicate npad ' '.toUInt8
  else if flags.zeropad then altb ++ List.replicate npad '0'.toUInt8 ++ digits
  else List.replicate npad ' '.toUInt8 ++ altb ++ digits

theorem intField_eq (npad : Int) (altb digits : List UInt8) (flags : FormatFlags) :
    intField o npad altb digits flags = o.puts (fieldOfInt npad.toNat altb digits flags) := by
  by_cases hPad : npad > 0
  · cases hLeft : flags.left with
    | true => simp [intField, fieldOfInt, hPad, hLeft, Output.pad, Output.puts_append]
    | false =>
        cases hZero : flags.zeropad with
        | true => simp [intField, fieldOfInt, hPad, hLeft, hZero, Output.pad, Output.puts_append]
        | false => simp [intField, fieldOfInt, hPad, hLeft, hZero, Output.pad, Output.puts_append]
  · have hNone : npad.toNat = 0 := Int.toNat_of_nonpos (by omega)
    simp [intField, fieldOfInt, hPad, hNone, Output.puts_append]

def intText (num : Int) (base : Nat) (width : Int) (flags : FormatFlags) : List UInt8 :=
  let len := (intDigits env num base flags).length + (intPrefix num base flags).length
  fieldOfInt (width - len).toNat (intPrefix num base flags) (intDigits env num base flags) flags

def BaseOk (base : Nat) : Prop := 2 ≤ base ∧ base ≤ 16

theorem dosFormatInt_eq {base : Nat} (hBase : BaseOk base) (num width : Int)
    (flags : FormatFlags) : dosFormatInt env o num base width flags =
      { o with indexed := o.indexed ++ (intIndices num base flags).map fun i => (i, base) }.puts
        (intText env num base width flags) := by
  obtain ⟨hLow, hHigh⟩ := hBase
  have hPad (len : Nat) : (if width > len then width - len else 0).toNat = (width - len).toNat := by
    split <;> omega
  rw [dosFormatInt, if_neg (by omega)]
  cases hLeft : flags.left with
  | true =>
      -- neither the digits nor the sign depend on the flag that `-` clears
      simp only [if_true, intField_eq, intText, ← Nat.cast_add, hPad]
      simp [fieldOfInt, hLeft, intDigits, intIndices, intValue, intPrefix]
  | false =>
      simp only [Bool.false_eq_true, if_false, intField_eq, intText, ← Nat.cast_add, hPad]
      simp [intDigits, intIndices]

/-- A field of `_dos_format_char` and `_dos_format_str`. -/
def fieldText (npad : Int) (cs : List UInt8) (flags : FormatFlags) : List UInt8 :=
  if flags.left then cs ++ List.replicate npad.toNat ' '.toUInt8
  else List.replicate npad.toNat ' '.toUInt8 ++ cs

theorem padded_eq (npad : Int) (cs : List UInt8) (flags : FormatFlags) :
    padded o npad cs flags = o.puts (fieldText npad cs flags) := by
  unfold padded fieldText
  cases hLeft : flags.left with
  | true =>
      by_cases hPad : npad = 0
      · simp [hPad]
      · simp [hPad, Output.pad, Output.puts_append]
  | false =>
      by_cases hPad : npad = 0
      · simp [hPad]
      · simp [hPad, Output.pad, Output.puts_append]

def charText (c : UInt8) (width : Int) (flags : FormatFlags) : List UInt8 :=
  fieldText (width - 1) [c] flags

theorem dosFormatChar_eq (c : UInt8) (width : Int) (flags : FormatFlags) :
    dosFormatChar o c width flags = o.puts (charText c width flags) := by
  have hPad : (if (if width > 0 then width - 1 else 0) < 0 then 0
      else if width > 0 then width - 1 else 0).toNat = (width - 1).toNat := by
    split <;> split <;> omega
  rw [dosFormatChar, padded_eq, charText]
  simp only [fieldText, hPad]

def strText (s : List UInt8) (width : Int) (flags : FormatFlags) : List UInt8 :=
  fieldText (if width > 0 then toInt32 (width - s.length) else 0) s flags

theorem dosFormatStr_eq (s : List UInt8) (width : Int) (flags : FormatFlags) :
    dosFormatStr o s width flags = o.puts (strText s width flags) := by
  rw [dosFormatStr, padded_eq, strText]
  generalize (if width > 0 then toInt32 (width - s.length) else 0) = npad
  have hPad : (if npad < 0 then 0 else npad).toNat = npad.toNat := by split <;> omega
  simp only [fieldText, hPad]

end Texts

end DoraOS
