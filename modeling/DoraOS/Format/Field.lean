import DoraOS.Format.Scan
import DoraOS.Format.Numeral

/-! Fields: the width and the padding of the three formatting functions. -/
namespace DoraOS

/-- A call of `_dos_format_int`, `_dos_format_char` or `_dos_format_str`, without
the width and the flags. -/
inductive FieldCall where
  | int (num : Int) (base : Nat)
  | char (c : UInt8)
  | str (s : List UInt8)

namespace FieldCall

def run (env : FormatEnv) (o : Output) (width : Int) (flags : FormatFlags) : FieldCall → Output
  | .int num base => dosFormatInt env o num base width flags
  | .char c => dosFormatChar o c width flags
  | .str s => dosFormatStr o s width flags

/-- The numbers whose absolute value has 31 bits in the usual bases, and the
strings without their terminator. -/
def Valid (flags : FormatFlags) : FieldCall → Prop
  | .int num base =>
      (0 ≤ num ∧ num < 2 ^ 31 ∨ -2 ^ 31 < num ∧ num < 0 ∧ flags.signed = true) ∧
        (base = 2 ∨ base = 8 ∨ base = 10 ∨ base = 16)
  | .char _ => True
  | .str s => 0 ∉ s

def isInt : FieldCall → Bool
  | .int _ _ => true
  | _ => false

def front (flags : FormatFlags) : FieldCall → List UInt8
  | .int num base => intPrefix num base flags
  | _ => []

def body (flags : FormatFlags) : FieldCall → List UInt8
  | .int num base => (Numeral.digits base num.natAbs).map (NumeralConv.digitChar flags.small)
  | .char c => [c]
  | .str s => s

def content (flags : FormatFlags) (call : FieldCall) : List UInt8 :=
  call.front flags ++ call.body flags

def fill (width : Nat) (flags : FormatFlags) (call : FieldCall) (c : UInt8) : List UInt8 :=
  List.replicate (width - (call.content flags).length) c

/-- The characters of a field: as many as the width asks for, and the padding where
the flags put it. -/
structure Laid (width : Nat) (flags : FormatFlags) (call : FieldCall) (cs : List UInt8) :
    Prop where
  length : cs.length = max width (call.content flags).length
  left : flags.left = true → cs = call.content flags ++ call.fill width flags ' '.toUInt8
  zeros : flags.left = false → call.isInt = true → flags.zeropad = true →
    cs = call.front flags ++ call.fill width flags '0'.toUInt8 ++ call.body flags
  spaces : flags.left = false → ¬ (call.isInt = true ∧ flags.zeropad = true) →
    cs = call.fill width flags ' '.toUInt8 ++ call.content flags

/-- The difference between the width and the length of a string is right in 32
bits. -/
def Short (width : Nat) : FieldCall → Prop
  | .str s => width = 0 ∨ (s.length - width) % 2 ^ 32 ≤ 2 ^ 31
  | _ => True

variable {env : FormatEnv} {o : Output} {width : Nat} {flags : FormatFlags} {call : FieldCall}

/-- The characters of a call are determined by its output. -/
theorem exists_extends_iff {o' : Output} {indexed : List (Int × Nat)} {cs : List UInt8}
    {P : List UInt8 → Prop} (h : o' = o.extend (indexed, cs)) :
    (∃ indexed cs, o' = o.extend (indexed, cs) ∧ P cs) ↔ P cs := by
  constructor
  · rintro ⟨indexed', cs', h', hP⟩
    have hSame : o.text ++ cs' = o.text ++ cs := by
      rw [← o.extend_text (indexed', cs'), ← h', h, o.extend_text]
    rwa [← List.append_cancel_left hSame]
  · exact fun hP => ⟨indexed, cs, h, hP⟩

theorem intValue_of_valid {num : Int} {base : Nat} (h : (FieldCall.int num base).Valid flags) :
    intValue num flags = num.natAbs := by
  rcases h.1 with ⟨hLow, hHigh⟩ | ⟨hLow, hHigh, hSigned⟩
  · rw [intValue, if_neg (by omega), toInt32, Int.bmod_def]
    split <;> omega
  · rw [intValue, if_pos ⟨hSigned, hHigh⟩, toInt32, Int.bmod_def]
    split <;> omega

theorem baseOk_of_valid {num : Int} {base : Nat} (h : (FieldCall.int num base).Valid flags) :
    BaseOk base := by
  obtain ⟨-, hBase⟩ := h
  unfold BaseOk
  omega

/-- A number is laid out as it should be. -/
theorem laid_int {num : Int} {base : Nat} (h : (FieldCall.int num base).Valid flags) :
    (FieldCall.int num base).Laid width flags (intText env num base width flags) := by
  have hDigits := intDigits_eq env (baseOk_of_valid h) (intValue_of_valid h)
  have hPad : (((width : Int) - ((intDigits env num base flags).length +
      (intPrefix num base flags).length : Nat)).toNat) =
      width - ((FieldCall.int num base).content flags).length := by
    rw [hDigits, content, front, body, List.length_append]
    omega
  have hText : intText env num base width flags =
      fieldOfInt (width - ((FieldCall.int num base).content flags).length)
        ((FieldCall.int num base).front flags) ((FieldCall.int num base).body flags) flags := by
    rw [← hPad, front, body, ← hDigits]
    rfl
  rw [hText]
  refine ⟨?_, ?_, ?_, ?_⟩
  · have hContent : ((FieldCall.int num base).content flags).length =
        ((FieldCall.int num base).front flags).length +
          ((FieldCall.int num base).body flags).length := List.length_append
    unfold fieldOfInt
    split_ifs <;> simp only [List.length_append, List.length_replicate] <;> omega
  · intro hLeft
    rw [fieldOfInt, if_pos hLeft]
    rfl
  · intro hLeft _ hZero
    rw [fieldOfInt, if_neg (by simp [hLeft]), if_pos hZero]
    rfl
  · intro hLeft hNot
    have hZero : ¬ flags.zeropad = true := fun hZero => hNot ⟨rfl, hZero⟩
    rw [fieldOfInt, if_neg (by simp [hLeft]), if_neg hZero, List.append_assoc]
    rfl

/-- Characters and strings are laid out as they should be if their padding has the
right length. -/
theorem laid_fieldText (hInt : call.isInt = false) (npad : Int) :
    call.Laid width flags (fieldText npad (call.body flags) flags) ↔
      npad.toNat = width - (call.body flags).length := by
  have hContent : call.content flags = call.body flags := by
    cases call with
    | int => cases hInt
    | char => rfl
    | str => rfl
  constructor
  · intro h
    have hLength := h.length
    have hSum : (fieldText npad (call.body flags) flags).length =
        npad.toNat + (call.body flags).length := by
      unfold fieldText
      split <;> simp only [List.length_append, List.length_replicate]
      omega
    rw [hContent, hSum] at hLength
    omega
  · intro hPad
    have hFill (c : UInt8) : List.replicate npad.toNat c = call.fill width flags c := by
      rw [fill, hContent, hPad]
    refine ⟨?_, ?_, ?_, ?_⟩
    · rw [hContent]
      unfold fieldText
      split <;> simp only [List.length_append, List.length_replicate] <;> omega
    · intro hLeft
      rw [fieldText, if_pos hLeft, hContent, hFill]
    · intro _ hIs
      rw [hInt] at hIs
      cases hIs
    · intro hLeft _
      rw [fieldText, if_neg (by simp [hLeft]), hContent, hFill]

/-- The padding of a string has the right length if the difference has. -/
theorem laid_str {s : List UInt8} (hWidth : width < 2 ^ 31) :
    (FieldCall.str s).Laid width flags (strText s width flags) ↔ (FieldCall.str s).Short width := by
  have hPad : ((if (width : Int) > 0 then toInt32 (width - s.length) else 0).toNat =
      width - s.length) ↔ (width = 0 ∨ (s.length - width) % 2 ^ 32 ≤ 2 ^ 31) := by
    simp only [toInt32, Int.bmod_def]
    split <;> omega
  exact (laid_fieldText rfl _).trans hPad

theorem run_str (s : List UInt8) (width : Int) :
    (FieldCall.str s).run env o width flags = o.extend ([], strText s width flags) :=
  (dosFormatStr_eq o s width flags).trans (o.extend_puts _).symm

end FieldCall

/-- The width and the flags are kept for all numbers and characters. A string is
padded though it is too long where the difference to the width wraps to a positive
number of 32 bits. -/
theorem format_field_iff (env : FormatEnv) (o : Output) {width : Nat} (hWidth : width < 2 ^ 31)
    {flags : FormatFlags} {call : FieldCall} (hCall : call.Valid flags) :
    (∃ indexed cs, call.run env o width flags = o.extend (indexed, cs) ∧
      call.Laid width flags cs) ↔ call.Short width := by
  cases call with
  | int num base =>
      have hRun := dosFormatInt_eq env o (FieldCall.baseOk_of_valid hCall) num width flags
      exact (FieldCall.exists_extends_iff hRun).trans (iff_true_intro (FieldCall.laid_int hCall))
  | char c =>
      have hRun : dosFormatChar o c width flags = o.extend ([], charText c width flags) :=
        (dosFormatChar_eq o c width flags).trans (o.extend_puts _).symm
      have hLaid : (FieldCall.char c).Laid width flags (charText c width flags) ↔ _ :=
        FieldCall.laid_fieldText rfl _
      refine (FieldCall.exists_extends_iff hRun).trans (iff_true_intro (hLaid.mpr ?_))
      rw [FieldCall.body, List.length_singleton]
      omega
  | str s =>
      rw [FieldCall.exists_extends_iff (FieldCall.run_str s width)]
      exact FieldCall.laid_str hWidth

/-- The number -42 with zeros in a field of five characters. -/
theorem format_field_iff_zeros :
    ∃ indexed cs, (FieldCall.int (-42) 10).run (.ofWords []) { buf := fun _ => 0, max := 8 } (5 : Nat)
        { signed := true, zeropad := true } =
          Output.extend { buf := fun _ => 0, max := 8 } (indexed, cs) ∧
      (FieldCall.int (-42) 10).Laid 5 { signed := true, zeropad := true } cs := by
  have hCall : (FieldCall.int (-42) 10).Valid { signed := true, zeropad := true } :=
    ⟨.inr ⟨by decide, by decide, rfl⟩, by decide⟩
  exact (format_field_iff (.ofWords []) { buf := fun _ => 0, max := 8 } (by decide) hCall).mpr
    trivial

/-- A string of `2^31 + 2` characters in a field of one. -/
theorem format_field_long_string :
    (FieldCall.str (List.replicate (2 ^ 31 + 2) 'a'.toUInt8)).Valid {} ∧
      ¬ ∃ indexed cs, (FieldCall.str (List.replicate (2 ^ 31 + 2) 'a'.toUInt8)).run (.ofWords [])
          { buf := fun _ => 0, max := 8 } (1 : Nat) {} =
            Output.extend { buf := fun _ => 0, max := 8 } (indexed, cs) ∧
        (FieldCall.str (List.replicate (2 ^ 31 + 2) 'a'.toUInt8)).Laid 1 {} cs := by
  constructor
  · intro hZero
    exact absurd (List.eq_of_mem_replicate hZero) (by decide)
  · rw [FieldCall.exists_extends_iff (FieldCall.run_str _ _), FieldCall.laid_str (by decide)]
    intro hShort
    rw [FieldCall.Short, List.length_replicate] at hShort
    omega

end DoraOS
