import DoraOS.Format.Text

/-! What a format says. The formatter looks at a character in several states and
takes the digits of a number at once; the scanner reads every character once.
Both go through the same conversions. -/
namespace DoraOS

section Conversions

variable (env : FormatEnv) (flags : FormatFlags) (width : Int) (lflags ap : Nat) (c : UInt8)

def convText : List UInt8 :=
  if isInteger c then
    intText env (env.integer lflags c ap) (integerBase c) width (integerFlags flags c)
  else if c = 'p'.toUInt8 then
    intText env (env.int32 ap) 16 width { flags with small := true, alternate := true }
  else if c = 's'.toUInt8 then strText (env.stringArg ap) width flags
  else if c = 'c'.toUInt8 then charText (env.charArg ap) width flags
  else if c = '%'.toUInt8 then [c]
  else ['%'.toUInt8, c]

def convFetches : List Fetch :=
  if isInteger c then [⟨.conv c, ap, integerWords lflags⟩]
  else if c = 'p'.toUInt8 ∨ c = 's'.toUInt8 ∨ c = 'c'.toUInt8 then [⟨.conv c, ap, 1⟩]
  else []

/-- The places of the digit tables that a conversion reads, each with the base. -/
def convIndexed : List (Int × Nat) :=
  if isInteger c then
    (intIndices (env.integer lflags c ap) (integerBase c) (integerFlags flags c)).map
      fun i => (i, integerBase c)
  else if c = 'p'.toUInt8 then
    (intIndices (env.int32 ap) 16 { flags with small := true, alternate := true }).map
      fun i => (i, 16)
  else []

def fetchedWords (fetches : List Fetch) : Nat := (fetches.map Fetch.words).sum

def convZero : Bool := c = 'c'.toUInt8 && env.charArg ap = 0

end Conversions

theorem integerBase_ok (c : UInt8) : BaseOk (integerBase c) := by
  unfold integerBase BaseOk
  split
  · decide
  · split
    · decide
    · split <;> decide

/-- What a state of `dos_format_nstr` does to the output: it reads the digit tables
and puts characters. -/
def Output.extend (o : Output) (e : List (Int × Nat) × List UInt8) : Output :=
  { o with indexed := o.indexed ++ e.1 }.puts e.2

namespace Output

variable (o : Output)

theorem extend_puts (cs : List UInt8) : o.extend ([], cs) = o.puts cs := by
  rw [extend, List.append_nil]

theorem extend_nil : o.extend ([], []) = o := o.extend_puts []

theorem extend_text (e : List (Int × Nat) × List UInt8) : (o.extend e).text = o.text ++ e.2 :=
  puts_text

theorem extend_indexed (e : List (Int × Nat) × List UInt8) :
    (o.extend e).indexed = o.indexed ++ e.1 :=
  puts_indexed

theorem Records.extend {o : Output} {b : Nat → UInt8} (h : o.Records b)
    (e : List (Int × Nat) × List UInt8) : (o.extend e).Records b ∧ (o.extend e).max = o.max :=
  ⟨(h.index _).puts, puts_max⟩

theorem puts_index (cs : List UInt8) (indexed : List (Int × Nat)) :
    { o.puts cs with indexed := indexed } = { o with indexed := indexed }.puts cs := by
  induction cs generalizing o with
  | nil => rfl
  | cons c cs ih =>
      have hPut : { o.dosBuffPutChar c with indexed := indexed } =
          { o with indexed := indexed }.dosBuffPutChar c := by
        unfold dosBuffPutChar
        dsimp only
        split <;> rfl
      exact (ih (o.dosBuffPutChar c)).trans (congrArg (puts · cs) hPut)

theorem extend_extend (e e' : List (Int × Nat) × List UInt8) :
    (o.extend e).extend e' = o.extend (e.1 ++ e'.1, e.2 ++ e'.2) := by
  simp only [extend, puts_indexed, puts_index, puts_append, List.append_assoc]

end Output

/-- What a state of `dos_format_nstr` does to the arguments and the output. -/
structure Formatter.Emits (m m' : Formatter) (fetches : List Fetch) (indexed : List (Int × Nat))
    (cs : List UInt8) : Prop where
  fmt : m'.fmt = m.fmt
  state : m'.state = m.state
  ap : m'.ap = m.ap + fetchedWords fetches
  fetched : m'.fetched = m.fetched ++ fetches
  out : m'.out = m.out.extend (indexed, cs)

theorem Formatter.convert_emits (env : FormatEnv) (m : Formatter) (c : UInt8) :
    m.Emits (m.convert env c).1 (convFetches m.lflags m.ap c)
      (convIndexed env m.flags m.lflags m.ap c)
      (convText env m.flags m.width m.lflags m.ap c) := by
  by_cases hInteger : isInteger c = true
  · simp only [Formatter.convert, convFetches, convIndexed, convText, if_pos hInteger]
    exact ⟨rfl, rfl, rfl, rfl, dosFormatInt_eq env m.out (integerBase_ok c) _ _ _⟩
  · by_cases hPointer : c = 'p'.toUInt8
    · subst hPointer
      exact ⟨rfl, rfl, rfl, rfl, dosFormatInt_eq env m.out (integerBase_ok 'x'.toUInt8) _ _ _⟩
    · by_cases hString : c = 's'.toUInt8
      · subst hString
        refine ⟨rfl, rfl, rfl, rfl, ?_⟩
        exact (dosFormatStr_eq m.out _ m.width m.flags).trans (m.out.extend_puts _).symm
      · by_cases hChar : c = 'c'.toUInt8
        · subst hChar
          refine ⟨rfl, rfl, rfl, rfl, ?_⟩
          exact (dosFormatChar_eq m.out _ m.width m.flags).trans (m.out.extend_puts _).symm
        · simp only [Formatter.convert, convFetches, convIndexed, convText, if_neg hInteger,
            hPointer, hString, hChar, or_self, if_false]
          split
          · exact ⟨rfl, rfl, rfl, (List.append_nil _).symm, (m.out.extend_puts [c]).symm⟩
          · exact ⟨rfl, rfl, rfl, (List.append_nil _).symm, (m.out.extend_puts ['%'.toUInt8, c]).symm⟩

/-- The value of the variable `c` behind `S_CONV`. -/
theorem Formatter.convert_char (env : FormatEnv) (m : Formatter) {c : UInt8} (hChar : c ≠ 0) :
    (m.convert env c).2 = 0 ↔ convZero env m.ap c = true := by
  by_cases hConv : c = 'c'.toUInt8
  · subst hConv
    exact decide_eq_true_iff.symm
  · have hSame : (m.convert env c).2 = c := by
      unfold Formatter.convert
      split_ifs <;> rfl
    simp [hSame, hChar, convZero, hConv]

inductive ScanPhase where
  | text
  | flags
  | width
  | number
  | dot
  | precision
  | length
  deriving DecidableEq

/-- The scanner: its phase, the conversion it reads, and the arguments and
characters so far. `zero` tells that one of the characters of `%c` was 0. -/
structure Scan where
  phase : ScanPhase := .text
  flags : FormatFlags := {}
  width : Int := 0
  lflags : Nat := 0
  ap : Nat := 0
  fetched : List Fetch := []
  text : List UInt8 := []
  indexed : List (Int × Nat) := []
  zero : Bool := false

namespace Scan

variable (env : FormatEnv) (q : Scan)

def fetch (use : FetchUse) : Scan :=
  { q with ap := q.ap + 1, fetched := q.fetched ++ [⟨use, q.ap, 1⟩] }

def convert (c : UInt8) : Scan :=
  { q with
    phase := .text
    ap := q.ap + fetchedWords (convFetches q.lflags q.ap c)
    fetched := q.fetched ++ convFetches q.lflags q.ap c
    text := q.text ++ convText env q.flags q.width q.lflags q.ap c
    indexed := q.indexed ++ convIndexed env q.flags q.lflags q.ap c
    zero := q.zero || convZero env q.ap c }

def advanceLength (c : UInt8) : Scan :=
  match setLength q.lflags c with
  | some lflags => { q with phase := .length, lflags := lflags }
  | none => q.convert env c

def advancePrecision (c : UInt8) : Scan :=
  let q := { q with lflags := 0 }
  if c = '.'.toUInt8 then { q with phase := .dot } else q.advanceLength env c

/-- A character where a width may stand. A negative argument is a width from the
left. -/
def advanceWidth (c : UInt8) : Scan :=
  if c = '*'.toUInt8 then
    let width := env.int32 q.ap
    let q := { q.fetch .width with phase := .width }
    if width < 0 then
      { q with width := toInt32 (-width), flags := { q.flags with left := true } }
    else { q with width := width }
  else if isDigit c ∧ '0'.toUInt8 < c then { q with phase := .number, width := atoiStep 0 c }
  else q.advancePrecision env c

/-- The next character of the format. The character behind a precision of `*` is
the `*` itself. -/
def advance (c : UInt8) : Scan :=
  match q.phase with
  | .text =>
      if c = '%'.toUInt8 then { q with phase := .flags, flags := {} }
      else { q with text := q.text ++ [c] }
  | .flags =>
      match setFlag q.flags c with
      | some flags => { q with flags := flags }
      | none => { q with width := 0 }.advanceWidth env c
  | .width => q.advanceWidth env c
  | .number =>
      if isDigit c then { q with width := atoiStep q.width c } else q.advanceWidth env c
  | .dot =>
      if isDigit c then { q with phase := .precision }
      else if c = '*'.toUInt8 then (q.fetch .precision).advanceLength env c
      else q.advanceLength env c
  | .precision => if isDigit c then q else q.advanceLength env c
  | .length => q.advanceLength env c

def scan (fmt : List UInt8) : Scan := fmt.foldl (advance env) q

/-- The formatter does not read on behind a character 0. -/
def advanceUntil (c : UInt8) : Scan := if q.zero then q else q.advance env c

def scanUntil (fmt : List UInt8) : Scan := fmt.foldl (advanceUntil env) q

variable {env q}

theorem scanUntil_of_zero (h : q.zero = true) (fmt : List UInt8) : q.scanUntil env fmt = q := by
  induction fmt with
  | nil => rfl
  | cons c fmt ih =>
      show (q.advanceUntil env c).scanUntil env fmt = q
      rwa [advanceUntil, if_pos h]

theorem scanUntil_append (fmt fmt' : List UInt8) :
    q.scanUntil env (fmt ++ fmt') = (q.scanUntil env fmt).scanUntil env fmt' := List.foldl_append

theorem scanUntil_cons (h : q.zero = false) (c : UInt8) (fmt : List UInt8) :
    q.scanUntil env (c :: fmt) = (q.advance env c).scanUntil env fmt := by
  show (q.advanceUntil env c).scanUntil env fmt = _
  rw [advanceUntil, if_neg (by simp [h])]

theorem zero_advanceLength (h : q.zero = true) (c : UInt8) :
    (q.advanceLength env c).zero = true := by
  unfold advanceLength
  split
  · exact h
  · simp [convert, h]

theorem zero_advanceWidth (h : q.zero = true) (c : UInt8) :
    (q.advanceWidth env c).zero = true := by
  unfold advanceWidth advancePrecision
  dsimp only
  split_ifs
  · exact h
  · exact h
  · exact h
  · exact h
  · apply zero_advanceLength
    exact h

theorem zero_advance (h : q.zero = true) (c : UInt8) : (q.advance env c).zero = true := by
  unfold advance
  split
  · split <;> exact h
  · split
    · exact h
    · apply zero_advanceWidth
      exact h
  · exact zero_advanceWidth h c
  · split
    · exact h
    · exact zero_advanceWidth h c
  · split_ifs
    · exact h
    · apply zero_advanceLength
      exact h
    · exact zero_advanceLength h c
  · split
    · exact h
    · exact zero_advanceLength h c
  · exact zero_advanceLength h c

theorem zero_scan (h : q.zero = true) (fmt : List UInt8) : (q.scan env fmt).zero = true := by
  induction fmt generalizing q with
  | nil => exact h
  | cons c fmt ih => exact ih (zero_advance h c)

theorem prefix_advanceLength (q : Scan) (c : UInt8) : q.text <+: (q.advanceLength env c).text := by
  unfold advanceLength
  split
  · exact List.prefix_refl _
  · exact List.prefix_append _ _

theorem prefix_advanceWidth (q : Scan) (c : UInt8) : q.text <+: (q.advanceWidth env c).text := by
  unfold advanceWidth advancePrecision
  dsimp only
  split_ifs
  · exact List.prefix_refl _
  · exact List.prefix_refl _
  · exact List.prefix_refl _
  · exact List.prefix_refl _
  · exact prefix_advanceLength { q with lflags := 0 } c

/-- The text only grows. -/
theorem prefix_advance (q : Scan) (c : UInt8) : q.text <+: (q.advance env c).text := by
  unfold advance
  split
  · split
    · exact List.prefix_refl _
    · exact List.prefix_append _ _
  · split
    · exact List.prefix_refl _
    · exact prefix_advanceWidth { q with width := 0 } c
  · exact prefix_advanceWidth q c
  · split
    · exact List.prefix_refl _
    · exact prefix_advanceWidth q c
  · split_ifs
    · exact List.prefix_refl _
    · exact prefix_advanceLength (q.fetch .precision) c
    · exact prefix_advanceLength q c
  · split
    · exact List.prefix_refl _
    · exact prefix_advanceLength q c
  · exact prefix_advanceLength q c

theorem prefix_scan (q : Scan) (fmt : List UInt8) : q.text <+: (q.scan env fmt).text := by
  induction fmt generalizing q with
  | nil => exact List.prefix_refl _
  | cons c fmt ih => exact (prefix_advance q c).trans (ih (q.advance env c))

/-- The scanner that stops has a part of the text. -/
theorem prefix_scanUntil (q : Scan) (fmt : List UInt8) :
    (q.scanUntil env fmt).text <+: (q.scan env fmt).text := by
  induction fmt generalizing q with
  | nil => exact List.prefix_refl _
  | cons c fmt ih =>
      cases hZero : q.zero with
      | true =>
          rw [scanUntil_of_zero hZero]
          exact prefix_scan q (c :: fmt)
      | false =>
          rw [scanUntil_cons hZero]
          exact ih (q.advance env c)

/-- Up to a character 0 there is no difference. -/
theorem scanUntil_eq {fmt : List UInt8} (h : (q.scan env fmt).zero = false) :
    q.scanUntil env fmt = q.scan env fmt := by
  induction fmt generalizing q with
  | nil => rfl
  | cons c fmt ih =>
      have hZero : q.zero = false := by
        by_contra hNot
        rw [zero_scan (by simpa using hNot)] at h
        cases h
      rw [scanUntil_cons hZero]
      exact ih h

theorem zero_scanUntil (fmt : List UInt8) :
    (q.scanUntil env fmt).zero = (q.scan env fmt).zero := by
  induction fmt generalizing q with
  | nil => rfl
  | cons c fmt ih =>
      cases hZero : q.zero with
      | true => rw [scanUntil_of_zero hZero, zero_scan hZero, hZero]
      | false =>
          rw [scanUntil_cons hZero]
          exact ih

/-- The digits of a width are read to their end. -/
theorem scanUntil_number (hPhase : q.phase = .number) (hZero : q.zero = false) (r : List UInt8) :
    q.scanUntil env r =
      { q with width := (r.takeWhile isDigit).foldl atoiStep q.width }.scanUntil env
        (r.dropWhile isDigit) := by
  induction r generalizing q with
  | nil => rfl
  | cons c r ih =>
      cases hDigit : isDigit c with
      | true =>
          have hNext : q.advance env c = { q with width := atoiStep q.width c } := by
            simp [advance, hPhase, hDigit]
          rw [scanUntil_cons hZero, hNext, List.takeWhile_cons_of_pos hDigit,
            List.dropWhile_cons_of_pos hDigit]
          exact ih (q := { q with width := atoiStep q.width c }) hPhase hZero
      | false =>
          rw [List.takeWhile_cons_of_neg (by simp [hDigit]),
            List.dropWhile_cons_of_neg (by simp [hDigit])]
          rfl

/-- The digits of a precision are skipped. -/
theorem scanUntil_precision (hPhase : q.phase = .precision) (hZero : q.zero = false)
    (r : List UInt8) : q.scanUntil env r = q.scanUntil env (r.dropWhile isDigit) := by
  induction r with
  | nil => rfl
  | cons c r ih =>
      cases hDigit : isDigit c with
      | true =>
          have hNext : q.advance env c = q := by simp [advance, hPhase, hDigit]
          rw [scanUntil_cons hZero, hNext, List.dropWhile_cons_of_pos hDigit, ih]
      | false => rw [List.dropWhile_cons_of_neg (by simp [hDigit])]

theorem scanUntil_dot (hPhase : q.phase = .dot) (hZero : q.zero = false) {d : UInt8}
    (hDigit : isDigit d = true) (r : List UInt8) :
    q.scanUntil env (d :: r) =
      { q with phase := .precision }.scanUntil env ((d :: r).dropWhile isDigit) := by
  have hNext : q.advance env d = { q with phase := .precision } := by
    simp [advance, hPhase, hDigit]
  rw [scanUntil_cons hZero, hNext, List.dropWhile_cons_of_pos hDigit]
  exact scanUntil_precision (q := { q with phase := .precision }) rfl hZero r

end Scan

end DoraOS
