import DoraOS.Format.Numeral
import Mathlib.Data.List.TakeWhile

/-! Formats that are made of text and directives: the arguments that the calling
convention lays out for them, one word each and two words for an integer of `ll`,
and the arguments that the formatter fetches. -/
namespace DoraOS

inductive DirectiveFlag where
  | alternate
  | zeropad
  | left
  | space
  | plus
  | quote
  | I
  deriving DecidableEq

def DirectiveFlag.char : DirectiveFlag → UInt8
  | alternate => '#'.toUInt8
  | zeropad => '0'.toUInt8
  | left => '-'.toUInt8
  | space => ' '.toUInt8
  | plus => '+'.toUInt8
  | quote => 39
  | I => 'I'.toUInt8

structure DigitString where
  chars : List UInt8
  digits : ∀ c ∈ chars, isDigit c = true

/-- A width. A number starts with a digit other than 0. -/
inductive DirectiveWidth where
  | none
  | number (first : UInt8) (isFirst : isDigit first = true ∧ '0'.toUInt8 < first)
    (rest : DigitString)
  | star

inductive DirectivePrecision where
  | none
  | number (digits : DigitString)
  | star

inductive DirectiveLength where
  | none
  | h
  | hh
  | l
  | ll
  deriving DecidableEq

inductive DirectiveConv where
  | integer (conv : NumeralConv)
  | c
  | s
  | p
  deriving DecidableEq

structure Directive where
  flags : List DirectiveFlag
  width : DirectiveWidth
  precision : DirectivePrecision
  length : DirectiveLength
  conv : DirectiveConv

def DirectiveWidth.text : DirectiveWidth → List UInt8
  | none => []
  | number first _ rest => first :: rest.chars
  | star => ['*'.toUInt8]

def DirectivePrecision.text : DirectivePrecision → List UInt8
  | none => []
  | number digits => '.'.toUInt8 :: digits.chars
  | star => ['.'.toUInt8, '*'.toUInt8]

def DirectiveLength.text : DirectiveLength → List UInt8
  | none => []
  | h => ['h'.toUInt8]
  | hh => ['h'.toUInt8, 'h'.toUInt8]
  | l => ['l'.toUInt8]
  | ll => ['l'.toUInt8, 'l'.toUInt8]

def DirectiveConv.char : DirectiveConv → UInt8
  | integer conv => conv.char
  | c => 'c'.toUInt8
  | s => 's'.toUInt8
  | p => 'p'.toUInt8

def Directive.tail (d : Directive) : List UInt8 := d.length.text ++ [d.conv.char]

def Directive.text (d : Directive) : List UInt8 :=
  '%'.toUInt8 :: (d.flags.map DirectiveFlag.char ++ d.width.text ++ d.precision.text ++ d.tail)

theorem DirectiveLength.text_letters (length : DirectiveLength) :
    ∀ c ∈ length.text, c ≠ 0 ∧ c ≠ '%'.toUInt8 := by
  have hAll : length.text.all (fun c => decide (c ≠ 0 ∧ c ≠ '%'.toUInt8)) = true := by
    cases length <;> rfl
  exact fun c hc => of_decide_eq_true (List.all_eq_true.mp hAll c hc)

theorem DirectiveConv.char_letter (conv : DirectiveConv) :
    conv.char ≠ 0 ∧ conv.char ≠ '%'.toUInt8 := by
  cases conv with
  | integer conv => cases conv <;> decide
  | _ => decide

theorem Directive.tail_letters (d : Directive) : ∀ c ∈ d.tail, c ≠ 0 ∧ c ≠ '%'.toUInt8 := by
  intro c hc
  rcases List.mem_append.mp hc with hc | hc
  · exact d.length.text_letters c hc
  · rw [List.mem_singleton.mp hc]
    exact d.conv.char_letter

section Convention

/-- The arguments of a width and a precision of `*`. -/
def DirectiveWidth.fetches (ap : Nat) : DirectiveWidth → List Fetch
  | star => [⟨.width, ap, 1⟩]
  | _ => []

def DirectivePrecision.fetches (ap : Nat) : DirectivePrecision → List Fetch
  | star => [⟨.precision, ap, 1⟩]
  | _ => []

namespace Directive

variable (d : Directive)

def words : Nat :=
  match d.conv, d.length with
  | .integer _, .ll => 2
  | _, _ => 1

/-- The place of the argument that is converted, if the arguments of the
directive start at `ap`. -/
def place (ap : Nat) : Nat :=
  ap + (d.width.fetches ap).length + (d.precision.fetches ap).length

/-- The arguments of a directive by the calling convention. -/
def fetches (ap : Nat) : List Fetch :=
  d.width.fetches ap ++ d.precision.fetches (ap + (d.width.fetches ap).length) ++
    [⟨.conv d.conv.char, d.place ap, d.words⟩]

end Directive

/-- A format is made of characters and directives. -/
inductive FormatPiece where
  | text (c : UInt8) (isText : c ≠ 0 ∧ c ≠ '%'.toUInt8)
  | directive (d : Directive)

namespace FormatPiece

def chars : FormatPiece → List UInt8
  | text c _ => [c]
  | directive d => d.text

def fetches (ap : Nat) : FormatPiece → List Fetch
  | text _ _ => []
  | directive d => d.fetches ap

end FormatPiece

def formatOf (ps : List FormatPiece) : List UInt8 := ps.flatMap FormatPiece.chars

/-- The arguments of a format by the calling convention. -/
def layout (ap : Nat) : List FormatPiece → List Fetch
  | [] => []
  | p :: ps => p.fetches ap ++ layout (ap + fetchedWords (p.fetches ap)) ps

end Convention

section Code

namespace Directive

variable (env : FormatEnv) (d : Directive)

def lflags : Nat :=
  match d.length with
  | .none => 0
  | .h => lChar
  | .hh => lShort
  | .l => lLong
  | .ll => lLlong

/-- What the formatter fetches for a directive. The `*` of a precision is the
conversion. -/
def fetchedBy (ap : Nat) : List Fetch :=
  d.width.fetches ap ++
    match d.precision with
    | .star => [⟨.precision, ap + (d.width.fetches ap).length, 1⟩]
    | _ => convFetches d.lflags (ap + (d.width.fetches ap).length) d.conv.char

def stops (ap : Nat) : Bool :=
  match d.precision with
  | .star => false
  | _ => convZero env (ap + (d.width.fetches ap).length) d.conv.char

variable {d} (ap : Nat)

theorem fetchedBy_of_star (h : d.precision = .star) :
    d.fetchedBy ap =
      d.width.fetches ap ++ [⟨.precision, ap + (d.width.fetches ap).length, 1⟩] := by
  rw [fetchedBy, h]

theorem fetchedBy_of_conv (h : d.precision ≠ .star) :
    d.fetchedBy ap = d.width.fetches ap ++
      convFetches d.lflags (ap + (d.width.fetches ap).length) d.conv.char := by
  cases hPrecision : d.precision with
  | star => exact absurd hPrecision h
  | _ => rw [fetchedBy, hPrecision]

theorem stops_of_conv (h : d.precision ≠ .star) :
    d.stops env ap = convZero env (ap + (d.width.fetches ap).length) d.conv.char := by
  cases hPrecision : d.precision with
  | star => exact absurd hPrecision h
  | _ => rw [stops, hPrecision]

theorem place_of_conv (h : d.precision ≠ .star) :
    d.place ap = ap + (d.width.fetches ap).length := by
  cases hPrecision : d.precision with
  | star => exact absurd hPrecision h
  | _ => rw [place, hPrecision]; rfl

theorem fetches_of_conv (h : d.precision ≠ .star) :
    d.fetches ap = d.width.fetches ap ++
      [⟨.conv d.conv.char, ap + (d.width.fetches ap).length, d.words⟩] := by
  rw [fetches, place_of_conv ap h]
  cases hPrecision : d.precision with
  | star => exact absurd hPrecision h
  | _ => simp only [DirectivePrecision.fetches, List.append_nil]

end Directive

def fetchedBy (env : FormatEnv) (ap : Nat) : List FormatPiece → List Fetch
  | [] => []
  | .text _ _ :: ps => fetchedBy env ap ps
  | .directive d :: ps =>
      d.fetchedBy ap ++
        if d.stops env ap then [] else fetchedBy env (ap + fetchedWords (d.fetchedBy ap)) ps

end Code

namespace Scan

variable (env : FormatEnv) {q : Scan} {ap : Nat} {fetched : List Fetch}

structure Has (q : Scan) (ap : Nat) (fetched : List Fetch) : Prop where
  ap : q.ap = ap
  fetched : q.fetched = fetched
  zero : q.zero = false

theorem has_flags (h : q.Has ap fetched) (hPhase : q.phase = .flags) (flags : List DirectiveFlag) :
    (q.scanUntil env (flags.map DirectiveFlag.char)).Has ap fetched ∧
      (q.scanUntil env (flags.map DirectiveFlag.char)).phase = .flags := by
  induction flags generalizing q with
  | nil => exact ⟨h, hPhase⟩
  | cons flag flags ih =>
      have hSet : ∃ g, setFlag q.flags flag.char = some g := by
        cases flag <;> exact ⟨_, rfl⟩
      obtain ⟨g, hSet⟩ := hSet
      have hNext : q.advance env flag.char = { q with flags := g } := by
        simp only [advance, hPhase, hSet]
      rw [List.map_cons, scanUntil_cons h.zero, hNext]
      exact ih (q := { q with flags := g }) ⟨h.ap, h.fetched, h.zero⟩ hPhase

def BeforePrecision (q : Scan) : Prop := q.phase = .flags ∨ q.phase = .width ∨ q.phase = .number

theorem has_star (h : q.Has ap fetched) :
    (q.advanceWidth env '*'.toUInt8).Has (ap + 1) (fetched ++ [⟨.width, ap, 1⟩]) ∧
      (q.advanceWidth env '*'.toUInt8).phase = .width := by
  have hFetched : q.fetched ++ [⟨.width, q.ap, 1⟩] = fetched ++ [⟨.width, ap, 1⟩] := by
    rw [h.ap, h.fetched]
  have hAp : q.ap + 1 = ap + 1 := by rw [h.ap]
  rw [advanceWidth, if_pos rfl]
  dsimp only
  split
  · exact ⟨⟨hAp, hFetched, h.zero⟩, rfl⟩
  · exact ⟨⟨hAp, hFetched, h.zero⟩, rfl⟩

theorem has_width (h : q.Has ap fetched) (hPhase : q.phase = .flags) (width : DirectiveWidth) :
    (q.scanUntil env width.text).Has (ap + (width.fetches ap).length)
        (fetched ++ width.fetches ap) ∧
      (q.scanUntil env width.text).BeforePrecision := by
  cases width with
  | none =>
      refine ⟨⟨h.ap, ?_, h.zero⟩, .inl hPhase⟩
      exact h.fetched.trans (List.append_nil _).symm
  | number first isFirst rest =>
      have hNe (k : UInt8) (hk : ¬ (isDigit k = true ∧ '0'.toUInt8 < k)) : first ≠ k :=
        fun hEq => hk (hEq ▸ isFirst)
      have hSet : setFlag q.flags first = none := by
        rw [setFlag, if_neg (hNe _ (by decide)), if_neg (hNe _ (by decide)),
          if_neg (hNe _ (by decide)), if_neg (hNe _ (by decide)), if_neg (hNe _ (by decide)),
          if_neg (by rw [not_or]; exact ⟨hNe _ (by decide), hNe _ (by decide)⟩)]
      have hStar : first ≠ '*'.toUInt8 := hNe _ (by decide)
      have hNext : q.advance env first =
          { q with phase := .number, width := atoiStep 0 first } := by
        simp only [advance, hPhase, hSet, advanceWidth, if_neg hStar, if_pos isFirst]
      have hRest : rest.chars.dropWhile isDigit = [] := List.dropWhile_eq_nil_iff.mpr rest.digits
      rw [DirectiveWidth.text, scanUntil_cons h.zero, hNext,
        scanUntil_number (q := { q with phase := .number, width := atoiStep 0 first }) rfl h.zero,
        hRest]
      refine ⟨⟨h.ap, ?_, h.zero⟩, .inr (.inr rfl)⟩
      exact h.fetched.trans (List.append_nil _).symm
  | star =>
      have hNext : q.advance env '*'.toUInt8 =
          { q with width := 0 }.advanceWidth env '*'.toUInt8 := by
        simp only [advance, hPhase]
        rfl
      rw [DirectiveWidth.text, scanUntil_cons h.zero, hNext]
      obtain ⟨hHas, hWidth⟩ := has_star env (q := { q with width := 0 })
        ⟨h.ap, h.fetched, h.zero⟩
      exact ⟨hHas, .inr (.inl hWidth)⟩

/-- A character that is neither a flag nor part of a width. -/
structure PastWidth (c : UInt8) : Prop where
  digit : isDigit c = false
  star : c ≠ '*'.toUInt8
  flag : ∀ flags, setFlag flags c = none

theorem advance_precision (hBefore : q.BeforePrecision) (h : q.Has ap fetched) {c : UInt8}
    (hc : PastWidth c) :
    ∃ q₁ : Scan, q₁.Has ap fetched ∧ q.advance env c = q₁.advancePrecision env c := by
  have hWidth (q : Scan) : q.advanceWidth env c = q.advancePrecision env c := by
    rw [advanceWidth, if_neg hc.star, if_neg (by simp [hc.digit])]
  rcases hBefore with hPhase | hPhase | hPhase
  · refine ⟨{ q with width := 0 }, ⟨h.ap, h.fetched, h.zero⟩, ?_⟩
    simp only [advance, hPhase, hc.flag]
    rw [← hWidth]
  · refine ⟨q, h, ?_⟩
    simp only [advance, hPhase, hWidth]
  · refine ⟨q, h, ?_⟩
    simp only [advance, hPhase, hc.digit, Bool.false_eq_true, if_false, hWidth]

/-- A precision that is not `*` is skipped. -/
theorem has_precision (hBefore : q.BeforePrecision) (h : q.Has ap fetched)
    {precision : DirectivePrecision} (hPrecision : precision ≠ .star) {c : UInt8}
    (hc : PastWidth c) (hDot : c ≠ '.'.toUInt8) (fmt : List UInt8) :
    ∃ q₁ : Scan, q₁.Has ap fetched ∧
      q.scanUntil env (precision.text ++ c :: fmt) =
        { q₁ with phase := .length, lflags := 0 }.scanUntil env (c :: fmt) := by
  have hPoint : PastWidth '.'.toUInt8 := ⟨rfl, by decide, fun _ => rfl⟩
  cases precision with
  | none =>
      obtain ⟨q₁, hHas, hNext⟩ := advance_precision env hBefore h hc
      refine ⟨q₁, hHas, ?_⟩
      rw [DirectivePrecision.text, List.nil_append, scanUntil_cons h.zero, hNext,
        scanUntil_cons (q := { q₁ with phase := .length, lflags := 0 }) hHas.zero,
        advancePrecision, if_neg hDot]
      rfl
  | number digits =>
      obtain ⟨q₁, hHas, hNext⟩ := advance_precision env hBefore h hPoint
      refine ⟨q₁, hHas, ?_⟩
      rw [DirectivePrecision.text, List.cons_append, scanUntil_cons h.zero, hNext,
        advancePrecision, if_pos rfl]
      obtain ⟨chars, hDigits⟩ := digits
      cases chars with
      | nil =>
          rw [List.nil_append,
            scanUntil_cons (q := { q₁ with phase := .dot, lflags := 0 }) hHas.zero,
            scanUntil_cons (q := { q₁ with phase := .length, lflags := 0 }) hHas.zero]
          simp only [advance, hc.digit, Bool.false_eq_true, if_false, if_neg hc.star]
          rfl
      | cons d ds =>
          have hDrop : (d :: ds ++ c :: fmt).dropWhile isDigit = c :: fmt := by
            rw [List.dropWhile_append_of_pos hDigits,
              List.dropWhile_cons_of_neg (by simp [hc.digit])]
          rw [List.cons_append] at hDrop ⊢
          rw [scanUntil_dot (q := { q₁ with phase := .dot, lflags := 0 }) rfl hHas.zero
              (hDigits d (List.mem_cons_self ..)), hDrop,
            scanUntil_cons (q := { q₁ with phase := .precision, lflags := 0 }) hHas.zero,
            scanUntil_cons (q := { q₁ with phase := .length, lflags := 0 }) hHas.zero]
          simp only [advance, hc.digit, Bool.false_eq_true, if_false]
          rfl
  | star => exact absurd rfl hPrecision

theorem scan_length (hZero : q.zero = false) {n n' : Nat} {c : UInt8}
    (hSet : setLength n c = some n') (fmt : List UInt8) :
    { q with phase := .length, lflags := n }.scanUntil env (c :: fmt) =
      { q with phase := .length, lflags := n' }.scanUntil env fmt := by
  rw [scanUntil_cons (q := { q with phase := .length, lflags := n }) hZero]
  simp only [advance, advanceLength, hSet]

/-- The length and the conversion. -/
theorem scan_tail (hZero : q.zero = false) (d : Directive) :
    { q with phase := .length, lflags := 0 }.scanUntil env d.tail =
      { q with lflags := d.lflags }.convert env d.conv.char := by
  have hConv (n : Nat) : { q with phase := .length, lflags := n }.scanUntil env [d.conv.char] =
      { q with lflags := n }.convert env d.conv.char := by
    have hSet : setLength n d.conv.char = none := by
      cases d.conv with
      | integer conv => cases conv <;> rfl
      | _ => rfl
    rw [scanUntil_cons (q := { q with phase := .length, lflags := n }) hZero]
    simp only [advance, advanceLength, hSet]
    rfl
  rw [Directive.tail, ← hConv, Directive.lflags]
  cases d.length with
  | none => rfl
  | h => exact scan_length env hZero rfl _
  | hh => exact (scan_length env hZero rfl _).trans (scan_length env hZero rfl _)
  | l => exact scan_length env hZero rfl _
  | ll => exact (scan_length env hZero rfl _).trans (scan_length env hZero rfl _)

/-- Behind a precision of `*` the conversion is printed as text. -/
theorem has_text (h : q.Has ap fetched) (hPhase : q.phase = .text) {fmt : List UInt8}
    (hFmt : '%'.toUInt8 ∉ fmt) :
    (q.scanUntil env fmt).Has ap fetched ∧ (q.scanUntil env fmt).phase = .text := by
  induction fmt generalizing q with
  | nil => exact ⟨h, hPhase⟩
  | cons c fmt ih =>
      rw [List.mem_cons, not_or] at hFmt
      have hNext : q.advance env c = { q with text := q.text ++ [c] } := by
        simp only [advance, hPhase, if_neg (Ne.symm hFmt.1)]
      rw [scanUntil_cons h.zero, hNext]
      exact ih (q := { q with text := q.text ++ [c] }) ⟨h.ap, h.fetched, h.zero⟩ hPhase hFmt.2

theorem fetchedWords_append (fetches fetches' : List Fetch) :
    fetchedWords (fetches ++ fetches') = fetchedWords fetches + fetchedWords fetches' := by
  rw [fetchedWords, List.map_append, List.sum_append]
  rfl

theorem fetchedWords_width (ap : Nat) (width : DirectiveWidth) :
    fetchedWords (width.fetches ap) = (width.fetches ap).length := by
  cases width <;> rfl

/-- What is behind a precision is no part of it. -/
theorem tail_eq (d : Directive) :
    ∃ c fmt, d.tail = c :: fmt ∧ PastWidth c ∧ c ≠ '.'.toUInt8 := by
  obtain ⟨_, _, _, length, conv⟩ := d
  cases length with
  | none =>
      refine ⟨conv.char, [], rfl, ?_⟩
      cases conv with
      | integer conv => cases conv <;> exact ⟨⟨rfl, by decide, fun _ => rfl⟩, by decide⟩
      | _ => exact ⟨⟨rfl, by decide, fun _ => rfl⟩, by decide⟩
  | _ => exact ⟨_, _, rfl, ⟨rfl, by decide, fun _ => rfl⟩, by decide⟩

/-- A directive that ends with a conversion. -/
theorem scan_conv (hBefore : q.BeforePrecision) (h : q.Has ap fetched) {d : Directive}
    (hPrecision : d.precision ≠ .star) :
    ∃ q₁ : Scan, q₁.Has ap fetched ∧ q.scanUntil env (d.precision.text ++ d.tail) =
      { q₁ with lflags := d.lflags }.convert env d.conv.char := by
  obtain ⟨c, fmt, hTail, hPast, hDot⟩ := tail_eq d
  obtain ⟨q₁, hHas, hScan⟩ := has_precision env hBefore h hPrecision hPast hDot fmt
  exact ⟨q₁, hHas, by rw [hTail, hScan, ← hTail, scan_tail env hHas.zero]⟩

/-- With a precision of `*` there is no conversion. -/
theorem scan_star (hBefore : q.BeforePrecision) (h : q.Has ap fetched) {d : Directive}
    (hPrecision : d.precision = .star) :
    (q.scanUntil env (d.precision.text ++ d.tail)).Has (ap + 1)
        (fetched ++ [⟨.precision, ap, 1⟩]) ∧
      (q.scanUntil env (d.precision.text ++ d.tail)).phase = .text := by
  obtain ⟨q₁, hHas, hNext⟩ := advance_precision env hBefore h
    (c := '.'.toUInt8) ⟨rfl, by decide, fun _ => rfl⟩
  have hDot : q.advance env '.'.toUInt8 = { q₁ with phase := .dot, lflags := 0 } := hNext
  have hStar : { q₁ with phase := .dot, lflags := 0 }.advance env '*'.toUInt8 =
      ({ q₁ with phase := .dot, lflags := 0 }.fetch .precision).convert env '*'.toUInt8 := rfl
  rw [hPrecision, DirectivePrecision.text, List.cons_append, List.cons_append, List.nil_append,
    scanUntil_cons h.zero, hDot,
    scanUntil_cons (q := { q₁ with phase := .dot, lflags := 0 }) hHas.zero, hStar]
  refine has_text env ⟨?_, ?_, ?_⟩ rfl fun hMem => (d.tail_letters _ hMem).2 rfl
  · show q₁.ap + 1 + 0 = ap + 1
    rw [hHas.ap]
  · show q₁.fetched ++ [⟨.precision, q₁.ap, 1⟩] ++ [] = _
    rw [hHas.ap, hHas.fetched, List.append_nil]
  · show (q₁.zero || false) = false
    rw [hHas.zero]
    rfl

/-- What the scanner finds in a directive. -/
theorem scan_directive (h : q.Has ap fetched) (hPhase : q.phase = .text) (d : Directive) :
    (q.scanUntil env d.text).phase = .text ∧
      (q.scanUntil env d.text).ap = ap + fetchedWords (d.fetchedBy ap) ∧
      (q.scanUntil env d.text).fetched = fetched ++ d.fetchedBy ap ∧
      (q.scanUntil env d.text).zero = d.stops env ap := by
  have hStart : q.advance env '%'.toUInt8 = { q with phase := .flags, flags := {} } := by
    simp only [advance, hPhase, if_true]
  obtain ⟨hFlags, hFlagsPhase⟩ := has_flags env
    (q := { q with phase := .flags, flags := {} }) ⟨h.ap, h.fetched, h.zero⟩ rfl d.flags
  obtain ⟨hWidth, hBefore⟩ := has_width env hFlags hFlagsPhase d.width
  rw [Directive.text, scanUntil_cons h.zero, hStart, List.append_assoc, List.append_assoc,
    scanUntil_append, scanUntil_append]
  by_cases hPrecision : d.precision = .star
  · obtain ⟨hHas, hText⟩ := scan_star env hBefore hWidth hPrecision
    have hFetched := Directive.fetchedBy_of_star ap hPrecision
    refine ⟨hText, ?_, ?_, ?_⟩
    · rw [hHas.ap, hFetched, fetchedWords_append, fetchedWords_width]
      rfl
    · rw [hHas.fetched, hFetched, List.append_assoc]
    · rw [hHas.zero, Directive.stops, hPrecision]
  · obtain ⟨q₁, hHas, hScan⟩ := scan_conv env hBefore hWidth hPrecision
    have hFetched := Directive.fetchedBy_of_conv ap hPrecision
    have hStops := Directive.stops_of_conv env ap hPrecision
    rw [hScan]
    refine ⟨rfl, ?_, ?_, ?_⟩
    · show q₁.ap + fetchedWords (convFetches d.lflags q₁.ap d.conv.char) = _
      rw [hHas.ap, hFetched, fetchedWords_append, fetchedWords_width, Nat.add_assoc]
    · show q₁.fetched ++ convFetches d.lflags q₁.ap d.conv.char = _
      rw [hHas.ap, hHas.fetched, hFetched, List.append_assoc]
    · show (q₁.zero || convZero env q₁.ap d.conv.char) = _
      rw [hHas.ap, hHas.zero, Bool.false_or, hStops]

/-- What the scanner finds in a format. -/
theorem scan_format (h : q.Has ap fetched) (hPhase : q.phase = .text) (ps : List FormatPiece) :
    (q.scanUntil env (formatOf ps)).fetched = fetched ++ fetchedBy env ap ps := by
  induction ps generalizing q ap fetched with
  | nil => exact h.fetched.trans (List.append_nil _).symm
  | cons p ps ih =>
      have hSplit : formatOf (p :: ps) = p.chars ++ formatOf ps := List.flatMap_cons
      rw [hSplit, scanUntil_append]
      cases p with
      | text c isText =>
          have hText : '%'.toUInt8 ∉ [c] := fun hMem => isText.2 (List.mem_singleton.mp hMem).symm
          obtain ⟨hHas, hNext⟩ := has_text env h hPhase hText
          exact ih hHas hNext
      | directive d =>
          obtain ⟨hNext, hAp, hFetched, hZero⟩ := scan_directive env h hPhase d
          cases hStops : d.stops env ap with
          | true =>
              rw [hStops] at hZero
              rw [FormatPiece.chars, scanUntil_of_zero hZero, hFetched, fetchedBy, if_pos hStops,
                List.append_nil]
          | false =>
              rw [hStops] at hZero
              rw [FormatPiece.chars, ih ⟨hAp, hFetched, hZero⟩ hNext, fetchedBy,
                if_neg (by simp [hStops]), List.append_assoc]

end Scan

theorem ne_zero_of_isDigit {c : UInt8} (h : isDigit c = true) : c ≠ 0 := by
  rintro rfl
  cases h

theorem Directive.zero_not_mem_text (d : Directive) : 0 ∉ d.text := by
  intro hMem
  simp only [Directive.text, List.mem_cons, List.mem_append, List.mem_map] at hMem
  rcases hMem with hMem | ((⟨flag, -, hMem⟩ | hMem) | hMem) | hMem
  · cases hMem
  · cases flag <;> cases hMem
  · cases hWidth : d.width with
    | none => simp [hWidth, DirectiveWidth.text] at hMem
    | number first isFirst rest =>
        rw [hWidth, DirectiveWidth.text, List.mem_cons] at hMem
        rcases hMem with hMem | hMem
        · exact ne_zero_of_isDigit isFirst.1 hMem.symm
        · exact ne_zero_of_isDigit (rest.digits 0 hMem) rfl
    | star =>
        rw [hWidth] at hMem
        exact absurd hMem (by decide)
  · cases hPrecision : d.precision with
    | none => simp [hPrecision, DirectivePrecision.text] at hMem
    | number digits =>
        rw [hPrecision, DirectivePrecision.text, List.mem_cons] at hMem
        rcases hMem with hMem | hMem
        · cases hMem
        · exact ne_zero_of_isDigit (digits.digits 0 hMem) rfl
    | star =>
        rw [hPrecision] at hMem
        exact absurd hMem (by decide)
  · exact (d.tail_letters 0 hMem).1 rfl

theorem zero_not_mem_formatOf (ps : List FormatPiece) : 0 ∉ formatOf ps := by
  intro hMem
  obtain ⟨p, -, hMem⟩ := List.mem_flatMap.mp hMem
  cases p with
  | text c isText => exact isText.1 (List.mem_singleton.mp hMem).symm
  | directive d => exact d.zero_not_mem_text hMem

end DoraOS
