import DoraOS.Format.Directive

/-! The arguments that `dos_format_nstr` fetches, against the calling convention. -/
namespace DoraOS

section Compare

/-- The formatter knows what to do with the directive: the precision is not `*`, and
the length of an integer is not a single `h`, which sets the bit of `ll` and `L`. -/
structure Directive.Regular (d : Directive) : Prop where
  precision : d.precision ≠ .star
  length : ∀ conv, d.conv = .integer conv → d.length ≠ .h

def Directive.PrintsZero (env : FormatEnv) (d : Directive) (ap : Nat) : Prop :=
  d.conv = .c ∧ env.charArg (d.place ap) = 0

/-- Behind a character 0 of `%c` there is no further directive. -/
def ZeroLast (env : FormatEnv) (ap : Nat) : List FormatPiece → Prop
  | [] => True
  | .text _ _ :: ps => ZeroLast env ap ps
  | .directive d :: ps =>
      (d.PrintsZero env ap → ∀ d', .directive d' ∉ ps) ∧
        ZeroLast env (ap + fetchedWords (d.fetches ap)) ps

variable {env : FormatEnv} {ap : Nat} {d : Directive}

/-- The argument that the formatter converts. -/
theorem Directive.convFetches_char (d : Directive) (ap : Nat) :
    ∃ words, convFetches d.lflags ap d.conv.char = [⟨.conv d.conv.char, ap, words⟩] ∧
      (words = d.words ↔ ∀ conv, d.conv = .integer conv → d.length ≠ .h) := by
  cases hConv : d.conv with
  | integer conv =>
      refine ⟨integerWords d.lflags, if_pos conv.isInteger_char, ?_⟩
      cases hLength : d.length <;>
        simp [Directive.words, Directive.lflags, hConv, hLength, integerWords, lChar, lShort,
          lLong, lLlong, lDouble]
  | _ => exact ⟨1, rfl, by simp [Directive.words, hConv]⟩

theorem Directive.stops_iff (h : d.precision ≠ .star) :
    d.stops env ap = true ↔ d.PrintsZero env ap := by
  have hChar : d.conv.char = 'c'.toUInt8 ↔ d.conv = .c := by
    cases d.conv with
    | integer conv => cases conv <;> decide
    | _ => decide
  rw [Directive.stops_of_conv env ap h, convZero, Directive.PrintsZero,
    Directive.place_of_conv ap h, Bool.and_eq_true, decide_eq_true_iff, decide_eq_true_iff, hChar]

/-- One argument less for a precision of `*`. -/
theorem Directive.length_fetchedBy (d : Directive) (ap ap' : Nat) :
    (d.fetchedBy ap).length + (d.precision.fetches ap').length = (d.fetches ap').length := by
  have hWidth : (d.width.fetches ap).length = (d.width.fetches ap').length := by
    cases d.width <;> rfl
  have hPrecision : (d.precision.fetches (ap' + (d.width.fetches ap').length)).length =
      (d.precision.fetches ap').length := by
    cases d.precision <;> rfl
  have hOne : (d.fetchedBy ap).length = (d.width.fetches ap).length + 1 := by
    by_cases hStar : d.precision = .star
    · rw [Directive.fetchedBy_of_star ap hStar, List.length_append]
      rfl
    · obtain ⟨words, hConv, -⟩ := d.convFetches_char (ap + (d.width.fetches ap).length)
      rw [Directive.fetchedBy_of_conv ap hStar, hConv, List.length_append]
      rfl
  rw [hOne, hWidth, Directive.fetches, List.length_append, List.length_append,
    List.length_singleton, hPrecision]
  omega

theorem length_fetchedBy (env : FormatEnv) (ap ap' : Nat) (ps : List FormatPiece) :
    (fetchedBy env ap ps).length ≤ (layout ap' ps).length := by
  induction ps generalizing ap ap' with
  | nil => exact Nat.le_refl 0
  | cons p ps ih =>
      cases p with
      | text c isText => exact ih ap _
      | directive d =>
          have hHead := Nat.le_of_add_right_le (d.length_fetchedBy ap ap').le
          rw [fetchedBy, layout, List.length_append, List.length_append, FormatPiece.fetches]
          split
          · exact Nat.add_le_add hHead (Nat.zero_le _)
          · exact Nat.add_le_add hHead (ih _ _)

theorem layout_eq_nil {ps : List FormatPiece} :
    layout ap ps = [] ↔ ∀ d, .directive d ∉ ps := by
  induction ps generalizing ap with
  | nil => simp [layout]
  | cons p ps ih =>
      rw [layout, List.append_eq_nil_iff, ih]
      cases p with
      | text c isText => simp [FormatPiece.fetches]
      | directive d =>
          constructor
          · rintro ⟨hNil, -⟩
            simp [FormatPiece.fetches, Directive.fetches] at hNil
          · exact fun hNone => absurd (List.mem_cons_self ..) (hNone d)

theorem zeroLast_of_text {ps : List FormatPiece} (h : ∀ d, .directive d ∉ ps) :
    ZeroLast env ap ps := by
  induction ps generalizing ap with
  | nil => trivial
  | cons p ps ih =>
      cases p with
      | text c isText => exact ih fun d hd => h d (List.mem_cons_of_mem _ hd)
      | directive d => exact absurd (List.mem_cons_self ..) (h d)

theorem Directive.Regular.fetchedBy_eq (h : d.Regular) : d.fetchedBy ap = d.fetches ap := by
  obtain ⟨words, hConv, hWords⟩ := d.convFetches_char (ap + (d.width.fetches ap).length)
  rw [Directive.fetchedBy_of_conv ap h.precision, Directive.fetches_of_conv ap h.precision, hConv,
    hWords.mpr h.length]

/-- One directive of a format. A missing argument is not made up for by a rest that
fetches no more than it should. -/
theorem Directive.fetchedBy_append_iff {rest rest' : List Fetch}
    (hRest : rest.length ≤ rest'.length) :
    d.fetchedBy ap ++ rest = d.fetches ap ++ rest' ↔ d.Regular ∧ rest = rest' := by
  constructor
  · intro hEq
    have hPrecision : d.precision ≠ .star := by
      intro hStar
      have hLength := congrArg List.length hEq
      have hHead := d.length_fetchedBy ap ap
      have hOne : (d.precision.fetches ap).length = 1 := by rw [hStar]; rfl
      rw [List.length_append, List.length_append] at hLength
      omega
    obtain ⟨words, hConv, hWords⟩ := d.convFetches_char (ap + (d.width.fetches ap).length)
    rw [Directive.fetchedBy_of_conv ap hPrecision, Directive.fetches_of_conv ap hPrecision, hConv,
      List.append_assoc, List.append_assoc, List.append_cancel_left_eq, List.singleton_append,
      List.singleton_append, List.cons.injEq, Fetch.mk.injEq] at hEq
    exact ⟨⟨hPrecision, hWords.mp hEq.1.2.2⟩, hEq.2⟩
  · rintro ⟨hRegular, rfl⟩
    rw [hRegular.fetchedBy_eq]

/-- The formatter fetches what the calling convention says only if it converts
every directive. -/
theorem fetchedBy_eq_layout_iff (env : FormatEnv) (ap : Nat) (ps : List FormatPiece) :
    fetchedBy env ap ps = layout ap ps ↔
      (∀ d, .directive d ∈ ps → d.Regular) ∧ ZeroLast env ap ps := by
  induction ps generalizing ap with
  | nil => simp [fetchedBy, layout, ZeroLast]
  | cons p ps ih =>
      cases p with
      | text c isText =>
          have hPieces : (∀ d, .directive d ∈ FormatPiece.text c isText :: ps → d.Regular) ↔
              ∀ d, .directive d ∈ ps → d.Regular := by simp
          rw [hPieces]
          exact ih ap
      | directive d =>
          have hPieces : (∀ d', .directive d' ∈ FormatPiece.directive d :: ps → d'.Regular) ↔
              d.Regular ∧ ∀ d', .directive d' ∈ ps → d'.Regular := by simp
          have hLength : (if d.stops env ap then []
              else fetchedBy env (ap + fetchedWords (d.fetchedBy ap)) ps).length ≤
              (layout (ap + fetchedWords (d.fetches ap)) ps).length := by
            split
            · exact Nat.zero_le _
            · exact length_fetchedBy env _ _ ps
          rw [fetchedBy, layout, FormatPiece.fetches, Directive.fetchedBy_append_iff hLength,
            hPieces, and_assoc]
          refine and_congr_right fun hRegular => ?_
          rw [hRegular.fetchedBy_eq]
          by_cases hZero : d.PrintsZero env ap
          · -- the formatter stops, so nothing may be left to fetch
            rw [if_pos ((Directive.stops_iff hRegular.precision).mpr hZero), eq_comm,
              layout_eq_nil]
            constructor
            · intro hNone
              exact ⟨fun d' hd' => absurd hd' (hNone d'), fun _ => hNone, zeroLast_of_text hNone⟩
            · exact fun h => h.2.1 hZero
          · rw [if_neg fun h => hZero ((Directive.stops_iff hRegular.precision).mp h), ih]
            refine and_congr_right fun _ => ⟨fun hLast => ?_, And.right⟩
            exact ⟨fun h => absurd h hZero, hLast⟩

end Compare

/-- The arguments are fetched as the calling convention lays them out exactly if no
precision is `*`, no integer has the length `h` alone, and a character 0 of `%c` is
not followed by another directive. -/
theorem format_arguments_iff (env : FormatEnv) (buf : Option (Nat → UInt8)) (size : Nat)
    (ps : List FormatPiece) :
    (∃ r, FormatReturns env buf size (formatOf ps) r ∧ r.last.fetched = layout 0 ps) ↔
      (∀ d, .directive d ∈ ps → d.Regular) ∧ ZeroLast env 0 ps := by
  obtain ⟨m, hReturns, hShows, -, -⟩ :=
    exists_formatReturns env buf size (zero_not_mem_formatOf ps)
  have hFetched : m.finish.last.fetched = fetchedBy env 0 ps :=
    hShows.fetched.trans (Scan.scan_format env ⟨rfl, rfl, rfl⟩ rfl ps)
  rw [hReturns.exists_iff, hFetched, fetchedBy_eq_layout_iff]

/-- In `"%hd%d"` the first conversion takes both arguments, and in `"%.*d"` the second
argument is not fetched. -/
theorem format_arguments_shifted :
    (¬ ∃ r, FormatReturns (.ofWords [1, 2]) (some fun _ => 255) 16
        (formatOf [.directive ⟨[], .none, .none, .h, .integer .d⟩,
          .directive ⟨[], .none, .none, .none, .integer .d⟩]) r ∧
      r.last.fetched = layout 0 [.directive ⟨[], .none, .none, .h, .integer .d⟩,
        .directive ⟨[], .none, .none, .none, .integer .d⟩]) ∧
    ¬ ∃ r, FormatReturns (.ofWords [1, 2]) (some fun _ => 255) 16
        (formatOf [.directive ⟨[], .none, .star, .none, .integer .d⟩]) r ∧
      r.last.fetched = layout 0 [.directive ⟨[], .none, .star, .none, .integer .d⟩] := by
  constructor
  · refine not_exists_formatReturns 20 (f := fun r => r.last.fetched)
      (x := [⟨.conv 'd'.toUInt8, 0, 2⟩, ⟨.conv 'd'.toUInt8, 2, 1⟩]) (by decide +kernel) ?_
    intro r hFetched hLayout
    exact absurd (hFetched.symm.trans hLayout) (by decide)
  · refine not_exists_formatReturns 20 (f := fun r => r.last.fetched)
      (x := [⟨.precision, 0, 1⟩]) (by decide +kernel) ?_
    intro r hFetched hLayout
    exact absurd (hFetched.symm.trans hLayout) (by decide)

end DoraOS
