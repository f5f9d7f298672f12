import DoraOS.Format.Scan
import Mathlib.Data.List.Basic

/-! The loop of `dos_format_nstr` follows the scanner. It returns, it never reads
behind the terminator, and it leaves the arguments and characters of the scanner
that stops at a character 0. -/
namespace DoraOS

theorem dosGetAtoi_eq (n : Int) (fmt : List UInt8) :
    dosGetAtoi n (fmt ++ [0]) =
      some ((fmt.takeWhile isDigit).foldl atoiStep n, fmt.dropWhile isDigit ++ [0]) := by
  induction fmt generalizing n with
  | nil => rfl
  | cons c fmt ih =>
      cases hDigit : isDigit c with
      | true => simp [dosGetAtoi, hDigit, ih]
      | false => simp [dosGetAtoi, hDigit]

theorem head_dropWhile (fmt : List UInt8) :
    ∀ c ∈ (fmt.dropWhile isDigit).head?, isDigit c = false := by
  intro c hc
  have h := List.head?_dropWhile_not isDigit fmt
  rw [Option.mem_def] at hc
  rwa [hc] at h

namespace Formatter

variable (env : FormatEnv)

/-- What the loop leaves where the scanner is at the end of the format. Only in
the middle of a text the terminator is put. -/
structure Shows (m : Formatter) (q : Scan) : Prop where
  fetched : m.fetched = q.fetched
  text : m.out.text = q.text ++ if q.zero = false ∧ q.phase = .text then [0] else []
  indexed : m.out.indexed = q.indexed
  fmt : m.fmt = [] ↔ q.zero = false ∧ q.phase = .text

/-- With enough rounds the loop returns from `m`. -/
def Ends (m : Formatter) (q : Scan) : Prop :=
  ∃ n m', (∀ fuel, n ≤ fuel → loop env fuel m = some m') ∧ Shows m' q

variable {env} {m m' : Formatter} {q : Scan} {c : UInt8} {r : List UInt8}

theorem Ends.step (hStep : m.step env = some (m', c)) (hChar : c ≠ 0) (h : Ends env m' q) :
    Ends env m q := by
  obtain ⟨n, last, hLoop, hShows⟩ := h
  refine ⟨n + 1, last, ?_, hShows⟩
  intro fuel hFuel
  obtain ⟨k, rfl⟩ : ∃ k, fuel = k + 1 := ⟨fuel - 1, by omega⟩
  simp only [loop, hStep, if_neg hChar]
  exact hLoop k (by omega)

theorem Ends.last (hStep : m.step env = some (m', 0)) (hShows : Shows m' q) : Ends env m q := by
  refine ⟨1, m', ?_, hShows⟩
  intro fuel hFuel
  obtain ⟨k, rfl⟩ : ∃ k, fuel = k + 1 := ⟨fuel - 1, by omega⟩
  simp [loop, hStep]

structure Agrees (m : Formatter) (q : Scan) : Prop where
  ap : m.ap = q.ap
  fetched : m.fetched = q.fetched
  text : m.out.text = q.text
  indexed : m.out.indexed = q.indexed
  zero : q.zero = false

theorem Agrees.fetch (h : Agrees m q) (use : FetchUse) : Agrees (m.fetch use 1) (q.fetch use) where
  ap := by rw [Formatter.fetch, Scan.fetch, h.ap]
  fetched := by rw [Formatter.fetch, Scan.fetch, h.fetched, h.ap]
  text := h.text
  indexed := h.indexed
  zero := h.zero

/-- They do not depend on the place in the format. -/
theorem Agrees.move {fmt : List UInt8} {state : FormatPhase} {flags flags' : FormatFlags}
    {width width' precision : Int} {lflags lflags' : Nat} {phase : ScanPhase} (h : Agrees m q) :
    Agrees
      { m with
        fmt := fmt, state := state, flags := flags, width := width, precision := precision
        lflags := lflags }
      { q with phase := phase, flags := flags', width := width', lflags := lflags' } :=
  ⟨h.ap, h.fetched, h.text, h.indexed, h.zero⟩

structure SameConv (m : Formatter) (q : Scan) : Prop where
  flags : m.flags = q.flags
  width : m.width = q.width

/-- The formatter stands where the scanner is, with `r` to read. Behind a number
it has looked at the next character. -/
def At (m : Formatter) (q : Scan) (r : List UInt8) : Prop :=
  match q.phase with
  | .text => m.state = .default
  | .flags => m.state = .flags ∧ m.flags = q.flags
  | .width => m.state = .width ∧ SameConv m q
  | .number => m.state = .width ∧ SameConv m q ∧ ∀ c ∈ r.head?, isDigit c = false
  | .dot => m.state = .length ∧ SameConv m q ∧ m.lflags = q.lflags ∧
      ∀ c ∈ r.head?, isDigit c = false ∧ c ≠ '*'.toUInt8
  | .precision => m.state = .length ∧ SameConv m q ∧ m.lflags = q.lflags ∧
      ∀ c ∈ r.head?, isDigit c = false
  | .length => m.state = .length ∧ SameConv m q ∧ m.lflags = q.lflags

/-- From `r` on the loop ends as the scanner says. -/
def Follows (env : FormatEnv) (r : List UInt8) : Prop :=
  ∀ m q, Agrees m q → At m q r → m.fmt = r ++ [0] → Ends env m (q.scanUntil env r)

section Step

variable (ih : ∀ s : List UInt8, s.length ≤ r.length → 0 ∉ s → Follows env s)
  (hRest : 0 ∉ r) (hChar : c ≠ 0) (hAgrees : Agrees m q) (hFmt : m.fmt = c :: (r ++ [0]))

include ih hRest hChar hAgrees hFmt

theorem ends_conv (hState : m.state = .conv) (hConv : SameConv m q)
    (hLength : m.lflags = q.lflags) : Ends env m ((q.convert env c).scanUntil env r) := by
  let m₀ : Formatter := { m with fmt := r ++ [0], state := .default }
  have hStep : m.step env = some ((m₀.convert env c).1, (m₀.convert env c).2) := by
    simp only [step, hFmt, hState, m₀]
  have hEmits := convert_emits env m₀ c
  have hZero := convert_char env m₀ hChar
  rw [show m₀.ap = q.ap from hAgrees.ap] at hZero
  have hFetched : (m₀.convert env c).1.fetched = (q.convert env c).fetched := by
    rw [hEmits.fetched, show m₀.fetched = q.fetched from hAgrees.fetched,
      show m₀.lflags = q.lflags from hLength, show m₀.ap = q.ap from hAgrees.ap]
    rfl
  have hText : (m₀.convert env c).1.out.text = (q.convert env c).text := by
    rw [hEmits.out, Output.extend_text, show m₀.out.text = q.text from hAgrees.text,
      show m₀.lflags = q.lflags from hLength, show m₀.ap = q.ap from hAgrees.ap,
      show m₀.flags = q.flags from hConv.flags, show m₀.width = q.width from hConv.width]
    rfl
  have hIndexed : (m₀.convert env c).1.out.indexed = (q.convert env c).indexed := by
    rw [hEmits.out, Output.extend_indexed, show m₀.out.indexed = q.indexed from hAgrees.indexed,
      show m₀.lflags = q.lflags from hLength, show m₀.ap = q.ap from hAgrees.ap,
      show m₀.flags = q.flags from hConv.flags]
    rfl
  have hScanZero : (q.convert env c).zero = convZero env q.ap c := by
    rw [Scan.convert, hAgrees.zero, Bool.false_or]
  by_cases hStops : convZero env q.ap c = true
  · -- the loop leaves with the variable `c` overwritten
    rw [hStops] at hScanZero
    rw [Scan.scanUntil_of_zero hScanZero]
    rw [hZero.mpr hStops] at hStep
    refine Ends.last hStep ⟨hFetched, ?_, hIndexed, ?_⟩
    · simp [hText, hScanZero]
    · simp [hEmits.fmt, m₀, hScanZero]
  · refine Ends.step hStep (fun h => hStops (hZero.mp h)) ?_
    refine ih r (Nat.le_refl _) hRest _ _ ⟨?_, hFetched, hText, hIndexed, ?_⟩ hEmits.state
      hEmits.fmt
    · rw [hEmits.ap, show m₀.ap = q.ap from hAgrees.ap, show m₀.lflags = q.lflags from hLength]
      rfl
    · rw [hScanZero]
      simpa using hStops

theorem ends_length (hState : m.state = .length) (hConv : SameConv m q)
    (hLength : m.lflags = q.lflags) : Ends env m ((q.advanceLength env c).scanUntil env r) := by
  unfold Scan.advanceLength
  cases hSet : setLength q.lflags c with
  | some lflags =>
      have hStep : m.step env = some ({ m with fmt := r ++ [0], lflags := lflags }, c) := by
        simp [step, hFmt, hState, hLength, hSet]
      exact Ends.step hStep hChar (ih r (Nat.le_refl _) hRest _ _
        hAgrees.move
        ⟨hState, ⟨hConv.flags, hConv.width⟩, rfl⟩ rfl)
  | none =>
      have hStep : m.step env = some ({ m with state := .conv }, c) := by
        simp [step, hFmt, hState, hLength, hSet]
      exact Ends.step hStep hChar (ends_conv ih hRest hChar
        hAgrees.move hFmt rfl
        ⟨hConv.flags, hConv.width⟩ hLength)

theorem ends_dot (hDot : c = '.'.toUInt8) (hState : m.state = .precis) (hConv : SameConv m q) :
    Ends env m ({ q with phase := .dot, lflags := 0 }.scanUntil env r) := by
  -- without a number the formatter looks at the next character and leaves it
  have hLeaves (d : UInt8) (t : List UInt8) (hNext : r ++ [0] = d :: t)
      (hDigit : isDigit d = false) (hStar : d ≠ '*'.toUInt8) :
      m.step env = some ({ m with
        lflags := 0, state := .length, precision := notNegative m.precision
        fmt := d :: t }, c) := by
    rw [hNext] at hFmt
    simp [step, hFmt, hState, hDot, hDigit, hStar]
  cases r with
  | nil =>
      exact Ends.step (hLeaves 0 [] rfl rfl (by decide)) hChar (ih [] (Nat.le_refl _) hRest _ _
        hAgrees.move
        ⟨rfl, ⟨hConv.flags, hConv.width⟩, rfl, nofun⟩ rfl)
  | cons d r =>
      cases hDigit : isDigit d with
      | true =>
          have hAtoi := dosGetAtoi_eq 0 (d :: r)
          have hStep : m.step env = some ({ m with
              lflags := 0, state := .length
              precision := notNegative (((d :: r).takeWhile isDigit).foldl atoiStep 0)
              fmt := (d :: r).dropWhile isDigit ++ [0] }, c) := by
            simp only [List.cons_append] at hFmt hAtoi
            simp [step, hFmt, hState, hDot, hDigit, hAtoi]
          rw [Scan.scanUntil_dot (q := { q with phase := .dot, lflags := 0 }) rfl hAgrees.zero
            hDigit]
          exact Ends.step hStep hChar (ih _ (List.dropWhile_sublist _).length_le
            (fun h => hRest ((List.dropWhile_sublist _).subset h)) _ _
            hAgrees.move
            ⟨rfl, ⟨hConv.flags, hConv.width⟩, rfl, head_dropWhile _⟩ rfl)
      | false =>
          by_cases hStar : d = '*'.toUInt8
          · have hStep : m.step env = some ({ m.fetch .precision 1 with
                lflags := 0, state := .length
                precision := notNegative (env.int32 m.ap)
                fmt := d :: (r ++ [0]) }, c) := by
              simp only [List.cons_append] at hFmt
              simp only [step, hFmt, hState, if_pos hDot, hDigit, Bool.false_eq_true, if_false,
                if_pos hStar]
              rfl
            have hNext : { q with phase := .dot, lflags := 0 }.advance env d =
                ({ q with phase := .dot, lflags := 0 }.fetch .precision).advanceLength env d := by
              simp only [Scan.advance, hDigit, Bool.false_eq_true, if_false, if_pos hStar]
            rw [Scan.scanUntil_cons (q := { q with phase := .dot, lflags := 0 }) hAgrees.zero,
              hNext]
            have hFetch := hAgrees.fetch .precision
            exact Ends.step hStep hChar (ends_length (fun s hs => ih s (Nat.le_succ_of_le hs))
              (fun h => hRest (List.mem_cons_of_mem _ h))
              (fun h => hRest (h ▸ List.mem_cons_self ..))
              hFetch.move rfl rfl ⟨hConv.flags, hConv.width⟩ rfl)
          · exact Ends.step (hLeaves d (r ++ [0]) rfl hDigit hStar) hChar
              (ih (d :: r) (Nat.le_refl _) hRest _ _
                hAgrees.move
                ⟨rfl, ⟨hConv.flags, hConv.width⟩, rfl, by simpa using ⟨hDigit, hStar⟩⟩ rfl)

theorem ends_precis (hState : m.state = .precis) (hConv : SameConv m q) :
    Ends env m ((q.advancePrecision env c).scanUntil env r) := by
  by_cases hDot : c = '.'.toUInt8
  · have hNext : q.advancePrecision env c = { q with phase := .dot, lflags := 0 } := by
      simp [Scan.advancePrecision, hDot]
    rw [hNext]
    exact ends_dot ih hRest hChar hAgrees hFmt hDot hState hConv
  · have hStep : m.step env = some ({ m with lflags := 0, state := .length }, c) := by
      simp [step, hFmt, hState, hDot]
    have hNext : q.advancePrecision env c = { q with lflags := 0 }.advanceLength env c := by
      simp [Scan.advancePrecision, hDot]
    rw [hNext]
    exact Ends.step hStep hChar (ends_length ih hRest hChar
      hAgrees.move hFmt rfl
      ⟨hConv.flags, hConv.width⟩ rfl)

theorem ends_width (hState : m.state = .width) (hConv : SameConv m q) :
    Ends env m ((q.advanceWidth env c).scanUntil env r) := by
  by_cases hStar : c = '*'.toUInt8
  · have hFetch := hAgrees.fetch .width
    by_cases hNegative : env.int32 m.ap < 0
    · have hStep : m.step env = some ({ m.fetch .width 1 with
          fmt := r ++ [0], width := toInt32 (-env.int32 m.ap)
          flags := { m.flags with left := true } }, c) := by
        simp only [step, hFmt, hState, if_pos hStar, if_pos hNegative]
        rfl
      have hNext : q.advanceWidth env c = { q.fetch .width with
          phase := .width, width := toInt32 (-env.int32 m.ap)
          flags := { q.flags with left := true } } := by
        rw [hAgrees.ap] at hNegative ⊢
        simp only [Scan.advanceWidth, if_pos hStar, if_pos hNegative]
        rfl
      rw [hNext]
      exact Ends.step hStep hChar (ih r (Nat.le_refl _) hRest _ _
        hFetch.move ⟨hState, by rw [hConv.flags], rfl⟩ rfl)
    · have hStep : m.step env = some ({ m.fetch .width 1 with
          fmt := r ++ [0], width := env.int32 m.ap }, c) := by
        simp only [step, hFmt, hState, if_pos hStar, if_neg hNegative]
      have hNext : q.advanceWidth env c = { q.fetch .width with
          phase := .width, width := env.int32 m.ap } := by
        rw [hAgrees.ap] at hNegative ⊢
        simp only [Scan.advanceWidth, if_pos hStar, if_neg hNegative]
      rw [hNext]
      exact Ends.step hStep hChar (ih r (Nat.le_refl _) hRest _ _
        hFetch.move ⟨hState, hConv.flags, rfl⟩ rfl)
  · by_cases hDigit : isDigit c = true ∧ '0'.toUInt8 < c
    · have hAtoi := dosGetAtoi_eq 0 (c :: r)
      have hStep : m.step env = some ({ m with
          width := (r.takeWhile isDigit).foldl atoiStep (atoiStep 0 c)
          fmt := r.dropWhile isDigit ++ [0] }, c) := by
        rw [List.takeWhile_cons_of_pos hDigit.1, List.dropWhile_cons_of_pos hDigit.1] at hAtoi
        simp only [List.cons_append] at hAtoi
        simp only [step, hFmt, hState, if_neg hStar, if_pos hDigit, hAtoi, Option.map_some]
        rfl
      have hNext : q.advanceWidth env c = { q with phase := .number, width := atoiStep 0 c } := by
        simp only [Scan.advanceWidth, if_neg hStar, if_pos hDigit]
      rw [hNext, Scan.scanUntil_number (q := { q with phase := .number, width := atoiStep 0 c }) rfl
        hAgrees.zero]
      exact Ends.step hStep hChar (ih _ (List.dropWhile_sublist _).length_le
        (fun h => hRest ((List.dropWhile_sublist _).subset h)) _ _
        hAgrees.move
        ⟨hState, ⟨hConv.flags, rfl⟩, head_dropWhile _⟩ rfl)
    · have hStep : m.step env = some ({ m with precision := -1, state := .precis }, c) := by
        simp only [step, hFmt, hState, if_neg hStar, if_neg hDigit]
      have hNext : q.advanceWidth env c = q.advancePrecision env c := by
        simp only [Scan.advanceWidth, if_neg hStar, if_neg hDigit]
      rw [hNext]
      exact Ends.step hStep hChar (ends_precis ih hRest hChar
        hAgrees.move hFmt rfl ⟨hConv.flags, hConv.width⟩)

theorem ends_flags (hState : m.state = .flags) (hFlags : m.flags = q.flags)
    (hPhase : q.phase = .flags) :
    Ends env m ((q.advance env c).scanUntil env r) := by
  cases hSet : setFlag q.flags c with
  | some flags =>
      have hStep : m.step env = some ({ m with fmt := r ++ [0], flags := flags }, c) := by
        simp only [step, hFmt, hState, hFlags, hSet]
      have hNext : q.advance env c = { q with flags := flags } := by
        simp only [Scan.advance, hPhase, hSet]
      rw [hNext]
      refine Ends.step hStep hChar (ih r (Nat.le_refl _) hRest _ _
        hAgrees.move ?_ rfl)
      simp only [At, hPhase, hState, and_self]
  | none =>
      have hStep : m.step env = some ({ m with width := 0, state := .width }, c) := by
        simp only [step, hFmt, hState, hFlags, hSet]
      have hNext : q.advance env c = { q with width := 0 }.advanceWidth env c := by
        simp only [Scan.advance, hPhase, hSet]
      rw [hNext]
      exact Ends.step hStep hChar (ends_width ih hRest hChar
        hAgrees.move hFmt rfl ⟨hFlags, rfl⟩)

end Step

/-- In the middle of a conversion the terminator ends the loop and stays unread. -/
theorem Ends.cut (hFmt : m.fmt = [0])
    (hState : m.state = .flags ∨ m.state = .width ∨ m.state = .length) (hAgrees : Agrees m q)
    (hPhase : q.phase ≠ .text) : Ends env m q := by
  have hStep : ∃ m', m.step env = some (m', 0) ∧ m'.fmt = [0] ∧ m'.out = m.out ∧
      m'.fetched = m.fetched := by
    rcases hState with hState | hState | hState
    · refine ⟨{ m with width := 0, state := .width }, ?_, hFmt, rfl, rfl⟩
      simp only [Formatter.step, hFmt, hState]
      rfl
    · refine ⟨{ m with precision := -1, state := .precis }, ?_, hFmt, rfl, rfl⟩
      simp only [Formatter.step, hFmt, hState]
      rfl
    · refine ⟨{ m with state := .conv }, ?_, hFmt, rfl, rfl⟩
      simp only [Formatter.step, hFmt, hState]
      rfl
  obtain ⟨m', hStep, hFmt', hOut, hFetched⟩ := hStep
  refine Ends.last hStep ⟨hFetched.trans hAgrees.fetched, ?_, by rw [hOut, hAgrees.indexed], ?_⟩
  · simp [hOut, hAgrees.text, hPhase]
  · simp [hFmt', hPhase]

theorem follows_nil : Follows env [] := by
  intro m q hAgrees hAt hFmt
  show Ends env m q
  cases hPhase : q.phase with
  | text =>
      simp only [At, hPhase] at hAt
      have hStep : m.step env = some ({ m with fmt := [], out := m.out.dosBuffPutChar 0 }, 0) := by
        simp only [step, hFmt, hAt]
        rfl
      refine Ends.last hStep ⟨hAgrees.fetched, ?_, ?_, by simp [hAgrees.zero, hPhase]⟩
      · simp [hAgrees.zero, hPhase, ← hAgrees.text, Output.dosBuffPutChar]
      · rw [Output.put_indexed, hAgrees.indexed]
  | flags =>
      simp only [At, hPhase] at hAt
      exact Ends.cut hFmt (.inl hAt.1) hAgrees (by simp [hPhase])
  | width =>
      simp only [At, hPhase] at hAt
      exact Ends.cut hFmt (.inr (.inl hAt.1)) hAgrees (by simp [hPhase])
  | number =>
      simp only [At, hPhase] at hAt
      exact Ends.cut hFmt (.inr (.inl hAt.1)) hAgrees (by simp [hPhase])
  | dot =>
      simp only [At, hPhase] at hAt
      exact Ends.cut hFmt (.inr (.inr hAt.1)) hAgrees (by simp [hPhase])
  | precision =>
      simp only [At, hPhase] at hAt
      exact Ends.cut hFmt (.inr (.inr hAt.1)) hAgrees (by simp [hPhase])
  | length =>
      simp only [At, hPhase] at hAt
      exact Ends.cut hFmt (.inr (.inr hAt.1)) hAgrees (by simp [hPhase])

theorem follows_cons (ih : ∀ s : List UInt8, s.length ≤ r.length → 0 ∉ s → Follows env s)
    (hRest : 0 ∉ r) (hChar : c ≠ 0) : Follows env (c :: r) := by
  intro m q hAgrees hAt hFmt
  rw [Scan.scanUntil_cons hAgrees.zero]
  cases hPhase : q.phase with
  | text =>
      simp only [At, hPhase] at hAt
      by_cases hPercent : c = '%'.toUInt8
      · have hStep : m.step env = some ({ m with
            fmt := r ++ [0], state := .flags, flags := {} }, c) := by
          simp only [step, hFmt, List.cons_append, hAt, if_pos hPercent]
        have hNext : q.advance env c = { q with phase := .flags, flags := {} } := by
          simp only [Scan.advance, hPhase, if_pos hPercent]
        rw [hNext]
        exact Ends.step hStep hChar (ih r (Nat.le_refl _) hRest _ _
          hAgrees.move ⟨rfl, rfl⟩ rfl)
      · have hStep : m.step env = some ({ m with
            fmt := r ++ [0], out := m.out.dosBuffPutChar c }, c) := by
          simp only [step, hFmt, List.cons_append, hAt, if_neg hPercent]
        have hNext : q.advance env c = { q with text := q.text ++ [c] } := by
          simp only [Scan.advance, hPhase, if_neg hPercent]
        rw [hNext]
        refine Ends.step hStep hChar (ih r (Nat.le_refl _) hRest _ _
          ⟨hAgrees.1, hAgrees.2, ?_, ?_, hAgrees.5⟩ ?_ rfl)
        · rw [← hAgrees.text]
          rfl
        · rw [Output.put_indexed, hAgrees.indexed]
        · simp only [At, hPhase, hAt]
  | flags =>
      simp only [At, hPhase] at hAt
      exact ends_flags ih hRest hChar hAgrees hFmt hAt.1 hAt.2 hPhase
  | width =>
      simp only [At, hPhase] at hAt
      have hNext : q.advance env c = q.advanceWidth env c := by simp only [Scan.advance, hPhase]
      rw [hNext]
      exact ends_width ih hRest hChar hAgrees hFmt hAt.1 hAt.2
  | number =>
      simp only [At, hPhase, List.head?_cons, Option.mem_some_iff, forall_eq'] at hAt
      have hNext : q.advance env c = q.advanceWidth env c := by
        simp only [Scan.advance, hPhase, hAt.2.2, Bool.false_eq_true, if_false]
      rw [hNext]
      exact ends_width ih hRest hChar hAgrees hFmt hAt.1 hAt.2.1
  | dot =>
      simp only [At, hPhase, List.head?_cons, Option.mem_some_iff, forall_eq'] at hAt
      obtain ⟨hState, hConv, hLength, hDigit, hStar⟩ := hAt
      have hNext : q.advance env c = q.advanceLength env c := by
        simp only [Scan.advance, hPhase, hDigit, Bool.false_eq_true, if_false, if_neg hStar]
      rw [hNext]
      exact ends_length ih hRest hChar hAgrees hFmt hState hConv hLength
  | precision =>
      simp only [At, hPhase, List.head?_cons, Option.mem_some_iff, forall_eq'] at hAt
      obtain ⟨hState, hConv, hLength, hDigit⟩ := hAt
      have hNext : q.advance env c = q.advanceLength env c := by
        simp only [Scan.advance, hPhase, hDigit, Bool.false_eq_true, if_false]
      rw [hNext]
      exact ends_length ih hRest hChar hAgrees hFmt hState hConv hLength
  | length =>
      simp only [At, hPhase] at hAt
      have hNext : q.advance env c = q.advanceLength env c := by simp only [Scan.advance, hPhase]
      rw [hNext]
      exact ends_length ih hRest hChar hAgrees hFmt hAt.1 hAt.2.1 hAt.2.2

/-- The loop follows the scanner. The induction is on the length of the format, as
a run of digits is taken in one step. -/
theorem follows (r : List UInt8) (hRest : 0 ∉ r) : Follows env r := by
  induction hLength : r.length using Nat.strong_induction_on generalizing r with
  | _ n ih =>
      cases r with
      | nil => exact follows_nil
      | cons c r =>
          rw [List.length_cons] at hLength
          rw [List.mem_cons, not_or] at hRest
          exact follows_cons (fun s hs h0 => ih s.length (by omega) s h0 rfl) hRest.2
            (Ne.symm hRest.1)

section Emitted

/-- What a turn of the loop adds to the output, whatever the output is. -/
def emitted (env : FormatEnv) (m : Formatter) : List (Int × Nat) × List UInt8 :=
  match m.fmt, m.state with
  | c :: _, .default => if c = '%'.toUInt8 then ([], []) else ([], [c])
  | c :: _, .conv =>
      (convIndexed env m.flags m.lflags m.ap c, convText env m.flags m.width m.lflags m.ap c)
  | _, _ => ([], [])

theorem convert_with_out (m : Formatter) (c : UInt8) (o : Output) :
    { m with out := o }.convert env c =
      ({ (m.convert env c).1 with
          out := o.extend (convIndexed env m.flags m.lflags m.ap c,
            convText env m.flags m.width m.lflags m.ap c) }, (m.convert env c).2) := by
  have hOut := (convert_emits env { m with out := o } c).out
  have hRest : { m with out := o }.convert env c =
      ({ (m.convert env c).1 with out := ({ m with out := o }.convert env c).1.out },
        (m.convert env c).2) := by
    unfold convert
    split_ifs <;> rfl
  rw [hRest, hOut]

/-- The output does not decide anything. -/
theorem step_with_out (m : Formatter) (o : Output) :
    { m with out := o }.step env =
      (m.step env).map fun r => ({ r.1 with out := o.extend (m.emitted env) }, r.2) := by
  have hNone : o.extend ([], []) = o := Output.extend_nil o
  obtain ⟨fmt, out, ap, state, flags, width, precision, lflags, fetched⟩ := m
  unfold step emitted
  cases fmt with
  | nil => rfl
  | cons c rest =>
      cases state with
      | default =>
          dsimp only
          split
          · rw [hNone]
            rfl
          · rw [Output.extend_puts]
            rfl
      | flags =>
          dsimp only
          rw [hNone]
          split <;> rfl
      | width =>
          dsimp only
          rw [hNone]
          split_ifs
          · rfl
          · rfl
          · rw [Option.map_map]
            rfl
          · rfl
      | precis =>
          dsimp only
          rw [hNone]
          split
          · split
            · rfl
            · split_ifs
              · rw [Option.map_map]
                rfl
              · rfl
              · rfl
          · rfl
      | length =>
          dsimp only
          rw [hNone]
          split <;> rfl
      | conv =>
          dsimp only
          rw [convert_with_out ⟨rest, out, ap, .default, flags, width, precision, lflags, fetched⟩]
          rfl

/-- So the characters of a whole run are the same for every output. -/
theorem loop_with_out {fuel : Nat} (hLoop : loop env fuel m = some m') :
    ∃ e, ∀ o, loop env fuel { m with out := o } = some { m' with out := o.extend e } := by
  induction fuel generalizing m with
  | zero => cases hLoop
  | succ fuel ih =>
      unfold loop at hLoop
      split at hLoop
      next => cases hLoop
      next m₁ c hStep =>
        have hTurn (o : Output) : { m with out := o }.step env =
            some ({ m₁ with out := o.extend (m.emitted env) }, c) := by
          rw [step_with_out, hStep, Option.map_some]
        split at hLoop
        next hZero =>
          cases hLoop
          refine ⟨m.emitted env, fun o => ?_⟩
          simp only [loop, hTurn, if_pos hZero]
        next hZero =>
          obtain ⟨e, hRest⟩ := ih hLoop
          refine ⟨((m.emitted env).1 ++ e.1, (m.emitted env).2 ++ e.2), fun o => ?_⟩
          simp only [loop, hTurn, if_neg hZero]
          rw [hRest, Output.extend_extend]

variable {b : Nat → UInt8}

theorem loop_records {fuel : Nat} (hLoop : loop env fuel m = some m') (h : m.out.Records b) :
    m'.out.Records b ∧ m'.out.max = m.out.max := by
  obtain ⟨e, hOut⟩ := loop_with_out hLoop
  have hSame : some m' = some { m' with out := m.out.extend e } := hLoop.symm.trans (hOut m.out)
  have hExtend : m'.out = m.out.extend e := congrArg out (Option.some.inj hSame)
  rw [hExtend]
  exact h.extend e

end Emitted

/-- More rounds do not change a result. -/
theorem loop_mono {fuel fuel' : Nat} (hLoop : loop env fuel m = some m') (hLe : fuel ≤ fuel') :
    loop env fuel' m = some m' := by
  induction fuel generalizing m fuel' with
  | zero => cases hLoop
  | succ fuel ih =>
      obtain ⟨k, rfl⟩ : ∃ k, fuel' = k + 1 := ⟨fuel' - 1, by omega⟩
      unfold loop at hLoop
      split at hLoop
      next => cases hLoop
      next m₁ c hStep =>
        simp only [loop, hStep]
        split at hLoop
        next hZero => rw [if_pos hZero, hLoop]
        next hZero => rw [if_neg hZero, ih hLoop (by omega)]

end Formatter

section Returns

variable {env : FormatEnv} {buf : Option (Nat → UInt8)} {size : Nat} {fmt : List UInt8}

def FormatReturns (env : FormatEnv) (buf : Option (Nat → UInt8)) (size : Nat) (fmt : List UInt8)
    (r : Formatted) : Prop :=
  ∃ n, ∀ fuel, n ≤ fuel → dosFormatNstr env fuel buf size fmt = some r

theorem FormatReturns.eq_of_run {r r' : Formatted} {fuel : Nat}
    (h : FormatReturns env buf size fmt r)
    (hRun : dosFormatNstr env fuel buf size fmt = some r') : r = r' := by
  obtain ⟨n, hAll⟩ := h
  obtain ⟨m, hLoop, rfl⟩ := Option.map_eq_some_iff.mp hRun
  have hMore := hAll (max n fuel) (Nat.le_max_left ..)
  rw [dosFormatNstr, Formatter.loop_mono hLoop (Nat.le_max_right ..), Option.map_some] at hMore
  exact (Option.some.inj hMore).symm

/-- There is one result. -/
theorem FormatReturns.exists_iff {P : Formatted → Prop} {r : Formatted}
    (h : FormatReturns env buf size fmt r) :
    (∃ r', FormatReturns env buf size fmt r' ∧ P r') ↔ P r := by
  constructor
  · rintro ⟨r', hReturns, hP⟩
    obtain ⟨n, hAll⟩ := h
    rwa [← hReturns.eq_of_run (hAll n (Nat.le_refl _))]
  · exact fun hP => ⟨r, h, hP⟩

/-- A run tells what does not hold of the result. -/
theorem not_exists_formatReturns {α : Type} {P : Formatted → Prop} {f : Formatted → α} {x : α}
    (fuel : Nat) (hRun : (dosFormatNstr env fuel buf size fmt).map f = some x)
    (hNot : ∀ r, f r = x → ¬ P r) : ¬ ∃ r, FormatReturns env buf size fmt r ∧ P r := by
  rintro ⟨r, hReturns, hP⟩
  obtain ⟨r', hRun, hValue⟩ := Option.map_eq_some_iff.mp hRun
  rw [← hReturns.eq_of_run hRun] at hValue
  exact hNot r hValue hP

/-- `dos_format_nstr` returns with what the scanner finds. -/
theorem exists_formatReturns (env : FormatEnv) (buf : Option (Nat → UInt8)) (size : Nat)
    (hFmt : 0 ∉ fmt) :
    ∃ m : Formatter, FormatReturns env buf size fmt m.finish ∧
      m.Shows (({} : Scan).scanUntil env fmt) ∧ m.out.Records (buf.getD fun _ => 0) ∧
      m.out.max = if buf.isSome then size else 0 := by
  have hEnds : Formatter.Ends env (.start buf size fmt) (({} : Scan).scanUntil env fmt) :=
    Formatter.follows fmt hFmt _ _ ⟨rfl, rfl, rfl, rfl, rfl⟩ rfl rfl
  obtain ⟨n, m, hLoop, hShows⟩ := hEnds
  have hStart : (Formatter.start buf size fmt).out.Records (buf.getD fun _ => 0) :=
    ⟨(Nat.zero_mod _).symm, fun _ i => by simp [Formatter.start]⟩
  obtain ⟨hRecords, hMax⟩ := Formatter.loop_records (hLoop n (Nat.le_refl _)) hStart
  refine ⟨m, ⟨n, ?_⟩, hShows, hRecords, hMax⟩
  intro fuel hFuel
  rw [dosFormatNstr, hLoop fuel hFuel, Option.map_some]

end Returns

end DoraOS
