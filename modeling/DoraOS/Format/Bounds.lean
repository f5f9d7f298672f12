import DoraOS.Format.Numeral
import DoraOS.Format.Return

/-! Where `dos_format_nstr` writes. The characters of a run are the same for every
buffer, and a smaller buffer only drops some of them. -/
namespace DoraOS

namespace Output

variable {o o' : Output} {cs : List UInt8} {k : Nat}

/-- Nothing is written behind the size. -/
theorem puts_outside {i : Nat} (h : o.max ≤ i) : (o.puts cs).buf i = o.buf i := by
  induction cs generalizing o with
  | nil => rfl
  | cons c cs ih =>
      have hPut : (o.dosBuffPutChar c).buf i = o.buf i := by
        rw [put_buf, if_neg (by omega)]
      exact (ih ((put_max c).trans_le h)).trans hPut

/-- Two outputs at the same position, with the same bytes in front of `k`. -/
structure InStep (k : Nat) (o o' : Output) : Prop where
  pos : o.pos = o'.pos
  buf : ∀ i, i < k → o.buf i = o'.buf i

theorem InStep.put (h : InStep k o o') (hRoom : k ≤ o.max) (hRoom' : k ≤ o'.max) (c : UInt8) :
    InStep k (o.dosBuffPutChar c) (o'.dosBuffPutChar c) where
  pos := congrArg (fun pos => (pos + 1) % 2 ^ 32) h.pos
  buf i hi := by
    -- the sizes are behind `k`, so neither of them stops a write in front of it
    have hSame : (i = o.pos ∧ o.pos < o.max) ↔ (i = o'.pos ∧ o'.pos < o'.max) := by
      rw [h.pos]
      omega
    rw [put_buf, put_buf, h.buf i hi]
    simp only [hSame]

theorem InStep.puts (h : InStep k o o') (hRoom : k ≤ o.max) (hRoom' : k ≤ o'.max) :
    InStep k (o.puts cs) (o'.puts cs) := by
  induction cs generalizing o o' with
  | nil => exact h
  | cons c cs ih =>
      exact ih (h.put hRoom hRoom' c) (hRoom.trans_eq (put_max c).symm)
        (hRoom'.trans_eq (put_max c).symm)

end Output

/-- All characters that the loop puts, with the terminator where it puts it. -/
def putText (env : FormatEnv) (fmt : List UInt8) : List UInt8 :=
  let q := ({} : Scan).scanUntil env fmt
  q.text ++ if q.zero = false ∧ q.phase = .text then [0] else []

/-- The run is the same for every buffer and size, up to the output. -/
theorem exists_returns_puts (env : FormatEnv) {fmt : List UInt8} (hFmt : 0 ∉ fmt) :
    ∃ (m : Formatter) (indexed : List (Int × Nat)), ∀ buf size, FormatReturns env buf size fmt
      { m with
        out := (Formatter.start buf size fmt).out.extend (indexed, putText env fmt) }.finish := by
  have hEnds : Formatter.Ends env (.start none 0 fmt) (({} : Scan).scanUntil env fmt) :=
    Formatter.follows fmt hFmt _ _ ⟨rfl, rfl, rfl, rfl, rfl⟩ rfl rfl
  obtain ⟨n, m, hLoop, hShows⟩ := hEnds
  obtain ⟨⟨indexed, cs⟩, hOut⟩ := Formatter.loop_with_out (hLoop n (Nat.le_refl _))
  have hText : putText env fmt = cs := by
    have hSame := (hLoop n (Nat.le_refl _)).symm.trans (hOut (Formatter.start none 0 fmt).out)
    have hLast := congrArg (fun m : Formatter => m.out.text) (Option.some.inj hSame)
    rw [hShows.text] at hLast
    exact hLast.trans (Output.puts_text.trans (List.nil_append cs))
  refine ⟨m, indexed, fun buf size => ⟨n, fun fuel hFuel => ?_⟩⟩
  rw [hText, dosFormatNstr]
  exact congrArg (Option.map Formatter.finish)
    (Formatter.loop_mono (hOut (Formatter.start buf size fmt).out) hFuel)

section Safety

/-- `dos_format_nstr` with a pointer to the bytes `b`. A null pointer leads to some
bytes as well, and the size is 0 for it. -/
def dosFormatNstrAt (env : FormatEnv) (fuel : Nat) (null : Bool) (b : Nat → UInt8) (size : Nat)
    (fmt : List UInt8) : Option Formatted :=
  dosFormatNstr env fuel (some b) (if null then 0 else size) fmt

/-- The digit loop ends by its own test, inside of `nbuf`. -/
theorem digitLoop_stops {base room : Nat} (hBase : BaseOk base) (hRoom : 64 ≤ room) (num : Int)
    (flags : FormatFlags) :
    digitLoop base room (intValue num flags) = digitLoop base 64 (intValue num flags) := by
  have hValue := intValue_lt num flags
  obtain ⟨room, rfl⟩ : ∃ k, room = k + 1 := ⟨room - 1, by omega⟩
  rcases Int.lt_or_le 0 (intValue num flags) with hPos | hNonpos
  · obtain ⟨n, hn⟩ := Int.eq_ofNat_of_zero_le hPos.le
    have hFits (k : Nat) (hk : 63 ≤ k) : n < base ^ (k + 1) :=
      calc n < 2 ^ 31 := by omega
        _ ≤ 2 ^ (k + 1) := Nat.pow_le_pow_right (by decide) (by omega)
        _ ≤ base ^ (k + 1) := Nat.pow_le_pow_left hBase.1 (k + 1)
    rw [hn, ← List.reverse_inj]
    exact (digitLoop_eq hBase.1 (hFits room (by omega))).trans
      (digitLoop_eq hBase.1 (hFits 63 (Nat.le_refl _))).symm
  · rw [digitLoop_of_nonpos hNonpos, digitLoop_of_nonpos hNonpos]

/-- `dos_format_nstr` returns, without a read behind the terminator of the format,
and only bytes in front of the size change. The bound on the rounds of the digit
loop is never reached. -/
theorem format_safe (env : FormatEnv) (null : Bool) (b : Nat → UInt8) (size : Nat)
    (fmt : List UInt8) (hFmt : 0 ∉ fmt) :
    (∃ n r, (∀ fuel, n ≤ fuel → dosFormatNstrAt env fuel null b size fmt = some r) ∧
      ∀ i, r.buf i ≠ b i → null = false ∧ i < size) ∧
    ∀ num base flags room, BaseOk base → 64 ≤ room →
      digitLoop base room (intValue num flags) = digitLoop base 64 (intValue num flags) := by
  refine ⟨?_, fun num base flags room hBase hRoom => digitLoop_stops hBase hRoom num flags⟩
  obtain ⟨m, indexed, hReturns⟩ := exists_returns_puts env hFmt
  obtain ⟨n, hRun⟩ := hReturns (some b) (if null then 0 else size)
  refine ⟨n, _, hRun, fun i hChanged => ?_⟩
  have hMax : (Formatter.start (some b) (if null then 0 else size) fmt).out.max =
      if null then 0 else size := rfl
  have hInside : i < if null then 0 else size := by
    by_contra hOutside
    apply hChanged
    rw [buf_finish, if_neg]
    · exact Output.puts_outside (Nat.not_lt.mp hOutside)
    · dsimp only
      rw [Output.extend, Output.puts_max, hMax]
      omega
  cases null with
  | false => exact ⟨rfl, hInside⟩
  | true => exact absurd hInside (Nat.not_lt_zero i)

/-- `"%5d"` at a null pointer leaves all bytes as they are. -/
theorem format_safe_null :
    ∃ n r, (∀ fuel, n ≤ fuel → dosFormatNstrAt (.ofWords [12]) fuel true (fun _ => 255) 8
        ['%'.toUInt8, '5'.toUInt8, 'd'.toUInt8] = some r) ∧ ∀ i, r.buf i = 255 := by
  obtain ⟨⟨n, r, hRun, hChanged⟩, -⟩ := format_safe (.ofWords [12]) true (fun _ => 255) 8
    ['%'.toUInt8, '5'.toUInt8, 'd'.toUInt8] (by decide)
  refine ⟨n, r, hRun, fun i => ?_⟩
  by_contra hNot
  exact Bool.noConfusion (hChanged i hNot).1

end Safety

/-- A smaller buffer holds the same characters up to its terminator, and the
result does not depend on the size. -/
theorem format_truncation (env : FormatEnv) {fmt : List UInt8} (hFmt : 0 ∉ fmt) {s s' : Nat}
    (hSize : 1 ≤ s) (hLess : s < s') {b b' : Nat → UInt8} (hSame : ∀ i, i < s - 1 → b i = b' i) :
    ∃ r r', FormatReturns env (some b) s fmt r ∧ FormatReturns env (some b') s' fmt r' ∧
      r.ret = r'.ret ∧ ∀ i, i < s - 1 → r.buf i = r'.buf i := by
  obtain ⟨m, indexed, hReturns⟩ := exists_returns_puts env hFmt
  refine ⟨_, _, hReturns (some b) s, hReturns (some b') s', ?_⟩
  have hMax (b : Nat → UInt8) (s : Nat) : ((Formatter.start (some b) s fmt).out.extend
      (indexed, putText env fmt)).max = s := Output.puts_max
  obtain ⟨hPos, hBuf⟩ : Output.InStep (s - 1)
      ((Formatter.start (some b) s fmt).out.extend (indexed, putText env fmt))
      ((Formatter.start (some b') s' fmt).out.extend (indexed, putText env fmt)) :=
    Output.InStep.puts ⟨rfl, hSame⟩ (Nat.sub_le s 1) (show s - 1 ≤ s' by omega)
  have hCount : ((Formatter.start (some b) s fmt).out.extend (indexed, putText env fmt)).count =
      ((Formatter.start (some b') s' fmt).out.extend (indexed, putText env fmt)).count := by
    rw [Output.count, Output.count, hPos]
  refine ⟨?_, fun i hi => ?_⟩
  · rw [ret_finish, ret_finish, hCount]
  · rw [buf_finish, buf_finish, hBuf i hi]
    simp only [hMax, hCount]
    -- the terminator of the smaller buffer is behind `i` or the same in both
    have hLast (n : Nat) : (0 < s ∧ i = min n (s - 1)) ↔ (0 < s' ∧ i = min n (s' - 1)) := by
      omega
    simp only [hLast]

/-- `"%s"` with the string of a null pointer in buffers of 3 and of 8 bytes. -/
theorem format_truncation_null_string :
    ∃ r r', FormatReturns (.ofWords [0]) (some fun _ => 255) 3 ['%'.toUInt8, 's'.toUInt8] r ∧
      FormatReturns (.ofWords [0]) (some fun _ => 255) 8 ['%'.toUInt8, 's'.toUInt8] r' ∧
      r.ret = r'.ret ∧ ∀ i, i < 3 - 1 → r.buf i = r'.buf i :=
  format_truncation (.ofWords [0]) (by decide) (by decide) (by decide) fun _ _ => rfl

end DoraOS
