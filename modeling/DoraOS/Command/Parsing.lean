import Mathlib.Data.BitVec

/-! The command table of `common/cmd_parser/cmd.c`. The linker collects the
registered commands in a section and may leave zero words behind each of them; the
section is walked by skipping these. -/
namespace DoraOS

/-- The words at the addresses of the section and the characters of the strings,
with `_cmd_begin` and `_cmd_end`. All of it is only read. -/
structure CmdMemory where
  word : Nat → BitVec 32
  byte : Nat → UInt8
  cmdBegin : Nat
  cmdEnd : Nat

namespace CmdMemory

variable (mem : CmdMemory)

/-- The loop of `_get_next_cmd`. None of the loops returns with fewer rounds than it
needs. The word is read in front of the comparison with `_cmd_end`. -/
def skipZeros : Nat → Nat → Option Nat
  | 0, _ => none
  | fuel + 1, ptr =>
      if mem.word ptr = 0 ∧ ptr < mem.cmdEnd then skipZeros fuel (ptr + 4) else some ptr

/-- `_get_next_cmd`. A `cmd_t` has two words. -/
def getNextCmd (fuel cmd : Nat) : Option Nat := mem.skipZeros fuel (cmd + 8)

def cmdMatch : Nat → Nat → Nat → Option Int
  | 0, _, _ => none
  | fuel + 1, str, cmd =>
      if mem.byte str ≠ 0 ∧ mem.byte str = mem.byte cmd then cmdMatch fuel (str + 1) (cmd + 1)
      else some ((mem.byte str).toNat - (mem.byte cmd).toNat)

/-- The `for` loop over the commands, with what its body does at an index. -/
def forCmds {α : Type} (fuel : Nat) (body : Nat → Option (List α)) : Nat → Nat → Option (List α)
  | 0, _ => none
  | rounds + 1, index =>
      if index < mem.cmdEnd then
        (body index).bind fun done =>
          (mem.getNextCmd fuel index).bind fun next =>
            (forCmds fuel body rounds next).map (done ++ ·)
      else some []

/-- `cmd_parsing`: the handlers it calls, in their order. -/
def cmdParsing (fuel str : Nat) : Option (List (BitVec 32)) :=
  mem.forCmds fuel
    (fun index => (mem.cmdMatch fuel str (mem.word index).toNat).map fun diff =>
      if diff = 0 then [mem.word (index + 4)] else [])
    fuel mem.cmdBegin

def StringAt : Nat → List UInt8 → Prop
  | p, [] => mem.byte p = 0
  | p, c :: s => mem.byte p = c ∧ c ≠ 0 ∧ StringAt (p + 1) s

instance decidableStringAt : ∀ p s, Decidable (mem.StringAt p s)
  | _, [] => inferInstanceAs (Decidable (_ = _))
  | p, _ :: s =>
      have := decidableStringAt (p + 1) s
      inferInstanceAs (Decidable (_ ∧ _ ∧ _))

end CmdMemory

/-- A registered command: the two words, the name, and the number of zero words
behind it. -/
structure CmdEntry where
  cmd : BitVec 32
  handler : BitVec 32
  name : List UInt8
  padding : Nat

namespace CmdEntry

structure At (mem : CmdMemory) (p : Nat) (e : CmdEntry) : Prop where
  cmd : mem.word p = e.cmd
  cmd_ne : e.cmd ≠ 0
  handler : mem.word (p + 4) = e.handler
  name : mem.StringAt e.cmd.toNat e.name
  padding : ∀ i, i < e.padding → mem.word (p + 8 + 4 * i) = 0

def behind (p : Nat) (e : CmdEntry) : Nat := p + 8 + 4 * e.padding

/-- The handlers of the entries with a name, one entry after the other. -/
theorem flatMap_named (input : List UInt8) (entries : List CmdEntry) :
    (entries.flatMap fun e => if e.name = input then [e.handler] else []) =
      (entries.filter fun e => e.name = input).map handler := by
  induction entries with
  | nil => rfl
  | cons e rest ih =>
      rw [List.flatMap_cons, ih]
      by_cases hName : e.name = input
      · rw [if_pos hName, List.filter_cons_of_pos (by simpa using hName)]
        rfl
      · rw [if_neg hName, List.filter_cons_of_neg (by simpa using hName)]
        rfl

end CmdEntry

namespace CmdMemory

variable (mem : CmdMemory)

/-- The section holds these entries from an address on, up to `_cmd_end`. Nothing is
said of the word at `_cmd_end`. -/
def Holds : Nat → List CmdEntry → Prop
  | p, [] => p = mem.cmdEnd
  | p, e :: rest => e.At mem p ∧ Holds (e.behind p) rest

variable {mem} {p q : Nat} {e : CmdEntry} {entries : List CmdEntry}

theorem Holds.le (h : mem.Holds p entries) : p ≤ mem.cmdEnd := by
  induction entries generalizing p with
  | nil => exact Nat.le_of_eq h
  | cons e rest ih =>
      have hBehind := ih h.2
      rw [CmdEntry.behind] at hBehind
      omega

/-- At the end of the padding there is an entry or the end of the section. -/
theorem Holds.stops (h : mem.Holds p entries) : ¬ (mem.word p = 0 ∧ p < mem.cmdEnd) := by
  cases entries with
  | nil =>
      rintro ⟨-, hLess⟩
      exact absurd hLess (Nat.not_lt_of_le (Nat.le_of_eq h.symm))
  | cons e rest =>
      rintro ⟨hZero, -⟩
      exact h.1.cmd_ne (h.1.cmd.symm.trans hZero)

/-- The zero words are skipped. The induction is on their number. -/
theorem skipZeros_eq {n fuel : Nat} (hZero : ∀ i, i < n → mem.word (p + 4 * i) = 0)
    (hHolds : mem.Holds (p + 4 * n) entries) (hFuel : n < fuel) :
    mem.skipZeros fuel p = some (p + 4 * n) := by
  obtain ⟨fuel, rfl⟩ := Nat.exists_eq_succ_of_ne_zero (Nat.ne_zero_of_lt hFuel)
  induction n generalizing p fuel with
  | zero =>
      have hHere : mem.Holds p entries := hHolds
      exact if_neg hHere.stops
  | succ n ih =>
      have hBehind : p + 4 * (n + 1) = p + 4 + 4 * n := by omega
      have hLe := hHolds.le
      obtain ⟨fuel, rfl⟩ : ∃ k, fuel = k + 1 := ⟨fuel - 1, by omega⟩
      rw [skipZeros, if_pos ⟨hZero 0 (Nat.succ_pos n), by omega⟩, hBehind]
      refine ih ?_ (hBehind ▸ hHolds) _ (by omega)
      intro i hi
      rw [← hZero (i + 1) (by omega)]
      congr 1
      omega

theorem getNextCmd_eq (h : mem.Holds p (e :: entries)) {fuel : Nat} (hFuel : e.padding < fuel) :
    mem.getNextCmd fuel p = some (e.behind p) :=
  skipZeros_eq h.1.padding h.2 hFuel

/-- The comparison returns, and its result is zero for equal strings only. -/
theorem cmdMatch_eq {s t : List UInt8} (hs : mem.StringAt p s) (ht : mem.StringAt q t)
    {fuel : Nat} (hFuel : s.length < fuel) :
    ∃ diff, mem.cmdMatch fuel p q = some diff ∧ (diff = 0 ↔ t = s) := by
  obtain ⟨fuel, rfl⟩ := Nat.exists_eq_succ_of_ne_zero (Nat.ne_zero_of_lt hFuel)
  induction s generalizing t p q fuel with
  | nil =>
      have hEnd : mem.byte p = 0 := hs
      refine ⟨_, if_neg fun h => h.1 hEnd, ?_⟩
      rw [hEnd]
      cases t with
      | nil =>
          have hEnd' : mem.byte q = 0 := ht
          simp [hEnd']
      | cons d t =>
          have hByte : (mem.byte q).toNat ≠ 0 := by
            rw [ht.1]
            exact fun h => ht.2.1 (UInt8.toNat_inj.mp h)
          simp only [UInt8.toNat_zero, reduceCtorEq, iff_false]
          omega
  | cons c s ih =>
      obtain ⟨hByte, hChar, hRest⟩ := hs
      by_cases hSame : mem.byte p = mem.byte q
      · -- the string behind `q` goes on as well
        cases t with
        | nil => exact absurd (hByte.symm.trans (hSame.trans ht)) hChar
        | cons d t =>
            obtain ⟨fuel, rfl⟩ : ∃ k, fuel = k + 1 :=
              ⟨fuel - 1, by rw [List.length_cons] at hFuel; omega⟩
            have hHead : d = c := ht.1.symm.trans (hSame.symm.trans hByte)
            obtain ⟨diff, hDiff, hZero⟩ := ih hRest ht.2.2 _ (Nat.lt_of_succ_lt_succ hFuel)
            refine ⟨diff, ?_, ?_⟩
            · rw [cmdMatch, if_pos ⟨hByte ▸ hChar, hSame⟩, hDiff]
            · rw [hZero, hHead, List.cons_inj_right]
      · refine ⟨_, if_neg fun h => hSame h.2, ?_⟩
        have hNe : (mem.byte p).toNat ≠ (mem.byte q).toNat := fun h => hSame (UInt8.toNat_inj.mp h)
        constructor
        · intro hZero
          omega
        · rintro rfl
          exact absurd (hByte.trans ht.1.symm) hSame

/-- The loop comes to every entry once and in the order of the section. -/
theorem forCmds_eq {α : Type} {body : Nat → Option (List α)} {f : CmdEntry → List α}
    {fuel rounds : Nat} (hHolds : mem.Holds p entries)
    (hBody : ∀ p, ∀ e ∈ entries, e.At mem p → body p = some (f e))
    (hPadding : ∀ e ∈ entries, e.padding < fuel) (hRounds : entries.length < rounds) :
    mem.forCmds fuel body rounds p = some (entries.flatMap f) := by
  obtain ⟨rounds, rfl⟩ := Nat.exists_eq_succ_of_ne_zero (Nat.ne_zero_of_lt hRounds)
  induction entries generalizing p rounds with
  | nil => rw [forCmds, if_neg (Nat.not_lt_of_le (Nat.le_of_eq hHolds.symm)), List.flatMap_nil]
  | cons e rest ih =>
      have hInside : p < mem.cmdEnd := by
        have hLe := hHolds.2.le
        rw [CmdEntry.behind] at hLe
        omega
      obtain ⟨rounds, rfl⟩ : ∃ k, rounds = k + 1 :=
        ⟨rounds - 1, by rw [List.length_cons] at hRounds; omega⟩
      have hRest := ih hHolds.2 (fun p e he => hBody p e (List.mem_cons_of_mem _ he))
        (fun e he => hPadding e (List.mem_cons_of_mem _ he)) rounds (Nat.lt_of_succ_lt_succ hRounds)
      rw [forCmds, if_pos hInside, hBody p e List.mem_cons_self hHolds.1, Option.bind_some,
        getNextCmd_eq hHolds (hPadding e List.mem_cons_self), Option.bind_some, hRest,
        Option.map_some, List.flatMap_cons]

/-- Enough rounds for all paddings. -/
theorem exists_padding_lt (entries : List CmdEntry) : ∃ n, ∀ e ∈ entries, e.padding < n := by
  induction entries with
  | nil => exact ⟨0, List.forall_mem_nil _⟩
  | cons e rest ih =>
      obtain ⟨n, hn⟩ := ih
      refine ⟨n + e.padding + 1, ?_⟩
      intro e' he
      rcases List.mem_cons.mp he with rfl | hRest
      · omega
      · have hLess := hn e' hRest
        omega

end CmdMemory

/-- `cmd_parsing` returns and has called the handlers of the entries with the given
name, in the order of the section. -/
theorem cmdParsing_exact {mem : CmdMemory} {entries : List CmdEntry}
    (hSection : mem.Holds mem.cmdBegin entries) {str : Nat} {input : List UInt8}
    (hStr : mem.StringAt str input) :
    ∃ n, ∀ fuel, n ≤ fuel → mem.cmdParsing fuel str =
      some ((entries.filter fun e => e.name = input).map CmdEntry.handler) := by
  obtain ⟨n, hPadding⟩ := CmdMemory.exists_padding_lt entries
  refine ⟨n + entries.length + input.length + 1, fun fuel hFuel => ?_⟩
  have hBody (p : Nat) (e : CmdEntry) (_ : e ∈ entries) (hAt : e.At mem p) :
      ((mem.cmdMatch fuel str (mem.word p).toNat).map fun diff =>
        if diff = 0 then [mem.word (p + 4)] else []) =
      some (if e.name = input then [e.handler] else []) := by
    obtain ⟨diff, hDiff, hZero⟩ := CmdMemory.cmdMatch_eq hStr hAt.name
      (show input.length < fuel by omega)
    rw [hAt.cmd, hDiff, Option.map_some, hAt.handler]
    simp only [hZero]
  rw [← CmdEntry.flatMap_named]
  exact CmdMemory.forCmds_eq hSection hBody
    (fun e he => Nat.lt_of_lt_of_le (hPadding e he) (show n ≤ fuel by omega))
    (show entries.length < fuel by omega)

/-- The commands `a` and `ab` with a zero word between them, and the string `"ab"`. -/
theorem cmdParsing_exact_ab :
    ∃ n, ∀ fuel, n ≤ fuel → CmdMemory.cmdParsing
      { word := fun p => [0x200, 0x1000, 0, 0x202, 0x1004].getD ((p - 0x100) / 4) 7
        byte := fun p => ['a'.toUInt8, 0, 'a'.toUInt8, 'b'.toUInt8].getD (p - 0x200) 0
        cmdBegin := 0x100
        cmdEnd := 0x114 } fuel 0x202 = some [0x1004] := by
  let mem : CmdMemory :=
    { word := fun p => [0x200, 0x1000, 0, 0x202, 0x1004].getD ((p - 0x100) / 4) 7
      byte := fun p => ['a'.toUInt8, 0, 'a'.toUInt8, 'b'.toUInt8].getD (p - 0x200) 0
      cmdBegin := 0x100
      cmdEnd := 0x114 }
  have hSection : mem.Holds mem.cmdBegin
      [⟨0x200, 0x1000, ['a'.toUInt8], 1⟩, ⟨0x202, 0x1004, ['a'.toUInt8, 'b'.toUInt8], 0⟩] :=
    ⟨⟨by decide, by decide, by decide, by decide, by decide⟩,
      ⟨by decide, by decide, by decide, by decide, by decide⟩, rfl⟩
  have hStr : mem.StringAt 0x202 ['a'.toUInt8, 'b'.toUInt8] := by decide
  exact cmdParsing_exact hSection hStr

end DoraOS
