import Mathlib.Data.BitVec

/-! The formatter of `common/salof/format.c`, a small `vsnprintf`. `dos_char` is
an unsigned byte, as on the target. Signed arithmetic that leaves its 32 bits
wraps around, and a conversion to a narrower type keeps the low bits. -/
namespace DoraOS

/-- What the formatter reads besides the format: the words of the argument list
and whatever lies behind them, the characters of the string at an address, and
the byte at a distance from the start of one of the two digit tables. -/
structure FormatEnv where
  args : Nat → BitVec 32
  string : BitVec 32 → List UInt8
  string_nonzero : ∀ p, 0 ∉ string p
  memory : Bool → Int → UInt8

def FormatEnv.ofWords (words : List (BitVec 32)) : FormatEnv where
  args i := words.getD i 0
  string _ := []
  string_nonzero _ := List.not_mem_nil
  memory _ _ := '?'.toUInt8

def toInt32 (x : Int) : Int := x.bmod (2 ^ 32)

def isDigit (c : UInt8) : Bool := '0'.toUInt8 ≤ c && c ≤ '9'.toUInt8

def atoiStep (n : Int) (c : UInt8) : Int := toInt32 (n * 10 + c.toNat - '0'.toNat)

/-- `_dos_get_atoi` with the number read so far. There is no result if it reads
behind the terminator of the format. -/
def dosGetAtoi (n : Int) : List UInt8 → Option (Int × List UInt8)
  | [] => none
  | c :: rest => if isDigit c then dosGetAtoi (atoiStep n c) rest else some (n, c :: rest)

section Output

/-- The buffer with its size and the position. `text` collects all characters
that were put, and `indexed` the places of the digit tables that were read, each
with the base. No function reads these two. -/
structure Output where
  buf : Nat → UInt8
  max : Nat
  pos : Nat := 0
  text : List UInt8 := []
  indexed : List (Int × Nat) := []

namespace Output

variable (o : Output)

def store (i : Nat) (c : UInt8) : Output :=
  { o with buf := fun j => if j = i then c else o.buf j }

def dosBuffPutChar (c : UInt8) : Output :=
  let o₁ := if o.pos < o.max then o.store o.pos c else o
  { o₁ with pos := (o.pos + 1) % 2 ^ 32, text := o.text ++ [c] }

def puts (cs : List UInt8) : Output := cs.foldl dosBuffPutChar o

/-- A padding loop `while (npad-- > 0)`. -/
def pad (npad : Int) (c : UInt8) : Output := o.puts (List.replicate npad.toNat c)

end Output

structure FormatFlags where
  alternate : Bool := false
  zeropad : Bool := false
  left : Bool := false
  space : Bool := false
  plus : Bool := false
  signed : Bool := false
  small : Bool := false
  deriving DecidableEq

/-- A read of a digit table. The string literal has 16 digits and a
terminator. -/
def FormatEnv.digit (env : FormatEnv) (small : Bool) (i : Int) : UInt8 :=
  if 0 ≤ i ∧ i < 10 then '0'.toUInt8 + UInt8.ofNat i.toNat
  else if 10 ≤ i ∧ i < 16 then
    (if small then 'a'.toUInt8 else 'A'.toUInt8) + UInt8.ofNat (i.toNat - 10)
  else if i = 16 then 0
  else env.memory small i

/-- The indices that the `do` loop of `_dos_format_int` uses, the last digit
first. The buffer `nbuf` has room for `room` digits. -/
def digitLoop (base : Nat) : Nat → Int → List Int
  | 0, _ => []
  | room + 1, n =>
      n.tmod base :: if n.tdiv base > 0 then digitLoop base room (n.tdiv base) else []

def intValue (num : Int) (flags : FormatFlags) : Int :=
  if flags.signed ∧ num < 0 then toInt32 (-num) else toInt32 num

/-- The contents of `altb`, the sign and the prefix. -/
def intPrefix (num : Int) (base : Nat) (flags : FormatFlags) : List UInt8 :=
  (if flags.signed ∧ num < 0 then ['-'.toUInt8]
    else if flags.plus then ['+'.toUInt8]
    else if flags.space then [' '.toUInt8]
    else []) ++
  if flags.alternate then
    if base = 8 then ['0'.toUInt8]
    else if base = 16 then ['0'.toUInt8, if flags.small then 'x'.toUInt8 else 'X'.toUInt8]
    else []
  else []

/-- The end of `_dos_format_int`, which puts `altb` and the digits with the
padding. -/
def intField (o : Output) (npad : Int) (altb digits : List UInt8) (flags : FormatFlags) : Output :=
  let right := npad > 0 ∧ flags.left = false
  let o :=
    if right then
      let o := if flags.zeropad then o.puts altb else o
      o.pad npad (if flags.zeropad then '0'.toUInt8 else ' '.toUInt8)
    else o
  -- In front of a zero padding `altb` has been put and is empty now.
  let o := if right ∧ flags.zeropad then o else o.puts altb
  let o := o.puts digits
  if npad > 0 ∧ flags.left then o.pad npad ' '.toUInt8 else o

def dosFormatInt (env : FormatEnv) (o : Output) (num : Int) (base : Nat) (width : Int)
    (flags : FormatFlags) : Output :=
  if base < 2 ∨ base > 16 then o
  else
    let flags := if flags.left then { flags with zeropad := false } else flags
    let indices := digitLoop base 64 (intValue num flags)
    let nbuf := indices.map (env.digit flags.small)
    let altb := intPrefix num base flags
    let len : Int := nbuf.length + altb.length
    let npad := if width > len then width - len else 0
    let o := { o with indexed := o.indexed ++ indices.map fun i => (i, base) }
    intField o npad altb nbuf.reverse flags

/-- The common end of `_dos_format_char` and `_dos_format_str`: characters with
spaces in front of them or behind them. -/
def padded (o : Output) (npad : Int) (cs : List UInt8) (flags : FormatFlags) : Output :=
  let o := if npad ≠ 0 ∧ flags.left = false then o.pad npad ' '.toUInt8 else o
  let o := o.puts cs
  if npad ≠ 0 ∧ flags.left then o.pad npad ' '.toUInt8 else o

def dosFormatChar (o : Output) (c : UInt8) (width : Int) (flags : FormatFlags) : Output :=
  let npad := if width > 0 then width - 1 else 0
  let npad := if npad < 0 then 0 else npad
  padded o npad [c] flags

/-- `_dos_format_str`. The difference to the length is unsigned. -/
def dosFormatStr (o : Output) (s : List UInt8) (width : Int) (flags : FormatFlags) : Output :=
  let npad := if width > 0 then toInt32 (width - s.length) else 0
  let npad := if npad < 0 then 0 else npad
  padded o npad s flags

end Output

inductive FormatPhase where
  | default
  | flags
  | width
  | precis
  | length
  | conv
  deriving DecidableEq

/-- The `L_` length flags. -/
def lChar : Nat := 1
def lShort : Nat := 2
def lLong : Nat := 3
def lLlong : Nat := 4
def lDouble : Nat := 5

inductive FetchUse where
  | width
  | precision
  | conv (c : UInt8)
  deriving DecidableEq

/-- A `va_arg`: its purpose, the place of its first word and the number of
words. -/
structure Fetch where
  use : FetchUse
  place : Nat
  words : Nat
  deriving DecidableEq

/-- The locals of `dos_format_nstr`. `fmt` is the format from the pointer on, with
its terminator; `ap` counts the words that were fetched. The values that the
source leaves open are assigned before they are read. `fetched` records the uses
of `va_arg`, and no function reads it. -/
structure Formatter where
  fmt : List UInt8
  out : Output
  ap : Nat := 0
  state : FormatPhase := .default
  flags : FormatFlags := {}
  width : Int := 0
  precision : Int := 0
  lflags : Nat := 0
  fetched : List Fetch := []

def FormatEnv.int32 (env : FormatEnv) (ap : Nat) : Int := (env.args ap).toInt

/-- `va_arg` of a `dos_int64`, the low word first. -/
def FormatEnv.int64 (env : FormatEnv) (ap : Nat) : Int := (env.args (ap + 1) ++ env.args ap).toInt

/-- The flag that a character of `S_FLAGS` sets. The characters `'` and `I` are
skipped. -/
def setFlag (flags : FormatFlags) (c : UInt8) : Option FormatFlags :=
  if c = '#'.toUInt8 then some { flags with alternate := true }
  else if c = '0'.toUInt8 then some { flags with zeropad := true }
  else if c = '-'.toUInt8 then some { flags with left := true }
  else if c = ' '.toUInt8 then some { flags with space := true }
  else if c = '+'.toUInt8 then some { flags with plus := true }
  else if c = 39 ∨ c = 'I'.toUInt8 then some flags
  else none

/-- The length flags behind a character of `S_LENGTH`. -/
def setLength (lflags : Nat) (c : UInt8) : Option Nat :=
  if c = 'h'.toUInt8 then some (if lflags = lChar then lShort else lChar)
  else if c = 'l'.toUInt8 then some (if lflags = lLong then lLlong else lLong)
  else if c = 'L'.toUInt8 then some lDouble
  else none

def isSigned (c : UInt8) : Bool := c = 'd'.toUInt8 || c = 'i'.toUInt8

def isInteger (c : UInt8) : Bool :=
  isSigned c || c = 'o'.toUInt8 || c = 'b'.toUInt8 || c = 'u'.toUInt8 || c = 'x'.toUInt8 ||
    c = 'X'.toUInt8

def integerWords (lflags : Nat) : Nat :=
  if lflags = lLong then 1 else if lflags &&& (lLlong ||| lDouble) ≠ 0 then 2 else 1

/-- The number that an integer conversion formats. -/
def FormatEnv.integer (env : FormatEnv) (lflags : Nat) (c : UInt8) (ap : Nat) : Int :=
  if lflags = lLong then env.int32 ap
  else if lflags &&& (lLlong ||| lDouble) ≠ 0 then env.int64 ap
  else if isSigned c then env.int32 ap
  else (env.args ap).toNat

def integerBase (c : UInt8) : Nat :=
  if c = 'x'.toUInt8 ∨ c = 'X'.toUInt8 then 16
  else if c = 'o'.toUInt8 then 8
  else if c = 'b'.toUInt8 then 2
  else 10

def integerFlags (flags : FormatFlags) (c : UInt8) : FormatFlags :=
  if isSigned c then { flags with signed := true }
  else if c = 'x'.toUInt8 then { flags with small := true }
  else flags

def FormatEnv.stringArg (env : FormatEnv) (ap : Nat) : List UInt8 :=
  if env.args ap = 0 then "(null)".toList.map Char.toUInt8 else env.string (env.args ap)

def FormatEnv.charArg (env : FormatEnv) (ap : Nat) : UInt8 := UInt8.ofNat (env.args ap).toNat

namespace Formatter

variable (env : FormatEnv) (m : Formatter)

/-- The progress of the argument list. -/
def fetch (use : FetchUse) (words : Nat) : Formatter :=
  { m with ap := m.ap + words, fetched := m.fetched ++ [⟨use, m.ap, words⟩] }

/-- `S_CONV` with the character `c`, and the value of `c` behind it. -/
def convert (c : UInt8) : Formatter × UInt8 :=
  if isInteger c then
    let flags := integerFlags m.flags c
    ({ m.fetch (.conv c) (integerWords m.lflags) with
        flags := flags
        out := dosFormatInt env m.out (env.integer m.lflags c m.ap) (integerBase c) m.width flags },
      c)
  else if c = 'p'.toUInt8 then
    let flags := { m.flags with small := true, alternate := true }
    ({ m.fetch (.conv c) 1 with
        flags := flags
        out := dosFormatInt env m.out (env.int32 m.ap) 16 m.width flags }, c)
  else if c = 's'.toUInt8 then
    ({ m.fetch (.conv c) 1 with
        out := dosFormatStr m.out (env.stringArg m.ap) m.width m.flags }, c)
  else if c = 'c'.toUInt8 then
    ({ m.fetch (.conv c) 1 with
        out := dosFormatChar m.out (env.charArg m.ap) m.width m.flags }, env.charArg m.ap)
  else if c = '%'.toUInt8 then ({ m with out := m.out.dosBuffPutChar c }, c)
  else ({ m with out := (m.out.dosBuffPutChar '%'.toUInt8).dosBuffPutChar c }, c)

def notNegative (x : Int) : Int := if x < 0 then 0 else x

/-- One turn of the loop of `dos_format_nstr`, with the value of `c` at its end.
Where the source steps the pointer back, `fmt` stays as it was. There is no result
if the format is read behind its terminator. -/
def step : Option (Formatter × UInt8) :=
  match m.fmt with
  | [] => none
  | c :: rest =>
      match m.state with
      | .default =>
          if c = '%'.toUInt8 then some ({ m with fmt := rest, state := .flags, flags := {} }, c)
          else some ({ m with fmt := rest, out := m.out.dosBuffPutChar c }, c)
      | .flags =>
          match setFlag m.flags c with
          | some flags => some ({ m with fmt := rest, flags := flags }, c)
          | none => some ({ m with width := 0, state := .width }, c)
      | .width =>
          if c = '*'.toUInt8 then
            let width := env.int32 m.ap
            let m := { m.fetch .width 1 with fmt := rest }
            if width < 0 then
              some ({ m with width := toInt32 (-width), flags := { m.flags with left := true } }, c)
            else some ({ m with width := width }, c)
          else if isDigit c ∧ '0'.toUInt8 < c then
            (dosGetAtoi 0 (c :: rest)).map fun r => ({ m with width := r.1, fmt := r.2 }, c)
          else some ({ m with precision := -1, state := .precis }, c)
      | .precis =>
          let m := { m with lflags := 0, state := .length }
          if c = '.'.toUInt8 then
            match rest with
            | [] => none
            | d :: _ =>
                if isDigit d then
                  (dosGetAtoi 0 rest).map fun r =>
                    ({ m with precision := notNegative r.1, fmt := r.2 }, c)
                else if d = '*'.toUInt8 then
                  some ({ m.fetch .precision 1 with
                    precision := notNegative (env.int32 m.ap), fmt := rest }, c)
                else some ({ m with precision := notNegative m.precision, fmt := rest }, c)
          else some (m, c)
      | .length =>
          match setLength m.lflags c with
          | some lflags => some ({ m with fmt := rest, lflags := lflags }, c)
          | none => some ({ m with state := .conv }, c)
      | .conv =>
          let r := { m with fmt := rest, state := .default }.convert env c
          some (r.1, r.2)

/-- The loop of `dos_format_nstr`. It does not return with fewer rounds than it
needs. -/
def loop : Nat → Formatter → Option Formatter
  | 0, _ => none
  | fuel + 1, m =>
      match m.step env with
      | none => none
      | some (m', c) => if c = 0 then some m' else loop fuel m'

end Formatter

/-- What `dos_format_nstr` leaves: its result, the buffer, and the locals at the
end of the loop. -/
structure Formatted where
  ret : Int
  buf : Nat → UInt8
  last : Formatter

def Output.count (o : Output) : Nat := (o.pos + (2 ^ 32 - 1)) % 2 ^ 32

def Formatter.finish (m : Formatter) : Formatted :=
  let n := m.out.count
  let o :=
    if n < m.out.max then m.out.store n 0
    else if m.out.max > 0 then m.out.store (m.out.max - 1) 0
    else m.out
  { ret := toInt32 n, buf := o.buf, last := m }

/-- The locals of `dos_format_nstr` in front of its loop. A null pointer has no
buffer. -/
def Formatter.start (buf : Option (Nat → UInt8)) (size : Nat) (fmt : List UInt8) : Formatter where
  fmt := fmt ++ [0]
  out := { buf := buf.getD fun _ => 0, max := if buf.isSome then size else 0 }

/-- `dos_format_nstr` with the format `fmt` in front of its terminator. -/
def dosFormatNstr (env : FormatEnv) (fuel : Nat) (buf : Option (Nat → UInt8)) (size : Nat)
    (fmt : List UInt8) : Option Formatted :=
  (Formatter.loop env fuel (.start buf size fmt)).map Formatter.finish

end DoraOS
