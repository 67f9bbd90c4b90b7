import CacheBridge.Text.Extender
import CacheBridge.Time

/-!
Values as they are shown in notices and reports.

Records have named fields; a value may be absent. A span of time is shown in the largest of the
units second, millisecond, microsecond and nanosecond whose count is not zero, with a decimal
fraction that has no trailing zeros.

A quoted string stands between double quotes; tab, line feed, carriage return, NUL, backslash and
double quote have a short escape, and what would not show on its own (unprintable characters and
grapheme extenders) is written by its code point. Quoted bytes are marked by a `b` and write every
byte outside printable ASCII by its two hexadecimal digits.
-/

namespace CacheBridge.Text

/-- A record: its name, then its fields in order between braces. -/
def record (name : String) (fields : List (String × String)) : String :=
  let parts := fields.map fun (label, value) => label ++ ": " ++ value
  name ++ " \x7b " ++ String.intercalate ", " parts ++ " \x7d"

/-- A value that may be absent. -/
def optional : Option String → String
  | none => "None"
  | some value => "Some(" ++ value ++ ")"

def truth (b : Bool) : String := if b then "true" else "false"

/-! ## Spans of time -/

/-- The fraction `part / 10 ^ places` behind a decimal point, or nothing if it is zero. -/
def fraction (places part : Nat) : List Char :=
  let digits := Nat.toDigits 10 part
  let padded := List.replicate (places - digits.length) '0' ++ digits
  if part = 0 then [] else '.' :: (padded.reverse.dropWhile (· == '0')).reverse

/-- `value` counted in a unit of `10 ^ places`, followed by the name of the unit. -/
def inUnit (value places : Nat) (unit : String) : String :=
  let whole := Nat.pow 10 places
  String.ofList (Nat.toDigits 10 (value / whole) ++ fraction places (value % whole)) ++ unit

def span (d : Nat) : String :=
  if Time.second ≤ d then inUnit d 9 "s"
  else if Time.millisecond ≤ d then inUnit d 6 "ms"
  else if 1000 ≤ d then inUnit d 3 "µs"
  else inUnit d 0 "ns"

example : span 0 = "0ns" := by decide +kernel
example : span 1500000 = "1.5ms" := by decide +kernel
example : span Time.longest = "18446744073709551615.999999999s" := by decide +kernel

/-! ## Quoted texts -/

/-- The short escapes that strings and bytes share. -/
def shortEscape? (n : Nat) : Option Char :=
  match n with
  | 0 => some '0'
  | 9 => some 't'
  | 10 => some 'n'
  | 13 => some 'r'
  | 34 => some '"'
  | 92 => some '\\'
  | _ => none

/-- One character of a quoted string. -/
def escapeChar (c : Char) : List Char :=
  match shortEscape? c.toNat with
  | some e => ['\\', e]
  | none =>
    if !isExtender c && isPrintable c then [c]
    else "\\u\x7b".toList ++ Nat.toDigits 16 c.toNat ++ ['\x7d']

/-- A string between double quotes. -/
def quoted (s : String) : String :=
  String.ofList ('"' :: s.toList.flatMap escapeChar ++ ['"'])

/-- The two hexadecimal digits of a byte. -/
def hexPair (b : UInt8) : List Char :=
  [Nat.digitChar (b.toNat / 16), Nat.digitChar (b.toNat % 16)]

/-- One byte of a quoted byte string. -/
def escapeByte (b : UInt8) : List Char :=
  match shortEscape? b.toNat with
  | some e => ['\\', e]
  | none => if 32 ≤ b.toNat && b.toNat ≤ 126 then [Char.ofNat b.toNat] else '\\' :: 'x' :: hexPair b

/-- Bytes between double quotes, after a `b`. -/
def quotedBytes (bs : List UInt8) : String :=
  String.ofList ('b' :: '"' :: bs.flatMap escapeByte ++ ['"'])

end CacheBridge.Text
