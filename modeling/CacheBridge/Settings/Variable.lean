import CacheBridge.Text.Blank

/-!
The four variables that settings are read from, in the order in which they are looked up, and the
number grammar of their values: blanks at both ends are ignored, one plus sign may come first, and
then there are one or more ASCII digits whose value fits in a 64-bit word. Leading zeros are
allowed, in any number.
-/

namespace CacheBridge

inductive Variable where
  | closePoll
  | closeTimeout
  | maxEntries
  | defaultTtl
  deriving DecidableEq, Inhabited

namespace Variable

def name : Variable → String
  | closePoll => "CONDUIT_CLOSE_POLL_MS"
  | closeTimeout => "CONDUIT_CLOSE_TIMEOUT_MS"
  | maxEntries => "CONDUIT_CACHE_MAX_ENTRIES"
  | defaultTtl => "CONDUIT_DEFAULT_TTL_MS"

def all : List Variable := [closePoll, closeTimeout, maxEntries, defaultTtl]

end Variable

namespace Settings

/-- Numbers at or beyond this do not fit in a word. -/
def wordLimit : Nat := 0x10000000000000000

def digit? (c : Char) : Option Nat :=
  if 48 ≤ c.toNat ∧ c.toNat ≤ 57 then some (c.toNat - 48) else none

/-- The value of a row of digits that follow `high`; nothing if one is no digit. -/
def digits? (high : Nat) : List Char → Option Nat
  | [] => some high
  | c :: cs => (digit? c).bind fun d => digits? (10 * high + d) cs

/-- One or more digits. -/
def decimal? : List Char → Option Nat
  | [] => none
  | c :: cs => digits? 0 (c :: cs)

/-- Takes off one leading plus sign. -/
def unsigned : List Char → List Char
  | '+' :: cs => cs
  | cs => cs

/-- Reads the value of a setting. -/
def number? (raw : String) : Option Nat :=
  (decimal? (unsigned (Text.trim raw.toList))).filter (· < wordLimit)

end Settings

end CacheBridge
