import CacheBridge.Notice
import CacheBridge.Text.Blank

/-!
Log filters. A filter is a list of directives, each of which sets a threshold for all origins or
for those that begin with its target; the longest target that fits decides, and what no directive
fits is not shown. An empty filter shows errors only.
-/

namespace CacheBridge

/-- How much is shown: nothing at zero, everything at five. -/
abbrev Threshold := Nat

/-- The threshold from which on a severity is shown. -/
def Severity.threshold : Severity → Threshold
  | error => 1
  | warn => 2
  | info => 3
  | debug => 4

structure Directive where
  target : List Char
  threshold : Threshold
  deriving DecidableEq, Inhabited

abbrev LogFilter := List Directive

namespace LogFilter

def showsAll : Threshold := 5

/-- The names of the thresholds; small letters or capitals make no difference. -/
def threshold? (word : List Char) : Option Threshold :=
  match String.ofList (word.map Char.toLower) with
  | "off" | "0" => some 0
  | "error" | "1" => some 1
  | "warn" | "2" => some 2
  | "info" | "3" => some 3
  | "debug" | "4" => some 4
  | "trace" | "5" => some 5
  | _ => none

def isTargetStart (c : Char) : Bool := c.isAlphanum || c == '-' || c == ':' || c == '_'

/-- A threshold for all, a target that shows everything, or a target with its threshold. -/
def directive? (word : List Char) : Option Directive :=
  if !word.head?.any isTargetStart then none
  else
    let target := word.takeWhile (· != '=')
    match word.dropWhile (· != '=') with
    | [] => some ((threshold? word).elim ⟨word, showsAll⟩ fun t => ⟨[], t⟩)
    | _ :: [] => some ⟨target, showsAll⟩
    | _ :: name => (threshold? name).map fun t => ⟨target, t⟩

/-- The parts of a text between commas. -/
def parts : List Char → List (List Char)
  | [] => [[]]
  | ',' :: cs => [] :: parts cs
  | c :: cs =>
    match parts cs with
    | [] => [[c]]
    | p :: ps => (c :: p) :: ps

/-- Reads a filter; nothing if one of its directives is malformed. -/
def parse? (text : String) : Option LogFilter := do
  let words := (parts text.toList).filter (· ≠ [])
  if words.isEmpty then return [⟨[], 1⟩]
  words.mapM fun word => directive? (Text.trim word)

def standard : LogFilter := [⟨[], 3⟩]

/-- The filter that a variable asks for. -/
def ofVariable (value : Option String) : LogFilter := (value.bind parse?).getD standard

/-- The threshold for an origin: of the directives that fit, the one with the longest target, and
of equal targets the last. -/
def thresholdFor (f : LogFilter) (origin : String) : Threshold :=
  let fitting := f.filter fun d => d.target.isPrefixOf origin.toList
  let best := fitting.foldl (fun (best : Option Directive) d =>
    if best.any (d.target.length < ·.target.length) then best else some d) none
  best.elim 0 (·.threshold)

def shows (f : LogFilter) (origin : String) (s : Severity) : Bool :=
  s.threshold ≤ f.thresholdFor origin

end LogFilter

end CacheBridge
