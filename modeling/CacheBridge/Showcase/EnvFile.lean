import CacheBridge.Table
import CacheBridge.Text.Alphanumeric
import CacheBridge.Text.Blank

/-!
Files of variables. A file holds assignments `name=value`, one for each line; a quoted value may
go on over several lines. Values may be quoted strongly or weakly, hold escapes, and name earlier
variables as `$name` or `${name}`. Blanks and comments are skipped. Loading a file sets the
variables that are not set yet, in order, up to the first line that is malformed.
-/

namespace CacheBridge.EnvFile

/-! ## Lines -/

/-- Where a character stands that ends a piece of text. -/
inductive Mode where
  | plain
  | blank
  | escape
  | strong
  | strongEscape
  | weak
  | weakEscape
  deriving DecidableEq, Inhabited

/-- The mode after a character; nothing if a comment begins with it. -/
def Mode.next? (c : Char) : Mode → Option Mode
  | plain =>
    if Text.isBlank c && c != '\n' && c != '\r' then some blank else some (opening c)
  | blank => if c = '#' then none else some (opening c)
  | escape => some plain
  | weak => some (if c = '\\' then weakEscape else if c = '"' then plain else weak)
  | weakEscape => some weak
  | strong => some (if c = '\\' then strongEscape else if c = '\'' then plain else strong)
  | strongEscape => some strong
where
  opening (c : Char) : Mode :=
    if c = '\\' then escape else if c = '"' then weak else if c = '\'' then strong else plain

/-- The text before a comment, and the mode at the end of the text if there is none. -/
def uncomment : Mode → List Char → List Char × Option Mode
  | m, [] => ([], some m)
  | m, c :: cs =>
    match m.next? c with
    | none => ([], none)
    | some m => let (kept, e) := uncomment m cs; (c :: kept, e)

/-- The lines of a text, each with its line feed. -/
def physicalLines : List Char → List (List Char)
  | [] => []
  | '\n' :: cs => ['\n'] :: physicalLines cs
  | c :: cs =>
    match physicalLines cs with
    | [] => [[c]]
    | line :: lines => (c :: line) :: lines

/-- Takes the line feed off the end of a line, and a carriage return before it. -/
def chomp (line : List Char) : List Char :=
  match line.reverse with
  | '\n' :: '\r' :: rest => rest.reverse
  | '\n' :: rest => rest.reverse
  | _ => line

/-- Joins the lines that belong together. `none` stands for a text that ends within a quote, an
escape or a blank. -/
def logicalLines (m : Mode) (held : List Char) : List (List Char) → List (Option (List Char))
  | [] => if m = .plain then [] else [none]
  | line :: lines =>
    let all := held ++ line
    if (Text.trimStart all).head? = some '#' then some [] :: logicalLines .plain [] lines
    else match uncomment m line with
      | (kept, none) => some (held ++ kept) :: logicalLines .plain [] lines
      | (_, some .plain) => some (chomp all) :: logicalLines .plain [] lines
      | (_, some m) => logicalLines m all lines

/-! ## Values -/

/-- What the reader of a value is in the middle of. -/
inductive Reading where
  | text
  /-- Behind the value: only a comment may follow. -/
  | ending
  | escape
  | strong
  /-- The name of a variable, so far, without braces. -/
  | name (n : List Char)
  /-- The name of a variable, so far, in braces. -/
  | braced (n : List Char)

/-- What an escaped character stands for. -/
def unescape? (c : Char) : Option Char :=
  if c = 'n' then some '\n'
  else if c = '\\' ∨ c = '\'' ∨ c = '"' ∨ c = '$' ∨ c = ' ' then some c
  else none

variable (vars : Table String)

def look (name : List Char) : List Char := ((vars.get? (String.ofList name)).getD "").toList

/-- Reads the rest of a value. `weak` tells whether a weak quote is open. -/
def value? (weak : Bool) : Reading → List Char → Option (List Char)
  | .text, [] | .escape, [] => if weak then none else some []
  | .ending, [] => some []
  | .name n, [] => if weak then none else some (look vars n)
  | .strong, [] | .braced _, [] => none
  | .ending, c :: cs =>
    if c = ' ' ∨ c = '\t' then value? weak .ending cs else if c = '#' then some [] else none
  | .escape, c :: cs => do return (← unescape? c) :: (← value? weak .text cs)
  | .strong, c :: cs =>
    if c = '\'' then value? weak .text cs else (value? weak .strong cs).map (c :: ·)
  | .name n, c :: cs =>
    if Text.isAlphanumeric c then value? weak (.name (n ++ [c])) cs
    else if c = '\x7b' ∧ n = [] then value? weak (.braced []) cs
    else if c = '$' then (value? weak (.name []) cs).map (look vars n ++ ·)
    else (value? weak .text cs).map (look vars n ++ c :: ·)
  | .braced n, c :: cs =>
    if c = '\x7d' then (value? weak .text cs).map (look vars n ++ ·)
    else value? weak (.braced (n ++ [c])) cs
  | .text, c :: cs =>
    if c = '$' then value? weak (.name []) cs
    else if c = '\\' then value? weak .escape cs
    else if c = '"' then value? (!weak) .text cs
    else if weak then (value? weak .text cs).map (c :: ·)
    else if c = '\'' then value? weak .strong cs
    else if c = ' ' ∨ c = '\t' then value? weak .ending cs
    else (value? weak .text cs).map (c :: ·)

/-! ## Assignments -/

/-- A line: nothing, an assignment, or malformed. -/
inductive Line where
  | empty
  | assignment (name value : String)
  | malformed

def isKeyStart (c : Char) : Bool := c.isAlpha || c == '_'

def isKeyChar (c : Char) : Bool := c.isAlphanum || c == '_' || c == '.'

/-- The name at the beginning of a text, and the rest without leading blanks. -/
def key? (cs : List Char) : Option (List Char × List Char) :=
  if cs.head?.any isKeyStart then
    some (cs.takeWhile isKeyChar, Text.trimStart (cs.dropWhile isKeyChar))
  else none

def afterEqual? : List Char → Option (List Char)
  | '=' :: cs => some (Text.trimStart cs)
  | _ => none

def isSkipped (cs : List Char) : Bool := cs.head?.all (· == '#')

/-- The name and the text of the value. A leading `export` is dropped, unless it is the name. -/
def split? (cs : List Char) : Option (List Char × List Char) := do
  let (name, rest) ← key? cs
  match afterEqual? rest with
  | some text => return (name, text)
  | none =>
    if name = "export".toList then
      let (name, rest) ← key? rest
      return (name, ← afterEqual? rest)
    else none

def parseLine (line : List Char) : Line :=
  let cs := Text.trimStart (Text.trimEnd line)
  if isSkipped cs then .empty
  else match split? cs with
    | none => .malformed
    | some (name, text) =>
      if isSkipped text then .assignment (String.ofList name) ""
      else match value? vars false .text text with
        | none => .malformed
        | some value => .assignment (String.ofList name) (String.ofList value)

/-- Sets the variables of the lines; tells whether all of them were well-formed. -/
def loadLines (vars : Table String) : List (Option (List Char)) → Table String × Bool
  | [] => (vars, true)
  | none :: _ => (vars, false)
  | some line :: lines =>
    match parseLine vars line with
    | .empty => loadLines vars lines
    | .malformed => (vars, false)
    | .assignment name value =>
      loadLines (if vars.has name then vars else vars.put name value) lines

/-- Drops a byte order mark. -/
def unmarked (cs : List Char) : List Char := if cs.head? = some '\uFEFF' then cs.tail else cs

/-- Loads a file into the variables. -/
def load (vars : Table String) (text : String) : Table String × Bool :=
  loadLines vars (logicalLines .plain [] (physicalLines (unmarked text.toList)))

end CacheBridge.EnvFile
