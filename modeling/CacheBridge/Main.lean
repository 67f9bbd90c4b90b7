import CacheBridge.Showcase

/-!
The command line: runs the showcase with the variables of the process and the file `.env` of the
working directory, or else of the nearest directory above it that has one.
-/

namespace CacheBridge

/-- The variables that the showcase looks at. -/
def watchedVariables : List String := Showcase.filterVariable :: Variable.all.map Variable.name

def environment : IO (Table String) :=
  watchedVariables.foldlM (fun vars name => do
    return match ← IO.getEnv name with
      | some value => vars.put name value
      | none => vars) Table.empty

/-- The name of the file of variables, seen from `depth` directories below it. -/
def envFileAbove (depth : Nat) : String := String.join (List.replicate depth "../") ++ ".env"

/-- The text of the first of some files that can be read. -/
def readFirst : List String → IO (Option String)
  | [] => return none
  | name :: names => do
    try return some (← IO.FS.readFile name)
    catch _ => readFirst names

/-- How many directories above the working directory are searched. -/
def height : Nat := 64

def envFile : IO (Option String) := readFirst ((List.range (height + 1)).map envFileAbove)

end CacheBridge

open CacheBridge in
def main : IO UInt32 := do
  let vars ← environment
  let course := Showcase.course vars (← envFile)
  for line in Showcase.shown vars course do
    IO.println (line.severity.name ++ " " ++ line.origin ++ ": " ++ line.text)
  for line in course.complaint do
    IO.eprintln line
  return course.exitCode.toUInt32
