import CacheBridge.Failure
import CacheBridge.Table

/-!
A workbench for failures: named registers, each holding a failure of one generation or a fault,
and steps that make new ones from old ones. Every step that raises an error gives it a number that
no fault had before; all other steps hand on the number they find.
-/

namespace CacheBridge.Workbench

/-- What a register holds. -/
inductive Specimen where
  | failure (g : Generation) (e : Failure g)
  | fault (f : Fault)
  deriving Inhabited

namespace Specimen

def cause : Specimen → Cause
  | failure _ e => e.cause
  | fault f => f.asCause

def convert? : Specimen → Option Specimen
  | failure g e => some (.failure g.other (e.as g.other))
  | fault _ => none

/-- The fault that a failure carries. -/
def carried? : Specimen → Option Fault
  | failure _ (.backend f) => some f
  | _ => none

/-- Equality, asked of two specimens of one type only. -/
def same? : Specimen → Specimen → Option Bool
  | failure .modern a, failure .modern b => some (a == b)
  | failure .legacy a, failure .legacy b => some (a == b)
  | fault a, fault b => some (a == b)
  | _, _ => none

end Specimen

/-- What a new fault is raised around. -/
inductive Content where
  | message (text : String)
  /-- An error with the errors that caused it, one after the other. -/
  | chain (text : String) (causes : List String)
  | register (name : String)

inductive Step where
  /-- Raises a fault; held as a failure of generation `g` if one is named, else as a fault. -/
  | raise (held : Option Generation) (content : Content) (dest : String)
  | condition (g : Generation) (c : Condition) (dest : String)
  /-- A failure of generation `g` that carries the fault in a register. -/
  | carry (g : Generation) (fault dest : String)
  | convert (register dest : String)
  | copy (register dest : String)
  | unwrap (register dest : String)
  | view (register : String)
  | compare (a b : String)
  /-- What a fault was raised around. -/
  | inside (fault : String)

inductive Report where
  | specimen (s : Specimen)
  | same (b : Bool)
  | inside (c : Cause)

structure State where
  registers : Table Specimen := {}
  /-- The number of the next fault. -/
  next : Nat := 0
  deriving Inhabited

namespace State

def keep (s : State) (dest : String) (v : Specimen) : State × Option Report :=
  ({ s with registers := s.registers.put dest v }, some (.specimen v))

def content? (s : State) : Content → Option Cause
  | .message t => some (.message t)
  | .chain t ts => some (.chain t ts)
  | .register name => (s.registers.get? name).map Specimen.cause

/-- Holds a fault as it is, or inside a failure. -/
def hold (f : Fault) : Option Generation → Specimen
  | none => .fault f
  | some g => .failure g (.backend f)

/-- One step, and its report; a step that does not fit what its registers hold changes nothing
and reports nothing. -/
def step (s : State) : Step → State × Option Report
  | .raise held content dest =>
    match s.content? content with
    | none => (s, none)
    | some cause => { s with next := s.next + 1 }.keep dest (hold ⟨s.next, cause⟩ held)
  | .condition g c dest => s.keep dest (.failure g (.condition c))
  | .carry g name dest =>
    match s.registers.get? name with
    | some (.fault f) => s.keep dest (.failure g (.backend f))
    | _ => (s, none)
  | .convert name dest =>
    match (s.registers.get? name).bind Specimen.convert? with
    | some v => s.keep dest v
    | none => (s, none)
  | .copy name dest =>
    match s.registers.get? name with
    | some v => s.keep dest v
    | none => (s, none)
  | .unwrap name dest =>
    match (s.registers.get? name).bind Specimen.carried? with
    | some f => s.keep dest (.fault f)
    | none => (s, none)
  | .view name => (s, (s.registers.get? name).map .specimen)
  | .compare a b =>
    (s, (s.registers.get? a).bind fun v => (s.registers.get? b).bind fun w => (v.same? w).map .same)
  | .inside name =>
    match s.registers.get? name with
    | some (.fault f) => (s, some (.inside f.cause))
    | _ => (s, none)

/-- The state after a list of steps. -/
def run (s : State) (steps : List Step) : State := steps.foldl (fun s t => (s.step t).1) s

end State

end CacheBridge.Workbench
