import CacheBridge.Session.Stacks
import CacheBridge.Showcase.EnvFile
import CacheBridge.Showcase.LogFilter

/-!
The showcase: a modern store driven by legacy calls, then a legacy store driven by modern calls,
then both closed. It is told what to do by variables and speaks through a log; a call that must not
fail ends it when it does.
-/

namespace CacheBridge.Showcase

/-- A line of the log: a notice, or something the showcase itself has to say. -/
inductive Line where
  | notice (n : Notice)
  | own (severity : Severity) (text : String)

namespace Line

def severity : Line → Severity
  | notice n => n.severity
  | own s _ => s

def origin : Line → String
  | notice n => n.origin
  | own _ _ => "conduit_demo"

def text : Line → String
  | notice n => n.text
  | own _ t => t

end Line

/-- What is said about the answer to a call. -/
inductive Telling where
  | silent
  | value (label : String)
  | failure (severity : Severity) (label : String)
  | success (text : String)
  | verdict (label : String)

def Telling.tell {g : Generation} (a : Answer g) : Telling → List Line
  | silent => []
  | value label =>
    match a with
    | .ok (.found bytes) => [.own .info (label ++ Text.quotedBytes bytes)]
    | _ => []
  | failure severity label =>
    match a with
    | .error e => [.own severity (label ++ e.text)]
    | .ok _ => []
  | success text =>
    match a with
    | .ok _ => [.own .info text]
    | .error _ => []
  | verdict label =>
    match a with
    | .ok _ => [.own .info (label ++ "Ok(())")]
    | .error e => [.own .info (label ++ "Err(" ++ e.report ++ ")")]

/-- One act: a step of a session, whether its failure ends the showcase, and what is said. -/
structure Act where
  step : StackSession.Step
  vital : Bool
  telling : Telling

/-- The log so far, and the failure that has ended the showcase, if one has. -/
structure Course where
  lines : List Line
  ended : Option String
  deriving Inhabited

def noticeOf : Event → Option Line
  | .notice n => some (.notice n)
  | _ => none

/-- What an act adds to the log, and the failure that it ends the showcase with. -/
def outcomeOf (act : Act) (r : StackSession.Report) : List Line × Option String :=
  let lines := r.events.filterMap noticeOf
  match r.outcome with
  | .result (.answer _ a) =>
    (lines ++ act.telling.tell a, match a with
      | .error e => if act.vital then some e.report else none
      | .ok _ => none)
  | _ => (lines, none)

/-- Plays the acts in order, up to the first vital one that fails. -/
def play {st : Stack} (s : StackSession.Session st) : List Act → StackSession.Session st × Course
  | [] => (s, ⟨[], none⟩)
  | act :: acts =>
    let (s, report) := s.step (some act.step)
    match outcomeOf act report with
    | (lines, some e) => (s, ⟨lines, some e⟩)
    | (lines, none) =>
      let (s, course) := play s acts
      (s, { course with lines := lines ++ course.lines })

def Course.followedBy (c : Course) (next : Course) : Course :=
  match c.ended with
  | some _ => c
  | none => { next with lines := c.lines ++ next.lines }

/-! ## The acts -/

def bytes (s : String) : Bytes := s.toUTF8.toList

def call (body : StackSession.Body) (scope : Option String) (bound : Nat) : StackSession.Step :=
  .call ⟨none, scope, body⟩ bound

def act (vital : Bool) (body : StackSession.Body) (telling : Telling) : Act :=
  ⟨call body none Time.longest, vital, telling⟩

def legacyActs : List Act :=
  [act true (.set (.plain "foo" (bytes "bar"))) .silent,
   act true (.get "foo") (.value "legacy get foo -> "),
   act false (.add (.plain "foo" (bytes "baz"))) (.failure .info "legacy add foo -> "),
   act false (.get "missing") (.failure .info "legacy get missing -> "),
   act true (.setMulti [.plain "first" (bytes "bar"), .plain "second" (bytes "baz")])
     (.success "legacy set_multi stored first and second")]

def halfMinute : Nat := 30 * Time.second

def modernActs : List Act :=
  [act true (.set ⟨"foo", bytes "bar", some halfMinute⟩) .silent,
   act true (.get "foo") (.value "modern get foo -> "),
   act false (.add (.plain "foo" (bytes "baz"))) (.failure .info "modern add foo -> "),
   act false (.setMulti [⟨"first", bytes "bar", some halfMinute⟩])
     (.verdict "modern set_multi -> ")]

def legacyClosing (timeout : Nat) : List Act :=
  [act false (.closeAsync true) .silent,
   act false (.waitForClose timeout) (.failure .warn "Legacy view did not close: ")]

def modernClosing (timeout : Nat) : List Act :=
  [⟨.scope "close" none (some timeout), false, .silent⟩,
   ⟨call .close (some "close") Time.longest, false, .failure .warn "Modern view did not close: "⟩]

/-! ## The course of the showcase -/

/-- Plays both views of the stores under the given settings. -/
def exercise (settings : Settings) : Course :=
  let env := StackSession.freshEnv
  match Stack.build? env (.timedStore (.ofSettings settings)) [.toLegacy true false],
      Stack.build? env .lazyStore [.toModern true settings.closePoll] with
  | some (legacyView, wrapped), some (modernView, wrapped') =>
    let (legacy, first) := play (.begin env legacyView) legacyActs
    let (modern, second) := play (.begin env modernView) modernActs
    let closing := (play legacy (legacyClosing settings.closeTimeout)).2.followedBy
      (play modern (modernClosing settings.closeTimeout)).2
    let said (events : List Event) : Course := ⟨events.filterMap noticeOf, none⟩
    ((((said wrapped).followedBy first).followedBy (said wrapped')).followedBy second).followedBy
      (closing.followedBy ⟨[.own .info "Conduit demo finished"], none⟩)
  | _, _ => ⟨[], none⟩

def loaded : Line := .own .info "Loaded environment variables from .env file"

def notLoaded : Line := .own .info "No .env file found, using system environment variables"

/-- The whole course, given the variables that are set and the file of variables, if there is
one. -/
def course (vars : Table String) (file : Option String) : Course :=
  let (vars, complete) := file.elim (vars, false) (EnvFile.load vars)
  let (settings, notices) := Settings.read fun v => vars.get? v.name
  let opening : Course :=
    ⟨(if complete then loaded else notLoaded) :: notices.map .notice ++
      [.own .info ("Starting conduit demo with " ++ settings.report)], none⟩
  opening.followedBy (exercise settings)

/-- The variable that holds the log filter. -/
def filterVariable : String := "RUST_LOG"

/-- What the showcase shows of its log. The filter is read before the file of variables. -/
def shown (vars : Table String) (c : Course) : List Line :=
  let filter := LogFilter.ofVariable (vars.get? filterVariable)
  c.lines.filter fun line => filter.shows line.origin line.severity

/-- What goes to the error output. -/
def Course.complaint (c : Course) : List String := c.ended.toList.map ("Error: " ++ ·)

def Course.exitCode (c : Course) : Nat := if c.ended.isSome then 1 else 0

end CacheBridge.Showcase
