import CacheBridge.Proofs.ConcurrentCloses
import CacheBridge.Proofs.Clockwork
import CacheBridge.Proofs.Polling

/-!
When a close of a bridge to modern polls, and when it ends. The first poll begins when the close
does; the next begins when the one before has been answered and its interval is over, and not later.
The close ends with the first answer that is not a timeout, at the instant of that answer, or when
its scope ends. So the polls are numbered by the intervals that have gone by, and a close whose
scope ends does too.
-/

namespace CacheBridge

/-- A timer wakes whoever has set it: a call that has asked to be looked at at an instant is ready,
if only to go on waiting, when the instant has come. -/
def Level.Punctual {g : Generation} {σ φ : Type} (l : Level g σ φ) : Prop :=
  ∀ call env s a, l.alarm call = some a → a ≤ env.now → l.ready call env s = true

namespace ToModern

/-- A poll that was answered: when it began, when it was answered, and how. -/
structure Poll where
  began : Nat
  till : Nat
  answer : Answer .legacy

/-- When the poll after this one is due: when this one is over, and its interval too. -/
def Poll.next (interval : Nat) (q : Poll) : Nat := max q.till (Time.roundUp (q.began + interval))

/-- When polls have begun, and which of them were answered. -/
structure PollLog where
  begun : List Nat := []
  answered : List Poll := []

namespace PollLog

variable {σ φ : Type}

def begin (log : PollLog) (now : Nat) : PollLog := { log with begun := log.begun ++ [now] }

def hear (log : PollLog) (began now : Nat) (a : Answer .legacy) : PollLog :=
  { log with answered := log.answered ++ [⟨began, now, a⟩] }

/-- Notes a step of a call at `now`, which is a poll that began at some instant, or no poll. -/
def note (log : PollLog) (began : Option Nat) (now : Nat) (turn : Turn σ φ (Answer .legacy)) :
    Turn (PollLog × σ) (Option Nat × φ) (Answer .legacy) :=
  let log := match began, turn.progress with
    | some t, .answered a => log.hear t now a
    | _, _ => log
  turn.map (fun s => (log, s)) (fun call => (began, call)) id

end PollLog

end ToModern

/-! ## Caches that are punctual -/

theorem LegacyDouble.punctual (script : LegacyDouble.Script) :
    (LegacyDouble.level script).Punctual := by
  intro call env s a ha hle
  cases ha
  exact decide_eq_true hle

theorem Spy.punctual {g : Generation} {σ φ : Type} {below : Level g σ φ} (h : below.Punctual)
    (script : Spy.Script) : (Spy.level script below).Punctual := by
  intro call env s a ha hle
  cases call with
  | held m r ring =>
    cases ha
    exact decide_eq_true hle
  | passed call => exact h call env s.2 a ha hle

theorem ToLegacy.punctual {σ φ : Type} {below : Level .modern σ φ} (h : below.Punctual)
    (counts : Bool) : (ToLegacy.level below counts).Punctual := by
  intro call env s a ha hle
  cases call with
  | relayed call | replaying call => exact h call env s.2 a ha hle
  | waiting timeout wait =>
    cases wait with
    | endless => cases ha
    | till ring =>
      cases ha
      simp [ToLegacy.level, ToLegacy.ready, ClosedWait.ready, ClosedWait.expired, hle]

open ToModern in
/-- The level with a log of its polls; each unanswered poll remembers when it began. -/
def Level.clocked {σ φ : Type} (l : Level .legacy σ φ) :
    Level .legacy (PollLog × σ) (Option Nat × φ) where
  offers := l.offers
  asking := l.asking
  start r env s :=
    if tellsClosed (g := .legacy) r then
      (s.1.begin env.now).note (some env.now) env.now (l.start r env s.2)
    else s.1.note none env.now (l.start r env s.2)
  resume call env s := s.1.note call.1 env.now (l.resume call.2 env s.2)
  ready call env s := l.ready call.2 env s.2
  alarm call := l.alarm call.2

namespace ToModern

variable {σ φ : Type} (below : Level .legacy σ φ) {interval s now : Nat} {scope : Scope} {env : Env}
  {log : PollLog} {phase : Phase}

/-! ## The schedule -/

/-- No poll is under way in a close that began at `s`, and the next one is due at `t`. -/
structure PollLog.Due (interval s : Nat) (log : PollLog) (t : Nat) : Prop where
  begun : log.begun ++ [t] = s :: log.answered.map (Poll.next interval)
  paired : log.answered.map Poll.began = log.begun
  late : ∀ q ∈ log.answered, q.answer = .error .timeout

/-- The last poll began at `t`, and goes on. -/
structure PollLog.UnderWay (interval s : Nat) (log : PollLog) (t : Nat) : Prop where
  begun : log.begun = s :: log.answered.map (Poll.next interval)
  paired : log.answered.map Poll.began ++ [t] = log.begun
  late : ∀ q ∈ log.answered, q.answer = .error .timeout

/-- Polls have begun, by now. -/
structure PollLog.Begun (now : Nat) (log : PollLog) : Prop where
  some : log.begun ≠ []
  past : ∀ t ∈ log.begun, t ≤ now

/-- Polls begin one after the other, each when it is due, until one is not answered with a
timeout. -/
structure PollLog.Kept (interval s now : Nat) (log : PollLog) : Prop where
  first : log.Begun now
  begun : log.begun <+: s :: log.answered.map (Poll.next interval)
  paired : log.answered.map Poll.began <+: log.begun
  late : ∀ q ∈ log.answered.dropLast, q.answer = .error .timeout

theorem due_empty (interval s : Nat) : PollLog.Due interval s {} s := ⟨rfl, rfl, nofun⟩

theorem PollLog.Begun.later (h : log.Begun now) {later : Nat} (hle : now ≤ later) :
    log.Begun later :=
  ⟨h.some, fun t ht => Nat.le_trans (h.past t ht) hle⟩

theorem PollLog.Kept.later (h : log.Kept interval s now) {later : Nat} (hle : now ≤ later) :
    log.Kept interval s later :=
  ⟨h.first.later hle, h.begun, h.paired, h.late⟩

theorem PollLog.Due.kept {t : Nat} (h : log.Due interval s t) (hfirst : log.Begun now) :
    log.Kept interval s now :=
  ⟨hfirst, h.begun ▸ List.prefix_append _ _, h.paired ▸ List.prefix_rfl,
    fun q hq => h.late q (List.dropLast_subset _ hq)⟩

theorem PollLog.UnderWay.le {t : Nat} (h : log.UnderWay interval s t) (hfirst : log.Begun now) :
    t ≤ now :=
  hfirst.past t (h.paired ▸ List.mem_append_right _ List.mem_cons_self)

theorem PollLog.UnderWay.kept {t : Nat} (h : log.UnderWay interval s t) (hfirst : log.Begun now) :
    log.Kept interval s now :=
  ⟨hfirst, h.begun ▸ List.prefix_rfl, h.paired ▸ List.prefix_append _ _,
    fun q hq => h.late q (List.dropLast_subset _ hq)⟩

/-- A poll begins when it is due. -/
theorem PollLog.Due.begin {t : Nat} (h : log.Due interval s t) :
    (log.begin t).UnderWay interval s t :=
  ⟨h.begun, congrArg (· ++ [t]) h.paired, h.late⟩

theorem begun_begin (hpast : ∀ t ∈ log.begun, t ≤ now) : (log.begin now).Begun now where
  some := by simp [PollLog.begin]
  past := List.forall_mem_append.mpr ⟨hpast, by simp⟩

/-- After a timeout the next poll is due. -/
theorem PollLog.UnderWay.again {t : Nat} (h : log.UnderWay interval s t) (now : Nat) :
    (log.hear t now (.error .timeout)).Due interval s
      (Poll.next interval ⟨t, now, .error .timeout⟩) where
  begun := by simp [PollLog.hear, h.begun]
  paired := by simpa [PollLog.hear] using h.paired
  late := by
    intro q hq
    rcases List.mem_append.mp hq with hq | hq
    · exact h.late q hq
    · cases List.mem_singleton.mp hq
      rfl

/-- Whatever a poll was answered with, the schedule was kept. -/
theorem PollLog.UnderWay.heard {t : Nat} (h : log.UnderWay interval s t) (hfirst : log.Begun now)
    (a : Answer .legacy) : (log.hear t now a).Kept interval s now where
  first := ⟨hfirst.some, hfirst.past⟩
  begun := by simp [PollLog.hear, h.begun]
  paired := by simp [PollLog.hear, h.paired]
  late q hq := h.late q (by simpa [PollLog.hear] using hq)

/-- On a clock that stands at whole milliseconds, the pause after a poll ends when the next is
due. -/
theorem ring_eq_next {began : Nat} (hwhole : Time.millisecond ∣ now) (hbegan : began ≤ now)
    (a : Answer .legacy) :
    Time.ring now (interval - (now - began)) = Poll.next interval ⟨began, now, a⟩ := by
  unfold Time.ring Poll.next
  have hround := Time.roundUp_of_dvd hwhole
  by_cases hover : began + interval ≤ now
  · have hle := Time.roundUp_mono hover
    rw [show now + (interval - (now - began)) = now by omega, hround]
    rw [hround] at hle
    exact (Nat.max_eq_left hle).symm
  · have hle := Time.le_roundUp (began + interval)
    rw [show now + (interval - (now - began)) = began + interval by omega]
    exact (Nat.max_eq_right (show now ≤ Time.roundUp (began + interval) by omega)).symm

/-! ## Steps of a close -/

/-- What a poll that ends a close is told on as. -/
def verdict : Answer .legacy → Answer .modern
  | .ok _ => Answer.done
  | .error e => .error (e.as .modern)

/-- A close that keeps to the schedule. -/
inductive Paces (interval s now : Nat) (scope : Scope) (log : PollLog) :
    Call (Option Nat × φ) → Prop where
  | polling {t : Nat} (h : log.UnderWay interval s t) (hfirst : log.Begun now) (call : φ) :
      Paces interval s now scope log (.polling scope t (some t, call))
  | pausing {due : Nat} (h : log.Due interval s due) (hfirst : log.Begun now) (hnow : now ≤ due) :
      Paces interval s now scope log (.pausing scope due)

theorem Paces.late {now : Nat} {call : Call (Option Nat × φ)}
    (h : Paces interval s now scope log call) :
    ∀ q ∈ log.answered, q.answer = .error .timeout := by
  cases h with
  | polling h => exact h.late
  | pausing h => exact h.late

theorem Paces.kept {now : Nat} {call : Call (Option Nat × φ)}
    (h : Paces interval s now scope log call) :
    log.Kept interval s now := by
  cases h with
  | polling h hfirst => exact h.kept hfirst
  | pausing h hfirst => exact h.kept hfirst

/-- What a look at such a close comes to. -/
inductive Outcome (interval s : Nat) (scope : Scope) (env : Env) :
    Step (PollLog × σ) (Option Nat × φ) → Prop where
  | told {p : Phase} {log : PollLog} {x : σ} {q : Poll} (hkept : log.Kept interval s env.now)
      (hlast : log.answered.getLast? = some q) (hq : q.answer ≠ .error .timeout)
      (hnow : q.till = env.now) (es : List Event) :
      Outcome interval s scope env ⟨(p, log, x), .answered (verdict q.answer), es⟩
  | gaveUp {p : Phase} {log : PollLog} {x : σ} (hended : env.ended scope = true)
      (hkept : log.Kept interval s env.now) (hlate : ∀ q ∈ log.answered, q.answer = .error .timeout)
      (es : List Event) :
      Outcome interval s scope env ⟨(p, log, x), .answered (.error .timeout), es⟩
  | waits {p : Phase} {log : PollLog} {x : σ} {call : Call (Option Nat × φ)}
      (hopen : env.ended scope = false) (hpaces : Paces interval s env.now scope log call)
      (es : List Event) :
      Outcome interval s scope env ⟨(p, log, x), .waiting call, es⟩

theorem Outcome.after {turn : Step (PollLog × σ) (Option Nat × φ)}
    (h : Outcome interval s scope env turn)
    (es : List Event) : Outcome interval s scope env (turn.after es) := by
  cases h with
  | told hkept hlast hq hnow fs => exact .told hkept hlast hq hnow _
  | gaveUp hended hkept hlate fs => exact .gaveUp hended hkept hlate _
  | waits hopen hpaces fs => exact .waits hopen hpaces _

/-- Whether background work can be started makes no difference. -/
theorem Outcome.outside {inside : Bool} {turn : Step (PollLog × σ) (Option Nat × φ)}
    (h : Outcome interval s scope { env with runtime := inside } turn) :
    Outcome interval s scope env turn := by
  cases h with
  | told hkept hlast hq hnow es =>
    refine .told ?_ hlast hq ?_ es
    · exact hkept
    · exact hnow
  | gaveUp hended hkept hlate es =>
    refine .gaveUp ?_ ?_ hlate es
    · exact hended
    · exact hkept
  | waits hopen hpaces es =>
    refine .waits ?_ ?_ es
    · exact hopen
    · exact hpaces

theorem pause_outcome {started : Nat}
    (hdue : log.Due interval s (env.ring (interval - (env.now - started))))
    (hfirst : log.Begun env.now) (x : σ) :
    Outcome interval s scope env
      (pause interval scope started env phase (log, x) : Step _ (Option Nat × φ)) := by
  unfold pause
  split
  · next hended => exact .gaveUp hended (hdue.kept hfirst) hdue.late _
  · next hopen =>
    exact .waits (eq_false_of_ne_true hopen) (.pausing hdue hfirst (Time.le_ring _ _)) _

theorem judge_outcome {t : Nat} (hway : log.UnderWay interval s t) (hfirst : log.Begun env.now)
    {again : PollLog × σ → Step (PollLog × σ) (Option Nat × φ)}
    (hagain : ∀ log x,
      PollLog.Due interval s log (Poll.next interval ⟨t, env.now, .error .timeout⟩) →
      log.Begun env.now → Outcome interval s scope env (again (log, x)))
    (turn : Turn σ φ (Answer .legacy)) :
    Outcome interval s scope env
      (judge scope t env phase again (log.note (some t) env.now turn)) := by
  obtain ⟨x, progress, es⟩ := turn
  cases progress with
  | waiting call =>
    simp only [PollLog.note, Turn.map, judge]
    split
    · next hended => exact .gaveUp hended (hway.kept hfirst) hway.late _
    · next hopen => exact .waits (eq_false_of_ne_true hopen) (.polling hway hfirst call) _
  | answered a =>
    have hkept := hway.heard hfirst a
    have hlast : (log.hear t env.now a).answered.getLast? = some ⟨t, env.now, a⟩ := by
      simp [PollLog.hear]
    cases a with
    | ok reply => exact .told hkept hlast (by simp) rfl es
    | error e =>
      by_cases htimeout : e = .timeout
      · subst htimeout
        exact (hagain _ x (hway.again env.now) ⟨hfirst.some, hfirst.past⟩).after es
      · simp only [PollLog.note, Turn.map, judge_error _ _ _ _ htimeout, id_eq]
        exact .told hkept hlast (fun h => htimeout (Except.error.inj h)) rfl es

/-- A poll begins when it is due. -/
theorem beginPoll_outcome (hwhole : Time.millisecond ∣ env.now)
    (hdue : log.Due interval s env.now) (hpast : ∀ t ∈ log.begun, t ≤ env.now) (x : σ) :
    Outcome interval s scope env (beginPoll below.clocked interval scope env phase (log, x)) :=
  judge_outcome hdue.begin (begun_begin hpast)
    (fun log x hdue hfirst => pause_outcome (by
      unfold Env.ring
      rwa [ring_eq_next hwhole (Nat.le_refl _) (.error .timeout)]) hfirst x)
    (below.start (.waitForClose interval) env x)

theorem pollAgain_outcome {t : Nat} (ht : t ≤ env.now) (hwhole : Time.millisecond ∣ env.now)
    (hdue : log.Due interval s (Poll.next interval ⟨t, env.now, .error .timeout⟩))
    (hfirst : log.Begun env.now) (x : σ) :
    Outcome interval s scope env (pollAgain below.clocked interval scope t env phase (log, x)) := by
  rw [← ring_eq_next hwhole ht (.error .timeout)] at hdue
  unfold pollAgain
  split
  · next hended => exact .gaveUp hended (hdue.kept hfirst) hdue.late _
  · split
    · next hover =>
      have hring : Time.ring env.now (interval - (env.now - t)) = env.now :=
        Nat.le_antisymm hover (Time.le_ring _ _)
      exact beginPoll_outcome below hwhole (hring ▸ hdue) hfirst.past x
    · exact pause_outcome hdue hfirst x

theorem resume_outcome (hwhole : Time.millisecond ∣ env.now)
    {call : Call (Option Nat × φ)} (hcall : Paces interval s env.now scope log call) (x : σ) :
    Outcome interval s scope env (resume below.clocked interval call env (phase, log, x)) := by
  cases hcall with
  | polling h hfirst call =>
    have ht := h.le hfirst
    exact judge_outcome h hfirst
      (fun log x hdue hfirst => pollAgain_outcome below ht hwhole hdue hfirst x)
      (below.resume call env x)
  | pausing h hfirst hring =>
    simp only [resume]
    split
    · next hended => exact .gaveUp hended (h.kept hfirst) h.late _
    · next hopen =>
      split
      · next hover =>
        cases Nat.le_antisymm hover hring
        exact beginPoll_outcome below hwhole h hfirst.past x
      · exact .waits (eq_false_of_ne_true hopen) (.pausing h hfirst hring) _

theorem close_outcome (env : Env) (hwhole : Time.millisecond ∣ env.now)
    (hphase : phase ≠ .closed) (x : σ) :
    Outcome interval env.now scope env (close below.clocked interval scope env phase ({}, x)) := by
  cases phase with
  | closed => exact absurd rfl hphase
  | closing => exact beginPoll_outcome below hwhole (due_empty interval env.now) nofun x
  | active =>
    exact (beginPoll_outcome below hwhole (due_empty interval env.now) nofun
      (below.start .closeAsync env x).state).after _

/-! ## The close among other calls -/

/-- A call that is not a poll. -/
def Plain : Call (Option Nat × φ) → Prop
  | .relayed call => call.1 = none
  | .polling _ _ _ | .pausing _ _ => False

/-- A step of a call that has nothing to do with the close. -/
structure Passing (phase : Phase) (log : PollLog) (turn : Step (PollLog × σ) (Option Nat × φ)) :
    Prop where
  phase : turn.state.1 = phase
  log : turn.state.2.1 = log
  plain : ∀ call, turn.progress = .waiting call → Plain call

theorem relay_passing (phase : Phase) (log : PollLog) (now : Nat)
    (turn : Turn σ φ (Answer .legacy)) :
    Passing phase log (relay phase (log.note none now turn)) := by
  obtain ⟨x, progress, es⟩ := turn
  refine ⟨rfl, rfl, fun call hcall => ?_⟩
  cases progress with
  | waiting call =>
    cases hcall
    rfl
  | answered a => cases hcall

theorem start_passing {r : Request .modern} (hr : asksClose r = false) (interval : Nat) (env : Env)
    (phase : Phase) (log : PollLog) (x : σ) :
    Passing phase log ((level below.clocked interval).start r env (phase, log, x)) := by
  cases hpass : passed? below.clocked r with
  | some passed =>
    obtain ⟨r', es⟩ := passed
    obtain ⟨-, -, -, htells⟩ := Tower.ToModern.passed?_quiet hpass
    have hnote : below.clocked.start r' env (log, x) =
        log.note none env.now (below.start r' env x) := by
      simp only [Level.clocked, htells, Bool.false_eq_true, if_false]
    have hstart : (level below.clocked interval).start r env (phase, log, x) =
        (relay phase (log.note none env.now (below.start r' env x))).after es := by
      rw [← hnote]
      exact @start_passed _ _ below.clocked interval _ _ _ env (phase, log, x) hpass
    have hrelay := relay_passing phase log env.now (below.start r' env x)
    rw [hstart]
    exact ⟨hrelay.phase, hrelay.log, hrelay.plain⟩
  | none =>
    cases r with
    | get | set | add | delete => cases hpass
    | close scope => cases hr
    | setMulti scope items =>
      have hroute : routeBatch below.clocked items = none := hpass
      simp only [level, start, hroute]
      exact ⟨rfl, rfl, fun call hcall => by cases hcall⟩

theorem resume_passing {call : Call (Option Nat × φ)} (hcall : Plain call) (interval : Nat)
    (env : Env) (phase : Phase) (log : PollLog) (x : σ) :
    Passing phase log ((level below.clocked interval).resume call env (phase, log, x)) := by
  cases call with
  | polling | pausing => exact hcall.elim
  | relayed call =>
    obtain ⟨began, call⟩ := call
    cases (hcall : began = none)
    exact relay_passing phase log env.now (below.resume call env x)

/-- A close that is not ready is in time, and the clock does not move on past what it waits for. -/
theorem Paces.unready (hbelow : below.Punctual) {call : Call (Option Nat × φ)}
    (h : Paces interval s env.now scope log call) {x : σ}
    (hready : (level below.clocked interval).ready call env (phase, log, x) = false) :
    env.ended scope = false ∧ ∀ t, env.now ≤ t →
      (∀ a, (level below.clocked interval).alarm call = some a → env.now < a → t ≤ a) →
      Paces interval s t scope log call ∧ ∀ b, scope.alarm = some b → t ≤ b := by
  cases h with
  | @polling began h hfirst call =>
    obtain ⟨hbusy, hended⟩ := Bool.or_eq_false_iff.mp hready
    have hopen := (Bool.or_eq_false_iff.mp hended).2
    refine ⟨hended, fun t hle halarm => ⟨.polling h (hfirst.later hle) call, fun b hb => ?_⟩⟩
    cases hcall : below.alarm call with
    | some a =>
      have hlate : env.now < a := by
        refine Nat.not_le.mp fun hle => ?_
        exact absurd (hbusy.symm.trans (hbelow call env x a hcall hle)) nofun
      obtain ⟨a', ha', hnow, -, hscope⟩ := earlier_alarm hlate hopen
      refine Nat.le_trans (halarm a' ?_ hnow) (hscope b hb)
      simpa [level, alarm, Level.clocked, hcall] using ha'
    | none =>
      obtain ⟨d, hd, rfl⟩ := Option.map_eq_some_iff.mp hb
      have hlate : env.now < d := by simpa [hd] using hopen
      refine halarm _ ?_ (Nat.lt_of_lt_of_le hlate (Time.le_roundUp d))
      simpa [level, alarm, Level.clocked, hcall, ScopeTree.earlier] using hb
  | @pausing due h hfirst hnow =>
    obtain ⟨hlate, hended⟩ := Bool.or_eq_false_iff.mp hready
    have hopen := (Bool.or_eq_false_iff.mp hended).2
    obtain ⟨a, ha, hnow', hle, hscope⟩ :=
      earlier_alarm (Nat.not_le.mp (of_decide_eq_false hlate)) hopen
    refine ⟨hended, fun t hlater halarm => ?_⟩
    have hta := halarm a ha hnow'
    exact ⟨.pausing h (hfirst.later hlater) (Nat.le_trans hta hle),
      fun b hb => Nat.le_trans hta (hscope b hb)⟩

/-- A close that is not ready waits for a poll that is not, or for the next poll to be due. -/
theorem Paces.heard {call : Call (Option Nat × φ)}
    (h : Paces interval s env.now scope log call) {x : σ}
    (hready : (level below.clocked interval).ready call env (phase, log, x) = false) :
    (∃ t poll, call = .polling scope t (some t, poll) ∧
        log.answered.map Poll.began ++ [t] = log.begun ∧ below.ready poll env x = false) ∨
      ∃ due, call = .pausing scope due ∧
        log.begun ++ [due] = s :: log.answered.map (Poll.next interval) ∧ env.now < due := by
  cases h with
  | polling h hfirst poll =>
    obtain ⟨hbusy, -⟩ := Bool.or_eq_false_iff.mp hready
    exact .inl ⟨_, poll, rfl, h.paired, hbusy⟩
  | pausing h hfirst hnow =>
    obtain ⟨hlate, -⟩ := Bool.or_eq_false_iff.mp hready
    exact .inr ⟨_, rfl, h.begun, Nat.not_le.mp (of_decide_eq_false hlate)⟩

/-- The bridge over a cache whose polls are logged, with its callers, on a clock. -/
abbrev Timed (σ φ : Type) := Clockwork .modern (State (PollLog × σ)) (Call (Option Nat × φ))

/-- The background work of the cache below, where its polls are logged. -/
def chores (base : List (Job σ)) : List (Job (State (PollLog × σ))) :=
  base.map fun job => (job.beneath PollLog).beneath Phase

/-- Where the answer of the close comes from: the last poll, or the end of its scope. -/
inductive Settled (s : Nat) (scope : Scope) (log : PollLog) (c : Told .modern) : Prop where
  | heard {q : Poll} (hlast : log.answered.getLast? = some q) (hq : q.answer ≠ .error .timeout)
      (hanswer : c.answer = verdict q.answer) (htill : c.till = q.till) : Settled s scope log c
  | late (hanswer : c.answer = .error .timeout) (hlate : c.late = true)
      (hpolls : ∀ q ∈ log.answered, q.answer = .error .timeout)
      (halarm : ∀ b, scope.alarm = some b → c.till ≤ max s b) : Settled s scope log c

/-- The bridge after one close was called, with `scope` and at `s`. -/
structure Scheduled (interval s : Nat) (scope : Scope) (w : Timed σ φ) : Prop where
  whole : Time.millisecond ∣ w.env.now
  since : s ≤ w.env.now
  kept : w.state.2.1.Kept interval s w.env.now
  pending : ∀ p ∈ w.pending, tellsClosed p.request = false ∧ Plain p.call ∨
    p.request = .close scope ∧ p.since = s ∧ Paces interval s w.env.now scope w.state.2.1 p.call ∧
      ∀ b, scope.alarm = some b → w.env.now ≤ max s b
  one : w.pending.countP (fun p => tellsClosed p.request) +
    w.told.countP (fun c => tellsClosed c.request) ≤ 1
  told : ∀ c ∈ w.told, tellsClosed c.request = true →
    c.request = .close scope ∧ c.since = s ∧ c.till ≤ w.env.now ∧ Settled s scope w.state.2.1 c
  answered : ∀ q ∈ w.state.2.1.answered, q.answer ≠ .error .timeout →
    ∃ c ∈ w.told, c.request = .close scope ∧ c.since = s ∧ c.answer = verdict q.answer ∧
      c.till = q.till

/-- Before the close was called. -/
structure Unasked (w : Timed σ φ) : Prop where
  whole : Time.millisecond ∣ w.env.now
  phase : w.state.1 ≠ .closed
  log : w.state.2.1 = {}
  pending : ∀ p ∈ w.pending, tellsClosed p.request = false ∧ Plain p.call
  told : ∀ c ∈ w.told, tellsClosed c.request = false

section Clock

variable {below} {w w' : Timed σ φ}

/-- A poll whose answer is no timeout is the last. -/
theorem PollLog.Kept.last (h : log.Kept interval s now) {q : Poll} (hq : q ∈ log.answered)
    (hne : q.answer ≠ .error .timeout) : log.answered.getLast? = some q := by
  obtain ⟨polls, last, hlog⟩ :=
    List.eq_nil_or_concat' log.answered |>.resolve_left (List.ne_nil_of_mem hq)
  have hlate := h.late q
  rw [hlog] at hq hlate ⊢
  rw [List.dropLast_concat] at hlate
  rcases List.mem_append.mp hq with hq | hq
  · exact absurd (hlate hq) hne
  · cases List.mem_singleton.mp hq
    exact List.getLast?_concat

theorem Scheduled.take_data (h : Scheduled interval s scope w) {r : Request .modern}
    (hr : tellsClosed r = false) (since : Nat)
    {others : List (Pending .modern (Call (Option Nat × φ)))}
    (hothers : others.Sublist w.pending) (asked : List (Nat × Bool))
    {turn : Step (PollLog × σ) (Option Nat × φ)} (hturn : Passing w.state.1 w.state.2.1 turn) :
    Scheduled interval s scope (Clockwork.take { w with asked := asked } r since others turn) := by
  obtain ⟨⟨phase, log, x⟩, progress, es⟩ := turn
  have hlog : log = w.state.2.1 := hturn.log
  subst hlog
  have hcount := hothers.countP_le (p := fun p => tellsClosed p.request)
  have hone := h.one
  have hpending (p) (hp : p ∈ others) := h.pending p (hothers.subset hp)
  cases progress with
  | waiting call =>
    refine ⟨h.whole, h.since, h.kept, fun p hp => ?_, ?_, h.told, h.answered⟩
    · rcases List.mem_append.mp hp with hp | hp
      · exact hpending p hp
      · cases List.mem_singleton.mp hp
        exact .inl ⟨hr, hturn.plain call rfl⟩
    · simp only [Clockwork.take, List.countP_append, List.countP_singleton, hr]
      simp only [Bool.false_eq_true, if_false]
      omega
  | answered a =>
    refine ⟨h.whole, h.since, h.kept, hpending, ?_, fun c hc hcloses => ?_, fun q hq hne => ?_⟩
    · simp only [Clockwork.take, List.countP_append, List.countP_singleton, hr]
      simp only [Bool.false_eq_true, if_false]
      omega
    · rcases List.mem_append.mp hc with hc | hc
      · exact h.told c hc hcloses
      · cases List.mem_singleton.mp hc
        exact absurd (hcloses.symm.trans hr) nofun
    · obtain ⟨c, hc, hkey⟩ := h.answered q hq hne
      exact ⟨c, List.mem_append_left _ hc, hkey⟩

theorem Scheduled.take_close {others : List (Pending .modern (Call (Option Nat × φ)))}
    (hwhole : Time.millisecond ∣ w.env.now) (hs : s ≤ w.env.now)
    (hothers : ∀ p ∈ others, tellsClosed p.request = false ∧ Plain p.call)
    (htold : ∀ c ∈ w.told, tellsClosed c.request = false) (asked : List (Nat × Bool))
    (halarm : ∀ b, scope.alarm = some b → w.env.now ≤ max s b)
    {turn : Step (PollLog × σ) (Option Nat × φ)} (hturn : Outcome interval s scope w.env turn) :
    Scheduled interval s scope
      (Clockwork.take { w with asked := asked } (.close scope) s others turn) := by
  have hnone : others.countP (fun p => tellsClosed p.request) = 0 :=
    List.countP_eq_zero.mpr fun p hp => by simp [(hothers p hp).1]
  have hnone' : w.told.countP (fun c => tellsClosed c.request) = 0 :=
    List.countP_eq_zero.mpr fun c hc => by simp [htold c hc]
  have hcloses : tellsClosed (g := .modern) (.close scope) = true := rfl
  cases hturn with
  | @waits phase log x call hopen hpaces es =>
    refine ⟨hwhole, hs, hpaces.kept, fun p hp => ?_, ?_, fun c hc hcloses => ?_, fun q hq hne => ?_⟩
    · rcases List.mem_append.mp hp with hp | hp
      · exact .inl (hothers p hp)
      · cases List.mem_singleton.mp hp
        exact .inr ⟨rfl, rfl, hpaces, halarm⟩
    · simp [Clockwork.take, List.countP_append, hnone, hnone', hcloses]
    · exact absurd ((htold c hc).symm.trans hcloses) nofun
    · exact absurd (hpaces.late q hq) hne
  | @gaveUp phase log x hended hkept hlate es =>
    refine ⟨hwhole, hs, hkept, fun p hp => .inl (hothers p hp), ?_, fun c hc hcloses => ?_,
      fun q hq hne => absurd (hlate q hq) hne⟩
    · simp [Clockwork.take, List.countP_append, hnone, hnone', hcloses]
    · rcases List.mem_append.mp hc with hc | hc
      · exact absurd ((htold c hc).symm.trans hcloses) nofun
      · cases List.mem_singleton.mp hc
        exact ⟨rfl, rfl, Nat.le_refl _, .late rfl hended hlate halarm⟩
  | @told phase log x q hkept hlast hq hnow es =>
    refine ⟨hwhole, hs, hkept, fun p hp => .inl (hothers p hp), ?_, fun c hc hcloses => ?_,
      fun q' hq' hne => ?_⟩
    · simp [Clockwork.take, List.countP_append, hnone, hnone', hcloses]
    · rcases List.mem_append.mp hc with hc | hc
      · exact absurd ((htold c hc).symm.trans hcloses) nofun
      · cases List.mem_singleton.mp hc
        exact ⟨rfl, rfl, Nat.le_refl _, .heard hlast hq rfl hnow.symm⟩
    · cases Option.some.inj (hlast.symm.trans (hkept.last hq' hne))
      exact ⟨_, List.mem_append_right _ List.mem_cons_self, rfl, rfl, rfl, hnow.symm⟩

/-- Only one of the calls is the close. -/
theorem Scheduled.others (h : Scheduled interval s scope w) {i : Nat}
    {p : Pending .modern (Call (Option Nat × φ))} (hi : w.pending[i]? = some p)
    (hp : tellsClosed p.request = true) :
    (∀ q ∈ w.pending.eraseIdx i, tellsClosed q.request = false ∧ Plain q.call) ∧
      ∀ c ∈ w.told, tellsClosed c.request = false := by
  have hone := h.one
  rw [← (Clockwork.perm_pick hi).countP_eq, List.countP_cons, if_pos hp] at hone
  have hnone : (w.pending.eraseIdx i).countP (fun p => tellsClosed p.request) = 0 := by omega
  have hnone' : w.told.countP (fun c => tellsClosed c.request) = 0 := by omega
  have hothers (q) (hq : q ∈ w.pending.eraseIdx i) : tellsClosed q.request = false :=
    Bool.eq_false_iff.mpr (List.countP_eq_zero.mp hnone q hq)
  refine ⟨fun q hq => ?_, fun c hc => Bool.eq_false_iff.mpr (List.countP_eq_zero.mp hnone' c hc)⟩
  obtain hdata | ⟨hclose, -⟩ := h.pending q (List.mem_of_mem_eraseIdx hq)
  · exact hdata
  · exact absurd ((hothers q hq).symm.trans (congrArg tellsClosed hclose)) nofun

/-- An act that calls no close, and moves the clock by whole milliseconds if it does. -/
structure Usual (act : Clockwork.Act .modern) : Prop where
  data : ∀ scope inside, act ≠ .call (.close scope) inside
  whole : ∀ t, act = .pass t → Time.millisecond ∣ t

theorem Usual.asks {r : Request .modern} {inside : Bool} (h : Usual (.call r inside)) :
    asksClose r = false ∧ tellsClosed r = false := by
  cases r with
  | get | set | add | delete | setMulti => exact ⟨rfl, rfl⟩
  | close scope => exact absurd rfl (h.data scope inside)

@[simp] theorem usual_look (i : Nat) : Usual (.look i) := ⟨nofun, nofun⟩

@[simp] theorem usual_pass {t : Nat} : Usual (.pass t) ↔ Time.millisecond ∣ t := by
  refine ⟨fun h => h.whole t rfl, fun h => ⟨nofun, fun t' ht => ?_⟩⟩
  cases ht
  exact h

theorem Scheduled.stepped (h : Scheduled interval s scope w) (hbelow : below.Punctual)
    (base : List (Job σ)) {act : Clockwork.Act .modern}
    (hact : Usual act) (hstep : w.Stepped (level below.clocked interval) (chores base) act w') :
    Scheduled interval s scope w' := by
  obtain ⟨env, ⟨phase, log, x⟩, pending, told, asked⟩ := w
  cases hstep with
  | call r inside =>
    exact h.take_data hact.asks.2 env.now (List.Sublist.refl _) _
      (start_passing below hact.asks.1 interval { env with runtime := inside } phase log x)
  | @look i p hi hready =>
    obtain ⟨hdata, hplain⟩ | ⟨hclose, hsince, hpaces, halarm⟩ :=
      h.pending p (List.mem_of_getElem? hi)
    · exact h.take_data hdata p.since (List.eraseIdx_sublist ..) asked
        (resume_passing below hplain interval env phase log x)
    · obtain ⟨hothers, htold⟩ := h.others hi (congrArg tellsClosed hclose)
      rw [hclose, hsince]
      exact Scheduled.take_close h.whole h.since hothers htold asked halarm
        (resume_outcome below h.whole hpaces x)
  | abandon i =>
    have hsub := List.eraseIdx_sublist pending i
    have hcount := hsub.countP_le (p := fun p => tellsClosed p.request)
    have hone := h.one
    refine ⟨h.whole, h.since, h.kept, fun p hp => h.pending p (hsub.subset hp), ?_, h.told,
      h.answered⟩
    simp only at hone ⊢
    omega
  | work i hj hready =>
    obtain ⟨job, -, rfl⟩ := List.mem_map.mp hj
    exact ⟨h.whole, h.since, h.kept, h.pending, h.one, h.told, h.answered⟩
  | derive | cancel | age => exact ⟨h.whole, h.since, h.kept, h.pending, h.one, h.told, h.answered⟩
  | @pass t hlater ht hquiet halarms =>
    have hle := Nat.le_of_lt hlater
    refine ⟨hact.whole t rfl, Nat.le_trans h.since hle, h.kept.later hle, fun p hp => ?_, h.one,
      fun c hc hcloses => ?_, h.answered⟩
    · obtain hdata | ⟨hclose, hsince, hpaces, -⟩ := h.pending p hp
      · exact .inl hdata
      · obtain ⟨-, hpass⟩ := hpaces.unready below hbelow ((Clockwork.ready_of_quiet hquiet).1 p hp)
        obtain ⟨hpaces, hscope⟩ :=
          hpass t hle fun a ha hlate => halarms a (Clockwork.alarm_of_call hp ha) hlate
        exact .inr ⟨hclose, hsince, hpaces,
          fun b hb => Nat.le_trans (hscope b hb) (Nat.le_max_right _ _)⟩
    · obtain ⟨hclose, hsince, htill, hsettled⟩ := h.told c hc hcloses
      exact ⟨hclose, hsince, Nat.le_trans htill hle, hsettled⟩

theorem Unasked.take (h : Unasked w) {r : Request .modern} (hr : tellsClosed r = false)
    (since : Nat) {others : List (Pending .modern (Call (Option Nat × φ)))}
    (hothers : ∀ p ∈ others, p ∈ w.pending)
    (asked : List (Nat × Bool)) {turn : Step (PollLog × σ) (Option Nat × φ)}
    (hturn : Passing w.state.1 w.state.2.1 turn) :
    Unasked (Clockwork.take { w with asked := asked } r since others turn) := by
  obtain ⟨⟨phase, log, x⟩, progress, es⟩ := turn
  have hphase : phase = w.state.1 := hturn.phase
  have hlog : log = w.state.2.1 := hturn.log
  subst hphase hlog
  cases progress with
  | waiting call =>
    refine ⟨h.whole, h.phase, h.log, fun p hp => ?_, h.told⟩
    rcases List.mem_append.mp hp with hp | hp
    · exact h.pending p (hothers p hp)
    · cases List.mem_singleton.mp hp
      exact ⟨hr, hturn.plain call rfl⟩
  | answered a =>
    refine ⟨h.whole, h.phase, h.log, fun p hp => h.pending p (hothers p hp), fun c hc => ?_⟩
    rcases List.mem_append.mp hc with hc | hc
    · exact h.told c hc
    · cases List.mem_singleton.mp hc
      exact hr

theorem Unasked.stepped (h : Unasked w) (base : List (Job σ)) {act : Clockwork.Act .modern}
    (hact : Usual act) (hstep : w.Stepped (level below.clocked interval) (chores base) act w') :
    Unasked w' := by
  obtain ⟨env, ⟨phase, log, x⟩, pending, told, asked⟩ := w
  cases hstep with
  | call r inside =>
    exact h.take hact.asks.2 env.now (fun _ => id) _
      (start_passing below hact.asks.1 interval { env with runtime := inside } phase log x)
  | @look i p hi hready =>
    obtain ⟨hdata, hplain⟩ := h.pending p (List.mem_of_getElem? hi)
    exact h.take hdata p.since (fun _ => List.mem_of_mem_eraseIdx) asked
      (resume_passing below hplain interval env phase log x)
  | abandon i =>
    exact ⟨h.whole, h.phase, h.log, fun p hp => h.pending p (List.mem_of_mem_eraseIdx hp), h.told⟩
  | work i hj hready =>
    obtain ⟨job, -, rfl⟩ := List.mem_map.mp hj
    exact ⟨h.whole, h.phase, h.log, h.pending, h.told⟩
  | derive | cancel | age => exact ⟨h.whole, h.phase, h.log, h.pending, h.told⟩
  | @pass t hlater ht hquiet halarms => exact ⟨hact.whole t rfl, h.phase, h.log, h.pending, h.told⟩

variable {acts : List (Clockwork.Act .modern)}

theorem Unasked.run? (h : Unasked w) (base : List (Job σ)) (hacts : ∀ act ∈ acts, Usual act)
    (hrun : Clockwork.run? (level below.clocked interval) (chores base) w acts = some w') :
    Unasked w' :=
  Clockwork.run?_invariant (P := Unasked) hrun
    (fun hact hstep _ h => h.stepped base (hacts _ hact) hstep) h

theorem Scheduled.run? (h : Scheduled interval s scope w) (hbelow : below.Punctual)
    (base : List (Job σ)) (hacts : ∀ act ∈ acts, Usual act)
    (hrun : Clockwork.run? (level below.clocked interval) (chores base) w acts = some w') :
    Scheduled interval s scope w' :=
  Clockwork.run?_invariant (P := Scheduled interval s scope) hrun
    (fun hact hstep _ h => h.stepped hbelow base (hacts _ hact) hstep) h

/-- The close is called. -/
theorem Unasked.close (h : Unasked w) (scope : Scope)
    (inside : Bool) (base : List (Job σ))
    (hstep : w.Stepped (level below.clocked interval) (chores base)
      (.call (.close scope) inside) w') :
    Scheduled interval w.env.now scope w' := by
  obtain ⟨env, ⟨phase, log, x⟩, pending, told, asked⟩ := w
  have hlog : log = {} := h.log
  subst hlog
  cases hstep with
  | call r inside =>
    exact Scheduled.take_close h.whole (Nat.le_refl _) h.pending h.told _
      (fun b _ => Nat.le_max_left _ _)
      (Outcome.outside (close_outcome below { env with runtime := inside } h.whole h.phase x))

/-- Where nothing is ready, the scope of a close that goes on has not ended. -/
theorem Scheduled.open_of_quiet (h : Scheduled interval s scope w) (hbelow : below.Punctual)
    (base : List (Job σ)) (hquiet : w.quiet (level below.clocked interval) (chores base) = true) :
    ∀ p ∈ w.pending, tellsClosed p.request = true → lapsed p.since w.env p.request = false := by
  intro p hp hcloses
  obtain ⟨hdata, -⟩ | ⟨hclose, -, hpaces, -⟩ := h.pending p hp
  · exact absurd (hdata.symm.trans hcloses) nofun
  · rw [hclose]
    exact (hpaces.unready below hbelow ((Clockwork.ready_of_quiet hquiet).1 p hp)).1

theorem Scheduled.watched (h : Scheduled interval s scope w) (hbelow : below.Punctual)
    (base : List (Job σ)) {v : Env} (hwatched : w.Watched v) (hacts : ∀ act ∈ acts, Usual act)
    (hrun : Clockwork.run? (level below.clocked interval) (chores base) w acts = some w') :
    w'.Watched v := by
  refine (Clockwork.run?_invariant (P := fun u => Scheduled interval s scope u ∧ u.Watched v) hrun
    (fun hact hstep _ h => ?_) ⟨h, hwatched⟩).2
  obtain ⟨h, hwatched⟩ := h
  exact ⟨h.stepped hbelow base (hacts _ hact) hstep,
    hwatched.stepped hstep (h.open_of_quiet hbelow base)⟩

/-- A close whose scope has ended is answered at the next look. -/
theorem Scheduled.answered_of_ended (h : Scheduled interval s scope w) (base : List (Job σ))
    (hended : w.env.ended scope = true) {i : Nat}
    {p : Pending .modern (Call (Option Nat × φ))} (hi : w.pending[i]? = some p)
    (hcloses : tellsClosed p.request = true) :
    ∃ w', w.step? (level below.clocked interval) (chores base) (.look i) = some w' ∧
      ∀ q ∈ w'.pending, tellsClosed q.request = false := by
  obtain ⟨hdata, -⟩ | ⟨-, -, hpaces, -⟩ := h.pending p (List.mem_of_getElem? hi)
  · exact absurd (hdata.symm.trans hcloses) nofun
  have hothers := (h.others hi hcloses).1
  have hready : (level below.clocked interval).ready p.call w.env w.state = true := by
    generalize p.call = call at hpaces
    cases hpaces <;> simp [level, ready, hended]
  refine ⟨_, Clockwork.step?_look hi hready, ?_⟩
  have houtcome : Outcome interval s scope w.env
      ((level below.clocked interval).resume p.call w.env w.state) :=
    resume_outcome below h.whole hpaces w.state.2.2
  generalize (level below.clocked interval).resume p.call w.env w.state = turn at houtcome
  cases houtcome with
  | told | gaveUp => exact fun q hq => (hothers q hq).1
  | waits hopen => exact absurd (hopen.symm.trans hended) nofun

theorem getElem?_of_prefix {α : Type} {xs ys : List α} (h : xs <+: ys) {i : Nat} {x : α}
    (hi : xs[i]? = some x) : ys[i]? = some x := by
  obtain ⟨hlt, rfl⟩ := List.getElem?_eq_some_iff.mp hi
  exact List.prefix_iff_getElem?.mp h i hlt

/-- From one poll to the next at least the interval goes by. -/
theorem PollLog.Kept.spaced (h : log.Kept interval s now) {i t : Nat}
    (hi : log.begun[i]? = some t) :
    s + i * interval ≤ t := by
  induction i generalizing t with
  | zero =>
    obtain ⟨rest, hrest⟩ := h.begun
    obtain ⟨first, others, hbegun⟩ := List.exists_cons_of_ne_nil h.first.some
    rw [hbegun] at hi hrest
    cases hi
    cases (List.cons.inj hrest).1
    simp
  | succ i ih =>
    have hdue : (s :: log.answered.map (Poll.next interval))[i + 1]? = some t :=
      getElem?_of_prefix h.begun hi
    rw [List.getElem?_cons_succ, List.getElem?_map, Option.map_eq_some_iff] at hdue
    obtain ⟨q, hq, rfl⟩ := hdue
    have hbegan : log.begun[i]? = some q.began := by
      refine getElem?_of_prefix h.paired ?_
      rw [List.getElem?_map, hq, Option.map_some]
    have hle : q.began + interval ≤ q.next interval :=
      Nat.le_trans (Time.le_roundUp _) (Nat.le_max_right _ _)
    have hih := ih hbegan
    rw [Nat.add_mul, Nat.one_mul]
    omega

end Clock

/-! ## The whole close -/

/-- A close that was called at `s`, seen at one state of the bridge with its callers; at an earlier
one the surroundings were `v`. -/
structure OnSchedule (base : List (Job σ)) (interval s : Nat) (scope : Scope) (v : Env)
    (w : Timed σ φ) : Prop where
  /-- The first poll begins at once and each of the others when it is due, one at a time. -/
  begun : w.state.2.1.begun <+: s :: w.state.2.1.answered.map (Poll.next interval)
  first : w.state.2.1.begun.head? = some s
  paired : w.state.2.1.answered.map Poll.began <+: w.state.2.1.begun
  /-- There are no more polls than intervals. -/
  spaced : ∀ i t, w.state.2.1.begun[i]? = some t → s + i * interval ≤ t ∧ t ≤ w.env.now
  /-- An answer that is not a timeout is the last, and ends the close at the same instant. -/
  decided : ∀ q ∈ w.state.2.1.answered, q.answer ≠ .error .timeout →
    w.state.2.1.answered.getLast? = some q ∧ ∃ c ∈ w.told, c.request = .close scope ∧ c.since = s ∧
      c.answer = verdict q.answer ∧ c.till = q.till
  /-- The close ends with such an answer, or with its scope, and not after it. -/
  told : ∀ c ∈ w.told, tellsClosed c.request = true → c.request = .close scope ∧ c.since = s ∧
    Settled s scope w.state.2.1 c ∧ (v.now < c.till → v.ended scope = false)
  /-- While the close goes on nothing is overdue: not the next poll, and not its own end. -/
  goesOn : ∀ p ∈ w.pending, tellsClosed p.request = true → p.request = .close scope ∧ p.since = s ∧
    (∀ q ∈ w.state.2.1.answered, q.answer = .error .timeout) ∧
    (∀ t, (s :: w.state.2.1.answered.map (Poll.next interval))[w.state.2.1.begun.length]? = some t →
      w.env.now ≤ t) ∧
    (∀ b, scope.alarm = some b → w.env.now ≤ max s b) ∧ (v.now < w.env.now → v.ended scope = false)
  /-- Before the clock moves on, the poll that is under way has been heard if it has an answer, and
  if none is, the next is still to come. -/
  heard : w.quiet (level below.clocked interval) (chores base) = true →
    ∀ p ∈ w.pending, tellsClosed p.request = true →
      (∃ t poll, p.call = .polling scope t (some t, poll) ∧
        w.state.2.1.answered.map Poll.began ++ [t] = w.state.2.1.begun ∧
        below.ready poll w.env w.state.2.2 = false) ∨
      ∃ due, p.call = .pausing scope due ∧
        w.state.2.1.begun ++ [due] = s :: w.state.2.1.answered.map (Poll.next interval) ∧
          w.env.now < due

theorem Scheduled.onSchedule (base : List (Job σ)) {w : Timed σ φ}
    (h : Scheduled interval s scope w) {v : Env} (hv : s ≤ v.now) (hwatched : w.Watched v) :
    OnSchedule below base interval s scope v w where
  begun := h.kept.begun
  first := by
    obtain ⟨rest, hrest⟩ := h.kept.begun
    obtain ⟨first, others, hbegun⟩ := List.exists_cons_of_ne_nil h.kept.first.some
    rw [hbegun] at hrest
    rw [hbegun, (List.cons.inj hrest).1, List.head?_cons]
  paired := h.kept.paired
  spaced i t hi := ⟨h.kept.spaced hi, h.kept.first.past t (List.mem_of_getElem? hi)⟩
  decided q hq hne := ⟨h.kept.last hq hne, h.answered q hq hne⟩
  told c hc hcloses := by
    obtain ⟨hclose, hsince, -, hsettled⟩ := h.told c hc hcloses
    refine ⟨hclose, hsince, hsettled, fun hlt => ?_⟩
    have hopen := hwatched.told c hc hcloses (hsince ▸ hv) hlt
    rwa [hclose] at hopen
  goesOn p hp hcloses := by
    obtain ⟨hdata, -⟩ | ⟨hclose, hsince, hpaces, halarm⟩ := h.pending p hp
    · exact absurd (hdata.symm.trans hcloses) nofun
    · refine ⟨hclose, hsince, hpaces.late, ?_, halarm, fun hlt => ?_⟩
      · generalize p.call = call at hpaces
        cases hpaces with
        | polling h => simp [h.begun]
        | pausing h hfirst hnow => simpa [← h.begun] using hnow
      · have hopen := hwatched.pending p hp hcloses (hsince ▸ hv) hlt
        rwa [hclose] at hopen
  heard hquiet p hp hcloses := by
    obtain ⟨hdata, -⟩ | ⟨-, -, hpaces, -⟩ := h.pending p hp
    · exact absurd (hdata.symm.trans hcloses) nofun
    · exact hpaces.heard below ((Clockwork.ready_of_quiet hquiet).1 p hp)

theorem unasked_fresh {env : Env} (hwhole : Time.millisecond ∣ env.now) {phase : Phase}
    (hphase : phase ≠ .closed) (x : σ) :
    Unasked (⟨env, (phase, {}, x), [], [], []⟩ : Timed σ φ) where
  whole := hwhole
  phase := hphase
  log := rfl
  pending := by simp
  told := by simp

/-- A close that is called on a bridge that is not closed, among any other calls but closes, keeps
to its schedule. When its scope has ended, the next look at it is the last; and unless it is given
up it goes on or was answered. -/
theorem close_on_schedule (below : Level .legacy σ φ) (hbelow : below.Punctual)
    (base : List (Job σ))
    (interval : Nat) {env : Env} (hwhole : Time.millisecond ∣ env.now) {phase : Phase}
    (hphase : phase ≠ .closed) (x : σ) {before acts more : List (Clockwork.Act .modern)}
    {called v w : Timed σ φ} {scope : Scope} {inside : Bool}
    (hbefore : Clockwork.run? (level below.clocked interval) (chores base)
      ⟨env, (phase, {}, x), [], [], []⟩ before = some called)
    (hacts : Clockwork.run? (level below.clocked interval) (chores base) called
      (.call (.close scope) inside :: acts) = some v)
    (hmore : Clockwork.run? (level below.clocked interval) (chores base) v more = some w)
    (husual : ∀ act ∈ before ++ acts ++ more, Usual act) :
    OnSchedule below base interval called.env.now scope v.env w ∧
      (w.env.ended scope = true → ∀ i p, w.pending[i]? = some p → tellsClosed p.request = true →
        ∃ w', w.step? (level below.clocked interval) (chores base) (.look i) = some w' ∧
          ∀ q ∈ w'.pending, tellsClosed q.request = false) ∧
      ((∀ i, .abandon i ∉ acts ++ more) → w.Served (.close scope) called.env.now) := by
  obtain ⟨husual, hmore'⟩ := List.forall_mem_append.mp husual
  obtain ⟨hbefore', hacts'⟩ := List.forall_mem_append.mp husual
  have hcalled := (unasked_fresh hwhole hphase x).run? base hbefore' hbefore
  obtain ⟨u, hu, hrest⟩ := Clockwork.run?_cons.mp hacts
  have hclosing := hcalled.close scope inside base (Clockwork.stepped hu)
  have hv := hclosing.run? hbelow base hacts' hrest
  have hw := hv.run? hbelow base hmore' hmore
  have hwatched : v.Watched v.env := by
    refine ⟨.refl _, fun _ _ _ _ hlt => absurd hlt (Nat.lt_irrefl _), fun c hc hcloses _ hlt => ?_⟩
    exact absurd (hv.told c hc hcloses).2.2.1 (Nat.not_le.mpr hlt)
  refine ⟨hw.onSchedule below base hv.since (hv.watched hbelow base hwatched hmore' hmore),
    fun hended i p hi hcloses => hw.answered_of_ended base hended hi hcloses, fun habandon => ?_⟩
  have hserved : u.Served (.close scope) called.env.now := by
    cases hu
    exact .take_new _ _ _ _
  exact (hserved.run? hrest fun i hi => habandon i (List.mem_append_left _ hi)).run? hmore
    fun i hi =>
    habandon i (List.mem_append_right _ hi)

/-- A cache that answers each poll after 7 ms, and succeeds with the second. -/
def sluggish : Level .legacy (Spy.State .legacy LegacyDouble.State)
    (Spy.Call .legacy LegacyDouble.Call) :=
  Spy.level { level := 0, delays := [(.waitForClose, 7 * Time.millisecond)] }
    (LegacyDouble.level { pendingWaits := some 1, instantTimeout := true })

/-- Looks at a close after 7 ms, after 10 and after `last`. -/
def looks (last : Nat) : List (Clockwork.Act .modern) :=
  [.pass (7 * Time.millisecond), .look 0, .pass (10 * Time.millisecond), .look 0,
    .pass (last * Time.millisecond), .look 0]

theorem usual_looks (last : Nat) : ∀ act ∈ [] ++ looks last ++ [], Usual act := by
  have hwhole (n : Nat) : Usual (.pass (n * Time.millisecond)) :=
    usual_pass.mpr ⟨n, Nat.mul_comm _ _⟩
  simp only [looks, List.nil_append, List.append_nil, List.forall_mem_cons, hwhole, usual_look,
    true_and]
  exact nofun

/-- Polled every 10 ms, it is closed after 17; and a close whose scope ends after 12 ms ends
then. -/
theorem close_on_schedule_sluggish :
    let ms := Time.millisecond
    let fresh : Timed _ _ := ⟨⟨0, 0, {}, true⟩, (.active, {}, ([], {})), [], [], []⟩
    let closed (scope : Scope) (last : Nat) (w : Timed _ _) : Prop :=
      Clockwork.run? (level sluggish.clocked (10 * ms)) (chores []) fresh
          (.call (.close scope) true :: looks last) = some w ∧
        OnSchedule sluggish [] (10 * ms) 0 scope w.env w ∧ w.state.2.1.begun = [0, 10 * ms]
    sluggish.Punctual ∧
      (∃ w, closed .background 17 w ∧ w.state.1 = .closed ∧
        (w.told.map fun c => (c.answer, c.till)) = [(Answer.done, 17 * ms)]) ∧
      ∃ w, closed ⟨none, some (12 * ms)⟩ 12 w ∧ w.state.1 = .closing ∧
        (w.told.map fun c => (c.answer, c.till)) = [(.error .timeout, 12 * ms)] := by
  have hpunctual : sluggish.Punctual := Spy.punctual (LegacyDouble.punctual _) _
  have hclose (scope : Scope) (last : Nat) {w : Timed _ _} (hrun) :=
    @close_on_schedule _ _ sluggish hpunctual [] (10 * Time.millisecond) ⟨0, 0, {}, true⟩
      (by decide)
      .active nofun ([], {}) [] (looks last) [] _ w w scope true rfl hrun rfl (usual_looks last)
  exact ⟨hpunctual, ⟨_, ⟨rfl, (hclose _ 17 rfl).1, rfl⟩, rfl, rfl⟩,
    ⟨_, ⟨rfl, (hclose _ 12 rfl).1, rfl⟩, rfl, rfl⟩⟩

end ToModern

end CacheBridge
