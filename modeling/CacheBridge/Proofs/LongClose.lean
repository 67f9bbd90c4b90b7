import CacheBridge.Proofs.Closing
import CacheBridge.Proofs.Polling

/-!
A close that takes its time, through a tower. It is asked for at the top and is at the bottom before
anything else can happen; then every bridge to modern polls, until the bottom has closed and the
news has come back up. `Closing` says how far a close has come that was first asked for at `s`: it
holds from then on, whatever else the tower is used for, and where nothing is ready it leaves little
open.
-/

namespace CacheBridge

/-! ## What reaches the bottom -/

/-- The closes that a modern cache was asked for, what it has said to them, with the instants, and
how often it was looked at. -/
structure CloseLog where
  asked : List (Nat × Scope) := []
  told : List (Nat × Answer .modern) := []
  looks : Nat := 0

namespace CloseLog

variable {σ φ : Type}

def ask (log : CloseLog) (now : Nat) : ModernRequest → CloseLog
  | .close scope => { log with asked := log.asked ++ [(now, scope)] }
  | _ => log

def look (log : CloseLog) : CloseLog := { log with looks := log.looks + 1 }

/-- The answer to a call, which `closes` the cache or does not. -/
def hear (log : CloseLog) (now : Nat) (closes : Bool) : Progress φ (Answer .modern) → CloseLog
  | .waiting _ => log
  | .answered a => if closes then { log with told := log.told ++ [(now, a)] } else log

/-- A step of a call, noted. -/
def note (log : CloseLog) (now : Nat) (closes : Bool) (turn : Turn σ φ (Answer .modern)) :
    Turn (CloseLog × σ) (Bool × φ) (Answer .modern) :=
  turn.map (fun s => ((log.hear now closes turn.progress).look, s)) (fun call => (closes, call)) id

end CloseLog

namespace CloseLog

/-- What the log has heard since, it has heard now. -/
def Hears (now : Nat) (log log' : CloseLog) : Prop :=
  ∃ news, log'.told = log.told ++ news ∧ ∀ p ∈ news, p.1 = now

theorem Hears.of_eq {now : Nat} {log log' : CloseLog} (h : log'.told = log.told) :
    log.Hears now log' :=
  ⟨[], by rw [h, List.append_nil], nofun⟩

theorem Hears.refl {now : Nat} (log : CloseLog) : log.Hears now log := .of_eq rfl

/-- Where one thing has been heard by now, it was heard before, or just now. -/
theorem Hears.before {now f : Nat} {log log' : CloseLog} (h : log.Hears now log')
    {a : Answer .modern} (htold : log'.told = [(f, a)]) :
    log.told = [(f, a)] ∨ log.told = [] ∧ f = now := by
  obtain ⟨news, hnews, hnow⟩ := h
  rw [hnews] at htold
  obtain ⟨hold, hnew⟩ | ⟨hold, hnew⟩ := List.append_eq_singleton_iff.mp htold
  · exact .inr ⟨hold, hnow (f, a) (hnew ▸ List.mem_cons_self)⟩
  · exact .inl hold

theorem hears_note {σ φ : Type} (log : CloseLog) (now : Nat) (closes : Bool)
    (turn : Turn σ φ (Answer .modern)) : log.Hears now (log.note now closes turn).state.1 := by
  obtain ⟨y, p, es⟩ := turn
  cases p with
  | waiting call => exact .of_eq rfl
  | answered a =>
    cases closes with
    | false => exact .of_eq rfl
    | true => exact ⟨[(now, a)], rfl, fun p hp => congrArg Prod.fst (List.mem_singleton.mp hp)⟩

theorem looks_note {σ φ : Type} (log : CloseLog) (now : Nat) (closes : Bool)
    (turn : Turn σ φ (Answer .modern)) :
    (log.note now closes turn).state.1.looks = log.looks + 1 := by
  obtain ⟨y, p, es⟩ := turn
  cases p <;> cases closes <;> rfl

end CloseLog

/-- The level with a log of its closes. -/
def Level.logged {σ φ : Type} (l : Level .modern σ φ) :
    Level .modern (CloseLog × σ) (Bool × φ) where
  offers := l.offers
  asking := l.asking
  start r env s :=
    (s.1.ask env.now r).note env.now (asksClose (g := .modern) r) (l.start r env s.2)
  resume call env s := s.1.note env.now call.1 (l.resume call.2 env s.2)
  ready call env s := l.ready call.2 env s.2
  alarm call := l.alarm call.2

/-- Background work of a cache with a log. -/
def Job.logged {σ : Type} (j : Job σ) : Job (CloseLog × σ) where
  ready env s := j.ready env s.2
  alarm s := j.alarm s.2
  run env s := ((s.1.look, (j.run env s.2).1), (j.run env s.2).2)

namespace Tower

variable {g : Generation} {σ φ : Type}

/-- The states of a tower over a cache with a log of its closes. -/
abbrev Logged (σ φ : Type) (t : Tower .modern g) : Type := t.State (CloseLog × σ) (Bool × φ)

abbrev LoggedCall (φ : Type) (t : Tower .modern g) : Type := t.Call (Bool × φ)

/-- The tower as a cache, on one with a log. -/
abbrev logging (below : Level .modern σ φ) (t : Tower .modern g) :
    Level g (t.Logged σ φ) (t.LoggedCall φ) := t.level below.logged

/-- The background work of the tower, with that of the bottom. -/
abbrev works (below : Level .modern σ φ) (base : List (Job σ)) (t : Tower .modern g) :
    List (Job (t.Logged σ φ)) := t.jobs below.logged (base.map Job.logged)

def log (t : Tower .modern g) (s : t.Logged σ φ) : CloseLog := (t.bottom s).1

/-! ## How far a close has come -/

/-- Nobody has asked for a close. -/
def Calm : {g : Generation} → (t : Tower .modern g) → t.Logged σ φ → Prop
  | _, .ground, x => x.1.asked = [] ∧ x.1.told = []
  | _, .toLegacy _ t, x => x.1 = .fresh ∧ t.Calm x.2
  | _, .toModern _ t, x => x.1 = .active ∧ t.Calm x.2

/-- The bottom, asked at `s`, has closed, and all of the tower with it. -/
def Shut (s : Nat) : {g : Generation} → (t : Tower .modern g) → t.Logged σ φ → Prop
  | _, .ground, x => x.1.asked = [(s, .background)] ∧ ∃ f reply, x.1.told = [(f, .ok reply)]
  | _, .toLegacy _ t, x => x.1 = ⟨.closed, .finished⟩ ∧ t.Shut s x.2
  | _, .toModern _ t, x => x.1 = .closed ∧ t.Shut s x.2

/-- The bottom, asked at `s`, has failed to close, and there is no bridge between. -/
def Failed (s : Nat) : (t : Tower .modern .modern) → t.Logged σ φ → Prop
  | .ground, x => x.1.asked = [(s, .background)] ∧ ∃ f e, x.1.told = [(f, .error e)]
  | .toModern .., _ => False

/-- The call is that of the one background close. -/
def Awaits (now s : Nat) : (t : Tower .modern .modern) → t.LoggedCall φ → Prop
  | .ground, call => call.1 = true
  | .toModern poll (.toLegacy _ _), call => ToModern.Polls now s poll .background call

/-- A close was first asked for at the top at `s`, and has come some of the way. -/
def Closing (now s : Nat) : {g : Generation} → (t : Tower .modern g) → t.Logged σ φ → Prop
  | _, .ground, x => x.1.asked = [(s, .background)] ∧ x.1.told = []
  | _, .toLegacy _ t, x =>
    (x.1 = ⟨.closing, .requested⟩ ∧ t.Calm x.2 ∧ now = s) ∨
    (∃ call, x.1 = ⟨.closing, .running call⟩ ∧ t.Awaits now s call ∧ t.Closing now s x.2) ∨
    (x.1 = ⟨.closing, .finished⟩ ∧ t.Failed s x.2) ∨
    (x.1 = ⟨.closed, .finished⟩ ∧ t.Shut s x.2)
  | _, .toModern _ t, x => x.1 = .closing ∧ t.Closing now s x.2

/-! ## How much there is still to do -/

/-- A poll of a close that is over counts as one look. -/
def overdue (now : Nat) : {g : Generation} → (t : Tower .modern g) → t.LoggedCall φ → Nat
  | _, .ground, _ => 0
  | _, .toLegacy _ _, _ => 0
  | _, .toModern _ (.toLegacy _ _), call => ToModern.Call.overdue now call

/-- The looks that a background close has still to come, not counting those at the bottom. -/
def closerRest (now : Nat) (t : Tower .modern .modern) :
    ToLegacy.Closer (t.LoggedCall φ) → Nat
  | .running call => 1 + t.overdue now call
  | closer => closer.left

/-- The looks that all background closes together have still to come. -/
def rest (now : Nat) : {g : Generation} → (t : Tower .modern g) → t.Logged σ φ → Nat
  | _, .ground, _ => 0
  | _, .toLegacy _ t, x => t.rest now x.2 + t.closerRest now x.1.closer
  | _, .toModern _ t, x => t.rest now x.2

/-- Each look brings the shutdown on, or has reached the bottom. -/
structure Advances (now looks : Nat) (t : Tower .modern g) (x x' : t.Logged σ φ) : Prop where
  hears : (t.log x).Hears now (t.log x')
  rest : t.rest now x' + looks + (t.log x).looks ≤ t.rest now x + (t.log x').looks

section Advances

variable {now looks : Nat}

theorem advances_ground {x x' : CloseLog × σ} (hears : x.1.Hears now x'.1)
    (h : x.1.looks + looks ≤ x'.1.looks) :
    Advances now looks (ground : Tower .modern .modern) (σ := σ) (φ := φ) x x' := by
  refine ⟨hears, ?_⟩
  change 0 + looks + x.1.looks ≤ 0 + x'.1.looks
  omega

theorem Advances.beneath_toModern {t : Tower .modern .legacy} {poll : Nat}
    {x x' : (toModern poll t).Logged σ φ} (h : t.Advances now looks x.2 x'.2) :
    (toModern poll t).Advances now looks x x' :=
  ⟨h.hears, h.rest⟩

/-- What is done below and what is done by the closer of a bridge add up. -/
theorem Advances.beneath_toLegacy {t : Tower .modern .modern} {counts : Bool} {more : Nat}
    {x x' : (toLegacy counts t).Logged σ φ} (h : t.Advances now looks x.2 x'.2)
    (hcloser : t.closerRest now x'.1.closer + more ≤ t.closerRest now x.1.closer + looks) :
    (toLegacy counts t).Advances now more x x' := by
  refine ⟨h.hears, ?_⟩
  change t.rest now x'.2 + t.closerRest now x'.1.closer + more + (t.log x.2).looks ≤
    t.rest now x.2 + t.closerRest now x.1.closer + (t.log x'.2).looks
  have hrest := h.rest
  omega

theorem Advances.of_eq {t : Tower .modern g} {x x' : t.Logged σ φ} (h : x' = x) :
    t.Advances now 0 x x' :=
  h ▸ ⟨.refl _, Nat.le_refl _⟩

theorem Advances.trans_eq {t : Tower .modern g} {x x' x'' : t.Logged σ φ}
    (h : t.Advances now looks x x') (h' : x'' = x') : t.Advances now looks x x'' :=
  h' ▸ h

end Advances

/-! ## What leaves a close alone -/

/-- The same but for the state of the bottom, which was not asked for a close, and told of none. -/
def Like : {g : Generation} → (t : Tower .modern g) → t.Logged σ φ → t.Logged σ φ → Prop
  | _, .ground, x, x' => x'.1.asked = x.1.asked ∧ x'.1.told = x.1.told
  | _, .toLegacy _ t, x, x' => x'.1 = x.1 ∧ t.Like x.2 x'.2
  | _, .toModern _ t, x, x' => x'.1 = x.1 ∧ t.Like x.2 x'.2

namespace Like

variable {t : Tower .modern g} {x x' x'' : t.Logged σ φ} {now s : Nat}

theorem refl (t : Tower .modern g) (x : t.Logged σ φ) : t.Like x x := by
  induction t with
  | ground => exact ⟨rfl, rfl⟩
  | toLegacy counts t ih => exact ⟨rfl, ih x.2⟩
  | toModern poll t ih => exact ⟨rfl, ih x.2⟩

theorem trans (h : t.Like x x') (h' : t.Like x' x'') : t.Like x x'' := by
  induction t with
  | ground => exact ⟨h'.1.trans h.1, h'.2.trans h.2⟩
  | toLegacy counts t ih => exact ⟨h'.1.trans h.1, ih h.2 h'.2⟩
  | toModern poll t ih => exact ⟨h'.1.trans h.1, ih h.2 h'.2⟩

theorem log (h : t.Like x x') :
    (t.log x').asked = (t.log x).asked ∧ (t.log x').told = (t.log x).told := by
  induction t with
  | ground => exact h
  | toLegacy counts t ih => exact ih h.2
  | toModern poll t ih => exact ih h.2

theorem rest (h : t.Like x x') : t.rest now x' = t.rest now x := by
  induction t with
  | ground => rfl
  | toLegacy counts t ih => simp only [Tower.rest, h.1, ih h.2]
  | toModern poll t ih => exact ih h.2

theorem calm (h : t.Like x x') (hx : t.Calm x) : t.Calm x' := by
  induction t with
  | ground => exact ⟨h.1.trans hx.1, h.2.trans hx.2⟩
  | toLegacy counts t ih => exact ⟨h.1.trans hx.1, ih h.2 hx.2⟩
  | toModern poll t ih => exact ⟨h.1.trans hx.1, ih h.2 hx.2⟩

theorem shut (h : t.Like x x') (hx : t.Shut s x) : t.Shut s x' := by
  induction t with
  | ground =>
    obtain ⟨hasked, f, reply, htold⟩ := hx
    exact ⟨h.1.trans hasked, f, reply, h.2.trans htold⟩
  | toLegacy counts t ih => exact ⟨h.1.trans hx.1, ih h.2 hx.2⟩
  | toModern poll t ih => exact ⟨h.1.trans hx.1, ih h.2 hx.2⟩

theorem failed {t : Tower .modern .modern} {x x' : t.Logged σ φ} (h : t.Like x x')
    (hx : t.Failed s x) : t.Failed s x' := by
  cases t with
  | ground =>
    obtain ⟨hasked, f, e, htold⟩ := hx
    exact ⟨h.1.trans hasked, f, e, h.2.trans htold⟩
  | toModern poll t => exact hx

theorem closing (h : t.Like x x') (hx : t.Closing now s x) : t.Closing now s x' := by
  induction t with
  | ground => exact ⟨h.1.trans hx.1, h.2.trans hx.2⟩
  | toLegacy counts t ih =>
    obtain ⟨hown, hcalm, hnow⟩ | ⟨call, hown, hcall, hclosing⟩ | ⟨hown, hfailed⟩ | ⟨hown, hshut⟩ :=
      hx
    · exact .inl ⟨h.1.trans hown, h.2.calm hcalm, hnow⟩
    · exact .inr (.inl ⟨call, h.1.trans hown, hcall, ih h.2 hclosing⟩)
    · exact .inr (.inr (.inl ⟨h.1.trans hown, h.2.failed hfailed⟩))
    · exact .inr (.inr (.inr ⟨h.1.trans hown, h.2.shut hshut⟩))
  | toModern poll t ih => exact ⟨h.1.trans hx.1, ih h.2 hx.2⟩

end Like

/-! ## The background close of one bridge -/

/-- What a look at the background close comes to. -/
inductive Went (now s : Nat) (t : Tower .modern .modern) :
    Turn (t.Logged σ φ) (t.LoggedCall φ) (Answer .modern) → Prop where
  | shut {x : t.Logged σ φ} (h : t.Shut s x) (reply : Reply) (es : List Event) :
      Went now s t ⟨x, .answered (.ok reply), es⟩
  | failed {x : t.Logged σ φ} (h : t.Failed s x) (e : Failure .modern) (es : List Event) :
      Went now s t ⟨x, .answered (.error e), es⟩
  | waits {x : t.Logged σ φ} (h : t.Closing now s x) {call : t.LoggedCall φ}
      (hcall : t.Awaits now s call) (hover : t.overdue now call = 0) (es : List Event) :
      Went now s t ⟨x, .waiting call, es⟩

section Closers

variable (below : Level .modern σ φ) {env : Env} {s : Nat}

/-- A step of the close at the bottom. -/
theorem went_note {log : CloseLog} (hasked : log.asked = [(s, .background)]) (htold : log.told = [])
    (now : Nat) (turn : Turn σ φ (Answer .modern)) :
    Went now s ground (log.note now true turn) := by
  obtain ⟨y, p, es⟩ := turn
  cases p with
  | waiting call =>
    have hx : (ground : Tower .modern .modern).Closing (φ := φ) now s (log.look, y) :=
      ⟨hasked, htold⟩
    have hcall : (ground : Tower .modern .modern).Awaits now s (true, call) := rfl
    exact .waits hx hcall rfl es
  | answered a =>
    have hheard : log.told ++ [(now, a)] = [(now, a)] := by rw [htold, List.nil_append]
    cases a with
    | ok reply =>
      have hx : (ground : Tower .modern .modern).Shut (φ := φ) s ((log.hear now true
        (.answered (.ok reply) : Progress φ _)).look, y) := ⟨hasked, now, reply, hheard⟩
      exact .shut hx reply es
    | error e =>
      have hx : (ground : Tower .modern .modern).Failed (φ := φ) s ((log.hear now true
        (.answered (.error e) : Progress φ _)).look, y) := ⟨hasked, now, e, hheard⟩
      exact .failed hx e es

/-- A bridge that is closed knows that the bottom has closed. -/
theorem Closing.shut_of_closed {now : Nat} {counts : Bool} {t : Tower .modern .modern}
    {x : (toLegacy counts t).Logged σ φ} (h : (toLegacy counts t).Closing now s x)
    (hclosed : x.1.phase = .closed) : (toLegacy counts t).Shut s x := by
  obtain ⟨hown, -⟩ | ⟨call, hown, -⟩ | ⟨hown, -⟩ | hshut := h
  · rw [hown] at hclosed; cases hclosed
  · rw [hown] at hclosed; cases hclosed
  · rw [hown] at hclosed; cases hclosed
  · exact hshut

/-- What a look at a close of the bridge to modern comes to under the scope that never ends. -/
theorem went_polled {poll : Nat} {counts : Bool} {t : Tower .modern .modern}
    {x : (toLegacy counts t).Logged σ φ} (hx : (toLegacy counts t).Closing env.now s x)
    {turn : Turn ((toModern poll (toLegacy counts t)).Logged σ φ) _ (Answer .modern)}
    (h : ToModern.Polled env s poll .background (x.1.phase = .closed) .closing x turn) :
    Went env.now s (toModern poll (toLegacy counts t)) turn ∧ turn.state.2 = x := by
  cases h with
  | done hclosed es =>
    have hx : (toModern poll (toLegacy counts t)).Shut s (.closed, x) :=
      ⟨rfl, hx.shut_of_closed hclosed⟩
    exact ⟨.shut hx .done es, rfl⟩
  | gaveUp hended => exact absurd hended (by simp [Env.ended])
  | waits _ hcall hover es =>
    have hx : (toModern poll (toLegacy counts t)).Closing env.now s (.closing, x) := ⟨rfl, hx⟩
    exact ⟨.waits hx hcall hover es, rfl⟩

/-- The background close of a calm cache. -/
theorem start_calm {t : Tower .modern .modern} (hp : t.Prompt) (hr : env.runtime = true)
    {x : t.Logged σ φ} (hx : t.Calm x) :
    Went env.now env.now t ((t.logging below).start (.close .background) env x) ∧
      t.Advances env.now 0 x ((t.logging below).start (.close .background) env x).state := by
  cases t with
  | ground =>
    obtain ⟨log, y⟩ := x
    obtain ⟨hasked, htold⟩ := hx
    have hask : (log.ask env.now (.close .background)).asked = [(env.now, .background)] := by
      simp [CloseLog.ask, show log.asked = [] from hasked]
    have hlooks := (log.ask env.now (.close .background)).looks_note env.now true
      (below.start (.close .background) env y)
    have hears := (log.ask env.now (.close .background)).hears_note env.now true
      (below.start (.close .background) env y)
    exact ⟨went_note hask htold env.now (below.start (.close .background) env y),
      advances_ground hears (Nat.le_trans (Nat.le_succ log.looks) (Nat.le_of_eq hlooks.symm))⟩
  | toModern poll t =>
    cases t with
    | toLegacy counts t =>
      obtain ⟨phase, own, x⟩ := x
      obtain ⟨hphase, hown, hx⟩ := hx
      cases (hphase : phase = _)
      cases (hown : own = _)
      have hclosing : (toLegacy counts t).Closing env.now env.now (⟨.closing, .requested⟩, x) :=
        .inl ⟨rfl, hx, rfl⟩
      obtain ⟨hwent, hstate⟩ := went_polled hclosing (ToModern.close_active_polled (t.logging below)
        counts .background hp.1 hr x)
      have hsignal : (toLegacy counts t).Advances env.now 0 (.fresh, x)
          (⟨.closing, .requested⟩, x) :=
        Advances.beneath_toLegacy (.of_eq rfl) (Nat.le_succ 2)
      exact ⟨hwent, .beneath_toModern (hsignal.trans_eq hstate)⟩

/-- A look at the background close of a cache that is closing. -/
theorem resume_closing {t : Tower .modern .modern} (hp : t.Prompt)
    {x : t.Logged σ φ} (hx : t.Closing env.now s x) {call : t.LoggedCall φ}
    (hcall : t.Awaits env.now s call) :
    let turn := (t.logging below).resume call env x
    Went env.now s t turn ∧ t.Advances env.now 0 x turn.state ∧
      ((t.logging below).ready call env x = true → ∀ next, turn.progress = .waiting next →
        t.overdue env.now call = 1 ∨ t.Advances env.now 1 x turn.state) := by
  cases t with
  | ground =>
    obtain ⟨log, y⟩ := x
    obtain ⟨closes, call⟩ := call
    obtain ⟨hasked, htold⟩ := hx
    cases (hcall : closes = true)
    have hlooks := log.looks_note env.now true (below.resume call env y)
    have hears := log.hears_note env.now true (below.resume call env y)
    refine ⟨went_note hasked htold env.now (below.resume call env y), ?_, ?_⟩
    · exact advances_ground hears (Nat.le_trans (Nat.le_succ log.looks) (Nat.le_of_eq hlooks.symm))
    · exact fun _ _ _ => .inr (advances_ground hears (Nat.le_of_eq hlooks.symm))
  | toModern poll t =>
    cases t with
    | toLegacy counts t =>
      obtain ⟨phase, x⟩ := x
      obtain ⟨hphase, hx⟩ := hx
      cases (hphase : phase = _)
      have hcall : ToModern.Polls env.now s poll .background call := hcall
      obtain ⟨hwent, hstate⟩ := went_polled hx (ToModern.resume_polled (t.logging below) counts
        .closing (x := x) hp.1 hcall)
      refine ⟨hwent, .beneath_toModern (.of_eq hstate), fun hready next hwaits => .inl ?_⟩
      exact ToModern.resume_ready (t.logging below) counts hcall hready hwaits

/-- What a look at the background close does to the bridge. -/
theorem conclude_went {now : Nat} {t : Tower .modern .modern} (counts : Bool)
    (own : ToLegacy.Own (t.LoggedCall φ)) (hphase : own.phase = .closing)
    {turn : Turn (t.Logged σ φ) (t.LoggedCall φ) (Answer .modern)} (h : Went now s t turn) :
    (toLegacy counts t).Closing now s (ToLegacy.conclude own turn).1 ∧
      (ToLegacy.conclude own turn).1.2 = turn.state ∧
      t.closerRest now (ToLegacy.conclude own turn).1.1.closer ≤ 1 ∧
      ((∀ next, turn.progress ≠ .waiting next) →
        t.closerRest now (ToLegacy.conclude own turn).1.1.closer = 0) := by
  obtain ⟨phase, closer⟩ := own
  cases (hphase : phase = .closing)
  cases h with
  | shut hx reply es => exact ⟨.inr (.inr (.inr ⟨rfl, hx⟩)), rfl, Nat.zero_le 1, fun _ => rfl⟩
  | failed hx e es => exact ⟨.inr (.inr (.inl ⟨rfl, hx⟩)), rfl, Nat.zero_le 1, fun _ => rfl⟩
  | waits hx hcall hover es =>
    exact ⟨.inr (.inl ⟨_, rfl, hcall, hx⟩), rfl, Nat.le_of_eq (congrArg (1 + ·) hover),
      fun hanswered => absurd rfl (hanswered _)⟩

/-- The background close of a bridge keeps a close going, and brings it on if it is ready. -/
theorem Closing.runCloser {t : Tower .modern .modern} {counts : Bool} (hp : t.Prompt)
    (hr : env.runtime = true) (hs : s ≤ env.now)
    {x : (toLegacy counts t).Logged σ φ} (h : (toLegacy counts t).Closing env.now s x) :
    let x' := (ToLegacy.runCloser (t.logging below) env x).1
    let ready := (ToLegacy.closing (t.logging below)).ready env x
    (toLegacy counts t).Closing env.now s x' ∧
      (toLegacy counts t).Advances env.now (if ready then 1 else 0) x x' := by
  obtain ⟨own, x⟩ := x
  obtain ⟨hown, hcalm, rfl⟩ | ⟨call, hown, hcall, hx⟩ | ⟨hown, hfailed⟩ | ⟨hown, hshut⟩ := id h
  · cases (hown : own = _)
    obtain ⟨hwent, hadvances⟩ := start_calm below hp hr hcalm
    obtain ⟨hclosing, hstate, hrest, -⟩ := conclude_went counts ⟨.closing, .requested⟩ rfl hwent
    exact ⟨hclosing, (hadvances.trans_eq hstate).beneath_toLegacy (Nat.succ_le_succ hrest)⟩
  · cases (hown : own = _)
    have hx : t.Closing env.now s x := hx
    obtain ⟨hwent, hadvances, hready⟩ := resume_closing below hp hx hcall
    obtain ⟨hclosing, hstate, hrest, hdone⟩ :=
      conclude_went counts ⟨.closing, .running call⟩ rfl hwent
    refine ⟨hclosing, ?_⟩
    change Advances env.now (if (t.logging below).ready call env x then 1 else 0)
      (toLegacy counts t) _
      (ToLegacy.conclude ⟨.closing, .running call⟩ ((t.logging below).resume call env x)).1
    generalize (t.logging below).resume call env x = turn at *
    have hadd {looks more : Nat} (h : t.Advances env.now looks x turn.state)
        (hle : t.closerRest env.now (ToLegacy.conclude ⟨.closing, .running call⟩ turn).1.1.closer +
          more ≤ 1 + t.overdue env.now call + looks) :
        (toLegacy counts t).Advances env.now more (⟨.closing, .running call⟩, x)
          (ToLegacy.conclude ⟨.closing, .running call⟩ turn).1 :=
      (h.trans_eq hstate).beneath_toLegacy hle
    split
    · next hr =>
      by_cases hwaits : ∃ next, turn.progress = .waiting next
      · obtain ⟨next, hnext⟩ := hwaits
        rcases hready hr next hnext with hover | hadvances
        · exact hadd hadvances (by omega)
        · exact hadd hadvances (by omega)
      · have hdone := hdone (not_exists.mp hwaits)
        exact hadd hadvances (by omega)
    · exact hadd hadvances (by omega)
  · cases (hown : own = _)
    exact ⟨h, .of_eq rfl⟩
  · cases (hown : own = _)
    exact ⟨h, .of_eq rfl⟩

end Closers

/-! ## All background work -/

/-- No bridge has a background close under way. -/
def Resting : {g : Generation} → (t : Tower .modern g) → t.Logged σ φ → Prop
  | _, .ground, _ => True
  | _, .toLegacy _ t, x => (x.1.closer = .idle ∨ x.1.closer = .finished) ∧ t.Resting x.2
  | _, .toModern _ t, x => t.Resting x.2

section Works

variable {t : Tower .modern g} {x : t.Logged σ φ} {now s : Nat}

theorem Calm.resting (h : t.Calm x) : t.Resting x := by
  induction t with
  | ground => trivial
  | toLegacy counts t ih =>
    refine ⟨.inl ?_, ih h.2⟩
    rw [h.1]
    rfl
  | toModern poll t ih => exact ih h.2

theorem Shut.resting (h : t.Shut s x) : t.Resting x := by
  induction t with
  | ground => trivial
  | toLegacy counts t ih => exact ⟨.inr (congrArg ToLegacy.Own.closer h.1), ih h.2⟩
  | toModern poll t ih => exact ih h.2

theorem Failed.resting {t : Tower .modern .modern} {x : t.Logged σ φ} (h : t.Failed s x) :
    t.Resting x := by
  cases t with
  | ground => trivial
  | toModern poll t => exact h.elim

variable (below : Level .modern σ φ) (base : List (Job σ)) {env : Env} {job : Job (t.Logged σ φ)}

/-- Work at the bottom. -/
theorem work_ground {x : (ground : Tower .modern .modern).Logged σ φ}
    {job : Job ((ground : Tower .modern .modern).Logged σ φ)}
    (hjob : job ∈ (ground : Tower .modern .modern).works below base) (env : Env) (now looks : Nat)
    (h : looks ≤ 1) :
    (ground : Tower .modern .modern).Like (φ := φ) x (job.run env x).1 ∧
      Advances now looks (ground : Tower .modern .modern) (φ := φ) x (job.run env x).1 := by
  obtain ⟨job, -, rfl⟩ := List.mem_map.mp hjob
  exact ⟨⟨rfl, rfl⟩, advances_ground (.of_eq rfl) (Nat.add_le_add_left h x.1.looks)⟩

theorem ite_le_one (b : Bool) : (if b then 1 else 0) ≤ 1 := by cases b <;> decide

/-- Where all bridges rest there is nothing to do but at the bottom. -/
theorem Resting.work (now : Nat) (env : Env) (h : t.Resting x) (hjob : job ∈ t.works below base) :
    t.Like x (job.run env x).1 ∧
      t.Advances now (if job.ready env x then 1 else 0) x (job.run env x).1 := by
  induction t with
  | ground => exact work_ground below base hjob env now _ (ite_le_one _)
  | toLegacy counts t ih =>
    rcases List.mem_append.mp hjob with hjob | hjob
    · obtain ⟨inner, hinner, rfl⟩ := List.mem_map.mp hjob
      obtain ⟨hlike, hadvances⟩ := ih h.2 hinner
      exact ⟨⟨rfl, hlike⟩, hadvances.beneath_toLegacy (Nat.le_refl _)⟩
    · cases List.mem_singleton.mp hjob
      obtain ⟨own, x⟩ := x
      obtain ⟨phase, closer⟩ := own
      rcases h.1 with hidle | hfinished
      · cases (hidle : closer = .idle)
        exact ⟨.refl _ _, .of_eq rfl⟩
      · cases (hfinished : closer = .finished)
        exact ⟨.refl _ _, .of_eq rfl⟩
  | toModern poll t ih =>
    obtain ⟨inner, hinner, rfl⟩ := List.mem_map.mp hjob
    obtain ⟨hlike, hadvances⟩ := ih h hinner
    exact ⟨⟨rfl, hlike⟩, hadvances.beneath_toModern⟩

/-- Background work keeps a close going, and brings it on if it is ready. -/
theorem Closing.work (hp : t.Prompt) (hr : env.runtime = true) (hs : s ≤ env.now)
    (h : t.Closing env.now s x) (hjob : job ∈ t.works below base) :
    t.Closing env.now s (job.run env x).1 ∧
      t.Advances env.now (if job.ready env x then 1 else 0) x (job.run env x).1 := by
  induction t with
  | ground =>
    obtain ⟨hlike, hadvances⟩ := work_ground (x := x) below base hjob env env.now _ (ite_le_one _)
    exact ⟨hlike.closing h, hadvances⟩
  | toModern poll t ih =>
    obtain ⟨inner, hinner, rfl⟩ := List.mem_map.mp hjob
    obtain ⟨hclosing, hadvances⟩ := ih hp.2 h.2 hinner
    exact ⟨⟨h.1, hclosing⟩, hadvances.beneath_toModern⟩
  | toLegacy counts t ih =>
    rcases List.mem_append.mp hjob with hjob | hjob
    · obtain ⟨inner, hinner, rfl⟩ := List.mem_map.mp hjob
      have hbeneath (h : t.Resting x.2) := h.work below base env.now env hinner
      obtain ⟨hown, hcalm, hnow⟩ | ⟨call, hown, hcall, hx⟩ | ⟨hown, hfailed⟩ | ⟨hown, hshut⟩ := h
      · obtain ⟨hlike, hadvances⟩ := hbeneath hcalm.resting
        exact ⟨.inl ⟨hown, hlike.calm hcalm, hnow⟩, hadvances.beneath_toLegacy (Nat.le_refl _)⟩
      · obtain ⟨hclosing, hadvances⟩ := ih hp hx hinner
        exact ⟨.inr (.inl ⟨call, hown, hcall, hclosing⟩),
          hadvances.beneath_toLegacy (Nat.le_refl _)⟩
      · obtain ⟨hlike, hadvances⟩ := hbeneath hfailed.resting
        exact ⟨.inr (.inr (.inl ⟨hown, hlike.failed hfailed⟩)),
          hadvances.beneath_toLegacy (Nat.le_refl _)⟩
      · obtain ⟨hlike, hadvances⟩ := hbeneath hshut.resting
        exact ⟨.inr (.inr (.inr ⟨hown, hlike.shut hshut⟩)),
          hadvances.beneath_toLegacy (Nat.le_refl _)⟩
    · cases List.mem_singleton.mp hjob
      exact Closing.runCloser below hp hr hs h

/-! ## Where nothing is ready -/

theorem Shut.log (h : t.Shut s x) :
    (t.log x).asked = [(s, .background)] ∧ ∃ f reply, (t.log x).told = [(f, .ok reply)] := by
  induction t with
  | ground => exact h
  | toLegacy counts t ih => exact ih h.2
  | toModern poll t ih => exact ih h.2

theorem Failed.log {t : Tower .modern .modern} {x : t.Logged σ φ} (h : t.Failed s x) :
    (t.log x).asked = [(s, .background)] ∧ ∃ f e, (t.log x).told = [(f, .error e)] := by
  cases t with
  | ground => exact h
  | toModern poll t => exact h.elim

theorem Calm.log (h : t.Calm x) : (t.log x).asked = [] ∧ (t.log x).told = [] := by
  induction t with
  | ground => exact h
  | toLegacy counts t ih => exact ih h.2
  | toModern poll t ih => exact ih h.2

/-- The bottom has closed, and so has everything up to a top that learns of it by polling. -/
def Arrived (s : Nat) : {g : Generation} → (t : Tower .modern g) → t.Logged σ φ → Prop
  | _, .ground, x => Shut s ground x
  | _, .toLegacy counts t, x => Shut s (toLegacy counts t) x
  | _, .toModern _ t, x => t.Shut s x.2

/-- Where no work is ready a close has got to the bottom. -/
theorem Closing.asked_of_quiet (h : t.Closing now s x)
    (hquiet : ∀ job ∈ t.works below base, job.ready env x = false) :
    (t.log x).asked = [(s, .background)] := by
  induction t with
  | ground => exact h.1
  | toModern poll t ih =>
    exact ih h.2 fun job hjob => hquiet (job.beneath _) (List.mem_map_of_mem hjob)
  | toLegacy counts t ih =>
    have hcloser := hquiet _ (List.mem_append_right _ List.mem_cons_self)
    obtain ⟨hown, -⟩ | ⟨call, -, -, hx⟩ | ⟨-, hfailed⟩ | ⟨-, hshut⟩ := h
    · simp [ToLegacy.closing, hown] at hcloser
    · exact ih hx fun job hjob =>
        hquiet (job.beneath _) (List.mem_append_left _ (List.mem_map_of_mem hjob))
    · exact hfailed.log.1
    · exact hshut.log.1

/-- The close that the lowest bridge has sent to the bottom, and that goes on there. -/
def Sent (call : φ) : {g : Generation} → (t : Tower .modern g) → t.Logged σ φ → Prop
  | _, .ground, _ => False
  | _, .toLegacy _ .ground, x => x.1.closer = .running (true, call)
  | _, .toLegacy _ (.toModern poll t), x => (toModern poll t).Sent call x.2
  | _, .toModern _ t, x => t.Sent call x.2

/-- And if the bottom has not answered, it is not ready to. -/
theorem Closing.heard_of_quiet (h : t.Closing now s x) (hdepth : 0 < t.depth)
    (hquiet : ∀ job ∈ t.works below base, job.ready env x = false) (hnone : (t.log x).told = []) :
    ∃ call, t.Sent call x ∧ below.ready call env (t.bottom x).2 = false := by
  induction t with
  | ground => exact absurd hdepth (Nat.lt_irrefl 0)
  | toModern poll t ih =>
    have hbelow (job) (hjob : job ∈ t.works below base) : job.ready env x.2 = false :=
      hquiet (job.beneath _) (List.mem_map_of_mem hjob)
    cases t with
    | toLegacy counts t => exact ih h.2 (Nat.succ_pos _) hbelow hnone
  | toLegacy counts t ih =>
    have hcloser := hquiet _ (List.mem_append_right _ List.mem_cons_self)
    obtain ⟨hown, -⟩ | ⟨call, hown, hcall, hx⟩ | ⟨-, hfailed⟩ | ⟨-, hshut⟩ := h
    · simp [ToLegacy.closing, hown] at hcloser
    · cases t with
      | ground =>
        obtain ⟨closes, call⟩ := call
        cases (hcall : closes = true)
        simp only [ToLegacy.closing, hown] at hcloser
        exact ⟨call, congrArg ToLegacy.Own.closer hown, hcloser⟩
      | toModern poll t =>
        exact ih hx (Nat.succ_pos _)
          (fun job hjob => hquiet (job.beneath _)
              (List.mem_append_left _ (List.mem_map_of_mem hjob))) hnone
    · obtain ⟨-, f, e, hfailed⟩ := hfailed.log
      exact absurd (hnone.symm.trans hfailed) (List.cons_ne_nil _ _).symm
    · obtain ⟨-, f, reply, hshut⟩ := hshut.log
      exact absurd (hnone.symm.trans hshut) (List.cons_ne_nil _ _).symm

/-- Where no work is ready and the bottom has closed, the news of it has come up. -/
theorem Closing.arrived_of_quiet (h : t.Closing env.now s x)
    (hquiet : ∀ job ∈ t.works below base, job.ready env x = false) {f : Nat} {reply : Reply}
    (htold : (t.log x).told = [(f, .ok reply)]) : t.Arrived s x := by
  induction t with
  | ground => exact absurd (h.2.symm.trans htold) (by simp)
  | toModern poll t ih =>
    have harrived :=
      ih h.2 (fun job hjob => hquiet (job.beneath _) (List.mem_map_of_mem hjob)) htold
    cases t with
    | toLegacy counts t => exact harrived
  | toLegacy counts t ih =>
    have hcloser := hquiet _ (List.mem_append_right _ List.mem_cons_self)
    obtain ⟨hown, -⟩ | ⟨call, hown, hcall, hx⟩ | ⟨-, hfailed⟩ | hshut := h
    · simp [ToLegacy.closing, hown] at hcloser
    · have harrived := ih hx
        (fun job hjob => hquiet (job.beneath _) (List.mem_append_left _ (List.mem_map_of_mem hjob)))
        htold
      simp only [ToLegacy.closing, hown] at hcloser
      cases t with
      | ground => exact absurd (hx.2.symm.trans htold) (by simp)
      | toModern poll t =>
        cases t with
        | toLegacy counts' t =>
          obtain ⟨own, phase, y⟩ := x
          have hopen := (ToModern.Polls.unready (t.logging below) counts' hcall hcloser).2.1
          have hown' : y.1 = ⟨.closed, .finished⟩ := harrived.1
          exact absurd (congrArg ToLegacy.Own.phase hown') hopen
    · obtain ⟨-, f', e, htold'⟩ := hfailed.log
      exact absurd (htold'.symm.trans htold) (by simp)
    · exact hshut

/-- Time may go by where nothing is ready, up to the first alarm. -/
theorem Closing.pass {later : Nat} (h : t.Closing env.now s x)
    (hquiet : ∀ job ∈ t.works below base, job.ready env x = false)
    (halarms : ∀ job ∈ t.works below base, ∀ a, job.alarm x = some a → env.now < a → later ≤ a)
    (hle : env.now ≤ later) : t.Closing later s x := by
  induction t with
  | ground => exact h
  | toModern poll t ih =>
    exact ⟨h.1, ih h.2 (fun job hjob => hquiet (job.beneath _) (List.mem_map_of_mem hjob))
      fun job hjob => halarms (job.beneath _) (List.mem_map_of_mem hjob)⟩
  | toLegacy counts t ih =>
    have hcloser := hquiet _ (List.mem_append_right _ List.mem_cons_self)
    have halarm := halarms _ (List.mem_append_right _ List.mem_cons_self)
    obtain ⟨hown, -⟩ | ⟨call, hown, hcall, hx⟩ | hfailed | hshut := h
    · simp [ToLegacy.closing, hown] at hcloser
    · have hx := ih hx
        (fun job hjob => hquiet (job.beneath _) (List.mem_append_left _ (List.mem_map_of_mem hjob)))
        fun job hjob => halarms (job.beneath _) (List.mem_append_left _ (List.mem_map_of_mem hjob))
      refine .inr (.inl ⟨call, hown, ?_, hx⟩)
      simp only [ToLegacy.closing, hown] at hcloser halarm
      cases t with
      | ground => exact hcall
      | toModern poll t =>
        cases t with
        | toLegacy counts' t =>
          obtain ⟨own, phase, y⟩ := x
          obtain ⟨a, ha, hlate, -, hpolls⟩ :=
            (ToModern.Polls.unready (t.logging below) counts' hcall hcloser).2.2
          exact hpolls later hle (halarm a ha hlate)
    · exact .inr (.inr (.inl hfailed))
    · exact .inr (.inr (.inr hshut))

end Works

end Tower

end CacheBridge
