import CacheBridge.Proofs.Closing
import CacheBridge.Proofs.Interleaving
import CacheBridge.Double.Legacy
import CacheBridge.Watch.Spy

/-!
Closes at one bridge to modern, as many as there are, in any interleaving and given up anywhere. The
minutes of the bridge number its calls and put down to each of them what it has asked below, what it
has heard from there, and what it was told. They say that the cache below is signalled once, by the
first to close and before anybody polls; that the bridge is closed exactly when a poll has said so;
and where the answer of each close comes from.
-/

namespace CacheBridge

/-- What no move breaks holds after every run. -/
theorem Traffic.run_holds {g : Generation} {σ φ : Type} {l : Level g σ φ} {jobs : List (Job σ)}
    (inv : Traffic σ φ → Prop) (hmove : ∀ tr m, inv tr → inv (tr.move l jobs m)) {tr : Traffic σ φ}
    (h : inv tr) (ms : List (Move g)) : inv (tr.run l jobs ms) := by
  induction ms generalizing tr with
  | nil => exact h
  | cons m ms ih => exact ih (hmove tr m h)

namespace ToModern

/-- Who has called: the how manieth, with what request, and how far the shutdown was by then. -/
structure Caller where
  number : Nat
  request : Request .modern
  found : Phase
  deriving DecidableEq

def Caller.closes (c : Caller) : Bool := asksClose c.request

theorem Caller.closes_of_close {c : Caller} {scope : Scope} (h : c.request = .close scope) :
    c.closes = true := by
  simp [closes, h, asksClose]

/-- Whether a request is about the shutdown of the cache below. -/
def shutdown (r : Request .legacy) : Bool := asksClose r || tellsClosed r

/-- The callers in the order in which they came, what they have asked below and heard from there,
and what each was told, with the surroundings it was told in. -/
structure Minutes where
  callers : List Caller := []
  asked : List (Caller × Request .legacy) := []
  heard : List (Caller × Request .legacy × Answer .legacy) := []
  told : List (Caller × Answer .modern × Env) := []

namespace Minutes

variable {σ φ ψ : Type}

def enter (m : Minutes) (c : Caller) : Minutes := { m with callers := m.callers ++ [c] }

def put (m : Minutes) (c : Caller) (asks : List (Request .legacy))
    (hears : List (Request .legacy × Answer .legacy)) : Minutes :=
  { m with
    asked := m.asked ++ asks.map fun r => (c, r)
    heard := m.heard ++ hears.map fun h => (c, h) }

def tell (m : Minutes) (c : Caller) (env : Env) : Progress ψ (Answer .modern) → Minutes
  | .waiting _ => m
  | .answered a => { m with told := m.told ++ [(c, a, env)] }

theorem put_put (m : Minutes) (c : Caller) (asks asks' : List (Request .legacy))
    (hears hears' : List (Request .legacy × Answer .legacy)) :
    (m.put c asks hears).put c asks' hears' = m.put c (asks ++ asks') (hears ++ hears') := by
  simp [put]

@[simp] theorem callers_put (m : Minutes) (c : Caller) (asks : List (Request .legacy))
    (hears : List (Request .legacy × Answer .legacy)) :
    (m.put c asks hears).callers = m.callers := rfl

@[simp] theorem callers_tell (m : Minutes) (c : Caller) (env : Env)
    (progress : Progress ψ (Answer .modern)) : (m.tell c env progress).callers = m.callers := by
  cases progress <;> rfl

@[simp] theorem asked_tell (m : Minutes) (c : Caller) (env : Env)
    (progress : Progress ψ (Answer .modern)) : (m.tell c env progress).asked = m.asked := by
  cases progress <;> rfl

@[simp] theorem heard_tell (m : Minutes) (c : Caller) (env : Env)
    (progress : Progress ψ (Answer .modern)) : (m.tell c env progress).heard = m.heard := by
  cases progress <;> rfl

theorem mem_told_tell {m : Minutes} {c : Caller} {env : Env}
    {progress : Progress ψ (Answer .modern)} {q : Caller × Answer .modern × Env} :
    q ∈ (m.tell c env progress).told ↔
      q ∈ m.told ∨ ∃ a, progress = .answered a ∧ q = (c, a, env) := by
  cases progress <;> simp [tell]

/-- Notes a step of a call: what it has added to the ledger below is put down to the caller. -/
def note (m : Minutes) (c : Caller) (env : Env) (led : Ledger .legacy)
    (turn : Turn (State (Ledger .legacy × σ)) ψ (Answer .modern)) :
    Turn (Minutes × State (Ledger .legacy × σ)) (Caller × ψ) (Answer .modern) :=
  let asks := turn.state.2.1.received.drop led.received.length
  let hears := turn.state.2.1.answered.drop led.answered.length
  turn.map (fun s => ((m.put c asks hears).tell c env turn.progress, s)) (fun call => (c, call)) id

end Minutes

variable {σ φ : Type} (below : Level .legacy σ φ) (poll : Nat)

abbrev Minuted (σ : Type) := Minutes × State (Ledger .legacy × σ)

abbrev MinutedCall (φ : Type) := Caller × Call (Request .legacy × φ)

/-- The bridge with its minutes, over a cache with a ledger. -/
def minuted : Level .modern (Minuted σ) (MinutedCall φ) where
  offers := (level below.recorded poll).offers
  asking := (level below.recorded poll).asking
  start r env s :=
    let c := ⟨s.1.callers.length, r, s.2.1⟩
    (s.1.enter c).note c env s.2.2.1 ((level below.recorded poll).start r env s.2)
  resume call env s :=
    s.1.note call.1 env s.2.2.1 ((level below.recorded poll).resume call.2 env s.2)
  ready call env s := (level below.recorded poll).ready call.2 env s.2
  alarm call := (level below.recorded poll).alarm call.2

/-! ## What a step brings -/

/-- What an unanswered call waits for is what its caller has asked for. -/
def Fits (poll : Nat) (c : Caller) : Call (Request .legacy × φ) → Prop
  | .relayed call => c.closes = false ∧ shutdown call.1 = false
  | .polling scope _ call => c.request = .close scope ∧ call.1 = .waitForClose poll
  | .pausing scope _ => c.request = .close scope

/-- Where the answer of a close comes from: what it has `heard` in its polls, or its scope. -/
inductive Grounds (ended : Prop) (heard : Answer .legacy → Prop) : Answer .modern → Prop
  | closed {reply : Reply} (h : heard (.ok reply)) : Grounds ended heard Answer.done
  | ended (h : ended) : Grounds ended heard (.error .timeout)
  | failed {e : Failure .legacy} (h : heard (.error e)) (hne : e ≠ .timeout) :
      Grounds ended heard (.error (e.as .modern))

theorem Grounds.mono {ended : Prop} {heard heard' : Answer .legacy → Prop} {a : Answer .modern}
    (h : Grounds ended heard a) (himp : ∀ b, heard b → heard' b) : Grounds ended heard' a := by
  cases h with
  | closed h => exact .closed (himp _ h)
  | ended h => exact .ended h
  | failed h hne => exact .failed (himp _ h) hne

/-- A step of a close that finds the phase at `p`, and what it adds to the ledger below. -/
structure CloseStep (poll : Nat) (c : Caller) (scope : Scope) (env : Env) (p : Phase)
    (led : Ledger .legacy) (asks : List (Request .legacy))
    (hears : List (Request .legacy × Answer .legacy))
    (turn : Step (Ledger .legacy × σ) (Request .legacy × φ)) : Prop where
  ledger : turn.state.2.1 = ⟨led.received ++ asks, led.answered ++ hears⟩
  phase : turn.state.1 = p ∨ turn.state.1 = .closed
  closed : turn.state.1 = .closed ↔ p = .closed ∨ ∃ reply, (.waitForClose poll, .ok reply) ∈ hears
  answer : ∀ a, turn.progress = .answered a →
    Grounds (env.ended scope = true) (fun b => (.waitForClose poll, b) ∈ hears) a
  fits : ∀ call, turn.progress = .waiting call → Fits poll c call

namespace CloseStep

variable {poll} {c : Caller} {scope : Scope} {env : Env} {p : Phase} {led : Ledger .legacy}
  {asks : List (Request .legacy)} {hears : List (Request .legacy × Answer .legacy)}
  {turn : Step (Ledger .legacy × σ) (Request .legacy × φ)}

theorem after (h : CloseStep poll c scope env p led asks hears turn) (es : List Event) :
    CloseStep poll c scope env p led asks hears (turn.after es) :=
  ⟨h.ledger, h.phase, h.closed, h.answer, h.fits⟩

/-- What was asked and heard just before belongs to the step, if it was no success of a poll. -/
theorem earlier {later : Ledger .legacy} (h : CloseStep poll c scope env p later asks hears turn)
    (asks' : List (Request .legacy)) (hears' : List (Request .legacy × Answer .legacy))
    (hled : later = ⟨led.received ++ asks', led.answered ++ hears'⟩)
    (hfail : ∀ reply, (.waitForClose poll, .ok reply) ∉ hears') :
    CloseStep poll c scope env p led (asks' ++ asks) (hears' ++ hears) turn where
  ledger := by simp [h.ledger, hled]
  phase := h.phase
  closed := by simp [h.closed, hfail]
  answer a ha := (h.answer a ha).mono fun b hb => List.mem_append_right _ hb
  fits := h.fits

end CloseStep

section Steps

variable {poll} {c : Caller} {scope : Scope} {env : Env} {p : Phase} {led : Ledger .legacy}

theorem giveUp_polls (hended : env.ended scope = true) (x : σ) :
    CloseStep poll c scope env p led [] [] (giveUp p (led, x) : Step _ (Request .legacy × φ)) where
  ledger := by simp [giveUp]
  phase := .inl rfl
  closed := by simp [giveUp]
  answer a ha := by
    cases ha
    exact .ended hended
  fits call hcall := by cases hcall

/-- A step that goes on waiting and does nothing else. -/
theorem waits_polls (call : Call (Request .legacy × φ)) (hfits : Fits poll c call) (x : σ)
    (es : List Event) :
    CloseStep poll c scope env p led [] [] (⟨(p, led, x), .waiting call, es⟩ : Step _ _) where
  ledger := by simp
  phase := .inl rfl
  closed := by simp
  answer a ha := by cases ha
  fits call hcall := by
    cases hcall
    exact hfits

theorem pause_polls (hc : c.request = .close scope) (started : Nat) (x : σ) :
    CloseStep poll c scope env p led [] []
      (pause poll scope started env p (led, x) : Step _ (Request .legacy × φ)) := by
  unfold pause
  split
  · next hended => exact giveUp_polls hended x
  · exact waits_polls (.pausing scope _) hc x []

theorem judge_error (scope : Scope) (started : Nat) (env : Env) (p : Phase)
    {again : σ → Step σ φ} {e : Failure .legacy} (hne : e ≠ .timeout) (x : σ) (es : List Event) :
    judge scope started env p again ⟨x, .answered (.error e), es⟩ =
      ⟨(p, x), .answered (.error (e.as .modern)), es⟩ := by
  cases e with
  | condition k => cases k <;> first | rfl | exact absurd rfl hne
  | backend f => rfl

/-- Whatever a poll has come to, if what follows a timeout is a step of the close. -/
theorem judge_polls (led : Ledger .legacy) (hc : c.request = .close scope) (started : Nat)
    {again : Ledger .legacy × σ → Step (Ledger .legacy × σ) (Request .legacy × φ)}
    (hagain : ∀ led x, ∃ asks hears, (∀ r ∈ asks, r = .waitForClose poll) ∧
      CloseStep poll c scope env p led asks hears (again (led, x)))
    (turn : Turn σ φ (Answer .legacy)) :
    ∃ asks hears, (∀ r ∈ asks, r = .waitForClose poll) ∧
      CloseStep poll c scope env p led asks hears
        (judge scope started env p again (led.note (.waitForClose poll) turn)) := by
  obtain ⟨x, progress, es⟩ := turn
  cases progress with
  | waiting call =>
    refine ⟨[], [], List.forall_mem_nil _, ?_⟩
    simp only [judge, Ledger.note, Turn.map, Ledger.settle]
    split
    · next hended => exact (giveUp_polls hended x).after es
    · exact waits_polls (.polling scope started (_, call)) ⟨hc, rfl⟩ x es
  | answered a =>
    cases a with
    | ok reply =>
      refine ⟨[], [(.waitForClose poll, .ok reply)], List.forall_mem_nil _, ?_⟩
      refine ⟨by simp [judge, Ledger.note, Turn.map, Ledger.settle], .inr rfl, ?_, fun a ha => ?_,
        fun call hcall => by cases hcall⟩
      · exact iff_of_true rfl (.inr ⟨reply, List.mem_cons_self⟩)
      · cases ha
        exact .closed List.mem_cons_self
    | error e =>
      have hled : led.settle (.waitForClose poll)
          (.answered (.error e) : Progress φ (Answer .legacy)) =
          ⟨led.received ++ [], led.answered ++ [(.waitForClose poll, .error e)]⟩ := by
        simp [Ledger.settle]
      by_cases htimeout : e = .timeout
      · subst htimeout
        obtain ⟨asks, hears, hasks, hpolls⟩ := hagain (led.settle (.waitForClose poll)
          (.answered (.error .timeout) : Progress φ (Answer .legacy))) x
        refine ⟨asks, (.waitForClose poll, .error .timeout) :: hears, hasks, ?_⟩
        exact (hpolls.earlier _ _ hled (by simp)).after es
      · refine ⟨[], [(.waitForClose poll, .error e)], List.forall_mem_nil _, ?_⟩
        simp only [Ledger.note, Turn.map, hled, judge_error _ _ _ _ htimeout, id_eq]
        refine ⟨by simp, .inl rfl, by simp, fun a ha => ?_, fun call hcall => by cases hcall⟩
        cases ha
        exact .failed List.mem_cons_self htimeout

theorem beginPoll_polls (env : Env) (p : Phase) (hc : c.request = .close scope)
    (led : Ledger .legacy) (x : σ) :
    ∃ asks hears, (∀ r ∈ asks, r = .waitForClose poll) ∧
      CloseStep poll c scope env p led (.waitForClose poll :: asks) hears
        (beginPoll below.recorded poll scope env p (led, x)) := by
  obtain ⟨asks, hears, hasks, hpolls⟩ := judge_polls (led.receive (.waitForClose poll)) hc env.now
    (fun led x => ⟨[], [], nofun, pause_polls (p := p) hc env.now x⟩)
    (below.start (.waitForClose poll) env x)
  refine ⟨asks, hears, hasks, ?_⟩
  exact hpolls.earlier [.waitForClose poll] [] (by simp [Ledger.receive]) nofun

theorem pollAgain_polls (env : Env) (p : Phase) (hc : c.request = .close scope) (started : Nat)
    (led : Ledger .legacy) (x : σ) :
    ∃ asks hears, (∀ r ∈ asks, r = .waitForClose poll) ∧
      CloseStep poll c scope env p led asks hears
        (pollAgain below.recorded poll scope started env p (led, x)) := by
  unfold pollAgain
  split
  · next hended => exact ⟨[], [], nofun, giveUp_polls hended x⟩
  · split
    · obtain ⟨asks, hears, hasks, hpolls⟩ := beginPoll_polls below env p hc led x
      exact ⟨_, hears, List.forall_mem_cons.mpr ⟨rfl, hasks⟩, hpolls⟩
    · exact ⟨[], [], nofun, pause_polls hc started x⟩

/-- Looking at a close again. -/
theorem resume_polls (env : Env) (p : Phase) (hc : c.closes = true)
    {call : Call (Request .legacy × φ)} (hfits : Fits poll c call) (led : Ledger .legacy) (x : σ) :
    ∃ scope asks hears, c.request = .close scope ∧ (∀ r ∈ asks, r = .waitForClose poll) ∧
      CloseStep poll c scope env p led asks hears
        ((level below.recorded poll).resume call env (p, led, x)) := by
  cases call with
  | relayed call => exact absurd (hc.symm.trans hfits.1) (by decide)
  | polling scope started call =>
    obtain ⟨r, call⟩ := call
    obtain ⟨hc, hr⟩ := hfits
    cases (hr : r = _)
    obtain ⟨asks, hears, hpolls⟩ := judge_polls (p := p) led hc started
      (pollAgain_polls below env p hc started) (below.resume call env x)
    exact ⟨scope, asks, hears, hc, hpolls⟩
  | pausing scope ring =>
    simp only [level, resume]
    split
    · next hended => exact ⟨scope, [], [], hfits, List.forall_mem_nil _, giveUp_polls hended x⟩
    · split
      · obtain ⟨asks, hears, hasks, hpolls⟩ := beginPoll_polls below env p hfits led x
        exact ⟨scope, _, hears, hfits, List.forall_mem_cons.mpr ⟨rfl, hasks⟩, hpolls⟩
      · exact ⟨scope, [], [], hfits, List.forall_mem_nil _,
          waits_polls (.pausing scope ring) hfits x []⟩

/-- Starting a close that finds the cache below not closed yet: it is polled at once, and signalled
before if nobody has asked for a close. -/
theorem start_polls (env : Env) (hc : c.request = .close scope) (hp : p ≠ .closed)
    (led : Ledger .legacy) (x : σ) :
    ∃ asks hears, (∀ r ∈ asks, r = .waitForClose poll) ∧
      CloseStep poll c scope env p.beginClose.2 led
        ((if p = .active then [.closeAsync] else []) ++ .waitForClose poll :: asks) hears
        ((level below.recorded poll).start (.close scope) env (p, led, x)) := by
  simp only [level, start, close, if_neg hp]
  cases p with
  | closed => exact absurd rfl hp
  | closing => exact beginPoll_polls below env .closing hc led x
  | active =>
    let signal := below.start .closeAsync env x
    let signalled := (led.receive .closeAsync).settle .closeAsync signal.progress
    obtain ⟨asks, hears, hasks, hpolls⟩ :=
      beginPoll_polls below env .closing hc signalled signal.state
    have hsignalled : ∃ hears, signalled = ⟨led.received ++ [.closeAsync], led.answered ++ hears⟩ ∧
        ∀ reply, (.waitForClose poll, .ok reply) ∉ hears := by
      cases h : signal.progress with
      | waiting call => exact ⟨[], by simp [signalled, h, Ledger.settle, Ledger.receive], by simp⟩
      | answered a =>
        exact ⟨[(.closeAsync, a)], by simp [signalled, h, Ledger.settle, Ledger.receive], by simp⟩
    obtain ⟨hears', hled, hfail⟩ := hsignalled
    exact ⟨asks, hears' ++ hears, hasks, (hpolls.earlier _ _ hled hfail).after signal.events⟩

/-- A step of a call that has nothing to do with the shutdown. -/
structure DataStep (poll : Nat) (c : Caller) (p : Phase) (led : Ledger .legacy)
    (asks : List (Request .legacy)) (hears : List (Request .legacy × Answer .legacy))
    (turn : Step (Ledger .legacy × σ) (Request .legacy × φ)) : Prop where
  ledger : turn.state.2.1 = ⟨led.received ++ asks, led.answered ++ hears⟩
  phase : turn.state.1 = p
  asks : ∀ r ∈ asks, shutdown r = false
  hears : ∀ h ∈ hears, shutdown h.1 = false
  fits : ∀ call, turn.progress = .waiting call → Fits poll c call

theorem relay_relays (p : Phase) (hc : c.closes = false) {r : Request .legacy}
    (hr : shutdown r = false) (led : Ledger .legacy) (turn : Turn σ φ (Answer .legacy)) :
    ∃ hears, DataStep poll c p led [] hears (relay p (led.note r turn)) := by
  obtain ⟨x, progress, es⟩ := turn
  cases progress with
  | waiting call =>
    refine ⟨[], by simp [relay, Ledger.note, Turn.map, Ledger.settle], rfl, List.forall_mem_nil _,
      List.forall_mem_nil _, fun call hcall => ?_⟩
    cases hcall
    exact ⟨hc, hr⟩
  | answered a =>
    refine ⟨[(r, a)], by simp [relay, Ledger.note, Turn.map, Ledger.settle], rfl,
      List.forall_mem_nil _, ?_, fun call hcall => by cases hcall⟩
    simpa using hr

theorem start_relays (poll : Nat) (env : Env) (p : Phase) (hc : c.closes = false)
    (led : Ledger .legacy) (x : σ) :
    ∃ asks hears, DataStep poll c p led asks hears
      ((level below.recorded poll).start c.request env (p, led, x)) := by
  cases hpass : passed? below.recorded c.request with
  | some passed =>
    obtain ⟨r, es⟩ := passed
    obtain ⟨-, -, hasks, htells⟩ := Tower.ToModern.passed?_quiet hpass
    have hr : shutdown r = false := by simp [shutdown, hasks, htells]
    obtain ⟨hears, h⟩ := relay_relays p hc hr (led.receive r) (below.start r env x)
    have hstart := @start_passed _ _ below.recorded poll _ _ _ env (p, led, x) hpass
    refine ⟨[r], hears, ?_⟩
    simp only [level, hstart]
    exact ⟨h.ledger.trans (by simp [Ledger.receive]), h.phase, by simpa using hr, h.hears, h.fits⟩
  | none =>
    cases hr : c.request with
    | get | set | add | delete => simp [hr, passed?] at hpass
    | close scope => exact absurd (hc.symm.trans (Caller.closes_of_close hr)) (by decide)
    | setMulti scope items =>
      have hroute : routeBatch below.recorded items = none := by simpa [hr, passed?] using hpass
      refine ⟨[], [], ?_⟩
      simp only [level, start, hroute]
      exact ⟨by simp [Turn.answer], rfl, List.forall_mem_nil _, List.forall_mem_nil _,
        fun call hcall => by cases hcall⟩

theorem resume_relays (env : Env) (p : Phase) (hc : c.closes = false)
    {call : Call (Request .legacy × φ)} (hfits : Fits poll c call) (led : Ledger .legacy) (x : σ) :
    ∃ hears, DataStep poll c p led [] hears
      ((level below.recorded poll).resume call env (p, led, x)) := by
  have hother (scope : Scope) : c.request ≠ .close scope := fun hclose =>
    absurd (hc.symm.trans (Caller.closes_of_close hclose)) nofun
  cases call with
  | polling scope started call => exact absurd hfits.1 (hother scope)
  | pausing scope ring => exact absurd hfits (hother scope)
  | relayed call => exact relay_relays p hc hfits.2 led (below.resume call.2 env x)

end Steps

/-! ## What the minutes say -/

/-- What the minutes say of a bridge whose phase is `p`. -/
structure Minutes.Sound (poll : Nat) (m : Minutes) (p : Phase) : Prop where
  numbered : m.callers.map Caller.number = List.range m.callers.length
  /-- Nothing is put down to somebody who has not called. -/
  known : (∀ q ∈ m.asked, q.1 ∈ m.callers) ∧ (∀ q ∈ m.heard, q.1 ∈ m.callers) ∧
    ∀ q ∈ m.told, q.1 ∈ m.callers
  /-- Nothing is asked of the cache below before somebody closes; the first to close signals it, and
  all that comes after are polls by somebody who closes. -/
  signalled : match m.callers.find? Caller.closes with
    | none => p = .active ∧ m.asked.filter (fun q => shutdown q.2) = []
    | some c => p ≠ .active ∧ ∃ polls,
        m.asked.filter (fun q => shutdown q.2) = (c, .closeAsync) :: polls ∧
        ∀ q ∈ polls, q.1.closes = true ∧ q.2 = .waitForClose poll
  closed : p = .closed ↔ ∃ c reply, c.closes = true ∧ (c, .waitForClose poll, .ok reply) ∈ m.heard
  told : ∀ q ∈ m.told, ∀ scope, q.1.request = .close scope →
    q.1.found = .closed ∧ q.2.1 = Answer.done ∨
      Grounds (q.2.2.ended scope = true) (fun a => (q.1, .waitForClose poll, a) ∈ m.heard) q.2.1

namespace Minutes.Sound

variable {poll} {m : Minutes} {p : Phase} {c : Caller} {env : Env} {led : Ledger .legacy}
  {asks : List (Request .legacy)} {hears : List (Request .legacy × Answer .legacy)}
  {turn : Step (Ledger .legacy × σ) (Request .legacy × φ)}

theorem not_active (h : m.Sound poll p) (hc : c ∈ m.callers) (hcloses : c.closes = true) :
    p ≠ .active := by
  have hsignalled := h.signalled
  split at hsignalled
  · next hnone => exact absurd hcloses (List.find?_eq_none.mp hnone c hc)
  · exact hsignalled.1

theorem known_note (h : m.Sound poll p) (hc : c ∈ m.callers) (asks : List (Request .legacy))
    (hears : List (Request .legacy × Answer .legacy)) (progress : Progress φ (Answer .modern)) :
    let m' := (m.put c asks hears).tell c env progress
    (∀ q ∈ m'.asked, q.1 ∈ m'.callers) ∧ (∀ q ∈ m'.heard, q.1 ∈ m'.callers) ∧
      ∀ q ∈ m'.told, q.1 ∈ m'.callers := by
  obtain ⟨hasked, hheard, htold⟩ := h.known
  refine ⟨fun q hq => ?_, fun q hq => ?_, fun q hq => ?_⟩
  · simp only [asked_tell, put, List.mem_append, List.mem_map] at hq
    obtain hq | ⟨r, -, rfl⟩ := hq
    · simpa using hasked q hq
    · simpa using hc
  · simp only [heard_tell, put, List.mem_append, List.mem_map] at hq
    obtain hq | ⟨r, -, rfl⟩ := hq
    · simpa using hheard q hq
    · simpa using hc
  · obtain hq | ⟨a, -, rfl⟩ := mem_told_tell.mp hq
    · simpa using htold q hq
    · simpa using hc

theorem told_put (h : m.Sound poll p) (c : Caller) (asks : List (Request .legacy))
    (hears : List (Request .legacy × Answer .legacy)) :
    ∀ q ∈ m.told, ∀ scope, q.1.request = .close scope →
      q.1.found = .closed ∧ q.2.1 = Answer.done ∨ Grounds (q.2.2.ended scope = true)
        (fun a => (q.1, .waitForClose poll, a) ∈ (m.put c asks hears).heard) q.2.1 :=
  fun q hq scope hscope => (h.told q hq scope hscope).imp_right fun hgrounds =>
    hgrounds.mono fun _ => List.mem_append_left _

/-- A step that has nothing to do with the shutdown. -/
theorem relay (h : m.Sound poll p) (hc : c ∈ m.callers) (hcloses : c.closes = false)
    (hrelays : DataStep poll c p led asks hears turn) :
    ((m.put c asks hears).tell c env turn.progress).Sound poll turn.state.1 where
  numbered := by simpa using h.numbered
  known := h.known_note hc asks hears turn.progress
  signalled := by
    have hnone : (asks.map fun r => (c, r)).filter (fun q => shutdown q.2) = [] := by
      simpa [List.filter_eq_nil_iff] using hrelays.asks
    simpa [hrelays.phase, put, hnone] using h.signalled
  closed := by
    have hnone (c' : Caller) (reply : Reply) :
        (c', .waitForClose poll, .ok reply) ∉ hears.map fun h => (c, h) := by
      intro hmem
      obtain ⟨heard, hheard, heq⟩ := List.mem_map.mp hmem
      cases heq
      exact absurd (hrelays.hears _ hheard) nofun
    simp only [hrelays.phase, h.closed, heard_tell, put, List.mem_append, hnone, or_false]
  told q hq scope hscope := by
    simp only [heard_tell]
    obtain hq | ⟨a, -, rfl⟩ := mem_told_tell.mp hq
    · exact h.told_put c asks hears q hq scope hscope
    · exact absurd (hcloses.symm.trans (Caller.closes_of_close hscope)) nofun

/-- A step of a close, apart from the signal. -/
theorem close (h : m.Sound poll p) (hc : c ∈ m.callers) {scope : Scope}
    (hscope : c.request = .close scope)
    {asks' : List (Request .legacy)} (hpolls : CloseStep poll c scope env p led asks' hears turn)
    (hasks : ∀ r ∈ asks, r = .waitForClose poll) :
    ((m.put c asks hears).tell c env turn.progress).Sound poll turn.state.1 := by
  have hcloses := Caller.closes_of_close hscope
  have hactive := h.not_active hc hcloses
  constructor
  case numbered => simpa using h.numbered
  case known => exact h.known_note hc asks hears turn.progress
  case signalled =>
    have hall : (asks.map fun r => (c, r)).filter (fun q => shutdown q.2) =
        asks.map fun r => (c, r) := by
      refine List.filter_eq_self.mpr fun q hq => ?_
      obtain ⟨r, hr, rfl⟩ := List.mem_map.mp hq
      simp [hasks r hr, shutdown, tellsClosed]
    have hsignalled := h.signalled
    simp only [callers_tell, asked_tell, put, List.filter_append, hall]
    split at hsignalled
    · exact absurd hsignalled.1 hactive
    · obtain ⟨-, polls, hfilter, hpolled⟩ := hsignalled
      refine ⟨?_, polls ++ asks.map fun r => (c, r), by simp [hfilter], fun q hq => ?_⟩
      · rcases hpolls.phase with hp | hp <;> simp [hp, hactive]
      · rcases List.mem_append.mp hq with hq | hq
        · exact hpolled q hq
        · obtain ⟨r, hr, rfl⟩ := List.mem_map.mp hq
          exact ⟨hcloses, hasks r hr⟩
  case closed =>
    rw [hpolls.closed, h.closed]
    simp only [heard_tell, put, List.mem_append, List.mem_map]
    constructor
    · rintro (⟨c', reply, hc', hmem⟩ | ⟨reply, hmem⟩)
      · exact ⟨c', reply, hc', .inl hmem⟩
      · exact ⟨c, reply, hcloses, .inr ⟨_, hmem, rfl⟩⟩
    · rintro ⟨c', reply, hc', hmem | ⟨heard, hmem, heq⟩⟩
      · exact .inl ⟨c', reply, hc', hmem⟩
      · cases heq
        exact .inr ⟨reply, hmem⟩
  case told =>
    intro q hq scope' hscope'
    simp only [heard_tell]
    obtain hq | ⟨a, ha, rfl⟩ := mem_told_tell.mp hq
    · exact h.told_put c asks hears q hq scope' hscope'
    · cases hscope.symm.trans hscope'
      refine .inr ((hpolls.answer a ha).mono fun b hb => ?_)
      exact List.mem_append_right _ (List.mem_map.mpr ⟨_, hb, rfl⟩)

/-- Somebody calls who is not the first to close. -/
theorem enter (h : m.Sound poll p) (hnumber : c.number = m.callers.length)
    (hfirst : c.closes = true → p ≠ .active) : (m.enter c).Sound poll p where
  numbered := by simp [Minutes.enter, h.numbered, hnumber, List.range_succ]
  known := by
    obtain ⟨hasked, hheard, htold⟩ := h.known
    exact ⟨fun q hq => List.mem_append_left _ (hasked q hq),
      fun q hq => List.mem_append_left _ (hheard q hq),
      fun q hq => List.mem_append_left _ (htold q hq)⟩
  signalled := by
    have hsignalled := h.signalled
    cases hfind : m.callers.find? Caller.closes with
    | some first => simpa [Minutes.enter, List.find?_append, hfind] using hsignalled
    | none =>
      simp only [hfind] at hsignalled
      have hcloses : c.closes = false :=
        Bool.eq_false_iff.mpr fun hcloses => hfirst hcloses hsignalled.1
      simpa [Minutes.enter, List.find?_append, hfind, hcloses] using hsignalled
  closed := h.closed
  told := h.told

/-- The first to close calls, and signals the cache below. -/
theorem signal (h : m.Sound poll .active) (hnumber : c.number = m.callers.length)
    (hcloses : c.closes = true) : ((m.enter c).put c [.closeAsync] []).Sound poll .closing where
  numbered := by simp [Minutes.enter, h.numbered, hnumber, List.range_succ]
  known := by
    obtain ⟨hasked, hheard, htold⟩ := h.known
    simp only [Minutes.enter, put, List.map_nil, List.append_nil, List.map_cons]
    refine ⟨fun q hq => ?_, fun q hq => List.mem_append_left _ (hheard q hq),
      fun q hq => List.mem_append_left _ (htold q hq)⟩
    rcases List.mem_append.mp hq with hq | hq
    · exact List.mem_append_left _ (hasked q hq)
    · cases List.mem_singleton.mp hq
      exact List.mem_append_right _ List.mem_cons_self
  signalled := by
    have hsignalled := h.signalled
    cases hfind : m.callers.find? Caller.closes with
    | some first => simp [hfind] at hsignalled
    | none =>
      simp only [hfind] at hsignalled
      have hsignal : shutdown .closeAsync = true := rfl
      simp [Minutes.enter, put, List.find?_append, hfind, hcloses, hsignalled.2, hsignal]
  closed := by simpa [put, Minutes.enter] using h.closed
  told q hq scope hscope := by
    simpa [put, Minutes.enter] using h.told q hq scope hscope

/-- A close that finds the cache closed. -/
theorem told_closed (h : m.Sound poll .closed) (hc : c ∈ m.callers) (hfound : c.found = .closed) :
    ((m.put c [] []).tell c env (.answered Answer.done : Progress φ (Answer .modern))).Sound poll
      .closed where
  numbered := by simpa using h.numbered
  known := h.known_note hc [] [] _
  signalled := by simpa [put] using h.signalled
  closed := by simpa [put] using h.closed
  told q hq scope hscope := by
    obtain hq | ⟨a, ha, rfl⟩ := mem_told_tell.mp hq
    · simpa using h.told_put c [] [] q hq scope hscope
    · cases ha
      exact .inl ⟨hfound, rfl⟩

end Minutes.Sound

/-- Whoever has closed, and did not find the cache closed, has polled. -/
def Minutes.Polled (poll : Nat) (m : Minutes) : Prop :=
  ∀ c ∈ m.callers, c.closes = true → c.found ≠ .closed → (c, .waitForClose poll) ∈ m.asked

/-- The bridge with its minutes and its unanswered calls, at any point. -/
structure Conducted (poll : Nat)
    (tr : Traffic (Minuted σ) (MinutedCall φ)) : Prop where
  sound : tr.state.1.Sound poll tr.state.2.1
  polled : tr.state.1.Polled poll
  calls : ∀ k ∈ tr.calls, k.1 ∈ tr.state.1.callers ∧ Fits poll k.1 k.2

section Runs

variable {poll} {s : Minuted σ} {env : Env}

theorem note_eq (m : Minutes) (c : Caller) (env : Env) {led : Ledger .legacy}
    {asks : List (Request .legacy)} {hears : List (Request .legacy × Answer .legacy)}
    {turn : Step (Ledger .legacy × σ) (Request .legacy × φ)}
    (hled : turn.state.2.1 = ⟨led.received ++ asks, led.answered ++ hears⟩) :
    m.note c env led turn =
      turn.map (fun s => ((m.put c asks hears).tell c env turn.progress, s))
        (fun call => (c, call)) id := by
  simp [Minutes.note, hled]

/-- What a step of a call leaves behind. -/
structure Brings (poll : Nat) (c : Caller) (s : Minuted σ)
    (turn : Turn (Minuted σ) (MinutedCall φ)
      (Answer .modern)) : Prop where
  sound : turn.state.1.Sound poll turn.state.2.1
  polled : turn.state.1.Polled poll
  callers : s.1.callers ⊆ turn.state.1.callers
  phase : s.2.1 ≤ turn.state.2.1
  fits : ∀ k, turn.progress = .waiting k → k.1 = c ∧ c ∈ turn.state.1.callers ∧ Fits poll c k.2

theorem brings_note {m : Minutes} {c : Caller} {led : Ledger .legacy}
    {asks : List (Request .legacy)} {hears : List (Request .legacy × Answer .legacy)}
    {turn : Step (Ledger .legacy × σ) (Request .legacy × φ)}
    (hled : turn.state.2.1 = ⟨led.received ++ asks, led.answered ++ hears⟩)
    (hsound : ((m.put c asks hears).tell c env turn.progress).Sound poll turn.state.1)
    (hpolled : (m.put c asks hears).Polled poll) (hcallers : s.1.callers ⊆ m.callers)
    (hc : c ∈ m.callers) (hphase : s.2.1 ≤ turn.state.1)
    (hfits : ∀ call, turn.progress = .waiting call → Fits poll c call) :
    Brings poll c s (m.note c env led turn) := by
  rw [note_eq m c env hled]
  refine ⟨hsound, ?_, by simpa [Turn.map] using hcallers, hphase, fun k hk => ?_⟩
  · simpa [Turn.map, Minutes.Polled] using hpolled
  · simp only [Turn.map] at hk
    cases hprogress : turn.progress with
    | answered a => simp [hprogress] at hk
    | waiting call =>
      simp only [hprogress, Progress.waiting.injEq] at hk
      subst hk
      exact ⟨rfl, by simpa [Turn.map] using hc, hfits call hprogress⟩

theorem Minutes.Polled.put {m : Minutes} (h : m.Polled poll) (c : Caller)
    (asks : List (Request .legacy))
    (hears : List (Request .legacy × Answer .legacy)) : (m.put c asks hears).Polled poll :=
  fun c' hc' hcloses hfound => List.mem_append_left _ (h c' hc' hcloses hfound)

/-- A new caller has polled if he had to. -/
theorem Minutes.Polled.enter {m : Minutes} (h : m.Polled poll) {c : Caller}
    {asks : List (Request .legacy)} (hears : List (Request .legacy × Answer .legacy))
    (hasks : c.closes = true → c.found ≠ .closed → .waitForClose poll ∈ asks) :
    ((m.enter c).put c asks hears).Polled poll := by
  intro c' hc' hcloses hfound
  rcases List.mem_append.mp hc' with hc' | hc'
  · exact List.mem_append_left _ (h c' hc' hcloses hfound)
  · cases List.mem_singleton.mp hc'
    exact List.mem_append_right _ (List.mem_map_of_mem (hasks hcloses hfound))

theorem CloseStep.le {c : Caller} {scope : Scope} {p : Phase} {led : Ledger .legacy}
    {asks : List (Request .legacy)} {hears : List (Request .legacy × Answer .legacy)}
    {turn : Step (Ledger .legacy × σ) (Request .legacy × φ)}
    (h : CloseStep poll c scope env p led asks hears turn) : p ≤ turn.state.1 := by
  rcases h.phase with h | h <;> rw [h]
  · exact Phase.le_refl p
  · exact Phase.le_complete p

theorem DataStep.le {c : Caller} {p : Phase} {led : Ledger .legacy} {asks : List (Request .legacy)}
    {hears : List (Request .legacy × Answer .legacy)}
    {turn : Step (Ledger .legacy × σ) (Request .legacy × φ)}
    (h : DataStep poll c p led asks hears turn) : p ≤ turn.state.1 := by
  rw [h.phase]
  exact Phase.le_refl p

theorem resume_brings (env : Env) {c : Caller} {call : Call (Request .legacy × φ)}
    (hsound : s.1.Sound poll s.2.1) (hpolled : s.1.Polled poll) (hc : c ∈ s.1.callers)
    (hfits : Fits poll c call) :
    Brings poll c s ((minuted below poll).resume (c, call) env s) := by
  obtain ⟨m, p, led, x⟩ := s
  simp only [minuted]
  cases hcloses : c.closes with
  | true =>
    obtain ⟨scope, asks, hears, hscope, hasks, h⟩ :=
      resume_polls below env p hcloses hfits led x
    exact brings_note h.ledger (hsound.close hc hscope h hasks) (hpolled.put c asks hears)
      (fun _ => id) hc h.le h.fits
  | false =>
    obtain ⟨hears, h⟩ := resume_relays below env p hcloses hfits led x
    exact brings_note h.ledger (hsound.relay hc hcloses h) (hpolled.put c [] hears) (fun _ => id) hc
      h.le h.fits

theorem start_brings (env : Env) (r : Request .modern) (hsound : s.1.Sound poll s.2.1)
    (hpolled : s.1.Polled poll) :
    ∃ c, Brings poll c s ((minuted below poll).start r env s) := by
  obtain ⟨m, p, led, x⟩ := s
  let c : Caller := ⟨m.callers.length, r, p⟩
  have hc : c ∈ (m.enter c).callers := List.mem_append_right _ List.mem_cons_self
  have hcallers : m.callers ⊆ (m.enter c).callers := List.subset_append_left ..
  refine ⟨c, ?_⟩
  simp only [minuted]
  cases hcloses : c.closes with
  | false =>
    obtain ⟨asks, hears, h⟩ := start_relays below poll env p hcloses led x
    have hsound := hsound.enter (c := c) rfl (by simp [hcloses])
    have hpolled : ((m.enter c).put c asks hears).Polled poll :=
      hpolled.enter hears fun htrue => absurd (htrue.symm.trans hcloses) nofun
    exact brings_note h.ledger (hsound.relay hc hcloses h) hpolled hcallers hc h.le h.fits
  | true =>
    cases r with
    | get | set | add | delete | setMulti => cases hcloses
    | close scope =>
      by_cases hp : p = .closed
      · subst hp
        have hstart : (level below.recorded poll).start (.close scope) env (.closed, led, x) =
            .answer (.closed, led, x) Answer.done := rfl
        have hsound := hsound.enter (c := c) rfl nofun
        have hled :
            (Turn.answer (.closed, led, x) Answer.done : Step _ (Request .legacy × φ)).state.2.1 =
            ⟨led.received ++ [], led.answered ++ []⟩ := by simp [Turn.answer]
        rw [hstart]
        refine brings_note hled ?_ (hpolled.enter [] fun _ hfound => absurd rfl hfound) hcallers hc
          (Phase.le_refl _) nofun
        exact hsound.told_closed hc rfl
      · obtain ⟨asks, hears, hasks, h⟩ := start_polls (c := c) below env rfl hp led x
        cases p with
        | closed => exact absurd rfl hp
        | closing =>
          have hsound := hsound.enter (c := c) rfl nofun
          exact brings_note h.ledger (hsound.close hc rfl h (List.forall_mem_cons.mpr ⟨rfl, hasks⟩))
            (hpolled.enter hears fun _ _ => List.mem_cons_self) hcallers hc h.le h.fits
        | active =>
          have hsound := hsound.signal (c := c) rfl hcloses
          have hclose := hsound.close hc rfl h (List.forall_mem_cons.mpr ⟨rfl, hasks⟩)
          rw [Minutes.put_put] at hclose
          exact brings_note h.ledger hclose
            (hpolled.enter hears fun _ _ => List.mem_cons_of_mem _ List.mem_cons_self) hcallers hc
            (Phase.le_trans (Phase.le_beginClose .active) h.le) h.fits

variable {tr : Traffic (Minuted σ) (MinutedCall φ)}

theorem Conducted.take (h : Conducted poll tr) {c : Caller}
    {turn : Turn (Minuted σ) (MinutedCall φ) (Answer .modern)}
    (hbrings : Brings poll c tr.state turn) {others : List (MinutedCall φ)}
    (hothers : ∀ k ∈ others, k ∈ tr.calls) : Conducted poll (tr.take others turn) := by
  refine ⟨hbrings.sound, hbrings.polled, fun k hk => ?_⟩
  have hkept (k) (hk : k ∈ others) : k.1 ∈ turn.state.1.callers ∧ Fits poll k.1 k.2 :=
    (h.calls k (hothers k hk)).imp_left fun hk => hbrings.callers hk
  unfold Traffic.take at hk
  cases hprogress : turn.progress with
  | answered a =>
    simp only [hprogress] at hk
    exact hkept k hk
  | waiting call =>
    simp only [hprogress, List.mem_append, List.mem_singleton] at hk
    rcases hk with hk | rfl
    · exact hkept k hk
    · obtain ⟨hcaller, hc, hfits⟩ := hbrings.fits k hprogress
      exact hcaller ▸ ⟨hc, hfits⟩

/-- The background work of the cache below, where its bridge keeps minutes. -/
def works (base : List (Job σ)) : List (Job (Minuted σ)) :=
  base.map fun job => ((job.beneath (Ledger .legacy)).beneath Phase).beneath Minutes

/-- One move keeps the minutes sound and does not turn the shutdown back. -/
theorem Conducted.move (h : Conducted poll tr) (base : List (Job σ)) (m : Move .modern) :
    Conducted poll (tr.move (minuted below poll) (works base) m) ∧
      tr.state.2.1 ≤ (tr.move (minuted below poll) (works base) m).state.2.1 := by
  have hstays := Phase.le_refl tr.state.2.1
  cases m with
  | call r env =>
    obtain ⟨c, hbrings⟩ := start_brings below env r h.sound h.polled
    exact ⟨h.take hbrings fun _ => id, hbrings.phase⟩
  | resume i env =>
    cases hi : tr.calls[i]? with
    | none => simpa only [Traffic.move, hi] using ⟨h, hstays⟩
    | some k =>
      simp only [Traffic.move, hi]
      obtain ⟨hc, hfits⟩ := h.calls k (List.mem_of_getElem? hi)
      have hbrings := resume_brings below env h.sound h.polled hc hfits
      exact ⟨h.take hbrings fun _ => List.mem_of_mem_eraseIdx, hbrings.phase⟩
  | abandon i =>
    exact ⟨⟨h.sound, h.polled, fun k hk => h.calls k (List.mem_of_mem_eraseIdx hk)⟩, hstays⟩
  | work i env =>
    cases hi : (works base)[i]? with
    | none => simpa only [Traffic.move, hi] using ⟨h, hstays⟩
    | some job =>
      simp only [Traffic.move, hi]
      obtain ⟨job, -, rfl⟩ := List.mem_map.mp (List.mem_of_getElem? hi)
      exact ⟨⟨h.sound, h.polled, h.calls⟩, hstays⟩

theorem Conducted.run (h : Conducted poll tr) (base : List (Job σ)) (ms : List (Move .modern)) :
    Conducted poll (tr.run (minuted below poll) (works base) ms) ∧
      tr.state.2.1 ≤ (tr.run (minuted below poll) (works base) ms).state.2.1 := by
  refine Traffic.run_holds (fun later => Conducted poll later ∧ tr.state.2.1 ≤ later.state.2.1) ?_
    ⟨h, Phase.le_refl _⟩ ms
  intro later m ⟨hlater, hle⟩
  obtain ⟨hmoved, hle'⟩ := hlater.move below base m
  exact ⟨hmoved, Phase.le_trans hle hle'⟩

/-- The bridge over a cache in state `x`, before anybody calls. -/
def unused (x : σ) : Traffic (Minuted σ) (MinutedCall φ) :=
  .fresh ({}, .active, {}, x)

theorem sound_empty (poll : Nat) : Minutes.Sound poll {} .active where
  numbered := rfl
  known := by simp
  signalled := by simp
  closed := by simp
  told := by simp

theorem conducted_unused (poll : Nat) (x : σ) :
    Conducted poll (unused x : Traffic (Minuted σ)
      (MinutedCall φ)) where
  sound := sound_empty poll
  polled := by simp [Minutes.Polled, unused, Traffic.fresh]
  calls := by simp [unused, Traffic.fresh]

end Runs

/-- However many closes there are, in whatever interleaving and however many of them are given up:
the cache below is signalled once, by the first of them and before anybody polls; the bridge is
closed exactly when a poll has succeeded, and its phase never goes back; whoever does not find it
closed polls; and what a close is told comes from one of its own polls, down to the fault that it
fails with, or from its scope. -/
theorem concurrent_closes (below : Level .legacy σ φ) (poll : Nat) (base : List (Job σ)) (x : σ)
    (ms more : List (Move .modern)) :
    let tr := (unused x).run (minuted below poll) (works base) ms
    let later := tr.run (minuted below poll) (works base) more
    let m := tr.state.1
    let phase := tr.state.2.1
    m.Sound poll phase ∧ m.Polled poll ∧ phase ≤ later.state.2.1 ∧
      ∀ c a env, (c, a, env) ∈ m.told → ∀ scope, c.request = .close scope →
        (∀ reply, a = .ok reply →
          c.found = .closed ∨ ∃ reply, (c, .waitForClose poll, .ok reply) ∈ m.heard) ∧
        (a = .error .timeout → env.ended scope = true) ∧
        ∀ e, a = .error e → e ≠ .timeout →
          ∃ e', (c, .waitForClose poll, .error e') ∈ m.heard ∧ e = e'.as .modern ∧
            e.kind? = e'.kind? ∧ ∀ fault, e' = .backend fault → e = .backend fault := by
  intro tr later m phase
  have h := ((conducted_unused poll x).run below base ms).1
  refine ⟨h.sound, h.polled, (h.run below base more).2, fun c a env hmem scope hscope => ?_⟩
  obtain ⟨hfound, hdone⟩ | hgrounds := h.sound.told _ hmem scope hscope
  · subst hdone
    exact ⟨fun _ _ => .inl hfound, nofun, nofun⟩
  · cases hgrounds with
    | closed hheard => exact ⟨fun _ _ => .inr ⟨_, hheard⟩, nofun, nofun⟩
    | ended hended =>
      refine ⟨nofun, fun _ => hended, fun e he hne => ?_⟩
      cases he
      exact absurd rfl hne
    | @failed e hheard hne =>
      refine ⟨nofun, fun htimeout => ?_, fun e' he' _ => ?_⟩
      · cases e with
        | condition k => cases htimeout; exact absurd rfl hne
        | backend f => cases htimeout
      · cases he'
        refine ⟨e, hheard, rfl, Failure.kind?_as e, fun fault hfault => ?_⟩
        rw [hfault]
        rfl

/-- A cache that fails its third wait and is closed with the fourth. -/
def moody : Level .legacy (Spy.State .legacy LegacyDouble.State)
    (Spy.Call .legacy LegacyDouble.Call) :=
  Spy.level { level := 0 } (LegacyDouble.level { pendingWaits := some 2 })

/-- Two closes wait side by side. One runs out of time and the other is given up; the next fails,
one more succeeds, and the last finds the cache closed. -/
def tangle : List (Move .modern) :=
  let at' (now : Nat) : Env := { now := now, wall := 0, scopes := {} }
  [.call (.close .background) (at' 0), .call (.close ⟨none, some 3⟩) (at' 1), .resume 1 (at' 3),
    .abandon 0, .call (.close .background) (at' 3), .call (.close .background) (at' 4),
    .call (.close .background) (at' 5)]

theorem concurrent_closes_tangled :
    let faults : Spy.Faults .legacy := [(.waitForClose, [none, none, some .keyNotFound])]
    let tr := (unused (faults, {})).run (minuted moody 5) (works []) tangle
    tr.state.1.Sound 5 tr.state.2.1 ∧ tr.state.2.1 = .closed ∧
      (tr.state.1.asked.map fun q => (q.1.number, q.2)) =
        [(0, .closeAsync), (0, .waitForClose 5), (1, .waitForClose 5), (2, .waitForClose 5),
          (3, .waitForClose 5)] ∧
      (tr.state.1.told.map fun q => (q.1.number, q.2.1)) =
        [(1, .error .timeout), (2, .error .keyNotFound), (3, Answer.done), (4, Answer.done)] :=
  ⟨(concurrent_closes moody 5 []
    ([(.waitForClose, [none, none, some .keyNotFound])], {}) tangle []).1, rfl, rfl, rfl⟩

end ToModern

end CacheBridge
