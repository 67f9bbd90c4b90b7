import CacheBridge.Proofs.BatchRouting
import CacheBridge.Proofs.Interleaving

/-!
Batches at a bridge to legacy that is not the only one to use the cache below it. Calls at the
bridge and calls that others make at the cache itself go on in any order, and any of them may be
given up. A journal is kept for each call at the bridge of what the cache was asked for on its
behalf and what it said, word by word. So one can tell at any moment how much of a batch has been
written, and by what it was stopped.
-/

namespace CacheBridge

/-- What passes between a caller and a cache. -/
inductive Word (g : Generation) where
  | asked (r : Request g)
  | told (a : Answer g)

/-- All that has passed between a caller and a cache, and the events that the cache has left
meanwhile. -/
structure Journal (g : Generation) where
  words : List (Word g) := []
  heard : List Event := []

namespace Journal

variable {g : Generation} {σ φ : Type}

def ask (j : Journal g) (r : Request g) : Journal g := { j with words := j.words ++ [.asked r] }

def hear (j : Journal g) (turn : Turn σ φ (Answer g)) : Journal g where
  words := j.words ++ (turn.progress.answer?.map .told).toList
  heard := j.heard ++ turn.events

/-- A step of a call, noted. -/
def note (j : Journal g) (turn : Turn σ φ (Answer g)) : Turn (Journal g × σ) φ (Answer g) :=
  turn.map (fun s => (j.hear turn, s)) id id

/-- Nothing is taken back. -/
structure Before (j j' : Journal g) : Prop where
  words : j.words <+: j'.words
  heard : j.heard <+: j'.heard

theorem Before.refl (j : Journal g) : j.Before j := ⟨List.prefix_rfl, List.prefix_rfl⟩

theorem Before.trans {j j' j'' : Journal g} (h : j.Before j') (h' : j'.Before j'') : j.Before j'' :=
  ⟨h.words.trans h'.words, h.heard.trans h'.heard⟩

theorem before_ask (j : Journal g) (r : Request g) : j.Before (j.ask r) :=
  ⟨List.prefix_append _ _, List.prefix_rfl⟩

theorem before_hear (j : Journal g) (turn : Turn σ φ (Answer g)) : j.Before (j.hear turn) :=
  ⟨List.prefix_append _ _, List.prefix_append _ _⟩

end Journal

/-- The level with a journal of what passes between it and a caller. -/
def Level.journaled {g : Generation} {σ φ : Type} (l : Level g σ φ) :
    Level g (Journal g × σ) φ where
  offers := l.offers
  asking := l.asking
  start r env s := (s.1.ask r).note (l.start r env s.2)
  resume call env s := s.1.note (l.resume call env s.2)
  ready call env s := l.ready call env s.2
  alarm := l.alarm

namespace Replayed

variable {items : List Write} {log : List (Write × Option (Answer .modern))}
  {outcome : Option (Answer .modern)}

theorem order (h : Replayed items log outcome) : log.map Prod.fst <+: items := by
  induction h with
  | «over» => exact List.prefix_rfl
  | stopped w rest | underWay w rest => exact ⟨rest, rfl⟩
  | next r tail ih => exact List.cons_prefix_cons.mpr ⟨rfl, ih⟩

theorem earlier (h : Replayed items log outcome) : ∀ x ∈ log.dropLast, ∃ r, x.2 = some (.ok r) := by
  induction h with
  | «over» | stopped | underWay => nofun
  | @next w rest log outcome r tail ih =>
    cases log with
    | nil => nofun
    | cons y log => exact List.forall_mem_cons.mpr ⟨⟨r, rfl⟩, ih⟩

theorem last (h : Replayed items log outcome) (hlast : ∀ r, outcome ≠ some (.ok r)) :
    ∃ w, log.getLast? = some (w, outcome) := by
  induction h with
  | «over» => exact absurd rfl (hlast _)
  | stopped w | underWay w => exact ⟨w, rfl⟩
  | @next w rest log outcome r tail ih =>
    obtain ⟨w', hw'⟩ := ih hlast
    exact ⟨w', by rw [List.getLast?_cons, hw', Option.getD_some]⟩

theorem complete (h : Replayed items log outcome) {r : Reply} (hok : outcome = some (.ok r)) :
    r = .done ∧ log.map Prod.fst = items ∧ ∀ x ∈ log, ∃ r, x.2 = some (.ok r) := by
  induction h with
  | «over» =>
    cases hok
    exact ⟨rfl, rfl, nofun⟩
  | stopped | underWay => cases hok
  | next r' tail ih =>
    obtain ⟨hdone, horder, hall⟩ := ih hok
    exact ⟨hdone, congrArg _ horder, List.forall_mem_cons.mpr ⟨⟨r', rfl⟩, hall⟩⟩

end Replayed

namespace ToLegacy

variable {σ φ : Type}

/-! ## Calls at a shared bridge -/

/-- A call that has been made at the bridge. -/
structure Dealing (φ : Type) where
  request : LegacyRequest
  /-- What it has come to; nothing if it was given up. -/
  standing : Option (Progress (Call φ) (Answer .legacy))
  /-- What has passed between the bridge and the cache below on its behalf. -/
  journal : Journal .modern
  events : List Event

namespace Dealing

variable (below : Level .modern σ φ) (counts : Bool)

/-- A call is made. -/
def begin (r : LegacyRequest) (env : Env) (state : State σ φ) : State σ φ × Dealing φ :=
  let turn := (level below counts).start r env state
  let noted := (level below.journaled counts).start r env (state.1, ({}, state.2))
  (turn.state, ⟨r, some turn.progress, noted.state.2.1, turn.events⟩)

/-- A call is looked at again, if it waits. -/
def look (env : Env) (state : State σ φ) (d : Dealing φ) : State σ φ × Dealing φ :=
  match d.standing with
  | some (.waiting call) =>
    let turn := (level below counts).resume call env state
    let noted := (level below.journaled counts).resume call env (state.1, (d.journal, state.2))
    (turn.state, ⟨d.request, some turn.progress, noted.state.2.1, d.events ++ turn.events⟩)
  | _ => (state, d)

/-- A call is given up, if it waits. -/
def abandon (d : Dealing φ) : Dealing φ :=
  match d.standing with
  | some (.waiting _) => { d with standing := none }
  | _ => d

end Dealing

/-- A bridge in use: what it keeps for itself, what others do at the cache below, and all calls that
were ever made at the bridge. -/
structure Crowd (σ φ : Type) where
  own : Own φ
  below : Traffic σ φ
  dealings : List (Dealing φ) := []

namespace Crowd

inductive Act where
  | call (r : LegacyRequest) (env : Env)
  | look (i : Nat) (env : Env)
  | abandon (i : Nat)
  /-- The background close of the bridge goes on. -/
  | close (env : Env)
  /-- Somebody else does something at the cache below. -/
  | other (m : Move .modern)

def state (w : Crowd σ φ) : State σ φ := (w.own, w.below.state)

/-- A step of the bridge has left this. -/
def hold (w : Crowd σ φ) (state : State σ φ) : Crowd σ φ :=
  { w with own := state.1, below := { w.below with state := state.2 } }

variable (below : Level .modern σ φ) (counts : Bool) (jobs : List (Job σ))

/-- Acts. An act that names a call that there is not does nothing. -/
def step (w : Crowd σ φ) : Act → Crowd σ φ
  | .call r env =>
    let (state, d) := Dealing.begin below counts r env w.state
    { w.hold state with dealings := w.dealings ++ [d] }
  | .look i env =>
    match w.dealings[i]? with
    | none => w
    | some d =>
      { w.hold (d.look below counts env w.state).1 with
        dealings := w.dealings.modify i fun d => (d.look below counts env w.state).2 }
  | .abandon i => { w with dealings := w.dealings.modify i Dealing.abandon }
  | .close env =>
    let (state, events) := (closing below).run env w.state
    let below := { w.below with state := state.2, events := w.below.events ++ events }
    { w with own := state.1, below := below }
  | .other m => { w with below := w.below.move below jobs m }

def run (w : Crowd σ φ) (acts : List Act) : Crowd σ φ := acts.foldl (step below counts jobs) w

end Crowd

/-! ## The journal is of what the bridge does -/

/-- A step without the journal. -/
def unnoted (turn : Step (Journal .modern × σ) φ) : Step σ φ :=
  turn.map (fun s => (s.1, s.2.2)) id id

@[simp] theorem progress_unnoted (turn : Step (Journal .modern × σ) φ) :
    (unnoted turn).progress = turn.progress := by
  obtain ⟨s, p, es⟩ := turn
  cases p <;> rfl

/-- A step is taken with a journal at hand: the journal makes no difference to the step, and loses
nothing that it had. -/
structure Noted (j : Journal .modern) (turn : Step σ φ) (noted : Step (Journal .modern × σ) φ) :
    Prop where
  same : unnoted noted = turn
  before : j.Before noted.state.2.1

namespace Noted

variable {j j' : Journal .modern} {turn : Step σ φ} {noted : Step (Journal .modern × σ) φ}

theorem of_before (h : Noted j' turn noted) (hj : j.Before j') : Noted j turn noted :=
  ⟨h.same, hj.trans h.before⟩

theorem after (h : Noted j turn noted) (es : List Event) :
    Noted j (turn.after es) (noted.after es) :=
  ⟨congrArg (Turn.after es) h.same, h.before⟩

end Noted

section Noted

variable (below : Level .modern σ φ) (counts : Bool) (j : Journal .modern) (own : Own φ)

theorem noted_relay (turn : Turn σ φ (Answer .modern)) :
    Noted j (relay own turn) (relay own (j.note turn)) := by
  refine ⟨?_, j.before_hear turn⟩
  obtain ⟨s, p, es⟩ := turn
  cases p <;> rfl

theorem noted_pass (r : ModernRequest) (env : Env) (s : σ) :
    Noted j (relay own (below.start r env s)) (relay own (below.journaled.start r env (j, s))) :=
  (noted_relay (j.ask r) own (below.start r env s)).of_before (j.before_ask r)

theorem noted_settle (rest : List Write) {next : σ → Step σ φ}
    {next' : Journal .modern × σ → Step (Journal .modern × σ) φ}
    (hnext : ∀ j s, Noted j (next s) (next' (j, s))) (turn : Turn σ φ (Answer .modern)) :
    Noted j (settle own rest next turn) (settle own rest next' (j.note turn)) := by
  obtain ⟨s, p, es⟩ := turn
  cases p with
  | waiting call => exact ⟨rfl, j.before_hear _⟩
  | answered a =>
    cases a with
    | error e => exact ⟨rfl, j.before_hear _⟩
    | ok r =>
      have hrest := hnext (j.hear (φ := φ) ⟨s, .answered (.ok r), es⟩) s
      exact (hrest.after es).of_before (j.before_hear _)

theorem noted_replay (items : List Write) (env : Env) (s : σ) :
    Noted j (replay below own items env s) (replay below.journaled own items env (j, s)) := by
  induction items generalizing j s with
  | nil => exact ⟨rfl, .refl j⟩
  | cons w rest ih =>
    have hwrite := noted_settle (j.ask (.set .background w)) own rest (fun j s => ih j s)
      (below.start (.set .background w) env s)
    exact hwrite.of_before (j.before_ask _)

theorem noted_tell (timeout : Nat) (s : σ) (p : Progress ClosedWait Bool) :
    Noted (φ := φ) j (tell counts timeout own s p) (tell counts timeout own (j, s) p) := by
  rcases p with wait | _ | _ <;> exact ⟨rfl, .refl j⟩

theorem noted_writeBatch (items : List Write) (env : Env) (s : σ) :
    Noted j (writeBatch below counts items env own s)
      (writeBatch below.journaled counts items env own (j, s)) := by
  unfold writeBatch
  change Noted j _ (if below.offers .multi then _ else _)
  split
  · exact noted_pass below j own _ env s
  · exact (noted_replay below j own items env s).after _

theorem noted_start (r : LegacyRequest) (env : Env) (s : σ) :
    Noted j ((level below counts).start r env (own, s))
      ((level below.journaled counts).start r env (own, (j, s))) := by
  cases r with
  | get | set | add | delete | setWithTtl | addWithTtl => exact noted_pass below j own _ env s
  | setMulti | setMultiWithTtl => exact noted_writeBatch below counts j own _ env s
  | closeAsync =>
    change Noted j (closeAsync env own s) (closeAsync env own (j, s))
    unfold closeAsync
    split
    · exact ⟨rfl, .refl j⟩
    · split <;> exact ⟨rfl, .refl j⟩
  | waitForClose timeout => exact noted_tell counts j own timeout s _

theorem noted_resume (call : Call φ) (env : Env) (s : σ) :
    Noted j ((level below counts).resume call env (own, s))
      ((level below.journaled counts).resume call env (own, (j, s))) := by
  cases call with
  | relayed call => exact noted_relay j own (below.resume call env s)
  | replaying call rest =>
    exact noted_settle j own rest (fun j s => noted_replay below j own rest env s)
      (below.resume call env s)
  | waiting timeout wait => exact noted_tell counts j own timeout s _

end Noted

/-! ## What has become of a batch -/

/-- The words of a replay, from its log. -/
def spoken (log : List (Write × Option (Answer .modern))) : List (Word .modern) :=
  log.flatMap fun (w, a) => .asked (.set .background w) :: (a.map .told).toList

theorem spoken_asked (log : List (Write × Option (Answer .modern))) (w : Write) :
    spoken (log ++ [(w, none)]) = spoken log ++ [.asked (.set .background w)] := by
  simp [spoken]

theorem spoken_told (log : List (Write × Option (Answer .modern))) (w : Write)
    (a : Answer .modern) :
    spoken (log ++ [(w, some a)]) = spoken (log ++ [(w, none)]) ++ [.told a] := by
  simp [spoken]

/-- What a replay has said and has come to; it can be given up at each of its waits. -/
inductive Replays (items : List Write) (words : List (Word .modern)) :
    Option (Progress (Call φ) (Answer .legacy)) → Prop where
  | answered {log : List (Write × Option (Answer .modern))} {a : Answer .modern}
    (hwords : words = spoken log) (h : Replayed items log (some a)) :
    Replays items words (some (.answered (a.as .legacy)))
  | waiting (gone : List (Write × Reply)) (w : Write) (rest : List Write) (call : φ)
    (hwords : words = spoken (Replayed.through gone ++ [(w, none)]))
    (h : items = gone.map Prod.fst ++ w :: rest) :
    Replays items words (some (.waiting (.replaying call rest)))
  | abandoned (gone : List (Write × Reply)) (w : Write) (rest : List Write)
    (hwords : words = spoken (Replayed.through gone ++ [(w, none)]))
    (h : items = gone.map Prod.fst ++ w :: rest) : Replays items words none

/-- What a batch that is handed on whole has said and has come to. -/
inductive HandsOn (items : List Write) :
    List (Word .modern) → Option (Progress (Call φ) (Answer .legacy)) → Prop where
  | answered (a : Answer .modern) :
    HandsOn items [.asked (.setMulti .background items), .told a] (some (.answered (a.as .legacy)))
  | waiting (call : φ) :
    HandsOn items [.asked (.setMulti .background items)] (some (.waiting (.relayed call)))
  | abandoned : HandsOn items [.asked (.setMulti .background items)] none

/-- A step of a replay, where the cache below had left the events `heard` before. -/
structure Chronicled (items : List Write) (heard : List Event)
    (noted : Step (Journal .modern × σ) φ) : Prop where
  heard : noted.state.2.1.heard = heard ++ noted.events
  replays : Replays items noted.state.2.1.words (some noted.progress)

section Steps

variable (below : Level .modern σ φ) (counts : Bool) (own : Own φ) {items : List Write}

/-- A step of the write under way takes the replay on, if the writes to come do. -/
theorem chronicled_settle {gone : List (Write × Reply)} {w : Write} {rest : List Write}
    (hitems : items = gone.map Prod.fst ++ w :: rest) {heard : List Event}
    {next : Journal .modern × σ → Step (Journal .modern × σ) φ}
    (hnext : ∀ r heard s, Chronicled items heard
      (next (⟨spoken (Replayed.through (gone ++ [(w, r)])), heard⟩, s)))
    (turn : Turn σ φ (Answer .modern)) :
    Chronicled items heard (settle own rest next
      (Journal.note ⟨spoken (Replayed.through gone ++ [(w, none)]), heard⟩ turn)) := by
  obtain ⟨s, p, es⟩ := turn
  cases p with
  | waiting call => exact ⟨rfl, .waiting gone w rest call (List.append_nil _) hitems⟩
  | answered a =>
    have hwords := (spoken_told (Replayed.through gone) w a).symm
    cases a with
    | error e => exact ⟨rfl, .answered hwords (hitems ▸ (Replayed.stopped w rest e).prepend gone)⟩
    | ok r =>
      have hgone : Replayed.through gone ++ [(w, some (.ok r))] =
          Replayed.through (gone ++ [(w, r)]) := by
        simp [Replayed.through]
      rw [hgone] at hwords
      have hchronicled := hnext r (heard ++ es) s
      rw [← hwords] at hchronicled
      exact ⟨hchronicled.heard.trans (List.append_assoc _ _ _), hchronicled.replays⟩

theorem chronicled_replay (env : Env) (rest : List Write) (gone : List (Write × Reply))
    (hitems : items = gone.map Prod.fst ++ rest) (heard : List Event) (s : σ) :
    Chronicled items heard
      (replay below.journaled own rest env (⟨spoken (Replayed.through gone), heard⟩, s)) := by
  induction rest generalizing gone heard s with
  | nil =>
    have hover : Replayed items (Replayed.through gone) (some Answer.done) := by
      simpa [hitems] using Replayed.over.prepend gone
    exact ⟨(List.append_nil heard).symm, .answered rfl hover⟩
  | cons w rest ih =>
    have hstep : Chronicled items heard (settle own rest (replay below.journaled own rest env)
        (Journal.note ⟨spoken (Replayed.through gone ++ [(w, none)]), heard⟩
          (below.start (.set .background w) env s))) :=
      chronicled_settle own hitems
        (fun r heard s => ih (gone ++ [(w, r)]) (by simp [hitems]) heard s) _
    rw [spoken_asked] at hstep
    exact hstep

theorem chronicled_resume (env : Env) {gone : List (Write × Reply)} {w : Write} {rest : List Write}
    (hitems : items = gone.map Prod.fst ++ w :: rest) (heard : List Event) (call : φ) (s : σ) :
    Chronicled items heard ((level below.journaled counts).resume (.replaying call rest) env
      (own, (⟨spoken (Replayed.through gone ++ [(w, none)]), heard⟩, s))) :=
  chronicled_settle own hitems
    (fun r heard s => chronicled_replay below own env rest (gone ++ [(w, r)])
        (by simp [hitems]) heard s)
    (below.resume call env s)

/-- A step of a batch that was handed on whole. -/
theorem handsOn_relay (items : List Write) (heard : List Event) (turn : Turn σ φ (Answer .modern)) :
    let noted := relay own (Journal.note ⟨[.asked (.setMulti .background items)], heard⟩ turn)
    heard ++ noted.events = noted.state.2.1.heard ∧
      HandsOn items noted.state.2.1.words (some noted.progress) := by
  obtain ⟨s, p, es⟩ := turn
  cases p with
  | waiting call => exact ⟨rfl, .waiting call⟩
  | answered a => exact ⟨rfl, .answered a⟩

end Steps

namespace Dealing

variable (below : Level .modern σ φ) (counts : Bool)

/-- How a call for a batch stands at any moment. -/
structure Stands (items : List Write) (d : Dealing φ) : Prop where
  replayed : below.offers .multi = false →
    d.events = (if counts then [.counted .batchReplayed] else []) ++ d.journal.heard ∧
      Replays items d.journal.words d.standing
  whole : below.offers .multi = true →
    d.events = d.journal.heard ∧ HandsOn items d.journal.words d.standing

/-- What is noted of a call is what the bridge does. -/
theorem begin_eq (r : LegacyRequest) (env : Env) (state : State σ φ) :
    (begin below counts r env state).2 =
      let noted := (level below.journaled counts).start r env (state.1, ({}, state.2))
      ⟨r, some noted.progress, noted.state.2.1, noted.events⟩ := by
  obtain ⟨hsame, -⟩ := noted_start below counts {} state.1 r env state.2
  simp only [begin, ← hsame, progress_unnoted]
  rfl

theorem look_eq (env : Env) (state : State σ φ) {d : Dealing φ} {call : Call φ}
    (h : d.standing = some (.waiting call)) :
    (d.look below counts env state).2 =
      let noted := (level below.journaled counts).resume call env (state.1, (d.journal, state.2))
      ⟨d.request, some noted.progress, noted.state.2.1, d.events ++ noted.events⟩ := by
  obtain ⟨hsame, -⟩ := noted_resume below counts d.journal state.1 call env state.2
  simp only [look, h, ← hsame, progress_unnoted]
  rfl

theorem look_of_over (env : Env) (state : State σ φ) {d : Dealing φ}
    (h : ∀ call, d.standing ≠ some (.waiting call)) :
    d.look below counts env state = (state, d) := by
  unfold look
  split
  · next hwaiting => exact absurd hwaiting (h _)
  · rfl

theorem start_batch {r : LegacyRequest} {items : List Write}
    (h : batchOf? (g := .legacy) r = some items) (env : Env) (state : State σ φ) :
    start below counts r env state = writeBatch below counts items env state.1 state.2 := by
  cases r with
  | setMulti | setMultiWithTtl =>
    cases h
    rfl
  | get | set | add | delete | closeAsync | waitForClose | setWithTtl | addWithTtl => cases h

theorem begin_stands {r : LegacyRequest} {items : List Write}
    (h : batchOf? (g := .legacy) r = some items) (env : Env) (state : State σ φ) :
    (begin below counts r env state).2.Stands below counts items := by
  obtain ⟨own, s⟩ := state
  have hstart : (level below.journaled counts).start r env (own, ({}, s)) =
      if below.offers .multi then
        relay own (Journal.note ⟨[.asked (.setMulti .background items)], []⟩
          (below.start (.setMulti .background items) env s))
      else (replay below.journaled own items env ({}, s)).after (tally counts .batchReplayed) :=
    start_batch below.journaled counts h env (own, ({}, s))
  rw [begin_eq]
  refine ⟨fun hsingle => ?_, fun hmulti => ?_⟩
  · rw [if_neg (Bool.eq_false_iff.mp hsingle)] at hstart
    obtain ⟨hheard, hreplays⟩ := chronicled_replay below own env items [] rfl [] s
    simp only [hstart]
    exact ⟨congrArg (tally counts .batchReplayed ++ ·) hheard.symm, hreplays⟩
  · rw [if_pos hmulti] at hstart
    simp only [hstart]
    exact handsOn_relay own items [] _

theorem look_stands {d : Dealing φ} {items : List Write} (h : d.Stands below counts items)
    (env : Env)
    (state : State σ φ) : (d.look below counts env state).2.Stands below counts items := by
  by_cases hwaits : ∃ call, d.standing = some (.waiting call)
  · obtain ⟨call, hcall⟩ := hwaits
    rw [look_eq below counts env state hcall]
    obtain ⟨r, standing, ⟨words, heard⟩, events⟩ := d
    cases hcall
    refine ⟨fun hsingle => ?_, fun hmulti => ?_⟩
    · obtain ⟨hevents, hreplays⟩ := h.replayed hsingle
      change events = _ ++ heard at hevents
      cases hreplays with
      | waiting gone w rest call hwords hitems =>
        cases hwords
        subst hevents
        obtain ⟨hheard, hreplays⟩ :=
          chronicled_resume below counts state.1 env hitems heard call state.2
        refine ⟨?_, hreplays⟩
        exact (List.append_assoc _ _ _).trans
          (congrArg (tally counts .batchReplayed ++ ·) hheard.symm)
    · obtain ⟨hevents, hhands⟩ := h.whole hmulti
      change events = heard at hevents
      cases hhands with
      | waiting call =>
        subst hevents
        exact handsOn_relay state.1 items _ (below.resume call env state.2)
  · rwa [look_of_over below counts env state (not_exists.mp hwaits)]

theorem abandon_stands {d : Dealing φ} {items : List Write} (h : d.Stands below counts items) :
    d.abandon.Stands below counts items := by
  unfold abandon
  split
  · next call hcall =>
    obtain ⟨r, standing, ⟨words, heard⟩, events⟩ := d
    cases hcall
    refine ⟨fun hsingle => ?_, fun hmulti => ?_⟩
    · obtain ⟨hevents, hreplays⟩ := h.replayed hsingle
      cases hreplays with
      | waiting gone w rest call hwords hitems =>
        exact ⟨hevents, .abandoned gone w rest hwords hitems⟩
    · obtain ⟨hevents, hhands⟩ := h.whole hmulti
      cases hhands
      exact ⟨hevents, .abandoned⟩
  · exact h

/-- Nothing is taken back of a call, and nothing is done on its behalf once it is over. -/
structure Grows (d d' : Dealing φ) : Prop where
  request : d'.request = d.request
  journal : d.journal.Before d'.journal
  events : d.events <+: d'.events
  ended : (∀ call, d.standing ≠ some (.waiting call)) → d' = d

theorem Grows.refl (d : Dealing φ) : d.Grows d := ⟨rfl, .refl _, List.prefix_rfl, fun _ => rfl⟩

theorem Grows.trans {d d' d'' : Dealing φ} (h : d.Grows d') (h' : d'.Grows d'') : d.Grows d'' where
  request := h'.request.trans h.request
  journal := h.journal.trans h'.journal
  events := h.events.trans h'.events
  ended hover := by
    have hsame := h.ended hover
    rw [hsame] at h'
    exact h'.ended hover

theorem grows_look (env : Env) (state : State σ φ) (d : Dealing φ) :
    d.Grows (d.look below counts env state).2 := by
  by_cases hwaits : ∃ call, d.standing = some (.waiting call)
  · obtain ⟨call, hcall⟩ := hwaits
    rw [look_eq below counts env state hcall]
    obtain ⟨-, hbefore⟩ := noted_resume below counts d.journal state.1 call env state.2
    exact ⟨rfl, hbefore, List.prefix_append _ _, fun hover => absurd hcall (hover call)⟩
  · rw [look_of_over below counts env state (not_exists.mp hwaits)]
    exact .refl d

theorem grows_abandon (d : Dealing φ) : d.Grows d.abandon := by
  unfold abandon
  split
  · next call hcall =>
    exact ⟨rfl, .refl _, List.prefix_rfl, fun hover => absurd hcall (hover call)⟩
  · exact .refl d

/-- What an act can do to a call. -/
inductive Becomes (d : Dealing φ) : Dealing φ → Prop where
  | stays : Becomes d d
  | looked (env : Env) (state : State σ φ) : Becomes d (d.look below counts env state).2
  | abandoned : Becomes d d.abandon

namespace Becomes

variable {below : Level .modern σ φ} {counts : Bool} {d d' : Dealing φ}

theorem grows (h : d.Becomes below counts d') : d.Grows d' := by
  cases h with
  | stays => exact .refl d
  | looked env state => exact grows_look below counts env state d
  | abandoned => exact d.grows_abandon

theorem stands (h : d.Becomes below counts d') {items : List Write}
    (hd : d.Stands below counts items) :
    d'.Stands below counts items := by
  cases h with
  | stays => exact hd
  | looked env state => exact look_stands below counts hd env state
  | abandoned => exact abandon_stands below counts hd

end Becomes

/-- A batch that is written item by item, with its log so far. -/
structure Partly (counts : Bool) (items : List Write) (log : List (Write × Option (Answer .modern)))
    (d : Dealing φ) : Prop where
  /-- Each set comes after the answer to the one before, and there is nothing but sets. -/
  words : d.journal.words = spoken log
  order : log.map Prod.fst <+: items
  earlier : ∀ x ∈ log.dropLast, ∃ r, x.2 = some (.ok r)
  /-- A failure is that of the last set. -/
  failed : ∀ e, d.standing = some (.answered (.error e)) →
    ∃ w e', log.getLast? = some (w, some (.error e')) ∧ e = e'.as .legacy ∧ e.kind? = e'.kind? ∧
      ∀ fault, e' = .backend fault → e = .backend fault
  complete : ∀ r, d.standing = some (.answered (.ok r)) →
    r = .done ∧ log.map Prod.fst = items ∧ ∀ x ∈ log, ∃ r, x.2 = some (.ok r)
  unanswered : (∀ a, d.standing ≠ some (.answered a)) → ∃ w, log.getLast? = some (w, none)
  /-- The bridge counts one replayed batch, at the beginning, if it counts at all; all other events
  come from the cache below. -/
  counted : d.events = (if counts then [.counted .batchReplayed] else []) ++ d.journal.heard

theorem Stands.partly {items : List Write} {d : Dealing φ} (h : d.Stands below counts items)
    (hsingle : below.offers .multi = false) : ∃ log, d.Partly counts items log := by
  obtain ⟨hcounted, hreplays⟩ := h.replayed hsingle
  obtain ⟨r, standing, journal, events⟩ := d
  have hopen (gone : List (Write × Reply)) (w : Write) (rest : List Write)
      (hitems : items = gone.map Prod.fst ++ w :: rest) :
      Replayed items (Replayed.through gone ++ [(w, none)]) none :=
    hitems ▸ (Replayed.underWay w rest).prepend gone
  cases hreplays with
  | @answered log a hwords hlog =>
    refine ⟨log, hwords, hlog.order, hlog.earlier, fun e he => ?_, fun r hr => ?_,
      fun hno => ?_, hcounted⟩
    · cases a with
      | ok => cases he
      | error e' =>
        cases he
        obtain ⟨w, hw⟩ := hlog.last (by nofun)
        refine ⟨w, e', hw, rfl, Failure.kind?_as e', fun fault hfault => ?_⟩
        rw [hfault]
        rfl
    · cases a with
      | ok r' =>
        cases hr
        exact hlog.complete rfl
      | error => cases hr
    · exact absurd rfl (hno _)
  | waiting gone w rest call hwords hitems =>
    have hlog := hopen gone w rest hitems
    exact ⟨_, hwords, hlog.order, hlog.earlier, nofun, nofun, fun _ => hlog.last nofun, hcounted⟩
  | abandoned gone w rest hwords hitems =>
    have hlog := hopen gone w rest hitems
    exact ⟨_, hwords, hlog.order, hlog.earlier, nofun, nofun, fun _ => hlog.last nofun, hcounted⟩

end Dealing

namespace Crowd

variable (below : Level .modern σ φ) (counts : Bool) (jobs : List (Job σ))

/-! ## Every course of acts -/

/-- The request that an act makes at the bridge. -/
def Act.request? : Act → Option LegacyRequest
  | .call r _ => some r
  | .look _ _ | .abandon _ | .close _ | .other _ => none

/-- What an act does to the calls: it makes one more, or takes one further. -/
theorem step_dealings (w : Crowd σ φ) (act : Act) :
    (∃ r env, act.request? = some r ∧ (w.step below counts jobs act).dealings =
      w.dealings ++ [(Dealing.begin below counts r env w.state).2]) ∨
    (∃ i f, act.request? = none ∧ (w.step below counts jobs act).dealings = w.dealings.modify i f ∧
      ∀ d : Dealing φ, d.Becomes below counts (f d)) := by
  cases act with
  | call r env => exact .inl ⟨r, env, rfl, rfl⟩
  | look i env =>
    refine .inr ⟨i, fun d => (d.look below counts env w.state).2, rfl, ?_,
      fun d => .looked env w.state⟩
    cases hi : w.dealings[i]? with
    | none =>
      simp only [step, hi]
      exact (List.modify_eq_self (List.getElem?_eq_none_iff.mp hi)).symm
    | some d => simp only [step, hi]
  | abandon i => exact .inr ⟨i, Dealing.abandon, rfl, rfl, fun d => .abandoned⟩
  | close env => exact .inr ⟨0, id, rfl, (List.modify_id _ _).symm, fun d => .stays⟩
  | other m => exact .inr ⟨0, id, rfl, (List.modify_id _ _).symm, fun d => .stays⟩

theorem step_grows {w : Crowd σ φ} {i : Nat} {d : Dealing φ} (h : w.dealings[i]? = some d)
    (act : Act) :
    ∃ d', (w.step below counts jobs act).dealings[i]? = some d' ∧ d.Grows d' := by
  obtain ⟨r, env, -, hone⟩ | ⟨j, f, -, hfurther, hf⟩ := step_dealings below counts jobs w act
  · refine ⟨d, ?_, .refl d⟩
    rw [hone, List.getElem?_append_left (List.getElem?_eq_some_iff.mp h).1, h]
  · refine ⟨if j = i then f d else d, ?_, ?_⟩
    · rw [hfurther, List.getElem?_modify, h]
      rfl
    · split
      · exact (hf d).grows
      · exact .refl d

theorem run_grows {w : Crowd σ φ} {i : Nat} {d : Dealing φ} (h : w.dealings[i]? = some d)
    (acts : List Act) :
    ∃ d', (w.run below counts jobs acts).dealings[i]? = some d' ∧ d.Grows d' := by
  induction acts generalizing w d with
  | nil => exact ⟨d, h, .refl d⟩
  | cons act acts ih =>
    obtain ⟨d', hd', hgrows⟩ := step_grows below counts jobs h act
    obtain ⟨d'', hd'', hgrows'⟩ := ih hd'
    exact ⟨d'', hd'', hgrows.trans hgrows'⟩

/-- Every call for a batch stands as it should. -/
def Sound (w : Crowd σ φ) : Prop :=
  ∀ d ∈ w.dealings, ∀ items, batchOf? (g := .legacy) d.request = some items →
    d.Stands below counts items

variable {below counts}

theorem Sound.step {w : Crowd σ φ} (h : w.Sound below counts) (act : Act) :
    (w.step below counts jobs act).Sound below counts := by
  intro d hd items hitems
  obtain ⟨r, env, -, hone⟩ | ⟨j, f, -, hfurther, hf⟩ := step_dealings below counts jobs w act
  · rw [hone] at hd
    obtain hold | hnew := List.mem_append.mp hd
    · exact h d hold items hitems
    · cases List.mem_singleton.mp hnew
      exact Dealing.begin_stands below counts hitems env w.state
  · rw [hfurther] at hd
    obtain ⟨i, hi⟩ := List.mem_iff_getElem?.mp hd
    rw [List.getElem?_modify] at hi
    obtain ⟨d₀, hd₀, rfl⟩ := Option.map_eq_some_iff.mp hi
    have hbecomes : d₀.Becomes below counts (if j = i then f d₀ else d₀) := by
      split
      · exact hf d₀
      · exact .stays
    rw [hbecomes.grows.request] at hitems
    exact hbecomes.stands (h d₀ (List.mem_of_getElem? hd₀) items hitems)

theorem Sound.run {w : Crowd σ φ} (h : w.Sound below counts) (acts : List Act) :
    (w.run below counts jobs acts).Sound below counts := by
  induction acts generalizing w with
  | nil => exact h
  | cons act acts ih => exact ih (h.step jobs act)

theorem step_requests (w : Crowd σ φ) (act : Act) :
    (w.step below counts jobs act).dealings.map Dealing.request =
      w.dealings.map Dealing.request ++ act.request?.toList := by
  obtain ⟨r, env, hr, hone⟩ | ⟨j, f, hr, hfurther, hf⟩ := step_dealings below counts jobs w act
  · rw [hone, hr, List.map_append]
    rfl
  · rw [hfurther, hr, Option.toList_none, List.append_nil]
    refine List.ext_getElem? fun i => ?_
    rw [List.getElem?_map, List.getElem?_map, List.getElem?_modify]
    cases w.dealings[i]? with
    | none => rfl
    | some d =>
      refine congrArg some ?_
      split
      · exact (hf d).grows.request
      · rfl

/-- There is a call for each request that was made, in the order in which they were made. -/
theorem run_requests (w : Crowd σ φ) (acts : List Act) :
    (w.run below counts jobs acts).dealings.map Dealing.request =
      w.dealings.map Dealing.request ++ acts.filterMap Act.request? := by
  induction acts generalizing w with
  | nil => simp [run]
  | cons act acts ih =>
    refine (ih (w.step below counts jobs act)).trans ?_
    rw [step_requests, List.append_assoc, List.filterMap_cons]
    cases act.request? <;> rfl

/-- However a bridge and the cache below it are used, a batch that was written at the bridge has
been written up to some item, in its order, each item after the one before it had gone through. It
fails with the failure of the last item that was tried, and is done when all were written; one that
has been given up goes no further. It is counted once, however it ends. A cache with a batch surface
gets the batch as one request, and that is not counted. -/
theorem batch_written_in_order (below : Level .modern σ φ) (counts : Bool) (jobs : List (Job σ))
    (own : Own φ) (traffic : Traffic σ φ) (acts more : List Act) {i : Nat} {r : LegacyRequest}
    {items : List Write} (hr : (acts.filterMap Act.request?)[i]? = some r)
    (hitems : batchOf? (g := .legacy) r = some items) :
    let u := (⟨own, traffic, []⟩ : Crowd σ φ).run below counts jobs acts
    ∃ d d', u.dealings[i]? = some d ∧ (u.run below counts jobs more).dealings[i]? = some d' ∧
      d.request = r ∧ d.Grows d' ∧
      (below.offers .multi = false → ∃ log, d.Partly counts items log) ∧
      (below.offers .multi = true →
        HandsOn items d.journal.words d.standing ∧ d.events = d.journal.heard) := by
  intro u
  have hrequests : u.dealings.map Dealing.request = acts.filterMap Act.request? :=
    run_requests jobs _ acts
  rw [← hrequests, List.getElem?_map] at hr
  obtain ⟨d, hd, rfl⟩ := Option.map_eq_some_iff.mp hr
  obtain ⟨d', hd', hgrows⟩ := run_grows below counts jobs hd more
  have hsound : u.Sound below counts := Sound.run (w := ⟨own, traffic, []⟩) jobs nofun acts
  have hstands := hsound d (List.mem_of_getElem? hd) items hitems
  exact ⟨d, d', hd, hd', rfl, hgrows, hstands.partly below counts, fun hmulti =>
    ⟨(hstands.whole hmulti).2, (hstands.whole hmulti).1⟩⟩

/-- A cache that takes a while for each set, and fails at `b`. The first batch gets as far as that,
though somebody else deletes its first item meanwhile; the second is given up at its second item,
and a third one is empty. Each of them is counted. -/
theorem batch_written_in_order_failing :
    let full : Fault := ⟨7, .message "full"⟩
    let below := Spy.level { level := 0, delays := [(.set, Time.millisecond)] }
      (ModernDouble.level { failOn := some ("b", .backend full) })
    let env (ms : Nat) : Env := { now := ms * Time.millisecond, wall := 0, scopes := {} }
    let seen (r : ModernRequest) (ms : Nat) : Event :=
      .seen ⟨0, ms * Time.millisecond, .ofRequest (g := .modern) r, false⟩
    let items : List Write := [⟨"a", [1], some 9⟩, ⟨"b", [2], none⟩, ⟨"c", [3], none⟩]
    let acts : List Act := [.call (.setMultiWithTtl items) (env 0),
      .call (.setMulti [("d", [4]), ("e", [5])]) (env 0), .call (.setMulti []) (env 0),
      .look 0 (env 1), .other (.call (.delete .background "a") (env 1)), .look 1 (env 1)]
    let more : List Act := [.abandon 1, .look 0 (env 2)]
    let u := (⟨.fresh, .fresh ([], {}), []⟩ : Crowd _ _).run below true [] acts
    let w := u.run below true [] more
    (∃ d d', u.dealings[0]? = some d ∧ w.dealings[0]? = some d' ∧ d.Grows d' ∧
      ∃ log, d.Partly true items log) ∧
    (w.dealings.map fun d => (d.standing.bind Progress.answer?, d.journal.words)) =
      [(some (.error (.backend full)),
        [.asked (.set .background ⟨"a", [1], some 9⟩), .told Answer.done,
          .asked (.set .background ⟨"b", [2], none⟩), .told (.error (.backend full))]),
        (none, [.asked (.set .background ⟨"d", [4], none⟩), .told Answer.done,
          .asked (.set .background ⟨"e", [5], none⟩)]),
        (some Answer.done, [])] ∧
    (w.dealings.map Dealing.events) =
      [[.counted .batchReplayed, seen (.set .background ⟨"a", [1], some 9⟩) 0,
          seen (.set .background ⟨"b", [2], none⟩) 1],
        [.counted .batchReplayed, seen (.set .background ⟨"d", [4], none⟩) 0,
          seen (.set .background ⟨"e", [5], none⟩) 1],
        [.counted .batchReplayed]] := by
  intro full below env seen items acts more u w
  obtain ⟨d, d', hd, hd', -, hgrows, hpartly, -⟩ :=
    batch_written_in_order below true [] .fresh (.fresh ([], {})) acts more
      (i := 0) (r := .setMultiWithTtl items) rfl rfl
  refine ⟨⟨d, d', hd, hd', hgrows, hpartly rfl⟩, ?_⟩
  subst w u more acts items seen env
  exact ⟨rfl, rfl⟩

end Crowd

end ToLegacy

end CacheBridge
