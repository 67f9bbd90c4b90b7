import CacheBridge.Proofs.Passage

/-!
A batch that is replayed write by write, on a cache that may keep each write waiting. `Replayed`
says what a replay may look like from below: the writes in their order, each only after the one
before it has gone through, up to the first that fails. A replay keeps to it however often it has to
wait, and wherever it is given up.
-/

namespace CacheBridge

/-- The log of a replay of some writes, with what the cache said to each if it has said anything,
and what the replay has come to. -/
inductive Replayed : List Write → List (Write × Option (Answer .modern)) →
    Option (Answer .modern) → Prop where
  | over : Replayed [] [] (some Answer.done)
  | stopped (w : Write) (rest : List Write) (e : Failure .modern) :
    Replayed (w :: rest) [(w, some (.error e))] (some (.error e))
  | underWay (w : Write) (rest : List Write) : Replayed (w :: rest) [(w, none)] none
  | next {w : Write} {rest : List Write} {log : List (Write × Option (Answer .modern))}
      {outcome : Option (Answer .modern)} (r : Reply) (tail : Replayed rest log outcome) :
    Replayed (w :: rest) ((w, some (.ok r)) :: log) outcome

namespace Replayed

/-- The log of writes that have gone through. -/
def through (gone : List (Write × Reply)) : List (Write × Option (Answer .modern)) :=
  gone.map fun (w, r) => (w, some (.ok r))

theorem prepend {items : List Write} {log : List (Write × Option (Answer .modern))}
    {outcome : Option (Answer .modern)} (gone : List (Write × Reply))
    (h : Replayed items log outcome) :
    Replayed (gone.map Prod.fst ++ items) (through gone ++ log) outcome := by
  induction gone with
  | nil => exact h
  | cons x gone ih => exact .next x.2 ih

end Replayed

namespace Ledger

variable {σ φ : Type}

/-- The ledger after the calls of a replay. -/
def replayed (led : Ledger .modern) (log : List (Write × Option (Answer .modern))) :
    Ledger .modern where
  received := led.received ++ log.map fun (w, _) => .set .background w
  answered := led.answered ++ log.filterMap fun (w, a) => a.map fun a => (.set .background w, a)

@[simp] theorem replayed_nil (led : Ledger .modern) : led.replayed [] = led := by
  simp [replayed]

/-- A write that has just been asked for. -/
theorem receive_replayed (led : Ledger .modern) (log : List (Write × Option (Answer .modern)))
    (w : Write) :
    (led.replayed log).receive (.set .background w) = led.replayed (log ++ [(w, none)]) := by
  simp [replayed, receive]

/-- A write that has just been answered. -/
theorem settle_replayed (led : Ledger .modern) (log : List (Write × Option (Answer .modern)))
    (w : Write) (a : Answer .modern) :
    (led.replayed (log ++ [(w, none)])).settle (.set .background w)
        (.answered a : Progress φ (Answer .modern)) = led.replayed (log ++ [(w, some a)]) := by
  simp [replayed, settle]

end Ledger

namespace ToLegacy

variable {σ φ : Type}

/-- What a step of a replay has come to, on a recorded cache: an answer, or a wait for the write
that the log ends with. -/
inductive Midway (items : List Write) (led : Ledger .modern) (own : Own (ModernRequest × φ)) :
    Step (Ledger .modern × σ) (ModernRequest × φ) → Prop where
  | answered {log : List (Write × Option (Answer .modern))} {a : Answer .modern} (x : σ)
      (es : List Event) (h : Replayed items log (some a)) :
    Midway items led own ⟨(own, (led.replayed log, x)), .answered (a.as .legacy), es⟩
  | waiting (gone : List (Write × Reply)) (w : Write) (rest : List Write) (call : φ) (x : σ)
      (es : List Event) (h : items = gone.map Prod.fst ++ w :: rest) :
    Midway items led own
      ⟨(own, (led.replayed (Replayed.through gone ++ [(w, none)]), x)),
        .waiting (.replaying (.set .background w, call) rest), es⟩

variable {items : List Write} {led : Ledger .modern} {own : Own (ModernRequest × φ)}

theorem Midway.after {turn : Step (Ledger .modern × σ) (ModernRequest × φ)}
    (h : Midway items led own turn) (es : List Event) : Midway items led own (turn.after es) := by
  cases h with
  | answered x fs h => exact .answered x (es ++ fs) h
  | waiting gone w rest call x fs h => exact .waiting gone w rest call x (es ++ fs) h

/-- A step of the write under way takes the replay on, if the writes to come do. -/
theorem midway_settle (items : List Write) (led : Ledger .modern) (own : Own (ModernRequest × φ))
    (gone : List (Write × Reply)) (w : Write) (rest : List Write)
    (next : Ledger .modern × σ → Step (Ledger .modern × σ) (ModernRequest × φ))
    (hnext : ∀ r x, Midway items led own
      (next (led.replayed (Replayed.through (gone ++ [(w, r)])), x)))
    (hitems : items = gone.map Prod.fst ++ w :: rest) (turn : Turn σ φ (Answer .modern)) :
    Midway items led own (settle own rest next
      ((led.replayed (Replayed.through gone ++ [(w, none)])).note (.set .background w) turn)) := by
  obtain ⟨x, p, es⟩ := turn
  cases p with
  | waiting call => exact .waiting gone w rest call x es hitems
  | answered a =>
    cases a with
    | ok r =>
      have hlog : (led.replayed (Replayed.through gone ++ [(w, none)])).settle
          (.set .background w) (.answered (.ok r) : Progress φ (Answer .modern)) =
          led.replayed (Replayed.through (gone ++ [(w, r)])) := by
        rw [Ledger.settle_replayed]
        simp [Replayed.through]
      have h := (hnext r x).after es
      rw [← hlog] at h
      exact h
    | error e =>
      have hlog := led.settle_replayed (φ := φ) (Replayed.through gone) w (.error e)
      have h : Midway (σ := σ) items led own
          ⟨(own, (led.replayed (Replayed.through gone ++ [(w, some (.error e))]), x)),
            .answered (.error (e.as .legacy)), es⟩ :=
        .answered x es (hitems ▸ (Replayed.stopped w rest e).prepend gone)
      rw [← hlog] at h
      exact h

theorem midway_replay (below : Level .modern σ φ) (items : List Write) (led : Ledger .modern)
    (own : Own (ModernRequest × φ)) (env : Env) (rest : List Write)
    (gone : List (Write × Reply)) (hitems : items = gone.map Prod.fst ++ rest) (x : σ) :
    Midway items led own
      (replay below.recorded own rest env (led.replayed (Replayed.through gone), x)) := by
  induction rest generalizing gone x with
  | nil =>
    have h : Replayed items (Replayed.through gone) (some Answer.done) := by
      simpa [hitems] using Replayed.over.prepend gone
    exact .answered x [] h
  | cons w rest ih =>
    have hstep := midway_settle items led own gone w rest
      (replay below.recorded own rest env)
      (fun r x => ih (gone ++ [(w, r)]) (by simp [hitems]) x) hitems
      (below.start (.set .background w) env x)
    rw [← Ledger.receive_replayed] at hstep
    exact hstep

theorem midway_goOn (below : Level .modern σ φ) (counts : Bool) (later : List Env)
    {turn : Step (Ledger .modern × σ) (ModernRequest × φ)} (h : Midway items led own turn) :
    Midway items led own ((level below.recorded counts).goOn later turn) := by
  induction later generalizing turn with
  | nil => exact h
  | cons env later ih =>
    cases h with
    | answered x es h =>
      rw [Level.goOn_answered _ _ rfl]
      exact .answered x es h
    | waiting gone w rest call x es hitems =>
      rw [Level.goOn_waiting _ env later rfl]
      refine ih (Midway.after ?_ es)
      exact midway_settle items led own gone w rest (replay below.recorded own rest env)
        (fun r x => midway_replay below items led own env rest (gone ++ [(w, r)])
            (by simp [hitems]) x)
        hitems (below.resume call env x)

/-- Whatever a replay has come to, its log says how. -/
theorem Midway.replayed {turn : Step (Ledger .modern × σ) (ModernRequest × φ)}
    (h : Midway items led own turn) :
    ∃ log outcome x, Replayed items log outcome ∧ turn.state = (own, (led.replayed log, x)) ∧
      turn.progress.answer? = outcome.map (Answer.as .legacy) := by
  cases h with
  | answered x es h => exact ⟨_, _, x, h, rfl, rfl⟩
  | waiting gone w rest call x es h =>
    exact ⟨_, none, x, h ▸ (Replayed.underWay w rest).prepend gone, rfl, rfl⟩

end ToLegacy

end CacheBridge
