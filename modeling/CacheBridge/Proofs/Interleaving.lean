import CacheBridge.Level

/-!
Calls in any order. Traffic at a level is its state with all calls that have not been answered; a
move makes a call, looks at one again, gives one up, or takes a piece of background work on, each in
an environment of its own. Nothing ties the moves to a clock or to what is ready, so whatever holds
after all moves holds under every event loop.
-/

namespace CacheBridge

structure Traffic (σ φ : Type) where
  state : σ
  /-- The unanswered calls, in the order in which they were last looked at. -/
  calls : List φ
  events : List Event

inductive Move (g : Generation) where
  | call (r : Request g) (env : Env)
  | resume (i : Nat) (env : Env)
  | abandon (i : Nat)
  | work (i : Nat) (env : Env)

namespace Traffic

variable {g : Generation} {σ φ : Type}

/-- What a step of a call makes of the traffic, next to the other calls. -/
def take (tr : Traffic σ φ) (others : List φ) (turn : Turn σ φ (Answer g)) : Traffic σ φ where
  state := turn.state
  calls := match turn.progress with
    | .waiting call => others ++ [call]
    | .answered _ => others
  events := tr.events ++ turn.events

variable (l : Level g σ φ) (jobs : List (Job σ))

/-- Makes a move. A move that names a call or a piece of work that there is none of does nothing. -/
def move (tr : Traffic σ φ) : Move g → Traffic σ φ
  | .call r env => tr.take tr.calls (l.start r env tr.state)
  | .resume i env =>
    match tr.calls[i]? with
    | none => tr
    | some call => tr.take (tr.calls.eraseIdx i) (l.resume call env tr.state)
  | .abandon i => { tr with calls := tr.calls.eraseIdx i }
  | .work i env =>
    match jobs[i]? with
    | none => tr
    | some job =>
      let (s, events) := job.run env tr.state
      { tr with state := s, events := tr.events ++ events }

def run (tr : Traffic σ φ) (ms : List (Move g)) : Traffic σ φ := ms.foldl (move l jobs) tr

/-- A level that nobody has called yet. -/
def fresh (s : σ) : Traffic σ φ := ⟨s, [], []⟩

theorem run_append (tr : Traffic σ φ) (ms ns : List (Move g)) :
    tr.run l jobs (ms ++ ns) = (tr.run l jobs ms).run l jobs ns :=
  List.foldl_append

end Traffic

/-- What a step keeps: the state stays `fine` and moves on in the order `le`, and a call that waits
`fits`. -/
structure Keeps {g : Generation} {σ φ : Type} (fine : σ → Prop) (fits : φ → Prop)
    (le : σ → σ → Prop) (s : σ) (turn : Turn σ φ (Answer g)) : Prop where
  fine : fine turn.state
  le : le s turn.state
  fits : ∀ call, turn.progress = .waiting call → fits call

namespace Traffic

variable {g : Generation} {σ φ : Type} {l : Level g σ φ} {jobs : List (Job σ)}
  {fine : σ → Prop} {fits : φ → Prop} {le : σ → σ → Prop}

theorem take_keeps {tr : Traffic σ φ} {others : List φ} {turn : Turn σ φ (Answer g)}
    (h : Keeps fine fits le tr.state turn) (hothers : ∀ call ∈ others, fits call) :
    fine (tr.take others turn).state ∧ (∀ call ∈ (tr.take others turn).calls, fits call) ∧
      le tr.state (tr.take others turn).state := by
  refine ⟨h.fine, ?_, h.le⟩
  intro call hcall
  unfold take at hcall
  cases hp : turn.progress with
  | waiting c =>
    simp only [hp, List.mem_append, List.mem_singleton] at hcall
    rcases hcall with hcall | rfl
    · exact hothers call hcall
    · exact h.fits call hp
  | answered a =>
    simp only [hp] at hcall
    exact hothers call hcall

/-- What every step keeps, every run keeps. -/
theorem run_keeps (fine : σ → Prop) (fits : φ → Prop) (le : σ → σ → Prop)
    (hrefl : ∀ s, le s s) (htrans : ∀ {s t u}, le s t → le t u → le s u)
    (hstart : ∀ r env s, fine s → Keeps fine fits le s (l.start r env s))
    (hresume : ∀ call env s, fits call → fine s → Keeps fine fits le s (l.resume call env s))
    (hwork : ∀ job ∈ jobs, ∀ env s, fine s → fine (job.run env s).1 ∧ le s (job.run env s).1)
    (ms : List (Move g)) {tr : Traffic σ φ} (hfine : fine tr.state)
    (hfits : ∀ call ∈ tr.calls, fits call) :
    fine (tr.run l jobs ms).state ∧ (∀ call ∈ (tr.run l jobs ms).calls, fits call) ∧
      le tr.state (tr.run l jobs ms).state := by
  induction ms generalizing tr with
  | nil => exact ⟨hfine, hfits, hrefl _⟩
  | cons m ms ih =>
    have hstep : fine (tr.move l jobs m).state ∧
        (∀ call ∈ (tr.move l jobs m).calls, fits call) ∧
        le tr.state (tr.move l jobs m).state := by
      have herase : ∀ i, ∀ call ∈ tr.calls.eraseIdx i, fits call :=
        fun i call hcall => hfits call (List.mem_of_mem_eraseIdx hcall)
      cases m with
      | call r env => exact take_keeps (hstart r env _ hfine) hfits
      | resume i env =>
        cases hi : tr.calls[i]? with
        | none => simpa only [move, hi] using ⟨hfine, hfits, hrefl _⟩
        | some call =>
          simp only [move, hi]
          exact take_keeps (hresume call env _ (hfits call (List.mem_of_getElem? hi)) hfine)
            (herase i)
      | abandon i => exact ⟨hfine, herase i, hrefl _⟩
      | work i env =>
        cases hi : jobs[i]? with
        | none => simpa only [move, hi] using ⟨hfine, hfits, hrefl _⟩
        | some job =>
          simp only [move, hi]
          obtain ⟨hf, hle⟩ := hwork job (List.mem_of_getElem? hi) env tr.state hfine
          exact ⟨hf, hfits, hle⟩
    obtain ⟨hf, hc, hle⟩ := hstep
    obtain ⟨hf', hc', hle'⟩ := ih hf hc
    exact ⟨hf', hc', htrans hle hle'⟩

end Traffic

end CacheBridge
