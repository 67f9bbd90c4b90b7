import CacheBridge.Double.Modern
import CacheBridge.Proofs.Passage

/-!
Data calls without a TTL, through a tower. Every bridge hands such a call on as it is, so a tower
answers a sequence of them as its bottom would, the bottom sees the same calls in the same order,
and the bridges are left as they were. Nothing is asked of the bottom, of its scopes or of the
phases of the bridges, which may be anywhere in their shutdown.
-/

namespace CacheBridge

/-- A data call without a TTL. -/
inductive Errand where
  | get (key : Key)
  | set (key : Key) (value : Bytes)
  | add (key : Key) (value : Bytes)
  | delete (key : Key)
  deriving DecidableEq, Inhabited

/-- The errand as a request; a legacy cache sees no scope. -/
def Errand.request (scope : Scope) : (g : Generation) → Errand → Request g
  | .modern, .get key => .get scope key
  | .modern, .set key value => .set scope (.plain key value)
  | .modern, .add key value => .add scope (.plain key value)
  | .modern, .delete key => .delete scope key
  | .legacy, .get key => .get key
  | .legacy, .set key value => .set key value
  | .legacy, .add key value => .add key value
  | .legacy, .delete key => .delete key

/-- An errand with the scope that its caller comes with and the environments that it is looked at
in. -/
structure Trip where
  errand : Errand
  scope : Scope
  env : Env
  later : List Env := []

namespace Trip

/-- The trip to a cache of generation `g`. -/
def visit (g : Generation) (trip : Trip) : Visit g :=
  ⟨trip.errand.request trip.scope g, trip.env, trip.later⟩

/-- The trip under a scope that never ends. -/
def unscoped (g : Generation) (trip : Trip) : Visit g :=
  ⟨trip.errand.request .background g, trip.env, trip.later⟩

end Trip

namespace Tower

variable {b g : Generation} {σ φ : Type}

theorem passed?_errand_background (below : Level b σ φ) (t : Tower b g) (e : Errand) :
    t.passed? below (e.request .background g) = some (e.request .background b, []) := by
  induction t with
  | ground => rfl
  | toLegacy counts t ih =>
    have h : ToLegacy.passed? (t.level below) (e.request .background .legacy) =
        some (e.request .background .modern) := by
      cases e <;> rfl
    simp only [passed?, h, Option.bind_some, ih]
  | toModern poll t ih =>
    have h : ToModern.passed? (t.level below) (e.request .background .modern) =
        some (e.request .background .legacy, []) := by
      cases e <;> rfl
    simp only [passed?, h, Option.bind_some, ih, Option.map_some, List.append_nil]

/-- The scope that an errand comes with goes no further than the first bridge. -/
theorem passed?_errand (below : Level b σ φ) {t : Tower b g} (h : 0 < t.depth) (e : Errand)
    (scope : Scope) :
    t.passed? below (e.request scope g) = some (e.request .background b, []) := by
  cases t with
  | ground => cases h
  | toLegacy counts t =>
    rw [← passed?_errand_background below (toLegacy counts t) e]
    cases e <;> rfl
  | toModern poll t =>
    rw [← passed?_errand_background below (toModern poll t) e]
    cases e <;> rfl

/-- A sequence of errands at the top is the same sequence at the bottom. -/
theorem serveAll_trips (below : Level b σ φ) {t : Tower b g} (h : 0 < t.depth)
    (trips : List Trip) (s : t.State σ φ) :
    let seen := (t.level below).serveAll (trips.map (Trip.visit g)) s
    let direct := below.serveAll (trips.map (Trip.unscoped b)) (t.bottom s)
    seen.state = t.replace s direct.state ∧
    seen.answers = direct.answers.map (Option.map (Answer.as g)) ∧
    seen.events = direct.events := by
  induction trips generalizing s with
  | nil => exact ⟨(replace_bottom t s).symm, rfl, rfl⟩
  | cons trip trips ih =>
    have hpassed : t.passed? below (trip.visit g).request =
        some ((trip.unscoped b).request, []) :=
      passed?_errand below h trip.errand trip.scope
    have hserve : (t.level below).serve (trip.visit g) s =
        t.lift s (below.serve (trip.unscoped b) (t.bottom s)) :=
      serve_passed below t s hpassed
    obtain ⟨hstate, hanswers, hevents⟩ :=
      ih (t.lift s (below.serve (trip.unscoped b) (t.bottom s))).state
    simp only [List.map_cons, Level.serveAll, hserve]
    rw [bottom_lift] at hstate hanswers hevents
    refine ⟨?_, ?_, ?_⟩
    · rw [hstate]
      exact replace_replace t s _ _
    · rw [hanswers, answer?_lift]
    · rw [hevents]
      rfl

/-- A sequence of data calls without a TTL at the top of a tower, over a bottom that may answer
each as it likes, and under whatever scopes and in whatever environments. The callers are told what
the bottom would have told them, as failures of their own generation with the fault untouched; the
events are those of the bottom, which received one call for each of theirs and nothing else; and
every bridge is left as it was. -/
theorem errands_transparent (below : Level b σ φ) (t : Tower b g) (h : 0 < t.depth)
    (trips : List Trip) (s : t.State (Ledger b × σ) (Request b × φ)) :
    let seen := (t.level below.recorded).serveAll (trips.map (Trip.visit g)) s
    let direct := below.serveAll (trips.map (Trip.unscoped b)) (t.bottom s).2
    seen.answers = direct.answers.map (Option.map (Answer.as g)) ∧
    seen.events = direct.events ∧
    (t.bottom seen.state).2 = direct.state ∧
    (t.bottom seen.state).1.received =
      (t.bottom s).1.received ++ trips.map (fun trip => trip.errand.request .background b) ∧
    seen.state = t.replace s (t.bottom seen.state) ∧
    t.phases seen.state = t.phases s := by
  obtain ⟨hstate, hanswers, hevents⟩ := serveAll_trips below.recorded h trips s
  obtain ⟨hdirect, hsame, hleft, hreceived⟩ := below.serveAll_recorded
    (trips.map (Trip.unscoped b)) (t.bottom s).1 (t.bottom s).2
  refine ⟨?_, ?_, ?_, ?_, ?_, ?_⟩
  · rw [hanswers]
    exact congrArg (List.map _) hsame
  · rw [hevents]
    exact hleft
  · rw [hstate, bottom_replace]
    exact hdirect
  · rw [hstate, bottom_replace]
    refine hreceived.trans ?_
    rw [List.map_map]
    rfl
  · rw [hstate, bottom_replace]
  · rw [hstate, phases_replace]

/-- Two bridges over a double that fails every data call: an add under a scope that has ended, and
then a get, are told of the double's own fault. -/
theorem errands_transparent_failing :
    let fault : Fault := ⟨7, .message "connection reset"⟩
    let below := ModernDouble.level { error := some (.backend fault) }
    let t : Tower .modern .modern := .toModern 5 (.toLegacy true .ground)
    let env : Env := { now := 3, wall := 0, scopes := {} }
    let trips : List Trip :=
      [⟨.add "k" [1], ⟨none, some 2⟩, env, []⟩, ⟨.get "k", .background, env, []⟩]
    0 < t.depth ∧
      ((t.level below.recorded).serveAll (trips.map (Trip.visit .modern))
        (t.fresh ({}, {}))).answers =
          [some (.error (.backend fault)), some (.error (.backend fault))] := by
  intro fault below t env trips
  have h := (errands_transparent below t (by decide) trips (t.fresh ({}, {}))).1
  exact ⟨by decide, h.trans rfl⟩

end Tower

end CacheBridge
