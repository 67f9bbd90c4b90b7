import Mathlib.Data.List.Chain
import CacheBridge.Double.Modern
import CacheBridge.Proofs.Closing
import CacheBridge.Proofs.Interleaving

/-!
How a tower shuts down. Whatever is asked of its top, in whatever order, and however far each call
and each piece of background work has come: the phases only move forward, a close goes down the
tower from bridge to bridge and comes back up in the same way, the bottom is asked once, and nobody
is told that the tower is closed unless the bottom has said that it is.
-/

namespace CacheBridge

/-- Two bridges on top of each other: a close reaches the upper one first, and the lower one is done
with it first. -/
def Orderly (lower upper : Phase) : Prop :=
  (lower ≠ .active → upper ≠ .active) ∧ (upper = .closed → lower = .closed)

namespace Tower

variable {b g : Generation} {σ φ : Type}

/-! ## What a sound tower looks like -/

section Sound

variable {t : Tower b g} {s : t.State (Ledger b × σ) (Request b × φ)}

theorem Untouched.last_active (h : t.Untouched s) :
    ∀ p ∈ (t.phases s).getLast?, p = .active := by
  cases t with
  | ground => nofun
  | toLegacy | toModern => simp [phases, h.1]

theorem Confirmed.last_closed (h : t.Confirmed s) :
    ∀ p ∈ (t.phases s).getLast?, p = .closed := by
  cases t with
  | ground => nofun
  | toLegacy => simp [phases, show s.1.phase = .closed from h]
  | toModern => simp [phases, show s.1 = .closed from h]

/-- One more bridge keeps a chain of phases in order. -/
theorem isChain_phases_append {p : Phase} (h : (t.phases s).IsChain Orderly)
    (hactive : p = .active → t.Untouched s) (hclosed : p = .closed → t.Confirmed s) :
    (t.phases s ++ [p]).IsChain Orderly := by
  refine h.append (.singleton p) fun q hq r hr => ?_
  obtain rfl : p = r := by simpa using hr
  refine ⟨fun hqa hpa => hqa ?_, fun hpc => ?_⟩
  · exact (hactive hpa).last_active q hq
  · exact (hclosed hpc).last_closed q hq

theorem Sound.isChain_phases (h : t.Sound s) : (t.phases s).IsChain Orderly := by
  induction t with
  | ground => exact .nil
  | toLegacy counts t ih =>
    obtain ⟨h, hagrees⟩ := h
    refine isChain_phases_append (ih h) (fun hactive => ?_) hagrees.closed
    exact hagrees.untouched (.inl (hagrees.idle hactive))
  | toModern poll t ih =>
    obtain ⟨h, hagrees⟩ := h
    exact isChain_phases_append (ih h) hagrees.untouched hagrees.closed

theorem Sound.closes_le_one (h : t.Sound s) : (t.bottom s).1.closes ≤ 1 := by
  induction t with
  | ground => exact h
  | toLegacy counts t ih => exact ih h.1
  | toModern poll t ih => exact ih h.1

theorem Sound.bottom_confirmed (h : t.Sound s) (hc : t.Confirmed s) :
    (t.bottom s).1.Confirmed := by
  induction t with
  | ground => exact hc
  | toLegacy counts t ih => exact ih h.1 (h.2.closed hc)
  | toModern poll t ih => exact ih h.1 (h.2.closed hc)

theorem Sound.bottom_confirmed_of_closed (h : t.Sound s) (hc : .closed ∈ t.phases s) :
    (t.bottom s).1.Confirmed := by
  induction t with
  | ground => cases hc
  | toLegacy counts t ih =>
    rcases List.mem_append.mp hc with hc | hc
    · exact ih h.1 hc
    · exact h.1.bottom_confirmed (h.2.closed (List.mem_singleton.mp hc).symm)
  | toModern poll t ih =>
    rcases List.mem_append.mp hc with hc | hc
    · exact ih h.1 hc
    · exact h.1.bottom_confirmed (h.2.closed (List.mem_singleton.mp hc).symm)

theorem untouched_fresh (t : Tower b g) (x : σ) :
    t.Untouched (t.fresh ({}, x) : t.State (Ledger b × σ) (Request b × φ)) := by
  induction t with
  | ground => rfl
  | toLegacy counts t ih => exact ⟨rfl, rfl, ih⟩
  | toModern poll t ih => exact ⟨rfl, ih⟩

theorem sound_fresh (t : Tower b g) (x : σ) :
    t.Sound (t.fresh ({}, x) : t.State (Ledger b × σ) (Request b × φ)) := by
  induction t with
  | ground => exact Nat.zero_le 1
  | toLegacy counts t ih => exact ⟨ih, fun _ => rfl, fun _ => untouched_fresh t x, nofun, nofun⟩
  | toModern poll t ih => exact ⟨ih, fun _ => untouched_fresh t x, nofun⟩

end Sound

/-! ## Runs -/

section Runs

variable (below : Level b σ φ) (base : List (Job σ)) (t : Tower b g)

/-- The traffic at the top of a fresh tower after a number of moves. There is a ledger of what
reaches the bottom, and one of what reaches the top. -/
def driven (x : σ) (ms : List (Move g)) :
    Traffic (Ledger g × t.State (Ledger b × σ) (Request b × φ))
      (Request g × t.Call (Request b × φ)) :=
  (Traffic.fresh ({}, t.fresh ({}, x))).run (t.level below.recorded).recorded
    ((t.jobs below.recorded (base.map (·.beneath (Ledger b)))).map (·.beneath (Ledger g))) ms

/-- Sound, and closed if its callers have been told so. -/
def Honest (s : Ledger g × t.State (Ledger b × σ) (Request b × φ)) : Prop :=
  t.Sound s.2 ∧ (s.1.Confirmed → t.Confirmed s.2)

/-- The call fits the request that it was made with. -/
def Fitting (call : Request g × t.Call (Request b × φ)) : Prop :=
  t.Fits (tellsClosed call.1) call.2

/-- No bridge goes back. -/
def Onward (s s' : Ledger g × t.State (Ledger b × σ) (Request b × φ)) : Prop :=
  List.Forall₂ (· ≤ ·) (t.phases s.2) (t.phases s'.2)

theorem honest_fresh (x : σ) :
    t.Honest (({}, t.fresh ({}, x)) : Ledger g × t.State (Ledger b × σ) (Request b × φ)) := by
  refine ⟨sound_fresh t x, ?_⟩
  rintro ⟨r, reply, -, hmem⟩
  cases hmem

variable {t}

theorem Steps.keeps {led : Ledger g} {r : Request g} {quiet : Prop}
    {s : Ledger g × t.State (Ledger b × σ) (Request b × φ)}
    {turn : Turn (t.State (Ledger b × σ) (Request b × φ)) (t.Call (Request b × φ)) (Answer g)}
    (h : t.Steps (tellsClosed r) quiet s.2 turn) (hs : t.Honest s)
    (hled : led.Confirmed → s.1.Confirmed) :
    Keeps t.Honest t.Fitting t.Onward s (led.note r turn) := by
  refine ⟨⟨h.evolves.sound, fun hc => ?_⟩, h.evolves.phases, ?_⟩
  · rcases Ledger.confirmed_settle hc with hc | ⟨hr, reply, hp⟩
    · exact h.evolves.confirmed (hs.2 (hled hc))
    · exact h.success reply hr hp
  · intro call hcall
    obtain ⟨x, p, es⟩ := turn
    cases p with
    | waiting c =>
      cases hcall
      exact h.fits c rfl
    | answered a => cases hcall

variable (t)

theorem run_honest (h : 0 < t.depth)
    (tr : Traffic (Ledger g × t.State (Ledger b × σ) (Request b × φ))
      (Request g × t.Call (Request b × φ))) (ms : List (Move g))
    (hs : t.Honest tr.state) (hfits : ∀ call ∈ tr.calls, t.Fitting call) :
    let l := (t.level below.recorded).recorded
    let jobs := (t.jobs below.recorded (base.map (·.beneath (Ledger b)))).map (·.beneath (Ledger g))
    t.Honest (tr.run l jobs ms).state ∧ (∀ call ∈ (tr.run l jobs ms).calls, t.Fitting call) ∧
      t.Onward tr.state (tr.run l jobs ms).state := by
  have hobeys := t.obeys below
  refine Traffic.run_keeps t.Honest t.Fitting t.Onward (fun _ => le_phases _) le_phases_trans
    ?_ ?_ ?_ ms hs hfits
  · intro r env s hs
    exact (hobeys.start r env s.2 hs.1 fun _ => .inr h).keeps hs id
  · intro call env s hfits hs
    exact (hobeys.resume _ call.2 env s.2 hfits hs.1).keeps hs id
  · intro job hjob env s hs
    obtain ⟨inner, hinner, rfl⟩ := List.mem_map.mp hjob
    have h := evolves_job below base t hinner env hs.1
    exact ⟨⟨h.sound, fun hc => h.confirmed (hs.2 hc)⟩, h.phases⟩

/-- A shutdown in order, seen at one state of a tower and a later one. -/
structure InOrder (s s' : Ledger g × t.State (Ledger b × σ) (Request b × φ)) : Prop where
  forward : t.Onward s s'
  adjacent : (t.phases s'.2).IsChain Orderly
  once : (t.bottom s'.2).1.closes ≤ 1
  /-- Neither a bridge nor a caller takes the tower for closed before its bottom is. -/
  confirmed : .closed ∈ t.phases s'.2 ∨ s'.1.Confirmed → (t.bottom s'.2).1.Confirmed

/-- Every tower shuts down in order, whatever is done at its top. -/
theorem driven_inOrder (h : 0 < t.depth) (x : σ) (ms ns : List (Move g)) :
    t.InOrder (t.driven below base x ms).state (t.driven below base x (ms ++ ns)).state := by
  obtain ⟨hs, hfits, -⟩ := run_honest below base t h
    (Traffic.fresh ({}, t.fresh ({}, x))) ms (honest_fresh t x) nofun
  obtain ⟨hs', -, hforward⟩ := run_honest below base t h _ ns hs hfits
  unfold driven
  rw [Traffic.run_append]
  refine ⟨hforward, hs'.1.isChain_phases, hs'.1.closes_le_one, ?_⟩
  rintro (hc | hc)
  · exact hs'.1.bottom_confirmed_of_closed hc
  · exact hs'.1.bottom_confirmed (hs'.2 hc)

/-- A bottom whose close fails leaves everything above it closing, for as long as it is polled. -/
theorem driven_inOrder_failing :
    let t : Tower .modern .modern := .toModern 5 (.toLegacy true .ground)
    let below := ModernDouble.level { closeError := some .notImplemented }
    let early : Env := { now := 0, wall := 0, scopes := {} }
    let late : Env := { now := Time.second, wall := 0, scopes := {} }
    let ms : List (Move .modern) := [.call (.close .background) early, .work 0 early]
    let ns : List (Move .modern) := [.resume 0 late, .call (.close .background) late, .abandon 0]
    let before := t.driven below [] {} ms
    let after := t.driven below [] {} (ms ++ ns)
    0 < t.depth ∧ t.InOrder before.state after.state ∧
      t.phases after.state.2 = [.closing, .closing] ∧ (t.bottom after.state.2).1.closes = 1 ∧
      after.state.1.answered = [] ∧ after.calls.length = 1 :=
  ⟨by decide, driven_inOrder _ _ _ (by decide) _ _ _, rfl, rfl, rfl, rfl⟩

end Runs

end Tower

end CacheBridge
