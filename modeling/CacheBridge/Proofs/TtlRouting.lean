import CacheBridge.Double.Legacy
import CacheBridge.Proofs.Passage

/-!
Writes with an optional TTL, through a tower. A bridge to legacy always has the TTL surface, so
between the bridges a TTL is handed on as it is, present or absent, zero or not. Only the lowest
bridge can meet a cache without the surface; it then writes plainly, and nobody can tell the write
from one that came without a TTL.
-/

namespace CacheBridge

/-- The two ways to store under a key. -/
inductive Storing where
  | set
  | add
  deriving DecidableEq, Inhabited

namespace Storing

/-- The write as a modern request, under the endless scope. -/
def modern : Storing → Write → ModernRequest
  | set, w => .set .background w
  | add, w => .add .background w

/-- The write as a request to the TTL surface. -/
def timed : Storing → Write → LegacyRequest
  | set, w => .setWithTtl w
  | add, w => .addWithTtl w

/-- The write as a plain legacy request. -/
def plain : Storing → Key → Bytes → LegacyRequest
  | set, key, value => .set key value
  | add, key, value => .add key value

/-- The write as a legacy request: with its TTL if it has one and there is a surface for it. -/
def legacy (surface : Bool) (how : Storing) (w : Write) : LegacyRequest :=
  if surface && w.ttl.isSome then how.timed w else how.plain w.key w.value

end Storing

/-- The write that a request asks for, if it asks for one. -/
def storing? : {g : Generation} → Request g → Option (Storing × Write)
  | .modern, .set _ w => some (.set, w)
  | .modern, .add _ w => some (.add, w)
  | .legacy, .set key value => some (.set, .plain key value)
  | .legacy, .add key value => some (.add, .plain key value)
  | .legacy, .setWithTtl w => some (.set, w)
  | .legacy, .addWithTtl w => some (.add, w)
  | _, _ => none

/-- With the TTL surface at hand nothing of a write is lost. -/
theorem storing?_legacy (how : Storing) (w : Write) :
    storing? (g := .legacy) (how.legacy true w) = some (how, w) := by
  obtain ⟨key, value, ttl⟩ := w
  cases how <;> cases ttl <;> rfl

namespace ToModern

variable {σ φ : Type} (below : Level .legacy σ φ)

/-- What is said of a write whose TTL is dropped. -/
def writeNotices (surface : Bool) (w : Write) : List Event :=
  if surface then [] else (w.ttl.map fun ttl => .notice (.ttlDropped ttl w.key)).toList

theorem passed?_storing {r : ModernRequest} {how : Storing} {w : Write}
    (hr : storing? (g := .modern) r = some (how, w)) :
    passed? below r =
      some (how.legacy (below.offers .ttl) w, writeNotices (below.offers .ttl) w) := by
  cases r with
  | set | add =>
    cases hr
    obtain ⟨key, value, ttl⟩ := w
    cases ttl <;> cases hsurface : below.offers .ttl <;>
      simp [passed?, route, Storing.legacy, Storing.timed, Storing.plain, writeNotices, hsurface]
  | get | delete | close | setMulti => cases hr

end ToModern

theorem ToLegacy.passed?_storing {σ φ : Type} (below : Level .modern σ φ) {r : LegacyRequest}
    {how : Storing} {w : Write} (hr : storing? (g := .legacy) r = some (how, w)) :
    passed? below r = some (how.modern w) := by
  cases r with
  | set | add | setWithTtl | addWithTtl =>
    cases hr
    rfl
  | get | delete | closeAsync | waitForClose | setMulti | setMultiWithTtl => cases hr

theorem storing?_modern (how : Storing) (w : Write) :
    storing? (g := .modern) (how.modern w) = some (how, w) := by
  cases how <;> rfl

namespace Tower

variable {g : Generation} {σ φ : Type}

/-- A legacy top has the TTL surface, whatever the bottom has. -/
theorem offers_ttl {b : Generation} (below : Level b σ φ) {t : Tower b .legacy}
    (h : 0 < t.depth) : (t.level below).offers .ttl = true := by
  cases t with
  | ground => cases h
  | toLegacy => rfl

/-- Over a modern bottom a write keeps its TTL, or its lack of one, all the way down. -/
theorem passed?_storing_modern (below : Level .modern σ φ) {t : Tower .modern g}
    (ht : 0 < t.depth) {r : Request g} {how : Storing} {w : Write}
    (hr : storing? r = some (how, w)) : t.passed? below r = some (how.modern w, []) := by
  induction t with
  | ground => cases ht
  | toLegacy counts t ih =>
    have hdown : t.passed? below (how.modern w) = some (how.modern w, []) := by
      cases t with
      | ground => rfl
      | toModern poll t => exact ih (Nat.succ_pos _) (storing?_modern how w)
    simp only [passed?, ToLegacy.passed?_storing (t.level below) hr, Option.bind_some]
    exact hdown
  | toModern poll t ih =>
    have hdepth : 0 < t.depth := by
      cases t with
      | toLegacy => exact Nat.succ_pos _
    have hup := ToModern.passed?_storing (t.level below) hr
    rw [offers_ttl below hdepth] at hup
    have hdown := ih hdepth (storing?_legacy how w)
    simp only [passed?, hup, Option.bind_some, hdown]
    rfl

/-- Over a legacy bottom it is the lowest bridge that finds out whether there is a TTL surface. -/
theorem passed?_storing_legacy (below : Level .legacy σ φ) {t : Tower .legacy g}
    (ht : 0 < t.depth) {r : Request g} {how : Storing} {w : Write}
    (hr : storing? r = some (how, w)) :
    t.passed? below r = some (how.legacy (below.offers .ttl) w,
      ToModern.writeNotices (below.offers .ttl) w) := by
  induction t with
  | ground => cases ht
  | toLegacy counts t ih =>
    cases t with
    | toModern poll t =>
      simp only [passed?, ToLegacy.passed?_storing _ hr, Option.bind_some]
      exact ih (Nat.succ_pos _) (storing?_modern how w)
  | toModern poll t ih =>
    have hup := ToModern.passed?_storing (t.level below) hr
    cases t with
    | ground =>
      rw [level] at hup
      simp only [passed?, level, hup, Option.bind_some, Option.map_some, List.append_nil]
    | toLegacy counts t =>
      rw [offers_toLegacy] at hup
      have hdown := ih (Nat.succ_pos _) (storing?_legacy how w)
      simp only [passed?, hup, Option.bind_some]
      simp only [passed?] at hdown
      rw [hdown]
      rfl

/-- Without the surface a write with a TTL leaves the tower, and its caller, as one without
would. -/
theorem serve_storing_alike (below : Level .legacy σ φ) (h : below.offers .ttl = false)
    {t : Tower .legacy g} (ht : 0 < t.depth) {v : Visit g} {r : Request g} {how : Storing}
    {w w' : Write} (hv : storing? v.request = some (how, w)) (hr : storing? r = some (how, w'))
    (hkey : w.key = w'.key) (hvalue : w.value = w'.value) (s : t.State σ φ) :
    ((t.level below).serve v s).state = ((t.level below).serve { v with request := r } s).state ∧
      ((t.level below).serve v s).progress =
        ((t.level below).serve { v with request := r } s).progress := by
  have hpassed := passed?_storing_legacy below ht hv
  have hpassed' := passed?_storing_legacy below ht hr
  have hsame : how.legacy (below.offers .ttl) w = how.legacy (below.offers .ttl) w' := by
    simp [Storing.legacy, h, hkey, hvalue]
  rw [serve_passed below t s hpassed,
    serve_passed (v := { v with request := r }) below t s hpassed', hsame]
  exact ⟨rfl, rfl⟩

/-- Where a write goes that is asked for at the top of a tower, with or without a TTL. A modern
bottom receives it with just that TTL. A legacy bottom with the TTL surface receives it there if it
has a TTL, and plainly if it has none; one without the surface receives it plainly, and then nobody
is ever told anything that a write without a TTL would not have led to. A legacy top has the surface
in any case. -/
theorem ttl_routing :
    (∀ {g : Generation} {σ φ : Type} (below : Level .modern σ φ) (t : Tower .modern g)
        (v : Visit g) (how : Storing) (w : Write)
        (s : t.State (Ledger .modern × σ) (ModernRequest × φ)),
      0 < t.depth → storing? v.request = some (how, w) →
        t.ServedAs below v s (how.modern w)) ∧
    (∀ {g : Generation} {σ φ : Type} (below : Level .legacy σ φ) (t : Tower .legacy g)
        (v : Visit g) (how : Storing) (w : Write)
        (s : t.State (Ledger .legacy × σ) (LegacyRequest × φ)),
      0 < t.depth → storing? v.request = some (how, w) →
        t.ServedAs below v s (how.legacy (below.offers .ttl) w) ∧
        (below.offers .ttl = false → ∀ (r : Request g) (vs : List (Visit g)),
          storing? r = some (how, { w with ttl := none }) →
            let seen := (t.level below.recorded).serveAll (v :: vs) s
            let plainly := (t.level below.recorded).serveAll ({ v with request := r } :: vs) s
            seen.state = plainly.state ∧ seen.answers = plainly.answers)) ∧
    (∀ {b : Generation} {σ φ : Type} (below : Level b σ φ) (t : Tower b .legacy),
      0 < t.depth → (t.level below).offers .ttl = true) := by
  refine ⟨?_, ?_, fun below t ht => offers_ttl below ht⟩
  · intro g σ φ below t v how w s ht hv
    exact servedAs_of_passed below t s (passed?_storing_modern below.recorded ht hv)
  · intro g σ φ below t v how w s ht hv
    refine ⟨servedAs_of_passed below t s (passed?_storing_legacy below.recorded ht hv), ?_⟩
    intro h r vs hr seen plainly
    obtain ⟨hstate, hprogress⟩ := serve_storing_alike below.recorded h ht hv hr rfl rfl s
    simp only [seen, plainly, Level.serveAll, hstate, hprogress]
    exact ⟨trivial, trivial⟩

/-- Two bridges over a double without the TTL surface: an add with a TTL of zero is stored for good,
and the next add under its key fails. -/
theorem ttl_routing_dropped :
    let below := LegacyDouble.level { ttl := false }
    let t : Tower .legacy .legacy := .toLegacy true (.toModern 5 .ground)
    let w : Write := ⟨"k", [1], some 0⟩
    let env : Env := { now := 3, wall := 0, scopes := {} }
    let v : Visit .legacy := ⟨.addWithTtl w, env, []⟩
    let vs : List (Visit .legacy) := [⟨.get "k", env, []⟩, ⟨.addWithTtl ⟨"k", [2], none⟩, env, []⟩]
    let s := t.fresh (({}, {}) : Ledger .legacy × LegacyDouble.State)
    0 < t.depth ∧ storing? v.request = some (.add, w) ∧ below.offers .ttl = false ∧
      t.ServedAs below v s (.add "k" [1]) ∧
      ((t.level below.recorded).serveAll (v :: vs) s).answers =
        [some Answer.done, some (.ok (.found [1])), some (.error .keyAlreadyExists)] := by
  intro below t w env v vs s
  obtain ⟨hserved, hplainly⟩ := ttl_routing.2.1 below t v .add w s (by decide) rfl
  exact ⟨by decide, rfl, rfl, hserved, (hplainly rfl (.add "k" [1]) vs rfl).2.trans rfl⟩

end Tower

end CacheBridge
