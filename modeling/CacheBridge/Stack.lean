import CacheBridge.Bridge.ToLegacy
import CacheBridge.Bridge.ToModern
import CacheBridge.Double.Legacy
import CacheBridge.Double.Modern
import CacheBridge.Store.Lazy
import CacheBridge.Store.Timed
import CacheBridge.Watch.Spy

/-!
Stacks: a cache at the bottom and any number of layers on top of it, each of which wraps the level
below. All levels of a stack work on one state, so a call can be made at any of them.
-/

namespace CacheBridge

/-- What can be seen of a level from outside. -/
inductive Inspection where
  | toLegacy (multi : Bool) (phase : Phase)
  | toModern (ttl multi : Bool) (phase : Phase) (poll : Nat)
  | lazyStore (s : LazyStore.State)
  | timedStore (s : TimedStore.State)
  | modernDouble (s : ModernDouble.State)
  | legacyDouble (s : LegacyDouble.State)

/-- A level of a stack whose state is `σ`. -/
structure Tier (σ : Type) where
  generation : Generation
  Call : Type
  level : Level generation σ Call
  /-- The phase of a bridge that was kept hold of. -/
  phase? : σ → Option Phase
  inspect? : σ → Option Inspection

def Tier.beneath {σ : Type} (α : Type) (t : Tier σ) : Tier (α × σ) where
  generation := t.generation
  Call := t.Call
  level := t.level.beneath α
  phase? s := t.phase? s.2
  inspect? s := t.inspect? s.2

structure Stack where
  State : Type
  state : State
  /-- The levels below the top, bottom first. -/
  inner : List (Tier State)
  top : Tier State
  /-- The background work of the levels. -/
  jobs : List (Job State)

namespace Stack

/-- The cache at the bottom. -/
inductive Bottom where
  | modernDouble (script : ModernDouble.Script) (entries : List Write)
  | legacyDouble (script : LegacyDouble.Script) (entries : List Write)
  | lazyStore
  | timedStore (policy : TimedStore.Policy)

inductive Layer where
  | toLegacy (kept counts : Bool)
  | toModern (kept : Bool) (poll : Nat)
  | bare
  | spy (hideTtl hideMulti : Bool) (delays : List (Spy.Method × Nat))
      (faults : List (Spy.Method × List (Option (Failure .modern))))

/-- A stack of one level. -/
def alone {g : Generation} {σ φ : Type} (level : Level g σ φ) (state : σ) (view : σ → Inspection) :
    Stack where
  State := σ
  state := state
  inner := []
  top := ⟨g, φ, level, fun _ => none, fun s => some (view s)⟩
  jobs := []

def ofBottom : Bottom → Stack
  | .modernDouble script entries =>
    alone (ModernDouble.level script) (ModernDouble.holding entries) .modernDouble
  | .legacyDouble script entries =>
    alone (LegacyDouble.level script) (LegacyDouble.holding entries) .legacyDouble
  | .lazyStore => alone LazyStore.level LazyStore.fresh .lazyStore
  | .timedStore policy => alone (TimedStore.level policy) {} .timedStore

/-- All levels, bottom first. -/
def tiers (st : Stack) : List (Tier st.State) := st.inner ++ [st.top]

/-- The level with a number, the bottom being number zero. -/
def tier? (st : Stack) (level : Option Nat) : Option (Tier st.State) :=
  level.elim (some st.top) (st.tiers[·]?)

/-- Puts a new level on top, which keeps `own` for itself. -/
def put {g : Generation} {α φ : Type} (st : Stack) (own : α) (level : Level g (α × st.State) φ)
    (phase? : α → Option Phase) (inspect? : α → Option Inspection)
    (jobs : List (Job (α × st.State))) : Stack where
  State := α × st.State
  state := (own, st.state)
  inner := st.tiers.map (·.beneath α)
  top := ⟨g, φ, level, fun s => phase? s.1, fun s => inspect? s.1⟩
  jobs := st.jobs.map (·.beneath α) ++ jobs

/-- Wraps the top in a layer, if it fits. The events are those of the wrapping. -/
def wrap? (env : Env) (layer : Layer) (st : Stack) : Option (Stack × List Event) :=
  match layer, st.top with
  | .toLegacy kept counts, ⟨.modern, Call, below, _, _⟩ =>
    let show? (own : ToLegacy.Own Call) : Option Inspection :=
      if kept then some (.toLegacy (below.offers .multi) own.phase) else none
    some (st.put ToLegacy.Own.fresh (ToLegacy.level below counts)
      (fun own => if kept then some own.phase else none) show? [ToLegacy.closing below],
      ToLegacy.wrapping below env)
  | .toModern kept poll, ⟨.legacy, _, below, _, _⟩ =>
    let show? (phase : Phase) : Option Inspection :=
      if kept then some (.toModern (below.offers .ttl) (below.offers .multi) phase poll) else none
    some (st.put Phase.active (ToModern.level below poll)
      (fun phase => if kept then some phase else none) show? [],
      ToModern.wrapping below env)
  | .bare, ⟨_, _, below, _, _⟩ =>
    some (st.put () (below.bare.beneath Unit) (fun _ => none) (fun _ => none) [], [])
  | .spy hideTtl hideMulti delays faults, ⟨g, _, below, _, _⟩ =>
    let script : Spy.Script := ⟨st.inner.length + 1, hideTtl, hideMulti, delays⟩
    let faults : Spy.Faults g := faults.map fun (m, es) => (m, es.map (·.map (·.as g)))
    some (st.put faults (Spy.level script below) (fun _ => none) (fun _ => none) [], [])
  | _, _ => none

/-- Wraps the top in one layer after the other. -/
def wrapAll? (env : Env) : List Layer → Stack → Option (Stack × List Event)
  | [], st => some (st, [])
  | layer :: layers, st =>
    (st.wrap? env layer).bind fun (st, events) =>
      (wrapAll? env layers st).map fun (st, more) => (st, events ++ more)

def build? (env : Env) (bottom : Bottom) (layers : List Layer) : Option (Stack × List Event) :=
  wrapAll? env layers (ofBottom bottom)

/-- The phases of the bridges that were kept hold of, bottom first. -/
def phases (st : Stack) (s : st.State) : List Phase := st.tiers.filterMap (·.phase? s)

end Stack

end CacheBridge
