import Mathlib.Data.List.Forall2
import CacheBridge.Proofs.BatchRouting
import CacheBridge.Proofs.TtlRouting
import CacheBridge.Proofs.Vault

/-!
A batch as its items. Both stores write a batch item by item, and a bridge either hands a batch on,
with its TTLs or without, or replays it. So whatever way a batch takes through a tower, it leaves
behind just what its items do that are written one by one, each of them with or without a TTL of
its own and so perhaps on another way than the batch.
-/

namespace CacheBridge

/-- The step has succeeded and left this state. -/
def Turn.Leaves {g : Generation} {σ φ : Type} (turn : Turn σ φ (Answer g)) (s : σ) : Prop :=
  turn.state = s ∧ turn.progress = .answered Answer.done

namespace Turn.Leaves

variable {σ φ : Type} {s : σ}

theorem after {g : Generation} {turn : Turn σ φ (Answer g)} (h : turn.Leaves s)
    (es : List Event) : (turn.after es).Leaves s := h

theorem relay_toLegacy {turn : Turn σ φ (Answer .modern)} (h : turn.Leaves s)
    (own : ToLegacy.Own φ) : (ToLegacy.relay own turn).Leaves (own, s) := by
  obtain ⟨hstate, hprogress⟩ := h
  simp only [Leaves, ToLegacy.relay, Turn.map, hstate, hprogress]
  exact ⟨trivial, rfl⟩

theorem relay_toModern {turn : Turn σ φ (Answer .legacy)} (h : turn.Leaves s) (phase : Phase) :
    (ToModern.relay phase turn).Leaves (phase, s) := by
  obtain ⟨hstate, hprogress⟩ := h
  simp only [Leaves, ToModern.relay, Turn.map, hstate, hprogress]
  exact ⟨trivial, rfl⟩

end Turn.Leaves

/-- Two steps that come to the same, but for the events. -/
def Turn.Alike {g : Generation} {σ φ : Type} (turn turn' : Turn σ φ (Answer g)) : Prop :=
  turn.state = turn'.state ∧ turn.progress = turn'.progress

theorem Turn.Leaves.alike {g : Generation} {σ φ : Type} {turn turn' : Turn σ φ (Answer g)} {s : σ}
    (h : turn.Leaves s) (h' : turn'.Leaves s) : turn.Alike turn' :=
  ⟨h.1.trans h'.1.symm, h.2.trans h'.2.symm⟩

namespace Level

variable {g : Generation} {σ φ : Type}

/-- The level writes at once, a batch item by item. What one write does is `put`. -/
structure PutsBy (l : Level g σ φ) (put : Nat → Write → σ → σ) : Prop where
  set {r : Request g} {w : Write} (h : storing? r = some (.set, w)) (env : Env) (s : σ) :
    (l.start r env s).Leaves (put env.wall w s)
  batch {r : Request g} {items : List Write} (h : batchOf? r = some items) (env : Env) (s : σ) :
    (l.start r env s).Leaves (items.foldl (fun s w => put env.wall w s) s)

/-- The visit sets just this entry, by this clock. -/
def Sets (wall : Nat) (w : Write) (v : Visit g) : Prop :=
  storing? v.request = some (.set, w) ∧ v.env.wall = wall

/-- A batch comes to the same as its items in their order, one by one and by the same clock: each of
these calls succeeds, and the calls after them get the same answers and leave the same state,
whichever way the items were written. -/
def Itemwise (l : Level g σ φ) : Prop :=
  ∀ (r : Request g) (items : List Write) (singles : List (Visit g)) (env : Env),
    batchOf? r = some items → List.Forall₂ (Sets env.wall) items singles →
    ∀ (later : List Env) (after : List (Visit g)) (s : σ),
      let whole := l.serveAll (⟨r, env, later⟩ :: after) s
      let piecemeal := l.serveAll (singles ++ after) s
      whole.state = piecemeal.state ∧
      ∃ rest, whole.answers = some Answer.done :: rest ∧
        piecemeal.answers = items.map (fun _ => some Answer.done) ++ rest

/-- A visit whose request succeeds as soon as it is made. -/
theorem serve_leaves (l : Level g σ φ) {v : Visit g} {s s' : σ}
    (h : (l.start v.request v.env s).Leaves s') : (l.serve v s).Leaves s' := by
  unfold serve
  rw [l.goOn_answered v.later h.2]
  exact h

/-- After such a visit the others are made to the state that it left. -/
theorem serveAll_leaves (l : Level g σ φ) {v : Visit g} {s s' : σ}
    (h : (l.start v.request v.env s).Leaves s') (after : List (Visit g)) :
    (l.serveAll (v :: after) s).state = (l.serveAll after s').state ∧
      (l.serveAll (v :: after) s).answers = some Answer.done :: (l.serveAll after s').answers := by
  obtain ⟨hstate, hprogress⟩ := l.serve_leaves h
  simp only [serveAll, hstate, hprogress]
  exact ⟨trivial, rfl⟩

namespace PutsBy

variable {l : Level g σ φ} {put : Nat → Write → σ → σ}

/-- Items that are written one by one are all written, and the visits after them begin where the
last write has left the state. -/
theorem serveAll_singles (h : l.PutsBy put) {wall : Nat} {items : List Write}
    {singles : List (Visit g)} (hsingles : List.Forall₂ (Sets wall) items singles)
    (after : List (Visit g)) (s : σ) :
    let rest := l.serveAll after (items.foldl (fun s w => put wall w s) s)
    (l.serveAll (singles ++ after) s).state = rest.state ∧
      (l.serveAll (singles ++ after) s).answers =
        items.map (fun _ => some Answer.done) ++ rest.answers := by
  induction hsingles generalizing s with
  | nil => exact ⟨rfl, rfl⟩
  | @cons w v items singles hv hsingles ih =>
    obtain ⟨hset, rfl⟩ := hv
    obtain ⟨hstate, hanswers⟩ := l.serveAll_leaves (h.set hset v.env s) (singles ++ after)
    obtain ⟨hlast, hrest⟩ := ih (put v.env.wall w s)
    exact ⟨hstate.trans hlast, hanswers.trans (congrArg _ hrest)⟩

theorem bare (h : l.PutsBy put) : l.bare.PutsBy put :=
  ⟨fun hr => h.set hr, fun hr => h.batch hr⟩

theorem itemwise (h : l.PutsBy put) : l.Itemwise := by
  intro r items singles env hr hsingles later after s whole piecemeal
  obtain ⟨hstate, hanswers⟩ :=
    l.serveAll_leaves (v := ⟨r, env, later⟩) (h.batch hr env s) after
  obtain ⟨hlast, hrest⟩ := h.serveAll_singles hsingles after s
  exact ⟨hstate.trans hlast.symm, _, hanswers, hrest⟩

end PutsBy

/-- Levels whose calls come to the same at each step. -/
structure Alike (l l' : Level g σ φ) : Prop where
  start (r : Request g) (env : Env) (s : σ) : (l.start r env s).Alike (l'.start r env s)
  resume (call : φ) (env : Env) (s : σ) : (l.resume call env s).Alike (l'.resume call env s)

namespace Alike

variable {l l' : Level g σ φ} (h : l.Alike l')

include h

theorem goOn (later : List Env) {turn turn' : Turn σ φ (Answer g)} (hturn : turn.Alike turn') :
    (l.goOn later turn).Alike (l'.goOn later turn') := by
  induction later generalizing turn turn' with
  | nil => exact hturn
  | cons env later ih =>
    obtain ⟨hstate, hprogress⟩ := hturn
    cases hcase : turn.progress with
    | waiting call =>
      rw [l.goOn_waiting env later hcase, l'.goOn_waiting env later (hprogress.symm.trans hcase),
        ← hstate]
      exact ih (h.resume call env turn.state)
    | answered a =>
      rw [l.goOn_answered _ hcase, l'.goOn_answered _ (hprogress.symm.trans hcase)]
      exact ⟨hstate, hprogress⟩

theorem serveAll (visits : List (Visit g)) (s : σ) :
    (l.serveAll visits s).state = (l'.serveAll visits s).state ∧
      (l.serveAll visits s).answers = (l'.serveAll visits s).answers := by
  induction visits generalizing s with
  | nil => exact ⟨rfl, rfl⟩
  | cons v visits ih =>
    obtain ⟨hstate, hprogress⟩ : (l.serve v s).Alike (l'.serve v s) :=
      h.goOn v.later (h.start v.request v.env s)
    obtain ⟨hlast, hanswers⟩ := ih (l'.serve v s).state
    simp only [Level.serveAll, hstate, hprogress, hanswers]
    exact ⟨hlast, trivial⟩

end Alike

end Level

/-! ## The stores -/

/-- A cache that entries can be put in: a store, the timed one under any policy, or the cache over
any vault. -/
inductive Storage : {b : Generation} → {σ φ : Type} → Level b σ φ → Prop where
  | lazyStore : Storage LazyStore.level
  | timedStore (policy : TimedStore.Policy) : Storage (TimedStore.level policy)
  | vault (v : Vault) : Storage v.cache

theorem LazyStore.putsBy : LazyStore.level.PutsBy LazyStore.put where
  set {r w} h env s := by
    cases r with
    | set | setWithTtl => cases h; exact ⟨rfl, rfl⟩
    | get | add | delete | closeAsync | waitForClose | addWithTtl | setMulti | setMultiWithTtl =>
      cases h
  batch {r items} h env s := by
    cases r with
    | setMulti | setMultiWithTtl => cases h; exact ⟨rfl, rfl⟩
    | get | set | add | delete | closeAsync | waitForClose | setWithTtl | addWithTtl => cases h

/-- A cache that answers at once writes by `put` if it handles a write and a batch like this. -/
theorem Level.PutsBy.of_immediate {σ : Type} {offers : Surface → Bool}
    {handle : ModernRequest → Env → σ → σ × Answer .modern × List Event}
    {put : Nat → Write → σ → σ}
    (hset : ∀ scope w env s, handle (.set scope w) env s = (put env.wall w s, Answer.done, []))
    (hbatch : ∀ scope items env s, handle (.setMulti scope items) env s =
      (items.foldl (fun s w => put env.wall w s) s, Answer.done, [])) :
    (Level.immediate (g := .modern) offers handle).PutsBy put where
  set {r w} h env s := by
    cases r with
    | set scope w' =>
      cases h
      simp only [Turn.Leaves, Level.immediate, hset]
      exact ⟨trivial, trivial⟩
    | get | add | delete | close | setMulti => cases h
  batch {r items} h env s := by
    cases r with
    | setMulti scope items' =>
      cases h
      simp only [Turn.Leaves, Level.immediate, hbatch]
      exact ⟨trivial, trivial⟩
    | get | set | add | delete | close => cases h

theorem TimedStore.putsBy (policy : Policy) : (level policy).PutsBy (put policy) :=
  .of_immediate (fun _ _ _ _ => rfl) (fun _ _ _ _ => rfl)

theorem Vault.putsBy (v : Vault) : v.cache.PutsBy fun wall w => v.insert wall w.key w.timed :=
  .of_immediate (fun _ _ _ _ => rfl) (fun _ _ _ _ => rfl)

namespace Storage

variable {b : Generation} {σ φ : Type} {below : Level b σ φ}

theorem putsBy (h : Storage below) : ∃ put, below.PutsBy put := by
  cases h with
  | lazyStore => exact ⟨_, LazyStore.putsBy⟩
  | timedStore policy => exact ⟨_, TimedStore.putsBy policy⟩
  | vault v => exact ⟨_, v.putsBy⟩

theorem offers (h : Storage below) (surface : Surface) (hs : b = .legacy ∨ surface = .multi) :
    below.offers surface = true := by
  cases h with
  | lazyStore => rfl
  | timedStore => simpa [TimedStore.level, Level.immediate] using hs
  | vault => simpa [Vault.cache, Level.immediate] using hs

end Storage

/-! ## The bridges -/

section Bridges

variable {σ φ : Type} {put : Nat → Write → σ → σ}

/-- A write below a bridge, which leaves what the bridge keeps for itself. -/
def putBeneath (α : Type) (put : Nat → Write → σ → σ) (wall : Nat) (w : Write) (s : α × σ) :
    α × σ :=
  (s.1, put wall w s.2)

theorem foldl_putBeneath {α : Type} (wall : Nat) (items : List Write) (s : α × σ) :
    items.foldl (fun s w => putBeneath α put wall w s) s =
      (s.1, items.foldl (fun s w => put wall w s) s.2) := by
  induction items generalizing s with
  | nil => rfl
  | cons w items ih => exact ih (putBeneath α put wall w s)

namespace ToLegacy

/-- A replay asks for no surface. -/
theorem replay_bare (below : Level .modern σ φ) (own : Own φ) (items : List Write) (env : Env) :
    replay below.bare own items env = replay below own items env := by
  induction items with
  | nil => rfl
  | cons w items ih =>
    funext s
    simp only [replay, ih]
    rfl

variable {below : Level .modern σ φ} (h : below.PutsBy put)

include h

/-- A replay that nothing stops writes the whole batch. -/
theorem replay_leaves (own : Own φ) (items : List Write) (env : Env) (s : σ) :
    (replay below own items env s).Leaves (own, items.foldl (fun s w => put env.wall w s) s) := by
  induction items generalizing s with
  | nil => exact ⟨rfl, rfl⟩
  | cons w items ih =>
    obtain ⟨hstate, hprogress⟩ := h.set (r := .set .background w) rfl env s
    have hstep : replay below own (w :: items) env s =
        (replay below own items env (put env.wall w s)).after
          (below.start (.set .background w) env s).events := by
      simp only [replay, settle, hprogress, hstate]
      rfl
    rw [hstep]
    exact (ih (put env.wall w s)).after _

theorem writeBatch_leaves (counts : Bool) (items : List Write) (env : Env) (own : Own φ) (s : σ) :
    (writeBatch below counts items env own s).Leaves
      (own, items.foldl (fun s w => put env.wall w s) s) := by
  unfold writeBatch
  split
  · exact (h.batch (r := .setMulti .background items) rfl env s).relay_toLegacy own
  · exact (replay_leaves h own items env s).after _

/-- A bridge to legacy writes as the cache below does, whether or not that has the batch surface. -/
theorem putsBy (counts : Bool) : (level below counts).PutsBy (putBeneath (Own φ) put) where
  set {r w} hr env s := by
    have hstart : (level below counts).start r env s =
        relay s.1 (below.start (.set .background w) env s.2) :=
      start_passed below counts (passed?_storing below hr)
    rw [hstart]
    exact (h.set (storing?_modern .set w) env s.2).relay_toLegacy s.1
  batch {r items} hr env s := by
    rw [foldl_putBeneath]
    cases r with
    | setMulti | setMultiWithTtl =>
      cases hr
      exact writeBatch_leaves h counts _ env s.1 s.2
    | get | set | add | delete | closeAsync | waitForClose | setWithTtl | addWithTtl => cases hr

/-- Whether the batch surface can be seen makes no difference but for the tally. -/
theorem alike_bare (counts : Bool) : (level below.bare counts).Alike (level below counts) where
  start r env s := by
    cases r with
    | setMulti items =>
      exact (writeBatch_leaves h.bare counts _ env s.1 s.2).alike
        (writeBatch_leaves h counts _ env s.1 s.2)
    | setMultiWithTtl items =>
      exact (writeBatch_leaves h.bare counts items env s.1 s.2).alike
        (writeBatch_leaves h counts items env s.1 s.2)
    | get | set | add | delete | closeAsync | waitForClose | setWithTtl | addWithTtl =>
      exact ⟨rfl, rfl⟩
  resume call env s := by
    cases call with
    | relayed | waiting => exact ⟨rfl, rfl⟩
    | replaying call rest =>
      have hresume : (level below.bare counts).resume (.replaying call rest) env s =
          (level below counts).resume (.replaying call rest) env s := by
        simp only [level, resume, replay_bare]
        rfl
      rw [hresume]
      exact ⟨rfl, rfl⟩

end ToLegacy

/-- A bridge to modern writes as a cache below with both of the surfaces does. -/
theorem ToModern.putsBy {below : Level .legacy σ φ} (h : below.PutsBy put)
    (hall : ∀ surface, below.offers surface = true) (poll : Nat) :
    (level below poll).PutsBy (putBeneath Phase put) where
  set {r w} hr env s := by
    have hpassed := passed?_storing below hr
    rw [hall .ttl] at hpassed
    have hstart : (level below poll).start r env s = (relay s.1 (below.start _ env s.2)).after _ :=
      start_passed below poll hpassed
    rw [hstart]
    exact ((h.set (storing?_legacy .set w) env s.2).relay_toModern s.1).after _
  batch {r items} hr env s := by
    rw [foldl_putBeneath]
    cases r with
    | setMulti scope items =>
      cases hr
      have hpassed := routeBatch_of_offers (hall .multi) items
      rw [hall .ttl] at hpassed
      have hstart : (level below poll).start (.setMulti scope items) env s =
          (relay s.1 (below.start (legacyBatch true items) env s.2)).after _ :=
        start_passed (r := .setMulti scope items) below poll hpassed
      rw [hstart]
      exact ((h.batch (batchOf?_legacyBatch items) env s.2).relay_toModern s.1).after _
    | get | set | add | delete | close => cases hr

end Bridges

namespace Tower

variable {b g : Generation} {σ φ : Type}

/-- On a bottom that writes item by item every level of a tower does; a legacy bottom must have the
surfaces for it. -/
theorem putsBy {below : Level b σ φ} {put : Nat → Write → σ → σ} (h : below.PutsBy put)
    (hall : b = .legacy → ∀ surface, below.offers surface = true) (t : Tower b g) :
    ∃ put', (t.level below).PutsBy put' := by
  induction t with
  | ground => exact ⟨put, h⟩
  | toLegacy counts t ih =>
    obtain ⟨put', hbelow⟩ := ih
    exact ⟨_, ToLegacy.putsBy hbelow counts⟩
  | toModern poll t ih =>
    obtain ⟨put', hbelow⟩ := ih
    have hoffers (surface : Surface) : (t.level below).offers surface = true := by
      cases t with
      | ground => exact hall rfl surface
      | toLegacy => rfl
    exact ⟨_, ToModern.putsBy hbelow hoffers poll⟩

/-- Towers on a storage, of any height and in any state, with all their surfaces: a batch that is
written at the top comes to the same as its items, written there one by one. It does so too where a
modern storage hides its batch surface; and then a bridge to legacy over it gets the same answers,
and leaves the same state, as one that can see the surface, whatever the calls. -/
theorem batch_itemwise :
    (∀ {b g : Generation} {σ φ : Type} {below : Level b σ φ}, Storage below → ∀ t : Tower b g,
      (∀ surface, g = .legacy ∨ surface = .multi → (t.level below).offers surface = true) ∧
      (t.level below).Itemwise) ∧
    (∀ {g : Generation} {σ φ : Type} {below : Level .modern σ φ}, Storage below →
      ∀ t : Tower .modern g, (t.level below.bare).Itemwise) ∧
    (∀ {σ φ : Type} {below : Level .modern σ φ}, Storage below →
      ∀ (counts : Bool) (visits : List (Visit .legacy)) (s : ToLegacy.State σ φ),
        let hidden := (ToLegacy.level below.bare counts).serveAll visits s
        let native := (ToLegacy.level below counts).serveAll visits s
        hidden.state = native.state ∧ hidden.answers = native.answers) := by
  refine ⟨?_, ?_, ?_⟩
  · intro b g σ φ below hbelow t
    obtain ⟨put, hput⟩ := hbelow.putsBy
    have hall : b = .legacy → ∀ surface, below.offers surface = true :=
      fun hb surface => hbelow.offers surface (.inl hb)
    obtain ⟨put', hputs⟩ := t.putsBy hput hall
    exact ⟨fun _ => t.offers_of_bottom hbelow.offers, hputs.itemwise⟩
  · intro g σ φ below hbelow t
    obtain ⟨put, hput⟩ := hbelow.putsBy
    obtain ⟨put', hputs⟩ := t.putsBy hput.bare nofun
    exact hputs.itemwise
  · intro σ φ below hbelow counts visits s
    obtain ⟨put, hput⟩ := hbelow.putsBy
    exact (ToLegacy.alike_bare hput counts).serveAll visits s

/-- Three bridges over a timed store with a default TTL. The batch has duplicates, a TTL of zero and
items without one; of its items one is set plainly that has no TTL, and another on the TTL
surface. -/
theorem batch_itemwise_mixed :
    let t : Tower .modern .legacy := .toLegacy true (.toModern 5 (.toLegacy true .ground))
    let l := t.level (TimedStore.level ⟨some 7, none⟩)
    let visit (wall : Nat) (r : LegacyRequest) : Visit .legacy :=
      ⟨r, { now := wall, wall := wall, scopes := {} }, []⟩
    let items : List Write :=
      [⟨"a", [1], none⟩, ⟨"a", [2], some 0⟩, ⟨"b", [3], some 9⟩, ⟨"b", [4], none⟩]
    let singles : List (Visit .legacy) :=
      [visit 3 (.set "a" [1]), visit 3 (.setWithTtl ⟨"a", [2], some 0⟩),
        visit 3 (.setWithTtl ⟨"b", [3], some 9⟩), visit 3 (.setWithTtl ⟨"b", [4], none⟩)]
    let after : List (Visit .legacy) :=
      [visit 3 (.get "a"), visit 9 (.get "b"), visit 10 (.get "b")]
    let whole := l.serveAll (visit 3 (.setMultiWithTtl items) :: after) (t.fresh {})
    let piecemeal := l.serveAll (singles ++ after) (t.fresh {})
    whole.state = piecemeal.state ∧
      piecemeal.answers =
        [some Answer.done, some Answer.done, some Answer.done, some Answer.done,
          some (.error .keyNotFound), some (.ok (.found [4])), some (.error .keyNotFound)] := by
  intro t l visit items singles after whole piecemeal
  have hsingles : List.Forall₂ (Level.Sets 3) items singles := by
    simp [items, singles, visit, Level.Sets, storing?, Write.plain]
  obtain ⟨-, hitemwise⟩ := batch_itemwise.1 (.timedStore ⟨some 7, none⟩) t
  obtain ⟨hstate, rest, hwhole, hpiecemeal⟩ :=
    hitemwise (.setMultiWithTtl items) items singles (visit 3 (.get "a")).env rfl hsingles []
      after (t.fresh {})
  have hanswers : whole.answers =
      [some Answer.done, some (.error .keyNotFound), some (.ok (.found [4])),
        some (.error .keyNotFound)] := rfl
  cases hanswers.symm.trans hwhole
  exact ⟨hstate, hpiecemeal⟩

end Tower

end CacheBridge
