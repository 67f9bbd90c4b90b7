import CacheBridge.Double.Modern
import CacheBridge.Proofs.Replay

/-!
Batches through a tower. A tower has a batch surface whatever its bottom has, and every bridge but
the lowest hands a batch on as one batch with the TTLs it came with, so it is the lowest bridge that
decides: a modern bottom gets the batch as it is or, if it has no surface for it, write by write; a
legacy one gets it with its TTLs or without, or not at all.
-/

namespace CacheBridge

/-- The writes of a request that writes a batch. -/
def batchOf? : {g : Generation} → Request g → Option (List Write)
  | .modern, .setMulti _ items => some items
  | .legacy, .setMulti items => some (items.map fun (key, value) => .plain key value)
  | .legacy, .setMultiWithTtl items => some items
  | _, _ => none

/-- The batch as a legacy request: with its TTLs if it has any and there is a surface for them. -/
def legacyBatch (timed : Bool) (items : List Write) : LegacyRequest :=
  if timed && items.any (·.ttl.isSome) then .setMultiWithTtl items
  else .setMulti (items.map fun w => (w.key, w.value))

/-- With the TTL surface at hand nothing of a batch is lost. -/
theorem batchOf?_legacyBatch (items : List Write) :
    batchOf? (g := .legacy) (legacyBatch true items) = some items := by
  unfold legacyBatch
  cases hany : items.any (·.ttl.isSome) with
  | true => rfl
  | false =>
    have hplain : items.map (fun w => Write.plain w.key w.value) = items := by
      refine (List.map_congr_left ?_).trans (List.map_id items)
      intro w hw
      have hw : w.ttl = none := by simpa using List.any_eq_false.mp hany w hw
      obtain ⟨key, value, ttl⟩ := w
      cases hw
      rfl
    simpa [batchOf?, Function.comp_def] using hplain

namespace ToModern

variable {σ φ : Type} {below : Level .legacy σ φ}

/-- What is said of a batch whose TTLs are dropped. -/
def batchNotices (timed : Bool) (items : List Write) : List Event :=
  if !timed && items.any (·.ttl.isSome) then [.notice (.batchTtlsDropped items.length)] else []

theorem batchNotices_timed (items : List Write) : batchNotices true items = [] := rfl

theorem routeBatch_of_offers (h : below.offers .multi = true) (items : List Write) :
    routeBatch below items =
      some (legacyBatch (below.offers .ttl) items, batchNotices (below.offers .ttl) items) := by
  cases hany : items.any (·.ttl.isSome) <;> cases httl : below.offers .ttl <;>
    simp [routeBatch, legacyBatch, batchNotices, h, hany, httl]

theorem routeBatch_of_not_offers (h : below.offers .multi = false) (items : List Write) :
    routeBatch below items = none := by
  simp [routeBatch, h]

end ToModern

theorem ToLegacy.passed?_batch {σ φ : Type} {below : Level .modern σ φ} {r : LegacyRequest}
    {items : List Write} (h : below.offers .multi = true)
    (hr : batchOf? (g := .legacy) r = some items) :
    passed? below r = some (.setMulti .background items) := by
  cases r with
  | setMulti | setMultiWithTtl =>
    cases hr
    simp [passed?, passedBatch?, h]
  | get | set | add | delete | closeAsync | waitForClose | setWithTtl | addWithTtl => cases hr

namespace Tower

variable {g : Generation} {σ φ : Type}

/-- A legacy bridge has the surface for TTLs, so the bridge above it passes a batch on as it is. -/
theorem passed?_batch_toLegacy {b : Generation} (below : Level b σ φ) (counts : Bool)
    (t : Tower b .modern) (scope : Scope) (items : List Write) :
    ToModern.passed? ((toLegacy counts t).level below) (.setMulti scope items) =
      some (legacyBatch true items, []) := by
  have hup := ToModern.routeBatch_of_offers (offers_toLegacy below counts t .multi) items
  rwa [offers_toLegacy, ToModern.batchNotices_timed] at hup

/-! ## A bottom with a batch surface -/

theorem passed?_batch_modern (below : Level .modern σ φ) (h : below.offers .multi = true)
    (t : Tower .modern g) {r : Request g} {items : List Write} (hr : batchOf? r = some items)
    (hs : 0 < t.depth ∨ Spy.scopeOf r = .background) :
    t.passed? below r = some (.setMulti .background items, []) := by
  induction t with
  | ground =>
    cases r with
    | setMulti scope items =>
      cases hr
      obtain hs | hs := hs
      · cases hs
      · cases hs
        rfl
    | get | set | add | delete | close => cases hr
  | toLegacy counts t ih =>
    have hoffers : (t.level below).offers .multi = true := by
      cases t with
      | ground => exact h
      | toModern => rfl
    simp only [passed?, ToLegacy.passed?_batch hoffers hr, Option.bind_some]
    exact ih rfl (.inr rfl)
  | toModern poll t ih =>
    cases r with
    | setMulti scope items =>
      cases hr
      cases t with
      | toLegacy counts t =>
        have hup := passed?_batch_toLegacy below counts t scope items
        have hdown := ih (batchOf?_legacyBatch items) (.inr rfl)
        simp only [passed?, hup, Option.bind_some]
        simp only [passed?] at hdown
        rw [hdown]
        rfl
    | get | set | add | delete | close => cases hr

theorem passed?_batch_legacy (below : Level .legacy σ φ) (h : below.offers .multi = true)
    {t : Tower .legacy g} (ht : 0 < t.depth) {r : Request g} {items : List Write}
    (hr : batchOf? r = some items) :
    t.passed? below r =
      some (legacyBatch (below.offers .ttl) items,
        ToModern.batchNotices (below.offers .ttl) items) := by
  induction t generalizing items with
  | ground => cases ht
  | toLegacy counts t ih =>
    cases t with
    | toModern poll t =>
      simp only [passed?, ToLegacy.passed?_batch (offers_toModern below poll t .multi) hr,
        Option.bind_some]
      exact ih (Nat.succ_pos _) rfl
  | toModern poll t ih =>
    cases r with
    | setMulti scope items =>
      cases hr
      cases t with
      | ground =>
        simp only [passed?, ToModern.passed?, level, ToModern.routeBatch_of_offers h,
          Option.bind_some, Option.map_some, List.append_nil]
      | toLegacy counts t =>
        have hup := passed?_batch_toLegacy below counts t scope items
        have hdown := ih (Nat.succ_pos _) (batchOf?_legacyBatch items)
        simp only [passed?, hup, Option.bind_some]
        simp only [passed?] at hdown
        rw [hdown]
        rfl
    | get | set | add | delete | close => cases hr

/-- A batch that the bottom has no surface for is refused by the lowest bridge. -/
theorem start_batch_refused (below : Level .legacy σ φ) (h : below.offers .multi = false)
    {t : Tower .legacy g} (ht : 0 < t.depth) {r : Request g} {items : List Write}
    (hr : batchOf? r = some items) (env : Env) (s : t.State σ φ) :
    (t.level below).start r env s = .answer s (.error .notImplemented) := by
  induction t generalizing items with
  | ground => cases ht
  | toLegacy counts t ih =>
    cases t with
    | toModern poll t =>
      refine (ToLegacy.start_passed _ counts
        (ToLegacy.passed?_batch (offers_toModern below poll t .multi) hr)).trans ?_
      rw [ih (Nat.succ_pos _) rfl s.2]
      rfl
  | toModern poll t ih =>
    cases r with
    | setMulti scope items =>
      cases hr
      cases t with
      | ground =>
        have hnone := ToModern.routeBatch_of_not_offers h items
        simp only [level, ToModern.level, ToModern.start, hnone]
      | toLegacy counts t =>
        refine (ToModern.start_passed _ poll
          (passed?_batch_toLegacy below counts t scope items)).trans ?_
        rw [ih (Nat.succ_pos _) (batchOf?_legacyBatch items) s.2]
        rfl
    | get | set | add | delete | close => cases hr

/-! ## A modern bottom without one -/

/-- What a batch does to a modern bottom, and what is told of it, when it is replayed there. -/
def ReplaysAtBottom (items : List Write) (t : Tower .modern g)
    (s : t.State (Ledger .modern × σ) (ModernRequest × φ))
    (turn : Turn (t.State (Ledger .modern × σ) (ModernRequest × φ))
      (t.Call (ModernRequest × φ)) (Answer g)) : Prop :=
  ∃ log outcome x, Replayed items log outcome ∧
    turn.state = t.replace s ((t.bottom s).1.replayed log, x) ∧
    turn.progress.answer? = outcome.map (Answer.as g)

theorem ReplaysAtBottom.relay_toLegacy {items : List Write} {counts : Bool}
    {t : Tower .modern .modern} {s : (toLegacy counts t).State (Ledger .modern × σ) _}
    {turn : Turn _ (t.Call (ModernRequest × φ)) (Answer .modern)}
    (h : ReplaysAtBottom items t s.2 turn) :
    ReplaysAtBottom items (toLegacy counts t) s (ToLegacy.relay s.1 turn) := by
  obtain ⟨log, outcome, x, hlog, hstate, hanswer⟩ := h
  refine ⟨log, outcome, x, hlog, congrArg (Prod.mk s.1) hstate, ?_⟩
  have hrelay : (ToLegacy.relay s.1 turn).progress.answer? =
      turn.progress.answer?.map (Answer.as .legacy) := by
    obtain ⟨y, p, es⟩ := turn
    cases p <;> rfl
  rw [hrelay, hanswer, Option.map_map]
  exact congrArg (fun f => outcome.map f) (funext fun a => Answer.as_as a)

theorem ReplaysAtBottom.relay_toModern {items : List Write} {poll : Nat}
    {t : Tower .modern .legacy} {s : (toModern poll t).State (Ledger .modern × σ) _}
    {turn : Turn _ (t.Call (ModernRequest × φ)) (Answer .legacy)}
    (h : ReplaysAtBottom items t s.2 turn) :
    ReplaysAtBottom items (toModern poll t) s (ToModern.relay s.1 turn) := by
  obtain ⟨log, outcome, x, hlog, hstate, hanswer⟩ := h
  refine ⟨log, outcome, x, hlog, congrArg (Prod.mk s.1) hstate, ?_⟩
  have hrelay : (ToModern.relay s.1 turn).progress.answer? =
      turn.progress.answer?.map (Answer.as .modern) := by
    obtain ⟨y, p, es⟩ := turn
    cases p <;> rfl
  rw [hrelay, hanswer, Option.map_map]
  exact congrArg (fun f => outcome.map f) (funext fun a => Answer.as_as a)

/-- A bridge right over the bottom replays the batch there. -/
theorem replaysAtBottom_ground (below : Level .modern σ φ) (h : below.offers .multi = false)
    (counts : Bool) {r : LegacyRequest} {items : List Write}
    (hr : batchOf? (g := .legacy) r = some items) (env : Env) (later : List Env)
    (s : (toLegacy counts ground).State (Ledger .modern × σ) (ModernRequest × φ)) :
    ReplaysAtBottom items (toLegacy counts ground) s
      (((toLegacy counts ground).level below.recorded).serve ⟨r, env, later⟩ s) := by
  have hstart : ToLegacy.start below.recorded counts r env s =
      (ToLegacy.replay below.recorded s.1 items env s.2).after
        (ToLegacy.tally counts .batchReplayed) := by
    cases r with
    | setMulti | setMultiWithTtl =>
      cases hr
      simp [ToLegacy.start, ToLegacy.writeBatch, Level.recorded, h]
    | get | set | add | delete | closeAsync | waitForClose | setWithTtl | addWithTtl =>
      cases hr
  have hbegun := ToLegacy.midway_replay below items s.2.1 s.1 env items [] rfl s.2.2
  have hmid := ToLegacy.midway_goOn below counts later
    (hbegun.after (ToLegacy.tally counts .batchReplayed))
  rw [Replayed.through, List.map_nil, Ledger.replayed_nil, ← hstart] at hmid
  obtain ⟨log, outcome, x, hlog, hstate, hanswer⟩ := hmid.replayed
  exact ⟨log, outcome, x, hlog, hstate, hanswer⟩

/-- The lowest bridge replays the batch, however high above it the batch was written. -/
theorem replaysAtBottom (below : Level .modern σ φ) (h : below.offers .multi = false)
    {t : Tower .modern g} (ht : 0 < t.depth) {r : Request g} {items : List Write}
    (hr : batchOf? r = some items) (env : Env) (later : List Env)
    (s : t.State (Ledger .modern × σ) (ModernRequest × φ)) :
    ReplaysAtBottom items t s ((t.level below.recorded).serve ⟨r, env, later⟩ s) := by
  induction t generalizing items with
  | ground => cases ht
  | toLegacy counts t ih =>
    cases t with
    | ground => exact replaysAtBottom_ground below h counts hr env later s
    | toModern poll t =>
      have hpassed := ToLegacy.passed?_batch (offers_toModern below.recorded poll t .multi) hr
      have hserve : ((toLegacy counts (toModern poll t)).level below.recorded).serve
          ⟨r, env, later⟩ s =
          ToLegacy.relay s.1 (((toModern poll t).level below.recorded).serve
            ⟨.setMulti .background items, env, later⟩ s.2) := by
        refine Eq.trans ?_ (ToLegacy.goOn_relay _ counts later s.1 _)
        exact congrArg _ (ToLegacy.start_passed _ counts hpassed)
      rw [hserve]
      exact (ih (Nat.succ_pos _) rfl s.2).relay_toLegacy
  | toModern poll t ih =>
    cases r with
    | setMulti scope items =>
      cases hr
      cases t with
      | toLegacy counts t =>
        have hpassed := passed?_batch_toLegacy below.recorded counts t scope items
        have hserve : ((toModern poll (toLegacy counts t)).level below.recorded).serve
            ⟨.setMulti scope items, env, later⟩ s =
            ToModern.relay s.1 (((toLegacy counts t).level below.recorded).serve
              ⟨legacyBatch true items, env, later⟩ s.2) := by
          refine Eq.trans ?_ (ToModern.goOn_relay _ poll later s.1 _)
          exact congrArg _ (ToModern.start_passed _ poll hpassed)
        rw [hserve]
        exact (ih (Nat.succ_pos _) (batchOf?_legacyBatch items) s.2).relay_toModern
    | get | set | add | delete | close => cases hr

/-- Where a batch goes that is written at the top of a tower. A modern bottom with a batch surface
receives it as one batch; without one it receives the writes in order, each with its own TTL, up to
the first that fails. A legacy bottom with a batch surface receives it as one batch, with its TTLs
if it has any and there is a surface for them; without one it is not touched, and the batch is not
implemented. -/
theorem batch_routing :
    (∀ {g : Generation} {σ φ : Type} (below : Level .modern σ φ) (t : Tower .modern g)
        (v : Visit g) (items : List Write)
        (s : t.State (Ledger .modern × σ) (ModernRequest × φ)),
      0 < t.depth → batchOf? v.request = some items →
        (below.offers .multi = true → t.ServedAs below v s (.setMulti .background items)) ∧
        (below.offers .multi = false →
          ReplaysAtBottom items t s ((t.level below.recorded).serve v s))) ∧
    (∀ {g : Generation} {σ φ : Type} (below : Level .legacy σ φ) (t : Tower .legacy g)
        (v : Visit g) (items : List Write)
        (s : t.State (Ledger .legacy × σ) (LegacyRequest × φ)),
      0 < t.depth → batchOf? v.request = some items →
        (below.offers .multi = true →
          t.ServedAs below v s (legacyBatch (below.offers .ttl) items)) ∧
        (below.offers .multi = false →
          (t.level below.recorded).serve v s = .answer s (.error .notImplemented))) := by
  constructor
  · intro g σ φ below t v items s ht hv
    constructor
    · intro h
      exact servedAs_of_passed below t s
        (passed?_batch_modern below.recorded h t hv (.inl ht))
    · intro h
      exact replaysAtBottom below h ht hv v.env v.later s
  · intro g σ φ below t v items s ht hv
    constructor
    · intro h
      exact servedAs_of_passed below t s (passed?_batch_legacy below.recorded h ht hv)
    · intro h
      unfold Level.serve
      rw [start_batch_refused below.recorded h ht hv]
      exact Level.goOn_answered _ _ rfl

/-- Two bridges over a double without a batch surface, which fails the second of three writes. -/
theorem batch_routing_failing :
    let below := ModernDouble.level { failOn := some ("b", .timeout) }
    let t : Tower .modern .modern := .toModern 5 (.toLegacy true .ground)
    let items : List Write := [⟨"a", [1], some 0⟩, ⟨"b", [2], none⟩, ⟨"a", [3], some 9⟩]
    let v : Visit .modern :=
      ⟨.setMulti ⟨none, some 0⟩ items, { now := 3, wall := 0, scopes := {} }, []⟩
    let s := t.fresh (({}, {}) : Ledger .modern × ModernDouble.State)
    0 < t.depth ∧ batchOf? v.request = some items ∧ below.offers .multi = false ∧
      ReplaysAtBottom items t s ((t.level below.recorded).serve v s) := by
  intro below t items v s
  exact ⟨by decide, rfl, rfl, (batch_routing.1 below t v items s (by decide) rfl).2 rfl⟩

end Tower

end CacheBridge
