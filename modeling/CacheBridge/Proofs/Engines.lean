import CacheBridge.Proofs.Vault

/-!
Caches that can stand at the bottom of a tower: the lazy store, and the cache over a vault, which
the timed store is too. There is one for each generation, with all the surfaces that its generation
has. Whatever stands on it, a deed asked for at the top is done at the bottom, and is answered as a
table of slots says that shows the same entries.
-/

namespace CacheBridge

/-- A fresh cache that keeps every entry for its own TTL, and an entry without one for the default
TTL if the cache goes by it, which a lazy store does not. -/
inductive Retains (defaultTtl : Option Nat) : {b : Generation} → {σ φ : Type} → Level b σ φ → σ →
    Prop where
  | lazyStore : Retains defaultTtl LazyStore.level LazyStore.fresh
  | timedStore : Retains defaultTtl (TimedStore.level ⟨defaultTtl, none⟩) {}
  | vault (v : Vault) (hv : v.Honours (.perEntry defaultTtl)) : Retains defaultTtl v.cache v.empty

namespace Engine

@[reducible] def State (v : Vault) : Generation → Type
  | .modern => v.State
  | .legacy => LazyStore.State

@[reducible] def Call : Generation → Type
  | .modern => NoCall
  | .legacy => ClosedWait

/-- The cache of a generation. Only the modern one keeps its entries in the vault. -/
def level (v : Vault) : (b : Generation) → Level b (State v b) (Call b)
  | .modern => v.cache
  | .legacy => LazyStore.level

theorem offers (v : Vault) (b : Generation) {surface : Surface}
    (h : b = .legacy ∨ surface = .multi) : (level v b).offers surface = true := by
  cases b with
  | modern => simpa [level, Vault.cache, Level.immediate] using h
  | legacy => rfl

def fresh (v : Vault) : (b : Generation) → State v b
  | .modern => v.empty
  | .legacy => LazyStore.fresh

/-- The policy that the cache of a generation goes by. -/
def ruling (defaultTtl : Option Nat) : Generation → TimedStore.Policy
  | .modern => ⟨defaultTtl, none⟩
  | .legacy => .unbounded

@[simp] theorem ruling_none (b : Generation) : ruling none b = .unbounded := by
  cases b <;> rfl

/-- At every look from `wall` on the entries are those of the table. -/
def Shows (v : Vault) (wall : Nat) : (b : Generation) → State v b → Table Slot → Prop
  | .modern, s, slots => v.Pictured wall s slots
  | .legacy, s, slots => Table.Alike wall s.slots slots

/-- The cache is open, or shut, as far as it knows: one over a vault keeps nothing about that. -/
def Stands (v : Vault) (shut : Bool) : (b : Generation) → State v b → Prop
  | .modern, _ => True
  | .legacy, s => s.phase = if shut then .closed else .active

/-- What a deed makes of the entries, and its answer. -/
def done (policy : TimedStore.Policy) (d : ModernRequest) (env : Env) (slots : Table Slot) :
    Table Slot × Answer .modern :=
  let (slots, a, _) := TimedStore.handle policy d env slots
  (slots, a)

theorem done_alike {env env' : Env} (h : env.wall = env'.wall) {a b : Table Slot}
    (hab : Table.Alike env.wall a b) (policy : TimedStore.Policy) (d : ModernRequest) :
    Table.Alike env.wall (done policy d env a).1 (done policy d env' b).1 ∧
      (done policy d env a).2 = (done policy d env' b).2 := by
  unfold done
  rw [← TimedStore.handle_wall h d b]
  exact TimedStore.handle_alike hab fun _ _ => trivial

section Shows

variable {v : Vault} {defaultTtl : Option Nat} {wall : Nat} {b : Generation} {s : State v b}
  {slots : Table Slot}

theorem shows_fresh (hv : v.Honours (.perEntry defaultTtl)) (wall : Nat) (b : Generation) :
    Shows v wall b (fresh v b) {} := by
  cases b with
  | modern => exact .empty hv wall
  | legacy => exact .refl _

theorem Shows.mono (h : Shows v wall b s slots) {later : Nat} (hl : wall ≤ later) :
    Shows v later b s slots := by
  cases b with
  | modern => exact Vault.Pictured.mono h hl
  | legacy => exact Table.AlikeOn.mono h hl

end Shows

/-! ## Deeds -/

section Deeds

variable {v : Vault} {defaultTtl : Option Nat}

/-- The cache is at `s'` after a deed that was done at `s`: it shows what the deed has made of the
table, and stands as it did. -/
def Did (v : Vault) (b : Generation) (wall : Nat) (s s' : State v b) (slots : Table Slot) : Prop :=
  Shows v wall b s' slots ∧ ∀ shut, Stands v shut b s → Stands v shut b s'

theorem start_modern (hv : v.Honours (.perEntry defaultTtl)) {r d : ModernRequest}
    (h : deed? (g := .modern) r = some d) {env : Env} {s : v.State} {slots : Table Slot}
    (hs : v.Pictured env.wall s slots) :
    let after := done ⟨defaultTtl, none⟩ d env slots
    ∃ s' es, v.cache.start r env s = ⟨s', .answered (after.2.as .modern), es⟩ ∧
      Did v .modern env.wall s s' after.1 := by
  intro after
  obtain ⟨hpictured, hanswer⟩ := hs.handle hv r
  rw [TimedStore.handle_deed _ h] at hpictured hanswer
  refine ⟨(v.handle r env s).1, (v.handle r env s).2.2, ?_, hpictured, fun _ _ => trivial⟩
  rw [Answer.as_self]
  exact congrArg (fun a => (⟨_, .answered a, _⟩ : Turn _ _ _)) (congrArg Prod.fst hanswer)

/-- The lazy store does a deed to the slots that it has. -/
theorem start_slots {r : LegacyRequest} {d : ModernRequest} (h : deed? (g := .legacy) r = some d)
    (env : Env) (s : LazyStore.State) :
    let after := done .unbounded d env s.slots
    ∃ s' es, LazyStore.level.start r env s = ⟨s', .answered (after.2.as .legacy), es⟩ ∧
      Did v .legacy env.wall s s' after.1 := by
  have hput (w : Write) :
      Did v .legacy env.wall s (LazyStore.put env.wall w s)
        (done .unbounded (.set .background w) env s.slots).1 := by
    rw [LazyStore.put_slots]
    exact ⟨.refl _, fun _ hs => hs⟩
  have hputAll (items : List Write) :
      Did v .legacy env.wall s (LazyStore.putAll env.wall items s)
        (done .unbounded (.setMulti .background items) env s.slots).1 := by
    rw [LazyStore.putAll_slots]
    exact ⟨.refl _, fun _ hs => hs⟩
  have hputNew (w : Write) :
      let after := done .unbounded (.add .background w) env s.slots
      (LazyStore.putNew env.wall w s).2 = after.2.as .legacy ∧
        Did v .legacy env.wall s (LazyStore.putNew env.wall w s).1 after.1 := by
    rw [LazyStore.putNew_slots]
    exact ⟨rfl, .refl _, fun _ hs => hs⟩
  cases r with
  | get key =>
    cases h
    obtain ⟨ha, hphase, halike⟩ := LazyStore.get_alike env.wall key s
    refine ⟨_, [], congrArg (fun a => (⟨_, .answered a, []⟩ : Turn _ _ _)) ha, halike, ?_⟩
    exact fun shut hs => hphase.trans hs
  | set | setWithTtl =>
    cases h
    exact ⟨_, [], rfl, hput _⟩
  | add | addWithTtl =>
    cases h
    obtain ⟨ha, hdid⟩ := hputNew _
    exact ⟨_, [], congrArg (fun a => (⟨_, .answered a, []⟩ : Turn _ _ _)) ha, hdid⟩
  | delete key =>
    cases h
    exact ⟨_, [], rfl, .refl _, fun _ hs => hs⟩
  | setMulti | setMultiWithTtl =>
    cases h
    exact ⟨_, [], rfl, hputAll _⟩
  | closeAsync | waitForClose => cases h

theorem start_legacy {r : LegacyRequest} {d : ModernRequest} (h : deed? (g := .legacy) r = some d)
    {env : Env} {s : LazyStore.State} {slots : Table Slot}
    (hs : Table.Alike env.wall s.slots slots) :
    let after := done .unbounded d env slots
    ∃ s' es, LazyStore.level.start r env s = ⟨s', .answered (after.2.as .legacy), es⟩ ∧
      Did v .legacy env.wall s s' after.1 := by
  intro after
  obtain ⟨halike, ha⟩ := done_alike rfl hs .unbounded d
  obtain ⟨s', es, hstart, hshows, hstands⟩ := start_slots h env s
  exact ⟨s', es, ha ▸ hstart, hshows.trans halike, hstands⟩

/-- A deed is done, and answered at once, as the table says that shows the same. -/
theorem start_deed (hv : v.Honours (.perEntry defaultTtl)) {b : Generation} {r : Request b}
    {d : ModernRequest} (h : deed? r = some d) {env : Env} {s : State v b} {slots : Table Slot}
    (hs : Shows v env.wall b s slots) :
    let after := done (ruling defaultTtl b) d env slots
    ∃ s' es, (level v b).start r env s = ⟨s', .answered (after.2.as b), es⟩ ∧
      Did v b env.wall s s' after.1 := by
  cases b with
  | modern => exact start_modern hv h hs
  | legacy => exact start_legacy h hs

end Deeds

end Engine

/-- What is so on a lazy store and on the cache over any vault is so on every cache that keeps its
entries like this. -/
@[elab_as_elim]
theorem Retains.of_engine {defaultTtl : Option Nat} {b : Generation} {σ φ : Type}
    {below : Level b σ φ} {fresh : σ} {motive : (σ φ : Type) → Level b σ φ → σ → Prop}
    (h : Retains defaultTtl below fresh)
    (hengine : ∀ v : Vault, v.Honours (.perEntry defaultTtl) →
      motive _ _ (Engine.level v b) (Engine.fresh v b)) :
    motive σ φ below fresh := by
  have hslots := hengine (.ofSlots (.perEntry defaultTtl)) (Vault.ofSlots_honours _)
  cases h with
  | lazyStore => exact hslots
  | timedStore => exact Vault.ofSlots_cache defaultTtl ▸ hslots
  | vault v hv => exact hengine v hv

/-! ## Towers on the stores -/

theorem ToLegacy.passed?_deed {σ φ : Type} {below : Level .modern σ φ}
    (hmulti : below.offers .multi = true) {r : LegacyRequest} {d : ModernRequest}
    (h : deed? (g := .legacy) r = some d) :
    ∃ q, ToLegacy.passed? below r = some q ∧ deed? (g := .modern) q = some d := by
  cases r with
  | get | set | add | delete | setWithTtl | addWithTtl =>
    cases h
    exact ⟨_, rfl, rfl⟩
  | setMulti | setMultiWithTtl =>
    cases h
    exact ⟨_, by simp only [passed?, passedBatch?, hmulti, if_true]; rfl, rfl⟩
  | closeAsync | waitForClose => cases h

/-- A batch without TTLs is the same batch when its TTLs are left out. -/
theorem plain_of_no_ttl {items : List Write} (h : items.any (·.ttl.isSome) = false) :
    (items.map fun w => (w.key, w.value)).map (fun (key, value) => Write.plain key value) =
      items := by
  rw [List.map_map]
  have hid : ∀ w ∈ items, Write.plain w.key w.value = w := by
    rintro ⟨key, value, ttl⟩ hw
    have hnone := List.any_eq_false.mp h _ hw
    cases ttl with
    | none => rfl
    | some ttl => exact absurd rfl hnone
  exact (List.map_congr_left hid).trans (List.map_id items)

theorem ToModern.passed?_deed {σ φ : Type} {below : Level .legacy σ φ}
    (hall : ∀ surface, below.offers surface = true) {r d : ModernRequest}
    (h : deed? (g := .modern) r = some d) :
    ∃ q es, ToModern.passed? below r = some (q, es) ∧ deed? (g := .legacy) q = some d := by
  cases r with
  | get | delete =>
    cases h
    exact ⟨_, _, rfl, rfl⟩
  | set _ w | add _ w =>
    cases h
    obtain ⟨key, value, ttl⟩ := w
    cases ttl with
    | none => exact ⟨_, _, rfl, rfl⟩
    | some ttl => exact ⟨_, _, by simp only [passed?, route, hall, if_true]; rfl, rfl⟩
  | setMulti _ items =>
    cases h
    cases hany : items.any (·.ttl.isSome) with
    | true =>
      exact ⟨.setMultiWithTtl items, [], by simp [passed?, routeBatch, hall, hany], rfl⟩
    | false =>
      refine ⟨.setMulti (items.map fun w => (w.key, w.value)), [],
        by simp [passed?, routeBatch, hall, hany], ?_⟩
      exact congrArg (fun items => some (ModernRequest.setMulti .background items))
        (plain_of_no_ttl hany)
  | close => cases h

namespace Tower

variable {b g : Generation} (v : Vault)

theorem offers_engine (t : Tower b g) {surface : Surface} (h : g = .legacy ∨ surface = .multi) :
    (t.level (Engine.level v b)).offers surface = true :=
  t.offers_of_bottom (fun _ => Engine.offers v b) h

/-- A deed reaches the bottom of a tower as one request for the same deed. -/
theorem passed?_deed (t : Tower b g) {r : Request g} {d : ModernRequest} (h : deed? r = some d) :
    ∃ q es, t.passed? (Engine.level v b) r = some (q, es) ∧ deed? q = some d := by
  induction t with
  | ground => exact ⟨r, [], rfl, h⟩
  | toLegacy counts t ih =>
    obtain ⟨q, hq, hd⟩ := ToLegacy.passed?_deed (t.offers_engine v (.inr rfl)) h
    obtain ⟨q', es, hq', hd'⟩ := ih hd
    exact ⟨q', es, Option.bind_eq_some_iff.mpr ⟨q, hq, hq'⟩, hd'⟩
  | toModern poll t ih =>
    obtain ⟨q, es, hq, hd⟩ := ToModern.passed?_deed (fun _ => t.offers_engine v (.inl rfl)) h
    obtain ⟨q', fs, hq', hd'⟩ := ih hd
    refine ⟨q', es ++ fs, Option.bind_eq_some_iff.mpr ⟨(q, es), hq, ?_⟩, hd'⟩
    exact Option.map_eq_some_iff.mpr ⟨(q', fs), hq', rfl⟩

variable {v} {defaultTtl : Option Nat} (hv : v.Honours (.perEntry defaultTtl))

include hv

theorem shows_fresh (t : Tower b g) (wall : Nat) :
    Engine.Shows v wall b (t.bottom (t.fresh (Engine.fresh v b) : t.State _ (Engine.Call b)))
      {} := by
  rw [bottom_fresh]
  exact Engine.shows_fresh hv wall b

/-- The bottom does the deed and the bridges hand the answer on. -/
theorem start_deed (t : Tower b g) {r : Request g} {d : ModernRequest} (h : deed? r = some d)
    {env : Env} {s : t.State (Engine.State v b) (Engine.Call b)} {slots : Table Slot}
    (hs : Engine.Shows v env.wall b (t.bottom s) slots) :
    let after := Engine.done (Engine.ruling defaultTtl b) d env slots
    ∃ x es, (t.level (Engine.level v b)).start r env s =
        ⟨t.replace s x, .answered (after.2.as g), es⟩ ∧
      Engine.Did v b env.wall (t.bottom s) x after.1 := by
  obtain ⟨q, es, hq, hd⟩ := t.passed?_deed v h
  obtain ⟨x, fs, hx, hdid⟩ := Engine.start_deed hv hd hs
  refine ⟨x, es ++ fs, ?_, hdid⟩
  rw [start_passed (Engine.level v b) t hq, hx]
  simp only [lift, Turn.map, Turn.after, Answer.as_as]

end Tower

end CacheBridge
