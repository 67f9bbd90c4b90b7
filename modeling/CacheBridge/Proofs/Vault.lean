import CacheBridge.Proofs.Deeds

/-!
A cache over a map that is not ours. A vault is a map whose entries go by themselves; how it keeps
them, and when it throws them out, is its own affair. All that is relied on is what it says of
itself: whenever it puts an entry in it asks how long the entry is to live, one question where there
was none and another over one that was still there, and from then on it shows the entry for just so
long. That is enough for the timed store to be a picture of every cache over a vault.
-/

namespace CacheBridge

/-- At `now` something is still there that was stored at `wall` to live for so long. An end that
cannot be written never comes. -/
def InTime (ttl : Option Nat) (wall now : Nat) : Prop :=
  ∀ span, ttl = some span → wall + span < Time.horizon → now < wall + span

theorem Slot.expired_written_iff (wall now : Nat) (value : Bytes) (ttl : Option Nat) :
    (Slot.written wall value ttl).expired now = false ↔ InTime ttl wall now := by
  cases ttl with
  | none => simp [InTime]
  | some span =>
    by_cases h : wall + span < Time.horizon
    · simp [InTime, Slot.written, Slot.expired, Time.after?, h]
    · simp [InTime, Slot.written, Slot.expired, Time.after?, h]

namespace Table

variable {ttl : Option Nat} {wall now : Nat}

theorem live?_put_inTime (h : InTime ttl wall now) (slots : Table Slot) (key : Key)
    (value : Bytes) :
    (slots.put key (.written wall value ttl)).live? now key = some (.written wall value ttl) := by
  rw [live?_put, if_pos rfl, Option.filter, (Slot.expired_written_iff ..).mpr h]
  rfl

theorem live?_put_over (h : ¬InTime ttl wall now) (slots : Table Slot) (key : Key) (value : Bytes) :
    (slots.put key (.written wall value ttl)).live? now key = none := by
  rw [← Slot.expired_written_iff wall now value, Bool.not_eq_false] at h
  rw [live?_put, if_pos rfl, Option.filter, h]
  rfl

end Table

/-- How long an entry is to live: one put where there was none, and one put over another that had so
much of its time left. -/
structure Lifetimes where
  created : Timed → Option Nat
  updated : Timed → Option Nat → Option Nat

/-- Every entry for its own TTL, or for the default TTL if it has none. -/
def Lifetimes.perEntry (defaultTtl : Option Nat) : Lifetimes :=
  ⟨fun entry => entry.ttl.or defaultTtl, fun entry _ => entry.ttl.or defaultTtl⟩

/-- A map whose entries go by themselves. -/
structure Vault where
  State : Type
  empty : State
  get (now : Nat) (key : Key) (s : State) : Option Bytes × State
  insert (now : Nat) (key : Key) (entry : Timed) (s : State) : State
  /-- Whether the entry that stands there now is the new one. -/
  getOrInsert (now : Nat) (key : Key) (entry : Timed) (s : State) : Bool × State
  invalidate (now : Nat) (key : Key) (s : State) : State
  invalidateAll (now : Nat) (s : State) : State

namespace Vault

/-- What a look would bring. -/
def shows (v : Vault) (now : Nat) (key : Key) (s : v.State) : Option Bytes := (v.get now key s).1

/-- From `now` on, `after` shows the entry for as long as the vault was told, and else what `before`
does. -/
structure Puts (v : Vault) (lifetimes : Lifetimes) (now : Nat) (key : Key) (entry : Timed)
    (before after : v.State) : Prop where
  entry : ∃ span,
    (v.shows now key before = none → span = lifetimes.created entry) ∧
    ((v.shows now key before).isSome → ∃ left, span = lifetimes.updated entry left) ∧
    ∀ later, now ≤ later →
      (InTime span now later → v.shows later key after = some entry.value) ∧
      (¬InTime span now later → v.shows later key after = none)
  others : ∀ later, now ≤ later → ∀ k, k ≠ key → v.shows later k after = v.shows later k before

/-- What a vault says of itself. -/
structure Honours (v : Vault) (lifetimes : Lifetimes) : Prop where
  empty : ∀ now key, v.shows now key v.empty = none
  get : ∀ now key s later, now ≤ later → ∀ k,
    v.shows later k (v.get now key s).2 = v.shows later k s
  insert : ∀ now key entry s, v.Puts lifetimes now key entry s (v.insert now key entry s)
  free : ∀ now key entry s, v.shows now key s = none →
    (v.getOrInsert now key entry s).1 = true ∧
      v.Puts lifetimes now key entry s (v.getOrInsert now key entry s).2
  taken : ∀ now key entry s, (v.shows now key s).isSome →
    (v.getOrInsert now key entry s).1 = false ∧
      ∀ later, now ≤ later → ∀ k,
        v.shows later k (v.getOrInsert now key entry s).2 = v.shows later k s
  invalidate : ∀ now key s later, now ≤ later → ∀ k,
    v.shows later k (v.invalidate now key s) = if k = key then none else v.shows later k s
  invalidateAll : ∀ now s later, now ≤ later → ∀ k, v.shows later k (v.invalidateAll now s) = none

/-! ## The cache over a vault -/

def insertAll (v : Vault) (now : Nat) (items : List Write) (s : v.State) : v.State :=
  items.foldl (fun s w => v.insert now w.key w.timed s) s

def handle (v : Vault) (r : ModernRequest) (env : Env) (s : v.State) :
    v.State × Answer .modern × List Event :=
  match r with
  | .get _ key =>
    match v.get env.wall key s with
    | (some value, s) => (s, .ok (.found value), [])
    | (none, s) => (s, .error .keyNotFound, [])
  | .set _ w => (v.insert env.wall w.key w.timed s, Answer.done, [])
  | .add _ w =>
    match v.getOrInsert env.wall w.key w.timed s with
    | (true, s) => (s, Answer.done, [])
    | (false, s) => (s, .error .keyAlreadyExists, [])
  | .delete _ key => (v.invalidate env.wall key s, Answer.done, [])
  | .setMulti _ items => (v.insertAll env.wall items s, Answer.done, [])
  | .close _ => (v.invalidateAll env.wall s, Answer.done, [.notice .timedStoreClosed])

def cache (v : Vault) : Level .modern v.State NoCall := .immediate (· == .multi) v.handle

/-- At every look from `now` on the vault shows what the timed store does. -/
def Pictured (v : Vault) (now : Nat) (kept : v.State) (s : TimedStore.State) : Prop :=
  ∀ later, now ≤ later → ∀ key, v.shows later key kept = (s.live? later key).map (·.value)

namespace Pictured

variable {v : Vault} {defaultTtl : Option Nat} {now : Nat} {kept kept' : v.State}
  {s : TimedStore.State}

theorem empty {lifetimes : Lifetimes} (hv : v.Honours lifetimes) (now : Nat) :
    v.Pictured now v.empty {} :=
  fun later _ key => hv.empty later key

theorem mono (h : v.Pictured now kept s) {later : Nat} (hl : now ≤ later) :
    v.Pictured later kept s :=
  fun t ht => h t (Nat.le_trans hl ht)

theorem of_shows (h : v.Pictured now kept s)
    (hshows : ∀ later, now ≤ later → ∀ k, v.shows later k kept' = v.shows later k kept) :
    v.Pictured now kept' s :=
  fun later hl k => (hshows later hl k).trans (h later hl k)

/-- Whichever of its questions the vault asked, the answer was the TTL that the timed store goes
by. -/
theorem put (h : v.Pictured now kept s) {w : Write}
    (hput : v.Puts (.perEntry defaultTtl) now w.key w.timed kept kept') :
    v.Pictured now kept' (TimedStore.put ⟨defaultTtl, none⟩ now w s) := by
  obtain ⟨⟨span, hcreated, hupdated, hentry⟩, hothers⟩ := hput
  have hspan : span = w.ttl.or defaultTtl := by
    cases hshown : v.shows now w.key kept with
    | none => exact hcreated hshown
    | some value =>
      obtain ⟨left, hleft⟩ := hupdated (by rw [hshown]; rfl)
      exact hleft
  subst hspan
  intro later hl key
  have hstore : TimedStore.put ⟨defaultTtl, none⟩ now w s =
      Table.put s w.key (.written now w.value (w.ttl.or defaultTtl)) := rfl
  rw [hstore]
  by_cases hkey : key = w.key
  · subst hkey
    obtain ⟨hlives, hgone⟩ := hentry later hl
    by_cases htime : InTime (w.ttl.or defaultTtl) now later
    · rw [hlives htime, Table.live?_put_inTime htime]
      rfl
    · rw [hgone htime, Table.live?_put_over htime]
      rfl
  · rw [Table.live?_put, if_neg hkey, hothers later hl key hkey]
    exact h later hl key

variable (hv : v.Honours (.perEntry defaultTtl))

include hv

theorem insertAll (h : v.Pictured now kept s) (items : List Write) :
    v.Pictured now (v.insertAll now items kept)
      (TimedStore.putAll ⟨defaultTtl, none⟩ now items s) := by
  induction items generalizing kept s with
  | nil => exact h
  | cons w items ih => exact ih (h.put (hv.insert now w.key w.timed kept))

theorem get (h : v.Pictured now kept s) (key : Key) :
    v.Pictured now (v.get now key kept).2 s ∧
      (v.get now key kept).1 = (s.live? now key).map (·.value) :=
  ⟨h.of_shows (hv.get now key kept), h now (Nat.le_refl _) key⟩

/-- An entry that is there is left alone, and one that is not is put. -/
theorem getOrInsert (h : v.Pictured now kept s) (w : Write) :
    let done := v.getOrInsert now w.key w.timed kept
    (s.live? now w.key = none → done.1 = true ∧
      v.Pictured now done.2 (TimedStore.put ⟨defaultTtl, none⟩ now w s)) ∧
    ((s.live? now w.key).isSome → done.1 = false ∧ v.Pictured now done.2 s) := by
  have hshown : v.shows now w.key kept = (s.live? now w.key).map (·.value) :=
    h now (Nat.le_refl _) w.key
  constructor
  · intro hlive
    rw [hlive] at hshown
    obtain ⟨hfresh, hput⟩ := hv.free now w.key w.timed kept hshown
    exact ⟨hfresh, h.put hput⟩
  · intro hlive
    obtain ⟨hfresh, hsame⟩ := hv.taken now w.key w.timed kept (by rwa [hshown, Option.isSome_map])
    exact ⟨hfresh, h.of_shows hsame⟩

theorem invalidate (h : v.Pictured now kept s) (key : Key) :
    v.Pictured now (v.invalidate now key kept) (s.remove key) := by
  intro later hl k
  rw [hv.invalidate now key kept later hl k, Table.live?_remove]
  by_cases hk : k = key
  · rw [if_pos hk, if_pos hk]
    rfl
  · rw [if_neg hk, if_neg hk]
    exact h later hl k

/-- A call at the cache over the vault is answered as it is at the timed store. -/
theorem handle {env : Env} (h : v.Pictured env.wall kept s) (r : ModernRequest) :
    let done := v.handle r env kept
    let pictured := TimedStore.handle ⟨defaultTtl, none⟩ r env s
    v.Pictured env.wall done.1 pictured.1 ∧ done.2 = pictured.2 := by
  cases r with
  | get _ key =>
    obtain ⟨hkept, hshown⟩ := h.get hv key
    simp only [Vault.handle, TimedStore.handle, TimedStore.get]
    cases hlook : v.get env.wall key kept with
    | mk shown after =>
      rw [hlook] at hkept hshown
      cases hlive : s.live? env.wall key with
      | none | some =>
        rw [hlive] at hshown
        cases hshown
        exact ⟨hkept, rfl⟩
  | set _ w => exact ⟨h.put (hv.insert env.wall w.key w.timed kept), rfl⟩
  | add _ w =>
    obtain ⟨hfree, htaken⟩ := h.getOrInsert hv w
    simp only [Vault.handle, TimedStore.handle, TimedStore.putNew]
    cases hlook : v.getOrInsert env.wall w.key w.timed kept with
    | mk fresh after =>
      rw [hlook] at hfree htaken
      cases hlive : s.live? env.wall w.key with
      | none =>
        obtain ⟨hfresh, hafter⟩ := hfree hlive
        cases hfresh
        exact ⟨hafter, rfl⟩
      | some slot =>
        obtain ⟨hfresh, hafter⟩ := htaken (by rw [hlive]; rfl)
        cases hfresh
        exact ⟨hafter, rfl⟩
  | delete _ key => exact ⟨h.invalidate hv key, rfl⟩
  | setMulti _ items => exact ⟨h.insertAll hv items, rfl⟩
  | close _ => exact ⟨hv.invalidateAll env.wall kept, rfl⟩

/-- So are calls one after the other, on a clock that does not go back. -/
theorem serveAll (h : v.Pictured now kept s) {visits : List (Visit .modern)}
    (hvisits : ∀ visit ∈ visits, now ≤ visit.env.wall)
    (hforward : (visits.map (·.env.wall)).Pairwise (· ≤ ·)) :
    (v.cache.serveAll visits kept).answers =
      ((TimedStore.level ⟨defaultTtl, none⟩).serveAll visits s).answers := by
  induction visits generalizing now kept s with
  | nil => rfl
  | cons visit visits ih =>
    obtain ⟨hvisit, hforward⟩ := List.pairwise_cons.mp hforward
    have hthen := h.mono (hvisits visit List.mem_cons_self)
    obtain ⟨hnext, hsaid⟩ := hthen.handle hv visit.request
    have hrest := ih hnext (fun v' hv' => hvisit _ (List.mem_map_of_mem hv')) hforward
    have hanswer : (v.handle visit.request visit.env kept).2.1 =
        (TimedStore.handle ⟨defaultTtl, none⟩ visit.request visit.env s).2.1 :=
      congrArg Prod.fst hsaid
    simp only [Level.serveAll, cache, TimedStore.level, Level.serve_immediate, Progress.answer?,
      hanswer]
    exact congrArg _ hrest

end Pictured

/-! ## A vault of slots -/

/-- The vault that keeps its entries in a table of slots. -/
def ofSlots (lifetimes : Lifetimes) : Vault where
  State := Table Slot
  empty := {}
  get now key s := ((s.live? now key).map (·.value), s)
  insert now key entry s := s.put key (slot now key entry s)
  getOrInsert now key entry s :=
    if (s.live? now key).isSome then (false, s) else (true, s.put key (slot now key entry s))
  invalidate _ key s := s.remove key
  invalidateAll _ _ := {}
where
  slot (now : Nat) (key : Key) (entry : Timed) (s : Table Slot) : Slot :=
    .written now entry.value <|
      match s.live? now key with
      | none => lifetimes.created entry
      | some old => lifetimes.updated entry (old.expires.map (· - now))

section Slots

variable (lifetimes : Lifetimes) (now : Nat) (key : Key) (s : Table Slot)

theorem ofSlots_shows : (ofSlots lifetimes).shows now key s = (s.live? now key).map (·.value) := rfl

theorem ofSlots_shows_eq_none_iff :
    (ofSlots lifetimes).shows now key s = none ↔ s.live? now key = none := by
  rw [ofSlots_shows, Option.map_eq_none_iff]

theorem ofSlots_shows_isSome :
    ((ofSlots lifetimes).shows now key s).isSome = (s.live? now key).isSome := by
  rw [ofSlots_shows, Option.isSome_map]

/-- The slot lives for as long as the vault was told. -/
theorem ofSlots_slot (entry : Timed) : ∃ span,
    ofSlots.slot lifetimes now key entry s = .written now entry.value span ∧
    (s.live? now key = none → span = lifetimes.created entry) ∧
    ((s.live? now key).isSome → ∃ left, span = lifetimes.updated entry left) := by
  unfold ofSlots.slot
  cases s.live? now key with
  | none => exact ⟨_, rfl, fun _ => rfl, nofun⟩
  | some old => exact ⟨_, rfl, nofun, fun _ => ⟨_, rfl⟩⟩

theorem ofSlots_puts (entry : Timed) :
    (ofSlots lifetimes).Puts lifetimes now key entry s
      (s.put key (ofSlots.slot lifetimes now key entry s)) := by
  obtain ⟨span, hslot, hcreated, hupdated⟩ := ofSlots_slot lifetimes now key s entry
  refine ⟨⟨span, ?_, ?_, fun later _ => ?_⟩, fun later _ k hk => ?_⟩
  · exact fun hnone => hcreated ((ofSlots_shows_eq_none_iff ..).mp hnone)
  · exact fun hsome => hupdated (ofSlots_shows_isSome lifetimes now key s ▸ hsome)
  · rw [ofSlots_shows, hslot]
    refine ⟨fun htime => ?_, fun htime => ?_⟩
    · rw [Table.live?_put_inTime htime]
      rfl
    · rw [Table.live?_put_over htime]
      rfl
  · rw [ofSlots_shows, ofSlots_shows, Table.live?_put, if_neg hk]

theorem ofSlots_getOrInsert_of_none (entry : Timed) (h : s.live? now key = none) :
    (ofSlots lifetimes).getOrInsert now key entry s =
      (true, s.put key (ofSlots.slot lifetimes now key entry s)) := by
  simp [ofSlots, h]

theorem ofSlots_getOrInsert_of_some (entry : Timed) (h : (s.live? now key).isSome) :
    (ofSlots lifetimes).getOrInsert now key entry s = (false, s) := if_pos h

theorem ofSlots_remove (later : Nat) (k : Key) :
    (ofSlots lifetimes).shows later k (s.remove key) =
      if k = key then none else (ofSlots lifetimes).shows later k s := by
  rw [ofSlots_shows, ofSlots_shows, Table.live?_remove]
  by_cases hk : k = key
  · rw [if_pos hk, if_pos hk]
    rfl
  · rw [if_neg hk, if_neg hk]

end Slots

theorem ofSlots_honours (lifetimes : Lifetimes) : (ofSlots lifetimes).Honours lifetimes where
  empty _ _ := rfl
  get _ _ _ _ _ _ := rfl
  insert now key entry s := ofSlots_puts lifetimes now key s entry
  free now key entry s hnone := by
    have hlive := (ofSlots_shows_eq_none_iff lifetimes now key s).mp hnone
    rw [ofSlots_getOrInsert_of_none lifetimes now key s entry hlive]
    exact ⟨rfl, ofSlots_puts lifetimes now key s entry⟩
  taken now key entry s hsome := by
    have hlive := ofSlots_shows_isSome lifetimes now key s ▸ hsome
    rw [ofSlots_getOrInsert_of_some lifetimes now key s entry hlive]
    exact ⟨rfl, fun _ _ _ => rfl⟩
  invalidate now key s later _ k := ofSlots_remove lifetimes key s later k
  invalidateAll _ _ _ _ _ := rfl

/-! ## The timed store as a cache over a vault -/

section TimedStore

variable (defaultTtl : Option Nat) (now : Nat)

theorem ofSlots_insert (w : Write) (s : Table Slot) :
    (ofSlots (.perEntry defaultTtl)).insert now w.key w.timed s =
      TimedStore.put ⟨defaultTtl, none⟩ now w s := by
  change s.put w.key (ofSlots.slot _ now w.key w.timed s) =
    s.put w.key (.written now w.value (w.ttl.or defaultTtl))
  unfold ofSlots.slot
  cases s.live? now w.key <;> rfl

theorem ofSlots_insertAll (items : List Write) (s : Table Slot) :
    (ofSlots (.perEntry defaultTtl)).insertAll now items s =
      TimedStore.putAll ⟨defaultTtl, none⟩ now items s := by
  unfold insertAll TimedStore.putAll
  induction items generalizing s with
  | nil => rfl
  | cons w items ih =>
    have hput := ofSlots_insert defaultTtl now w s
    exact (congrArg (insertAll _ now items) hput).trans (ih _)

theorem ofSlots_handle (r : ModernRequest) (env : Env) (s : Table Slot) :
    (ofSlots (.perEntry defaultTtl)).handle r env s =
      TimedStore.handle ⟨defaultTtl, none⟩ r env s := by
  cases r with
  | get _ key =>
    simp only [handle, TimedStore.handle, TimedStore.get, ofSlots]
    cases s.live? env.wall key <;> rfl
  | set _ w => exact congrArg (·, Answer.done, []) (ofSlots_insert defaultTtl env.wall w s)
  | add _ w =>
    simp only [handle, TimedStore.handle, TimedStore.putNew]
    cases hlive : s.live? env.wall w.key with
    | none =>
      rw [ofSlots_getOrInsert_of_none _ _ _ _ w.timed hlive]
      exact congrArg (·, Answer.done, []) (ofSlots_insert defaultTtl env.wall w s)
    | some slot =>
      rw [ofSlots_getOrInsert_of_some _ _ _ _ w.timed (by rw [hlive]; rfl)]
      rfl
  | delete | close => rfl
  | setMulti _ items =>
    exact congrArg (·, Answer.done, []) (ofSlots_insertAll defaultTtl env.wall items s)

/-- An unbounded timed store is the cache over a vault of slots. -/
theorem ofSlots_cache :
    (ofSlots (.perEntry defaultTtl)).cache = TimedStore.level ⟨defaultTtl, none⟩ := by
  have hhandle : (ofSlots (.perEntry defaultTtl)).handle =
      TimedStore.handle ⟨defaultTtl, none⟩ := by
    funext r env s
    exact ofSlots_handle defaultTtl r env s
  exact congrArg (Level.immediate (· == .multi)) hhandle

end TimedStore

end Vault

end CacheBridge
