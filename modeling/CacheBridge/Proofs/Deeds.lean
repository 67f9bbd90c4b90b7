import CacheBridge.Proofs.Passage
import CacheBridge.Store.Lazy
import CacheBridge.Store.Timed

/-!
What data calls do to a store. A deed is a data request stripped of everything that does not matter
to the entries: the scope that came with it, and the way in which it says that there is no TTL. Both
stores do the same deed in the same way, as far as looks from then on can tell, and a tower hands on
the deed that it is asked for.
-/

namespace CacheBridge

namespace Table

/-- Two tables that show the same entries under some keys, at every look from `wall` on. -/
def AlikeOn (keys : Key → Prop) (wall : Nat) (a b : Table Slot) : Prop :=
  ∀ later, wall ≤ later → ∀ key, keys key → a.live? later key = b.live? later key

/-- Two tables that show the same entries at every look from `wall` on. -/
abbrev Alike (wall : Nat) (a b : Table Slot) : Prop := AlikeOn (fun _ => True) wall a b

namespace AlikeOn

variable {keys : Key → Prop} {wall : Nat} {a b c : Table Slot}

theorem refl (a : Table Slot) : AlikeOn keys wall a a := fun _ _ _ _ => rfl

theorem trans (h : AlikeOn keys wall a b) (h' : AlikeOn keys wall b c) : AlikeOn keys wall a c :=
  fun later hl key hk => (h later hl key hk).trans (h' later hl key hk)

theorem mono {later : Nat} (h : AlikeOn keys wall a b) (hl : wall ≤ later) :
    AlikeOn keys later a b :=
  fun t ht key hk => h t (Nat.le_trans hl ht) key hk

theorem put (h : AlikeOn keys wall a b) (k : Key) (s : Slot) :
    AlikeOn keys wall (a.put k s) (b.put k s) := by
  intro later hl key hk
  simp only [live?_put, h later hl key hk]

theorem remove (h : AlikeOn keys wall a b) (k : Key) :
    AlikeOn keys wall (a.remove k) (b.remove k) := by
  intro later hl key hk
  simp only [live?_remove, h later hl key hk]

/-- A write under another key cannot be seen. -/
theorem of_put {k : Key} (hk : ¬keys k) (s : Slot) : AlikeOn keys wall (a.put k s) a := by
  intro later hl key hkey
  have hne : key ≠ k := fun he => hk (he ▸ hkey)
  rw [live?_put, if_neg hne]

theorem of_remove {k : Key} (hk : ¬keys k) : AlikeOn keys wall (a.remove k) a := by
  intro later hl key hkey
  have hne : key ≠ k := fun he => hk (he ▸ hkey)
  rw [live?_remove, if_neg hne]

/-- What has expired may be taken out. -/
theorem of_remove_expired {k : Key} {s : Slot} (hk : a.get? k = some s)
    (he : s.expired wall = true) : AlikeOn keys wall (a.remove k) a :=
  fun _ hl key _ => live?_remove_expired hk (Slot.expired_mono hl he) key

end AlikeOn

end Table

/-- What a request does to the entries, as a modern request under the endless scope. -/
def deed? : {g : Generation} → Request g → Option ModernRequest
  | .modern, r => match r with
    | .get _ key => some (.get .background key)
    | .set _ w => some (.set .background w)
    | .add _ w => some (.add .background w)
    | .delete _ key => some (.delete .background key)
    | .setMulti _ items => some (.setMulti .background items)
    | .close _ => none
  | .legacy, r => match r with
    | .get key => some (.get .background key)
    | .set key value => some (.set .background (.plain key value))
    | .add key value => some (.add .background (.plain key value))
    | .delete key => some (.delete .background key)
    | .setWithTtl w => some (.set .background w)
    | .addWithTtl w => some (.add .background w)
    | .setMulti items =>
      some (.setMulti .background (items.map fun (key, value) => .plain key value))
    | .setMultiWithTtl items => some (.setMulti .background items)
    | .closeAsync | .waitForClose _ => none

/-- The keys that a request is about. -/
def ModernRequest.keys : ModernRequest → List Key
  | .get _ key | .delete _ key => [key]
  | .set _ w | .add _ w => [w.key]
  | .setMulti _ items => items.map (·.key)
  | .close _ => []

/-! ## Deeds at the timed store -/

namespace TimedStore

/-- No default TTL and no bound on the number of entries. -/
def Policy.unbounded : Policy := ⟨none, none⟩

variable {policy : Policy} {keys : Key → Prop} {wall : Nat} {a b : State}

theorem put_alike (h : Table.AlikeOn keys wall a b) (w : Write) :
    Table.AlikeOn keys wall (put policy wall w a) (put policy wall w b) := by
  unfold put
  split
  · exact h.put w.key _
  · exact h

theorem putAll_alike (h : Table.AlikeOn keys wall a b) (items : List Write) :
    Table.AlikeOn keys wall (putAll policy wall items a) (putAll policy wall items b) := by
  unfold putAll
  induction items generalizing a b with
  | nil => exact h
  | cons w items ih => exact ih (put_alike h w)

/-- A deed under some of the keys is done alike, and answered alike, to tables that look alike
there. -/
theorem handle_alike {env : Env} (h : Table.AlikeOn keys env.wall a b) {r : ModernRequest}
    (hr : ∀ key ∈ r.keys, keys key) :
    Table.AlikeOn keys env.wall (handle policy r env a).1 (handle policy r env b).1 ∧
      (handle policy r env a).2.1 = (handle policy r env b).2.1 := by
  have hnow (key : Key) (hk : key ∈ r.keys) : a.live? env.wall key = b.live? env.wall key :=
    h env.wall (Nat.le_refl _) key (hr key hk)
  cases r with
  | get _ key => exact ⟨h, by simp only [handle, get, hnow key List.mem_cons_self]⟩
  | set _ w => exact ⟨put_alike h w, rfl⟩
  | add _ w =>
    simp only [handle, putNew, hnow w.key List.mem_cons_self]
    split
    · exact ⟨put_alike h w, rfl⟩
    · exact ⟨h, rfl⟩
  | delete _ key => exact ⟨h.remove key, rfl⟩
  | setMulti _ items => exact ⟨putAll_alike h items, rfl⟩
  | close _ => exact ⟨.refl _, rfl⟩

/-- Of its surroundings a deed sees the wall clock alone. -/
theorem handle_wall {env env' : Env} (h : env.wall = env'.wall) (r : ModernRequest) (s : State) :
    handle policy r env s = handle policy r env' s := by
  cases r <;> simp only [handle, h]

theorem handle_deed (policy : Policy) {r d : ModernRequest} (h : deed? (g := .modern) r = some d)
    (env : Env) (s : State) : handle policy r env s = handle policy d env s := by
  cases r <;> cases h <;> rfl

theorem put_unbounded (w : Write) (s : State) :
    put .unbounded wall w s = s.put w.key (.written wall w.value w.ttl) := by
  simp [put, Policy.unbounded, Policy.keeps, Policy.effective]

end TimedStore

/-! ## Deeds at the lazy store -/

namespace LazyStore

variable {wall : Nat} {s : State}

theorem put_slots (w : Write) (s : State) :
    put wall w s = ⟨TimedStore.put .unbounded wall w s.slots, s.phase⟩ := by
  rw [TimedStore.put_unbounded]
  rfl

theorem putAll_slots (items : List Write) (s : State) :
    putAll wall items s = ⟨TimedStore.putAll .unbounded wall items s.slots, s.phase⟩ := by
  unfold putAll TimedStore.putAll
  induction items generalizing s with
  | nil => rfl
  | cons w items ih =>
    simp only [List.foldl_cons]
    rw [put_slots, ih]

theorem putNew_slots (w : Write) (s : State) :
    putNew wall w s =
      let (slots, a) := TimedStore.putNew .unbounded wall w s.slots
      (⟨slots, s.phase⟩, a.as .legacy) := by
  unfold putNew TimedStore.putNew
  cases s.slots.live? wall w.key with
  | none => exact congrArg (·, Answer.done) (put_slots w s)
  | some slot => rfl

/-- A read that takes an expired entry out leaves what looks like the same entries. -/
theorem get_alike (wall : Nat) (key : Key) (s : State) :
    (get wall key s).2 = (TimedStore.get wall key s.slots).as .legacy ∧
      (get wall key s).1.phase = s.phase ∧
      Table.Alike wall (get wall key s).1.slots s.slots := by
  unfold TimedStore.get
  cases hslot : s.slots.get? key with
  | none =>
    have hget : get wall key s = (s, .error .keyNotFound) := by simp [get, hslot]
    have hlive : s.slots.live? wall key = none := by simp [Table.live?, hslot]
    rw [hget, hlive]
    exact ⟨rfl, rfl, .refl _⟩
  | some slot =>
    cases hexpired : slot.expired wall with
    | true =>
      have hget : get wall key s =
          ({ s with slots := s.slots.remove key }, .error .keyNotFound) := by
        simp [get, hslot, hexpired]
      have hlive : s.slots.live? wall key = none := by
        simp [Table.live?, hslot, Option.filter, hexpired]
      rw [hget, hlive]
      exact ⟨rfl, rfl, .of_remove_expired hslot hexpired⟩
    | false =>
      have hget : get wall key s = (s, .ok (.found slot.value)) := by simp [get, hslot, hexpired]
      have hlive : s.slots.live? wall key = some slot :=
        Table.live?_eq_some_iff.mpr ⟨hslot, hexpired⟩
      rw [hget, hlive]
      exact ⟨rfl, rfl, .refl _⟩

end LazyStore

end CacheBridge
