import CacheBridge.Proofs.Vault

/-!
What an unbounded timed store remembers, told from its history. The history of a store is what
befell its entries, the latest first; a conditional write that failed left no trace there. What
befell a key last decides: if something was stored, it is there until its own TTL is over, or the
default TTL if it came with none, counted from when it was stored. So a default TTL is nothing but
the TTL of every write that has none of its own.
-/

namespace CacheBridge

/-- What befell the entries of a store. -/
inductive Happening where
  | stored (wall : Nat) (w : Write)
  | deleted (key : Key)
  | emptied
  deriving DecidableEq

namespace Happening

def concerns (key : Key) : Happening → Bool
  | stored _ w => w.key == key
  | deleted k => k == key
  | emptied => true

/-- What happened in a call that was answered like this, the latest first. -/
def ofCall (v : Visit .modern) (answer : Option (Answer .modern)) : List Happening :=
  match v.request with
  | .get _ _ => []
  | .set _ w => [stored v.env.wall w]
  | .add _ w => match answer with
    | some (.ok _) => [stored v.env.wall w]
    | _ => []
  | .delete _ key => [deleted key]
  | .setMulti _ items => (items.map (stored v.env.wall)).reverse
  | .close _ => [emptied]

/-- What happened in a number of calls, the latest first. -/
def ofCalls : List (Visit .modern) → List (Option (Answer .modern)) → List Happening
  | v :: visits, answer :: answers => ofCalls visits answers ++ ofCall v answer
  | _, _ => []

end Happening

/-- The last that befell the key was that the value was stored under it, and its time is not
over. -/
def Remembered (defaultTtl : Option Nat) (history : List Happening) (now : Nat) (key : Key)
    (value : Bytes) : Prop :=
  ∃ wall w, history.find? (·.concerns key) = some (.stored wall w) ∧ w.value = value ∧
    InTime (w.ttl.or defaultTtl) wall now

namespace TimedStore

/-- The slot that a happening leaves under the keys it concerns. -/
def slotAfter (defaultTtl : Option Nat) : Happening → Option Slot
  | .stored wall w => some (.written wall w.value (w.ttl.or defaultTtl))
  | .deleted _ | .emptied => none

/-- Under each key there stands what befell it last. -/
def Tells (defaultTtl : Option Nat) (history : List Happening) (s : State) : Prop :=
  ∀ key, s.get? key = (history.find? (·.concerns key)).bind (slotAfter defaultTtl)

namespace Tells

variable {defaultTtl : Option Nat} {history : List Happening} {s : State} {wall : Nat}

theorem empty (defaultTtl : Option Nat) : Tells defaultTtl [] {} := fun _ => rfl

/-- One happening more: the keys that it concerns have what it leaves, the others what they had. -/
theorem cons (h : Tells defaultTtl history s) {last : Happening} {after : State}
    (hlast : ∀ key, last.concerns key = true → after.get? key = slotAfter defaultTtl last)
    (hothers : ∀ key, last.concerns key = false → after.get? key = s.get? key) :
    Tells defaultTtl (last :: history) after := by
  intro key
  rw [List.find?_cons]
  cases hconcerns : last.concerns key with
  | true => exact hlast key hconcerns
  | false => exact (hothers key hconcerns).trans (h key)

theorem put (h : Tells defaultTtl history s) (w : Write) :
    Tells defaultTtl (.stored wall w :: history) (TimedStore.put ⟨defaultTtl, none⟩ wall w s) := by
  refine h.cons (fun key hkey => ?_) (fun key hkey => ?_)
  · cases of_decide_eq_true hkey
    exact Table.get?_put_self ..
  · exact Table.get?_put_of_ne _ _ (Ne.symm (of_decide_eq_false hkey))

theorem putAll (h : Tells defaultTtl history s) (items : List Write) :
    Tells defaultTtl ((items.map (.stored wall)).reverse ++ history)
      (TimedStore.putAll ⟨defaultTtl, none⟩ wall items s) := by
  induction items generalizing history s with
  | nil => exact h
  | cons w items ih =>
    have hfirst : Tells defaultTtl (.stored wall w :: history)
        (TimedStore.put ⟨defaultTtl, none⟩ wall w s) := h.put w
    rw [List.map_cons, List.reverse_cons, List.append_assoc, List.singleton_append]
    exact ih hfirst

theorem remove (h : Tells defaultTtl history s) (key : Key) :
    Tells defaultTtl (.deleted key :: history) (s.remove key) := by
  refine h.cons (fun k hkey => ?_) (fun k hkey => ?_)
  · cases of_decide_eq_true hkey
    exact Table.get?_remove_self ..
  · exact Table.get?_remove_of_ne _ (Ne.symm (of_decide_eq_false hkey))

/-- A look at the store finds what is remembered. -/
theorem live?_iff (h : Tells defaultTtl history s) (now : Nat) (key : Key) (value : Bytes) :
    (∃ slot, s.live? now key = some slot ∧ slot.value = value) ↔
      Remembered defaultTtl history now key value := by
  constructor
  · rintro ⟨slot, hlive, rfl⟩
    obtain ⟨hslot, htime⟩ := Table.live?_eq_some_iff.mp hlive
    rw [h key] at hslot
    obtain ⟨last, hlast, hafter⟩ := Option.bind_eq_some_iff.mp hslot
    cases last with
    | stored wall w =>
      cases hafter
      exact ⟨wall, w, hlast, rfl, (Slot.expired_written_iff ..).mp htime⟩
    | deleted | emptied => cases hafter
  · rintro ⟨wall, w, hlast, rfl, htime⟩
    refine ⟨.written wall w.value (w.ttl.or defaultTtl), ?_, rfl⟩
    rw [Table.live?_eq_some_iff, h key, hlast]
    exact ⟨rfl, (Slot.expired_written_iff ..).mpr htime⟩

/-- Nothing is found exactly if nothing is remembered. -/
theorem live?_eq_none_iff (h : Tells defaultTtl history s) (now : Nat) (key : Key) :
    s.live? now key = none ↔ ¬∃ value, Remembered defaultTtl history now key value := by
  rw [Option.eq_none_iff_forall_ne_some]
  constructor
  · rintro hnone ⟨value, hvalue⟩
    obtain ⟨slot, hslot, -⟩ := (h.live?_iff now key value).mpr hvalue
    exact hnone slot hslot
  · intro hnone slot hslot
    exact hnone ⟨slot.value, (h.live?_iff now key slot.value).mp ⟨slot, hslot, rfl⟩⟩

theorem get_eq_found_iff (h : Tells defaultTtl history s) (now : Nat) (key : Key) (value : Bytes) :
    TimedStore.get now key s = .ok (.found value) ↔
      Remembered defaultTtl history now key value := by
  rw [← h.live?_iff]
  unfold TimedStore.get
  cases s.live? now key with
  | none => simp
  | some slot => simp

theorem get_eq_keyNotFound_iff (h : Tells defaultTtl history s) (now : Nat) (key : Key) :
    TimedStore.get now key s = .error .keyNotFound ↔
      ¬∃ value, Remembered defaultTtl history now key value := by
  rw [← h.live?_eq_none_iff]
  unfold TimedStore.get
  cases s.live? now key with
  | none => simp
  | some slot => simp

/-- A conditional write succeeds where nothing is remembered, and elsewhere it leaves all as it
is. -/
theorem putNew (h : Tells defaultTtl history s) (policy : Policy) (now : Nat) (w : Write) :
    ((¬∃ value, Remembered defaultTtl history now w.key value) →
      (TimedStore.putNew policy now w s).2 = Answer.done) ∧
    ((∃ value, Remembered defaultTtl history now w.key value) →
      TimedStore.putNew policy now w s = (s, .error .keyAlreadyExists)) := by
  have hnone := h.live?_eq_none_iff now w.key
  unfold TimedStore.putNew
  cases hlive : s.live? now w.key with
  | none => exact ⟨fun _ => rfl, fun hremembered => absurd hremembered (hnone.mp hlive)⟩
  | some slot =>
    refine ⟨fun hforgotten => ?_, fun _ => rfl⟩
    rw [hnone.mpr hforgotten] at hlive
    cases hlive

/-- What happened in a call is what its answer says did. -/
theorem handle (h : Tells defaultTtl history s) (v : Visit .modern) :
    let done := TimedStore.handle ⟨defaultTtl, none⟩ v.request v.env s
    Tells defaultTtl (Happening.ofCall v (some done.2.1) ++ history) done.1 := by
  obtain ⟨r, env, later⟩ := v
  cases r with
  | get _ key => exact h
  | set _ w => exact h.put w
  | add _ w =>
    cases hlive : s.live? env.wall w.key with
    | none =>
      simp only [TimedStore.handle, TimedStore.putNew, hlive]
      exact h.put w
    | some slot =>
      simp only [TimedStore.handle, TimedStore.putNew, hlive]
      exact h
  | delete _ key => exact h.remove key
  | setMulti _ items => exact h.putAll items
  | close _ => exact fun _ => rfl

/-- Calls one after the other make one history. -/
theorem serveAll (h : Tells defaultTtl history s) (visits : List (Visit .modern)) :
    let past := (level ⟨defaultTtl, none⟩).serveAll visits s
    Tells defaultTtl (Happening.ofCalls visits past.answers ++ history) past.state := by
  induction visits generalizing history s with
  | nil => exact h
  | cons v visits ih =>
    have hrest := ih (h.handle v)
    simp only [Level.serveAll, level, Level.serve_immediate, Happening.ofCalls, List.append_assoc]
    exact hrest

end Tells

end TimedStore

/-! ## The default TTL written out -/

/-- The write with the default TTL, if it has none of its own. -/
def Write.dated (defaultTtl : Option Nat) (w : Write) : Write :=
  { w with ttl := w.ttl.or defaultTtl }

/-- The request with the default TTL on every write that has none of its own. -/
def ModernRequest.dated (defaultTtl : Option Nat) : ModernRequest → ModernRequest
  | .set scope w => .set scope (w.dated defaultTtl)
  | .add scope w => .add scope (w.dated defaultTtl)
  | .setMulti scope items => .setMulti scope (items.map (·.dated defaultTtl))
  | r => r

def Visit.dated (defaultTtl : Option Nat) (v : Visit .modern) : Visit .modern :=
  ⟨v.request.dated defaultTtl, v.env, v.later⟩

namespace TimedStore

variable (defaultTtl : Option Nat)

theorem put_dated (wall : Nat) (w : Write) (s : State) :
    put .unbounded wall (w.dated defaultTtl) s = put ⟨defaultTtl, none⟩ wall w s := by
  rw [put_unbounded]
  rfl

theorem putAll_dated (wall : Nat) (items : List Write) (s : State) :
    putAll .unbounded wall (items.map (·.dated defaultTtl)) s =
      putAll ⟨defaultTtl, none⟩ wall items s := by
  unfold putAll
  rw [List.foldl_map]
  simp only [put_dated]

theorem handle_dated (r : ModernRequest) (env : Env) (s : State) :
    handle .unbounded (r.dated defaultTtl) env s = handle ⟨defaultTtl, none⟩ r env s := by
  cases r with
  | get | delete | close => rfl
  | set _ w => simp only [handle, ModernRequest.dated, put_dated]
  | setMulti _ items => simp only [handle, ModernRequest.dated, putAll_dated]
  | add _ w =>
    have hkey : (w.dated defaultTtl).key = w.key := rfl
    simp only [handle, ModernRequest.dated, putNew, put_dated, hkey]

theorem serveAll_dated (visits : List (Visit .modern)) (s : State) :
    (level .unbounded).serveAll (visits.map (·.dated defaultTtl)) s =
      (level ⟨defaultTtl, none⟩).serveAll visits s := by
  induction visits generalizing s with
  | nil => rfl
  | cons v visits ih =>
    have hcall : (level .unbounded).serve (v.dated defaultTtl) s =
        (level ⟨defaultTtl, none⟩).serve v s := by
      rw [level, level, Level.serve_immediate, Level.serve_immediate, Visit.dated, handle_dated]
    simp only [List.map_cons, Level.serveAll, hcall, ih]

/-- An unbounded timed store after any calls, whatever its default TTL, and the next call. A read at
this instant finds a value exactly if the value is remembered, and finds nothing otherwise. An add
succeeds exactly if nothing is remembered under its key; if it fails, it leaves the store as it was.
All of the calls come to the same as at a store without a default TTL that is told it with every
write that has no TTL of its own. And whatever vault the entries are kept in, as long as it honours
the lifetimes that it is told, the cache over it gives the answers of the store. -/
theorem default_ttl_counts (defaultTtl : Option Nat) (visits : List (Visit .modern)) :
    let store := level ⟨defaultTtl, none⟩
    let past := store.serveAll visits {}
    let remembered := Remembered defaultTtl (Happening.ofCalls visits past.answers)
    (∀ scope key env later,
      let turn := store.serve ⟨.get scope key, env, later⟩ past.state
      turn.state = past.state ∧
      (∀ value, turn.progress = .answered (.ok (.found value)) ↔ remembered env.wall key value) ∧
      (turn.progress = .answered (.error .keyNotFound) ↔ ¬∃ value, remembered env.wall key value)) ∧
    (∀ scope w env later,
      let turn := store.serve ⟨.add scope w, env, later⟩ past.state
      (turn.progress = .answered Answer.done ↔ ¬∃ value, remembered env.wall w.key value) ∧
      ((∃ value, remembered env.wall w.key value) →
        turn.progress = .answered (.error .keyAlreadyExists) ∧ turn.state = past.state)) ∧
    (level .unbounded).serveAll (visits.map (·.dated defaultTtl)) {} = past ∧
    ∀ vault : Vault, vault.Honours (.perEntry defaultTtl) →
      (visits.map (·.env.wall)).Pairwise (· ≤ ·) →
      (vault.cache.serveAll visits vault.empty).answers = past.answers := by
  intro store past remembered
  have htells : Tells defaultTtl (Happening.ofCalls visits past.answers) past.state := by
    have hrun := (Tells.empty defaultTtl).serveAll visits
    exact List.append_nil (Happening.ofCalls visits past.answers) ▸ hrun
  refine ⟨?_, ?_, serveAll_dated defaultTtl visits {}, ?_⟩
  · intro scope key env later turn
    have hturn : turn = ⟨past.state, .answered (get env.wall key past.state), []⟩ :=
      Level.serve_immediate (g := .modern) _ _ ⟨.get scope key, env, later⟩ past.state
    simp only [hturn, Progress.answered.injEq]
    exact ⟨trivial, htells.get_eq_found_iff env.wall key,
      htells.get_eq_keyNotFound_iff env.wall key⟩
  · intro scope w env later turn
    have hturn : turn =
        let written := putNew ⟨defaultTtl, none⟩ env.wall w past.state
        ⟨written.1, .answered written.2, []⟩ :=
      Level.serve_immediate (g := .modern) _ _ ⟨.add scope w, env, later⟩ past.state
    simp only [hturn, Progress.answered.injEq]
    obtain ⟨hfree, htaken⟩ := htells.putNew ⟨defaultTtl, none⟩ env.wall w
    by_cases hremembered : ∃ value, remembered env.wall w.key value
    · rw [htaken hremembered]
      exact ⟨⟨nofun, fun hn => absurd hremembered hn⟩, fun _ => ⟨rfl, rfl⟩⟩
    · exact ⟨⟨fun _ => hremembered, fun _ => hfree hremembered⟩, fun h => absurd h hremembered⟩
  · intro vault hvault hforward
    exact (Vault.Pictured.empty hvault 0).serveAll hvault (fun _ _ => Nat.zero_le _) hforward

/-- With a default TTL of ten, in a vault of slots. A TTL of zero is one like any other; a write
without a TTL has ten, of which it counts all, and nothing of the TTL before it. -/
theorem default_ttl_counts_anew :
    let visit (wall : Nat) (r : ModernRequest) : Visit .modern :=
      ⟨r, { now := 0, wall := wall, scopes := {} }, []⟩
    let visits : List (Visit .modern) :=
      [visit 1 (.set .background ⟨"a", [1], some 0⟩), visit 1 (.get .background "a"),
        visit 1 (.add .background ⟨"a", [2], some 50⟩), visit 2 (.add .background ⟨"a", [3], none⟩),
        visit 3 (.set .background ⟨"a", [4], none⟩), visit 12 (.get .background "a"),
        visit 13 (.get .background "a"), visit 13 (.add .background ⟨"a", [5], none⟩)]
    let vault := Vault.ofSlots (.perEntry (some 10))
    let store := level ⟨some 10, none⟩
    let past := store.serveAll visits {}
    let taken := store.serve (visit 14 (.add .background ⟨"a", [6], none⟩)) past.state
    (vault.cache.serveAll visits vault.empty).answers =
      [some Answer.done, some (.error .keyNotFound), some Answer.done,
        some (.error .keyAlreadyExists), some Answer.done, some (.ok (.found [4])),
        some (.error .keyNotFound), some Answer.done] ∧
      (taken.progress = .answered (.error .keyAlreadyExists) ∧ taken.state = past.state) := by
  intro visit visits vault store past taken
  have hforward : (visits.map (·.env.wall)).Pairwise (· ≤ ·) := by
    simp [visits, visit]
  have hanswers : past.answers =
      [some Answer.done, some (.error .keyNotFound), some Answer.done,
        some (.error .keyAlreadyExists), some Answer.done, some (.ok (.found [4])),
        some (.error .keyNotFound), some Answer.done] := rfl
  have hremembered : ∃ value,
      Remembered (some 10) (Happening.ofCalls visits past.answers) 14 "a" value := by
    rw [hanswers]
    refine ⟨[5], 13, ⟨"a", [5], none⟩, rfl, rfl, ?_⟩
    simp [InTime]
  obtain ⟨-, hadd, -, hvault⟩ := default_ttl_counts (some 10) visits
  exact ⟨(hvault vault (Vault.ofSlots_honours _) hforward).trans hanswers,
    (hadd .background ⟨"a", [6], none⟩ _ []).2 hremembered⟩

end TimedStore

end CacheBridge
