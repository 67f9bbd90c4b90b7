import CacheBridge.Proofs.Deeds

/-!
Expiry at its instant. A prompt map throws out every entry whose deadline has come before it does
anything else; the lazy store leaves it where it is until somebody touches its key. Nobody can tell
the two apart: at every look from the last call on, what the store holds and has not expired is just
what the map holds.
-/

namespace CacheBridge

/-- Entries under keys, of which none outlives its deadline by a call. -/
structure PromptMap where
  entries : Key → Option Slot
  closed : Bool

namespace PromptMap

def fresh : PromptMap := ⟨fun _ => none, false⟩

/-- Throws out every entry whose deadline has come. -/
def purge (now : Nat) (m : PromptMap) : PromptMap :=
  { m with entries := fun key => (m.entries key).filter fun slot => slot.expires.all (now < ·) }

/-- The instant `ttl` after `now`; there is none without a TTL, or if it cannot be written. -/
def deadline (now : Nat) : Option Nat → Option Nat
  | none => none
  | some ttl => if now + ttl < Time.horizon then some (now + ttl) else none

def write (now : Nat) (w : Write) (m : PromptMap) : PromptMap :=
  { m with entries := fun key =>
      if key = w.key then some ⟨w.value, deadline now w.ttl⟩ else m.entries key }

/-- Writes where there is no entry. -/
def writeNew (now : Nat) (w : Write) (m : PromptMap) : PromptMap × Answer .legacy :=
  if (m.entries w.key).isSome then (m, .error .keyAlreadyExists) else (m.write now w, Answer.done)

def writeAll (now : Nat) (items : List Write) (m : PromptMap) : PromptMap :=
  items.foldl (fun m w => m.write now w) m

def read (key : Key) (m : PromptMap) : Answer .legacy :=
  match m.entries key with
  | some slot => .ok (.found slot.value)
  | none => .error .keyNotFound

def delete (key : Key) (m : PromptMap) : PromptMap :=
  { m with entries := fun k => if k = key then none else m.entries k }

def close (m : PromptMap) : PromptMap := if m.closed then m else ⟨fun _ => none, true⟩

/-- What a wait for the close has come to that was looked at in these environments. -/
def wait (timeout : Nat) (env : Env) (later : List Env) (m : PromptMap) :
    Option (Answer .legacy) :=
  if m.closed then some Answer.done
  else if (env :: later).any (Time.ring env.now timeout ≤ ·.now) then some (.error .timeout)
  else none

/-- A call: first of all the map is purged. -/
def serve (v : Visit .legacy) (m : PromptMap) : PromptMap × Option (Answer .legacy) :=
  let now := v.env.wall
  let m := m.purge now
  let whole (result : PromptMap × Answer .legacy) := (result.1, some result.2)
  match v.request with
  | .get key => (m, some (m.read key))
  | .set key value => (m.write now (.plain key value), some Answer.done)
  | .add key value => whole (m.writeNew now (.plain key value))
  | .delete key => (m.delete key, some Answer.done)
  | .setWithTtl w => (m.write now w, some Answer.done)
  | .addWithTtl w => whole (m.writeNew now w)
  | .setMulti items =>
    (m.writeAll now (items.map fun (key, value) => .plain key value), some Answer.done)
  | .setMultiWithTtl items => (m.writeAll now items, some Answer.done)
  | .closeAsync => (m.close, some Answer.done)
  | .waitForClose timeout => (m, m.wait timeout v.env v.later)

/-- Calls one after the other, and what each was told. -/
def serveAll (m : PromptMap) : List (Visit .legacy) → PromptMap × List (Option (Answer .legacy))
  | [] => (m, [])
  | v :: vs =>
    let (next, told) := m.serve v
    let (last, answers) := next.serveAll vs
    (last, told :: answers)

/-! ## What is seen of the map -/

theorem purged_iff (slot : Slot) (now : Nat) :
    slot.expires.all (now < ·) = !slot.expired now := by
  cases h : slot.expires with
  | none => simp [Slot.expired, h]
  | some t =>
    by_cases ht : t ≤ now
    · have hpast : ¬now < t := Nat.not_lt.mpr ht
      simp [Slot.expired, h, ht, hpast]
    · have hfuture : now < t := Nat.not_le.mp ht
      simp [Slot.expired, h, ht, hfuture]

theorem entries_purge (m : PromptMap) (now : Nat) (key : Key) :
    (m.purge now).entries key = (m.entries key).filter fun slot => !slot.expired now := by
  simp only [purge, purged_iff]

/-- Of two purges only the later one counts. -/
theorem purge_purge {now later : Nat} (h : now ≤ later) (m : PromptMap) :
    (m.purge now).purge later = m.purge later := by
  have hentries (key : Key) :
      ((m.purge now).purge later).entries key = (m.purge later).entries key := by
    rw [entries_purge, entries_purge, entries_purge]
    cases hslot : m.entries key with
    | none => rfl
    | some slot =>
      by_cases hexpired : slot.expired now = true
      · have hlater := Slot.expired_mono h hexpired
        simp [Option.filter, hexpired, hlater]
      · simp [Option.filter, hexpired]
  exact congrArg (PromptMap.mk · m.closed) (funext hentries)

/-- The slot that a write puts has the deadline that the map gives it. -/
theorem written_eq (now : Nat) (value : Bytes) (ttl : Option Nat) :
    Slot.written now value ttl = ⟨value, deadline now ttl⟩ := by
  cases ttl <;> rfl

end PromptMap

/-! ## The store beside the map -/

/-- At every look from `now` on the store shows the entries of the map. -/
structure LazyStore.Mirrors (now : Nat) (s : LazyStore.State) (m : PromptMap) : Prop where
  live : ∀ later, now ≤ later → ∀ key, s.slots.live? later key = (m.purge later).entries key
  phase : s.phase = if m.closed then .closed else .active

namespace LazyStore.Mirrors

open PromptMap

variable {now : Nat} {s : LazyStore.State} {m : PromptMap}

theorem fresh : Mirrors 0 LazyStore.fresh PromptMap.fresh :=
  ⟨fun _ _ _ => rfl, rfl⟩

theorem mono (h : Mirrors now s m) {later : Nat} (hl : now ≤ later) : Mirrors later s m :=
  ⟨fun t ht => h.live t (Nat.le_trans hl ht), h.phase⟩

/-- A purge of the map is not seen. -/
theorem purge (h : Mirrors now s m) : Mirrors now s (m.purge now) := by
  refine ⟨fun later hl key => ?_, h.phase⟩
  rw [purge_purge hl]
  exact h.live later hl key

/-- What the store shows now is what a purged map holds. -/
theorem entries (h : Mirrors now s m) (key : Key) :
    s.slots.live? now key = (m.purge now).entries key :=
  h.live now (Nat.le_refl _) key

theorem put (h : Mirrors now s m) (w : Write) :
    Mirrors now (LazyStore.put now w s) (m.write now w) := by
  refine ⟨fun later hl key => ?_, h.phase⟩
  have hkept := h.live later hl key
  rw [entries_purge] at hkept ⊢
  simp only [LazyStore.put, Table.live?_put, PromptMap.write, written_eq]
  by_cases hkey : key = w.key
  · rw [if_pos hkey, if_pos hkey]
  · rw [if_neg hkey, if_neg hkey]
    exact hkept

theorem putAll (h : Mirrors now s m) (items : List Write) :
    Mirrors now (LazyStore.putAll now items s) (m.writeAll now items) := by
  induction items generalizing s m with
  | nil => exact h
  | cons w items ih => exact ih (h.put w)

theorem remove (h : Mirrors now s m) (key : Key) :
    Mirrors now (LazyStore.delete key s) (m.delete key) := by
  refine ⟨fun later hl k => ?_, h.phase⟩
  have hkept := h.live later hl k
  rw [entries_purge] at hkept ⊢
  simp only [LazyStore.delete, Table.live?_remove, PromptMap.delete]
  by_cases hkey : k = key
  · rw [if_pos hkey, if_pos hkey]
    rfl
  · rw [if_neg hkey, if_neg hkey]
    exact hkept

/-- A conditional write finds its place free in the store exactly if it does in the purged map. -/
theorem putNew (h : Mirrors now s m) (w : Write) :
    Mirrors now (LazyStore.putNew now w s).1 ((m.purge now).writeNew now w).1 ∧
      (LazyStore.putNew now w s).2 = ((m.purge now).writeNew now w).2 := by
  have hlive := h.entries w.key
  unfold LazyStore.putNew PromptMap.writeNew
  rw [hlive]
  cases hslot : (m.purge now).entries w.key with
  | none => exact ⟨h.purge.put w, rfl⟩
  | some slot => exact ⟨h.purge, rfl⟩

/-- A read gives what the purged map holds, and whatever it takes out is seen no more anyway. -/
theorem get (h : Mirrors now s m) (key : Key) :
    Mirrors now (LazyStore.get now key s).1 (m.purge now) ∧
      (LazyStore.get now key s).2 = (m.purge now).read key := by
  obtain ⟨hanswer, hphase, halike⟩ := LazyStore.get_alike now key s
  refine ⟨⟨fun later hl k => ?_, hphase.trans h.phase⟩, ?_⟩
  · rw [purge_purge hl, ← h.live later hl k]
    exact halike later hl k trivial
  · rw [hanswer, TimedStore.get, h.entries key, PromptMap.read]
    cases (m.purge now).entries key <;> rfl

/-- Only the first close empties either. -/
theorem closeAsync (h : Mirrors now s m) : Mirrors now (LazyStore.closeAsync s).1 m.close := by
  obtain ⟨slots, phase⟩ := s
  have hphase := h.phase
  unfold LazyStore.closeAsync PromptMap.close
  by_cases hclosed : m.closed = true
  · rw [if_pos hclosed] at hphase
    cases (hphase : phase = .closed)
    rw [if_pos hclosed]
    exact h
  · rw [if_neg hclosed] at hphase
    cases (hphase : phase = .active)
    rw [if_neg hclosed]
    exact ⟨fun _ _ _ => rfl, rfl⟩

/-- A request other than a wait is answered at once, by the store as by the map. -/
theorem start {env : Env} (h : Mirrors env.wall s m) {r : LegacyRequest}
    (hr : ∀ timeout, r ≠ .waitForClose timeout) (later : List Env) :
    ∃ s' a es, LazyStore.level.start r env s = ⟨s', .answered a, es⟩ ∧
      Mirrors env.wall s' (m.serve ⟨r, env, later⟩).1 ∧ (m.serve ⟨r, env, later⟩).2 = some a := by
  have hp : Mirrors env.wall s (m.purge env.wall) := h.purge
  cases r with
  | get key =>
    obtain ⟨hnext, hanswer⟩ := h.get key
    exact ⟨_, _, _, rfl, hnext, congrArg some hanswer.symm⟩
  | set key value => exact ⟨_, _, _, rfl, hp.put (.plain key value), rfl⟩
  | add key value =>
    obtain ⟨hnext, hanswer⟩ := h.putNew (.plain key value)
    exact ⟨_, _, _, rfl, hnext, congrArg some hanswer.symm⟩
  | delete key => exact ⟨_, _, _, rfl, hp.remove key, rfl⟩
  | closeAsync => exact ⟨_, _, _, rfl, hp.closeAsync, rfl⟩
  | waitForClose timeout => exact absurd rfl (hr timeout)
  | setWithTtl w => exact ⟨_, _, _, rfl, hp.put w, rfl⟩
  | addWithTtl w =>
    obtain ⟨hnext, hanswer⟩ := h.putNew w
    exact ⟨_, _, _, rfl, hnext, congrArg some hanswer.symm⟩
  | setMultiWithTtl items => exact ⟨_, _, _, rfl, hp.putAll items, rfl⟩
  | setMulti items =>
    exact ⟨_, _, _, rfl, hp.putAll (items.map fun (key, value) => .plain key value), rfl⟩

end LazyStore.Mirrors

namespace LazyStore

/-- A wait at an open store is over when one of its looks finds that its time is up. -/
theorem goOn_wait {s : State} (hs : s.phase = .active) (ring : Nat) (env : Env) (later : List Env) :
    let turn := level.goOn later (tell s ((ClosedWait.till ring).look s.phase env.now))
    turn.state = s ∧ turn.progress.answer? =
      if (env :: later).any (ring ≤ ·.now) then some (.error .timeout) else none := by
  induction later generalizing env with
  | nil =>
    by_cases hring : ring ≤ env.now <;>
      simp [Level.goOn, hs, ClosedWait.look, ClosedWait.expired, tell, hring, Turn.answer,
        Turn.wait, Progress.answer?]
  | cons next later ih =>
    by_cases hring : ring ≤ env.now
    · simp [Level.goOn, hs, ClosedWait.look, ClosedWait.expired, tell, hring, Turn.answer,
        Progress.answer?]
    · have hlook : (ClosedWait.till ring).look s.phase env.now = .waiting (.till ring) := by
        simp [hs, ClosedWait.look, ClosedWait.expired, hring]
      have hnext := ih next
      rw [hlook, List.any_cons, decide_eq_false hring, Bool.false_or]
      exact hnext

variable {now : Nat} {s : State} {m : PromptMap}

/-- A call comes to the same at the store and at the map. -/
theorem Mirrors.serve (h : Mirrors now s m) {v : Visit .legacy} (hv : now ≤ v.env.wall) :
    Mirrors v.env.wall (level.serve v s).state (m.serve v).1 ∧
      (level.serve v s).progress.answer? = (m.serve v).2 := by
  have h := h.mono hv
  obtain ⟨r, env, later⟩ := v
  by_cases hr : ∃ timeout, r = .waitForClose timeout
  · obtain ⟨timeout, rfl⟩ := hr
    have hphase := h.phase
    by_cases hclosed : m.closed = true
    · rw [if_pos hclosed] at hphase
      have hstart : level.start (.waitForClose timeout) env s = .answer s Answer.done := by
        simp [level, LazyStore.start, ClosedWait.start, hphase, ClosedWait.look_closed, tell]
      unfold Level.serve
      rw [hstart, Level.goOn_answered _ _ rfl]
      exact ⟨h.purge, by simp [Turn.answer, Progress.answer?, PromptMap.serve, PromptMap.wait,
        PromptMap.purge, hclosed]⟩
    · rw [if_neg hclosed] at hphase
      obtain ⟨hstate, hanswer⟩ := goOn_wait hphase (Time.ring env.now timeout) env later
      refine ⟨?_, ?_⟩
      · exact hstate.symm ▸ h.purge
      · refine hanswer.trans ?_
        simp [PromptMap.serve, PromptMap.wait, PromptMap.purge, hclosed]
  · obtain ⟨s', a, es, hstart, hnext, hanswer⟩ :=
      h.start (fun timeout he => hr ⟨timeout, he⟩) later
    unfold Level.serve
    rw [hstart, Level.goOn_answered _ _ rfl]
    exact ⟨hnext, hanswer.symm⟩

/-- So do all calls, on a clock that does not go back. -/
theorem Mirrors.serveAll (h : Mirrors now s m) {visits : List (Visit .legacy)}
    (hvisits : ∀ v ∈ visits, now ≤ v.env.wall)
    (hforward : (visits.map (·.env.wall)).Pairwise (· ≤ ·)) :
    (level.serveAll visits s).answers = (m.serveAll visits).2 ∧
      ∀ last, now ≤ last → (∀ v ∈ visits, v.env.wall ≤ last) →
        Mirrors last (level.serveAll visits s).state (m.serveAll visits).1 := by
  induction visits generalizing now s m with
  | nil => exact ⟨rfl, fun last hlast _ => h.mono hlast⟩
  | cons v visits ih =>
    obtain ⟨hv, hforward⟩ := List.pairwise_cons.mp hforward
    obtain ⟨hnext, hanswer⟩ := h.serve (hvisits v List.mem_cons_self)
    obtain ⟨hanswers, hrest⟩ := ih hnext (fun v' hv' => hv _ (List.mem_map_of_mem hv')) hforward
    refine ⟨?_, ?_⟩
    · simp only [Level.serveAll, PromptMap.serveAll, hanswer, hanswers]
    · intro last _ hlast
      exact hrest last (hlast v List.mem_cons_self)
        fun v' hv' => hlast v' (List.mem_cons_of_mem _ hv')

/-- A read takes nothing out but what has expired, and puts nothing in. -/
theorem get?_get (wall : Nat) (key k : Key) (s : State) :
    (get wall key s).1.slots.get? k = s.slots.get? k ∨
      (get wall key s).1.slots.get? k = none ∧
        ∃ slot, s.slots.get? k = some slot ∧ slot.expired wall = true := by
  unfold get
  split
  · exact .inl rfl
  · next slot hslot =>
    split
    · next hexpired =>
      by_cases hk : k = key
      · subst hk
        exact .inr ⟨Table.get?_remove_self _ _, slot, hslot, hexpired⟩
      · exact .inl (Table.get?_remove_of_ne _ hk)
    · exact .inl rfl

/-- Calls of the legacy contract at a fresh lazy store, on a clock that does not go back. Each is
told what the prompt map tells; at every instant from then on the slots that have not expired are
the entries of the map, deadlines and all; and a read at that point, at whatever instant, takes out
no slot that has not expired. -/
theorem lazy_expiry_unseen (visits : List (Visit .legacy))
    (hforward : (visits.map (·.env.wall)).Pairwise (· ≤ ·)) :
    let store := level.serveAll visits LazyStore.fresh
    let prompt := PromptMap.fresh.serveAll visits
    store.answers = prompt.2 ∧
    (∀ now, (∀ v ∈ visits, v.env.wall ≤ now) → ∀ key,
      store.state.slots.live? now key = (prompt.1.purge now).entries key) ∧
    ∀ key env k,
      let after := (level.start (.get key) env store.state).state.slots
      after.get? k = store.state.slots.get? k ∨ after.get? k = none ∧
        ∃ slot, store.state.slots.get? k = some slot ∧ slot.expired env.wall = true := by
  intro store prompt
  obtain ⟨hanswers, hmirrors⟩ := Mirrors.fresh.serveAll (fun _ _ => Nat.zero_le _) hforward
  refine ⟨hanswers, ?_, ?_⟩
  · intro now hnow key
    exact (hmirrors now (Nat.zero_le _) hnow).entries key
  · intro key env k
    exact get?_get env.wall key k store.state

/-- A TTL of zero, one that runs out just when somebody looks, one that a failing add leaves as it
is, and one whose end cannot be written; then two closes with a write between them. -/
theorem lazy_expiry_unseen_dated :
    let visit (wall : Nat) (r : LegacyRequest) : Visit .legacy :=
      ⟨r, { now := 0, wall := wall, scopes := {} }, []⟩
    let visits : List (Visit .legacy) :=
      [visit 1 (.setMultiWithTtl
          [⟨"a", [1], some 0⟩, ⟨"b", [2], some 4⟩, ⟨"c", [3], some Time.horizon⟩]),
        visit 1 (.get "a"), visit 4 (.addWithTtl ⟨"b", [4], some 9⟩), visit 5 (.get "b"),
        visit 5 (.add "b" [5]), visit 6 (.get "c"), visit 6 .closeAsync, visit 6 (.get "c"),
        visit 6 (.set "a" [6]), visit 7 .closeAsync, visit 7 (.get "a")]
    let store := level.serveAll visits LazyStore.fresh
    (visits.map (·.env.wall)).Pairwise (· ≤ ·) ∧
      store.answers =
        [some Answer.done, some (.error .keyNotFound), some (.error .keyAlreadyExists),
          some (.error .keyNotFound), some Answer.done, some (.ok (.found [3])), some Answer.done,
          some (.error .keyNotFound), some Answer.done, some Answer.done, some (.ok (.found [6]))] ∧
      store.state.slots.live? 8 "a" = some ⟨[6], none⟩ := by
  intro visit visits store
  have hforward : (visits.map (·.env.wall)).Pairwise (· ≤ ·) := by
    simp [visits, visit]
  obtain ⟨hanswers, hlive, -⟩ := lazy_expiry_unseen visits hforward
  have hlast : ∀ v ∈ visits, v.env.wall ≤ 8 := by
    simp [visits, visit]
  refine ⟨hforward, hanswers.trans ?_, (hlive 8 hlast "a").trans rfl⟩
  simp [visits, visit, PromptMap.serveAll, PromptMap.serve, PromptMap.fresh, PromptMap.purge,
    PromptMap.read, PromptMap.write, PromptMap.writeNew, PromptMap.writeAll, PromptMap.close,
    PromptMap.deadline, Write.plain, Option.filter, Time.horizon, Time.second]

end LazyStore

end CacheBridge
