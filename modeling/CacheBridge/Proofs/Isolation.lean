import CacheBridge.Proofs.Engines

/-!
Clients that keep to their own keys. Two clients with no key in common share a cache without
noticing: whatever one of them reads, writes or deletes, and whatever a read or a conditional write
of his takes out because it has expired, the entries under the keys of the other look the same at
every later instant. So each is told what he would be told alone.
-/

namespace CacheBridge

/-! ## Deeds elsewhere -/

namespace TimedStore

variable {policy : Policy} {keys : Key → Prop} {wall : Nat}

theorem put_elsewhere {w : Write} (hw : ¬keys w.key) (s : State) :
    Table.AlikeOn keys wall (put policy wall w s) s := by
  unfold put
  split
  · exact .of_put hw _
  · exact .refl s

theorem putAll_elsewhere {items : List Write} (hitems : ∀ w ∈ items, ¬keys w.key) (s : State) :
    Table.AlikeOn keys wall (putAll policy wall items s) s := by
  unfold putAll
  induction items generalizing s with
  | nil => exact .refl s
  | cons w items ih =>
    have hrest := ih (fun w' hw' => hitems w' (List.mem_cons_of_mem _ hw')) (put policy wall w s)
    exact hrest.trans (put_elsewhere (hitems w List.mem_cons_self) s)

/-- A deed under other keys cannot be seen. -/
theorem handle_elsewhere {env : Env} {r d : ModernRequest} (h : deed? (g := .modern) r = some d)
    (hr : ∀ key ∈ r.keys, ¬keys key) (s : State) :
    Table.AlikeOn keys env.wall (handle policy r env s).1 s := by
  cases r with
  | get _ key => exact .refl s
  | set _ w => exact put_elsewhere (hr w.key List.mem_cons_self) s
  | add _ w =>
    simp only [handle, putNew]
    split
    · exact put_elsewhere (hr w.key List.mem_cons_self) s
    · exact .refl s
  | delete _ key => exact .of_remove (hr key List.mem_cons_self)
  | setMulti _ items => exact putAll_elsewhere (fun w hw => hr w.key (List.mem_map_of_mem hw)) s
  | close _ => cases h

end TimedStore

/-- What a deed does is a deed again. -/
theorem deed?_deed {g : Generation} {r : Request g} {d : ModernRequest} (h : deed? r = some d) :
    deed? (g := .modern) d = some d := by
  cases g <;> cases r <;> cases h <;> rfl

namespace Tower

section Engine

variable {v : Vault} {defaultTtl : Option Nat} (hv : v.Honours (.perEntry defaultTtl))
  {b g : Generation} {t : Tower b g} {s s' : t.State (Engine.State v b) (Engine.Call b)}
  {slots slots' : Table Slot}

/-! ## One call -/

section Call

variable {call : Visit g} {d : ModernRequest} (h : deed? call.request = some d)

include hv h

/-- A visit for a deed is over when it has begun, and the entries look as after the deed. -/
theorem serve_deed (hs : Engine.Shows v call.env.wall b (t.bottom s) slots) :
    let turn := (t.level (Engine.level v b)).serve call s
    let done := Engine.done (Engine.ruling defaultTtl b) d call.env slots
    turn.progress.answer? = some (done.2.as g) ∧
      Engine.Shows v call.env.wall b (t.bottom turn.state) done.1 := by
  obtain ⟨x, es, hstart, hdid, -⟩ := t.start_deed hv h hs
  unfold Level.serve
  rw [hstart, Level.goOn_answered _ _ rfl]
  refine ⟨rfl, ?_⟩
  change Engine.Shows v call.env.wall b (t.bottom (t.replace s x)) _
  rw [bottom_replace]
  exact hdid

variable {keys : Key → Prop}

/-- A deed under a client's keys goes alike where the entries under them look alike. -/
theorem serve_alike (hd : ∀ key ∈ d.keys, keys key)
    (hs : Engine.Shows v call.env.wall b (t.bottom s) slots)
    (hs' : Engine.Shows v call.env.wall b (t.bottom s') slots')
    (halike : Table.AlikeOn keys call.env.wall slots slots') :
    let turn := (t.level (Engine.level v b)).serve call s
    let turn' := (t.level (Engine.level v b)).serve call s'
    turn.progress.answer? = turn'.progress.answer? ∧
      ∃ next next', Engine.Shows v call.env.wall b (t.bottom turn.state) next ∧
        Engine.Shows v call.env.wall b (t.bottom turn'.state) next' ∧
        Table.AlikeOn keys call.env.wall next next' := by
  obtain ⟨hanswer, hentries⟩ := serve_deed hv h hs
  obtain ⟨hanswer', hentries'⟩ := serve_deed hv h hs'
  obtain ⟨hdone, hsame⟩ :
      Table.AlikeOn keys call.env.wall
        (Engine.done (Engine.ruling defaultTtl b) d call.env slots).1
        (Engine.done (Engine.ruling defaultTtl b) d call.env slots').1 ∧ _ :=
    TimedStore.handle_alike halike hd
  refine ⟨?_, _, _, hentries, hentries', hdone⟩
  rw [hanswer, hanswer']
  exact congrArg (fun a => some (Answer.as g a)) hsame

/-- A deed under other keys leaves the entries under a client's keys as they look. -/
theorem serve_elsewhere (hd : ∀ key ∈ d.keys, ¬keys key)
    (hs : Engine.Shows v call.env.wall b (t.bottom s) slots) :
    let turn := (t.level (Engine.level v b)).serve call s
    ∃ next, Engine.Shows v call.env.wall b (t.bottom turn.state) next ∧
      Table.AlikeOn keys call.env.wall next slots := by
  obtain ⟨-, hentries⟩ := serve_deed hv h hs
  exact ⟨_, hentries, TimedStore.handle_elsewhere (deed?_deed h) hd slots⟩

end Call

end Engine

/-! ## Any number of calls -/

section Clients

variable {ι : Type} {b g : Generation}

/-- Every client calls for deeds under keys of his own. -/
def KeepsTo (keys : ι → Key → Prop) (calls : List (ι × Visit g)) : Prop :=
  ∀ call ∈ calls, ∃ d, deed? call.2.request = some d ∧ ∀ key ∈ d.keys, keys call.1 key

/-- The clock goes forward from call to call. -/
def Forward (calls : List (ι × Visit g)) : Prop :=
  (calls.map fun call => call.2.env.wall).Pairwise (· ≤ ·)

/-- The calls of a client. -/
def callsOf [DecidableEq ι] (i : ι) (calls : List (ι × Visit g)) : List (Visit g) :=
  (calls.filter (·.1 = i)).map Prod.snd

/-- What a client hears of the answers to all calls. -/
def heardBy [DecidableEq ι] (i : ι) (calls : List (ι × Visit g))
    (answers : List (Option (Answer g))) : List (Option (Answer g)) :=
  ((calls.zip answers).filter (·.1.1 = i)).map Prod.snd

theorem KeepsTo.tail {keys : ι → Key → Prop} {call : ι × Visit g} {calls : List (ι × Visit g)}
    (h : KeepsTo keys (call :: calls)) : KeepsTo keys calls :=
  fun call hmem => h call (List.mem_cons_of_mem _ hmem)

theorem Forward.tail {call : ι × Visit g} {calls : List (ι × Visit g)}
    (h : Forward (call :: calls)) :
    (∀ next ∈ calls, call.2.env.wall ≤ next.2.env.wall) ∧ Forward calls := by
  obtain ⟨hnext, hforward⟩ := List.pairwise_cons.mp h
  exact ⟨fun next hmem => hnext _ (List.mem_map_of_mem hmem), hforward⟩

section Engine

variable {v : Vault} {defaultTtl : Option Nat} (hv : v.Honours (.perEntry defaultTtl))
  {t : Tower b g} {s s' : t.State (Engine.State v b) (Engine.Call b)} {slots slots' : Table Slot}
  {keys : ι → Key → Prop} {calls : List (ι × Visit g)} (hkeeps : KeepsTo keys calls)
  (hforward : Forward calls) {wall : Nat} (hwall : ∀ call ∈ calls, wall ≤ call.2.env.wall)
  (hs : Engine.Shows v wall b (t.bottom s) slots)

include hv hkeeps hforward hwall hs

/-- Every call for a deed is answered. -/
theorem answered_deeds :
    ∀ a ∈ ((t.level (Engine.level v b)).serveAll (calls.map Prod.snd) s).answers,
      a.isSome = true := by
  induction calls generalizing wall s slots with
  | nil => nofun
  | cons call calls ih =>
    obtain ⟨d, hd, -⟩ := hkeeps call List.mem_cons_self
    obtain ⟨hnext, hforward⟩ := hforward.tail
    obtain ⟨hanswer, hshows⟩ := serve_deed hv hd (hs.mono (hwall call List.mem_cons_self))
    intro a ha
    rcases List.mem_cons.mp ha with rfl | ha
    · rw [hanswer]
      rfl
    · exact ih hkeeps.tail hforward hnext hshows a ha

/-- The client's entries look alike in the cache that he shares and in the one that he has for
himself, and they go on doing so. -/
theorem heardBy_alike [DecidableEq ι] {i : ι}
    (hdisjoint : ∀ j, j ≠ i → ∀ key, keys j key → ¬keys i key)
    (hs' : Engine.Shows v wall b (t.bottom s') slots')
    (halike : Table.AlikeOn (keys i) wall slots slots') :
    heardBy i calls ((t.level (Engine.level v b)).serveAll (calls.map Prod.snd) s).answers =
      ((t.level (Engine.level v b)).serveAll (callsOf i calls) s').answers := by
  induction calls generalizing wall s s' slots slots' with
  | nil => rfl
  | cons call calls ih =>
    obtain ⟨j, call⟩ := call
    obtain ⟨d, hd, hkeys⟩ := hkeeps (j, call) List.mem_cons_self
    obtain ⟨hnext, hforward⟩ := hforward.tail
    have hle := hwall (j, call) List.mem_cons_self
    have hs := hs.mono hle
    have hs' := hs'.mono hle
    have halike := halike.mono hle
    by_cases hij : j = i
    · subst hij
      obtain ⟨hanswer, next, next', hshows, hshows', hentries⟩ :=
        serve_alike hv hd hkeys hs hs' halike
      have hrest := ih hkeeps.tail hforward hnext hshows hshows' hentries
      simp only [heardBy, callsOf] at hrest
      simp [heardBy, callsOf, Level.serveAll, hanswer, hrest]
    · obtain ⟨next, hshows, hentries⟩ := serve_elsewhere hv hd
        (fun key hk => hdisjoint j hij key (hkeys key hk)) hs
      have hrest := ih hkeeps.tail hforward hnext hshows hs' (hentries.trans halike)
      simp only [heardBy, callsOf] at hrest
      simp [heardBy, callsOf, Level.serveAll, hij, hrest]

end Engine

variable [DecidableEq ι]

/-- Clients with no key in common share a tower, with or without bridges, over a lazy store, over an
unbounded timed store with any default TTL, or over any vault that honours that default. However
their calls are mixed, each is told what he would be told if he made his calls alone, at the same
instants, to a tower that nobody has called yet. -/
theorem clients_isolated {defaultTtl : Option Nat} {σ φ : Type} {below : Level b σ φ} {fresh : σ}
    (hbelow : Retains defaultTtl below fresh) (t : Tower b g) (keys : ι → Key → Prop)
    (hdisjoint : ∀ i j, i ≠ j → ∀ key, keys i key → ¬keys j key) (calls : List (ι × Visit g))
    (hkeeps : KeepsTo keys calls) (hforward : Forward calls) :
    let cache := t.level below
    let shared := cache.serveAll (calls.map Prod.snd) (t.fresh fresh)
    (∀ a ∈ shared.answers, a.isSome = true) ∧
      ∀ i, heardBy i calls shared.answers =
        (cache.serveAll (callsOf i calls) (t.fresh fresh)).answers := by
  refine hbelow.of_engine fun v hv => ?_
  have hwall : ∀ call ∈ calls, 0 ≤ call.2.env.wall := fun _ _ => Nat.zero_le _
  have hfresh := t.shows_fresh hv 0
  exact ⟨answered_deeds hv hkeeps hforward hwall hfresh, fun i =>
    heardBy_alike hv hkeeps hforward hwall hfresh (fun j hij => hdisjoint j i hij) hfresh (.refl _)⟩

/-- Two clients over two bridges and a vault with a default TTL. The entry of the first expires
between calls of the second, whose batch writes one key twice. -/
theorem clients_isolated_expiring :
    let t : Tower .modern .modern := .toModern 5 (.toLegacy true .ground)
    let v : Vault := .ofSlots (.perEntry (some 5))
    let keys (i : Bool) (key : Key) : Prop := key = if i then "a" else "b"
    let env (wall : Nat) : Env := { now := 0, wall := wall, scopes := {} }
    let calls : List (Bool × Visit .modern) :=
      [(true, ⟨.set .background ⟨"a", [1], none⟩, env 0, []⟩),
        (false, ⟨.setMulti .background [⟨"b", [2], some 0⟩, ⟨"b", [3], some 9⟩], env 1, []⟩),
        (true, ⟨.get .background "a", env 5, []⟩), (false, ⟨.get .background "b", env 5, []⟩),
        (true, ⟨.add .background ⟨"a", [4], none⟩, env 6, []⟩)]
    let cache := t.level v.cache
    let shared := cache.serveAll (calls.map Prod.snd) (t.fresh v.empty)
    (∀ i j, i ≠ j → ∀ key, keys i key → ¬keys j key) ∧ KeepsTo keys calls ∧ Forward calls ∧
      heardBy true calls shared.answers =
        (cache.serveAll (callsOf true calls) (t.fresh v.empty)).answers ∧
      heardBy true calls shared.answers =
        [some Answer.done, some (.error .keyNotFound), some Answer.done] ∧
      heardBy false calls shared.answers = [some Answer.done, some (.ok (.found [3]))] := by
  intro t v keys env calls cache shared
  have hbelow : Retains (some 5) v.cache v.empty := .vault v (Vault.ofSlots_honours _)
  have hdisjoint : ∀ i j, i ≠ j → ∀ key, keys i key → ¬keys j key := by
    intro i j hij key hi hj
    cases i <;> cases j <;> simp_all [keys]
  have hcalls : KeepsTo keys calls := by
    simp [KeepsTo, calls, keys, deed?, ModernRequest.keys]
  have hforward : Forward calls := by
    simp [Forward, calls, env]
  obtain ⟨-, hheard⟩ := clients_isolated hbelow t keys hdisjoint calls hcalls hforward
  exact ⟨hdisjoint, hcalls, hforward, hheard true, rfl, rfl⟩

end Clients

end Tower

end CacheBridge
