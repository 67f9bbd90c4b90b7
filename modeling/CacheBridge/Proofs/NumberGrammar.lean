import CacheBridge.Settings

/-!
What the settings make of their variables, whatever these hold. A text spells a number if, between
blanks, it is at most one plus sign and then one ASCII digit or more. A variable counts as set
exactly to the number that its value spells, if that fits in a word; else it counts as unset, and a
value that was there is quoted in a warning. No variable has a say in the field of another. In turn,
settings that are written down as numbers are read back as they were, in whatever way the numbers
are spelled.
-/

namespace CacheBridge

namespace Text

/-- Nothing but blanks. -/
def Blanks (cs : List Char) : Prop := ∀ c ∈ cs, isBlank c = true

instance (cs : List Char) : Decidable (Blanks cs) :=
  decidable_of_iff (cs.all isBlank = true) List.all_eq_true

theorem exists_trimStart (cs : List Char) :
    ∃ before, Blanks before ∧ cs = before ++ trimStart cs := by
  refine ⟨cs.takeWhile isBlank, fun c hc => ?_, List.takeWhile_append_dropWhile.symm⟩
  exact List.all_eq_true.mp List.all_takeWhile c hc

theorem exists_trimEnd (cs : List Char) : ∃ after, Blanks after ∧ cs = trimEnd cs ++ after := by
  obtain ⟨before, hbefore, hcs⟩ := exists_trimStart cs.reverse
  refine ⟨before.reverse, fun c hc => hbefore c (List.mem_reverse.mp hc), ?_⟩
  have hreversed := congrArg List.reverse hcs
  rwa [List.reverse_reverse, List.reverse_append] at hreversed

/-- Trimming takes off nothing but blanks. -/
theorem exists_trim (cs : List Char) :
    ∃ before after, Blanks before ∧ Blanks after ∧ cs = before ++ trim cs ++ after := by
  obtain ⟨before, hbefore, hstart⟩ := exists_trimStart cs
  obtain ⟨after, hafter, hend⟩ := exists_trimEnd (trimStart cs)
  refine ⟨before, after, hbefore, hafter, ?_⟩
  rw [List.append_assoc]
  exact hstart.trans (congrArg (before ++ ·) hend)

/-- And it takes off all of them: what has no blank in it is laid bare. -/
theorem trim_append {before body after : List Char} (hbefore : Blanks before)
    (hafter : Blanks after) (hsome : body ≠ []) (hbody : ∀ c ∈ body, isBlank c = false) :
    trim (before ++ body ++ after) = body := by
  obtain ⟨c, cs, rfl⟩ := List.exists_cons_of_ne_nil hsome
  have hlast : trimEnd (c :: cs) = c :: cs := by
    obtain ⟨d, ds, hreversed⟩ := List.exists_cons_of_ne_nil (mt List.reverse_eq_nil_iff.mp hsome)
    have hmem : d ∈ c :: cs := List.mem_reverse.mp (hreversed ▸ List.mem_cons_self)
    have hleft : (c :: cs).reverse.dropWhile isBlank = (c :: cs).reverse := by
      rw [hreversed]
      exact trimStart_of_head (hbody d hmem)
    rw [trimEnd, hleft, List.reverse_reverse]
  rw [trim, List.append_assoc, trimStart_append hbefore, List.cons_append,
    trimStart_of_head (hbody c List.mem_cons_self), ← List.cons_append,
    trimEnd_append hafter, hlast]

end Text

namespace Settings

open Text (Blanks)

/-! ## The grammar of numbers -/

/-- At most one plus sign, then one digit or more; with its decimal value. -/
inductive Numeral : List Char → Nat → Prop where
  | intro {sign digits : List Char} (hsign : sign = [] ∨ sign = ['+']) (hsome : digits ≠ [])
      (hdigits : ∀ c ∈ digits, c.isDigit = true) :
      Numeral (sign ++ digits) (Nat.ofDigitChars 10 digits 0)

/-- A numeral between blanks. -/
def Spells (raw : String) (n : Nat) : Prop :=
  ∃ before body after, raw.toList = before ++ body ++ after ∧ Blanks before ∧ Blanks after ∧
    Numeral body n

theorem digit?_eq (c : Char) : digit? c = if c.isDigit then some (c.toNat - '0'.toNat)
    else none := by
  have hiff : (48 ≤ c.toNat ∧ c.toNat ≤ 57) ↔ c.isDigit = true := by
    simp only [Char.isDigit, Bool.and_eq_true, decide_eq_true_eq]
    exact Iff.rfl
  simp only [digit?, hiff]
  rfl

theorem isBlank_of_isDigit {c : Char} (h : c.isDigit = true) : Text.isBlank c = false := by
  have hrange : 48 ≤ c.toNat ∧ c.toNat ≤ 57 := by
    simp only [Char.isDigit, Bool.and_eq_true, decide_eq_true_eq] at h
    exact h
  simp only [Text.isBlank, Bool.or_eq_false_iff, Bool.and_eq_false_iff, decide_eq_false_iff_not,
    beq_eq_false_iff_ne]
  omega

theorem digits?_eq_some_iff {high : Nat} {cs : List Char} {n : Nat} :
    digits? high cs = some n ↔ (∀ c ∈ cs, c.isDigit = true) ∧ n = Nat.ofDigitChars 10 cs high := by
  induction cs generalizing high with
  | nil => exact ⟨fun h => ⟨nofun, (Option.some.inj h).symm⟩, fun h => congrArg some h.2.symm⟩
  | cons c cs ih =>
    rw [digits?, digit?_eq, List.forall_mem_cons, Nat.ofDigitChars_cons]
    cases c.isDigit with
    | true => simpa using ih
    | false => simp

theorem decimal?_eq_some_iff {cs : List Char} {n : Nat} :
    decimal? cs = some n ↔
      cs ≠ [] ∧ (∀ c ∈ cs, c.isDigit = true) ∧ n = Nat.ofDigitChars 10 cs 0 := by
  cases cs with
  | nil => simp [decimal?]
  | cons c cs => exact digits?_eq_some_iff.trans (by simp)

theorem unsigned_of_isDigit {c : Char} (h : c.isDigit = true) (cs : List Char) :
    unsigned (c :: cs) = c :: cs := by
  unfold unsigned
  split
  · next heq =>
    cases heq
    exact absurd h (by decide)
  · rfl

theorem exists_unsigned (cs : List Char) :
    ∃ sign, (sign = [] ∨ sign = ['+']) ∧ cs = sign ++ unsigned cs := by
  unfold unsigned
  split
  · exact ⟨['+'], .inr rfl, rfl⟩
  · exact ⟨[], .inl rfl, rfl⟩

theorem numeral_iff {cs : List Char} {n : Nat} :
    Numeral cs n ↔ decimal? (unsigned cs) = some n := by
  rw [decimal?_eq_some_iff]
  constructor
  · rintro ⟨rfl | rfl, hsome, hdigits⟩
    · obtain ⟨c, cs, rfl⟩ := List.exists_cons_of_ne_nil hsome
      rw [List.nil_append, unsigned_of_isDigit (hdigits c List.mem_cons_self)]
      exact ⟨hsome, hdigits, rfl⟩
    · exact ⟨hsome, hdigits, rfl⟩
  · rintro ⟨hsome, hdigits, rfl⟩
    obtain ⟨sign, hsign, hcs⟩ := exists_unsigned cs
    have hnumeral := Numeral.intro hsign hsome hdigits
    rwa [← hcs] at hnumeral

theorem Numeral.ne_nil {cs : List Char} {n : Nat} (h : Numeral cs n) : cs ≠ [] := by
  obtain ⟨-, hsome, -⟩ := h
  exact List.append_ne_nil_of_right_ne_nil _ hsome

theorem Numeral.isBlank {cs : List Char} {n : Nat} (h : Numeral cs n) :
    ∀ c ∈ cs, Text.isBlank c = false := by
  obtain ⟨hsign, -, hdigits⟩ := h
  intro c hc
  obtain hc | hc := List.mem_append.mp hc
  · obtain rfl | rfl := hsign
    · cases hc
    · cases List.mem_singleton.mp hc
      decide
  · exact isBlank_of_isDigit (hdigits c hc)

/-- A text spells what it comes to when it is trimmed. -/
theorem spells_iff {raw : String} {n : Nat} : Spells raw n ↔ Numeral (Text.trim raw.toList) n := by
  constructor
  · rintro ⟨before, body, after, hraw, hbefore, hafter, hbody⟩
    rwa [hraw, Text.trim_append hbefore hafter hbody.ne_nil hbody.isBlank]
  · intro h
    obtain ⟨before, after, hbefore, hafter, hraw⟩ := Text.exists_trim raw.toList
    exact ⟨before, _, after, hraw, hbefore, hafter, h⟩

/-- Reading accepts what spells a number that fits in a word, and nothing else. -/
theorem number?_eq_some_iff {raw : String} {n : Nat} :
    number? raw = some n ↔ Spells raw n ∧ n < wordLimit := by
  rw [spells_iff, numeral_iff, number?, Option.filter_eq_some_iff, decide_eq_true_eq]

example : ["\u3000+007 ", "18446744073709551615", "", "+", "++7", "-0", "7 7", "٣",
    "18446744073709551616"].map number? =
      [some 7, some 18446744073709551615, none, none, none, none, none, none, none] := by
  decide

/-! ## Settings written down -/

/-- A way to spell a number: the blanks around it, a plus sign or none, and the zeros that lead
it. -/
structure Spelling where
  before : List Char := []
  plus : Bool := false
  zeros : Nat := 0
  after : List Char := []
  blank_before : Blanks before := by decide
  blank_after : Blanks after := by decide

namespace Spelling

def digits (sp : Spelling) (n : Nat) : List Char := List.replicate sp.zeros '0' ++ Nat.toDigits 10 n

def write (sp : Spelling) (n : Nat) : String :=
  String.ofList (sp.before ++ ((if sp.plus then ['+'] else []) ++ sp.digits n) ++ sp.after)

theorem isDigit_of_mem_digits (sp : Spelling) (n : Nat) : ∀ c ∈ sp.digits n, c.isDigit = true := by
  intro c hc
  obtain hc | hc := List.mem_append.mp hc
  · cases List.eq_of_mem_replicate hc
    decide
  · exact Nat.isDigit_of_mem_toDigits (by decide) (by decide) hc

theorem ofDigitChars_digits (sp : Spelling) (n : Nat) :
    Nat.ofDigitChars 10 (sp.digits n) 0 = n := by
  rw [digits, Nat.ofDigitChars_append, Nat.ofDigitChars_replicate_zero, Nat.mul_zero,
    Nat.ofDigitChars_ten_toDigits]

/-- However a number is spelled, the text spells that number. -/
theorem write_spells (sp : Spelling) (n : Nat) : Spells (sp.write n) n := by
  refine ⟨sp.before, _, sp.after, String.toList_ofList, sp.blank_before, sp.blank_after, ?_⟩
  have hsign : (if sp.plus then ['+'] else []) = [] ∨ (if sp.plus then ['+'] else []) = ['+'] := by
    cases sp.plus
    · exact .inl rfl
    · exact .inr rfl
  have hsome : sp.digits n ≠ [] := List.append_ne_nil_of_right_ne_nil _ Nat.toDigits_ne_nil
  have hnumeral := Numeral.intro hsign hsome (sp.isDigit_of_mem_digits n)
  rwa [sp.ofDigitChars_digits] at hnumeral

end Spelling

/-- The number that a variable would have to be set to, if to any. -/
def written (s : Settings) : Variable → Option Nat
  | .closePoll => some (s.closePoll / 1000000)
  | .closeTimeout => some (s.closeTimeout / 1000000)
  | .maxEntries => s.maxEntries
  | .defaultTtl => s.defaultTtl.map (· / 1000000)

/-- Whole milliseconds, and as many as fit in a word. -/
def WholeMilliseconds (span : Nat) : Prop := ∃ n < wordLimit, span = n * 1000000

/-- Settings that can be written down as numbers. -/
structure Writable (s : Settings) : Prop where
  closePoll : WholeMilliseconds s.closePoll
  closeTimeout : WholeMilliseconds s.closeTimeout
  maxEntries : ∀ n, s.maxEntries = some n → n < wordLimit
  defaultTtl : ∀ span, s.defaultTtl = some span → WholeMilliseconds span

theorem WholeMilliseconds.written {span : Nat} (h : WholeMilliseconds span) :
    span / 1000000 < wordLimit ∧ milliseconds (span / 1000000) = span := by
  obtain ⟨n, hn, rfl⟩ := h
  have hdiv : n * 1000000 / 1000000 = n := Nat.mul_div_cancel n (by decide)
  rw [hdiv]
  exact ⟨hn, rfl⟩

/-- No span that can be read is too long. -/
theorem le_longest_of_lt {n : Nat} (h : n < wordLimit) : n * 1000000 ≤ Time.longest := by
  unfold Time.longest Time.second
  unfold wordLimit at h
  omega

theorem judge_write (v : Variable) (sp : Spelling) {n : Nat} (h : n < wordLimit) :
    judge v (some (sp.write n)) = (some n, []) := by
  have hnumber := number?_eq_some_iff.mpr ⟨sp.write_spells n, h⟩
  simp only [judge, hnumber]

theorem read_written {s : Settings} (h : Writable s) (sp : Variable → Spelling) :
    read (fun v => (s.written v).map (sp v).write) = (s, []) := by
  obtain ⟨hpoll, hclosePoll⟩ := h.closePoll.written
  obtain ⟨htimeout, hcloseTimeout⟩ := h.closeTimeout.written
  have hjudge (v : Variable) :
      judge v ((s.written v).map (sp v).write) = (s.written v, []) := by
    cases hv : s.written v with
    | none => rfl
    | some n =>
      refine judge_write v (sp v) ?_
      cases v with
      | closePoll => exact Option.some.inj hv ▸ hpoll
      | closeTimeout => exact Option.some.inj hv ▸ htimeout
      | maxEntries => exact h.maxEntries n hv
      | defaultTtl =>
        obtain ⟨span, hspan, rfl⟩ := Option.map_eq_some_iff.mp hv
        exact (h.defaultTtl span hspan).written.1
  have httl : (s.defaultTtl.map (· / 1000000)).map milliseconds = s.defaultTtl := by
    cases hspan : s.defaultTtl with
    | none => rfl
    | some span => exact congrArg some (h.defaultTtl span hspan).written.2
  rw [read_eq]
  simp only [hjudge]
  refine Prod.ext ?_ rfl
  obtain ⟨closePoll, closeTimeout, maxEntries, defaultTtl⟩ := s
  simp only [ofNumbers, written, Option.elim_some, Settings.mk.injEq]
  exact ⟨hclosePoll, hcloseTimeout, trivial, httl⟩

theorem elim_milliseconds (number? : Option Nat) (n : Nat) :
    number?.elim (milliseconds n) milliseconds = milliseconds (number?.getD n) := by
  cases number? <;> rfl

/-- The field that a variable is for. -/
def field (s : Settings) : Variable → Option Nat
  | .closePoll => some s.closePoll
  | .closeTimeout => some s.closeTimeout
  | .maxEntries => s.maxEntries
  | .defaultTtl => s.defaultTtl

theorem field_ofNumbers {number number' : Variable → Option Nat} {v : Variable}
    (h : number v = number' v) : (ofNumbers number).field v = (ofNumbers number').field v := by
  cases v <;> simp [field, ofNumbers, h]

/-- The number that a variable is set to, if it is set to any. -/
def SetTo (raw? : Option String) (n : Nat) : Prop :=
  ∃ raw, raw? = some raw ∧ Spells raw n ∧ n < wordLimit

theorem judge_fst_iff {v : Variable} {raw? : Option String} {n : Nat} :
    (judge v raw?).1 = some n ↔ SetTo raw? n := by
  cases raw? with
  | none => simp [judge, SetTo]
  | some raw =>
    have hnumber : number? raw = some n ↔ SetTo (some raw) n := by
      simp [SetTo, number?_eq_some_iff]
    rw [← hnumber, judge]
    cases number? raw <;> rfl

/-- What is said of a variable whose value is no number. -/
def complaint (v : Variable) (raw? : Option String) : Option Nat → List (Severity × String)
  | none => (raw?.map fun raw =>
      (Severity.warn, v.name ++ " has invalid value '" ++ raw ++ "', using default")).toList
  | some _ => []

theorem judge_snd (v : Variable) (raw? : Option String) :
    (judge v raw?).2.map (fun n => (n.severity, n.text)) = complaint v raw? (judge v raw?).1 := by
  cases raw? with
  | none => rfl
  | some raw =>
    rw [judge]
    cases number? raw <;> rfl

/-- Whatever the lookup does, it is asked for the four names once each and in this order, and the
settings are those of the values found. -/
theorem readM_eq {m : Type → Type} [Monad m] [LawfulMonad m]
    (lookup : Variable → m (Option String)) :
    readM lookup = (do
      let poll ← lookup .closePoll
      let timeout ← lookup .closeTimeout
      let entries ← lookup .maxEntries
      let ttl ← lookup .defaultTtl
      return read fun
        | .closePoll => poll
        | .closeTimeout => timeout
        | .maxEntries => entries
        | .defaultTtl => ttl) := by
  simp [readM, read]

/-- Whatever the lookup does, it is asked for the four names once each, in their order, and the
settings are those of the values it gives. A variable counts as set to a number exactly if its value
spells that number and the number fits in a word; each setting is that of its own variable, a
default stands in for what is unset, no span is too long, and each value that is there and spells no
number is quoted in one warning. Settings that can be written down are read back as they were,
however they are spelled. -/
theorem read_by_grammar :
    (∀ {m : Type → Type} [Monad m] [LawfulMonad m] (lookup : String → m (Option String)),
      readM (fun v => lookup v.name) = do
        let poll ← lookup "CONDUIT_CLOSE_POLL_MS"
        let timeout ← lookup "CONDUIT_CLOSE_TIMEOUT_MS"
        let entries ← lookup "CONDUIT_CACHE_MAX_ENTRIES"
        let ttl ← lookup "CONDUIT_DEFAULT_TTL_MS"
        return read fun
          | .closePoll => poll
          | .closeTimeout => timeout
          | .maxEntries => entries
          | .defaultTtl => ttl) ∧
    (∀ lookup : String → Option String, ∃ number : Variable → Option Nat,
      (∀ v n, number v = some n ↔ SetTo (lookup v.name) n) ∧
      (read fun v => lookup v.name).1 =
        { closePoll := (number .closePoll).getD 100 * 1000000
          closeTimeout := (number .closeTimeout).getD 5000 * 1000000
          maxEntries := number .maxEntries
          defaultTtl := (number .defaultTtl).map (· * 1000000) } ∧
      (∀ v n, number v = some n → n * 1000000 ≤ Time.longest) ∧
      ((read fun v => lookup v.name).2.map fun n => (n.severity, n.text)) =
        complaint .closePoll (lookup "CONDUIT_CLOSE_POLL_MS") (number .closePoll) ++
        complaint .closeTimeout (lookup "CONDUIT_CLOSE_TIMEOUT_MS") (number .closeTimeout) ++
        complaint .maxEntries (lookup "CONDUIT_CACHE_MAX_ENTRIES") (number .maxEntries) ++
        complaint .defaultTtl (lookup "CONDUIT_DEFAULT_TTL_MS") (number .defaultTtl)) ∧
    (∀ (lookup lookup' : String → Option String) (v : Variable), lookup v.name = lookup' v.name →
      (read fun v => lookup v.name).1.field v = (read fun v => lookup' v.name).1.field v) ∧
    ∀ (s : Settings), Writable s → ∀ sp : Variable → Spelling,
      read (fun v => (s.written v).map (sp v).write) = (s, []) := by
  refine ⟨fun lookup => readM_eq _, fun lookup => ?_, fun lookup lookup' v hv => ?_,
    fun s hs sp => read_written hs sp⟩
  · refine ⟨fun v => (judge v (lookup v.name)).1, fun v n => judge_fst_iff, ?_, ?_, ?_⟩
    · rw [read_eq]
      simp only [ofNumbers, default, elim_milliseconds]
      rfl
    · intro v n hn
      obtain ⟨raw, -, -, hlt⟩ := judge_fst_iff.mp hn
      exact le_longest_of_lt hlt
    · rw [read_eq]
      simp only [Variable.all, List.flatMap_cons, List.flatMap_nil, List.append_nil,
        List.map_append, judge_snd, List.append_assoc]
      rfl
  · rw [read_eq, read_eq]
    exact field_ofNumbers (by rw [hv])

/-- Settings with the longest TTL there is, spelled with blanks, a plus sign and leading zeros. -/
theorem read_by_grammar_padded :
    let s : Settings := ⟨20 * 1000000, 0, none, some ((wordLimit - 1) * 1000000)⟩
    let sp : Spelling := ⟨['\t', '\u2003'], true, 25, ['\n', '\u3000'], by decide, by decide⟩
    Writable s ∧ read (fun v => (s.written v).map sp.write) = (s, []) ∧
      sp.write 20 = "\t\u2003+000000000000000000000000020\n\u3000" := by
  intro s sp
  have hs : Writable s :=
    { closePoll := ⟨20, by decide, rfl⟩
      closeTimeout := ⟨0, by decide, rfl⟩
      maxEntries := nofun
      defaultTtl := fun span hspan => ⟨wordLimit - 1, by decide, (Option.some.inj hspan).symm⟩ }
  exact ⟨hs, read_by_grammar.2.2.2 s hs fun _ => sp, by decide⟩

end Settings

end CacheBridge
