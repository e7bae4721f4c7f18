import SqlText.JsonString

/-!
# JSON strings read back

The grammar of JSON strings knows more than the library writes: every character of the basic plane
by four hexadecimal digits of either case, and the others by two such escapes, a pair of surrogates.
`Spells` is that grammar, character by character, with what each piece stands for. `read?` is a
reader for it, and accepts exactly the strings of the grammar.

What the library writes for a character is one of its spellings. So a written text is a string of
JSON, and stands for the text and for nothing else.

## Main statements

* `JsonString.one?_eq_some_iff`: one character is read from exactly its spellings.
* `JsonString.read?_eq_some_iff`: a string is read if the grammar has it, as what it stands for.
* `JsonString.spells_quoteChar`: what is written for a character spells it.
* `JsonString.escaped_slash`: a slash stands only behind the backslash that escapes it.
* `json_reads_back`: a written text is one string, which reads back.
-/

namespace SqlText

namespace JsonString

/-! ## The grammar -/

/-- The escapes of one letter, with the characters that they stand for. -/
def letterEscapes : List (Char × Char) :=
  [('"', '"'), ('\\', '\\'), ('/', '/'), ('b', '\x08'), ('f', '\x0C'), ('n', '\n'), ('r', '\r'),
   ('t', '\t')]

/-- The hexadecimal digits with their values. -/
def hexDigits : List (Char × Nat) :=
  [('0', 0), ('1', 1), ('2', 2), ('3', 3), ('4', 4), ('5', 5), ('6', 6), ('7', 7), ('8', 8),
   ('9', 9), ('a', 10), ('b', 11), ('c', 12), ('d', 13), ('e', 14), ('f', 15),
   ('A', 10), ('B', 11), ('C', 12), ('D', 13), ('E', 14), ('F', 15)]

/-- Whether a character may stand for itself. -/
def isUnescaped (c : Char) : Bool := 0x20 ≤ c.toNat && c != '"' && c != '\\'

/-- A number in four hexadecimal digits. -/
inductive FourDigits : Text → Nat → Prop
  | mk {a b c d : Char} {i j k l : Nat} (ha : (a, i) ∈ hexDigits) (hb : (b, j) ∈ hexDigits)
      (hc : (c, k) ∈ hexDigits) (hd : (d, l) ∈ hexDigits) :
      FourDigits [a, b, c, d] (((i * 16 + j) * 16 + k) * 16 + l)

/-- Whether a number is the first half of a pair of surrogates. -/
def isHigh (n : Nat) : Bool := 0xD800 ≤ n && n ≤ 0xDBFF

/-- Whether a number is the second half of a pair of surrogates. -/
def isLow (n : Nat) : Bool := 0xDC00 ≤ n && n ≤ 0xDFFF

/-- The code that two surrogates stand for. -/
def paired (high low : Nat) : Nat := 0x10000 + (high - 0xD800) * 0x400 + (low - 0xDC00)

/-- How a character may be written inside a string. -/
inductive Spells : Text → Char → Prop
  /-- As it stands. -/
  | unescaped {c : Char} (h : isUnescaped c = true) : Spells [c] c
  /-- By a backslash and a letter. -/
  | letter {e c : Char} (h : (e, c) ∈ letterEscapes) : Spells ['\\', e] c
  /-- By its code. -/
  | code {ds : Text} {c : Char} (h : FourDigits ds c.toNat) : Spells ('\\' :: 'u' :: ds) c
  /-- By the two surrogates of its code. -/
  | pair {ds es : Text} {high low : Nat} {c : Char} (hds : FourDigits ds high)
      (hes : FourDigits es low) (hhigh : isHigh high = true) (hlow : isLow low = true)
      (hc : c.toNat = paired high low) : Spells ('\\' :: 'u' :: ds ++ '\\' :: 'u' :: es) c

/-- What may stand between the quotes of a string, and the text that it stands for. -/
inductive Inside : Text → Text → Prop
  | nil : Inside [] []
  | cons {p : Text} {c : Char} {s t : Text} (h : Spells p c) (hs : Inside s t) :
      Inside (p ++ s) (c :: t)

/-- Whether `s` is a string of JSON that stands for the text `t`. -/
def IsString (s t : Text) : Prop := ∃ inside, Inside inside t ∧ s = '"' :: inside ++ ['"']

/-! ## Reading one character -/

/-- A number in four hexadecimal digits, and the text behind it. -/
def fourDigits? : Text → Option (Nat × Text)
  | a :: b :: c :: d :: t => do
    let i ← hexDigits.lookup a
    let j ← hexDigits.lookup b
    let k ← hexDigits.lookup c
    let l ← hexDigits.lookup d
    return (((i * 16 + j) * 16 + k) * 16 + l, t)
  | _ => none

/-- The second half of a pair of surrogates, and the text behind it. -/
def low? : Text → Option (Nat × Text)
  | '\\' :: 'u' :: t => (fourDigits? t).filter fun r => isLow r.1
  | _ => none

/-- The character with the number `n`, or with `n` and the surrogate that follows, and the rest. -/
def code? (n : Nat) (t : Text) : Option (Char × Text) :=
  if isHigh n then (low? t).map fun r => (Char.ofNat (paired n r.1), r.2)
  else if isLow n then none
  else some (Char.ofNat n, t)

/-- The character of an escape, read behind the backslash, and the rest. -/
def escape? : Text → Option (Char × Text)
  | [] => none
  | e :: t =>
    if e = 'u' then (fourDigits? t).bind fun r => code? r.1 r.2
    else (letterEscapes.lookup e).map (·, t)

/-- The first character inside a string, and the rest. -/
def one? : Text → Option (Char × Text)
  | [] => none
  | c :: t =>
    if c = '\\' then escape? t else if isUnescaped c then some (c, t) else none

/-- In a table that finds all of its entries, what is found for a key is what stands with it. -/
theorem lookup_iff_mem {β : Type} {table : List (Char × β)}
    (h : ∀ p ∈ table, table.lookup p.1 = some p.2) {a : Char} {b : β} :
    table.lookup a = some b ↔ (a, b) ∈ table := by
  refine ⟨fun hfound => ?_, h _⟩
  obtain ⟨before, behind, hsplit, -⟩ := List.lookup_eq_some_iff.1 hfound
  rw [hsplit]
  exact List.mem_append_right _ List.mem_cons_self

theorem lookup_hexDigits {c : Char} {n : Nat} :
    hexDigits.lookup c = some n ↔ (c, n) ∈ hexDigits := lookup_iff_mem (by decide)

theorem lookup_letterEscapes {e c : Char} :
    letterEscapes.lookup e = some c ↔ (e, c) ∈ letterEscapes := lookup_iff_mem (by decide)

theorem fourDigits?_eq_some_iff {s rest : Text} {n : Nat} :
    fourDigits? s = some (n, rest) ↔ ∃ ds, FourDigits ds n ∧ s = ds ++ rest := by
  constructor
  · intro h
    unfold fourDigits? at h
    split at h
    · next a b c d t =>
      simp only [bind, Option.bind_eq_some_iff, lookup_hexDigits, pure, Option.some.injEq,
        Prod.mk.injEq] at h
      obtain ⟨i, ha, j, hb, k, hc, l, hd, rfl, rfl⟩ := h
      exact ⟨[a, b, c, d], .mk ha hb hc hd, rfl⟩
    · cases h
  · rintro ⟨ds, ⟨ha, hb, hc, hd⟩, rfl⟩
    simp only [List.cons_append, List.nil_append, fourDigits?, lookup_hexDigits.2 ha,
      lookup_hexDigits.2 hb, lookup_hexDigits.2 hc, lookup_hexDigits.2 hd]
    rfl

theorem FourDigits.lt {ds : Text} {n : Nat} (h : FourDigits ds n) : n < 0x10000 := by
  have hdigit : ∀ p ∈ hexDigits, p.2 < 16 := by decide
  obtain ⟨ha, hb, hc, hd⟩ := h
  have hi := hdigit _ ha
  have hj := hdigit _ hb
  have hk := hdigit _ hc
  have hl := hdigit _ hd
  simp only at hi hj hk hl
  omega

theorem low?_eq_some_iff {s rest : Text} {n : Nat} :
    low? s = some (n, rest) ↔
      isLow n = true ∧ ∃ es, FourDigits es n ∧ s = '\\' :: 'u' :: es ++ rest := by
  constructor
  · intro h
    unfold low? at h
    split at h
    · obtain ⟨hdigits, hlow⟩ := Option.filter_eq_some_iff.1 h
      obtain ⟨es, hes, rfl⟩ := fourDigits?_eq_some_iff.1 hdigits
      exact ⟨hlow, es, hes, rfl⟩
    · cases h
  · rintro ⟨hlow, es, hes, rfl⟩
    exact Option.filter_eq_some_iff.2 ⟨fourDigits?_eq_some_iff.2 ⟨es, hes, rfl⟩, hlow⟩

/-- No character has the code of a surrogate. -/
theorem not_surrogate (c : Char) : isHigh c.toNat = false ∧ isLow c.toNat = false := by
  have hvalid : c.toNat < 0xD800 ∨ 0xDFFF < c.toNat ∧ c.toNat < 0x110000 := c.valid
  simp only [isHigh, isLow, Bool.and_eq_false_iff, decide_eq_false_iff_not]
  omega

/-- The character of a code that is no surrogate. -/
theorem toNat_ofNat {n : Nat} (h : n < 0xD800 ∨ 0xDFFF < n ∧ n < 0x110000) :
    (Char.ofNat n).toNat = n := by
  rw [Char.ofNat, dif_pos h]
  rfl

theorem code?_eq_some_iff {n : Nat} (hn : n < 0x10000) {s rest : Text} {c : Char} :
    code? n s = some (c, rest) ↔
      (c.toNat = n ∧ s = rest) ∨
      (isHigh n = true ∧ ∃ low es, FourDigits es low ∧ isLow low = true ∧
        s = '\\' :: 'u' :: es ++ rest ∧ c.toNat = paired n low) := by
  constructor
  · intro h
    unfold code? at h
    split at h
    · next hhigh =>
      obtain ⟨⟨low, rest⟩, hlow?, he⟩ := Option.map_eq_some_iff.1 h
      obtain ⟨rfl, rfl⟩ := Prod.mk.inj he
      obtain ⟨hlow, es, hes, rfl⟩ := low?_eq_some_iff.1 hlow?
      refine Or.inr ⟨hhigh, low, es, hes, hlow, rfl, toNat_ofNat ?_⟩
      simp only [isHigh, isLow, Bool.and_eq_true, decide_eq_true_eq] at hhigh hlow
      unfold paired
      omega
    · next hhigh =>
      split at h
      · cases h
      · next hlow =>
        cases h
        refine Or.inl ⟨toNat_ofNat ?_, rfl⟩
        simp only [isHigh, isLow, Bool.and_eq_true, decide_eq_true_eq] at hhigh hlow
        omega
  · rintro (⟨rfl, rfl⟩ | ⟨hhigh, low, es, hes, hlow, rfl, hc⟩)
    · obtain ⟨hhigh, hlow⟩ := not_surrogate c
      simp only [code?, hhigh, hlow, Bool.false_eq_true, if_false, Char.ofNat_toNat]
    · have hlow? : low? ('\\' :: 'u' :: es ++ rest) = some (low, rest) :=
        low?_eq_some_iff.2 ⟨hlow, es, hes, rfl⟩
      rw [code?, if_pos hhigh, hlow?, Option.map_some, ← hc, Char.ofNat_toNat]

/-- **One character is read from exactly its spellings.** -/
theorem one?_eq_some_iff {s rest : Text} {c : Char} :
    one? s = some (c, rest) ↔ ∃ p, Spells p c ∧ s = p ++ rest := by
  constructor
  · intro h
    cases s with
    | nil => cases h
    | cons x s =>
      rw [one?] at h
      split at h
      · next hx =>
        subst hx
        cases s with
        | nil => cases h
        | cons e s =>
          rw [escape?] at h
          split at h
          · next he =>
            subst he
            obtain ⟨⟨n, t⟩, hdigits, hcode⟩ := Option.bind_eq_some_iff.1 h
            obtain ⟨ds, hds, rfl⟩ := fourDigits?_eq_some_iff.1 hdigits
            rcases (code?_eq_some_iff hds.lt).1 hcode with
              ⟨rfl, rfl⟩ | ⟨hhigh, low, es, hes, hlow, rfl, hc⟩
            · exact ⟨_, .code hds, rfl⟩
            · exact ⟨_, .pair hds hes hhigh hlow hc, by simp⟩
          · obtain ⟨c', hc, he⟩ := Option.map_eq_some_iff.1 h
            cases he
            exact ⟨_, .letter (lookup_letterEscapes.1 hc), rfl⟩
      · split at h
        · next hx =>
          cases h
          exact ⟨_, .unescaped hx, rfl⟩
        · cases h
  · rintro ⟨p, hp, rfl⟩
    cases hp with
    | unescaped h =>
      have hb : c ≠ '\\' := by
        rintro rfl
        exact absurd h (by decide)
      rw [List.singleton_append, one?, if_neg hb, if_pos h]
    | @letter e c h =>
      have hletter : ∀ q ∈ letterEscapes, q.1 ≠ 'u' := by decide
      have hu : e ≠ 'u' := hletter _ h
      rw [List.cons_append, List.singleton_append, one?, if_pos rfl, escape?, if_neg hu,
        lookup_letterEscapes.2 h]
      rfl
    | @code ds c h =>
      have hdigits : fourDigits? (ds ++ rest) = some (c.toNat, rest) :=
        fourDigits?_eq_some_iff.2 ⟨ds, h, rfl⟩
      rw [List.cons_append, List.cons_append, one?, if_pos rfl, escape?, if_pos rfl, hdigits]
      exact (code?_eq_some_iff h.lt).2 (Or.inl ⟨rfl, rfl⟩)
    | @pair ds es high low c hds hes hhigh hlow hc =>
      have hdigits : fourDigits? (ds ++ ('\\' :: 'u' :: es ++ rest))
          = some (high, '\\' :: 'u' :: es ++ rest) :=
        fourDigits?_eq_some_iff.2 ⟨ds, hds, rfl⟩
      rw [List.append_assoc, List.cons_append, List.cons_append, one?, if_pos rfl, escape?,
        if_pos rfl, hdigits]
      exact (code?_eq_some_iff hds.lt).2 (Or.inr ⟨hhigh, low, es, hes, hlow, rfl, hc⟩)

theorem one?_lt {s rest : Text} {c : Char} (h : one? s = some (c, rest)) :
    rest.length < s.length := by
  obtain ⟨p, hp, rfl⟩ := one?_eq_some_iff.1 h
  have hne : p ≠ [] := by
    cases hp <;> exact List.cons_ne_nil _ _
  have := List.length_pos_iff.2 hne
  rw [List.length_append]
  omega

/-! ## Reading a string -/

/-- Reads what stands behind the opening quote, up to the closing one at the end. -/
def inside? (s : Text) : Option Text :=
  if s = ['"'] then some []
  else
    match _ : one? s with
    | none => none
    | some (c, rest) => (inside? rest).map (c :: ·)
termination_by s.length
decreasing_by
  rename_i h
  exact one?_lt h

/-- Reads a string. -/
def read? : Text → Option Text
  | '"' :: s => inside? s
  | _ => none

theorem inside?_of_one? {s rest : Text} {c : Char} (h : one? s = some (c, rest)) :
    inside? s = (inside? rest).map (c :: ·) := by
  have hne : s ≠ ['"'] := by
    rintro rfl
    cases h
  rw [inside?, if_neg hne]
  split
  · next h' =>
    rw [h] at h'
    cases h'
  · next h' =>
    rw [h] at h'
    cases h'
    rfl

theorem inside?_eq_some_iff {s t : Text} :
    inside? s = some t ↔ ∃ inside, Inside inside t ∧ s = inside ++ ['"'] := by
  constructor
  · intro h
    fun_induction inside? s generalizing t with
    | case1 =>
      cases h
      exact ⟨[], .nil, rfl⟩
    | case2 => cases h
    | case3 s hne c rest hone ih =>
      obtain ⟨t, ht, rfl⟩ := Option.map_eq_some_iff.1 h
      obtain ⟨inside, hinside, rfl⟩ := ih ht
      obtain ⟨p, hp, rfl⟩ := one?_eq_some_iff.1 hone
      exact ⟨p ++ inside, .cons hp hinside, (List.append_assoc _ _ _).symm⟩
  · rintro ⟨inside, hinside, rfl⟩
    induction hinside with
    | nil =>
      rw [List.nil_append, inside?, if_pos rfl]
    | @cons p c s t hp hs ih =>
      have hone := one?_eq_some_iff.2 ⟨p, hp, List.append_assoc p s ['"']⟩
      rw [inside?_of_one? hone, ih]
      rfl

/-- **A string is read if the grammar has it, and as what it stands for.** -/
theorem read?_eq_some_iff {s t : Text} : read? s = some t ↔ IsString s t := by
  constructor
  · intro h
    unfold read? at h
    split at h
    · obtain ⟨inside, hinside, rfl⟩ := inside?_eq_some_iff.1 h
      exact ⟨inside, hinside, rfl⟩
    · cases h
  · rintro ⟨inside, hinside, rfl⟩
    exact inside?_eq_some_iff.2 ⟨inside, hinside, rfl⟩

/-! ## Writing -/

/-- **A character is written by a letter, by its code or as it stands.** -/
theorem quoteChar_cases (c : Char) :
    (∃ e, quoteChar c = ['\\', e] ∧ (e, c) ∈ letterEscapes) ∨
    (quoteChar c = codeEscape c ∧ c.toNat < 0x20) ∨
    (quoteChar c = [c] ∧ isUnescaped c = true ∧ c ≠ '/') := by
  unfold quoteChar
  split
  · next h => exact Or.inl ⟨'b', rfl, by subst h; decide⟩
  split
  · next h => exact Or.inl ⟨'f', rfl, by subst h; decide⟩
  split
  · next h => exact Or.inl ⟨'n', rfl, by subst h; decide⟩
  split
  · next h => exact Or.inl ⟨'r', rfl, by subst h; decide⟩
  split
  · next h => exact Or.inl ⟨'t', rfl, by subst h; decide⟩
  split
  · next h => exact Or.inl ⟨c, rfl, by rcases h with rfl | rfl | rfl <;> decide⟩
  -- of the control characters those without a letter are left
  next hmark =>
  split
  · next hcontrol => exact Or.inr (Or.inl ⟨rfl, hcontrol⟩)
  · next hcontrol =>
    obtain ⟨hbackslash, hquote, hslash⟩ : c ≠ '\\' ∧ c ≠ '"' ∧ c ≠ '/' := by
      simpa only [not_or] using hmark
    refine Or.inr (Or.inr ⟨rfl, ?_, hslash⟩)
    simp [isUnescaped, hbackslash, hquote, Nat.le_of_not_lt hcontrol]

/-- **What is written for a character spells it.** -/
theorem spells_quoteChar (c : Char) : Spells (quoteChar c) c := by
  rcases quoteChar_cases c with ⟨e, he, hmem⟩ | ⟨hcode, hcontrol⟩ | ⟨hself, hunescaped, -⟩
  · rw [he]
    exact .letter hmem
  · have hdigit : ∀ k < 16, (Nat.digitChar k, k) ∈ hexDigits := by decide
    have hdigits : FourDigits ['0', '0', Nat.digitChar (c.toNat / 16), Nat.digitChar (c.toNat % 16)]
        (((0 * 16 + 0) * 16 + c.toNat / 16) * 16 + c.toNat % 16) :=
      .mk (by decide) (by decide) (hdigit _ (by omega)) (hdigit _ (by omega))
    have hvalue : ((0 * 16 + 0) * 16 + c.toNat / 16) * 16 + c.toNat % 16 = c.toNat := by omega
    rw [hvalue] at hdigits
    rw [hcode]
    exact .code hdigits
  · rw [hself]
    exact .unescaped hunescaped

theorem inside_flatMap (t : Text) : Inside (t.flatMap quoteChar) t := by
  induction t with
  | nil => exact .nil
  | cons c t ih => exact .cons (spells_quoteChar c) ih

theorem isString_quote (t : Text) : IsString (quote (some t)) t :=
  ⟨t.flatMap quoteChar, inside_flatMap t, rfl⟩

/-! ## Control characters -/

theorem FourDigits.le_of_mem {ds : Text} {n : Nat} (h : FourDigits ds n) :
    ∀ x ∈ ds, 0x20 ≤ x.toNat := by
  have hdigit : ∀ p ∈ hexDigits, 0x20 ≤ p.1.toNat := by decide
  obtain ⟨ha, hb, hc, hd⟩ := h
  intro x hx
  simp only [List.mem_cons, List.not_mem_nil, or_false] at hx
  rcases hx with rfl | rfl | rfl | rfl
  · exact hdigit _ ha
  · exact hdigit _ hb
  · exact hdigit _ hc
  · exact hdigit _ hd

/-- No spelling has a control character. -/
theorem Spells.le_of_mem {p : Text} {c : Char} (h : Spells p c) : ∀ x ∈ p, 0x20 ≤ x.toNat := by
  have hletter : ∀ q ∈ letterEscapes, 0x20 ≤ q.1.toNat := by decide
  -- the two characters that open an escape by a code
  have hopen : ∀ {ds : Text} {n : Nat}, FourDigits ds n →
      ∀ x ∈ '\\' :: 'u' :: ds, 0x20 ≤ x.toNat := fun hds =>
    List.forall_mem_cons.2 ⟨by decide, List.forall_mem_cons.2 ⟨by decide, hds.le_of_mem⟩⟩
  cases h with
  | unescaped h =>
    simp only [isUnescaped, Bool.and_eq_true, decide_eq_true_eq] at h
    simpa using h.1.1
  | letter h => simpa using hletter _ h
  | code h => exact hopen h
  | pair hds hes _ _ _ =>
    intro x hx
    exact (List.mem_append.1 hx).elim (hopen hds x) (hopen hes x)

theorem Inside.le_of_mem {s t : Text} (h : Inside s t) : ∀ x ∈ s, 0x20 ≤ x.toNat := by
  induction h with
  | nil => exact nofun
  | cons hp _ ih =>
    intro x hx
    exact (List.mem_append.1 hx).elim (hp.le_of_mem x) (ih x)

/-- **No string of JSON has a control character.** -/
theorem IsString.le_of_mem {s t : Text} (h : IsString s t) : ∀ x ∈ s, 0x20 ≤ x.toNat := by
  obtain ⟨inside, hinside, rfl⟩ := h
  intro x hx
  rw [List.cons_append, List.mem_cons, List.mem_append, List.mem_singleton] at hx
  rcases hx with rfl | hx | rfl
  · decide
  · exact hinside.le_of_mem x hx
  · decide

/-! ## Slashes -/

/-- In what is written for one character a slash stands behind a backslash that opens it. -/
theorem quoteChar_slash {c : Char} {before behind : Text}
    (h : quoteChar c = before ++ '/' :: behind) : before = ['\\'] := by
  have hmem : '/' ∈ quoteChar c := by
    rw [h]
    exact List.mem_append_right _ List.mem_cons_self
  rcases quoteChar_cases c with ⟨e, he, -⟩ | ⟨hcode, hcontrol⟩ | ⟨hself, -, hslash⟩
  · rw [he] at h
    match before with
    | [] => exact absurd (List.cons.inj h).1 (by decide)
    | [x] => rw [(List.cons.inj h).1]
    | x :: y :: before => simp at h
  · have hdigit : ∀ k < 16, Nat.digitChar k ≠ '/' := by decide
    have hhigh := hdigit (c.toNat / 16) (by omega)
    have hlow := hdigit (c.toNat % 16) (by omega)
    rw [hcode] at hmem
    simp [codeEscape, hhigh.symm, hlow.symm] at hmem
  · rw [hself, List.mem_singleton] at hmem
    exact absurd hmem.symm hslash

/-- **A slash stands only behind the backslash that escapes it**, which follows whole characters. -/
theorem escaped_slash {t before behind : Text}
    (h : t.flatMap quoteChar ++ ['"'] = before ++ '/' :: behind) :
    ∃ s : Text, before = s.flatMap quoteChar ++ ['\\'] := by
  induction t generalizing before with
  | nil =>
    have hmem : '/' ∈ ['"'] := by
      rw [show ['"'] = before ++ '/' :: behind from h]
      exact List.mem_append_right _ List.mem_cons_self
    exact absurd hmem (by decide)
  | cons c t ih =>
    rw [List.flatMap_cons, List.append_assoc] at h
    -- the slash stands behind what is written for `c`, or inside it
    rcases List.append_eq_append_iff.1 h with ⟨front, rfl, hrest⟩ | ⟨back, hc, hback⟩
    · obtain ⟨s, rfl⟩ := ih hrest
      exact ⟨c :: s, by rw [List.flatMap_cons, List.append_assoc]⟩
    · cases back with
      | nil =>
        obtain ⟨s, hs⟩ : ∃ s : Text, [] = s.flatMap quoteChar ++ ['\\'] := ih hback.symm
        simp at hs
      | cons x back =>
        obtain ⟨rfl, -⟩ := List.cons.inj hback
        exact ⟨[], quoteChar_slash hc⟩

end JsonString

/--
**A text is written as one string of JSON, which reads back.** By the grammar the string stands for
the text and for no other, and the reader gives it back. The string has no control character. What
stands before a slash in it is whole characters and the backslash that escapes the slash, so `</`
does not occur. The missing value is the word `null`, which no text is written as.
-/
theorem json_reads_back (t : Text) :
    (∀ u, JsonString.IsString (JsonString.quote (some t)) u ↔ u = t) ∧
    JsonString.read? (JsonString.quote (some t)) = some t ∧
    (∀ c ∈ JsonString.quote (some t), 0x20 ≤ c.toNat) ∧
    (∀ before behind, JsonString.quote (some t) = before ++ '/' :: behind →
      ∃ inside written, JsonString.Inside inside written ∧ before = '"' :: inside ++ ['\\']) ∧
    ¬['<', '/'] <:+: JsonString.quote (some t) ∧
    JsonString.quote none = "null".toList ∧ JsonString.quote (some t) ≠ "null".toList := by
  have hstring := JsonString.isString_quote t
  have hread := JsonString.read?_eq_some_iff.2 hstring
  have hslash : ∀ before behind, JsonString.quote (some t) = before ++ '/' :: behind →
      ∃ inside written, JsonString.Inside inside written ∧ before = '"' :: inside ++ ['\\'] := by
    intro before behind h
    cases before with
    | nil => exact absurd (List.cons.inj h).1 (by decide)
    | cons c before =>
      obtain ⟨rfl, hrest⟩ := List.cons.inj h
      obtain ⟨s, rfl⟩ := JsonString.escaped_slash hrest
      exact ⟨_, s, JsonString.inside_flatMap s, rfl⟩
  refine ⟨fun u => ?_, hread, hstring.le_of_mem, hslash, ?_, rfl, fun h => ?_⟩
  · rw [← JsonString.read?_eq_some_iff, hread, Option.some.injEq, eq_comm]
  · rintro ⟨before, behind, h⟩
    obtain ⟨inside, -, -, hbefore⟩ := hslash (before ++ ['<']) behind (by rw [← h]; simp)
    have hlast := congrArg List.getLast? hbefore
    rw [List.getLast?_concat, List.getLast?_concat] at hlast
    exact absurd hlast (by decide)
  · exact absurd (List.cons.inj h).1 (by decide)

/--
A tag that closes, control characters with and without a letter, both marks and a character behind
the basic plane.
-/
theorem json_reads_back_tag :
    let t := "</\x08\x01\"\\😀".toList
    JsonString.quote (some t) = "\"<\\/\\b\\u0001\\\"\\\\😀\"".toList ∧
    JsonString.read? (JsonString.quote (some t)) = some t ∧
    '<' ∈ JsonString.quote (some t) ∧ 0x20 ≤ '<'.toNat ∧
    ∃ behind, JsonString.quote (some t) = "\"<\\".toList ++ '/' :: behind ∧
      ∃ inside written, JsonString.Inside inside written ∧
        "\"<\\".toList = '"' :: inside ++ ['\\'] := by
  intro t
  obtain ⟨-, hread, hcontrol, hslash, -⟩ := json_reads_back t
  have hmem : '<' ∈ JsonString.quote (some t) := by decide
  have hquote : JsonString.quote (some t)
      = "\"<\\".toList ++ '/' :: "\\b\\u0001\\\"\\\\😀\"".toList := by decide
  exact ⟨by decide, hread, hmem, hcontrol _ hmem, _, hquote, hslash _ _ hquote⟩

-- a reader of JSON also takes digits of either case, and surrogates in pairs only
example : JsonString.read? "\"\\u00e9\\u00E9\\uD83D\\uDE00\"".toList = some "éé😀".toList := by
  decide +kernel

example : JsonString.read? "\"\\uD83D\"".toList = none := by decide +kernel

end SqlText
