import SqlText.Proofs.Token.Locality
import SqlText.Proofs.Token.Unquoting

/-!
# Folded names

A dialect may read names joined by dots as one token. Nothing else changes: a folded token taken
apart again, by reading its text with names apart, gives the tokens that would have stood in its
place.

There is one exception. A name behind a dot is read as a name even where a string could start, so a
chain that ends in the bare name `e` before a quote swallows the mark of a string with escapes.

## Main statements

* `scan?_of_folded`: a lexeme that is no chain is found in both modes.
* `lexemes_joined`: what joins names to a name is read apart as dots and names.
* `lexemes_of_folded`: reading apart passes the end of every folded lexeme.
* `flatMap_apart_tokenize`: folding is all that the mode does.
-/

namespace SqlText

open Text Lexeme

namespace Dialect

/-- The dialect with joined names as one token. -/
def folded (d : Dialect) : Dialect := { d with fullyQualified := true }

/-- The dialect with names apart. -/
def apart (d : Dialect) : Dialect := { d with fullyQualified := false }

end Dialect

namespace Rule

/-! ## Names in both modes -/

/-- A name that no other is joined to is found with names apart, too. -/
theorem identifier_of_folded {t : Text} {k : Kind} {n : Nat} (h : identifier true t = some (k, n))
    (hk : k ≠ .qualifiedIdentifier) : identifier false t = some (k, n) := by
  obtain ⟨m, hm, he⟩ := Option.map_eq_some_iff.1 h
  simp only [if_true, Prod.mk.injEq] at he
  obtain ⟨hkind, rfl⟩ := he
  by_cases hmore : 0 < joined (t.drop m)
  · rw [if_pos hmore] at hkind
    exact absurd hkind.symm hk
  · rw [if_neg hmore] at hkind
    have hzero : joined (t.drop m) = 0 := Nat.eq_zero_of_not_pos hmore
    rw [identifier, hm, hzero]
    simp [hkind]

theorem identifier_eq_none_iff {fullyQualified : Bool} {t : Text} :
    identifier fullyQualified t = none ↔ name t = none := by
  rw [identifier, Option.map_eq_none_iff]

/-- A chain is a name with more names joined to it. -/
theorem exists_joined_of_identifier {t : Text} {k : Kind} {n : Nat}
    (h : identifier true t = some (k, n)) : ∃ m, name t = some m ∧ n = m + joined (t.drop m) := by
  obtain ⟨m, hm, he⟩ := Option.map_eq_some_iff.1 h
  cases he
  exact ⟨m, hm, rfl⟩

/-- Where a name stands, a string can start only with the mark `e` before a quote. -/
theorem string_of_name (standard : Bool) {t : Text} {n : Nat} (h : name t = some n) :
    string standard t = none ∨ ∃ c rest, (c = 'e' ∨ c = 'E') ∧ t = c :: '\'' :: rest := by
  cases t with
  | nil => cases h
  | cons c t =>
    have hc : c ≠ '\'' := by
      rintro rfl
      simp [name, isWordStart, quoted] at h
    by_cases he : c = 'E' ∨ c = 'e'
    · cases t with
      | nil => exact Or.inl (string_eq_none hc fun _ => by simp)
      | cons x rest =>
        by_cases hx : x = '\''
        · subst hx
          exact Or.inr ⟨c, rest, he.symm, rfl⟩
        · exact Or.inl (string_eq_none hc fun _ => by simpa using hx)
    · exact Or.inl (string_eq_none hc fun hE => absurd hE he)

/-- A mark before a quote is a name by itself, and nothing is joined to it. -/
theorem name_mark {c : Char} (hc : c = 'e' ∨ c = 'E') (rest : Text) :
    name (c :: '\'' :: rest) = some 1 ∧ joined ('\'' :: rest) = 0 := by
  constructor
  · have hstart : isWordStart c = true := by rcases hc with rfl | rfl <;> decide
    have hrun : runLength isNamePart ('\'' :: rest) = 0 := by
      simp [runLength, isNamePart, isWordPart]
    rw [name, if_pos hstart, hrun]
  · rw [joined, if_neg (by decide)]

end Rule

open Rule

/-! ## Lexemes in both modes -/

/-- A lexeme that is no chain of names is found in both modes. -/
theorem scan?_of_folded {d : Dialect} {t : Text} {k : Kind} {n : Nat}
    (h : scan? d.folded t = some (k, n)) (hk : k ≠ .qualifiedIdentifier) :
    scan? d.apart t = some (k, n) := by
  cases hs : Rule.string d.standardQuoting t with
  | some m =>
    rw [scan?_of_string (d := d.folded) hs] at h
    exact (scan?_of_string (d := d.apart) hs).trans h
  | none =>
    cases hi : identifier true t with
    | some r =>
      rw [scan?_of_identifier (d := d.folded) (k := r.1) (n := r.2) hs hi] at h
      cases h
      exact scan?_of_identifier (d := d.apart) hs (identifier_of_folded hi hk)
    | none =>
      -- the rules behind that of names do not know the mode
      have hi' : identifier false t = none :=
        identifier_eq_none_iff.2 (identifier_eq_none_iff.1 hi)
      simpa [scan?, rules, tagged, Dialect.folded, Dialect.apart, hs, hi, hi'] using h

/-- A chain of names was found by the rule of names, where no string starts. -/
theorem identifier_of_scan?_folded {d : Dialect} {t : Text} {n : Nat}
    (h : scan? d.folded t = some (.qualifiedIdentifier, n)) :
    Rule.string d.standardQuoting t = none ∧
      identifier true t = some (.qualifiedIdentifier, n) := by
  constructor
  · cases hs : Rule.string d.standardQuoting t with
    | none => rfl
    | some m =>
      rw [scan?_of_string (d := d.folded) hs] at h
      cases h
  · rcases scan?_cases h with ⟨hk, -⟩ | hname | ⟨hk, -⟩ | ⟨hk, -⟩ | ⟨hk, -⟩
    · cases hk
    · exact hname
    · cases hk
    · cases hk
    · cases hk

/-- With names apart a name is one lexeme, where no string starts. -/
theorem exists_lexemes_of_name {d : Dialect} {t : Text} {n : Nat}
    (hs : Rule.string d.standardQuoting t = none) (hname : name t = some n) :
    ∃ k, lexemes d.apart t = (k, t.take n) :: lexemes d.apart (t.drop n) := by
  have hscan := scan?_of_identifier (d := d.apart) hs (Option.map_eq_some_iff.2 ⟨n, hname, rfl⟩)
  exact ⟨_, lexemes_eq_cons hscan⟩

/-! ## Chains taken apart -/

/--
Whether a chain of names ends in the bare name `e`, in either case. A part in quotes ends in a quote
and a bare one has no dot, so the part behind the last dot is the last part.
-/
def EndsInMark (s : Text) : Prop := ['.', 'e'] <:+ s ∨ ['.', 'E'] <:+ s

instance : DecidablePred EndsInMark := fun s =>
  inferInstanceAs (Decidable (['.', 'e'] <:+ s ∨ ['.', 'E'] <:+ s))

theorem endsInMark_dot {c : Char} (hc : c = 'e' ∨ c = 'E') : EndsInMark ['.', c] := by
  rcases hc with rfl | rfl
  · exact Or.inl (List.suffix_refl _)
  · exact Or.inr (List.suffix_refl _)

theorem EndsInMark.append {s : Text} (h : EndsInMark s) (front : Text) :
    EndsInMark (front ++ s) :=
  h.imp (·.trans (List.suffix_append front s)) (·.trans (List.suffix_append front s))

/-- **What joins names to a name is read apart as dots and names**, up to where it ends. -/
theorem lexemes_joined (d : Dialect) (t : Text)
    (hmark : EndsInMark (t.take (joined t)) → (t.drop (joined t)).head? ≠ some '\'') :
    ∃ ls, spell ls = t.take (joined t) ∧
      lexemes d.apart t = ls ++ lexemes d.apart (t.drop (joined t)) := by
  fun_induction joined t with
  | case1 => exact ⟨[], rfl, rfl⟩
  | case2 r n hn ih =>
    have htake : ('.' :: r).take (1 + n + joined (r.drop n))
        = '.' :: r.take n ++ (r.drop n).take (joined (r.drop n)) := by
      rw [Nat.add_assoc, Nat.add_comm 1, List.take_succ_cons, List.take_add]
      rfl
    have hdrop : ('.' :: r).drop (1 + n + joined (r.drop n))
        = (r.drop n).drop (joined (r.drop n)) := by
      rw [Nat.add_assoc, Nat.add_comm 1, List.drop_succ_cons, List.drop_drop]
    rw [htake, hdrop] at hmark ⊢
    -- a string at the name would start with a mark, and then the chain ends there
    have hstring : Rule.string d.standardQuoting r = none := by
      rcases string_of_name d.standardQuoting hn with hnone | ⟨c, rest, hc, rfl⟩
      · exact hnone
      · obtain ⟨hone, hzero⟩ := name_mark hc rest
        rw [hone] at hn
        cases hn
        simp only [List.take_succ_cons, List.take_zero, List.drop_succ_cons, List.drop_zero,
          hzero, List.append_nil] at hmark
        exact absurd rfl (hmark (endsInMark_dot hc))
    obtain ⟨k, hname⟩ := exists_lexemes_of_name hstring hn
    obtain ⟨ls, hls, hrest⟩ := ih fun hend => hmark (hend.append _)
    refine ⟨(.symbol, ['.']) :: (k, r.take n) :: ls, ?_, ?_⟩
    · rw [spell_cons, spell_cons, hls]
      rfl
    · rw [lexemes_punctuation _ (by decide), hname, hrest]
      rfl
  | case3 r hn => exact ⟨[], rfl, rfl⟩
  | case4 c r hc => exact ⟨[], rfl, rfl⟩

/-- The lexemes of a lexeme with its names apart. -/
def Lexeme.apart (d : Dialect) (l : Lexeme) : List Lexeme :=
  if l.1 = .qualifiedIdentifier then lexemes d.apart l.2 else [l]

theorem spell_apart (d : Dialect) (l : Lexeme) : spell (l.apart d) = l.2 := by
  unfold Lexeme.apart
  split
  · exact spell_lexemes _ _
  · exact List.append_nil _

/-- **Reading with names apart passes the end of every folded lexeme.** -/
theorem lexemes_of_folded {d : Dialect} {t : Text} {k : Kind} {n : Nat}
    (h : scan? d.folded t = some (k, n))
    (hmark : k = .qualifiedIdentifier → EndsInMark (t.take n) → (t.drop n).head? ≠ some '\'') :
    lexemes d.apart t = Lexeme.apart d (k, t.take n) ++ lexemes d.apart (t.drop n) := by
  unfold Lexeme.apart
  split
  · next hk =>
    simp only at hk
    subst hk
    obtain ⟨hstring, hchain⟩ := identifier_of_scan?_folded h
    obtain ⟨m, hname, rfl⟩ := exists_joined_of_identifier hchain
    obtain ⟨k, hfirst⟩ := exists_lexemes_of_name hstring hname
    have htake : t.take (m + joined (t.drop m))
        = t.take m ++ (t.drop m).take (joined (t.drop m)) := List.take_add
    rw [← List.drop_drop, htake] at hmark
    obtain ⟨ls, hls, hrest⟩ :=
      lexemes_joined d (t.drop m) fun hend => hmark rfl (hend.append _)
    have hsplit : lexemes d.apart t
        = ((k, t.take m) :: ls) ++ lexemes d.apart (t.drop (m + joined (t.drop m))) := by
      rw [hfirst, hrest, List.drop_drop]
      rfl
    -- lexemes at the start of a text are those of their own text
    have hown := lexemes_spell_left hsplit
    rw [spell_cons, hls, ← htake] at hown
    rw [hsplit, hown]
  · next hk => exact lexemes_eq_cons (scan?_of_folded h hk)

/-- **The folded lexemes of a text, taken apart, are its lexemes with names apart.** -/
theorem flatMap_apart_lexemes (d : Dialect) (t : Text)
    (hmark : ∀ before l behind, lexemes d.folded t = before ++ l :: behind →
      l.1 = .qualifiedIdentifier → EndsInMark l.2 → (spell behind).head? ≠ some '\'') :
    (lexemes d.folded t).flatMap (Lexeme.apart d) = lexemes d.apart t := by
  fun_induction lexemes d.folded t with
  | case1 t h =>
    rw [scan?_eq_none_iff.1 h, lexemes_nil]
    rfl
  | case2 t k n h ih =>
    have hfirst := hmark [] (k, t.take n) _ rfl
    rw [spell_lexemes] at hfirst
    rw [List.flatMap_cons, lexemes_of_folded h hfirst, ih]
    intro before l behind he
    exact hmark ((k, t.take n) :: before) l behind (by rw [he]; rfl)

/-! ## Tokens taken apart -/

/-- The tokens of a token with its names apart, at their offsets. -/
def Token.apart (d : Dialect) (t : Token) : List Token :=
  if t.kind = .qualifiedIdentifier then
    (tokenize { dialect := d.apart } t.text).map (Token.shift t.start)
  else [t]

theorem apart_toToken (d : Dialect) (p n : Nat) (l : Lexeme) :
    (l.toToken { dialect := d.folded } p n).apart d
      = place { dialect := d.apart } p n (l.apart d) := by
  unfold Token.apart Lexeme.apart
  split
  · next hk =>
    have hk : l.1 = .qualifiedIdentifier := hk
    rw [if_pos hk, tokenize_eq_place]
    exact (place_add rfl p 0 n 0 _).symm
  · next hk =>
    have hk : ¬l.1 = .qualifiedIdentifier := hk
    rw [if_neg hk]
    rfl

/-- Lexemes taken apart stand where they stood. -/
theorem flatMap_apart_place (d : Dialect) (p n : Nat) (ls : List Lexeme) :
    (place { dialect := d.folded } p n ls).flatMap (Token.apart d)
      = place { dialect := d.apart } p n (ls.flatMap (Lexeme.apart d)) := by
  induction ls generalizing p n with
  | nil => rfl
  | cons l ls ih =>
    have hkept : place { dialect := d.folded } p n (l :: ls)
        = l.toToken { dialect := d.folded } p n
          :: place { dialect := d.folded } (p + byteSize l.2) (n + l.2.length) ls := rfl
    rw [hkept, List.flatMap_cons, List.flatMap_cons, place_append, spell_apart, apart_toToken, ih]

/--
**Fully qualified mode only folds.** Where no chain of names ends in the bare name `e` right before
a quote, taking each folded token apart turns the folded tokens of a source into its tokens with
names apart, each at its offset.
-/
theorem flatMap_apart_tokenize (d : Dialect) (source : Text)
    (hmark : ∀ t ∈ tokenize { dialect := d.folded } source, t.kind = .qualifiedIdentifier →
      EndsInMark t.text → (fromByte? source t.stop).bind List.head? ≠ some '\'') :
    (tokenize { dialect := d.folded } source).flatMap (Token.apart d)
      = tokenize { dialect := d.apart } source := by
  rw [tokenize_eq_place, tokenize_eq_place, flatMap_apart_place]
  refine congrArg _ (flatMap_apart_lexemes d source fun before l behind he hk hend => ?_)
  have hsource : source = spell before ++ l.2 ++ spell behind := by
    rw [← spell_lexemes d.folded source, he, spell_append, spell_cons, List.append_assoc]
  have hmem : l.toToken { dialect := d.folded } (byteSize (spell before)) (spell before).length
      ∈ tokenize { dialect := d.folded } source := by
    rw [tokenize_eq_place]
    change _ ∈ place { dialect := d.folded } 0 0 (lexemes d.folded source)
    rw [he, place_append]
    simp [place, isKept]
  have hnext := hmark _ hmem hk hend
  have hfrom : fromByte? source (byteSize (spell before) + byteSize l.2) = some (spell behind) := by
    rw [hsource, ← byteSize_append, fromByte?_append]
  rwa [toToken, hfrom] at hnext

/-- A chain with a quoted part that holds a dot, and one that ends in `e` before a space. -/
theorem flatMap_apart_tokenize_quoted :
    let source := "f(\"a.e\".b, s.e 'x', 1.e5)".toList
    (∀ t ∈ tokenize { dialect := Dialect.legacy.folded } source, t.kind = .qualifiedIdentifier →
      EndsInMark t.text → (fromByte? source t.stop).bind List.head? ≠ some '\'') ∧
    (tokenize { dialect := Dialect.legacy.folded } source).flatMap (Token.apart .legacy)
      = tokenize { dialect := Dialect.legacy.apart } source := by
  intro source
  have hmark : ∀ t ∈ tokenize { dialect := Dialect.legacy.folded } source,
      t.kind = .qualifiedIdentifier → EndsInMark t.text →
      (fromByte? source t.stop).bind List.head? ≠ some '\'' := by decide +kernel
  exact ⟨hmark, flatMap_apart_tokenize .legacy source hmark⟩

-- the mark before a quote is a name in the folded tokens and opens a string in the others
example :
    (tokenize { dialect := Dialect.legacy.folded } "s.e'x'".toList).flatMap (Token.apart .legacy)
      ≠ tokenize { dialect := Dialect.legacy.apart } "s.e'x'".toList := by decide +kernel

end SqlText
