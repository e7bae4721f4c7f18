import SqlText.Change.Operation
import SqlText.Change.Statement
import SqlText.Proofs.Token.Written

/-!
# Lexemes of statements from rows

The statement that is written for a row is read as the lexemes of its pieces: keywords, names,
literals and punctuation, with a space where one was written. Names and values stay inside their own
lexemes, whatever they hold.

A statement ends in its fragment, which is what a change log keeps, and a semicolon.

## Main statements

* `insertText_eq`, `updateText_eq`, `deleteText_eq`: statements by their fragments.
* `lexemes_sepBy`: a list with separators is read item by item.
* `lexemes_insertFragment`, `lexemes_updateFragment`, `lexemes_predicate`: the lexemes of fragments.
-/

namespace SqlText

open Text Rule

namespace Change

/-! ## Fragments -/

/-- The end of an insert: columns and values in parentheses. -/
def insertFragment (r : Record) : Text :=
  '(' :: sepBy ", " (r.map fun e => Identifier.quote e.1) ++ ") values (".toList
    ++ sepBy ", " (r.map fun e => Literal.quote e.2) ++ [')']

/-- The end of an update: equations to set and equations to meet. -/
def updateFragment (set keys : Record) : Text :=
  sepBy ", " (set.map equation) ++ " where ".toList ++ predicate keys

/-- How the statement of an operation starts, up to its fragment. -/
def head (op : Operation) (table : Text) : Text :=
  match op with
  | .insert => "insert into ".toList ++ Identifier.quoteQualified table ++ [' ']
  | .update => "update only ".toList ++ Identifier.quoteQualified table ++ " set ".toList
  | .delete => "delete from only ".toList ++ Identifier.quoteQualified table ++ " where ".toList

theorem insertText_eq (table : Text) (r : Record) :
    insertText table r = head .insert table ++ insertFragment r ++ [';'] := by
  have hopen : " (".toList = [' ', '('] := rfl
  have hclose : ");".toList = [')', ';'] := rfl
  unfold insertText insertFragment head
  simp only [hopen, hclose, List.append_assoc, List.cons_append, List.nil_append]

theorem updateText_eq (table : Text) (set keys : Record) :
    updateText table set keys = head .update table ++ updateFragment set keys ++ [';'] := by
  unfold updateText updateFragment head
  simp only [List.append_assoc]

theorem deleteText_eq (table : Text) (keys : Record) :
    deleteText table keys = head .delete table ++ predicate keys ++ [';'] := rfl

/-! ## Lexemes of pieces -/

/-- One space. -/
def space : Lexeme := (.blank, [' '])

/-- A symbol of one character. -/
def mark (c : Char) : Lexeme := (.symbol, [c])

/-- A bare word. -/
def word (w : String) : Lexeme := (.identifier, w.toList)

/-- The lexeme of a name. -/
def nameLexeme (n : Text) : Lexeme := (nameKind n, Identifier.quote n)

/-- The lexeme of a value. -/
def literalLexeme (v : Option Text) : Lexeme := (literalKind v, Literal.quote v)

/-- The lexemes of a table's name. -/
def qualifiedLexemes (table : Text) : List Lexeme :=
  [nameLexeme (Identifier.parts table).1, mark '.', nameLexeme (Identifier.parts table).2]

/-- The lexemes of the equation of a column and a value. -/
def equationLexemes (e : Text × Option Text) : List Lexeme :=
  [nameLexeme e.1, space, mark '=', space, literalLexeme e.2]

/-- The lexemes of an insert's fragment. -/
def insertLexemes (r : Record) : List Lexeme :=
  mark '(' :: List.intercalate [mark ',', space] (r.map fun e => [nameLexeme e.1])
    ++ [mark ')', space, word "values", space, mark '(']
    ++ List.intercalate [mark ',', space] (r.map fun e => [literalLexeme e.2]) ++ [mark ')']

/-- The lexemes of the equations to set. -/
def settingLexemes (set : Record) : List Lexeme :=
  List.intercalate [mark ',', space] (set.map equationLexemes)

/-- The lexemes of the equations to meet. -/
def predicateLexemes (keys : Record) : List Lexeme :=
  List.intercalate [space, word "and", space] (keys.map equationLexemes)

/-! ## What pieces start with -/

theorem startsNoBlank_of_isWordStart {c : Char} (h : isWordStart c = true) :
    startsNoBlank c = true := by
  have hblank : isBlank c = false := by
    rw [Bool.eq_false_iff]
    intro hb
    have := isInert_of_isBlank hb
    simp [isInert, h] at this
  have hne : ∀ x : Char, isWordStart x = false → c ≠ x := by
    rintro x hx rfl
    rw [h] at hx
    cases hx
  simp [startsNoBlank, hblank, hne '-' (by decide), hne '/' (by decide)]

/-- A word starts with no blank. -/
theorem startsNoBlank_word {w : Text} (hw : isWord w = true) (rest : Text) :
    ∀ c ∈ (w ++ rest).head?, startsNoBlank c = true := by
  intro c hc
  cases w with
  | nil => cases hw
  | cons x w =>
    cases hc
    rw [isWord, Bool.and_eq_true] at hw
    exact startsNoBlank_of_isWordStart hw.1

/-- A name starts with no blank. -/
theorem startsNoBlank_name (n rest : Text) :
    ∀ c ∈ (Identifier.quote n ++ rest).head?, startsNoBlank c = true := by
  unfold Identifier.quote
  split
  · next h => exact startsNoBlank_word (isWord_of_isBare h) rest
  · intro c hc
    cases hc
    decide

/-- A literal starts with no blank. -/
theorem startsNoBlank_literal (v : Option Text) (rest : Text) :
    ∀ c ∈ (Literal.quote v ++ rest).head?, startsNoBlank c = true := by
  intro c hc
  cases v with
  | none =>
    cases hc
    decide
  | some t =>
    simp only [Literal.quote, Literal.quoteText] at hc
    split at hc
    · cases hc
      decide
    · cases hc
      decide

/-- A table's name starts with no blank. -/
theorem startsNoBlank_qualified (table rest : Text) :
    ∀ c ∈ (Identifier.quoteQualified table ++ rest).head?, startsNoBlank c = true := by
  rw [Identifier.quoteQualified, List.append_assoc]
  exact startsNoBlank_name _ _

theorem startsNoBlank_equation (e : Text × Option Text) (rest : Text) :
    ∀ c ∈ (equation e ++ rest).head?, startsNoBlank c = true := by
  rw [equation, List.append_assoc, List.append_assoc]
  exact startsNoBlank_name e.1 _

/-- A list of equations starts with no blank. -/
theorem startsNoBlank_equations (sep : String) {es : Record} (hes : es ≠ []) (rest : Text) :
    ∀ c ∈ (sepBy sep (es.map equation) ++ rest).head?, startsNoBlank c = true := by
  obtain ⟨e, es, rfl⟩ := List.exists_cons_of_ne_nil hes
  cases es with
  | nil => simpa [sepBy, List.intercalate] using startsNoBlank_equation e rest
  | cons e' es =>
    have htext : sepBy sep ((e :: e' :: es).map equation) ++ rest
        = equation e ++ (sep.toList ++ (sepBy sep ((e' :: es).map equation) ++ rest)) := by
      simp [sepBy, List.intercalate]
    rw [htext]
    exact startsNoBlank_equation e _

theorem startsNoBlank_predicate {keys : Record} (hkeys : keys ≠ []) (rest : Text) :
    ∀ c ∈ (predicate keys ++ rest).head?, startsNoBlank c = true :=
  startsNoBlank_equations " and " hkeys rest

/-! ## Reading pieces -/

theorem lexemes_space (d : Dialect) {t : Text} (ht : ∀ c ∈ t.head?, startsNoBlank c = true) :
    lexemes d (' ' :: t) = space :: lexemes d t :=
  lexemes_blanks d (g := [' ']) (by simp) (List.all_eq_true.1 (by decide)) ht

section

variable {d : Dialect} (hd : d.fullyQualified = false) {rest : Text}

include hd

theorem lexemes_qualified (table : Text) (hrest : Delimited rest) :
    lexemes d (Identifier.quoteQualified table ++ rest)
      = qualifiedLexemes table ++ lexemes d rest := by
  rw [Identifier.quoteQualified, List.append_assoc, List.cons_append,
    lexemes_name hd _ (delimited_cons (by decide)), lexemes_punctuation d (by decide),
    lexemes_name hd _ hrest]
  rfl

theorem lexemes_equation (e : Text × Option Text) (hrest : Delimited rest) :
    lexemes d (equation e ++ rest) = equationLexemes e ++ lexemes d rest := by
  have htext : equation e ++ rest
      = Identifier.quote e.1 ++ ' ' :: '=' :: ' ' :: (Literal.quote e.2 ++ rest) := by
    simp [equation]
  have hspace : ∀ c ∈ (' ' :: (Literal.quote e.2 ++ rest)).head?, isOperator c = false := by
    intro c hc
    cases hc
    decide
  have hequals : ∀ c ∈ ('=' :: ' ' :: (Literal.quote e.2 ++ rest)).head?,
      startsNoBlank c = true := by
    intro c hc
    cases hc
    decide
  rw [htext, lexemes_name hd e.1 (delimited_cons (by decide)), lexemes_space d hequals,
    lexemes_equals d hspace, lexemes_space d (startsNoBlank_literal e.2 rest),
    lexemes_literal hd e.2 hrest]
  rfl

omit hd in
/-- **A list with separators is read item by item**, if each item and each separator is. -/
theorem lexemes_sepBy {α : Type} {f : α → Text} {g : α → List Lexeme} {sep : String}
    {seps : List Lexeme}
    (hitem : ∀ a {rest}, Delimited rest → lexemes d (f a ++ rest) = g a ++ lexemes d rest)
    (hsep : ∀ a rest, Delimited (sep.toList ++ (f a ++ rest)) ∧
      lexemes d (sep.toList ++ (f a ++ rest)) = seps ++ lexemes d (f a ++ rest))
    (xs : List α) (hrest : Delimited rest) :
    lexemes d (sepBy sep (xs.map f) ++ rest)
      = List.intercalate seps (xs.map g) ++ lexemes d rest := by
  induction xs with
  | nil => rfl
  | cons a xs ih =>
    cases xs with
    | nil => simpa [sepBy, List.intercalate] using hitem a hrest
    | cons b xs =>
      have htext : sepBy sep ((a :: b :: xs).map f) ++ rest
          = f a ++ (sep.toList ++ (sepBy sep ((b :: xs).map f) ++ rest)) := by
        simp [sepBy, List.intercalate]
      -- a separator is read up to the item behind it, so the rest has to be split at that item
      have hnext : ∃ t, sepBy sep ((b :: xs).map f) ++ rest = f b ++ t := by
        cases xs with
        | nil => exact ⟨rest, by simp [sepBy, List.intercalate]⟩
        | cons c xs =>
          exact ⟨sep.toList ++ (sepBy sep ((c :: xs).map f) ++ rest),
            by simp [sepBy, List.intercalate]⟩
      obtain ⟨t, ht⟩ := hnext
      rw [htext, ht, hitem a (hsep b t).1, (hsep b t).2, ← ht, ih]
      simp [List.intercalate]

omit hd in
theorem lexemes_comma (d : Dialect) {t : Text} (ht : ∀ c ∈ t.head?, startsNoBlank c = true) :
    lexemes d (", ".toList ++ t) = [mark ',', space] ++ lexemes d t := by
  have htext : ", ".toList ++ t = ',' :: ' ' :: t := rfl
  rw [htext, lexemes_punctuation d (by decide), lexemes_space d ht]
  rfl

/-- A keyword with a space behind it. -/
theorem lexemes_keyword {w : String} (hw : isWord w.toList = true) {t : Text}
    (ht : ∀ c ∈ t.head?, startsNoBlank c = true) :
    lexemes d (w.toList ++ ' ' :: t) = word w :: space :: lexemes d t := by
  rw [lexemes_word hd hw (delimited_cons (by decide)), lexemes_space d ht]
  rfl

/-- A keyword between two spaces. -/
theorem lexemes_spaced {w : String} (hw : isWord w.toList = true) {t : Text}
    (ht : ∀ c ∈ t.head?, startsNoBlank c = true) :
    lexemes d (' ' :: (w.toList ++ ' ' :: t)) = [space, word w, space] ++ lexemes d t := by
  rw [lexemes_space d (startsNoBlank_word hw _), lexemes_keyword hd hw ht]
  rfl

/-! ## Reading fragments -/

theorem lexemes_setting (set : Record) (hrest : Delimited rest) :
    lexemes d (sepBy ", " (set.map equation) ++ rest)
      = settingLexemes set ++ lexemes d rest := by
  refine lexemes_sepBy (fun e _ hr => lexemes_equation hd e hr) (fun e t => ⟨?_, ?_⟩) set hrest
  · exact delimited_cons (by decide)
  · exact lexemes_comma d (startsNoBlank_equation e t)

theorem lexemes_predicate (keys : Record) (hrest : Delimited rest) :
    lexemes d (predicate keys ++ rest) = predicateLexemes keys ++ lexemes d rest := by
  refine lexemes_sepBy (fun e _ hr => lexemes_equation hd e hr) (fun e t => ⟨?_, ?_⟩) keys hrest
  · exact delimited_cons (by decide)
  · exact lexemes_spaced hd (w := "and") (by decide) (startsNoBlank_equation e t)

theorem lexemes_names (r : Record) (hrest : Delimited rest) :
    lexemes d (sepBy ", " (r.map fun e => Identifier.quote e.1) ++ rest)
      = List.intercalate [mark ',', space] (r.map fun e => [nameLexeme e.1])
        ++ lexemes d rest := by
  refine lexemes_sepBy (fun e _ hr => lexemes_name hd e.1 hr) (fun e t => ⟨?_, ?_⟩) r hrest
  · exact delimited_cons (by decide)
  · exact lexemes_comma d (startsNoBlank_name e.1 t)

theorem lexemes_literals (r : Record) (hrest : Delimited rest) :
    lexemes d (sepBy ", " (r.map fun e => Literal.quote e.2) ++ rest)
      = List.intercalate [mark ',', space] (r.map fun e => [literalLexeme e.2])
        ++ lexemes d rest := by
  refine lexemes_sepBy (fun e _ hr => lexemes_literal hd e.2 hr) (fun e t => ⟨?_, ?_⟩) r hrest
  · exact delimited_cons (by decide)
  · exact lexemes_comma d (startsNoBlank_literal e.2 t)

/-- **The lexemes of an insert's fragment**, whatever follows it. -/
theorem lexemes_insertFragment (r : Record) (rest : Text) :
    lexemes d (insertFragment r ++ rest) = insertLexemes r ++ lexemes d rest := by
  have htext : insertFragment r ++ rest
      = '(' :: (sepBy ", " (r.map fun e => Identifier.quote e.1)
        ++ ')' :: ' ' :: ("values".toList ++ ' ' :: '('
        :: (sepBy ", " (r.map fun e => Literal.quote e.2) ++ ')' :: rest))) := by
    have hvalues : ") values (".toList = ')' :: ' ' :: ("values".toList ++ [' ', '(']) := rfl
    unfold insertFragment
    simp only [hvalues, List.append_assoc, List.cons_append, List.nil_append]
  have hparen : ∀ t : Text, ∀ c ∈ ('(' :: t).head?, startsNoBlank c = true := by
    intro t c hc
    cases hc
    decide
  rw [htext, lexemes_punctuation d (by decide), lexemes_names hd r (delimited_cons (by decide)),
    lexemes_punctuation d (by decide), lexemes_spaced hd (w := "values") (by decide) (hparen _),
    lexemes_punctuation d (by decide), lexemes_literals hd r (delimited_cons (by decide)),
    lexemes_punctuation d (by decide)]
  simp [insertLexemes, mark]

/-- **The lexemes of an update's fragment.** -/
theorem lexemes_updateFragment (set : Record) {keys : Record} (hkeys : keys ≠ [])
    (hrest : Delimited rest) :
    lexemes d (updateFragment set keys ++ rest)
      = settingLexemes set ++ [space, word "where", space] ++ predicateLexemes keys
        ++ lexemes d rest := by
  have htext : updateFragment set keys ++ rest
      = sepBy ", " (set.map equation)
        ++ ' ' :: ("where".toList ++ ' ' :: (predicate keys ++ rest)) := by
    have hwhere : " where ".toList = ' ' :: ("where".toList ++ [' ']) := rfl
    unfold updateFragment
    simp only [hwhere, List.append_assoc, List.cons_append, List.nil_append]
  rw [htext, lexemes_setting hd set (delimited_cons (by decide)),
    lexemes_spaced hd (by decide) (startsNoBlank_predicate hkeys rest),
    lexemes_predicate hd keys hrest]
  simp only [List.append_assoc]

end

end Change

end SqlText
