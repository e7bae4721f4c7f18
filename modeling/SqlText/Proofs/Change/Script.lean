import SqlText.Proofs.Change.Lexemes
import SqlText.Proofs.Row
import SqlText.Proofs.Statement.Groups

/-!
# Scripts of written statements

Statements that were written for rows are put one behind the other, with white space before, between
and behind them. Splitting the script gives back these statements, whatever the names and values in
them hold, and by either rule of quoting: nothing breaks out of its statement.

A written statement stands alone (`StandsAlone`): whatever follows it, its lexemes start with a
keyword that is not `copy`, have no semicolon before the last one, and close each parenthesis that
they open. A script of such texts is cut behind each of them.

## Main statements

* `standsAlone_of_built`: every written statement stands alone.
* `Script.cut_enclosed`: tokens are cut behind the first semicolon that follows enclosed ones.
* `split_built`: scripts of written statements are split into these statements.
-/

namespace SqlText

open Text Rule Lexeme Statement

namespace Change

/-! ## Enclosed lexemes -/

/-- Lexemes without a semicolon that close as many parentheses as they open. -/
structure Enclosed (ls : List Lexeme) : Prop where
  no_semicolon : mark ';' ∉ ls
  balanced : ls.count (mark '(') = ls.count (mark ')')

theorem Enclosed.append {ls ms : List Lexeme} (hls : Enclosed ls) (hms : Enclosed ms) :
    Enclosed (ls ++ ms) := by
  constructor
  · rw [List.mem_append, not_or]
    exact ⟨hls.no_semicolon, hms.no_semicolon⟩
  · rw [List.count_append, List.count_append, hls.balanced, hms.balanced]

/-- A list with separators is enclosed if its items and separators are. -/
theorem Enclosed.intercalate {α : Type} {sep : List Lexeme} (hsep : Enclosed sep)
    {f : α → List Lexeme} (hf : ∀ a, Enclosed (f a)) (as : List α) :
    Enclosed (List.intercalate sep (as.map f)) := by
  induction as with
  | nil => exact ⟨nofun, rfl⟩
  | cons a as ih =>
    cases as with
    | nil => simpa [List.intercalate] using hf a
    | cons a' as =>
      have hcons : List.intercalate sep ((a :: a' :: as).map f)
          = f a ++ (sep ++ List.intercalate sep ((a' :: as).map f)) := by
        simp [List.intercalate]
      rw [hcons]
      exact (hf a).append (hsep.append ih)

/-- Lexemes in parentheses are enclosed if they are so without them. -/
theorem Enclosed.parens {ls : List Lexeme} (h : Enclosed ls) :
    Enclosed (mark '(' :: ls ++ [mark ')']) := by
  have hopen : mark '(' ≠ mark ')' := by decide
  constructor
  · simpa [mark] using h.no_semicolon
  · simp [List.count_append, hopen, hopen.symm, h.balanced]

/-- A lexeme that is no semicolon and no parenthesis. -/
def isPlain (l : Lexeme) : Bool := l != mark ';' && l != mark '(' && l != mark ')'

theorem enclosed_of_isPlain {ls : List Lexeme} (h : ∀ l ∈ ls, isPlain l = true) : Enclosed ls := by
  have hno : ∀ c : Char, isPlain (mark c) = false → mark c ∉ ls := by
    intro c hc hmem
    rw [h _ hmem] at hc
    cases hc
  refine ⟨hno ';' (by decide), ?_⟩
  rw [List.count_eq_zero_of_not_mem (hno '(' (by decide)),
    List.count_eq_zero_of_not_mem (hno ')' (by decide))]

theorem isPlain_of_ne_symbol {l : Lexeme} (h : l.1 ≠ .symbol) : isPlain l = true := by
  have hne : ∀ c : Char, l ≠ mark c := by
    rintro c rfl
    exact h rfl
  simp [isPlain, hne]

@[simp] theorem isPlain_name (n : Text) : isPlain (nameLexeme n) = true := by
  refine isPlain_of_ne_symbol ?_
  show nameKind n ≠ .symbol
  unfold nameKind
  split <;> decide

@[simp] theorem isPlain_literal (v : Option Text) : isPlain (literalLexeme v) = true := by
  refine isPlain_of_ne_symbol ?_
  show literalKind v ≠ .symbol
  cases v <;> exact nofun

@[simp] theorem isPlain_word (w : String) : isPlain (word w) = true :=
  isPlain_of_ne_symbol nofun

theorem isPlain_blank (g : Text) : isPlain (.blank, g) = true := isPlain_of_ne_symbol nofun

@[simp] theorem isPlain_space : isPlain space = true := isPlain_blank _

theorem enclosed_comma : Enclosed [mark ',', space] := enclosed_of_isPlain (by decide)

theorem enclosed_qualified (table : Text) : Enclosed (qualifiedLexemes table) := by
  have hdot : isPlain (mark '.') = true := by decide
  exact enclosed_of_isPlain (by simp [qualifiedLexemes, hdot])

theorem enclosed_equation (e : Text × Option Text) : Enclosed (equationLexemes e) := by
  have hequals : isPlain (mark '=') = true := by decide
  exact enclosed_of_isPlain (by simp [equationLexemes, hequals])

theorem enclosed_setting (set : Record) : Enclosed (settingLexemes set) :=
  enclosed_comma.intercalate enclosed_equation set

theorem enclosed_predicate (keys : Record) : Enclosed (predicateLexemes keys) :=
  Enclosed.intercalate (enclosed_of_isPlain (by simp)) enclosed_equation keys

/-- The fragment of an insert is two lists in parentheses. -/
theorem enclosed_insert (r : Record) : Enclosed (insertLexemes r) := by
  have hname : ∀ e : Text × Option Text, Enclosed [nameLexeme e.1] :=
    fun e => enclosed_of_isPlain (by simp)
  have hliteral : ∀ e : Text × Option Text, Enclosed [literalLexeme e.2] :=
    fun e => enclosed_of_isPlain (by simp)
  have hvalues : Enclosed [space, word "values", space] := enclosed_of_isPlain (by simp)
  have hlists := ((enclosed_comma.intercalate hname r).parens.append hvalues).append
    (enclosed_comma.intercalate hliteral r).parens
  simpa [insertLexemes] using hlists

/-! ## Written statements -/

/--
A text that is read as one statement, whatever follows it: its lexemes are a keyword that is not
`copy`, enclosed ones and a semicolon.
-/
def StandsAlone (d : Dialect) (s : Text) : Prop :=
  ∃ (w : String) (ls : List Lexeme), isWord w.toList = true ∧
    sameWord w.toList "copy".toList = false ∧ Enclosed ls ∧
    ∀ rest, lexemes d (s ++ rest) = word w :: (ls ++ mark ';' :: lexemes d rest)

section

variable {d : Dialect} (hd : d.fullyQualified = false)

include hd

theorem standsAlone_insertText (table : Text) (r : Record) :
    StandsAlone d (insertText table r) := by
  refine ⟨"insert", [space, word "into", space] ++ qualifiedLexemes table ++ [space]
    ++ insertLexemes r, by decide, by decide, ?_, fun rest => ?_⟩
  · have hwords : Enclosed [space, word "into", space] := enclosed_of_isPlain (by simp)
    have hspace : Enclosed [space] := enclosed_of_isPlain (by simp)
    exact ((hwords.append (enclosed_qualified table)).append hspace).append (enclosed_insert r)
  · have htext : insertText table r ++ rest
        = "insert".toList ++ ' ' :: ("into".toList ++ ' ' :: (Identifier.quoteQualified table
          ++ ' ' :: (insertFragment r ++ ';' :: rest))) := by
      have hinto : "insert into ".toList = "insert".toList ++ ' ' :: ("into".toList ++ [' ']) := rfl
      simp only [insertText_eq]
      unfold head
      simp only [hinto, List.append_assoc, List.cons_append, List.nil_append]
    have hparen : ∀ c ∈ (insertFragment r ++ ';' :: rest).head?, startsNoBlank c = true := by
      intro c hc
      cases hc
      decide
    rw [htext, lexemes_keyword hd (by decide) (startsNoBlank_word (by decide) _),
      lexemes_keyword hd (by decide) (startsNoBlank_qualified table _),
      lexemes_qualified hd table (delimited_cons (by decide)), lexemes_space d hparen,
      lexemes_insertFragment hd, lexemes_punctuation d (by decide)]
    simp [mark]

theorem standsAlone_deleteText (table : Text) {keys : Record} (hkeys : keys ≠ []) :
    StandsAlone d (deleteText table keys) := by
  refine ⟨"delete", [space, word "from", space, word "only", space] ++ qualifiedLexemes table
    ++ [space, word "where", space] ++ predicateLexemes keys, by decide, by decide, ?_,
    fun rest => ?_⟩
  · have hwords : Enclosed [space, word "from", space, word "only", space] :=
      enclosed_of_isPlain (by simp)
    have hwhere : Enclosed [space, word "where", space] := enclosed_of_isPlain (by simp)
    exact ((hwords.append (enclosed_qualified table)).append hwhere).append
      (enclosed_predicate keys)
  · have htext : deleteText table keys ++ rest
        = "delete".toList ++ ' ' :: ("from".toList ++ ' ' :: ("only".toList ++ ' '
          :: (Identifier.quoteQualified table ++ ' ' :: ("where".toList ++ ' '
          :: (predicate keys ++ ';' :: rest))))) := by
      have hfrom : "delete from only ".toList
          = "delete".toList ++ ' ' :: ("from".toList ++ ' ' :: ("only".toList ++ [' '])) := rfl
      have hwhere : " where ".toList = ' ' :: ("where".toList ++ [' ']) := rfl
      unfold deleteText
      simp only [hfrom, hwhere, List.append_assoc, List.cons_append, List.nil_append]
    rw [htext, lexemes_keyword hd (by decide) (startsNoBlank_word (by decide) _),
      lexemes_keyword hd (by decide) (startsNoBlank_word (by decide) _),
      lexemes_keyword hd (by decide) (startsNoBlank_qualified table _),
      lexemes_qualified hd table (delimited_cons (by decide)),
      lexemes_spaced hd (by decide) (startsNoBlank_predicate hkeys _),
      lexemes_predicate hd keys (delimited_cons (by decide)), lexemes_punctuation d (by decide)]
    simp [mark]

/--
What stands behind the table of an update. If nothing is set, the spaces on both sides of the empty
list are one blank.
-/
theorem lexemes_setClause (set : Record) {keys : Record} (hkeys : keys ≠ []) :
    ∃ ls, Enclosed ls ∧ ∀ rest,
      lexemes d (' ' :: ("set".toList ++ ' ' :: (updateFragment set keys ++ ';' :: rest)))
        = ls ++ mark ';' :: lexemes d rest := by
  by_cases hset : set = []
  · subst hset
    refine ⟨[space, word "set", (.blank, [' ', ' ']), word "where", space]
      ++ predicateLexemes keys, ?_, fun rest => ?_⟩
    · have hwords : Enclosed [space, word "set", (.blank, [' ', ' ']), word "where", space] :=
        enclosed_of_isPlain (by simp [isPlain_blank])
      exact hwords.append (enclosed_predicate keys)
    · have htext : "set".toList ++ ' ' :: (updateFragment [] keys ++ ';' :: rest)
          = "set".toList ++ ([' ', ' '] ++ ("where".toList ++ ' '
            :: (predicate keys ++ ';' :: rest))) := by
        have hwhere : " where ".toList = ' ' :: ("where".toList ++ [' ']) := rfl
        have hnone : sepBy ", " (([] : Record).map equation) = [] := rfl
        unfold updateFragment
        simp only [hwhere, hnone, List.append_assoc, List.cons_append, List.nil_append]
      have hblanks : ∀ t : Text, Delimited ([' ', ' '] ++ t) := fun _ => delimited_cons (by decide)
      rw [lexemes_space d (startsNoBlank_word (by decide) _), htext,
        lexemes_word hd (by decide) (hblanks _),
        lexemes_blanks d (by simp) (List.all_eq_true.1 (by decide))
          (startsNoBlank_word (by decide) _),
        lexemes_keyword hd (by decide) (startsNoBlank_predicate hkeys _),
        lexemes_predicate hd keys (delimited_cons (by decide)), lexemes_punctuation d (by decide)]
      simp [mark, word]
  · refine ⟨[space, word "set", space] ++ (settingLexemes set ++ [space, word "where", space]
      ++ predicateLexemes keys), ?_, fun rest => ?_⟩
    · have hwords : Enclosed [space, word "set", space] := enclosed_of_isPlain (by simp)
      have hwhere : Enclosed [space, word "where", space] := enclosed_of_isPlain (by simp)
      exact hwords.append (((enclosed_setting set).append hwhere).append (enclosed_predicate keys))
    · have hfragment : ∀ c ∈ (updateFragment set keys ++ ';' :: rest).head?,
          startsNoBlank c = true := by
        rw [updateFragment, List.append_assoc, List.append_assoc]
        exact startsNoBlank_equations _ hset _
      rw [lexemes_spaced hd (by decide) hfragment,
        lexemes_updateFragment hd set hkeys (delimited_cons (by decide)),
        lexemes_punctuation d (by decide)]
      simp [mark]

theorem standsAlone_updateText (table : Text) (set : Record) {keys : Record} (hkeys : keys ≠ []) :
    StandsAlone d (updateText table set keys) := by
  obtain ⟨ls, hls, hread⟩ := lexemes_setClause hd set hkeys
  refine ⟨"update", [space, word "only", space] ++ qualifiedLexemes table ++ ls, by decide,
    by decide, ?_, fun rest => ?_⟩
  · have hwords : Enclosed [space, word "only", space] := enclosed_of_isPlain (by simp)
    exact (hwords.append (enclosed_qualified table)).append hls
  · have htext : updateText table set keys ++ rest
        = "update".toList ++ ' ' :: ("only".toList ++ ' ' :: (Identifier.quoteQualified table
          ++ ' ' :: ("set".toList ++ ' ' :: (updateFragment set keys ++ ';' :: rest)))) := by
      have honly : "update only ".toList = "update".toList ++ ' ' :: ("only".toList ++ [' ']) := rfl
      have hset : " set ".toList = ' ' :: ("set".toList ++ [' ']) := rfl
      simp only [updateText_eq]
      unfold head
      simp only [honly, hset, List.append_assoc, List.cons_append, List.nil_append]
    rw [htext, lexemes_keyword hd (by decide) (startsNoBlank_word (by decide) _),
      lexemes_keyword hd (by decide) (startsNoBlank_qualified table _),
      lexemes_qualified hd table (delimited_cons (by decide)), hread]
    simp

end

/-- The statements that are written for rows. -/
inductive Built : Text → Prop
  | insert (r : Record) (table : Text) : Built (insert r table)
  | insertMapped {r : Record} {table : Text} {m : FieldMap} {s : Text} :
      insertMapped r table m = .ok s → Built s
  | update {r : Record} {table : Text} {keys : List Text} {s : Text} :
      update r table keys = .ok s → Built s
  | updateMapped {r : Record} {table : Text} {keys : List Text} {m : FieldMap} {s : Text} :
      updateMapped r table keys m = .ok s → Built s
  | delete {r : Record} {table : Text} {keys : List Text} {s : Text} :
      delete r table keys = .ok s → Built s
  | deleteMapped {r : Record} {table : Text} {keys : List Text} {m : FieldMap} {s : Text} :
      deleteMapped r table keys m = .ok s → Built s

/-- **Every written statement stands alone**, whatever its names and values hold. -/
theorem standsAlone_of_built {d : Dialect} (hd : d.fullyQualified = false) {s : Text}
    (h : Built s) : StandsAlone d s := by
  -- keys that were found are not empty, so an equation always stands behind `where`
  cases h with
  | insert r table => exact standsAlone_insertText hd table r
  | @insertMapped r table m s h =>
    obtain ⟨r', -, hresult⟩ := bind_eq_ok_iff.1 h
    cases hresult
    exact standsAlone_insertText hd table r'
  | @update r table keys s h =>
    obtain ⟨found, hfound, hresult⟩ := bind_eq_ok_iff.1 h
    cases hresult
    exact standsAlone_updateText hd table _ (ne_nil_of_keyed hfound)
  | @updateMapped r table keys m s h =>
    obtain ⟨found, hfound, h₁⟩ := bind_eq_ok_iff.1 h
    obtain ⟨set, -, hresult⟩ := bind_eq_ok_iff.1 h₁
    cases hresult
    exact standsAlone_updateText hd table set (ne_nil_of_keyed hfound)
  | @delete r table keys s h =>
    obtain ⟨found, hfound, hresult⟩ := bind_eq_ok_iff.1 h
    cases hresult
    exact standsAlone_deleteText hd table (ne_nil_of_keyed hfound)
  | @deleteMapped r table keys m s h =>
    obtain ⟨found, hfound, hresult⟩ := bind_eq_ok_iff.1 h
    cases hresult
    exact standsAlone_deleteText hd table (ne_nil_of_keyed hfound)

end Change

namespace Script

open Change (Enclosed StandsAlone mark word)

/-! ## Cutting -/

theorem countP_isSymbol (s : Text) (ts : List Token) :
    ts.countP (·.isSymbol s) = (ts.map Token.lexeme).count (.symbol, s) := by
  rw [List.count, List.countP_map]
  refine List.countP_congr fun t _ => ?_
  rw [Token.isSymbol_iff, Function.comp_apply, beq_iff_eq]

/-- Tokens with enclosed lexemes leave the depth as it was. -/
theorem depth_of_enclosed {ts : List Token} (h : Enclosed (ts.map Token.lexeme)) :
    depth ts = 0 := by
  have hbalanced : ((ts.map Token.lexeme).count (.symbol, ['(']) : Int)
      = (ts.map Token.lexeme).count (.symbol, [')']) := congrArg Nat.cast h.balanced
  rw [depth, countP_isSymbol, countP_isSymbol, hbalanced, Int.sub_self]

/-- A cut is made behind the first semicolon, if the depth there is zero. -/
theorem cut_append_semicolon {k : Int} {g : List Token} (hg : ∀ u ∈ g, u.isSymbol [';'] = false)
    (hk : k + depth g = 0) {t : Token} (ht : t.isSymbol [';'] = true) (rest : List Token) :
    cut k (g ++ t :: rest) = some (g ++ [t], rest) := by
  induction g generalizing k with
  | nil =>
    rw [depth_nil, Int.add_zero] at hk
    rw [List.nil_append, cut, if_pos ⟨ht, hk⟩, List.nil_append]
  | cons u g ih =>
    have hu := hg u List.mem_cons_self
    have hk' : k + weight u + depth g = 0 := by
      rw [depth_cons] at hk
      omega
    rw [List.cons_append, cut, if_neg (by simp [hu]),
      ih (fun x hx => hg x (List.mem_cons_of_mem _ hx)) hk']
    rfl

/-- **Tokens are cut behind the first semicolon that follows enclosed ones.** -/
theorem cut_enclosed {g : List Token} (hg : Enclosed (g.map Token.lexeme)) {t : Token}
    (ht : t.isSymbol [';'] = true) (rest : List Token) :
    cut 0 (g ++ t :: rest) = some (g ++ [t], rest) := by
  refine cut_append_semicolon (fun u hu => ?_) (by rw [depth_of_enclosed hg, Int.add_zero]) ht rest
  rw [Bool.eq_false_iff]
  intro hsemicolon
  have hmem := List.mem_map_of_mem (f := Token.lexeme) hu
  rw [Token.isSymbol_iff.1 hsemicolon] at hmem
  exact hg.no_semicolon hmem

/-! ## Scripts -/

theorem map_lexeme_place_dialect (d : Dialect) (p n : Nat) (ls : List Lexeme) :
    (place { dialect := d } p n ls).map Token.lexeme = ls := by
  rw [map_lexeme_place, List.filter_eq_self.2 (by simp [isKept])]

/-- A statement that starts with another word does not copy from the input. -/
theorem not_copiesFromInput {t : Token} {g : List Token} (ht : t.isBlank = false)
    (hcopy : t.isKeyword "copy".toList = false) : ¬CopiesFromInput (t :: g) := by
  rintro ⟨c, before, a, b, behind, hg, hc, -, -⟩
  rw [List.filter_cons, if_pos (by simp [ht])] at hg
  rw [(List.cons.inj hg).1, hc] at hcopy
  cases hcopy

/-- **A text that stands alone is the first statement**, and the others are those of the rest. -/
theorem outcomes_standsAlone {d : Dialect} {s : Text} (hs : StandsAlone d s) (rest : Text)
    (p n : Nat) :
    ∃ st : Statement, st.text = s ∧
      outcomes (place { dialect := d } p n (lexemes d (s ++ rest)))
        = .ok st
          :: outcomes (place { dialect := d } (p + byteSize s) (n + s.length) (lexemes d rest)) := by
  obtain ⟨w, ls, -, hcopy, hls, hread⟩ := hs
  have hspell : spell (word w :: (ls ++ [mark ';'])) = s := by
    have htext := spell_lexemes d (s ++ [])
    rwa [hread [], lexemes_nil, List.append_nil] at htext
  -- the tokens of the statement: a word, enclosed tokens and a semicolon
  have hlexemes := map_lexeme_place_dialect d p n (word w :: (ls ++ [mark ';']))
  have hplace : lexemes d (s ++ rest)
      = word w :: (ls ++ [mark ';']) ++ lexemes d rest := by
    rw [hread rest]
    simp
  rw [hplace, place_append, hspell]
  generalize place { dialect := d } p n (word w :: (ls ++ [mark ';'])) = g
    at hlexemes
  have htextOf : textOf g = s := by rw [textOf_eq_spell, hlexemes, hspell]
  obtain ⟨t, ts, rfl, ht, hts⟩ := List.map_eq_cons_iff.1 hlexemes
  obtain ⟨us, vs, rfl, hus, hvs⟩ := List.map_eq_append_iff.1 hts
  obtain ⟨c, rfl, hc⟩ := List.map_eq_singleton_iff.1 hvs
  have hword : t.kind = .identifier := congrArg Prod.fst ht
  have hblank : t.isBlank = false := by rw [Token.isBlank, hword]; rfl
  have hkeyword : t.isKeyword "copy".toList = false := by
    have htext : t.text = w.toList := congrArg Prod.snd ht
    rw [Token.isKeyword, htext, hcopy, Bool.and_false]
  have henclosed : Enclosed ((t :: us).map Token.lexeme) := by
    have hfirst : Enclosed [word w] := Change.enclosed_of_isPlain (by simp)
    rw [List.map_cons, ht, hus]
    exact hfirst.append hls
  have hcut : ∀ later : List Token,
      cut 0 (t :: (us ++ [c] ++ later)) = some (t :: (us ++ [c]), later) := by
    intro later
    rw [List.append_assoc]
    exact cut_enclosed henclosed (Token.isSymbol_iff.2 hc) later
  refine ⟨statementOf (t :: (us ++ [c])), htextOf, ?_⟩
  rw [List.cons_append, outcomes_of_cut hblank (hcut _), outcome,
    if_neg (not_copiesFromInput hblank hkeyword)]

/-- White space at the start calls for no answer. -/
theorem outcomes_blanks {d : Dialect} {g t : Text} (hg : ∀ c ∈ g, isBlank c = true)
    (ht : ∀ c ∈ t.head?, startsNoBlank c = true) (p n : Nat) :
    outcomes (place { dialect := d } p n (lexemes d (g ++ t)))
      = outcomes (place { dialect := d } (p + byteSize g) (n + g.length) (lexemes d t)) := by
  by_cases hne : g = []
  · subst hne
    simp
  · rw [lexemes_blanks d hne hg ht, place, if_pos (by simp [isKept])]
    exact outcomes_cons_blank rfl _

/-- The text of a script: each part is a statement and the white space behind it. -/
def text (parts : List (Text × Text)) : Text := parts.flatMap fun p => p.1 ++ p.2

theorem text_cons (q : Text × Text) (parts : List (Text × Text)) :
    text (q :: parts) = q.1 ++ (q.2 ++ text parts) := by
  rw [text, List.flatMap_cons, List.append_assoc]
  rfl

/-- A script of texts that stand alone starts with no blank. -/
theorem startsNoBlank_text {d : Dialect} {parts : List (Text × Text)}
    (hparts : ∀ q ∈ parts, StandsAlone d q.1) :
    ∀ c ∈ (text parts).head?, startsNoBlank c = true := by
  cases parts with
  | nil => exact nofun
  | cons q parts =>
    obtain ⟨w, ls, hw, -, -, hread⟩ := hparts q List.mem_cons_self
    obtain ⟨t, ht, -, -⟩ := scan?_of_lexemes_eq_cons (hread (q.2 ++ text parts))
    rw [text_cons, ht]
    exact Change.startsNoBlank_word hw t

/-- **A script of texts that stand alone calls for these texts as its answers.** -/
theorem outcomes_text {d : Dialect} {parts : List (Text × Text)}
    (hparts : ∀ q ∈ parts, StandsAlone d q.1 ∧ ∀ c ∈ q.2, isBlank c = true)
    {lead : Text} (hlead : ∀ c ∈ lead, isBlank c = true) (p n : Nat) :
    ∃ sts : List Statement, sts.map Statement.text = parts.map Prod.fst ∧
      outcomes (place { dialect := d } p n (lexemes d (lead ++ text parts))) = sts.map .ok := by
  have hstart := startsNoBlank_text fun q hq => (hparts q hq).1
  rw [outcomes_blanks hlead hstart]
  -- the white space behind a statement is the lead of the rest
  induction parts generalizing lead p n with
  | nil => exact ⟨[], rfl, by rw [text, List.flatMap_nil, lexemes_nil]; rfl⟩
  | cons q parts ih =>
    have hlater : ∀ q' ∈ parts, StandsAlone d q'.1 ∧ ∀ c ∈ q'.2, isBlank c = true :=
      fun q' hq' => hparts q' (List.mem_cons_of_mem _ hq')
    obtain ⟨halone, hgap⟩ := hparts q List.mem_cons_self
    have hnext := startsNoBlank_text fun q' hq' => (hlater q' hq').1
    obtain ⟨st, hst, hfirst⟩ :=
      outcomes_standsAlone halone (q.2 ++ text parts) (p + byteSize lead) (n + lead.length)
    obtain ⟨sts, hsts, hrest⟩ := ih hlater hgap _ _ hnext
    refine ⟨st :: sts, by rw [List.map_cons, List.map_cons, hst, hsts], ?_⟩
    rw [text_cons, hfirst, outcomes_blanks hgap hnext, hrest, List.map_cons]

theorem untilError_map_ok {α : Type} (as : List α) : untilError (as.map .ok) = as.map .ok := by
  induction as with
  | nil => rfl
  | cons a as ih => rw [List.map_cons, untilError, ih]

end Script

/--
**Scripts of written statements are split into these statements.** Whatever names and values the
statements hold, and whatever white space stands before, between and behind them, each call of the
splitter gives the next of them, and the calls behind the last give nothing.
-/
theorem split_built (standardQuoting : Bool) (lead : Text) {parts : List (Text × Text)}
    (hlead : ∀ c ∈ lead, isBlank c = true)
    (hparts : ∀ q ∈ parts, Change.Built q.1 ∧ ∀ c ∈ q.2, isBlank c = true) :
    ∃ sts : List Statement, sts.map Statement.text = parts.map Prod.fst ∧
      split standardQuoting (lead ++ Script.text parts) = sts.map .ok ∧
      ∀ k, (Splitter.start standardQuoting (lead ++ Script.text parts)).answer k
        = (sts.map .ok)[k]? := by
  have hend := Script.isEnd_start standardQuoting (lead ++ Script.text parts)
  have halone : ∀ q ∈ parts, Change.StandsAlone { standardQuoting } q.1 ∧
      ∀ c ∈ q.2, isBlank c = true :=
    fun q hq => ⟨Change.standsAlone_of_built rfl (hparts q hq).1, (hparts q hq).2⟩
  obtain ⟨sts, htexts, houtcomes⟩ := Script.outcomes_text halone hlead 0 0
  have hanswers : Script.answers
      (Splitter.start standardQuoting (lead ++ Script.text parts)).pending = sts.map .ok := by
    show Script.answers (tokenize _ _) = _
    rw [Script.answers, tokenize_eq_place, houtcomes, Script.untilError_map_ok]
  refine ⟨sts, htexts, ?_, fun k => ?_⟩
  · rw [split, Script.items_eq_answers hend, hanswers]
  · rw [Script.answer_eq_getElem? hend, hanswers]

/-- An insert and a delete whose names and values hold quotes, comments, semicolons and parentheses. -/
theorem split_built_hostile :
    ∃ (s s' : Text) (sts : List Statement),
      s = Change.insert [("a\";(".toList, some "'); -- \\".toList), ("where".toList, none)]
        "x.copy from stdin;".toList ∧
      Change.delete [("$$".toList, some "/* \x7b".toList)] "t".toList ["$$".toList] = .ok s' ∧
      sts.map Statement.text = [s, s'] ∧
      split true (" ".toList ++ Script.text [(s, "\n\t".toList), (s', [])]) = sts.map .ok := by
  obtain ⟨s, hs⟩ : ∃ s, s = Change.insert
      [("a\";(".toList, some "'); -- \\".toList), ("where".toList, none)]
      "x.copy from stdin;".toList := ⟨_, rfl⟩
  obtain ⟨s', hs'⟩ : ∃ s', Change.delete [("$$".toList, some "/* \x7b".toList)] "t".toList
      ["$$".toList] = .ok s' := ⟨_, rfl⟩
  have hparts : ∀ q ∈ [(s, "\n\t".toList), (s', [])],
      Change.Built q.1 ∧ ∀ c ∈ q.2, isBlank c = true := by
    intro q hq
    rcases List.mem_cons.1 hq with rfl | hq
    · rw [hs]
      exact ⟨.insert _ _, List.all_eq_true.1 (by decide)⟩
    · rw [List.mem_singleton.1 hq]
      exact ⟨.delete hs', nofun⟩
  have hlead : ∀ c ∈ " ".toList, isBlank c = true := List.all_eq_true.1 (by decide)
  obtain ⟨sts, htexts, hsplit, -⟩ := split_built true " ".toList hlead hparts
  exact ⟨s, s', sts, hs, hs', htexts, hsplit⟩

end SqlText
