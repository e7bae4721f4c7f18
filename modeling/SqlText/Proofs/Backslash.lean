import SqlText.Literal.Basic
import SqlText.Proofs.Escape
import SqlText.Proofs.Statement.Groups

/-!
# Texts without backslashes

The two rules of quoting differ in one thing: whether a backslash in a plain string escapes what
follows it. So on a text without backslashes they agree. The search for a closing quote takes the
same steps by both, and with it the whole scan, a script is cut into the same statements, and a
literal has the same value or the same fault, although by the one rule pairs of quotes are read as
one and by the other escapes are decoded.

## Main statements

* `Rule.closing_of_not_mem`: the search for a closing quote.
* `scan?_of_not_mem`, `lexemes_of_not_mem`: the first lexeme of a text, and all of them.
* `Escape.decode_of_not_mem`: decoding reads pairs of quotes as one, and does nothing else.
* `quoting_agrees`: tokens, statements and literals are the same by both rules.
-/

namespace SqlText

open Text Rule

/-! ## Tokens -/

namespace Rule

/-- **Without backslashes a closing quote is found alike with and without escapes.** -/
theorem closing_of_not_mem (q : Char) (escapes : Bool) {t : Text} (h : '\\' ∉ t) :
    closing q escapes t = closing q false t := by
  fun_induction closing q escapes t with
  | case1 => rfl
  | case2 => simp [closing]
  | case3 c hc => simp [closing, hc]
  | case4 t ih =>
    have ht : '\\' ∉ t := fun hm => h (List.mem_cons_of_mem _ (List.mem_cons_of_mem _ hm))
    simp only [closing, if_true, ih ht]
  | case5 d t hd => simp [closing, hd]
  | case6 c d t hc he ih =>
    -- no character of the text opens an escape
    have hb : c = '\\' := by simpa using (Bool.and_eq_true_iff.1 he).2
    exact absurd (hb ▸ List.mem_cons_self) h
  | case7 c d t hc he ih =>
    have ht : '\\' ∉ d :: t := fun hm => h (List.mem_cons_of_mem _ hm)
    simp [closing, hc, ih ht]

theorem quoted_of_not_mem (q : Char) (escapes : Bool) {t : Text} (h : '\\' ∉ t) :
    quoted q escapes t = quoted q false t := by
  cases t with
  | nil => rfl
  | cons c t =>
    rw [quoted, quoted, closing_of_not_mem q escapes fun hm => h (List.mem_cons_of_mem _ hm)]

theorem string_of_not_mem (standard standard' : Bool) {t : Text} (h : '\\' ∉ t) :
    string standard t = string standard' t := by
  cases t with
  | nil => rfl
  | cons c t =>
    rw [string, string, quoted_of_not_mem _ (!standard) h, quoted_of_not_mem _ (!standard') h]

end Rule

section

variable {d d' : Dialect} (hd : d.fullyQualified = d'.fullyQualified)

include hd

/-- Without backslashes the rules find the same first lexeme, whichever the rule of quoting is. -/
theorem scan?_of_not_mem {t : Text} (h : '\\' ∉ t) : scan? d t = scan? d' t := by
  have hstring := string_of_not_mem d.standardQuoting d'.standardQuoting h
  simp only [scan?, rules, List.findSome?_cons, tagged, hstring, hd]

theorem lexemes_of_not_mem {t : Text} (h : '\\' ∉ t) : lexemes d t = lexemes d' t := by
  fun_induction lexemes d t with
  | case1 t hscan =>
    rw [scan?_eq_none_iff.1 hscan, lexemes_nil]
  | case2 t k n hscan ih =>
    rw [scan?_of_not_mem hd h] at hscan
    rw [lexemes_eq_cons hscan, ih fun hm => h (List.mem_of_mem_drop hm)]

end

/-- Lexemes are placed without regard to the dialect. -/
theorem Lexeme.place_dialect (o : Options) (d d' : Dialect) (p n : Nat) (ls : List Lexeme) :
    place { o with dialect := d } p n ls = place { o with dialect := d' } p n ls := by
  induction ls generalizing p n with
  | nil => rfl
  | cons l ls ih =>
    simp only [place, ih]
    rfl

/-- **A text without backslashes has the same tokens by both rules of quoting.** -/
theorem tokenize_of_not_mem (o : Options) {source : Text} (h : '\\' ∉ source) :
    tokenize { o with dialect.standardQuoting := true } source
      = tokenize { o with dialect.standardQuoting := false } source := by
  have hlexemes : lexemes { o.dialect with standardQuoting := true } source
      = lexemes { o.dialect with standardQuoting := false } source :=
    lexemes_of_not_mem (by rfl) h
  rw [tokenize_eq_place, tokenize_eq_place, hlexemes]
  exact Lexeme.place_dialect o _ _ 0 0 _

/-! ## Statements -/

section

variable {sql : Text} (h : '\\' ∉ sql)

include h

theorem pending_start_of_not_mem :
    (Splitter.start true sql).pending = (Splitter.start false sql).pending :=
  tokenize_of_not_mem {} h

/-- **A script without backslashes has the same statements by both rules of quoting.** -/
theorem split_of_not_mem : split true sql = split false sql := by
  rw [split, split, Script.items_eq_answers (Script.isEnd_start true sql),
    Script.items_eq_answers (Script.isEnd_start false sql), pending_start_of_not_mem h]

theorem answer_of_not_mem (k : Nat) :
    (Splitter.start true sql).answer k = (Splitter.start false sql).answer k := by
  rw [Script.answer_eq_getElem? (Script.isEnd_start true sql),
    Script.answer_eq_getElem? (Script.isEnd_start false sql), pending_start_of_not_mem h]

end

/-! ## Literals -/

/-- **Without backslashes decoding reads pairs of quotes as one**, and leaves nothing over. -/
theorem Escape.decode_of_not_mem {t : Text} (h : '\\' ∉ t) :
    decode true t = ⟨undouble '\'' t, false⟩ := by
  fun_induction undouble '\'' t with
  | case1 a b t hpair ih =>
    obtain ⟨rfl, rfl⟩ := hpair
    have ht : '\\' ∉ t := fun hm => h (List.mem_cons_of_mem _ (List.mem_cons_of_mem _ hm))
    rw [decode_pair, ih ht]
    rfl
  | case2 a b t hpair ih =>
    rw [List.mem_cons, not_or] at h
    rw [decode_single true (Ne.symm h.1) fun _ ha hb => hpair ⟨ha, by simpa using hb⟩, ih h.2]
    rfl
  | case3 t hshort =>
    match t with
    | [] => exact decode_nil true
    | [a] =>
      rw [List.mem_singleton] at h
      rw [decode_single true (Ne.symm h) fun _ _ => by simp, decode_nil]
      rfl
    | a :: b :: t => exact absurd rfl (hshort a b t)

namespace Literal

theorem hasLoneQuote_of_not_mem (escapes : Bool) {t : Text} (h : '\\' ∉ t) :
    hasLoneQuote escapes t = hasLoneQuote false t := by
  fun_induction hasLoneQuote escapes t with
  | case1 => rfl
  | case2 => rfl
  | case3 c d t he ih =>
    have hb : c = '\\' := by simpa using (Bool.and_eq_true_iff.1 he).2
    exact absurd (hb ▸ List.mem_cons_self) h
  | case4 t he ih =>
    have ht : '\\' ∉ t := fun hm => h (List.mem_cons_of_mem _ (List.mem_cons_of_mem _ hm))
    simp [hasLoneQuote, ih ht]
  | case5 d t hd he => simp [hasLoneQuote, hd]
  | case6 c d t he hc ih =>
    have ht : '\\' ∉ d :: t := fun hm => h (List.mem_cons_of_mem _ hm)
    simp [hasLoneQuote, hc, ih ht]

/-- The body of a string is a part of it. -/
theorem subset_of_body {opening : Nat} {escapes : Bool} {t inner : Text}
    (h : body opening escapes t = .ok inner) : inner ⊆ t := by
  unfold body at h
  split at h
  · cases h
  · simp only at h
    split at h
    · cases h
    · cases h
      exact fun c hc => List.mem_of_mem_drop ((List.dropLast_sublist _).subset hc)

theorem body_of_not_mem (opening : Nat) (escapes : Bool) {t : Text} (h : '\\' ∉ t) :
    body opening escapes t = body opening false t := by
  have hinner : '\\' ∉ (t.drop opening).dropLast := fun hm =>
    h (List.mem_of_mem_drop ((List.dropLast_sublist _).subset hm))
  simp only [body, hasLoneQuote_of_not_mem escapes hinner]

/-- A string without backslashes is read alike with and without escapes. -/
theorem unquoteStandard_of_not_mem {t : Text} (h : '\\' ∉ t) :
    unquoteStandard t = unquoteExtended 1 t := by
  rw [unquoteStandard, unquoteExtended, body_of_not_mem 1 true h]
  cases hbody : body 1 false t with
  | error e => rfl
  | ok inner =>
    have hinner : '\\' ∉ inner := fun hm => h (subset_of_body hbody hm)
    simp only [Escape.decode_of_not_mem hinner]
    rfl

/-- **A literal without backslashes has the same value, or the same fault, by both rules.** -/
theorem unquote_of_not_mem {t : Text} (h : '\\' ∉ t) : unquote true t = unquote false t := by
  unfold unquote
  split
  · simp only [if_true, unquoteStandard_of_not_mem h]
    rfl
  all_goals rfl

end Literal

/--
**Without backslashes the rule of quoting does not matter.** A text without backslashes has the same
tokens by both rules, whatever else the dialect and the options say. As a script it has the same
statements and errors, call after call, and as a literal the same value, or the same error.
-/
theorem quoting_agrees (text : Text) (h : '\\' ∉ text) :
    (∀ o : Options, tokenize { o with dialect.standardQuoting := true } text
      = tokenize { o with dialect.standardQuoting := false } text) ∧
    split true text = split false text ∧
    (∀ k, (Splitter.start true text).answer k = (Splitter.start false text).answer k) ∧
    Literal.unquote true text = Literal.unquote false text :=
  ⟨fun o => tokenize_of_not_mem o h, split_of_not_mem h, answer_of_not_mem h,
    Literal.unquote_of_not_mem h⟩

/-- A script that leaves a string open behind a run of quotes, read as a literal too. -/
theorem quoting_agrees_unclosed :
    let text := "'a''b'''; select ''' ;".toList
    '\\' ∉ text ∧
    (∀ o : Options, tokenize { o with dialect.standardQuoting := true } text
      = tokenize { o with dialect.standardQuoting := false } text) ∧
    split true text = split false text ∧ (split false text).length = 2 ∧
    Literal.unquote true text = Literal.unquote false text ∧
    Literal.unquote false text = .error (.malformedLiteral text .unterminated) := by
  intro text
  have h : '\\' ∉ text := by decide
  obtain ⟨htokens, hsplit, -, hread⟩ := quoting_agrees text h
  exact ⟨h, htokens, hsplit, by decide +kernel, hread, rfl⟩

-- a backslash before a closing quote is what tells the rules apart
example : tokenize { dialect := .standard } "'a\\'".toList
    ≠ tokenize { dialect := .legacy } "'a\\'".toList := by decide +kernel

end SqlText
