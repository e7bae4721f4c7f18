import SqlText.Dialect
import SqlText.Text.Blank
import SqlText.Token.Basic

/-!
# Lexical rules

A rule reads the start of a text and says how many characters its lexeme has, or that no lexeme of
its kind stands there. The rules are tried in a fixed order and the first one that finds a lexeme
decides. A construct that is opened and never closed (a string, a quoted name, a dollar quote, a
block comment) is no lexeme: its rule finds nothing and the later rules have their turn. The last
rule takes any one character, so every text that is not empty starts with a lexeme.

## Main statements

* `scan?_eq_none_iff`: only the empty text has no first lexeme.
* `scan?_bounds`: a lexeme has a character, and lies inside the text.

## Termination

The search for a closing quote is structural. Joined names and runs of blanks drop a lexeme at each
step, so the text gets shorter (`termination_by t.length`).
-/

namespace SqlText

open Text

namespace Rule

/-! ## Characters of words -/

/-- Whether a character can start a word: a letter of ASCII or an underscore. -/
def isWordStart (c : Char) : Bool := c.isAlpha || c == '_'

/-- Whether a character can continue a word. -/
def isWordPart (c : Char) : Bool := c.isAlphanum || c == '_'

/-- Whether a character can continue a bare name: also a dollar sign. -/
def isNamePart (c : Char) : Bool := isWordPart c || c == '$'

/-! ## Quoted runs -/

/--
The number of characters up to and including the quote `q` that closes a run already opened. A
doubled quote stands for itself and the run goes on, and with `escapes` so does a backslash with the
character after it. Where the run would never close, the first quote of the last pair closes it.
-/
def closing (q : Char) (escapes : Bool) : Text → Option Nat
  | [] => none
  | [c] => if c = q then some 1 else none
  | c :: d :: t =>
    if c = q then
      if d = q then some (((closing q escapes t).map (· + 2)).getD 1) else some 1
    else if escapes && c == '\\' then (closing q escapes t).map (· + 2)
    else (closing q escapes (d :: t)).map (· + 1)

/-- A closing quote lies inside the text. -/
theorem closing_bounds {q : Char} {escapes : Bool} {t : Text} {n : Nat}
    (h : closing q escapes t = some n) : 0 < n ∧ n ≤ t.length := by
  fun_induction closing q escapes t generalizing n with
  | case1 => cases h
  | case2 => simp at h; simp [← h]
  | case3 => cases h
  | case4 t ih =>
    cases hr : closing q escapes t with
    | none => simp [hr] at h; simp [← h]
    | some m =>
      have := ih hr
      simp [hr] at h
      simp only [List.length_cons]
      omega
  | case5 => simp at h; simp [← h]
  | case6 c d t hc he ih =>
    obtain ⟨m, hm, rfl⟩ := Option.map_eq_some_iff.1 h
    have := ih hm
    simp only [List.length_cons]
    omega
  | case7 c d t hc he ih =>
    obtain ⟨m, hm, rfl⟩ := Option.map_eq_some_iff.1 h
    have := ih hm
    simp only [List.length_cons] at this ⊢
    omega

/-- A run between two quotes `q`. -/
def quoted (q : Char) (escapes : Bool) : Text → Option Nat
  | [] => none
  | c :: t => if c = q then (closing q escapes t).map (· + 1) else none

theorem quoted_bounds {q : Char} {escapes : Bool} {t : Text} {n : Nat}
    (h : quoted q escapes t = some n) : 0 < n ∧ n ≤ t.length := by
  unfold quoted at h
  split at h
  · cases h
  · split at h
    · obtain ⟨m, hm, rfl⟩ := Option.map_eq_some_iff.1 h
      have := closing_bounds hm
      simp only [List.length_cons]
      omega
    · cases h

/-- A string: a run between single quotes, or one with escapes after an `E`. -/
def string (standard : Bool) : Text → Option Nat
  | [] => none
  | c :: t =>
    if c = 'E' ∨ c = 'e' then (quoted '\'' true t).map (· + 1)
    else quoted '\'' (!standard) (c :: t)

theorem string_bounds {standard : Bool} {t : Text} {n : Nat} (h : string standard t = some n) :
    0 < n ∧ n ≤ t.length := by
  unfold string at h
  split at h
  · cases h
  · split at h
    · obtain ⟨m, hm, rfl⟩ := Option.map_eq_some_iff.1 h
      have := quoted_bounds hm
      simp only [List.length_cons]
      omega
    · exact quoted_bounds h

/-! ## Names -/

/-- One name: a bare word, or a run between double quotes. -/
def name : Text → Option Nat
  | [] => none
  | c :: t =>
    if isWordStart c then some (1 + runLength isNamePart t) else quoted '"' false (c :: t)

theorem name_bounds {t : Text} {n : Nat} (h : name t = some n) : 0 < n ∧ n ≤ t.length := by
  unfold name at h
  split at h
  · cases h
  · split at h
    · next c t _ =>
      have := runLength_le isNamePart t
      simp only [Option.some.injEq] at h
      simp only [List.length_cons]
      omega
    · exact quoted_bounds h

/-- The characters after a name that join further names to it: each a dot and a name. -/
def joined (t : Text) : Nat :=
  match t with
  | [] => 0
  | c :: r =>
    if c = '.' then
      match name r with
      | some n => 1 + n + joined (r.drop n)
      | none => 0
    else 0
termination_by t.length
decreasing_by simp only [List.length_drop, List.length_cons]; omega

theorem joined_le (t : Text) : joined t ≤ t.length := by
  fun_induction joined t with
  | case1 => simp
  | case2 r n hn ih =>
    have := name_bounds hn
    simp only [List.length_drop, List.length_cons] at ih ⊢
    omega
  | case3 => simp
  | case4 => simp

/-- A name, or in fully qualified mode the longest chain of names. -/
def identifier (fullyQualified : Bool) (t : Text) : Option (Kind × Nat) :=
  (name t).map fun n =>
    let more := if fullyQualified then joined (t.drop n) else 0
    let kind :=
      if 0 < more then .qualifiedIdentifier
      else if t.head? = some '"' then .quotedIdentifier
      else .identifier
    (kind, n + more)

theorem identifier_bounds {fullyQualified : Bool} {t : Text} {k : Kind} {n : Nat}
    (h : identifier fullyQualified t = some (k, n)) : 0 < n ∧ n ≤ t.length := by
  obtain ⟨m, hm, he⟩ := Option.map_eq_some_iff.1 h
  have hb := name_bounds hm
  have hj := joined_le (t.drop m)
  simp only [List.length_drop] at hj
  simp only [Prod.mk.injEq] at he
  obtain ⟨-, rfl⟩ := he
  split <;> omega

/-! ## Dollar quotes -/

/-- The tag that opens a dollar quote: two dollar signs, with a word between them or nothing. -/
def dollarTag : Text → Option Nat
  | [] => none
  | c :: t =>
    let n := if t.head?.any isWordStart then runLength isWordPart t else 0
    if c = '$' ∧ (t.drop n).head? = some '$' then some (n + 2) else none

theorem dollarTag_bounds {t : Text} {n : Nat} (h : dollarTag t = some n) :
    0 < n ∧ n ≤ t.length := by
  unfold dollarTag at h
  split at h
  · cases h
  · next c t =>
    generalize (if t.head?.any isWordStart then runLength isWordPart t else 0) = m at h
    simp only at h
    split at h
    · next hc =>
      have : m < t.length := by
        have := hc.2
        rw [List.head?_drop] at this
        exact (List.getElem?_eq_some_iff.1 this).1
      simp only [Option.some.injEq] at h
      simp only [List.length_cons]
      omega
    · cases h

/-- A dollar quote: from a tag to its next occurrence. -/
def dollarQuoted (t : Text) : Option Nat :=
  (dollarTag t).bind fun n => (indexOf? (t.take n) (t.drop n)).map fun k => n + k + n

theorem dollarQuoted_bounds {t : Text} {n : Nat} (h : dollarQuoted t = some n) :
    0 < n ∧ n ≤ t.length := by
  obtain ⟨m, hm, hk⟩ := Option.bind_eq_some_iff.1 h
  obtain ⟨k, hi, rfl⟩ := Option.map_eq_some_iff.1 hk
  have hb := dollarTag_bounds hm
  have hi := indexOf?_le hi
  simp only [List.length_take, List.length_drop] at hi
  omega

/-! ## Numbers and parameters -/

/-- Whether a character can continue a number: a digit, a point or the mark of an exponent. -/
def isNumberPart (c : Char) : Bool := c.isDigit || c == '.' || c == 'e' || c == 'E'

/-- A number: a digit, then digits, points and exponent marks. -/
def number : Text → Option Nat
  | [] => none
  | c :: t => if c.isDigit then some (1 + runLength isNumberPart t) else none

theorem number_bounds {t : Text} {n : Nat} (h : number t = some n) : 0 < n ∧ n ≤ t.length := by
  unfold number at h
  split at h
  · cases h
  · split at h
    · next c t _ =>
      have := runLength_le isNumberPart t
      simp only [Option.some.injEq] at h
      simp only [List.length_cons]
      omega
    · cases h

/-- A numbered parameter: a dollar sign and digits. -/
def numberedParam : Text → Option Nat
  | [] => none
  | c :: t =>
    let n := runLength Char.isDigit t
    if c = '$' ∧ 0 < n then some (1 + n) else none

theorem numberedParam_bounds {t : Text} {n : Nat} (h : numberedParam t = some n) :
    0 < n ∧ n ≤ t.length := by
  unfold numberedParam at h
  split at h
  · cases h
  · next c t =>
    have := runLength_le Char.isDigit t
    simp only at h
    split at h
    · simp only [Option.some.injEq] at h
      simp only [List.length_cons]
      omega
    · cases h

/-- A named parameter: `%(`, a word, `)s`. -/
def namedParam : Text → Option Nat
  | '%' :: '(' :: c :: t =>
    let n := runLength isWordPart t
    match t.drop n with
    | ')' :: s :: _ => if isWordStart c ∧ (s = 's' ∨ s = 'S') then some (n + 5) else none
    | _ => none
  | _ => none

theorem namedParam_bounds {t : Text} {n : Nat} (h : namedParam t = some n) :
    0 < n ∧ n ≤ t.length := by
  unfold namedParam at h
  split at h
  · next c t =>
    simp only at h
    split at h
    · next s r hr =>
      have := congrArg List.length hr
      simp only [List.length_drop, List.length_cons] at this
      split at h
      · simp only [Option.some.injEq] at h
        simp only [List.length_cons]
        omega
      · cases h
    · cases h
  · cases h

/-- Whether a character is no brace. -/
def isNoBrace (c : Char) : Bool := c != '{' && c != '}'

/-- A parameter in braces: at least one character between them, and none of them a brace. -/
def braceParam : Text → Option Nat
  | [] => none
  | c :: t =>
    let n := runLength isNoBrace t
    if c = '{' ∧ 0 < n ∧ (t.drop n).head? = some '}' then some (n + 2) else none

theorem braceParam_bounds {t : Text} {n : Nat} (h : braceParam t = some n) :
    0 < n ∧ n ≤ t.length := by
  unfold braceParam at h
  split at h
  · cases h
  · next c t =>
    generalize runLength isNoBrace t = m at h
    simp only at h
    split at h
    · next hc =>
      have : m < t.length := by
        have := hc.2.2
        rw [List.head?_drop] at this
        exact (List.getElem?_eq_some_iff.1 this).1
      simp only [Option.some.injEq] at h
      simp only [List.length_cons]
      omega
    · cases h

/-! ## Blanks -/

/-- A comment: `--` up to the end of the line, or `/*` up to the next `*/`. -/
def comment : Text → Option Nat
  | '-' :: '-' :: t => some (2 + runLength (· != '\n') t)
  | '/' :: '*' :: t => (indexOf? ['*', '/'] t).map (· + 4)
  | _ => none

/-- One blank: a white-space character or a comment. -/
def blankUnit : Text → Option Nat
  | [] => none
  | c :: t => if isBlank c then some 1 else comment (c :: t)

theorem comment_bounds {t : Text} {n : Nat} (h : comment t = some n) : 0 < n ∧ n ≤ t.length := by
  unfold comment at h
  split at h
  · next t =>
    have := runLength_le (· != '\n') t
    simp only [Option.some.injEq] at h
    simp only [List.length_cons]
    omega
  · obtain ⟨m, hm, rfl⟩ := Option.map_eq_some_iff.1 h
    have := indexOf?_le hm
    simp only [List.length_cons, List.length_nil] at this ⊢
    omega
  · cases h

theorem blankUnit_bounds {t : Text} {n : Nat} (h : blankUnit t = some n) :
    0 < n ∧ n ≤ t.length := by
  unfold blankUnit at h
  split at h
  · cases h
  · split at h
    · simp only [Option.some.injEq] at h; simp [← h]
    · exact comment_bounds h

/-- The length of the longest run of blanks. -/
def blankRun (t : Text) : Nat :=
  match _ : blankUnit t with
  | none => 0
  | some n => n + blankRun (t.drop n)
termination_by t.length
decreasing_by
  rename_i h
  have := blankUnit_bounds h
  simp only [List.length_drop]
  omega

theorem blankRun_le (t : Text) : blankRun t ≤ t.length := by
  fun_induction blankRun t with
  | case1 => simp
  | case2 t n h ih =>
    have := blankUnit_bounds h
    simp only [List.length_drop] at ih
    omega

/-- White space and comments, as many as stand together. -/
def blank (t : Text) : Option Nat := if 0 < blankRun t then some (blankRun t) else none

theorem blank_bounds {t : Text} {n : Nat} (h : blank t = some n) : 0 < n ∧ n ≤ t.length := by
  have := blankRun_le t
  unfold blank at h
  split at h
  · simp only [Option.some.injEq] at h
    omega
  · cases h

/-! ## Symbols -/

/-- Whether a character can be part of an operator. -/
def isOperator (c : Char) : Bool := "-+*~!@#^&|?/%<>=".toList.contains c

/-- Whether a character is a symbol by itself. -/
def isPunctuation (c : Char) : Bool := ",()[].:;".toList.contains c

/-- A symbol: a run of operator characters, or one punctuation character. -/
def symbol : Text → Option Nat
  | [] => none
  | c :: t =>
    if isOperator c then some (1 + runLength isOperator t)
    else if isPunctuation c then some 1
    else none

theorem symbol_bounds {t : Text} {n : Nat} (h : symbol t = some n) : 0 < n ∧ n ≤ t.length := by
  unfold symbol at h
  split at h
  · cases h
  · next c t =>
    have := runLength_le isOperator t
    split at h
    · simp only [Option.some.injEq] at h
      simp only [List.length_cons]
      omega
    · split at h
      · simp only [Option.some.injEq] at h
        simp only [List.length_cons]
        omega
      · cases h

/-- Any one character. -/
def anyOne (t : Text) : Option Nat := if t.isEmpty then none else some 1

theorem anyOne_bounds {t : Text} {n : Nat} (h : anyOne t = some n) : 0 < n ∧ n ≤ t.length := by
  cases t with
  | nil => simp [anyOne] at h
  | cons c t => simp [anyOne] at h; simp [← h]

/-- A rule whose lexemes are all of one kind. -/
def tagged (k : Kind) (rule : Text → Option Nat) (t : Text) : Option (Kind × Nat) :=
  (rule t).map (k, ·)

theorem tagged_eq_some {k k' : Kind} {rule : Text → Option Nat} {t : Text} {n : Nat} :
    tagged k rule t = some (k', n) ↔ k = k' ∧ rule t = some n := by
  simp only [tagged, Option.map_eq_some_iff, Prod.mk.injEq]
  constructor
  · rintro ⟨m, hm, rfl, rfl⟩
    exact ⟨rfl, hm⟩
  · rintro ⟨rfl, hm⟩
    exact ⟨n, hm, rfl, rfl⟩

/-- The rules in the order in which they are tried. -/
def rules (d : Dialect) : List (Text → Option (Kind × Nat)) :=
  [tagged .string (string d.standardQuoting),
   identifier d.fullyQualified,
   tagged .dollarString dollarQuoted,
   tagged .number number,
   tagged .numberedParam numberedParam,
   tagged .namedParam namedParam,
   tagged .braceParam braceParam,
   tagged .blank blank,
   tagged .symbol symbol,
   tagged .error anyOne]

/-- Every rule finds lexemes that have a character and lie inside the text. -/
theorem rules_bounds {d : Dialect} {rule : Text → Option (Kind × Nat)} (hr : rule ∈ rules d)
    {t : Text} {k : Kind} {n : Nat} (h : rule t = some (k, n)) : 0 < n ∧ n ≤ t.length := by
  simp only [rules, List.mem_cons, List.not_mem_nil, or_false] at hr
  rcases hr with rfl | rfl | rfl | rfl | rfl | rfl | rfl | rfl | rfl | rfl
  · exact string_bounds (tagged_eq_some.1 h).2
  · exact identifier_bounds h
  · exact dollarQuoted_bounds (tagged_eq_some.1 h).2
  · exact number_bounds (tagged_eq_some.1 h).2
  · exact numberedParam_bounds (tagged_eq_some.1 h).2
  · exact namedParam_bounds (tagged_eq_some.1 h).2
  · exact braceParam_bounds (tagged_eq_some.1 h).2
  · exact blank_bounds (tagged_eq_some.1 h).2
  · exact symbol_bounds (tagged_eq_some.1 h).2
  · exact anyOne_bounds (tagged_eq_some.1 h).2

end Rule

/-! ## The first lexeme -/

/-- The kind and the length of the lexeme that a text starts with: the first rule decides. -/
def scan? (d : Dialect) (t : Text) : Option (Kind × Nat) := (Rule.rules d).findSome? (· t)

/-- A lexeme has a character and lies inside the text. -/
theorem scan?_bounds {d : Dialect} {t : Text} {k : Kind} {n : Nat}
    (h : scan? d t = some (k, n)) : 0 < n ∧ n ≤ t.length := by
  obtain ⟨rule, hr, h⟩ := List.exists_of_findSome?_eq_some h
  exact Rule.rules_bounds hr h

/-- Only the empty text has no first lexeme. -/
theorem scan?_eq_none_iff {d : Dialect} {t : Text} : scan? d t = none ↔ t = [] := by
  constructor
  · intro h
    have h := List.findSome?_eq_none_iff.1 h (Rule.tagged .error Rule.anyOne) (by simp [Rule.rules])
    cases t with
    | nil => rfl
    | cons c t => simp [Rule.tagged, Rule.anyOne] at h
  · rintro rfl
    cases h : scan? d [] with
    | none => rfl
    | some r =>
      have := scan?_bounds h
      simp only [List.length_nil] at this
      omega

end SqlText
