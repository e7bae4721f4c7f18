import SqlText.Error
import SqlText.Literal.Escape

/-!
# Array literals

An array of one dimension is written as its elements between braces, with commas between them. An
element is bare or stands in double quotes, where a backslash escapes the next character. The bare
word `NULL`, in any case, is the missing value, so the text `null` is written in quotes.

Reading also takes the dimensions that may stand before the opening brace, and skips them.

## Main statements

* `closeElement_lt`, `element_le`: what follows an element is shorter, so reading ends.

## Termination

`elements` drops an element and a comma at each step (`termination_by t.length`).
-/

namespace SqlText

open Text

namespace ArrayLiteral

/-- The bare word for the missing value. -/
def null : Text := "NULL".toList

/-! ## Writing -/

/-- Whether a character needs no quotes. -/
def isPlain (c : Char) : Bool := c.isLower || c.isDigit || "_.%&=()<>*/+-".toList.contains c

/-- A character inside double quotes. -/
def quoteChar (c : Char) : Text := if c = '"' ∨ c = '\\' then ['\\', c] else [c]

/-- Writes a text as an element. -/
def quoteText (t : Text) : Text :=
  if !t.isEmpty && t.all isPlain && !sameWord t null then t
  else '"' :: t.flatMap quoteChar ++ ['"']

/-- Writes a value as an element. -/
def quoteElement : Option Text → Text
  | none => null
  | some t => quoteText t

/-- Writes values as an array. -/
def quote (values : List (Option Text)) : Text :=
  '{' :: List.intercalate [','] (values.map quoteElement) ++ ['}']

/-! ## Reading -/

/-- The text of an element whose quote is already open, escapes kept, and what follows it. -/
def closeElement : Text → Option (Text × Text)
  | [] => none
  | [c] => if c = '"' then some ([], []) else none
  | c :: d :: t =>
    if c = '"' then some ([], d :: t)
    else if c = '\\' then (closeElement t).map fun r => (c :: d :: r.1, r.2)
    else (closeElement (d :: t)).map fun r => (c :: r.1, r.2)

theorem closeElement_lt {t raw rest : Text} (h : closeElement t = some (raw, rest)) :
    rest.length < t.length := by
  fun_induction closeElement t generalizing raw with
  | case1 => cases h
  | case2 => cases h; simp
  | case3 => cases h
  | case4 => cases h; simp
  | case5 d t _ ih =>
    obtain ⟨⟨s, r⟩, hs, he⟩ := Option.map_eq_some_iff.1 h
    cases he
    have : r.length < t.length := ih hs
    simp only [List.length_cons]
    omega
  | case6 c d t _ _ ih =>
    obtain ⟨⟨s, r⟩, hs, he⟩ := Option.map_eq_some_iff.1 h
    cases he
    have : r.length < (d :: t).length := ih hs
    simp only [List.length_cons] at this ⊢
    omega

/-- Whether a character can be part of a bare element. -/
def isBarePart (c : Char) : Bool := c != ',' && c != '"' && c != '{' && c != '}'

/-- Reads the value of a bare element. -/
def bareValue (raw : Text) : Option Text :=
  if sameWord raw null then none else some (Escape.unescape raw)

/-- Reads an element, and gives what follows it. -/
def element (t : Text) : Except ArrayFault (Option Text × Text) :=
  if t.head? = some '"' then
    match closeElement t.tail with
    | none => .error .unterminated
    | some (raw, rest) => .ok (some (Escape.unescape raw), rest)
  else if (t.takeWhile isBarePart).isEmpty then .error .emptyElement
  else .ok (bareValue (t.takeWhile isBarePart), t.dropWhile isBarePart)

theorem element_le {t rest : Text} {value : Option Text} (h : element t = .ok (value, rest)) :
    rest.length ≤ t.length := by
  unfold element at h
  split at h
  · split at h
    · cases h
    · next raw rest hc =>
      have := closeElement_lt hc
      simp only [Except.ok.injEq, Prod.mk.injEq] at h
      rw [← h.2]
      simp only [List.length_tail] at this
      omega
  · split at h
    · cases h
    · simp only [Except.ok.injEq, Prod.mk.injEq] at h
      rw [← h.2]
      exact (List.dropWhile_sublist _).length_le

/-- Reads elements with commas between them; the last of them ends at byte offset `stop`. -/
def elements (stop : Nat) (t : Text) : Except Error (List (Option Text)) :=
  match _ : element t with
  | .error fault => .error (.invalidArray fault (stop - byteSize t))
  | .ok (value, []) => .ok [value]
  | .ok (value, c :: rest) =>
    if c = ',' then (elements stop rest).map (value :: ·)
    else .error (.invalidArray .noSeparator (stop - byteSize (c :: rest)))
termination_by t.length
decreasing_by
  rename_i h _
  have := element_le h
  simp only [List.length_cons] at this
  omega

/-- Whether a text starts as an array or its dimensions do, and ends as an array. -/
def isEnclosed (t : Text) : Bool :=
  (t.head? == some '{' || t.head? == some '[') && t.getLast? == some '}'

/-- Reads an array. -/
def unquote (t : Text) : Except Error (List (Option Text)) :=
  if isEnclosed t then
    match t.dropWhile (· != '{') with
    | [] => .error (.invalidArray .noOpeningBrace 0)
    | _ :: rest =>
      let body := rest.dropLast
      if body.isEmpty then .ok [] else elements (byteSize t - 1) body
  else .error (.invalidArray .noBraces 0)

end ArrayLiteral

end SqlText
