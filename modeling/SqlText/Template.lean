import SqlText.Literal.Basic

/-!
# Statement templates

A template is a statement with placeholders: `%s` for values given in order, or `%(name)s` for
values given by name. Filling it writes the literal of each value in place of its placeholder, and
one percent sign for a doubled one. Nothing else is interpreted, and what was filled in is not read
again.

## Main statements

* `Params.filling_lt`: what follows a placeholder is shorter, so filling ends.

## Termination

`fill` drops at least a percent sign or the character before it (`termination_by t.length`).
-/

namespace SqlText

open Text

namespace Template

/-- The values of a template's placeholders. -/
inductive Params
  /-- Values by name; the first entry of a name counts. -/
  | named (entries : List (Text × Option Text))
  /-- Values in order. -/
  | positional (values : List (Option Text))
  deriving DecidableEq, Repr

/-- The literal of the value with an index; a value that is not there is left out. -/
def literalAt (values : List (Option Text)) (index : Nat) : Text :=
  match values[index]? with
  | none => []
  | some v => Literal.quote v

/-- The index is looked up, and what is found there is quoted. -/
theorem literalAt_eq (values : List (Option Text)) (index : Nat) :
    literalAt values index = (values[index]?).elim [] Literal.quote := by
  unfold literalAt
  cases values[index]? with
  | none => rfl
  | some v => rfl

/-- What a percent sign and the characters behind it come to. -/
structure Filling where
  /-- The text that takes their place. -/
  literal : Text
  /-- The number of values in order used up so far. -/
  used : Nat
  /-- The rest of the template. -/
  rest : Text
  deriving DecidableEq, Repr

/-- Reads what follows the percent sign at byte offset `position`, in the style of the values. -/
def Params.filling (params : Params) (position used : Nat) : Text → Except Error Filling
  | [] => .error (.malformedPlaceholder position)
  | c :: t =>
    if c = '%' then .ok ⟨['%'], used, t⟩
    else
      match params with
      | positional values =>
        if c = 's' then .ok ⟨literalAt values used, used + 1, t⟩
        else .error (.malformedPlaceholder position)
      | named entries =>
        if c = '(' then
          match indexOf? [')', 's'] t with
          | none => .error (.malformedPlaceholder position)
          | some n =>
            match entries.lookup (t.take n) with
            | none => .error (.missingParameter (t.take n))
            | some v => .ok ⟨Literal.quote v, used, t.drop (n + 2)⟩
        else .error (.malformedPlaceholder position)

/-- What is left after a percent sign is shorter. -/
theorem Params.filling_lt {params : Params} {position used : Nat} {t : Text} {f : Filling}
    (h : params.filling position used t = .ok f) : f.rest.length < t.length := by
  unfold filling at h
  split at h
  · cases h
  · split at h
    · cases h; simp
    · split at h
      · split at h
        · cases h; simp
        · cases h
      · split at h
        · split at h
          · cases h
          · split at h
            · cases h
            · cases h
              simp only [List.length_drop, List.length_cons]
              omega
        · cases h

/-- A template filled in, and the number of values in order that it asked for. -/
structure Filled where
  text : Text
  used : Nat
  deriving DecidableEq, Repr

/-- Puts a text before a filled template. -/
def Filled.push (t : Text) (f : Filled) : Filled := { f with text := t ++ f.text }

/--
Fills a template that ends at byte offset `stop`, where `used` values in order are already used up.
-/
def fill (params : Params) (stop used : Nat) (t : Text) : Except Error Filled :=
  match t with
  | [] => .ok ⟨[], used⟩
  | c :: t =>
    if c = '%' then
      match _ : params.filling (stop - byteSize (c :: t)) used t with
      | .error e => .error e
      | .ok f => (fill params stop f.used f.rest).map (·.push f.literal)
    else (fill params stop used t).map (·.push [c])
termination_by t.length
decreasing_by
  · rename_i h
    have := Params.filling_lt h
    simp only [List.length_cons]
    omega
  · simp only [List.length_cons]; omega

/-- Fills a template. Values in order have to be as many as their placeholders. -/
def render (params : Params) (template : Text) : Except Error Text := do
  let filled ← fill params (byteSize template) 0 template
  match params with
  | .named _ => return filled.text
  | .positional values =>
    if filled.used = values.length then return filled.text
    else throw (.parameterCount filled.used values.length)

end Template

end SqlText
