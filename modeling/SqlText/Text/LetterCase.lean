import SqlText.Text.LetterCase.Cased
import SqlText.Text.LetterCase.Lower
import SqlText.Text.LetterCase.Upper

/-!
# Lower case of texts

Each character becomes its small letter. The capital sigma has two: `ς` at the end of a word and `σ`
elsewhere, so the lower case of a text depends on the neighbours of each sigma.
-/

namespace SqlText

namespace Text

/--
The small letter of a capital sigma between `before`, nearest character first, and `after`. It is
the final form when the word has a letter before it and none after it.
-/
def lowerSigma (before after : Text) : Char :=
  if startsCased before && !startsCased after then '\u03C2' else '\u03C3'

/-- The lower case of a text that follows `before`, nearest character first. -/
def lowerAfter (before : Text) : Text → Text
  | [] => []
  | c :: t =>
    (if c = '\u03A3' then [lowerSigma before t] else lowerChar c) ++ lowerAfter (c :: before) t

/-- The lower case of a text. -/
def lower (t : Text) : Text := lowerAfter [] t

/--
Folds a name: a text with a capital letter becomes its lower case, and any other text stays. A text
without a capital letter may hold title-case letters, which stay too.
-/
def fold (t : Text) : Text := if t.any isUpper then lower t else t

/-- A name without capital letters stays as it is. -/
theorem fold_of_no_upper {t : Text} (h : ∀ c ∈ t, isUpper c = false) : fold t = t := by
  refine if_neg ?_
  simp only [List.any_eq_true, not_exists, not_and, Bool.not_eq_true]
  exact h

end Text

end SqlText
