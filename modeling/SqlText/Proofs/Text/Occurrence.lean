import Mathlib.Data.List.Infix
import SqlText.Text.Basic

/-!
# The first occurrence of a text

The search for a text stops where it stands first. Said without the search: the text stands there,
and what stands before it, together with all of it but its last character, does not hold it. An
occurrence that overlaps the one that was found would end inside that part.

## Main statements

* `Text.indexOf?_eq_some_iff`: where a text is found.
* `Text.indexOf?_eq_none_iff`: a text is not found if it does not stand anywhere.
-/

namespace SqlText

namespace Text

/-- A text is found where it stands, if it does not stand before, nor begins there and goes on. -/
theorem indexOf?_eq_some_iff {needle t : Text} {n : Nat} (hne : needle ≠ []) :
    indexOf? needle t = some n ↔
      ∃ before behind, t = before ++ needle ++ behind ∧ before.length = n ∧
        ¬needle <:+: before ++ needle.dropLast := by
  have hpart : ∀ before behind : Text,
      before ++ needle.dropLast <+: before ++ needle ++ behind := fun before behind =>
    ((List.prefix_append_right_inj before).2 (List.dropLast_prefix needle)).trans
      (List.prefix_append _ behind)
  have hlength : needle.dropLast.length + 1 = needle.length := by
    have := List.length_pos_iff.2 hne
    rw [List.length_dropLast]
    omega
  constructor
  · intro h
    induction t generalizing n with
    | nil =>
      rw [indexOf?, if_neg (by simpa using hne)] at h
      cases h
    | cons c t ih =>
      rw [indexOf?] at h
      split at h
      · next hp =>
        cases h
        obtain ⟨behind, hbehind⟩ := List.isPrefixOf_iff_prefix.1 hp
        refine ⟨[], behind, hbehind.symm, rfl, fun hin => ?_⟩
        have hle := hin.length_le
        rw [List.nil_append] at hle
        omega
      · next hp =>
        obtain ⟨m, hm, rfl⟩ := Option.map_eq_some_iff.1 h
        obtain ⟨before, behind, rfl, rfl, hno⟩ := ih hm
        refine ⟨c :: before, behind, rfl, rfl, fun hin => ?_⟩
        rcases List.infix_cons_iff.1 hin with hstart | hin
        · exact hp (List.isPrefixOf_iff_prefix.2 (hstart.trans (hpart (c :: before) behind)))
        · exact hno hin
  · rintro ⟨before, behind, rfl, rfl, hno⟩
    induction before with
    | nil =>
      obtain ⟨c, needle, rfl⟩ := List.exists_cons_of_ne_nil hne
      rw [List.nil_append, List.cons_append, indexOf?, ← List.cons_append,
        if_pos (List.isPrefixOf_iff_prefix.2 (List.prefix_append _ _))]
      rfl
    | cons c before ih =>
      have hstart : ¬needle.isPrefixOf (c :: (before ++ needle ++ behind)) = true := by
        intro hp
        refine hno (List.IsPrefix.isInfix (List.prefix_of_prefix_length_le
          (List.isPrefixOf_iff_prefix.1 hp) (hpart (c :: before) behind) ?_))
        rw [List.length_append, List.length_cons]
        omega
      have hrest := ih fun hin => hno (List.infix_cons hin)
      rw [List.cons_append, List.cons_append, indexOf?, if_neg hstart, hrest]
      rfl

theorem indexOf?_eq_none_iff {needle t : Text} (hne : needle ≠ []) :
    indexOf? needle t = none ↔ ¬needle <:+: t := by
  induction t with
  | nil => simp [indexOf?, hne]
  | cons c t ih =>
    rw [indexOf?, List.infix_cons_iff, not_or, ← ih, ← List.isPrefixOf_iff_prefix]
    split
    · next hp => simp [hp]
    · next hp => simp [hp]

end Text

end SqlText
