import SqlText.Proofs.Token.Locality

/-!
# What the options of a scan change

A scan finds the same lexemes whatever it is asked to report. The options choose what is shown of
them: whether blanks are, and whether each token tells how many characters the source has up to its
end. Leaving out blanks moves nothing, and the characters of blanks that are left out are counted
all the same.

## Main statements

* `map_unlocated_place`: asking for locations changes nothing else.
* `location_of_mem_tokenize`: a location counts the characters of the source up to the token's end.
* `tokenize_options`: the options are projections of one scan.
-/

namespace SqlText

open Text Lexeme

/-- The token without its location. -/
def Token.unlocated (t : Token) : Token := { t with location := none }

/-- **Asking for locations changes nothing else.** -/
theorem Lexeme.map_unlocated_place (o : Options) (p n : Nat) (ls : List Lexeme) :
    (place o p n ls).map Token.unlocated = place { o with showLocation := false } p n ls := by
  induction ls generalizing p n with
  | nil => rfl
  | cons l ls ih =>
    have hkept : l.isKept { o with showLocation := false } = l.isKept o := rfl
    rw [place, place, hkept]
    split
    · rw [List.map_cons, ih]
      rfl
    · exact ih _ _

/-- **A location counts the characters of the source up to the end of the token**, if asked for. -/
theorem location_of_mem_tokenize {o : Options} {source : Text} {t : Token}
    (h : t ∈ tokenize o source) :
    ∃ s, slice? source 0 t.stop = some s ∧
      t.location = if o.showLocation then some s.length else none := by
  rw [tokenize_eq_place] at h
  obtain ⟨ls, l, ms, hl, rfl⟩ := exists_of_mem_place h
  have hsource : source = [] ++ (spell ls ++ l.2) ++ spell ms := by
    rw [← spell_lexemes o.dialect source, hl, spell_append, spell_cons, List.nil_append,
      List.append_assoc]
  refine ⟨spell ls ++ l.2, ?_, ?_⟩
  · have hslice := slice?_append [] (spell ls ++ l.2) (spell ms)
    rw [← hsource, byteSize_nil, Nat.zero_add, byteSize_append] at hslice
    rw [toToken, Nat.zero_add]
    exact hslice
  · simp only [toToken, Nat.zero_add, List.length_append]

/--
**The options are projections of one scan.** The tokens without blanks are the tokens with them,
less the blanks, and nothing else about them changes. Asking for locations changes the locations
only. A location is the number of characters of the source up to the end of its token, whether
blanks before it were left out or not, and where it is not asked for there is none.
-/
theorem tokenize_options (o : Options) (source : Text) :
    tokenize { o with ignoreBlanks := true } source
      = (tokenize { o with ignoreBlanks := false } source).filter (fun t => !t.isBlank) ∧
    (tokenize { o with showLocation := true } source).map Token.unlocated
      = tokenize { o with showLocation := false } source ∧
    ∀ t ∈ tokenize o source, ∃ s, slice? source 0 t.stop = some s ∧
      t.location = if o.showLocation then some s.length else none := by
  refine ⟨?_, ?_, fun t ht => location_of_mem_tokenize ht⟩
  · rw [tokenize_eq_place, tokenize_eq_place]
    exact place_ignoreBlanks o 0 0 _
  · rw [tokenize_eq_place, tokenize_eq_place]
    exact map_unlocated_place { o with showLocation := true } 0 0 _

/-- Behind a comment that is left out, and letters of two bytes in and around it. -/
theorem tokenize_options_comment :
    let o : Options := { ignoreBlanks := true, showLocation := true }
    let source := "é /*é*/ é'x'".toList
    ∃ t ∈ tokenize o source, t.kind = .string ∧ t.stop = 15 ∧
      ∃ s, slice? source 0 t.stop = some s ∧
        t.location = if o.showLocation then some s.length else none := by
  intro o source
  have hstring : ∃ t ∈ tokenize o source, t.kind = .string ∧ t.stop = 15 := by decide +kernel
  obtain ⟨t, ht, hkind, hstop⟩ := hstring
  exact ⟨t, ht, hkind, hstop, (tokenize_options o source).2.2 t ht⟩

end SqlText
