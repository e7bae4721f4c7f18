import SqlText.Proofs.Text.Occurrence
import SqlText.Proofs.Token.InPlace

/-!
# Where blanks end

Blanks are made of units: white-space characters, comments up to the end of their line, and
comments between marks. Which unit stands at the start of a text hangs on what follows, since a
comment ends where its line ends, or at the first closing mark. So a unit is said together with what
stands behind it (`IsBlankUnit`), and so is a run of units (`IsBlankRun`).

The rule of blanks takes whole units and stops where none starts. At most one unit starts at a
place, so no run of units reaches further. Two blanks never stand next to each other, and a comment
that is opened and never closed is no blank: its mark is read as an operator.

In place the end of a run is searched turn by turn, by offsets into the source. A turn passes a
comment, or white space as far as it goes, and the search stops at the end of the source without
another turn. Each turn that does not stop passes a character, so the search ends.

## Main statements

* `blankUnit_eq_some_iff`: the rule finds a unit if and only if one stands there.
* `blankRun_eq_length_iff`: the rule of blanks finds the whole run of units.
* `blankTurn_cases`: what a turn of the search does.
* `exists_blanksStop`: the search ends behind the whole run.
* `isChain_lexemes`: two blanks are never neighbours.
* `blanks_end_where_no_unit_starts`: all of it for the tokens of a source.
-/

namespace SqlText

open Text Lexeme

namespace Rule

/-! ## Units -/

/--
A unit of blanks, and what stands behind it: a white-space character, a comment from `--` up to the
end of its line, or a comment from `/*` to the first `*/` behind that mark.
-/
inductive IsBlankUnit : (unit rest : Text) → Prop
  | space {c : Char} {rest : Text} : isBlank c = true → IsBlankUnit [c] rest
  | line {body rest : Text} : '\n' ∉ body → (∀ c ∈ rest.head?, c = '\n') →
      IsBlankUnit ('-' :: '-' :: body) rest
  | block {body rest : Text} : ¬['*', '/'] <:+: body ++ ['*'] →
      IsBlankUnit ('/' :: '*' :: (body ++ ['*', '/'])) rest

/-- Whether a unit of blanks starts a text. -/
def StartsBlank (t : Text) : Prop := ∃ unit rest, t = unit ++ rest ∧ IsBlankUnit unit rest

/-- The rest of a line ends before a newline or at the end of the text. -/
theorem runLength_line_iff {t : Text} {n : Nat} :
    runLength (· != '\n') t = n ↔
      ∃ body rest, t = body ++ rest ∧ body.length = n ∧ '\n' ∉ body ∧
        ∀ c ∈ rest.head?, c = '\n' := by
  constructor
  · rintro rfl
    refine ⟨_, _, (List.takeWhile_append_dropWhile (p := (· != '\n'))).symm, rfl, fun hmem => ?_,
      fun c hc => ?_⟩
    · exact absurd (List.all_eq_true.1 List.all_takeWhile _ hmem) (by decide)
    · have hfirst := List.head?_dropWhile_not (· != '\n') t
      rw [Option.mem_def.1 hc] at hfirst
      simpa using hfirst
  · rintro ⟨body, rest, rfl, rfl, hbody, hrest⟩
    have hpass : ∀ c ∈ body, (c != '\n') = true := by
      intro c hc
      rw [bne_iff_ne]
      rintro rfl
      exact hbody hc
    have hstop : ∀ c ∈ rest.head?, (c != '\n') = false := by
      intro c hc
      rw [hrest c hc]
      rfl
    exact runLength_append_of_all hpass hstop

/-- **The rule finds a unit of blanks if and only if one stands there.** -/
theorem blankUnit_eq_some_iff {t : Text} {n : Nat} :
    blankUnit t = some n ↔
      ∃ unit rest, t = unit ++ rest ∧ unit.length = n ∧ IsBlankUnit unit rest := by
  have hmarks : (['*', '/'] : Text) ≠ [] := by simp
  constructor
  · intro h
    cases t with
    | nil => cases h
    | cons c t =>
      rw [blankUnit] at h
      split at h
      · next hc =>
        cases h
        exact ⟨[c], t, rfl, rfl, .space hc⟩
      · rcases comment_eq_some_iff.1 h with ⟨u, ht, rfl⟩ | ⟨u, m, ht, hm, rfl⟩
        · obtain ⟨body, rest, rfl, hlength, hbody, hrest⟩ := (runLength_line_iff (t := u)).1 rfl
          refine ⟨'-' :: '-' :: body, rest, ht, ?_, .line hbody hrest⟩
          rw [List.length_cons, List.length_cons, ← hlength]
          omega
        · obtain ⟨body, rest, rfl, rfl, hfirst⟩ := (indexOf?_eq_some_iff hmarks).1 hm
          refine ⟨'/' :: '*' :: (body ++ ['*', '/']), rest, ht, ?_, .block hfirst⟩
          simp
  · rintro ⟨unit, rest, rfl, rfl, hunit⟩
    cases hunit with
    | @space c _ hc =>
      rw [List.singleton_append, blankUnit, if_pos hc]
      rfl
    | @line body _ hbody hrest =>
      have hrun := runLength_line_iff.2 ⟨body, rest, rfl, rfl, hbody, hrest⟩
      rw [List.cons_append, blankUnit, if_neg (by decide)]
      refine comment_eq_some_iff.2 (Or.inl ⟨body ++ rest, rfl, ?_⟩)
      rw [hrun, List.length_cons, List.length_cons]
      omega
    | @block body _ hfirst =>
      have hfound : indexOf? ['*', '/'] (body ++ ['*', '/'] ++ rest) = some body.length :=
        (indexOf?_eq_some_iff hmarks).2 ⟨body, rest, rfl, rfl, hfirst⟩
      rw [List.cons_append, blankUnit, if_neg (by decide)]
      refine comment_eq_some_iff.2 (Or.inr ⟨_, _, rfl, hfound, ?_⟩)
      simp

theorem IsBlankUnit.blankUnit_append {unit rest : Text} (h : IsBlankUnit unit rest) :
    blankUnit (unit ++ rest) = some unit.length :=
  blankUnit_eq_some_iff.2 ⟨unit, rest, rfl, rfl, h⟩

/-- The rule finds nothing if and only if no unit of blanks stands there. -/
theorem blankUnit_eq_none_iff {t : Text} : blankUnit t = none ↔ ¬StartsBlank t := by
  constructor
  · rintro h ⟨unit, rest, rfl, hunit⟩
    rw [hunit.blankUnit_append] at h
    cases h
  · intro h
    cases hunit : blankUnit t with
    | none => rfl
    | some n =>
      obtain ⟨unit, rest, ht, -, hunit⟩ := blankUnit_eq_some_iff.1 hunit
      exact absurd ⟨unit, rest, ht, hunit⟩ h

theorem not_startsBlank_nil : ¬StartsBlank [] := blankUnit_eq_none_iff.1 rfl

/-- **An opening mark starts a unit of blanks if and only if a closing mark follows somewhere.** -/
theorem startsBlank_opened_iff {t : Text} :
    StartsBlank ('/' :: '*' :: t) ↔ ['*', '/'] <:+: t := by
  rw [← not_iff_not, ← blankUnit_eq_none_iff, ← indexOf?_eq_none_iff (by simp), blankUnit,
    if_neg (by decide), comment, Option.map_eq_none_iff]

/-! ## Runs of units -/

/-- A text that units of blanks make up, one after another, and what stands behind it. -/
inductive IsBlankRun : (run rest : Text) → Prop
  | nil {rest : Text} : IsBlankRun [] rest
  | cons {unit run rest : Text} : IsBlankUnit unit (run ++ rest) → IsBlankRun run rest →
      IsBlankRun (unit ++ run) rest

/-- A run of blanks that does not go on. -/
structure IsWholeRun (run rest : Text) : Prop where
  isBlankRun : IsBlankRun run rest
  ends : ¬StartsBlank rest

namespace IsBlankRun

theorem append {run run' rest : Text} (h : IsBlankRun run (run' ++ rest))
    (h' : IsBlankRun run' rest) : IsBlankRun (run ++ run') rest := by
  generalize hbehind : run' ++ rest = behind at h
  induction h with
  | nil => exact h'
  | cons hunit _ ih =>
    subst hbehind
    rw [List.append_assoc]
    exact .cons (by rwa [List.append_assoc]) (ih rfl)

theorem of_unit {unit rest : Text} (h : IsBlankUnit unit rest) : IsBlankRun unit rest := by
  have hrun : IsBlankRun (unit ++ []) rest := cons h nil
  rwa [List.append_nil] at hrun

/-- White space is a run of blanks, whatever stands behind it. -/
theorem of_forall_isBlank {run : Text} (h : ∀ c ∈ run, isBlank c = true) (rest : Text) :
    IsBlankRun run rest := by
  induction run with
  | nil => exact nil
  | cons c run ih =>
    exact cons (.space (h c List.mem_cons_self)) (ih fun x hx => h x (List.mem_cons_of_mem c hx))

/-- The rule of blanks passes a run of them. -/
theorem blankRun_append {run rest : Text} (h : IsBlankRun run rest) :
    blankRun (run ++ rest) = run.length + blankRun rest := by
  induction h with
  | nil => exact (Nat.zero_add _).symm
  | @cons unit run rest hunit _ ih =>
    rw [List.append_assoc, blankRun_of_blankUnit hunit.blankUnit_append, List.drop_left, ih,
      List.length_append, Nat.add_assoc]

end IsBlankRun

/-- **The rule of blanks finds the whole run of units**, and nothing else. -/
theorem blankRun_eq_length_iff {run rest : Text} :
    blankRun (run ++ rest) = run.length ↔ IsWholeRun run rest := by
  constructor
  · intro h
    generalize ht : run ++ rest = t at h
    fun_induction blankRun t generalizing run with
    | case1 t hunit =>
      obtain rfl : run = [] := List.length_eq_zero_iff.1 h.symm
      subst ht
      exact ⟨.nil, blankUnit_eq_none_iff.1 hunit⟩
    | case2 t n hfound ih =>
      obtain ⟨unit, behind, rfl, rfl, hunit⟩ := blankUnit_eq_some_iff.1 hfound
      rw [List.drop_left] at h ih
      obtain ⟨run', rfl⟩ : unit <+: run :=
        List.prefix_of_prefix_length_le (List.prefix_append unit behind) ⟨rest, ht⟩ (by omega)
      rw [List.append_assoc, List.append_cancel_left_eq] at ht
      obtain ⟨hrun, hends⟩ := ih ht (by rw [List.length_append] at h; omega)
      exact ⟨.cons (ht ▸ hunit) hrun, hends⟩
  · rintro ⟨hrun, hends⟩
    rw [hrun.blankRun_append, blankRun_eq_zero (blankUnit_eq_none_iff.2 hends), Nat.add_zero]

namespace IsWholeRun

theorem blank_append {run rest : Text} (h : IsWholeRun run rest) :
    blank (run ++ rest) = if run = [] then none else some run.length := by
  rw [blank, blankRun_eq_length_iff.2 h]
  by_cases hrun : run = []
  · rw [if_neg (by simp [hrun]), if_pos hrun]
  · rw [if_pos (List.length_pos_iff.2 hrun), if_neg hrun]

/-- **No run of blanks reaches further than the whole run.** -/
theorem isPrefix_of_isBlankRun {run rest run' rest' : Text} (h : IsWholeRun run rest)
    (h' : IsBlankRun run' rest') (ht : run' ++ rest' = run ++ rest) : run' <+: run := by
  have hlength := blankRun_eq_length_iff.2 h
  rw [← ht, h'.blankRun_append] at hlength
  exact List.prefix_of_prefix_length_le ⟨rest', ht⟩ (List.prefix_append run rest) (by omega)

end IsWholeRun

end Rule

open Rule

/-! ## The search in place -/

/--
The characters that a turn of the search passes: a comment up to the end of its line, a comment up
to its closing mark, or white space as far as it goes. Nothing where none of them starts.
-/
def turnLength (rest : Text) : Option Nat :=
  if ['-', '-'].isPrefixOf rest then some (runLength (· != '\n') rest)
  else if ['/', '*'].isPrefixOf rest then (indexOf? ['*', '/'] (rest.drop 2)).map (· + 4)
  else if 0 < runLength isBlank rest then some (runLength isBlank rest)
  else none

/-- What a turn of the search for the end of blanks comes to. -/
inductive BlankTurn
  /-- The search goes on at a byte offset. -/
  | on (i : Nat)
  /-- The search stops at a byte offset. -/
  | stop (i : Nat)
  /-- The source cannot be cut where the turn starts. -/
  | fail

/--
A turn of the search at a byte offset. What follows is cut out of the source. The search stops where
the turn passes nothing, and also where it comes to the end of the source.
-/
def blankTurn (source : Text) (i : Nat) : BlankTurn :=
  match fromByte? source i with
  | none => .fail
  | some rest =>
    match turnLength rest with
    | none => .stop i
    | some n =>
      let j := i + bytesOf rest n
      if byteSize source ≤ j then .stop j else .on j

/-- Where the search from a byte offset on has stopped after so many turns, if it has stopped. -/
def blanksStop (source : Text) : (turns i : Nat) → Option Nat
  | 0, _ => none
  | turns + 1, i =>
    match blankTurn source i with
    | .on j => blanksStop source turns j
    | .stop j => some j
    | .fail => none

/-- A turn at a comment passes this one unit, if the comment is closed. -/
theorem turnLength_of_comment {t : Text} (h : ['-', '-'] <+: t ∨ ['/', '*'] <+: t) :
    turnLength t = blankUnit t := by
  rcases h with ⟨u, rfl⟩ | ⟨u, rfl⟩
  · have hrun : runLength (· != '\n') ('-' :: '-' :: u) = 2 + runLength (· != '\n') u := by
      rw [runLength_cons, runLength_cons, if_pos (by decide), if_pos (by decide)]
      omega
    simp [turnLength, hrun, blankUnit, comment, show isBlank '-' = false by decide]
  · simp [turnLength, blankUnit, comment, show isBlank '/' = false by decide]

/-- A turn anywhere else passes white space. -/
theorem turnLength_of_not_comment {t : Text} (h : ¬(['-', '-'] <+: t ∨ ['/', '*'] <+: t)) :
    turnLength t = if 0 < runLength isBlank t then some (runLength isBlank t) else none := by
  rw [not_or, ← List.isPrefixOf_iff_prefix, ← List.isPrefixOf_iff_prefix] at h
  rw [turnLength, if_neg h.1, if_neg h.2]

/-- **A turn passes a run of blanks, and passes nothing only where none starts.** -/
theorem turnLength_cases (t : Text) :
    (¬StartsBlank t ∧ turnLength t = none) ∨
      ∃ run rest, t = run ++ rest ∧ run ≠ [] ∧ IsBlankRun run rest ∧
        turnLength t = some run.length := by
  by_cases hcomment : ['-', '-'] <+: t ∨ ['/', '*'] <+: t
  · rw [turnLength_of_comment hcomment]
    cases hfound : blankUnit t with
    | none => exact Or.inl ⟨blankUnit_eq_none_iff.1 hfound, rfl⟩
    | some n =>
      have hpos := (blankUnit_bounds hfound).1
      obtain ⟨unit, rest, ht, rfl, hunit⟩ := blankUnit_eq_some_iff.1 hfound
      exact Or.inr ⟨unit, rest, ht, List.length_pos_iff.1 hpos, .of_unit hunit, rfl⟩
  · rw [turnLength_of_not_comment hcomment]
    by_cases hpos : 0 < runLength isBlank t
    · have hrun : IsBlankRun (t.takeWhile isBlank) (t.dropWhile isBlank) :=
        .of_forall_isBlank (fun c hc => List.all_eq_true.1 List.all_takeWhile c hc) _
      exact Or.inr ⟨_, _, List.takeWhile_append_dropWhile.symm, List.length_pos_iff.1 hpos, hrun,
        if_pos hpos⟩
    · refine Or.inl ⟨?_, if_neg hpos⟩
      rintro ⟨unit, rest, rfl, hunit⟩
      cases hunit with
      | space hc => exact hpos (by simp [runLength, hc])
      | line => exact hcomment (Or.inl (List.prefix_append ['-', '-'] _))
      | block => exact hcomment (Or.inr (List.prefix_append ['/', '*'] _))

/--
**A turn stops behind the whole run of blanks, or passes a part of it and goes on.** It never starts
inside a character.
-/
theorem blankTurn_cases (s t : Text) :
    (∃ run rest, t = run ++ rest ∧ IsWholeRun run rest ∧
      blankTurn (s ++ t) (byteSize s) = .stop (byteSize (s ++ run))) ∨
    ∃ run rest, t = run ++ rest ∧ run ≠ [] ∧ IsBlankRun run rest ∧
      blankTurn (s ++ t) (byteSize s) = .on (byteSize (s ++ run)) := by
  simp only [blankTurn, fromByte?_append]
  rcases turnLength_cases t with ⟨hends, hturn⟩ | ⟨run, rest, rfl, hne, hrun, hturn⟩
  · exact Or.inl ⟨[], t, rfl, ⟨.nil, hends⟩, by rw [hturn, List.append_nil]⟩
  · have hpassed : byteSize s + bytesOf (run ++ rest) run.length = byteSize (s ++ run) := by
      rw [bytesOf, List.take_left, byteSize_append]
    simp only [hturn, hpassed]
    by_cases hend : byteSize (s ++ (run ++ rest)) ≤ byteSize (s ++ run)
    · -- the end of the source: no unit starts there
      have hrest : rest = [] := by
        have hle := length_le_byteSize rest
        simp only [byteSize_append] at hend
        exact List.length_eq_zero_iff.1 (by omega)
      subst hrest
      exact Or.inl ⟨run, [], rfl, ⟨hrun, not_startsBlank_nil⟩, if_pos hend⟩
    · exact Or.inr ⟨run, rest, rfl, hne, hrun, if_neg hend⟩

/--
**The search ends behind the whole run of blanks.** Each turn but the last passes a character of it,
so there are no more turns than characters, and one.
-/
theorem exists_blanksStop (s t : Text) :
    ∃ run rest, t = run ++ rest ∧ IsWholeRun run rest ∧ ∀ turns, run.length < turns →
      blanksStop (s ++ t) turns (byteSize s) = some (byteSize (s ++ run)) := by
  induction hlength : t.length using Nat.strongRecOn generalizing s t with
  | ind k ih =>
    rcases blankTurn_cases s t with
      ⟨run, rest, rfl, hrun, hturn⟩ | ⟨run, behind, rfl, hne, hrun, hturn⟩
    · refine ⟨run, rest, rfl, hrun, fun turns hturns => ?_⟩
      obtain ⟨n, rfl⟩ : ∃ n, turns = n + 1 := ⟨turns - 1, by omega⟩
      simp only [blanksStop, hturn]
    · have hpos := List.length_pos_iff.2 hne
      rw [List.length_append] at hlength
      obtain ⟨run', rest, rfl, ⟨hrun', hends⟩, hstop⟩ :=
        ih behind.length (by omega) (s ++ run) behind rfl
      refine ⟨run ++ run', rest, (List.append_assoc _ _ _).symm, ⟨hrun.append hrun', hends⟩,
        fun turns hturns => ?_⟩
      rw [List.length_append] at hturns
      obtain ⟨n, rfl⟩ : ∃ n, turns = n + 1 := ⟨turns - 1, by omega⟩
      simp only [blanksStop, hturn]
      simpa only [List.append_assoc] using hstop n (by omega)

/-! ## Blanks among the tokens -/

theorem blank_of_scan? {d : Dialect} {t : Text} {n : Nat} (h : scan? d t = some (.blank, n)) :
    blank t = some n := by
  obtain ⟨rule, hmem, hrule⟩ := List.exists_of_findSome?_eq_some h
  simp only [rules, List.mem_cons, List.not_mem_nil, or_false] at hmem
  rcases hmem with rfl | rfl | rfl | rfl | rfl | rfl | rfl | rfl | rfl | rfl
  · cases (tagged_eq_some.1 hrule).1
  · cases isIdentifier_of_identifier hrule
  · cases (tagged_eq_some.1 hrule).1
  · cases (tagged_eq_some.1 hrule).1
  · cases (tagged_eq_some.1 hrule).1
  · cases (tagged_eq_some.1 hrule).1
  · cases (tagged_eq_some.1 hrule).1
  · exact (tagged_eq_some.1 hrule).2
  · cases (tagged_eq_some.1 hrule).1
  · cases (tagged_eq_some.1 hrule).1

/-- A blank among the lexemes is a whole run. -/
theorem isWholeRun_of_scan? {d : Dialect} {t : Text} {n : Nat}
    (h : scan? d t = some (.blank, n)) : IsWholeRun (t.take n) (t.drop n) := by
  refine blankRun_eq_length_iff.1 ?_
  rw [List.take_append_drop, List.length_take_of_le (scan?_bounds h).2]
  exact (blank_eq_some_iff.1 (blank_of_scan? h)).2.symm

/-- **Two blanks are never neighbours.** -/
theorem isChain_lexemes (d : Dialect) (t : Text) :
    (lexemes d t).IsChain fun l m => l.1 = .blank → m.1 ≠ .blank := by
  fun_induction lexemes d t with
  | case1 => exact .nil
  | case2 t k n hscan ih =>
    refine List.isChain_cons.2 ⟨?_, ih⟩
    rintro m hm rfl hblank
    obtain ⟨ms, hms⟩ := List.head?_eq_some_iff.1 hm
    obtain ⟨-, -, hnext, -⟩ := scan?_of_lexemes_eq_cons hms
    -- the run before it was whole, so none is left for the next lexeme
    have hnone := blankRun_eq_zero (blankUnit_eq_none_iff.2 (isWholeRun_of_scan? hscan).ends)
    rw [hblank] at hnext
    have hfound := blank_eq_some_iff.1 (blank_of_scan? hnext)
    omega

/-- The same for tokens, whatever is asked for: with blanks left out there are none. -/
theorem isChain_tokenize (o : Options) (source : Text) :
    (tokenize o source).IsChain fun t u => t.isBlank = true → u.isBlank = false := by
  have hchain : ((tokenize o source).map Token.lexeme).IsChain
      fun l m => l.1 = .blank → m.1 ≠ .blank := by
    rw [tokenize_eq_place, map_lexeme_place]
    by_cases ho : o.ignoreBlanks = true
    · refine (List.pairwise_of_forall_mem_list fun l _ m hm _ => ?_).isChain
      simpa [isKept, ho] using (List.mem_filter.1 hm).2
    · rw [List.filter_eq_self.2 (by simp [isKept, ho])]
      exact isChain_lexemes o.dialect source
  refine ((List.isChain_map _).1 hchain).imp fun t u h => ?_
  simpa [Token.isBlank, Token.lexeme] using h

/-- **A blank among the tokens is a whole run of the source.** -/
theorem isWholeRun_of_mem_tokenize {o : Options} {source : Text} {t : Token}
    (h : t ∈ tokenize o source) (hblank : t.isBlank = true) :
    ∃ rest, fromByte? source t.stop = some rest ∧ IsWholeRun t.text rest := by
  rw [tokenize_eq_place] at h
  obtain ⟨ls, l, ms, hl, rfl⟩ := exists_of_mem_place h
  have hsource : source = spell ls ++ l.2 ++ spell ms := by
    rw [← spell_lexemes o.dialect source, hl, spell_append, spell_cons, List.append_assoc]
  obtain ⟨rest, hrest, hscan, -⟩ := scan?_of_lexemes_eq_cons (lexemes_spell_right hl)
  obtain rfl : spell ms = rest := List.append_cancel_left hrest
  have hkind : l.1 = .blank := by simpa [Token.isBlank, toToken] using hblank
  rw [hkind] at hscan
  have hwhole := isWholeRun_of_scan? hscan
  rw [spell_cons, List.take_left, List.drop_left] at hwhole
  refine ⟨spell ms, ?_, hwhole⟩
  rw [hsource, toToken, Nat.zero_add, ← byteSize_append]
  exact fromByte?_append _ _

/-! ## Comments that never close -/

section

variable {t : Text} (h : ¬['*', '/'] <:+: t)

include h

/-- The rule of blanks finds nothing at a comment that never closes. -/
theorem blank_opened : blank ('/' :: '*' :: t) = none := by
  have hunit := blankUnit_eq_none_iff.2 (mt startsBlank_opened_iff.1 h)
  rw [blank, blankRun_eq_zero hunit]
  rfl

/-- **The mark of a comment that never closes is read as an operator**, with those behind it. -/
theorem scan?_opened (d : Dialect) :
    scan? d ('/' :: '*' :: t) = some (.symbol, ('/' :: '*' :: t.takeWhile isOperator).length) := by
  have hslash : isOperator '/' = true := by decide
  have hstar : isOperator '*' = true := by decide
  have hsymbol : symbol ('/' :: '*' :: t)
      = some ('/' :: '*' :: t.takeWhile isOperator).length := by
    rw [symbol, if_pos hslash, runLength_cons, if_pos hstar, Nat.add_comm]
    rfl
  rw [scan?_of_isInert d (by decide)]
  simp [tagged, blank_opened h, hsymbol]

theorem tokenAt_opened (d : Dialect) {source : Text} {position : Nat}
    (hcut : fromByte? source position = some ('/' :: '*' :: t)) :
    tokenAt d source position
      = .token (toToken { dialect := d } position 0
          (.symbol, '/' :: '*' :: t.takeWhile isOperator)) := by
  obtain ⟨before, rfl, rfl⟩ := fromByte?_eq_some_iff.1 hcut
  have hsplit : '/' :: '*' :: t
      = '/' :: '*' :: t.takeWhile isOperator ++ t.dropWhile isOperator := by
    simp [List.takeWhile_append_dropWhile]
  have hscan := scan?_opened h d
  rw [hsplit] at hscan
  have htoken := tokenAt_append hscan before
  rwa [List.append_assoc, ← hsplit] at htoken

end

/--
**Blanks are whole units, and end where no unit starts.** From every place between two characters
the search in place stops after no more turns than it passes characters, and one; going from blank
to blank ends there too. What it passes is what the rule of blanks finds, a run of units; no unit
starts behind it, so a comment that opens there is never closed, and no run of units reaches
further. So no two blanks of a source are neighbours, and each is a whole run. Where a comment opens
and is never closed there is no blank: the token there is an operator.
-/
theorem blanks_end_where_no_unit_starts (source : Text) :
    (∀ position, IsCharBoundary source position →
      ∃ run rest, fromByte? source position = some (run ++ rest) ∧
        (∀ turns, run.length < turns →
          blanksStop source turns position = some (position + byteSize run)) ∧
        blanksEnd source position = some (position + byteSize run) ∧
        blank (run ++ rest) = (if run = [] then none else some run.length) ∧
        IsWholeRun run rest ∧ (∀ t, rest = '/' :: '*' :: t → ¬['*', '/'] <:+: t) ∧
        ∀ run' rest', IsBlankRun run' rest' → run' ++ rest' = run ++ rest → run' <+: run) ∧
    (∀ o, (tokenize o source).IsChain fun t u => t.isBlank = true → u.isBlank = false) ∧
    (∀ o, ∀ t ∈ tokenize o source, t.isBlank = true →
      ∃ rest, fromByte? source t.stop = some rest ∧ IsWholeRun t.text rest) ∧
    ∀ d position t, fromByte? source position = some ('/' :: '*' :: t) → ¬['*', '/'] <:+: t →
      blank ('/' :: '*' :: t) = none ∧
      tokenAt d source position
        = .token (toToken { dialect := d } position 0
            (.symbol, '/' :: '*' :: t.takeWhile isOperator)) := by
  refine ⟨?_, fun o => isChain_tokenize o source, fun o t ht => isWholeRun_of_mem_tokenize ht,
    fun d position t hcut hopen => ⟨blank_opened hopen, tokenAt_opened hopen d hcut⟩⟩
  rintro position ⟨s, t, rfl, rfl⟩
  obtain ⟨run, rest, rfl, hwhole, hstop⟩ := exists_blanksStop s t
  simp only [byteSize_append] at hstop
  refine ⟨run, rest, fromByte?_append s _, hstop, ?_, hwhole.blank_append, hwhole, ?_,
    fun run' rest' hrun' ht => hwhole.isPrefix_of_isBlankRun hrun' ht⟩
  · rw [blanksEnd_append, blankRun_eq_length_iff.2 hwhole, bytesOf, List.take_left]
  · rintro t rfl hclosed
    exact hwhole.ends (startsBlank_opened_iff.2 hclosed)

/--
A comment whose mark of opening is no mark of closing, one up to the end of its line, white space of
three bytes, and a comment that never closes.
-/
theorem blanks_end_where_no_unit_starts_mixed :
    let source := "x /*/ a*/--é\n\u2003/*b".toList
    (IsCharBoundary source 1 ∧
      ∃ run rest, fromByte? source 1 = some (run ++ rest) ∧ byteSize run = 16 ∧
        IsWholeRun run rest ∧ IsBlankRun [' '] (source.drop 2) ∧ [' '] <+: run) ∧
    (∃ t ∈ tokenize {} source, t.isBlank = true ∧ t.stop = 17 ∧
      ∃ rest, fromByte? source t.stop = some rest ∧ IsWholeRun t.text rest) ∧
    fromByte? source 17 = some "/*b".toList ∧ ¬['*', '/'] <:+: "b".toList ∧
      tokenAt .legacy source 17 = .token ⟨.symbol, "/*".toList, 17, 19, none⟩ := by
  intro source
  obtain ⟨hplaces, -, htokens, hopened⟩ := blanks_end_where_no_unit_starts source
  have hplace : IsCharBoundary source 1 := ⟨"x".toList, source.drop 1, by decide, by decide⟩
  have hbehind : fromByte? source 1 = some (source.drop 1) := by decide +kernel
  have hstopped : blanksStop source 20 1 = some 17 := by decide +kernel
  have hspace : IsBlankRun [' '] (source.drop 2) := .of_unit (.space (by decide))
  obtain ⟨run, rest, hcut, hstop, -, -, hwhole, -, hlongest⟩ := hplaces 1 hplace
  have hrun : run ++ rest = source.drop 1 := Option.some.inj (hcut.symm.trans hbehind)
  have hlength : run.length < 20 := by
    have hle := congrArg List.length hrun
    rw [List.length_append, show (source.drop 1).length = 16 by decide] at hle
    omega
  have hsize : byteSize run = 16 := by
    have heq := (hstop 20 hlength).symm.trans hstopped
    rw [Option.some.injEq] at heq
    omega
  have htoken : ∃ t ∈ tokenize {} source, t.isBlank = true ∧ t.stop = 17 := by decide +kernel
  obtain ⟨t, ht, hblank, hend⟩ := htoken
  have hmark : fromByte? source 17 = some "/*b".toList := by decide +kernel
  have hopen : ¬['*', '/'] <:+: "b".toList := by decide
  exact ⟨⟨hplace, run, rest, hcut, hsize, hwhole, hspace, hlongest _ _ hspace (hrun ▸ by decide)⟩,
    ⟨t, ht, hblank, hend, htokens {} t ht hblank⟩, hmark, hopen,
    (hopened .legacy 17 ['b'] hmark hopen).2⟩

end SqlText
