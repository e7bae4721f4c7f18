import Mathlib.Computability.Language
import SqlText.Proofs.Token.Unquoting

/-!
# Longest matches

Two constructs could end at several places: a run in quotes, where a doubled quote may also be taken
for the closing one, and a chain of names, which may stop before any of its dots. The rules go
through the text once and never try again. They end where a matcher that tries all ways would end at
the latest.

What such a matcher looks for is said by the languages of the two constructs, and what it answers by
`IsLongestMatch`. Both constructs are read in one way only: of the places where a quoted run could
end, all but the last stand before a further quote, so no dot follows there and no chain goes on.

## Main statements

* `exists_closing_of_units`: the search for a closing quote passes every place where it could stop.
* `quoted_longest`, `name_longest`: runs in quotes and names are longest matches.
* `length_le_joined`: a chain goes on as long as it can.
* `longest_matches`: so are chains of names.
-/

namespace SqlText

open Text
open scoped Computability

/--
Whether an answer is the length of the longest beginning of a text that is in a language. Where no
beginning is in the language, the answer is none.
-/
def IsLongestMatch (L : Language Char) (t : Text) : Option Nat → Prop
  | none => ∀ s, s <+: t → s ∉ L
  | some n => ∃ s, s <+: t ∧ s ∈ L ∧ s.length = n ∧ ∀ u, u <+: t → u ∈ L → u.length ≤ n

/-- A rule that finds members of a language, and none shorter than another, finds the longest. -/
theorem isLongestMatch_of_le {L : Language Char} {t : Text} {answer : Option Nat}
    (hsound : ∀ n, answer = some n → n ≤ t.length ∧ t.take n ∈ L)
    (hle : ∀ s rest, t = s ++ rest → s ∈ L → ∃ n, answer = some n ∧ s.length ≤ n) :
    IsLongestMatch L t answer := by
  cases answer with
  | none =>
    rintro s ⟨rest, rfl⟩ hs
    obtain ⟨n, hn, -⟩ := hle s rest rfl hs
    cases hn
  | some n =>
    obtain ⟨hn, hmem⟩ := hsound n rfl
    refine ⟨t.take n, List.take_prefix n t, hmem, List.length_take_of_le hn, ?_⟩
    rintro u ⟨rest, hu⟩ huL
    obtain ⟨m, hm, hum⟩ := hle u rest hu.symm huL
    cases hm
    exact hum

namespace Rule

/-! ## Runs in quotes -/

/-- The units of runs in quotes. -/
def units (q : Char) (escapes : Bool) : Language Char := {u | IsUnit q escapes u}

/-- The runs in quotes: units between two quotes. -/
def quotedRuns (q : Char) (escapes : Bool) : Language Char :=
  {[q]} * (units q escapes)∗ * {[q]}

theorem mem_quotedRuns {q : Char} {escapes : Bool} {s : Text} :
    s ∈ quotedRuns q escapes ↔
      ∃ us : List Text, (∀ u ∈ us, IsUnit q escapes u) ∧ s = q :: us.flatten ++ [q] := by
  constructor
  · intro h
    obtain ⟨front, hfront, close, hclose, rfl⟩ := Language.mem_mul.1 h
    obtain ⟨opening, hopening, inner, hinner, rfl⟩ := Language.mem_mul.1 hfront
    obtain ⟨us, rfl, hus⟩ := Language.mem_kstar.1 hinner
    obtain rfl : opening = [q] := hopening
    obtain rfl : close = [q] := hclose
    exact ⟨us, hus, rfl⟩
  · rintro ⟨us, hus, rfl⟩
    have hopening : [q] ∈ ({[q]} : Language Char) := rfl
    exact Language.append_mem_mul
      (Language.append_mem_mul hopening (Language.join_mem_kstar hus)) hopening

/--
**The search for a closing quote passes every place where it could stop**: behind whole units it
stops at the quote that follows, or later.
-/
theorem exists_closing_of_units {q : Char} {escapes : Bool} (hq : escapes = true → q ≠ '\\')
    {us : List Text} (hus : ∀ u ∈ us, IsUnit q escapes u) (rest : Text) :
    ∃ n, closing q escapes (us.flatten ++ q :: rest) = some n ∧ us.flatten.length + 1 ≤ n := by
  induction us with
  | nil =>
    cases rest with
    | nil => exact ⟨1, by simp [closing], Nat.le_refl _⟩
    | cons d rest =>
      by_cases hd : d = q
      · -- the quote is doubled: the run goes on, or steps back to this very quote
        subst hd
        refine ⟨((closing d escapes rest).map (· + 2)).getD 1, by simp [closing], ?_⟩
        cases closing d escapes rest with
        | none => exact Nat.le_refl _
        | some m => simp
      · exact ⟨1, by simp [closing, hd], Nat.le_refl _⟩
  | cons u us ih =>
    obtain ⟨n, hn, hle⟩ := ih fun v hv => hus v (List.mem_cons_of_mem _ hv)
    rw [List.flatten_cons, List.append_assoc, List.length_append]
    cases hus u List.mem_cons_self with
    | @plain c hc hb =>
      obtain ⟨d, t, ht⟩ : ∃ d t, us.flatten ++ q :: rest = d :: t :=
        List.exists_cons_of_ne_nil (by simp)
      have he : ¬(escapes && c == '\\') = true := by simpa using hb
      refine ⟨n + 1, ?_, by simp only [List.length_singleton]; omega⟩
      rw [ht] at hn
      rw [List.singleton_append, ht, closing, if_neg hc, if_neg he, hn, Option.map_some]
    | pair =>
      refine ⟨n + 2, ?_, by simp only [List.length_cons, List.length_nil]; omega⟩
      rw [List.cons_append, List.singleton_append, closing, if_pos rfl, if_pos rfl, hn]
      rfl
    | escaped c he =>
      refine ⟨n + 2, ?_, by simp only [List.length_cons, List.length_nil]; omega⟩
      rw [List.cons_append, List.singleton_append, closing, if_neg (hq he).symm,
        if_pos (by simp [he]), hn, Option.map_some]

/-- **A run in quotes is the longest one.** -/
theorem quoted_longest {q : Char} {escapes : Bool} (hq : escapes = true → q ≠ '\\') (t : Text) :
    IsLongestMatch (quotedRuns q escapes) t (quoted q escapes t) := by
  refine isLongestMatch_of_le (fun n hn => ?_) (fun s rest ht hs => ?_)
  · exact ⟨(quoted_bounds hn).2, mem_quotedRuns.2 (exists_units_of_quoted hn)⟩
  · obtain ⟨us, hus, rfl⟩ := mem_quotedRuns.1 hs
    obtain ⟨n, hn, hle⟩ := exists_closing_of_units hq hus rest
    refine ⟨n + 1, ?_, by simpa using hle⟩
    rw [ht, List.append_assoc, List.singleton_append, List.cons_append, quoted, if_pos rfl, hn,
      Option.map_some]

/-! ## Names -/

/-- The texts of one character that satisfies `p`. -/
def one (p : Char → Bool) : Language Char := {s | ∃ c, p c = true ∧ s = [c]}

/-- The bare words. -/
def words : Language Char := one isWordStart * (one isNamePart)∗

/-- The names: bare words, and runs in double quotes. -/
def names : Language Char := words + quotedRuns '"' false

theorem mem_kstar_one {p : Char → Bool} {s : Text} : s ∈ (one p)∗ ↔ ∀ c ∈ s, p c = true := by
  constructor
  · intro h
    obtain ⟨parts, rfl, hparts⟩ := Language.mem_kstar.1 h
    intro c hc
    obtain ⟨part, hpart, hcp⟩ := List.mem_flatten.1 hc
    obtain ⟨d, hd, rfl⟩ := hparts part hpart
    rwa [List.mem_singleton.1 hcp]
  · intro h
    refine Language.mem_kstar.2 ⟨s.map fun c => [c], ?_, fun part hpart => ?_⟩
    · rw [← List.flatMap_def, List.flatMap_singleton']
    · obtain ⟨c, hc, rfl⟩ := List.mem_map.1 hpart
      exact ⟨c, h c hc, rfl⟩

theorem mem_words {w : Text} : w ∈ words ↔ isWord w = true := by
  constructor
  · intro h
    obtain ⟨first, ⟨c, hc, rfl⟩, rest, hrest, rfl⟩ := Language.mem_mul.1 h
    rw [List.singleton_append, isWord, hc, Bool.true_and, List.all_eq_true]
    exact mem_kstar_one.1 hrest
  · intro h
    cases w with
    | nil => cases h
    | cons c w =>
      rw [isWord, Bool.and_eq_true, List.all_eq_true] at h
      exact Language.append_mem_mul (a := [c]) ⟨c, h.1, rfl⟩ (mem_kstar_one.2 h.2)

/-- What the rule of names finds is a name. -/
theorem mem_names_of_name {t : Text} {n : Nat} (h : name t = some n) : t.take n ∈ names :=
  (word_or_units_of_name h).imp mem_words.2 mem_quotedRuns.2

/-- **The rule of names finds no shorter name than another one there.** -/
theorem exists_name_of_mem {s : Text} (hs : s ∈ names) (rest : Text) :
    ∃ n, name (s ++ rest) = some n ∧ s.length ≤ n := by
  rcases hs with hw | hrun
  · have hw := mem_words.1 hw
    cases s with
    | nil => cases hw
    | cons c w =>
      rw [isWord, Bool.and_eq_true, List.all_eq_true] at hw
      refine ⟨_, by rw [List.cons_append, name, if_pos hw.1], ?_⟩
      have hrun : runLength isNamePart (w ++ rest)
          = w.length + runLength isNamePart rest := by
        rw [runLength, List.takeWhile_append_of_pos hw.2, List.length_append]
        rfl
      rw [List.length_cons]
      omega
  · obtain ⟨us, hus, rfl⟩ := mem_quotedRuns.1 hrun
    have hmark : false = true → '"' ≠ '\\' := fun _ => by decide
    obtain ⟨n, hn, hle⟩ := exists_closing_of_units hmark hus rest
    refine ⟨n + 1, ?_, by simpa using hle⟩
    rw [List.append_assoc, List.singleton_append, List.cons_append, name, if_neg (by decide),
      quoted, if_pos rfl, hn, Option.map_some]

/-- A name that a dot follows is found as it stands: it could not have gone on. -/
theorem name_of_dot {s : Text} (hs : s ∈ names) (rest : Text) :
    name (s ++ '.' :: rest) = some s.length := by
  rcases hs with hw | hrun
  · exact name_word (mem_words.1 hw) (delimited_cons (by decide))
  · obtain ⟨us, hus, rfl⟩ := mem_quotedRuns.1 hrun
    have hdot : ('.' :: rest).head? ≠ some '"' := by simp
    have hquoted := quoted_units (by decide) hus hdot
    rw [List.append_assoc, List.singleton_append, List.cons_append, name, if_neg (by decide),
      ← List.cons_append, hquoted]
    simp

/-- **A name is the longest one.** -/
theorem name_longest (t : Text) : IsLongestMatch names t (name t) := by
  refine isLongestMatch_of_le (fun n hn => ?_) (fun s rest ht hs => ?_)
  · exact ⟨(name_bounds hn).2, mem_names_of_name hn⟩
  · rw [ht]
    exact exists_name_of_mem hs rest

/-! ## Chains of names -/

/-- What joins names to a name: each a dot and a name. -/
def links : Language Char := ({['.']} * names)∗

/-- The chains of names. -/
def chains : Language Char := names * links

theorem mem_links_cons {s ds : Text} (hs : s ∈ names) (hds : ds ∈ links) :
    '.' :: s ++ ds ∈ links := by
  obtain ⟨parts, rfl, hparts⟩ := Language.mem_kstar.1 hds
  have hdot : ['.'] ∈ ({['.']} : Language Char) := rfl
  refine Language.mem_kstar.2 ⟨('.' :: s) :: parts, rfl, List.forall_mem_cons.2 ⟨?_, hparts⟩⟩
  exact Language.append_mem_mul hdot hs

/-- What the rule of joined names finds are dots and names. -/
theorem mem_links_of_joined (t : Text) : t.take (joined t) ∈ links := by
  fun_induction joined t with
  | case1 => exact Language.nil_mem_kstar _
  | case2 r n hn ih =>
    have htake : ('.' :: r).take (1 + n + joined (r.drop n))
        = '.' :: r.take n ++ (r.drop n).take (joined (r.drop n)) := by
      rw [Nat.add_assoc, Nat.add_comm 1, List.take_succ_cons, List.take_add]
      rfl
    rw [htake]
    exact mem_links_cons (mem_names_of_name hn) ih
  | case3 => exact Language.nil_mem_kstar _
  | case4 => exact Language.nil_mem_kstar _

/-- Nothing is joined to a name, or a dot and a name are, and what is joined to that one. -/
theorem links_cases {ds : Text} (h : ds ∈ links) :
    ds = [] ∨ ∃ s ds', s ∈ names ∧ ds' ∈ links ∧ ds = '.' :: (s ++ ds') := by
  obtain ⟨parts, rfl, hparts⟩ := Language.mem_kstar.1 h
  cases parts with
  | nil => exact Or.inl rfl
  | cons part parts =>
    obtain ⟨dot, hdot, s, hs, rfl⟩ := Language.mem_mul.1 (hparts part List.mem_cons_self)
    obtain rfl : dot = ['.'] := hdot
    refine Or.inr ⟨s, parts.flatten, hs, ?_, by rw [List.flatten_cons, List.append_assoc]; rfl⟩
    exact Language.join_mem_kstar fun p hp => hparts p (List.mem_cons_of_mem _ hp)

theorem joined_dot {r : Text} {n : Nat} (h : name r = some n) :
    joined ('.' :: r) = 1 + n + joined (r.drop n) := by
  rw [joined, if_pos rfl, h]

/-- A chain goes on at a name as long as it can, if it does so behind the name. -/
theorem exists_name_of_links {s ds : Text} (hs : s ∈ names) (hds : ds ∈ links) {rest : Text}
    (hle : ds.length ≤ joined (ds ++ rest)) :
    ∃ n, name (s ++ (ds ++ rest)) = some n ∧
      s.length + ds.length ≤ n + joined ((s ++ (ds ++ rest)).drop n) := by
  rcases links_cases hds with rfl | ⟨s', ds', -, -, rfl⟩
  · -- the last name may be longer than asked for
    obtain ⟨n, hn, hsn⟩ := exists_name_of_mem hs rest
    exact ⟨n, hn, by simp only [List.length_nil]; omega⟩
  · -- a dot follows, so the name ends there
    refine ⟨s.length, by rw [List.cons_append]; exact name_of_dot hs _, ?_⟩
    rw [List.drop_left]
    omega

/-- **A chain goes on as long as it can.** -/
theorem length_le_joined {ds : Text} (hds : ds ∈ links) (rest : Text) :
    ds.length ≤ joined (ds ++ rest) := by
  induction hlen : ds.length using Nat.strongRecOn generalizing ds with
  | ind k ih =>
    rcases links_cases hds with rfl | ⟨s, ds', hs, hds', rfl⟩
    · rw [← hlen]
      exact Nat.zero_le _
    · simp only [List.length_cons, List.length_append] at hlen
      have hrest := ih ds'.length (by omega) hds' rfl
      obtain ⟨n, hn, hle⟩ := exists_name_of_links hs hds' hrest
      rw [List.cons_append, List.append_assoc, joined_dot hn]
      omega

/-- The rule of names in fully qualified mode ends where the joined names end. -/
theorem identifier_true_eq (t : Text) :
    (identifier true t).map Prod.snd = (name t).map fun n => n + joined (t.drop n) := by
  rw [identifier, Option.map_map]
  rfl

/-- **A chain of names is the longest one.** -/
theorem identifier_longest (t : Text) :
    IsLongestMatch chains t ((identifier true t).map Prod.snd) := by
  rw [identifier_true_eq]
  refine isLongestMatch_of_le (fun n hn => ?_) (fun s rest ht hs => ?_)
  · obtain ⟨m, hm, rfl⟩ := Option.map_eq_some_iff.1 hn
    have hbound := (name_bounds hm).2
    have hjoined := joined_le (t.drop m)
    rw [List.length_drop] at hjoined
    refine ⟨by omega, ?_⟩
    rw [List.take_add]
    exact Language.append_mem_mul (mem_names_of_name hm) (mem_links_of_joined _)
  · obtain ⟨first, hfirst, ds, hds, rfl⟩ := Language.mem_mul.1 hs
    obtain ⟨n, hn, hle⟩ := exists_name_of_links hfirst hds (length_le_joined hds rest)
    refine ⟨_, by rw [ht, List.append_assoc, hn, Option.map_some], ?_⟩
    rwa [List.length_append]

end Rule

open Rule

/--
**Runs in quotes and chains of names are longest matches.** Where a text opens a run in quotes, the
rule ends it where the longest beginning ends that is whole units between two quotes; in fully
qualified mode the rule of names ends where the longest chain of names ends. Where no beginning of
the text is such a run, or such a chain, the rules find nothing. A quote must not be the mark of
escapes itself, where escapes are read.
-/
theorem longest_matches (q : Char) (escapes : Bool) (hq : escapes = true → q ≠ '\\') (t : Text) :
    IsLongestMatch (quotedRuns q escapes) t (quoted q escapes t) ∧
      IsLongestMatch chains t ((identifier true t).map Prod.snd) :=
  ⟨quoted_longest hq t, identifier_longest t⟩

/--
A string that ends in a lone backslash is closed at its last pair, and a chain goes through a name
in quotes and stops before a dot that no name follows.
-/
theorem longest_matches_unclosed :
    (true = true → '\'' ≠ '\\') ∧
      IsLongestMatch (quotedRuns '\'' true) "'a''''b\\".toList (some 5) ∧
      IsLongestMatch chains "a.\"b\"\"c\".$d".toList (some 8) := by
  have hq : true = true → '\'' ≠ '\\' := fun _ => by decide
  have hstring : quoted '\'' true "'a''''b\\".toList = some 5 := by decide +kernel
  have hchain : (identifier true "a.\"b\"\"c\".$d".toList).map Prod.snd = some 8 := by
    decide +kernel
  exact ⟨hq, hstring ▸ (longest_matches '\'' true hq "'a''''b\\".toList).1,
    hchain ▸ (longest_matches '\'' true hq "a.\"b\"\"c\".$d".toList).2⟩

end SqlText
