import SqlText.Proofs.Token.Lexeme

/-!
# Rules on a text that is cut short

A rule may look far ahead: for a closing quote, a closing tag, the end of a comment. Cutting a text
short behind a lexeme does not change what the rule finds all the same. What a rule does not find in
the whole text it does not find in the cut one, and a lexeme that lies inside the cut text is found
there too. Both together are `Local`, and the first rule that finds a lexeme keeps it
(`Local.findSome?`).

## Main statements

* `closing_local`: the search for a closing quote, with its step back to the last pair, is local.
* `scan?_local`: the first lexeme of a text is found by local means.
-/

namespace SqlText

open Text

/--
What a rule finds in a text does not hang on what stands behind it. `size` is the number of
characters that a finding takes.
-/
structure Local {α : Type} (size : α → Nat) (rule : Text → Option α) : Prop where
  none_of_append : ∀ {s r : Text}, rule (s ++ r) = none → rule s = none
  some_of_append : ∀ {s r : Text} {a : α}, rule (s ++ r) = some a → size a ≤ s.length →
    rule s = some a

namespace Local

variable {α β : Type} {size : α → Nat}

/-- The first rule of a list that finds something is local if all rules are. -/
theorem findSome? {rules : List (Text → Option α)} (h : ∀ rule ∈ rules, Local size rule) :
    Local size fun t => rules.findSome? (· t) := by
  induction rules with
  | nil => exact ⟨fun _ => rfl, fun h => by cases h⟩
  | cons rule rules ih =>
    have hrule := h rule List.mem_cons_self
    have hrest := ih fun r hr => h r (List.mem_cons_of_mem _ hr)
    refine ⟨fun {s r} hn => ?_, fun {s r a} hs hle => ?_⟩
    · simp only [List.findSome?_cons] at hn ⊢
      split at hn
      · cases hn
      · next hn' =>
        rw [hrule.none_of_append hn']
        exact hrest.none_of_append hn
    · simp only [List.findSome?_cons] at hs ⊢
      split at hs
      · next hs' =>
        cases hs
        rw [hrule.some_of_append hs' hle]
      · next hn' =>
        rw [hrule.none_of_append hn']
        exact hrest.some_of_append hs hle

/-- Findings under another name, of the same size, are found by local means. -/
theorem map {rule : Text → Option α} (h : Local size rule) {size' : β → Nat} {f : α → β}
    (hf : ∀ a, size' (f a) = size a) : Local size' fun t => (rule t).map f := by
  refine ⟨fun {s r} hn => ?_, fun {s r b} hs hle => ?_⟩
  · rw [Option.map_eq_none_iff] at hn ⊢
    exact h.none_of_append hn
  · obtain ⟨a, ha, rfl⟩ := Option.map_eq_some_iff.1 hs
    rw [h.some_of_append ha (hf a ▸ hle), Option.map_some]

/-- A rule that finds nothing in the empty text is local if it is on texts with a first character. -/
theorem of_cons {rule : Text → Option α} (hnil : rule [] = none)
    (hpos : ∀ {t a}, rule t = some a → 0 < size a)
    (hnone : ∀ {c s r}, rule (c :: (s ++ r)) = none → rule (c :: s) = none)
    (hsome : ∀ {c s r a}, rule (c :: (s ++ r)) = some a → size a ≤ s.length + 1 →
      rule (c :: s) = some a) : Local size rule := by
  refine ⟨fun {s r} hn => ?_, fun {s r a} hs hle => ?_⟩
  · cases s with
    | nil => exact hnil
    | cons c s => exact hnone hn
  · cases s with
    | nil =>
      have := hpos hs
      simp only [List.length_nil] at hle
      omega
    | cons c s => exact hsome hs hle

/--
A construct that ends with a mark of its own is local: found in a text, it is found there whatever
follows.
-/
theorem of_append {rule : Text → Option α}
    (happend : ∀ {s a}, rule s = some a → ∀ r, rule (s ++ r) = some a)
    (hsome : ∀ {s r a}, rule (s ++ r) = some a → size a ≤ s.length → rule s = some a) :
    Local size rule := by
  refine ⟨fun {s r} hn => ?_, hsome⟩
  cases h : rule s with
  | none => rfl
  | some a =>
    rw [happend h r] at hn
    cases hn

end Local

/-! ## Runs and occurrences -/

namespace Text

/-- A run that ends inside a text ends there whatever follows. -/
theorem runLength_append (p : Char → Bool) (s r : Text) :
    runLength p (s ++ r)
      = if runLength p s = s.length then s.length + runLength p r else runLength p s := by
  unfold runLength
  rw [List.takeWhile_append]
  split
  · next h => rw [List.length_append]
  · rfl

theorem runLength_of_append {p : Char → Bool} {s r : Text} (h : runLength p (s ++ r) ≤ s.length) :
    runLength p s = runLength p (s ++ r) := by
  rw [runLength_append] at h ⊢
  split at h <;> split <;> omega

theorem runLength_append_of_lt {p : Char → Bool} {s : Text} (h : runLength p s < s.length)
    (r : Text) : runLength p (s ++ r) = runLength p s := by
  rw [runLength_append, if_neg (by omega)]

/-- An occurrence in a text is the first one whatever follows. -/
theorem indexOf?_append {needle s : Text} {n : Nat} (h : indexOf? needle s = some n) (r : Text) :
    indexOf? needle (s ++ r) = some n := by
  induction s generalizing n with
  | nil =>
    cases needle with
    | nil =>
      cases r with
      | nil => exact h
      | cons c r => simpa [indexOf?] using h
    | cons c needle => simp [indexOf?] at h
  | cons c s ih =>
    rw [List.cons_append, indexOf?]
    rw [indexOf?] at h
    split at h
    · next hp =>
      have hp' : needle <+: c :: (s ++ r) :=
        (List.isPrefixOf_iff_prefix.1 hp).trans (List.prefix_append (c :: s) r)
      rw [if_pos (List.isPrefixOf_iff_prefix.2 hp')]
      exact h
    · next hp =>
      obtain ⟨m, hm, rfl⟩ := Option.map_eq_some_iff.1 h
      have hle := indexOf?_le hm
      -- the later occurrence fits into `s`, so an earlier one would not reach beyond it either
      have hp' : ¬needle.isPrefixOf (c :: (s ++ r)) = true := by
        intro hq
        refine hp (List.isPrefixOf_iff_prefix.2 ?_)
        refine List.prefix_of_prefix_length_le (List.isPrefixOf_iff_prefix.1 hq)
          (List.prefix_append (c :: s) r) ?_
        simp only [List.length_cons]
        omega
      rw [if_neg hp', ih hm, Option.map_some]

/-- An occurrence that ends inside a text is found in it. -/
theorem indexOf?_of_append {needle s r : Text} {n : Nat} (h : indexOf? needle (s ++ r) = some n)
    (hle : n + needle.length ≤ s.length) : indexOf? needle s = some n := by
  induction s generalizing n with
  | nil =>
    rw [List.length_nil, Nat.le_zero, Nat.add_eq_zero_iff, List.length_eq_zero_iff] at hle
    simp [hle, indexOf?]
  | cons c s ih =>
    rw [List.cons_append, indexOf?] at h
    rw [indexOf?]
    split at h
    · next hp =>
      cases h
      have hp' : needle <+: c :: s :=
        List.prefix_of_prefix_length_le (List.isPrefixOf_iff_prefix.1 hp)
          (List.prefix_append (c :: s) r) (by simpa using hle)
      rw [if_pos (List.isPrefixOf_iff_prefix.2 hp')]
    · next hp =>
      obtain ⟨m, hm, rfl⟩ := Option.map_eq_some_iff.1 h
      simp only [List.length_cons] at hle
      have hp' : ¬needle.isPrefixOf (c :: s) = true := fun hq =>
        hp (List.isPrefixOf_iff_prefix.2
          ((List.isPrefixOf_iff_prefix.1 hq).trans (List.prefix_append (c :: s) r)))
      rw [if_neg hp', ih hm (by omega), Option.map_some]

end Text

namespace Rule

/-! ## Quoted runs -/

/--
**The search for a closing quote is local.** Where the whole text closes a run by a step back, the
cut text steps back to the same pair: the pairs are counted off from the left in both.
-/
theorem closing_local (q : Char) (escapes : Bool) : Local id (closing q escapes) := by
  suffices h : ∀ s r : Text, (closing q escapes (s ++ r) = none → closing q escapes s = none) ∧
      ∀ n, closing q escapes (s ++ r) = some n → n ≤ s.length → closing q escapes s = some n from
    ⟨fun {s r} => (h s r).1, fun {s r n} => (h s r).2 n⟩
  intro s r
  fun_induction closing q escapes s with
  | case1 =>
    refine ⟨fun _ => rfl, fun n hn hle => ?_⟩
    have := closing_bounds hn
    simp only [List.length_nil] at hle
    omega
  | case2 =>
    -- the cut text ends in a quote, which closes it; what follows may double the quote, and then the
    -- run of the whole text steps back to it or reaches beyond the cut
    cases r with
    | nil => simp [closing]
    | cons d r =>
      simp only [List.cons_append, List.nil_append, closing, if_true]
      refine ⟨fun hn => ?_, fun n hn hle => ?_⟩
      · split at hn <;> cases hn
      · split at hn
        · cases hr : closing q escapes r with
          | none => simpa [hr] using hn
          | some m =>
            simp only [hr, Option.map_some, Option.getD_some, Option.some.injEq] at hn
            simp only [List.length_cons, List.length_nil] at hle
            omega
        · exact hn
  | case3 c hc =>
    refine ⟨fun _ => rfl, fun n hn hle => ?_⟩
    -- a run that is not closed by its first character takes at least two
    exfalso
    cases r with
    | nil => simp [closing, hc] at hn
    | cons d r =>
      simp only [List.cons_append, List.nil_append, closing, hc, if_false] at hn
      simp only [List.length_cons, List.length_nil] at hle
      split at hn
      · obtain ⟨m, -, rfl⟩ := Option.map_eq_some_iff.1 hn
        omega
      · obtain ⟨m, hm, rfl⟩ := Option.map_eq_some_iff.1 hn
        have := closing_bounds hm
        omega
  | case4 t ih =>
    -- a pair: the run goes on behind it, and steps back to it if it does not close
    simp only [List.cons_append, closing, if_true]
    refine ⟨nofun, fun n hn hle => ?_⟩
    simp only [List.length_cons, Option.some.injEq] at hn hle ⊢
    cases hr : closing q escapes (t ++ r) with
    | none =>
      rw [ih.1 hr]
      rw [hr] at hn
      exact hn
    | some m =>
      simp only [hr, Option.map_some, Option.getD_some] at hn
      rw [ih.2 m hr (by omega)]
      exact hn
  | case5 d t hd =>
    simp only [List.cons_append, closing, if_true, hd, if_false]
    exact ⟨nofun, fun n hn _ => hn⟩
  | case6 c d t hc he ih =>
    simp only [List.cons_append, closing, hc, if_false, he, if_true]
    refine ⟨fun hn => ?_, fun n hn hle => ?_⟩
    · rw [ih.1 (Option.map_eq_none_iff.1 hn), Option.map_none]
    · obtain ⟨m, hm, rfl⟩ := Option.map_eq_some_iff.1 hn
      simp only [List.length_cons] at hle
      rw [ih.2 m hm (by omega), Option.map_some]
  | case7 c d t hc he ih =>
    simp only [List.cons_append] at ih
    simp only [List.cons_append, closing, hc, if_false, he, Bool.false_eq_true]
    refine ⟨fun hn => ?_, fun n hn hle => ?_⟩
    · rw [ih.1 (Option.map_eq_none_iff.1 hn), Option.map_none]
    · obtain ⟨m, hm, rfl⟩ := Option.map_eq_some_iff.1 hn
      simp only [List.length_cons] at hle ih
      rw [ih.2 m hm (by omega), Option.map_some]

theorem quoted_local (q : Char) (escapes : Bool) : Local id (quoted q escapes) := by
  have hclosing := closing_local q escapes
  refine Local.of_cons rfl (fun h => (quoted_bounds h).1) (fun {c s r} hn => ?_)
    (fun {c s r n} hs hle => ?_)
  · simp only [quoted] at hn ⊢
    split at hn
    · next hc => rw [if_pos hc, hclosing.none_of_append (Option.map_eq_none_iff.1 hn), Option.map_none]
    · next hc => rw [if_neg hc]
  · simp only [quoted] at hs ⊢
    split at hs
    · next hc =>
      obtain ⟨m, hm, rfl⟩ := Option.map_eq_some_iff.1 hs
      rw [if_pos hc, hclosing.some_of_append hm (Nat.le_of_succ_le_succ hle), Option.map_some]
    · cases hs

theorem string_local (standard : Bool) : Local id (string standard) := by
  have hextended := quoted_local '\'' true
  have hplain := quoted_local '\'' (!standard)
  refine Local.of_cons rfl (fun h => (string_bounds h).1) (fun {c s r} hn => ?_)
    (fun {c s r n} hs hle => ?_)
  · simp only [string] at hn ⊢
    split at hn
    · next hc =>
      rw [if_pos hc, hextended.none_of_append (Option.map_eq_none_iff.1 hn), Option.map_none]
    · next hc =>
      rw [if_neg hc]
      exact hplain.none_of_append (s := c :: s) hn
  · simp only [string] at hs ⊢
    split at hs
    · next hc =>
      obtain ⟨m, hm, rfl⟩ := Option.map_eq_some_iff.1 hs
      rw [if_pos hc, hextended.some_of_append hm (Nat.le_of_succ_le_succ hle), Option.map_some]
    · next hc =>
      rw [if_neg hc]
      exact hplain.some_of_append (s := c :: s) hs hle

/-! ## Names -/

theorem name_local : Local id name := by
  have hquoted := quoted_local '"' false
  refine Local.of_cons rfl (fun h => (name_bounds h).1) (fun {c s r} hn => ?_)
    (fun {c s r n} hs hle => ?_)
  · simp only [name] at hn ⊢
    split at hn
    · cases hn
    · next hc =>
      rw [if_neg hc]
      exact hquoted.none_of_append (s := c :: s) hn
  · simp only [name] at hs ⊢
    split at hs
    · next hc =>
      cases hs
      simp only [id] at hle
      rw [if_pos hc, runLength_of_append (r := r) (by omega)]
    · next hc =>
      rw [if_neg hc]
      exact hquoted.some_of_append (s := c :: s) hs hle

/-- A chain of names that ends inside a text is the same without what follows. -/
theorem joined_of_append {s r : Text} (h : joined (s ++ r) ≤ s.length) :
    joined s = joined (s ++ r) := by
  fun_induction joined s with
  | case1 => exact (Nat.le_zero.1 h).symm
  | case2 s n hn ih =>
    rw [List.cons_append, joined, if_pos rfl] at h ⊢
    cases hn' : name (s ++ r) with
    | none =>
      rw [name_local.none_of_append hn'] at hn
      cases hn
    | some m =>
      simp only [hn'] at h ⊢
      simp only [List.length_cons] at h
      have hm := name_local.some_of_append hn' (show m ≤ s.length by omega)
      rw [hn] at hm
      cases hm
      rw [List.drop_append_of_le_length (by omega)] at h ⊢
      rw [ih (by simp only [List.length_drop]; omega)]
  | case3 s hn =>
    rw [List.cons_append, joined, if_pos rfl] at h ⊢
    cases hn' : name (s ++ r) with
    | none => rfl
    | some m =>
      simp only [hn', List.length_cons] at h
      rw [name_local.some_of_append hn' (show m ≤ s.length by omega)] at hn
      cases hn
  | case4 c s hc => rw [List.cons_append, joined, if_neg hc]

theorem identifier_local (fullyQualified : Bool) : Local Prod.snd (identifier fullyQualified) := by
  refine Local.of_cons rfl (fun {t a} h => (identifier_bounds (k := a.1) (n := a.2) h).1)
    (fun {c s r} hn => ?_) (fun {c s r a} hs hle => ?_)
  · rw [identifier, Option.map_eq_none_iff] at hn ⊢
    exact name_local.none_of_append (s := c :: s) hn
  · obtain ⟨m, hm, rfl⟩ := Option.map_eq_some_iff.1 hs
    simp only at hle
    have hmle : m ≤ s.length + 1 := by omega
    rw [← List.cons_append, List.drop_append_of_le_length (by simpa using hmle)] at hle ⊢
    have hname := name_local.some_of_append (s := c :: s) hm hmle
    have hmore : (if fullyQualified then joined ((c :: s).drop m ++ r) else 0)
        = if fullyQualified then joined ((c :: s).drop m) else 0 := by
      split
      · next hq =>
        rw [if_pos hq] at hle
        refine (joined_of_append ?_).symm
        simp only [List.length_drop, List.length_cons]
        omega
      · rfl
    rw [identifier, hname, Option.map_some, hmore]
    rfl

/-! ## Dollar quotes -/

/-- The length of the word that a dollar tag may hold at the start of a text. -/
def tagWord (t : Text) : Nat := if t.head?.any isWordStart then runLength isWordPart t else 0

theorem tagWord_append_of_lt {s : Text} (h : tagWord s < s.length) (r : Text) :
    tagWord (s ++ r) = tagWord s := by
  cases s with
  | nil => simp at h
  | cons c s =>
    simp only [tagWord, List.cons_append, List.head?_cons, Option.any_some] at h ⊢
    by_cases hc : isWordStart c = true
    · simp only [hc, if_true] at h ⊢
      exact runLength_append_of_lt h r
    · simp only [hc, if_false, Bool.false_eq_true]

theorem tagWord_of_append {s r : Text} (h : tagWord (s ++ r) < s.length) :
    tagWord s = tagWord (s ++ r) := by
  cases s with
  | nil => simp at h
  | cons c s =>
    simp only [tagWord, List.cons_append, List.head?_cons, Option.any_some] at h ⊢
    by_cases hc : isWordStart c = true
    · simp only [hc, if_true] at h ⊢
      exact runLength_of_append (s := c :: s) (Nat.le_of_lt h)
    · simp only [hc, if_false, Bool.false_eq_true]

/-- A dollar tag is a dollar sign, a word or nothing, and a dollar sign. -/
theorem dollarTag_eq_some_iff {c : Char} {t : Text} {n : Nat} :
    dollarTag (c :: t) = some n
      ↔ c = '$' ∧ tagWord t < t.length ∧ t[tagWord t]? = some '$' ∧ n = tagWord t + 2 := by
  simp only [dollarTag, List.head?_drop]
  change (if c = '$' ∧ t[tagWord t]? = some '$' then some (tagWord t + 2) else none) = some n ↔ _
  constructor
  · intro h
    split at h
    · next hc =>
      cases h
      exact ⟨hc.1, (List.getElem?_eq_some_iff.1 hc.2).1, hc.2, rfl⟩
    · cases h
  · rintro ⟨hc, -, hd, rfl⟩
    rw [if_pos ⟨hc, hd⟩]

theorem dollarTag_append {s : Text} {n : Nat} (h : dollarTag s = some n) (r : Text) :
    dollarTag (s ++ r) = some n := by
  cases s with
  | nil => cases h
  | cons c s =>
    obtain ⟨hc, hlt, hd, rfl⟩ := dollarTag_eq_some_iff.1 h
    rw [List.cons_append, dollarTag_eq_some_iff, tagWord_append_of_lt hlt,
      List.getElem?_append_left hlt, List.length_append]
    exact ⟨hc, by omega, hd, rfl⟩

theorem dollarTag_of_append {s r : Text} {n : Nat} (h : dollarTag (s ++ r) = some n)
    (hle : n ≤ s.length) : dollarTag s = some n := by
  cases s with
  | nil =>
    have := dollarTag_bounds h
    simp only [List.length_nil] at hle
    omega
  | cons c s =>
    rw [List.cons_append] at h
    obtain ⟨hc, -, hd, rfl⟩ := dollarTag_eq_some_iff.1 h
    simp only [List.length_cons] at hle
    have hlt : tagWord (s ++ r) < s.length := by omega
    rw [List.getElem?_append_left hlt] at hd
    have he := tagWord_of_append hlt
    rw [← he] at hd hlt ⊢
    exact dollarTag_eq_some_iff.2 ⟨hc, hlt, hd, rfl⟩

theorem dollarQuoted_local : Local id dollarQuoted := by
  refine Local.of_append (fun {s n} hs r => ?_) (fun {s r n} hs hle => ?_)
  · obtain ⟨m, hm, hk⟩ := Option.bind_eq_some_iff.1 hs
    obtain ⟨k, hi, rfl⟩ := Option.map_eq_some_iff.1 hk
    have hb := (dollarTag_bounds hm).2
    rw [dollarQuoted, dollarTag_append hm, Option.bind_some, List.take_append_of_le_length hb,
      List.drop_append_of_le_length hb, indexOf?_append hi, Option.map_some]
  · obtain ⟨m, hm, hk⟩ := Option.bind_eq_some_iff.1 hs
    obtain ⟨k, hi, rfl⟩ := Option.map_eq_some_iff.1 hk
    simp only [id] at hle
    have hb : m ≤ s.length := by omega
    rw [List.take_append_of_le_length hb, List.drop_append_of_le_length hb] at hi
    have hi' := indexOf?_of_append hi (by simp only [List.length_take, List.length_drop]; omega)
    rw [dollarQuoted, dollarTag_of_append hm hb, Option.bind_some, hi', Option.map_some]

/-! ## Numbers and parameters -/

theorem number_local : Local id number := by
  refine Local.of_cons rfl (fun h => (number_bounds h).1) (fun {c s r} hn => ?_)
    (fun {c s r n} hs hle => ?_)
  · simp only [number] at hn ⊢
    split at hn
    · cases hn
    · next hc => rw [if_neg hc]
  · simp only [number] at hs ⊢
    split at hs
    · next hc =>
      cases hs
      simp only [id] at hle
      rw [if_pos hc, runLength_of_append (r := r) (by omega)]
    · cases hs

theorem numberedParam_local : Local id numberedParam := by
  refine Local.of_cons rfl (fun h => (numberedParam_bounds h).1) (fun {c s r} hn => ?_)
    (fun {c s r n} hs hle => ?_)
  · simp only [numberedParam] at hn ⊢
    split at hn
    · cases hn
    · next hc =>
      refine if_neg fun hc' => hc ⟨hc'.1, ?_⟩
      have := runLength_le Char.isDigit s
      rw [runLength_append]
      split <;> omega
  · simp only [numberedParam] at hs ⊢
    split at hs
    · next hc =>
      cases hs
      simp only [id] at hle
      rw [runLength_of_append (r := r) (by omega), if_pos hc]
    · cases hs

/-- A named parameter, with its word and its end told apart. -/
theorem namedParam_eq_some_iff {t : Text} {n : Nat} :
    namedParam t = some n ↔ ∃ c w e, t = '%' :: '(' :: c :: w ∧ isWordStart c = true ∧
      w[runLength isWordPart w]? = some ')' ∧ w[runLength isWordPart w + 1]? = some e ∧
      (e = 's' ∨ e = 'S') ∧ n = runLength isWordPart w + 5 := by
  constructor
  · intro h
    unfold namedParam at h
    split at h
    · next c w =>
      simp only at h
      split at h
      · next e rest hr =>
        split at h
        · next hc =>
          cases h
          have hget : ∀ i, w[runLength isWordPart w + i]? = (')' :: e :: rest)[i]? := by
            intro i
            rw [← hr, List.getElem?_drop]
          exact ⟨c, w, e, rfl, hc.1, hget 0, hget 1, hc.2, rfl⟩
        · cases h
      · cases h
    · cases h
  · rintro ⟨c, w, e, rfl, hc, hclose, hend, he, rfl⟩
    obtain ⟨hlt, hclose⟩ := List.getElem?_eq_some_iff.1 hclose
    obtain ⟨hlt', hend⟩ := List.getElem?_eq_some_iff.1 hend
    simp only [namedParam, List.drop_eq_getElem_cons hlt, List.drop_eq_getElem_cons hlt', hclose,
      hend]
    rw [if_pos ⟨hc, he⟩]

theorem namedParam_local : Local id namedParam := by
  refine Local.of_append (fun {s n} hs r => ?_) (fun {s r n} hs hle => ?_)
  · obtain ⟨c, w, e, rfl, hc, hclose, hend, he, rfl⟩ := namedParam_eq_some_iff.1 hs
    have hlt := (List.getElem?_eq_some_iff.1 hend).1
    have hrun := runLength_append_of_lt (p := isWordPart) (s := w) (by omega) r
    refine namedParam_eq_some_iff.2 ⟨c, w ++ r, e, rfl, hc, ?_, ?_, he, ?_⟩
    · rw [hrun, List.getElem?_append_left (by omega), hclose]
    · rw [hrun, List.getElem?_append_left hlt, hend]
    · rw [hrun]
  · obtain ⟨c, w, e, ht, hc, hclose, hend, he, rfl⟩ := namedParam_eq_some_iff.1 hs
    simp only [id] at hle
    obtain ⟨a, b, c', s, rfl⟩ : ∃ a b c' s', s = a :: b :: c' :: s' := by
      match s, hle with
      | a :: b :: c' :: s', _ => exact ⟨a, b, c', s', rfl⟩
    simp only [List.cons_append, List.cons.injEq] at ht
    obtain ⟨rfl, rfl, rfl, rfl⟩ := ht
    simp only [List.length_cons] at hle
    have hrun := runLength_of_append (p := isWordPart) (s := s) (r := r) (by omega)
    rw [← hrun] at hle hclose hend ⊢
    rw [List.getElem?_append_left (by omega)] at hclose hend
    exact namedParam_eq_some_iff.2 ⟨c', s, e, rfl, hc, hclose, hend, he, rfl⟩

/-- A parameter in braces, with its inside and its end told apart. -/
theorem braceParam_eq_some_iff {c : Char} {t : Text} {n : Nat} :
    braceParam (c :: t) = some n ↔ c = '{' ∧ 0 < runLength isNoBrace t ∧
      t[runLength isNoBrace t]? = some '}' ∧ n = runLength isNoBrace t + 2 := by
  simp only [braceParam, List.head?_drop]
  constructor
  · intro h
    split at h
    · next hc =>
      cases h
      exact ⟨hc.1, hc.2.1, hc.2.2, rfl⟩
    · cases h
  · rintro ⟨hc, hpos, hclose, rfl⟩
    rw [if_pos ⟨hc, hpos, hclose⟩]

theorem braceParam_local : Local id braceParam := by
  refine Local.of_append (fun {s n} hs r => ?_) (fun {s r n} hs hle => ?_)
  · cases s with
    | nil => cases hs
    | cons c s =>
      obtain ⟨hc, hpos, hclose, rfl⟩ := braceParam_eq_some_iff.1 hs
      have hlt := (List.getElem?_eq_some_iff.1 hclose).1
      rw [List.cons_append, braceParam_eq_some_iff, runLength_append_of_lt hlt,
        List.getElem?_append_left hlt]
      exact ⟨hc, hpos, hclose, rfl⟩
  · cases s with
    | nil =>
      have := braceParam_bounds hs
      simp only [List.length_nil, id] at hle
      omega
    | cons c s =>
      rw [List.cons_append] at hs
      obtain ⟨hc, hpos, hclose, rfl⟩ := braceParam_eq_some_iff.1 hs
      simp only [List.length_cons, id] at hle
      have hrun := runLength_of_append (p := isNoBrace) (s := s) (r := r) (by omega)
      rw [← hrun] at hle hpos hclose ⊢
      rw [List.getElem?_append_left (by omega)] at hclose
      exact braceParam_eq_some_iff.2 ⟨hc, hpos, hclose, rfl⟩

/-! ## Blanks -/

/-- A comment is one up to the end of the line, or one with a closing mark. -/
theorem comment_eq_some_iff {t : Text} {n : Nat} :
    comment t = some n ↔
      (∃ u, t = '-' :: '-' :: u ∧ n = 2 + runLength (· != '\n') u) ∨
        ∃ u m, t = '/' :: '*' :: u ∧ indexOf? ['*', '/'] u = some m ∧ n = m + 4 := by
  constructor
  · intro h
    unfold comment at h
    split at h
    · next u =>
      cases h
      exact Or.inl ⟨u, rfl, rfl⟩
    · next u =>
      obtain ⟨m, hm, rfl⟩ := Option.map_eq_some_iff.1 h
      exact Or.inr ⟨u, m, rfl, hm, rfl⟩
    · cases h
  · rintro (⟨u, rfl, rfl⟩ | ⟨u, m, rfl, hm, rfl⟩)
    · rfl
    · simp [comment, hm]

theorem comment_local : Local id comment := by
  refine ⟨fun {s r} hn => ?_, fun {s r n} hs hle => ?_⟩
  · cases h : comment s with
    | none => rfl
    | some n =>
      rcases comment_eq_some_iff.1 h with ⟨u, rfl, rfl⟩ | ⟨u, m, rfl, hm, rfl⟩
      · cases hn
      · simp [comment, indexOf?_append hm] at hn
  · simp only [id] at hle
    obtain ⟨a, b, s, rfl⟩ : ∃ a b s', s = a :: b :: s' := by
      have h2 : 2 ≤ n := by
        rcases comment_eq_some_iff.1 hs with ⟨u, -, rfl⟩ | ⟨u, m, -, -, rfl⟩ <;> omega
      match s, Nat.le_trans h2 hle with
      | a :: b :: s', _ => exact ⟨a, b, s', rfl⟩
    simp only [List.length_cons] at hle
    refine comment_eq_some_iff.2 ?_
    rcases comment_eq_some_iff.1 hs with ⟨u, ht, rfl⟩ | ⟨u, m, ht, hm, rfl⟩
    · simp only [List.cons_append, List.cons.injEq] at ht
      obtain ⟨rfl, rfl, rfl⟩ := ht
      have hrun := runLength_of_append (p := (· != '\n')) (s := s) (r := r) (by omega)
      exact Or.inl ⟨s, rfl, by rw [hrun]⟩
    · simp only [List.cons_append, List.cons.injEq] at ht
      obtain ⟨rfl, rfl, rfl⟩ := ht
      refine Or.inr ⟨s, m, rfl, indexOf?_of_append hm ?_, rfl⟩
      simp only [List.length_cons, List.length_nil]
      omega

theorem blankUnit_local : Local id blankUnit := by
  refine Local.of_cons rfl (fun h => (blankUnit_bounds h).1) (fun {c s r} hn => ?_)
    (fun {c s r n} hs hle => ?_)
  · simp only [blankUnit] at hn ⊢
    split at hn
    · cases hn
    · next hc =>
      rw [if_neg hc]
      exact comment_local.none_of_append (s := c :: s) hn
  · simp only [blankUnit] at hs ⊢
    split at hs
    · next hc => rw [if_pos hc, hs]
    · next hc =>
      rw [if_neg hc]
      exact comment_local.some_of_append (s := c :: s) hs hle

theorem blankRun_of_blankUnit {t : Text} {n : Nat} (h : blankUnit t = some n) :
    blankRun t = n + blankRun (t.drop n) := by
  rw [blankRun]
  split
  · next h' => rw [h] at h'; cases h'
  · next h' => rw [h] at h'; cases h'; rfl

theorem blankRun_eq_zero {t : Text} (h : blankUnit t = none) : blankRun t = 0 := by
  rw [blankRun]
  split
  · rfl
  · next h' => rw [h] at h'; cases h'

/-- A run of blanks that ends inside a text is the same without what follows. -/
theorem blankRun_of_append {s r : Text} (h : blankRun (s ++ r) ≤ s.length) :
    blankRun s = blankRun (s ++ r) := by
  fun_induction blankRun s with
  | case1 s hs =>
    -- no unit of the whole text can start here: it would have to end behind the cut
    cases hu : blankUnit (s ++ r) with
    | none => rw [blankRun_eq_zero hu]
    | some n =>
      rw [blankRun_of_blankUnit hu] at h
      rw [blankUnit_local.some_of_append hu (show n ≤ s.length by omega)] at hs
      cases hs
  | case2 s n hs ih =>
    cases hu : blankUnit (s ++ r) with
    | none =>
      rw [blankUnit_local.none_of_append hu] at hs
      cases hs
    | some m =>
      rw [blankRun_of_blankUnit hu] at h ⊢
      have hm := blankUnit_local.some_of_append hu (show m ≤ s.length by omega)
      rw [hs] at hm
      cases hm
      rw [List.drop_append_of_le_length (by omega)] at h ⊢
      rw [ih (by simp only [List.length_drop]; omega)]

theorem blank_eq_some_iff {t : Text} {n : Nat} : blank t = some n ↔ 0 < n ∧ n = blankRun t := by
  unfold blank
  split
  · simp only [Option.some.injEq]
    omega
  · simp only [reduceCtorEq, false_iff]
    omega

theorem blank_local : Local id blank := by
  refine ⟨fun {s r} hn => ?_, fun {s r n} hs hle => ?_⟩
  · have hzero : blankRun (s ++ r) = 0 := by
      refine Nat.eq_zero_of_not_pos fun hpos => ?_
      rw [blank_eq_some_iff.2 ⟨hpos, rfl⟩] at hn
      cases hn
    have hrun := blankRun_of_append (s := s) (r := r) (by omega)
    rw [blank, hrun, hzero]
    rfl
  · obtain ⟨hpos, rfl⟩ := blank_eq_some_iff.1 hs
    exact blank_eq_some_iff.2 ⟨hpos, (blankRun_of_append hle).symm⟩

/-! ## Symbols -/

theorem symbol_local : Local id symbol := by
  refine Local.of_cons rfl (fun h => (symbol_bounds h).1) (fun {c s r} hn => ?_)
    (fun {c s r n} hs hle => ?_)
  · simp only [symbol] at hn ⊢
    split at hn
    · cases hn
    · next hc => rw [if_neg hc]; exact hn
  · simp only [symbol] at hs ⊢
    split at hs
    · next hc =>
      cases hs
      simp only [id] at hle
      rw [if_pos hc, runLength_of_append (r := r) (by omega)]
    · next hc => rw [if_neg hc]; exact hs

theorem anyOne_local : Local id anyOne :=
  Local.of_cons rfl (fun h => (anyOne_bounds h).1) (fun hn => hn) (fun hs _ => hs)

/-! ## The first lexeme -/

theorem tagged_local (k : Kind) {rule : Text → Option Nat} (h : Local id rule) :
    Local Prod.snd (tagged k rule) := h.map fun _ => rfl

theorem rules_local (d : Dialect) : ∀ rule ∈ rules d, Local Prod.snd rule := by
  intro rule hr
  simp only [rules, List.mem_cons, List.not_mem_nil, or_false] at hr
  rcases hr with rfl | rfl | rfl | rfl | rfl | rfl | rfl | rfl | rfl | rfl
  · exact tagged_local _ (string_local _)
  · exact identifier_local _
  · exact tagged_local _ dollarQuoted_local
  · exact tagged_local _ number_local
  · exact tagged_local _ numberedParam_local
  · exact tagged_local _ namedParam_local
  · exact tagged_local _ braceParam_local
  · exact tagged_local _ blank_local
  · exact tagged_local _ symbol_local
  · exact tagged_local _ anyOne_local

end Rule

/-- **The first lexeme of a text does not hang on what stands behind it.** -/
theorem scan?_local (d : Dialect) : Local Prod.snd (scan? d) := Local.findSome? (Rule.rules_local d)

/-- **Lexemes at the start of a text are the lexemes of their own text.** -/
theorem lexemes_spell_left {d : Dialect} {t : Text} {ls ms : List Lexeme}
    (h : lexemes d t = ls ++ ms) : lexemes d (spell ls) = ls := by
  induction ls generalizing t with
  | nil => exact lexemes_nil d
  | cons l ls ih =>
    obtain ⟨rest, rfl, hs, hrest⟩ := scan?_of_lexemes_eq_cons h
    have hspell : rest = spell ls ++ spell ms := by
      rw [← spell_append, ← spell_lexemes d rest, hrest]
      rfl
    rw [hspell, ← List.append_assoc] at hs
    have hcut := (scan?_local d).some_of_append hs (by simp)
    rw [spell_cons, lexemes_of_scan? hcut, ih hrest]

/-- **Lexemes in the midst of a text are the lexemes of their own text.** -/
theorem lexemes_spell_infix {d : Dialect} {t : Text} {ls ms ns : List Lexeme}
    (h : lexemes d t = ls ++ ms ++ ns) : lexemes d (spell ms) = ms := by
  rw [List.append_assoc] at h
  exact lexemes_spell_left (lexemes_spell_right h)

end SqlText
