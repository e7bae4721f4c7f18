import SqlText.Proofs.Token.Octets
import SqlText.Proofs.Token.Stream

/-!
# Tokens in place

A cursor keeps the text that it has not read. Tokens can also be read in place, from the whole
source and a byte offset into it: most rules then look at the bytes from the offset on, while blanks
and single characters are cut out of the source, and so is the text of the token that was found. A
cut may fail, at an offset that lies inside a character.

Here this reading is written down with every cut in the open: one that lies inside a character
gives nothing. It gives nothing only if the offset that it is asked for lies inside a character. No
rule that looks at bytes finds a lexeme there, so the first cut is made at that offset and fails.
Everywhere else the token is found that a cursor finds, and it ends between two characters. Reading
token after token therefore never fails.

## Main statements

* `lexemeAt_append`: between two characters the first lexeme of what follows is found.
* `lexemeAt_inside`: inside a character none is.
* `readAt_eq`: reading in place is reading at an offset.
* `Scan.answer_start`: no call for the next token in place fails, and all answer as a cursor does.
-/

namespace SqlText

open Text Rule

/-! ## One lexeme -/

/--
Where the blanks that start at a byte offset end. The source is cut before each blank; nothing is
given if such a cut lies inside a character.
-/
def blanksEnd (source : Text) (i : Nat) : Option Nat :=
  match _ : fromByte? source i with
  | none => none
  | some rest =>
    match _ : blankUnit rest with
    | none => some i
    | some n => blanksEnd source (i + bytesOf rest n)
termination_by byteSize source - i
decreasing_by
  rename_i hcut hunit
  obtain ⟨s, rfl, rfl⟩ := fromByte?_eq_some_iff.1 hcut
  have hbounds := blankUnit_bounds hunit
  have hpos := (bytesOf_pos_iff hbounds.2).2 hbounds.1
  have hle := length_le_byteSize rest
  rw [byteSize_append]
  omega

/--
The kind and the end of the lexeme at a byte offset. The rules before that of blanks, and that of
symbols, look at bytes; blanks and single characters are cut out of the source.
-/
def lexemeAt (d : Dialect) (source : Text) (i : Nat) : Option (Kind × Nat) :=
  match (byteRules d).findSome? (· ((octets source).drop i)) with
  | some (kind, n) => some (kind, i + n)
  | none => do
    let stop ← blanksEnd source i
    if i < stop then
      return (.blank, stop)
    match symbol ((octets source).drop i) with
    | some n => return (.symbol, i + n)
    | none =>
      let rest ← fromByte? source i
      return (.error, i + (rest.head?.map Char.utf8Size).getD 1)

theorem blanksEnd_of_cut {source rest : Text} {i : Nat} (hcut : fromByte? source i = some rest) :
    blanksEnd source i
      = (blankUnit rest).elim (some i) fun n => blanksEnd source (i + bytesOf rest n) := by
  rw [blanksEnd]
  split
  · next h => rw [hcut] at h; cases h
  · next h =>
    rw [hcut] at h
    cases h
    split
    · next hunit => rw [hunit]; rfl
    · next hunit => rw [hunit]; rfl

/-- Between two characters the run of blanks is found, blank by blank. -/
theorem blanksEnd_append (s t : Text) :
    blanksEnd (s ++ t) (byteSize s) = some (byteSize s + bytesOf t (blankRun t)) := by
  fun_induction blankRun t generalizing s with
  | case1 t hunit =>
    rw [blanksEnd_of_cut (fromByte?_append s t), hunit]
    rfl
  | case2 t n hunit ih =>
    have hrest := ih (s ++ t.take n)
    rw [List.append_assoc, List.take_append_drop, byteSize_append] at hrest
    rw [blanksEnd_of_cut (fromByte?_append s t), hunit, bytesOf_add, ← Nat.add_assoc]
    exact hrest

theorem blanksEnd_inside {source : Text} {i : Nat} (h : ¬IsCharBoundary source i) :
    blanksEnd source i = none := by
  rw [blanksEnd]
  split
  · rfl
  · next hcut =>
    rw [fromByte?_eq_none_iff.2 h] at hcut
    cases hcut

/-- The rules before that of blanks have the first word. -/
theorem scan?_eq_or (d : Dialect) (t : Text) :
    scan? d t = ((byteRules d).findSome? (· t)).or (((rules d).drop 7).findSome? (· t)) := by
  rw [scan?, ← List.findSome?_append, byteRules, List.take_append_drop]

/-- A text in which the rules before that of blanks find nothing. -/
theorem scan?_of_byteRules {d : Dialect} {t : Text} (h : (byteRules d).findSome? (· t) = none) :
    scan? d t = if 0 < blankRun t then some (.blank, blankRun t)
      else (symbol t).elim (t.head?.map fun _ => (.error, 1)) fun n => some (.symbol, n) := by
  rw [scan?_eq_or, h, Option.none_or]
  by_cases hblank : 0 < blankRun t
  · simp [rules, tagged, blank, hblank]
  · cases hs : symbol t with
    | some n => simp [rules, tagged, blank, hblank, hs]
    | none => cases t <;> simp [rules, tagged, blank, hblank, hs, anyOne]

/-- **Between two characters the first lexeme of what follows is found.** -/
theorem lexemeAt_append {d : Dialect} {t : Text} {k : Kind} {n : Nat}
    (h : scan? d t = some (k, n)) (s : Text) :
    lexemeAt d (s ++ t) (byteSize s) = some (k, byteSize s + bytesOf t n) := by
  have hbytes : (octets (s ++ t)).drop (byteSize s) = octets t := by
    rw [octets_append, List.drop_left' (length_octets s)]
  have hrules := (byteRules_bytewise d).octets_eq t
  rw [lexemeAt, hbytes, hrules]
  cases hb : (byteRules d).findSome? (· t) with
  | some l =>
    rw [scan?_eq_or, hb] at h
    cases h
    rfl
  | none =>
    rw [scan?_of_byteRules hb] at h
    simp only [Option.map_none, blanksEnd_append, symbol_bytewise.octets_eq, fromByte?_append]
    -- blanks, a symbol or any one character: the cuts are made where they can be
    split at h
    · next hblank =>
      have hpos := (bytesOf_pos_iff (blankRun_le t)).2 hblank
      cases h
      simp [hpos]
    · next hblank =>
      have hzero : blankRun t = 0 := by omega
      cases hs : symbol t with
      | some m =>
        simp only [hs, Option.elim_some, Option.some.injEq, Prod.mk.injEq] at h
        obtain ⟨rfl, rfl⟩ := h
        simp [hzero]
      | none =>
        cases t with
        | nil => simp [hs] at h
        | cons c t =>
          simp only [hs, Option.elim_none, List.head?_cons, Option.map_some, Option.some.injEq,
            Prod.mk.injEq] at h
          obtain ⟨rfl, rfl⟩ := h
          simp [hzero]

/-- An offset inside a character is followed by bytes of which the first is no character. -/
theorem exists_octets_drop_inside {source : Text} {i : Nat} (hlt : i < byteSize source)
    (h : ¬IsCharBoundary source i) :
    ∃ x u, (octets source).drop i = x :: u ∧ 128 ≤ x.toNat := by
  obtain ⟨s, c, r, k, rfl, rfl, hk⟩ := exists_split_of_lt hlt
  have hpos : k ≠ 0 := by
    rintro rfl
    exact h ⟨s, c :: r, rfl, rfl⟩
  have hwide : 128 ≤ c.toNat := by
    refine Nat.not_lt.1 fun hc => ?_
    rw [utf8Size_of_lt hc] at hk
    omega
  obtain ⟨x, w, hocts, hsize, hle⟩ := exists_octets_cons hwide r
  have hk' : k < (x :: w).length := by rwa [List.length_cons, ← hsize]
  refine ⟨(x :: w)[k], (x :: w).drop (k + 1) ++ octets r, ?_, hle _ (List.getElem_mem hk')⟩
  rw [octets_append, ← List.drop_drop, List.drop_left' (length_octets s), hocts,
    List.drop_append_of_le_length (Nat.le_of_lt hk'), List.drop_eq_getElem_cons hk']
  rfl

/-- **Inside a character no lexeme is found.** -/
theorem lexemeAt_inside {d : Dialect} {source : Text} {i : Nat} (hlt : i < byteSize source)
    (h : ¬IsCharBoundary source i) : lexemeAt d source i = none := by
  obtain ⟨x, u, hbytes, hx⟩ := exists_octets_drop_inside hlt h
  have hrules := (byteRules_bytewise d).none_of_le (u := u) hx
  -- no rule accepts before the cut for blanks, and that cut fails
  rw [lexemeAt, hbytes, hrules, blanksEnd_inside h]
  rfl

/-! ## One token -/

/-- Reads the token at a byte offset in place: its lexeme is found, then cut out of the source. -/
def readAt (d : Dialect) (source : Text) (position : Nat) : Reading :=
  if byteSize source ≤ position then .atEnd
  else
    match lexemeAt d source position with
    | none => .insideCharacter
    | some (kind, stop) =>
      match slice? source position stop with
      | none => .insideCharacter
      | some text => .token ⟨kind, text, position, stop, none⟩

/-- Between two characters the first lexeme of what follows is read. -/
theorem readAt_append {d : Dialect} {t : Text} {k : Kind} {n : Nat}
    (h : scan? d t = some (k, n)) (s : Text) :
    readAt d (s ++ t) (byteSize s)
      = .token ⟨k, t.take n, byteSize s, byteSize s + byteSize (t.take n), none⟩ := by
  have hinside : ¬byteSize (s ++ t) ≤ byteSize s := by
    have hbounds := scan?_bounds h
    have hle := length_le_byteSize t
    rw [byteSize_append]
    omega
  have hslice := slice?_append s (t.take n) (t.drop n)
  rw [List.append_assoc, List.take_append_drop] at hslice
  rw [readAt, if_neg hinside, lexemeAt_append h]
  simp only [bytesOf, hslice]

/-- **An offset is behind the source, inside a character, or in front of a lexeme.** -/
theorem readAt_cases (d : Dialect) (source : Text) (position : Nat) :
    (byteSize source ≤ position ∧ readAt d source position = .atEnd) ∨
    (position < byteSize source ∧ ¬IsCharBoundary source position ∧
      readAt d source position = .insideCharacter) ∨
    ∃ s t k n, source = s ++ t ∧ position = byteSize s ∧ scan? d t = some (k, n) ∧
      readAt d source position
        = .token ⟨k, t.take n, position, position + byteSize (t.take n), none⟩ := by
  by_cases hend : byteSize source ≤ position
  · exact Or.inl ⟨hend, if_pos hend⟩
  · have hlt := Nat.not_le.1 hend
    by_cases h : IsCharBoundary source position
    · obtain ⟨s, t, rfl, rfl⟩ := h
      have ht : scan? d t ≠ none := by
        rw [ne_eq, scan?_eq_none_iff]
        rintro rfl
        simp at hend
      obtain ⟨⟨k, n⟩, hscan⟩ := Option.ne_none_iff_exists'.1 ht
      exact Or.inr (Or.inr ⟨s, t, k, n, rfl, rfl, hscan, readAt_append hscan s⟩)
    · refine Or.inr (Or.inl ⟨hlt, h, ?_⟩)
      rw [readAt, if_neg hend, lexemeAt_inside hlt h]

/-- **Reading in place is reading at an offset**, between characters and inside them. -/
theorem readAt_eq (d : Dialect) (source : Text) (position : Nat) :
    readAt d source position = tokenAt d source position := by
  rcases readAt_cases d source position with
    ⟨hend, hread⟩ | ⟨hlt, hinside, hread⟩ | ⟨s, t, k, n, rfl, rfl, hscan, hread⟩
  · rw [hread, tokenAt, if_pos hend]
  · rw [hread, tokenAt, if_neg (Nat.not_le.2 hlt), fromByte?_eq_none_iff.2 hinside]
  · have hlength : (t.take n).length = n := by
      rw [List.length_take, Nat.min_eq_left (scan?_bounds hscan).2]
    have hlexeme : scan? d (t.take n ++ t.drop n) = some (k, (t.take n).length) := by
      rw [List.take_append_drop, hlength, hscan]
    have htoken := tokenAt_append hlexeme s
    rw [List.append_assoc, List.take_append_drop] at htoken
    rw [hread, htoken]
    rfl

/-- A token starts at the offset and ends behind it, between two characters. -/
theorem readAt_bounds {d : Dialect} {source : Text} {position : Nat} {t : Token}
    (h : readAt d source position = .token t) :
    t.start = position ∧ position < t.stop ∧ t.stop ≤ byteSize source ∧
      IsCharBoundary source t.stop ∧ slice? source t.start t.stop = some t.text := by
  rcases readAt_cases d source position with
    ⟨-, hread⟩ | ⟨-, -, hread⟩ | ⟨s, r, k, n, rfl, rfl, hscan, hread⟩
  · rw [hread] at h
    cases h
  · rw [hread] at h
    cases h
  · rw [hread] at h
    cases h
    have hbounds := scan?_bounds hscan
    have hpos := (bytesOf_pos_iff hbounds.2).2 hbounds.1
    have hsource : s ++ r = s ++ r.take n ++ r.drop n := by
      rw [List.append_assoc, List.take_append_drop]
    have hstop : IsCharBoundary (s ++ r) (byteSize s + byteSize (r.take n)) :=
      ⟨s ++ r.take n, r.drop n, hsource, byteSize_append _ _⟩
    exact ⟨rfl, Nat.lt_add_of_pos_right hpos, hstop.le, hstop, hsource ▸ slice?_append _ _ _⟩

theorem readAt_eq_atEnd_iff {d : Dialect} {source : Text} {position : Nat} :
    readAt d source position = .atEnd ↔ byteSize source ≤ position := by
  refine ⟨fun h => ?_, fun h => if_pos h⟩
  rcases readAt_cases d source position with
    ⟨hend, -⟩ | ⟨-, -, hread⟩ | ⟨s, t, k, n, -, -, -, hread⟩
  · exact hend
  · rw [hread] at h
    cases h
  · rw [hread] at h
    cases h

/-- **Reading fails exactly inside a character.** -/
theorem readAt_eq_insideCharacter_iff {d : Dialect} {source : Text} {position : Nat} :
    readAt d source position = .insideCharacter ↔
      position < byteSize source ∧ ¬IsCharBoundary source position := by
  constructor
  · intro h
    rcases readAt_cases d source position with
      ⟨-, hread⟩ | ⟨hlt, hinside, -⟩ | ⟨s, t, k, n, -, -, -, hread⟩
    · rw [hread] at h
      cases h
    · exact ⟨hlt, hinside⟩
    · rw [hread] at h
      cases h
  · rintro ⟨hlt, h⟩
    rw [readAt, if_neg (Nat.not_le.2 hlt), lexemeAt_inside hlt h]

/-! ## Token after token -/

/-- A place in a source from which tokens are read in place. -/
structure Scan where
  options : Options
  source : Text
  /-- The byte offset of the next token. -/
  position : Nat
  /-- The characters before it. -/
  seen : Nat

namespace Scan

/-- The place at the start of a source. -/
def start (o : Options) (source : Text) : Scan := ⟨o, source, 0, 0⟩

/-- The place behind a token. -/
def behind (c : Scan) (t : Token) : Scan :=
  { c with position := t.stop, seen := c.seen + t.text.length }

/-- The next token that the options ask for, and the place behind it. Nothing if reading fails. -/
def next (c : Scan) : Option (Option Token × Scan) :=
  match _ : readAt c.options.dialect c.source c.position with
  | .atEnd => some (none, c)
  | .insideCharacter => none
  | .token t =>
    let c' := c.behind t
    if c.options.ignoreBlanks && t.isBlank then next c'
    else
      let location := if c.options.showLocation then some c'.seen else none
      some (some { t with location := location }, c')
termination_by byteSize c.source - c.position
decreasing_by
  rename_i h _
  have hbounds := readAt_bounds h
  simp only [behind]
  omega

theorem next_of_atEnd {c : Scan} (h : readAt c.options.dialect c.source c.position = .atEnd) :
    c.next = some (none, c) := by
  rw [next]
  split
  · rfl
  · next h' => rw [h] at h'; cases h'
  · next h' => rw [h] at h'; cases h'

/-- A token that the options leave out is passed over. -/
theorem next_of_left_out {c : Scan} {t : Token}
    (h : readAt c.options.dialect c.source c.position = .token t)
    (hblank : (c.options.ignoreBlanks && t.isBlank) = true) : c.next = (c.behind t).next := by
  rw [next]
  split
  · next h' => rw [h] at h'; cases h'
  · next h' => rw [h] at h'; cases h'
  · next h' =>
    rw [h] at h'
    cases h'
    exact if_pos hblank

theorem next_of_kept {c : Scan} {t : Token}
    (h : readAt c.options.dialect c.source c.position = .token t)
    (hblank : ¬(c.options.ignoreBlanks && t.isBlank) = true) :
    c.next = some (some { t with
        location := if c.options.showLocation then some (c.behind t).seen else none },
      c.behind t) := by
  rw [next]
  split
  · next h' => rw [h] at h'; cases h'
  · next h' => rw [h] at h'; cases h'
  · next h' =>
    rw [h] at h'
    cases h'
    exact if_neg hblank

/-- A token leaves less of the source. -/
theorem next_lt {c c' : Scan} {t : Token} (h : c.next = some (some t, c')) :
    byteSize c'.source - c'.position < byteSize c.source - c.position := by
  fun_induction next c with
  | case1 => cases h
  | case2 => cases h
  | case3 c u hread c₁ hblank ih =>
    have hbounds := readAt_bounds hread
    have hle := ih h
    simp only [c₁, behind] at hle
    omega
  | case4 c u hread c₁ hblank =>
    have hbounds := readAt_bounds hread
    have hc' : c₁ = c' := congrArg Prod.snd (Option.some.inj h)
    rw [← hc']
    simp only [c₁, behind]
    omega

/-- All tokens from a place on. Nothing if reading one of them fails. -/
def tokens (c : Scan) : Option (List Token) :=
  match _ : c.next with
  | none => none
  | some (none, _) => some []
  | some (some t, c') => (tokens c').map (t :: ·)
termination_by byteSize c.source - c.position
decreasing_by
  rename_i h
  exact next_lt h

/-- The place after so many calls, if none of them fails. -/
def after : Scan → Nat → Option Scan
  | c, 0 => some c
  | c, k + 1 => c.next.bind fun r => r.2.after k

/-- The answer to the call that follows `k` calls. Nothing if one of these calls fails. -/
def answer (c : Scan) (k : Nat) : Option (Option Token) :=
  (c.after k).bind fun c => c.next.map Prod.fst

end Scan

namespace Cursor

/-- The place of a cursor in a source. -/
def placeIn (source : Text) (c : Cursor) : Scan := ⟨c.options, source, c.position, c.seen⟩

/-- The lexeme at a cursor is the one at its place, up to the location. -/
theorem StandsIn.readAt_position {source : Text} {c c' : Cursor} {t : Token}
    (hc : StandsIn source c) (h : c.advance? = some (t, c')) :
    readAt c.options.dialect source c.position = .token { t with location := none } ∧
      (c.placeIn source).behind t = c'.placeIn source ∧
      t.location
        = if c.options.showLocation then some ((c.placeIn source).behind t).seen else none := by
  obtain ⟨s, rfl, hposition⟩ := hc.exists_passed
  obtain ⟨⟨k, n⟩, hscan, he⟩ := Option.map_eq_some_iff.1 h
  obtain ⟨rfl, rfl⟩ := Prod.mk.inj he
  refine ⟨?_, rfl, rfl⟩
  rw [hposition]
  exact readAt_append hscan s

/-- **A call in place does not fail, and answers as the cursor does.** -/
theorem StandsIn.next_placeIn {source : Text} {c : Cursor} (hc : StandsIn source c) :
    (c.placeIn source).next = some (c.next.1, c.next.2.placeIn source) := by
  fun_induction Cursor.next c with
  | case1 c hadvance =>
    obtain ⟨s, hs, hposition⟩ := hc.exists_passed
    rw [advance?_eq_none_iff.1 hadvance, List.append_nil] at hs
    refine Scan.next_of_atEnd (c := c.placeIn source) (readAt_eq_atEnd_iff.2 ?_)
    exact Nat.le_of_eq (by rw [placeIn, hs, hposition])
  | case2 c t c' hadvance hblank ih =>
    obtain ⟨hread, hbehind, -⟩ := hc.readAt_position hadvance
    calc (c.placeIn source).next
        = ((c.placeIn source).behind t).next :=
          Scan.next_of_left_out (t := { t with location := none }) hread hblank
      _ = (c'.placeIn source).next := by rw [hbehind]
      _ = some (c'.next.1, c'.next.2.placeIn source) := ih (hc.advance? hadvance).1
  | case3 c t c' hadvance hblank =>
    obtain ⟨hread, hbehind, hlocation⟩ := hc.readAt_position hadvance
    refine (Scan.next_of_kept (c := c.placeIn source) hread hblank).trans ?_
    change some (some { t with location :=
        if c.options.showLocation then some ((c.placeIn source).behind t).seen else none },
      (c.placeIn source).behind t) = some (some t, c'.placeIn source)
    rw [← hlocation, hbehind]

/-- All tokens in place are those of the cursor. -/
theorem StandsIn.tokens_placeIn {source : Text} {c : Cursor} (hc : StandsIn source c) :
    (c.placeIn source).tokens = some c.tokens := by
  have hnext := hc.next_placeIn
  fun_induction Cursor.tokens c with
  | case1 c c' h =>
    rw [h] at hnext
    rw [Scan.tokens]
    split
    · next h' => rw [hnext] at h'; cases h'
    · rfl
    · next h' => rw [hnext] at h'; cases h'
  | case2 c t c' h ih =>
    have hc' : StandsIn source c' := by
      have := hc.next.1
      rwa [h] at this
    rw [h] at hnext
    rw [Scan.tokens]
    split
    · next h' => rw [hnext] at h'; cases h'
    · next h' => rw [hnext] at h'; cases h'
    · next h' =>
      rw [hnext] at h'
      cases h'
      rw [ih hc' hc'.next_placeIn, Option.map_some]

/-- Along all calls the place in the source is that of the cursor. -/
theorem StandsIn.after_placeIn {source : Text} {c : Cursor} (hc : StandsIn source c) (k : Nat) :
    (c.placeIn source).after k = some ((c.after k).placeIn source) := by
  induction k generalizing c with
  | zero => rfl
  | succ k ih =>
    rw [Scan.after, hc.next_placeIn, Option.bind_some, ih hc.next.1]
    rfl

end Cursor

namespace Scan

theorem tokens_start (o : Options) (source : Text) :
    (start o source).tokens = some (tokenize o source) :=
  (Cursor.standsIn_start o source).tokens_placeIn

/-- **No call in place fails, and all answer as a cursor does.** -/
theorem answer_start (o : Options) (source : Text) (k : Nat) :
    (start o source).answer k = some ((Cursor.start o source).answer k) := by
  have hstands := Cursor.standsIn_start o source
  have hafter : (start o source).after k
      = some (((Cursor.start o source).after k).placeIn source) := hstands.after_placeIn k
  rw [answer, hafter, Option.bind_some, (hstands.after k).1.next_placeIn]
  rfl

/-- After any number of calls the source can be cut where reading goes on. -/
theorem exists_after_start (o : Options) (source : Text) (k : Nat) :
    ∃ c, (start o source).after k = some c ∧ IsCharBoundary source c.position := by
  have hstands := Cursor.standsIn_start o source
  refine ⟨_, hstands.after_placeIn k, ?_⟩
  obtain ⟨s, hs, hposition⟩ := (hstands.after k).1.exists_passed
  exact ⟨s, _, hs, hposition.symm⟩

end Scan

end SqlText
