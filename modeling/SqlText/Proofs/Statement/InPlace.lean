import SqlText.Proofs.Statement.Calls
import SqlText.Proofs.Token.InPlace

/-!
# Statements in place

A splitter keeps the tokens that it has not given. Statements can also be cut out of the script in
place: tokens are read in place, the offset where a statement starts and the depth of parentheses
are kept, and at its end the statement is cut out between two offsets. A statement that was cut out
is read again, in place too, to see whether it copies rows from the input.

All these readings and cuts may fail, and a call gives nothing if one does. None does: statements
start and end where tokens do, and tokens start and end between characters. So the calls answer as
those of the splitter.

## Main statements

* `ScriptScan.read_of_cut`, `ScriptScan.read_of_uncut`: the loop over the tokens of a statement.
* `ScriptScan.next_matches`: a call in place answers as the splitter, step by step.
* `ScriptScan.answer_begin`: along all calls.
* `reading_safe_between_characters`: where tokens can be read, and that reading token after token,
  or statement after statement, never fails.
-/

namespace SqlText

open Text Statement

/-! ## The check of a statement -/

namespace Statement

/--
Refuses a statement that copies rows from the input, as `check` does, with its tokens read in place.
Nothing if reading fails.
-/
def checkInPlace (d : Dialect) (s : Statement) : Option (Except Error Statement) :=
  (Scan.start { dialect := d, ignoreBlanks := true } s.text).tokens.map fun
    | [] => .ok s
    | t :: ts =>
      if t.isKeyword "copy".toList && readsInput ts then .error (.unsupportedStatement s.text)
      else .ok s

theorem checkInPlace_eq (d : Dialect) (s : Statement) : checkInPlace d s = some (check d s) := by
  rw [checkInPlace, Scan.tokens_start, Option.map_some, check, copiesFromInput]
  cases tokenize { dialect := d, ignoreBlanks := true } s.text <;> rfl

end Statement

/-! ## One statement after another -/

/-- A script in the course of being split in place. -/
structure ScriptScan where
  scan : Scan
  /-- The byte offset where the statement that is being read starts, if one is. -/
  start : Option Nat
  /-- The depth of open parentheses. -/
  depth : Int
  /-- Whether there is nothing more to give. -/
  finished : Bool

namespace ScriptScan

/-- The start of a script. -/
def begin (standardQuoting : Bool) (source : Text) : ScriptScan :=
  ⟨Scan.start { dialect := { standardQuoting } } source, none, 0, false⟩

/-- Gives the statement that was cut out, if it was, and goes on at `scan` unless it is refused. -/
def give (s : ScriptScan) (scan : Scan) (start : Nat) (text : Option Text) :
    Option (Option (Except Error Statement) × ScriptScan) := do
  let item ← checkInPlace s.scan.options.dialect ⟨start, ← text⟩
  return (some item, { s with scan := scan, start := none, finished := !item.isOk })

/-- The answer at the end of the script. -/
def last (s : ScriptScan) (scan : Scan) : Option (Option (Except Error Statement) × ScriptScan) :=
  if s.depth ≠ 0 then
    some (some (.error (.unbalancedParentheses s.depth)), { s with scan := scan, finished := true })
  else
    match s.start with
    | none => some (none, { s with scan := scan, finished := true })
    | some start =>
      (s.give scan start (fromByte? s.scan.source start)).map fun r =>
        (r.1, { r.2 with finished := true })

/-- Reads tokens up to the end of a statement, and gives it. Nothing if a reading or a cut fails. -/
def read (s : ScriptScan) : Option (Option (Except Error Statement) × ScriptScan) :=
  match _ : s.scan.next with
  | none => none
  | some (none, scan) => s.last scan
  | some (some t, scan) =>
    if s.start = none ∧ t.isBlank then read { s with scan := scan }
    else
      let start := s.start.getD t.start
      if t.isSymbol [';'] ∧ s.depth = 0 then
        s.give scan start (slice? s.scan.source start t.stop)
      else
        read { s with scan := scan, start := some start, depth := s.depth + weight t }
termination_by byteSize s.scan.source - s.scan.position
decreasing_by
  · rename_i h _
    exact Scan.next_lt h
  · rename_i h _ _
    exact Scan.next_lt h

/-- The next statement of the script, if there is one. -/
def next (s : ScriptScan) : Option (Option (Except Error Statement) × ScriptScan) :=
  if s.finished then some (none, s) else s.read

/-- The script after so many calls, if none of them fails. -/
def after : ScriptScan → Nat → Option ScriptScan
  | s, 0 => some s
  | s, k + 1 => s.next.bind fun r => r.2.after k

/-- The answer to the call that follows `k` calls. Nothing if one of these calls fails. -/
def answer (s : ScriptScan) (k : Nat) : Option (Option (Except Error Statement)) :=
  (s.after k).bind fun s => s.next.map Prod.fst

/-! ### The loop, token by token -/

theorem read_of_end {s : ScriptScan} {scan : Scan} (h : s.scan.next = some (none, scan)) :
    s.read = s.last scan := by
  rw [read]
  split
  · next h' => rw [h] at h'; cases h'
  · next h' => rw [h] at h'; cases h'; rfl
  · next h' => rw [h] at h'; cases h'

/-- A blank before a statement is passed over. -/
theorem read_of_blank {s : ScriptScan} {scan : Scan} {t : Token}
    (h : s.scan.next = some (some t, scan)) (hblank : s.start = none ∧ t.isBlank) :
    s.read = read { s with scan := scan } := by
  rw [read]
  split
  · next h' => rw [h] at h'; cases h'
  · next h' => rw [h] at h'; cases h'
  · next h' => rw [h] at h'; cases h'; exact if_pos hblank

/-- Any other token is part of a statement, and may end it. -/
theorem read_of_part {s : ScriptScan} {scan : Scan} {t : Token}
    (h : s.scan.next = some (some t, scan)) (hpart : ¬(s.start = none ∧ t.isBlank)) :
    s.read = if t.isSymbol [';'] ∧ s.depth = 0 then
        s.give scan (s.start.getD t.start) (slice? s.scan.source (s.start.getD t.start) t.stop)
      else read { s with
        scan := scan, start := some (s.start.getD t.start), depth := s.depth + weight t } := by
  rw [read]
  split
  · next h' => rw [h] at h'; cases h'
  · next h' => rw [h] at h'; cases h'
  · next h' => rw [h] at h'; cases h'; exact if_neg hpart

/-- A statement that is cut out is checked, and it is the last one if it is refused. -/
theorem give_of_cut (s : ScriptScan) (scan : Scan) (start : Nat) {cutOut : Option Text}
    {text : Text} (h : cutOut = some text) :
    s.give scan start cutOut
      = some (some (check s.scan.options.dialect ⟨start, text⟩), { s with
        scan := scan, start := none,
        finished := !(check s.scan.options.dialect ⟨start, text⟩).isOk }) := by
  rw [h]
  simp [give, checkInPlace_eq]

end ScriptScan

namespace Cursor

/-- A cursor stands behind the text that was read. -/
theorem StandsIn.position_eq {source : Text} {c : Cursor} (hc : StandsIn source c) {s : Text}
    (h : source = s ++ c.rest) : c.position = byteSize s := by
  obtain ⟨s', hs', hposition⟩ := hc.exists_passed
  rw [hposition, List.append_cancel_right (hs'.symm.trans h)]

/-- Where no tokens are to come, a call in place is at the end of the source. -/
theorem StandsIn.next_of_nil {source : Text} {c : Cursor} (hc : StandsIn source c)
    (ho : c.options.ignoreBlanks = false) (hts : c.tokens = []) :
    c.rest = [] ∧ ∃ scan, (c.placeIn source).next = some (none, scan) := by
  constructor
  · cases hadvance : c.advance? with
    | none => exact advance?_eq_none_iff.1 hadvance
    | some r =>
      rw [tokens_of_kept (t := r.1) hadvance (by rw [ho, Bool.false_and])] at hts
      cases hts
  · rcases next_cases c with ⟨hnone, -⟩ | ⟨t, -, htokens⟩
    · exact ⟨_, hnone ▸ hc.next_placeIn⟩
    · rw [hts] at htokens
      cases htokens

/-- With blanks kept, a call in place takes the next lexeme. -/
theorem StandsIn.next_of_cons {source : Text} {c : Cursor} (hc : StandsIn source c)
    (ho : c.options.ignoreBlanks = false) {t : Token} {ts : List Token} (hts : c.tokens = t :: ts) :
    ∃ c', (c.placeIn source).next = some (some t, c'.placeIn source) ∧ StandsIn source c' ∧
      c'.options = c.options ∧ c'.tokens = ts ∧ c.rest = t.text ++ c'.rest ∧
      t.start = c.position ∧ t.stop = c'.position := by
  cases hadvance : c.advance? with
  | none =>
    rw [tokens_eq_nil (advance?_eq_none_iff.1 hadvance)] at hts
    cases hts
  | some r =>
    obtain ⟨t', c'⟩ := r
    have hkept : (c.options.ignoreBlanks && t'.isBlank) = false := by rw [ho, Bool.false_and]
    rw [tokens_of_kept hadvance hkept] at hts
    obtain ⟨rfl, rfl⟩ := List.cons.inj hts
    have hnext : c.next = (some t', c') := by
      rw [Cursor.next]
      split
      · next h => rw [hadvance] at h; cases h
      · next h =>
        rw [hadvance] at h
        cases h
        rw [hkept]
        rfl
    obtain ⟨hstands, hoptions⟩ := hc.advance? hadvance
    have hoffsets : t'.start = c.position ∧ t'.stop = c'.position := by
      obtain ⟨l, -, he⟩ := Option.map_eq_some_iff.1 hadvance
      obtain ⟨rfl, rfl⟩ := Prod.mk.inj he
      exact ⟨rfl, rfl⟩
    refine ⟨c', ?_, hstands, hoptions, rfl, (advance?_text hadvance).symm, hoffsets⟩
    rw [hc.next_placeIn, hnext]

end Cursor

namespace ScriptScan

section

variable {source : Text} {c : Cursor}

/--
**The tokens of a statement are read up to where they are cut.** The statement starts behind `s`,
and `g` is what was read of it.
-/
theorem read_of_cut (hc : Cursor.StandsIn source c) (ho : c.options.ignoreBlanks = false)
    {s g : Text} (hsource : source = s ++ g ++ c.rest) {depth : Int} {ts rest : List Token}
    (hcut : cut depth c.tokens = some (ts, rest)) :
    let item := check c.options.dialect ⟨byteSize s, g ++ textOf ts⟩
    ∃ c' : Cursor, Cursor.StandsIn source c' ∧ c'.options = c.options ∧ c'.tokens = rest ∧
      (ScriptScan.mk (c.placeIn source) (some (byteSize s)) depth false).read
        = some (some item, ⟨c'.placeIn source, none, 0, !item.isOk⟩) := by
  induction hts : c.tokens generalizing c g depth ts with
  | nil =>
    rw [hts] at hcut
    cases hcut
  | cons t us ih =>
    obtain ⟨c', hnext, hstands, hoptions, rfl, hrest, -, hstop⟩ := hc.next_of_cons ho hts
    have hsource' : source = s ++ (g ++ t.text) ++ c'.rest := by
      rw [hsource, hrest]
      simp only [List.append_assoc]
    rw [hts, cut] at hcut
    rw [read_of_part hnext (by simp)]
    split at hcut
    · next hend =>
      cases hcut
      have hslice : slice? source (byteSize s) t.stop = some (g ++ t.text) := by
        rw [hstop, hstands.position_eq hsource', byteSize_append, hsource']
        exact slice?_append _ _ _
      refine ⟨c', hstands, hoptions, rfl, ?_⟩
      rw [if_pos hend]
      refine (give_of_cut _ _ _ hslice).trans ?_
      simp [textOf, hend.2, Cursor.placeIn]
    · next hend =>
      obtain ⟨⟨ts', rest'⟩, hcut', he⟩ := Option.map_eq_some_iff.1 hcut
      cases he
      obtain ⟨c₁, hstands₁, hoptions₁, htokens₁, hread⟩ :=
        ih hstands (hoptions ▸ ho) hsource' hcut' rfl
      refine ⟨c₁, hstands₁, hoptions₁.trans hoptions, htokens₁, ?_⟩
      rw [if_neg hend]
      refine hread.trans ?_
      simp [textOf, hoptions]

/-- **The tokens of a statement that are not cut are read up to the end of the script.** -/
theorem read_of_uncut (hc : Cursor.StandsIn source c) (ho : c.options.ignoreBlanks = false)
    {s g : Text} (hsource : source = s ++ g ++ c.rest) {depth : Int}
    (hcut : cut depth c.tokens = none) :
    ∃ p, p.finished = true ∧
      (ScriptScan.mk (c.placeIn source) (some (byteSize s)) depth false).read
        = some (some (if depth + balance c.tokens ≠ 0
          then .error (.unbalancedParentheses (depth + balance c.tokens))
          else check c.options.dialect ⟨byteSize s, g ++ textOf c.tokens⟩), p) := by
  induction hts : c.tokens generalizing c g depth with
  | nil =>
    obtain ⟨hrest, scan, hnext⟩ := hc.next_of_nil ho hts
    rw [read_of_end hnext, last, balance, Int.add_zero]
    split
    · exact ⟨_, rfl, rfl⟩
    · have hfrom : fromByte? source (byteSize s) = some g := by
        rw [hsource, hrest, List.append_nil, fromByte?_append]
      have hgive := give_of_cut ⟨c.placeIn source, some (byteSize s), depth, false⟩ scan
        (byteSize s) hfrom
      refine ⟨⟨scan, none, depth, true⟩, rfl, (congrArg (Option.map _) hgive).trans ?_⟩
      simp [textOf, Cursor.placeIn]
  | cons t us ih =>
    obtain ⟨c', hnext, hstands, hoptions, rfl, hrest, -, -⟩ := hc.next_of_cons ho hts
    have hsource' : source = s ++ (g ++ t.text) ++ c'.rest := by
      rw [hsource, hrest]
      simp only [List.append_assoc]
    rw [hts, cut] at hcut
    rw [read_of_part hnext (by simp)]
    split at hcut
    · cases hcut
    · next hend =>
      obtain ⟨p, hp, hread⟩ :=
        ih hstands (hoptions ▸ ho) hsource' (Option.map_eq_none_iff.1 hcut) rfl
      refine ⟨p, hp, ?_⟩
      rw [if_neg hend]
      refine hread.trans ?_
      simp [textOf, hoptions, balance, Int.add_assoc]

/-- Before a statement, blanks are passed over. -/
theorem read_of_blanks (hc : Cursor.StandsIn source c) (ho : c.options.ignoreBlanks = false) :
    (c.tokens.dropWhile Token.isBlank = [] ∧ ∃ p, p.finished = true ∧
      (ScriptScan.mk (c.placeIn source) none 0 false).read = some (none, p)) ∨
    ∃ c' : Cursor, Cursor.StandsIn source c' ∧ c'.options = c.options ∧
      c'.tokens = c.tokens.dropWhile Token.isBlank ∧
      (∃ t ∈ c'.tokens.head?, t.start = c'.position) ∧
      (ScriptScan.mk (c.placeIn source) none 0 false).read
        = (ScriptScan.mk (c'.placeIn source) (some c'.position) 0 false).read := by
  induction hts : c.tokens generalizing c with
  | nil =>
    obtain ⟨-, scan, hnext⟩ := hc.next_of_nil ho hts
    exact Or.inl ⟨rfl, _, rfl, read_of_end hnext⟩
  | cons t ts ih =>
    obtain ⟨c', hnext, hstands, hoptions, rfl, -, hstart, -⟩ := hc.next_of_cons ho hts
    rw [List.dropWhile_cons]
    split
    · next hblank =>
      have hskip : (ScriptScan.mk (c.placeIn source) none 0 false).read
          = (ScriptScan.mk (c'.placeIn source) none 0 false).read := by
        rw [read_of_blank hnext ⟨rfl, hblank⟩]
      rw [hskip, ← hoptions]
      exact ih hstands (hoptions ▸ ho) rfl
    · next hblank =>
      refine Or.inr ⟨c, hc, rfl, hts, ⟨t, by rw [hts]; rfl, hstart⟩, ?_⟩
      -- the statement starts with this token, whether its start is known or not
      have hunknown := read_of_part (s := ⟨c.placeIn source, none, 0, false⟩) hnext
        (fun h => hblank h.2)
      have hknown := read_of_part (s := ⟨c.placeIn source, some c.position, 0, false⟩) hnext
        (by simp)
      rw [hunknown, hknown]
      simp only [Option.getD_none, Option.getD_some, hstart]
      rfl

end

/-! ### Call by call -/

/-- Whether a script split in place has the same tokens to read as a splitter. -/
def Matches (source : Text) (s : Splitter) (p : ScriptScan) : Prop :=
  (p.finished = true ∧ s.pending = []) ∨
    ∃ c : Cursor, Cursor.StandsIn source c ∧ c.options = { dialect := s.dialect } ∧
      s.pending = c.tokens ∧ p = ⟨c.placeIn source, none, 0, false⟩

theorem matches_begin (standardQuoting : Bool) (source : Text) :
    Matches source (Splitter.start standardQuoting source) (begin standardQuoting source) :=
  Or.inr ⟨_, Cursor.standsIn_start _ source, rfl, rfl, rfl⟩

theorem matches_done {source : Text} {s : Splitter} {p : ScriptScan} (h : p.finished = true) :
    Matches source s.done p := Or.inl ⟨h, rfl⟩

/-- A splitter that gives a statement goes on, or ends, as the script in place does. -/
theorem matches_give {source : Text} {s : Splitter} {c : Cursor} (hc : Cursor.StandsIn source c)
    (ho : c.options = { dialect := s.dialect }) (st : Statement) :
    Matches source (s.give st c.tokens).2
      ⟨c.placeIn source, none, 0, !(check s.dialect st).isOk⟩ := by
  unfold Splitter.give
  split
  · next h =>
    rw [h]
    exact Or.inr ⟨c, hc, ho, rfl, rfl⟩
  · next h =>
    rw [h]
    exact matches_done rfl

/-- **A call in place does not fail, answers as the splitter, and leaves the same tokens.** -/
theorem next_matches {source : Text} {s : Splitter} {p : ScriptScan} (h : Matches source s p) :
    ∃ p', p.next = some (s.next.1, p') ∧ Matches source s.next.2 p' := by
  rcases h with ⟨hfinished, hpending⟩ | ⟨c, hc, ho, hpending, rfl⟩
  · have hnext := Splitter.next_of_blanks (s := s) (by rw [hpending]; rfl)
    rw [hnext, next, if_pos hfinished]
    exact ⟨p, rfl, matches_done hfinished⟩
  · have hkept : c.options.ignoreBlanks = false := by rw [ho]
    have hdialect : c.options.dialect = s.dialect := by rw [ho]
    rw [next, if_neg (by simp)]
    obtain ⟨hblank, p', hp', hread⟩ | ⟨c₁, hc₁, hoptions, htokens, ⟨t, ht, hstart⟩, hread⟩ :=
      read_of_blanks hc hkept
    · rw [Splitter.next_of_blanks (s := s) (by rw [hpending, hblank]), hread]
      exact ⟨p', rfl, matches_done hp'⟩
    · obtain ⟨ts, hts⟩ := List.head?_eq_some_iff.1 ht
      have hpart : s.pending.dropWhile Token.isBlank = t :: ts := by rw [hpending, ← htokens, hts]
      obtain ⟨passed, hpassed, hposition⟩ := hc₁.exists_passed
      have hsource : source = passed ++ [] ++ c₁.rest := by rw [List.append_nil, hpassed]
      have hkept₁ : c₁.options.ignoreBlanks = false := by rw [hoptions, hkept]
      have hdialect : c₁.options.dialect = s.dialect := by rw [hoptions, ho]
      rw [hread, hposition]
      cases hcut : cut 0 (t :: ts) with
      | some r =>
        obtain ⟨g, rest⟩ := r
        obtain ⟨c₂, hc₂, ho₂, rfl, hread₂⟩ := read_of_cut hc₁ hkept₁ hsource (hts ▸ hcut)
        rw [hdialect, List.nil_append, ← hposition, ← hstart] at hread₂
        rw [Splitter.next_of_cut hpart hcut, Splitter.fst_give, ← hposition, ← hstart, hread₂]
        exact ⟨_, rfl, matches_give hc₂ (by rw [ho₂, hoptions, ho]) _⟩
      | none =>
        obtain ⟨p', hp', hread₂⟩ := read_of_uncut hc₁ hkept₁ hsource (hts ▸ hcut)
        rw [hdialect, List.nil_append, ← hposition, ← hstart, hts, Int.zero_add] at hread₂
        rw [← hposition, ← hstart, hread₂]
        by_cases hbalance : balance (t :: ts) = 0
        · rw [Splitter.next_of_last hpart hcut hbalance, Splitter.fst_give,
            if_neg (not_not_intro hbalance)]
          exact ⟨p', rfl, Or.inl ⟨hp', List.suffix_nil.1 (Splitter.pending_give s _ [])⟩⟩
        · rw [Splitter.next_of_unbalanced hpart hcut hbalance, if_pos hbalance]
          exact ⟨p', rfl, matches_done hp'⟩

/-- Along all calls the script in place has the same tokens to read as the splitter. -/
theorem after_matches {source : Text} {s : Splitter} {p : ScriptScan} (h : Matches source s p)
    (k : Nat) : ∃ p', p.after k = some p' ∧ Matches source (s.after k) p' := by
  induction k generalizing s p with
  | zero => exact ⟨p, rfl, h⟩
  | succ k ih =>
    obtain ⟨p₁, hnext, hmatches⟩ := next_matches h
    rw [after, hnext]
    exact ih hmatches

/-- **No call for the next statement in place fails, and all answer as the splitter does.** -/
theorem answer_begin (standardQuoting : Bool) (source : Text) (k : Nat) :
    (begin standardQuoting source).answer k
      = some ((Splitter.start standardQuoting source).answer k) := by
  obtain ⟨p, hafter, hmatches⟩ := after_matches (matches_begin standardQuoting source) k
  obtain ⟨p', hnext, -⟩ := next_matches hmatches
  rw [answer, hafter, Option.bind_some, hnext, Option.map_some]
  rfl

end ScriptScan

/-! ## Where reading is safe -/

/--
**Reading at a byte offset is safe exactly between characters.** There is nothing to read exactly at
the end of the source and behind it, reading fails exactly inside a character, and a token that is
read starts at the offset, takes some bytes and ends inside the source between two characters. The
same is found in place, on the bytes of the source and with the cuts that this takes. So reading
token after token in place never fails, nor does cutting off what is left after any number of calls,
and splitting statement after statement in place never fails.
-/
theorem reading_safe_between_characters (d : Dialect) (source : Text) (position : Nat) :
    (tokenAt d source position = .atEnd ↔ byteSize source ≤ position) ∧
    (tokenAt d source position = .insideCharacter ↔
      position < byteSize source ∧ ¬IsCharBoundary source position) ∧
    (∀ t, tokenAt d source position = .token t →
      t.start = position ∧ position < t.stop ∧ t.stop ≤ byteSize source ∧
        IsCharBoundary source t.stop ∧ slice? source t.start t.stop = some t.text) ∧
    readAt d source position = tokenAt d source position ∧
    (∀ (o : Options) (k : Nat),
      (Scan.start o source).answer k = some ((Cursor.start o source).answer k) ∧
        ∃ c, (Scan.start o source).after k = some c ∧ IsCharBoundary source c.position) ∧
    ∀ (standardQuoting : Bool) (k : Nat),
      (ScriptScan.begin standardQuoting source).answer k
        = some ((Splitter.start standardQuoting source).answer k) := by
  rw [← readAt_eq]
  exact ⟨readAt_eq_atEnd_iff, readAt_eq_insideCharacter_iff, fun t ht => readAt_bounds ht, rfl,
    fun o k => ⟨Scan.answer_start o source k, Scan.exists_after_start o source k⟩,
    fun standardQuoting k => ScriptScan.answer_begin standardQuoting source k⟩

/-- A string in which a backslash escapes a letter of two bytes, and an offset inside the letter. -/
theorem reading_safe_between_characters_escaped :
    let source := "'\\é';$é$".toList
    let t : Token := ⟨.string, "'\\é'".toList, 0, 5, none⟩
    (tokenAt .legacy source 0 = .token t ∧ t.start = 0 ∧ 0 < t.stop ∧ t.stop ≤ byteSize source ∧
      IsCharBoundary source t.stop ∧ slice? source t.start t.stop = some t.text) ∧
    (tokenAt .legacy source 3 = .insideCharacter ∧ 3 < byteSize source ∧
      ¬IsCharBoundary source 3) ∧
    (ScriptScan.begin false source).answer 1
      = some ((Splitter.start false source).answer 1) := by
  intro source t
  have htoken : tokenAt .legacy source 0 = .token t := by decide +kernel
  have hinside : tokenAt .legacy source 3 = .insideCharacter := by decide +kernel
  obtain ⟨-, -, hbounds, -⟩ := reading_safe_between_characters .legacy source 0
  obtain ⟨-, hfails, -, -, -, hscripts⟩ := reading_safe_between_characters .legacy source 3
  exact ⟨⟨htoken, hbounds t htoken⟩, ⟨hinside, hfails.1 hinside⟩, hscripts false 1⟩

end SqlText
