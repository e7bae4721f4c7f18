import SqlText.Proofs.Result
import SqlText.Proofs.Text.Occurrence
import SqlText.Template

/-!
# Templates are filled exactly

A template is read from left to right as pieces: characters that are taken over, doubled percent
signs, and placeholders in the style of the values. The pieces are determined by the text, since a
percent sign opens all of them but the first kind, and the character behind it tells them apart.

Filling a template replaces each piece by what it stands for. It stops at the first percent sign
that opens no piece, or a placeholder without a value; what stands behind it has no part in the
error. Whether values in order are as many as their placeholders is asked only when there is no
such percent sign.

## Main statements

* `filling_spelling`, `filling_of_offence`: what one percent sign gives.
* `fill_spell_append`: pieces are filled whatever follows them.
* `exists_pieces`: a template is pieces up to its end, or up to the first percent sign that cannot
  be filled.
* `render_exact`: which templates are filled and with which result, and the error of all others.
-/

namespace SqlText

open Text

namespace Template

/-! ## Pieces -/

/-- A piece of a template. -/
inductive Piece
  /-- A character that is taken over. -/
  | plain (c : Char)
  /-- A percent sign, written twice. -/
  | percent
  /-- A placeholder for the next value in order. -/
  | next
  /-- A placeholder for the value of a name. -/
  | named (name : Text)
  deriving DecidableEq, Repr

/-- How a piece is written. -/
def Piece.spelling : Piece → Text
  | plain c => [c]
  | percent => ['%', '%']
  | next => ['%', 's']
  | named name => '%' :: '(' :: (name ++ [')', 's'])

/-- How pieces are written, one after another. -/
def spell (ps : List Piece) : Text := ps.flatMap Piece.spelling

/--
Whether a piece can stand in a template with such values. A placeholder has the style of the values,
and a name ends at the first mark that can end it.
-/
def Piece.Fits (params : Params) : Piece → Prop
  | plain c => c ≠ '%'
  | percent => True
  | next => ∃ values, params = .positional values
  | named name => (∃ entries, params = .named entries) ∧ ¬[')', 's'] <:+: name

/-- The value that stands first under a name. -/
def Params.entry? : Params → Text → Option (Option Text)
  | named entries, name => entries.lookup name
  | positional _, _ => none

/-- Whether the name of a piece has a value. -/
def Params.Knows (params : Params) : Piece → Prop
  | .named name => ∃ v, params.entry? name = some v
  | _ => True

/-- What takes the place of a piece, where `used` values in order stand before it. -/
def Params.filled (params : Params) (used : Nat) : Piece → Text
  | .plain c => [c]
  | .percent => ['%']
  | .next =>
    match params with
    | named _ => []
    | positional values => (values[used]?).elim [] Literal.quote
  | .named name => (params.entry? name).elim [] Literal.quote

/-- What takes the place of pieces, one after another. -/
def Params.written (params : Params) (used : Nat) : List Piece → Text
  | [] => []
  | p :: ps => params.filled used p ++ params.written (used + [p].count .next) ps

theorem spell_cons (p : Piece) (ps : List Piece) : spell (p :: ps) = p.spelling ++ spell ps := rfl

/-! ## One percent sign -/

/--
Whether a percent sign, at byte offset `position` and with what follows it, cannot be filled: it
opens no piece, or a placeholder whose name has no value.
-/
inductive Offence (params : Params) (position : Nat) : Text → Error → Prop
  | malformed {t : Text} : (∀ p : Piece, p.Fits params → ¬p.spelling <+: '%' :: t) →
      Offence params position ('%' :: t) (.malformedPlaceholder position)
  | missing {name t : Text} : (Piece.named name).Fits params → params.entry? name = none →
      Offence params position ((Piece.named name).spelling ++ t) (.missingParameter name)

/-- The mark that ends a name is found behind the name, if it is not in it. -/
theorem indexOf?_close_iff {t : Text} {n : Nat} :
    indexOf? [')', 's'] t = some n ↔
      ∃ name rest, t = name ++ [')', 's'] ++ rest ∧ name.length = n ∧ ¬[')', 's'] <:+: name := by
  have hends : ∀ name : Text, [')', 's'] <:+: name ++ [')'] ↔ [')', 's'] <:+: name := by
    intro name
    rw [List.infix_concat_iff]
    constructor
    · rintro (hlast | hin)
      · obtain ⟨u, hu⟩ := hlast
        have := congrArg List.getLast? hu
        simp at this
      · exact hin
    · exact Or.inr
  rw [indexOf?_eq_some_iff (List.cons_ne_nil _ _)]
  simp only [List.dropLast_cons_cons, List.dropLast_singleton, hends]

/-- A placeholder with a name is filled with the first value of the name. -/
theorem filling_named (entries : List (Text × Option Text)) (position used : Nat) {name : Text}
    (hname : ¬[')', 's'] <:+: name) (t : Text) :
    (Params.named entries).filling position used ('(' :: (name ++ [')', 's'] ++ t))
      = match entries.lookup name with
        | none => .error (.missingParameter name)
        | some v => .ok ⟨Literal.quote v, used, t⟩ := by
  have hclose : indexOf? [')', 's'] (name ++ [')', 's'] ++ t) = some name.length :=
    indexOf?_close_iff.2 ⟨name, t, rfl, rfl, hname⟩
  have htake : (name ++ [')', 's'] ++ t).take name.length = name := by
    rw [List.append_assoc, List.take_left]
  have hdrop : (name ++ [')', 's'] ++ t).drop (name.length + 2) = t :=
    List.drop_left' (List.length_append ..)
  rw [Params.filling, if_neg (by decide)]
  cases hvalue : entries.lookup name with
  | none => simp only [if_true, hclose, htake, hvalue]
  | some v => simp only [if_true, hclose, htake, hdrop, hvalue]

/-- **A percent sign that opens a piece is filled as the piece.** -/
theorem filling_spelling {params : Params} {p : Piece} (hfits : p.Fits params)
    (hknows : params.Knows p) {u : Text} (hp : p.spelling = '%' :: u) (position used : Nat)
    (t : Text) :
    params.filling position used (u ++ t)
      = .ok ⟨params.filled used p, used + [p].count .next, t⟩ := by
  cases p with
  | plain c =>
    cases hp
    exact absurd rfl hfits
  | percent =>
    cases hp
    rfl
  | next =>
    cases hp
    obtain ⟨values, rfl⟩ := hfits
    have hfilled : (Params.positional values).filled used .next = literalAt values used :=
      (literalAt_eq values used).symm
    rw [hfilled]
    rfl
  | named name =>
    cases hp
    obtain ⟨⟨entries, rfl⟩, hname⟩ := hfits
    obtain ⟨v, hv⟩ := hknows
    have hlookup : entries.lookup name = some v := hv
    have hfilled : (Params.named entries).filled used (.named name) = Literal.quote v := by
      rw [Params.filled, hv]
      rfl
    rw [List.cons_append, filling_named entries position used hname, hlookup, hfilled]
    rfl

/-- **A percent sign that cannot be filled gives its error.** -/
theorem filling_of_offence {params : Params} {position : Nat} {t : Text} {e : Error}
    (h : Offence params position ('%' :: t) e) (used : Nat) :
    params.filling position used t = .error e := by
  generalize htext : '%' :: t = text at h
  cases h with
  | @malformed t' hopens =>
    cases htext
    cases t with
    | nil => rfl
    | cons c t =>
      have hpercent : c ≠ '%' := by
        rintro rfl
        exact hopens .percent trivial ⟨t, rfl⟩
      cases params with
      | positional values =>
        have hnext : c ≠ 's' := by
          rintro rfl
          exact hopens .next ⟨values, rfl⟩ ⟨t, rfl⟩
        rw [Params.filling, if_neg hpercent]
        exact if_neg hnext
      | named entries =>
        rw [Params.filling, if_neg hpercent]
        split
        · next hopen =>
          subst hopen
          -- a mark that ends the name would make it a placeholder
          cases hclose : indexOf? [')', 's'] t with
          | none => rfl
          | some n =>
            obtain ⟨name, rest, rfl, -, hname⟩ := indexOf?_close_iff.1 hclose
            exact absurd ⟨rest, rfl⟩ (hopens (.named name) ⟨⟨entries, rfl⟩, hname⟩)
        · rfl
  | @missing name rest hfits hnone =>
    obtain ⟨⟨entries, rfl⟩, hname⟩ := hfits
    have hlookup : entries.lookup name = none := hnone
    have ht : t = '(' :: (name ++ [')', 's'] ++ rest) := (List.cons.inj htext).2
    rw [ht, filling_named entries position used hname, hlookup]

/-- A percent sign opens a piece that can be filled, or it cannot be filled. -/
theorem exists_piece_or_offence (params : Params) (position : Nat) (t : Text) :
    (∃ p rest, p.Fits params ∧ params.Knows p ∧ '%' :: t = p.spelling ++ rest) ∨
      ∃ e, Offence params position ('%' :: t) e := by
  by_cases hopens : ∃ p : Piece, p.Fits params ∧ p.spelling <+: '%' :: t
  · obtain ⟨p, hfits, rest, hrest⟩ := hopens
    by_cases hknows : params.Knows p
    · exact Or.inl ⟨p, rest, hfits, hknows, hrest.symm⟩
    · cases p with
      | plain c => exact absurd trivial hknows
      | percent => exact absurd trivial hknows
      | next => exact absurd trivial hknows
      | named name =>
        have hnone : params.entry? name = none := by
          simpa [Params.Knows, ← Option.ne_none_iff_exists'] using hknows
        rw [← hrest]
        exact Or.inr ⟨_, .missing hfits hnone⟩
  · exact Or.inr ⟨_, .malformed fun p hfits hp => hopens ⟨p, hfits, hp⟩⟩

/-! ## All of a template -/

theorem map_push_push (x : Except Error Filled) (s t : Text) :
    (x.map (·.push t)).map (·.push s) = x.map (·.push (s ++ t)) := by
  cases x with
  | error e => rfl
  | ok f => simp [Except.map, Filled.push]

theorem fill_nil (params : Params) (stop used : Nat) :
    fill params stop used [] = .ok ⟨[], used⟩ := by
  rw [fill]

theorem fill_plain (params : Params) (stop used : Nat) {c : Char} (hc : c ≠ '%') (t : Text) :
    fill params stop used (c :: t) = (fill params stop used t).map (·.push [c]) := by
  rw [fill, if_neg hc]

theorem fill_percent (params : Params) (stop used : Nat) (t : Text) :
    fill params stop used ('%' :: t)
      = params.filling (stop - byteSize ('%' :: t)) used t >>= fun f =>
          (fill params stop f.used f.rest).map (·.push f.literal) := by
  rw [fill, if_pos rfl]
  split
  · next e he =>
    rw [he]
    rfl
  · next f hf => rw [bind_of_ok hf]

/-- **One piece is filled whatever follows it.** -/
theorem fill_spelling_append {params : Params} {p : Piece} (hfits : p.Fits params)
    (hknows : params.Knows p) (stop used : Nat) (t : Text) :
    fill params stop used (p.spelling ++ t)
      = (fill params stop (used + [p].count .next) t).map (·.push (params.filled used p)) := by
  cases p with
  | plain c => exact fill_plain params stop used hfits t
  | percent | next | named name =>
    rw [Piece.spelling, List.cons_append, fill_percent,
      bind_of_ok (filling_spelling hfits hknows rfl _ used t)]

/-- **Pieces are filled whatever follows them**, each in its place. -/
theorem fill_spell_append {params : Params} {ps : List Piece}
    (hps : ∀ p ∈ ps, p.Fits params ∧ params.Knows p) (stop used : Nat) (t : Text) :
    fill params stop used (spell ps ++ t)
      = (fill params stop (used + ps.count .next) t).map (·.push (params.written used ps)) := by
  induction ps generalizing used with
  | nil =>
    cases h : fill params stop used t with
    | error e => simp [spell, h, Except.map]
    | ok f => simp [spell, h, Except.map, Filled.push, Params.written]
  | cons p ps ih =>
    obtain ⟨hfits, hknows⟩ := hps p List.mem_cons_self
    rw [spell_cons, List.append_assoc, fill_spelling_append hfits hknows,
      ih (fun q hq => hps q (List.mem_cons_of_mem _ hq)), map_push_push, Nat.add_assoc,
      ← List.count_append]
    rfl

/-- A percent sign that cannot be filled ends the filling with its error. -/
theorem fill_of_offence {params : Params} {stop used : Nat} {t : Text} {e : Error}
    (h : Offence params (stop - byteSize t) t e) : fill params stop used t = .error e := by
  obtain ⟨u, rfl⟩ : ∃ u, t = '%' :: u := by
    cases h with
    | malformed _ => exact ⟨_, rfl⟩
    | missing _ _ => exact ⟨_, rfl⟩
  rw [fill_percent, filling_of_offence h]
  rfl

/--
**A template is pieces up to its end, or up to the first percent sign that cannot be filled.** Here
it starts at byte offset `start`.
-/
theorem exists_pieces (params : Params) (start : Nat) (t : Text) :
    ∃ ps rest, t = spell ps ++ rest ∧ (∀ p ∈ ps, p.Fits params ∧ params.Knows p) ∧
      (rest = [] ∨ ∃ e, Offence params (start + byteSize (spell ps)) rest e) := by
  -- each piece has at least one character, so what is behind it is shorter
  induction hn : t.length using Nat.strong_induction_on generalizing start t with
  | _ n ih =>
    have hpiece : ∀ {p : Piece} {rest : Text}, p.Fits params → params.Knows p →
        t = p.spelling ++ rest → ∃ ps rest, t = spell ps ++ rest ∧
          (∀ p ∈ ps, p.Fits params ∧ params.Knows p) ∧
          (rest = [] ∨ ∃ e, Offence params (start + byteSize (spell ps)) rest e) := by
      intro p rest hfits hknows ht
      have hpos : 0 < p.spelling.length := by cases p <;> simp [Piece.spelling]
      have hlt : rest.length < n := by
        rw [← hn, ht, List.length_append]
        omega
      obtain ⟨ps, rest', rfl, hps, hrest⟩ := ih _ hlt (start + byteSize p.spelling) rest rfl
      refine ⟨p :: ps, rest', by rw [ht, spell_cons, List.append_assoc], ?_, ?_⟩
      · exact List.forall_mem_cons.2 ⟨⟨hfits, hknows⟩, hps⟩
      · rwa [spell_cons, byteSize_append, ← Nat.add_assoc]
    cases t with
    | nil => exact ⟨[], [], rfl, nofun, Or.inl rfl⟩
    | cons c t =>
      by_cases hc : c = '%'
      · subst hc
        rcases exists_piece_or_offence params start t with
          ⟨p, rest, hfits, hknows, hrest⟩ | hoffence
        · exact hpiece hfits hknows hrest
        · exact ⟨[], '%' :: t, rfl, nofun, Or.inr hoffence⟩
      · exact hpiece (p := .plain c) hc trivial rfl

/-! ## Results and errors -/

/-- Whether values in order are as many as their placeholders. -/
def Params.Counted (params : Params) (ps : List Piece) : Prop :=
  ∀ values, params = .positional values → ps.count .next = values.length

/-- Pieces that can be filled are filled, if the values are as many as their placeholders. -/
theorem render_spell {params : Params} {ps : List Piece}
    (hps : ∀ p ∈ ps, p.Fits params ∧ params.Knows p) (hcount : params.Counted ps) :
    render params (spell ps) = .ok (params.written 0 ps) := by
  have hfill := fill_spell_append hps (byteSize (spell ps)) 0 []
  rw [List.append_nil, fill_nil, Nat.zero_add] at hfill
  rw [render, bind_of_ok hfill]
  cases params with
  | named entries => simp [Filled.push, pure, Except.pure]
  | positional values => simp [Filled.push, pure, Except.pure, hcount values rfl]

/-- And if not, they are refused for it. -/
theorem render_spell_of_ne {values : List (Option Text)} {ps : List Piece}
    (hps : ∀ p ∈ ps, p.Fits (.positional values) ∧ (Params.positional values).Knows p)
    (hcount : ps.count .next ≠ values.length) :
    render (.positional values) (spell ps)
      = .error (.parameterCount (ps.count .next) values.length) := by
  have hfill := fill_spell_append hps (byteSize (spell ps)) 0 []
  rw [List.append_nil, fill_nil, Nat.zero_add] at hfill
  rw [render, bind_of_ok hfill]
  exact if_neg hcount

/-- A percent sign that cannot be filled behind pieces that can gives its error. -/
theorem render_of_offence {params : Params} {ps : List Piece}
    (hps : ∀ p ∈ ps, p.Fits params ∧ params.Knows p) {rest : Text} {e : Error}
    (h : Offence params (byteSize (spell ps)) rest e) :
    render params (spell ps ++ rest) = .error e := by
  have hstop : byteSize (spell ps ++ rest) - byteSize rest = byteSize (spell ps) := by
    rw [byteSize_append]
    omega
  rw [← hstop] at h
  rw [render, fill_spell_append hps, fill_of_offence h]
  rfl

/-- A template is pieces and values as many as its placeholders ask for, or it has a fault. -/
theorem render_cases (params : Params) (template : Text) :
    (∃ ps, template = spell ps ∧ (∀ p ∈ ps, p.Fits params ∧ params.Knows p) ∧
      params.Counted ps) ∨
    (∃ ps rest e, template = spell ps ++ rest ∧ (∀ p ∈ ps, p.Fits params ∧ params.Knows p) ∧
      Offence params (byteSize (spell ps)) rest e) ∨
    ∃ ps values, params = .positional values ∧ template = spell ps ∧
      (∀ p ∈ ps, p.Fits params ∧ params.Knows p) ∧ ps.count .next ≠ values.length := by
  obtain ⟨ps, rest, rfl, hps, hrest⟩ := exists_pieces params 0 template
  rw [Nat.zero_add] at hrest
  rcases hrest with rfl | ⟨e, hoffence⟩
  · rw [List.append_nil]
    by_cases hcount : params.Counted ps
    · exact Or.inl ⟨ps, rfl, hps, hcount⟩
    · simp only [Params.Counted, not_forall] at hcount
      obtain ⟨values, hparams, hne⟩ := hcount
      exact Or.inr (Or.inr ⟨ps, values, hparams, rfl, hps, hne⟩)
  · exact Or.inr (Or.inl ⟨ps, rest, e, rfl, hps, hoffence⟩)

/--
**Templates are filled exactly.** A template is filled if and only if it is pieces in the style of
the values, each name has a value, and values in order are as many as their placeholders. The result
is the pieces one after another, each placeholder replaced by the literal of its value: the one in
its place in the order, or the first one of its name.

Every other template gives one of three errors. If a percent sign cannot be filled, the first such
one tells: it opens no piece, and is named by its byte offset, or its name has no value. If all can
be filled, the placeholders and the values are told to differ in number.
-/
theorem render_exact (params : Params) (template : Text) :
    (∀ out, render params template = .ok out ↔
      ∃ ps, template = spell ps ∧ (∀ p ∈ ps, p.Fits params ∧ params.Knows p) ∧
        params.Counted ps ∧ out = params.written 0 ps) ∧
    ∀ e, render params template = .error e ↔
      (∃ ps rest, template = spell ps ++ rest ∧ (∀ p ∈ ps, p.Fits params ∧ params.Knows p) ∧
        Offence params (byteSize (spell ps)) rest e) ∨
      ∃ ps values, params = .positional values ∧ template = spell ps ∧
        (∀ p ∈ ps, p.Fits params ∧ params.Knows p) ∧ ps.count .next ≠ values.length ∧
        e = .parameterCount (ps.count .next) values.length := by
  refine ⟨fun out => ⟨fun h => ?_, ?_⟩, fun e => ⟨fun h => ?_, ?_⟩⟩
  · rcases render_cases params template with
      ⟨ps, rfl, hps, hcount⟩ | ⟨ps, rest, e, rfl, hps, hoffence⟩ | ⟨ps, values, rfl, rfl, hps, hne⟩
    · rw [render_spell hps hcount] at h
      exact ⟨ps, rfl, hps, hcount, (Except.ok.inj h).symm⟩
    · rw [render_of_offence hps hoffence] at h
      cases h
    · rw [render_spell_of_ne hps hne] at h
      cases h
  · rintro ⟨ps, rfl, hps, hcount, rfl⟩
    exact render_spell hps hcount
  · rcases render_cases params template with
      ⟨ps, rfl, hps, hcount⟩ | ⟨ps, rest, e', rfl, hps, hoffence⟩ | ⟨ps, values, rfl, rfl, hps, hne⟩
    · rw [render_spell hps hcount] at h
      cases h
    · rw [render_of_offence hps hoffence] at h
      cases h
      exact Or.inl ⟨ps, rest, rfl, hps, hoffence⟩
    · rw [render_spell_of_ne hps hne] at h
      exact Or.inr ⟨ps, values, rfl, rfl, hps, hne, (Except.error.inj h).symm⟩
  · rintro (⟨ps, rest, rfl, hps, hoffence⟩ | ⟨ps, values, rfl, rfl, hps, hne, rfl⟩)
    · exact render_of_offence hps hoffence
    · exact render_spell_of_ne hps hne

-- a value may look like a placeholder, and two percent signs are no part of one
example : render (.positional [some "%s".toList, none]) "%s, %%s, %s".toList
    = .ok "'%s', %s, null".toList := by decide +kernel

end Template

end SqlText
