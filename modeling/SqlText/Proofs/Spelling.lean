import Mathlib.Data.List.Chain
import Mathlib.Data.Nat.Digits.Defs
import Mathlib.Tactic.Ring
import SqlText.Proofs.Quoting

/-!
# Spellings of a string

A character of a string with escapes can be written in many ways: as it stands, behind a backslash,
by a letter for a control character, by its code in octal digits, and a quote also by two quotes.
The library writes one of them. It reads all of them, and reads each as the character that it stands
for.

Two spellings in a row stay apart, with one exception: an octal escape of fewer than three digits
goes on with a digit that follows it.

## Main statements

* `Spelling.octal_digits`: octal digits are read as their number.
* `Spelling.decode_append`: a spelling is decoded by itself, if what follows stays apart from it.
* `Spelling.decode_flatMap_text`: so spellings in a row are decoded one by one.
* `unquote_spelled`: a string in any spelling is read as what it spells.
-/

namespace SqlText

open Text Rule

namespace Literal

/-! ## Spellings -/

/-- The letters that stand for control characters behind a backslash. -/
def controls : List (Char × Char) :=
  [('t', '\t'), ('n', '\n'), ('r', '\r'), ('a', '\x07'), ('b', '\x08')]

/-- The octal digits. -/
def octalDigits : List Char := ['0', '1', '2', '3', '4', '5', '6', '7']

/-- One character of a string with escapes, as it may be written. -/
inductive Spelling
  /-- A character as it stands. -/
  | plain (c : Char) (h : c ≠ '\\' ∧ c ≠ '\'')
  /-- Two quotes. -/
  | pair
  /-- A backslash and the letter of a control character. -/
  | control (letter code : Char) (h : (letter, code) ∈ controls)
  /-- A backslash and any other character that is no octal digit. -/
  | escaped (c : Char) (h : c ∉ controls.map Prod.fst ∧ c ∉ octalDigits)
  /-- A backslash and the code of a character in one to three octal digits, the highest first. -/
  | octal (digits : List (Fin 8)) (h : 1 ≤ digits.length ∧ digits.length ≤ 3)

namespace Spelling

/-- The character of an octal digit. -/
def digitChar (d : Fin 8) : Char := octalDigits.get d

/-- How a spelling is written. -/
def text : Spelling → Text
  | plain c _ => [c]
  | pair => ['\'', '\'']
  | control letter _ _ => ['\\', letter]
  | escaped c _ => ['\\', c]
  | octal digits _ => '\\' :: digits.map digitChar

/-- The character that a spelling stands for. -/
def value : Spelling → Char
  | plain c _ => c
  | pair => '\''
  | control _ code _ => code
  | escaped c _ => c
  | octal digits _ => Char.ofNat (Nat.ofDigits 8 (digits.map Fin.val).reverse)

/-- Whether a spelling goes on with an octal digit that follows it. -/
def isOpen : Spelling → Bool
  | octal digits _ => digits.length < 3
  | _ => false

/-- Whether a spelling stays apart from a text that follows it. -/
def ApartFrom (u : Spelling) (rest : Text) : Prop :=
  u.isOpen = true → ∀ c ∈ rest.head?, c ∉ octalDigits

/-- Whether a spelling stays apart from another that follows it. -/
def Apart (u v : Spelling) : Prop := u.ApartFrom v.text

instance (u : Spelling) (rest : Text) : Decidable (u.ApartFrom rest) :=
  inferInstanceAs (Decidable (_ → ∀ c ∈ rest.head?, _))

instance : DecidableRel Apart := fun u v => inferInstanceAs (Decidable (u.ApartFrom v.text))

theorem text_ne_nil (u : Spelling) : u.text ≠ [] := by
  cases u <;> exact List.cons_ne_nil _ _

/-- What stands behind a spelling starts with the spelling that follows. -/
theorem apartFrom_flatMap {u : Spelling} {us : List Spelling} (h : (u :: us).IsChain Apart) :
    u.ApartFrom (us.flatMap text) := by
  cases us with
  | nil =>
    intro _ c hc
    cases hc
  | cons v us =>
    intro hopen c hc
    rw [List.flatMap_cons, List.head?_append_of_ne_nil _ v.text_ne_nil] at hc
    exact (List.isChain_cons_cons.1 h).1 hopen c hc

/-! ## Octal digits -/

theorem octalDigit?_digitChar (d : Fin 8) : Escape.octalDigit? (digitChar d) = some d.val := by
  revert d
  decide

theorem octalDigit?_eq_none {c : Char} (h : c ∉ octalDigits) : Escape.octalDigit? c = none := by
  unfold Escape.octalDigit?
  split
  · next hc =>
    -- the characters between the first and the last digit are the digits
    have hle : 48 ≤ c.toNat ∧ c.toNat ≤ 55 := hc
    have hcode : ∀ n, 48 ≤ n → n ≤ 55 → Char.ofNat n ∈ octalDigits := by decide
    rw [← Char.ofNat_toNat c] at h
    exact absurd (hcode c.toNat hle.1 hle.2) h
  · rfl

/--
**Octal digits are read as their number**, behind those that made up `code`, if they are as many as
may follow or no digit follows them.
-/
theorem octal_digits (more code : Nat) {ds : List (Fin 8)} {rest : Text}
    (hle : ds.length ≤ more) (hrest : ds.length < more → ∀ c ∈ rest.head?, c ∉ octalDigits) :
    Escape.octal more code (ds.map digitChar ++ rest)
      = (Nat.ofDigits 8 (ds.map Fin.val).reverse + 8 ^ ds.length * code, rest) := by
  induction ds generalizing more code with
  | nil =>
    rw [List.map_nil, List.nil_append, List.map_nil, List.reverse_nil, Nat.ofDigits_nil,
      List.length_nil, Nat.pow_zero, Nat.one_mul, Nat.zero_add]
    cases more with
    | zero => rw [Escape.octal]
    | succ more =>
      cases rest with
      | nil => rfl
      | cons c rest =>
        have hc := octalDigit?_eq_none (hrest (Nat.succ_pos more) c rfl)
        rw [Escape.octal, hc]
  | cons d ds ih =>
    obtain ⟨more, rfl⟩ : ∃ m, more = m + 1 := ⟨more - 1, by simp at hle; omega⟩
    simp only [List.length_cons] at hle hrest
    have hread := ih more (code * 8 + d.val) (by omega) fun h => hrest (by omega)
    rw [List.map_cons, List.cons_append, Escape.octal, octalDigit?_digitChar]
    simp only [hread, List.map_cons, List.reverse_cons, Nat.ofDigits_append,
      Nat.ofDigits_singleton, List.length_reverse, List.length_map, List.length_cons, Nat.pow_succ]
    congr 1
    ring

/-! ## Decoding -/

theorem meaning_control {letter code : Char} (h : (letter, code) ∈ controls) :
    Escape.octalDigit? letter = none ∧ Escape.meaning letter = code := by
  have hall : ∀ p ∈ controls, Escape.octalDigit? p.1 = none ∧ Escape.meaning p.1 = p.2 := by decide
  exact hall _ h

theorem meaning_escaped {c : Char} (h : c ∉ controls.map Prod.fst) : Escape.meaning c = c := by
  simp only [controls, List.map_cons, List.map_nil, List.mem_cons, List.not_mem_nil, or_false,
    not_or] at h
  obtain ⟨ht, hn, hr, ha, hb⟩ := h
  rw [Escape.meaning, if_neg ht, if_neg hn, if_neg hr, if_neg ha, if_neg hb]

/-- An octal escape is decoded by itself, if it has three digits or no digit follows. -/
theorem decode_octal (doubled : Bool) {digits : List (Fin 8)}
    (h : 1 ≤ digits.length ∧ digits.length ≤ 3) {rest : Text}
    (hrest : digits.length < 3 → ∀ c ∈ rest.head?, c ∉ octalDigits) :
    Escape.decode doubled ('\\' :: digits.map digitChar ++ rest)
      = (Escape.decode doubled rest).push
          (Char.ofNat (Nat.ofDigits 8 (digits.map Fin.val).reverse)) := by
  cases digits with
  | nil => exact absurd h.1 (by decide)
  | cons d ds =>
    simp only [List.length_cons] at h hrest
    have hread := octal_digits 2 d.val (Nat.le_of_succ_le_succ h.2) fun hlt => hrest (by omega)
    have hvalue : Nat.ofDigits 8 ((d :: ds).map Fin.val).reverse
        = Nat.ofDigits 8 (ds.map Fin.val).reverse + 8 ^ ds.length * d.val := by
      rw [List.map_cons, List.reverse_cons, Nat.ofDigits_append, Nat.ofDigits_singleton,
        List.length_reverse, List.length_map]
    rw [List.map_cons, List.cons_append, List.cons_append, Escape.decode.eq_def]
    simp only [if_true, octalDigit?_digitChar, hread, hvalue]

/-- **A spelling is decoded by itself**, if what follows stays apart from it. -/
theorem decode_append (u : Spelling) {rest : Text} (hrest : u.ApartFrom rest) :
    Escape.decode true (u.text ++ rest) = (Escape.decode true rest).push u.value := by
  cases u with
  | plain c h => exact Escape.decode_plain true h.1 (fun _ => h.2) rest
  | pair => exact Escape.decode_pair rest
  | control letter code h =>
    obtain ⟨hdigit, hmeaning⟩ := meaning_control h
    show Escape.decode true ('\\' :: letter :: rest) = (Escape.decode true rest).push code
    rw [← hmeaning]
    exact Escape.decode_escape true hdigit rest
  | escaped c h =>
    have hread := Escape.decode_escape true (octalDigit?_eq_none h.2) rest
    rwa [meaning_escaped h.1] at hread
  | octal digits h =>
    refine decode_octal true h fun hlt => hrest ?_
    simpa only [isOpen, decide_eq_true_eq] using hlt

/-- **Spellings in a row are decoded one by one.** -/
theorem decode_flatMap_text {us : List Spelling} (h : us.IsChain Apart) :
    Escape.decode true (us.flatMap text) = ⟨us.map value, false⟩ := by
  induction us with
  | nil => exact Escape.decode_nil true
  | cons u us ih =>
    rw [List.flatMap_cons, decode_append u (apartFrom_flatMap h), ih h.tail, List.map_cons]
    rfl

/-! ## Whole units -/

/-- A spelling is made of whole units: the digits behind the first one stand for themselves. -/
theorem exists_units (u : Spelling) :
    ∃ vs : List Text, (∀ v ∈ vs, IsUnit '\'' true v) ∧ u.text = vs.flatten := by
  cases u with
  | plain c h => exact ⟨[[c]], by simpa using .plain h.2 fun _ => h.1, rfl⟩
  | pair => exact ⟨[['\'', '\'']], by simpa using .pair, rfl⟩
  | control letter code h => exact ⟨[['\\', letter]], by simpa using .escaped letter rfl, rfl⟩
  | escaped c h => exact ⟨[['\\', c]], by simpa using .escaped c rfl, rfl⟩
  | octal digits h =>
    cases digits with
    | nil => exact absurd h.1 (by decide)
    | cons d ds =>
      refine ⟨['\\', digitChar d] :: ds.map fun x => [digitChar x], ?_, ?_⟩
      · refine List.forall_mem_cons.2 ⟨.escaped _ rfl, fun v hv => ?_⟩
        obtain ⟨x, -, rfl⟩ := List.mem_map.1 hv
        have hdigit : ∀ x : Fin 8, digitChar x ≠ '\'' ∧ digitChar x ≠ '\\' := by decide
        exact .plain (hdigit x).1 fun _ => (hdigit x).2
      · rw [text, List.flatten_cons, List.map_cons, ← List.flatMap_def,
          List.map_eq_flatMap]
        rfl

theorem exists_units_flatMap (us : List Spelling) :
    ∃ vs : List Text, (∀ v ∈ vs, IsUnit '\'' true v) ∧ us.flatMap text = vs.flatten := by
  induction us with
  | nil => exact ⟨[], nofun, rfl⟩
  | cons u us ih =>
    obtain ⟨vs, hvs, hu⟩ := u.exists_units
    obtain ⟨ws, hws, hus⟩ := ih
    refine ⟨vs ++ ws, fun v hv => ?_, ?_⟩
    · exact (List.mem_append.1 hv).elim (hvs v) (hws v)
    · rw [List.flatMap_cons, hu, hus, List.flatten_append]

end Spelling

end Literal

open Literal

/--
**A string with escapes is read as what it spells, in whatever way it is spelled.** Take any
spellings in a row, none of them an octal escape of fewer than three digits before an octal digit.
Between quotes behind an `E` they are read, by either rule of quoting, as the characters that they
stand for, and so they are between plain quotes where plain strings have escapes.
-/
theorem unquote_spelled (us : List Spelling) (h : us.IsChain Spelling.Apart) :
    (∀ mark, mark = 'E' ∨ mark = 'e' → ∀ standardQuoting,
      Literal.unquote standardQuoting (mark :: '\'' :: us.flatMap Spelling.text ++ ['\''])
        = .ok (some (us.map Spelling.value))) ∧
    Literal.unquote false ('\'' :: us.flatMap Spelling.text ++ ['\''])
      = .ok (some (us.map Spelling.value)) := by
  obtain ⟨vs, hvs, htext⟩ := Spelling.exists_units_flatMap us
  have hdecode := Spelling.decode_flatMap_text h
  rw [htext] at hdecode ⊢
  refine ⟨fun mark hmark standardQuoting => ?_, ?_⟩
  · rw [unquote_extended standardQuoting hmark hvs, hdecode]
  · rw [unquote_escaped hvs, hdecode]

/--
A backslash before a letter of two bytes, an escaped and a doubled quote side by side, and an octal
escape of three digits that a digit follows.
-/
theorem unquote_spelled_adjacent :
    let us : List Spelling :=
      [.escaped 'é' (by decide), .escaped '\'' (by decide), .pair,
        .octal [1, 0, 1] (by decide), .plain '7' (by decide), .control 'n' '\n' (by decide),
        .octal [7] (by decide)]
    us.IsChain Spelling.Apart ∧
      (∀ mark, mark = 'E' ∨ mark = 'e' → ∀ standardQuoting,
        Literal.unquote standardQuoting (mark :: "'\\é\\'''\\1017\\n\\7'".toList)
          = .ok (some "é''A7\n\x07".toList)) ∧
      Literal.unquote false "'\\é\\'''\\1017\\n\\7'".toList = .ok (some "é''A7\n\x07".toList) := by
  intro us
  have hchain : us.IsChain Spelling.Apart := by decide
  have hvalue : us.map Spelling.value = "é''A7\n\x07".toList := by decide
  obtain ⟨hextended, hplain⟩ := unquote_spelled us hchain
  rw [hvalue] at hextended hplain
  exact ⟨hchain, hextended, hplain⟩

-- fewer digits go on with the digit behind them, so the condition cannot be left out
example : Literal.unquote false "'\\17'".toList = .ok (some "\x0f".toList) := by decide +kernel

end SqlText
