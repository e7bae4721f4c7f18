import SqlText.Proofs.Text.Bytes
import SqlText.Proofs.Token.OneLiteral

/-!
# Rules on bytes

Most lexical rules can be run on the bytes of a text as well as on its characters. Read as a
character, a byte of a character below 128 is that character, and the bytes of any other character
are all 128 or more. The rules look for marks below 128 only. On bytes they may move on inside a
character, two bytes at a time behind a backslash, but they take no byte of it for a mark, and so
they end where they end on characters.

`Bytewise` says this of a rule: its lexeme is found on the bytes, at the bytes that its characters
take, and nothing is found in front of a byte of 128 or more. The latter holds inside a character
too, so there the rule finds nothing.

The rule of blanks is not such a rule, since some blanks are characters of several bytes. Nor is
the rule that takes any one character.

## Main statements

* `runLength_octets`, `indexOf?_octets`: runs and occurrences are found on bytes.
* `closing_octets`: so is the quote that closes a run.
* `byteRules_bytewise`, `symbol_bytewise`: the rules that can be run on bytes.
-/

namespace SqlText

open Text

namespace Text

/-! ## Bytes as characters -/

/-- The bytes of a text, each read as the character with its code. -/
def octets (t : Text) : Text := (bytes t).map Char.ofUInt8

/-- The bytes that the first `n` characters of a text take. -/
def bytesOf (t : Text) (n : Nat) : Nat := byteSize (t.take n)

@[simp] theorem octets_nil : octets [] = [] := rfl

@[simp] theorem bytesOf_zero (t : Text) : bytesOf t 0 = 0 := rfl

@[simp] theorem bytesOf_cons (c : Char) (t : Text) (n : Nat) :
    bytesOf (c :: t) (n + 1) = c.utf8Size + bytesOf t n := rfl

theorem map_bytesOf_cons (c : Char) (t : Text) (found : Option Nat) :
    (found.map (· + 1)).map (bytesOf (c :: t)) = (found.map (bytesOf t)).map (· + c.utf8Size) := by
  cases found <;> simp [Nat.add_comm]

theorem octets_append (s t : Text) : octets (s ++ t) = octets s ++ octets t := by
  rw [octets, bytes_append, List.map_append]
  rfl

@[simp] theorem length_octets (t : Text) : (octets t).length = byteSize t := by
  rw [octets, List.length_map, length_bytes]

/-- A character of one byte is read as itself. -/
theorem octets_cons {c : Char} (h : c.toNat < 128) (t : Text) :
    octets (c :: t) = c :: octets t := by
  have hbyte : Char.ofUInt8 c.toUInt8 = c := Char.toNat_inj.1 (toNat_toUInt8 h)
  rw [octets, bytes, List.flatMap_cons, String.utf8EncodeChar_eq_singleton (utf8Size_of_lt h)]
  exact congrArg (· :: octets t) hbyte

/-- A character of several bytes is read as several, none of which takes one byte. -/
theorem exists_octets_cons {c : Char} (h : 128 ≤ c.toNat) (t : Text) :
    ∃ x w, octets (c :: t) = x :: w ++ octets t ∧ c.utf8Size = w.length + 1 ∧
      ∀ y ∈ x :: w, 128 ≤ y.toNat := by
  obtain ⟨b, bs, hbytes⟩ := List.exists_cons_of_ne_nil (String.utf8EncodeChar_ne_nil (c := c))
  refine ⟨Char.ofUInt8 b, bs.map Char.ofUInt8, ?_, ?_, fun y hy => ?_⟩
  · rw [octets, bytes, List.flatMap_cons, hbytes, List.map_append]
    rfl
  · rw [← String.length_utf8EncodeChar, hbytes, List.length_cons, List.length_map]
  · rw [← List.map_cons, ← hbytes] at hy
    obtain ⟨b, hb, rfl⟩ := List.mem_map.1 hy
    exact le_of_mem_utf8EncodeChar h hb

theorem ne_of_le {x mark : Char} (hmark : mark.toNat < 128) (hx : 128 ≤ x.toNat) : x ≠ mark := by
  rintro rfl
  omega

/-- The first byte is a mark of one byte only if the first character is. -/
theorem head?_octets {mark : Char} (hmark : mark.toNat < 128) (t : Text) :
    (octets t).head? = some mark ↔ t.head? = some mark := by
  cases t with
  | nil => rfl
  | cons c t =>
    by_cases hc : c.toNat < 128
    · rw [octets_cons hc, List.head?_cons, List.head?_cons]
    · obtain ⟨x, w, he, -, hwide⟩ := exists_octets_cons (Nat.not_lt.1 hc) t
      have hx := ne_of_le hmark (hwide x List.mem_cons_self)
      have hc' := ne_of_le hmark (Nat.not_lt.1 hc)
      simp [he, hx, hc']

theorem octets_take (t : Text) (n : Nat) : octets (t.take n) = (octets t).take (bytesOf t n) := by
  have h := octets_append (t.take n) (t.drop n)
  rw [List.take_append_drop] at h
  rw [h]
  exact (List.take_left' (length_octets (t.take n))).symm

theorem octets_drop (t : Text) (n : Nat) : octets (t.drop n) = (octets t).drop (bytesOf t n) := by
  have h := octets_append (t.take n) (t.drop n)
  rw [List.take_append_drop] at h
  rw [h]
  exact (List.drop_left' (length_octets (t.take n))).symm

/-- A mark of one byte is found behind the bytes of the characters before it. -/
theorem getElem?_octets {mark : Char} (hmark : mark.toNat < 128) (t : Text) (n : Nat) :
    (octets t)[bytesOf t n]? = some mark ↔ t[n]? = some mark := by
  rw [← List.head?_drop, ← octets_drop, head?_octets hmark, List.head?_drop]

theorem exists_of_octets_eq_cons {c : Char} (hc : c.toNat < 128) {t u : Text}
    (h : octets t = c :: u) : ∃ r, t = c :: r ∧ octets r = u := by
  have hhead : t.head? = some c := (head?_octets hc t).1 (by rw [h]; rfl)
  obtain ⟨r, rfl⟩ := List.head?_eq_some_iff.1 hhead
  rw [octets_cons hc] at h
  exact ⟨r, rfl, (List.cons.inj h).2⟩

theorem bytesOf_add (t : Text) (n m : Nat) :
    bytesOf t (n + m) = bytesOf t n + bytesOf (t.drop n) m := by
  rw [bytesOf, List.take_add, byteSize_append]
  rfl

theorem bytesOf_pos_iff {t : Text} {n : Nat} (h : n ≤ t.length) : 0 < bytesOf t n ↔ 0 < n := by
  constructor
  · intro hpos
    refine Nat.pos_of_ne_zero fun hn => ?_
    rw [hn, bytesOf_zero] at hpos
    cases hpos
  · intro hpos
    have hle := length_le_byteSize (t.take n)
    rw [List.length_take, Nat.min_eq_left h] at hle
    exact Nat.lt_of_lt_of_le hpos hle

/-- Characters of one byte are as many as their bytes. -/
theorem byteSize_of_lt {t : Text} (h : ∀ c ∈ t, c.toNat < 128) : byteSize t = t.length := by
  induction t with
  | nil => rfl
  | cons c t ih =>
    rw [byteSize_cons, utf8Size_of_lt (h c List.mem_cons_self),
      ih fun d hd => h d (List.mem_cons_of_mem _ hd), List.length_cons, Nat.add_comm]

theorem octets_of_lt {t : Text} (h : ∀ c ∈ t, c.toNat < 128) : octets t = t := by
  induction t with
  | nil => rfl
  | cons c t ih =>
    rw [octets_cons (h c List.mem_cons_self), ih fun d hd => h d (List.mem_cons_of_mem _ hd)]

/-- A mark of one byte behind some characters is one more byte. -/
theorem bytesOf_succ {mark : Char} (hmark : mark.toNat < 128) {t : Text} {n : Nat}
    (h : t[n]? = some mark) : bytesOf t (n + 1) = bytesOf t n + 1 := by
  rw [← List.head?_drop] at h
  obtain ⟨r, hr⟩ := List.head?_eq_some_iff.1 h
  rw [bytesOf_add, hr, bytesOf_cons, bytesOf_zero, utf8Size_of_lt hmark]

/-! ## Runs and occurrences -/

/-- A class of characters that holds none of several bytes, or all of them. -/
def IsByteClass (p : Char → Bool) : Prop :=
  ∀ {c d : Char}, 128 ≤ c.toNat → 128 ≤ d.toNat → p c = p d

/-- A class of characters that take one byte each. -/
def OneByte (p : Char → Bool) : Prop := ∀ {c : Char}, p c = true → c.toNat < 128

theorem OneByte.eq_false {p : Char → Bool} (hp : OneByte p) {c : Char} (hc : 128 ≤ c.toNat) :
    p c = false := Bool.eq_false_iff.2 fun h => Nat.not_lt.2 hc (hp h)

theorem OneByte.isByteClass {p : Char → Bool} (hp : OneByte p) : IsByteClass p :=
  fun hc hd => by rw [hp.eq_false hc, hp.eq_false hd]

theorem runLength_cons (p : Char → Bool) (c : Char) (t : Text) :
    runLength p (c :: t) = if p c then runLength p t + 1 else 0 := by
  rw [runLength, List.takeWhile_cons]
  split <;> rfl

/-- **A run is found on bytes.** -/
theorem runLength_octets {p : Char → Bool} (hp : IsByteClass p) (t : Text) :
    runLength p (octets t) = bytesOf t (runLength p t) := by
  induction t with
  | nil => rfl
  | cons c t ih =>
    by_cases hc : c.toNat < 128
    · rw [octets_cons hc, runLength_cons, runLength_cons]
      split
      · rw [bytesOf_cons, utf8Size_of_lt hc, ih, Nat.add_comm]
      · rfl
    · obtain ⟨x, w, he, hsize, hwide⟩ := exists_octets_cons (Nat.not_lt.1 hc) t
      have hclass : ∀ y ∈ x :: w, p y = p c := fun y hy => hp (hwide y hy) (Nat.not_lt.1 hc)
      rw [he, runLength_cons p c]
      split
      · next hpc =>
        rw [runLength, List.takeWhile_append_of_pos fun y hy => (hclass y hy).trans hpc,
          List.length_append, bytesOf_cons, ← ih, hsize]
        rfl
      · next hpc =>
        rw [List.cons_append, runLength_cons, hclass x List.mem_cons_self, if_neg hpc,
          bytesOf_zero]

/-- A text of characters of one byte stands at the start of the bytes where it does in the text. -/
theorem isPrefixOf_octets {needle : Text} (hn : ∀ c ∈ needle, c.toNat < 128) (t : Text) :
    needle.isPrefixOf (octets t) = needle.isPrefixOf t := by
  induction needle generalizing t with
  | nil => rfl
  | cons a needle ih =>
    have ha := hn a List.mem_cons_self
    cases t with
    | nil => rfl
    | cons c t =>
      by_cases hc : c.toNat < 128
      · rw [octets_cons hc, List.isPrefixOf_cons_cons, List.isPrefixOf_cons_cons,
          ih fun d hd => hn d (List.mem_cons_of_mem _ hd)]
      · obtain ⟨x, w, he, -, hwide⟩ := exists_octets_cons (Nat.not_lt.1 hc) t
        have hx := (ne_of_le ha (hwide x List.mem_cons_self)).symm
        have hc' := (ne_of_le ha (Nat.not_lt.1 hc)).symm
        rw [he, List.cons_append, List.isPrefixOf_cons_cons, List.isPrefixOf_cons_cons,
          beq_eq_false_iff_ne.2 hx, beq_eq_false_iff_ne.2 hc', Bool.false_and, Bool.false_and]

/-- No text of characters of one byte stands in front of others. -/
theorem indexOf?_append_of_le {needle : Text} (hne : needle ≠ []) (hn : ∀ c ∈ needle, c.toNat < 128)
    {w : Text} (hw : ∀ x ∈ w, 128 ≤ x.toNat) (u : Text) :
    indexOf? needle (w ++ u) = (indexOf? needle u).map (· + w.length) := by
  induction w with
  | nil => simp
  | cons x w ih =>
    obtain ⟨a, needle, rfl⟩ := List.exists_cons_of_ne_nil hne
    have hx := (ne_of_le (hn a List.mem_cons_self) (hw x List.mem_cons_self)).symm
    rw [List.cons_append, indexOf?, List.isPrefixOf_cons_cons, beq_eq_false_iff_ne.2 hx,
      Bool.false_and, if_neg Bool.false_ne_true, ih fun y hy => hw y (List.mem_cons_of_mem _ hy),
      Option.map_map]
    rfl

/-- **An occurrence is found on bytes**, for a text of characters of one byte. -/
theorem indexOf?_octets {needle : Text} (hne : needle ≠ []) (hn : ∀ c ∈ needle, c.toNat < 128)
    (t : Text) : indexOf? needle (octets t) = (indexOf? needle t).map (bytesOf t) := by
  induction t with
  | nil => cases needle <;> simp [indexOf?]
  | cons c t ih =>
    by_cases hc : c.toNat < 128
    · rw [octets_cons hc, indexOf?, indexOf?, ← octets_cons hc, isPrefixOf_octets hn]
      split
      · rfl
      · rw [map_bytesOf_cons, ih, utf8Size_of_lt hc]
    · obtain ⟨x, w, he, hsize, hwide⟩ := exists_octets_cons (Nat.not_lt.1 hc) t
      have hnot : ¬needle.isPrefixOf (c :: t) = true := by
        rw [← isPrefixOf_octets hn, he]
        intro hp
        obtain ⟨a, needle, rfl⟩ := List.exists_cons_of_ne_nil hne
        rw [List.cons_append, List.isPrefixOf_cons_cons, Bool.and_eq_true, beq_iff_eq] at hp
        exact ne_of_le (hn a List.mem_cons_self) (hwide x List.mem_cons_self) hp.1.symm
      rw [he, indexOf?_append_of_le hne hn hwide, indexOf?, if_neg hnot, map_bytesOf_cons, ih,
        hsize]
      rfl

end Text

/--
What a rule finds on the bytes of a text is what it finds on the text, counted in bytes, and it
finds nothing in front of a byte that is no character by itself. `inBytes` counts a finding in
bytes.
-/
structure Bytewise {α : Type} (inBytes : Text → α → α) (rule : Text → Option α) : Prop where
  none_of_le : ∀ {x : Char} {u : Text}, 128 ≤ x.toNat → rule (x :: u) = none
  octets_eq : ∀ t : Text, rule (octets t) = (rule t).map (inBytes t)

/-- The kind of a lexeme, and its length counted in bytes. -/
def lexemeInBytes (t : Text) (l : Kind × Nat) : Kind × Nat := (l.1, bytesOf t l.2)

namespace Bytewise

variable {α : Type} {inBytes : Text → α → α}

/-- A rule that needs a first character can be run on bytes if it can where that takes one byte. -/
theorem of_cons {rule : Text → Option α} (hnil : rule [] = none)
    (hwide : ∀ {x : Char} {u : Text}, 128 ≤ x.toNat → rule (x :: u) = none)
    (hcons : ∀ {c : Char}, c.toNat < 128 → ∀ t : Text,
      rule (c :: octets t) = (rule (c :: t)).map (inBytes (c :: t))) : Bytewise inBytes rule := by
  refine ⟨hwide, fun t => ?_⟩
  cases t with
  | nil => rw [octets_nil, hnil, Option.map_none]
  | cons c t =>
    by_cases hc : c.toNat < 128
    · rw [octets_cons hc, hcons hc]
    · obtain ⟨x, w, he, -, hle⟩ := exists_octets_cons (Nat.not_lt.1 hc) t
      rw [he, List.cons_append, hwide (hle x List.mem_cons_self), hwide (Nat.not_lt.1 hc),
        Option.map_none]

theorem tagged {rule : Text → Option Nat} (h : Bytewise bytesOf rule) (k : Kind) :
    Bytewise lexemeInBytes (Rule.tagged k rule) := by
  refine ⟨fun hx => ?_, fun t => ?_⟩
  · rw [Rule.tagged, h.none_of_le hx, Option.map_none]
  · rw [Rule.tagged, Rule.tagged, h.octets_eq, Option.map_map, Option.map_map]
    rfl

/-- The first rule of a list that finds something can be run on bytes if all rules can. -/
theorem findSome? {rules : List (Text → Option α)} (h : ∀ rule ∈ rules, Bytewise inBytes rule) :
    Bytewise inBytes fun t => rules.findSome? (· t) := by
  refine ⟨fun hx => ?_, fun t => ?_⟩
  · exact List.findSome?_eq_none_iff.2 fun rule hr => (h rule hr).none_of_le hx
  · induction rules with
    | nil => rfl
    | cons rule rules ih =>
      have hrest := ih fun r hr => h r (List.mem_cons_of_mem _ hr)
      simp only [List.findSome?_cons, (h rule List.mem_cons_self).octets_eq]
      cases rule t with
      | none => exact hrest
      | some a => rfl

end Bytewise

namespace Rule

/-! ## Quoted runs -/

/-- A character that is no quote, and does not escape the next one, leaves a run open. -/
theorem closing_cons {q c : Char} {escapes : Bool} (hc : c ≠ q)
    (he : ¬(escapes && c == '\\') = true) (t : Text) :
    closing q escapes (c :: t) = (closing q escapes t).map (· + 1) := by
  cases t with
  | nil => simp [closing, hc]
  | cons d t => rw [closing, if_neg hc, if_neg he]

/-- So do the bytes of characters that take several. -/
theorem closing_append_of_le {q : Char} (hq : q.toNat < 128) (escapes : Bool) {w : Text}
    (hw : ∀ x ∈ w, 128 ≤ x.toNat) (u : Text) :
    closing q escapes (w ++ u) = (closing q escapes u).map (· + w.length) := by
  induction w with
  | nil => simp
  | cons x w ih =>
    have hx := hw x List.mem_cons_self
    have hslash : ¬(escapes && x == '\\') = true := by
      simp [ne_of_le (show '\\'.toNat < 128 by decide) hx]
    rw [List.cons_append, closing_cons (ne_of_le hq hx) hslash,
      ih fun y hy => hw y (List.mem_cons_of_mem _ hy), Option.map_map]
    rfl

/-- A character that leaves a run open leaves it open on bytes. -/
theorem closing_octets_cons {q c : Char} (hq : q.toNat < 128) {escapes : Bool} (hc : c ≠ q)
    (he : ¬(escapes && c == '\\') = true) (t : Text) :
    closing q escapes (octets (c :: t)) = (closing q escapes (octets t)).map (· + c.utf8Size) := by
  by_cases hlt : c.toNat < 128
  · rw [octets_cons hlt, closing_cons hc he, utf8Size_of_lt hlt]
  · obtain ⟨x, w, hocts, hsize, hwide⟩ := exists_octets_cons (Nat.not_lt.1 hlt) t
    rw [hocts, closing_append_of_le hq escapes hwide, hsize]
    rfl

/--
Behind a backslash two bytes are passed over. Where they leave a character open, its other bytes are
passed over one by one.
-/
theorem closing_octets_escaped {q : Char} (hq : q.toNat < 128) {escapes : Bool}
    (hc : '\\' ≠ q) (he : (escapes && '\\' == '\\') = true) (d : Char) (t : Text) :
    closing q escapes ('\\' :: octets (d :: t))
      = (closing q escapes (octets t)).map (· + (d.utf8Size + 1)) := by
  by_cases hlt : d.toNat < 128
  · rw [octets_cons hlt, closing, if_neg hc, if_pos he, utf8Size_of_lt hlt]
  · obtain ⟨x, w, hocts, hsize, hwide⟩ := exists_octets_cons (Nat.not_lt.1 hlt) t
    have hopen : ∀ y ∈ w, 128 ≤ y.toNat := fun y hy => hwide y (List.mem_cons_of_mem _ hy)
    rw [hocts, List.cons_append, closing, if_neg hc, if_pos he,
      closing_append_of_le hq escapes hopen, Option.map_map, hsize]
    rfl

/-- **The quote that closes a run is found on bytes.** -/
theorem closing_octets {q : Char} (hq : q.toNat < 128) (escapes : Bool) (t : Text) :
    closing q escapes (octets t) = (closing q escapes t).map (bytesOf t) := by
  fun_induction closing q escapes t with
  | case1 => rfl
  | case2 => simp [octets_cons hq, closing, utf8Size_of_lt hq]
  | case3 c hc =>
    by_cases hlt : c.toNat < 128
    · simp [octets_cons hlt, closing, hc]
    · obtain ⟨x, w, hocts, -, hwide⟩ := exists_octets_cons (Nat.not_lt.1 hlt) []
      rw [hocts, closing_append_of_le hq escapes hwide]
      rfl
  | case4 t ih =>
    rw [octets_cons hq, octets_cons hq, closing, if_pos rfl, if_pos rfl, ih]
    cases closing q escapes t with
    | none => simp [utf8Size_of_lt hq]
    | some n =>
      simp only [Option.map_some, Option.getD_some, bytesOf_cons, utf8Size_of_lt hq,
        Option.some.injEq]
      omega
  | case5 d t hd =>
    -- what follows on bytes is no quote either, so the quote is not doubled
    have hhead : (octets (d :: t)).head? ≠ some q := by
      rw [ne_eq, head?_octets hq]
      simpa using hd
    rw [octets_cons hq]
    cases h : octets (d :: t) with
    | nil => simp [closing, utf8Size_of_lt hq]
    | cons x u =>
      rw [h, List.head?_cons, ne_eq, Option.some.injEq] at hhead
      simp [closing, hhead, utf8Size_of_lt hq]
  | case6 c d t hc he ih =>
    obtain rfl : c = '\\' := eq_of_beq (Bool.and_eq_true_iff.1 he).2
    have hslash : '\\'.toNat < 128 := by decide
    rw [octets_cons hslash, closing_octets_escaped hq hc he, ih]
    cases closing q escapes t with
    | none => rfl
    | some n =>
      simp only [Option.map_some, bytesOf_cons, utf8Size_of_lt hslash, Option.some.injEq]
      omega
  | case7 c d t hc he ih => rw [closing_octets_cons hq hc he, ih, map_bytesOf_cons]

theorem quoted_bytewise {q : Char} (hq : q.toNat < 128) (escapes : Bool) :
    Bytewise bytesOf (quoted q escapes) := by
  refine Bytewise.of_cons rfl (fun hx => if_neg (ne_of_le hq hx)) fun {c} hc t => ?_
  rw [quoted, quoted]
  split
  · rw [closing_octets hq, map_bytesOf_cons, utf8Size_of_lt hc]
  · rfl

theorem string_bytewise (standard : Bool) : Bytewise bytesOf (string standard) := by
  have hextended := quoted_bytewise (q := '\'') (by decide) true
  have hplain := quoted_bytewise (q := '\'') (by decide) (!standard)
  refine Bytewise.of_cons rfl (fun {x u} hx => ?_) fun {c} hc t => ?_
  · have hE := ne_of_le (show 'E'.toNat < 128 by decide) hx
    have he := ne_of_le (show 'e'.toNat < 128 by decide) hx
    rw [string, if_neg (not_or_intro hE he), hplain.none_of_le hx]
  · rw [string, string]
    split
    · rw [hextended.octets_eq, map_bytesOf_cons, utf8Size_of_lt hc]
    · rw [← octets_cons hc, hplain.octets_eq]

/-! ## Classes of characters -/

theorem oneByte_beq {mark : Char} (hmark : mark.toNat < 128) : OneByte (· == mark) := by
  intro c hc
  rw [eq_of_beq hc]
  exact hmark

theorem oneByte_or {p q : Char → Bool} (hp : OneByte p) (hq : OneByte q) :
    OneByte fun c => p c || q c := by
  intro c hc
  rcases Bool.or_eq_true_iff.1 hc with hc | hc
  · exact hp hc
  · exact hq hc

theorem oneByte_contains {marks : Text} (hmarks : marks.all (·.toNat < 128)) :
    OneByte marks.contains := by
  intro c hc
  exact of_decide_eq_true (List.all_eq_true.1 hmarks c (List.contains_iff_mem.1 hc))

theorem oneByte_isDigit : OneByte Char.isDigit := by
  intro c hc
  rw [digit_iff] at hc
  omega

theorem oneByte_isAlpha : OneByte Char.isAlpha := by
  intro c hc
  rw [alpha_iff, upper_iff, lower_iff] at hc
  omega

theorem oneByte_isWordStart : OneByte isWordStart :=
  oneByte_or oneByte_isAlpha (oneByte_beq (by decide))

theorem oneByte_isWordPart : OneByte isWordPart :=
  oneByte_or (oneByte_or oneByte_isAlpha oneByte_isDigit) (oneByte_beq (by decide))

theorem oneByte_isNamePart : OneByte isNamePart :=
  oneByte_or oneByte_isWordPart (oneByte_beq (by decide))

theorem oneByte_isNumberPart : OneByte isNumberPart :=
  oneByte_or (oneByte_or (oneByte_or oneByte_isDigit (oneByte_beq (by decide)))
    (oneByte_beq (by decide))) (oneByte_beq (by decide))

theorem oneByte_isOperator : OneByte isOperator := oneByte_contains (by decide)

theorem oneByte_isPunctuation : OneByte isPunctuation := oneByte_contains (by decide)

/-- What stands in braces may hold characters of several bytes. -/
theorem isByteClass_isNoBrace : IsByteClass isNoBrace := by
  have htrue : ∀ {c : Char}, 128 ≤ c.toNat → isNoBrace c = true := by
    intro c hc
    simp [isNoBrace, ne_of_le (show '{'.toNat < 128 by decide) hc,
      ne_of_le (show '}'.toNat < 128 by decide) hc]
  intro c d hc hd
  rw [htrue hc, htrue hd]

/-! ## Names -/

theorem name_bytewise : Bytewise bytesOf name := by
  have hquoted := quoted_bytewise (q := '"') (by decide) false
  refine Bytewise.of_cons rfl (fun {x u} hx => ?_) fun {c} hc t => ?_
  · rw [name, if_neg (by simp [oneByte_isWordStart.eq_false hx]), hquoted.none_of_le hx]
  · rw [name, name]
    split
    · rw [runLength_octets oneByte_isNamePart.isByteClass, Option.map_some, Nat.add_comm 1,
        Nat.add_comm 1, bytesOf_cons, utf8Size_of_lt hc, Nat.add_comm]
    · rw [← octets_cons hc, hquoted.octets_eq]

theorem joined_eq_zero {t : Text} (h : t.head? ≠ some '.') : joined t = 0 := by
  cases t with
  | nil => rw [joined]
  | cons c t =>
    have hc : c ≠ '.' := by simpa using h
    rw [joined, if_neg hc]

/-- The names joined to a name are found on bytes. -/
theorem joined_octets (t : Text) : joined (octets t) = bytesOf t (joined t) := by
  have hdot : '.'.toNat < 128 := by decide
  fun_induction joined t with
  | case1 => rw [octets_nil, joined]; rfl
  | case2 r n hn ih =>
    rw [octets_cons hdot, joined, if_pos rfl, name_bytewise.octets_eq, hn, Option.map_some]
    simp only
    rw [← octets_drop, ih, Nat.add_assoc, Nat.add_assoc, ← bytesOf_add, Nat.add_comm 1 (n + _),
      bytesOf_cons, utf8Size_of_lt hdot]
  | case3 r hn =>
    rw [octets_cons hdot, joined, if_pos rfl, name_bytewise.octets_eq, hn, Option.map_none]
    rfl
  | case4 c r hc =>
    rw [joined_eq_zero, bytesOf_zero]
    rw [ne_eq, head?_octets hdot]
    simpa using hc

theorem identifier_bytewise (fullyQualified : Bool) :
    Bytewise lexemeInBytes (identifier fullyQualified) := by
  refine ⟨fun hx => ?_, fun t => ?_⟩
  · rw [identifier, name_bytewise.none_of_le hx, Option.map_none]
  · rw [identifier, identifier, name_bytewise.octets_eq]
    cases hn : name t with
    | none => rfl
    | some n =>
      have hmore : (if fullyQualified then joined ((octets t).drop (bytesOf t n)) else 0)
          = bytesOf (t.drop n) (if fullyQualified then joined (t.drop n) else 0) := by
        split
        · rw [← octets_drop, joined_octets]
        · rfl
      have hle : (if fullyQualified then joined (t.drop n) else 0) ≤ (t.drop n).length := by
        split
        · exact joined_le _
        · exact Nat.zero_le _
      simp only [Option.map_some, hmore, bytesOf_pos_iff hle,
        head?_octets (show '"'.toNat < 128 by decide), lexemeInBytes, bytesOf_add]

/-! ## Dollar quotes -/

/-- Whether the first byte is in a class tells whether the first character is. -/
theorem any_head?_octets {p : Char → Bool} (hp : IsByteClass p) (t : Text) :
    (octets t).head?.any p = t.head?.any p := by
  cases t with
  | nil => rfl
  | cons c t =>
    by_cases hc : c.toNat < 128
    · rw [octets_cons hc]
      rfl
    · obtain ⟨x, w, he, -, hwide⟩ := exists_octets_cons (Nat.not_lt.1 hc) t
      rw [he]
      exact hp (hwide x List.mem_cons_self) (Nat.not_lt.1 hc)

theorem tagWord_octets (t : Text) : tagWord (octets t) = bytesOf t (tagWord t) := by
  rw [tagWord, tagWord, any_head?_octets oneByte_isWordStart.isByteClass,
    runLength_octets oneByte_isWordPart.isByteClass]
  split <;> rfl

theorem dollarTag_bytewise : Bytewise bytesOf dollarTag := by
  have hdollar : '$'.toNat < 128 := by decide
  have hcons : ∀ (c : Char) (t : Text), dollarTag (c :: t)
      = if c = '$' ∧ (t.drop (tagWord t)).head? = some '$' then some (tagWord t + 2) else none :=
    fun _ _ => rfl
  refine Bytewise.of_cons rfl (fun {x u} hx => ?_) fun {c} hc t => ?_
  · rw [hcons, if_neg fun h => ne_of_le hdollar hx h.1]
  · rw [hcons, hcons, tagWord_octets, ← octets_drop]
    simp only [head?_octets hdollar]
    split
    · next h =>
      rw [Option.map_some, bytesOf_cons, bytesOf_succ hdollar (List.head?_drop ▸ h.2),
        utf8Size_of_lt hc]
      exact congrArg some (by omega)
    · rfl

theorem lt_of_mem_dollarTag {t : Text} {n : Nat} (h : dollarTag t = some n) :
    ∀ c ∈ t.take n, c.toNat < 128 := by
  obtain ⟨w, htag, hw⟩ := isDollarTag_of_dollarTag h
  have hword : ∀ c ∈ w, c.toNat < 128 := by
    rcases hw with rfl | ⟨-, hpart⟩
    · nofun
    · exact fun c hc => oneByte_isWordPart (hpart c hc)
  intro c hc
  rw [htag, List.cons_append, List.mem_cons, List.mem_append, List.mem_singleton] at hc
  rcases hc with rfl | hc | rfl
  · decide
  · exact hword c hc
  · decide

/-- The tag of a dollar quote takes one byte a character, and so do both its occurrences. -/
theorem dollarQuoted_bytewise : Bytewise bytesOf dollarQuoted := by
  refine ⟨fun hx => ?_, fun t => ?_⟩
  · rw [dollarQuoted, dollarTag_bytewise.none_of_le hx, Option.bind_none]
  · rw [dollarQuoted, dollarQuoted, dollarTag_bytewise.octets_eq]
    cases hn : dollarTag t with
    | none => rfl
    | some n =>
      have hbounds := dollarTag_bounds hn
      have hlength : (t.take n).length = n := by rw [List.length_take, Nat.min_eq_left hbounds.2]
      have hlt := lt_of_mem_dollarTag hn
      have hsize : bytesOf t n = n := (byteSize_of_lt hlt).trans hlength
      have hne : t.take n ≠ [] := List.length_pos_iff.1 (by omega)
      simp only [Option.map_some, Option.bind_some]
      rw [← octets_take, octets_of_lt hlt, ← octets_drop, hsize, indexOf?_octets hne hlt]
      cases hk : indexOf? (t.take n) (t.drop n) with
      | none => rfl
      | some k =>
        have hclose := List.prefix_iff_eq_take.1 (prefix_drop_of_indexOf? hk)
        rw [hlength, List.drop_drop] at hclose
        have hsize' : bytesOf (t.drop (n + k)) n = n := by
          rw [bytesOf, ← hclose]
          exact hsize
        simp only [Option.map_some]
        rw [bytesOf_add, bytesOf_add, hsize, hsize']

/-! ## Numbers and parameters -/

theorem number_bytewise : Bytewise bytesOf number := by
  refine Bytewise.of_cons rfl (fun {x u} hx => ?_) fun {c} hc t => ?_
  · rw [number, if_neg (by simp [oneByte_isDigit.eq_false hx])]
  · rw [number, number, runLength_octets oneByte_isNumberPart.isByteClass]
    split
    · rw [Option.map_some, Nat.add_comm 1 (runLength _ _), bytesOf_cons, utf8Size_of_lt hc]
    · rfl

theorem numberedParam_bytewise : Bytewise bytesOf numberedParam := by
  refine Bytewise.of_cons rfl (fun {x u} hx => ?_) fun {c} hc t => ?_
  · exact if_neg fun h => ne_of_le (by decide) hx h.1
  · rw [numberedParam, numberedParam, runLength_octets oneByte_isDigit.isByteClass]
    simp only [bytesOf_pos_iff (runLength_le Char.isDigit t)]
    split
    · rw [Option.map_some, Nat.add_comm 1 (runLength _ _), bytesOf_cons, utf8Size_of_lt hc]
    · rfl

theorem braceParam_bytewise : Bytewise bytesOf braceParam := by
  have hclose : '}'.toNat < 128 := by decide
  refine Bytewise.of_cons rfl (fun {x u} hx => ?_) fun {c} hc t => ?_
  · exact if_neg fun h => ne_of_le (by decide) hx h.1
  · rw [braceParam, braceParam, runLength_octets isByteClass_isNoBrace]
    simp only [bytesOf_pos_iff (runLength_le isNoBrace t), ← octets_drop, head?_octets hclose]
    split
    · next h =>
      rw [Option.map_some, bytesOf_cons, bytesOf_succ hclose (List.head?_drop ▸ h.2.2),
        utf8Size_of_lt hc]
      exact congrArg some (by omega)
    · rfl

/-- A named parameter, read on bytes. -/
theorem namedParam_octets {t : Text} {n : Nat} (h : namedParam t = some n) :
    namedParam (octets t) = some (bytesOf t n) := by
  obtain ⟨c, w, e, rfl, hc, hclose, hend, he, rfl⟩ := namedParam_eq_some_iff.1 h
  have hpercent : '%'.toNat < 128 := by decide
  have hopen : '('.toNat < 128 := by decide
  have hparen : ')'.toNat < 128 := by decide
  have hstart := oneByte_isWordStart hc
  have helt : e.toNat < 128 := by rcases he with rfl | rfl <;> decide
  have hrun := runLength_octets oneByte_isWordPart.isByteClass w
  have hnext := bytesOf_succ hparen hclose
  have hlast := bytesOf_succ helt hend
  rw [octets_cons hpercent, octets_cons hopen, octets_cons hstart]
  refine namedParam_eq_some_iff.2 ⟨c, octets w, e, rfl, hc, ?_, ?_, he, ?_⟩
  · rw [hrun, getElem?_octets hparen, hclose]
  · rw [hrun, ← hnext, getElem?_octets helt, hend]
  · rw [hrun, bytesOf_cons, bytesOf_cons, bytesOf_cons, utf8Size_of_lt hpercent,
      utf8Size_of_lt hopen, utf8Size_of_lt hstart, hlast, hnext]
    omega

/-- A named parameter on bytes is one of the text. -/
theorem exists_namedParam_of_octets {t : Text} {m : Nat} (h : namedParam (octets t) = some m) :
    ∃ n, namedParam t = some n := by
  obtain ⟨c, w, e, ht, hc, hclose, hend, he, -⟩ := namedParam_eq_some_iff.1 h
  have hparen : ')'.toNat < 128 := by decide
  have helt : e.toNat < 128 := by rcases he with rfl | rfl <;> decide
  obtain ⟨t, rfl, hopen⟩ := exists_of_octets_eq_cons (by decide) ht
  obtain ⟨t, rfl, hstart⟩ := exists_of_octets_eq_cons (by decide) hopen
  obtain ⟨t, rfl, rfl⟩ := exists_of_octets_eq_cons (oneByte_isWordStart hc) hstart
  rw [runLength_octets oneByte_isWordPart.isByteClass, getElem?_octets hparen] at hclose
  rw [runLength_octets oneByte_isWordPart.isByteClass, ← bytesOf_succ hparen hclose,
    getElem?_octets helt] at hend
  exact ⟨_, namedParam_eq_some_iff.2 ⟨c, t, e, rfl, hc, hclose, hend, he, rfl⟩⟩

theorem namedParam_bytewise : Bytewise bytesOf namedParam := by
  refine ⟨fun {x u} hx => ?_, fun t => ?_⟩
  · cases h : namedParam (x :: u) with
    | none => rfl
    | some n =>
      obtain ⟨c, w, e, ht, -⟩ := namedParam_eq_some_iff.1 h
      exact absurd (List.cons.inj ht).1 (ne_of_le (by decide) hx)
  · cases h : namedParam t with
    | some n => rw [namedParam_octets h, Option.map_some]
    | none =>
      cases h' : namedParam (octets t) with
      | none => rfl
      | some m =>
        obtain ⟨n, hn⟩ := exists_namedParam_of_octets h'
        rw [h] at hn
        cases hn

/-! ## Symbols -/

theorem symbol_bytewise : Bytewise bytesOf symbol := by
  refine Bytewise.of_cons rfl (fun {x u} hx => ?_) fun {c} hc t => ?_
  · rw [symbol, if_neg (by simp [oneByte_isOperator.eq_false hx]),
      if_neg (by simp [oneByte_isPunctuation.eq_false hx])]
  · rw [symbol, symbol, runLength_octets oneByte_isOperator.isByteClass]
    split
    · rw [Option.map_some, Nat.add_comm 1 (runLength _ _), bytesOf_cons, utf8Size_of_lt hc]
    · split
      · rw [Option.map_some, bytesOf_cons, bytesOf_zero, utf8Size_of_lt hc]
      · rfl

/-! ## All rules before that of blanks -/

/-- The rules that are tried before that of blanks. -/
def byteRules (d : Dialect) : List (Text → Option (Kind × Nat)) := (rules d).take 7

/-- **All rules before that of blanks can be run on bytes**, one after the other. -/
theorem byteRules_bytewise (d : Dialect) :
    Bytewise lexemeInBytes fun t => (byteRules d).findSome? (· t) := by
  refine Bytewise.findSome? fun rule hr => ?_
  simp only [byteRules, rules, List.take_succ_cons, List.take_zero, List.mem_cons,
    List.not_mem_nil, or_false] at hr
  rcases hr with rfl | rfl | rfl | rfl | rfl | rfl | rfl
  · exact (string_bytewise _).tagged _
  · exact identifier_bytewise _
  · exact dollarQuoted_bytewise.tagged _
  · exact number_bytewise.tagged _
  · exact numberedParam_bytewise.tagged _
  · exact namedParam_bytewise.tagged _
  · exact braceParam_bytewise.tagged _

end Rule

end SqlText
