/-!
# Texts

A text is a list of characters (Unicode scalar values). All rules of the library read texts, and
all of its laws are stated on them; `String.toList` and `String.ofList` convert.

Offsets that are shown to the outside count bytes of the UTF-8 encoding. They are a measure on top
of the characters (`byteSize`, `fromByte?`) and no rule depends on them.

## Termination

Every function here is structural on the text it reads.
-/

namespace SqlText

/-- A text: its characters in order. -/
abbrev Text := List Char

namespace Text

/-! ## Bytes -/

/-- The number of bytes that a text takes in UTF-8. -/
def byteSize : Text → Nat
  | [] => 0
  | c :: t => c.utf8Size + byteSize t

@[simp] theorem byteSize_nil : byteSize [] = 0 := rfl

@[simp] theorem byteSize_cons (c : Char) (t : Text) :
    byteSize (c :: t) = c.utf8Size + byteSize t := rfl

@[simp] theorem byteSize_append (s t : Text) : byteSize (s ++ t) = byteSize s + byteSize t := by
  induction s with
  | nil => simp
  | cons c s ih => simp [ih, Nat.add_assoc]

/-- Every character takes at least one byte. -/
theorem length_le_byteSize (t : Text) : t.length ≤ byteSize t := by
  induction t with
  | nil => simp
  | cons c t ih =>
    have := Char.utf8Size_pos c
    simp only [List.length_cons, byteSize_cons]
    omega

/--
What stands from byte offset `n` on. There is nothing to give when `n` lies past the end or inside
a character.
-/
def fromByte? : Text → Nat → Option Text
  | t, 0 => some t
  | [], _ + 1 => none
  | c :: t, n + 1 => if c.utf8Size ≤ n + 1 then fromByte? t (n + 1 - c.utf8Size) else none

@[simp] theorem fromByte?_zero (t : Text) : fromByte? t 0 = some t := by
  cases t <;> rfl

/-- The text from the end of an initial part on is the other part. -/
theorem fromByte?_append (s t : Text) : fromByte? (s ++ t) (byteSize s) = some t := by
  induction s with
  | nil => simp
  | cons c s ih =>
    obtain ⟨n, hn⟩ : ∃ n, c.utf8Size + byteSize s = n + 1 :=
      ⟨c.utf8Size + byteSize s - 1, by have := Char.utf8Size_pos c; omega⟩
    have hle : c.utf8Size ≤ n + 1 := by omega
    have hsub : n + 1 - c.utf8Size = byteSize s := by omega
    simp [hn, fromByte?, hle, hsub, ih]

/-- What stands from byte offset `start` to byte offset `stop`. -/
def slice? (t : Text) (start stop : Nat) : Option Text :=
  if start ≤ stop then do
    let a ← fromByte? t start
    let b ← fromByte? t stop
    return a.take (a.length - b.length)
  else none

/-- What is left of a text that starts with `head`. -/
def dropHead? (head t : Text) : Option Text :=
  if head.isPrefixOf t then some (t.drop head.length) else none

/-! ## Letters and words of ASCII -/

/-- Whether two texts are equal once `A`-`Z` are read as `a`-`z`. -/
def sameWord (s t : Text) : Bool := s.map Char.toLower == t.map Char.toLower

/-- The length of the longest initial run of characters that satisfy `p`. -/
def runLength (p : Char → Bool) (t : Text) : Nat := (t.takeWhile p).length

theorem runLength_le (p : Char → Bool) (t : Text) : runLength p t ≤ t.length :=
  (List.takeWhile_sublist p).length_le

/-! ## Search -/

/-- The number of characters before the first occurrence of `needle`. -/
def indexOf? (needle : Text) : Text → Option Nat
  | [] => if needle.isEmpty then some 0 else none
  | c :: t => if needle.isPrefixOf (c :: t) then some 0 else (indexOf? needle t).map (· + 1)

/-- An occurrence lies inside the text. -/
theorem indexOf?_le {needle t : Text} {n : Nat} (h : indexOf? needle t = some n) :
    n + needle.length ≤ t.length := by
  induction t generalizing n with
  | nil =>
    cases needle with
    | nil => simp [indexOf?] at h; simp [← h]
    | cons c s => simp [indexOf?] at h
  | cons c t ih =>
    rw [indexOf?] at h
    split at h
    · next hp =>
      have := (List.isPrefixOf_iff_prefix.1 hp).length_le
      simp only [Option.some.injEq] at h
      omega
    · obtain ⟨m, hm, rfl⟩ := Option.map_eq_some_iff.1 h
      have := ih hm
      simp only [List.length_cons]
      omega

/-! ## Doubled characters -/

/-- Writes every `q` twice. -/
def double (q : Char) (t : Text) : Text := t.flatMap fun c => if c = q then [q, q] else [c]

/-- Reads every pair of `q`, from the left, as one. -/
def undouble (q : Char) : Text → Text
  | a :: b :: t => if a = q ∧ b = q then q :: undouble q t else a :: undouble q (b :: t)
  | t => t

theorem double_cons (q c : Char) (t : Text) :
    double q (c :: t) = (if c = q then [q, q] else [c]) ++ double q t := rfl

/-- Reading pairs as one takes back the doubling. -/
theorem undouble_double (q : Char) (t : Text) : undouble q (double q t) = t := by
  induction t with
  | nil => rfl
  | cons c t ih =>
    rw [double_cons]
    split
    · next h => simp [undouble, ih, h]
    · next h =>
      cases hd : double q t with
      | nil => rw [hd] at ih; simpa [undouble] using ih
      | cons d s => rw [hd] at ih; simp [undouble, h, ih]

end Text

end SqlText
