import SqlText.Proofs.ArrayLiteral.Grammar
import SqlText.Proofs.Text.Bytes
import SqlText.Proofs.Token.Locality

/-!
# Arrays by byte offsets

The reader of arrays takes a text character by character. The same can be done in place, on the
bytes of the text: an offset moves on from byte to byte, two bytes at a time behind a backslash, and
parts of the text are cut out between offsets. An offset may then lie inside a character, or past
the end, and nothing in the steps rules this out by itself.

Here this reading is written down with every access in the open: a byte outside the text, and a cut
that lies outside the text or inside a character, give nothing. It always gives something, and it is
what the reader gives, down to the offsets of its errors.

The reason is that the marks of the format take one byte each and no other character has such a
byte. An offset inside a character therefore moves on to its end, and whatever is found is found
where a character starts.

## Main statements

* `scanAt_inside`: an offset inside a character moves on to its end.
* `scanAt_quotedBody`, `scanAt_bare`: where an element ends, as an offset.
* `elementsAt_eq`: elements are read in place.
* `unquoteAt_eq`: so are arrays, and no access leaves the text.
* `array_syntax_exact`: which texts are arrays, and that they are read in place.
-/

namespace SqlText

open Text

namespace ArrayLiteral

/-! ## Reading in place -/

/--
Moves an offset on, up to `stop`, over each byte and as many further ones as `skip` says, to the
first byte that it does not skip. A byte outside the text gives nothing.
-/
def scanAt (skip : UInt8 → Option Nat) (bs : List UInt8) (stop i : Nat) : Option Nat :=
  if _ : i < stop then
    match bs[i]? with
    | none => none
    | some b =>
      match skip b with
      | none => some i
      | some n => scanAt skip bs stop (i + 1 + n)
  else some i
termination_by stop - i

/-- Inside quotes a backslash is skipped with the byte behind it, and a quote is not. -/
def skipQuoted (b : UInt8) : Option Nat :=
  if b = '\\'.toUInt8 then some 1 else if b = '"'.toUInt8 then none else some 0

/-- In a bare element a mark is not skipped. -/
def skipBare (b : UInt8) : Option Nat :=
  if b = ','.toUInt8 ∨ b = '"'.toUInt8 ∨ b = '{'.toUInt8 ∨ b = '}'.toUInt8 then none else some 0

/-- Reads the element at an offset, and gives the offset behind it. -/
def elementAt (t : Text) (stop start : Nat) : Option (Except ArrayFault (Option Text × Nat)) := do
  let b ← (bytes t)[start]?
  if b = '"'.toUInt8 then
    let i ← scanAt skipQuoted (bytes t) stop (start + 1)
    if stop ≤ i then return .error .unterminated
    else
      let raw ← slice? t (start + 1) i
      return .ok (some (Escape.unescape raw), i + 1)
  else
    let i ← scanAt skipBare (bytes t) stop start
    if i = start then return .error .emptyElement
    else
      let raw ← slice? t start i
      return .ok (bareValue raw, i)

theorem le_of_scanAt {skip : UInt8 → Option Nat} {bs : List UInt8} {stop i j : Nat}
    (h : scanAt skip bs stop i = some j) : i ≤ j := by
  fun_induction scanAt skip bs stop i with
  | case1 => cases h
  | case2 => cases h; exact Nat.le_refl _
  | case3 i hi b hb n hn ih =>
    have := ih h
    omega
  | case4 => cases h; exact Nat.le_refl _

theorem le_of_elementAt {t : Text} {stop start next : Nat} {v : Option Text}
    (h : elementAt t stop start = some (.ok (v, next))) : start ≤ next := by
  obtain ⟨b, -, h₁⟩ := Option.bind_eq_some_iff.1 h
  split at h₁
  · obtain ⟨i, hi, h₂⟩ := Option.bind_eq_some_iff.1 h₁
    have hle := le_of_scanAt hi
    split at h₂
    · cases h₂
    · obtain ⟨raw, -, hresult⟩ := Option.bind_eq_some_iff.1 h₂
      cases hresult
      omega
  · obtain ⟨i, hi, h₂⟩ := Option.bind_eq_some_iff.1 h₁
    split at h₂
    · cases h₂
    · obtain ⟨raw, -, hresult⟩ := Option.bind_eq_some_iff.1 h₂
      cases hresult
      exact le_of_scanAt hi

/-- Reads elements from an offset on; the last of them ends at offset `stop`. -/
def elementsAt (t : Text) (stop start : Nat) : Option (Except Error (List (Option Text))) :=
  match _ : elementAt t stop start with
  | none => none
  | some (.error fault) => some (.error (.invalidArray fault start))
  | some (.ok (value, next)) =>
    if next = stop then some (.ok [value])
    else
      match _ : (bytes t)[next]? with
      | none => none
      | some b =>
        if b = ','.toUInt8 then (elementsAt t stop (next + 1)).map (·.map (value :: ·))
        else some (.error (.invalidArray .noSeparator next))
termination_by byteSize t - start
decreasing_by
  have hle := le_of_elementAt ‹_›
  have hlt : next < (bytes t).length := (List.getElem?_eq_some_iff.1 ‹_›).1
  rw [length_bytes] at hlt
  omega

/-- Reads an array in place. -/
def unquoteAt (t : Text) : Option (Except Error (List (Option Text))) :=
  if ((bytes t).head? = some '{'.toUInt8 ∨ (bytes t).head? = some '['.toUInt8) ∧
      (bytes t).getLast? = some '}'.toUInt8 then
    let stop := (bytes t).length - 1
    if '{' ∈ t then
      let start := byteSize (t.takeWhile (· != '{')) + 1
      if stop ≤ start then some (.ok []) else elementsAt t stop start
    else some (.error (.invalidArray .noOpeningBrace 0))
  else some (.error (.invalidArray .noBraces 0))

/-! ## Offsets move on to the ends of characters -/

section

variable {skip : UInt8 → Option Nat} {stop : Nat}

theorem scanAt_of_le (skip : UInt8 → Option Nat) (bs : List UInt8) {i : Nat} (h : stop ≤ i) :
    scanAt skip bs stop i = some i := by
  rw [scanAt, dif_neg (Nat.not_lt.2 h)]

theorem scanAt_of_none {bs : List UInt8} {i : Nat} (hi : i < stop) {b : UInt8}
    (hb : bs[i]? = some b) (hskip : skip b = none) : scanAt skip bs stop i = some i := by
  rw [scanAt, dif_pos hi, hb]
  simp only [hskip]

theorem scanAt_of_some {bs : List UInt8} {i n : Nat} (hi : i < stop) {b : UInt8}
    (hb : bs[i]? = some b) (hskip : skip b = some n) :
    scanAt skip bs stop i = scanAt skip bs stop (i + 1 + n) := by
  rw [scanAt, dif_pos hi, hb]
  simp only [hskip]

/-- **An offset inside a character moves on to its end**, if all its bytes are skipped. -/
theorem scanAt_inside {t before rest : Text} {c : Char} (ht : t = before ++ c :: rest)
    (hskip : ∀ b ∈ String.utf8EncodeChar c, skip b = some 0)
    (hstop : byteSize (before ++ [c]) ≤ stop) {k : Nat} (hk : k ≤ c.utf8Size) :
    scanAt skip (bytes t) stop (byteSize before + k)
      = scanAt skip (bytes t) stop (byteSize (before ++ [c])) := by
  rw [byteSize_append, byteSize_cons, byteSize_nil, Nat.add_zero] at hstop ⊢
  obtain ⟨n, hn⟩ := Nat.exists_eq_add_of_le hk
  induction n generalizing k with
  | zero => rw [hn, Nat.add_zero]
  | succ n ih =>
    obtain ⟨b, hmem, hb⟩ := exists_byte ht (show k < c.utf8Size by omega)
    rw [scanAt_of_some (by omega) hb (hskip b hmem), Nat.add_zero, Nat.add_assoc]
    exact ih (by omega) (by omega)

end

/-! ## Where elements end -/

theorem skipQuoted_eq {c : Char} (hquote : c ≠ '"') (hslash : c ≠ '\\') :
    ∀ b ∈ String.utf8EncodeChar c, skipQuoted b = some 0 := by
  intro b hb
  rw [skipQuoted, if_neg fun h => hslash ((byte_eq_mark_iff (by decide) hb).1 h),
    if_neg fun h => hquote ((byte_eq_mark_iff (by decide) hb).1 h)]

theorem skipBare_eq {c : Char} :
    ∀ b ∈ String.utf8EncodeChar c, skipBare b = if isBarePart c then some 0 else none := by
  intro b hb
  have hmark : ∀ mark : Char, mark.toNat < 128 → (b = mark.toUInt8 ↔ c = mark) :=
    fun mark h => byte_eq_mark_iff h hb
  simp only [skipBare, hmark ',' (by decide), hmark '"' (by decide), hmark '{' (by decide),
    hmark '}' (by decide), isBarePart_iff]
  grind

section

variable {t before rest : Text} {stop : Nat}

/-- Over a character that means nothing in quotes the offset moves on. -/
theorem scanAt_plain {c : Char} (hquote : c ≠ '"') (hslash : c ≠ '\\')
    (ht : t = before ++ c :: rest) (hstop : byteSize (before ++ [c]) ≤ stop) :
    scanAt skipQuoted (bytes t) stop (byteSize before)
      = scanAt skipQuoted (bytes t) stop (byteSize (before ++ [c])) :=
  scanAt_inside ht (skipQuoted_eq hquote hslash) hstop (k := 0) (Nat.zero_le _)

/-- Behind a backslash it moves on to the end of the next character. -/
theorem scanAt_escaped {c : Char} (ht : t = before ++ '\\' :: c :: rest)
    (hstop : byteSize (before ++ ['\\', c]) ≤ stop) :
    scanAt skipQuoted (bytes t) stop (byteSize before)
      = scanAt skipQuoted (bytes t) stop (byteSize (before ++ ['\\', c])) := by
  have hbyte := getElem?_bytes_of_mark (by decide) ht
  have hslash : byteSize (before ++ ['\\']) = byteSize before + 1 :=
    byteSize_concat before (by decide)
  rw [List.append_cons] at ht hstop ⊢
  have hend : byteSize (before ++ ['\\'] ++ [c]) = byteSize before + 1 + c.utf8Size := by
    rw [byteSize_append, hslash]
    rfl
  have hpos := Char.utf8Size_pos c
  rw [scanAt_of_some (by omega) hbyte (if_pos rfl)]
  by_cases hmark : c = '"' ∨ c = '\\'
  · -- such a character has one byte only
    rw [hend]
    rcases hmark with rfl | rfl <;> rfl
  · rw [not_or] at hmark
    rw [← hslash]
    exact scanAt_inside ht (skipQuoted_eq hmark.1 hmark.2) hstop hpos

/-- **The closing quote is found where the element ends.** -/
theorem scanAt_quotedBody {raw : Text} (h : QuotedBody raw) (ht : t = before ++ raw ++ '"' :: rest)
    (hstop : byteSize (before ++ raw) < stop) :
    scanAt skipQuoted (bytes t) stop (byteSize before) = some (byteSize (before ++ raw)) := by
  -- what is passed goes to the text before, so the offset stays at the start of the rest
  induction h generalizing before with
  | nil =>
    rw [List.append_nil] at ht hstop ⊢
    exact scanAt_of_none hstop (getElem?_bytes_of_mark (by decide) ht) (by rfl)
  | @plain c raw hquote hslash _ ih =>
    have hle : byteSize (before ++ [c]) ≤ stop := by
      rw [List.append_cons, byteSize_append] at hstop
      omega
    rw [scanAt_plain hquote hslash (by rw [ht, List.append_assoc, List.cons_append]) hle]
    rw [List.append_cons before c raw] at ht hstop ⊢
    exact ih ht hstop
  | @escaped c raw _ ih =>
    have hcut : before ++ '\\' :: c :: raw = before ++ ['\\', c] ++ raw :=
      (List.append_assoc before ['\\', c] raw).symm
    have hle : byteSize (before ++ ['\\', c]) ≤ stop := by
      rw [hcut, byteSize_append] at hstop
      omega
    rw [scanAt_escaped (by rw [ht, List.append_assoc]; rfl) hle]
    rw [hcut] at ht hstop ⊢
    exact ih ht hstop

/-- Without a closing quote the offset gets to the end of the body, or past it. -/
theorem scanAt_of_closeElement_eq_none {u : Text} (h : closeElement u = none)
    (ht : t = before ++ u ++ rest) :
    ∃ i, scanAt skipQuoted (bytes t) (byteSize (before ++ u)) (byteSize before) = some i ∧
      byteSize (before ++ u) ≤ i := by
  fun_induction closeElement u generalizing before with
  | case1 =>
    rw [List.append_nil]
    exact ⟨_, scanAt_of_le _ _ (Nat.le_refl _), Nat.le_refl _⟩
  | case2 => cases h
  | case3 c hquote =>
    rw [List.append_assoc, List.singleton_append] at ht
    by_cases hslash : c = '\\'
    · -- the backslash takes the closing brace with it
      subst hslash
      have hend : byteSize (before ++ ['\\']) = byteSize before + 1 :=
        byteSize_concat before (by decide)
      rw [scanAt_of_some (by omega) (getElem?_bytes_of_mark (by decide) ht) (if_pos rfl),
        scanAt_of_le _ _ (by omega)]
      exact ⟨_, rfl, by omega⟩
    · rw [scanAt_plain hquote hslash ht (Nat.le_refl _), scanAt_of_le _ _ (Nat.le_refl _)]
      exact ⟨_, rfl, Nat.le_refl _⟩
  | case4 => cases h
  | case5 d u _ ih =>
    have hcut : before ++ '\\' :: d :: u = before ++ ['\\', d] ++ u :=
      (List.append_assoc before ['\\', d] u).symm
    have hle : byteSize (before ++ ['\\', d]) ≤ byteSize (before ++ '\\' :: d :: u) := by
      rw [hcut, byteSize_append (before ++ ['\\', d])]
      omega
    rw [scanAt_escaped (by rw [ht, List.append_assoc]; rfl) hle]
    rw [hcut] at ht ⊢
    exact ih (Option.map_eq_none_iff.1 h) ht
  | case6 c d u hquote hslash ih =>
    have hle : byteSize (before ++ [c]) ≤ byteSize (before ++ c :: d :: u) := by
      rw [List.append_cons before c (d :: u), byteSize_append (before ++ [c])]
      omega
    rw [scanAt_plain hquote hslash (by rw [ht, List.append_assoc, List.cons_append]) hle]
    rw [List.append_cons before c (d :: u)] at ht ⊢
    exact ih (Option.map_eq_none_iff.1 h) ht

/-- **A bare element ends at the first mark**, or with the body. -/
theorem scanAt_bare {u : Text} (ht : t = before ++ u ++ rest) :
    scanAt skipBare (bytes t) (byteSize (before ++ u)) (byteSize before)
      = some (byteSize (before ++ u.takeWhile isBarePart)) := by
  induction u generalizing before with
  | nil =>
    rw [List.takeWhile_nil, List.append_nil]
    exact scanAt_of_le _ _ (Nat.le_refl _)
  | cons c u ih =>
    have ht' : t = before ++ c :: (u ++ rest) := by rw [ht, List.append_assoc, List.cons_append]
    have hend : byteSize (before ++ c :: u) = byteSize (before ++ [c]) + byteSize u := by
      rw [List.append_cons, byteSize_append]
    rw [List.takeWhile_cons]
    split
    · next hc =>
      have hskip : ∀ b ∈ String.utf8EncodeChar c, skipBare b = some 0 :=
        fun b hb => by rw [skipBare_eq b hb, if_pos hc]
      have hmove := scanAt_inside ht' hskip (hend ▸ Nat.le_add_right _ _) (k := 0) (Nat.zero_le _)
      rw [Nat.add_zero] at hmove
      rw [hmove, List.append_cons before c (u.takeWhile isBarePart)]
      rw [List.append_cons before c u] at ht ⊢
      exact ih ht
    · next hc =>
      obtain ⟨b, hmem, hb⟩ := exists_byte ht' (k := 0) (Char.utf8Size_pos c)
      rw [List.append_nil]
      refine scanAt_of_none ?_ hb (by rw [skipBare_eq b hmem, if_neg hc])
      rw [byteSize_append, byteSize_cons]
      have := Char.utf8Size_pos c
      omega

end

/-! ## Elements in place -/

/-- What is left of a body that ends at an offset stands for the offset where it starts. -/
def atOffset (stop : Nat) (r : Option Text × Text) : Option Text × Nat :=
  (r.1, stop - byteSize r.2)

section

variable {t before u : Text}

/-- A quoted element is read in place. -/
theorem elementAt_quoted (ht : t = before ++ '"' :: (u ++ ['}'])) :
    elementAt t (byteSize (before ++ '"' :: u)) (byteSize before)
      = some ((element ('"' :: u)).map (atOffset (byteSize (before ++ '"' :: u)))) := by
  have hbyte := getElem?_bytes_of_mark (by decide) ht
  have hstart : byteSize (before ++ ['"']) = byteSize before + 1 :=
    byteSize_concat before (by decide)
  rw [List.append_cons, ← List.append_assoc] at ht
  rw [elementAt, hbyte, Option.bind_eq_bind, Option.bind_some, if_pos rfl, ← hstart, element,
    if_pos List.head?_cons, List.tail_cons, List.append_cons before]
  cases hclose : closeElement u with
  | none =>
    obtain ⟨i, hi, hle⟩ := scanAt_of_closeElement_eq_none hclose ht
    rw [hi, Option.bind_eq_bind, Option.bind_some, if_pos hle]
    rfl
  | some r =>
    obtain ⟨raw, rest⟩ := r
    obtain ⟨hbody, rfl⟩ := closeElement_eq_some_iff.1 hclose
    have hend : byteSize (before ++ ['"'] ++ (raw ++ '"' :: rest))
        = byteSize (before ++ ['"'] ++ raw) + 1 + byteSize rest := by
      rw [← List.append_assoc, List.append_cons, byteSize_append, byteSize_concat _ (by decide)]
    have hcut : t = before ++ ['"'] ++ raw ++ '"' :: (rest ++ ['}']) := by rw [ht]; simp
    have hslice := slice?_append (before ++ ['"']) raw ('"' :: (rest ++ ['}']))
    rw [← hcut, ← byteSize_append] at hslice
    have hnext : byteSize (before ++ ['"'] ++ raw) + 1
        = byteSize (before ++ ['"'] ++ (raw ++ '"' :: rest)) - byteSize rest := by omega
    rw [scanAt_quotedBody hbody hcut (by omega), Option.bind_eq_bind, Option.bind_some,
      if_neg (by omega), hslice, hnext]
    rfl

/-- What does not start with a quote has a byte there, the closing brace at last, that is none. -/
theorem exists_byte_ne_quote (ht : t = before ++ u ++ ['}']) (hquote : u.head? ≠ some '"') :
    ∃ b, (bytes t)[byteSize before]? = some b ∧ b ≠ '"'.toUInt8 := by
  obtain ⟨c, rest, hrest, hc⟩ : ∃ c rest, u ++ ['}'] = c :: rest ∧ c ≠ '"' := by
    cases u with
    | nil => exact ⟨'}', [], rfl, by decide⟩
    | cons c u => exact ⟨c, u ++ ['}'], rfl, fun hc => hquote (congrArg some hc)⟩
  rw [List.append_assoc, hrest] at ht
  obtain ⟨b, hmem, hb⟩ := exists_byte ht (k := 0) (Char.utf8Size_pos c)
  exact ⟨b, hb, fun h => hc ((byte_eq_mark_iff (by decide) hmem).1 h)⟩

/-- Any other element is read in place. -/
theorem elementAt_bare (ht : t = before ++ u ++ ['}']) (hquote : u.head? ≠ some '"') :
    elementAt t (byteSize (before ++ u)) (byteSize before)
      = some ((element u).map (atOffset (byteSize (before ++ u)))) := by
  obtain ⟨b, hb, hne⟩ := exists_byte_ne_quote ht hquote
  have hslice := slice?_append before (u.takeWhile isBarePart) (u.dropWhile isBarePart ++ ['}'])
  rw [List.append_assoc before, ← List.append_assoc (u.takeWhile isBarePart),
    List.takeWhile_append_dropWhile, ← List.append_assoc, ← ht, ← byteSize_append] at hslice
  have hend : byteSize (before ++ u)
      = byteSize (before ++ u.takeWhile isBarePart) + byteSize (u.dropWhile isBarePart) := by
    rw [← byteSize_append, List.append_assoc, List.takeWhile_append_dropWhile]
  rw [elementAt, hb, Option.bind_eq_bind, Option.bind_some, if_neg hne, scanAt_bare ht,
    Option.bind_eq_bind, Option.bind_some, element, if_neg hquote]
  cases hraw : u.takeWhile isBarePart with
  | nil =>
    rw [List.append_nil, if_pos rfl]
    rfl
  | cons c raw =>
    have hpos := Char.utf8Size_pos c
    have hne' : byteSize (before ++ c :: raw) ≠ byteSize before := by
      rw [byteSize_append, byteSize_cons]
      omega
    rw [hraw] at hslice hend
    have hnext : byteSize (before ++ c :: raw)
        = byteSize (before ++ u) - byteSize (u.dropWhile isBarePart) := by omega
    rw [if_neg hne', hslice, hnext]
    rfl

/-- **An element is read in place.** -/
theorem elementAt_eq (ht : t = before ++ u ++ ['}']) :
    elementAt t (byteSize (before ++ u)) (byteSize before)
      = some ((element u).map (atOffset (byteSize (before ++ u)))) := by
  by_cases hquote : u.head? = some '"'
  · obtain ⟨u, rfl⟩ := List.head?_eq_some_iff.1 hquote
    exact elementAt_quoted (by rw [ht, List.append_assoc, List.cons_append])
  · exact elementAt_bare ht hquote

/-- Behind an element that does not end the body, the next character is looked at. -/
theorem elementsAt_of_next {rest : Text} {v : Option Text} {c : Char}
    (ht : t = before ++ u ++ ['}']) (hread : element u = .ok (v, c :: rest)) :
    ∃ next : Text, t = next ++ [c] ++ rest ++ ['}'] ∧ before ++ u = next ++ [c] ++ rest ∧
      elementsAt t (byteSize (before ++ u)) (byteSize before) =
        if c = ',' then
          (elementsAt t (byteSize (before ++ u)) (byteSize (next ++ [c]))).map (·.map (v :: ·))
        else some (.error (.invalidArray .noSeparator (byteSize next))) := by
  obtain ⟨raw, -, hu⟩ := exists_of_element hread
  have hcut : before ++ u = before ++ raw ++ [c] ++ rest := by rw [hu]; simp
  have hend : byteSize (before ++ u) = byteSize (before ++ raw) + byteSize (c :: rest) := by
    rw [hu, ← List.append_assoc, byteSize_append]
  have hpos := Char.utf8Size_pos c
  have hne : byteSize (before ++ raw) ≠ byteSize (before ++ u) := by
    rw [hend, byteSize_cons]
    omega
  have helement : elementAt t (byteSize (before ++ u)) (byteSize before)
      = some (.ok (v, byteSize (before ++ raw))) := by
    rw [elementAt_eq ht, hread, hend]
    simp only [Except.map, atOffset, Nat.add_sub_cancel]
  have ht' : t = before ++ raw ++ c :: (rest ++ ['}']) := by rw [ht, hcut]; simp
  obtain ⟨b, hmem, hb⟩ := exists_byte ht' hpos
  have hcomma : b = ','.toUInt8 ↔ c = ',' := byte_eq_mark_iff (by decide) hmem
  refine ⟨before ++ raw, by rw [ht, hcut], hcut, ?_⟩
  rw [elementsAt, helement]
  simp only [if_neg hne]
  rw [show (bytes t)[byteSize (before ++ raw)]? = some b from hb]
  simp only [hcomma]
  split
  · next hc => rw [hc, byteSize_concat (before ++ raw) (by decide)]
  · rfl

/-- **So are elements with commas between them**, with the offsets of the errors. -/
theorem elementsAt_eq {stop : Nat} (ht : t = before ++ u ++ ['}'])
    (hstop : stop = byteSize (before ++ u)) :
    elementsAt t stop (byteSize before) = some (elements stop u) := by
  -- the text before grows by each element and its comma, and the body still ends at the same offset
  fun_induction elements stop u generalizing before with
  | case1 u fault hread =>
    have hposition : stop - byteSize u = byteSize before := by
      rw [hstop, byteSize_append]
      omega
    rw [elementsAt, hstop, elementAt_eq ht, hread, ← hstop, hposition]
    rfl
  | case2 u value hread =>
    rw [elementsAt, hstop, elementAt_eq ht, hread]
    exact if_pos rfl
  | case3 u value rest hread ih =>
    obtain ⟨next, ht', hcut, hnext⟩ := elementsAt_of_next ht hread
    rw [← hstop, if_pos rfl] at hnext
    rw [hnext, ih ht' (by rw [hstop, hcut])]
    rfl
  | case4 u value c rest hread hcomma =>
    obtain ⟨next, -, hcut, hnext⟩ := elementsAt_of_next ht hread
    have hposition : stop - byteSize (c :: rest) = byteSize next := by
      rw [hstop, hcut, List.append_assoc, byteSize_append]
      exact Nat.add_sub_cancel _ _
    rw [← hstop, if_neg hcomma] at hnext
    rw [hnext, hposition]

end

/-! ## Arrays in place -/

theorem isEnclosed_iff_bytes {t : Text} :
    ((bytes t).head? = some '{'.toUInt8 ∨ (bytes t).head? = some '['.toUInt8) ∧
      (bytes t).getLast? = some '}'.toUInt8 ↔ isEnclosed t = true := by
  rw [head?_bytes_iff (by decide), head?_bytes_iff (by decide), getLast?_bytes_iff (by decide)]
  simp [isEnclosed]

/-- The first opening brace stands behind the dimensions. -/
theorem takeWhile_dimensions {d : Text} (hd : IsDimensions d) (rest : Text) :
    (d ++ '{' :: rest).takeWhile (· != '{') = d := by
  have hpass : ∀ c ∈ d, (c != '{') = true := by
    intro c hc
    exact bne_iff_ne.2 fun h => hd.not_mem (h ▸ hc)
  rw [List.takeWhile_append_of_pos hpass]
  exact List.append_nil d

/-- **An array is read in place**, and no access leaves the text or cuts a character. -/
theorem unquoteAt_eq (t : Text) : unquoteAt t = some (unquote t) := by
  rw [unquoteAt]
  by_cases henclosed : isEnclosed t = true
  · rw [if_pos (isEnclosed_iff_bytes.2 henclosed)]
    by_cases hopen : '{' ∈ t
    · rw [if_pos hopen]
      obtain ⟨d, body, hd, ht⟩ := exists_of_isEnclosed henclosed hopen
      have htake : t.takeWhile (· != '{') = d := by
        rw [ht, List.append_assoc]
        exact takeWhile_dimensions hd _
      have hstart : byteSize (d ++ ['{']) = byteSize d + 1 := byteSize_concat d (by decide)
      have hbody : d ++ '{' :: body = d ++ ['{'] ++ body := List.append_cons ..
      have hstop : byteSize t - 1 = byteSize (d ++ ['{'] ++ body) := by
        rw [ht, byteSize_concat _ (by decide), hbody, Nat.add_sub_cancel]
      have hread : unquote t = if body.isEmpty then .ok [] else elements (byteSize t - 1) body := by
        rw [ht]
        exact unquote_enclosed hd body
      rw [hread, htake, length_bytes, ← hstart]
      cases body with
      | nil =>
        rw [List.append_nil] at hstop
        exact if_pos hstop.le
      | cons c body =>
        have hpos := Char.utf8Size_pos c
        have hlt : ¬byteSize t - 1 ≤ byteSize (d ++ ['{']) := by
          rw [hstop, byteSize_append (d ++ ['{']), byteSize_cons]
          omega
        exact (if_neg hlt).trans (elementsAt_eq (by rw [ht, hbody]) hstop)
    · rw [if_neg hopen, unquote_of_not_mem henclosed hopen]
  · rw [if_neg fun h => henclosed (isEnclosed_iff_bytes.1 h), unquote, if_neg henclosed]

end ArrayLiteral

/--
**Which texts are arrays, and that they are read in place.** A text is read exactly if it is an
array, with the values of its elements, and is refused as no array otherwise. Reading it by byte
offsets gives the same on every text, so no byte is looked for outside the text, and nothing is cut
out there or inside a character.
-/
theorem array_syntax_exact (t : Text) :
    (∀ values, ArrayLiteral.unquote t = .ok values ↔ ArrayLiteral.IsArray t values) ∧
    ((∃ fault position, ArrayLiteral.unquote t = .error (.invalidArray fault position)) ↔
      ¬∃ values, ArrayLiteral.IsArray t values) ∧
    ArrayLiteral.unquoteAt t = some (ArrayLiteral.unquote t) :=
  ⟨fun _ => ArrayLiteral.unquote_eq_ok_iff, ArrayLiteral.exists_invalidArray_iff,
    ArrayLiteral.unquoteAt_eq t⟩

-- one backslash stands before a character of two bytes, and the other before the closing brace
example :
    ArrayLiteral.unquoteAt "\x7b\"\\é\",null\x7d".toList
      = some (.ok [some "é".toList, none]) ∧
    ArrayLiteral.unquoteAt "\x7b\"\\\x7d".toList
      = some (.error (.invalidArray .unterminated 1)) := by
  decide +kernel

end SqlText
