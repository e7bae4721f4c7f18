import SqlText.CopyField
import SqlText.Proofs.Escape

/-!
# Lines of COPY data

A line of COPY data holds the fields of a row with tabs between them. Three things could go wrong:
a field could hold a tab or the end of the line, so that the line is cut in the wrong place; a text
could look like the mark of the missing value; and a line could look like the one that ends the
data. The last two are escapes by themselves. None of it happens, since a written field has no
control character of the format and its backslashes come in the pairs that decoding takes back.

## Main statements

* `CopyField.not_mem_quote`: a written field has no tab and no end of line.
* `CopyField.unquote_quote`: every value reads back, the missing value too.
* `copyLine_reads_back`: so does every line, and it is one line of data.
-/

namespace SqlText

namespace CopyField

/-! ## Fields -/

/-- Whether a character has a meaning of its own between the fields and lines of the format. -/
def isSeparator (c : Char) : Bool := c == '\t' || c == '\n' || c == '\r'

/-- A character is written as an escape that means it, or as it is. -/
theorem quoteChar_cases (c : Char) :
    (∃ e, quoteChar c = ['\\', e] ∧ Escape.octalDigit? e = none ∧ Escape.meaning e = c ∧
      isSeparator e = false) ∨
    quoteChar c = [c] ∧ c ≠ '\\' ∧ isSeparator c = false := by
  by_cases hb : c = '\\'
  · subst hb
    exact Or.inl ⟨'\\', by decide, by decide, by decide, by decide⟩
  by_cases ht : c = '\t'
  · subst ht
    exact Or.inl ⟨'t', by decide, by decide, by decide, by decide⟩
  by_cases hn : c = '\n'
  · subst hn
    exact Or.inl ⟨'n', by decide, by decide, by decide, by decide⟩
  by_cases hr : c = '\r'
  · subst hr
    exact Or.inl ⟨'r', by decide, by decide, by decide, by decide⟩
  refine Or.inr ⟨?_, hb, ?_⟩
  · rw [quoteChar, if_neg hb, if_neg ht, if_neg hn, if_neg hr]
  · simp [isSeparator, ht, hn, hr]

/-- **A written field has no separator.** -/
theorem not_mem_quote {x : Char} (hx : isSeparator x = true) (v : Option Text) : x ∉ quote v := by
  cases v with
  | none =>
    intro hmem
    simp only [quote, null, List.mem_cons, List.not_mem_nil, or_false] at hmem
    rcases hmem with rfl | rfl <;> exact absurd hx (by decide)
  | some t =>
    intro hmem
    obtain ⟨c, -, hc⟩ := List.mem_flatMap.1 hmem
    rcases quoteChar_cases c with ⟨e, he, -, -, hsep⟩ | ⟨hself, -, hsep⟩
    · rw [he, List.mem_cons, List.mem_singleton] at hc
      rcases hc with rfl | rfl
      · exact absurd hx (by decide)
      · rw [hsep] at hx
        cases hx
    · rw [hself, List.mem_singleton] at hc
      rw [hc, hsep] at hx
      cases hx

/-- A written character is decoded by itself, whatever follows. -/
theorem decode_quoteChar (c : Char) (t : Text) :
    Escape.decode false (quoteChar c ++ t) = (Escape.decode false t).push c := by
  rcases quoteChar_cases c with ⟨e, he, hdigit, hmeaning, -⟩ | ⟨hself, hb, -⟩
  · rw [he, List.cons_append, List.singleton_append, Escape.decode_escape false hdigit, hmeaning]
  · rw [hself]
    exact Escape.decode_plain false hb nofun t

theorem unescape_quoteChar (t : Text) : Escape.unescape (t.flatMap quoteChar) = t :=
  Escape.unescape_flatMap fun c _ => decode_quoteChar c

/-- No text is written like the missing value: the mark decodes to `N`, which is written bare. -/
theorem quote_eq_null_iff {v : Option Text} : quote v = null ↔ v = none := by
  constructor
  · intro h
    cases v with
    | none => rfl
    | some t =>
      have ht : t = ['N'] := by
        have hread := unescape_quoteChar t
        rw [show t.flatMap quoteChar = null from h] at hread
        rw [← hread]
        decide +kernel
      subst ht
      exact absurd h (by decide)
  · rintro rfl
    rfl

/-- **Every value reads back**, the missing value too. -/
theorem unquote_quote (v : Option Text) : unquote (quote v) = v := by
  cases v with
  | none => rfl
  | some t =>
    have hne : quote (some t) ≠ null := fun h => Option.some_ne_none t (quote_eq_null_iff.1 h)
    rw [unquote, if_neg hne, quote, unescape_quoteChar]

end CopyField

open CopyField

namespace CopyLine

/-! ## Lines -/

/-- Writes values as a line: their fields with tabs between them. -/
def write (values : List (Option Text)) : Text :=
  List.intercalate ['\t'] (values.map quote)

/-- Reads a line: the values of what stands between its tabs. -/
def read (line : Text) : List (Option Text) := (line.splitOn '\t').map unquote

/-- The line that ends the data. -/
def endOfData : Text := ['\\', '.']

/-- The characters of a line are tabs and those of its fields. -/
theorem mem_write {x : Char} {values : List (Option Text)} (h : x ∈ write values) :
    x = '\t' ∨ ∃ v ∈ values, x ∈ quote v := by
  induction values with
  | nil => cases h
  | cons v values ih =>
    cases values with
    | nil =>
      rw [write, List.map_singleton, List.intercalate_singleton] at h
      exact Or.inr ⟨v, List.mem_cons_self, h⟩
    | cons w values =>
      rw [write, List.map_cons, List.map_cons, List.intercalate_cons_cons, List.append_assoc,
        List.mem_append, List.singleton_append, List.mem_cons] at h
      rcases h with h | h | h
      · exact Or.inr ⟨v, List.mem_cons_self, h⟩
      · exact Or.inl h
      · exact (ih h).imp_right fun ⟨u, hu, hx⟩ => ⟨u, List.mem_cons_of_mem _ hu, hx⟩

/-- A line does not end before its last field. -/
theorem not_mem_write {x : Char} (hx : isSeparator x = true) (htab : x ≠ '\t')
    (values : List (Option Text)) : x ∉ write values := by
  intro hmem
  rcases mem_write hmem with h | ⟨v, -, h⟩
  · exact htab h
  · exact not_mem_quote hx v h

/-- **A line is read field by field.** -/
theorem read_write {values : List (Option Text)} (hne : values ≠ []) :
    read (write values) = values := by
  have hno : ∀ f ∈ values.map quote, '\t' ∉ f := by
    intro f hf
    obtain ⟨v, -, rfl⟩ := List.mem_map.1 hf
    exact not_mem_quote rfl v
  rw [read, write, List.splitOn_intercalate '\t' hno (by simpa using hne), List.map_map]
  calc values.map (unquote ∘ quote) = values.map id :=
        List.map_congr_left fun v _ => unquote_quote v
    _ = values := List.map_id values

/-- No line ends the data: its one field would decode to a dot, which is written bare. -/
theorem write_ne_endOfData {values : List (Option Text)} (hne : values ≠ []) :
    write values ≠ endOfData := by
  intro h
  have hvalues : values = [some ['.']] := by
    rw [← read_write hne, h]
    decide +kernel
  subst hvalues
  exact absurd h (by decide)

end CopyLine

open CopyLine

/--
**COPY lines read back.** The fields of any values, with tabs between them, are one line: it holds
no line feed and no carriage return, it is not the line that ends the data, and cutting it at every
tab and reading each piece gives the values, each in its place. Only the missing value has the field
that marks it.
-/
theorem copyLine_reads_back (values : List (Option Text)) (hne : values ≠ []) :
    '\n' ∉ write values ∧ '\r' ∉ write values ∧ write values ≠ endOfData ∧
    ((write values).splitOn '\t').map CopyField.unquote = values ∧
    ∀ v : Option Text, CopyField.quote v = CopyField.null ↔ v = none := by
  refine ⟨not_mem_write rfl (by decide) values, not_mem_write rfl (by decide) values,
    write_ne_endOfData hne, read_write hne, fun v => quote_eq_null_iff⟩

/-- Texts that imitate both marks, a tab, the end of a line and the escape of a tab. -/
theorem copyLine_reads_back_marks :
    let values : List (Option Text) :=
      [some "\\N".toList, none, some "\\.".toList, some "a\tb\\t\r\n".toList, some []]
    values ≠ [] ∧
    write values = "\\\\N\t\\N\t\\\\.\ta\\tb\\\\t\\r\\n\t".toList ∧
    ((write values).splitOn '\t').map CopyField.unquote = values := by
  intro values
  have hne : values ≠ [] := by decide
  obtain ⟨-, -, -, hread, -⟩ := copyLine_reads_back values hne
  exact ⟨hne, by decide +kernel, hread⟩

end SqlText
