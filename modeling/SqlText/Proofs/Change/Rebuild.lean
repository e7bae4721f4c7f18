import SqlText.Check
import SqlText.Proofs.Change.Reading

/-!
# Rows written again

A row that was read from a fragment can be written as a statement again, and the fragment of that
statement is read as the same row, its columns in the same order. The checks of single inputs say
when this holds: `Check.row` on a row with the keys to write it by, and `Check.fragment` on a
fragment, whose row is written by its last column or by all of them.

A merged row has its data before its keys, and what is written again comes back in that order. So
an update comes back exactly if its keys are the last columns of the row, with a column left to set,
and a delete exactly if its keys are all columns.

## Main statements

* `Check.row_eq_true_iff`: a row passes if it is read from its own fragment.
* `Check.row_iff_rebuilds`: by which keys a row comes back.
* `Fragment.isEmpty_iff_of_sentence`: which parts of a fragment can be empty.
* `Check.rebuilds_of_read`: the keys that a row of a fragment is written by are such keys.
* `rebuild_stable`: when a row comes back, and that rows of fragments do.
-/

namespace SqlText

open Text

namespace Row

/-- The columns that are no keys, where the keys are the last columns. -/
theorem without_of_append {r : Row} {front found : List (Text × Option Text)}
    (h : r.entries = front ++ found) : (r.without (found.map Prod.fst)).entries = front := by
  have hfront : front.filter (fun e => !(found.map Prod.fst).contains e.1) = front := by
    refine List.filter_eq_self.2 fun e he => ?_
    have hno : e.1 ∉ found.map Prod.fst := by
      intro hmem
      obtain ⟨e', he', heq⟩ := List.mem_map.1 hmem
      exact (nodup_of_append h).2.2 e he e' he' heq.symm
    simpa using hno
  have hfound : found.filter (fun e => !(found.map Prod.fst).contains e.1) = [] := by
    refine List.filter_eq_nil_iff.2 fun e he => ?_
    have hmem : e.1 ∈ found.map Prod.fst := List.mem_map_of_mem he
    simp only [List.contains_eq_mem, hmem, decide_true, Bool.not_true, Bool.false_eq_true,
      not_false_eq_true]
  change r.entries.filter (fun e => !(found.map Prod.fst).contains e.1) = front
  rw [h, List.filter_append, hfront, hfound, List.append_nil]

end Row

/-! ## The fragment of a row's change -/

namespace Check

theorem isOk_iff {α : Type} [BEq α] [LawfulBEq α] {r : Except Error α} {a : α} :
    isOk r a = true ↔ r = .ok a := by
  cases r with
  | ok b => simp [isOk]
  | error e => simp [isOk]

/-- A row passes if it is read from its own fragment. -/
theorem row_eq_true_iff {op : Operation} {r : Row} {keys : List Text} :
    row op r keys = true ↔
      ∃ f, fragmentText? op r keys = some f ∧ Fragment.read op false f = .ok (.merged r) := by
  unfold row
  cases fragmentText? op r keys with
  | none => simp
  | some f => simp [isOk_iff]

/-- The fragment of a statement stands between its start and its semicolon. -/
theorem fragmentText?_of_changeText {op : Operation} {r : Row} {keys : List Text} (head : Text)
    {f : Text} (h : changeText op r keys = .ok (head ++ f ++ [';'], head)) :
    fragmentText? op r keys = some f := by
  have hhead : dropHead? head (head ++ f ++ [';']) = some (f ++ [';']) := by
    have hstarts : head.isPrefixOf (head ++ f ++ [';']) = true :=
      List.isPrefixOf_iff_prefix.2 ⟨f ++ [';'], (List.append_assoc _ _ _).symm⟩
    rw [dropHead?, if_pos hstarts, List.append_assoc, List.drop_left]
  unfold fragmentText?
  rw [h]
  simp only [hhead, Option.bind_eq_bind, Option.bind_some, List.getLast?_concat, if_true,
    List.dropLast_concat]

/-- The fragment of a statement that has keys, if they are found. -/
theorem fragmentText?_eq_some_iff {op : Operation} {s : KeyedStatement} {r : Row}
    {keys : List Text} (head : Text) {f : Text} {write : Change.Record → Text}
    (h : changeText op r keys = (Change.keyed s .ok r.entries keys).map
      fun found => (head ++ write found ++ [';'], head)) :
    fragmentText? op r keys = some f ↔
      ∃ found, Change.keyed s .ok r.entries keys = .ok found ∧ f = write found := by
  cases hfound : Change.keyed s .ok r.entries keys with
  | ok found =>
    rw [hfound] at h
    rw [fragmentText?_of_changeText head h]
    simp [eq_comm]
  | error e =>
    rw [hfound] at h
    rw [fragmentText?, h]
    simp [Except.map]

/-- How statements in the table `t` start. -/
theorem head_table : Change.head .insert ['t'] = "insert into public.t ".toList ∧
    Change.head .update ['t'] = "update only public.t set ".toList ∧
    Change.head .delete ['t'] = "delete from only public.t where ".toList := by
  decide +kernel

theorem fragmentText?_insert (r : Row) (keys : List Text) :
    fragmentText? .insert r keys = some (Change.insertFragment r.entries) := by
  refine fragmentText?_of_changeText (Change.head .insert ['t']) ?_
  rw [← Change.insertText_eq, head_table.1]
  rfl

theorem fragmentText?_update_eq_some_iff {r : Row} {keys : List Text} {f : Text} :
    fragmentText? .update r keys = some f ↔
      ∃ found, Change.keyed .update .ok r.entries keys = .ok found ∧
        f = Change.updateFragment (r.without keys).entries found := by
  refine fragmentText?_eq_some_iff (Change.head .update ['t']) ?_
  simp only [← Change.updateText_eq]
  rw [head_table.2.1]
  unfold changeText Change.update
  cases Change.keyed .update .ok r.entries keys <;> rfl

theorem fragmentText?_delete_eq_some_iff {r : Row} {keys : List Text} {f : Text} :
    fragmentText? .delete r keys = some f ↔
      ∃ found, Change.keyed .delete .ok r.entries keys = .ok found ∧
        f = Change.predicate found := by
  refine fragmentText?_eq_some_iff (Change.head .delete ['t']) ?_
  simp only [← Change.deleteText_eq]
  rw [head_table.2.2]
  unfold changeText Change.delete
  cases Change.keyed .delete .ok r.entries keys <;> rfl

/-! ## When a row comes back -/

theorem row_insert_iff {r : Row} {keys : List Text} :
    row .insert r keys = true ↔ r.entries ≠ [] := by
  rw [row_eq_true_iff]
  constructor
  · rintro ⟨f, hf, hread⟩ hempty
    rw [fragmentText?_insert] at hf
    cases hf
    obtain ⟨ps, hps, -⟩ := Fragment.sentence_of_read hread
    rw [hempty] at hps
    exact Fragment.not_sentence_insertFragment ps hps
  · intro hne
    exact ⟨_, fragmentText?_insert r keys, (Fragment.read_insertFragment hne).2⟩

/-- A row comes back if the keys that it is written by are its last columns. -/
theorem row_update_of_append {r : Row} {front found : Change.Record}
    (he : r.entries = front ++ found) (hfront : front ≠ []) (hfound : found ≠ []) :
    row .update r (found.map Prod.fst) = true := by
  have hkeyed := Change.keyed_of_mem .update r.nodup hfound fun e hmem => by
    rw [he]
    exact List.mem_append_right front hmem
  have hwithout := Row.without_of_append he
  have hset : ∃ c ∈ r.columns, c ∉ found.map Prod.fst := by
    refine Row.without_ne_nil_iff.1 ?_
    rwa [hwithout]
  obtain ⟨ks, ds, m, rfl, rfl, hm, -, hmerged⟩ :=
    read_updateFragment hfound (Row.nodup_of_append he).2.1 hset
  obtain rfl : m = r := by
    refine Row.ext ?_
    rw [hm, hwithout, he]
  exact row_eq_true_iff.2 ⟨_, fragmentText?_update_eq_some_iff.2 ⟨_, hkeyed, rfl⟩, hmerged⟩

theorem row_update_iff {r : Row} {keys : List Text} :
    row .update r keys = true ↔ keys ≠ [] ∧ keys <:+ r.columns ∧ keys ≠ r.columns := by
  constructor
  · intro h
    obtain ⟨f, hf, hread⟩ := row_eq_true_iff.1 h
    obtain ⟨found, hfound, rfl⟩ := fragmentText?_update_eq_some_iff.1 hf
    have hne := Change.ne_nil_of_keyed hfound
    obtain ⟨rfl, -⟩ := Change.columns_of_keyed hfound
    obtain ⟨hnodup, c, hc, hno⟩ := nodup_of_read_updateFragment hne hread
    obtain ⟨ks, ds, m, rfl, rfl, hm, -, hmerged⟩ :=
      read_updateFragment hne hnodup ⟨c, hc, hno⟩
    -- the row that is read has the keys behind the other columns
    obtain rfl : m = r := by
      rw [hread] at hmerged
      cases hmerged
      rfl
    refine ⟨by simpa using hne, ?_, fun he => hno (he ▸ hc)⟩
    refine ⟨(m.without (ks.entries.map Prod.fst)).columns, ?_⟩
    rw [Row.columns, Row.columns, ← List.map_append, ← hm]
  · rintro ⟨hne, ⟨columns, hcolumns⟩, hproper⟩
    obtain ⟨front, found, he, rfl, rfl⟩ := List.map_eq_append_iff.1 hcolumns.symm
    refine row_update_of_append he ?_ ?_
    · rintro rfl
      exact hproper hcolumns
    · rintro rfl
      exact hne rfl

theorem row_delete_iff {r : Row} {keys : List Text} :
    row .delete r keys = true ↔ r.entries ≠ [] ∧ keys = r.columns := by
  rw [row_eq_true_iff]
  constructor
  · rintro ⟨f, hf, hread⟩
    obtain ⟨found, hfound, rfl⟩ := fragmentText?_delete_eq_some_iff.1 hf
    have hne := Change.ne_nil_of_keyed hfound
    obtain ⟨rfl, -⟩ := Change.columns_of_keyed hfound
    have hnodup := Fragment.nodup_of_read (Fragment.sentence_predicate hne) hread
    obtain ⟨ks, rfl, -, hmerged⟩ := Fragment.read_predicate hne hnodup
    rw [hread] at hmerged
    cases hmerged
    exact ⟨hne, rfl⟩
  · rintro ⟨hne, rfl⟩
    have hkeyed := Change.keyed_of_mem .delete r.nodup hne fun e he => he
    obtain ⟨ks, he, -, hmerged⟩ := Fragment.read_predicate hne r.nodup
    obtain rfl : ks = r := Row.ext he
    exact ⟨_, fragmentText?_delete_eq_some_iff.2 ⟨_, hkeyed, rfl⟩, hmerged⟩

/--
Whether a row comes back from its own statement: an insert has columns, the keys of an update are
the last columns but not all of them, and those of a delete are all columns.
-/
def Rebuilds (r : Row) (keys : List Text) : Operation → Prop
  | .insert => r.entries ≠ []
  | .update => keys ≠ [] ∧ keys <:+ r.columns ∧ keys ≠ r.columns
  | .delete => r.entries ≠ [] ∧ keys = r.columns

/-- **A row comes back exactly if its keys fit it.** -/
theorem row_iff_rebuilds (op : Operation) (r : Row) (keys : List Text) :
    row op r keys = true ↔ Rebuilds r keys op := by
  cases op with
  | insert => exact row_insert_iff
  | update => exact row_update_iff
  | delete => exact row_delete_iff

end Check

/-! ## Rows of fragments -/

namespace Fragment

/-- **Only a delete has no data and only an insert has no keys.** -/
theorem isEmpty_iff_of_sentence {op : Operation} {ts : List Token} {ps : Pairs}
    (h : Sentence op ts ps) : (ps.data = [] ↔ op = .delete) ∧ (ps.keys = [] ↔ op = .insert) := by
  cases h with
  | @insert o c w o' c' cs vs columns values _ hcs _ _ _ hvs _ _ =>
    have hdata : columns.zip values ≠ [] := by
      rw [Ne, List.zip_eq_nil_iff, not_or]
      exact ⟨hcs.ne_nil, hvs.ne_nil⟩
    simp [hdata]
  | update hds _ hks => simp [hds.ne_nil, hks.ne_nil]
  | delete hks => simp [hks.ne_nil]

/-- So it is with the rows that are read. -/
theorem isEmpty_iff_of_rows {op : Operation} {sql : Text} {ps : Pairs} {ds ks : Row}
    (h : Sentence op (tokens sql) ps) (hdata : toRow ps.data = .ok ds)
    (hkeys : toRow ps.keys = .ok ks) :
    (ds.entries = [] ↔ op = .delete) ∧ (ks.entries = [] ↔ op = .insert) := by
  have hempty : ∀ {qs : List Pair} {es : List (Text × Option Text)} {r : Row},
      List.Forall₂ Reads qs es → toRow qs = .ok r → (r.entries = [] ↔ qs = []) := by
    intro qs es r hreads hrow
    rw [(toRow_eq_ok_iff hreads).1 hrow, ← List.length_eq_zero_iff, ← hreads.length_eq,
      List.length_eq_zero_iff]
  obtain ⟨⟨des, hdes⟩, kes, hkes⟩ := exists_reads_of_sentence h
  rw [hempty hdes hdata, hempty hkes hkeys]
  exact isEmpty_iff_of_sentence h

end Fragment

namespace Check

/-- The row of a fragment comes back, written by its last column or by all. -/
theorem rebuilds_of_read {op : Operation} {sql : Text} {r : Row}
    (h : Fragment.read op false sql = .ok (.merged r)) : Rebuilds r (keysOf op r) op := by
  obtain ⟨ps, ds, ks, m, hps, hdata, hkeys, hm, he⟩ := Fragment.read_merged_eq_ok_iff.1 h
  cases he
  have hentries := Row.append_eq_ok_iff.1 hm
  obtain ⟨hds, hks⟩ := Fragment.isEmpty_iff_of_rows hps hdata hkeys
  cases op with
  | insert =>
    have hne : ds.entries ≠ [] := by simp [hds]
    change r.entries ≠ []
    rw [hentries]
    exact List.append_ne_nil_of_left_ne_nil hne _
  | update =>
    have hdne : ds.entries ≠ [] := by simp [hds]
    have hkne : ks.entries ≠ [] := by simp [hks]
    -- the last column is a key, and a data column stands before it
    obtain ⟨front, e, hlast⟩ := (List.eq_nil_or_concat' ks.entries).resolve_left hkne
    have hcolumns : r.columns = (ds.entries ++ front).map Prod.fst ++ [e.1] := by
      rw [Row.columns, hentries, hlast, ← List.append_assoc, List.map_append]
      rfl
    have hkey : keysOf .update r = [e.1] := by
      rw [keysOf, hcolumns, List.getLast?_concat]
      rfl
    rw [hkey]
    refine ⟨List.cons_ne_nil _ _, ⟨_, hcolumns.symm⟩, fun he => ?_⟩
    rw [hcolumns] at he
    have hnil : (ds.entries ++ front).map Prod.fst = [] := by
      have hlen := congrArg List.length he
      rw [List.length_append, List.length_singleton] at hlen
      exact List.length_eq_zero_iff.1 (by omega)
    exact hdne (List.append_eq_nil_iff.1 (List.map_eq_nil_iff.1 hnil)).1
  | delete =>
    have hne : ks.entries ≠ [] := by simp [hks]
    refine ⟨?_, rfl⟩
    rw [hentries]
    exact List.append_ne_nil_of_right_ne_nil _ hne

/-- **No fragment fails its check.** -/
theorem fragment_eq_true (op : Operation) (splitKeys : Bool) (sql : Text) :
    fragment op splitKeys sql = true := by
  unfold fragment
  split
  · rfl
  · next r hread =>
    cases splitKeys with
    | true =>
      obtain ⟨ps, ds, ks, -, -, -, he⟩ := Fragment.read_split_eq_ok_iff.1 hread
      cases he
    | false => exact (row_iff_rebuilds _ _ _).2 (rebuilds_of_read hread)
  · next keys data hread =>
    cases splitKeys with
    | true =>
      obtain ⟨ps, ds, ks, hps, hdata, hkeys, he⟩ := Fragment.read_split_eq_ok_iff.1 hread
      cases he
      obtain ⟨hds, hks⟩ := Fragment.isEmpty_iff_of_rows hps hdata hkeys
      cases op with
      | insert => simp [hks.2 rfl]
      | update => rfl
      | delete => simp [hds.2 rfl]
    | false =>
      obtain ⟨ps, ds, ks, m, -, -, -, -, he⟩ := Fragment.read_merged_eq_ok_iff.1 hread
      cases he

end Check

/--
**Fragments are stable under rebuilding.** A row comes back from the fragment of its own statement,
its columns in order, exactly if the keys that it is written by are its last columns: some but not
all of them for an update, all of them for a delete. So the check of a fragment never fails: every
merged row that is read, written again by its last column or by all of them, is read as the same
row.
-/
theorem rebuild_stable (op : Operation) :
    (∀ r keys, Check.row op r keys = true ↔ Check.Rebuilds r keys op) ∧
    (∀ splitKeys sql, Check.fragment op splitKeys sql = true) ∧
    ∀ sql r, Fragment.read op false sql = .ok (.merged r) →
      ∃ f, Check.fragmentText? op r (Check.keysOf op r) = some f ∧
        Fragment.read op false f = .ok (.merged r) := by
  refine ⟨Check.row_iff_rebuilds op, Check.fragment_eq_true op, fun sql r h => ?_⟩
  exact Check.row_eq_true_iff.1 ((Check.row_iff_rebuilds op r _).2 (Check.rebuilds_of_read h))

/--
An update comes back if it is written by its last column, though it was read with two keys, and not
if it is written by its first one.
-/
theorem rebuild_stable_two_keys :
    let sql := "a = 'it''s', \"B\" = null where \"where\" = E'\\\\' and id = 1".toList
    ∃ r : Row, r.entries = [("a".toList, some "it's".toList), ("B".toList, none),
        ("where".toList, some "\\".toList), ("id".toList, some "1".toList)] ∧
      Fragment.read .update false sql = .ok (.merged r) ∧
      Check.keysOf .update r = ["id".toList] ∧
      (∃ f, Check.fragmentText? .update r ["id".toList] = some f ∧
        Fragment.read .update false f = .ok (.merged r)) ∧
      Check.row .update r ["where".toList, "id".toList] = true ∧
      Check.row .update r ["a".toList] = false := by
  intro sql
  let r : Row := ⟨[("a".toList, some "it's".toList), ("B".toList, none),
    ("where".toList, some "\\".toList), ("id".toList, some "1".toList)], by decide⟩
  have hread : Fragment.read .update false sql = .ok (.merged r) := by decide +kernel
  obtain ⟨hrow, -, hback⟩ := rebuild_stable .update
  refine ⟨r, rfl, hread, rfl, hback sql r hread, (hrow r _).2 ?_, ?_⟩
  · exact ⟨by decide, ⟨["a".toList, "B".toList], rfl⟩, by decide⟩
  · exact Bool.eq_false_iff.2 fun h => absurd ((hrow r _).1 h).2.1 (by decide)

end SqlText
