import SqlText.Proofs.Change.Rebuild

/-!
# One row, or keys apart

A fragment is read in one of two forms: as one row, its data before its keys, or with the keys
apart. The two forms are one reading, and the first adds a last step to the second, in which the
keys go behind the data. So an error of the second is an error of the first, and what the first adds
is that no key may be a data column: where one is, the fragment is refused for the first such key.

## Main statements

* `read_merged_eq`: reading as one row is reading with the keys apart, and merging.
* `merge_split`: what merging gives.
* `read_merged_of_split`: what is read as one row, told from what is read with the keys apart.
-/

namespace SqlText

namespace Fragment

/-- Puts the keys of a content behind its data. -/
def Content.merge : Content → Except Error Content
  | merged row => .ok (merged row)
  | split keys data => (data.append keys).map merged

/-- **Reading as one row is reading with the keys apart, and merging.** -/
theorem read_merged_eq (op : Operation) (sql : Text) :
    read op false sql = read op true sql >>= Content.merge := by
  have hlast : ∀ keys data : Row,
      (do return .merged (← data.append keys)) = (pure (.split keys data) >>= Content.merge) := by
    intro keys data
    rw [pure_bind, bind_pure_comp]
    rfl
  simp only [read, bind_assoc, hlast, Bool.false_eq_true, if_false, if_true]

/-- Keys that are no data columns go behind the data, and the first other one is refused. -/
theorem merge_split (keys data : Row) :
    match keys.columns.find? (· ∈ data.columns) with
    | none => ∃ m : Row, m.entries = data.entries ++ keys.entries ∧
        (Content.split keys data).merge = .ok (.merged m)
    | some c => (Content.split keys data).merge = .error (.duplicateColumn c) := by
  have happend := data.append_eq keys
  cases hfirst : keys.columns.find? (· ∈ data.columns) with
  | none =>
    rw [hfirst] at happend
    obtain ⟨m, hentries, hm⟩ := happend
    exact ⟨m, hentries, map_eq_ok_iff.2 ⟨m, hm, rfl⟩⟩
  | some c =>
    rw [hfirst] at happend
    exact map_eq_error_iff.2 happend

/--
**The two forms of a fragment agree.** What is refused with the keys apart is refused as one row,
for the same reason. What is read as keys and data is read as one row, the data before the keys, if
no key is a data column; if one is, it is refused for the first key that is. An insert has data and
no keys, a delete has keys and no data, and an update has both.
-/
theorem read_merged_of_split (op : Operation) (sql : Text) :
    (∀ e, read op true sql = .error e → read op false sql = .error e) ∧
    ∀ content, read op true sql = .ok content →
      ∃ keys data : Row, content = .split keys data ∧
        (match keys.columns.find? (· ∈ data.columns) with
        | none => ∃ m : Row, m.entries = data.entries ++ keys.entries ∧
            read op false sql = .ok (.merged m)
        | some c => read op false sql = .error (.duplicateColumn c)) ∧
        match op with
        | .insert => keys.entries = [] ∧ data.entries ≠ []
        | .update => keys.entries ≠ [] ∧ data.entries ≠ []
        | .delete => keys.entries ≠ [] ∧ data.entries = [] := by
  rw [read_merged_eq]
  refine ⟨fun e he => by rw [he]; rfl, fun content hread => ?_⟩
  obtain ⟨ps, data, keys, hps, hdata, hkeys, rfl⟩ := read_split_eq_ok_iff.1 hread
  obtain ⟨hdataEmpty, hkeysEmpty⟩ := isEmpty_iff_of_rows hps hdata hkeys
  rw [bind_of_ok hread]
  refine ⟨keys, data, rfl, merge_split keys data, ?_⟩
  cases op <;> simp [hdataEmpty, hkeysEmpty]

/--
An update that sets its second and its third key, so that it is refused for the second if it is to
be one row, and an update that sets a column twice, refused for it in both forms.
-/
theorem read_merged_of_split_keys_set :
    let moved := "x = 1, \"ID\" = 2 where y = 3 and \"ID\" = 4 and x = 5".toList
    let twice := "x = 1, X = 2 where x = 3".toList
    (∃ keys data : Row, read .update true moved = .ok (.split keys data) ∧
      keys.columns = ["y".toList, "ID".toList, "x".toList] ∧
      data.columns = ["x".toList, "ID".toList] ∧
      read .update false moved = .error (.duplicateColumn "ID".toList)) ∧
    read .update true twice = .error (.duplicateColumn "x".toList) ∧
      read .update false twice = .error (.duplicateColumn "x".toList) := by
  intro moved twice
  let keys : Row := ⟨[("y".toList, some "3".toList), ("ID".toList, some "4".toList),
    ("x".toList, some "5".toList)], by decide⟩
  let data : Row := ⟨[("x".toList, some "1".toList), ("ID".toList, some "2".toList)], by decide⟩
  have hmoved : read .update true moved = .ok (.split keys data) := by decide +kernel
  have htwice : read .update true twice = .error (.duplicateColumn "x".toList) := by
    decide +kernel
  obtain ⟨keys', data', hcontent, hmerged, -⟩ :=
    (read_merged_of_split .update moved).2 _ hmoved
  cases hcontent
  have hfirst : keys.columns.find? (· ∈ data.columns) = some "ID".toList := by decide
  rw [hfirst] at hmerged
  exact ⟨⟨keys, data, hmoved, rfl, rfl, hmerged⟩, htwice,
    (read_merged_of_split .update twice).1 _ htwice⟩

end Fragment

end SqlText
