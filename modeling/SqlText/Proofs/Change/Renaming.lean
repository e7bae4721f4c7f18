import Mathlib.Data.List.Nodup
import SqlText.Proofs.Row

/-!
# Statements with renamed columns

A statement can be written from a record whose columns have other names in the table. It is then the
statement of the renamed record: the one that has each mapped column under its name in the table,
with the value that the record has for it, in the order of the map.

The two are found in different ways. With a map, keys are told from other columns by their names in
the record, values are looked up in the record, and the order is that of the map; without one, all
this is done on the renamed record, by the names in the table. They agree since the map takes no two
columns to one name (`Renames`).

## Main statements

* `mapped_eq_ok_iff`: the renamed record.
* `Renames.mem_keys_iff`: a column is a key if it is one under its other name.
* `Renames.exists_keyed`: the renamed record has the keys, each with its value.
* `Renames.mapped_filter`: the columns that are no keys are those of the renamed record.
* `mapped_eq_renamed`: statements with a map are statements of the renamed record.
-/

namespace SqlText

namespace Change

/-! ## Records under other names -/

/-- **A record is renamed column by column**, in the order of the map. -/
theorem mapped_eq_ok_iff {r : Record} {m : FieldMap} {renamed : Record} :
    mapped r m = .ok renamed ↔
      List.Forall₂ (fun e p => p.1 = e.2 ∧ find r e.1 = .ok p.2) m renamed := by
  have hstep : ∀ (e : Text × Text) (p : Text × Option Text),
      (do return (e.2, ← find r e.1)) = Except.ok p ↔ p.1 = e.2 ∧ find r e.1 = .ok p.2 := by
    intro e p
    constructor
    · intro h
      obtain ⟨v, hv, hresult⟩ := bind_eq_ok_iff.1 h
      cases hresult
      exact ⟨rfl, hv⟩
    · rintro ⟨hname, hv⟩
      refine bind_eq_ok_iff.2 ⟨p.2, hv, ?_⟩
      rw [← hname]
      rfl
  simp only [mapped, mapM_eq_ok_iff, hstep]

/-- A record under other names has the names of the map. -/
theorem columns_of_mapped {r : Record} {m : FieldMap} {renamed : Record}
    (h : mapped r m = .ok renamed) : renamed.map Prod.fst = m.map Prod.snd := by
  induction mapped_eq_ok_iff.1 h with
  | nil => rfl
  | cons hp hrest ih =>
    rw [List.map_cons, List.map_cons, hp.1, ih (mapped_eq_ok_iff.2 hrest)]

/-- Columns under their own names are the columns. -/
theorem mapped_self {r es : Record} (h : ∀ e ∈ es, find r e.1 = .ok e.2) :
    mapped r (es.map fun e => (e.1, e.1)) = .ok es :=
  mapped_eq_ok_iff.2 (List.forall₂_map_left_iff.2 (List.forall₂_same.2 fun e he => ⟨rfl, h e he⟩))

/-! ## Maps that take no two columns to one name -/

/-- Whether a map gives columns of a record, all keys among them, a name of its own each. -/
structure Renames (m : FieldMap) (r : Record) (keys : List Text) : Prop where
  /-- No column is mapped twice. -/
  sources_nodup : (m.map Prod.fst).Nodup
  /-- No two columns get the same name. -/
  targets_nodup : (m.map Prod.snd).Nodup
  /-- Mapped columns are columns of the record. -/
  source_mem : ∀ e ∈ m, e.1 ∈ r.map Prod.fst
  /-- Keys are mapped. -/
  key_mem : ∀ k ∈ keys, k ∈ m.map Prod.fst

namespace Renames

variable {m : FieldMap} {r renamed : Record} {keys keys' : List Text}

theorem exists_mapped (h : Renames m r keys) : ∃ renamed, mapped r m = .ok renamed := by
  have hpartner : ∀ e ∈ m, ∃ p : Text × Option Text, p.1 = e.2 ∧ find r e.1 = .ok p.2 := by
    intro e he
    obtain ⟨v, hv⟩ := exists_find_iff.2 (h.source_mem e he)
    exact ⟨(e.2, v), rfl, hv⟩
  obtain ⟨renamed, hrenamed⟩ := exists_forall₂ hpartner
  exact ⟨renamed, mapped_eq_ok_iff.2 hrenamed⟩

theorem exists_keys (h : Renames m r keys) :
    ∃ keys', List.Forall₂ (fun k k' => find m k = .ok k') keys keys' :=
  exists_forall₂ fun k hk => exists_find_iff.2 (h.key_mem k hk)

/-- **A column is a key if it is one under its other name.** -/
theorem mem_keys_iff (h : Renames m r keys)
    (hkeys : List.Forall₂ (fun k k' => find m k = .ok k') keys keys') {e : Text × Text}
    (he : e ∈ m) : e.2 ∈ keys' ↔ e.1 ∈ keys := by
  constructor
  · intro hmem
    obtain ⟨k, hk, hfind⟩ := exists_partner (List.Forall₂.flip hkeys) hmem
    -- the key has the same name in the table, so it is the same column
    have hsame : (k, e.2) = e :=
      List.inj_on_of_nodup_map h.targets_nodup (mem_of_find hfind) he rfl
    rwa [← hsame]
  · intro hmem
    obtain ⟨k', hk', hfind⟩ := exists_partner hkeys hmem
    rw [find_of_mem h.sources_nodup he] at hfind
    cases hfind
    exact hk'

/-- **The renamed record has the keys under their other names**, each with its value. -/
theorem exists_keyed (h : Renames m r keys) (s : KeyedStatement) (hne : keys ≠ [])
    (hmapped : mapped r m = .ok renamed)
    (hkeys : List.Forall₂ (fun k k' => find m k = .ok k') keys keys') :
    ∃ found, keyed s (find m) r keys = .ok found ∧ keyed s .ok renamed keys' = .ok found := by
  have hpartner : ∀ k ∈ keys, ∃ e : Text × Option Text,
      find r k = .ok e.2 ∧ find m k = .ok e.1 := by
    intro k hk
    obtain ⟨k', hk'⟩ := exists_find_iff.2 (h.key_mem k hk)
    obtain ⟨v, hv⟩ := exists_find_iff.2 (h.source_mem _ (mem_of_find hk'))
    exact ⟨(k', v), hv, hk'⟩
  obtain ⟨found, hfound⟩ := exists_forall₂ hpartner
  have hkeyed : keyed s (find m) r keys = .ok found := keyed_eq_ok_iff.2 ⟨hne, hfound⟩
  have hnames : keys' = found.map Prod.fst := by
    refine List.right_unique_forall₂' ?_ hkeys
      (List.forall₂_map_right_iff.2 (hfound.imp fun k e he => he.2))
    intro k a b ha hb
    exact Except.ok.inj (ha.symm.trans hb)
  have hmem : ∀ e ∈ found, e ∈ renamed := by
    intro e he
    obtain ⟨k, -, hvalue, hname⟩ := exists_partner (List.Forall₂.flip hfound) he
    obtain ⟨p, hp, hpname, hpvalue⟩ :=
      exists_partner (mapped_eq_ok_iff.1 hmapped) (mem_of_find hname)
    have hsame : p = e := Prod.ext hpname (Except.ok.inj (hpvalue.symm.trans hvalue))
    exact hsame ▸ hp
  have hnodup : (renamed.map Prod.fst).Nodup := by
    rw [columns_of_mapped hmapped]
    exact h.targets_nodup
  rw [hnames]
  exact ⟨found, hkeyed, keyed_of_mem s hnodup (ne_nil_of_keyed hkeyed) hmem⟩

/-- **The columns to set are those of the renamed record that are no keys.** -/
theorem mapped_filter (h : Renames m r keys) (hmapped : mapped r m = .ok renamed)
    (hkeys : List.Forall₂ (fun k k' => find m k = .ok k') keys keys') :
    mapped r (m.filter fun e => !keys.contains e.1)
      = .ok (renamed.filter fun e => !keys'.contains e.1) := by
  have hentries : List.Forall₂ (fun (e : Text × Text) (p : Text × Option Text) =>
      e ∈ m ∧ p.1 = e.2 ∧ find r e.1 = .ok p.2) m renamed :=
    (List.forall₂_and_left _ _).2 ⟨fun e he => he, mapped_eq_ok_iff.1 hmapped⟩
  have hagree : ∀ ⦃e : Text × Text⦄ ⦃p : Text × Option Text⦄,
      (e ∈ m ∧ p.1 = e.2 ∧ find r e.1 = .ok p.2) →
      ((!keys.contains e.1) = true ↔ (!keys'.contains p.1) = true) := by
    rintro e p ⟨he, hname, -⟩
    simp [hname, h.mem_keys_iff hkeys he]
  exact mapped_eq_ok_iff.2 ((List.rel_filter hagree hentries).imp fun e p hp => hp.2)

end Renames

/-! ## Statements -/

/-- Keys have the names that a map gives them, if it keeps the names of all columns. -/
theorem keyed_self (s : KeyedStatement) {r : Record} {m : FieldMap}
    (h : ∀ k ∈ r.map Prod.fst, find m k = .ok k) (keys : List Text) :
    keyed s (find m) r keys = keyed s .ok r keys := by
  have hstep : ∀ k : Text, (do let value ← find r k; return (← find m k, value))
      = (do let value ← find r k; return (← Except.ok k, value)) := by
    intro k
    cases hv : find r k with
    | error e => rfl
    | ok v => rw [h k (exists_find_iff.1 ⟨v, hv⟩)]
  simp only [keyed, hstep]

/--
**A statement with a map is the statement of the renamed record.** Let a map give columns of a
record, all keys among them, a name of its own each. Then the record has a renamed form, each name
of the map with the first value of the column that it stands for, in the order of the map, and the
keys have other names. The update and the delete that are written with the map are the ones that
are written from the renamed form and its keys, and they are written. A map that keeps the names of
all columns, where these differ, changes no statement and no error.
-/
theorem mapped_eq_renamed (r : Record) (table : Text) (keys : List Text) :
    (∀ m : FieldMap, Renames m r keys → keys ≠ [] →
      ∃ (renamed : Record) (keys' : List Text),
        List.Forall₂ (fun e p => p.1 = e.2 ∧ r.lookup e.1 = some p.2) m renamed ∧
        List.Forall₂ (fun k k' => (k, k') ∈ m) keys keys' ∧
        (∃ sql, updateMapped r table keys m = .ok sql ∧ update renamed table keys' = .ok sql) ∧
        ∃ sql, deleteMapped r table keys m = .ok sql ∧ delete renamed table keys' = .ok sql) ∧
    ((r.map Prod.fst).Nodup →
      let same : FieldMap := r.map fun e => (e.1, e.1)
      insertMapped r table same = .ok (insert r table) ∧
        updateMapped r table keys same = update r table keys ∧
        deleteMapped r table keys same = delete r table keys) := by
  refine ⟨fun m h hne => ?_, fun hnodup => ?_⟩
  · obtain ⟨renamed, hmapped⟩ := h.exists_mapped
    obtain ⟨keys', hkeys⟩ := h.exists_keys
    have hfirst : List.Forall₂ (fun e p => p.1 = e.2 ∧ r.lookup e.1 = some p.2) m renamed :=
      (mapped_eq_ok_iff.1 hmapped).imp fun e p hp => ⟨hp.1, find_eq_ok_iff.1 hp.2⟩
    refine ⟨renamed, keys', hfirst, hkeys.imp fun k k' hk => mem_of_find hk, ?_, ?_⟩
    · obtain ⟨found, hfound, hfound'⟩ := h.exists_keyed .update hne hmapped hkeys
      refine ⟨updateText table (renamed.filter fun e => !keys'.contains e.1) found, ?_, ?_⟩
      · rw [updateMapped, bind_of_ok hfound, bind_of_ok (h.mapped_filter hmapped hkeys)]
        rfl
      · rw [update, bind_of_ok hfound']
        rfl
    · obtain ⟨found, hfound, hfound'⟩ := h.exists_keyed .delete hne hmapped hkeys
      refine ⟨deleteText table found, ?_, ?_⟩
      · rw [deleteMapped, bind_of_ok hfound]
        rfl
      · rw [delete, bind_of_ok hfound']
        rfl
  · intro same
    have hsame : ∀ k ∈ r.map Prod.fst, find same k = .ok k := by
      intro k hk
      obtain ⟨e, he, rfl⟩ := List.mem_map.1 hk
      have hsources : (same.map Prod.fst).Nodup := by rwa [List.map_map]
      exact find_of_mem hsources (List.mem_map.2 ⟨e, he, rfl⟩)
    have hset : ∀ es : Record, (∀ e ∈ es, e ∈ r) →
        mapped r (es.map fun e => (e.1, e.1)) = .ok es :=
      fun es hes => mapped_self fun e he => find_of_mem hnodup (hes e he)
    have hfilter : same.filter (fun e => !keys.contains e.1)
        = (r.filter fun e => !keys.contains e.1).map fun e => (e.1, e.1) := List.filter_map
    refine ⟨?_, ?_, ?_⟩
    · rw [insertMapped, bind_of_ok (hset r fun e he => he)]
      rfl
    · simp only [updateMapped, update, keyed_self .update hsame, hfilter,
        hset _ fun e he => (List.mem_filter.1 he).1]
      rfl
    · rw [deleteMapped, delete, keyed_self .delete hsame]

/--
A record that has a key twice, the names of two columns exchanged; and a record under its own names,
with a key that it does not have.
-/
theorem mapped_eq_renamed_exchanged :
    let r : Record := [("id".toList, some "1".toList), ("a".toList, some "x".toList),
      ("id".toList, some "2".toList), ("b".toList, none)]
    let m : FieldMap := [("b".toList, "a".toList), ("id".toList, "Key".toList),
      ("a".toList, "b".toList)]
    let sql := "update only public.t set a = null, b = 'x' where \"Key\" = '1';".toList
    let plain : Record := [("id".toList, some "1".toList), ("a".toList, none)]
    let same : FieldMap := [("id".toList, "id".toList), ("a".toList, "a".toList)]
    Renames m r ["id".toList] ∧
    (∃ (renamed : Record) (keys' : List Text),
      List.Forall₂ (fun e p => p.1 = e.2 ∧ r.lookup e.1 = some p.2) m renamed ∧
      List.Forall₂ (fun k k' => (k, k') ∈ m) ["id".toList] keys' ∧
      updateMapped r "t".toList ["id".toList] m = .ok sql ∧
      update renamed "t".toList keys' = .ok sql) ∧
    updateMapped plain "t".toList ["x".toList] same = update plain "t".toList ["x".toList] ∧
    update plain "t".toList ["x".toList] = .error (.unknownColumn "x".toList) := by
  intro r m sql plain same
  have hrenames : Renames m r ["id".toList] := ⟨by decide, by decide, by decide, by decide⟩
  have hwritten : updateMapped r "t".toList ["id".toList] m = .ok sql := by decide +kernel
  obtain ⟨renamed, keys', hrenamed, hkeys, ⟨sql', hmapped, hplain⟩, -⟩ :=
    (mapped_eq_renamed r "t".toList ["id".toList]).1 m hrenames (by decide)
  cases hwritten.symm.trans hmapped
  have hsame := (mapped_eq_renamed plain "t".toList ["x".toList]).2 (by decide)
  exact ⟨hrenames, ⟨renamed, keys', hrenamed, hkeys, hwritten, hplain⟩, hsame.2.1, by decide⟩

end Change

end SqlText
