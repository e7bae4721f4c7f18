import SqlText.Change.Statement
import SqlText.Proofs.Result
import SqlText.Row

/-!
# Rows that are put together

A row grows by one column after another, and a column that is already there is refused. So adding
columns gives a row exactly when all columns differ, and the row is the old one with the new columns
behind it: order and values survive.

The keys of a statement are looked up in a row one by one, in the order in which they are asked for.

## Main statements

* `Row.nodup_of_append`: the columns of a row cut in two.
* `Row.addAll_eq_ok_iff`: what adding columns gives.
* `Row.exists_addAll_iff`: when it gives something.
* `Row.addAll_eq_error_iff`: for which column it is refused.
* `Row.append_eq`: a row behind another, or the first column that they share.
* `Change.keyed_eq_ok_iff`: which keys are found, and with which values.
* `Change.keyed_of_mem`: columns that differ are found as keys.
-/

namespace SqlText

namespace Row

theorem ext {r r' : Row} (h : r.entries = r'.entries) : r = r' := by
  cases r
  cases r'
  cases h
  rfl

/-- A row cut in two has distinct columns in each part, and no column in both. -/
theorem nodup_of_append {r : Row} {front back : List (Text × Option Text)}
    (h : r.entries = front ++ back) :
    (front.map Prod.fst).Nodup ∧ (back.map Prod.fst).Nodup ∧
      ∀ e ∈ front, ∀ e' ∈ back, e.1 ≠ e'.1 := by
  have hnodup := r.nodup
  rw [h, List.map_append, List.nodup_append] at hnodup
  refine ⟨hnodup.1, hnodup.2.1, fun e he e' he' => ?_⟩
  exact hnodup.2.2 e.1 (List.mem_map_of_mem he) e'.1 (List.mem_map_of_mem he')

/-- Adding a column puts it at the end. -/
theorem add_eq_ok_iff {r r' : Row} {column : Text} {value : Option Text} :
    r.add column value = .ok r' ↔ r'.entries = r.entries ++ [(column, value)] := by
  unfold add
  split
  · next h =>
    constructor
    · exact nofun
    · intro he
      -- the new row would have the column twice
      obtain ⟨e, hmem, rfl⟩ := List.mem_map.1 h
      exact absurd rfl ((nodup_of_append he).2.2 e hmem (e.1, value) (by simp))
  · constructor
    · intro h
      cases h
      rfl
    · intro he
      exact congrArg Except.ok (ext he.symm)

/-- Adds columns at the end, one after another. -/
def addAll (r : Row) (es : List (Text × Option Text)) : Except Error Row :=
  es.foldlM (fun r e => r.add e.1 e.2) r

theorem addAll_cons (r : Row) (e : Text × Option Text) (es : List (Text × Option Text)) :
    r.addAll (e :: es) = r.add e.1 e.2 >>= (·.addAll es) := List.foldlM_cons

/-- **Adding columns keeps the row and puts them behind it**, in their order. -/
theorem addAll_eq_ok_iff {r r' : Row} {es : List (Text × Option Text)} :
    r.addAll es = .ok r' ↔ r'.entries = r.entries ++ es := by
  induction es generalizing r with
  | nil =>
    rw [List.append_nil]
    constructor
    · intro h
      cases h
      rfl
    · intro he
      exact congrArg Except.ok (ext he.symm)
  | cons e es ih =>
    rw [addAll_cons, bind_eq_ok_iff]
    constructor
    · rintro ⟨r₁, hadd, hall⟩
      rw [ih.1 hall, add_eq_ok_iff.1 hadd, List.append_assoc, List.singleton_append]
    · intro he
      -- the part of the new row up to `e` is the row after one step
      rw [List.append_cons] at he
      have hnodup : ((r.entries ++ [e]).map Prod.fst).Nodup := by
        refine r'.nodup.sublist (List.Sublist.map _ ?_)
        rw [he]
        exact List.sublist_append_left _ _
      exact ⟨⟨r.entries ++ [e], hnodup⟩, add_eq_ok_iff.2 rfl, ih.2 he⟩

/-- Appending a row puts its columns behind those of the other. -/
theorem append_eq_ok_iff {r s r' : Row} :
    r.append s = .ok r' ↔ r'.entries = r.entries ++ s.entries := addAll_eq_ok_iff

/-- Columns can be added if they are new and differ. -/
theorem exists_addAll_iff {r : Row} {es : List (Text × Option Text)} :
    (∃ r', r.addAll es = .ok r') ↔ ((r.entries ++ es).map Prod.fst).Nodup := by
  constructor
  · rintro ⟨r', h⟩
    rw [← addAll_eq_ok_iff.1 h]
    exact r'.nodup
  · intro h
    exact ⟨⟨r.entries ++ es, h⟩, addAll_eq_ok_iff.2 rfl⟩

/-- A column that is already there is refused, and no other one. -/
theorem add_eq_error_iff {r : Row} {column : Text} {value : Option Text} {e : Error} :
    r.add column value = .error e ↔ column ∈ r.columns ∧ e = .duplicateColumn column := by
  unfold add
  split
  · next h =>
    constructor
    · intro he
      exact ⟨h, (Except.error.inj he).symm⟩
    · rintro ⟨-, rfl⟩
      rfl
  · next h => exact ⟨nofun, fun he => absurd he.1 h⟩

theorem addAll_append (r : Row) (es fs : List (Text × Option Text)) :
    r.addAll (es ++ fs) = r.addAll es >>= (·.addAll fs) := List.foldlM_append

/-- **Columns are refused for the first one that is already there**, in the row or before it. -/
theorem addAll_eq_error_iff {r : Row} {es : List (Text × Option Text)} {e : Error} :
    r.addAll es = .error e ↔
      ∃ before entry behind, es = before ++ entry :: behind ∧
        ((r.entries ++ before).map Prod.fst).Nodup ∧
        entry.1 ∈ (r.entries ++ before).map Prod.fst ∧ e = .duplicateColumn entry.1 := by
  constructor
  · intro h
    induction es generalizing r with
    | nil => cases h
    | cons entry es ih =>
      rw [addAll_cons] at h
      rcases bind_eq_error_iff.1 h with hadd | ⟨r₁, hadd, hall⟩
      · obtain ⟨hmem, he⟩ := add_eq_error_iff.1 hadd
        refine ⟨[], entry, es, rfl, ?_, ?_, he⟩
        · rw [List.append_nil]
          exact r.nodup
        · rwa [List.append_nil]
      · obtain ⟨before, entry', behind, rfl, hnodup, hmem, he⟩ := ih hall
        rw [add_eq_ok_iff.1 hadd, List.append_assoc, List.singleton_append] at hnodup hmem
        exact ⟨entry :: before, entry', behind, rfl, hnodup, hmem, he⟩
  · rintro ⟨before, entry, behind, rfl, hnodup, hmem, rfl⟩
    obtain ⟨r', hr'⟩ := exists_addAll_iff.2 hnodup
    have hmem' : entry.1 ∈ r'.columns := by rwa [columns, addAll_eq_ok_iff.1 hr']
    have hadd : r'.add entry.1 entry.2 = .error (.duplicateColumn entry.1) :=
      add_eq_error_iff.2 ⟨hmem', rfl⟩
    rw [addAll_append, bind_of_ok hr', addAll_cons, hadd]
    rfl

/-- Adding columns fails only at one of them. -/
theorem addAll_eq_error {r : Row} {es : List (Text × Option Text)} {e : Error}
    (h : r.addAll es = .error e) : ∃ c ∈ es.map Prod.fst, e = .duplicateColumn c := by
  obtain ⟨before, entry, behind, rfl, -, -, he⟩ := addAll_eq_error_iff.1 h
  exact ⟨entry.1, by simp, he⟩

/-- Columns of another row go behind a row without a clash, if none of them is there. -/
theorem nodup_append_of_new {r s : Row} {front : List (Text × Option Text)}
    (hfront : front.Sublist s.entries) (hnew : ∀ e ∈ front, e.1 ∉ r.columns) :
    ((r.entries ++ front).map Prod.fst).Nodup := by
  rw [List.map_append, List.nodup_append]
  refine ⟨r.nodup, s.nodup.sublist (hfront.map _), ?_⟩
  rintro a ha b hb rfl
  obtain ⟨e, he, rfl⟩ := List.mem_map.1 hb
  exact hnew e he ha

/--
**A row goes behind another unless the two share a column.** Then it is refused, for the first of
its columns that the other one has.
-/
theorem append_eq (r s : Row) :
    match s.columns.find? (· ∈ r.columns) with
    | none => ∃ m : Row, m.entries = r.entries ++ s.entries ∧ r.append s = .ok m
    | some c => r.append s = .error (.duplicateColumn c) := by
  split
  · next hnone =>
    have hnew : ∀ e ∈ s.entries, e.1 ∉ r.columns := by
      intro e he
      simpa using List.find?_eq_none.1 hnone e.1 (List.mem_map_of_mem he)
    obtain ⟨m, hm⟩ := exists_addAll_iff.2 (nodup_append_of_new (List.Sublist.refl _) hnew)
    exact ⟨m, addAll_eq_ok_iff.1 hm, hm⟩
  · next c hsome =>
    -- the column found cuts the entries in two, and nothing before it is shared
    obtain ⟨hc, as, bs, hcolumns, hnew⟩ := List.find?_eq_some_iff_append.1 hsome
    obtain ⟨before, rest, hentries, rfl, hrest⟩ := List.map_eq_append_iff.1 hcolumns
    obtain ⟨entry, behind, rfl, rfl, -⟩ := List.map_eq_cons_iff.1 hrest
    have hfront : before.Sublist s.entries := by
      rw [hentries]
      exact List.sublist_append_left _ _
    have hbefore : ∀ e ∈ before, e.1 ∉ r.columns := by
      intro e he
      simpa using hnew e.1 (List.mem_map_of_mem he)
    have hmem : entry.1 ∈ (r.entries ++ before).map Prod.fst := by
      rw [List.map_append]
      exact List.mem_append_left _ (of_decide_eq_true hc)
    exact addAll_eq_error_iff.2
      ⟨before, entry, behind, hentries, nodup_append_of_new hfront hbefore, hmem, rfl⟩

end Row

namespace Change

theorem find_eq_ok_iff {α : Type} {entries : List (Text × α)} {column : Text} {v : α} :
    find entries column = .ok v ↔ entries.lookup column = some v := by
  unfold find
  split
  · next w h => simp [h]
  · next h => simp [h]

theorem mem_of_find {α : Type} {entries : List (Text × α)} {column : Text} {v : α}
    (h : find entries column = .ok v) : (column, v) ∈ entries := by
  obtain ⟨before, behind, rfl, -⟩ := List.lookup_eq_some_iff.1 (find_eq_ok_iff.1 h)
  simp

/-- Among different columns the value of each is found. -/
theorem find_of_mem {α : Type} {entries : List (Text × α)} (hnodup : (entries.map Prod.fst).Nodup)
    {e : Text × α} (h : e ∈ entries) : find entries e.1 = .ok e.2 := by
  obtain ⟨before, behind, rfl⟩ := List.append_of_mem h
  refine find_eq_ok_iff.2 (List.lookup_eq_some_iff.2 ⟨before, behind, rfl, fun p hp => ?_⟩)
  -- an earlier entry has another column
  rw [List.map_append, List.nodup_append] at hnodup
  have hne : p.1 ≠ e.1 :=
    hnodup.2.2 p.1 (List.mem_map_of_mem hp) e.1 (List.mem_map_of_mem List.mem_cons_self)
  simpa using hne.symm

/-- A column has a value if it is there. -/
theorem exists_find_iff {α : Type} {entries : List (Text × α)} {column : Text} :
    (∃ v, find entries column = .ok v) ↔ column ∈ entries.map Prod.fst := by
  constructor
  · rintro ⟨v, hv⟩
    exact List.mem_map_of_mem (mem_of_find hv)
  · intro h
    obtain ⟨e, he, rfl⟩ := List.mem_map.1 h
    cases hv : entries.lookup e.1 with
    | some v => exact ⟨v, find_eq_ok_iff.2 hv⟩
    | none => simpa using List.lookup_eq_none_iff.1 hv e he

/-- **Keys are found in their order**, each with its value and under its new name. -/
theorem keyed_eq_ok_iff {s : KeyedStatement} {rename : Text → Except Error Text} {r : Record}
    {keys : List Text} {found : Record} :
    keyed s rename r keys = .ok found ↔
      keys ≠ [] ∧ List.Forall₂ (fun k e => find r k = .ok e.2 ∧ rename k = .ok e.1) keys found := by
  unfold keyed
  split
  · next h =>
    constructor
    · exact nofun
    · rintro ⟨hne, -⟩
      exact absurd (List.isEmpty_iff.1 h) hne
  · next h =>
    have hstep : ∀ (k : Text) (e : Text × Option Text),
        (do let value ← find r k; return (← rename k, value)) = Except.ok e ↔
          find r k = .ok e.2 ∧ rename k = .ok e.1 := by
      intro k e
      constructor
      · intro hk
        obtain ⟨v, hv, h₁⟩ := bind_eq_ok_iff.1 hk
        obtain ⟨n, hn, hresult⟩ := bind_eq_ok_iff.1 h₁
        cases hresult
        exact ⟨hv, hn⟩
      · rintro ⟨hv, hn⟩
        exact bind_eq_ok_iff.2 ⟨e.2, hv, bind_eq_ok_iff.2 ⟨e.1, hn, rfl⟩⟩
    simp only [mapM_eq_ok_iff, hstep]
    exact ⟨fun hall => ⟨fun he => h (by simp [he]), hall⟩, And.right⟩

/-- **Different columns are found as keys**, in their order and with their values. -/
theorem keyed_of_mem (s : KeyedStatement) {r found : Record} (hnodup : (r.map Prod.fst).Nodup)
    (hne : found ≠ []) (hmem : ∀ e ∈ found, e ∈ r) :
    keyed s .ok r (found.map Prod.fst) = .ok found := by
  refine keyed_eq_ok_iff.2 ⟨by simpa using hne, List.forall₂_map_left_iff.2 ?_⟩
  exact List.forall₂_same.2 fun e he => ⟨find_of_mem hnodup (hmem e he), rfl⟩

/-- Found keys are not empty. -/
theorem ne_nil_of_keyed {s : KeyedStatement} {rename : Text → Except Error Text} {r : Record}
    {keys : List Text} {found : Record} (h : keyed s rename r keys = .ok found) : found ≠ [] := by
  obtain ⟨hne, hall⟩ := keyed_eq_ok_iff.1 h
  rintro rfl
  exact hne (List.forall₂_nil_right_iff.1 hall)

/-- Keys under their own names are found as columns of the row. -/
theorem columns_of_keyed {s : KeyedStatement} {r : Record} {keys : List Text} {found : Record}
    (h : keyed s .ok r keys = .ok found) :
    found.map Prod.fst = keys ∧ ∀ e ∈ found, e ∈ r := by
  obtain ⟨-, hall⟩ := keyed_eq_ok_iff.1 h
  clear h
  induction hall with
  | nil => exact ⟨rfl, nofun⟩
  | @cons k e keys found hk _ ih =>
    obtain ⟨hfind, hname⟩ := hk
    cases hname
    refine ⟨by rw [List.map_cons, ih.1], fun e' he' => ?_⟩
    rcases List.mem_cons.1 he' with rfl | he'
    · exact mem_of_find hfind
    · exact ih.2 e' he'

end Change

end SqlText
