import SqlText.Error

/-!
# Rows

A row has columns in an order, each with a value or the missing value, and no column twice. The
order is that in which the columns came in; a new value for a column leaves it in its place.
-/

namespace SqlText

/-- Columns with their values, in order. -/
structure Row where
  entries : List (Text × Option Text)
  /-- No column stands twice. -/
  nodup : (entries.map Prod.fst).Nodup
  deriving DecidableEq

namespace Row

/-- The row without columns. -/
def empty : Row := ⟨[], by simp⟩

/-- The columns of a row, in order. -/
def columns (r : Row) : List Text := r.entries.map Prod.fst

/-- Adds a column at the end. A column that is already there is refused. -/
def add (r : Row) (column : Text) (value : Option Text) : Except Error Row :=
  if h : column ∈ r.columns then .error (.duplicateColumn column)
  else .ok
    { entries := r.entries ++ [(column, value)]
      nodup := by
        rw [List.map_append, List.nodup_append]
        refine ⟨r.nodup, by simp, fun a ha b hb => ?_⟩
        simp only [List.map_cons, List.map_nil, List.mem_singleton] at hb
        rintro rfl
        exact h (hb ▸ ha) }

/-- Gives a value to a column, in its place if it is there and at the end if not. -/
def set (r : Row) (column : Text) (value : Option Text) : Row :=
  if h : column ∈ r.columns then
    { entries := r.entries.map fun e => if e.1 = column then (column, value) else e
      nodup := by
        have : (r.entries.map fun e => if e.1 = column then (column, value) else e).map Prod.fst
            = r.entries.map Prod.fst := by
          rw [List.map_map]
          refine List.map_congr_left fun e _ => ?_
          simp only [Function.comp_apply]
          split
          · next he => exact he.symm
          · rfl
        rw [this]
        exact r.nodup }
  else
    { entries := r.entries ++ [(column, value)]
      nodup := by
        rw [List.map_append, List.nodup_append]
        refine ⟨r.nodup, by simp, fun a ha b hb => ?_⟩
        simp only [List.map_cons, List.map_nil, List.mem_singleton] at hb
        rintro rfl
        exact h (hb ▸ ha) }

/-- Takes a column out; the others keep their order. -/
def erase (r : Row) (column : Text) : Row :=
  { entries := r.entries.filter fun e => e.1 != column
    nodup := r.nodup.sublist (List.filter_sublist.map _) }

/-- Gives values to columns, one after another. -/
def setAll (r : Row) (entries : List (Text × Option Text)) : Row :=
  entries.foldl (fun r e => r.set e.1 e.2) r

/-- The row of some columns: a column keeps its first place and takes its last value. -/
def ofList (entries : List (Text × Option Text)) : Row := empty.setAll entries

/-- Adds the columns of another row at the end. -/
def append (r s : Row) : Except Error Row := s.entries.foldlM (fun r e => r.add e.1 e.2) r

end Row

end SqlText
