import Mathlib.Data.List.Basic
import Mathlib.Data.List.Find

/-!
# Keyed tables

A table is the list of its rows in insertion order, and a key is read off each row. Reading
by key returns the first row with the key; updating by key changes every such row.
-/

namespace Table

variable {Row Key : Type*} [DecidableEq Key] (key : Row → Key)

/-- `SELECT … WHERE key = k`, first row. -/
def find (k : Key) (rows : List Row) : Option Row :=
  rows.find? fun row => key row = k

/-- `UPDATE … WHERE key = k`. -/
def modify (k : Key) (change : Row → Row) (rows : List Row) : List Row :=
  rows.map fun row => if key row = k then change row else row

/-- `INSERT … ON DUPLICATE KEY UPDATE`. -/
def upsert (row : Row) (change : Row → Row) (rows : List Row) : List Row :=
  if (find key (key row) rows).isSome then modify key (key row) change rows else rows ++ [row]

/-- Every row is the one that is read under its key. -/
def Unique (rows : List Row) : Prop :=
  ∀ row ∈ rows, find key (key row) rows = some row

variable {key} {k other : Key} {rows : List Row} {row : Row} {change : Row → Row}

theorem key_of_find (h : find key k rows = some row) : key row = k := by
  simpa using List.find?_some h

theorem mem_of_find (h : find key k rows = some row) : row ∈ rows := List.mem_of_find?_eq_some h

theorem find_eq_none : find key k rows = none ↔ ∀ row ∈ rows, key row ≠ k := by
  simp [find]

/-- Reading after an insertion: an older row with the key comes first. -/
theorem find_append : find key k (rows ++ [row]) =
    (find key k rows).or (if key row = k then some row else none) := by
  by_cases h : key row = k <;> simp [find, List.find?_append, h]

/-- An update is seen by the readers of its key only. -/
theorem find_modify (hkey : ∀ row, key (change row) = key row) :
    find key k (modify key other change rows) =
      if k = other then (find key k rows).map change else find key k rows := by
  induction rows with
  | nil => simp [find, modify]
  | cons head rest ih =>
      simp only [find, modify, List.map_cons, List.find?_cons] at ih ⊢
      by_cases hhead : key head = other <;> by_cases hk : key head = k
      · simp [hhead, hkey, ← hk]
      · simpa [hhead, hkey, show other ≠ k from hhead ▸ hk] using ih
      · simp [hk, show k ≠ other from hk ▸ hhead]
      · simpa [hhead, hk] using ih

/-- An update that keeps a column gives no row a new value in it. -/
theorem exists_of_mem_modify {Column : Type*} (column : Row → Column)
    (hmem : row ∈ modify key k change rows) (hcolumn : ∀ row, column (change row) = column row) :
    ∃ old ∈ rows, column old = column row := by
  obtain ⟨old, hold, rfl⟩ := List.mem_map.mp hmem
  refine ⟨old, hold, ?_⟩
  split
  · exact (hcolumn old).symm
  · rfl

/-- Reading after an upsert. -/
theorem find_upsert (hkey : ∀ row, key (change row) = key row) :
    find key k (upsert key row change rows) =
      if k = key row then some ((find key k rows).elim row change) else find key k rows := by
  unfold upsert
  split
  · rename_i hsome
    rw [find_modify hkey]
    split
    · rename_i hk
      subst hk
      obtain ⟨found, hfound⟩ := Option.isSome_iff_exists.mp hsome
      simp [hfound]
    · rfl
  · rename_i hnone
    rw [find_append]
    split
    · rename_i hk
      subst hk
      simp [Option.not_isSome_iff_eq_none.mp hnone]
    · rename_i hk
      simp [Ne.symm hk]

/-- Among rows that stand in no relation to each other, a row that stands in it to every row of its
kind is the only one of its kind. -/
theorem filter_eq_singleton {related : Row → Row → Prop} {kind : Row → Bool}
    (happart : rows.Pairwise fun a b => ¬ related a b) (hmem : row ∈ rows) (hkind : kind row = true)
    (hone : ∀ a b, kind a = true → kind b = true → related a b) : rows.filter kind = [row] := by
  have hrow : row ∈ rows.filter kind := List.mem_filter.mpr ⟨hmem, hkind⟩
  have hrest : (rows.filter kind).Pairwise fun a b => ¬ related a b := happart.filter kind
  have hall : ∀ a ∈ rows.filter kind, kind a = true := fun a ha => (List.mem_filter.mp ha).2
  cases hlist : rows.filter kind with
  | nil => simp [hlist] at hrow
  | cons first rest =>
      rw [hlist] at hrow hrest hall
      cases rest with
      | nil => rw [List.mem_singleton.mp hrow]
      | cons second rest =>
          have hne := (List.pairwise_cons.mp hrest).1 second (by simp)
          exact absurd (hone first second (hall first (by simp)) (hall second (by simp))) hne

theorem unique_nil : Unique key ([] : List Row) := by simp [Unique]

/-- An insertion under a key that no row has keeps the keys unique. -/
theorem Unique.append (h : Unique key rows) (hfree : find key (key row) rows = none) :
    Unique key (rows ++ [row]) := by
  intro found hmem
  rw [find_append]
  rcases List.mem_append.mp hmem with hold | hnew
  · simp [h found hold]
  · obtain rfl := List.mem_singleton.mp hnew
    simp [hfree]

/-- An update keeps the keys unique. -/
theorem Unique.modify (h : Unique key rows) (hkey : ∀ row, key (change row) = key row) :
    Unique key (modify key other change rows) := by
  intro found hmem
  obtain ⟨row, hrow, rfl⟩ := List.mem_map.mp hmem
  rw [find_modify hkey]
  by_cases hother : key row = other
  · have hfound := h row hrow
    rw [hother] at hfound
    simp [hother, hkey, hfound]
  · simp [hother, h row hrow]

/-- Rows with pairwise different keys are read under their keys. -/
theorem unique_of_nodup (h : (rows.map key).Nodup) : Unique key rows := by
  intro found hmem
  induction rows with
  | nil => simp at hmem
  | cons head rest ih =>
      rw [List.map_cons, List.nodup_cons] at h
      rcases List.mem_cons.mp hmem with rfl | hrest
      · simp [find]
      · have hne : key head ≠ key found := by
          intro hsame
          exact h.1 (hsame ▸ List.mem_map_of_mem hrest)
        simpa [find, hne] using ih h.2 hrest

theorem map_key_modify (hkey : ∀ row, key (change row) = key row) :
    (Table.modify key k change rows).map key = rows.map key := by
  rw [Table.modify, List.map_map]
  refine List.map_congr_left fun row _ => ?_
  show key (if key row = k then change row else row) = key row
  split
  · exact hkey row
  · rfl

/-- An upsert keeps the keys pairwise different. -/
theorem nodup_upsert (h : (rows.map key).Nodup) (hkey : ∀ row, key (change row) = key row) :
    ((upsert key row change rows).map key).Nodup := by
  unfold upsert
  split
  · rw [map_key_modify hkey]
    exact h
  · rename_i hnone
    have hfree : ∀ old ∈ rows, key old ≠ key row :=
      find_eq_none.mp (Option.not_isSome_iff_eq_none.mp hnone)
    rw [List.map_append, List.nodup_append]
    refine ⟨h, by simp, fun first hfirst second hsecond => ?_⟩
    obtain ⟨old, hold, rfl⟩ := List.mem_map.mp hfirst
    obtain rfl : second = key row := by simpa using hsecond
    exact hfree old hold

section Congr

variable {Other : Type*} [DecidableEq Other] {otherKey : Row → Other} {j : Other}

/-- Reading by another key that singles out the same rows. -/
theorem find_congr (h : ∀ row ∈ rows, otherKey row = j ↔ key row = k) :
    find otherKey j rows = find key k rows :=
  List.find?_congr fun row hrow => decide_eq_decide.mpr (h row hrow)

/-- Updating by another key that singles out the same rows. -/
theorem modify_congr (h : ∀ row ∈ rows, otherKey row = j ↔ key row = k) :
    modify otherKey j change rows = modify key k change rows := by
  refine List.map_congr_left fun row hrow => ?_
  by_cases hkey : key row = k
  · rw [if_pos hkey, if_pos ((h row hrow).mpr hkey)]
  · rw [if_neg hkey, if_neg (mt (h row hrow).mp hkey)]

/-- Upserting by another key under which the row collides with the same rows. -/
theorem upsert_congr (h : ∀ old ∈ rows, otherKey old = otherKey row ↔ key old = key row) :
    upsert otherKey row change rows = upsert key row change rows := by
  unfold upsert
  rw [find_congr h, modify_congr h]

end Congr

/-- An upsert gives no row a new value in a column that it keeps, except for the row itself. -/
theorem exists_of_mem_upsert {Column : Type*} (column : Row → Column) {new : Row}
    (hmem : new ∈ upsert key row change rows) (hcolumn : ∀ row, column (change row) = column row) :
    column new = column row ∨ ∃ old ∈ rows, column old = column new := by
  unfold upsert at hmem
  split at hmem
  · exact .inr (exists_of_mem_modify column hmem hcolumn)
  · rcases List.mem_append.mp hmem with hold | hnew
    · exact .inr ⟨new, hold, rfl⟩
    · exact .inl (congrArg column (List.mem_singleton.mp hnew))

end Table
