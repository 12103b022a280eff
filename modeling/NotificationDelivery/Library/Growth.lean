import NotificationDelivery.Library.Table
import Mathlib.Data.List.Forall2

/-!
# Growing tables

A table grows if no row is removed, every old row keeps its place and evolves as a relation
allows, and new rows come last. Insertions and updates let a table grow.
-/

namespace Table

variable {Row Key : Type*} [DecidableEq Key] {key : Row → Key}

/-- Every row of `rows` is in `next`, in the same order and evolved, and other rows come after
them. -/
def Grows (evolves : Row → Row → Prop) (rows next : List Row) : Prop :=
  ∃ kept added, next = kept ++ added ∧ List.Forall₂ evolves rows kept

variable {evolves : Row → Row → Prop} {rows next last : List Row} {row : Row} {k : Key}
  {change : Row → Row}

theorem Grows.refl (hrefl : ∀ row, evolves row row) (rows : List Row) : Grows evolves rows rows :=
  ⟨rows, [], by simp, List.forall₂_same.mpr fun row _ => hrefl row⟩

theorem Grows.trans (htrans : ∀ a b c, evolves a b → evolves b c → evolves a c)
    (hfirst : Grows evolves rows next) (hsecond : Grows evolves next last) :
    Grows evolves rows last := by
  obtain ⟨kept, added, rfl, hkept⟩ := hfirst
  obtain ⟨both, more, rfl, hboth⟩ := hsecond
  have hold := List.forall₂_take_append both kept added (List.Forall₂.flip hboth)
  have hnew := List.Forall₂.flip hold
  refine ⟨both.take kept.length, both.drop kept.length ++ more, ?_, ?_⟩
  · rw [← List.append_assoc, List.take_append_drop]
  · rw [List.forall₂_iff_get] at hkept hnew ⊢
    obtain ⟨hlength, hget⟩ := hkept
    obtain ⟨hlength', hget'⟩ := hnew
    refine ⟨hlength.trans hlength', fun i hi hi' => ?_⟩
    exact htrans _ _ _ (hget i hi (hlength ▸ hi)) (hget' i (hlength ▸ hi) hi')

/-- An insertion. -/
theorem Grows.append (hrefl : ∀ row, evolves row row) (rows : List Row) (row : Row) :
    Grows evolves rows (rows ++ [row]) :=
  ⟨rows, [row], rfl, List.forall₂_same.mpr fun row _ => hrefl row⟩

/-- An update. -/
theorem Grows.modify (hrefl : ∀ row, evolves row row) (hchange : ∀ row, evolves row (change row))
    (k : Key) (rows : List Row) : Grows evolves rows (Table.modify key k change rows) := by
  refine ⟨Table.modify key k change rows, [], by simp, ?_⟩
  unfold Table.modify
  rw [List.forall₂_map_right_iff, List.forall₂_same]
  intro row _
  split
  · exact hchange row
  · exact hrefl row

/-- An upsert. -/
theorem Grows.upsert (hrefl : ∀ row, evolves row row) (hchange : ∀ row, evolves row (change row))
    (row : Row) (rows : List Row) : Grows evolves rows (Table.upsert key row change rows) := by
  unfold Table.upsert
  split
  · exact .modify hrefl hchange _ rows
  · exact .append hrefl rows row

/-- A row is never removed. -/
theorem Grows.exists_of_mem (hgrows : Grows evolves rows next) (hmem : row ∈ rows) :
    ∃ new ∈ next, evolves row new := by
  obtain ⟨kept, added, rfl, hkept⟩ := hgrows
  obtain ⟨i, hi, rfl⟩ := List.getElem_of_mem hmem
  obtain ⟨hlength, hget⟩ := List.forall₂_iff_get.mp hkept
  refine ⟨kept[i], ?_, hget i hi (hlength ▸ hi)⟩
  exact List.mem_append_left _ (List.getElem_mem _)

end Table
