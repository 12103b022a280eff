import Mathlib.Data.List.Perm.Basic
import Mathlib.Data.List.Range
import Mathlib.Logic.Function.Basic

/-!
# Registries

A registry numbers its entries in the order in which they arrive and never uses a number
again. That no number from `next` on is in use is a field, so every registry has it.
-/

/-- Numbered entries; an entry can be replaced or removed, its number stays used. -/
structure Registry (Entry : Type*) where
  get : Nat → Option Entry
  next : Nat
  fresh : ∀ number, next ≤ number → get number = none

namespace Registry

variable {Entry Other : Type*}

def empty : Registry Entry where
  get := fun _ => none
  next := 0
  fresh := fun _ _ => rfl

/-- Adds an entry under the next number. -/
def insert (r : Registry Entry) (entry : Entry) : Registry Entry where
  get := Function.update r.get r.next (some entry)
  next := r.next + 1
  fresh := by
    intro number h
    rw [Function.update_of_ne (by omega)]
    exact r.fresh number (by omega)

/-- Replaces or removes the entry of a used number. -/
def set (r : Registry Entry) (number : Nat) (entry : Option Entry) : Registry Entry where
  get := if number < r.next then Function.update r.get number entry else r.get
  next := r.next
  fresh := by
    intro other h
    split
    · rw [Function.update_of_ne (by omega)]
      exact r.fresh other h
    · exact r.fresh other h

variable {r : Registry Entry} {number : Nat} {entry : Entry}

@[simp] theorem get_empty (number : Nat) : (empty : Registry Entry).get number = none := rfl

@[simp] theorem get_next (r : Registry Entry) : r.get r.next = none := r.fresh _ (Nat.le_refl _)

@[simp] theorem get_insert (r : Registry Entry) (entry : Entry) :
    (r.insert entry).get = Function.update r.get r.next (some entry) := rfl

/-- Numbers in use are below the next one. -/
theorem lt_next (h : r.get number = some entry) : number < r.next := by
  by_contra hge
  rw [r.fresh number (by omega)] at h
  exact absurd h (by simp)

/-- A registry is empty if the numbers that were given out are unused. -/
theorem eq_none_of_all (h : ((List.range r.next).all fun i => (r.get i).isNone) = true) (i : Nat) :
    r.get i = none := by
  by_cases hi : i < r.next
  · simpa using List.all_eq_true.mp h i (List.mem_range.mpr hi)
  · exact r.fresh i (by omega)

theorem get_set (h : r.get number = some entry) (value : Option Entry) :
    (r.set number value).get = Function.update r.get number value := by
  simp only [set, lt_next h, if_true]

/-- A partial view of a family of entries follows an update of the family. -/
theorem bind_update (get : Nat → Option Entry) (number : Nat) (value : Option Entry)
    (view : Entry → Option Other) :
    (fun i => (Function.update get number value i).bind view) =
      Function.update (fun i => (get i).bind view) number (value.bind view) := by
  funext i
  by_cases h : i = number
  · subst h
    simp
  · simp [h]

/-- Reading an updated family. -/
theorem update_eq_some {get : Nat → Option Entry} {number i : Nat} {value : Option Entry}
    {entry : Entry} : Function.update get number value i = some entry ↔
      (i = number ∧ value = some entry) ∨ (i ≠ number ∧ get i = some entry) := by
  by_cases h : i = number
  · subst h
    simp
  · simp [h]

/-- Registries with the same entries and the same next number are equal. -/
theorem ext_of {other : Registry Entry} (hget : r.get = other.get) (hnext : r.next = other.next) :
    r = other := by
  cases r
  cases other
  simp_all

/-- Nothing changes if an entry is replaced by itself. -/
theorem set_self (h : r.get number = some entry) : r.set number (some entry) = r := by
  refine ext_of ?_ rfl
  rw [get_set h, ← h]
  exact Function.update_eq_self _ _

theorem set_set (h : r.get number = some entry) (first : Entry) (value : Option Entry) :
    (r.set number (some first)).set number value = r.set number value := by
  refine ext_of ?_ rfl
  have hfirst : (r.set number (some first)).get number = some first := by
    rw [get_set h, Function.update_self]
  rw [get_set hfirst, get_set h, get_set h, Function.update_idem]

/-- Every entry under a function. -/
def map (view : Entry → Other) (r : Registry Entry) : Registry Other where
  get := fun number => (r.get number).map view
  next := r.next
  fresh := by
    intro number h
    rw [r.fresh number h]
    rfl

variable {view : Entry → Other}

theorem get_map (h : r.get number = some entry) :
    (r.map view).get number = some (view entry) := by
  show (r.get number).map view = _
  rw [h]
  rfl

@[simp] theorem map_insert : (r.insert entry).map view = (r.map view).insert (view entry) := by
  refine ext_of ?_ rfl
  funext i
  show (Function.update r.get r.next (some entry) i).map view =
    Function.update (r.map view).get r.next (some (view entry)) i
  by_cases hi : i = r.next
  · subst hi
    rw [Function.update_self, Function.update_self]
    rfl
  · rw [Function.update_of_ne hi, Function.update_of_ne hi]
    rfl

theorem map_set (h : r.get number = some entry) (new : Entry) :
    (r.set number (some new)).map view = (r.map view).set number (some (view new)) := by
  refine ext_of ?_ rfl
  rw [get_set (get_map h)]
  funext i
  show ((r.set number (some new)).get i).map view =
    Function.update (r.map view).get number (some (view new)) i
  rw [get_set h]
  by_cases hi : i = number
  · subst hi
    rw [Function.update_self, Function.update_self]
    rfl
  · rw [Function.update_of_ne hi, Function.update_of_ne hi]
    rfl

/-- A part of every entry, by number. -/
def collect (r : Registry Entry) (part : Entry → Option Other) : List Other :=
  (List.range r.next).filterMap fun i => (r.get i).bind part

variable {part : Entry → Option Other} {value : Option Entry}

theorem mem_collect {a : Other} :
    a ∈ r.collect part ↔ ∃ i entry, r.get i = some entry ∧ part entry = some a := by
  unfold collect
  rw [List.mem_filterMap]
  constructor
  · intro h
    obtain ⟨i, -, hpart⟩ := h
    obtain ⟨entry, hget, hpart⟩ := Option.bind_eq_some_iff.mp hpart
    exact ⟨i, entry, hget, hpart⟩
  · intro h
    obtain ⟨i, entry, hget, hpart⟩ := h
    exact ⟨i, List.mem_range.mpr (lt_next hget), Option.bind_eq_some_iff.mpr ⟨entry, hget, hpart⟩⟩

theorem collect_insert :
    (r.insert entry).collect part = r.collect part ++ (part entry).toList := by
  have hold : ∀ i ∈ List.range r.next, ((r.insert entry).get i).bind part =
      (r.get i).bind part := by
    intro i hi
    rw [get_insert, Function.update_of_ne (Nat.ne_of_lt (List.mem_range.mp hi))]
  show (List.range (r.next + 1)).filterMap _ = _
  rw [List.range_succ, List.filterMap_append, List.filterMap_congr hold]
  congr 1
  cases hpart : part entry <;> simp [hpart]

/-- An entry is replaced: its old part makes way for the new one. -/
theorem collect_set (h : r.get number = some entry) :
    ((part entry).toList ++ (r.set number value).collect part).Perm
      ((value.bind part).toList ++ r.collect part) := by
  have hsplit : ∀ view : Nat → Option Other, ((List.range r.next).filterMap view).Perm
      ((view number).toList ++ ((List.range r.next).erase number).filterMap view) := by
    intro view
    refine ((List.perm_cons_erase (List.mem_range.mpr (lt_next h))).filterMap view).trans ?_
    cases hview : view number <;> simp [hview]
  have hrest : ∀ i ∈ (List.range r.next).erase number,
      ((r.set number value).get i).bind part = (r.get i).bind part := by
    intro i hi
    rw [get_set h, Function.update_of_ne ((List.nodup_range.mem_erase_iff).mp hi).1]
  have hnew := hsplit fun i => ((r.set number value).get i).bind part
  have hold := hsplit fun i => (r.get i).bind part
  have hat : (r.set number value).get number = value := by
    rw [get_set h, Function.update_self]
  rw [List.filterMap_congr hrest, hat] at hnew
  rw [h, Option.bind_some] at hold
  refine (hnew.append_left _).trans (List.Perm.trans ?_ (hold.symm.append_left _))
  exact List.perm_append_comm_assoc _ _ _

/-- Parts that occur once belong to one entry. -/
theorem eq_of_collect_nodup {a : Other} {i j : Nat} {first second : Entry}
    (hnodup : (r.collect part).Nodup) (hi : r.get i = some first) (hfirst : part first = some a)
    (hj : r.get j = some second) (hsecond : part second = some a) : i = j := by
  have hpairs := List.pairwise_filterMap.mp hnodup
  have hdiffer : ∀ {i j : Nat} {first second : Entry}, i < j → r.get i = some first →
      part first = some a → r.get j = some second → part second ≠ some a := by
    intro i j first second hlt hi hfirst hj hsecond
    have hnext := lt_next hj
    have hne := List.pairwise_iff_getElem.mp hpairs i j (by simp; omega) (by simpa using hnext) hlt
    simp only [List.getElem_range] at hne
    exact hne a (by simp [hi, hfirst]) a (by simp [hj, hsecond]) rfl
  rcases Nat.lt_trichotomy i j with hlt | heq | hlt
  · exact absurd hsecond (hdiffer hlt hi hfirst hj)
  · exact heq
  · exact absurd hfirst (hdiffer hlt hj hsecond hi)

end Registry
