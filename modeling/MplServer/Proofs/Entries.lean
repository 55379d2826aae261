import Mathlib.Data.List.Infix

/-!
# Lists of named entries

A list binds a name to the value of the first entry with that name. Where names are distinct, the
order of the entries makes no difference.
-/

namespace MplServer

variable {alpha : Type} {entries others : List (String × alpha)} {name : String} {value : alpha}

theorem mem_of_lookup_eq_some (found : entries.lookup name = some value) :
    (name, value) ∈ entries := by
  obtain ⟨before, behind, rfl, _⟩ := List.lookup_eq_some_iff.mp found
  simp

theorem lookup_eq_some_of_mem
    (distinct : (entries.map Prod.fst).Nodup)
    (member : (name, value) ∈ entries) :
    entries.lookup name = some value := by
  induction entries with
  | nil => cases member
  | cons entry others inductionHypothesis =>
      rw [List.map_cons, List.nodup_cons] at distinct
      rcases List.mem_cons.mp member with rfl | later
      · rw [List.lookup_cons_self]
      · have different : name ≠ entry.1 := by
          rintro rfl
          exact distinct.1 (List.mem_map.mpr ⟨_, later, rfl⟩)
        rw [List.lookup_cons, beq_eq_false_iff_ne.mpr different]
        exact inductionHypothesis distinct.2 later

theorem lookup_eq_of_perm
    (distinct : (entries.map Prod.fst).Nodup)
    (reordered : entries.Perm others) (name : String) :
    entries.lookup name = others.lookup name := by
  have alsoDistinct : (others.map Prod.fst).Nodup :=
    (reordered.map Prod.fst).nodup_iff.mp distinct
  ext value
  constructor
  · intro found
    have member := reordered.mem_iff.mp (mem_of_lookup_eq_some found)
    exact lookup_eq_some_of_mem alsoDistinct member
  · intro found
    have member := reordered.mem_iff.mpr (mem_of_lookup_eq_some found)
    exact lookup_eq_some_of_mem distinct member

/-- Entries of other names may be left out. -/
theorem lookup_filter
    {keep : String → Prop} [DecidablePred keep] (kept : keep name)
    (entries : List (String × alpha)) :
    (entries.filter fun entry => keep entry.1).lookup name = entries.lookup name := by
  induction entries with
  | nil => rfl
  | cons entry rest inductionHypothesis =>
      obtain ⟨other, value⟩ := entry
      by_cases present : keep other
      · rw [List.filter_cons_of_pos (by simpa using present), List.lookup_cons,
          List.lookup_cons, inductionHypothesis]
      · have different : name ≠ other := by
          rintro rfl
          exact present kept
        rw [List.filter_cons_of_neg (by simpa using present), List.lookup_cons,
          beq_eq_false_iff_ne.mpr different]
        exact inductionHypothesis

theorem nodup_zip {names : List String} (distinct : names.Nodup) (values : List alpha) :
    ((names.zip values).map Prod.fst).Nodup := by
  rw [List.zip_eq_zip_take_min, List.map_fst_zip (by simp)]
  exact distinct.sublist (List.take_sublist _ names)

/-- Values that are given in the order of distinct names. -/
theorem lookup_zip
    {names : List String} {index : Nat}
    (distinct : names.Nodup) (named : names[index]? = some name) (values : List alpha) :
    (names.zip values).lookup name = values[index]? := by
  induction names generalizing index values with
  | nil => cases named
  | cons other names inductionHypothesis =>
      rw [List.nodup_cons] at distinct
      cases values with
      | nil => rfl
      | cons value values =>
          cases index with
          | zero =>
              obtain rfl := Option.some.inj named
              rw [List.zip_cons_cons, List.lookup_cons_self]
              rfl
          | succ index =>
              rw [List.getElem?_cons_succ] at named
              have different : name ≠ other := by
                rintro rfl
                exact distinct.1 (List.mem_of_getElem? named)
              rw [List.zip_cons_cons, List.lookup_cons, beq_eq_false_iff_ne.mpr different,
                List.getElem?_cons_succ]
              exact inductionHypothesis distinct.2 named values

end MplServer
