import BuildItems.Ordered.NameMap

/-!
# Sets of names

A set is a map without values, so its names are in order too.
-/

namespace BuildItems

abbrev NameSet := NameMap Unit

namespace NameSet

def add (s : NameSet) (name : String) : NameSet := NameMap.insert s name ()

def ofNames (names : List String) : NameSet := names.foldl add ∅

def union (s t : NameSet) : NameSet := NameMap.merge s t

@[simp]
theorem contains_add (s : NameSet) (name key : String) :
    NameMap.contains (s.add name) key = (key == name || NameMap.contains s key) := by
  by_cases h : key = name <;> simp [NameMap.contains, add, h]

theorem contains_ofNames (names : List String) (key : String) :
    NameMap.contains (ofNames names) key = names.contains key := by
  have h : ∀ s : NameSet, NameMap.contains (names.foldl add s) key =
      (names.contains key || NameMap.contains s key) := by
    induction names with
    | nil => simp
    | cons n ns ih =>
      intro s
      rw [List.foldl_cons, ih, contains_add]
      by_cases hn : key = n
      · simp [hn]
      · simp [hn, beq_eq_false_iff_ne.2 hn]
  exact (h ∅).trans (Bool.or_false _)

@[simp]
theorem contains_union (s t : NameSet) (key : String) :
    NameMap.contains (s.union t) key = (NameMap.contains s key || NameMap.contains t key) := by
  simp only [NameMap.contains, union, NameMap.get?_merge]
  cases NameMap.get? t key <;> simp

/-- A set is determined by what it contains. -/
theorem eq_of_contains {s t : NameSet}
    (h : ∀ key, NameMap.contains s key = NameMap.contains t key) : s = t := by
  refine NameMap.eq_of_get? fun name => ?_
  have hname := h name
  unfold NameMap.contains at hname
  cases hs : NameMap.get? s name <;> cases ht : NameMap.get? t name <;> simp_all

theorem add_of_contains {s : NameSet} {name : String} (h : NameMap.contains s name = true) :
    s.add name = s := by
  refine eq_of_contains fun key => ?_
  rw [contains_add]
  by_cases hk : key = name
  · simp [hk, h]
  · simp [beq_eq_false_iff_ne.2 hk]

theorem union_right_comm (s t u : NameSet) : (s.union t).union u = (s.union u).union t := by
  refine eq_of_contains fun key => ?_
  simp only [contains_union, Bool.or_right_comm]

end NameSet

end BuildItems
