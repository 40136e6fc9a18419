/-!
# Maps from names, in name order

A map is a list of pairs whose names strictly increase by code point, so two maps with the same
look-ups are equal and listing one needs no sorting.
-/

namespace BuildItems

structure NameMap (α : Type) where
  pairs : List (String × α)
  sorted : pairs.Pairwise (·.1 < ·.1)
  deriving DecidableEq

namespace NameMap

variable {α : Type}

theorem ext {m n : NameMap α} (h : m.pairs = n.pairs) : m = n := by
  cases m; cases n; simp_all

instance : EmptyCollection (NameMap α) := ⟨[], .nil⟩

instance : Inhabited (NameMap α) := ⟨∅⟩

def names (m : NameMap α) : List String := m.pairs.map Prod.fst

def size (m : NameMap α) : Nat := m.pairs.length

def isEmpty (m : NameMap α) : Bool := m.pairs.isEmpty

def get? (m : NameMap α) (name : String) : Option α := m.pairs.lookup name

def contains (m : NameMap α) (name : String) : Bool := (m.get? name).isSome

def insertPairs (name : String) (value : α) : List (String × α) → List (String × α)
  | [] => [(name, value)]
  | p :: ps =>
    if name < p.1 then (name, value) :: p :: ps
    else if name = p.1 then (name, value) :: ps
    else p :: insertPairs name value ps

theorem mem_insertPairs {name : String} {value : α} {ps : List (String × α)} {q : String × α}
    (h : q ∈ insertPairs name value ps) : q = (name, value) ∨ q ∈ ps := by
  induction ps with
  | nil => simpa [insertPairs] using h
  | cons p ps ih =>
    unfold insertPairs at h
    split at h
    · simpa using h
    · split at h
      · rcases List.mem_cons.1 h with h | h
        · exact .inl h
        · exact .inr (List.mem_cons_of_mem _ h)
      · rcases List.mem_cons.1 h with h | h
        · exact .inr (h ▸ List.mem_cons_self)
        · exact (ih h).imp_right (List.mem_cons_of_mem _)

theorem lt_of_not_lt_of_ne {a b : String} (hlt : ¬ a < b) (hne : a ≠ b) : b < a :=
  Classical.byContradiction fun h =>
    hne (String.le_antisymm (String.not_lt.1 h) (String.not_lt.1 hlt))

theorem pairwise_insertPairs (name : String) (value : α) {ps : List (String × α)}
    (h : ps.Pairwise (·.1 < ·.1)) : (insertPairs name value ps).Pairwise (·.1 < ·.1) := by
  induction ps with
  | nil => simp [insertPairs]
  | cons p ps ih =>
    obtain ⟨hp, hps⟩ := List.pairwise_cons.1 h
    unfold insertPairs
    split
    · next hlt =>
      refine List.pairwise_cons.2 ⟨fun q hq => ?_, h⟩
      rcases List.mem_cons.1 hq with rfl | hq
      · exact hlt
      · exact String.lt_trans hlt (hp q hq)
    · next hlt =>
      split
      · next heq => exact List.pairwise_cons.2 ⟨fun q hq => heq ▸ hp q hq, hps⟩
      · next hne =>
        refine List.pairwise_cons.2 ⟨fun q hq => ?_, ih hps⟩
        rcases mem_insertPairs hq with rfl | hq
        · exact lt_of_not_lt_of_ne hlt hne
        · exact hp q hq

def insert (m : NameMap α) (name : String) (value : α) : NameMap α :=
  ⟨insertPairs name value m.pairs, pairwise_insertPairs name value m.sorted⟩

def erase (m : NameMap α) (name : String) : NameMap α :=
  ⟨m.pairs.filter (·.1 != name), m.sorted.filter _⟩

/-- Later pairs win. -/
def ofList (ps : List (String × α)) : NameMap α :=
  ps.foldl (fun m p => m.insert p.1 p.2) ∅

/-- The entries of both maps; where both bind a name, those of the second. -/
def merge (m overrides : NameMap α) : NameMap α :=
  overrides.pairs.foldl (fun m p => m.insert p.1 p.2) m

theorem lookup_insertPairs (name key : String) (value : α) (ps : List (String × α)) :
    (insertPairs name value ps).lookup key =
      if key = name then some value else ps.lookup key := by
  induction ps with
  | nil => by_cases hk : key = name <;> simp [insertPairs, List.lookup_cons, hk, beq_eq_false_iff_ne.2]
  | cons p ps ih =>
    unfold insertPairs
    by_cases hk : key = name
    · subst hk
      split
      · simp
      · split
        · simp
        · next hne =>
          rw [List.lookup_cons, beq_eq_false_iff_ne.2 hne, ih]
          simp
    · split
      · rw [List.lookup_cons, beq_eq_false_iff_ne.2 hk]
      · split
        · next heq =>
          subst heq
          obtain ⟨q, w⟩ := p
          have hq : (key == q) = false := beq_eq_false_iff_ne.2 hk
          simp [List.lookup_cons, hq]
        · rw [List.lookup_cons, List.lookup_cons, ih]
          simp [hk]

@[simp]
theorem get?_insert (m : NameMap α) (name key : String) (value : α) :
    (m.insert name value).get? key = if key = name then some value else m.get? key :=
  lookup_insertPairs name key value m.pairs

@[simp]
theorem get?_empty (key : String) : (∅ : NameMap α).get? key = none := rfl

theorem lookup_filter_ne (name key : String) (ps : List (String × α)) :
    (ps.filter (·.1 != name)).lookup key = if key = name then none else ps.lookup key := by
  induction ps with
  | nil => simp
  | cons p ps ih =>
    by_cases hp : p.1 = name
    · rw [List.filter_cons_of_neg (by simp [hp]), ih, List.lookup_cons]
      by_cases hk : key = name
      · simp [hk]
      · have : (key == p.1) = false := beq_eq_false_iff_ne.2 (hp ▸ hk)
        simp [hk, this]
    · rw [List.filter_cons_of_pos (by simp [hp]), List.lookup_cons, List.lookup_cons, ih]
      by_cases hk : key = name
      · have : (key == p.1) = false := beq_eq_false_iff_ne.2 fun h => hp (h ▸ hk)
        simp [hk, hk ▸ this]
      · simp [hk]

@[simp]
theorem get?_erase (m : NameMap α) (name key : String) :
    (m.erase name).get? key = if key = name then none else m.get? key :=
  lookup_filter_ne name key m.pairs

theorem mem_of_lookup {name : String} {value : α} {ps : List (String × α)}
    (h : ps.lookup name = some value) : (name, value) ∈ ps := by
  induction ps with
  | nil => simp at h
  | cons p ps ih =>
    rw [List.lookup_cons] at h
    split at h
    · next heq =>
      obtain rfl := eq_of_beq heq
      obtain rfl := Option.some.inj h
      exact List.mem_cons_self
    · exact List.mem_cons_of_mem _ (ih h)

theorem lookup_of_mem {name : String} {value : α} {ps : List (String × α)}
    (hps : ps.Pairwise (·.1 < ·.1)) (h : (name, value) ∈ ps) : ps.lookup name = some value := by
  induction ps with
  | nil => simp at h
  | cons p ps ih =>
    obtain ⟨hp, hps⟩ := List.pairwise_cons.1 hps
    rcases List.mem_cons.1 h with rfl | h
    · simp
    · rw [List.lookup_cons, beq_eq_false_iff_ne.2 (String.ne_of_lt (hp _ h)).symm]
      exact ih hps h

theorem get?_eq_some_iff (m : NameMap α) (name : String) (value : α) :
    m.get? name = some value ↔ (name, value) ∈ m.pairs :=
  ⟨mem_of_lookup, lookup_of_mem m.sorted⟩

theorem mem_names_iff (m : NameMap α) (name : String) : name ∈ m.names ↔ m.contains name := by
  rw [names, List.mem_map, contains, Option.isSome_iff_exists]
  constructor
  · rintro ⟨⟨_, value⟩, h, rfl⟩
    exact ⟨value, (m.get?_eq_some_iff _ value).mpr h⟩
  · rintro ⟨value, h⟩
    exact ⟨(name, value), (m.get?_eq_some_iff name value).mp h, rfl⟩

theorem nodup_names (m : NameMap α) : m.names.Nodup :=
  List.pairwise_map.2 (m.sorted.imp fun h => String.ne_of_lt h)

theorem length_names (m : NameMap α) : m.names.length = m.size := List.length_map _

theorem eq_of_mem_iff {ps qs : List (String × α)} (hps : ps.Pairwise (·.1 < ·.1))
    (hqs : qs.Pairwise (·.1 < ·.1)) (h : ∀ q, q ∈ ps ↔ q ∈ qs) : ps = qs := by
  induction ps generalizing qs with
  | nil => exact (List.eq_nil_iff_forall_not_mem.2 fun q hq => by simpa using (h q).2 hq).symm
  | cons p ps ih =>
    cases qs with
    | nil => simpa using h p
    | cons q qs =>
      obtain ⟨hp, hps'⟩ := List.pairwise_cons.1 hps
      obtain ⟨hq, hqs'⟩ := List.pairwise_cons.1 hqs
      have hpq : p = q := by
        rcases List.mem_cons.1 ((h p).1 List.mem_cons_self) with hpq | hpq
        · exact hpq
        · rcases List.mem_cons.1 ((h q).2 List.mem_cons_self) with hqp | hqp
          · exact hqp.symm
          · exact absurd (hq p hpq) (String.lt_asymm (hp q hqp))
      subst hpq
      refine congrArg (p :: ·) (ih hps' hqs' fun r => ⟨fun hr => ?_, fun hr => ?_⟩)
      · rcases List.mem_cons.1 ((h r).1 (List.mem_cons_of_mem _ hr)) with rfl | hr'
        · exact absurd (hp r hr) (String.lt_irrefl _)
        · exact hr'
      · rcases List.mem_cons.1 ((h r).2 (List.mem_cons_of_mem _ hr)) with rfl | hr'
        · exact absurd (hq r hr) (String.lt_irrefl _)
        · exact hr'

/-- A map is determined by its look-ups. -/
theorem eq_of_get? {m n : NameMap α} (h : ∀ name, m.get? name = n.get? name) : m = n :=
  ext <| eq_of_mem_iff m.sorted n.sorted fun q => by
    rw [← get?_eq_some_iff m q.1 q.2, h, get?_eq_some_iff n q.1 q.2]

theorem erase_of_get?_eq_none {m : NameMap α} {name : String} (h : m.get? name = none) :
    m.erase name = m := by
  refine eq_of_get? fun key => ?_
  by_cases hk : key = name <;> simp [hk, h]

theorem get?_foldl_insert (ps : List (String × α)) (hps : ps.Pairwise (·.1 < ·.1)) (m : NameMap α)
    (key : String) :
    (ps.foldl (fun m p => m.insert p.1 p.2) m).get? key = (ps.lookup key).or (m.get? key) := by
  induction ps generalizing m with
  | nil => simp
  | cons p ps ih =>
    obtain ⟨hp, hps⟩ := List.pairwise_cons.1 hps
    rw [List.foldl_cons, ih hps, get?_insert, List.lookup_cons]
    by_cases hk : key = p.1
    · have hnone : ps.lookup key = none := Option.eq_none_iff_forall_ne_some.2 fun v hv =>
        String.lt_irrefl _ (hk ▸ hp _ (mem_of_lookup hv))
      simp [hk, hk ▸ hnone]
    · simp [hk, beq_eq_false_iff_ne.2 hk]

@[simp]
theorem get?_merge (m overrides : NameMap α) (key : String) :
    (m.merge overrides).get? key = (overrides.get? key).or (m.get? key) :=
  get?_foldl_insert _ overrides.sorted m key

theorem merge_merge (m overrides : NameMap α) :
    (m.merge overrides).merge overrides = m.merge overrides := by
  refine eq_of_get? fun name => ?_
  rw [get?_merge, get?_merge]
  cases get? overrides name <;> simp

end NameMap

end BuildItems
