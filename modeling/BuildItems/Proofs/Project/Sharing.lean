import BuildItems.Proofs.Project.Items

/-!
# One memo for all types

When the items of every type are asked for, one memo serves all of them, and a list of one type may
be remembered from a reference of another. This cannot be seen: every type has the items it has
when it is asked for alone, and the first type in order that fails alone decides the error.
-/

namespace BuildItems

variable {σ : Type}

namespace Project

variable {p : Project} {answer : Glob → Except EvalError (List String)} {itemType : String}
  {itemTypes : List String}

def itemsOf (p : Project) (answer : Glob → Except EvalError (List String)) (itemType : String) :
    Except (String × EvalError) (String × Materialized) :=
  match p.itemsAt answer (p.fullReference itemType) with
  | .ok m => .ok (itemType, m)
  | .error e => .error (itemType, e)

theorem itemsOf_eq_ok_iff {named : String × Materialized} :
    p.itemsOf answer itemType = .ok named ↔
      named.1 = itemType ∧ p.itemsAt answer (p.fullReference itemType) = .ok named.2 := by
  rw [itemsOf]
  cases p.itemsAt answer (p.fullReference itemType) with
  | error e => simp
  | ok m => simp [Prod.ext_iff, eq_comm]

theorem itemsOf_of_eq_error {e : EvalError}
    (h : p.itemsAt answer (p.fullReference itemType) = .error e) :
    p.itemsOf answer itemType = .error (itemType, e) := by
  rw [itemsOf, h]

theorem exists_itemsOf_eq_ok_iff :
    (∃ named, p.itemsOf answer itemType = .ok named) ↔
      ∃ m, p.itemsAt answer (p.fullReference itemType) = .ok m := by
  simp [itemsOf_eq_ok_iff]

/-- The memo that one type leaves behind serves the next. -/
theorem Coherent.foldTypes_fst (hp : p.Coherent) (ts : List String) {s : Session σ}
    (hs : Faithful (p.itemsAt answer) s.memo) :
    (p.foldTypes (.fixed answer) ts s).1 = ts.mapM (p.itemsOf answer) := by
  induction ts generalizing s with
  | nil => rfl
  | cons t ts ih =>
    obtain ⟨hanswer, hgood⟩ := hp.foldType_yields t s hs
    rw [List.mapM_cons, itemsOf, ← hanswer]
    rcases hrun : (p.foldType (.fixed answer) t).run s with ⟨e | m, s'⟩
    · rw [foldTypes_cons_of_error hrun]
      rfl
    · rw [hrun] at hgood
      rw [foldTypes_cons_of_ok hrun, ih hgood]
      cases ts.mapM (p.itemsOf answer) with
      | error e => rfl
      | ok ms => rfl

theorem Coherent.materializeAll_fst (hp : p.Coherent) (host : σ) :
    (p.materializeAll (.fixed answer) host).1 =
      (p.itemTypes.names.mapM (p.itemsOf answer)).mapError Prod.snd := by
  obtain ⟨s, hs, hrun⟩ := p.exists_materializeAll_eq (.fixed answer) host
  have hempty : Faithful (p.itemsAt answer) s.memo := hs ▸ List.forall_mem_nil _
  rw [hrun, hp.foldTypes_fst p.itemTypes.names hempty]

theorem mem_itemTypes_iff : itemType ∈ p.itemTypes.names ↔ 0 < p.operationCount itemType := by
  rw [NameMap.mem_names_iff, itemTypes, NameSet.contains_ofNames, List.contains_iff_mem,
    operationCount, List.length_pos_iff_exists_mem, List.mem_map]
  constructor
  · rintro ⟨o, ho, rfl⟩
    exact ⟨o, List.mem_filter.mpr ⟨ho, beq_self_eq_true _⟩⟩
  · rintro ⟨o, ho⟩
    obtain ⟨hmem, htype⟩ := List.mem_filter.mp ho
    exact ⟨o, hmem, eq_of_beq htype⟩

theorem pairwise_itemTypes (p : Project) : p.itemTypes.names.Pairwise (· < ·) :=
  List.pairwise_map.mpr p.itemTypes.sorted

theorem map_fst_of_mapM_itemsOf {ts : List String} {ms : List (String × Materialized)}
    (h : ts.mapM (p.itemsOf answer) = .ok ms) : ms.map Prod.fst = ts := by
  induction mapM_eq_ok_iff.mp h with
  | nil => rfl
  | cons hnamed hrest ih =>
    rw [List.map_cons, (itemsOf_eq_ok_iff.mp hnamed).1, ih (mapM_eq_ok_iff.mpr hrest)]

theorem eq_ok_of_mem_mapM_itemsOf {ts : List String} {ms : List (String × Materialized)}
    (h : ts.mapM (p.itemsOf answer) = .ok ms) {t : String} {m : Materialized} (hm : (t, m) ∈ ms) :
    p.itemsAt answer (p.fullReference t) = .ok m := by
  obtain ⟨u, _, hu⟩ := exists_of_mem_mapM h hm
  obtain ⟨rfl, hitems⟩ := itemsOf_eq_ok_iff.mp hu
  exact hitems

theorem Coherent.materializeAll_eq_ok_iff (hp : p.Coherent) (host : σ)
    {ms : List (String × Materialized)} :
    (p.materializeAll (.fixed answer) host).1 = .ok ms ↔
      p.itemTypes.names.mapM (p.itemsOf answer) = .ok ms := by
  rw [hp.materializeAll_fst]
  cases p.itemTypes.names.mapM (p.itemsOf answer) with
  | error e => simp [Except.mapError]
  | ok ms' => simp [Except.mapError]

theorem Coherent.materializeAll_eq_error (hp : p.Coherent) (host : σ) {e : EvalError}
    (hdeclared : 0 < p.operationCount itemType)
    (h : p.itemsAt answer (p.fullReference itemType) = .error e)
    (hearlier : ∀ u, 0 < p.operationCount u → u < itemType →
      ∃ m, p.itemsAt answer (p.fullReference u) = .ok m) :
    (p.materializeAll (.fixed answer) host).1 = .error e := by
  obtain ⟨before, after, hsplit⟩ := List.append_of_mem (mem_itemTypes_iff.mpr hdeclared)
  have hsorted : (before ++ itemType :: after).Pairwise (· < ·) := hsplit ▸ p.pairwise_itemTypes
  have hbefore : ∀ u ∈ before, ∃ named, p.itemsOf answer u = .ok named := by
    intro u hu
    have hmem : u ∈ p.itemTypes.names := hsplit ▸ List.mem_append_left _ hu
    have hlt : u < itemType :=
      (List.pairwise_append.mp hsorted).2.2 u hu itemType List.mem_cons_self
    exact exists_itemsOf_eq_ok_iff.mpr (hearlier u (mem_itemTypes_iff.mp hmem) hlt)
  rw [hp.materializeAll_fst, hsplit, mapM_eq_error_of_first hbefore (itemsOf_of_eq_error h)]
  rfl

/-- All types succeed if each does alone, and then each has the items it has alone; else the error
is that of the first type that fails alone. -/
theorem materializeAll_eq_each (hp : p.Reachable)
    (answer : Glob → Except EvalError (List String)) (host other : σ) :
    let all := (p.materializeAll (.fixed answer) host).1
    let one (itemType : String) := (p.materialize (.fixed answer) itemType other).1
    ((∃ ms, all = .ok ms) ↔ ∀ t, 0 < p.operationCount t → ∃ m, one t = .ok m) ∧
      (∀ ms, all = .ok ms →
        (ms.map Prod.fst).Pairwise (· < ·) ∧
          (∀ t, t ∈ ms.map Prod.fst ↔ 0 < p.operationCount t) ∧
          ∀ t m, (t, m) ∈ ms → one t = .ok m) ∧
      ∀ t e, 0 < p.operationCount t → one t = .error e →
        (∀ u, 0 < p.operationCount u → u < t → ∃ m, one u = .ok m) → all = .error e := by
  intro all one
  have hcoherent := hp.coherent
  have hone : ∀ t, one t = p.itemsAt answer (p.fullReference t) :=
    fun t => hcoherent.materialize_fst t other
  have hall : ∀ ms, all = .ok ms ↔ p.itemTypes.names.mapM (p.itemsOf answer) = .ok ms :=
    fun ms => hcoherent.materializeAll_eq_ok_iff host
  simp only [hone]
  refine ⟨?_, ?_, ?_⟩
  · simp only [hall, exists_mapM_eq_ok_iff, exists_itemsOf_eq_ok_iff, mem_itemTypes_iff]
  · intro ms hms
    have hitems := (hall ms).mp hms
    have hkeys := map_fst_of_mapM_itemsOf hitems
    rw [hkeys]
    exact ⟨p.pairwise_itemTypes, fun t => mem_itemTypes_iff,
      fun t m hm => eq_ok_of_mem_mapM_itemsOf hitems hm⟩
  · intro t e ht he hearlier
    exact hcoherent.materializeAll_eq_error host ht he hearlier

theorem materializeAll_eq_each_crossed :
    let expander : Expander Unit := .fixed fun _ => .ok ["f.c"]
    ∃ ms, ((crossed {}).materializeAll expander ()).1 = .ok ms ∧ "A" ∈ ms.map Prod.fst ∧
      ∀ t m, (t, m) ∈ ms → ((crossed {}).materialize expander t ()).1 = .ok m := by
  intro expander
  have hok : ((crossed {}).materializeAll expander ()).1.isOk = true := by decide +kernel
  obtain ⟨_, heach, _⟩ :=
    materializeAll_eq_each (reachable_crossed {}) (fun _ => .ok ["f.c"]) () ()
  cases h : ((crossed {}).materializeAll expander ()).1 with
  | error e =>
    rw [h] at hok
    cases hok
  | ok ms =>
    obtain ⟨_, hkeys, hitems⟩ := heach ms h
    exact ⟨ms, rfl, (hkeys "A").mpr (by decide +kernel), hitems⟩

end Project

end BuildItems
