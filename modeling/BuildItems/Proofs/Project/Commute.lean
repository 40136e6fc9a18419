import BuildItems.Proofs.Operation.Commute
import BuildItems.Proofs.Project.Steady

/-!
# Filters in either order

Two declarations for the same type, each an Exclude, a Remove or an Update, commute under the
conditions that their operations do. Unlike with independent declarations, a later one may refer to
the type of an earlier one and then counts it; but that is the list it is applied to, so the count
does not matter.
-/

namespace BuildItems

variable {σ : Type}

/-- Two declarations for one type, none an Include and at most one an Update. Beside an Update, a
Remove goes by values. -/
structure Declaration.CommutesWith (a b : Declaration) : Prop where
  itemType : b.itemType = a.itemType
  left : a.kind ≠ .includes
  right : b.kind ≠ .includes
  beside : a.kind = .updates → b.kind ≠ .updates ∧
    (b.kind = .removes → MetadataMatch.ofNames? b.matchOnMetadata b.comparisonMode = none)
  beside' : b.kind = .updates → a.kind ≠ .updates ∧
    (a.kind = .removes → MetadataMatch.ofNames? a.matchOnMetadata a.comparisonMode = none)

theorem Materialized.Alike.eq {m m' : Materialized} (h : Materialized.Alike Eq m m') : m = m' := by
  have hentry : ∀ e e' : Entry, e.item = e'.item ∧ e.order = e'.order → e = e' := by
    rintro ⟨item, order⟩ ⟨item', order'⟩ ⟨rfl, rfl⟩
    rfl
  have hentries : List.Forall₂ Eq m.entries m'.entries := h.entries.imp hentry
  rw [List.forall₂_eq_eq_eq] at hentries
  obtain ⟨entries, removedGlobs⟩ := m
  obtain ⟨entries', removedGlobs'⟩ := m'
  exact congrArg₂ Materialized.mk hentries h.removedGlobs

namespace Project

variable {p p' p'' : Project} {a b : Declaration} {oa ob : Operation} {answer : Glob → List String}
  {expander : Expander σ}

def commuted (p : Project) (oa ob : Operation) (h : ob.itemType = oa.itemType) : Replacement where
  before := p.operations
  old := [oa, ob.recounted (p.append oa).counts (p.operations.length + 1)]
  new := [ob, oa.recounted (p.append ob).counts (p.operations.length + 1)]
  numbers := Eq
  covered o' ho' := by
    refine ⟨oa, List.mem_cons_self, ?_⟩
    rcases List.mem_pair.mp ho' with rfl | rfl
    · exact h.symm
    · rfl
  numbers_before _ _ := rfl
  numbers_after _ := rfl

theorem relates_commuted (ha : p.operationOf a = .ok oa) (hb : p.operationOf b = .ok ob)
    (h : ob.itemType = oa.itemType) :
    (p.commuted oa ob h).Relates ((p.tryDeclare a).tryDeclare b)
      ((p.tryDeclare b).tryDeclare a) := by
  have hbNext := p.operationOf_append oa b
  have haNext := p.operationOf_append ob a
  rw [hb] at hbNext
  rw [ha] at haNext
  rw [tryDeclare_of_ok ha, tryDeclare_of_ok hb, tryDeclare_of_ok hbNext, tryDeclare_of_ok haNext]
  refine .of_operations_eq rfl rfl ?_ ?_
  · simp [append, commuted]
  · simp [append, commuted]

section

variable {o o' : Operation} {x : Replacement}

theorem mem_outside_of_second (ho : o.FollowsOn p.operations) (htype : o'.itemType = o.itemType)
    {order : Nat} {u : Reference} (hu : u ∈ (o.recounted (p.append o').counts order).outside) :
    u ∈ o.outside := by
  rw [Operation.outside_recounted] at hu
  obtain ⟨v, hv, rfl⟩ := List.mem_map.mp hu
  obtain ⟨hcount, hne⟩ := opCount_of_mem_outside ho hv
  have hself : v.recounted (p.append o').counts = v := by
    rw [Reference.recounted, counts_append_of_ne (htype ▸ hne), ← hcount]
  rwa [hself]

theorem retold_first (hx : x.before = p.operations) (ho : o.FollowsOn p.operations)
    (hk : o.kind ≠ .includes) (htype : o'.itemType = o.itemType) (order : Nat) :
    Operation.Retold x.numbers x.count (o.recounted (p.append o').counts order) o := by
  refine ⟨⟨p.counts, fun u hu => ?_, ?_⟩, fun hincludes => ?_⟩
  · have hmem := mem_outside_of_second ho htype hu
    rw [← (opCount_of_mem_outside ho hmem).1]
    exact (Replacement.clear_of_followsOn (hx ▸ ho) hmem).2
  · rw [Operation.recounted_recounted]
    exact (recounted_counts ho o.order).symm
  · rw [Operation.kind_recounted] at hincludes
    exact absurd hincludes hk

end

theorem commuting_second {o o' : Operation} (h : Operation.Commuting o o')
    (count : Reference → Nat) (order : Nat) :
    Operation.Commuting o (o'.recounted count order) where
  itemType := h.itemType
  left := h.left
  right := (o'.kind_recounted count order).symm ▸ h.right
  beside hk := by
    obtain ⟨hkind, hvalue⟩ := h.beside hk
    rw [Operation.kind_recounted]
    exact ⟨hkind, (o'.action.byMetadata?_recounted count).trans hvalue⟩
  beside' hk := h.beside' (by rwa [Operation.kind_recounted] at hk)

theorem agrees_commuted (answer : Glob → List String) (hoa : oa.FollowsOn p.operations)
    (hob : ob.FollowsOn p.operations) (h : Operation.Commuting oa ob) (hp' : p'.Coherent)
    (hrelates : (p.commuted oa ob h.itemType).Relates p' p'') :
    (p.commuted oa ob h.itemType).Agrees p' p'' fun g => .ok (answer g) := by
  let second := ob.recounted (p.append oa).counts (p.operations.length + 1)
  have hfirstMem : oa ∈ (p.commuted oa ob h.itemType).old := List.mem_cons_self
  have hsecondMem : second ∈ (p.commuted oa ob h.itemType).old :=
    List.mem_cons_of_mem _ (List.mem_singleton_self _)
  have hcommuting : Operation.Commuting oa second := commuting_second h _ _
  have hsecondType : ∀ s ∈ second.specs, s.itemType = second.itemType := by
    rw [Operation.specs_recounted, List.forall_mem_map]
    exact hob.itemType
  refine Replacement.agrees_of_itemType oa.itemType (fun o ho => ?_)
    fun after after' hask hafter => ?_
  · rcases List.mem_pair.mp ho with rfl | rfl
    · rfl
    · exact h.itemType
  · -- in the first project the two may change places, then each is told as in the second
    refine .of_eq (Operation.removedBy_comm oa second after)
      (Operation.attemptAll_comm hcommuting
        (fun u hu => hrelates.exists_entriesAt_steady hp' hfirstMem hu)
        (fun u hu => hrelates.exists_entriesAt_steady hp' hsecondMem hu) after) ?_
    refine .cons (retold_first rfl hob h.right h.itemType.symm _) hsecondType
      (hask second hsecondMem) ?_
    exact .cons (.second rfl hoa h.itemType fun hk => absurd hk h.left) hoa.itemType
      (hask oa hfirstMem) hafter

theorem clear_commuted (hoa : oa.FollowsOn p.operations) (hob : ob.FollowsOn p.operations)
    (h : ob.itemType = oa.itemType) :
    ∀ o ∈ (p.commuted oa ob h).old, ∀ u ∈ o.outside, (p.commuted oa ob h).Clear u := by
  intro o ho u hu
  rcases List.mem_pair.mp ho with rfl | rfl
  · exact (Replacement.clear_of_followsOn hoa hu).1
  · exact (Replacement.clear_of_followsOn hob (mem_outside_of_second hob h.symm hu)).1

theorem commuting_of_declares (hda : p.Declares a oa) (hdb : p.Declares b ob)
    (h : a.CommutesWith b) : Operation.Commuting oa ob where
  itemType := by rw [hda.itemType, hdb.itemType, h.itemType]
  left := hda.kind ▸ h.left
  right := hdb.kind ▸ h.right
  beside hk := by
    obtain ⟨hkind, hvalue⟩ := h.beside (hda.kind ▸ hk)
    exact ⟨hdb.kind ▸ hkind, hdb.byMetadata? hvalue⟩
  beside' hk := by
    obtain ⟨hkind, hvalue⟩ := h.beside' (hdb.kind ▸ hk)
    exact ⟨hda.kind ▸ hkind, hda.byMetadata? hvalue⟩

theorem Reachable.exists_materialize_comm (hp : p.Reachable) (h : a.CommutesWith b)
    (hsteady : expander.Steady answer) (after : List Step) (itemType : String) (host : σ) :
    ∃ m, ((((p.tryDeclare a).tryDeclare b).performAll after).materialize expander itemType
        host).1 = .ok m ∧
      ((((p.tryDeclare b).tryDeclare a).performAll after).materialize expander itemType
        host).1 = .ok m := by
  have hfirst := (((hp.tryDeclare a).tryDeclare b).performAll after).coherent
  have hsecond := (((hp.tryDeclare b).tryDeclare a).performAll after).coherent
  obtain ⟨same, hsame⟩ := hsecond.exists_materialize_steady hsteady itemType host
  cases ha : p.operationOf a with
  | error e =>
    rw [tryDeclare_comm_of_error ha]
    exact ⟨same, hsame, hsame⟩
  | ok oa =>
    cases hb : p.operationOf b with
    | error e =>
      rw [← tryDeclare_comm_of_error hb]
      exact ⟨same, hsame, hsame⟩
    | ok ob =>
      have hda := operationOf_eq_ok_iff.mp ha
      have hdb := operationOf_eq_ok_iff.mp hb
      have hcommuting := commuting_of_declares hda hdb h
      have hrelates := (relates_commuted ha hb hcommuting.itemType).performAll after
      have hclear := clear_commuted hda.followsOn hdb.followsOn hcommuting.itemType
      have hagrees :=
        agrees_commuted answer hda.followsOn hdb.followsOn hcommuting hfirst hrelates
      obtain ⟨m, m', hm, hm', halike⟩ :=
        hrelates.materialize_steady hfirst hsecond hclear hagrees hsteady itemType host
      exact ⟨m, hm, halike.eq ▸ hm'⟩

/-- Two filters of one type that stand next to each other may change places: with an expander that
always answers, and the same glob always with the same values, every type has the same items, with
the same numbers, and the same removed globs. -/
theorem materialize_commute (id : EvaluationId) (options : Options) (before after : List Step)
    {a b : Declaration} (h : a.CommutesWith b) (hsteady : expander.Steady answer)
    (itemType : String) (host : σ) :
    let p := performAll { id, options } (before ++ .declare a :: .declare b :: after)
    let p' := performAll { id, options } (before ++ .declare b :: .declare a :: after)
    ∃ m, (p.materialize expander itemType host).1 = .ok m ∧
      (p'.materialize expander itemType host).1 = .ok m := by
  intro p p'
  have hstart := (Reachable.start id options).performAll before
  have hsplit : p = performAll (tryDeclare (tryDeclare _ a) b) after :=
    performAll_append _ before _
  have hsplit' : p' = performAll (tryDeclare (tryDeclare _ b) a) after :=
    performAll_append _ before _
  rw [hsplit, hsplit']
  exact hstart.exists_materialize_comm h hsteady after itemType host

/-- The Update refers to the list itself, and what the Exclude refers to was made from it. -/
theorem materialize_commute_narrowed :
    let before : List Step := [.declare { kind := .includes, itemType := "A", itemSpec := "a;b;*.c" },
      .declare { kind := .includes, itemType := "B", itemSpec := "@(A)", exclude := some "a" }]
    let a : Declaration := { kind := .updates, itemType := "A", itemSpec := "@(A)",
                             metadata := NameMap.insert ∅ "k" "v" }
    let b : Declaration := { kind := .excludes, itemType := "A", itemSpec := "@(B);c" }
    let after : List Step := [.declare { kind := .includes, itemType := "B", itemSpec := "@(A)" }]
    let expander := Expander.recording fun _ => .ok ["f.c"]
    let p : Project :=
      performAll { id := ⟨"narrowed"⟩ } (before ++ .declare a :: .declare b :: after)
    let p' : Project :=
      performAll { id := ⟨"narrowed"⟩ } (before ++ .declare b :: .declare a :: after)
    a.CommutesWith b ∧ expander.Steady (fun _ => ["f.c"]) ∧
      ∃ m, (p.materialize expander "B" []).1 = .ok m ∧
        m.entries.map (fun e => (e.item.value, NameMap.get? e.item.metadata "k", e.order)) =
          [("b", none, 1), ("f.c", none, 1), ("a", some "v", 4)] ∧
        (p'.materialize expander "B" []).1 = .ok m := by
  intro before a b after expander p p'
  have hcommutes : a.CommutesWith b :=
    ⟨rfl, by decide, by decide, fun _ => ⟨by decide, fun h => by cases h⟩, fun h => by cases h⟩
  have hsteady : expander.Steady (fun _ => ["f.c"]) := fun _ _ => rfl
  have hlist : (p.materialize expander "B" []).1.map (fun m => m.entries.map fun e =>
      (e.item.value, NameMap.get? e.item.metadata "k", e.order)) =
        .ok [("b", none, 1), ("f.c", none, 1), ("a", some "v", 4)] := by
    decide +kernel
  obtain ⟨m, hm, hm'⟩ :=
    materialize_commute ⟨"narrowed"⟩ {} before after hcommutes hsteady "B" []
  obtain ⟨n, hn, hentries⟩ := map_eq_ok_iff.mp hlist
  obtain rfl : m = n := Except.ok.inj (hm.symm.trans hn)
  exact ⟨hcommutes, hsteady, m, hm, hentries, hm'⟩

/-- An expander that answers in turn gives each of the two other types its value in the order in
which the filters ask for them. -/
theorem materialize_commute_counting :
    let before : List Step := [.declare { kind := .includes, itemType := "T", itemSpec := "x0;x1" },
      .declare { kind := .includes, itemType := "V", itemSpec := "*.v" },
      .declare { kind := .includes, itemType := "W", itemSpec := "*.w" }]
    let a : Declaration := { kind := .excludes, itemType := "T", itemSpec := "@(V)" }
    let b : Declaration := { kind := .updates, itemType := "T", itemSpec := "@(W)",
                             metadata := NameMap.insert ∅ "k" "v" }
    let p : Project := performAll { id := ⟨"counting"⟩ } (before ++ [.declare a, .declare b])
    let p' : Project := performAll { id := ⟨"counting"⟩ } (before ++ [.declare b, .declare a])
    a.CommutesWith b ∧ Expander.counting.NeverFails ∧
      (p.materialize .counting "T" 0).1.map (fun m => valuesOf m.entries) = .ok ["x1"] ∧
      (p'.materialize .counting "T" 0).1.map (fun m => valuesOf m.entries) = .ok ["x0"] := by
  intro before a b p p'
  have hcommutes : a.CommutesWith b :=
    ⟨rfl, by decide, by decide, fun h => (by cases h), fun _ => ⟨by decide, fun h => by cases h⟩⟩
  refine ⟨hcommutes, Expander.neverFails_counting, ?_, ?_⟩
  · decide +kernel
  · decide +kernel

end Project

end BuildItems
