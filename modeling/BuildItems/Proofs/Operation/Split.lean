import BuildItems.Proofs.Operation.Filtering
import BuildItems.Proofs.Operation.Removing
import BuildItems.Proofs.Spec.Joined

/-!
# An operation in two

An operation with a joined specification does what two operations do that have one part of it each.
The second of these is applied to the list after the first. That makes no difference to a filter
that goes by values; to an Include it makes none as long as it does not refer to its own list.
-/

namespace BuildItems

namespace Operation

def withSpec (o : Operation) (s : Spec) : Operation := { o with spec := s }

variable {o : Operation} {left right : Spec} {lists : Reference → List Entry}
  {pathCaseSensitive : Bool} {ask : Reference → Except EvalError (List Entry)}
  {answer : Glob → List String} {options : Options}

theorem kind_withSpec (o : Operation) (s : Spec) : (o.withSpec s).kind = o.kind := rfl

theorem removing_split (h : o.spec.Joins left right) :
    o.removing = (o.withSpec left).removing ++ (o.withSpec right).removing := by
  have hglobs : o.spec.globs = left.globs ++ right.globs := h.globs
  unfold removing
  rw [kind_withSpec, kind_withSpec, hglobs]
  have hcondition (spec : Spec) : (o.withSpec spec).condition = o.condition := rfl
  rw [hcondition, hcondition]
  cases o.kind <;> cases o.condition <;> rfl

theorem contains_removedGlobs_split (h : o.spec.Joins left right) (text : String) :
    NameMap.contains o.removedGlobs text =
      (NameMap.contains (o.withSpec left).removedGlobs text ||
        NameMap.contains (o.withSpec right).removedGlobs text) := by
  rw [Bool.eq_iff_iff, Bool.or_eq_true, contains_removedGlobs_iff, contains_removedGlobs_iff,
    contains_removedGlobs_iff, removing_split h]
  simp only [List.mem_append, or_and_right, exists_or]

theorem removedBy_split (h : o.spec.Joins left right) (rest : List Operation) :
    removedBy (o :: rest) = removedBy (o.withSpec left :: o.withSpec right :: rest) := by
  refine removedBy_congr fun text => ?_
  rw [List.any_cons, List.any_cons, List.any_cons, contains_removedGlobs_split h, Bool.or_assoc]

theorem union_removedGlobs_split (h : o.spec.Joins left right) (globs : NameSet) :
    globs.union o.removedGlobs =
      (globs.union (o.withSpec left).removedGlobs).union (o.withSpec right).removedGlobs := by
  refine NameSet.eq_of_contains fun text => ?_
  simp only [NameSet.contains_union, contains_removedGlobs_split h, Bool.or_assoc]

theorem fate_split (h : o.spec.Joins left right) (hvalue : o.action.byMetadata? = none)
    (e : Entry) :
    o.fate lists pathCaseSensitive e =
      ((o.withSpec left).fate lists pathCaseSensitive e).bind
        ((o.withSpec right).fate lists pathCaseSensitive) := by
  have hwhole := h.matchesIn lists e.item.value
  by_cases hk : o.kind = .updates
  · obtain ⟨metadata, ha⟩ := exists_of_kind_updates hk
    have hupdate : ∀ (s : Spec) (e : Entry), (o.withSpec s).fate lists pathCaseSensitive e =
        some (e.withItem (if o.condition && s.matchesIn lists e.item.value then
          e.item.withMerged metadata else e.item)) :=
      fun s e => fate_of_updates (o := o.withSpec s) ha e
    have htwice : (e.item.withMerged metadata).withMerged metadata = e.item.withMerged metadata :=
      congrArg (fun m => ({ e.item with metadata := m } : Item)) (NameMap.merge_merge _ metadata)
    rw [fate_of_updates ha, hwhole, hupdate, Option.bind_some, hupdate]
    cases o.condition <;> cases left.matchesIn lists e.item.value <;>
      cases hright : right.matchesIn lists e.item.value <;>
        simp [Entry.withItem, hright, htwice]
  · have hdrop : ∀ (s : Spec) (e : Entry), (o.withSpec s).fate lists pathCaseSensitive e =
        if o.condition && s.matchesIn lists e.item.value then none else some e :=
      fun s e => fate_of_byValue (o := o.withSpec s) hk hvalue e
    rw [fate_of_byValue hk hvalue, hwhole, hdrop]
    cases hc : o.condition <;> cases left.matchesIn lists e.item.value <;>
      simp [hdrop, hc]

theorem revised_split (h : o.spec.Joins left right) (hvalue : o.action.byMetadata? = none)
    (entries : List Entry) :
    o.revised ask pathCaseSensitive entries =
      (o.withSpec right).revised ask pathCaseSensitive
        ((o.withSpec left).revised ask pathCaseSensitive entries) := by
  have htype : (o.withSpec right).itemType = (o.withSpec left).itemType := h.right.trans h.left.symm
  have hself : (o.withSpec left).itemType = o.itemType := h.left
  rw [revised_revised htype fun _ => hvalue, revised, hself]
  exact List.filterMap_congr fun e _ => fate_split h hvalue e

theorem mem_outside_of_withSpec (h : o.spec.Joins left right) {s : Spec} (hs : s = left ∨ s = right)
    {u : Reference} (hu : u ∈ (o.withSpec s).outside) : u ∈ o.outside := by
  rw [outside_eq_append, List.mem_append] at hu ⊢
  rw [h.outside, List.mem_append]
  rcases hu with hu | hu
  · rcases hs with rfl | rfl
    · exact .inl (.inl hu)
    · exact .inl (.inr hu)
  · exact .inr hu

theorem mem_references_of_withSpec (h : o.spec.Joins left right) {s : Spec}
    (hs : s ∈ (o.withSpec right).specs) {r : Reference} (hr : r ∈ s.references) :
    ∃ s' ∈ o.specs, r ∈ s'.references := by
  rcases mem_specs_iff.mp hs with rfl | hs
  · refine ⟨o.spec, o.spec_mem_specs, ?_⟩
    rw [h.references]
    exact List.mem_append_right _ hr
  · exact ⟨s, mem_specs_iff.mpr (.inr hs), hr⟩

theorem policy_split (h : o.spec.Joins left right) (hk : o.kind = .includes)
    (hown : ∀ s ∈ o.specs, ∀ r ∈ s.references, r.itemType ≠ o.itemType)
    {values : Glob → List String} {entries mid : List Entry}
    (hmid : (o.withSpec left).policy (listsOf ask o.itemType entries) values pathCaseSensitive
      entries = mid) :
    o.policy (listsOf ask o.itemType entries) values pathCaseSensitive entries =
      (o.withSpec right).policy (listsOf ask o.itemType mid) values pathCaseSensitive mid := by
  have hlists : ∀ s ∈ (o.withSpec right).specs, ∀ r ∈ s.references,
      listsOf ask o.itemType mid r = listsOf ask o.itemType entries r := by
    intro s hs r hr
    obtain ⟨s', hs', hr'⟩ := mem_references_of_withSpec h hs hr
    rw [listsOf, listsOf, if_neg (hown s' hs' r hr'), if_neg (hown s' hs' r hr')]
  rw [policy_congr hlists]
  cases hc : o.condition with
  | false =>
    rw [policy_of_not_condition hc, policy_of_not_condition (o := o.withSpec right) hc, ← hmid]
    exact (policy_of_not_condition (o := o.withSpec left) hc).symm
  | true =>
    cases ha : o.action with
    | includes exclude metadata =>
      have hleft : (o.withSpec left).itemType = o.itemType := h.left
      have hright : (o.withSpec right).itemType = o.itemType := h.right
      rw [policy_of_includes hc ha, policy_of_includes (o := o.withSpec right) hc ha, ← hmid,
        policy_of_includes (o := o.withSpec left) hc ha, hleft, hright, h.itemsIn,
        List.filter_append, List.map_append, List.append_assoc]
      rfl
    | excludes => simp [kind, ha, Action.kind] at hk
    | removes byMetadata => simp [kind, ha, Action.kind] at hk
    | updates metadata => simp [kind, ha, Action.kind] at hk

theorem attempt_answered (houtside : ∀ u ∈ o.outside, ∃ entries, ask u = .ok entries)
    {ignored : NameSet} {m : Materialized} :
    o.attempt ask (fun g => .ok (answer g)) pathCaseSensitive ignored m =
      .ok ⟨o.policy (listsOf ask o.itemType m.entries) (shown (fun g => .ok (answer g)) ignored)
        pathCaseSensitive m.entries, m.removedGlobs.union o.removedGlobs⟩ :=
  attempt_eq_ok_iff.mpr ⟨houtside, fun g _ => ⟨answer g, rfl⟩, rfl⟩

theorem attemptAll_split (h : o.spec.Joins left right) (hvalue : o.action.byMetadata? = none)
    (hown : o.kind = .includes → ∀ s ∈ o.specs, ∀ r ∈ s.references, r.itemType ≠ o.itemType)
    (houtside : ∀ u ∈ o.outside, ∃ entries, ask u = .ok entries) (rest : List Operation)
    (m : Materialized) :
    attemptAll ask (fun g => .ok (answer g)) options (o :: rest) m =
      attemptAll ask (fun g => .ok (answer g)) options
        (o.withSpec left :: o.withSpec right :: rest) m := by
  have hleft : ∀ u ∈ (o.withSpec left).outside, ∃ entries, ask u = .ok entries :=
    fun u hu => houtside u (mem_outside_of_withSpec h (.inl rfl) hu)
  have hright : ∀ u ∈ (o.withSpec right).outside, ∃ entries, ask u = .ok entries :=
    fun u hu => houtside u (mem_outside_of_withSpec h (.inr rfl) hu)
  by_cases hk : o.kind = .includes
  · have hnone : (o.withSpec right).removedGlobs = ∅ := by
      unfold removedGlobs
      rw [kind_withSpec, hk]
    have hignored : removedBy (o.withSpec right :: rest) = removedBy rest := by
      refine removedBy_congr fun text => ?_
      rw [List.any_cons, hnone]
      exact Bool.false_or _
    have hleftType : (o.withSpec left).itemType = o.itemType := h.left
    have hrightType : (o.withSpec right).itemType = o.itemType := h.right
    rw [attemptAll_cons_of_ok (attempt_answered houtside),
      attemptAll_cons_of_ok (attempt_answered hleft),
      attemptAll_cons_of_ok (attempt_answered hright), union_removedGlobs_split h, ignoredBefore,
      ignoredBefore, hignored, hleftType, hrightType, policy_split h hk (hown hk) rfl]
  · rw [attemptAll_cons_of_ok (attempt_of_not_includes hk houtside),
      attemptAll_cons_of_ok (attempt_of_not_includes (o := o.withSpec left) hk hleft),
      attemptAll_cons_of_ok (attempt_of_not_includes (o := o.withSpec right) hk hright),
      union_removedGlobs_split h, revised_split h hvalue]

end Operation

end BuildItems
