import BuildItems.Proofs.Operation.Attempt

/-!
# Operations that add nothing

An Exclude or Remove drops the entries it means and an Update changes their metadata. Where an
operation refers to the list it is applied to, whether it means an entry of that list does not
depend on the other entries; if it goes by values, it does not depend on the metadata either.
-/

namespace BuildItems

variable {entries entries' : List Entry}

namespace Spec

variable {s : Spec} {lists lists' : Reference → List Entry}

theorem matchesIn_eq_of_mem (hlists : SameLists s lists lists' entries entries') {e : Entry}
    (he : e ∈ entries) (he' : e ∈ entries') :
    s.matchesIn lists e.item.value = s.matchesIn lists' e.item.value := by
  refine matchesIn_congr fun r hr => ?_
  rcases hlists r hr with h | ⟨h, h'⟩
  · rw [h]
  · have hself : (e.item.value == e.item.value) = true := beq_self_eq_true _
    rw [h, h', List.any_eq_true.mpr ⟨e, he, hself⟩, List.any_eq_true.mpr ⟨e, he', hself⟩]

theorem matchesIn_eq_of_valuesOf (hlists : SameLists s lists lists' entries entries')
    (hvalues : valuesOf entries = valuesOf entries') (value : String) :
    s.matchesIn lists value = s.matchesIn lists' value := by
  refine matchesIn_congr fun r hr => ?_
  rcases hlists r hr with h | ⟨h, h'⟩
  · rw [h]
  · have hany := congrArg (List.any · (· == value)) hvalues
    simp only [valuesOf, List.any_map] at hany
    rw [h, h']
    exact hany

end Spec

namespace Operation

variable {o : Operation} {lists lists' : Reference → List Entry} {pathCaseSensitive : Bool}
  {ask : Reference → Except EvalError (List Entry)}
  {answer : Glob → Except EvalError (List String)}

def means (o : Operation) (lists : Reference → List Entry) (pathCaseSensitive : Bool)
    (e : Entry) : Bool :=
  match o.action with
  | .removes (some m) => o.spec.agreesIn lists m pathCaseSensitive e.item
  | _ => o.spec.matchesIn lists e.item.value

theorem means_of_byValue (h : o.action.byMetadata? = none) (e : Entry) :
    o.means lists pathCaseSensitive e = o.spec.matchesIn lists e.item.value := by
  unfold means
  cases ha : o.action with
  | includes exclude metadata => rfl
  | excludes => rfl
  | removes byMetadata =>
    rw [ha, Action.byMetadata?] at h
    rw [h]
  | updates metadata => rfl

theorem means_eq_of_mem (hlists : SameLists o.spec lists lists' entries entries') {e : Entry}
    (he : e ∈ entries) (he' : e ∈ entries') :
    o.means lists pathCaseSensitive e = o.means lists' pathCaseSensitive e := by
  unfold means
  split
  · exact Spec.agreesIn_eq_of_mem hlists he he' _ _
  · exact Spec.matchesIn_eq_of_mem hlists he he'

theorem sameLists_listsOf_self (s : Spec) (itemType : String) (entries entries' : List Entry) :
    SameLists s (listsOf ask itemType entries) (listsOf ask itemType entries') entries
      entries' := by
  intro r _
  unfold listsOf
  split
  · exact .inr ⟨rfl, rfl⟩
  · exact .inl rfl

/-- What an operation that adds nothing makes of an entry. -/
def fate (o : Operation) (lists : Reference → List Entry) (pathCaseSensitive : Bool) (e : Entry) :
    Option Entry :=
  if o.condition && o.means lists pathCaseSensitive e then
    match o.action with
    | .updates metadata => some (e.withItem (e.item.withMerged metadata))
    | _ => none
  else some e

theorem policy_eq_filterMap (hk : o.kind ≠ .includes) (values : Glob → List String) :
    o.policy lists values pathCaseSensitive entries =
      entries.filterMap (o.fate lists pathCaseSensitive) := by
  have hdrops : ∀ q : Entry → Bool,
      (entries.filter fun e => !q e) = entries.filterMap fun e => if q e then none else some e := by
    intro q
    rw [← List.filterMap_eq_filter]
    refine List.filterMap_congr fun e _ => ?_
    cases hq : q e <;> simp [Option.guard, hq]
  unfold fate
  cases hc : o.condition with
  | false =>
    rw [policy_of_not_condition hc]
    simp
  | true =>
    simp only [Bool.true_and]
    cases ha : o.action with
    | includes exclude metadata => exact absurd (by rw [kind, ha, Action.kind]) hk
    | excludes =>
      rw [policy_of_excludes hc (.inl ha), hdrops]
      simp only [means, ha]
    | removes byMetadata =>
      cases byMetadata with
      | none =>
        rw [policy_of_excludes hc (.inr ha), hdrops]
        simp only [means, ha]
      | some m =>
        rw [policy_of_removes hc ha, hdrops]
        simp only [means, ha]
    | updates metadata =>
      rw [policy_of_updates hc ha, ← List.filterMap_eq_map]
      refine List.filterMap_congr fun e _ => ?_
      simp only [means, ha, Function.comp_apply]
      split
      · rfl
      · rfl

def revised (o : Operation) (ask : Reference → Except EvalError (List Entry))
    (pathCaseSensitive : Bool) (entries : List Entry) : List Entry :=
  entries.filterMap (o.fate (listsOf ask o.itemType entries) pathCaseSensitive)

theorem attempt_of_not_includes (hk : o.kind ≠ .includes)
    (houtside : ∀ u ∈ o.outside, ∃ entries, ask u = .ok entries) {ignored : NameSet}
    {m : Materialized} :
    o.attempt ask answer pathCaseSensitive ignored m =
      .ok ⟨o.revised ask pathCaseSensitive m.entries, m.removedGlobs.union o.removedGlobs⟩ := by
  refine attempt_eq_ok_iff.mpr ⟨houtside, ?_, ?_⟩
  · rw [asked_of_not_includes hk]
    exact List.forall_mem_nil _
  · rw [policy_eq_filterMap hk]
    rfl

theorem fate_eq_of_means_eq {e : Entry} (h : o.means lists pathCaseSensitive e =
    o.means lists' pathCaseSensitive e) :
    o.fate lists pathCaseSensitive e = o.fate lists' pathCaseSensitive e := by
  rw [fate, fate, h]

theorem fate_of_ne_updates (hk : o.kind ≠ .updates) (e : Entry) :
    o.fate lists pathCaseSensitive e =
      if o.condition && o.means lists pathCaseSensitive e then none else some e := by
  unfold fate
  cases ha : o.action with
  | updates metadata => exact absurd (by rw [kind, ha, Action.kind]) hk
  | includes exclude metadata => rfl
  | excludes => rfl
  | removes byMetadata => rfl

theorem fate_of_byValue (hk : o.kind ≠ .updates) (h : o.action.byMetadata? = none) (e : Entry) :
    o.fate lists pathCaseSensitive e =
      if o.condition && o.spec.matchesIn lists e.item.value then none else some e := by
  rw [fate_of_ne_updates hk, means_of_byValue h]

theorem fate_of_updates {metadata : Metadata} (ha : o.action = .updates metadata) (e : Entry) :
    o.fate lists pathCaseSensitive e =
      some (e.withItem (if o.condition && o.spec.matchesIn lists e.item.value then
        e.item.withMerged metadata else e.item)) := by
  unfold fate means
  rw [ha]
  dsimp only
  split
  · rfl
  · rfl

theorem revised_subset (hk : o.kind ≠ .updates) :
    o.revised ask pathCaseSensitive entries ⊆ entries := by
  intro e he
  obtain ⟨e', he', hfate⟩ := List.mem_filterMap.mp he
  rw [fate_of_ne_updates hk] at hfate
  split at hfate
  · cases hfate
  · cases hfate
    exact he'

theorem exists_of_kind_updates (hk : o.kind = .updates) :
    ∃ metadata, o.action = .updates metadata := by
  unfold kind at hk
  cases ha : o.action with
  | updates metadata => exact ⟨metadata, rfl⟩
  | includes exclude metadata => simp [ha, Action.kind] at hk
  | excludes => simp [ha, Action.kind] at hk
  | removes byMetadata => simp [ha, Action.kind] at hk

theorem valuesOf_revised (hk : o.kind = .updates) :
    valuesOf (o.revised ask pathCaseSensitive entries) = valuesOf entries := by
  obtain ⟨metadata, ha⟩ := exists_of_kind_updates hk
  have hvalue : ∀ e : Entry,
      ((o.fate (listsOf ask o.itemType entries) pathCaseSensitive e).map fun e => e.item.value) =
        some e.item.value := by
    intro e
    rw [fate_of_updates ha, Option.map_some]
    change some (ite _ _ _ : Item).value = _
    split
    · rfl
    · rfl
  rw [valuesOf, revised, List.map_filterMap, valuesOf, ← List.filterMap_eq_map]
  exact List.filterMap_congr fun e _ => hvalue e

/-- Of two operations, the second may look at the list before the first as well. -/
theorem revised_revised {o' : Operation} (htype : o'.itemType = o.itemType)
    (hvalue : o.kind = .updates → o'.action.byMetadata? = none) :
    o'.revised ask pathCaseSensitive (o.revised ask pathCaseSensitive entries) =
      entries.filterMap fun e =>
        (o.fate (listsOf ask o.itemType entries) pathCaseSensitive e).bind
          (o'.fate (listsOf ask o.itemType entries) pathCaseSensitive) := by
  rw [revised, htype]
  have hmeans : ∀ e ∈ o.revised ask pathCaseSensitive entries,
      o'.means (listsOf ask o.itemType (o.revised ask pathCaseSensitive entries))
          pathCaseSensitive e =
        o'.means (listsOf ask o.itemType entries) pathCaseSensitive e := by
    intro e he
    have hlists : SameLists o'.spec
        (listsOf ask o.itemType (o.revised ask pathCaseSensitive entries))
        (listsOf ask o.itemType entries) (o.revised ask pathCaseSensitive entries) entries :=
      sameLists_listsOf_self o'.spec o.itemType _ _
    by_cases hk : o.kind = .updates
    · -- the entries are not those of before, but they have the same values
      rw [means_of_byValue (hvalue hk), means_of_byValue (hvalue hk)]
      exact Spec.matchesIn_eq_of_valuesOf hlists (valuesOf_revised hk) e.item.value
    · exact means_eq_of_mem hlists he (revised_subset hk he)
  rw [List.filterMap_congr fun e he => fate_eq_of_means_eq (hmeans e he), revised,
    List.filterMap_filterMap]

end Operation

end BuildItems
