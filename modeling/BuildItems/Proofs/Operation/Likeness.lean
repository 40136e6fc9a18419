import BuildItems.Proofs.Operation.Policy
import BuildItems.Proofs.Project.Reachable
import Mathlib.Data.List.Basic

/-!
# Lists that agree on some values

Two lists may differ in entries whose values do not count and agree on the others. Policies
preserve this: where the lists before agree on the values that count, so do the lists after, also
if the policy reads the list itself through a reference.
-/

namespace BuildItems

variable {keep : String → Bool}

def keptEntries (keep : String → Bool) (entries : List Entry) : List Entry :=
  entries.filter fun e => keep e.item.value

theorem any_congr_of_mem {α : Type} {p q : α → Bool} {xs : List α} (h : ∀ x ∈ xs, p x = q x) :
    xs.any p = xs.any q := by
  rw [Bool.eq_iff_iff, List.any_eq_true, List.any_eq_true]
  exact exists_congr fun x => and_congr_right fun hx => by rw [h x hx]

theorem any_value_keptEntries {entries : List Entry} {value : String} (hvalue : keep value = true) :
    (keptEntries keep entries).any (·.item.value == value) =
      entries.any (·.item.value == value) := by
  rw [Bool.eq_iff_iff, List.any_eq_true, List.any_eq_true]
  constructor
  · rintro ⟨e, he, heq⟩
    exact ⟨e, List.mem_of_mem_filter he, heq⟩
  · rintro ⟨e, he, heq⟩
    rw [beq_iff_eq] at heq
    exact ⟨e, List.mem_filter.mpr ⟨he, by rw [heq, hvalue]⟩, beq_iff_eq.mpr heq⟩

theorem keptEntries_filter_congr {entries entries' : List Entry} {p q : Entry → Bool}
    (hentries : keptEntries keep entries = keptEntries keep entries')
    (h : ∀ e ∈ keptEntries keep entries, p e = q e) :
    keptEntries keep (entries.filter p) = keptEntries keep (entries'.filter q) := by
  rw [keptEntries, keptEntries, List.filter_comm, List.filter_comm (q := q)]
  change (keptEntries keep entries).filter p = (keptEntries keep entries').filter q
  rw [← hentries]
  exact List.filter_congr h

theorem keptEntries_map (entries : List Entry) {f : Entry → Entry}
    (hf : ∀ e, (f e).item.value = e.item.value) :
    keptEntries keep (entries.map f) = (keptEntries keep entries).map f := by
  rw [keptEntries, List.filter_map]
  exact congrArg _ (List.filter_congr fun e _ => congrArg keep (hf e))

/-- Every reference stands for the same list on both sides, or for the list at hand. -/
def SameLists (s : Spec) (lists lists' : Reference → List Entry) (entries entries' : List Entry) :
    Prop :=
  ∀ r ∈ s.references, lists r = lists' r ∨ (lists r = entries ∧ lists' r = entries')

namespace Spec

variable {s : Spec} {lists lists' : Reference → List Entry} {entries entries' : List Entry}
  {values values' : Glob → List String}

theorem mem_globs_iff {g : Glob} : g ∈ s.globs ↔ .glob g ∈ s.fragments := by
  rw [globs, List.mem_filterMap]
  constructor
  · rintro ⟨f, hf, h⟩
    cases f with
    | glob g' =>
      cases h
      exact hf
    | literal value => cases h
    | reference r => cases h
  · exact fun h => ⟨_, h, rfl⟩

theorem matchesIn_congr {value : String}
    (h : ∀ r ∈ s.references,
      (lists r).any (·.item.value == value) = (lists' r).any (·.item.value == value)) :
    s.matchesIn lists value = s.matchesIn lists' value := by
  refine any_congr_of_mem fun f hf => ?_
  cases f with
  | literal text => rfl
  | glob g => rfl
  | reference r => exact h r (mem_references_iff.mpr hf)

theorem matchesIn_eq_of_keep (hlists : SameLists s lists lists' entries entries')
    (hentries : keptEntries keep entries = keptEntries keep entries') {value : String}
    (hvalue : keep value = true) : s.matchesIn lists value = s.matchesIn lists' value := by
  refine matchesIn_congr fun r hr => ?_
  rcases hlists r hr with h | ⟨h, h'⟩
  · rw [h]
  · rw [h, h', ← any_value_keptEntries hvalue, hentries, any_value_keptEntries hvalue]

/-- An entry of the list at hand agrees with itself, whatever else the list holds. -/
theorem agreesIn_eq_of_mem (hlists : SameLists s lists lists' entries entries') {e : Entry}
    (he : e ∈ entries) (he' : e ∈ entries') (m : MetadataMatch) (pathCaseSensitive : Bool) :
    s.agreesIn lists m pathCaseSensitive e.item = s.agreesIn lists' m pathCaseSensitive e.item := by
  unfold agreesIn
  cases hkeys : m.keys? pathCaseSensitive e.item with
  | none => rfl
  | some keys =>
    refine any_congr_of_mem fun r hr => ?_
    rcases hlists r hr with h | ⟨h, h'⟩
    · rw [h]
    · have hself : (m.keys? pathCaseSensitive e.item == some keys) = true := beq_iff_eq.mpr hkeys
      rw [h, h', List.any_eq_true.mpr ⟨e, he, hself⟩, List.any_eq_true.mpr ⟨e, he', hself⟩]

theorem filter_itemsIn_congr (hlists : SameLists s lists lists' entries entries')
    (hentries : keptEntries keep entries = keptEntries keep entries')
    (hvalues : ∀ g ∈ s.globs, (values g).filter keep = (values' g).filter keep)
    (itemType : String) :
    (s.itemsIn lists values itemType).filter (fun item => keep item.value) =
      (s.itemsIn lists' values' itemType).filter (fun item => keep item.value) := by
  rw [itemsIn, itemsIn, List.filter_flatMap, List.filter_flatMap]
  refine List.flatMap_congr fun f hf => ?_
  cases f with
  | literal value => rfl
  | glob g =>
    rw [Fragment.itemsIn, Fragment.itemsIn, List.filter_map, List.filter_map]
    exact congrArg _ (hvalues g (mem_globs_iff.mpr hf))
  | reference r =>
    rw [Fragment.itemsIn, Fragment.itemsIn, List.filter_map, List.filter_map]
    rcases hlists r (mem_references_iff.mpr hf) with h | ⟨h, h'⟩
    · rw [h]
    · rw [h, h']
      exact congrArg _ hentries

theorem filter_added_congr {exclude : Option Spec}
    (hlists : SameLists s lists lists' entries entries')
    (hexclude : ∀ s ∈ exclude, SameLists s lists lists' entries entries')
    (hentries : keptEntries keep entries = keptEntries keep entries')
    (hvalues : ∀ g ∈ s.globs, (values g).filter keep = (values' g).filter keep)
    (itemType : String) :
    ((s.itemsIn lists values itemType).filter fun item =>
        !exclude.any (·.matchesIn lists item.value)).filter (fun item => keep item.value) =
      ((s.itemsIn lists' values' itemType).filter fun item =>
        !exclude.any (·.matchesIn lists' item.value)).filter (fun item => keep item.value) := by
  rw [List.filter_comm, filter_itemsIn_congr hlists hentries hvalues itemType, List.filter_filter,
    List.filter_filter]
  refine List.filter_congr fun item _ => ?_
  rw [Bool.and_comm]
  cases hkeep : keep item.value with
  | false => rfl
  | true =>
    cases exclude with
    | none => rfl
    | some t =>
      rw [Option.any_some, Option.any_some, matchesIn_eq_of_keep (hexclude t rfl) hentries hkeep]

end Spec

namespace Operation

variable {o : Operation} {lists lists' : Reference → List Entry} {entries entries' : List Entry}
  {values values' : Glob → List String} {pathCaseSensitive : Bool}

/-- Policies preserve agreement on the values that count. -/
theorem keptEntries_policy_congr
    (hlists : ∀ s ∈ o.specs, SameLists s lists lists' entries entries')
    (hentries : keptEntries keep entries = keptEntries keep entries')
    (hvalues : ∀ g ∈ o.spec.globs, (values g).filter keep = (values' g).filter keep) :
    keptEntries keep (o.policy lists values pathCaseSensitive entries) =
      keptEntries keep (o.policy lists' values' pathCaseSensitive entries') := by
  have hspec := hlists o.spec o.spec_mem_specs
  have hkept : ∀ e ∈ keptEntries keep entries,
      keep e.item.value = true ∧ e ∈ entries ∧ e ∈ entries' := by
    intro e he
    obtain ⟨hmem, hkeep⟩ := List.mem_filter.mp he
    exact ⟨hkeep, hmem, List.mem_of_mem_filter (hentries ▸ he)⟩
  have hmatches : ∀ e ∈ keptEntries keep entries,
      (!o.spec.matchesIn lists e.item.value) = !o.spec.matchesIn lists' e.item.value :=
    fun e he => congrArg not (Spec.matchesIn_eq_of_keep hspec hentries (hkept e he).1)
  cases hc : o.condition with
  | false => rw [policy_of_not_condition hc, policy_of_not_condition hc, hentries]
  | true =>
    cases ha : o.action with
    | includes exclude metadata =>
      have hexclude : ∀ s ∈ exclude, SameLists s lists lists' entries entries' :=
        fun s hs => hlists s (mem_specs_of_mem_exclude? (ha ▸ hs))
      have hadded := Spec.filter_added_congr hspec hexclude hentries hvalues o.itemType
      rw [policy_of_includes hc ha, policy_of_includes hc ha]
      unfold keptEntries at hentries ⊢
      rw [List.filter_append, List.filter_append, hentries, List.filter_map, List.filter_map]
      exact congrArg (fun items => entries'.filter _ ++ List.map _ items) hadded
    | excludes =>
      rw [policy_of_excludes hc (.inl ha), policy_of_excludes hc (.inl ha)]
      exact keptEntries_filter_congr hentries hmatches
    | removes byMetadata =>
      cases byMetadata with
      | none =>
        rw [policy_of_excludes hc (.inr ha), policy_of_excludes hc (.inr ha)]
        exact keptEntries_filter_congr hentries hmatches
      | some m =>
        rw [policy_of_removes hc ha, policy_of_removes hc ha]
        -- against the list at hand both sides remove an entry by its own keys
        refine keptEntries_filter_congr hentries fun e he => congrArg not ?_
        obtain ⟨_, hmem, hmem'⟩ := hkept e he
        exact Spec.agreesIn_eq_of_mem hspec hmem hmem' m pathCaseSensitive
    | updates metadata =>
      have hvalue : ∀ (lists : Reference → List Entry) (e : Entry),
          (if o.spec.matchesIn lists e.item.value then e.withItem (e.item.withMerged metadata)
            else e).item.value = e.item.value := by
        intro lists e
        split
        · rfl
        · rfl
      rw [policy_of_updates hc ha, policy_of_updates hc ha, keptEntries_map entries (hvalue lists),
        keptEntries_map entries' (hvalue lists'), ← hentries]
      refine List.map_congr_left fun e he => ?_
      rw [Spec.matchesIn_eq_of_keep hspec hentries (hkept e he).1]

theorem policy_congr (h : ∀ s ∈ o.specs, ∀ r ∈ s.references, lists r = lists' r) :
    o.policy lists values pathCaseSensitive entries =
      o.policy lists' values pathCaseSensitive entries := by
  let all : String → Bool := fun _ => true
  have hall : keptEntries all (o.policy lists values pathCaseSensitive entries) =
      keptEntries all (o.policy lists' values pathCaseSensitive entries) :=
    keptEntries_policy_congr (fun s hs r hr => .inl (h s hs r hr)) rfl fun _ _ => rfl
  rwa [keptEntries, keptEntries, List.filter_true, List.filter_true] at hall

end Operation

end BuildItems
