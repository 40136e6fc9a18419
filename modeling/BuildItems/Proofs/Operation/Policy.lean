import BuildItems.Operation.Effect
import BuildItems.Proofs.Failure

/-!
# What an operation makes of a list

Given the list that each reference stands for and the values that each glob expands to, the list
after an operation is a function of the list before. Applying the operation fails only where a
glob it asks for does, and otherwise edits the list to that one.
-/

namespace BuildItems

variable {σ : Type}

namespace Fragment

def matchesIn (lists : Reference → List Entry) (value : String) : Fragment → Bool
  | literal text => text == value
  | glob g => g.accepts value
  | reference r => (lists r).any (·.item.value == value)

def itemsIn (lists : Reference → List Entry) (values : Glob → List String) (itemType : String) :
    Fragment → List Item
  | literal value => [⟨itemType, value, ∅⟩]
  | glob g => (values g).map (⟨itemType, ·, ∅⟩)
  | reference r => (lists r).map fun e => { e.item with itemType := itemType }

end Fragment

namespace Spec

def globs (s : Spec) : List Glob := s.fragments.filterMap Fragment.glob?

def matchesIn (s : Spec) (lists : Reference → List Entry) (value : String) : Bool :=
  s.fragments.any (Fragment.matchesIn lists value)

def itemsIn (s : Spec) (lists : Reference → List Entry) (values : Glob → List String)
    (itemType : String) : List Item :=
  s.fragments.flatMap (Fragment.itemsIn lists values itemType)

def agreesIn (s : Spec) (lists : Reference → List Entry) (m : MetadataMatch)
    (pathCaseSensitive : Bool) (item : Item) : Bool :=
  match m.keys? pathCaseSensitive item with
  | some keys => s.references.any fun r =>
      (lists r).any fun e => m.keys? pathCaseSensitive e.item == some keys
  | none => false

def bound (s : Spec) (lists : Reference → List Entry) : BoundSpec :=
  ⟨s, s.references.map fun r => ⟨r.itemType, lists r⟩⟩

theorem bind_bound (s : Spec) (lists : Reference → List Entry) :
    BoundSpec.bind s (s.references.map fun r => ⟨r.itemType, lists r⟩) = .ok (s.bound lists) := by
  rw [BoundSpec.bind, List.map_map]
  exact if_pos rfl

theorem matchesAny_map (lists : Reference → List Entry) (value : String) (fs : List Fragment) :
    BoundSpec.matchesAny value fs
        ((fs.filterMap Fragment.reference?).map fun r => ⟨r.itemType, lists r⟩) =
      fs.any (Fragment.matchesIn lists value) := by
  induction fs with
  | nil => rfl
  | cons f fs ih =>
    cases f with
    | literal text =>
      rw [List.filterMap_cons_none rfl, BoundSpec.matchesAny, ih]
      rfl
    | glob g =>
      rw [List.filterMap_cons_none rfl, BoundSpec.matchesAny, ih]
      rfl
    | reference r =>
      simp [Fragment.reference?, BoundSpec.matchesAny, Fragment.matchesIn,
        ResolvedReference.containsValue, ih]

@[simp]
theorem matchesItem_bound (s : Spec) (lists : Reference → List Entry) (item : Item) :
    (s.bound lists).matchesItem item = s.matchesIn lists item.value :=
  matchesAny_map lists item.value s.fragments

theorem contains_metadataIndex_bound (s : Spec) (lists : Reference → List Entry)
    (m : MetadataMatch) (pathCaseSensitive : Bool) (item : Item) :
    ((s.bound lists).metadataIndex m pathCaseSensitive).contains item =
      s.agreesIn lists m pathCaseSensitive item := by
  rw [Bool.eq_iff_iff, BoundSpec.metadataIndex, KeyIndex.contains_ofItems, agreesIn]
  cases m.keys? pathCaseSensitive item with
  | none => simp
  | some keys =>
    simp only [bound, List.flatMap_map, List.mem_flatMap, List.mem_map, List.any_eq_true,
      beq_iff_eq, Option.some.injEq]
    constructor
    · rintro ⟨_, rfl, i, ⟨r, hr, e, he, rfl⟩, hkeys⟩
      exact ⟨r, hr, e, he, hkeys⟩
    · rintro ⟨r, hr, e, he, hkeys⟩
      exact ⟨keys, rfl, e.item, ⟨r, hr, e, he, rfl⟩, hkeys⟩

end Spec

namespace Operation

def policy (o : Operation) (lists : Reference → List Entry) (values : Glob → List String)
    (pathCaseSensitive : Bool) (entries : List Entry) : List Entry :=
  if o.condition then
    match o.action with
    | .includes exclude metadata =>
      let kept := (o.spec.itemsIn lists values o.itemType).filter fun item =>
        !exclude.any (·.matchesIn lists item.value)
      entries ++ kept.map fun item => ⟨item.withMerged metadata, o.order⟩
    | .excludes | .removes none => entries.filter fun e => !o.spec.matchesIn lists e.item.value
    | .removes (some m) =>
      entries.filter fun e => !o.spec.agreesIn lists m pathCaseSensitive e.item
    | .updates metadata => entries.map fun e =>
      if o.spec.matchesIn lists e.item.value then e.withItem (e.item.withMerged metadata) else e
  else entries

section

variable {o : Operation} {lists : Reference → List Entry} {values : Glob → List String}
  {pathCaseSensitive : Bool} {entries : List Entry}

theorem policy_of_not_condition (hc : o.condition = false) :
    o.policy lists values pathCaseSensitive entries = entries := by
  rw [policy, hc]
  rfl

theorem policy_of_includes {exclude : Option Spec} {metadata : Metadata} (hc : o.condition = true)
    (ha : o.action = .includes exclude metadata) :
    o.policy lists values pathCaseSensitive entries =
      entries ++ ((o.spec.itemsIn lists values o.itemType).filter fun item =>
        !exclude.any (·.matchesIn lists item.value)).map
          fun item => ⟨item.withMerged metadata, o.order⟩ := by
  rw [policy, hc, ha]
  rfl

theorem policy_of_excludes (hc : o.condition = true)
    (ha : o.action = .excludes ∨ o.action = .removes none) :
    o.policy lists values pathCaseSensitive entries =
      entries.filter fun e => !o.spec.matchesIn lists e.item.value := by
  rcases ha with ha | ha
  · rw [policy, hc, ha]
    rfl
  · rw [policy, hc, ha]
    rfl

theorem policy_of_removes {m : MetadataMatch} (hc : o.condition = true)
    (ha : o.action = .removes (some m)) :
    o.policy lists values pathCaseSensitive entries =
      entries.filter fun e => !o.spec.agreesIn lists m pathCaseSensitive e.item := by
  rw [policy, hc, ha]
  rfl

theorem policy_of_updates {metadata : Metadata} (hc : o.condition = true)
    (ha : o.action = .updates metadata) :
    o.policy lists values pathCaseSensitive entries = entries.map fun e =>
      if o.spec.matchesIn lists e.item.value then e.withItem (e.item.withMerged metadata)
      else e := by
  rw [policy, hc, ha]
  rfl

end

def asked (o : Operation) (ignored : NameSet) : List Glob :=
  match o.action with
  | .includes .. =>
    if o.condition then o.spec.globs.filter fun g => !ignored.contains g.text else []
  | _ => []

theorem mem_asked_iff {o : Operation} {ignored : NameSet} {g : Glob} :
    g ∈ o.asked ignored ↔ o.kind = .includes ∧ o.condition = true ∧ g ∈ o.spec.globs ∧
      NameMap.contains ignored g.text = false := by
  unfold asked kind
  cases o.action <;> cases o.condition <;> simp [Action.kind]

theorem asked_subset (o : Operation) (ignored : NameSet) : o.asked ignored ⊆ o.asked ∅ := by
  intro g hg
  obtain ⟨hkind, hc, hglob, _⟩ := mem_asked_iff.mp hg
  exact mem_asked_iff.mpr ⟨hkind, hc, hglob, rfl⟩

/-- What a glob adds to a list: nothing if it is ignored. -/
def shown (answer : Glob → Except EvalError (List String)) (ignored : NameSet) (g : Glob) :
    List String :=
  if ignored.contains g.text then [] else answerOf answer g

end Operation

end BuildItems
