import BuildItems.Project.Declare
import BuildItems.Proofs.Spec.Reading

/-!
# Reachable projects

A project is reached from an empty one by declarations and by changes of its directory. Each of
its operations then follows on those declared before it: it is numbered by how many they are, its
references see as many operations of a type as there are among them, and it is valid.
-/

namespace BuildItems

namespace Operation

def specs (o : Operation) : List Spec := o.spec :: o.action.exclude?.toList

theorem mem_specs_iff {o : Operation} {s : Spec} :
    s ∈ o.specs ↔ s = o.spec ∨ o.action.exclude? = some s := by
  simp [specs]

theorem spec_mem_specs (o : Operation) : o.spec ∈ o.specs := List.mem_cons_self

theorem mem_specs_of_mem_exclude? {o : Operation} {s : Spec} (h : s ∈ o.action.exclude?) :
    s ∈ o.specs := mem_specs_iff.mpr (.inr h)

structure FollowsOn (earlier : List Operation) (o : Operation) : Prop where
  order : o.order = earlier.length
  itemType : ∀ s ∈ o.specs, s.itemType = o.itemType
  frozen : ∀ s ∈ o.specs, ∀ r ∈ s.references,
    r.opCount = (earlier.filter (·.itemType == r.itemType)).length
  valid : o.validate = .ok ()

end Operation

namespace Project

structure Declares (p : Project) (d : Declaration) (o : Operation) : Prop where
  spec : Spec.parse (p.specScope d.location) d.itemType d.itemSpec = .ok o.spec
  attributes : checkAttributes d = .ok ()
  matching : checkMatch d (MetadataMatch.ofNames? d.matchOnMetadata d.comparisonMode) = .ok ()
  action : actionOf (p.specScope d.location) d
    (MetadataMatch.ofNames? d.matchOnMetadata d.comparisonMode) = .ok o.action
  condition : o.condition = d.condition
  location : o.location = d.location
  order : o.order = p.operations.length
  valid : o.validate = .ok ()

theorem operationOf_eq_ok_iff {p : Project} {d : Declaration} {o : Operation} :
    p.operationOf d = .ok o ↔ p.Declares d o := by
  simp only [operationOf, bind_eq_ok_iff]
  constructor
  · rintro ⟨spec, hspec, _, hattributes, _, hmatch, action, haction, _, hvalid, h⟩
    cases h
    exact ⟨hspec, hattributes, hmatch, haction, rfl, rfl, rfl, hvalid⟩
  · intro h
    obtain ⟨action, spec, condition, location, order⟩ := o
    obtain ⟨hspec, hattributes, hmatch, haction, hcondition, hlocation, horder, hvalid⟩ := h
    cases hcondition
    cases hlocation
    cases horder
    exact ⟨spec, hspec, (), hattributes, (), hmatch, action, haction, (), hvalid, rfl⟩

theorem parseExclude_eq_some {ctx : Spec.Scope} {itemType : String} {text : Option String}
    {s : Spec} (h : parseExclude ctx itemType text = .ok (some s)) :
    ∃ t, text = some t ∧ Spec.parse ctx itemType t = .ok s := by
  unfold parseExclude at h
  split at h
  · cases h
  · next t =>
    split at h
    · cases h
    · obtain ⟨s', hs', h⟩ := map_eq_ok_iff.mp h
      cases h
      exact ⟨t, rfl, hs'⟩

theorem exclude?_of_actionOf {ctx : Spec.Scope} {d : Declaration}
    {byMetadata : Option MetadataMatch} {a : Action} (h : actionOf ctx d byMetadata = .ok a)
    {s : Spec} (hs : a.exclude? = some s) :
    ∃ t, d.exclude = some t ∧ Spec.parse ctx d.itemType t = .ok s := by
  unfold actionOf at h
  split at h
  · obtain ⟨exclude, hexclude, h⟩ := map_eq_ok_iff.mp h
    cases h
    cases hs
    exact parseExclude_eq_some hexclude
  · cases h
    cases hs
  · cases h
    cases hs
  · cases h
    cases hs

/-- Both specifications of an operation are read for its type, where it is declared. -/
theorem Declares.exists_text_of_mem_specs {p : Project} {d : Declaration} {o : Operation}
    (h : p.Declares d o) {s : Spec} (hs : s ∈ o.specs) :
    ∃ text ∈ d.itemSpec :: d.exclude.toList,
      Spec.parse (p.specScope d.location) d.itemType text = .ok s := by
  rcases Operation.mem_specs_iff.mp hs with rfl | hs
  · exact ⟨d.itemSpec, List.mem_cons_self, h.spec⟩
  · obtain ⟨text, hexclude, htext⟩ := exclude?_of_actionOf h.action hs
    refine ⟨text, List.mem_cons_of_mem _ ?_, htext⟩
    rw [hexclude]
    exact List.mem_singleton_self text

theorem Declares.kind {p : Project} {d : Declaration} {o : Operation} (h : p.Declares d o) :
    o.kind = d.kind := by
  have haction := h.action
  unfold actionOf at haction
  rw [Operation.kind]
  split at haction
  · next hkind =>
    obtain ⟨exclude, _, heq⟩ := map_eq_ok_iff.mp haction
    rw [← heq, hkind, Action.kind]
  · next hkind => rw [← Except.ok.inj haction, hkind, Action.kind]
  · next hkind => rw [← Except.ok.inj haction, hkind, Action.kind]
  · next hkind => rw [← Except.ok.inj haction, hkind, Action.kind]

theorem Declares.byMetadata? {p : Project} {d : Declaration} {o : Operation} (h : p.Declares d o)
    (hnone : d.kind = .removes →
      MetadataMatch.ofNames? d.matchOnMetadata d.comparisonMode = none) :
    o.action.byMetadata? = none := by
  have haction := h.action
  unfold actionOf at haction
  split at haction
  · obtain ⟨exclude, _, heq⟩ := map_eq_ok_iff.mp haction
    rw [← heq]
    rfl
  · rw [← Except.ok.inj haction]
    rfl
  · next hkind => rw [← Except.ok.inj haction, Action.byMetadata?, hnone hkind]
  · rw [← Except.ok.inj haction]
    rfl

theorem Declares.itemType {p : Project} {d : Declaration} {o : Operation} (h : p.Declares d o) :
    o.itemType = d.itemType := Spec.itemType_of_parse h.spec

theorem Declares.followsOn {p : Project} {d : Declaration} {o : Operation} (h : p.Declares d o) :
    o.FollowsOn p.operations where
  order := h.order
  itemType s hs := by
    obtain ⟨text, _, htext⟩ := h.exists_text_of_mem_specs hs
    rw [Spec.itemType_of_parse htext, h.itemType]
  frozen s hs r hr := by
    obtain ⟨text, _, htext⟩ := h.exists_text_of_mem_specs hs
    exact Spec.opCount_of_parse htext hr
  valid := h.valid

theorem declare_eq_ok_iff {p p' : Project} {d : Declaration} :
    p.declare d = .ok p' ↔ ∃ o, p.Declares d o ∧ p.append o = p' := by
  rw [declare, map_eq_ok_iff]
  simp only [operationOf_eq_ok_iff]

/-- Projects made by declarations and changes of directory. A declaration that is refused changes
nothing. -/
inductive Reachable : Project → Prop where
  | start (id : EvaluationId) (options : Options) : Reachable { id, options }
  | relocate {p : Project} (directory : String) :
      Reachable p → Reachable { p with directory := some directory }
  | declare {p p' : Project} {d : Declaration} :
      Reachable p → p.declare d = .ok p' → Reachable p'

def Coherent (p : Project) : Prop :=
  ∀ i, ∀ h : i < p.operations.length, p.operations[i].FollowsOn (p.operations.take i)

theorem Coherent.append {p : Project} (hp : p.Coherent) {o : Operation}
    (ho : o.FollowsOn p.operations) : (p.append o).Coherent := by
  intro i hi
  have hlength : (p.append o).operations.length = p.operations.length + 1 := List.length_append
  rcases Nat.lt_or_ge i p.operations.length with hlt | hge
  · have htake : (p.append o).operations.take i = p.operations.take i :=
      List.take_append_of_le_length (Nat.le_of_lt hlt)
    have hget : (p.append o).operations[i] = p.operations[i] := List.getElem_append_left hlt
    rw [htake, hget]
    exact hp i hlt
  · obtain rfl : i = p.operations.length := by omega
    have htake : (p.append o).operations.take p.operations.length = p.operations :=
      List.take_left
    have hget : (p.append o).operations[p.operations.length] = o := List.getElem_concat_length rfl _
    rw [htake, hget]
    exact ho

theorem Reachable.coherent {p : Project} (h : p.Reachable) : p.Coherent := by
  induction h with
  | start id options => exact fun i hi => absurd hi (Nat.not_lt_zero i)
  | relocate directory _ ih => exact ih
  | declare _ hdeclare ih =>
    obtain ⟨o, ho, rfl⟩ := declare_eq_ok_iff.mp hdeclare
    exact ih.append ho.followsOn

theorem Coherent.order_getElem {p : Project} (hp : p.Coherent) {i : Nat}
    (hi : i < p.operations.length) : p.operations[i].order = i := by
  rw [(hp i hi).order, List.length_take, Nat.min_eq_left (Nat.le_of_lt hi)]

theorem Coherent.followsOn {p : Project} (hp : p.Coherent) {o : Operation}
    (ho : o ∈ p.operations) :
    o.order < p.operations.length ∧ o.FollowsOn (p.operations.take o.order) := by
  obtain ⟨i, hi, rfl⟩ := List.mem_iff_getElem.mp ho
  rw [hp.order_getElem hi]
  exact ⟨hi, hp i hi⟩

theorem Coherent.followsOn_of_eq_append {p : Project} (hp : p.Coherent) {o : Operation}
    {earlier later : List Operation} (h : p.operations = earlier ++ o :: later) :
    o.FollowsOn earlier := by
  have hlt : earlier.length < p.operations.length := by simp [h]
  have hfollows := hp earlier.length hlt
  simp only [h, List.getElem_append_right (Nat.le_refl _), Nat.sub_self, List.getElem_cons_zero,
    List.take_left] at hfollows
  exact hfollows

def tryDeclare (p : Project) (d : Declaration) : Project :=
  match p.declare d with
  | .ok p' => p'
  | .error _ => p

def declareAll (p : Project) (ds : List Declaration) : Project := ds.foldl tryDeclare p

theorem Reachable.tryDeclare {p : Project} (h : p.Reachable) (d : Declaration) :
    (p.tryDeclare d).Reachable := by
  unfold Project.tryDeclare
  split
  · next hd => exact h.declare hd
  · exact h

theorem Reachable.declareAll {p : Project} (h : p.Reachable) (ds : List Declaration) :
    (p.declareAll ds).Reachable := by
  induction ds generalizing p with
  | nil => exact h
  | cons d ds ih => exact ih (h.tryDeclare d)

def crossed (options : Options) : Project :=
  declareAll { id := ⟨"crossed"⟩, options }
    [{ kind := .includes, itemType := "A", itemSpec := "a;x" },
      { kind := .includes, itemType := "B", itemSpec := "@(A);b;*.c" },
      { kind := .includes, itemType := "A", itemSpec := "@(B);@(A)", exclude := some "x" },
      { kind := .removes, itemType := "B", itemSpec := "@(A);*.c" },
      { kind := .includes, itemType := "B", itemSpec := "@(A)" }]

theorem reachable_crossed (options : Options) : (crossed options).Reachable :=
  (Reachable.start ⟨"crossed"⟩ options).declareAll _

end Project

end BuildItems
