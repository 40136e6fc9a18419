import BuildItems.Proofs.Project.Active
import BuildItems.Proofs.Spec.Faults

/-!
# What is wrong with a declaration

The faults of a declaration are listed in the order of the checks, each told from the declaration
alone. Declaring reports the first of them, and accepts the declaration if there is none, whatever
was declared before and whatever was refused. So of a row of steps just the declarations without a
fault leave an operation behind.
-/

namespace BuildItems

namespace Declaration

def givenNames (d : Declaration) : List String :=
  d.matchOnMetadata.filter fun name => !Text.isBlankText name

def faultIf (c : Prop) [Decidable c] (e : EvalError) : List EvalError := if c then [e] else []

def excludeFaults (d : Declaration) : List EvalError :=
  match d.kind, d.exclude with
  | .includes, some text =>
    if Text.isBlankText text then [] else Spec.faults d.location text
  | _, _ => []

/-- All that is wrong with a declaration, in the order in which it is checked. -/
def faults (d : Declaration) : List EvalError :=
  let notAllowed (attr : String) : EvalError :=
    .attributeNotAllowed attr d.kind.name d.itemType d.location
  let restricted : EvalError := .matchOnMetadataRestricted d.itemType d.location
  faultIf (Text.isBlankText d.itemType = true) (.missingArgument "item_type") ++
  (Spec.faults d.location d.itemSpec ++
  (faultIf (d.kind ≠ .includes ∧ d.exclude.isSome = true) (notAllowed "Exclude") ++
  (faultIf ((d.kind = .removes ∨ d.kind = .excludes) ∧ d.metadata.isEmpty = false)
    (notAllowed "metadata") ++
  (faultIf (d.kind ≠ .removes ∧ d.givenNames ≠ []) restricted ++
  (d.excludeFaults ++
  faultIf (d.kind = .removes ∧ d.givenNames ≠ [] ∧
    ¬ (d.givenNames.length = 1 ∧ Spec.IsSingleReference d.itemSpec)) restricted)))))

theorem head?_faultIf (c : Prop) [Decidable c] (e : EvalError) :
    (faultIf c e).head? = if c then some e else none := by
  unfold faultIf
  split <;> rfl

variable (d : Declaration)

theorem filter_map_trim :
    (d.matchOnMetadata.map Text.trim).filter (· != "") = d.givenNames.map Text.trim := by
  rw [List.filter_map, givenNames]
  refine congrArg _ (List.filter_congr fun name _ => ?_)
  have hblank := Text.isBlankText_iff name
  cases h : Text.isBlankText name with
  | true => simp [hblank.mp h]
  | false =>
    have hne : Text.trim name ≠ "" := fun htrim => by simp [hblank.mpr htrim] at h
    simp [hne]

theorem ofNames?_isSome_iff (mode : ComparisonMode) :
    (MetadataMatch.ofNames? d.matchOnMetadata mode).isSome = true ↔ d.givenNames ≠ [] := by
  unfold MetadataMatch.ofNames?
  rw [filter_map_trim]
  cases d.givenNames <;> simp

theorem count_of_ofNames? {mode : ComparisonMode} {m : MetadataMatch}
    (h : MetadataMatch.ofNames? d.matchOnMetadata mode = some m) :
    m.count = d.givenNames.length := by
  unfold MetadataMatch.ofNames? at h
  rw [filter_map_trim] at h
  split at h
  · cases h
  · cases h
    exact List.length_map _

end Declaration

namespace Project

open Declaration

variable {p : Project} {d : Declaration}

theorem faultOf_checkAttributes (d : Declaration) :
    faultOf (checkAttributes d) =
      ((faultIf (d.kind ≠ .includes ∧ d.exclude.isSome = true)
        (.attributeNotAllowed "Exclude" d.kind.name d.itemType d.location)).head?).or
      (faultIf ((d.kind = .removes ∨ d.kind = .excludes) ∧ d.metadata.isEmpty = false)
        (.attributeNotAllowed "metadata" d.kind.name d.itemType d.location)).head? := by
  simp only [checkAttributes, head?_faultIf, Bool.not_eq_true]
  split
  · rfl
  · split <;> rfl

theorem faultOf_checkMatch (d : Declaration) :
    faultOf (checkMatch d (MetadataMatch.ofNames? d.matchOnMetadata d.comparisonMode)) =
      (faultIf (d.kind ≠ .removes ∧ d.givenNames ≠ [])
        (.matchOnMetadataRestricted d.itemType d.location)).head? := by
  simp only [checkMatch, head?_faultIf, ofNames?_isSome_iff, and_comm (a := d.givenNames ≠ [])]
  split <;> rfl

theorem faultOf_actionOf (ctx : Spec.Scope) (hlocation : ctx.location = d.location)
    (htype : Text.isBlankText d.itemType = false) (byMetadata : Option MetadataMatch) :
    faultOf (actionOf ctx d byMetadata) = d.excludeFaults.head? := by
  unfold actionOf excludeFaults
  cases d.kind with
  | includes =>
    simp only [faultOf_map]
    unfold parseExclude
    cases d.exclude with
    | none => rfl
    | some text =>
      dsimp only
      split
      · rfl
      · rw [faultOf_map, Spec.faultOf_parse, htype, hlocation]
        rfl
  | excludes => rfl
  | removes => rfl
  | updates => rfl

theorem byMetadata?_of_actionOf {ctx : Spec.Scope} {byMetadata : Option MetadataMatch}
    {action : Action} (h : actionOf ctx d byMetadata = .ok action) :
    action.byMetadata? = if d.kind = .removes then byMetadata else none := by
  unfold actionOf at h
  cases hkind : d.kind with
  | includes =>
    rw [hkind] at h
    obtain ⟨_, _, rfl⟩ := map_eq_ok_iff.mp h
    rfl
  | excludes =>
    rw [hkind] at h
    cases h
    rfl
  | removes =>
    rw [hkind] at h
    cases h
    rfl
  | updates =>
    rw [hkind] at h
    cases h
    rfl

theorem faultOf_validate {ctx : Spec.Scope} {spec : Spec} {action : Action} (order : Nat)
    (hspec : Spec.parse ctx d.itemType d.itemSpec = .ok spec)
    (haction : actionOf ctx d (MetadataMatch.ofNames? d.matchOnMetadata d.comparisonMode) =
      .ok action) :
    faultOf (Operation.validate ⟨action, spec, d.condition, d.location, order⟩) =
      (faultIf (d.kind = .removes ∧ d.givenNames ≠ [] ∧
        ¬ (d.givenNames.length = 1 ∧ Spec.IsSingleReference d.itemSpec))
          (.matchOnMetadataRestricted d.itemType d.location)).head? := by
  have htype := Spec.itemType_of_parse hspec
  have hsingle := Spec.isSingleReference_of_parse hspec
  have hgiven := d.ofNames?_isSome_iff d.comparisonMode
  have hbyMetadata := byMetadata?_of_actionOf haction
  rw [head?_faultIf, Operation.validate, hbyMetadata]
  by_cases hkind : d.kind = .removes
  · rw [if_pos hkind]
    cases hnames : MetadataMatch.ofNames? d.matchOnMetadata d.comparisonMode with
    | none =>
      have hnone : d.givenNames = [] := by simpa [hnames] using hgiven
      simp [hnone, faultOf]
    | some m =>
      have hsome : d.givenNames ≠ [] := by simpa [hnames] using hgiven
      have hcount := d.count_of_ofNames? hnames
      simp only [hcount, hsingle, hkind, hsome, ne_eq, not_false_eq_true, true_and, ite_not,
        Operation.itemType, htype]
      split <;> rfl
  · simp [hkind, faultOf]

/-- Whatever was declared before, the fault of a declaration is the first of those it has. -/
theorem faultOf_operationOf (p : Project) (d : Declaration) :
    faultOf (p.operationOf d) = d.faults.head? := by
  let ctx := p.specScope d.location
  let byMetadata := MetadataMatch.ofNames? d.matchOnMetadata d.comparisonMode
  have hparse : faultOf (Spec.parse ctx d.itemType d.itemSpec) =
      ((faultIf (Text.isBlankText d.itemType = true) (.missingArgument "item_type")).head?).or
        (Spec.faults d.location d.itemSpec).head? := by
    rw [Spec.faultOf_parse, head?_faultIf]
    split <;> rfl
  unfold faults operationOf
  rw [List.head?_append, List.head?_append, ← Option.or_assoc, ← hparse]
  refine faultOf_bind fun spec hspec => ?_
  have htype := (Spec.parse_eq_ok_iff.mp hspec).1
  rw [List.head?_append, List.head?_append, ← Option.or_assoc, ← faultOf_checkAttributes]
  refine faultOf_bind fun _ _ => ?_
  rw [List.head?_append, ← faultOf_checkMatch]
  refine faultOf_bind fun _ _ => ?_
  rw [List.head?_append, ← faultOf_actionOf ctx rfl htype byMetadata]
  refine faultOf_bind fun action haction => ?_
  rw [← faultOf_validate p.operations.length hspec haction]
  exact (faultOf_bind fun _ _ => rfl).trans (Option.or_none)

theorem faultOf_declare (p : Project) (d : Declaration) :
    faultOf (p.declare d) = d.faults.head? := by
  rw [declare, faultOf_map, faultOf_operationOf]

theorem faults_eq_nil_iff : d.faults = [] ↔ ∃ o, p.operationOf d = .ok o := by
  rw [← faultOf_eq_none_iff, faultOf_operationOf, List.head?_eq_none_iff]

def Step.declaration? : Step → Option Declaration
  | declare d => some d
  | relocate _ => none

/-- What an operation has of its declaration, whatever it refers to. -/
structure Records (d : Declaration) (o : Operation) : Prop where
  kind : o.kind = d.kind
  itemType : o.itemType = d.itemType
  condition : o.condition = d.condition
  location : o.location = d.location

theorem Declares.records {o : Operation} (h : p.Declares d o) : Records d o :=
  ⟨h.kind, h.itemType, h.condition, h.location⟩

def accepted (steps : List Step) : List Declaration :=
  (steps.filterMap Step.declaration?).filter (·.faults.isEmpty)

theorem operations_perform (p : Project) (s : Step) :
    ∃ added, (p.perform s).operations = p.operations ++ added ∧
      List.Forall₂ Records (accepted [s]) added := by
  cases s with
  | relocate directory => exact ⟨[], (List.append_nil _).symm, .nil⟩
  | declare d =>
    have hfaults := faults_eq_nil_iff (p := p) (d := d)
    cases ho : p.operationOf d with
    | error e =>
      have hne : d.faults ≠ [] := fun h => by simpa [ho] using hfaults.mp h
      refine ⟨[], ?_, ?_⟩
      · rw [perform, tryDeclare_of_error ho, List.append_nil]
      · simp [accepted, Step.declaration?, hne]
    | ok o =>
      have hnil : d.faults = [] := hfaults.mpr ⟨o, ho⟩
      refine ⟨[o], ?_, ?_⟩
      · rw [perform, tryDeclare_of_ok ho]
        rfl
      · have haccepted : accepted [.declare d] = [d] := by
          simp [accepted, Step.declaration?, hnil]
        rw [haccepted]
        exact .cons (operationOf_eq_ok_iff.mp ho).records .nil

theorem accepted_cons (s : Step) (steps : List Step) :
    accepted (s :: steps) = accepted [s] ++ accepted steps := by
  rw [accepted, ← List.singleton_append, List.filterMap_append, List.filter_append]
  rfl

theorem operations_performAll (p : Project) (steps : List Step) :
    ∃ added, (p.performAll steps).operations = p.operations ++ added ∧
      List.Forall₂ Records (accepted steps) added := by
  induction steps generalizing p with
  | nil => exact ⟨[], (List.append_nil _).symm, .nil⟩
  | cons s steps ih =>
    obtain ⟨first, hfirst, hrecords⟩ := operations_perform p s
    obtain ⟨rest, hrest, hrecordsRest⟩ := ih (p.perform s)
    refine ⟨first ++ rest, ?_, ?_⟩
    · rw [← List.append_assoc, ← hfirst]
      exact hrest
    · rw [accepted_cons]
      exact List.rel_append hrecords hrecordsRest

/-- A declaration is refused with the first of its faults, and without a fault it is accepted: one
operation comes after the others. So whatever is declared in a row, what is left behind are the
operations of the declarations without a fault, in their order. -/
theorem declare_reports_first_fault (p : Project) (d : Declaration) :
    (∀ e, p.declare d = .error e ↔ d.faults.head? = some e) ∧
      (d.faults = [] ↔ ∃ o, p.Declares d o ∧ Records d o ∧ p.declare d = .ok (p.append o)) ∧
      ∀ steps, ∃ added, (p.performAll steps).operations = p.operations ++ added ∧
        List.Forall₂ Records (accepted steps) added := by
  refine ⟨fun e => ?_, ?_, operations_performAll p⟩
  · rw [← faultOf_declare, faultOf_eq_some_iff]
  · rw [faults_eq_nil_iff (p := p)]
    constructor
    · rintro ⟨o, ho⟩
      have hdeclares := operationOf_eq_ok_iff.mp ho
      exact ⟨o, hdeclares, hdeclares.records, declare_eq_ok_iff.mpr ⟨o, hdeclares, rfl⟩⟩
    · rintro ⟨o, hdeclares, -, -⟩
      exact ⟨o, operationOf_eq_ok_iff.mpr hdeclares⟩

/-- The second piece is a reference, and the last one is a literal. -/
example :
    let d : Declaration :=
      { kind := .updates, itemType := "I", itemSpec := "x@(B); @( J.K ) ;a***;@(->);[b]",
        exclude := some " ", matchOnMetadata := ["", "Link"] }
    d.faults = [.unsupportedExpression "x@(B)" d.location,
      .invalidGlob "a***" "wildcards are either regular \x60*\x60 or recursive \x60**\x60",
      .unsupportedExpression "@(->)" d.location,
      .attributeNotAllowed "Exclude" "Update" "I" d.location,
      .matchOnMetadataRestricted "I" d.location] := by
  decide +kernel

end Project

end BuildItems
