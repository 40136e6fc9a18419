import BuildItems.Proofs.Spec.Reading

/-!
# References with other counts

How many operations a reference sees enters a specification only when it is read. The same text,
read where other numbers of operations are declared, gives the same fragments up to these counts.
-/

namespace BuildItems

def Reference.recounted (count : Reference → Nat) (r : Reference) : Reference :=
  { r with opCount := count r }

def Fragment.recounted (count : Reference → Nat) : Fragment → Fragment
  | literal value => literal value
  | glob g => glob g
  | reference r => reference (r.recounted count)

def Spec.recounted (count : Reference → Nat) (s : Spec) : Spec :=
  { s with fragments := s.fragments.map (Fragment.recounted count) }

namespace Fragment

variable (count : Reference → Nat)

theorem reference?_recounted (f : Fragment) :
    (f.recounted count).reference? = f.reference?.map (Reference.recounted count) := by
  cases f with
  | literal value => rfl
  | glob g => rfl
  | reference r => rfl

theorem glob?_recounted (f : Fragment) : (f.recounted count).glob? = f.glob? := by
  cases f with
  | literal value => rfl
  | glob g => rfl
  | reference r => rfl

end Fragment

namespace Spec

section

variable (count : Reference → Nat) (s : Spec)

theorem references_recounted :
    (s.recounted count).references = s.references.map (Reference.recounted count) := by
  rw [references, references, List.map_filterMap, recounted, List.filterMap_map]
  exact List.filterMap_congr fun f _ => f.reference?_recounted count

theorem globTexts_recounted : (s.recounted count).globTexts = s.globTexts := by
  rw [globTexts, globTexts, recounted, List.filterMap_map]
  exact List.filterMap_congr fun f _ => congrArg _ (f.glob?_recounted count)

theorem isSingleReference_recounted :
    (s.recounted count).isSingleReference = s.isSingleReference := by
  rw [Bool.eq_iff_iff, isSingleReference_iff, isSingleReference_iff, recounted]
  constructor
  · rintro ⟨r, h⟩
    obtain ⟨f, hf, hr⟩ := List.map_eq_singleton_iff.mp h
    cases f with
    | reference r' => exact ⟨r', hf⟩
    | literal value => cases hr
    | glob g => cases hr
  · rintro ⟨r, h⟩
    exact ⟨r.recounted count, congrArg (List.map (Fragment.recounted count)) h⟩

theorem recounted_congr {count count' : Reference → Nat} {s : Spec}
    (h : ∀ r ∈ s.references, count r = count' r) : s.recounted count = s.recounted count' := by
  rw [recounted, recounted]
  refine congrArg (Spec.mk s.itemType s.text) (List.map_congr_left fun f hf => ?_)
  cases f with
  | literal value => rfl
  | glob g => rfl
  | reference r =>
    rw [Fragment.recounted, Reference.recounted, h r (mem_references_iff.mpr hf)]
    rfl

theorem recounted_opCount (s : Spec) : s.recounted Reference.opCount = s := by
  have hself : ∀ f : Fragment, f.recounted Reference.opCount = f := by
    intro f
    cases f with
    | literal value => rfl
    | glob g => rfl
    | reference r => rfl
  rw [recounted, funext hself, List.map_id']

theorem recounted_recounted (count count' : Reference → Nat) (s : Spec) :
    (s.recounted count).recounted count' = s.recounted fun r => count' (r.recounted count) := by
  have htwice : Fragment.recounted count' ∘ Fragment.recounted count =
      Fragment.recounted fun r => count' (r.recounted count) := by
    funext f
    cases f with
    | literal value => rfl
    | glob g => rfl
    | reference r => rfl
  rw [recounted, recounted, List.map_map, htwice]
  rfl

end

variable {count : Reference → Nat} {ctx : Scope} {declared : String → Nat}

theorem parseFragment_recounted (h : ∀ name, count ⟨name, ctx.declared name⟩ = declared name)
    (piece : List Char) :
    parseFragment { ctx with declared := declared } piece =
      (parseFragment ctx piece).map (Fragment.recounted count) := by
  simp only [parseFragment]
  cases hasExpression piece with
  | true =>
    cases typeName? piece with
    | none => rfl
    | some name =>
      change Except.ok (Fragment.reference ⟨name, declared name⟩) = _
      rw [← h name]
      rfl
  | false =>
    cases Glob.hasWildcards (String.ofList piece) with
    | true => cases Glob.compile (String.ofList piece) ctx.globCaseSensitive ctx.directory <;> rfl
    | false => rfl

theorem parse_recounted (h : ∀ name, count ⟨name, ctx.declared name⟩ = declared name)
    (itemType text : String) :
    parse { ctx with declared := declared } itemType text =
      (parse ctx itemType text).map (Spec.recounted count) := by
  have hpieces : (pieces text).mapM (parseFragment { ctx with declared := declared }) =
      ((pieces text).mapM (parseFragment ctx)).map (List.map (Fragment.recounted count)) := by
    rw [funext (parseFragment_recounted h)]
    exact mapM_map _ _ _
  rw [parse, parse, hpieces]
  split
  · rfl
  · rcases (pieces text).mapM (parseFragment ctx) with e | _ | ⟨f, fs⟩
    · rfl
    · rfl
    · rfl

end Spec

end BuildItems
