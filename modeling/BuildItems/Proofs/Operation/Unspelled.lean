import BuildItems.Proofs.Operation.Advance
import BuildItems.Proofs.Spec.Unspelled

/-!
# Operations without the texts of their specifications

A text would show only in the complaint that the resolved lists are not those referred to, and they
always are. So an operation does the same whatever texts its specifications were read from.
-/

namespace BuildItems

variable {σ : Type}

def Action.unspelled : Action → Action
  | includes exclude metadata => includes (exclude.map Spec.unspelled) metadata
  | excludes => excludes
  | removes byMetadata => removes byMetadata
  | updates metadata => updates metadata

def Context.unspelled (ctx : Context σ) : Context σ :=
  { ctx with matcher := ctx.matcher.unspelled, exclude := ctx.exclude.map BoundSpec.unspelled }

namespace Operation

def unspelled (o : Operation) : Operation :=
  { o with action := o.action.unspelled, spec := o.spec.unspelled }

@[simp]
theorem itemType_unspelled (o : Operation) : o.unspelled.itemType = o.itemType := rfl

@[simp]
theorem kind_unspelled (o : Operation) : o.unspelled.kind = o.kind := by
  change o.action.unspelled.kind = o.action.kind
  cases o.action <;> rfl

theorem exclude?_unspelled (o : Operation) :
    o.unspelled.action.exclude? = o.action.exclude?.map Spec.unspelled := by
  change o.action.unspelled.exclude? = _
  cases o.action <;> rfl

theorem validate_unspelled (o : Operation) : o.unspelled.validate = o.validate := by
  have hmatch : o.unspelled.action.byMetadata? = o.action.byMetadata? := by
    change o.action.unspelled.byMetadata? = _
    cases o.action <;> rfl
  rw [validate, validate, hmatch]
  rfl

theorem removedGlobs_unspelled (o : Operation) : o.unspelled.removedGlobs = o.removedGlobs := by
  rw [removedGlobs, removedGlobs, kind_unspelled]
  rfl

theorem removedBy_unspelled (ops : List Operation) :
    removedBy (ops.map unspelled) = removedBy ops := by
  rw [removedBy, removedBy, List.foldl_map]
  simp only [removedGlobs_unspelled]

section

variable (find : Reference → Run σ (List Entry))

/-- The lists that are looked up for a specification are always those it refers to. -/
theorem bindSpec_eq (s : Spec) (sofar : List Entry) :
    bindSpec find s sofar = BoundSpec.mk s <$> resolve find s sofar := by
  have hany : ∀ u ∈ s.outside, Keeps (fun _ => True) (fun _ _ => True) (find u) := by
    intro u _ t _
    rcases (find u).run t with ⟨e | entries, t'⟩
    · trivial
    · trivial
  have htypes : Triple (fun _ => True) (resolve find s sofar) (fun resolved _ =>
      s.references.map (·.itemType) = resolved.map (·.itemType) ∧ True) (fun _ _ => True) :=
    resolve_triple hany
  funext t
  have ht := htypes t trivial
  change (bindSpec find s sofar).run t = (BoundSpec.mk s <$> resolve find s sofar).run t
  rw [bindSpec, run_bind, run_map]
  rcases hrun : (resolve find s sofar).run t with ⟨e | resolved, t'⟩
  · rfl
  · rw [hrun] at ht
    change (Run.ofExcept (BoundSpec.bind s resolved)).run t' = _
    rw [BoundSpec.bind, if_pos ht.1]
    rfl

theorem bindSpec_unspelled (s : Spec) (sofar : List Entry) :
    bindSpec find s.unspelled sofar = BoundSpec.unspelled <$> bindSpec find s sofar := by
  rw [bindSpec_eq, bindSpec_eq, Functor.map_map]
  rfl

theorem bindExclude_unspelled (exclude : Option Spec) (sofar : List Entry) :
    bindExclude find sofar (exclude.map Spec.unspelled) =
      Option.map BoundSpec.unspelled <$> bindExclude find sofar exclude := by
  cases exclude with
  | none => rfl
  | some s =>
    rw [Option.map_some, bindExclude, bindExclude, bindSpec_unspelled, Functor.map_map,
      Functor.map_map]
    rfl

end

theorem isExcluded_unspelled (ctx : Context σ) (item : Item) :
    isExcluded ctx.unspelled item = isExcluded ctx item := by
  rw [isExcluded, isExcluded, Context.unspelled]
  cases ctx.exclude <;> rfl

theorem candidates_unspelled (ctx : Context σ) (itemType : String) (fs : List Fragment)
    (rs : List ResolvedReference) :
    candidates ctx.unspelled itemType fs rs = candidates ctx itemType fs rs := by
  induction fs generalizing rs with
  | nil => rfl
  | cons f fs ih =>
    cases f with
    | literal value => rw [candidates, candidates, ih]
    | glob g =>
      rw [candidates, candidates, ih]
      rfl
    | reference r =>
      cases rs with
      | nil => exact ih []
      | cons r' rs => rw [candidates, candidates, ih]

theorem apply_unspelled (o : Operation) (ctx : Context σ) (entries : List Entry) :
    o.unspelled.apply ctx.unspelled entries = o.apply ctx entries := by
  have haction : o.unspelled.action = o.action.unspelled := rfl
  rw [apply, apply, haction]
  cases o.action with
  | includes exclude metadata =>
    change applyIncludes o.unspelled metadata ctx.unspelled entries =
      applyIncludes o metadata ctx entries
    rw [applyIncludes, applyIncludes]
    simp only [included, isExcluded_unspelled, candidates_unspelled]
    rfl
  | excludes => rfl
  | removes byMetadata =>
    change applyRemoves o.unspelled byMetadata ctx.unspelled entries =
      applyRemoves o byMetadata ctx entries
    rw [applyRemoves, applyRemoves, validate_unspelled]
    cases byMetadata <;> rfl
  | updates metadata => rfl

section

variable (find : Reference → Run σ (List Entry)) (expander : Expander σ)

theorem advance_unspelled (pathCaseSensitive : Bool) (ignored : NameSet) (o : Operation)
    (m : Materialized) :
    o.unspelled.advance find expander pathCaseSensitive ignored m =
      o.advance find expander pathCaseSensitive ignored m := by
  have happly : ∀ matcher exclude,
      o.unspelled.apply ⟨matcher.unspelled, exclude.map BoundSpec.unspelled, ignored, expander,
        pathCaseSensitive⟩ m.entries =
        o.apply ⟨matcher, exclude, ignored, expander, pathCaseSensitive⟩ m.entries :=
    fun matcher exclude => apply_unspelled o ⟨matcher, exclude, ignored, expander, _⟩ m.entries
  have hspec : o.unspelled.spec = o.spec.unspelled := rfl
  rw [advance_eq, advance_eq, hspec, bindSpec_unspelled, exclude?_unspelled,
    bindExclude_unspelled]
  simp only [bind_map_left, happly, appliedOperation, kind_unspelled, itemType_unspelled,
    removedGlobs_unspelled]
  rfl

theorem applyAll_unspelled (options : Options) (ops : List Operation) (m : Materialized) :
    applyAll find expander options (ops.map unspelled) m =
      applyAll find expander options ops m := by
  induction ops generalizing m with
  | nil => rfl
  | cons o rest ih =>
    rw [List.map_cons, applyAll, applyAll, removedBy_unspelled]
    simp only [advance_unspelled, ih]

end

end Operation

end BuildItems
