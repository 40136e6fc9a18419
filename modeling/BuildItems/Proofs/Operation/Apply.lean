import BuildItems.Proofs.Operation.Policy
import BuildItems.Proofs.Operation.Updating

/-!
# Applying an operation

With a fixed expander, applying an operation fails with the first failure among the globs it
expands, and else answers with an edit to the list its policy gives.
-/

namespace BuildItems

variable {σ : Type}

namespace Operation

theorem yields_expand (answer : Glob → Except EvalError (List String)) (g : Glob) :
    Yields (fun _ : Trace σ => True) (Effect.expand (.fixed answer) g) (answer g) :=
  fun _ _ => ⟨rfl, trivial⟩

def context (o : Operation) (lists : Reference → List Entry)
    (answer : Glob → Except EvalError (List String)) (pathCaseSensitive : Bool)
    (ignored : NameSet) : Context σ :=
  ⟨o.spec.bound lists, o.action.exclude?.map (·.bound lists), ignored, .fixed answer,
    pathCaseSensitive⟩

theorem candidates_yields (lists : Reference → List Entry)
    (answer : Glob → Except EvalError (List String)) (ctx : Context σ)
    (hctx : ctx.expander = .fixed answer) (itemType : String) (fs : List Fragment) :
    Yields (fun _ => True)
      (candidates ctx itemType fs
        ((fs.filterMap Fragment.reference?).map fun r => ⟨r.itemType, lists r⟩))
      (allOk answer
          ((fs.filterMap Fragment.glob?).filter fun g => !ctx.ignored.contains g.text) >>= fun _ =>
        .ok (fs.flatMap (Fragment.itemsIn lists (shown answer ctx.ignored) itemType))) := by
  induction fs with
  | nil => exact .ret []
  | cons f fs ih =>
    cases f with
    | literal value =>
      rw [List.filterMap_cons_none rfl, List.filterMap_cons_none rfl, candidates]
      exact .seq ih (.ret _)
    | reference r =>
      change Yields _ (candidates ctx itemType (.reference r :: fs) (⟨r.itemType, lists r⟩ :: _)) _
      rw [List.filterMap_cons_none (f := Fragment.glob?) rfl, candidates]
      exact .seq ih (.ret _)
    | glob g =>
      change Yields _ _ (allOk answer ((g :: fs.filterMap Fragment.glob?).filter _) >>= _)
      rw [List.filterMap_cons_none rfl, candidates]
      cases hskip : ctx.ignored.contains g.text with
      | true =>
        rw [if_pos rfl, List.filter_cons_of_neg (by simp [hskip])]
        refine (Yields.bind (yields_log _) fun _ _ => ih).congr ?_
        simp [Fragment.itemsIn, shown, hskip]
        rfl
      | false =>
        rw [if_neg Bool.false_ne_true, List.filter_cons_of_pos (by simp [hskip]), allOk, hctx]
        refine (Yields.bind (yields_expand answer g) fun values _ =>
          Yields.bind ih fun items _ => .ret _).congr ?_
        cases hg : answer g with
        | error e => rfl
        | ok values =>
          have hshown : shown answer ctx.ignored g = values := by
            rw [shown, hskip, if_neg Bool.false_ne_true, answerOf_eq hg]
          rw [List.flatMap_cons, Fragment.itemsIn, hshown]
          cases allOk answer _ <;> rfl

section Kinds

variable {o : Operation} {lists : Reference → List Entry}
  {answer : Glob → Except EvalError (List String)} {pathCaseSensitive : Bool} {ignored : NameSet}
  {entries : List Entry}

/-- The run answers with an edit to the list of the policy, or with the first failure among the
globs. -/
def EditsTo (o : Operation) (lists : Reference → List Entry)
    (answer : Glob → Except EvalError (List String)) (pathCaseSensitive : Bool)
    (ignored : NameSet) (entries : List Entry) (x : Effect σ (Edit Entry)) : Prop :=
  ∃ edit : Edit Entry,
    edit.apply entries = o.policy lists (shown answer ignored) pathCaseSensitive entries ∧
      Yields (fun _ => True) x (allOk answer (o.asked ignored) >>= fun _ => .ok edit)

theorem isExcluded_context (o : Operation) (item : Item) :
    isExcluded (o.context (σ := σ) lists answer pathCaseSensitive ignored) item =
      o.action.exclude?.any (·.matchesIn lists item.value) := by
  unfold isExcluded context
  cases o.action.exclude? with
  | none => rfl
  | some exclude => exact exclude.matchesItem_bound lists item

theorem asked_of_not_includes (h : o.kind ≠ .includes) : o.asked ignored = [] := by
  unfold asked
  split
  · next ha => exact absurd (by rw [kind, ha, Action.kind]) h
  · rfl

theorem applyIncludes_editsTo {exclude : Option Spec} {metadata : Metadata}
    (ha : o.action = .includes exclude metadata) :
    EditsTo (σ := σ) o lists answer pathCaseSensitive ignored entries
      (o.applyIncludes metadata (o.context lists answer pathCaseSensitive ignored) entries) := by
  cases hc : o.condition with
  | false =>
    refine ⟨.keep, (policy_of_not_condition hc).symm, ?_⟩
    rw [applyIncludes, asked, ha, hc]
    exact .ret _
  | true =>
    let items := o.spec.itemsIn lists (shown answer ignored) o.itemType
    refine ⟨_, (Edit.apply_extend _ _).trans (policy_of_includes hc ha).symm, ?_⟩
    have hasked : o.asked ignored = o.spec.globs.filter fun g => !ignored.contains g.text := by
      rw [asked, ha, hc]
      rfl
    have hitems : Yields (fun _ : Trace σ => True)
        (candidates (o.context lists answer pathCaseSensitive ignored) o.itemType
          o.spec.fragments (o.spec.bound lists).references)
        (allOk answer (o.asked ignored) >>= fun _ => .ok items) := by
      rw [hasked]
      exact candidates_yields lists answer _ rfl o.itemType o.spec.fragments
    rw [applyIncludes, hc]
    simp only [included, isExcluded_context, ha]
    exact .seq hitems (.ret _)

theorem applyExcludes_editsTo (ha : o.action = .excludes) :
    EditsTo (σ := σ) o lists answer pathCaseSensitive ignored entries
      (o.applyExcludes (o.context lists answer pathCaseSensitive ignored) entries) := by
  have hasked : o.asked ignored = [] := asked_of_not_includes (by simp [kind, ha, Action.kind])
  rw [EditsTo, hasked, applyExcludes]
  cases hc : o.condition with
  | false => exact ⟨.keep, (policy_of_not_condition hc).symm, .ret _⟩
  | true =>
    refine ⟨_, ?_, .ret _⟩
    rw [if_pos rfl, Edit.apply_filter, policy_of_excludes hc (.inl ha)]
    exact List.filter_congr fun e _ => congrArg not (o.spec.matchesItem_bound lists e.item)

theorem applyUpdates_editsTo {metadata : Metadata} (ha : o.action = .updates metadata) :
    EditsTo (σ := σ) o lists answer pathCaseSensitive ignored entries
      (o.applyUpdates metadata (o.context lists answer pathCaseSensitive ignored) entries) := by
  have hasked : o.asked ignored = [] := asked_of_not_includes (by simp [kind, ha, Action.kind])
  rw [EditsTo, hasked]
  cases hc : o.condition with
  | false =>
    rw [applyUpdates, hc]
    exact ⟨.keep, (policy_of_not_condition hc).symm, .ret _⟩
  | true =>
    obtain ⟨edit, hedit, hleft⟩ := applyUpdates_leaves hc entries
    refine ⟨edit, hleft.trans ?_, hedit⟩
    rw [policy_of_updates hc ha]
    refine List.map_congr_left fun e _ => ?_
    rw [BoundSpec.overriding, context, Spec.matchesItem_bound]

theorem removes_context (byMetadata : Option MetadataMatch) (e : Entry) :
    removes (o.context (σ := σ) lists answer pathCaseSensitive ignored) byMetadata e =
      match byMetadata with
      | none => o.spec.matchesIn lists e.item.value
      | some m => o.spec.agreesIn lists m pathCaseSensitive e.item := by
  cases byMetadata with
  | none => exact o.spec.matchesItem_bound lists e.item
  | some m => exact o.spec.contains_metadataIndex_bound lists m pathCaseSensitive e.item

theorem applyRemoves_editsTo {byMetadata : Option MetadataMatch}
    (ha : o.action = .removes byMetadata) (hvalid : o.validate = .ok ())
    (hself : ∀ r ∈ o.spec.references, r.itemType = o.itemType → lists r = entries) :
    EditsTo (σ := σ) o lists answer pathCaseSensitive ignored entries
      (o.applyRemoves byMetadata (o.context lists answer pathCaseSensitive ignored) entries) := by
  have hasked : o.asked ignored = [] := asked_of_not_includes (by simp [kind, ha, Action.kind])
  rw [EditsTo, hasked]
  cases hc : o.condition with
  | false =>
    rw [applyRemoves, hc]
    exact ⟨.keep, (policy_of_not_condition hc).symm, Yields.seq (yields_validate hvalid) (.ret _)⟩
  | true =>
    have hall : byMetadata = none → o.spec.isSingleReferenceTo o.itemType = true → ∀ e ∈ entries,
        removes (o.context (σ := σ) lists answer pathCaseSensitive ignored) none e = true :=
      fun _ hsingle e he => matchesItem_of_isSingleReferenceTo (o.spec.bind_bound lists)
        (List.forall_mem_map.mpr hself) hsingle he
    obtain ⟨edit, hedit, hleft⟩ := applyRemoves_leaves hvalid hc hall
    refine ⟨edit, hleft.trans ?_, hedit⟩
    cases byMetadata with
    | none =>
      rw [policy_of_excludes hc (.inr ha)]
      exact List.filter_congr fun e _ => congrArg not (removes_context none e)
    | some m =>
      rw [policy_of_removes hc ha]
      exact List.filter_congr fun e _ => congrArg not (removes_context (some m) e)

theorem apply_editsTo (hvalid : o.validate = .ok ())
    (hself : ∀ r ∈ o.spec.references, r.itemType = o.itemType → lists r = entries) :
    EditsTo (σ := σ) o lists answer pathCaseSensitive ignored entries
      (o.apply (o.context lists answer pathCaseSensitive ignored) entries) := by
  unfold apply
  split
  · next ha => exact applyIncludes_editsTo ha
  · next ha => exact applyExcludes_editsTo ha
  · next ha => exact applyRemoves_editsTo ha hvalid hself
  · next ha => exact applyUpdates_editsTo ha

end Kinds

end Operation

end BuildItems
