import BuildItems.Proofs.Project.Prefix
import BuildItems.Proofs.Run

/-!
# Applying operations with any expander

An operation looks up its references to other types and no others. What the expander and the log
preserve, an operation preserves, and it fails only as the expander or a lookup does: the lists it
is given are those of its references, and what could be wrong with its specification was refused
when it was declared.
-/

namespace BuildItems

variable {σ α : Type}

namespace Operation

def bindExclude (find : Reference → Run σ (List Entry)) (sofar : List Entry) :
    Option Spec → Run σ (Option BoundSpec)
  | some spec => some <$> bindSpec find spec sofar
  | none => pure none

theorem advance_eq (find : Reference → Run σ (List Entry)) (expander : Expander σ)
    (pathCaseSensitive : Bool) (ignored : NameSet) (o : Operation) (m : Materialized) :
    o.advance find expander pathCaseSensitive ignored m = (do
      let matcher ← bindSpec find o.spec m.entries
      let exclude ← bindExclude find m.entries o.action.exclude?
      let edit ← Run.ofEffect
        (o.apply ⟨matcher, exclude, ignored, expander, pathCaseSensitive⟩ m.entries)
      let entries := edit.apply m.entries
      Run.ofEffect (Effect.log (o.appliedOperation entries.length))
      pure ⟨entries, m.removedGlobs.union o.removedGlobs⟩) := by
  unfold advance
  cases o.action.exclude? with
  | none => rfl
  | some spec => rfl

section

variable {find find' : Reference → Run σ (List Entry)}

theorem resolve_congr {s : Spec} {sofar : List Entry} (h : ∀ u ∈ s.outside, find u = find' u) :
    resolve find s sofar = resolve find' s sofar := by
  have hother : ∀ r ∈ s.references, r.itemType ≠ s.itemType → find r = find' r :=
    fun r hr hne => h r (Spec.mem_outside_iff.mpr ⟨hr, hne⟩)
  unfold resolve
  generalize s.references = rs at hother
  induction rs with
  | nil => rfl
  | cons r rs ih =>
    obtain ⟨hr, hrs⟩ := List.forall_mem_cons.mp hother
    rw [List.mapM_cons, List.mapM_cons, ih hrs]
    by_cases hown : r.itemType = s.itemType
    · rw [if_pos hown, if_pos hown]
    · rw [if_neg hown, if_neg hown, hr hown]

theorem bindSpec_congr {s : Spec} {sofar : List Entry} (h : ∀ u ∈ s.outside, find u = find' u) :
    bindSpec find s sofar = bindSpec find' s sofar := by
  rw [bindSpec, resolve_congr h]
  rfl

theorem bindExclude_congr {exclude : Option Spec} {sofar : List Entry}
    (h : ∀ u ∈ exclude.toList.flatMap Spec.outside, find u = find' u) :
    bindExclude find sofar exclude = bindExclude find' sofar exclude := by
  cases exclude with
  | none => rfl
  | some s =>
    have hspec : bindSpec find s sofar = bindSpec find' s sofar :=
      bindSpec_congr fun u hu => h u (List.mem_append_left _ hu)
    rw [bindExclude, bindExclude, hspec]

theorem advance_congr {expander : Expander σ} {pathCaseSensitive : Bool} {ignored : NameSet}
    {o : Operation} {m : Materialized} (h : ∀ u ∈ o.outside, find u = find' u) :
    o.advance find expander pathCaseSensitive ignored m =
      o.advance find' expander pathCaseSensitive ignored m := by
  obtain ⟨hspec, hexclude⟩ := List.forall_mem_append.mp (o.outside_eq_append ▸ h)
  rw [advance_eq, advance_eq, bindSpec_congr hspec, bindExclude_congr hexclude]

theorem applyAll_congr {expander : Expander σ} {options : Options} {ops : List Operation}
    {m : Materialized} (h : ∀ o ∈ ops, ∀ u ∈ o.outside, find u = find' u) :
    applyAll find expander options ops m = applyAll find' expander options ops m := by
  induction ops generalizing m with
  | nil => rfl
  | cons o rest ih =>
    obtain ⟨ho, hrest⟩ := List.forall_mem_cons.mp h
    rw [applyAll, applyAll, advance_congr ho]
    exact congrArg _ (funext fun next => ih hrest)

end

/-- What a logged event and an answered glob preserve, and what a failing one leaves behind. -/
structure Preserves (expander : Expander σ) (good : Trace σ → Prop)
    (failed : EvalError → Trace σ → Prop) : Prop where
  log : ∀ e, Triple good (Effect.log e) (fun _ => good) failed
  expand : ∀ g, Triple good (Effect.expand expander g) (fun _ => good) failed

section

variable {expander : Expander σ} {good : Trace σ → Prop} {failed : EvalError → Trace σ → Prop}

theorem candidates_triple (h : Preserves expander good failed) {ctx : Context σ}
    (hctx : ctx.expander = expander) (itemType : String) (fs : List Fragment)
    (rs : List ResolvedReference) :
    Triple good (candidates ctx itemType fs rs) (fun _ => good) failed := by
  induction fs generalizing rs with
  | nil => exact .ret fun _ hs => hs
  | cons f fs ih =>
    cases f with
    | literal value => exact .bind (ih rs) fun _ => .ret fun _ hs => hs
    | glob g =>
      rw [candidates, hctx]
      split
      · exact .bind (h.log _) fun _ => ih rs
      · exact .bind (h.expand g) fun _ => .bind (ih rs) fun _ => .ret fun _ hs => hs
    | reference r =>
      cases rs with
      | nil => exact ih []
      | cons r' rs => exact .bind (ih rs) fun _ => .ret fun _ hs => hs

theorem apply_triple (h : Preserves expander good failed) {o : Operation} {ctx : Context σ}
    (hctx : ctx.expander = expander) (hvalid : o.validate = .ok ()) (entries : List Entry) :
    Triple good (o.apply ctx entries) (fun _ => good) failed := by
  unfold apply
  split
  · rw [applyIncludes]
    split
    · exact .bind (candidates_triple h hctx _ _ _) fun _ => .ret fun _ hs => hs
    · exact .ret fun _ hs => hs
  · exact .ret fun _ hs => hs
  · have hrun : Triple good (ExceptT.mk (pure o.validate)) (fun _ => good) failed := by
      rw [hvalid]
      exact fun _ hs => hs
    rw [applyRemoves]
    refine .bind hrun fun _ => ?_
    split
    · split
      · exact .bind (h.log _) fun _ => .ret fun _ hs => hs
      · exact .ret fun _ hs => hs
    · exact .ret fun _ hs => hs
  · rw [applyUpdates]
    split
    · exact .bind (h.log _) fun _ => .ret fun _ hs => hs
    · exact .ret fun _ hs => hs

abbrev Keeps (good : Trace σ → Prop) (failed : EvalError → Trace σ → Prop) (x : Run σ α) : Prop :=
  Triple (fun s => good s.trace) x (fun _ s => good s.trace) (fun e s => failed e s.trace)

variable {find : Reference → Run σ (List Entry)}

theorem map_itemType_of_forall₂ {rs : List Reference} {resolved : List ResolvedReference}
    (h : List.Forall₂ (fun r l => l.itemType = r.itemType) rs resolved) :
    rs.map (·.itemType) = resolved.map (·.itemType) := by
  induction h with
  | nil => rfl
  | cons hr _ ih => rw [List.map_cons, List.map_cons, hr, ih]

theorem resolve_triple {s : Spec} {sofar : List Entry}
    (hfind : ∀ u ∈ s.outside, Keeps good failed (find u)) :
    Triple (fun t : Session σ => good t.trace) (resolve find s sofar)
      (fun resolved t =>
        s.references.map (·.itemType) = resolved.map (·.itemType) ∧ good t.trace)
      (fun e t => failed e t.trace) := by
  have hone : ∀ r ∈ s.references, Triple (fun t : Session σ => good t.trace)
      (if r.itemType = s.itemType then pure ⟨r.itemType, sofar⟩
        else do
          let entries ← find r
          pure ⟨r.itemType, entries⟩)
      (fun (l : ResolvedReference) t => l.itemType = r.itemType ∧ good t.trace)
      (fun e t => failed e t.trace) := by
    intro r hr
    split
    · exact .ret fun _ ht => ⟨rfl, ht⟩
    · next hne =>
      exact .bind (hfind r (Spec.mem_outside_iff.mpr ⟨hr, hne⟩)) fun _ =>
        .ret fun _ ht => ⟨rfl, ht⟩
  exact (Triple.mapM hone).weaken fun resolved t ⟨hall, ht⟩ => ⟨map_itemType_of_forall₂ hall, ht⟩

theorem bindSpec_keeps {s : Spec} {sofar : List Entry}
    (hfind : ∀ u ∈ s.outside, Keeps good failed (find u)) :
    Keeps good failed (bindSpec find s sofar) := by
  refine .bind (resolve_triple hfind) fun resolved => .pull fun htypes => ?_
  rw [BoundSpec.bind, if_pos htypes]
  exact Triple.ofExcept.weaken fun _ _ ht => ht.2

theorem bindExclude_keeps {exclude : Option Spec} {sofar : List Entry}
    (hfind : ∀ u ∈ exclude.toList.flatMap Spec.outside, Keeps good failed (find u)) :
    Keeps good failed (bindExclude find sofar exclude) := by
  cases exclude with
  | none => exact .ret fun _ hs => hs
  | some s =>
    rw [bindExclude, map_eq_pure_bind]
    have hspec : ∀ u ∈ s.outside, Keeps good failed (find u) :=
      fun u hu => hfind u (List.mem_append_left _ hu)
    exact .bind (bindSpec_keeps hspec) fun _ => .ret fun _ hs => hs

theorem advance_keeps (h : Preserves expander good failed) {o : Operation} {m : Materialized}
    (pathCaseSensitive : Bool) (ignored : NameSet) (hvalid : o.validate = .ok ())
    (hfind : ∀ u ∈ o.outside, Keeps good failed (find u)) :
    Keeps good failed (o.advance find expander pathCaseSensitive ignored m) := by
  obtain ⟨hspec, hexclude⟩ := List.forall_mem_append.mp (o.outside_eq_append ▸ hfind)
  rw [advance_eq]
  refine .bind (bindSpec_keeps hspec) fun matcher => .bind (bindExclude_keeps hexclude) ?_
  intro exclude
  refine .bind (.ofEffect (apply_triple h rfl hvalid m.entries)) fun edit => ?_
  exact .bind (.ofEffect (h.log _)) fun _ => .ret fun _ hs => hs

theorem applyAll_keeps (h : Preserves expander good failed) {options : Options}
    {ops : List Operation} {m : Materialized} (hvalid : ∀ o ∈ ops, o.validate = .ok ())
    (hfind : ∀ o ∈ ops, ∀ u ∈ o.outside, Keeps good failed (find u)) :
    Keeps good failed (applyAll find expander options ops m) := by
  induction ops generalizing m with
  | nil => exact .ret fun _ hs => hs
  | cons o rest ih =>
    obtain ⟨hovalid, hrestvalid⟩ := List.forall_mem_cons.mp hvalid
    obtain ⟨ho, hrest⟩ := List.forall_mem_cons.mp hfind
    rw [applyAll]
    exact .bind (advance_keeps h _ _ hovalid ho) fun _ => ih hrestvalid hrest

end

end Operation

end BuildItems
