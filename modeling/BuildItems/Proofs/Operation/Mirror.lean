import BuildItems.Proofs.Mirror
import BuildItems.Proofs.Operation.Advance

/-!
# Operations and the state of the expander

An operation reads nothing of the expander but its answers. If one expander answers as another
and carries more state, applying an operation with the first mirrors applying it with the second.
-/

namespace BuildItems

variable {σ τ : Type}

/-- The second expander answers as the first, and its state is a view of the other's. -/
def Expander.Mirrors (f : σ → τ) (expander : Expander σ) (expander' : Expander τ) : Prop :=
  ∀ g host, expander' g (f host) = ((expander g host).1, f (expander g host).2)

def Context.withExpander (ctx : Context σ) (expander : Expander τ) : Context τ :=
  ⟨ctx.matcher, ctx.exclude, ctx.ignored, expander, ctx.pathCaseSensitive⟩

namespace Operation

variable {f : σ → τ} {expander : Expander σ} {expander' : Expander τ}

theorem expand_mirrors (h : expander.Mirrors f expander') (g : Glob) :
    Mirrors (Trace.view f) (Effect.expand expander g) (Effect.expand expander' g) := by
  intro t
  have hanswer : expander' g (t.view f).host = _ := h g t.host
  rw [run_expand, run_expand, hanswer]
  rfl

theorem candidates_mirrors {ctx : Context σ} (h : ctx.expander.Mirrors f expander')
    (itemType : String) (fs : List Fragment) (rs : List ResolvedReference) :
    Mirrors (Trace.view f) (candidates ctx itemType fs rs)
      (candidates (ctx.withExpander expander') itemType fs rs) := by
  induction fs generalizing rs with
  | nil => exact .ret []
  | cons fragment fs ih =>
    cases fragment with
    | literal value => exact .bind (ih rs) fun _ => .ret _
    | glob g =>
      rw [candidates, candidates]
      cases hskip : ctx.ignored.contains g.text with
      | true =>
        have hskip' : (ctx.withExpander expander').ignored.contains g.text = true := hskip
        rw [if_pos rfl, if_pos hskip']
        exact .bind (.log _) fun _ => ih rs
      | false =>
        have hskip' : ¬ (ctx.withExpander expander').ignored.contains g.text = true := by
          change ¬ ctx.ignored.contains g.text = true
          simp [hskip]
        rw [if_neg Bool.false_ne_true, if_neg hskip']
        exact .bind (expand_mirrors h g) fun _ => .bind (ih rs) fun _ => .ret _
    | reference r =>
      cases rs with
      | nil => exact ih []
      | cons r' rs => exact .bind (ih rs) fun _ => .ret _

theorem apply_mirrors {ctx : Context σ} (h : ctx.expander.Mirrors f expander') (o : Operation)
    (entries : List Entry) :
    Mirrors (Trace.view f) (o.apply ctx entries)
      (o.apply (ctx.withExpander expander') entries) := by
  unfold apply
  split
  · rw [applyIncludes, applyIncludes]
    split
    · exact .bind (candidates_mirrors h _ _ _) fun _ => .ret _
    · exact .ret _
  · exact .ret _
  · have hvalidate : Mirrors (Trace.view f) (ExceptT.mk (pure o.validate))
        (ExceptT.mk (pure o.validate)) := fun _ => rfl
    rw [applyRemoves, applyRemoves]
    refine .bind hvalidate fun _ => ?_
    split
    · split
      · exact .bind (.log _) fun _ => .ret _
      · exact .ret _
    · exact .ret _
  · rw [applyUpdates, applyUpdates]
    split
    · exact .bind (.log _) fun _ => .ret _
    · exact .ret _

variable {find : Reference → Run σ (List Entry)} {find' : Reference → Run τ (List Entry)}

theorem bindSpec_mirrors (hfind : ∀ u, Mirrors (Session.view f) (find u) (find' u)) (s : Spec)
    (sofar : List Entry) :
    Mirrors (Session.view f) (bindSpec find s sofar) (bindSpec find' s sofar) := by
  refine .bind (.mapM (fun r => ?_) s.references) fun references => .ofExcept _
  split
  · exact .ret _
  · exact .bind (hfind r) fun _ => .ret _

theorem bindExclude_mirrors (hfind : ∀ u, Mirrors (Session.view f) (find u) (find' u))
    (exclude : Option Spec) (sofar : List Entry) :
    Mirrors (Session.view f) (bindExclude find sofar exclude)
      (bindExclude find' sofar exclude) := by
  cases exclude with
  | none => exact .ret none
  | some s => exact .map some (bindSpec_mirrors hfind s sofar)

theorem advance_mirrors (h : expander.Mirrors f expander')
    (hfind : ∀ u, Mirrors (Session.view f) (find u) (find' u)) (pathCaseSensitive : Bool)
    (ignored : NameSet) (o : Operation) (m : Materialized) :
    Mirrors (Session.view f) (o.advance find expander pathCaseSensitive ignored m)
      (o.advance find' expander' pathCaseSensitive ignored m) := by
  rw [advance_eq, advance_eq]
  refine .bind (bindSpec_mirrors hfind _ _) fun matcher => ?_
  refine .bind (bindExclude_mirrors hfind _ _) fun exclude => ?_
  let ctx : Context σ := ⟨matcher, exclude, ignored, expander, pathCaseSensitive⟩
  have happly : Mirrors (Trace.view f) (o.apply ctx m.entries)
      (o.apply (ctx.withExpander expander') m.entries) := apply_mirrors h o m.entries
  exact .bind (.ofEffect happly) fun edit => .bind (.ofEffect (.log _)) fun _ => .ret _

theorem applyAll_mirrors (h : expander.Mirrors f expander')
    (hfind : ∀ u, Mirrors (Session.view f) (find u) (find' u)) (options : Options)
    (ops : List Operation) (m : Materialized) :
    Mirrors (Session.view f) (applyAll find expander options ops m)
      (applyAll find' expander' options ops m) := by
  induction ops generalizing m with
  | nil => exact .ret m
  | cons o rest ih =>
    rw [applyAll, applyAll]
    exact .bind (advance_mirrors h hfind _ _ o m) ih

end Operation

end BuildItems
