import BuildItems.Proofs.Account
import BuildItems.Proofs.Operation.Apply

/-!
# What an operation tells and asks for

An operation asks for its globs in order, and no others. It tells of nothing but itself: the events
of its own are neither boundaries nor reports, and its report comes when it has been applied.
-/

namespace BuildItems

variable {σ : Type}

def Log.Event.isReport (e : Log.Event) : Bool :=
  e.field? Log.Field.message == some "applied item operation"

theorem Operation.isReport_appliedOperation (o : Operation) (count : Nat) :
    (o.appliedOperation count).isReport = true := rfl

/-- The innermost computation is of `r`. It told of no boundary, made these reports and asked for
these globs. -/
def Working (opening : Log.Event) (r : Reference) (rest : List Episode)
    (ended : List (Episode × Materialized)) (reports : List Log.Event) (asked : List Glob)
    (t : Trace (σ × Account)) : Prop :=
  ∃ told : List Log.Event, (∀ x ∈ told, x.event? = none) ∧
    told.filter (·.isReport) = reports ∧ Balanced opening (⟨r, told, asked⟩ :: rest) ended t

section

variable {opening : Log.Event} {r : Reference} {rest : List Episode}
  {ended : List (Episode × Materialized)} {reports : List Log.Event} {asked : List Glob}
  {t : Trace (σ × Account)}

theorem Working.tell (h : Working opening r rest ended reports asked t) {x : Log.Event}
    (hx : x.event? = none) :
    Working opening r rest ended (reports ++ [x].filter (·.isReport)) asked
      { t with log := t.log ++ [x] } := by
  obtain ⟨told, hsilent, hreports, hbalanced⟩ := h
  refine ⟨told ++ [x], ?_, ?_, hbalanced.tell x⟩
  · exact List.forall_mem_append.mpr ⟨hsilent, List.forall_mem_singleton.mpr hx⟩
  · rw [List.filter_append, hreports]

def BrokenOff (opening : Log.Event) (r : Reference) (rest : List Episode)
    (ended : List (Episode × Materialized)) (_ : EvalError) (t : Trace (σ × Account)) : Prop :=
  ∃ reports asked, Working opening r rest ended reports asked t

theorem triple_log_of_not_isReport {x : Log.Event} (hx : x.event? = none)
    (hreport : x.isReport = false) :
    Triple (Working opening r rest ended reports asked) (Effect.log (σ := σ × Account) x)
      (fun _ => Working opening r rest ended reports asked)
      (BrokenOff opening r rest ended) := by
  intro t ht
  have hworking := ht.tell hx
  rw [List.filter_singleton, hreport, cond_false, List.append_nil] at hworking
  exact hworking

theorem Operation.triple_log_appliedOperation (o : Operation) (count : Nat) :
    Triple (Working opening r rest ended reports asked)
      (Effect.log (σ := σ × Account) (o.appliedOperation count))
      (fun _ => Working opening r rest ended (reports ++ [o.appliedOperation count]) asked)
      (BrokenOff opening r rest ended) := by
  intro t ht
  have hworking := ht.tell (x := o.appliedOperation count) rfl
  rw [List.filter_singleton, o.isReport_appliedOperation, cond_true] at hworking
  exact hworking

theorem Expander.triple_accounted (expander : Expander σ) (g : Glob) :
    Triple (Working opening r rest ended reports asked) (Effect.expand expander.accounted g)
      (fun _ => Working opening r rest ended reports (asked ++ [g]))
      (BrokenOff opening r rest ended) := by
  rintro t ⟨told, hsilent, hreports, hbalanced⟩
  have hasked : Working opening r rest ended reports (asked ++ [g])
      { t with host := ((expander g t.host.1).2, t.host.2.ask g) } :=
    ⟨told, hsilent, hreports, hbalanced.ask g _⟩
  rw [run_expand, Expander.accounted]
  rcases hanswer : expander g t.host.1 with ⟨e | values, host⟩
  · rw [hanswer] at hasked
    exact ⟨reports, asked ++ [g], hasked⟩
  · rw [hanswer] at hasked
    exact hasked

namespace Operation

variable {expander : Expander σ}

theorem candidates_accounted {ctx : Context (σ × Account)} (hctx : ctx.expander = expander.accounted)
    (itemType : String) (fs : List Fragment) (rs : List ResolvedReference) (asked : List Glob) :
    Triple (Working opening r rest ended reports asked) (candidates ctx itemType fs rs)
      (fun _ => Working opening r rest ended reports
        (asked ++ (fs.filterMap Fragment.glob?).filter fun g => !ctx.ignored.contains g.text))
      (BrokenOff opening r rest ended) := by
  induction fs generalizing rs asked with
  | nil =>
    rw [List.filterMap_nil, List.filter_nil, List.append_nil]
    exact .ret fun _ ht => ht
  | cons f fs ih =>
    cases f with
    | literal value => exact .bind (ih rs asked) fun _ => .ret fun _ ht => ht
    | reference u =>
      cases rs with
      | nil => exact ih [] asked
      | cons l rs => exact .bind (ih rs asked) fun _ => .ret fun _ ht => ht
    | glob g =>
      rw [candidates, hctx, List.filterMap_cons_some (by rfl)]
      cases hskip : ctx.ignored.contains g.text with
      | true =>
        rw [if_pos rfl, List.filter_cons_of_neg (by simp [hskip])]
        exact .bind (triple_log_of_not_isReport rfl rfl) fun _ => ih rs asked
      | false =>
        rw [if_neg Bool.false_ne_true, List.filter_cons_of_pos (by simp [hskip]),
          List.append_cons]
        refine .bind (expander.triple_accounted g) fun _ => ?_
        exact .bind (ih rs (asked ++ [g])) fun _ => .ret fun _ ht => ht

theorem apply_accounted (o : Operation) {ctx : Context (σ × Account)}
    (hctx : ctx.expander = expander.accounted) (entries : List Entry) :
    Triple (Working opening r rest ended reports asked) (o.apply ctx entries)
      (fun _ => Working opening r rest ended reports (asked ++ o.asked ctx.ignored))
      (BrokenOff opening r rest ended) := by
  have hnone : o.kind ≠ .includes → asked ++ o.asked ctx.ignored = asked := by
    intro hkind
    rw [asked_of_not_includes hkind, List.append_nil]
  unfold apply
  split
  · next exclude metadata ha =>
    rw [applyIncludes, Operation.asked, ha]
    cases o.condition with
    | true =>
      exact .bind (candidates_accounted hctx _ _ _ asked) fun _ => .ret fun _ ht => ht
    | false =>
      rw [if_neg Bool.false_ne_true, if_neg Bool.false_ne_true, List.append_nil]
      exact .ret fun _ ht => ht
  · next ha =>
    rw [hnone (by simp [kind, ha, Action.kind])]
    exact .ret fun _ ht => ht
  · next byMetadata ha =>
    rw [hnone (by simp [kind, ha, Action.kind]), applyRemoves]
    refine .bind (.answer (fun _ _ ht => ⟨reports, asked, ht⟩) _) fun _ => ?_
    split
    · split
      · exact .bind (triple_log_of_not_isReport rfl rfl) fun _ =>
          .ret fun _ ht => ht
      · exact .ret fun _ ht => ht
    · exact .ret fun _ ht => ht
  · next metadata ha =>
    rw [hnone (by simp [kind, ha, Action.kind]), applyUpdates]
    split
    · exact .bind (triple_log_of_not_isReport rfl rfl) fun _ =>
        .ret fun _ ht => ht
    · exact .ret fun _ ht => ht

end Operation

end

end BuildItems
