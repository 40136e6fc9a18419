import BuildItems.Proofs.Run

/-!
# Operations that write to a builder

Performed on the list of a builder, an operation expands and tells what it does on a plain list, and
writes just the edit it answers with there. All that can fail comes before the first write, so a
failure finds the builder as it was.
-/

namespace BuildItems

variable {σ α : Type}

def Builder.Untouched (buffer : Nat) (store : Store Entry) (b : Builder σ) : Prop :=
  b.buffer = buffer ∧ b.store = store

namespace Mutation

theorem run_ofEffect (x : Effect σ α) (b : Builder σ) :
    (ofEffect x).run b = ((x.run b.trace).1, { b with trace := (x.run b.trace).2 }) := rfl

/-- What the mutation writes, tells and fails with is what the effect on the plain list does. -/
def Writes (x : Mutation σ Unit) (edit : List Entry → Effect σ (Edit Entry)) : Prop :=
  ∀ b, x.run b = match (edit b.entries).run b.trace with
    | (.ok e, t) => (.ok (), { b with trace := t }.edit e)
    | (.error e, t) => (.error e, { b with trace := t })

section

variable {x : Mutation σ Unit} {edit : List Entry → Effect σ (Edit Entry)} {t : Trace σ}

theorem Writes.run_of_ok (h : Writes x edit) (b : Builder σ) {e : Edit Entry}
    (hrun : (edit b.entries).run b.trace = (.ok e, t)) :
    x.run b = (.ok (), { b with trace := t }.edit e) := by
  rw [h b, hrun]

theorem Writes.run_of_error (h : Writes x edit) (b : Builder σ) {e : EvalError}
    (hrun : (edit b.entries).run b.trace = (.error e, t)) :
    x.run b = (.error e, { b with trace := t }) := by
  rw [h b, hrun]

end

section

variable {buffer : Nat} {store : Store Entry}

theorem triple_ofEffect (x : Effect σ α) :
    Triple (Builder.Untouched buffer store) (ofEffect x)
      (fun _ => Builder.Untouched buffer store) (fun _ => Builder.Untouched buffer store) := by
  intro b hb
  rw [run_ofEffect]
  rcases x.run b.trace with ⟨e | a, t⟩
  · exact hb
  · exact hb

variable {pre : Builder σ → Prop} {fail : EvalError → Builder σ → Prop}

theorem triple_entries : Triple pre entries (fun _ => pre) fail := fun _ hb => hb

theorem triple_write (e : Edit Entry) : Triple pre (write e) (fun _ _ => True) fail :=
  fun _ _ => trivial

theorem triple_extend (added : List Entry) :
    Triple pre (extend added) (fun _ _ => True) fail :=
  .bind triple_entries fun _ => triple_write _

theorem triple_retain (keep : Entry → Bool) : Triple pre (retain keep) (fun _ _ => True) fail :=
  .bind triple_entries fun _ => triple_write _

theorem triple_replaceWhere (replace : Entry → Option Entry) :
    Triple pre (replaceWhere replace) (fun _ _ => True) fail :=
  .bind triple_entries fun _ => .bind (triple_write _) fun _ => .ret fun _ _ => trivial

theorem triple_log (e : Log.Event) :
    Triple pre (ofEffect (Effect.log e)) (fun _ _ => True) fail := fun _ _ => trivial

end

end Mutation

namespace Operation

open Mutation

theorem performIncludes_writes (o : Operation) (metadata : Metadata) (ctx : Context σ) :
    Writes (o.performIncludes metadata ctx) (o.applyIncludes metadata ctx) := by
  intro b
  rw [performIncludes, applyIncludes]
  cases o.condition with
  | false => rfl
  | true =>
    rw [if_pos rfl, if_pos rfl, run_bind, run_bind, Mutation.run_ofEffect]
    rcases (candidates ctx o.itemType o.spec.fragments ctx.matcher.references).run b.trace with
      ⟨e | items, t⟩
    · rfl
    · rfl

theorem performExcludes_writes (o : Operation) (ctx : Context σ) :
    Writes (o.performExcludes ctx) (o.applyExcludes ctx) := by
  intro b
  rw [performExcludes, applyExcludes]
  cases o.condition with
  | false => rfl
  | true => rfl

theorem performRemoves_writes (o : Operation) (byMetadata : Option MetadataMatch)
    (ctx : Context σ) : Writes (o.performRemoves byMetadata ctx) (o.applyRemoves byMetadata ctx) := by
  intro b
  rw [performRemoves, applyRemoves, run_bind, run_bind, run_answer, run_answer]
  cases o.validate with
  | error e => rfl
  | ok u =>
    dsimp only
    cases o.condition with
    | false =>
      rw [Bool.and_false, Bool.false_and]
      rfl
    | true =>
      rw [Bool.and_true, if_pos rfl]
      cases byMetadata.isNone && o.spec.isSingleReferenceTo o.itemType with
      | true => rfl
      | false =>
        change (let gone := (b.entries.filter (removes ctx byMetadata)).map (·.item)
          (if gone.isEmpty then pure () else
            retain fun e => !gone.contains e.item : Mutation σ Unit).run b) =
          (.ok (), b.edit (removeSelected (·.item) (removes ctx byMetadata) b.entries))
        rw [removeSelected]
        cases (b.entries.filter (removes ctx byMetadata)).map (·.item) with
        | nil => rfl
        | cons gone rest => rfl

theorem performUpdates_writes (o : Operation) (metadata : Metadata) (ctx : Context σ) :
    Writes (o.performUpdates metadata ctx) (o.applyUpdates metadata ctx) := by
  intro b
  rw [performUpdates, applyUpdates]
  cases o.condition && !metadata.isEmpty with
  | false => rfl
  | true => rfl

theorem perform_writes (o : Operation) (ctx : Context σ) :
    Writes (o.perform ctx) (o.apply ctx) := by
  unfold perform apply
  cases o.action with
  | includes _ metadata => exact o.performIncludes_writes metadata ctx
  | excludes => exact o.performExcludes_writes ctx
  | removes byMetadata => exact o.performRemoves_writes byMetadata ctx
  | updates metadata => exact o.performUpdates_writes metadata ctx

theorem run_applyIn (o : Operation) (ctx : Context σ) (store : Store Entry) (buffer : Nat)
    (t : Trace σ) :
    (o.applyIn ctx store buffer).run t =
      match (o.apply ctx (store.contents buffer)).run t with
      | (.ok edit, t') => ((.ok (), store.edit buffer edit), t')
      | (.error e, t') => ((.error e, buffer, store), t') := by
  have hrun : (o.applyIn ctx store buffer).run t =
      ((((o.perform ctx).run ⟨buffer, store, t⟩).1,
        ((o.perform ctx).run ⟨buffer, store, t⟩).2.buffer,
        ((o.perform ctx).run ⟨buffer, store, t⟩).2.store),
        ((o.perform ctx).run ⟨buffer, store, t⟩).2.trace) := rfl
  rcases happly : (o.apply ctx (store.contents buffer)).run t with ⟨e | edit, t'⟩
  · rw [hrun, (o.perform_writes ctx).run_of_error ⟨buffer, store, t⟩ happly]
  · rw [hrun, (o.perform_writes ctx).run_of_ok ⟨buffer, store, t⟩ happly]
    rfl

section

variable {buffer : Nat} {store : Store Entry}

/-- The candidates may fail one after the other, but nothing is added before the last is there. -/
theorem performIncludes_untouched (o : Operation) (metadata : Metadata) (ctx : Context σ) :
    Triple (Builder.Untouched buffer store) (o.performIncludes metadata ctx) (fun _ _ => True)
      (fun _ => Builder.Untouched buffer store) := by
  unfold performIncludes
  split
  · exact .bind (triple_ofEffect _) fun items => triple_extend _
  · exact .ret fun _ _ => trivial

theorem performExcludes_untouched (o : Operation) (ctx : Context σ) :
    Triple (Builder.Untouched buffer store) (o.performExcludes ctx) (fun _ _ => True)
      (fun _ => Builder.Untouched buffer store) := by
  unfold performExcludes
  split
  · exact triple_retain _
  · exact .ret fun _ _ => trivial

/-- The one check that can fail comes before both ways of removing. -/
theorem performRemoves_untouched (o : Operation) (byMetadata : Option MetadataMatch)
    (ctx : Context σ) :
    Triple (Builder.Untouched buffer store) (o.performRemoves byMetadata ctx) (fun _ _ => True)
      (fun _ => Builder.Untouched buffer store) := by
  unfold performRemoves
  refine .bind (.answer (fun _ _ hb => hb) _) fun _ => ?_
  split
  · exact .bind triple_entries fun _ => .bind (triple_log _) fun _ => triple_write _
  · split
    · refine .bind triple_entries fun entries => ?_
      dsimp only
      split
      · exact .ret fun _ _ => trivial
      · exact triple_retain _
    · exact .ret fun _ _ => trivial

/-- An Update writes before it logs, and neither fails. -/
theorem performUpdates_untouched (o : Operation) (metadata : Metadata) (ctx : Context σ) :
    Triple (Builder.Untouched buffer store) (o.performUpdates metadata ctx) (fun _ _ => True)
      (fun _ => Builder.Untouched buffer store) := by
  unfold performUpdates
  split
  · exact .bind (triple_replaceWhere _) fun count => triple_log _
  · exact .ret fun _ _ => trivial

/-- Where an operation fails, it has not yet written. -/
theorem perform_untouched (o : Operation) (ctx : Context σ) :
    Triple (Builder.Untouched buffer store) (o.perform ctx) (fun _ _ => True)
      (fun _ => Builder.Untouched buffer store) := by
  unfold perform
  cases o.action with
  | includes _ metadata => exact o.performIncludes_untouched metadata ctx
  | excludes => exact o.performExcludes_untouched ctx
  | removes byMetadata => exact o.performRemoves_untouched byMetadata ctx
  | updates metadata => exact o.performUpdates_untouched metadata ctx

end

end Operation

end BuildItems
