import BuildItems.Proofs.Operation.Candidates
import BuildItems.Proofs.Operation.Mutation
import BuildItems.Proofs.Operation.Slots

/-!
# All or nothing

Applying an operation fails in two ways only. A Remove by metadata is refused unless it has one
name and one reference, whatever its condition, and a true-condition Include fails with the first
of its globs that fails; the globs after that one are not expanded. In neither way is anything done
to the list or to the buffer that holds it.
-/

namespace BuildItems

variable {σ : Type}

namespace Expander

/-- One of the globs fails, those before it are answered, and none is expanded after it. -/
def FailsAmong (expander : Expander σ) (globs : List Glob) (host : σ) (e : EvalError) (host' : σ) :
    Prop :=
  ∃ before g after answers mid, globs = before ++ g :: after ∧
    (expander.answers before).run host = (.ok answers, mid) ∧ expander g mid = (.error e, host')

variable {expander : Expander σ} {g : Glob} {globs : List Glob} {host host' mid : σ}
  {e : EvalError}

theorem run_answers_cons_of_error (h : expander g host = (.error e, host')) :
    (expander.answers (g :: globs)).run host = (.error e, host') := by
  have hrun : (ExceptT.mk (expander g)).run host = (.error e, host') := h
  rw [answers_cons, run_bind, hrun]

theorem run_answers_cons_of_ok {values : List String} (h : expander g host = (.ok values, mid)) :
    (expander.answers (g :: globs)).run host =
      (((expander.answers globs).run mid).1.map (values :: ·),
        ((expander.answers globs).run mid).2) := by
  have hrun : (ExceptT.mk (expander g)).run host = (.ok values, mid) := h
  rw [answers_cons, run_bind, hrun]
  exact run_map _ _ mid

theorem failsAmong_cons_of_error (h : expander g host = (.error e, host')) {e' : EvalError}
    {host'' : σ} :
    expander.FailsAmong (g :: globs) host e' host'' ↔ e = e' ∧ host' = host'' := by
  constructor
  · rintro ⟨before, g', after, answers, mid, hglobs, hbefore, hfails⟩
    rcases List.cons_eq_append_iff.mp hglobs with ⟨rfl, hcons⟩ | ⟨before, rfl, -⟩
    · obtain ⟨rfl, -⟩ := List.cons.inj hcons
      cases hbefore
      cases h.symm.trans hfails
      exact ⟨rfl, rfl⟩
    · rw [run_answers_cons_of_error h] at hbefore
      cases hbefore
  · rintro ⟨rfl, rfl⟩
    exact ⟨[], g, globs, [], host, rfl, rfl, h⟩

theorem failsAmong_cons_of_ok {values : List String} (h : expander g host = (.ok values, mid)) :
    expander.FailsAmong (g :: globs) host e host' ↔ expander.FailsAmong globs mid e host' := by
  constructor
  · rintro ⟨before, g', after, answers, mid', hglobs, hbefore, hfails⟩
    rcases List.cons_eq_append_iff.mp hglobs with ⟨rfl, hcons⟩ | ⟨before, rfl, rfl⟩
    · obtain ⟨rfl, -⟩ := List.cons.inj hcons
      cases hbefore
      cases h.symm.trans hfails
    · rw [run_answers_cons_of_ok h, Prod.ext_iff, map_eq_ok_iff] at hbefore
      obtain ⟨⟨answers', hanswers, _⟩, hmid⟩ := hbefore
      exact ⟨before, g', after, answers', mid', rfl, Prod.ext hanswers hmid, hfails⟩
  · rintro ⟨before, g', after, answers, mid', rfl, hbefore, hfails⟩
    refine ⟨g :: before, g', after, values :: answers, mid', rfl, ?_, hfails⟩
    rw [run_answers_cons_of_ok h, hbefore]
    rfl

theorem run_answers_eq_error_iff :
    (expander.answers globs).run host = (.error e, host') ↔
      expander.FailsAmong globs host e host' := by
  induction globs generalizing host with
  | nil =>
    refine iff_of_false (fun h => ?_) ?_
    · cases congrArg Prod.fst h
    · rintro ⟨before, g, after, _, _, hglobs, _⟩
      exact absurd hglobs.symm (by simp)
  | cons g globs ih =>
    rcases hg : expander g host with ⟨e' | values, mid⟩
    · rw [run_answers_cons_of_error hg, failsAmong_cons_of_error hg, Prod.mk.injEq,
        Except.error.injEq]
    · rw [run_answers_cons_of_ok hg, failsAmong_cons_of_ok hg, ← ih, Prod.ext_iff, Prod.ext_iff,
        map_eq_error_iff]

end Expander

namespace Operation

/-- A Remove by metadata, but not by one name and against one reference. -/
def Restricted (o : Operation) : Prop :=
  ∃ m, o.action = .removes (some m) ∧ (m.count ≠ 1 ∨ o.spec.isSingleReference = false)

theorem validate_eq_error_iff {o : Operation} {e : EvalError} :
    o.validate = .error e ↔
      o.Restricted ∧ e = .matchOnMetadataRestricted o.itemType o.location := by
  unfold validate Restricted
  cases o.action with
  | removes byMetadata =>
    cases byMetadata with
    | none => simp [Action.byMetadata?]
    | some m =>
      by_cases hcount : m.count = 1 <;> cases o.spec.isSingleReference <;>
        simp [Action.byMetadata?, hcount, eq_comm]
  | _ => simp [Action.byMetadata?]

variable {o : Operation} {ctx : Context σ} {entries : List Entry} {t : Trace σ} {e : EvalError}

theorem run_applyRemoves_eq_error_iff (byMetadata : Option MetadataMatch) :
    ((o.applyRemoves byMetadata ctx entries).run t).1 = .error e ↔ o.validate = .error e := by
  rw [applyRemoves, run_bind, run_answer]
  cases o.validate with
  | error e' =>
    dsimp only
    rw [Except.error.injEq, Except.error.injEq]
  | ok u =>
    -- once valid, a Remove does not fail
    refine iff_of_false (fun h => ?_) (by simp)
    dsimp only at h
    split at h
    · split at h
      · rw [run_bind] at h
        cases h
      · cases h
    · cases h

theorem run_applyUpdates_ne_error (metadata : Metadata) :
    ((o.applyUpdates metadata ctx entries).run t).1 ≠ .error e := by
  intro h
  rw [applyUpdates] at h
  split at h
  · rw [run_bind] at h
    cases h
  · cases h

theorem run_applyIncludes_eq_error_iff (metadata : Metadata) :
    ((o.applyIncludes metadata ctx entries).run t).1 = .error e ↔
      o.condition = true ∧ ctx.expander.FailsAmong
        (Fragment.expanded ctx.ignored o.spec.fragments) t.host e
          ((o.applyIncludes metadata ctx entries).run t).2.host := by
  cases hcondition : o.condition with
  | false =>
    refine iff_of_false (fun h => ?_) fun h => Bool.false_ne_true h.1
    rw [applyIncludes, hcondition] at h
    cases h
  | true =>
    have hrun := applyIncludes_mirrors_answers hcondition metadata ctx entries t
    rw [run_map] at hrun
    obtain ⟨hedit, hhost⟩ := Prod.mk.inj hrun
    rw [← hedit, ← hhost, map_eq_error_iff, ← Expander.run_answers_eq_error_iff, Prod.ext_iff]
    simp

/-- An error is the refusal of a restricted Remove or the first failure among the globs that a
true-condition Include expands; the latter leaves the expander as that glob left it. -/
theorem run_apply_eq_error_iff :
    ((o.apply ctx entries).run t).1 = .error e ↔
      o.Restricted ∧ e = .matchOnMetadataRestricted o.itemType o.location ∨
        o.kind = .includes ∧ o.condition = true ∧ ctx.expander.FailsAmong
          (Fragment.expanded ctx.ignored o.spec.fragments) t.host e
            ((o.apply ctx entries).run t).2.host := by
  rw [← validate_eq_error_iff]
  unfold apply kind
  cases haction : o.action with
  | includes exclude metadata =>
    have hvalid : o.validate = .ok () := validate_of_byMetadata_eq_none (by rw [haction]; rfl)
    rw [run_applyIncludes_eq_error_iff]
    simp [hvalid, Action.kind]
  | excludes =>
    have hvalid : o.validate = .ok () := validate_of_byMetadata_eq_none (by rw [haction]; rfl)
    refine iff_of_false (fun h => ?_) (by simp [hvalid, Action.kind])
    cases h
  | removes byMetadata =>
    rw [run_applyRemoves_eq_error_iff]
    simp [Action.kind]
  | updates metadata =>
    have hvalid : o.validate = .ok () := validate_of_byMetadata_eq_none (by rw [haction]; rfl)
    exact iff_of_false (run_applyUpdates_ne_error metadata) (by simp [hvalid, Action.kind])

/-- Whatever an operation is applied with, it fails just where it is a restricted Remove, or a
true-condition Include one of whose globs fails, with that failure and nothing expanded after it;
and where it fails, the builder keeps its buffer, and the store all it holds. -/
theorem apply_all_or_nothing (o : Operation) (ctx : Context σ) (store : Store Entry) (buffer : Nat)
    (t : Trace σ) :
    let run := (o.applyIn ctx store buffer).run t
    (∀ e, run.1.1 = .error e ↔
      o.Restricted ∧ e = .matchOnMetadataRestricted o.itemType o.location ∨
        o.kind = .includes ∧ o.condition = true ∧ ctx.expander.FailsAmong
          (Fragment.expanded ctx.ignored o.spec.fragments) t.host e run.2.host) ∧
      ∀ e, run.1.1 = .error e → run.1.2 = (buffer, store) := by
  refine ⟨?_, fun e he => ?_⟩
  · have herror (e : EvalError) :
        ((o.apply ctx (store.contents buffer)).run t).1 = .error e ↔ _ := run_apply_eq_error_iff
    rw [run_applyIn]
    rcases hrun : (o.apply ctx (store.contents buffer)).run t with ⟨e' | edit, t'⟩
    · rw [hrun] at herror
      exact fun e => by simpa using herror e
    · rw [hrun] at herror
      exact fun e => by simpa using herror e
  · -- the error leaves the builder as the steps before it did, and none of them writes
    obtain ⟨hbuffer, hstore⟩ := (o.perform_untouched ctx).of_eq_error ⟨rfl, rfl⟩ he
    exact Prod.ext hbuffer hstore

def unreadable : Operation where
  action := .includes none ∅
  spec := .ofFragments "I" [.literal "a.c", .glob (starred 'a'), .glob (starred 'b'),
    .reference ⟨"R", 1⟩, .glob (starred 'c')]
  condition := true
  location := .inFile "app.proj"
  order := 5

/-- The second glob fails, after a literal and the first, and the third is not asked for. -/
theorem apply_all_or_nothing_unreadable :
    let denied := Expander.failingOn ["*.b", "*.c"] "denied" fun _ => .ok ["x.a"]
    let ctx : Context (List String) :=
      { matcher := ⟨unreadable.spec, [⟨"R", [⟨⟨"R", "b.c", ∅⟩, 0⟩]⟩]⟩
        exclude := none
        ignored := ∅
        expander := .recording denied
        pathCaseSensitive := true }
    let builder : Nat × Store Entry := Store.empty.allocate [⟨⟨"I", "old.c", ∅⟩, 1⟩]
    let run := (unreadable.applyIn ctx builder.2 builder.1).run ⟨[], []⟩
    run.1 = (.error (.invalidGlob "*.b" "denied"), builder) ∧ run.2.host = ["*.a", "*.b"] := by
  intro denied ctx builder run
  have hfails : ctx.expander.FailsAmong
      (Fragment.expanded ctx.ignored unreadable.spec.fragments) []
        (.invalidGlob "*.b" "denied") ["*.a", "*.b"] :=
    ⟨[starred 'a'], starred 'b', [starred 'c'], [["x.a"]], ["*.a"], by rfl, by rfl, by rfl⟩
  obtain ⟨hiff, hkeeps⟩ := apply_all_or_nothing unreadable ctx builder.2 builder.1 ⟨[], []⟩
  have hhost : run.2.host = ["*.a", "*.b"] := by rfl
  have herror := (hiff (.invalidGlob "*.b" "denied")).mpr (.inr ⟨rfl, rfl, hhost ▸ hfails⟩)
  exact ⟨Prod.ext herror (hkeeps _ herror), hhost⟩

end Operation

end BuildItems
