import BuildItems.Proofs.Operation.Advance
import BuildItems.Proofs.Operation.Apply
import BuildItems.Proofs.Operation.Likeness

/-!
# Operations one after another

With a fixed expander, the items after an operation depend only on the items before, on what its
references to other types stand for and on the globs it expands. The operations of a prefix, each
attempted on the items so far, give the same answer as the run that applies them.
-/

namespace BuildItems

variable {σ : Type}

namespace Operation

def listsOf (ask : Reference → Except EvalError (List Entry)) (itemType : String)
    (sofar : List Entry) (r : Reference) : List Entry :=
  if r.itemType = itemType then sofar else answerOf ask r

/-- The items after an operation, without running it: the references to other types are looked up
first, then the globs are expanded. -/
def attempt (ask : Reference → Except EvalError (List Entry))
    (answer : Glob → Except EvalError (List String)) (pathCaseSensitive : Bool) (ignored : NameSet)
    (o : Operation) (m : Materialized) : Except EvalError Materialized := do
  allOk ask o.outside
  allOk answer (o.asked ignored)
  let entries := o.policy (listsOf ask o.itemType m.entries) (shown answer ignored)
    pathCaseSensitive m.entries
  pure ⟨entries, m.removedGlobs.union o.removedGlobs⟩

def ignoredBefore (options : Options) (rest : List Operation) : NameSet :=
  if options.skipRemovedGlobs then removedBy rest else ∅

def attemptAll (ask : Reference → Except EvalError (List Entry))
    (answer : Glob → Except EvalError (List String)) (options : Options) :
    List Operation → Materialized → Except EvalError Materialized
  | [], m => .ok m
  | o :: rest, m => do
    let next ← o.attempt ask answer options.pathLikeCaseSensitive (ignoredBefore options rest) m
    attemptAll ask answer options rest next

section

variable {ask ask' : Reference → Except EvalError (List Entry)}
  {answer : Glob → Except EvalError (List String)} {pathCaseSensitive : Bool} {ignored : NameSet}
  {o : Operation} {m : Materialized}

theorem mem_outside_of_mem_references (htype : ∀ s ∈ o.specs, s.itemType = o.itemType) {s : Spec}
    (hs : s ∈ o.specs) {r : Reference} (hr : r ∈ s.references) (hne : r.itemType ≠ o.itemType) :
    r ∈ o.outside :=
  List.mem_flatMap.mpr ⟨s, hs, Spec.mem_outside_iff.mpr ⟨hr, (htype s hs).symm ▸ hne⟩⟩

theorem attempt_eq_ok_iff {next : Materialized} :
    o.attempt ask answer pathCaseSensitive ignored m = .ok next ↔
      (∀ r ∈ o.outside, ∃ entries, ask r = .ok entries) ∧
        (∀ g ∈ o.asked ignored, ∃ values, answer g = .ok values) ∧
        ⟨o.policy (listsOf ask o.itemType m.entries) (shown answer ignored) pathCaseSensitive
          m.entries, m.removedGlobs.union o.removedGlobs⟩ = next := by
  rw [attempt, bind_eq_ok_iff, ← allOk_eq_ok_iff, ← allOk_eq_ok_iff]
  constructor
  · rintro ⟨_, houtside, h⟩
    obtain ⟨_, hasked, h⟩ := bind_eq_ok_iff.mp h
    exact ⟨houtside, hasked, Except.ok.inj h⟩
  · rintro ⟨houtside, hasked, rfl⟩
    exact ⟨(), houtside, bind_eq_ok_iff.mpr ⟨(), hasked, rfl⟩⟩

theorem attemptAll_cons_of_ok {options : Options} {rest : List Operation} {next : Materialized}
    (h : o.attempt ask answer options.pathLikeCaseSensitive (ignoredBefore options rest) m =
      .ok next) :
    attemptAll ask answer options (o :: rest) m = attemptAll ask answer options rest next := by
  rw [attemptAll, h]
  rfl

theorem listsOf_eq {lists : Reference → List Entry} {sofar : List Entry}
    (htype : ∀ s ∈ o.specs, s.itemType = o.itemType)
    (hask : ∀ r ∈ o.outside, ask r = .ok (lists r))
    (hown : ∀ r, r.itemType = o.itemType → lists r = sofar) :
    ∀ s ∈ o.specs, ∀ r ∈ s.references, listsOf ask o.itemType sofar r = lists r := by
  intro s hs r hr
  unfold listsOf
  split
  · next heq => exact (hown r heq).symm
  · next hne => exact answerOf_eq (hask r (mem_outside_of_mem_references htype hs hr hne))

theorem sameLists_listsOf (htype : ∀ s ∈ o.specs, s.itemType = o.itemType)
    (h : ∀ r ∈ o.outside, ask r = ask' r) (sofar sofar' : List Entry) :
    ∀ s ∈ o.specs, SameLists s (listsOf ask o.itemType sofar) (listsOf ask' o.itemType sofar')
      sofar sofar' := by
  intro s hs r hr
  unfold listsOf
  by_cases hown : r.itemType = o.itemType
  · rw [if_pos hown, if_pos hown]
    exact .inr ⟨rfl, rfl⟩
  · have hask := h r (mem_outside_of_mem_references htype hs hr hown)
    rw [if_neg hown, if_neg hown, answerOf, answerOf, hask]
    exact .inl rfl

theorem attempt_congr (htype : ∀ s ∈ o.specs, s.itemType = o.itemType)
    (h : ∀ r ∈ o.outside, ask r = ask' r) :
    o.attempt ask answer pathCaseSensitive ignored m =
      o.attempt ask' answer pathCaseSensitive ignored m := by
  have hlists : ∀ s ∈ o.specs, ∀ r ∈ s.references,
      listsOf ask o.itemType m.entries r = listsOf ask' o.itemType m.entries r := by
    intro s hs r hr
    rcases sameLists_listsOf htype h m.entries m.entries s hs r hr with hsame | ⟨hown, hown'⟩
    · exact hsame
    · rw [hown, hown']
  rw [attempt, attempt, allOk_congr h, policy_congr hlists]

theorem attemptAll_congr {options : Options} {ops : List Operation} {m : Materialized}
    (htype : ∀ o ∈ ops, ∀ s ∈ o.specs, s.itemType = o.itemType)
    (h : ∀ o ∈ ops, ∀ r ∈ o.outside, ask r = ask' r) :
    attemptAll ask answer options ops m = attemptAll ask' answer options ops m := by
  induction ops generalizing m with
  | nil => rfl
  | cons o rest ih =>
    obtain ⟨hotype, hresttype⟩ := List.forall_mem_cons.mp htype
    obtain ⟨ho, hrest⟩ := List.forall_mem_cons.mp h
    rw [attemptAll, attemptAll, attempt_congr hotype ho]
    exact congrArg _ (funext fun next => ih hresttype hrest)

end

section

variable {good : Session σ → Prop} {find : Reference → Run σ (List Entry)}
  {ask : Reference → Except EvalError (List Entry)}
  {answer : Glob → Except EvalError (List String)}

theorem resolve_yields {s : Spec} {sofar : List Entry}
    (h : ∀ u ∈ s.outside, Yields good (find u) (ask u)) :
    Yields good (resolve find s sofar) (allOk ask s.outside >>= fun _ =>
      .ok (s.references.map fun r => ⟨r.itemType, listsOf ask s.itemType sofar r⟩)) := by
  have hother : ∀ r ∈ s.references, r.itemType ≠ s.itemType → Yields good (find r) (ask r) :=
    fun r hr hne => h r (Spec.mem_outside_iff.mpr ⟨hr, hne⟩)
  unfold resolve Spec.outside
  generalize s.references = rs at hother
  induction rs with
  | nil => exact .ret []
  | cons r rs ih =>
    obtain ⟨hr, hrs⟩ := List.forall_mem_cons.mp hother
    have hone : Yields good
        (if r.itemType = s.itemType then pure ⟨r.itemType, sofar⟩
          else do
            let entries ← find r
            pure ⟨r.itemType, entries⟩)
        (allOk ask ([r].filter (·.itemType != s.itemType)) >>= fun _ =>
          .ok (⟨r.itemType, listsOf ask s.itemType sofar r⟩ : ResolvedReference)) := by
      unfold listsOf
      by_cases hown : r.itemType = s.itemType
      · rw [List.filter_cons_of_neg (by simp [hown]), if_pos hown, if_pos hown]
        exact .ret _
      · rw [List.filter_cons_of_pos (by simp [hown]), if_neg hown, if_neg hown]
        refine (Yields.bind (hr hown) fun entries _ => .ret _).congr ?_
        cases hask : ask r with
        | error e => simp [allOk, hask, bind, Except.bind]
        | ok entries => simp [allOk, hask, answerOf_eq hask, bind, Except.bind]
    rw [List.mapM_cons, ← List.singleton_append, List.filter_append, allOk_append, bind_assoc]
    exact .seq hone (.seq (ih hrs) (.ret _))

theorem bindSpec_yields {s : Spec} {sofar : List Entry}
    (h : ∀ u ∈ s.outside, Yields good (find u) (ask u)) :
    Yields good (bindSpec find s sofar) (allOk ask s.outside >>= fun _ =>
      .ok (s.bound (listsOf ask s.itemType sofar))) :=
  .seq (resolve_yields h) ((Yields.ofExcept _).congr (s.bind_bound _))

end

section

variable {good : List (Reference × Materialized) → Prop} {find : Reference → Run σ (List Entry)}
  {ask : Reference → Except EvalError (List Entry)}
  {answer : Glob → Except EvalError (List String)}

theorem bindExclude_yields {exclude : Option Spec} {itemType : String} {sofar : List Entry}
    (htype : ∀ s ∈ exclude, s.itemType = itemType)
    (h : ∀ u ∈ exclude.toList.flatMap Spec.outside,
      Yields (fun s : Session σ => good s.memo) (find u) (ask u)) :
    Yields (fun s : Session σ => good s.memo) (bindExclude find sofar exclude)
      (allOk ask (exclude.toList.flatMap Spec.outside) >>= fun _ =>
        .ok (exclude.map (·.bound (listsOf ask itemType sofar)))) := by
  cases exclude with
  | none => exact .ret none
  | some s =>
    have houtside : (some s).toList.flatMap Spec.outside = s.outside := List.append_nil _
    rw [houtside] at h ⊢
    rw [Option.map_some, ← htype s rfl]
    exact .map some (bindSpec_yields h)

theorem advance_yields {o : Operation} {m : Materialized} (pathCaseSensitive : Bool)
    (ignored : NameSet) (htype : ∀ s ∈ o.specs, s.itemType = o.itemType)
    (hvalid : o.validate = .ok ())
    (h : ∀ u ∈ o.outside, Yields (fun s : Session σ => good s.memo) (find u) (ask u)) :
    Yields (fun s : Session σ => good s.memo)
      (o.advance find (.fixed answer) pathCaseSensitive ignored m)
      (o.attempt ask answer pathCaseSensitive ignored m) := by
  have hself : ∀ r ∈ o.spec.references, r.itemType = o.itemType →
      listsOf ask o.itemType m.entries r = m.entries := fun r _ hr => if_pos hr
  obtain ⟨edit, hedit, hrun⟩ : EditsTo (σ := σ) o (listsOf ask o.itemType m.entries) answer
      pathCaseSensitive ignored m.entries _ := apply_editsTo hvalid hself
  obtain ⟨hspec, hexclude⟩ := List.forall_mem_append.mp (o.outside_eq_append ▸ h)
  have hlog : ∀ e : Log.Event, Yields (fun s : Session σ => good s.memo)
      (Run.ofEffect (Effect.log e)) (.ok ()) := fun e => .ofEffect (yields_log e)
  have hexcludetype : ∀ s ∈ o.action.exclude?, s.itemType = o.itemType :=
    fun s hs => htype s (mem_specs_of_mem_exclude? hs)
  rw [attempt, outside_eq_append, allOk_append, bind_assoc, advance_eq]
  refine .seq (bindSpec_yields hspec) (.seq (bindExclude_yields hexcludetype hexclude) ?_)
  refine .seq (.ofEffect hrun) ?_
  rw [← hedit]
  exact .seq (c := .ok ()) (hlog _) (.ret _)

theorem applyAll_yields {options : Options} {ops : List Operation} {m : Materialized}
    (htype : ∀ o ∈ ops, ∀ s ∈ o.specs, s.itemType = o.itemType)
    (hvalid : ∀ o ∈ ops, o.validate = .ok ())
    (h : ∀ o ∈ ops, ∀ u ∈ o.outside,
      Yields (fun s : Session σ => good s.memo) (find u) (ask u)) :
    Yields (fun s : Session σ => good s.memo) (applyAll find (.fixed answer) options ops m)
      (attemptAll ask answer options ops m) := by
  induction ops generalizing m with
  | nil => exact .ret m
  | cons o rest ih =>
    obtain ⟨hotype, hresttype⟩ := List.forall_mem_cons.mp htype
    obtain ⟨hovalid, hrestvalid⟩ := List.forall_mem_cons.mp hvalid
    obtain ⟨ho, hrest⟩ := List.forall_mem_cons.mp h
    rw [applyAll, attemptAll]
    exact .bind (advance_yields _ _ hotype hovalid ho) fun next _ =>
      ih hresttype hrestvalid hrest

end

end Operation

end BuildItems
