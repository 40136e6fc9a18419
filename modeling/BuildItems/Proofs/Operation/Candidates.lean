import BuildItems.Proofs.Mirror
import BuildItems.Proofs.Operation.Policy

/-!
# What an Include adds

An Include expands the globs that are not ignored, one after another, and goes by its fragments
in order: each glob takes the next answer and each reference the next list. So a glob or reference
takes the answer or list whose number is that of the globs or references before it. What is
excluded is left out, and what remains follows the list, which is left as it was.
-/

namespace BuildItems

variable {σ : Type}

def Expander.answers (expander : Expander σ) (globs : List Glob) :
    ExceptT EvalError (StateM σ) (List (List String)) :=
  globs.mapM fun g => ExceptT.mk (expander g)

namespace Fragment

def expanded (ignored : NameSet) (fs : List Fragment) : List Glob :=
  (fs.filterMap glob?).filter fun g => !ignored.contains g.text

/-- The items of a fragment after others, by the answers to the expanded globs and the lists of the
references, both in order. -/
def itemsAfter (ignored : NameSet) (answers : List (List String))
    (lists : List ResolvedReference) (itemType : String) (before : List Fragment) :
    Fragment → List Item
  | literal value => [⟨itemType, value, ∅⟩]
  | glob g =>
    if ignored.contains g.text then []
    else (answers.getD (expanded ignored before).length []).map (⟨itemType, ·, ∅⟩)
  | reference _ =>
    match lists[(before.filterMap reference?).length]? with
    | some l => l.entries.map fun e => { e.item with itemType := itemType }
    | none => []

def itemsInOrder (ignored : NameSet) (answers : List (List String))
    (lists : List ResolvedReference) (itemType : String) (fs : List Fragment) : List Item :=
  fs.zipIdx.flatMap fun f => f.1.itemsAfter ignored answers lists itemType (fs.take f.2)

section

variable {ignored : NameSet} {answers : List (List String)} {lists : List ResolvedReference}
  {itemType : String} {fs : List Fragment}

theorem itemType_of_mem_itemsAfter {f : Fragment} {before : List Fragment} {item : Item}
    (h : item ∈ f.itemsAfter ignored answers lists itemType before) : item.itemType = itemType := by
  cases f with
  | literal value =>
    obtain rfl := List.mem_singleton.mp h
    rfl
  | glob g =>
    rw [itemsAfter] at h
    split at h
    · cases h
    · obtain ⟨value, -, rfl⟩ := List.mem_map.mp h
      rfl
  | reference r =>
    rw [itemsAfter] at h
    split at h
    · obtain ⟨e, -, rfl⟩ := List.mem_map.mp h
      rfl
    · cases h

theorem itemType_of_mem_itemsInOrder {item : Item}
    (h : item ∈ itemsInOrder ignored answers lists itemType fs) : item.itemType = itemType := by
  obtain ⟨f, -, hf⟩ := List.mem_flatMap.mp h
  exact itemType_of_mem_itemsAfter hf

/-- With one fragment more in front, each of the others takes what it took, if its answer and its
list have moved along. -/
theorem itemsInOrder_cons (f : Fragment) (answers' : List (List String))
    (lists' : List ResolvedReference)
    (h : ∀ (before : List Fragment) (f' : Fragment),
      f'.itemsAfter ignored answers lists itemType (f :: before) =
        f'.itemsAfter ignored answers' lists' itemType before) :
    itemsInOrder ignored answers lists itemType (f :: fs) =
      f.itemsAfter ignored answers lists itemType [] ++
        itemsInOrder ignored answers' lists' itemType fs := by
  rw [itemsInOrder, List.zipIdx_cons, List.flatMap_cons, List.zipIdx_succ, List.flatMap_map]
  refine congrArg _ (congrArg (List.flatMap · _) (funext fun f' => ?_))
  exact h _ _

theorem itemsInOrder_literal (value : String) :
    itemsInOrder ignored answers lists itemType (literal value :: fs) =
      ⟨itemType, value, ∅⟩ :: itemsInOrder ignored answers lists itemType fs :=
  itemsInOrder_cons _ _ _ fun before f' => by cases f' <;> rfl

theorem itemsInOrder_ignored {g : Glob} (hg : ignored.contains g.text = true) :
    itemsInOrder ignored answers lists itemType (glob g :: fs) =
      itemsInOrder ignored answers lists itemType fs := by
  have hbefore : ∀ before, expanded ignored (glob g :: before) = expanded ignored before :=
    fun before => List.filter_cons_of_neg (by simp [hg])
  have hnone : (glob g).itemsAfter ignored answers lists itemType [] = [] := if_pos hg
  rw [itemsInOrder_cons (glob g) answers lists, hnone, List.nil_append]
  intro before f'
  cases f' with
  | glob g' => rw [itemsAfter, itemsAfter, hbefore]
  | literal value => rfl
  | reference r => rfl

theorem itemsInOrder_glob {g : Glob} (hg : ignored.contains g.text = false)
    (values : List String) :
    itemsInOrder ignored (values :: answers) lists itemType (glob g :: fs) =
      values.map (⟨itemType, ·, ∅⟩) ++ itemsInOrder ignored answers lists itemType fs := by
  have hbefore : ∀ before, expanded ignored (glob g :: before) = g :: expanded ignored before :=
    fun before => List.filter_cons_of_pos (by simp [hg])
  have hvalues : (glob g).itemsAfter ignored (values :: answers) lists itemType [] =
      values.map (⟨itemType, ·, ∅⟩) := if_neg (by simp [hg])
  rw [itemsInOrder_cons (glob g) answers lists, hvalues]
  intro before f'
  cases f' with
  | glob g' => rw [itemsAfter, itemsAfter, hbefore, List.length_cons, List.getD_cons_succ]
  | literal value => rfl
  | reference r => rfl

theorem itemsInOrder_reference (r : Reference) (l : ResolvedReference) :
    itemsInOrder ignored answers (l :: lists) itemType (reference r :: fs) =
      l.entries.map (fun e => { e.item with itemType := itemType }) ++
        itemsInOrder ignored answers lists itemType fs :=
  itemsInOrder_cons _ _ _ fun before f' => by cases f' <;> rfl

theorem itemsInOrder_reference_nil (r : Reference) :
    itemsInOrder ignored answers [] itemType (reference r :: fs) =
      itemsInOrder ignored answers [] itemType fs :=
  itemsInOrder_cons _ _ _ fun before f' => by cases f' <;> rfl

end

end Fragment

namespace Expander

theorem answers_cons (expander : Expander σ) (g : Glob) (globs : List Glob) :
    expander.answers (g :: globs) =
      ExceptT.mk (expander g) >>= fun values => (values :: ·) <$> expander.answers globs := by
  rw [answers, List.mapM_cons]
  refine bind_congr fun values => ?_
  rw [map_eq_pure_bind]
  rfl

end Expander

namespace Operation

/-- Of the expander, an Include asks the globs that are not ignored, in order, and what it is
answered is all it needs. -/
theorem candidates_mirrors_answers (ctx : Context σ) (itemType : String) (fs : List Fragment)
    (lists : List ResolvedReference) :
    Mirrors Trace.host (candidates ctx itemType fs lists)
      ((Fragment.itemsInOrder ctx.ignored · lists itemType fs) <$>
        ctx.expander.answers (Fragment.expanded ctx.ignored fs)) := by
  induction fs generalizing lists with
  | nil => exact .ret []
  | cons f fs ih =>
    cases f with
    | literal value =>
      have h := (ih lists).map (⟨itemType, value, ∅⟩ :: ·)
      simp only [Functor.map_map, ← Fragment.itemsInOrder_literal] at h
      rw [candidates, ← map_eq_pure_bind]
      exact h
    | glob g =>
      cases hg : ctx.ignored.contains g.text with
      | true =>
        have hexpanded : Fragment.expanded ctx.ignored (.glob g :: fs) =
            Fragment.expanded ctx.ignored fs := List.filter_cons_of_neg (by simp [hg])
        have hlog : Mirrors Trace.host (Effect.log (skippedGlob g)) (pure () : ExceptT _ (StateM σ) _) :=
          fun _ => rfl
        simp only [Fragment.itemsInOrder_ignored hg, hexpanded]
        rw [candidates, hg, if_pos rfl]
        exact hlog.bind fun _ => ih lists
      | false =>
        have hexpanded : Fragment.expanded ctx.ignored (.glob g :: fs) =
            g :: Fragment.expanded ctx.ignored fs := List.filter_cons_of_pos (by simp [hg])
        have hexpand : Mirrors Trace.host (Effect.expand ctx.expander g)
            (ExceptT.mk (ctx.expander g)) := fun _ => rfl
        rw [hexpanded, Expander.answers_cons, map_bind, candidates, hg, if_neg Bool.false_ne_true]
        refine hexpand.bind fun values => ?_
        have h := (ih lists).map (values.map (⟨itemType, ·, ∅⟩) ++ ·)
        simp only [Functor.map_map, ← Fragment.itemsInOrder_glob hg] at h
        rw [← map_eq_pure_bind, Functor.map_map]
        exact h
    | reference r =>
      cases lists with
      | nil =>
        simp only [Fragment.itemsInOrder_reference_nil]
        exact ih []
      | cons l lists =>
        have h := (ih lists).map
          (l.entries.map (fun e => { e.item with itemType := itemType }) ++ ·)
        simp only [Functor.map_map, ← Fragment.itemsInOrder_reference r] at h
        rw [candidates, ← map_eq_pure_bind]
        exact h

theorem isExcluded_eq (ctx : Context σ) (item : Item) :
    isExcluded ctx item = ctx.exclude.any (·.matchesItem item) := by
  unfold isExcluded
  cases ctx.exclude <;> rfl

/-- An Include asks the expander for the globs that are not ignored, and fails only as it does. -/
theorem applyIncludes_mirrors_answers {o : Operation} (hcondition : o.condition = true)
    (metadata : Metadata) (ctx : Context σ) (entries : List Entry) :
    Mirrors Trace.host (o.applyIncludes metadata ctx entries)
      ((fun answers => .extend entries
          (((Fragment.itemsInOrder ctx.ignored answers ctx.matcher.references o.itemType
            o.spec.fragments).filter fun item => !ctx.exclude.any (·.matchesItem item)).map
              fun item => ⟨item.withMerged metadata, o.order⟩)) <$>
        ctx.expander.answers (Fragment.expanded ctx.ignored o.spec.fragments)) := by
  have h := (candidates_mirrors_answers ctx o.itemType o.spec.fragments
    ctx.matcher.references).map fun items =>
      Edit.extend entries ((items.filter (!isExcluded ctx ·)).map
        fun item => ⟨item.withMerged metadata, o.order⟩)
  simp only [Functor.map_map, isExcluded_eq] at h
  rw [applyIncludes, hcondition, if_pos rfl]
  simp only [included, isExcluded_eq]
  rw [← map_eq_pure_bind]
  exact h

/-- The entry that an Include makes of an item: the item's value, its metadata overridden name by
name, and the type and number of the operation. -/
structure Copies (o : Operation) (metadata : Metadata) (source : Item) (e : Entry) : Prop where
  itemType : e.item.itemType = o.itemType
  value : e.item.value = source.value
  order : e.order = o.order
  metadata : ∀ name, e.item.metadata.get? name =
    (metadata.get? name).or (source.metadata.get? name)

/-- If its globs are answered, an Include appends one copy of each item of its fragments that is
not excluded, fragment by fragment. -/
theorem include_appends_copies (o : Operation) (ctx : Context σ) (entries : List Entry)
    (t : Trace σ) {exclude : Option Spec} {metadata : Metadata} {answers : List (List String)}
    {host : σ} (haction : o.action = .includes exclude metadata)
    (hcondition : o.condition = true)
    (hanswers : (ctx.expander.answers (Fragment.expanded ctx.ignored o.spec.fragments)).run t.host =
      (.ok answers, host)) :
    let items := Fragment.itemsInOrder ctx.ignored answers ctx.matcher.references o.itemType
      o.spec.fragments
    let kept := items.filter fun item => !ctx.exclude.any (·.matchesItem item)
    ∃ edit t' added, (o.apply ctx entries).run t = (.ok edit, t') ∧ t'.host = host ∧
      edit.apply entries = entries ++ added ∧ List.Forall₂ (o.Copies metadata) kept added := by
  intro items kept
  let added : List Entry := kept.map fun item => ⟨item.withMerged metadata, o.order⟩
  have hrun := applyIncludes_mirrors_answers hcondition metadata ctx entries t
  rw [run_map, hanswers] at hrun
  obtain ⟨hedit, hhost⟩ := Prod.mk.inj hrun
  refine ⟨.extend entries added, ((o.apply ctx entries).run t).2, added, ?_, ?_,
    Edit.apply_extend entries added, ?_⟩
  · rw [apply, haction]
    exact Prod.ext hedit.symm rfl
  · rw [apply, haction]
    exact hhost.symm
  · refine List.forall₂_map_right_iff.mpr (List.forall₂_same.mpr fun item hitem => ?_)
    have htype : item.itemType = o.itemType :=
      Fragment.itemType_of_mem_itemsInOrder (List.mem_of_mem_filter hitem)
    exact ⟨htype, rfl, rfl, fun name => NameMap.get?_merge item.metadata metadata name⟩

def starred (extension : Char) : Glob :=
  ⟨String.ofList ['*', '.', extension], [.anyRun, .literal '.', .literal extension], true, none⟩

def mixed : Operation where
  action := .includes (some (.ofFragments "I" [.literal "d.c"])) (.ofList [("Link", "new")])
  spec := .ofFragments "I" [.literal "a.c", .glob (starred 'x'), .reference ⟨"R", 1⟩,
    .glob (starred 'c'), .reference ⟨"I", 4⟩]
  condition := true
  location := .inFile "app.proj"
  order := 5

/-- The first glob is ignored, a value of the second is excluded, and the last reference is to the
list that is appended to. -/
theorem include_appends_copies_mixed :
    let old : Metadata := .ofList [("Link", "old"), ("Visible", "no")]
    let entries : List Entry := [⟨⟨"I", "e.c", ∅⟩, 1⟩, ⟨⟨"I", "d.c", ∅⟩, 2⟩]
    let ctx : Context (List String) :=
      { matcher := ⟨mixed.spec, [⟨"R", [⟨⟨"R", "b.c", old⟩, 0⟩]⟩, ⟨"I", entries⟩]⟩
        exclude := some ⟨.ofFragments "I" [.literal "d.c"], []⟩
        ignored := .ofNames ["*.x"]
        expander := .recording fun _ => .ok ["c.c", "d.c"]
        pathCaseSensitive := true }
    ∃ edit t' added, (mixed.apply ctx entries).run ⟨[], []⟩ = (.ok edit, t') ∧
      t'.host = ["*.c"] ∧ edit.apply entries = entries ++ added ∧
      List.Forall₂ (mixed.Copies (.ofList [("Link", "new")]))
        [⟨"I", "a.c", ∅⟩, ⟨"I", "b.c", old⟩, ⟨"I", "c.c", ∅⟩, ⟨"I", "e.c", ∅⟩] added := by
  intro old entries ctx
  have hanswers : (ctx.expander.answers
      (Fragment.expanded ctx.ignored mixed.spec.fragments)).run [] =
        (.ok [["c.c", "d.c"]], ["*.c"]) := by rfl
  have h := include_appends_copies mixed ctx entries ⟨[], []⟩ rfl rfl hanswers
  have hkept : ((Fragment.itemsInOrder ctx.ignored [["c.c", "d.c"]] ctx.matcher.references
      mixed.itemType mixed.spec.fragments).filter fun item =>
        !ctx.exclude.any (·.matchesItem item)) =
      [⟨"I", "a.c", ∅⟩, ⟨"I", "b.c", old⟩, ⟨"I", "c.c", ∅⟩, ⟨"I", "e.c", ∅⟩] := by decide
  dsimp only at h
  rwa [hkept] at h

end Operation

end BuildItems
