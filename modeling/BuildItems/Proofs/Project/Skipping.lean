import BuildItems.Proofs.Operation.Removing
import BuildItems.Proofs.Project.Items

/-!
# Skipping globs that are removed later

While a prefix is computed, the list made without the skipped globs lacks values, but only such as
a later Remove or Exclude takes by a glob. Up to those values the two lists agree, and at the end
none is left. A glob is skipped by its text alone, so this needs all globs to be read with the same
options and for the same directory.
-/

namespace BuildItems

variable {σ : Type}

namespace Operation

/-- Whether no operation still to come takes a value by a glob. -/
def survives (rest : List Operation) (value : String) : Bool :=
  !rest.any fun o => o.removing.any (·.accepts value)

theorem survives_cons {o : Operation} {rest : List Operation} {value : String}
    (h : o.removing.any (·.accepts value) = false) :
    survives (o :: rest) value = survives rest value := by
  rw [survives, survives, List.any_cons, h, Bool.false_or]

theorem matchesIn_of_accepts {s : Spec} {g : Glob} {lists : Reference → List Entry}
    {value : String} (hg : g ∈ s.globs) (h : g.accepts value = true) :
    s.matchesIn lists value = true :=
  List.any_eq_true.mpr ⟨.glob g, Spec.mem_globs_iff.mp hg, h⟩

theorem globs_of_removes_some {o : Operation} {m : MetadataMatch}
    (ha : o.action = .removes (some m)) (hvalid : o.validate = .ok ()) : o.spec.globs = [] := by
  rw [validate, ha] at hvalid
  change (if m.count = 1 ∧ o.spec.isSingleReference = true then _ else _) = _ at hvalid
  split at hvalid
  · next h =>
    obtain ⟨r, hr⟩ := o.spec.isSingleReference_iff.mp h.2
    rw [Spec.globs, hr]
    rfl
  · cases hvalid

/-- An operation leaves no value that a glob it removes by accepts. -/
theorem not_accepts_of_mem_policy {o : Operation} (hvalid : o.validate = .ok ())
    {lists : Reference → List Entry} {values : Glob → List String} {pathCaseSensitive : Bool}
    {entries : List Entry} {e : Entry}
    (he : e ∈ o.policy lists values pathCaseSensitive entries) :
    o.removing.any (·.accepts e.item.value) = false := by
  rw [List.any_eq_false]
  intro g hg haccepts
  obtain ⟨hc, hkind, hglob⟩ := mem_removing_iff.mp hg
  have hmatches : o.spec.matchesIn lists e.item.value = true := matchesIn_of_accepts hglob haccepts
  have hunmatched : ¬ e ∈ entries.filter fun e => !o.spec.matchesIn lists e.item.value := by
    simp [hmatches]
  cases ha : o.action with
  | includes exclude metadata => simp [kind, ha, Action.kind] at hkind
  | updates metadata => simp [kind, ha, Action.kind] at hkind
  | excludes => exact hunmatched (policy_of_excludes hc (.inl ha) ▸ he)
  | removes byMetadata =>
    cases byMetadata with
    | none => exact hunmatched (policy_of_excludes hc (.inr ha) ▸ he)
    | some m =>
      rw [globs_of_removes_some ha hvalid] at hglob
      cases hglob

theorem keptEntries_survives_policy {o : Operation} (hvalid : o.validate = .ok ())
    {lists : Reference → List Entry} {values : Glob → List String} {pathCaseSensitive : Bool}
    {entries : List Entry} (rest : List Operation) :
    keptEntries (survives rest) (o.policy lists values pathCaseSensitive entries) =
      keptEntries (survives (o :: rest)) (o.policy lists values pathCaseSensitive entries) :=
  List.filter_congr fun _ he => (survives_cons (not_accepts_of_mem_policy hvalid he)).symm

theorem not_survives {ops : List Operation} {o : Operation} {g : Glob} {value : String}
    (ho : o ∈ ops) (hg : g ∈ o.removing) (h : g.accepts value = true) :
    survives ops value = false := by
  rw [survives, Bool.not_eq_false', List.any_eq_true]
  exact ⟨o, ho, List.any_eq_true.mpr ⟨g, hg, h⟩⟩

section

variable {ask ask' : Reference → Except EvalError (List Entry)}
  {answer : Glob → Except EvalError (List String)} {o : Operation} {rest : List Operation}
  {m m' next : Materialized}

/-- What a skipped glob would have added is taken later. -/
theorem filter_shown_removedBy {g : Glob}
    (hanswer : ∀ values, answer g = .ok values → ∀ v ∈ values, g.accepts v = true)
    (hsame : ∀ o' ∈ rest, ∀ g' ∈ o'.removing, g'.text = g.text → g' = g) :
    (shown answer ∅ g).filter (survives (o :: rest)) =
      (shown answer (removedBy rest) g).filter (survives (o :: rest)) := by
  have hall : shown answer ∅ g = answerOf answer g := rfl
  cases hskip : NameMap.contains (removedBy rest) g.text with
  | false => rw [hall, shown, hskip, if_neg Bool.false_ne_true]
  | true =>
    obtain ⟨o', ho', g', hg', htext⟩ := contains_removedBy_iff.mp hskip
    obtain rfl := hsame o' ho' g' hg' htext
    rw [hall, shown, hskip, if_pos rfl, List.filter_nil, List.filter_eq_nil_iff]
    intro v hv
    have haccepts : g'.accepts v = true := by
      unfold answerOf at hv
      split at hv
      · next values h => exact hanswer values h v hv
      · cases hv
    rw [not_survives (List.mem_cons_of_mem o ho') hg' haccepts]
    exact Bool.false_ne_true

structure Agree (rest : List Operation) (m m' : Materialized) : Prop where
  entries : keptEntries (survives rest) m.entries = keptEntries (survives rest) m'.entries
  removedGlobs : m.removedGlobs = m'.removedGlobs

theorem Agree.eq (h : Agree [] m m') : m = m' := by
  obtain ⟨entries, removedGlobs⟩ := m
  obtain ⟨entries', removedGlobs'⟩ := m'
  obtain ⟨hentries, hremoved⟩ := h
  have hall : keptEntries (survives []) = id := funext List.filter_true
  rw [hall] at hentries
  cases hentries
  cases hremoved
  rfl

theorem attempt_agree {pathCaseSensitive : Bool}
    (htype : ∀ s ∈ o.specs, s.itemType = o.itemType) (hvalid : o.validate = .ok ())
    (hask : ∀ u ∈ o.outside, ∀ entries, ask u = .ok entries → ask' u = .ok entries)
    (hanswer : ∀ g values, answer g = .ok values → ∀ v ∈ values, g.accepts v = true)
    (hsame : ∀ g ∈ o.spec.globs, ∀ o' ∈ rest, ∀ g' ∈ o'.removing, g'.text = g.text → g' = g)
    (hagree : Agree (o :: rest) m m')
    (h : o.attempt ask answer pathCaseSensitive ∅ m = .ok next) :
    ∃ next', o.attempt ask' answer pathCaseSensitive (removedBy rest) m' = .ok next' ∧
      Agree rest next next' := by
  obtain ⟨houtside, hasked, rfl⟩ := attempt_eq_ok_iff.mp h
  have hask' : ∀ u ∈ o.outside, ask u = ask' u := by
    intro u hu
    obtain ⟨entries, hentries⟩ := houtside u hu
    rw [hentries, hask u hu entries hentries]
  have houtside' : ∀ u ∈ o.outside, ∃ entries, ask' u = .ok entries := by
    intro u hu
    rw [← hask' u hu]
    exact houtside u hu
  have hasked' : ∀ g ∈ o.asked (removedBy rest), ∃ values, answer g = .ok values :=
    fun g hg => hasked g (o.asked_subset (removedBy rest) hg)
  have hlists := sameLists_listsOf htype hask' m.entries m'.entries
  refine ⟨_, attempt_eq_ok_iff.mpr ⟨houtside', hasked', rfl⟩, ?_, ?_⟩
  -- neither list holds a value that this operation itself takes by a glob
  · rw [keptEntries_survives_policy hvalid rest, keptEntries_survives_policy hvalid rest]
    refine keptEntries_policy_congr hlists hagree.entries fun g hg => ?_
    exact filter_shown_removedBy (hanswer g) (hsame g hg)
  · exact congrArg (·.union o.removedGlobs) hagree.removedGlobs

/-- Where a list of operations succeeds, it has the same outcome if globs are skipped. -/
theorem attemptAll_skipping {options : Options} {ops : List Operation}
    (htype : ∀ o ∈ ops, ∀ s ∈ o.specs, s.itemType = o.itemType)
    (hvalid : ∀ o ∈ ops, o.validate = .ok ())
    (hask : ∀ o ∈ ops, ∀ u ∈ o.outside, ∀ entries, ask u = .ok entries → ask' u = .ok entries)
    (hanswer : ∀ g values, answer g = .ok values → ∀ v ∈ values, g.accepts v = true)
    (hsame : ∀ o ∈ ops, ∀ g ∈ o.spec.globs, ∀ o' ∈ ops, ∀ g' ∈ o'.spec.globs,
      g'.text = g.text → g' = g)
    (hagree : Agree ops m m')
    (h : attemptAll ask answer { options with skipRemovedGlobs := false } ops m = .ok next) :
    attemptAll ask' answer { options with skipRemovedGlobs := true } ops m' = .ok next := by
  induction ops generalizing m m' with
  | nil =>
    obtain rfl := hagree.eq
    exact h
  | cons o rest ih =>
    obtain ⟨hotype, hresttype⟩ := List.forall_mem_cons.mp htype
    obtain ⟨hovalid, hrestvalid⟩ := List.forall_mem_cons.mp hvalid
    obtain ⟨hoask, hrestask⟩ := List.forall_mem_cons.mp hask
    have hmem : ∀ o' ∈ rest, o' ∈ o :: rest := fun _ => List.mem_cons_of_mem o
    have hosame : ∀ g ∈ o.spec.globs, ∀ o' ∈ rest, ∀ g' ∈ o'.removing,
        g'.text = g.text → g' = g := fun g hg o' ho' g' hg' =>
      hsame o List.mem_cons_self g hg o' (hmem o' ho') g' (mem_removing_iff.mp hg').2.2
    have hrestsame : ∀ o₁ ∈ rest, ∀ g ∈ o₁.spec.globs, ∀ o₂ ∈ rest, ∀ g' ∈ o₂.spec.globs,
        g'.text = g.text → g' = g := fun o₁ h₁ g hg o₂ h₂ =>
      hsame o₁ (hmem o₁ h₁) g hg o₂ (hmem o₂ h₂)
    rw [attemptAll, bind_eq_ok_iff] at h
    obtain ⟨mid, hmid, hrest⟩ := h
    obtain ⟨mid', hmid', hagree'⟩ :=
      attempt_agree hotype hovalid hoask hanswer hosame hagree hmid
    rw [attemptAll, bind_eq_ok_iff]
    exact ⟨mid', hmid', ih hresttype hrestvalid hrestask hrestsame hagree' hrest⟩

end

end Operation

namespace Project

variable {p : Project}

/-- All globs are read with the options and for the directory that the project has. -/
def Uniform (p : Project) : Prop :=
  ∀ o ∈ p.operations, ∀ g ∈ o.spec.globs,
    Glob.compile g.text p.options.globCaseSensitive p.directory = .ok g

theorem Uniform.eq_of_text (hp : p.Uniform) {o o' : Operation} (ho : o ∈ p.operations)
    (ho' : o' ∈ p.operations) {g g' : Glob} (hg : g ∈ o.spec.globs) (hg' : g' ∈ o'.spec.globs)
    (h : g'.text = g.text) : g' = g := by
  have hcompile := hp o' ho' g' hg'
  rw [h, hp o ho g hg] at hcompile
  exact (Except.ok.inj hcompile).symm

theorem Uniform.tryDeclare (hp : p.Uniform) (d : Declaration) : (p.tryDeclare d).Uniform := by
  unfold Project.tryDeclare
  split
  · next hd =>
    obtain ⟨o, ho, rfl⟩ := declare_eq_ok_iff.mp hd
    intro o' ho' g hg
    rcases List.mem_append.mp ho' with hold | hnew
    · exact hp o' hold g hg
    · obtain rfl := List.mem_singleton.mp hnew
      exact Spec.compile_of_parse ho.spec (Spec.mem_globs_iff.mp hg)
  · exact hp

theorem Uniform.declareAll (hp : p.Uniform) (ds : List Declaration) :
    (p.declareAll ds).Uniform := by
  induction ds generalizing p with
  | nil => exact hp
  | cons d ds ih => exact ih (hp.tryDeclare d)

def skipping (p : Project) (skip : Bool) : Project :=
  { p with options := { p.options with skipRemovedGlobs := skip } }

theorem tryDeclare_skipping (p : Project) (skip : Bool) (d : Declaration) :
    (p.skipping skip).tryDeclare d = (p.tryDeclare d).skipping skip := by
  have hsame : (p.skipping skip).operationOf d = p.operationOf d := rfl
  unfold tryDeclare declare
  rw [hsame]
  cases p.operationOf d with
  | error e => rfl
  | ok o => rfl

theorem declareAll_skipping (p : Project) (skip : Bool) (ds : List Declaration) :
    (p.skipping skip).declareAll ds = (p.declareAll ds).skipping skip := by
  induction ds generalizing p with
  | nil => rfl
  | cons d ds ih =>
    rw [declareAll, List.foldl_cons, tryDeclare_skipping]
    exact ih (p.tryDeclare d)

theorem Coherent.skipping (hp : p.Coherent) (skip : Bool) : (p.skipping skip).Coherent := hp

theorem Coherent.itemsAt_skipping (hp : p.Coherent) (huniform : p.Uniform)
    {answer : Glob → Except EvalError (List String)}
    (hanswer : ∀ g values, answer g = .ok values → ∀ v ∈ values, g.accepts v = true)
    {r : Reference} (hr : p.InRange r) {m : Materialized}
    (h : (p.skipping false).itemsAt answer r = .ok m) :
    (p.skipping true).itemsAt answer r = .ok m := by
  induction r using hp.wellFounded_needs.induction generalizing m with
  | _ r ih =>
    rw [(hp.skipping false).itemsAt_eq hr] at h
    rw [(hp.skipping true).itemsAt_eq hr]
    have hmem : ∀ o ∈ p.firstOperations r, o ∈ p.operations :=
      fun o ho => (mem_operations_of_mem_firstOperations ho).1
    refine Operation.attemptAll_skipping (fun o ho s hs => hp.itemType_of_mem_specs ho hs)
      (fun o ho => hp.valid_of_mem_firstOperations ho) ?_ hanswer
      (fun o ho g hg o' ho' g' hg' => huniform.eq_of_text (hmem o ho) (hmem o' ho') hg hg')
      ⟨rfl, rfl⟩ h
    intro o ho u hu entries hentries
    obtain ⟨m', hm', rfl⟩ := map_eq_ok_iff.mp hentries
    have hneeds : p.Needs r u := ⟨o, ho, hu⟩
    rw [ih u hneeds (hp.inRange_of_needs hneeds) hm']
    rfl

theorem Reachable.begin (id : EvaluationId) (options : Options) (directory : Option String) :
    Reachable { id, options, directory } := by
  cases directory with
  | none => exact .start id options
  | some directory => exact .relocate directory (.start id options)

theorem accepts_of_mem_files {paths : List String} {g : Glob} {values : List String}
    (h : Expander.files paths g = .ok values) {v : String} (hv : v ∈ values) :
    g.accepts v = true := by
  cases h
  exact (List.mem_filter.mp hv).2

theorem not_answers_files (paths : List String) (e : EvalError) :
    ¬ Answers (σ := σ) (.fixed (Expander.files paths)) e := by
  rintro ⟨g, host, h⟩
  cases h

/-- Skipping globs that are removed later cannot be seen: with an expander that answers a glob with
values it accepts, every type has the items it has if no glob is skipped. With the expander of a
list of files the two always agree. -/
theorem materialize_skipping (id : EvaluationId) (options : Options) (directory : Option String)
    (ds : List Declaration) (itemType : String) (host : σ) :
    let declared (skip : Bool) : Project :=
      declareAll { id, options := { options with skipRemovedGlobs := skip }, directory } ds
    (∀ answer : Glob → Except EvalError (List String),
      (∀ g values, answer g = .ok values → ∀ v ∈ values, g.accepts v = true) →
        ∀ m, ((declared false).materialize (.fixed answer) itemType host).1 = .ok m →
          ((declared true).materialize (.fixed answer) itemType host).1 = .ok m) ∧
      ∀ paths, ((declared true).materialize (.fixed (Expander.files paths)) itemType host).1 =
        ((declared false).materialize (.fixed (Expander.files paths)) itemType host).1 := by
  intro declared
  let p : Project := declareAll { id, options, directory } ds
  have hp : p.Coherent := ((Reachable.begin id options directory).declareAll ds).coherent
  have huniform : p.Uniform := Uniform.declareAll (fun _ ho => absurd ho List.not_mem_nil) ds
  have hdeclared : ∀ skip, declared skip = p.skipping skip :=
    fun skip => declareAll_skipping { id, options, directory } skip ds
  have hagree : ∀ answer : Glob → Except EvalError (List String),
      (∀ g values, answer g = .ok values → ∀ v ∈ values, g.accepts v = true) →
        ∀ m, ((declared false).materialize (.fixed answer) itemType host).1 = .ok m →
          ((declared true).materialize (.fixed answer) itemType host).1 = .ok m := by
    intro answer hanswer m h
    rw [hdeclared, (hp.skipping false).materialize_fst] at h
    rw [hdeclared, (hp.skipping true).materialize_fst]
    exact hp.itemsAt_skipping huniform hanswer (Nat.le_refl _) h
  refine ⟨hagree, fun paths => ?_⟩
  have hcoherent : (declared false).Coherent := hdeclared false ▸ hp.skipping false
  cases h : ((declared false).materialize (.fixed (Expander.files paths)) itemType host).1 with
  | error e => exact absurd (hcoherent.answers_of_materialize h) (not_answers_files paths e)
  | ok m => exact hagree _ (fun g values hg v hv => accepts_of_mem_files hg hv) m h

/-- The glob is skipped in the list that is asked for and expanded in the shorter one that the last
Include needs. -/
theorem materialize_skipping_crossed :
    let declared (skip : Bool) : Project := crossed { skipRemovedGlobs := skip }
    let expander : Expander Unit := .fixed (Expander.files ["f.c"])
    ∃ m, ((declared false).materialize expander "B" ()).1 = .ok m ∧
      ((declared true).materialize expander "B" ()).1 = .ok m ∧
      valuesOf m.entries = ["a", "x", "a", "b", "f.c", "a"] ∧ m.removedGlobs.names = ["*.c"] := by
  intro declared expander
  have hpinned : ((declared false).materialize expander "B" ()).1.map
      (fun m => (valuesOf m.entries, m.removedGlobs.names)) =
        .ok (["a", "x", "a", "b", "f.c", "a"], ["*.c"]) := by
    decide +kernel
  obtain ⟨m, hm, hvalues⟩ := map_eq_ok_iff.mp hpinned
  obtain ⟨hvalues, hnames⟩ := Prod.mk.inj hvalues
  refine ⟨m, hm, ?_, hvalues, hnames⟩
  refine (materialize_skipping ⟨"crossed"⟩ {} none _ "B" ()).1 _ ?_ m hm
  exact fun g values hg v hv => accepts_of_mem_files hg hv

end Project

end BuildItems
