import BuildItems.Proofs.Operation.Removing
import BuildItems.Proofs.Project.Active

/-!
# What is removed in place of a skipped glob

A glob is skipped by its text, and a later operation removes by a glob of that text. The two are
read with the same options, but each for the directory where it was declared. So the later one
accepts what the skipped one accepts as a whole path, and where the directory stayed the same it
accepts all of it. Where the directory changed in between, values below the first one are lost.
-/

namespace BuildItems

namespace Glob

variable {g : Glob}

theorem accepts_of_acceptsWhole {value : String}
    (hg : g.acceptsWhole (Path.plain value.toList) = true) : g.accepts value = true := by
  rw [accepts, acceptsPath, hg, Bool.true_or]

end Glob

namespace Project

variable {p q : Project} {d : Declaration} {o : Operation}

/-- The project that an operation was declared in, with what was declared before it. -/
structure Origin (p : Project) (o : Operation) (q : Project) (d : Declaration) : Prop where
  reachable : q.Reachable
  options : q.options = p.options
  operations : q.operations = p.operations.take o.order
  declares : q.Declares d o

theorem Origin.append {o' : Operation} (h : p.Origin o q d) (ho : o.order < p.operations.length) :
    (p.append o').Origin o q d where
  reachable := h.reachable
  options := h.options
  operations := h.operations.trans (List.take_append_of_le_length (Nat.le_of_lt ho)).symm
  declares := h.declares

theorem Reachable.exists_origin (hp : p.Reachable) (ho : o ∈ p.operations) :
    ∃ q d, p.Origin o q d := by
  induction hp with
  | start id options => exact absurd ho List.not_mem_nil
  | relocate directory _ ih =>
    obtain ⟨q, d, h⟩ := ih ho
    exact ⟨q, d, h.reachable, h.options, h.operations, h.declares⟩
  | @declare p _ d hp hdeclare ih =>
    obtain ⟨o', ho', rfl⟩ := declare_eq_ok_iff.mp hdeclare
    rcases List.mem_append.mp ho with hold | hnew
    · obtain ⟨q, d', h⟩ := ih hold
      exact ⟨q, d', h.append (hp.coherent.followsOn hold).1⟩
    · obtain rfl := List.mem_singleton.mp hnew
      exact ⟨p, d, hp, rfl, (List.take_left' ho'.order.symm).symm, ho'⟩

theorem Origin.compile (h : p.Origin o q d) {g : Glob} (hg : g ∈ o.spec.globs) :
    Glob.compile g.text p.options.globCaseSensitive q.directory = .ok g := by
  have hcompile := Spec.compile_of_parse h.declares.spec (Spec.mem_globs_iff.mp hg)
  rw [← h.options]
  exact hcompile

theorem Origin.base (h : p.Origin o q d) {g : Glob} (hg : g ∈ o.spec.globs) :
    g.base = q.directory.bind Glob.baseOf := Glob.base_of_compile (h.compile hg)

/-- Where an operation removes by a glob of the same text as another's, the two globs differ at
most in the base directory. -/
theorem Reachable.eq_of_text (hp : p.Reachable) {o' : Operation} (ho : o ∈ p.operations)
    (ho' : o' ∈ p.operations) {g h : Glob} (hg : g ∈ o.spec.globs) (hh : h ∈ o'.spec.globs)
    (htext : h.text = g.text) : h = { g with base := h.base } := by
  obtain ⟨q, d, horigin⟩ := hp.exists_origin ho
  obtain ⟨q', d', horigin'⟩ := hp.exists_origin ho'
  have hcompile := horigin'.compile hh
  rw [htext] at hcompile
  exact Glob.eq_of_compile (horigin.compile hg) hcompile

/-- A glob is skipped only if a later operation removes by one of its text. That one accepts what
the skipped glob accepts as a whole path. If both were declared for one directory, it accepts all
the same values. -/
theorem skipped_glob_removed (hp : p.Reachable) {r : Reference} {before later : List Operation}
    (hops : p.firstOperations r = before ++ o :: later) {g : Glob}
    (hg : .glob g ∈ o.spec.fragments)
    (hskip : NameMap.contains (removedBy later) g.text = true) :
    (∃ q d, p.Origin o q d ∧ g.base = q.directory.bind Glob.baseOf) ∧
      (∃ o' ∈ later, ∃ h ∈ o'.removing, h.text = g.text) ∧
      ∀ o' ∈ later, ∀ h ∈ o'.removing, h.text = g.text →
        (∃ q d, p.Origin o' q d ∧ h.base = q.directory.bind Glob.baseOf) ∧
        (∀ value, g.acceptsWhole (Path.plain value.toList) = true → h.accepts value = true) ∧
        (h.base = g.base → ∀ value, h.accepts value = g.accepts value) := by
  have hmem : ∀ o' ∈ o :: later, o' ∈ p.operations := fun o' ho' =>
    (mem_operations_of_mem_firstOperations (hops ▸ List.mem_append_right before ho')).1
  have ho := hmem o List.mem_cons_self
  have hg := Spec.mem_globs_iff.mpr hg
  obtain ⟨q, d, horigin⟩ := hp.exists_origin ho
  refine ⟨⟨q, d, horigin, horigin.base hg⟩, Operation.contains_removedBy_iff.mp hskip, ?_⟩
  intro o' ho' h hh htext
  have ho' := hmem o' (List.mem_cons_of_mem o ho')
  have hh := (Operation.mem_removing_iff.mp hh).2.2
  have heq := hp.eq_of_text ho ho' hg hh htext
  obtain ⟨q', d', horigin'⟩ := hp.exists_origin ho'
  refine ⟨⟨q', d', horigin', horigin'.base hh⟩, fun value hvalue => ?_, fun hbase value => ?_⟩
  · refine Glob.accepts_of_acceptsWhole ?_
    rw [heq]
    exact hvalue
  · rw [heq, hbase]

def relocated (options : Options) (first second : String) : Project :=
  performAll { id := ⟨"relocated"⟩, options }
    [.relocate first, .declare { kind := .includes, itemType := "I", itemSpec := "*.cs" },
      .relocate second, .declare { kind := .removes, itemType := "I", itemSpec := "*.cs" }]

theorem reachable_relocated (options : Options) (first second : String) :
    (relocated options first second).Reachable :=
  (Reachable.start ⟨"relocated"⟩ options).performAll _

def relocatedGlob (directory : String) : Glob :=
  ⟨"*.cs", [.anyRun, .literal '.', .literal 'c', .literal 's'], true, some directory.toList⟩

def relocatedSpec (directory : String) : Spec := ⟨"I", "*.cs", [.glob (relocatedGlob directory)]⟩

def relocatedInclude (directory : String) : Operation :=
  ⟨.includes none ∅, relocatedSpec directory, true, .inFile "", 0⟩

def relocatedRemove (directory : String) : Operation :=
  ⟨.removes none, relocatedSpec directory, true, .inFile "", 1⟩

theorem firstOperations_relocated (skip : Bool) :
    (relocated { skipRemovedGlobs := skip } "/p" "/q").firstOperations ⟨"I", 2⟩ =
      [] ++ relocatedInclude "/p" :: [relocatedRemove "/q"] := by
  cases skip <;> decide +kernel

theorem skipped_glob_removed_relocated :
    let p := relocated { skipRemovedGlobs := true } "/p" "/q"
    NameMap.contains (removedBy [relocatedRemove "/q"]) "*.cs" = true ∧
      (∃ q d, p.Origin (relocatedRemove "/q") q d ∧
        some "/q".toList = q.directory.bind Glob.baseOf) ∧
      ∀ value, (relocatedGlob "/p").acceptsWhole (Path.plain value.toList) = true →
        (relocatedGlob "/q").accepts value = true := by
  intro p
  have hskip : NameMap.contains (removedBy [relocatedRemove "/q"]) (relocatedGlob "/p").text =
      true := by decide +kernel
  obtain ⟨_, _, hremoved⟩ := skipped_glob_removed (reachable_relocated _ _ _)
    (firstOperations_relocated true) (g := relocatedGlob "/p") List.mem_cons_self hskip
  obtain ⟨horigin, hwhole, _⟩ := hremoved (relocatedRemove "/q") List.mem_cons_self
    (relocatedGlob "/q") List.mem_cons_self rfl
  exact ⟨hskip, horigin, hwhole⟩

/-- Each glob that an Include skips gives way to one that accepts at least the same values. -/
def CoversSkipped (p : Project) (r : Reference) : Prop :=
  ∀ before o later, p.firstOperations r = before ++ o :: later → o.kind = .includes →
    ∀ g, .glob g ∈ o.spec.fragments → NameMap.contains (removedBy later) g.text = true →
      ∃ o' ∈ later, o'.condition = true ∧ (o'.kind = .removes ∨ o'.kind = .excludes) ∧
        ∃ h, .glob h ∈ o'.spec.fragments ∧ ∀ value, g.accepts value = true → h.accepts value = true

/-- What lies below the first directory is not included, and nothing removes it. -/
theorem not_coversSkipped_relocated :
    let p (skip : Bool) : Project := relocated { skipRemovedGlobs := skip } "/p" "/q"
    let expander : Expander Unit := .fixed (Expander.files ["/p/a.cs"])
    (p true).Reachable ∧ ¬ (p true).CoversSkipped ⟨"I", 2⟩ ∧
      ((p true).materialize expander "I" ()).1.map (·.entries.map (·.item.value)) = .ok [] ∧
      ((p false).materialize expander "I" ()).1.map (·.entries.map (·.item.value)) =
        .ok ["/p/a.cs"] := by
  intro p expander
  refine ⟨reachable_relocated _ _ _, fun hcovers => ?_, by decide +kernel, by decide +kernel⟩
  obtain ⟨o', ho', _, _, h, hh, haccepts⟩ :=
    hcovers _ _ _ (firstOperations_relocated true) rfl (relocatedGlob "/p") List.mem_cons_self
      (by decide +kernel)
  obtain rfl := List.mem_singleton.mp ho'
  obtain rfl := Fragment.glob.inj (List.mem_singleton.mp hh)
  exact absurd (haccepts "/p/a.cs" (by decide +kernel)) (by decide +kernel)

end Project

end BuildItems
