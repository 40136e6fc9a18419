import BuildItems.Proofs.Operation.Split
import BuildItems.Proofs.Project.Steady

/-!
# A declaration in two

A declaration whose text is two texts with a semicolon between them can be made in two, one with
each text and both the same otherwise. There is then one operation more, and everything later has
another number and counts one more of its type; the items show none of it.
-/

namespace BuildItems

variable {σ : Type}

namespace Project

variable {p p' p'' : Project} {d : Declaration} {o : Operation} {left right : Spec}
  {answer : Glob → List String} {expander : Expander σ}

theorem Declares.withSpec (h : p.Declares d o) (hvalue : o.action.byMetadata? = none) {s : Spec}
    {text : String} (hs : Spec.parse (p.specScope d.location) d.itemType text = .ok s) :
    p.Declares { d with itemSpec := text } (o.withSpec s) where
  spec := hs
  attributes := h.attributes
  matching := h.matching
  action := h.action
  condition := h.condition
  location := h.location
  order := h.order
  valid := by
    unfold Operation.validate Operation.withSpec
    rw [hvalue]

def parted (p : Project) (o : Operation) (h : o.spec.Joins left right) : Replacement where
  before := p.operations
  old := [o]
  new := [o.withSpec left, (o.withSpec right).recounted (p.append (o.withSpec left)).counts
    (p.operations.length + 1)]
  numbers _ _ := True
  covered o' ho' := by
    refine ⟨o, List.mem_singleton_self o, ?_⟩
    rcases List.mem_pair.mp ho' with rfl | rfl
    · exact h.left.symm
    · exact h.right.symm
  numbers_before _ _ := trivial
  numbers_after _ := trivial

theorem relates_parted (h : o.spec.Joins left right) {leftText rightText : String}
    (hd : p.operationOf d = .ok o)
    (hleft : p.operationOf { d with itemSpec := leftText } = .ok (o.withSpec left))
    (hright : p.operationOf { d with itemSpec := rightText } = .ok (o.withSpec right)) :
    (p.parted o h).Relates (p.tryDeclare d)
      ((p.tryDeclare { d with itemSpec := leftText }).tryDeclare
        { d with itemSpec := rightText }) := by
  have hnext := p.operationOf_append (o.withSpec left) { d with itemSpec := rightText }
  rw [hright] at hnext
  rw [tryDeclare_of_ok hd, tryDeclare_of_ok hleft, tryDeclare_of_ok hnext]
  refine .of_operations_eq rfl rfl ?_ ?_
  · simp [append, parted]
  · simp [append, parted]

theorem agrees_parted (answer : Glob → List String) (h : o.spec.Joins left right)
    (hleft : (o.withSpec left).FollowsOn p.operations)
    (hright : (o.withSpec right).FollowsOn p.operations) (hvalue : o.action.byMetadata? = none)
    (hown : o.kind = .includes → ∀ s ∈ o.specs, ∀ r ∈ s.references, r.itemType ≠ o.itemType)
    (hp' : p'.Coherent) (hrelates : (p.parted o h).Relates p' p'') :
    (p.parted o h).Agrees p' p'' fun g => .ok (answer g) := by
  have hmem : o ∈ (p.parted o h).old := List.mem_singleton_self o
  refine Replacement.agrees_of_itemType o.itemType (fun o' ho' => ?_)
    fun after after' hask hafter => ?_
  · rw [List.mem_singleton.mp ho']
  · have hasked := hask o hmem
    refine .of_eq (Operation.removedBy_split h after)
      (Operation.attemptAll_split h hvalue hown
        (fun u hu => hrelates.exists_entriesAt_steady hp' hmem hu) after) ?_
    refine .cons (.renumbered (fun u hu => (Replacement.clear_of_followsOn hleft hu).2)
        fun _ => trivial) hleft.itemType
      (fun u hu => hasked u (Operation.mem_outside_of_withSpec h (.inl rfl) hu)) ?_
    exact .cons (.second rfl hright (h.left.trans h.right.symm) fun _ => trivial) hright.itemType
      (fun u hu => hasked u (Operation.mem_outside_of_withSpec h (.inr rfl) hu)) hafter

/-- Whether a declaration may be split: a Remove goes by values, and an Include does not refer to
its own type. -/
structure Divisible (d : Declaration) : Prop where
  removes : d.kind = .removes →
    MetadataMatch.ofNames? d.matchOnMetadata d.comparisonMode = none
  includes : d.kind = .includes → ¬ d.RefersTo d.itemType

theorem Declares.not_own (hd : p.Declares d o) (h : Divisible d) (hk : o.kind = .includes)
    {s : Spec} (hs : s ∈ o.specs) {r : Reference} (hr : r ∈ s.references) :
    r.itemType ≠ o.itemType := by
  intro hown
  rw [hd.kind] at hk
  exact h.includes hk (hd.itemType ▸ hown ▸ hd.refersTo hs hr)

/-- If a declaration is refused whose text can be read, no other text helps. -/
theorem tryDeclare_of_refused {e : EvalError} (hd : p.operationOf d = .error e) (h : Divisible d)
    {whole : Spec} (hwhole : Spec.parse (p.specScope d.location) d.itemType d.itemSpec = .ok whole)
    (text : String) : p.tryDeclare { d with itemSpec := text } = p := by
  cases ho : p.operationOf { d with itemSpec := text } with
  | error e' => exact tryDeclare_of_error ho
  | ok o =>
    have hdeclares := operationOf_eq_ok_iff.mp ho
    have hother : p.Declares d (o.withSpec whole) :=
      hdeclares.withSpec (hdeclares.byMetadata? h.removes) hwhole
    rw [operationOf_eq_ok_iff.mpr hother] at hd
    cases hd

theorem Reachable.exists_materialize_split (hp : p.Reachable) (h : Divisible d)
    {leftText rightText : String} (htext : d.itemSpec = leftText ++ ";" ++ rightText)
    (hleft : Spec.parse (p.specScope d.location) d.itemType leftText = .ok left)
    (hright : Spec.parse (p.specScope d.location) d.itemType rightText = .ok right)
    (hsteady : expander.Steady answer) (after : List Step) (itemType : String) (host : σ) :
    ∃ m m', (((p.tryDeclare d).performAll after).materialize expander itemType host).1 = .ok m ∧
      ((((p.tryDeclare { d with itemSpec := leftText }).tryDeclare
        { d with itemSpec := rightText }).performAll after).materialize expander itemType
          host).1 = .ok m' ∧
      SameItems m.entries m'.entries ∧ m.removedGlobs = m'.removedGlobs := by
  have hfirst := ((hp.tryDeclare d).performAll after).coherent
  have hsecond := (((hp.tryDeclare { d with itemSpec := leftText }).tryDeclare
    { d with itemSpec := rightText }).performAll after).coherent
  obtain ⟨whole, hwhole, hjoins⟩ := Spec.exists_parse_joined hleft hright
  rw [← htext] at hwhole
  cases hd : p.operationOf d with
  | error e =>
    have hrefused := tryDeclare_of_refused hd h hwhole
    obtain ⟨m, hm⟩ := hfirst.exists_materialize_steady hsteady itemType host
    rw [tryDeclare_of_error hd] at hm ⊢
    rw [hrefused, hrefused]
    exact ⟨m, m, hm, hm, rfl, rfl⟩
  | ok o =>
    have hdeclares := operationOf_eq_ok_iff.mp hd
    have hvalue := hdeclares.byMetadata? h.removes
    obtain rfl : o.spec = whole := Except.ok.inj (hdeclares.spec.symm.trans hwhole)
    have hdleft := hdeclares.withSpec hvalue hleft
    have hdright := hdeclares.withSpec hvalue hright
    have hrelates := (relates_parted hjoins hd (operationOf_eq_ok_iff.mpr hdleft)
      (operationOf_eq_ok_iff.mpr hdright)).performAll after
    have hclear : ∀ o' ∈ (p.parted o hjoins).old, ∀ u ∈ o'.outside,
        (p.parted o hjoins).Clear u := by
      intro o' ho' u hu
      rw [List.mem_singleton.mp ho'] at hu
      exact (Replacement.clear_of_followsOn hdeclares.followsOn hu).1
    have hagrees := agrees_parted answer hjoins hdleft.followsOn hdright.followsOn hvalue
      (fun hk s hs r hr => hdeclares.not_own h hk hs hr) hfirst hrelates
    obtain ⟨m, m', hm, hm', halike⟩ :=
      hrelates.materialize_steady hfirst hsecond hclear hagrees hsteady itemType host
    exact ⟨m, m', hm, hm', halike.entries.sameItems, halike.removedGlobs⟩

/-- Splitting a declaration at a semicolon cannot be seen: with an expander that always answers, and
the same glob always with the same values, every type has the same items in the same order, and the
same removed globs. -/
theorem materialize_split (id : EvaluationId) (options : Options) (before after : List Step)
    {d : Declaration} (h : Divisible d) {left right : String}
    (htext : d.itemSpec = left ++ ";" ++ right)
    (hleft : ∃ s, Spec.parse ((performAll { id, options } before).specScope d.location) d.itemType
      left = .ok s)
    (hright : ∃ s, Spec.parse ((performAll { id, options } before).specScope d.location) d.itemType
      right = .ok s)
    (hsteady : expander.Steady answer) (itemType : String) (host : σ) :
    let p := performAll { id, options } (before ++ .declare d :: after)
    let p' := performAll { id, options } (before ++ .declare { d with itemSpec := left } ::
      .declare { d with itemSpec := right } :: after)
    ∃ m m', (p.materialize expander itemType host).1 = .ok m ∧
      (p'.materialize expander itemType host).1 = .ok m' ∧
      m'.entries.map Entry.item = m.entries.map Entry.item ∧ m'.removedGlobs = m.removedGlobs := by
  intro p p'
  obtain ⟨_, hleft⟩ := hleft
  obtain ⟨_, hright⟩ := hright
  have hstart := (Reachable.start id options).performAll before
  obtain ⟨m, m', hm, hm', hentries, hglobs⟩ :=
    hstart.exists_materialize_split h htext hleft hright hsteady after itemType host
  have hp : p = performAll _ _ := performAll_append _ before _
  have hp' : p' = performAll _ _ := performAll_append _ before _
  rw [hp, hp']
  exact ⟨m, m', hm, hm', hentries.symm, hglobs.symm⟩

/-- The first part of the Remove clears the list and leaves the second without work, and what comes
later counts one operation more. -/
theorem materialize_split_cleared :
    let before : List Step := [.declare { kind := .includes, itemType := "A", itemSpec := "a;*.c" },
      .declare { kind := .includes, itemType := "B", itemSpec := "@(A);b" }]
    let d : Declaration := { kind := .removes, itemType := "A", itemSpec := "@(A);*.d" }
    let after : List Step := [.declare { kind := .includes, itemType := "A", itemSpec := "@(B)" },
      .declare { kind := .includes, itemType := "B", itemSpec := "@(A)" }]
    let expander := Expander.recording fun _ => .ok ["f.c"]
    let p : Project := performAll { id := ⟨"cleared"⟩ } (before ++ .declare d :: after)
    let p' : Project := performAll { id := ⟨"cleared"⟩ } (before ++
      .declare { d with itemSpec := "@(A)" } :: .declare { d with itemSpec := "*.d" } :: after)
    Divisible d ∧ expander.Steady (fun _ => ["f.c"]) ∧
      p.Needs (p.fullReference "B") ⟨"A", 3⟩ ∧ p'.Needs (p'.fullReference "B") ⟨"A", 4⟩ ∧
      ∃ m m', (p.materialize expander "B" []).1 = .ok m ∧
        (p'.materialize expander "B" []).1 = .ok m' ∧
        valuesOf m.entries = ["a", "f.c", "b", "a", "f.c", "b"] ∧
        m'.entries.map Entry.item = m.entries.map Entry.item ∧
        m'.removedGlobs = m.removedGlobs := by
  intro before d after expander p p'
  have hdivisible : Divisible d := ⟨fun _ => by decide, fun hk => by cases hk⟩
  have hsteady : expander.Steady (fun _ => ["f.c"]) := fun _ _ => rfl
  let ctx := (performAll { id := ⟨"cleared"⟩ } before).specScope d.location
  have hsingle : ∀ text ∈ ["@(A)", "*.d"],
      (Spec.parse ctx d.itemType text).map (·.fragments.length) = .ok 1 := by
    decide +kernel
  have hreads : ∀ text ∈ ["@(A)", "*.d"], ∃ s, Spec.parse ctx d.itemType text = .ok s := by
    intro text htext
    obtain ⟨s, hs, _⟩ := map_eq_ok_iff.mp (hsingle text htext)
    exact ⟨s, hs⟩
  have hlist : (p.materialize expander "B" []).1.map (fun m => valuesOf m.entries) =
      .ok ["a", "f.c", "b", "a", "f.c", "b"] := by
    decide +kernel
  obtain ⟨m, m', hm, hm', hitems, hglobs⟩ := materialize_split ⟨"cleared"⟩ {} before after
    hdivisible (by decide) (hreads "@(A)" (by simp)) (hreads "*.d" (by simp)) hsteady "B" []
  obtain ⟨n, hn, hvalues⟩ := map_eq_ok_iff.mp hlist
  obtain rfl : m = n := Except.ok.inj (hm.symm.trans hn)
  exact ⟨hdivisible, hsteady, by decide +kernel, by decide +kernel, m, m', hm, hm', hvalues, hitems,
    hglobs⟩

/-- In one declaration the reference is resolved before the glob is expanded, in two the other way
round. An expander that answers in turn tells the difference. -/
theorem materialize_split_counting :
    let before : List Step := [.declare { kind := .includes, itemType := "V", itemSpec := "*.v" }]
    let d : Declaration := { kind := .includes, itemType := "T", itemSpec := "*.w;@(V)" }
    let ctx := (performAll { id := ⟨"counting"⟩ } before).specScope d.location
    let p : Project := performAll { id := ⟨"counting"⟩ } (before ++ [.declare d])
    let p' : Project := performAll { id := ⟨"counting"⟩ } (before ++
      [.declare { d with itemSpec := "*.w" }, .declare { d with itemSpec := "@(V)" }])
    Divisible d ∧ d.itemSpec = "*.w" ++ ";" ++ "@(V)" ∧
      (∀ text ∈ ["*.w", "@(V)"], ∃ s, Spec.parse ctx d.itemType text = .ok s) ∧
      Expander.counting.NeverFails ∧
      (p.materialize .counting "T" 0).1.map (fun m => valuesOf m.entries) = .ok ["x1", "x0"] ∧
      (p'.materialize .counting "T" 0).1.map (fun m => valuesOf m.entries) = .ok ["x0", "x1"] := by
  intro before d ctx p p'
  have hdivisible : Divisible d := ⟨fun hk => (by cases hk), fun _ => by decide +kernel⟩
  have hreads : ∀ text ∈ ["*.w", "@(V)"], ∃ s, Spec.parse ctx d.itemType text = .ok s := by
    have hsingle : ∀ text ∈ ["*.w", "@(V)"],
        (Spec.parse ctx d.itemType text).map (·.fragments.length) = .ok 1 := by
      decide +kernel
    intro text htext
    obtain ⟨s, hs, _⟩ := map_eq_ok_iff.mp (hsingle text htext)
    exact ⟨s, hs⟩
  refine ⟨hdivisible, by decide, hreads, Expander.neverFails_counting, ?_, ?_⟩
  · decide +kernel
  · decide +kernel

end Project

end BuildItems
