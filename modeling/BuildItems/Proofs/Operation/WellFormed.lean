import BuildItems.Proofs.Operation.Attempt

/-!
# What can be said of every list

The entries of a list are of its type, in the order of the Includes they come from, and none has a
value that a later operation removes. Each operation preserves this: what it keeps keeps its value
and its order, and what it adds comes after everything it keeps.
-/

namespace BuildItems

/-- The value is none that the fragment means in an operation on a type, where `stands` says which
list a reference to another type stands for. A reference to the type itself means every value. -/
def Fragment.Misses (stands : Reference → List Entry → Prop) (itemType value : String) :
    Fragment → Prop
  | literal text => text ≠ value
  | glob g => g.accepts value = false
  | reference u =>
    u.itemType ≠ itemType ∧ ∃ entries, stands u entries ∧ value ∉ valuesOf entries

namespace Operation

def Adds (o : Operation) : Prop := o.condition = true ∧ o.kind = .includes

def RemovesByValue (o : Operation) : Prop :=
  o.condition = true ∧ (o.action = .excludes ∨ o.action = .removes none)

/-- A list as operations on its type leave it. -/
structure WellFormed (stands : Reference → List Entry → Prop) (itemType : String)
    (ops : List Operation) (entries : List Entry) : Prop where
  typed : ∀ e ∈ entries, e.item.itemType = itemType
  ordered : entries.Pairwise (·.order ≤ ·.order)
  added : ∀ e ∈ entries, ∃ o ∈ ops, o.Adds ∧ o.order = e.order
  spared : ∀ e ∈ entries, ∀ o ∈ ops, o.RemovesByValue → e.order < o.order →
    ∀ f ∈ o.spec.fragments, f.Misses stands itemType e.item.value

theorem WellFormed.empty (stands : Reference → List Entry → Prop) (itemType : String) :
    WellFormed stands itemType [] [] where
  typed _ he := absurd he List.not_mem_nil
  ordered := .nil
  added _ he := absurd he List.not_mem_nil
  spared _ he := absurd he List.not_mem_nil

section

variable {o : Operation} {lists : Reference → List Entry} {values : Glob → List String}
  {pathCaseSensitive : Bool} {entries : List Entry} {e : Entry}

/-- An entry that stays may get other metadata, and nothing else. -/
def Stays (e e' : Entry) : Prop :=
  e.item.itemType = e'.item.itemType ∧ e.item.value = e'.item.value ∧ e.order = e'.order

theorem itemType_of_mem_itemsIn {s : Spec} {itemType : String} {item : Item}
    (h : item ∈ s.itemsIn lists values itemType) : item.itemType = itemType := by
  obtain ⟨f, _, hf⟩ := List.mem_flatMap.mp h
  cases f with
  | literal value =>
    obtain rfl := List.mem_singleton.mp hf
    rfl
  | glob g =>
    obtain ⟨value, _, rfl⟩ := List.mem_map.mp hf
    rfl
  | reference r =>
    obtain ⟨e, _, rfl⟩ := List.mem_map.mp hf
    rfl

/-- An operation takes entries out of the list, changes metadata in it or adds at its end. -/
theorem policy_cases (o : Operation) (lists : Reference → List Entry)
    (values : Glob → List String) (pathCaseSensitive : Bool) (entries : List Entry) :
    (∃ keep : Entry → Bool,
      o.policy lists values pathCaseSensitive entries = entries.filter keep) ∨
    (∃ change : Entry → Entry, (∀ e, Stays e (change e)) ∧
      o.policy lists values pathCaseSensitive entries = entries.map change) ∨
    (o.Adds ∧ ∃ items : List Item, (∀ item ∈ items, item.itemType = o.itemType) ∧
      o.policy lists values pathCaseSensitive entries =
        entries ++ items.map fun item => ⟨item, o.order⟩) := by
  cases hc : o.condition with
  | false =>
    have hall : entries = entries.filter fun _ => true := (List.filter_true _).symm
    exact .inl ⟨_, (policy_of_not_condition hc).trans hall⟩
  | true =>
    cases ha : o.action with
    | includes exclude metadata =>
      have hkind : o.kind = .includes := by rw [kind, ha, Action.kind]
      let kept := (o.spec.itemsIn lists values o.itemType).filter fun item =>
        !exclude.any (·.matchesIn lists item.value)
      refine .inr (.inr ⟨⟨hc, hkind⟩, kept.map (·.withMerged metadata), ?_, ?_⟩)
      · intro item hitem
        obtain ⟨source, hsource, rfl⟩ := List.mem_map.mp hitem
        have htyped : source.itemType = o.itemType :=
          itemType_of_mem_itemsIn (List.mem_of_mem_filter hsource)
        exact htyped
      · rw [policy_of_includes hc ha, List.map_map]
        rfl
    | excludes => exact .inl ⟨_, policy_of_excludes hc (.inl ha)⟩
    | removes byMetadata =>
      cases byMetadata with
      | none => exact .inl ⟨_, policy_of_excludes hc (.inr ha)⟩
      | some m => exact .inl ⟨_, policy_of_removes hc ha⟩
    | updates metadata =>
      refine .inr (.inl ⟨_, fun e => ?_, policy_of_updates hc ha⟩)
      split
      · exact ⟨rfl, rfl, rfl⟩
      · exact ⟨rfl, rfl, rfl⟩

theorem mem_policy (he : e ∈ o.policy lists values pathCaseSensitive entries) :
    (∃ e₀ ∈ entries, Stays e₀ e) ∨
      (o.Adds ∧ e.item.itemType = o.itemType ∧ e.order = o.order) := by
  rcases o.policy_cases lists values pathCaseSensitive entries with
    ⟨keep, h⟩ | ⟨change, hstays, h⟩ | ⟨hadds, items, htyped, h⟩
  · rw [h] at he
    exact .inl ⟨e, List.mem_of_mem_filter he, rfl, rfl, rfl⟩
  · rw [h] at he
    obtain ⟨e₀, he₀, rfl⟩ := List.mem_map.mp he
    exact .inl ⟨e₀, he₀, hstays e₀⟩
  · rw [h] at he
    rcases List.mem_append.mp he with he | he
    · exact .inl ⟨e, he, rfl, rfl, rfl⟩
    · obtain ⟨item, hitem, rfl⟩ := List.mem_map.mp he
      exact .inr ⟨hadds, htyped item hitem, rfl⟩

theorem pairwise_policy (hordered : entries.Pairwise (·.order ≤ ·.order))
    (hle : ∀ e ∈ entries, e.order ≤ o.order) :
    (o.policy lists values pathCaseSensitive entries).Pairwise (·.order ≤ ·.order) := by
  rcases o.policy_cases lists values pathCaseSensitive entries with
    ⟨keep, h⟩ | ⟨change, hstays, h⟩ | ⟨_, items, _, h⟩
  · rw [h]
    exact hordered.filter keep
  · rw [h, List.pairwise_map]
    refine hordered.imp fun {x y} hxy => ?_
    rwa [← (hstays x).2.2, ← (hstays y).2.2]
  · rw [h, List.pairwise_append]
    refine ⟨hordered, ?_, ?_⟩
    · exact List.pairwise_map.mpr (List.pairwise_of_forall fun _ _ => Nat.le_refl _)
    · intro e he new hnew
      obtain ⟨item, _, rfl⟩ := List.mem_map.mp hnew
      exact hle e he

theorem not_matchesIn_of_mem_policy (ho : o.RemovesByValue)
    (he : e ∈ o.policy lists values pathCaseSensitive entries) :
    e ∈ entries ∧ o.spec.matchesIn lists e.item.value = false := by
  rw [policy_of_excludes ho.1 ho.2] at he
  obtain ⟨hmem, hunmatched⟩ := List.mem_filter.mp he
  exact ⟨hmem, by simpa using hunmatched⟩

end

section

variable {stands : Reference → List Entry → Prop} {itemType : String} {done : List Operation}
  {o : Operation} {ask : Reference → Except EvalError (List Entry)}
  {answer : Glob → Except EvalError (List String)} {pathCaseSensitive : Bool} {ignored : NameSet}
  {m next : Materialized} {e : Entry}

theorem misses_of_not_matchesIn (htype : ∀ s ∈ o.specs, s.itemType = o.itemType)
    (houtside : ∀ u ∈ o.outside, ∃ entries, ask u = .ok entries)
    (hask : ∀ u ∈ o.outside, ∀ entries, ask u = .ok entries → stands u entries)
    (he : e ∈ m.entries)
    (h : o.spec.matchesIn (listsOf ask o.itemType m.entries) e.item.value = false) :
    ∀ f ∈ o.spec.fragments, f.Misses stands o.itemType e.item.value := by
  intro f hf
  have hmiss : f.matchesIn (listsOf ask o.itemType m.entries) e.item.value = false := by
    simpa using List.any_eq_false.mp h f hf
  cases f with
  | literal text => exact ne_of_beq_false hmiss
  | glob g => exact hmiss
  | reference u =>
    have hlist : ∀ e' ∈ listsOf ask o.itemType m.entries u, e'.item.value ≠ e.item.value :=
      fun e' he' => by simpa using List.any_eq_false.mp hmiss e' he'
    have hother : u.itemType ≠ o.itemType := by
      intro hown
      rw [listsOf, if_pos hown] at hlist
      exact hlist e he rfl
    have hu : u ∈ o.outside := mem_outside_of_mem_references htype o.spec_mem_specs
      (Spec.mem_references_iff.mpr hf) hother
    obtain ⟨entries, hentries⟩ := houtside u hu
    rw [listsOf, if_neg hother, answerOf_eq hentries] at hlist
    refine ⟨hother, entries, hask u hu entries hentries, ?_⟩
    intro hmem
    obtain ⟨e', he', hvalue⟩ := List.mem_map.mp hmem
    exact hlist e' he' hvalue

theorem WellFormed.attempt (h : WellFormed stands o.itemType done m.entries)
    (hlater : ∀ o' ∈ done, o'.order < o.order)
    (htype : ∀ s ∈ o.specs, s.itemType = o.itemType)
    (hask : ∀ u ∈ o.outside, ∀ entries, ask u = .ok entries → stands u entries)
    (hattempt : o.attempt ask answer pathCaseSensitive ignored m = .ok next) :
    WellFormed stands o.itemType (done ++ [o]) next.entries := by
  obtain ⟨houtside, _, rfl⟩ := attempt_eq_ok_iff.mp hattempt
  -- an entry has the number of an Include, and those so far were declared before
  have hbefore : ∀ e ∈ m.entries, e.order < o.order := by
    intro e he
    obtain ⟨o', ho', _, horder⟩ := h.added e he
    exact horder ▸ hlater o' ho'
  refine ⟨?_, pairwise_policy h.ordered fun e he => Nat.le_of_lt (hbefore e he), ?_, ?_⟩
  · intro e he
    rcases mem_policy he with ⟨e₀, he₀, htyped, _, _⟩ | ⟨_, htyped, _⟩
    · exact htyped ▸ h.typed e₀ he₀
    · exact htyped
  · intro e he
    rcases mem_policy he with ⟨e₀, he₀, _, _, horder⟩ | ⟨hadds, _, horder⟩
    · obtain ⟨o', ho', hadds, horder'⟩ := h.added e₀ he₀
      exact ⟨o', List.mem_append_left _ ho', hadds, horder'.trans horder⟩
    · exact ⟨o, List.mem_append_right _ List.mem_cons_self, hadds, horder.symm⟩
  · intro e he o' ho' hremoves hlt
    rcases List.mem_append.mp ho' with ho' | ho'
    · rcases mem_policy he with ⟨e₀, he₀, _, hvalue, horder⟩ | ⟨_, _, horder⟩
      · exact hvalue ▸ h.spared e₀ he₀ o' ho' hremoves (horder.symm ▸ hlt)
      · have hearlier := hlater o' ho'
        omega
    · obtain rfl := List.mem_singleton.mp ho'
      obtain ⟨hmem, hunmatched⟩ := not_matchesIn_of_mem_policy hremoves he
      exact misses_of_not_matchesIn htype houtside hask hmem hunmatched

theorem WellFormed.attemptAll {options : Options} {ops : List Operation}
    (h : WellFormed stands itemType done m.entries)
    (horder : (done ++ ops).Pairwise (·.order < ·.order))
    (hown : ∀ o ∈ ops, o.itemType = itemType)
    (htype : ∀ o ∈ ops, ∀ s ∈ o.specs, s.itemType = o.itemType)
    (hask : ∀ o ∈ ops, ∀ u ∈ o.outside, ∀ entries, ask u = .ok entries → stands u entries)
    (hattempt : Operation.attemptAll ask answer options ops m = .ok next) :
    WellFormed stands itemType (done ++ ops) next.entries := by
  induction ops generalizing done m with
  | nil =>
    cases hattempt
    rwa [List.append_nil]
  | cons o rest ih =>
    obtain ⟨hoown, hrestown⟩ := List.forall_mem_cons.mp hown
    obtain ⟨hotype, hresttype⟩ := List.forall_mem_cons.mp htype
    obtain ⟨hoask, hrestask⟩ := List.forall_mem_cons.mp hask
    obtain ⟨mid, hmid, hrest⟩ := bind_eq_ok_iff.mp hattempt
    have hlater : ∀ o' ∈ done, o'.order < o.order := fun o' ho' =>
      (List.pairwise_append.mp horder).2.2 o' ho' o List.mem_cons_self
    have hstep : WellFormed stands itemType (done ++ [o]) mid.entries := by
      rw [← hoown] at h ⊢
      exact h.attempt hlater hotype hoask hmid
    -- the operation just attempted now counts among those that are done
    rw [List.append_cons] at horder ⊢
    exact ih hstep horder hrestown hresttype hrestask hrest

end

end Operation

end BuildItems
