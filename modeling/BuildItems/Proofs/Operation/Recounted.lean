import BuildItems.Proofs.Operation.Attempt
import BuildItems.Proofs.Spec.Recounted

/-!
# Operations with other numbers

In another place an operation may have another number, and its references other counts. As long as
each reference still stands for the same items, this shows in the numbers of the entries and
nowhere else: lists that hold the same items, in entries whose numbers are related, go on doing so.

So operations with a false condition can be left out. They change neither the list nor the removed
globs, and the others do the same without them.
-/

namespace BuildItems

def SameItems (entries entries' : List Entry) : Prop :=
  entries.map Entry.item = entries'.map Entry.item

namespace SameItems

variable {entries entries' : List Entry}

theorem map_eq {α : Type} (h : SameItems entries entries') (f : Item → α) :
    entries.map (fun e => f e.item) = entries'.map fun e => f e.item := by
  have hmap := congrArg (List.map f) h
  rwa [List.map_map, List.map_map] at hmap

theorem any_eq (h : SameItems entries entries') (q : Item → Bool) :
    entries.any (fun e => q e.item) = entries'.any fun e => q e.item := by
  have hany : (entries.map Entry.item).any q = (entries'.map Entry.item).any q :=
    congrArg (List.any · q) h
  rwa [List.any_map, List.any_map] at hany

end SameItems

/-- The same items in order, in entries whose numbers are related. -/
def Alike (numbers : Nat → Nat → Prop) (entries entries' : List Entry) : Prop :=
  List.Forall₂ (fun e e' => e.item = e'.item ∧ numbers e.order e'.order) entries entries'

namespace Alike

variable {numbers : Nat → Nat → Prop} {entries entries' : List Entry}

theorem sameItems_iff : SameItems entries entries' ↔ Alike (fun _ _ => True) entries entries' := by
  simp only [SameItems, Alike, and_true]
  rw [← List.forall₂_eq_eq_eq, List.forall₂_map_left_iff, List.forall₂_map_right_iff]

theorem sameItems (h : Alike numbers entries entries') : SameItems entries entries' :=
  sameItems_iff.mpr (h.imp fun _ _ he => ⟨he.1, trivial⟩)

theorem filter {q q' : Item → Bool} (h : Alike numbers entries entries') (hq : ∀ i, q i = q' i) :
    Alike numbers (entries.filter fun e => q e.item) (entries'.filter fun e => q' e.item) := by
  refine List.rel_filter (fun e e' he => ?_) h
  change q e.item = true ↔ q' e'.item = true
  rw [he.1, hq]

theorem map {f f' : Item → Item} (h : Alike numbers entries entries') (hf : ∀ i, f i = f' i) :
    Alike numbers (entries.map fun e => e.withItem (f e.item))
      (entries'.map fun e => e.withItem (f' e.item)) := by
  refine List.rel_map (fun e e' he => ?_) h
  exact ⟨(congrArg f he.1).trans (hf e'.item), he.2⟩

theorem append {order order' : Nat} (h : Alike numbers entries entries')
    (horder : numbers order order') (items : List Item) :
    Alike numbers (entries ++ items.map fun item => ⟨item, order⟩)
      (entries' ++ items.map fun item => ⟨item, order'⟩) := by
  refine List.rel_append h ?_
  rw [List.forall₂_map_left_iff, List.forall₂_map_right_iff]
  exact List.forall₂_same.mpr fun _ _ => ⟨rfl, horder⟩

end Alike

variable {count : Reference → Nat} {lists lists' : Reference → List Entry}

namespace Spec

variable {s : Spec}

def KeepsItems (count : Reference → Nat) (lists lists' : Reference → List Entry) (s : Spec) :
    Prop :=
  ∀ r ∈ s.references, SameItems (lists r) (lists' (r.recounted count))

theorem globs_recounted (count : Reference → Nat) (s : Spec) :
    (s.recounted count).globs = s.globs := by
  rw [globs, globs, recounted, List.filterMap_map]
  exact List.filterMap_congr fun f _ => f.glob?_recounted count

theorem outside_recounted (count : Reference → Nat) (s : Spec) :
    (s.recounted count).outside = s.outside.map (Reference.recounted count) := by
  rw [outside, outside, references_recounted, List.filter_map]
  rfl

theorem matchesIn_recounted (h : s.KeepsItems count lists lists') (value : String) :
    (s.recounted count).matchesIn lists' value = s.matchesIn lists value := by
  rw [matchesIn, matchesIn, recounted, List.any_map]
  refine any_congr_of_mem fun f hf => ?_
  cases f with
  | literal text => rfl
  | glob g => rfl
  | reference r => exact ((h r (mem_references_iff.mpr hf)).any_eq (·.value == value)).symm

theorem any_matchesIn_recounted {exclude : Option Spec}
    (h : ∀ s ∈ exclude, s.KeepsItems count lists lists') (value : String) :
    (exclude.map (recounted count)).any (·.matchesIn lists' value) =
      exclude.any (·.matchesIn lists value) := by
  cases exclude with
  | none => rfl
  | some s => exact matchesIn_recounted (h s rfl) value

theorem itemsIn_recounted (h : s.KeepsItems count lists lists') (values : Glob → List String)
    (itemType : String) :
    (s.recounted count).itemsIn lists' values itemType = s.itemsIn lists values itemType := by
  rw [itemsIn, itemsIn, recounted, List.flatMap_map]
  refine List.flatMap_congr fun f hf => ?_
  cases f with
  | literal value => rfl
  | glob g => rfl
  | reference r =>
    exact ((h r (mem_references_iff.mpr hf)).map_eq fun i => { i with itemType := itemType }).symm

theorem filter_itemsIn_recounted {exclude : Option Spec} (h : s.KeepsItems count lists lists')
    (hexclude : ∀ s ∈ exclude, s.KeepsItems count lists lists') (values : Glob → List String)
    (itemType : String) :
    ((s.recounted count).itemsIn lists' values itemType).filter
        (fun item => !(exclude.map (recounted count)).any (·.matchesIn lists' item.value)) =
      (s.itemsIn lists values itemType).filter
        fun item => !exclude.any (·.matchesIn lists item.value) := by
  rw [itemsIn_recounted h]
  refine List.filter_congr fun item _ => congrArg not ?_
  exact any_matchesIn_recounted hexclude item.value

theorem agreesIn_recounted (h : s.KeepsItems count lists lists') (m : MetadataMatch)
    (pathCaseSensitive : Bool) (item : Item) :
    (s.recounted count).agreesIn lists' m pathCaseSensitive item =
      s.agreesIn lists m pathCaseSensitive item := by
  unfold agreesIn
  cases m.keys? pathCaseSensitive item with
  | none => rfl
  | some keys =>
    dsimp only
    rw [references_recounted, List.any_map]
    refine any_congr_of_mem fun r hr => ?_
    exact ((h r hr).any_eq fun i => m.keys? pathCaseSensitive i == some keys).symm

end Spec

def Action.recounted (count : Reference → Nat) : Action → Action
  | includes exclude metadata => includes (exclude.map (Spec.recounted count)) metadata
  | excludes => excludes
  | removes byMetadata => removes byMetadata
  | updates metadata => updates metadata

theorem Action.byMetadata?_recounted (count : Reference → Nat) (a : Action) :
    (a.recounted count).byMetadata? = a.byMetadata? := by
  cases a with
  | includes exclude metadata => rfl
  | excludes => rfl
  | removes byMetadata => rfl
  | updates metadata => rfl

theorem Action.exclude?_recounted (count : Reference → Nat) (a : Action) :
    (a.recounted count).exclude? = a.exclude?.map (Spec.recounted count) := by
  cases a with
  | includes exclude metadata => rfl
  | excludes => rfl
  | removes byMetadata => rfl
  | updates metadata => rfl

namespace Operation

def recounted (count : Reference → Nat) (order : Nat) (o : Operation) : Operation :=
  { o with
    action := o.action.recounted count
    spec := o.spec.recounted count
    order := order }

section

variable (count : Reference → Nat) (order : Nat) (o : Operation)

theorem kind_recounted : (o.recounted count order).kind = o.kind := by
  change (o.action.recounted count).kind = o.action.kind
  cases o.action with
  | includes exclude metadata => rfl
  | excludes => rfl
  | removes byMetadata => rfl
  | updates metadata => rfl

theorem validate_recounted : (o.recounted count order).validate = o.validate := by
  have hbyMetadata := o.action.byMetadata?_recounted count
  have hsingle := o.spec.isSingleReference_recounted count
  unfold validate recounted
  rw [hbyMetadata, hsingle]
  rfl

theorem removedGlobs_recounted : (o.recounted count order).removedGlobs = o.removedGlobs := by
  have htexts : (o.recounted count order).spec.globTexts = o.spec.globTexts :=
    o.spec.globTexts_recounted count
  rw [removedGlobs, removedGlobs, kind_recounted, htexts]
  rfl

theorem specs_recounted :
    (o.recounted count order).specs = o.specs.map (Spec.recounted count) := by
  change o.spec.recounted count :: (o.action.recounted count).exclude?.toList = _
  rw [Action.exclude?_recounted, specs, List.map_cons]
  cases o.action.exclude? with
  | none => rfl
  | some exclude => rfl

theorem outside_recounted :
    (o.recounted count order).outside = o.outside.map (Reference.recounted count) := by
  rw [outside, outside, specs_recounted, List.flatMap_map, List.map_flatMap]
  exact List.flatMap_congr fun s _ => s.outside_recounted count

theorem asked_recounted (ignored : NameSet) :
    (o.recounted count order).asked ignored = o.asked ignored := by
  have hglobs : (o.recounted count order).spec.globs = o.spec.globs := o.spec.globs_recounted count
  have haction : (o.recounted count order).action = o.action.recounted count := rfl
  unfold asked
  rw [haction, hglobs]
  cases o.action with
  | includes exclude metadata => rfl
  | excludes => rfl
  | removes byMetadata => rfl
  | updates metadata => rfl

end

theorem recounted_congr {count' : Reference → Nat} {o : Operation}
    (h : ∀ s ∈ o.specs, ∀ r ∈ s.references, count r = count' r) (order : Nat) :
    o.recounted count order = o.recounted count' order := by
  have hspec := Spec.recounted_congr (h o.spec o.spec_mem_specs)
  have haction : o.action.recounted count = o.action.recounted count' := by
    cases ha : o.action with
    | includes exclude metadata =>
      cases exclude with
      | none => rfl
      | some s =>
        have hs : s ∈ o.specs := mem_specs_iff.mpr (.inr (by rw [ha, Action.exclude?]))
        rw [Action.recounted, Option.map_some, Spec.recounted_congr (h s hs)]
        rfl
    | excludes => rfl
    | removes byMetadata => rfl
    | updates metadata => rfl
  rw [recounted, recounted, hspec, haction]

def renumbered (order : Nat) (o : Operation) : Operation := { o with order := order }

theorem recounted_opCount (o : Operation) (order : Nat) :
    o.recounted Reference.opCount order = o.renumbered order := by
  have haction : o.action.recounted Reference.opCount = o.action := by
    cases ha : o.action with
    | includes exclude metadata =>
      rw [Action.recounted, funext Spec.recounted_opCount, Option.map_id']
    | excludes => rfl
    | removes byMetadata => rfl
    | updates metadata => rfl
  rw [recounted, haction, Spec.recounted_opCount]
  rfl

theorem recounted_recounted (count count' : Reference → Nat) (order order' : Nat)
    (o : Operation) :
    (o.recounted count order).recounted count' order' =
      o.recounted (fun r => count' (r.recounted count)) order' := by
  have haction : (o.action.recounted count).recounted count' =
      o.action.recounted fun r => count' (r.recounted count) := by
    cases o.action with
    | includes exclude metadata =>
      rw [Action.recounted, Action.recounted, Option.map_map]
      exact congrArg (Action.includes · metadata)
        (congrArg (exclude.map ·) (funext (Spec.recounted_recounted count count')))
    | excludes => rfl
    | removes byMetadata => rfl
    | updates metadata => rfl
  rw [recounted, recounted, haction, Spec.recounted_recounted]
  rfl

section

variable {o : Operation} {order : Nat} {values : Glob → List String} {pathCaseSensitive : Bool}
  {entries entries' : List Entry}

/-- Recounted, an operation makes alike lists of alike lists. Its own number shows only if it adds
to the list. -/
theorem policy_alike {numbers : Nat → Nat → Prop}
    (hlists : ∀ s ∈ o.specs, s.KeepsItems count lists lists') (h : Alike numbers entries entries')
    (horder : o.kind = .includes → numbers o.order order) :
    Alike numbers (o.policy lists values pathCaseSensitive entries)
      ((o.recounted count order).policy lists' values pathCaseSensitive entries') := by
  have hspec := hlists o.spec o.spec_mem_specs
  have hmatches : ∀ item : Item, o.spec.matchesIn lists item.value =
      (o.spec.recounted count).matchesIn lists' item.value :=
    fun item => (Spec.matchesIn_recounted hspec item.value).symm
  have haction : (o.recounted count order).action = o.action.recounted count := rfl
  cases hc : o.condition with
  | false => rwa [policy_of_not_condition hc, policy_of_not_condition (o := o.recounted _ _) hc]
  | true =>
    cases ha : o.action with
    | includes exclude metadata =>
      have hexclude : ∀ s ∈ exclude, s.KeepsItems count lists lists' :=
        fun s hs => hlists s (mem_specs_of_mem_exclude? (ha ▸ hs))
      have hadded := Spec.filter_itemsIn_recounted hspec hexclude values o.itemType
      have hkind : o.kind = .includes := by rw [kind, ha, Action.kind]
      rw [ha] at haction
      rw [policy_of_includes hc ha, policy_of_includes (o := o.recounted _ _) hc haction]
      change Alike numbers _ (entries' ++ (((o.spec.recounted count).itemsIn lists' values
        o.itemType).filter _).map _)
      rw [hadded]
      have hboth := h.append (horder hkind) ((((o.spec.itemsIn lists values o.itemType).filter
        fun item => !exclude.any (·.matchesIn lists item.value))).map (·.withMerged metadata))
      rwa [List.map_map, List.map_map] at hboth
    | excludes =>
      rw [ha] at haction
      rw [policy_of_excludes hc (.inl ha),
        policy_of_excludes (o := o.recounted _ _) hc (.inl haction)]
      exact h.filter fun item => congrArg not (hmatches item)
    | removes byMetadata =>
      rw [ha] at haction
      cases byMetadata with
      | none =>
        rw [policy_of_excludes hc (.inr ha),
          policy_of_excludes (o := o.recounted _ _) hc (.inr haction)]
        exact h.filter fun item => congrArg not (hmatches item)
      | some m =>
        rw [policy_of_removes hc ha, policy_of_removes (o := o.recounted _ _) hc haction]
        refine h.filter fun item => congrArg not ?_
        exact (Spec.agreesIn_recounted hspec m pathCaseSensitive item).symm
    | updates metadata =>
      have hupdated : ∀ (b : Bool) (e : Entry),
          (if b then e.withItem (e.item.withMerged metadata) else e) =
            e.withItem (if b then e.item.withMerged metadata else e.item) := by
        intro b e
        cases b with
        | false => rfl
        | true => rfl
      rw [ha] at haction
      rw [policy_of_updates hc ha, policy_of_updates (o := o.recounted _ _) hc haction]
      simp only [hupdated]
      have hsame : ∀ item : Item,
          (if o.spec.matchesIn lists item.value then item.withMerged metadata else item) =
            if (o.spec.recounted count).matchesIn lists' item.value then item.withMerged metadata
            else item := by
        intro item
        rw [hmatches]
      exact h.map hsame

theorem policy_recounted (hlists : ∀ s ∈ o.specs, s.KeepsItems count lists lists')
    (h : SameItems entries entries') :
    SameItems (o.policy lists values pathCaseSensitive entries)
      ((o.recounted count order).policy lists' values pathCaseSensitive entries') :=
  (policy_alike hlists (Alike.sameItems_iff.mp h) fun _ => trivial).sameItems

end

section

variable {ask ask' : Reference → Except EvalError (List Entry)}
  {answer : Glob → Except EvalError (List String)} {pathCaseSensitive : Bool} {ignored : NameSet}
  {o : Operation} {order : Nat} {m m' next : Materialized}

/-- Where a reference is answered, it is answered with the same items when it is recounted. -/
def KeepsAnswer (count : Reference → Nat) (ask ask' : Reference → Except EvalError (List Entry))
    (u : Reference) : Prop :=
  ∀ entries, ask u = .ok entries →
    ∃ entries', ask' (u.recounted count) = .ok entries' ∧ SameItems entries entries'

structure Renumbered (m m' : Materialized) : Prop where
  entries : SameItems m.entries m'.entries
  removedGlobs : m.removedGlobs = m'.removedGlobs

theorem keepsItems_listsOf (htype : ∀ s ∈ o.specs, s.itemType = o.itemType)
    (hask : ∀ u ∈ o.outside, SameItems (answerOf ask u) (answerOf ask' (u.recounted count)))
    (h : SameItems m.entries m'.entries) :
    ∀ s ∈ o.specs, s.KeepsItems count (listsOf ask o.itemType m.entries)
      (listsOf ask' o.itemType m'.entries) := by
  intro s hs r hr
  have htypes : (r.recounted count).itemType = r.itemType := rfl
  by_cases hown : r.itemType = o.itemType
  · rw [listsOf, listsOf, htypes, if_pos hown, if_pos hown]
    exact h
  · rw [listsOf, listsOf, htypes, if_neg hown, if_neg hown]
    exact hask r (mem_outside_of_mem_references htype hs hr hown)

theorem attempt_recounted (htype : ∀ s ∈ o.specs, s.itemType = o.itemType)
    (hask : ∀ u ∈ o.outside, KeepsAnswer count ask ask' u)
    (hm : Renumbered m m') (h : o.attempt ask answer pathCaseSensitive ignored m = .ok next) :
    ∃ next', (o.recounted count order).attempt ask' answer pathCaseSensitive ignored m' =
      .ok next' ∧ Renumbered next next' := by
  obtain ⟨houtside, hasked, rfl⟩ := attempt_eq_ok_iff.mp h
  have houtside' : ∀ u ∈ (o.recounted count order).outside, ∃ entries, ask' u = .ok entries := by
    rw [outside_recounted, List.forall_mem_map]
    intro u hu
    obtain ⟨entries, hentries⟩ := houtside u hu
    obtain ⟨entries', hentries', _⟩ := hask u hu entries hentries
    exact ⟨entries', hentries'⟩
  have hasked' : ∀ g ∈ (o.recounted count order).asked ignored, ∃ values, answer g = .ok values :=
    fun g hg => hasked g (asked_recounted count order o ignored ▸ hg)
  have hsame : ∀ u ∈ o.outside, SameItems (answerOf ask u) (answerOf ask' (u.recounted count)) := by
    intro u hu
    obtain ⟨entries, hentries⟩ := houtside u hu
    obtain ⟨entries', hentries', hsame⟩ := hask u hu entries hentries
    rwa [answerOf_eq hentries, answerOf_eq hentries']
  have hlists := keepsItems_listsOf htype hsame hm.entries
  refine ⟨_, attempt_eq_ok_iff.mpr ⟨houtside', hasked', rfl⟩, ?_, ?_⟩
  · exact policy_recounted hlists hm.entries
  · rw [removedGlobs_recounted, hm.removedGlobs]

theorem attempt_of_not_condition (hc : o.condition = false)
    (h : o.attempt ask answer pathCaseSensitive ignored m = .ok next) : next = m := by
  obtain ⟨_, _, rfl⟩ := attempt_eq_ok_iff.mp h
  rw [policy_of_not_condition hc, removedGlobs_of_not_condition hc]
  rfl

theorem removedBy_filter_condition (count : Reference → Nat) (number : Operation → Nat)
    (ops : List Operation) :
    removedBy ((ops.filter (·.condition)).map fun o => o.recounted count (number o)) =
      removedBy ops := by
  unfold removedBy
  generalize (∅ : NameSet) = globs
  induction ops generalizing globs with
  | nil => rfl
  | cons o rest ih =>
    cases hc : o.condition with
    | false =>
      have hnone : globs.union o.removedGlobs = globs := by
        rw [removedGlobs_of_not_condition hc]
        rfl
      rw [List.filter_cons_of_neg (by simp [hc]), List.foldl_cons, hnone]
      exact ih globs
    | true =>
      rw [List.filter_cons_of_pos hc, List.map_cons, List.foldl_cons, List.foldl_cons,
        removedGlobs_recounted]
      exact ih _

/-- Where a list of operations succeeds, those that apply succeed without the others. -/
theorem attemptAll_filter_condition {options : Options} {ops : List Operation}
    (number : Operation → Nat) (htype : ∀ o ∈ ops, ∀ s ∈ o.specs, s.itemType = o.itemType)
    (hask : ∀ o ∈ ops, ∀ u ∈ o.outside, KeepsAnswer count ask ask' u)
    (hm : Renumbered m m') (h : attemptAll ask answer options ops m = .ok next) :
    ∃ next', attemptAll ask' answer options
        ((ops.filter (·.condition)).map fun o => o.recounted count (number o)) m' = .ok next' ∧
      Renumbered next next' := by
  induction ops generalizing m m' with
  | nil =>
    cases h
    exact ⟨m', rfl, hm⟩
  | cons o rest ih =>
    obtain ⟨hotype, hresttype⟩ := List.forall_mem_cons.mp htype
    obtain ⟨hoask, hrestask⟩ := List.forall_mem_cons.mp hask
    obtain ⟨mid, hmid, hrest⟩ := bind_eq_ok_iff.mp h
    cases hc : o.condition with
    | false =>
      -- nothing has changed, so the others go on from the same list
      obtain rfl := attempt_of_not_condition hc hmid
      rw [List.filter_cons_of_neg (by simp [hc])]
      exact ih hresttype hrestask hm hrest
    | true =>
      have hignored := removedBy_filter_condition count number rest
      obtain ⟨mid', hmid', hsame⟩ := attempt_recounted hotype hoask hm hmid
      obtain ⟨next', hnext', hsame'⟩ := ih hresttype hrestask hsame hrest
      rw [List.filter_cons_of_pos hc, List.map_cons]
      refine ⟨next', bind_eq_ok_iff.mpr ⟨mid', ?_, hnext'⟩, hsame'⟩
      rw [ignoredBefore, hignored]
      exact hmid'

end

end Operation

end BuildItems
