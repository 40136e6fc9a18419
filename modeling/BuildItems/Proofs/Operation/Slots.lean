import BuildItems.Proofs.Run

/-!
# Entries that share items

Entries of a list may share one item: then each holds the place of the item, and an item is told
from another by its place. A Remove selects the places of the entries it means and takes all that
is at one of them. As what is at one place is one item, it takes no other entries than those it
means, just as on a plain list; and by value it does the same as an Exclude, also where it empties
the list without looking at it.
-/

namespace BuildItems

variable {σ α ι : Type}

/-- Wherever it starts from, the run succeeds with an edit that makes `left` of the list. -/
def Leaves (x : Effect σ (Edit α)) (xs left : List α) : Prop :=
  ∃ edit : Edit α, Yields (fun _ => True) x (.ok edit) ∧ edit.apply xs = left

structure Slot where
  place : Nat
  order : Nat
  deriving DecidableEq

namespace Slot

def read (items : Nat → Item) (s : Slot) : Entry := ⟨items s.place, s.order⟩

theorem map_read_filter (items : Nat → Item) (p : Entry → Bool) (slots : List Slot) :
    (slots.filter fun s => p (s.read items)).map (read items) =
      (slots.map (read items)).filter p :=
  List.filter_map.symm

end Slot

namespace Operation

variable {o : Operation} {byMetadata : Option MetadataMatch} {ctx : Context σ}

/-- A Remove of elements that stand for entries and are told apart by an identity. -/
def removal [BEq ι] (o : Operation) (byMetadata : Option MetadataMatch) (ctx : Context σ)
    (entry : α → Entry) (identity : α → ι) (xs : List α) : Effect σ (Edit α) := do
  ExceptT.mk (pure o.validate)
  if o.condition then
    if byMetadata.isNone && o.spec.isSingleReferenceTo o.itemType then
      Effect.log (clearedList o.itemType xs.length)
      pure .reset
    else pure (removeSelected identity (fun x => removes ctx byMetadata (entry x)) xs)
  else pure .keep

def removePlaces (o : Operation) (byMetadata : Option MetadataMatch) (ctx : Context σ)
    (items : Nat → Item) (slots : List Slot) : Effect σ (Edit Slot) :=
  o.removal byMetadata ctx (Slot.read items) (·.place) slots

theorem removes_congr {e e' : Entry} (h : e.item = e'.item) :
    removes ctx byMetadata e = removes ctx byMetadata e' := by
  cases byMetadata with
  | none => exact congrArg ctx.matcher.matchesItem h
  | some m => exact congrArg (ctx.matcher.metadataIndex m ctx.pathCaseSensitive).contains h

theorem yields_log (e : Log.Event) :
    Yields (fun _ : Trace σ => True) (Effect.log e) (.ok ()) := fun _ _ => ⟨rfl, trivial⟩

theorem yields_validate (hvalid : o.validate = .ok ()) :
    Yields (fun _ : Trace σ => True) (ExceptT.mk (pure o.validate)) (.ok ()) :=
  fun _ _ => ⟨hvalid, trivial⟩

/-- A valid Remove leaves what it does not mean, if the identity tells items apart, and if it means
all where it empties the list. -/
theorem removal_leaves [BEq ι] [LawfulBEq ι] {entry : α → Entry} {identity : α → ι} {xs : List α}
    (hidentity : ∀ x ∈ xs, ∀ y ∈ xs, identity x = identity y → (entry x).item = (entry y).item)
    (hvalid : o.validate = .ok ()) (hcondition : o.condition = true)
    (hall : byMetadata = none → o.spec.isSingleReferenceTo o.itemType = true →
      ∀ x ∈ xs, removes ctx none (entry x) = true) :
    Leaves (o.removal byMetadata ctx entry identity xs) xs
      (xs.filter fun x => !removes ctx byMetadata (entry x)) := by
  have hrun := yields_validate (σ := σ) hvalid
  rw [Leaves, removal, hcondition, if_pos rfl]
  cases hclear : byMetadata.isNone && o.spec.isSingleReferenceTo o.itemType with
  | true =>
    rw [Bool.and_eq_true, Option.isNone_iff_eq_none] at hclear
    obtain ⟨rfl, hsingle⟩ := hclear
    refine ⟨.reset, .seq (c := .ok ()) hrun (.seq (c := .ok ()) (yields_log _) (.ret _)), ?_⟩
    refine (List.filter_eq_nil_iff.mpr fun x hx => ?_).symm
    simp [hall rfl hsingle x hx]
  | false =>
    refine ⟨_, .seq (c := .ok ()) hrun (.ret _), ?_⟩
    exact apply_removeSelected identity _ xs fun x hx y hy h =>
      removes_congr (hidentity x hx y hy h)

theorem removePlaces_leaves {items : Nat → Item} {slots : List Slot}
    (hvalid : o.validate = .ok ()) (hcondition : o.condition = true)
    (hall : byMetadata = none → o.spec.isSingleReferenceTo o.itemType = true →
      ∀ s ∈ slots, removes ctx none (s.read items) = true) :
    Leaves (o.removePlaces byMetadata ctx items slots) slots
      (slots.filter fun s => !removes ctx byMetadata (s.read items)) :=
  removal_leaves (fun _ _ _ _ hplace => congrArg items hplace) hvalid hcondition hall

theorem applyRemoves_leaves {entries : List Entry} (hvalid : o.validate = .ok ())
    (hcondition : o.condition = true)
    (hall : byMetadata = none → o.spec.isSingleReferenceTo o.itemType = true →
      ∀ e ∈ entries, removes ctx none e = true) :
    Leaves (o.applyRemoves byMetadata ctx entries) entries
      (entries.filter fun e => !removes ctx byMetadata e) :=
  removal_leaves (fun _ _ _ _ hitem => hitem) hvalid hcondition hall

theorem validate_of_byMetadata_eq_none (h : o.action.byMetadata? = none) :
    o.validate = .ok () := by
  rw [validate, h]

/-- What is bound to all items of the type matches them all. -/
theorem matchesItem_of_isSingleReferenceTo {m : BoundSpec} {references : List ResolvedReference}
    {entries : List Entry} (hbind : BoundSpec.bind o.spec references = .ok m)
    (hown : ∀ r ∈ references, r.itemType = o.itemType → r.entries = entries)
    (hsingle : o.spec.isSingleReferenceTo o.itemType = true) {e : Entry} (he : e ∈ entries) :
    m.matchesItem e.item = true := by
  unfold Spec.isSingleReferenceTo at hsingle
  split at hsingle
  · next u hfragments =>
    obtain ⟨htypes, rfl⟩ := BoundSpec.bind_ok_iff.mp hbind
    have huses : o.spec.references = [u] := by
      simp [Spec.references, hfragments, Fragment.reference?]
    rw [huses] at htypes
    obtain ⟨r, rfl, hr⟩ := List.map_eq_singleton_iff.mp htypes.symm
    have hentries : r.entries = entries :=
      hown r List.mem_cons_self (hr.trans (eq_of_beq hsingle))
    have hvalue : r.containsValue e.item.value = true := by
      rw [ResolvedReference.containsValue, hentries, List.any_eq_true]
      exact ⟨e, he, beq_self_eq_true _⟩
    rw [BoundSpec.matchesItem, BoundSpec.matchesValue, hfragments, BoundSpec.matchesAny, hvalue,
      Bool.true_or]
  · cases hsingle

theorem applyExcludes_leaves (hcondition : o.condition = true) (entries : List Entry) :
    Leaves (o.applyExcludes ctx entries) entries
      (entries.filter fun e => !ctx.matcher.matchesItem e.item) := by
  refine ⟨_, .ret _, ?_⟩
  rw [if_pos hcondition, Edit.apply_filter]

/-- A Remove that does not match by metadata leaves just the entries that its specification does
not match, in their order: by the places of the items, on the plain list, and as an Exclude. -/
theorem remove_leaves_unmatched (o : Operation) (ctx : Context σ) (items : Nat → Item)
    (slots : List Slot) {references : List ResolvedReference} (haction : o.action = .removes none)
    (hcondition : o.condition = true)
    (hbind : BoundSpec.bind o.spec references = .ok ctx.matcher)
    (hown : ∀ r ∈ references, r.itemType = o.itemType →
      r.entries = slots.map (Slot.read items)) :
    let entries := slots.map (Slot.read items)
    let spared := slots.filter fun s => !ctx.matcher.matchesItem (items s.place)
    Leaves (o.removePlaces none ctx items slots) slots spared ∧
      Leaves (o.apply ctx entries) entries (spared.map (Slot.read items)) ∧
      Leaves (({ o with action := .excludes } : Operation).apply ctx entries) entries
        (spared.map (Slot.read items)) := by
  intro entries spared
  have hvalid : o.validate = .ok () := validate_of_byMetadata_eq_none (by rw [haction]; rfl)
  have hall : o.spec.isSingleReferenceTo o.itemType = true →
      ∀ e ∈ entries, removes ctx none e = true := fun hsingle e he =>
    matchesItem_of_isSingleReferenceTo hbind hown hsingle he
  have hspared : spared.map (Slot.read items) =
      entries.filter fun e => !ctx.matcher.matchesItem e.item :=
    Slot.map_read_filter items (fun e => !ctx.matcher.matchesItem e.item) slots
  rw [hspared]
  refine ⟨?_, ?_, applyExcludes_leaves hcondition entries⟩
  · refine removePlaces_leaves hvalid hcondition fun _ hsingle s hs => ?_
    exact hall hsingle _ (List.mem_map_of_mem hs)
  · rw [apply, haction]
    exact applyRemoves_leaves hvalid hcondition fun _ => hall

def pruned : Operation where
  action := .removes none
  spec := .ofFragments "I" [.reference ⟨"R", 1⟩, .literal "a.c"]
  condition := true
  location := .inFile "app.proj"
  order := 5

def cleared : Operation := { pruned with spec := .ofFragments "I" [.reference ⟨"I", 5⟩] }

def prunedItems (place : Nat) : Item := ⟨"I", ["a.c", "b.c", "d.c", "d.c"].getD place "", ∅⟩

/-- Two entries share one item, and two items have one value. The second Remove takes its own
items, all of them. -/
theorem remove_leaves_unmatched_shared :
    let slots : List Slot := [⟨0, 0⟩, ⟨2, 1⟩, ⟨1, 2⟩, ⟨0, 3⟩, ⟨3, 4⟩]
    let entries := slots.map (Slot.read prunedItems)
    let ctx : Context Unit := .plain ⟨pruned.spec, [⟨"R", [⟨⟨"R", "b.c", ∅⟩, 0⟩]⟩]⟩
    let own : Context Unit := .plain ⟨cleared.spec, [⟨"I", entries⟩]⟩
    Leaves (pruned.removePlaces none ctx prunedItems slots) slots [⟨2, 1⟩, ⟨3, 4⟩] ∧
      Leaves (pruned.apply ctx entries) entries
        [⟨⟨"I", "d.c", ∅⟩, 1⟩, ⟨⟨"I", "d.c", ∅⟩, 4⟩] ∧
      Leaves (cleared.removePlaces none own prunedItems slots) slots [] := by
  intro slots entries ctx own
  have hother : ∀ r ∈ ctx.matcher.references,
      r.itemType = pruned.itemType → r.entries = entries := by
    intro r hr htype
    obtain rfl := List.mem_singleton.mp hr
    exact absurd htype (by decide)
  have hown : ∀ r ∈ own.matcher.references,
      r.itemType = cleared.itemType → r.entries = entries := by
    intro r hr _
    obtain rfl := List.mem_singleton.mp hr
    rfl
  have h := remove_leaves_unmatched pruned ctx prunedItems slots rfl rfl (by rfl) hother
  have h' := remove_leaves_unmatched cleared own prunedItems slots rfl rfl (by rfl) hown
  have hspared : (slots.filter fun s => !ctx.matcher.matchesItem (prunedItems s.place)) =
      [⟨2, 1⟩, ⟨3, 4⟩] := by decide
  have hnone : (slots.filter fun s => !own.matcher.matchesItem (prunedItems s.place)) = [] := by
    decide
  dsimp only at h h'
  rw [hspared] at h
  rw [hnone] at h'
  exact ⟨h.1, h.2.1, h'.1⟩

end Operation

end BuildItems
