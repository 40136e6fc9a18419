import BuildItems.Proofs.Operation.Atomic

/-!
# Updating in place

An Update with a true condition keeps every entry in its place, with its value, its type and its
number. An entry that is matched gets the declared metadata over its own, and the others stay as
they are. Matching goes by values, so every specification matches the same places before and after,
and the same Update once more finds nothing to change.
-/

namespace BuildItems

variable {σ : Type}

/-- What becomes of an entry where the items matched by a specification are given metadata. -/
structure BoundSpec.Overrides (m : BoundSpec) (metadata : Metadata) (old new : Entry) : Prop where
  value : new.item.value = old.item.value
  itemType : new.item.itemType = old.item.itemType
  order : new.order = old.order
  matched : m.matchesItem old.item = true → ∀ name,
    new.item.metadata.get? name = (metadata.get? name).or (old.item.metadata.get? name)
  unmatched : m.matchesItem old.item = false → new = old

namespace BoundSpec

def overriding (m : BoundSpec) (metadata : Metadata) (e : Entry) : Entry :=
  if m.matchesItem e.item then e.withItem (e.item.withMerged metadata) else e

variable {m : BoundSpec} {metadata : Metadata} {e : Entry}

theorem overriding_of_matches (h : m.matchesItem e.item = true) :
    m.overriding metadata e = e.withItem (e.item.withMerged metadata) := if_pos h

theorem overriding_of_not_matches (h : m.matchesItem e.item = false) :
    m.overriding metadata e = e := if_neg (Bool.eq_false_iff.mp h)

theorem overrides_overriding (m : BoundSpec) (metadata : Metadata) (e : Entry) :
    m.Overrides metadata e (m.overriding metadata e) := by
  cases h : m.matchesItem e.item with
  | true =>
    rw [overriding_of_matches h]
    exact ⟨rfl, rfl, rfl, fun _ => NameMap.get?_merge e.item.metadata metadata,
      fun hnot => absurd (hnot.symm.trans h) Bool.false_ne_true⟩
  | false =>
    rw [overriding_of_not_matches h]
    exact ⟨rfl, rfl, rfl, fun hmatch => absurd (h.symm.trans hmatch) Bool.false_ne_true,
      fun _ => rfl⟩

@[simp]
theorem matchesItem_overriding (m' : BoundSpec) :
    m'.matchesItem (m.overriding metadata e).item = m'.matchesItem e.item :=
  congrArg m'.matchesValue (m.overrides_overriding metadata e).value

theorem overriding_overriding :
    m.overriding metadata (m.overriding metadata e) = m.overriding metadata e := by
  cases h : m.matchesItem e.item with
  | true =>
    have h' : m.matchesItem (m.overriding metadata e).item = true := by
      rw [matchesItem_overriding, h]
    rw [overriding_of_matches h', overriding_of_matches h]
    exact congrArg (fun merged => e.withItem { e.item with metadata := merged })
      (NameMap.merge_merge e.item.metadata metadata)
  | false => rw [overriding_of_not_matches h, overriding_of_not_matches h]

theorem overriding_empty (m : BoundSpec) (e : Entry) : m.overriding ∅ e = e := ite_self e

end BoundSpec

namespace Operation

variable {o : Operation} {ctx : Context σ} {metadata : Metadata}

theorem applyUpdates_leaves (hcondition : o.condition = true) (entries : List Entry) :
    Leaves (o.applyUpdates metadata ctx entries) entries
      (entries.map (ctx.matcher.overriding metadata)) := by
  rw [applyUpdates, hcondition]
  cases hempty : metadata.isEmpty with
  | true =>
    -- without metadata nothing is looked at, as nothing would change
    obtain rfl : metadata = ∅ := NameMap.ext (List.isEmpty_iff.mp hempty)
    exact ⟨.keep, .ret _, (List.map_id'' ctx.matcher.overriding_empty entries).symm⟩
  | false =>
    refine ⟨_, .seq (c := .ok ()) (yields_log _) (.ret _), ?_⟩
    refine (Edit.apply_update _ entries).trans (List.map_congr_left fun e _ => ?_)
    rw [overridden?]
    cases h : ctx.matcher.matchesItem e.item with
    | true => rw [BoundSpec.overriding_of_matches h]; rfl
    | false => rw [BoundSpec.overriding_of_not_matches h]; rfl

/-- What an operation makes of a list, it makes of the one that a builder holds. -/
theorem applyIn_of_leaves {store : Store Entry} {buffer : Nat} {left : List Entry}
    (h : Leaves (o.apply ctx (store.contents buffer)) (store.contents buffer) left)
    (t : Trace σ) :
    ∃ buffer' store' t', (o.applyIn ctx store buffer).run t = ((.ok (), buffer', store'), t') ∧
      store'.contents buffer' = left := by
  obtain ⟨edit, hyields, hleft⟩ := h
  obtain ⟨hrun, -⟩ := hyields t trivial
  rw [run_applyIn]
  rcases happly : (o.apply ctx (store.contents buffer)).run t with ⟨answer, t'⟩
  rw [happly] at hrun
  subst hrun
  exact ⟨_, _, t', rfl, (store.contents_edit buffer edit).trans hleft⟩

/-- A true-condition Update overrides the metadata of the entries that are matched and changes
nothing else of the list that a builder holds. The same Update leaves the new list as it is, and
whatever is bound matches the same places in both. -/
theorem update_overrides_matched (o : Operation) (ctx : Context σ) (store : Store Entry)
    (buffer : Nat) (t : Trace σ) {metadata : Metadata} (haction : o.action = .updates metadata)
    (hcondition : o.condition = true) :
    ∃ buffer' store' t', (o.applyIn ctx store buffer).run t = ((.ok (), buffer', store'), t') ∧
      List.Forall₂ (ctx.matcher.Overrides metadata) (store.contents buffer)
        (store'.contents buffer') ∧
      (∀ t₁, ∃ buffer'' store'' t₂,
        (o.applyIn ctx store' buffer').run t₁ = ((.ok (), buffer'', store''), t₂) ∧
          store''.contents buffer'' = store'.contents buffer') ∧
      ∀ m : BoundSpec, (store'.contents buffer').map (m.matchesItem ·.item) =
        (store.contents buffer).map (m.matchesItem ·.item) := by
  have hleaves (entries : List Entry) : Leaves (o.apply ctx entries) entries
      (entries.map (ctx.matcher.overriding metadata)) := by
    rw [apply, haction]
    exact applyUpdates_leaves hcondition entries
  obtain ⟨buffer', store', t', hrun, hcontents⟩ := applyIn_of_leaves (hleaves _) t
  refine ⟨buffer', store', t', hrun, ?_, fun t₁ => ?_, fun m => ?_⟩
  · rw [hcontents]
    exact List.forall₂_map_right_iff.mpr
      (List.forall₂_same.mpr fun e _ => ctx.matcher.overrides_overriding metadata e)
  · obtain ⟨buffer'', store'', t₂, hrun', hcontents'⟩ := applyIn_of_leaves (hleaves _) t₁
    refine ⟨buffer'', store'', t₂, hrun', hcontents'.trans ?_⟩
    rw [hcontents, List.map_map]
    exact List.map_congr_left fun e _ => BoundSpec.overriding_overriding
  · rw [hcontents, List.map_map]
    exact List.map_congr_left fun e _ => BoundSpec.matchesItem_overriding m

def relinked : Operation where
  action := .updates (.ofList [("Link", "new"), ("Kind", "x")])
  spec := .ofFragments "I" [.glob (starred 'x'), .literal "a.c", .reference ⟨"R", 1⟩]
  condition := true
  location := .inFile "app.proj"
  order := 5

/-- Two entries have one value, one has none of the metadata, and one is not matched. A snapshot
reads the same buffer, so the builder moves to another. -/
theorem update_overrides_matched_copied :
    let old : Metadata := .ofList [("Link", "old"), ("Visible", "no")]
    let entries : List Entry := [⟨⟨"I", "a.c", old⟩, 1⟩, ⟨⟨"I", "d.c", old⟩, 1⟩,
      ⟨⟨"I", "b.x", ∅⟩, 2⟩, ⟨⟨"I", "a.c", ∅⟩, 4⟩]
    let ctx : Context Unit := .plain ⟨relinked.spec, [⟨"R", [⟨⟨"R", "c.c", ∅⟩, 0⟩]⟩]⟩
    let store := (Store.empty.allocate entries).2.share 0
    ∃ store' t', (relinked.applyIn ctx store 0).run ⟨(), []⟩ = ((.ok (), 1, store'), t') ∧
      store'.contents 0 = entries ∧
      List.Forall₂ (ctx.matcher.Overrides (.ofList [("Kind", "x"), ("Link", "new")])) entries
        (store'.contents 1) ∧
      (store'.contents 1).map (ctx.matcher.matchesItem ·.item) = [true, false, true, true] := by
  intro old entries ctx store
  have hmoved : ((relinked.applyIn ctx store 0).run ⟨(), []⟩).1.2.1 = 1 := by decide +kernel
  have hkept : ((relinked.applyIn ctx store 0).run ⟨(), []⟩).1.2.2.contents 0 = entries := by
    decide +kernel
  obtain ⟨buffer', store', t', hrun, hover, -, hmatches⟩ :=
    update_overrides_matched relinked ctx store 0 ⟨(), []⟩ rfl rfl
  rw [hrun] at hmoved hkept
  subst hmoved
  exact ⟨store', t', hrun, hkept, hover, (hmatches ctx.matcher).trans (by decide)⟩

end Operation

end BuildItems
