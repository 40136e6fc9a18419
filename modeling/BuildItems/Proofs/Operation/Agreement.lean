import BuildItems.Proofs.Operation.Slots

/-!
# Removing by metadata

A Remove that matches by metadata has one metadata name. It takes an item if the item agrees with
one of those it refers to: under the name both have a value, neither is empty, and the keys of the
values are equal. Values that agree as they are agree in whatever case and as paths, and paths that
agree agree in whatever case, so a Remove that compares more loosely takes at least as much.
-/

namespace BuildItems

variable {σ : Type}

theorem ComparisonMode.exists_key_iff {mode : ComparisonMode} {pathCaseSensitive : Bool}
    {value : String} : (∃ k, mode.key pathCaseSensitive value = some k) ↔ value ≠ "" := by
  rw [← Option.isSome_iff_exists, ← Option.isSome_iff_ne_none.symm, Ne, key_eq_none_iff]

namespace Item

/-- The item has the value under a metadata name; under the identity this is the item's own value,
unless metadata of that name is set. -/
def Shows (i : Item) (name value : String) : Prop :=
  i.metadata.get? name = some value ∨
    i.metadata.get? name = none ∧ name = identityName ∧ i.value = value

theorem lookup_eq_some_iff {i : Item} {name value : String} :
    i.lookup name = some value ↔ i.Shows name value := by
  unfold lookup Shows
  cases i.metadata.get? name with
  | some v => simp
  | none => by_cases hname : name = identityName <;> simp [hname]

/-- Under the name both items have a value, neither is empty, and the keys are equal. -/
def Agrees (name : String) (mode : ComparisonMode) (pathCaseSensitive : Bool) (i j : Item) :
    Prop :=
  ∃ v w, i.Shows name v ∧ v ≠ "" ∧ j.Shows name w ∧ w ≠ "" ∧
    mode.key pathCaseSensitive v = mode.key pathCaseSensitive w

theorem agrees_iff {name : String} {mode : ComparisonMode} {pathCaseSensitive : Bool}
    {i j : Item} :
    i.Agrees name mode pathCaseSensitive j ↔
      ∃ k, (i.lookup name).bind (mode.key pathCaseSensitive) = some k ∧
        (j.lookup name).bind (mode.key pathCaseSensitive) = some k := by
  simp only [Option.bind_eq_some_iff, lookup_eq_some_iff]
  constructor
  · rintro ⟨v, w, hv, hne, hw, -, heq⟩
    obtain ⟨k, hk⟩ := ComparisonMode.exists_key_iff.mpr hne
    exact ⟨k, ⟨v, hv, hk⟩, w, hw, heq ▸ hk⟩
  · rintro ⟨k, ⟨v, hv, hvk⟩, w, hw, hwk⟩
    exact ⟨v, w, hv, ComparisonMode.exists_key_iff.mp ⟨k, hvk⟩, hw,
      ComparisonMode.exists_key_iff.mp ⟨k, hwk⟩, hvk.trans hwk.symm⟩

variable {name : String} {i j : Item}

theorem Agrees.imp {mode mode' : ComparisonMode} {b b' : Bool}
    (h : i.Agrees name mode b j)
    (hkey : ∀ v w, v ≠ "" → w ≠ "" → mode.key b v = mode.key b w →
      mode'.key b' v = mode'.key b' w) : i.Agrees name mode' b' j := by
  obtain ⟨v, w, hv, hvne, hw, hwne, heq⟩ := h
  exact ⟨v, w, hv, hvne, hw, hwne, hkey v w hvne hwne heq⟩

theorem Agrees.of_caseSensitive {b : Bool} (h : i.Agrees name .caseSensitive b j)
    (mode : ComparisonMode) (b' : Bool) : i.Agrees name mode b' j := by
  refine h.imp fun v w hv hw heq => ?_
  rw [ComparisonMode.key, ComparisonMode.key, if_neg hv, if_neg hw] at heq
  exact congrArg _ (Option.some.inj heq)

theorem Agrees.of_pathLike (h : i.Agrees name .pathLike true j) :
    i.Agrees name .pathLike false j := by
  refine h.imp fun v w hv hw heq => ?_
  simp only [ComparisonMode.key, if_neg hv, if_neg hw, if_true, Option.some.injEq] at heq
  simp only [ComparisonMode.key, if_neg hv, if_neg hw, heq]

end Item

namespace MetadataMatch

theorem names_of_ofNames? {given : List String} {mode : ComparisonMode} {m : MetadataMatch}
    (h : ofNames? given mode = some m) (hcount : m.count = 1) : ∃ name, m.names.names = [name] := by
  unfold ofNames? at h
  split at h
  · cases h
  · cases h
    obtain ⟨name, hname⟩ := List.length_eq_one_iff.mp hcount
    exact ⟨name, by rw [hname]; rfl⟩

theorem keys?_of_names {m : MetadataMatch} {name : String} (h : m.names.names = [name])
    (pathCaseSensitive : Bool) (item : Item) :
    m.keys? pathCaseSensitive item =
      ((item.lookup name).bind (m.mode.key pathCaseSensitive)).map ([·]) := by
  rw [keys?, h, List.mapM_cons, List.mapM_nil]
  cases (item.lookup name).bind (m.mode.key pathCaseSensitive) <;> rfl

end MetadataMatch

theorem BoundSpec.matchesMetadata_iff (matcher : BoundSpec) {m : MetadataMatch} {name : String}
    (h : m.names.names = [name]) (pathCaseSensitive : Bool) (item : Item) :
    matcher.matchesMetadata m pathCaseSensitive item = true ↔
      ∃ r ∈ matcher.references, ∃ e ∈ r.entries,
        item.Agrees name m.mode pathCaseSensitive e.item := by
  have hone : ∀ other : Item, (∃ keys, m.keys? pathCaseSensitive item = some keys ∧
      m.keys? pathCaseSensitive other = some keys) ↔
        item.Agrees name m.mode pathCaseSensitive other := by
    intro other
    rw [Item.agrees_iff, MetadataMatch.keys?_of_names h, MetadataMatch.keys?_of_names h]
    simp only [Option.map_eq_some_iff]
    constructor
    · rintro ⟨_, ⟨k, hk, rfl⟩, k', hk', heq⟩
      exact ⟨k, hk, List.singleton_inj.mp heq ▸ hk'⟩
    · rintro ⟨k, hk, hk'⟩
      exact ⟨[k], ⟨k, hk, rfl⟩, k, hk', rfl⟩
  simp only [← hone]
  rw [matchesMetadata, metadataIndex, KeyIndex.contains_ofItems]
  constructor
  · rintro ⟨keys, hkeys, i, hi, hikeys⟩
    obtain ⟨r, hr, hmem⟩ := List.mem_flatMap.mp hi
    obtain ⟨e, he, rfl⟩ := List.mem_map.mp hmem
    exact ⟨r, hr, e, he, keys, hkeys, hikeys⟩
  · rintro ⟨r, hr, e, he, keys, hkeys, hikeys⟩
    exact ⟨keys, hkeys, e.item, List.mem_flatMap.mpr ⟨r, hr, List.mem_map_of_mem he⟩, hikeys⟩

namespace Operation

theorem validate_of_removes_some {o : Operation} {m : MetadataMatch}
    (haction : o.action = .removes (some m)) :
    o.validate = .ok () ↔ m.count = 1 ∧ o.spec.isSingleReference = true := by
  rw [validate, haction]
  change (if _ then Except.ok () else _) = _ ↔ _
  split
  · next h => simp [h]
  · next h => simpa using h

/-- A valid Remove by metadata leaves just the entries that agree with nothing it refers to, in
their order, under whichever mode its values are compared; an item is looked up by itself as in
bulk. What agrees as it is, is taken under every mode, and what agrees as a path in this case, also
as a path in any. -/
theorem remove_leaves_disagreeing (o : Operation) (ctx : Context σ) (items : Nat → Item)
    (slots : List Slot) {given : List String} {state : MetadataMatch}
    (hstate : MetadataMatch.ofNames? given state.mode = some state)
    (haction : o.action = .removes (some state)) (hvalid : o.validate = .ok ())
    (hcondition : o.condition = true) :
    let under (mode : ComparisonMode) : MetadataMatch := { state with mode := mode }
    let taken (mode : ComparisonMode) (b : Bool) (item : Item) :=
      ctx.matcher.matchesMetadata (under mode) b item
    ∃ name, state.singleName? = some name ∧
      (∀ mode b,
        let removing : Operation := { o with action := .removes (some (under mode)) }
        let context := { ctx with pathCaseSensitive := b }
        let entries := slots.map (Slot.read items)
        let spared := slots.filter fun s => !taken mode b (items s.place)
        Leaves (removing.removePlaces (some (under mode)) context items slots) slots spared ∧
          Leaves (removing.apply context entries) entries (spared.map (Slot.read items))) ∧
      (∀ mode b item,
        (ctx.matcher.metadataIndex (under mode) b).contains item = taken mode b item ∧
          (taken mode b item = true ↔
            ∃ r ∈ ctx.matcher.references, ∃ e ∈ r.entries, item.Agrees name mode b e.item)) ∧
      (∀ b mode b' item, taken .caseSensitive b item = true → taken mode b' item = true) ∧
      ∀ item, taken .pathLike true item = true → taken .pathLike false item = true := by
  intro under taken
  obtain ⟨hcount, hsingle⟩ := (validate_of_removes_some haction).mp hvalid
  obtain ⟨name, hname⟩ := MetadataMatch.names_of_ofNames? hstate hcount
  have htaken : ∀ mode b item, taken mode b item = true ↔
      ∃ r ∈ ctx.matcher.references, ∃ e ∈ r.entries, item.Agrees name mode b e.item :=
    fun mode b item => ctx.matcher.matchesMetadata_iff (m := under mode) hname b item
  refine ⟨name, ?_, ?_, fun mode b item => ⟨rfl, htaken mode b item⟩, ?_, ?_⟩
  · rw [MetadataMatch.singleName?, if_pos hcount, hname]
    rfl
  · intro mode b removing context entries spared
    have hremoving : removing.validate = .ok () :=
      (validate_of_removes_some (o := removing) (m := under mode) rfl).mpr ⟨hcount, hsingle⟩
    have hspared : spared.map (Slot.read items) =
        entries.filter fun e => !taken mode b e.item :=
      Slot.map_read_filter items (fun e => !taken mode b e.item) slots
    rw [hspared]
    exact ⟨removePlaces_leaves hremoving hcondition nofun,
      applyRemoves_leaves hremoving hcondition nofun⟩
  · intro b mode b' item h
    obtain ⟨r, hr, e, he, hagrees⟩ := (htaken _ b item).mp h
    exact (htaken mode b' item).mpr ⟨r, hr, e, he, hagrees.of_caseSensitive mode b'⟩
  · intro item h
    obtain ⟨r, hr, e, he, hagrees⟩ := (htaken _ _ item).mp h
    exact (htaken _ _ item).mpr ⟨r, hr, e, he, hagrees.of_pathLike⟩

def byLink : MetadataMatch := ⟨.ofNames ["Link"], 1, .pathLike⟩

def unlinked : Operation where
  action := .removes (some byLink)
  spec := .ofFragments "I" [.reference ⟨"R", 1⟩]
  condition := true
  location := .inFile "app.proj"
  order := 5

def linkedTo (itemType link : String) : Item := ⟨itemType, "a.cs", .ofList [("Link", link)]⟩

def linkedItems (place : Nat) : Item :=
  [linkedTo "I" "Sub\\File.cs", linkedTo "I" "", linkedTo "I" "sub/file.cs"].getD place
    ⟨"I", "a.cs", ∅⟩

/-- Two entries share an item. Another differs from the referenced one in case only, one has the
metadata empty, and one has none. -/
theorem remove_leaves_disagreeing_linked :
    let slots : List Slot := [⟨0, 0⟩, ⟨1, 1⟩, ⟨2, 2⟩, ⟨0, 3⟩, ⟨3, 4⟩]
    let ctx : Context Unit :=
      .plain ⟨unlinked.spec, [⟨"R", [⟨linkedTo "R" "./Sub/x/../File.cs", 0⟩]⟩]⟩
    let anyCase : Context Unit := { ctx with pathCaseSensitive := false }
    Leaves (unlinked.removePlaces (some byLink) ctx linkedItems slots) slots
        [⟨1, 1⟩, ⟨2, 2⟩, ⟨3, 4⟩] ∧
      Leaves (unlinked.removePlaces (some byLink) anyCase linkedItems slots) slots
        [⟨1, 1⟩, ⟨3, 4⟩] := by
  intro slots ctx anyCase
  have hstate : MetadataMatch.ofNames? [" Link", " "] byLink.mode = some byLink := by
    decide +kernel
  obtain ⟨_, _, hleaves, _⟩ :=
    remove_leaves_disagreeing unlinked ctx linkedItems slots hstate rfl rfl rfl
  have hspared : (slots.filter fun s =>
      !ctx.matcher.matchesMetadata byLink true (linkedItems s.place)) =
        [⟨1, 1⟩, ⟨2, 2⟩, ⟨3, 4⟩] := by decide +kernel
  have hanyCase : (slots.filter fun s =>
      !ctx.matcher.matchesMetadata byLink false (linkedItems s.place)) =
        [⟨1, 1⟩, ⟨3, 4⟩] := by decide +kernel
  exact ⟨hspared ▸ (hleaves .pathLike true).1, hanyCase ▸ (hleaves .pathLike false).1⟩

end Operation

end BuildItems
