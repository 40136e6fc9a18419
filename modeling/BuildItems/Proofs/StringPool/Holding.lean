import BuildItems.Proofs.StringPool.Effect
import Mathlib.Data.List.DropRight
import Mathlib.Data.Set.Card

/-!
# The pool counts who holds what

A document holds the tracked strings it has added since it was last cleared. The pool has an
entry for each string that is held, with the number of documents that hold it. This is so after
any calls of any documents; so what can be told of a pool without comparing instances depends on
what each document has asked for, in its own order, and on nothing else.
-/

namespace BuildItems

namespace StringPool

inductive Call where
  | add (key : String) (d : DocumentId)
  | get (key : String)
  | clear (d : DocumentId)
  deriving DecidableEq

namespace Call

def document? : Call → Option DocumentId
  | add _ d | clear d => some d
  | get _ => none

def ofDocument (d : DocumentId) (calls : List Call) : List Call :=
  calls.filter (·.document? == some d)

end Call

/-- A document holds a tracked key that it has added since it was last cleared. -/
def Held (calls : List Call) (key : String) (d : DocumentId) : Prop :=
  Tracked key ∧ .add key d ∈ calls.rtakeWhile (· != .clear d)

instance (calls : List Call) (key : String) (d : DocumentId) : Decidable (Held calls key d) :=
  inferInstanceAs (Decidable (_ ∧ _))

variable {calls : List Call} {key : String} {d : DocumentId} {p : StringPool}

theorem not_held_nil : ¬ Held [] key d := by
  simp [Held]

theorem held_concat_add {key' : String} {d' : DocumentId} :
    Held (calls ++ [.add key' d']) key d ↔
      Held calls key d ∨ Tracked key' ∧ key = key' ∧ d = d' := by
  rw [Held, List.rtakeWhile_concat_pos _ _ _ (by simp)]
  simp only [Held, List.mem_append, List.mem_singleton, Call.add.injEq]
  constructor
  · rintro ⟨hkey, h | ⟨rfl, rfl⟩⟩
    · exact .inl ⟨hkey, h⟩
    · exact .inr ⟨hkey, rfl, rfl⟩
  · rintro (⟨hkey, h⟩ | ⟨hkey, rfl, rfl⟩)
    · exact ⟨hkey, .inl h⟩
    · exact ⟨hkey, .inr ⟨rfl, rfl⟩⟩

theorem held_concat_get {key' : String} :
    Held (calls ++ [.get key']) key d ↔ Held calls key d := by
  rw [Held, List.rtakeWhile_concat_pos _ _ _ (by simp)]
  simp [Held]

theorem held_concat_clear {d' : DocumentId} :
    Held (calls ++ [.clear d']) key d ↔ Held calls key d ∧ d ≠ d' := by
  by_cases hd : d = d'
  · subst hd
    rw [Held, List.rtakeWhile_concat_neg _ _ _ (by simp)]
    simp
  · rw [Held, List.rtakeWhile_concat_pos _ _ _ (by simp [Ne.symm hd])]
    simp [Held, hd]

/-- What a document holds is settled by its own calls. -/
theorem held_ofDocument : Held (Call.ofDocument d calls) key d ↔ Held calls key d := by
  induction calls using List.reverseRecOn with
  | nil => rfl
  | append_singleton calls c ih =>
    rw [Call.ofDocument, List.filter_append]
    change Held (Call.ofDocument d calls ++ _) key d ↔ _
    cases c with
    | add key' d' =>
      by_cases hd : d' = d
      · simp [Call.document?, hd, held_concat_add, ih]
      · simp [Call.document?, hd, held_concat_add, ih, Ne.symm hd]
    | get key' => simp [Call.document?, held_concat_get, ih]
    | clear d' =>
      by_cases hd : d' = d
      · simp [Call.document?, hd, held_concat_clear]
      · simp [Call.document?, hd, held_concat_clear, ih, Ne.symm hd]

def step (p : StringPool) : Call → StringPool
  | .add key d => (p.add key d).2
  | .get _ => p
  | .clear d => (p.clear d).1

def run (calls : List Call) : StringPool := calls.foldl step {}

/-- The pools that calls may lead to if a clear visits its keys in no fixed order. -/
inductive Reaches : List Call → StringPool → Prop where
  | start : Reaches [] {}
  | add {calls : List Call} {p : StringPool} (key : String) (d : DocumentId) :
      Reaches calls p → Reaches (calls ++ [.add key d]) (p.add key d).2
  | get {calls : List Call} {p : StringPool} (key : String) :
      Reaches calls p → Reaches (calls ++ [.get key]) p
  | clear {calls : List Call} {p : StringPool} {d : DocumentId} {visited : List String} :
      Reaches calls p → visited.Perm (NameMap.names (p.heldBy d)) →
        Reaches (calls ++ [.clear d]) (p.release d visited)

theorem run_concat (calls : List Call) (c : Call) : run (calls ++ [c]) = (run calls).step c :=
  List.foldl_concat ..

theorem reaches_iff : Reaches calls p ↔ p = run calls := by
  constructor
  · intro h
    induction h with
    | start => rfl
    | add key d _ ih => rw [run_concat, ← ih, step]
    | get key _ ih => rw [run_concat, ← ih, step]
    | clear _ hvisited ih => rw [run_concat, ← ih, step, clear_fst, release_of_perm hvisited]
  · rintro rfl
    induction calls using List.reverseRecOn with
    | nil => exact .start
    | append_singleton calls c ih =>
      rw [run_concat]
      cases c with
      | add key d => exact ih.add key d
      | get key => exact ih.get key
      | clear d =>
        rw [step, clear_fst]
        exact ih.clear (List.Perm.refl _)

def holdersOf (p : StringPool) (key : String) : Nat := (p.entries.get? key).elim 0 (·.holders)

structure Balanced (calls : List Call) (p : StringPool) : Prop where
  held : ∀ d key, NameMap.contains (p.heldBy d) key = true ↔ Held calls key d
  documents : ∀ name keys, p.held.get? name = some keys → ∃ key, NameMap.contains keys key = true
  holders : ∀ key, (p.holdersOf key : ℕ∞) = {d | Held calls key d}.encard
  entries : ∀ key e, p.entries.get? key = some e → e.string.text = key ∧ 1 ≤ e.holders

theorem Balanced.start : Balanced [] {} where
  held d key := by simp [heldBy, not_held_nil, NameMap.contains]
  documents name keys h := by cases h
  holders key := by simp [holdersOf, not_held_nil]
  entries key e h := by cases h

theorem holders_ensure (p : StringPool) (key : String) :
    (p.ensure key).1.holders = p.holdersOf key := by
  cases h : p.entries.get? key with
  | some e => simp [ensure_of_some h, holdersOf, h]
  | none => simp [ensure_of_none h, holdersOf, h]

theorem Balanced.text_ensure (h : Balanced calls p) (key : String) :
    (p.ensure key).1.string.text = key := by
  cases he : p.entries.get? key with
  | some e =>
    rw [ensure_of_some he]
    exact (h.entries key e he).1
  | none => rw [ensure_of_none he]

theorem Balanced.of_tables {calls' : List Call} {p' : StringPool} (h : Balanced calls p)
    (hentries : p'.entries = p.entries) (hheld : p'.held = p.held)
    (hsame : ∀ key d, Held calls' key d ↔ Held calls key d) : Balanced calls' p' where
  held d key := by rw [heldBy, hheld, hsame, ← h.held, heldBy]
  documents := hheld ▸ h.documents
  holders key := by simp only [holdersOf, hentries, hsame, ← h.holders]
  entries := hentries ▸ h.entries

theorem Balanced.holders_heldEntry (h : Balanced calls p) (hkey : Tracked key) :
    ((p.heldEntry key d).holders : ℕ∞) = {d' | Held (calls ++ [.add key d]) key d'}.encard := by
  have hinsert : {d' | Held (calls ++ [.add key d]) key d'} =
      insert d {d' | Held calls key d'} := by
    ext d'
    simp [held_concat_add, hkey, or_comm]
  rw [hinsert, heldEntry]
  split
  · next hheld =>
    have hmem : d ∈ {d' | Held calls key d'} := (h.held d key).mp hheld
    rw [Set.insert_eq_of_mem hmem, holders_ensure, h.holders]
  · next hheld =>
    have hmem : d ∉ {d' | Held calls key d'} := fun hd => hheld ((h.held d key).mpr hd)
    rw [Set.encard_insert_of_notMem hmem, holders_ensure, Nat.cast_add, h.holders, Nat.cast_one]

theorem Balanced.add (h : Balanced calls p) (key : String) (d : DocumentId) :
    Balanced (calls ++ [.add key d]) (p.add key d).2 := by
  by_cases hkey : Tracked key
  · have hholders := h.holders_heldEntry (d := d) hkey
    refine ⟨fun d' k => ?_, fun name keys hkeys => ?_, fun k => ?_, fun k e he => ?_⟩
    · rw [contains_heldBy_add hkey, h.held, held_concat_add]
      simp [hkey]
    · rw [get?_held_add hkey] at hkeys
      split at hkeys
      · obtain rfl := Option.some.inj hkeys
        exact ⟨key, by simp⟩
      · exact h.documents name keys hkeys
    · rw [holdersOf, get?_entries_add hkey]
      split
      · next hk => rw [hk, Option.elim_some, hholders]
      · next hk =>
        simp only [held_concat_add, hk, false_and, and_false, or_false]
        exact h.holders k
    · rw [get?_entries_add hkey] at he
      split at he
      · next hk =>
        obtain rfl := Option.some.inj he
        refine ⟨by rw [string_heldEntry, h.text_ensure, hk], ?_⟩
        have hpos : {d' | Held (calls ++ [.add key d]) key d'}.encard ≠ 0 :=
          Set.encard_ne_zero.mpr ⟨d, held_concat_add.mpr (.inr ⟨hkey, rfl, rfl⟩)⟩
        rw [← hholders] at hpos
        exact Nat.one_le_iff_ne_zero.mpr fun hzero => hpos (by rw [hzero, Nat.cast_zero])
      · exact h.entries k e he
  · obtain ⟨hentries, hheld⟩ := tables_add_of_not_tracked (p := p) (d := d) hkey
    exact h.of_tables hentries hheld fun k d' => by simp [held_concat_add, hkey]

theorem Balanced.get (h : Balanced calls p) (key : String) :
    Balanced (calls ++ [.get key]) p :=
  h.of_tables rfl rfl fun _ _ => held_concat_get

theorem Balanced.mem_names_heldBy_iff (h : Balanced calls p) :
    key ∈ NameMap.names (p.heldBy d) ↔ Held calls key d := by
  rw [NameMap.mem_names_iff, h.held]

theorem Balanced.clear (h : Balanced calls p) (d : DocumentId) :
    Balanced (calls ++ [.clear d]) (p.clear d).1 := by
  have hless : ∀ (e : PoolEntry), e.less?.elim 0 (·.holders) = e.holders - 1 := by
    intro e
    unfold PoolEntry.less?
    split
    · next hzero => rw [hzero, Option.elim_none]
    · rfl
  refine ⟨fun d' k => ?_, fun name keys hkeys => ?_, fun k => ?_, fun k e he => ?_⟩
  · rw [clear_fst, heldBy_release, held_concat_clear]
    split
    · next hd => simp [hd, NameMap.contains]
    · next hd => simp [hd, h.held]
  · rw [clear_fst] at hkeys
    change (NameMap.erase _ _).get? name = _ at hkeys
    rw [NameMap.get?_erase] at hkeys
    split at hkeys
    · cases hkeys
    · exact h.documents name keys hkeys
  · rw [holdersOf, get?_entries_clear]
    simp only [h.mem_names_heldBy_iff]
    by_cases hd : Held calls k d
    · have hsdiff : {d' | Held (calls ++ [.clear d]) k d'} = {d' | Held calls k d'} \ {d} := by
        ext d'
        simp [held_concat_clear]
      have hmem : d ∈ {d' | Held calls k d'} := hd
      rw [if_pos hd, hsdiff, Set.encard_sdiff_singleton_of_mem hmem, ← h.holders, holdersOf]
      cases p.entries.get? k with
      | none => simp
      | some e => simp [hless]
    · have hsame : {d' | Held (calls ++ [.clear d]) k d'} = {d' | Held calls k d'} := by
        refine Set.ext fun d' => held_concat_clear.trans ?_
        exact and_iff_left_of_imp fun hd' hdd => hd (hdd ▸ hd')
      rw [if_neg hd, hsame, ← h.holders, holdersOf]
  · rw [get?_entries_clear] at he
    split at he
    · obtain ⟨e', he', hless'⟩ := Option.bind_eq_some_iff.mp he
      unfold PoolEntry.less? at hless'
      split at hless'
      · cases hless'
      · next hne =>
        cases hless'
        exact ⟨(h.entries k e' he').1, Nat.one_le_iff_ne_zero.mpr hne⟩
    · exact h.entries k e he

theorem balanced_run (calls : List Call) : Balanced calls (run calls) := by
  induction calls using List.reverseRecOn with
  | nil => exact .start
  | append_singleton calls c ih =>
    rw [run_concat]
    cases c with
    | add key d => exact ih.add key d
    | get key => exact ih.get key
    | clear d => exact ih.clear d

theorem Balanced.contains_entries_iff (h : Balanced calls p) :
    p.entries.contains key = true ↔ ∃ d, Held calls key d := by
  have hcount : p.entries.contains key = true ↔ p.holdersOf key ≠ 0 := by
    rw [NameMap.contains, holdersOf]
    cases he : p.entries.get? key with
    | none => simp
    | some e => simp [Nat.one_le_iff_ne_zero.mp (h.entries key e he).2]
  rw [hcount, ← Nat.cast_ne_zero (R := ℕ∞), h.holders, Set.encard_ne_zero]
  rfl

theorem encard_mem_names {α : Type} (m : NameMap α) :
    {name | name ∈ m.names}.encard = m.size := by
  have hcoe : {name | name ∈ m.names} = ↑m.names.toFinset := by
    ext name
    simp
  rw [hcoe, Set.encard_coe_eq_coe_finsetCard, List.toFinset_card_of_nodup m.nodup_names,
    m.length_names]

theorem Balanced.mem_names_held_iff (h : Balanced calls p) :
    d.text ∈ p.held.names ↔ ∃ key, Held calls key d := by
  rw [NameMap.mem_names_iff, NameMap.contains, Option.isSome_iff_exists]
  constructor
  · rintro ⟨keys, hkeys⟩
    obtain ⟨key, hkey⟩ := h.documents d.text keys hkeys
    refine ⟨key, (h.held d key).mp ?_⟩
    rwa [heldBy, hkeys, Option.getD_some]
  · rintro ⟨key, hkey⟩
    rw [← h.held, heldBy] at hkey
    cases hkeys : p.held.get? d.text with
    | none => simp [hkeys, NameMap.contains] at hkey
    | some keys => exact ⟨keys, rfl⟩

/-- The pool answers, and counts, as the documents hold. -/
structure Reflects (calls : List Call) (p : StringPool) : Prop where
  isSome_get? : ∀ key, key ≠ "" → ((p.get? key).isSome = true ↔ ∃ d, Held calls key d)
  text_get? : ∀ key s, p.get? key = some s → s.text = key
  count : (p.count : ℕ∞) = {key | ∃ d, Held calls key d}.encard
  documentCount : (p.documentCount : ℕ∞) = {d | ∃ key, Held calls key d}.encard
  holders : ∀ key e, p.entries.get? key = some e →
    1 ≤ e.holders ∧ (e.holders : ℕ∞) = {d | Held calls key d}.encard

theorem Balanced.reflects (h : Balanced calls p) : Reflects calls p where
  isSome_get? key hkey := by
    rw [get?, if_neg hkey, Option.isSome_map, ← h.contains_entries_iff, NameMap.contains]
  text_get? key s hs := by
    unfold get? at hs
    split at hs
    · next hkey =>
      obtain rfl := Option.some.inj hs
      exact hkey.symm
    · obtain ⟨e, he, rfl⟩ := Option.map_eq_some_iff.mp hs
      exact (h.entries key e he).1
  count := by
    have hkeys : {key | ∃ d, Held calls key d} = {key | key ∈ p.entries.names} := by
      ext key
      exact h.contains_entries_iff.symm.trans (NameMap.mem_names_iff _ _).symm
    rw [hkeys, encard_mem_names, count]
  documentCount := by
    have hdocuments : {d | ∃ key, Held calls key d} =
        DocumentId.mk '' {name | name ∈ p.held.names} := by
      ext d
      rw [Set.mem_image]
      constructor
      · exact fun hd => ⟨d.text, h.mem_names_held_iff.mpr hd, rfl⟩
      · rintro ⟨name, hname, rfl⟩
        exact h.mem_names_held_iff.mp hname
    have hinjective : Function.Injective DocumentId.mk := fun _ _ => congrArg DocumentId.text
    rw [hdocuments, hinjective.encard_image, encard_mem_names, documentCount]
  holders key e he := by
    refine ⟨(h.entries key e he).2, ?_⟩
    rw [← h.holders, holdersOf, he, Option.elim_some]

structure Reading where
  texts : String → Option String
  count : Nat
  documentCount : Nat
  holders : String → Option Nat

def reading (p : StringPool) : Reading where
  texts key := (p.get? key).map (·.text)
  count := p.count
  documentCount := p.documentCount
  holders key := (p.entries.get? key).map (·.holders)

theorem Balanced.holders_reading (h : Balanced calls p) :
    p.reading.holders key = if p.holdersOf key = 0 then none else some (p.holdersOf key) := by
  change (p.entries.get? key).map (·.holders) = _
  rw [holdersOf]
  cases he : p.entries.get? key with
  | none => rfl
  | some e => simp [Nat.one_le_iff_ne_zero.mp (h.entries key e he).2]

theorem Balanced.texts_reading (h : Balanced calls p) :
    p.reading.texts key = if key = "" ∨ p.holdersOf key ≠ 0 then some key else none := by
  change (p.get? key).map (·.text) = _
  rw [get?, holdersOf]
  by_cases hkey : key = ""
  · simp [hkey, PooledString.empty]
  · cases he : p.entries.get? key with
    | none => simp [hkey]
    | some e =>
      obtain ⟨htext, hpos⟩ := h.entries key e he
      simp [hkey, htext, Nat.one_le_iff_ne_zero.mp hpos]

/-- Pools in which the same is held read the same. -/
theorem Balanced.reading_eq {calls' : List Call} {p' : StringPool} (h : Balanced calls p)
    (h' : Balanced calls' p') (hsame : Held calls' = Held calls) : p'.reading = p.reading := by
  have hholders : p'.holdersOf = p.holdersOf := by
    funext key
    rw [← ENat.natCast_inj, h.holders, h'.holders, hsame]
  have hcount : p'.reading.count = p.reading.count := by
    rw [← ENat.natCast_inj]
    exact (hsame ▸ h'.reflects.count).trans h.reflects.count.symm
  have hdocuments : p'.reading.documentCount = p.reading.documentCount := by
    rw [← ENat.natCast_inj]
    exact (hsame ▸ h'.reflects.documentCount).trans h.reflects.documentCount.symm
  have htexts : p'.reading.texts = p.reading.texts := by
    funext key
    rw [h'.texts_reading, h.texts_reading, hholders]
  have hcounts : p'.reading.holders = p.reading.holders := by
    funext key
    rw [h'.holders_reading, h.holders_reading, hholders]
  rw [Reading.mk.injEq]
  exact ⟨htexts, hcount, hdocuments, hcounts⟩

/-- Whatever documents ask for, and in whatever order a clear visits what it lets go of: the pool
answers for exactly the keys that are held, and counts keys, documents and the holders of each key
exactly. A clear takes a holder only from an entry that has one. And the pool reads the same after
any other calls in which each document asks for the same, in its own order. -/
theorem reaches_reflects (h : Reaches calls p) :
    Reflects calls p ∧
      (∀ d visited key rest, (visited ++ key :: rest).Perm (NameMap.names (p.heldBy d)) →
        ∃ e, (visited.foldl drop p.entries).get? key = some e ∧ 1 ≤ e.holders) ∧
      ∀ calls' p', Reaches calls' p' →
        (∀ d, Call.ofDocument d calls' = Call.ofDocument d calls) → p'.reading = p.reading := by
  obtain rfl := reaches_iff.mp h
  have hbalanced := balanced_run calls
  refine ⟨hbalanced.reflects, fun d visited key rest hperm => ?_, fun calls' p' h' hown => ?_⟩
  · have hnodup : (visited ++ key :: rest).Nodup :=
      hperm.nodup_iff.mpr (NameMap.nodup_names _)
    have hkey : Held calls key d :=
      hbalanced.mem_names_heldBy_iff.mp (hperm.mem_iff.mp (by simp))
    obtain ⟨hvisited, _, hdisjoint⟩ := List.nodup_append.mp hnodup
    have hnew : key ∉ visited := fun hmem => hdisjoint key hmem key List.mem_cons_self rfl
    obtain ⟨e, he⟩ := Option.isSome_iff_exists.mp (hbalanced.contains_entries_iff.mpr ⟨d, hkey⟩)
    refine ⟨e, ?_, (hbalanced.entries key e he).2⟩
    rw [get?_foldl_drop hvisited, if_neg hnew, he]
  · obtain rfl := reaches_iff.mp h'
    refine hbalanced.reading_eq (balanced_run calls') (funext₂ fun key d => propext ?_)
    rw [← held_ofDocument, hown, held_ofDocument]

def shared : List Call :=
  [.add "a" ⟨"x"⟩, .add "b" ⟨"y"⟩, .add "a" ⟨"y"⟩, .clear ⟨"x"⟩, .add "c" ⟨"x"⟩, .add "c" ⟨"x"⟩]

def sharedApart : List Call :=
  [.add "b" ⟨"y"⟩, .add "a" ⟨"y"⟩, .add "a" ⟨"x"⟩, .clear ⟨"x"⟩, .add "c" ⟨"x"⟩, .add "c" ⟨"x"⟩]

theorem reaches_reflects_shared :
    let p := (run shared).release ⟨"y"⟩ ["b", "a"]
    Reaches (shared ++ [.clear ⟨"y"⟩]) p ∧ Reflects (shared ++ [.clear ⟨"y"⟩]) p ∧
      p.count = 1 ∧ (run (sharedApart ++ [.clear ⟨"y"⟩])).reading = p.reading := by
  intro p
  have hperm : ["b", "a"].Perm (NameMap.names ((run shared).heldBy ⟨"y"⟩)) := by decide +kernel
  have hreaches : Reaches (shared ++ [.clear ⟨"y"⟩]) p := (reaches_iff.mpr rfl).clear hperm
  have hown : ∀ d, Call.ofDocument d (sharedApart ++ [.clear ⟨"y"⟩]) =
      Call.ofDocument d (shared ++ [.clear ⟨"y"⟩]) := by
    intro d
    by_cases hx : (⟨"x"⟩ : DocumentId) = d
    · subst hx
      decide
    · by_cases hy : (⟨"y"⟩ : DocumentId) = d
      · subst hy
        decide
      · simp [Call.ofDocument, Call.document?, shared, sharedApart, hx, hy]
  obtain ⟨hreflects, _, hread⟩ := reaches_reflects hreaches
  exact ⟨hreaches, hreflects, by decide +kernel, hread _ _ (reaches_iff.mpr rfl) hown⟩

end StringPool

end BuildItems
