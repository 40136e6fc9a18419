import BuildItems.StringPool
import Mathlib.Data.List.Perm.Basic

/-!
# What a call does to the pool

The two tables after a call, look-up by look-up. An add finds or makes the entry of its key, and
gives it one holder more if the document is new to it. A clear takes one holder from the entry of
each key it visits; the order of the visits makes no difference.
-/

namespace BuildItems

def PoolEntry.less? (e : PoolEntry) : Option PoolEntry :=
  if e.holders - 1 = 0 then none else some { e with holders := e.holders - 1 }

namespace StringPool

variable {p : StringPool} {key k : String} {d d' : DocumentId} {e : PoolEntry}

/-- Strings that are shared and counted. -/
def Tracked (key : String) : Prop := key ≠ "" ∧ isGenerated key = false

instance (key : String) : Decidable (Tracked key) := inferInstanceAs (Decidable (_ ∧ _))

theorem ensure_of_some (h : p.entries.get? key = some e) : p.ensure key = (e, p) := by
  rw [ensure, h]

theorem ensure_of_none (h : p.entries.get? key = none) :
    p.ensure key =
      (⟨⟨key, p.nextInstance⟩, 0⟩,
        { p with
          entries := p.entries.insert key ⟨⟨key, p.nextInstance⟩, 0⟩
          nextInstance := p.nextInstance + 1 }) := by
  rw [ensure, h]

theorem get?_entries_ensure (p : StringPool) (key k : String) :
    (p.ensure key).2.entries.get? k =
      if k = key then some (p.ensure key).1 else p.entries.get? k := by
  cases h : p.entries.get? key with
  | some e =>
    rw [ensure_of_some h]
    split
    · next hk => rw [hk, h]
    · rfl
  | none =>
    rw [ensure_of_none h]
    exact NameMap.get?_insert ..

theorem held_ensure (p : StringPool) (key : String) : (p.ensure key).2.held = p.held := by
  cases h : p.entries.get? key with
  | some e => rw [ensure_of_some h]
  | none => rw [ensure_of_none h]

theorem heldBy_ensure (p : StringPool) (key : String) (d : DocumentId) :
    (p.ensure key).2.heldBy d = p.heldBy d := by
  rw [heldBy, held_ensure, heldBy]

theorem add_of_tracked (h : Tracked key) :
    p.add key d = ((p.ensure key).1.string, (p.ensure key).2.hold key (p.ensure key).1 d) := by
  rw [add, if_neg h.1, h.2, if_neg Bool.false_ne_true]

theorem tables_add_of_not_tracked (h : ¬ Tracked key) :
    (p.add key d).2.entries = p.entries ∧ (p.add key d).2.held = p.held := by
  unfold add
  split
  · exact ⟨rfl, rfl⟩
  · next hne =>
    split
    · exact ⟨rfl, rfl⟩
    · next hgen => exact absurd ⟨hne, Bool.not_eq_true _ ▸ hgen⟩ h

def heldEntry (p : StringPool) (key : String) (d : DocumentId) : PoolEntry :=
  if NameMap.contains (p.heldBy d) key then (p.ensure key).1
  else { (p.ensure key).1 with holders := (p.ensure key).1.holders + 1 }

theorem get?_entries_add (h : Tracked key) (k : String) :
    (p.add key d).2.entries.get? k =
      if k = key then some (p.heldEntry key d) else p.entries.get? k := by
  rw [add_of_tracked h, hold, heldBy_ensure, heldEntry]
  split
  · exact get?_entries_ensure p key k
  · change NameMap.get? (NameMap.insert _ key _) k = _
    rw [NameMap.get?_insert, get?_entries_ensure]
    split <;> rfl

theorem string_heldEntry (p : StringPool) (key : String) (d : DocumentId) :
    (p.heldEntry key d).string = (p.ensure key).1.string := by
  unfold heldEntry
  split <;> rfl

theorem get?_held_add (h : Tracked key) (name : String) :
    (p.add key d).2.held.get? name =
      if name = d.text ∧ NameMap.contains (p.heldBy d) key = false then
        some ((p.heldBy d).add key)
      else p.held.get? name := by
  rw [add_of_tracked h, hold, heldBy_ensure]
  split
  · next hheld => simp [hheld, held_ensure]
  · next hheld =>
    change NameMap.get? (NameMap.insert _ d.text _) name = _
    rw [NameMap.get?_insert, held_ensure]
    simp [hheld]

theorem text_eq_text_iff : d'.text = d.text ↔ d' = d :=
  ⟨fun h => congrArg DocumentId.mk h, congrArg DocumentId.text⟩

theorem heldBy_add (h : Tracked key) (d' : DocumentId) :
    (p.add key d).2.heldBy d' = if d' = d then (p.heldBy d).add key else p.heldBy d' := by
  rw [heldBy, get?_held_add h]
  simp only [text_eq_text_iff]
  by_cases hd : d' = d
  · subst hd
    cases hheld : NameMap.contains (p.heldBy d') key with
    | true =>
      rw [if_neg (by simp), if_pos rfl, NameSet.add_of_contains hheld]
      rfl
    | false => simp
  · rw [if_neg fun h => hd h.1, if_neg hd]
    rfl

theorem contains_heldBy_add (h : Tracked key) (d' : DocumentId) (k : String) :
    NameMap.contains ((p.add key d).2.heldBy d') k = true ↔
      NameMap.contains (p.heldBy d') k = true ∨ k = key ∧ d' = d := by
  rw [heldBy_add h]
  by_cases hd : d' = d
  · subst hd
    simp [or_comm]
  · simp [hd]

def release (p : StringPool) (d : DocumentId) (visited : List String) : StringPool :=
  { p with entries := visited.foldl drop p.entries, held := p.held.erase d.text }

theorem clear_fst (p : StringPool) (d : DocumentId) :
    (p.clear d).1 = p.release d (NameMap.names (p.heldBy d)) := by
  unfold clear release heldBy
  cases h : p.held.get? d.text with
  | none =>
    rw [NameMap.erase_of_get?_eq_none h]
    rfl
  | some keys => rfl

theorem get?_drop (entries : NameMap PoolEntry) (key k : String) :
    (drop entries key).get? k =
      if k = key then (entries.get? key).bind PoolEntry.less? else entries.get? k := by
  cases h : entries.get? key with
  | none =>
    simp only [drop, h, Option.bind_none]
    split
    · next hk => rw [hk, h]
    · rfl
  | some e =>
    simp only [drop, h, Option.bind_some, PoolEntry.less?]
    split
    · exact NameMap.get?_erase ..
    · exact NameMap.get?_insert ..

theorem drop_right_comm (entries : NameMap PoolEntry) (key key' : String) :
    drop (drop entries key) key' = drop (drop entries key') key := by
  refine NameMap.eq_of_get? fun k => ?_
  by_cases h : key = key'
  · rw [h]
  · simp only [get?_drop, if_neg h, if_neg (Ne.symm h)]
    by_cases hk : k = key
    · simp [hk, h]
    · simp [hk]

instance : RightCommutative drop := ⟨drop_right_comm⟩

theorem get?_foldl_drop {visited : List String} (h : visited.Nodup)
    (entries : NameMap PoolEntry) (k : String) :
    (visited.foldl drop entries).get? k =
      if k ∈ visited then (entries.get? k).bind PoolEntry.less? else entries.get? k := by
  induction visited generalizing entries with
  | nil => simp
  | cons key rest ih =>
    obtain ⟨hkey, hrest⟩ := List.nodup_cons.mp h
    rw [List.foldl_cons, ih hrest, get?_drop]
    by_cases hk : k = key
    · subst hk
      simp [hkey]
    · simp [hk]

/-- The order in which a clear visits its keys cannot be told from the pool it leaves. -/
theorem release_of_perm {visited visited' : List String} (h : visited.Perm visited') :
    p.release d visited = p.release d visited' := by
  rw [release, release, h.foldl_eq]

theorem get?_entries_clear (p : StringPool) (d : DocumentId) (k : String) :
    (p.clear d).1.entries.get? k =
      if k ∈ NameMap.names (p.heldBy d) then (p.entries.get? k).bind PoolEntry.less?
      else p.entries.get? k := by
  rw [clear_fst]
  exact get?_foldl_drop (NameMap.nodup_names _) p.entries k

theorem heldBy_release (p : StringPool) (d d' : DocumentId) (visited : List String) :
    (p.release d visited).heldBy d' = if d' = d then ∅ else p.heldBy d' := by
  change ((NameMap.erase p.held d.text).get? d'.text).getD ∅ = _
  rw [NameMap.get?_erase]
  simp only [text_eq_text_iff]
  split <;> rfl

end StringPool

end BuildItems
