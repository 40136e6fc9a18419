import BuildItems.Proofs.Buffer.SinglePass

/-!
# Changes of a list

The changes that a builder makes to its list, each with the edit it amounts to and with what it
makes of a plain list. A change has an effect unless it adds, removes or replaces nothing; then,
and only then, its edit leaves the list in its buffer.
-/

namespace BuildItems

variable {α σ : Type}

/-- How the list of a builder is changed. A rule sees the elements in order, and may keep a state
that the rules of all changes share. -/
inductive Change (α σ : Type) where
  | push (x : α)
  | extend (added : List α)
  | clear
  | retain (rule : α → StateM σ Bool)
  | replaceWhere (rule : α → StateM σ (Option α))

namespace Change

def edit : Change α σ → List α → StateM σ (Edit α)
  | push x, xs => pure (.push xs x)
  | extend added, xs => pure (.extend xs added)
  | clear, _ => pure .reset
  | retain rule, xs => Edit.retain rule xs
  | replaceWhere rule, xs => Prod.fst <$> Edit.replaceWhere rule xs

def plain : Change α σ → List α → StateM σ (List α)
  | push x, xs => pure (xs ++ [x])
  | extend added, xs => pure (xs ++ added)
  | clear, _ => pure []
  | retain rule, xs => Edit.select rule xs
  | replaceWhere rule, xs => Prod.fst <$> Edit.substitute rule xs

def isEffective : Change α σ → List α → σ → Bool
  | push _, _, _ | clear, _, _ => true
  | extend added, _, _ => !added.isEmpty
  | retain rule, xs, s => ((Edit.select rule xs).run s).1.length < xs.length
  | replaceWhere rule, xs, s => 0 < ((Edit.substitute rule xs).run s).1.2

/-- The edit of a change makes of a list what the change makes of it. -/
theorem run_plain (c : Change α σ) (xs : List α) (s : σ) :
    (c.plain xs).run s = (((c.edit xs).run s).1.apply xs, ((c.edit xs).run s).2) := by
  cases c with
  | push x => rfl
  | extend added => exact congrArg (·, s) (Edit.apply_extend xs added).symm
  | clear => rfl
  | retain rule => exact congrArg (·.run s) (Edit.apply_retain rule xs).symm
  | replaceWhere rule =>
    exact congrArg (fun m : StateM σ (List α × Nat) => ((m.run s).1.1, (m.run s).2))
      (Edit.apply_replaceWhere rule xs).symm

theorem isEffective_edit (c : Change α σ) (xs : List α) (s : σ) :
    ((c.edit xs).run s).1.isEffective = c.isEffective xs s := by
  cases c with
  | push x => rfl
  | extend added => cases added <;> rfl
  | clear => rfl
  | retain rule =>
    obtain ⟨calls, t, hpass, rfl⟩ := exists_pass rule xs s
    change ((Edit.retain rule (calls.map (·.1))).run s).1.isEffective =
      decide (((Edit.select rule (calls.map (·.1))).run s).1.length < (calls.map (·.1)).length)
    rw [hpass.run_retain, hpass.run_select, kept, List.length_map, List.length_map]
    split
    · next hall =>
      rw [List.filter_eq_self.mpr (List.all_eq_true.mp hall)]
      simp [Edit.isEffective]
    · next hall =>
      simpa [Edit.isEffective, List.length_filter_lt_length_iff_exists] using hall
  | replaceWhere rule =>
    obtain ⟨calls, t, hpass, rfl⟩ := exists_pass rule xs s
    change ((Edit.replaceWhere rule (calls.map (·.1))).run s).1.1.isEffective =
      decide (0 < ((Edit.substitute rule (calls.map (·.1))).run s).1.2)
    rw [hpass.run_replaceWhere, hpass.run_substitute]
    dsimp only
    split
    · next hzero => simp [Edit.isEffective, hzero]
    · next hne => simp [Edit.isEffective, Nat.pos_of_ne_zero hne]

end Change

end BuildItems
