import BuildItems.Buffer.Store

/-!
# One pass of a rule

A rule that keeps or replaces elements may have a state of its own. Then it matters which elements
it is asked about, in which order and how often. A pass asks about one element after another, each
time in the state that the rule was left in. Retaining and replacing are one pass over the list,
although the list is gone through twice.
-/

namespace BuildItems

variable {α β σ : Type} {s t : σ}

/-- The calls of a rule from a state to a state: the elements it is asked about, with its answers. -/
inductive Pass (rule : α → StateM σ β) : σ → List (α × β) → σ → Prop where
  | nil (s : σ) : Pass rule s [] s
  | cons {s t u : σ} {x : α} {answer : β} {calls : List (α × β)}
      (call : (rule x).run s = (answer, t)) (rest : Pass rule t calls u) :
      Pass rule s ((x, answer) :: calls) u

def recorded (rule : α → StateM σ β) (x : α) : StateM (σ × List (α × β)) β := do
  let (s, calls) ← get
  let (answer, t) := (rule x).run s
  set (t, calls ++ [(x, answer)])
  pure answer

theorem exists_pass (rule : α → StateM σ β) (xs : List α) (s : σ) :
    ∃ calls t, Pass rule s calls t ∧ calls.map (·.1) = xs := by
  induction xs generalizing s with
  | nil => exact ⟨[], s, .nil s, rfl⟩
  | cons x xs ih =>
    obtain ⟨calls, t, hpass, hxs⟩ := ih ((rule x).run s).2
    exact ⟨(x, ((rule x).run s).1) :: calls, t, .cons rfl hpass, congrArg (x :: ·) hxs⟩

theorem Pass.recorded {rule : α → StateM σ β} {calls : List (α × β)} (h : Pass rule s calls t)
    (before : List (α × β)) :
    Pass (recorded rule) (s, before) calls (t, before ++ calls) := by
  induction h generalizing before with
  | nil s =>
    rw [List.append_nil]
    exact .nil _
  | @cons s t u x answer calls call rest ih =>
    have hrest := ih (before ++ [(x, answer)])
    rw [List.append_assoc] at hrest
    refine .cons ?_ hrest
    change (((rule x).run s).1, ((rule x).run s).2, before ++ [(x, ((rule x).run s).1)]) = _
    rw [call]

def kept (calls : List (α × Bool)) : List α := (calls.filter (·.2)).map (·.1)

namespace Edit

theorem run_select_cons (rule : α → StateM σ Bool) (x : α) (xs : List α) (s : σ) :
    (select rule (x :: xs)).run s =
      let answer := (rule x).run s
      let rest := (select rule xs).run answer.2
      (if answer.1 then x :: rest.1 else rest.1, rest.2) := rfl

theorem run_firstRemoved_cons (rule : α → StateM σ Bool) (x : α) (xs : List α) (s : σ) :
    (firstRemoved rule (x :: xs)).run s =
      let answer := (rule x).run s
      if answer.1 then
        let rest := (firstRemoved rule xs).run answer.2
        (rest.1.map (· + 1), rest.2)
      else (some 0, answer.2) := by
  rw [firstRemoved, StateT.run_bind]
  change (if ((rule x).run s).1 = true then _ else _ : StateM σ _).run _ = _
  dsimp only
  split <;> rfl

theorem run_retain (rule : α → StateM σ Bool) (xs : List α) (s : σ) :
    (retain rule xs).run s =
      let place := (firstRemoved rule xs).run s
      place.1.elim (.keep, place.2) fun first =>
        let rest := (keepFrom rule first 0 xs).run place.2
        (.write rest.1, rest.2) := by
  rw [retain, StateT.run_bind]
  rcases (firstRemoved rule xs).run s with ⟨_ | first, t⟩ <;> rfl

end Edit

namespace Pass

section Keeping

variable {rule : α → StateM σ Bool} {calls : List (α × Bool)}

theorem run_select (h : Pass rule s calls t) :
    (Edit.select rule (calls.map (·.1))).run s = (kept calls, t) := by
  induction h with
  | nil s => rfl
  | @cons s t u x answer calls call rest ih =>
    rw [List.map_cons, Edit.run_select_cons, call]
    dsimp only
    rw [ih]
    cases answer <;> rfl

theorem run_firstRemoved (h : Pass rule s calls t) :
    ((Edit.firstRemoved rule (calls.map (·.1))).run s).1 = calls.findIdx? (!·.2) := by
  induction h with
  | nil s => rfl
  | @cons s t u x answer calls call rest ih =>
    rw [List.map_cons, Edit.run_firstRemoved_cons, call, List.findIdx?_cons]
    cases answer with
    | false => rfl
    | true => exact congrArg (Option.map (· + 1)) ih

theorem apply_retain (h : Pass rule s calls t) :
    let retained := (Edit.retain rule (calls.map (·.1))).run s
    (retained.1.apply (calls.map (·.1)), retained.2) = (kept calls, t) :=
  (congrArg (·.run s) (Edit.apply_retain rule _)).trans h.run_select

theorem run_retain (h : Pass rule s calls t) :
    (Edit.retain rule (calls.map (·.1))).run s =
      (if calls.all (·.2) then .keep else .write (kept calls), t) := by
  have happly := h.apply_retain
  have hfirst := h.run_firstRemoved
  dsimp only at happly
  rw [Edit.run_retain] at happly ⊢
  generalize (Edit.firstRemoved rule (calls.map (·.1))).run s = place at happly hfirst ⊢
  obtain ⟨_ | first, u⟩ := place
  · have hall := List.findIdx?_eq_none_iff.mp hfirst.symm
    rw [if_pos (by simpa using hall)]
    exact congrArg (Edit.keep, ·) (congrArg Prod.snd happly)
  · obtain ⟨hlt, hremoved, _⟩ := List.findIdx?_eq_some_iff_getElem.mp hfirst.symm
    rw [if_neg fun hall => by simp [List.all_eq_true.mp hall _ (List.getElem_mem hlt)] at hremoved]
    exact congrArg (fun r => (Edit.write r.1, r.2)) happly

end Keeping

end Pass

def renewed (calls : List (α × Option α)) : List α := calls.map fun c => c.2.getD c.1

namespace Edit

theorem run_replacements_cons (rule : α → StateM σ (Option α)) (index : Nat) (x : α) (xs : List α)
    (s : σ) :
    (replacements rule index (x :: xs)).run s =
      let new := (rule x).run s
      let rest := (replacements rule (index + 1) xs).run new.2
      (new.1.elim rest.1 fun y => (index, y) :: rest.1, rest.2) := by
  rw [replacements, StateT.run_bind]
  rcases (rule x).run s with ⟨_ | y, t⟩ <;> rfl

theorem run_replaceWhere (rule : α → StateM σ (Option α)) (xs : List α) (s : σ) :
    (replaceWhere rule xs).run s =
      let placed := (replacements rule 0 xs).run s
      ((if placed.1.isEmpty then .keep else .write (setAll xs placed.1), placed.1.length),
        placed.2) := rfl

theorem run_substitute_cons (rule : α → StateM σ (Option α)) (x : α) (xs : List α) (s : σ) :
    (substitute rule (x :: xs)).run s =
      let new := (rule x).run s
      let rest := (substitute rule xs).run new.2
      (new.1.elim (x :: rest.1.1, rest.1.2) fun y => (y :: rest.1.1, rest.1.2 + 1), rest.2) := by
  rw [substitute, StateT.run_bind]
  rcases (rule x).run s with ⟨_ | y, t⟩ <;> rfl

end Edit

namespace Pass

section Replacing

variable {rule : α → StateM σ (Option α)} {calls : List (α × Option α)}

/-- Each new element has a place in the list. -/
theorem place_lt (h : Pass rule s calls t) {index : Nat} {p : Nat × α}
    (hp : p ∈ ((Edit.replacements rule index (calls.map (·.1))).run s).1) :
    p.1 < index + calls.length := by
  induction h generalizing index with
  | nil s => cases hp
  | @cons s t u x answer calls call rest ih =>
    rw [List.map_cons, Edit.run_replacements_cons, call] at hp
    rw [List.length_cons, Nat.add_comm calls.length, ← Nat.add_assoc]
    cases answer with
    | none => exact ih hp
    | some y =>
      rcases List.mem_cons.mp hp with rfl | hp
      · exact Nat.lt_add_right _ (Nat.lt_add_one index)
      · exact ih hp

theorem run_substitute (h : Pass rule s calls t) :
    (Edit.substitute rule (calls.map (·.1))).run s =
      ((renewed calls, calls.countP (·.2.isSome)), t) := by
  induction h with
  | nil s => rfl
  | @cons s t u x answer calls call rest ih =>
    rw [List.map_cons, Edit.run_substitute_cons, call]
    dsimp only
    rw [ih]
    cases answer with
    | none => simp [renewed]
    | some y => simp [renewed]

theorem apply_replaceWhere (h : Pass rule s calls t) :
    let replaced := (Edit.replaceWhere rule (calls.map (·.1))).run s
    ((replaced.1.1.apply (calls.map (·.1)), replaced.1.2), replaced.2) =
      ((renewed calls, calls.countP (·.2.isSome)), t) :=
  (congrArg (·.run s) (Edit.apply_replaceWhere rule _)).trans h.run_substitute

theorem run_replaceWhere (h : Pass rule s calls t) :
    (Edit.replaceWhere rule (calls.map (·.1))).run s =
      let count := calls.countP (·.2.isSome)
      ((if count = 0 then .keep else .write (renewed calls), count), t) := by
  have happly := h.apply_replaceWhere
  dsimp only at happly ⊢
  rw [Edit.run_replaceWhere] at happly ⊢
  generalize (Edit.replacements rule 0 (calls.map (·.1))).run s = placed at happly ⊢
  obtain ⟨hfst, hstate⟩ := Prod.mk.inj happly
  obtain ⟨hlist, hcount⟩ := Prod.mk.inj hfst
  rw [← hlist, ← hcount, ← hstate]
  rcases placed with ⟨_ | ⟨p, placed⟩, u⟩ <;> rfl

end Replacing

end Pass

namespace Store

/-- A rule that keeps or replaces is asked about each element of a builder's list once, in order,
each time in the state that it was left in, as the record of its calls shows. The builder then
reads the elements that the rule said to keep, or the list with each element in its place replaced
by what the rule gave for it, and the replaced ones are counted. No new element is put outside the
list. -/
theorem each_element_asked_once (store : Store α) (buffer : Nat) (s : σ) :
    (∀ rule : α → StateM σ Bool, ∃ (calls : List (α × Bool)) (t : σ) (e : Edit α),
      Pass rule s calls t ∧ calls.map (·.1) = store.contents buffer ∧
      (Edit.retain rule (store.contents buffer)).run s = (e, t) ∧
      (Edit.retain (recorded rule) (store.contents buffer)).run (s, []) = (e, t, calls) ∧
      (store.edit buffer e).2.contents (store.edit buffer e).1 = kept calls) ∧
    ∀ rule : α → StateM σ (Option α), ∃ (calls : List (α × Option α)) (t : σ) (e : Edit α),
      let count := calls.countP (·.2.isSome)
      Pass rule s calls t ∧ calls.map (·.1) = store.contents buffer ∧
      (∀ p ∈ ((Edit.replacements rule 0 (store.contents buffer)).run s).1,
        p.1 < (store.contents buffer).length) ∧
      (Edit.replaceWhere rule (store.contents buffer)).run s = ((e, count), t) ∧
      (Edit.replaceWhere (recorded rule) (store.contents buffer)).run (s, []) =
        ((e, count), t, calls) ∧
      (store.edit buffer e).2.contents (store.edit buffer e).1 = renewed calls := by
  simp only [contents_edit]
  refine ⟨fun rule => ?_, fun rule => ?_⟩
  · obtain ⟨calls, t, hpass, hcalls⟩ := exists_pass rule (store.contents buffer) s
    have happly := congrArg Prod.fst hpass.apply_retain
    rw [hpass.run_retain] at happly
    rw [← hcalls]
    exact ⟨calls, t, _, hpass, rfl, hpass.run_retain, (hpass.recorded []).run_retain, happly⟩
  · obtain ⟨calls, t, hpass, hcalls⟩ := exists_pass rule (store.contents buffer) s
    have happly := congrArg (·.1.1) hpass.apply_replaceWhere
    dsimp only at happly
    rw [hpass.run_replaceWhere] at happly
    rw [← hcalls]
    refine ⟨calls, t, _, hpass, rfl, fun p hp => ?_, hpass.run_replaceWhere,
      (hpass.recorded []).run_replaceWhere, happly⟩
    rw [List.length_map, ← Nat.zero_add calls.length]
    exact hpass.place_lt hp

/-- Both rules answer by the number of the call, and not by the element. -/
theorem each_element_asked_once_alternating :
    let store : Store Nat := (empty.allocate [5, 6, 7, 8]).2
    let keeps : Nat → StateM Nat Bool := fun _ n => (n % 2 == 0, n + 1)
    let renews : Nat → StateM Nat (Option Nat) := fun x n =>
      (if n % 2 = 0 then none else some (x + 10), n + 1)
    (Edit.retain (recorded keeps) (store.contents 0)).run (0, []) =
      (.write [5, 7], 4, [(5, true), (6, false), (7, true), (8, false)]) ∧
    (Edit.replaceWhere renews (store.contents 0)).run 0 = ((.write [5, 16, 7, 18], 2), 4) ∧
    (3, 18) ∈ ((Edit.replacements renews 0 (store.contents 0)).run 0).1 ∧
      3 < (store.contents 0).length := by
  intro store keeps renews
  have hmem : (3, 18) ∈ ((Edit.replacements renews 0 (store.contents 0)).run 0).1 := by decide
  obtain ⟨_, _, _, _, _, hplace, _⟩ := (each_element_asked_once store 0 0).2 renews
  exact ⟨rfl, rfl, hmem, hplace _ hmem⟩

end Store

end BuildItems
