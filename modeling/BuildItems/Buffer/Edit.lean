/-!
# Edits of a list

An edit says what becomes of a list and of the buffer that holds it: nothing, new contents, or
emptied in favour of a fresh buffer. The edits below leave a list alone where nothing in it would
change. A rule that decides element by element sees each once, in order, and may carry a state
from one to the next.
-/

namespace BuildItems

inductive Edit (α : Type) where
  | keep
  | write (contents : List α)
  | reset
  deriving DecidableEq, Inhabited

namespace Edit

variable {α σ : Type}

def apply : Edit α → List α → List α
  | keep, xs => xs
  | write contents, _ => contents
  | reset, _ => []

def isEffective : Edit α → Bool
  | keep => false
  | _ => true

def push (xs : List α) (x : α) : Edit α := .write (xs ++ [x])

def extend (xs added : List α) : Edit α := if added.isEmpty then .keep else .write (xs ++ added)

@[simp]
theorem apply_extend (xs added : List α) : (extend xs added).apply xs = xs ++ added := by
  cases added <;> simp [extend, apply]

def firstRemoved (rule : α → StateM σ Bool) : List α → StateM σ (Option Nat)
  | [] => pure none
  | x :: xs => do
    if ← rule x then
      let place ← firstRemoved rule xs
      pure (place.map (· + 1))
    else
      pure (some 0)

/-- The elements from a place on that stay, once the place of the first that goes is known: up to
there the rule has given its answers. -/
def keepFrom (rule : α → StateM σ Bool) (first : Nat) : Nat → List α → StateM σ (List α)
  | _, [] => pure []
  | index, x :: xs => do
    let kept ← if index < first then pure true else if index = first then pure false else rule x
    let rest ← keepFrom rule first (index + 1) xs
    pure (if kept then x :: rest else rest)

/-- Nothing is collected unless an element goes. -/
def retain (rule : α → StateM σ Bool) (xs : List α) : StateM σ (Edit α) := do
  match ← firstRemoved rule xs with
  | none => pure .keep
  | some first =>
    let kept ← keepFrom rule first 0 xs
    pure (.write kept)

def select (rule : α → StateM σ Bool) : List α → StateM σ (List α)
  | [] => pure []
  | x :: xs => do
    let kept ← rule x
    let rest ← select rule xs
    pure (if kept then x :: rest else rest)

/-- Only the distance from the first element that goes counts. -/
theorem keepFrom_succ (rule : α → StateM σ Bool) (first index : Nat) (xs : List α) :
    keepFrom rule (first + 1) (index + 1) xs = keepFrom rule first index xs := by
  induction xs generalizing index with
  | nil => rfl
  | cons x xs ih => simp only [keepFrom, ih, Nat.add_lt_add_iff_right, Nat.add_right_cancel_iff]

theorem keepFrom_of_lt (rule : α → StateM σ Bool) {first index : Nat} (h : first < index)
    (xs : List α) : keepFrom rule first index xs = select rule xs := by
  induction xs generalizing index with
  | nil => rfl
  | cons x xs ih =>
    simp only [keepFrom, select, ih (Nat.lt_add_right 1 h), Nat.not_lt_of_gt h, Nat.ne_of_gt h,
      if_false]

/-- Looking for the first element that goes asks the rule nothing twice. -/
theorem select_eq_firstRemoved (rule : α → StateM σ Bool) (xs : List α) :
    select rule xs =
      (firstRemoved rule xs >>= fun place =>
        place.elim (pure xs) fun first => keepFrom rule first 0 xs) := by
  induction xs with
  | nil => rfl
  | cons x xs ih =>
    rw [select, firstRemoved, bind_assoc]
    refine bind_congr fun kept => ?_
    cases kept with
    | false => simp [keepFrom, keepFrom_of_lt rule Nat.zero_lt_one]
    | true =>
      simp only [ih, bind_assoc, pure_bind, if_true]
      refine bind_congr fun place => ?_
      cases place with
      | none => simp
      | some first => simp [keepFrom, keepFrom_succ]

/-- A retained list is what one pass of the rule keeps, and the rule ends in the same state. -/
theorem apply_retain (rule : α → StateM σ Bool) (xs : List α) :
    (retain rule xs >>= fun e => pure (e.apply xs)) = select rule xs := by
  rw [select_eq_firstRemoved, retain, bind_assoc]
  refine bind_congr fun place => ?_
  cases place with
  | none => rfl
  | some first => simp [apply]

def replacements (rule : α → StateM σ (Option α)) : Nat → List α → StateM σ (List (Nat × α))
  | _, [] => pure []
  | index, x :: xs => do
    let new ← rule x
    let rest ← replacements rule (index + 1) xs
    match new with
    | some y => pure ((index, y) :: rest)
    | none => pure rest

def setAll (xs : List α) (placed : List (Nat × α)) : List α :=
  placed.foldl (fun ys p => ys.set p.1 p.2) xs

/-- Nothing is written unless an element is replaced. -/
def replaceWhere (rule : α → StateM σ (Option α)) (xs : List α) : StateM σ (Edit α × Nat) := do
  let placed ← replacements rule 0 xs
  pure (if placed.isEmpty then .keep else .write (setAll xs placed), placed.length)

def substitute (rule : α → StateM σ (Option α)) : List α → StateM σ (List α × Nat)
  | [] => pure ([], 0)
  | x :: xs => do
    let new ← rule x
    let (rest, count) ← substitute rule xs
    match new with
    | some y => pure (y :: rest, count + 1)
    | none => pure (x :: rest, count)

theorem replacements_succ (rule : α → StateM σ (Option α)) (index : Nat) (xs : List α) :
    replacements rule (index + 1) xs =
      (replacements rule index xs >>= fun placed => pure (placed.map (Prod.map (· + 1) id))) := by
  induction xs generalizing index with
  | nil => rfl
  | cons x xs ih =>
    rw [replacements, replacements, bind_assoc]
    refine bind_congr fun new => ?_
    rw [ih, bind_assoc, bind_assoc]
    refine bind_congr fun rest => ?_
    cases new <;> simp

theorem setAll_cons (x : α) (xs : List α) (placed : List (Nat × α)) :
    setAll (x :: xs) (placed.map (Prod.map (· + 1) id)) = x :: setAll xs placed := by
  induction placed generalizing xs with
  | nil => rfl
  | cons p placed ih => exact ih (xs.set p.1 p.2)

/-- Writing each new element to its place is the same as replacing on the way. -/
theorem substitute_eq_replacements (rule : α → StateM σ (Option α)) (xs : List α) :
    substitute rule xs =
      (replacements rule 0 xs >>= fun placed => pure (setAll xs placed, placed.length)) := by
  induction xs with
  | nil => rfl
  | cons x xs ih =>
    rw [substitute, replacements, bind_assoc]
    refine bind_congr fun new => ?_
    rw [ih, replacements_succ]
    simp only [bind_assoc, pure_bind]
    refine bind_congr fun placed => ?_
    cases new with
    | none => simp [setAll_cons]
    | some y =>
      have hset : setAll (x :: xs) ((0, y) :: placed.map (Prod.map (· + 1) id)) =
          y :: setAll xs placed := setAll_cons y xs placed
      simp [hset]

theorem apply_replaceWhere (rule : α → StateM σ (Option α)) (xs : List α) :
    (replaceWhere rule xs >>= fun r => pure (r.1.apply xs, r.2)) = substitute rule xs := by
  rw [substitute_eq_replacements, replaceWhere, bind_assoc]
  refine bind_congr fun placed => ?_
  cases placed <;> rfl

def filter (p : α → Bool) (xs : List α) : Edit α :=
  ((retain (fun x => pure (p x)) xs).run ()).1

def update (f : α → Option α) (xs : List α) : Edit α × Nat :=
  ((replaceWhere (fun x => pure (f x)) xs).run ()).1

theorem select_pure (p : α → Bool) (xs : List α) :
    (select (fun x => (pure (p x) : StateM Unit Bool)) xs).run () = (xs.filter p, ()) := by
  induction xs with
  | nil => rfl
  | cons x xs ih =>
    simp only [select, StateT.run_bind, StateT.run_pure, pure_bind, ih]
    by_cases hx : p x = true
    · simp only [hx, if_true, List.filter_cons_of_pos]
      rfl
    · simp only [hx, if_false, List.filter_cons_of_neg, not_false_eq_true, Bool.false_eq_true]
      rfl

@[simp]
theorem apply_filter (p : α → Bool) (xs : List α) : (filter p xs).apply xs = xs.filter p :=
  congrArg (fun m : StateM Unit (List α) => (m.run ()).1)
    (apply_retain (fun x => (pure (p x) : StateM Unit Bool)) xs) |>.trans
      (congrArg Prod.fst (select_pure p xs))

theorem substitute_pure (f : α → Option α) (xs : List α) :
    (substitute (fun x => (pure (f x) : StateM Unit (Option α))) xs).run () =
      ((xs.map fun x => (f x).getD x, xs.countP fun x => (f x).isSome), ()) := by
  induction xs with
  | nil => rfl
  | cons x xs ih =>
    simp only [substitute, StateT.run_bind, pure_bind, ih]
    cases hx : f x <;> simp [hx] <;> rfl

@[simp]
theorem apply_update (f : α → Option α) (xs : List α) :
    (update f xs).1.apply xs = xs.map fun x => (f x).getD x :=
  congrArg (fun m : StateM Unit (List α × Nat) => (m.run ()).1.1)
    (apply_replaceWhere (fun x => (pure (f x) : StateM Unit (Option α))) xs) |>.trans
      (congrArg (·.1.1) (substitute_pure f xs))

end Edit

end BuildItems
