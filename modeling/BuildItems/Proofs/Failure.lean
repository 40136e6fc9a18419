import BuildItems.Error.Basic
import Mathlib.Data.List.Forall2

/-!
# Computations that may fail

A list of questions is asked in order and the first failure ends it. Whether all are answered, and
which failure comes first, is kept apart from what the answers are: where nothing fails, only the
answers are left to reason about.
-/

namespace BuildItems

variable {ε α β γ ι : Type}

theorem bind_eq_ok_iff {x : Except ε α} {f : α → Except ε β} {b : β} :
    (x >>= f) = .ok b ↔ ∃ a, x = .ok a ∧ f a = .ok b := by
  cases x with
  | error e => simp [bind, Except.bind]
  | ok a => simp [bind, Except.bind]

theorem map_eq_ok_iff {x : Except ε α} {f : α → β} {b : β} :
    x.map f = .ok b ↔ ∃ a, x = .ok a ∧ f a = b := by
  cases x with
  | error e => simp [Except.map]
  | ok a => simp [Except.map]

theorem map_eq_error_iff {x : Except ε α} {f : α → β} {e : ε} :
    x.map f = .error e ↔ x = .error e := by
  cases x with
  | error e' => simp [Except.map]
  | ok a => simp [Except.map]

theorem mapError_eq_ok_iff {x : Except ε α} {f : ε → β} {a : α} :
    x.mapError f = .ok a ↔ x = .ok a := by
  cases x with
  | error e => simp [Except.mapError]
  | ok a' => simp [Except.mapError]

theorem exists_eq_ok {x : Except ε α} (h : ∀ e, x ≠ .error e) : ∃ a, x = .ok a := by
  cases x with
  | error e => exact absurd rfl (h e)
  | ok a => exact ⟨a, rfl⟩

theorem mapM_eq_ok_iff {f : α → Except ε β} {xs : List α} {ys : List β} :
    xs.mapM f = .ok ys ↔ List.Forall₂ (fun x y => f x = .ok y) xs ys := by
  induction xs generalizing ys with
  | nil => cases ys <;> simp [pure, Except.pure]
  | cons x xs ih =>
    rw [List.mapM_cons, bind_eq_ok_iff]
    constructor
    · rintro ⟨y, hy, h⟩
      obtain ⟨zs, hzs, h⟩ := bind_eq_ok_iff.mp h
      cases h
      exact .cons hy (ih.mp hzs)
    · intro h
      cases h with
      | @cons _ y _ zs hy hzs =>
        exact ⟨y, hy, bind_eq_ok_iff.mpr ⟨zs, ih.mpr hzs, rfl⟩⟩

theorem mapM_map (f : α → Except ε β) (g : β → γ) (xs : List α) :
    (xs.mapM fun x => (f x).map g) = (xs.mapM f).map (List.map g) := by
  induction xs with
  | nil => rfl
  | cons x xs ih =>
    rw [List.mapM_cons, List.mapM_cons, ih]
    cases f x with
    | error e => rfl
    | ok y => cases xs.mapM f <;> rfl

theorem exists_mapM_eq_ok_iff {f : α → Except ε β} {xs : List α} :
    (∃ ys, xs.mapM f = .ok ys) ↔ ∀ x ∈ xs, ∃ y, f x = .ok y := by
  induction xs with
  | nil => exact ⟨fun _ => List.forall_mem_nil _, fun _ => ⟨[], rfl⟩⟩
  | cons x xs ih =>
    rw [List.forall_mem_cons, ← ih, List.mapM_cons]
    constructor
    · rintro ⟨ys, h⟩
      obtain ⟨y, hy, h⟩ := bind_eq_ok_iff.mp h
      obtain ⟨zs, hzs, _⟩ := bind_eq_ok_iff.mp h
      exact ⟨⟨y, hy⟩, zs, hzs⟩
    · rintro ⟨⟨y, hy⟩, zs, hzs⟩
      rw [hy, hzs]
      exact ⟨y :: zs, rfl⟩

theorem mapM_eq_error_of_first {f : α → Except ε β} {before after : List α} {x : α} {e : ε}
    (hbefore : ∀ y ∈ before, ∃ z, f y = .ok z) (h : f x = .error e) :
    (before ++ x :: after).mapM f = .error e := by
  obtain ⟨zs, hzs⟩ := exists_mapM_eq_ok_iff.mpr hbefore
  rw [List.mapM_append, hzs, List.mapM_cons, h]
  rfl

theorem exists_of_mem_mapM {f : α → Except ε β} {xs : List α} {ys : List β}
    (h : xs.mapM f = .ok ys) {y : β} (hy : y ∈ ys) : ∃ x ∈ xs, f x = .ok y := by
  induction mapM_eq_ok_iff.mp h with
  | nil => cases hy
  | @cons x z xs zs hx hxs ih =>
    rcases List.mem_cons.mp hy with rfl | hy
    · exact ⟨x, List.mem_cons_self, hx⟩
    · obtain ⟨w, hw, hwy⟩ := ih (mapM_eq_ok_iff.mpr hxs) hy
      exact ⟨w, List.mem_cons_of_mem _ hw, hwy⟩

def allOk (ask : ι → Except ε α) : List ι → Except ε Unit
  | [] => .ok ()
  | i :: is =>
    match ask i with
    | .ok _ => allOk ask is
    | .error e => .error e

def answerOf (ask : ι → Except ε (List α)) (i : ι) : List α :=
  match ask i with
  | .ok a => a
  | .error _ => []

theorem answerOf_eq {ask : ι → Except ε (List α)} {i : ι} {a : List α}
    (h : ask i = .ok a) : answerOf ask i = a := by
  rw [answerOf, h]

theorem allOk_eq_ok_iff {ask : ι → Except ε α} {is : List ι} :
    allOk ask is = .ok () ↔ ∀ i ∈ is, ∃ a, ask i = .ok a := by
  induction is with
  | nil => simp [allOk]
  | cons i is ih =>
    rw [allOk, List.forall_mem_cons]
    cases h : ask i with
    | ok a => simp [ih]
    | error e => simp

theorem allOk_append (ask : ι → Except ε α) (is js : List ι) :
    allOk ask (is ++ js) = (allOk ask is >>= fun _ => allOk ask js) := by
  induction is with
  | nil => rfl
  | cons i is ih =>
    rw [List.cons_append, allOk, allOk]
    cases ask i with
    | ok a => exact ih
    | error e => rfl

theorem allOk_congr {ask ask' : ι → Except ε α} {is : List ι}
    (h : ∀ i ∈ is, ask i = ask' i) : allOk ask is = allOk ask' is := by
  induction is with
  | nil => rfl
  | cons i is ih =>
    obtain ⟨hi, his⟩ := List.forall_mem_cons.mp h
    rw [allOk, allOk, hi, ih his]

/-- Both fail with the same error, or both succeed with related values. -/
inductive SameOutcome (rel : α → β → Prop) : Except ε α → Except ε β → Prop
  | error (e : ε) : SameOutcome rel (.error e) (.error e)
  | ok {a : α} {b : β} (h : rel a b) : SameOutcome rel (.ok a) (.ok b)

namespace SameOutcome

variable {rel : α → β → Prop}

theorem bind {α' β' : Type} {rel' : α' → β' → Prop} {x : Except ε α} {y : Except ε β}
    {f : α → Except ε α'} {g : β → Except ε β'} (hx : SameOutcome rel x y)
    (hf : ∀ a b, rel a b → SameOutcome rel' (f a) (g b)) :
    SameOutcome rel' (x >>= f) (y >>= g) := by
  cases hx with
  | error e => exact .error e
  | ok h => exact hf _ _ h

theorem map {α' β' : Type} {rel' : α' → β' → Prop} {x : Except ε α} {y : Except ε β} {f : α → α'}
    {g : β → β'} (hx : SameOutcome rel x y) (hf : ∀ a b, rel a b → rel' (f a) (g b)) :
    SameOutcome rel' (x.map f) (y.map g) := by
  cases hx with
  | error e => exact .error e
  | ok h => exact .ok (hf _ _ h)

theorem imp {rel' : α → β → Prop} {x : Except ε α} {y : Except ε β} (hx : SameOutcome rel x y)
    (h : ∀ a b, rel a b → rel' a b) : SameOutcome rel' x y := by
  cases hx with
  | error e => exact .error e
  | ok hab => exact .ok (h _ _ hab)

theorem exists_eq_ok {a : α} {y : Except ε β} (h : SameOutcome rel (.ok a) y) :
    ∃ b, y = .ok b ∧ rel a b := by
  cases h with
  | ok h => exact ⟨_, rfl, h⟩

theorem eq_map {f : α → β} {x : Except ε α} {y : Except ε β}
    (h : SameOutcome (fun a b => b = f a) x y) : y = x.map f := by
  cases h with
  | error e => rfl
  | ok h => exact congrArg Except.ok h

theorem answerOf {rel : List α → List β → Prop} {ask : ι → Except ε (List α)}
    {ask' : γ → Except ε (List β)} {i : ι} {j : γ} (h : SameOutcome rel (ask i) (ask' j))
    (hnil : rel [] []) : rel (answerOf ask i) (answerOf ask' j) := by
  unfold BuildItems.answerOf
  generalize ask i = x, ask' j = y at h ⊢
  cases h with
  | error e => exact hnil
  | ok h => exact h

theorem allOk_map {ask : ι → Except ε α} {ask' : γ → Except ε β} {f : ι → γ} {is : List ι}
    (h : ∀ i ∈ is, SameOutcome rel (ask i) (ask' (f i))) :
    allOk ask' (is.map f) = allOk ask is := by
  induction is with
  | nil => rfl
  | cons i is ih =>
    obtain ⟨hi, his⟩ := List.forall_mem_cons.mp h
    rw [List.map_cons, allOk, allOk, ih his]
    generalize ask i = x, ask' (f i) = y at hi ⊢
    cases hi with
    | error e => rfl
    | ok h => rfl

end SameOutcome

end BuildItems
