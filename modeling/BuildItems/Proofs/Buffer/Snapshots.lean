import BuildItems.Proofs.Buffer.Counting

/-!
# Snapshots are isolated

Builders and snapshots over one store read as if each had a list of its own, although a builder
writes in place wherever it can. What makes this so is that a buffer with one owner is read by its
owner alone. The same fact says when two snapshots of a builder share storage: as long as no
change with effect came between them.
-/

namespace BuildItems

variable {α β σ : Type}

/-- A later list of handles: none of the earlier ones came back after it was dropped, and those
still there are related to what they were. -/
structure Persists (R : β → β → Prop) (l l' : List (Option β)) : Prop where
  length_le : l.length ≤ l'.length
  exists_of_some : ∀ i y, i < l.length → l'[i]? = some (some y) →
    ∃ x, l[i]? = some (some x) ∧ R x y

namespace Persists

variable {R : β → β → Prop} {l l' l'' : List (Option β)}

theorem refl (hR : ∀ x, R x x) (l : List (Option β)) : Persists R l l :=
  ⟨Nat.le_refl _, fun _ y _ hy => ⟨y, hy, hR y⟩⟩

theorem trans (hR : ∀ {x y z}, R x y → R y z → R x z) (h : Persists R l l')
    (h' : Persists R l' l'') : Persists R l l'' where
  length_le := Nat.le_trans h.length_le h'.length_le
  exists_of_some i z hi hz := by
    obtain ⟨y, hy, hyz⟩ := h'.exists_of_some i z (Nat.lt_of_lt_of_le hi h.length_le) hz
    obtain ⟨x, hx, hxy⟩ := h.exists_of_some i y hi hy
    exact ⟨x, hx, hR hxy hyz⟩

theorem concat (hR : ∀ x, R x x) (l : List (Option β)) (x : Option β) :
    Persists R l (l ++ [x]) where
  length_le := by
    rw [List.length_append]
    exact Nat.le_add_right _ _
  exists_of_some i y hi hy := by
    rw [List.getElem?_append_left hi] at hy
    exact ⟨y, hy, hR y⟩

theorem set_none (hR : ∀ x, R x x) (l : List (Option β)) (i : Nat) :
    Persists R l (l.set i none) where
  length_le := Nat.le_of_eq List.length_set.symm
  exists_of_some j y hj hy := by
    rw [List.getElem?_set] at hy
    split at hy
    · split at hy <;> cases hy
    · exact ⟨y, hy, hR y⟩

theorem set_some (hR : ∀ x y, R x y) (l : List (Option β)) (i : Nat) (x : β)
    (hi : ∃ y, l[i]? = some (some y)) : Persists R l (l.set i (some x)) where
  length_le := Nat.le_of_eq List.length_set.symm
  exists_of_some j y hj hy := by
    rw [List.getElem?_set] at hy
    split at hy
    · next hij =>
      obtain ⟨z, hz⟩ := hi
      exact ⟨z, hij ▸ hz, hR z y⟩
    · exact ⟨y, hy, hR y y⟩

/-- What each step leaves of the handles, a run leaves. -/
theorem foldl {S C : Type} (hrefl : ∀ x, R x x) (htrans : ∀ {x y z}, R x y → R y z → R x z)
    {handles : S → List (Option β)} {step : S → C → S}
    (hstep : ∀ s c, Persists R (handles s) (handles (step s c))) (s : S) (cs : List C) :
    Persists R (handles s) (handles (cs.foldl step s)) := by
  induction cs generalizing s with
  | nil => exact .refl hrefl _
  | cons c cs ih => exact (hstep s c).trans htrans (ih (step s c))

/-- What was last at first is what it is if it is still there. -/
theorem last_eq_some {l l' : List (Option β)} {x : Option β} {y : β}
    (h : Persists Eq (l ++ [x]) l') (hy : l'[l.length]?.join = some y) : x = some y := by
  have hlt : l.length < (l ++ [x]).length := by
    rw [List.length_append]
    exact Nat.lt_add_one _
  obtain ⟨_, hx, rfl⟩ := h.exists_of_some _ y hlt (Option.join_eq_some_iff.mp hy)
  rw [List.getElem?_concat_length] at hx
  exact Option.some.inj hx

end Persists

/-- A snapshot keeps its list until it is dropped. -/
theorem PlainLists.persists_step (p : PlainLists α σ) (c : Command α σ) :
    Persists Eq p.snapshots (p.step c).snapshots := by
  cases c with
  | create => exact .refl Eq.refl _
  | change b c =>
    rw [PlainLists.step]
    split <;> exact .refl Eq.refl _
  | snapshot b => exact .concat Eq.refl _ _
  | toBuilder s => exact .refl Eq.refl _
  | dropBuilder b => exact .refl Eq.refl _
  | dropSnapshot s => exact .set_none Eq.refl _ _

theorem PlainLists.persists_foldl (p : PlainLists α σ) (commands : List (Command α σ)) :
    Persists Eq p.snapshots (commands.foldl step p).snapshots :=
  .foldl Eq.refl Eq.trans persists_step p commands

namespace Workspace

variable {w : Workspace α σ} {b s k m n : Nat}

/-- A snapshot keeps its buffer until it is dropped. -/
theorem persists_snapshots_step (w : Workspace α σ) (c : Command α σ) :
    Persists Eq w.snapshots (w.step c).snapshots := by
  cases c with
  | create => exact .refl Eq.refl _
  | change b c =>
    rw [Workspace.step]
    split <;> exact .refl Eq.refl _
  | snapshot b => exact .concat Eq.refl _ _
  | toBuilder s => exact .refl Eq.refl _
  | dropBuilder b => exact .refl Eq.refl _
  | dropSnapshot s => exact .set_none Eq.refl _ _

theorem persists_snapshots_foldl (w : Workspace α σ) (commands : List (Command α σ)) :
    Persists Eq w.snapshots (commands.foldl step w).snapshots :=
  .foldl Eq.refl Eq.trans persists_snapshots_step w commands

/-- A builder, which may move, does not come back once it is dropped. -/
theorem persists_builders_step (w : Workspace α σ) (c : Command α σ) :
    Persists (fun _ _ => True) w.builders (w.step c).builders := by
  have hrefl : ∀ n : Nat, True := fun _ => trivial
  cases c with
  | create => exact .concat hrefl _ _
  | change b c =>
    rw [Workspace.step]
    split
    · next n hb =>
      exact .set_some (fun _ _ => trivial) _ _ _ ⟨n, builder?_eq_some_iff.mp hb⟩
    · exact .refl hrefl _
  | snapshot b => exact .refl hrefl _
  | toBuilder s => exact .concat hrefl _ _
  | dropBuilder b => exact .set_none hrefl _ _
  | dropSnapshot s => exact .refl hrefl _

theorem persists_builders_foldl (w : Workspace α σ) (commands : List (Command α σ)) :
    Persists (fun _ _ => True) w.builders (commands.foldl step w).builders :=
  .foldl (fun _ => trivial) (fun _ _ => trivial) persists_builders_step w commands

theorem builder?_change (hb : w.builder? b = some n) (c : Change α σ) :
    (w.change b n c).builder? b = some (w.store.edit n (w.editOf n c)).1 := by
  have hlt := (List.getElem?_eq_some_iff.mp (builder?_eq_some_iff.mp hb)).1
  exact builder?_eq_some_iff.mpr (List.getElem?_set_self hlt)

theorem builder?_change_of_ne {b' : Nat} (h : b ≠ b') (c : Change α σ) :
    (w.change b n c).builder? b' = w.builder? b' :=
  congrArg Option.join (List.getElem?_set_ne h)

/-- A change with effect leaves the builder with a buffer that is nobody else's. -/
theorem Counted.sole_change (h : w.Counted) (hb : w.builder? b = some n) {c : Change α σ}
    (hc : (w.editOf n c).isEffective = true) :
    (∀ b', b ≠ b' → w.builder? b' ≠ some (w.store.edit n (w.editOf n c)).1) ∧
      ∀ s, w.snapshot? s ≠ some (w.store.edit n (w.editOf n c)).1 := by
  have hsole := (h.change hb c).sole (Store.owners_edit_eq_one hc) (builder?_change hb c)
  refine ⟨fun b' hne hb' => ?_, hsole.2⟩
  rw [← builder?_change_of_ne hne c] at hb'
  exact hne (hsole.1 b' hb').symm

/-- A change of one builder is not seen by the others, nor by the snapshots. -/
theorem Counted.contents_change (h : w.Counted) (hb : w.builder? b = some n) (c : Change α σ) :
    (∀ b' k, b ≠ b' → w.builder? b' = some k →
        (w.change b n c).store.contents k = w.store.contents k) ∧
      ∀ s k, w.snapshot? s = some k →
        (w.change b n c).store.contents k = w.store.contents k := by
  by_cases hc : (w.editOf n c).isEffective = true
  · obtain ⟨hbuilders, hsnapshots⟩ := h.sole_change hb hc
    refine ⟨fun b' k hne hk => ?_, fun s k hk => ?_⟩
    · exact Store.contents_edit_of_ne fun heq => hbuilders b' hne (heq ▸ hk)
    · exact Store.contents_edit_of_ne fun heq => hsnapshots s (heq ▸ hk)
  · have hkeep : (w.change b n c).store = w.store :=
      congrArg Prod.snd (Store.edit_of_not_isEffective (by simpa using hc))
    exact ⟨fun _ k _ _ => by rw [hkeep], fun _ k _ => by rw [hkeep]⟩

/-- One handle takes another buffer, and the buffers of all the others hold what they held. -/
theorem map_contents_set {l : List (Option Nat)} {f g : Nat → List α} {i : Nat}
    (h : ∀ j n, i ≠ j → l[j]? = some (some n) → f n = g n) (m : Nat) :
    (l.set i (some m)).map (·.map f) = (l.map (·.map g)).set i (some (f m)) := by
  rw [List.map_set, Option.map_some]
  refine List.ext_getElem? fun j => ?_
  by_cases hij : i = j
  · rw [hij, List.getElem?_set_self', List.getElem?_set_self', List.getElem?_map, List.getElem?_map]
    cases l[j]? <;> rfl
  · rw [List.getElem?_set_ne hij, List.getElem?_set_ne hij, List.getElem?_map, List.getElem?_map]
    rcases hj : l[j]? with _ | _ | n
    · rfl
    · rfl
    · exact congrArg (some ∘ some) (h j n hij hj)

theorem map_contents_congr {l : List (Option Nat)} {f g : Nat → List α}
    (h : ∀ n, some n ∈ l → f n = g n) : l.map (·.map f) = l.map (·.map g) := by
  refine List.map_congr_left fun x hx => ?_
  cases x with
  | none => rfl
  | some n => exact congrArg some (h n hx)

theorem Counted.plain_change (h : w.Counted) (hb : w.builder? b = some n) (c : Change α σ) :
    (w.change b n c).plain = w.plain.step (.change b c) := by
  obtain ⟨hbuilders, hsnapshots⟩ := h.contents_change hb c
  have hplain : w.plain.builder? b = some (w.store.contents n) := by
    rw [builder?_plain, hb, Option.map_some]
  have hread := Store.contents_edit w.store n (w.editOf n c)
  rw [PlainLists.step_change hplain, Change.run_plain]
  refine PlainLists.ext ?_ ?_ rfl
  · change _ = w.plain.builders.set b (some ((w.editOf n c).apply (w.store.contents n)))
    rw [← hread]
    exact map_contents_set (fun b' k hne hk => hbuilders b' k hne (builder?_eq_some_iff.mpr hk)) _
  · refine map_contents_congr fun k hk => ?_
    obtain ⟨s, hs⟩ := List.mem_iff_getElem?.mp hk
    exact hsnapshots s k (snapshot?_eq_some_iff.mpr hs)

theorem plain_of_contents_eq {w' : Workspace α σ} (h : w'.store.contents = w.store.contents) :
    w'.plain =
      { builders := w'.builders.map (·.map w.store.contents)
        snapshots := w'.snapshots.map (·.map w.store.contents)
        host := w'.host } := by
  rw [plain, h]

theorem Counted.plain_step (h : w.Counted) (c : Command α σ) :
    (w.step c).plain = w.plain.step c := by
  cases c with
  | create =>
    have hlive : ∀ n, 0 < w.store.owners n →
        (w.store.allocate []).2.contents n = w.store.contents n :=
      fun n hn => if_neg (Nat.ne_of_lt (h.fresh.lt hn))
    refine PlainLists.ext ?_ ?_ rfl
    · change (w.builders ++ [some w.store.next]).map _ = _ ++ [some []]
      rw [List.map_append]
      congr 1
      · refine map_contents_congr fun n hn => hlive n ?_
        obtain ⟨b, hb⟩ := List.mem_iff_getElem?.mp hn
        exact h.owners_pos_of_builder (builder?_eq_some_iff.mpr hb)
      · exact congrArg (fun xs => [some xs]) (Store.set_same _ _ _)
    · refine map_contents_congr fun n hn => hlive n ?_
      obtain ⟨s, hs⟩ := List.mem_iff_getElem?.mp hn
      exact h.owners_pos_of_snapshot (snapshot?_eq_some_iff.mpr hs)
  | change b c =>
    rw [Workspace.step]
    cases hb : w.builder? b with
    | some n => exact h.plain_change hb c
    | none => rw [PlainLists.step, builder?_plain, hb, Option.map_none]
  | snapshot b =>
    rw [plain_of_contents_eq (Store.contents_share? _ _), PlainLists.step, builder?_plain]
    exact PlainLists.ext rfl List.map_append rfl
  | toBuilder s =>
    rw [plain_of_contents_eq (Store.contents_share? _ _), PlainLists.step, snapshot?_plain]
    exact PlainLists.ext List.map_append rfl rfl
  | dropBuilder b =>
    rw [plain_of_contents_eq (Store.contents_release? _ _), PlainLists.step]
    exact PlainLists.ext List.map_set rfl rfl
  | dropSnapshot s =>
    rw [plain_of_contents_eq (Store.contents_release? _ _), PlainLists.step]
    exact PlainLists.ext rfl List.map_set rfl

theorem plain_run (host : σ) (commands : List (Command α σ)) :
    (run host commands).plain = PlainLists.run host commands := by
  induction commands using List.reverseRecOn with
  | nil => rfl
  | append_singleton commands c ih =>
    rw [run_append, PlainLists.run_append, ← ih]
    exact (counted_run host commands).plain_step c

/-- Only a change of it moves a builder. -/
theorem builder?_step_of_ne_change {c : Command α σ} (hc : ∀ e, c ≠ .change b e)
    (hb : w.builder? b = some m) (hb' : (w.step c).builder? b = some n) : n = m := by
  suffices hsame : (w.step c).builder? b = w.builder? b from
    Option.some.inj (by rw [← hb', hsame, hb])
  have hlt := (List.getElem?_eq_some_iff.mp (builder?_eq_some_iff.mp hb)).1
  cases c with
  | create => exact congrArg Option.join (List.getElem?_append_left hlt)
  | change b' e =>
    have hne : b' ≠ b := fun h => hc e (by rw [h])
    rw [Workspace.step]
    split
    · exact builder?_change_of_ne hne e
    · rfl
  | snapshot b' => rfl
  | toBuilder s => exact congrArg Option.join (List.getElem?_append_left hlt)
  | dropBuilder b' =>
    have hne : b' ≠ b := by
      rintro rfl
      rw [builder?_eq_some_iff] at hb'
      exact Option.some_ne_none n (Option.some.inj (hb'.symm.trans (List.getElem?_set_self hlt)))
    exact congrArg Option.join (List.getElem?_set_ne hne)
  | dropSnapshot s => rfl

theorem Counted.sharing_step (h : w.Counted) {c : Command α σ} (hs : w.snapshot? s = some k)
    (hb : w.builder? b = some m) (hb' : (w.step c).builder? b = some n) :
    n = k ↔ m = k ∧ w.plain.alters b c = false := by
  by_cases hc : ∃ e, c = .change b e
  · obtain ⟨e, rfl⟩ := hc
    have halters : w.plain.alters b (.change b e) = (w.editOf m e).isEffective := by
      rw [PlainLists.alters, builder?_plain, hb, BEq.rfl, Bool.true_and]
      exact (e.isEffective_edit _ _).symm
    rw [Workspace.step, hb] at hb'
    have hn : (w.store.edit m (w.editOf m e)).1 = n :=
      Option.some.inj ((builder?_change hb e).symm.trans hb')
    rw [halters]
    cases heff : (w.editOf m e).isEffective with
    | false =>
      rw [Store.edit_of_not_isEffective heff] at hn
      rw [← hn]
      exact (and_iff_left rfl).symm
    | true =>
      have hne : n ≠ k := fun hnk => (h.sole_change hb heff).2 s (by rw [hn, hnk, hs])
      exact iff_of_false hne fun hand => Bool.noConfusion hand.2
  · have hc : ∀ e, c ≠ .change b e := fun e he => hc ⟨e, he⟩
    rw [builder?_step_of_ne_change hc hb hb', w.plain.alters_of_ne_change hc]
    exact (and_iff_left rfl).symm

theorem snapshot?_of_foldl (hlt : s < w.snapshots.length) {commands : List (Command α σ)}
    (hs : (commands.foldl step w).snapshot? s = some k) : w.snapshot? s = some k := by
  obtain ⟨_, hx, rfl⟩ :=
    (w.persists_snapshots_foldl commands).exists_of_some s k hlt (snapshot?_eq_some_iff.mp hs)
  exact snapshot?_eq_some_iff.mpr hx

theorem exists_builder?_of_foldl (hlt : b < w.builders.length) {commands : List (Command α σ)}
    (hb : (commands.foldl step w).builder? b = some n) : ∃ m, w.builder? b = some m := by
  obtain ⟨m, hm, _⟩ :=
    (w.persists_builders_foldl commands).exists_of_some b n hlt (builder?_eq_some_iff.mp hb)
  exact ⟨m, builder?_eq_some_iff.mpr hm⟩

/-- A builder that shares with a snapshot still does so later if its list was never altered, and
one that does not share with it never will. -/
theorem Counted.sharing_foldl (h : w.Counted) {commands : List (Command α σ)}
    (hs : w.snapshot? s = some k) (hsEnd : (commands.foldl Workspace.step w).snapshot? s = some k)
    (hb : w.builder? b = some m) (hbEnd : (commands.foldl Workspace.step w).builder? b = some n) :
    n = k ↔ m = k ∧ w.plain.altered b commands = false := by
  induction commands generalizing w m with
  | nil =>
    obtain rfl : m = n := Option.some.inj (hb.symm.trans hbEnd)
    exact (and_iff_left rfl).symm
  | cons c commands ih =>
    have hslt := (List.getElem?_eq_some_iff.mp (snapshot?_eq_some_iff.mp hs)).1
    have hblt := (List.getElem?_eq_some_iff.mp (builder?_eq_some_iff.mp hb)).1
    have hsNext : (w.step c).snapshot? s = some k :=
      snapshot?_of_foldl (Nat.lt_of_lt_of_le hslt (w.persists_snapshots_step c).length_le) hsEnd
    obtain ⟨m', hbNext⟩ := exists_builder?_of_foldl
      (Nat.lt_of_lt_of_le hblt (w.persists_builders_step c).length_le) hbEnd
    rw [ih (h.step c) hsNext hsEnd hbNext hbEnd, h.sharing_step hs hb hbNext, h.plain_step,
      PlainLists.altered, Bool.or_eq_false_iff, and_assoc]

/-- The buffer of a snapshot that is still alive is the one its builder had. -/
theorem builder?_of_snapshot?_run {host : σ} {before later : List (Command α σ)}
    (hs : (run host (before ++ .snapshot b :: later)).snapshot? (run host before).snapshots.length =
      some n) :
    (run host before).builder? b = some n := by
  rw [run_append] at hs
  exact (((run host before).step (.snapshot b)).persists_snapshots_foldl later).last_eq_some hs

/-- A snapshot that is still alive reads what its builder read. -/
theorem plain_of_snapshot?_run {host : σ} {before later : List (Command α σ)}
    (hs : (run host (before ++ .snapshot b :: later)).snapshot? (run host before).snapshots.length =
      some n) :
    (run host before).plain.builder? b =
      some ((run host (before ++ .snapshot b :: later)).store.contents n) := by
  have hread : (run host (before ++ .snapshot b :: later)).plain.snapshot?
      (run host before).plain.snapshots.length =
        some ((run host (before ++ .snapshot b :: later)).store.contents n) := by
    rw [snapshot?_plain, plain, List.length_map, hs, Option.map_some]
  rw [plain_run, PlainLists.run_append, ← plain_run] at hread
  exact (((run host before).plain.step (.snapshot b)).persists_foldl later).last_eq_some hread

theorem sharing_run {host : σ} {before between after : List (Command α σ)}
    (hm : (run host (before ++ .snapshot b :: (between ++ .snapshot b :: after))).snapshot?
      (run host before).snapshots.length = some m)
    (hn : (run host (before ++ .snapshot b :: (between ++ .snapshot b :: after))).snapshot?
      (run host (before ++ .snapshot b :: between)).snapshots.length = some n) :
    m = n ↔ (PlainLists.run host (before ++ [.snapshot b])).altered b between = false := by
  have hsplit : before ++ .snapshot b :: (between ++ .snapshot b :: after) =
      (before ++ .snapshot b :: between) ++ .snapshot b :: after := by
    rw [List.append_assoc, List.cons_append]
  have hbetween : run host (before ++ .snapshot b :: between) =
      between.foldl step (run host (before ++ [.snapshot b])) := by
    rw [List.append_cons, run_append]
  have hlt : (run host before).snapshots.length <
      (run host (before ++ [.snapshot b])).snapshots.length := by
    rw [run_append]
    change _ < (_ ++ [_]).length
    rw [List.length_append]
    exact Nat.lt_add_one _
  -- The builder has the buffer of each snapshot when that is taken.
  have hbuilder : (run host (before ++ [.snapshot b])).builder? b = some m := by
    rw [run_append]
    exact builder?_of_snapshot?_run hm
  rw [hsplit] at hm hn
  have hbuilderEnd := builder?_of_snapshot?_run hn
  -- The first snapshot is there all the time.
  rw [run_append, hbetween] at hm
  have hsEnd := snapshot?_of_foldl
    (Nat.lt_of_lt_of_le hlt (persists_snapshots_foldl _ between).length_le) hm
  have hs := snapshot?_of_foldl hlt hsEnd
  rw [hbetween] at hbuilderEnd
  have hshared := (counted_run host (before ++ [.snapshot b])).sharing_foldl
    hs hsEnd hbuilder hbuilderEnd
  rw [plain_run] at hshared
  rw [eq_comm, hshared]
  exact and_iff_right rfl

/-- What holds of the builders and snapshots at the end of a run. -/
structure Isolated (host : σ) (commands : List (Command α σ)) : Prop where
  /-- All read what the same commands give on plain lists. -/
  plain : (run host commands).plain = PlainLists.run host commands
  /-- A live snapshot reads what its builder read when it was taken. -/
  stable : ∀ before b later n, commands = before ++ .snapshot b :: later →
    (run host commands).snapshot? (run host before).snapshots.length = some n →
    (run host before).plain.builder? b = some ((run host commands).store.contents n)
  /-- Two live snapshots of a builder share storage iff its list was not altered between them. -/
  sharing : ∀ before b between after m n,
    commands = before ++ .snapshot b :: (between ++ .snapshot b :: after) →
    (run host commands).snapshot? (run host before).snapshots.length = some m →
    (run host commands).snapshot?
      (run host (before ++ .snapshot b :: between)).snapshots.length = some n →
    (m = n ↔ (PlainLists.run host (before ++ [.snapshot b])).altered b between = false)

theorem isolated_run (host : σ) (commands : List (Command α σ)) : Isolated host commands where
  plain := plain_run host commands
  stable := by
    rintro before b later n rfl hs
    exact plain_of_snapshot?_run hs
  sharing := by
    rintro before b between after m n rfl hm hn
    exact sharing_run hm hn

/-- Retaining everything keeps the storage, and a push by one of two owners does not. -/
example :
    let w : Workspace Nat Unit := run ()
      [.create, .change 0 (.push 1), .snapshot 0, .change 0 (.retain fun _ => pure true),
        .snapshot 0, .change 0 (.push 2), .snapshot 0]
    w.snapshots = [some 0, some 0, some 1] ∧
      w.plain.snapshots = [some [1], some [1], some [1, 2]] :=
  ⟨rfl, rfl⟩

end Workspace

end BuildItems
