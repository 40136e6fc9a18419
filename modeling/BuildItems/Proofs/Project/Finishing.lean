import BuildItems.Proofs.Operation.Accounted
import BuildItems.Proofs.Project.Success

/-!
# Finished prefixes

What is finished is what is remembered. A finished prefix reported each of its operations and asked
for their globs, and what it needs is finished too. While the operations of a prefix are applied,
all that is finished is needed by it.
-/

namespace BuildItems

variable {σ α ι S : Type}

theorem Triple.mapM_prefix {inv : List ι → S → Prop} {fail : EvalError → S → Prop}
    {f : ι → ExceptT EvalError (StateM S) α} {is : List ι}
    (h : ∀ i ∈ is, ∀ done, Triple (inv done) (f i) (fun _ => inv (done ++ [i])) fail)
    (done : List ι) : Triple (inv done) (is.mapM f) (fun _ => inv (done ++ is)) fail := by
  induction is generalizing done with
  | nil =>
    rw [List.append_nil]
    exact .ret fun _ hs => hs
  | cons i is ih =>
    obtain ⟨hi, his⟩ := List.forall_mem_cons.mp h
    rw [List.mapM_cons, List.append_cons]
    exact .bind (hi done) fun _ => .bind (ih his (done ++ [i])) fun _ => .ret fun _ hs => hs

def computed (ended : List (Episode × Materialized)) : List Reference :=
  ended.map (·.1.reference)

structure Episode.Completes (p : Project) (e : Episode) (m : Materialized) : Prop where
  inRange : p.InRange e.reference
  asked : e.asked = Operation.askedAll p.options (p.firstOperations e.reference)
  /-- One report for each operation, in order, with the number of items after it. -/
  reported : ∃ counts : List Nat, counts.length = (p.firstOperations e.reference).length ∧
    counts.getLastD 0 = m.entries.length ∧ e.told.filter (·.isReport) =
      List.zipWith Operation.appliedOperation (p.firstOperations e.reference) counts

structure Sound (p : Project) (under : List Episode) (ended : List (Episode × Materialized)) :
    Prop where
  silent : ∀ e ∈ under ++ ended.map Prod.fst, ∀ x ∈ e.told, x.event? = none
  nodup : (computed ended).Nodup
  complete : ∀ x ∈ ended, x.1.Completes p x.2
  closed : ∀ r ∈ computed ended, ∀ u, p.Needs r u → u ∈ computed ended

def memoOf (ended : List (Episode × Materialized)) : List (Reference × Materialized) :=
  (ended.map fun x => (x.1.reference, x.2)).reverse

theorem memoOf_concat (ended : List (Episode × Materialized)) (e : Episode) (m : Materialized) :
    memoOf (ended ++ [(e, m)]) = (e.reference, m) :: memoOf ended := by
  simp [memoOf]

/-- The account is balanced and sound, and what is finished is what is remembered. -/
structure Recorded (p : Project) (opening : Log.Event) (under : List Episode)
    (ended : List (Episode × Materialized)) (s : Session (σ × Account)) : Prop where
  balanced : Balanced opening under ended s.trace
  memo : s.memo = memoOf ended
  sound : Sound p under ended

def Interrupted (p : Project) (opening : Log.Event) (_ : EvalError) (s : Session (σ × Account)) :
    Prop :=
  ∃ under ended, Recorded p opening under ended s

/-- Looking for a prefix finishes it, if it was not finished before, and on the way prefixes that
it needs. -/
def Finishes (p : Project) (opening : Log.Event) (u : Reference) (value : Materialized → α)
    (x : Run (σ × Account) α) : Prop :=
  ∀ under ended, Triple (Recorded p opening under ended) x
    (fun a s => ∃ new, (∀ y ∈ new, Relation.ReflTransGen p.Needs u y.1.reference) ∧
      (∃ e m, (e, m) ∈ ended ++ new ∧ e.reference = u ∧ a = value m) ∧
      Recorded p opening under (ended ++ new) s)
    (Interrupted p opening)

section

variable {p : Project} {opening : Log.Event} {r u : Reference} {under rest : List Episode}
  {ended new : List (Episode × Materialized)} {e : Episode} {m : Materialized}
  {s : Session (σ × Account)}

theorem mem_computed_of_mem (h : (e, m) ∈ ended) : e.reference ∈ computed ended :=
  List.mem_map_of_mem (f := fun x : Episode × Materialized => x.1.reference) h

theorem computed_append (ended new : List (Episode × Materialized)) :
    computed (ended ++ new) = computed ended ++ computed new := List.map_append

theorem Recorded.not_mem_computed (h : Recorded p opening under ended s)
    (hr : s.memo.lookup r = none) : r ∉ computed ended := by
  rw [h.memo, List.lookup_eq_none_iff] at hr
  intro hmem
  obtain ⟨x, hx, rfl⟩ := List.mem_map.mp hmem
  have hfound := hr (x.1.reference, x.2) (List.mem_reverse.mpr (List.mem_map.mpr ⟨x, hx, rfl⟩))
  simp at hfound

theorem Recorded.exists_mem_of_lookup (h : Recorded p opening under ended s)
    (hr : s.memo.lookup r = some m) : ∃ e, (e, m) ∈ ended ∧ e.reference = r := by
  obtain ⟨before, after, hsplit, _⟩ := List.lookup_eq_some_iff.mp hr
  have hmem : (r, m) ∈ memoOf ended := by
    rw [← h.memo, hsplit]
    exact List.mem_append_right _ List.mem_cons_self
  obtain ⟨⟨e, m'⟩, hx, heq⟩ := List.mem_map.mp (List.mem_reverse.mp hmem)
  obtain ⟨rfl, rfl⟩ := Prod.mk.inj heq
  exact ⟨e, hx, rfl⟩

theorem Sound.leave (h : Sound p (e :: under) ended) (hnew : e.reference ∉ computed ended)
    (hcomplete : e.Completes p m) (hclosed : ∀ u, p.Needs e.reference u → u ∈ computed ended) :
    Sound p under (ended ++ [(e, m)]) where
  silent := by
    obtain ⟨he, hothers⟩ := List.forall_mem_cons.mp h.silent
    rw [List.map_append, ← List.append_assoc]
    exact List.forall_mem_append.mpr ⟨hothers, List.forall_mem_singleton.mpr he⟩
  nodup := by
    rw [computed_append]
    exact (List.perm_append_singleton _ _).nodup_iff.mpr (List.nodup_cons.mpr ⟨hnew, h.nodup⟩)
  complete := List.forall_mem_append.mpr ⟨h.complete, List.forall_mem_singleton.mpr hcomplete⟩
  closed := by
    rw [computed_append]
    refine List.forall_mem_append.mpr ⟨fun r hr u hu => ?_, List.forall_mem_singleton.mpr ?_⟩
    · exact List.mem_append_left _ (h.closed r hr u hu)
    · exact fun u hu => List.mem_append_left _ (hclosed u hu)

/-- The computation of `r` made these reports, asked for these globs and found these prefixes. All
that was finished meanwhile is needed by `r`. -/
def Midway (p : Project) (opening : Log.Event) (r : Reference) (rest : List Episode)
    (ended : List (Episode × Materialized)) (reports : List Log.Event) (asked : List Glob)
    (found : List Reference) (s : Session (σ × Account)) : Prop :=
  ∃ new told, (∀ y ∈ new, Relation.TransGen p.Needs r y.1.reference) ∧
    (∀ u ∈ found, u ∈ computed (ended ++ new)) ∧ told.filter (·.isReport) = reports ∧
    Recorded p opening (⟨r, told, asked⟩ :: rest) (ended ++ new) s

variable {reports : List Log.Event} {asked : List Glob} {found : List Reference}

theorem Midway.interrupted (h : Midway p opening r rest ended reports asked found s)
    (e : EvalError) : Interrupted p opening e s := by
  obtain ⟨new, told, _, _, _, hrecorded⟩ := h
  exact ⟨_, _, hrecorded⟩

/-- What is done to the expander and the log keeps what is remembered. -/
theorem Triple.ofEffect_midway {x : Effect (σ × Account) α} {reports' : α → List Log.Event}
    {asked' : List Glob}
    (h : ∀ ended', Triple (Working opening r rest ended' reports asked) x
      (fun a => Working opening r rest ended' (reports' a) asked')
      (BrokenOff opening r rest ended')) :
    Triple (Midway p opening r rest ended reports asked found) (Run.ofEffect x)
      (fun a => Midway p opening r rest ended (reports' a) asked' found)
      (Interrupted p opening) := by
  rintro s ⟨new, told, hneeded, hfound, hreports, hrecorded⟩
  obtain ⟨hsilent, hothers⟩ := List.forall_mem_cons.mp hrecorded.sound.silent
  have hsound : ∀ told' asked', (∀ x ∈ told', x.event? = none) →
      Sound p (⟨r, told', asked'⟩ :: rest) (ended ++ new) := fun told' asked' hsilent' =>
    { hrecorded.sound with silent := List.forall_mem_cons.mpr ⟨hsilent', hothers⟩ }
  have hworking := h (ended ++ new) s.trace ⟨told, hsilent, hreports, hrecorded.balanced⟩
  rw [run_ofEffect]
  rcases hx : x.run s.trace with ⟨e | a, t⟩
  · rw [hx] at hworking
    obtain ⟨_, _, told', hsilent', _, hbalanced⟩ := hworking
    exact ⟨_, _, hbalanced, hrecorded.memo, hsound told' _ hsilent'⟩
  · rw [hx] at hworking
    obtain ⟨told', hsilent', hreports', hbalanced⟩ := hworking
    exact ⟨new, told', hneeded, hfound, hreports', hbalanced, hrecorded.memo,
      hsound told' _ hsilent'⟩

theorem Finishes.triple_midway {value : Materialized → α} {x : Run (σ × Account) α}
    (h : Finishes p opening u value x) (hu : p.Needs r u) :
    Triple (Midway p opening r rest ended reports asked found) x
      (fun _ => Midway p opening r rest ended reports asked (found ++ [u]))
      (Interrupted p opening) := by
  rintro s ⟨new, told, hneeded, hfound, hreports, hrecorded⟩
  have hrun := h _ _ s hrecorded
  revert hrun
  rcases x.run s with ⟨e | a, s'⟩
  · exact id
  · rintro ⟨later, hlater, ⟨e, m, hmem, rfl, _⟩, hrecorded'⟩
    rw [List.append_assoc] at hmem hrecorded'
    refine ⟨new ++ later, told, List.forall_mem_append.mpr ⟨hneeded, ?_⟩, ?_, hreports, hrecorded'⟩
    · exact fun y hy => .head' hu (hlater y hy)
    · refine List.forall_mem_append.mpr ⟨fun v hv => ?_, ?_⟩
      · rw [← List.append_assoc, computed_append]
        exact List.mem_append_left _ (hfound v hv)
      · exact List.forall_mem_singleton.mpr (mem_computed_of_mem hmem)

namespace Operation

variable {find : Reference → Run (σ × Account) (List Entry)} {expander : Expander σ}

def FindsAll (p : Project) (opening : Log.Event) (r : Reference)
    (find : Reference → Run (σ × Account) (List Entry)) (us : List Reference) : Prop :=
  ∀ u ∈ us, p.Needs r u ∧ Finishes p opening u (·.entries) (find u)

theorem resolve_midway {spec : Spec} (hfind : FindsAll p opening r find spec.outside)
    (sofar : List Entry) (found : List Reference) :
    Triple (Midway p opening r rest ended reports asked found) (resolve find spec sofar)
      (fun _ => Midway p opening r rest ended reports asked (found ++ spec.outside))
      (Interrupted p opening) := by
  have hone : ∀ v ∈ spec.references, ∀ done,
      Triple
        (Midway p opening r rest ended reports asked
          (found ++ done.filter (·.itemType != spec.itemType)))
        (if v.itemType = spec.itemType then pure ⟨v.itemType, sofar⟩
          else do
            let entries ← find v
            pure (ResolvedReference.mk v.itemType entries))
        (fun _ => Midway p opening r rest ended reports asked
          (found ++ (done ++ [v]).filter (·.itemType != spec.itemType)))
        (Interrupted p opening) := by
    intro v hv done
    rw [List.filter_append, List.filter_singleton, ← List.append_assoc]
    by_cases hown : v.itemType = spec.itemType
    · rw [if_pos hown, bne_eq_false_iff_eq.mpr hown, cond_false, List.append_nil]
      exact .ret fun _ hs => hs
    · obtain ⟨hneeds, hfinds⟩ := hfind v (Spec.mem_outside_iff.mpr ⟨hv, hown⟩)
      rw [if_neg hown, bne_iff_ne.mpr hown, cond_true]
      exact .bind (hfinds.triple_midway hneeds) fun _ => .ret fun _ hs => hs
  have hall := Triple.mapM_prefix hone []
  rw [List.filter_nil, List.append_nil, List.nil_append] at hall
  exact hall

theorem bindSpec_midway {spec : Spec} (hfind : FindsAll p opening r find spec.outside)
    (sofar : List Entry) (found : List Reference) :
    Triple (Midway p opening r rest ended reports asked found) (bindSpec find spec sofar)
      (fun _ => Midway p opening r rest ended reports asked (found ++ spec.outside))
      (Interrupted p opening) :=
  .bind (resolve_midway hfind sofar found) fun _ =>
    .answer (fun e _ hs => hs.interrupted e) _

theorem bindExclude_midway {exclude : Option Spec}
    (hfind : FindsAll p opening r find (exclude.toList.flatMap Spec.outside))
    (sofar : List Entry) (found : List Reference) :
    Triple (Midway p opening r rest ended reports asked found) (bindExclude find sofar exclude)
      (fun _ => Midway p opening r rest ended reports asked
        (found ++ exclude.toList.flatMap Spec.outside))
      (Interrupted p opening) := by
  cases exclude with
  | none =>
    rw [Option.toList_none, List.flatMap_nil, List.append_nil]
    exact .ret fun _ hs => hs
  | some spec =>
    rw [Option.toList_some, List.flatMap_singleton] at hfind ⊢
    rw [bindExclude, map_eq_pure_bind]
    exact .bind (bindSpec_midway hfind sofar found) fun _ => .ret fun _ hs => hs

theorem advance_midway {o : Operation} (hfind : FindsAll p opening r find o.outside)
    (pathCaseSensitive : Bool) (ignored : NameSet) (m : Materialized) :
    Triple (Midway p opening r rest ended reports asked found)
      (o.advance find expander.accounted pathCaseSensitive ignored m)
      (fun next => Midway p opening r rest ended
        (reports ++ [o.appliedOperation next.entries.length]) (asked ++ o.asked ignored)
        (found ++ o.outside))
      (Interrupted p opening) := by
  obtain ⟨hspec, hexclude⟩ := List.forall_mem_append.mp (o.outside_eq_append ▸ hfind)
  rw [advance_eq, o.outside_eq_append, ← List.append_assoc]
  refine .bind (bindSpec_midway hspec _ _) fun matcher => ?_
  refine .bind (bindExclude_midway hexclude _ _) fun exclude => ?_
  refine .bind (.ofEffect_midway fun _ => o.apply_accounted rfl m.entries) fun edit => ?_
  refine .bind (.ofEffect_midway fun _ => o.triple_log_appliedOperation _) fun _ => ?_
  exact .ret fun _ hs => hs

theorem applyAll_midway {options : Options} {ops : List Operation}
    (hfind : ∀ o ∈ ops, FindsAll p opening r find o.outside) (m : Materialized)
    (reports : List Log.Event) (asked : List Glob) (found : List Reference) :
    Triple (Midway p opening r rest ended reports asked found)
      (applyAll find expander.accounted options ops m)
      (fun last s => ∃ counts : List Nat, counts.length = ops.length ∧
        counts.getLastD m.entries.length = last.entries.length ∧
        Midway p opening r rest ended (reports ++ List.zipWith appliedOperation ops counts)
          (asked ++ askedAll options ops) (found ++ ops.flatMap outside) s)
      (Interrupted p opening) := by
  induction ops generalizing m reports asked found with
  | nil =>
    refine .ret fun s hs => ⟨[], rfl, rfl, ?_⟩
    rw [List.zipWith_nil_right, askedAll, List.flatMap_nil]
    simpa using hs
  | cons o rest' ih =>
    obtain ⟨ho, hrest⟩ := List.forall_mem_cons.mp hfind
    refine .bind (advance_midway ho _ _ m) fun next => ?_
    refine (ih hrest next _ _ _).weaken ?_
    rintro last s ⟨counts, hlength, hlast, hmidway⟩
    refine ⟨next.entries.length :: counts, ?_, ?_, ?_⟩
    · rw [List.length_cons, List.length_cons, hlength]
    · rw [← hlast]
      cases counts <;> rfl
    · simpa [askedAll, ignoredBefore, List.append_assoc] using hmidway

end Operation

end

end BuildItems
