import BuildItems.Proofs.Operation.Removing
import BuildItems.Proofs.Project.Accounted
import Mathlib.Algebra.BigOperators.Group.Finset.Basic

/-!
# Each prefix once

The main statement says which prefixes a run computes and how many globs it asks for, if no glob
fails: what the prefixes asked for need, directly or through others, each of them once, however
many references lead to it; and for each the globs of its own Includes that are not removed later.
-/

namespace BuildItems

variable {σ : Type}

namespace Operation

/-- The globs of the Includes that apply, without those that a later operation removes if these are
skipped. -/
def unskipped (skip : Bool) : List Operation → List Glob
  | [] => []
  | o :: rest =>
    let own := if o.kind = .includes ∧ o.condition then o.spec.globs else []
    let later := if skip then rest.flatMap removing else []
    own.filter (fun g => !later.any (·.text == g.text)) ++ unskipped skip rest

theorem contains_ignoredBefore (options : Options) (rest : List Operation) (text : String) :
    NameMap.contains (ignoredBefore options rest) text =
      (if options.skipRemovedGlobs then rest.flatMap removing else []).any (·.text == text) := by
  unfold ignoredBefore
  cases options.skipRemovedGlobs with
  | false => rfl
  | true =>
    rw [if_pos rfl, if_pos rfl, Bool.eq_iff_iff, contains_removedBy_iff]
    simp

theorem asked_eq_filter (o : Operation) (ignored : NameSet) :
    o.asked ignored = (if o.kind = .includes ∧ o.condition then o.spec.globs else []).filter
      fun g => !NameMap.contains ignored g.text := by
  unfold asked kind
  cases o.action <;> cases o.condition <;> simp [Action.kind]

theorem askedAll_eq_unskipped (options : Options) (ops : List Operation) :
    askedAll options ops = unskipped options.skipRemovedGlobs ops := by
  induction ops with
  | nil => rfl
  | cons o rest ih =>
    rw [askedAll, unskipped, ih, asked_eq_filter]
    simp only [contains_ignoredBefore]

end Operation

/-- Every computation came to its end, there was one for each of the prefixes and no other, and as
many globs were asked for as the prefixes have to expand. -/
structure Account.Covers (p : Project) (prefixes : Finset Reference) (a : Account) : Prop where
  ended : a.underway = []
  once : (computed a.finished).Nodup
  mem_computed_iff : ∀ u, u ∈ computed a.finished ↔ u ∈ prefixes
  length_asked : a.asked.length =
    ∑ u ∈ prefixes, (Operation.unskipped p.options.skipRemovedGlobs (p.firstOperations u)).length

section

variable {p : Project} {opening : Log.Event} {under : List Episode}
  {ended : List (Episode × Materialized)} {r u : Reference} {s : Session (σ × Account)}

theorem Sound.mem_computed_of_reflTransGen (h : Sound p under ended) (hr : r ∈ computed ended)
    (hu : Relation.ReflTransGen p.Needs r u) : u ∈ computed ended := by
  induction hu with
  | refl => exact hr
  | tail _ hneeds ih => exact h.closed _ ih _ hneeds

theorem Recorded.length_asked (h : Recorded p opening [] ended s) :
    s.trace.host.2.asked.length = ∑ u ∈ (computed ended).toFinset,
      (Operation.unskipped p.options.skipRemovedGlobs (p.firstOperations u)).length := by
  let globs : Reference → List Glob := fun u =>
    Operation.unskipped p.options.skipRemovedGlobs (p.firstOperations u)
  have hasked : ∀ x ∈ ended, x.1.asked.length = (globs x.1.reference).length := fun x hx =>
    congrArg List.length
      ((h.sound.complete x hx).asked.trans (Operation.askedAll_eq_unskipped _ _))
  calc s.trace.host.2.asked.length
      = ((ended.map Prod.fst).flatMap Episode.asked).length := h.balanced.asked.length_eq
    _ = (ended.map fun x => x.1.asked.length).sum := by
      rw [List.length_flatMap, List.map_map]
      rfl
    _ = (ended.map fun x => (globs x.1.reference).length).sum :=
      congrArg List.sum (List.map_congr_left hasked)
    _ = ((computed ended).map fun u => (globs u).length).sum := by
      rw [computed, List.map_map]
      rfl
    _ = ∑ u ∈ (computed ended).toFinset, (globs u).length :=
      (List.sum_toFinset _ h.sound.nodup).symm

theorem Recorded.covers (h : Recorded p opening [] ended s) :
    s.trace.host.2.Covers p (computed ended).toFinset where
  ended := List.modifyHead_eq_nil_iff.mp h.balanced.underway
  once := by
    rw [h.balanced.finished]
    exact h.sound.nodup
  mem_computed_iff u := by rw [h.balanced.finished, List.mem_toFinset]
  length_asked := h.length_asked

/-- If what was computed is needed by these prefixes and they are among it, it is all that they
need. -/
theorem Recorded.mem_toFinset_iff (h : Recorded p opening [] ended s) (wanted : Reference → Prop)
    (hneeded : ∀ x ∈ ended, ∃ r, wanted r ∧ Relation.ReflTransGen p.Needs r x.1.reference)
    (hwanted : ∀ r, wanted r → r ∈ computed ended) :
    u ∈ (computed ended).toFinset ↔ ∃ r, wanted r ∧ Relation.ReflTransGen p.Needs r u := by
  rw [List.mem_toFinset]
  constructor
  · intro hu
    obtain ⟨x, hx, rfl⟩ := List.mem_map.mp hu
    exact hneeded x hx
  · rintro ⟨r, hr, hreach⟩
    exact h.sound.mem_computed_of_reflTransGen (hwanted r hr) hreach

end

namespace Project

variable {p : Project}

theorem Coherent.covers_materializeAccounted (hp : p.Coherent) {expander : Expander σ}
    {itemType : String} {host : σ}
    (hok : ∃ m, (p.materializeAccounted expander itemType host).1 = .ok m) :
    ∃ prefixes : Finset Reference,
      (∀ u, u ∈ prefixes ↔ Relation.ReflTransGen p.Needs (p.fullReference itemType) u) ∧
        (p.materializeAccounted expander itemType host).2.host.2.Covers p prefixes := by
  obtain ⟨m, hm⟩ := hok
  obtain ⟨under, ended, hrecorded, hended⟩ := hp.exists_recorded_foldTypeAccounted expander itemType
    (recorded_opened p (p.opening itemType) host)
  obtain ⟨rfl, hneeded, e, hmem, he⟩ := hended m hm
  refine ⟨_, fun u => ?_, hrecorded.covers⟩
  refine (hrecorded.mem_toFinset_iff (· = p.fullReference itemType) ?_ ?_).trans exists_eq_left
  · exact fun x hx => ⟨_, rfl, hneeded x hx⟩
  · rintro r rfl
    exact he ▸ mem_computed_of_mem hmem

theorem Coherent.covers_materializeAllAccounted (hp : p.Coherent) {expander : Expander σ}
    {host : σ} (hok : ∃ ms, (p.materializeAllAccounted expander host).1 = .ok ms) :
    ∃ prefixes : Finset Reference,
      (∀ u, u ∈ prefixes ↔
        ∃ t ∈ p.itemTypes.names, Relation.ReflTransGen p.Needs (p.fullReference t) u) ∧
        (p.materializeAllAccounted expander host).2.host.2.Covers p prefixes := by
  obtain ⟨ms, hms⟩ := hok
  obtain ⟨under, ended, hrecorded, hended⟩ := hp.exists_recorded_inTurn expander p.itemTypes.names
    (recorded_opened p p.openingAll host)
  obtain ⟨rfl, hneeded, hwanted⟩ := hended ms hms
  have hall : ∀ {reaches : Reference → Prop},
      (∃ r, (∃ t ∈ p.itemTypes.names, p.fullReference t = r) ∧ reaches r) ↔
        ∃ t ∈ p.itemTypes.names, reaches (p.fullReference t) := by simp
  refine ⟨_, fun u => ?_, hrecorded.covers⟩
  refine (hrecorded.mem_toFinset_iff _ ?_ ?_).trans hall
  · exact fun x hx => hall.mpr (hneeded x hx)
  · rintro _ ⟨t, ht, rfl⟩
    exact hwanted t ht

theorem Coherent.exists_materialize_eq_ok (hp : p.Coherent) {expander : Expander σ}
    (hanswers : ∀ g other, ∃ values, (expander g other).1 = .ok values) (host : σ) :
    (∀ itemType, ∃ m, (p.materialize expander itemType host).1 = .ok m) ∧
      ∃ ms, (p.materializeAll expander host).1 = .ok ms := by
  have hnone : ∀ e, ¬ Answers expander e := by
    rintro e ⟨g, other, h⟩
    obtain ⟨values, hvalues⟩ := hanswers g other
    rw [hvalues] at h
    cases h
  exact ⟨fun _ => exists_eq_ok fun e h => hnone e (hp.answers_of_materialize h),
    exists_eq_ok fun e h => hnone e (hp.answers_of_materializeAll h)⟩

/-- With an expander that never fails, one call computes each prefix at most once: those that the
types asked for need, directly or through others, whatever the conditions of the operations. So the
globs are asked for once for each prefix in which an Include that applies has them and no later
operation removes them. -/
theorem each_prefix_computed_once (hp : p.Reachable) (expander : Expander σ)
    (hanswers : ∀ g other, ∃ values, (expander g other).1 = .ok values) (host : σ) :
    (∀ itemType,
      let run := p.materializeAccounted expander itemType host
      p.materialize expander itemType host = (run.1, run.2.view Prod.fst) ∧
        ∃ prefixes : Finset Reference,
          (∀ u, u ∈ prefixes ↔ Relation.ReflTransGen p.Needs (p.fullReference itemType) u) ∧
            run.2.host.2.Covers p prefixes) ∧
    (let run := p.materializeAllAccounted expander host
     p.materializeAll expander host = (run.1.mapError Prod.snd, run.2.view Prod.fst) ∧
      ∃ prefixes : Finset Reference,
        (∀ u, u ∈ prefixes ↔
          ∃ t ∈ p.itemTypes.names, Relation.ReflTransGen p.Needs (p.fullReference t) u) ∧
          run.2.host.2.Covers p prefixes) := by
  have hcoherent := hp.coherent
  obtain ⟨hone, hall⟩ := hcoherent.exists_materialize_eq_ok hanswers host
  refine ⟨fun itemType => ?_, ?_⟩
  · have hview := p.materialize_accounted expander itemType host
    obtain ⟨m, hm⟩ := hone itemType
    rw [hview] at hm
    exact ⟨hview, hcoherent.covers_materializeAccounted ⟨m, hm⟩⟩
  · have hview := p.materializeAll_accounted expander host
    obtain ⟨ms, hms⟩ := hall
    rw [hview] at hms
    exact ⟨hview, hcoherent.covers_materializeAllAccounted ⟨ms, mapError_eq_ok_iff.mp hms⟩⟩

def diamond : Project :=
  declareAll { id := ⟨"diamond"⟩ }
    [{ kind := .includes, itemType := "A", itemSpec := "*.a;*.t" },
      { kind := .includes, itemType := "B", itemSpec := "@(A);*.b" },
      { kind := .removes, itemType := "A", itemSpec := "*.t" },
      { kind := .includes, itemType := "C", itemSpec := "@(A);*.c", condition := false },
      { kind := .includes, itemType := "D", itemSpec := "@(B);@(C);@(B)", exclude := some "@(A)" }]

theorem reachable_diamond : diamond.Reachable := (Reachable.start ⟨"diamond"⟩ {}).declareAll _

/-- The first type is computed once for each number of its operations that is referred to. The glob
that its second operation removes is expanded for the first alone, and the third type, which does not
apply, asks for none. -/
theorem each_prefix_computed_once_diamond :
    let expander : Expander Unit := .fixed fun _ => .ok ["x"]
    let run := diamond.materializeAccounted expander "D" ()
    (∀ g other, ∃ values, (expander g other).1 = .ok values) ∧
      diamond.materialize expander "D" () = (run.1, run.2.view Prod.fst) ∧
      (∃ prefixes : Finset Reference,
        (∀ u, u ∈ prefixes ↔ Relation.ReflTransGen diamond.Needs (diamond.fullReference "D") u) ∧
          run.2.host.2.Covers diamond prefixes) ∧
      computed run.2.host.2.finished = [⟨"A", 1⟩, ⟨"B", 1⟩, ⟨"A", 2⟩, ⟨"C", 1⟩, ⟨"D", 1⟩] ∧
      run.2.host.2.asked.map Glob.text = ["*.a", "*.t", "*.b", "*.a"] := by
  intro expander
  have hanswers : ∀ g other, ∃ values, (expander g other).1 = .ok values := fun _ _ => ⟨_, rfl⟩
  obtain ⟨hview, hcovers⟩ := (each_prefix_computed_once reachable_diamond expander hanswers ()).1 "D"
  refine ⟨hanswers, hview, hcovers, ?_, ?_⟩
  · decide +kernel
  · decide +kernel

end Project

end BuildItems
