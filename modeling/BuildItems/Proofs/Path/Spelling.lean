import BuildItems.Path.Normal
import Mathlib.Data.List.Induction
import Mathlib.Logic.Relation

/-!
# Spellings of one path

Segments that lead nowhere may be left out of a path: empty ones and current directories, a name
together with the parent directory right after it, and the parent directory of the root. Two lists
of segments spell the same path if they are equal up to this. Every list spells the same path as its
normal form, and lists that spell the same path have the same one.
-/

namespace BuildItems

namespace Path

def IsName (s : Segment) : Prop := s ≠ [] ∧ s ≠ here ∧ s ≠ parent

/-- One step of leaving out what leads nowhere. -/
inductive Shortens (rooted : Bool) : List Segment → List Segment → Prop
  | stay {s : Segment} (before after : List Segment) : s = [] ∨ s = here →
      Shortens rooted (before ++ s :: after) (before ++ after)
  | turnBack {s : Segment} (before after : List Segment) : IsName s →
      Shortens rooted (before ++ s :: parent :: after) (before ++ after)
  | aboveRoot (after : List Segment) : rooted = true → Shortens rooted (parent :: after) after

def SamePath (rooted : Bool) : List Segment → List Segment → Prop :=
  Relation.EqvGen (Shortens rooted)

/-- Parent directories first, unless the path is rooted, and then names. -/
def IsNormal (rooted : Bool) (segments : List Segment) : Prop :=
  ∃ up names, segments = List.replicate up parent ++ names ∧ (∀ s ∈ names, IsName s) ∧
    (rooted = true → up = 0)

variable {rooted : Bool} {kept segments segments' : List Segment} {s : Segment}

theorem segment_cases (s : Segment) : (s = [] ∨ s = here) ∨ s = parent ∨ IsName s := by
  by_cases hstay : s = [] ∨ s = here
  · exact .inl hstay
  · obtain ⟨hnil, hhere⟩ := not_or.mp hstay
    by_cases hparent : s = parent
    · exact .inr (.inl hparent)
    · exact .inr (.inr ⟨hnil, hhere, hparent⟩)

theorem pushSegment_of_stay (h : s = [] ∨ s = here) : pushSegment rooted kept s = kept := if_pos h

theorem pushSegment_of_isName (h : IsName s) : pushSegment rooted kept s = s :: kept := by
  obtain ⟨hnil, hhere, hparent⟩ := h
  rw [pushSegment.eq_def, if_neg (not_or.mpr ⟨hnil, hhere⟩), if_neg hparent]

theorem pushSegment_parent_of_isName (h : IsName s) :
    pushSegment rooted (s :: kept) parent = kept := by
  obtain ⟨_, _, hparent⟩ := h
  change (if s = parent then _ else kept) = kept
  exact if_neg hparent

theorem pushSegment_parent_root : pushSegment true [] parent = [] := rfl

theorem pushSegment_parent_replicate (up : Nat) :
    pushSegment false (List.replicate up parent) parent = List.replicate (up + 1) parent := by
  cases up with
  | zero => rfl
  | succ up => rfl

theorem mem_of_mem_pushSegment {t : Segment} (h : t ∈ pushSegment rooted kept s) :
    t = s ∨ t ∈ kept := by
  fun_cases pushSegment rooted kept s <;> simp_all [pushSegment.eq_def]

theorem Shortens.normalSegments_eq (h : Shortens rooted segments segments') :
    normalSegments rooted segments = normalSegments rooted segments' := by
  unfold normalSegments
  cases h with
  | stay before after hs =>
    rw [List.foldl_append, List.foldl_append, List.foldl_cons, pushSegment_of_stay hs]
  | turnBack before after hs =>
    rw [List.foldl_append, List.foldl_append, List.foldl_cons, List.foldl_cons,
      pushSegment_of_isName hs, pushSegment_parent_of_isName hs]
  | aboveRoot after hrooted =>
    rw [hrooted, List.foldl_cons, pushSegment_parent_root]

theorem SamePath.normalSegments_eq (h : SamePath rooted segments segments') :
    normalSegments rooted segments = normalSegments rooted segments' := by
  induction h with
  | rel _ _ hstep => exact hstep.normalSegments_eq
  | refl _ => rfl
  | symm _ _ _ ih => exact ih.symm
  | trans _ _ _ _ _ ih ih' => exact ih.trans ih'

/-- Taking one more segment in keeps the normal form and the path. -/
theorem IsNormal.push (h : IsNormal rooted segments) (s : Segment) :
    IsNormal rooted (pushSegment rooted segments.reverse s).reverse ∧
      ∀ after, SamePath rooted (segments ++ s :: after)
        ((pushSegment rooted segments.reverse s).reverse ++ after) := by
  rcases segment_cases s with hstay | rfl | hname
  · rw [pushSegment_of_stay hstay, List.reverse_reverse]
    exact ⟨h, fun after => .rel _ _ (.stay segments after hstay)⟩
  · obtain ⟨up, names, rfl, hnames, hup⟩ := h
    cases names using List.reverseRecOn with
    | nil =>
      rw [List.append_nil, List.reverse_replicate]
      cases rooted with
      | true =>
        rw [hup rfl]
        exact ⟨⟨0, [], rfl, hnames, fun _ => rfl⟩, fun after => .rel _ _ (.aboveRoot after rfl)⟩
      | false =>
        rw [pushSegment_parent_replicate, List.reverse_replicate]
        refine ⟨⟨up + 1, [], (List.append_nil _).symm, hnames, nofun⟩, fun after => ?_⟩
        rw [List.replicate_succ', List.append_assoc]
        exact .refl _
    | append_singleton init last _ =>
      obtain ⟨hinit, hlast⟩ := List.forall_mem_append.mp hnames
      have hname : IsName last := hlast last (List.mem_singleton_self last)
      rw [← List.append_assoc, List.reverse_concat, pushSegment_parent_of_isName hname,
        List.reverse_reverse]
      refine ⟨⟨up, init, rfl, hinit, hup⟩, fun after => .rel _ _ ?_⟩
      rw [List.append_assoc]
      exact .turnBack _ after hname
  · obtain ⟨up, names, rfl, hnames, hup⟩ := h
    rw [pushSegment_of_isName hname, List.reverse_cons, List.reverse_reverse]
    refine ⟨⟨up, names ++ [s], List.append_assoc .., ?_, hup⟩, fun after => ?_⟩
    · exact List.forall_mem_append.mpr ⟨hnames, List.forall_mem_singleton.mpr hname⟩
    · rw [List.append_assoc _ [s] after]
      exact .refl _

theorem IsNormal.foldl_push (h : IsNormal rooted segments) (more : List Segment) :
    IsNormal rooted (more.foldl (pushSegment rooted) segments.reverse).reverse ∧
      SamePath rooted (segments ++ more)
        (more.foldl (pushSegment rooted) segments.reverse).reverse := by
  induction more generalizing segments with
  | nil =>
    rw [List.foldl_nil, List.reverse_reverse, List.append_nil]
    exact ⟨h, .refl _⟩
  | cons s more ih =>
    obtain ⟨hnormal, hsame⟩ := h.push s
    obtain ⟨hrest, hrestSame⟩ := ih hnormal
    rw [List.reverse_reverse] at hrest hrestSame
    exact ⟨hrest, (hsame more).trans _ _ _ hrestSame⟩

theorem isNormal_nil : IsNormal rooted [] := ⟨0, [], rfl, List.forall_mem_nil _, fun _ => rfl⟩

theorem isNormal_normalSegments (rooted : Bool) (segments : List Segment) :
    IsNormal rooted (normalSegments rooted segments) :=
  (isNormal_nil.foldl_push segments).1

theorem samePath_normalSegments (rooted : Bool) (segments : List Segment) :
    SamePath rooted segments (normalSegments rooted segments) :=
  (isNormal_nil.foldl_push segments).2

theorem samePath_iff :
    SamePath rooted segments segments' ↔
      normalSegments rooted segments = normalSegments rooted segments' := by
  refine ⟨SamePath.normalSegments_eq, fun h => ?_⟩
  have hsame := samePath_normalSegments rooted segments
  rw [h] at hsame
  exact hsame.trans _ _ _ (samePath_normalSegments rooted segments').symm

theorem foldl_pushSegment_of_isName {names : List Segment} (h : ∀ s ∈ names, IsName s) :
    names.foldl (pushSegment rooted) kept = names.reverse ++ kept := by
  induction names generalizing kept with
  | nil => rfl
  | cons s names ih =>
    obtain ⟨hs, hnames⟩ := List.forall_mem_cons.mp h
    rw [List.foldl_cons, pushSegment_of_isName hs, ih hnames, List.reverse_cons,
      List.append_assoc]
    rfl

theorem foldl_pushSegment_replicate (up : Nat) :
    (List.replicate up parent).foldl (pushSegment false) [] = List.replicate up parent := by
  induction up with
  | zero => rfl
  | succ up ih =>
    rw [List.replicate_succ', List.foldl_append, ih, List.foldl_cons, List.foldl_nil,
      pushSegment_parent_replicate, List.replicate_succ']

theorem IsNormal.normalSegments_eq (h : IsNormal rooted segments) :
    normalSegments rooted segments = segments := by
  obtain ⟨up, names, rfl, hnames, hup⟩ := h
  have hparents : (List.replicate up parent).foldl (pushSegment rooted) [] =
      List.replicate up parent := by
    cases rooted with
    | true => rw [hup rfl]; rfl
    | false => exact foldl_pushSegment_replicate up
  rw [normalSegments, List.foldl_append, hparents, foldl_pushSegment_of_isName hnames,
    List.reverse_append, List.reverse_reverse, List.reverse_replicate]

theorem mem_of_mem_normalSegments (h : s ∈ normalSegments rooted segments) : s ∈ segments := by
  have hfoldl : ∀ kept, s ∈ segments.foldl (pushSegment rooted) kept → s ∈ segments ∨ s ∈ kept := by
    clear h
    induction segments with
    | nil => exact fun _ => .inr
    | cons t segments ih =>
      intro kept h
      rw [List.mem_cons]
      rcases ih _ h with h | h
      · exact .inl (.inr h)
      · rcases mem_of_mem_pushSegment h with rfl | h
        · exact .inl (.inl rfl)
        · exact .inr h
  exact (hfoldl [] (List.mem_reverse.mp h)).resolve_right List.not_mem_nil

end Path

end BuildItems
