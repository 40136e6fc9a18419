import BuildItems.Comparison.Mode
import BuildItems.Proofs.Path.Spelling
import BuildItems.Proofs.Text.Pieces

/-!
# Keys of paths

A path is given by whether it begins with a separator and by its segments. Its normal form is
written from normal segments and read back as these, so nothing but the path is in it: two values
have the same key if and only if both or neither begin with a separator and their segments spell the
same path.
-/

namespace BuildItems

namespace Path

def isSeparator (c : Char) : Bool := c == '/' || c == '\\'

def startsAtRoot (cs : List Char) : Bool := cs.head?.any isSeparator

def segments (cs : List Char) : List Segment := cs.splitOnP isSeparator

def written (rooted : Bool) (segments : List Segment) : List Char :=
  if rooted then '/' :: List.intercalate ['/'] segments else List.intercalate ['/'] segments

variable {rooted : Bool} {cs : List Char} {ss : List Segment}

theorem isRooted_forward (cs : List Char) : isRooted (forward cs) = startsAtRoot cs := by
  cases cs with
  | nil => rfl
  | cons c cs =>
    by_cases hc : c = '\\'
    · simp [isRooted, forward, startsAtRoot, isSeparator, hc]
    · simp [isRooted, forward, startsAtRoot, isSeparator, hc]

theorem splitOn_forward (cs : List Char) : (forward cs).splitOn '/' = segments cs := by
  induction cs with
  | nil => rfl
  | cons c cs ih =>
    change ((if c = '\\' then '/' else c) :: forward cs).splitOn '/' = _
    rw [segments, List.splitOn_cons_eq_if_modifyHead, List.splitOnP_cons_eq_if_modifyHead, ih]
    by_cases hback : c = '\\'
    · simp [isSeparator, hback, segments]
    · by_cases hslash : c = '/'
      · simp [isSeparator, hslash, segments]
      · simp [isSeparator, hback, hslash, segments]

theorem normal_eq (cs : List Char) :
    normal cs = written (startsAtRoot cs) (normalSegments (startsAtRoot cs) (segments cs)) := by
  unfold normal written
  simp only [isRooted_forward, splitOn_forward]

/-- No segment could be read as more than one. -/
def Whole (segments : List Segment) : Prop := ∀ s ∈ segments, ∀ c ∈ s, isSeparator c = false

theorem whole_normalSegments (rooted : Bool) (cs : List Char) :
    Whole (normalSegments rooted (segments cs)) :=
  fun _ hs _ hc => Text.not_of_mem_splitOnP (mem_of_mem_normalSegments hs) hc

theorem segments_slash (cs : List Char) : segments ('/' :: cs) = [] :: segments cs := by
  rw [segments, List.splitOnP_cons_eq_if_modifyHead]
  rfl

theorem segments_intercalate (h : Whole ss) (hne : ss ≠ []) :
    segments (List.intercalate ['/'] ss) = ss := by
  induction ss with
  | nil => exact absurd rfl hne
  | cons s ss ih =>
    obtain ⟨hs, hss⟩ := List.forall_mem_cons.mp h
    cases ss with
    | nil =>
      rw [List.intercalate_singleton]
      exact List.splitOnP_eq_singleton hs
    | cons t ss =>
      rw [List.intercalate_cons_cons, List.append_assoc]
      exact (List.splitOnP_append_cons_of_forall_mem hs '/' rfl _).trans
        (congrArg (s :: ·) (ih hss (List.cons_ne_nil t ss)))

theorem IsNormal.ne_nil_of_mem (h : IsNormal rooted ss) {s : Segment} (hs : s ∈ ss) : s ≠ [] := by
  obtain ⟨up, names, rfl, hnames, -⟩ := h
  rcases List.mem_append.mp hs with hs | hs
  · rw [List.eq_of_mem_replicate hs]
    decide
  · exact (hnames s hs).1

theorem startsAtRoot_written (h : IsNormal rooted ss) (hwhole : Whole ss) :
    startsAtRoot (written rooted ss) = rooted := by
  cases rooted with
  | true => rfl
  | false =>
    cases ss with
    | nil => rfl
    | cons s ss =>
      obtain ⟨c, s, rfl⟩ := List.exists_cons_of_ne_nil (h.ne_nil_of_mem List.mem_cons_self)
      have hc : isSeparator c = false :=
        hwhole _ List.mem_cons_self c List.mem_cons_self
      simp [written, startsAtRoot, hc]

theorem normalSegments_written (h : IsNormal rooted ss) (hwhole : Whole ss) :
    normalSegments rooted (segments (written rooted ss)) = ss := by
  have hread : normalSegments rooted (segments (List.intercalate ['/'] ss)) = ss := by
    by_cases hne : ss = []
    · rw [hne]
      rfl
    · rw [segments_intercalate hwhole hne, h.normalSegments_eq]
  cases rooted with
  | false => exact hread
  | true =>
    change normalSegments true (segments ('/' :: _)) = ss
    rw [segments_slash]
    exact hread

theorem written_inj {rooted' : Bool} {ss' : List Segment} (h : IsNormal rooted ss)
    (hwhole : Whole ss) (h' : IsNormal rooted' ss') (hwhole' : Whole ss') :
    written rooted ss = written rooted' ss' ↔ rooted = rooted' ∧ ss = ss' := by
  constructor
  · intro heq
    have hrooted := startsAtRoot_written h hwhole
    have hread := normalSegments_written h hwhole
    rw [heq] at hrooted hread
    rw [startsAtRoot_written h' hwhole'] at hrooted
    subst hrooted
    exact ⟨rfl, hread.symm.trans (normalSegments_written h' hwhole')⟩
  · rintro ⟨rfl, rfl⟩
    rfl

theorem not_mem_written (hwhole : Whole ss) : '\\' ∉ written rooted ss := by
  have hjoined : '\\' ∉ List.intercalate ['/'] ss := by
    induction ss with
    | nil => exact List.not_mem_nil
    | cons s ss ih =>
      obtain ⟨hs, hss⟩ := List.forall_mem_cons.mp hwhole
      have hseparator : '\\' ∉ s := fun hc => nomatch hs '\\' hc
      cases ss with
      | nil => simpa using hseparator
      | cons t ss => simpa [List.intercalate_cons_cons, hseparator] using ih hss
  cases rooted with
  | false => exact hjoined
  | true => simpa [written] using hjoined

theorem normal_written (h : IsNormal rooted ss) (hwhole : Whole ss) :
    normal (written rooted ss) = written rooted ss := by
  rw [normal_eq, startsAtRoot_written h hwhole, normalSegments_written h hwhole]

theorem normal_normal (cs : List Char) : normal (normal cs) = normal cs := by
  rw [normal_eq cs]
  exact normal_written (isNormal_normalSegments _ _) (whole_normalSegments _ cs)

theorem normal_eq_normal_iff {cs ds : List Char} :
    normal cs = normal ds ↔ startsAtRoot cs = startsAtRoot ds ∧
      SamePath (startsAtRoot cs) (segments cs) (segments ds) := by
  rw [normal_eq, normal_eq, written_inj (isNormal_normalSegments _ _) (whole_normalSegments _ cs)
    (isNormal_normalSegments _ _) (whole_normalSegments _ ds)]
  refine and_congr_right fun hrooted => ?_
  rw [← hrooted, samePath_iff]

theorem normalize_normalize (text : String) : normalize (normalize text) = normalize text := by
  simp [normalize, normal_normal]

theorem exists_toList_normalize (text : String) :
    ∃ ss, (normalize text).toList = written (startsAtRoot text.toList) ss ∧
      IsNormal (startsAtRoot text.toList) ss ∧ Whole ss :=
  ⟨_, String.toList_ofList.trans (normal_eq text.toList), isNormal_normalSegments _ _,
    whole_normalSegments _ text.toList⟩

end Path

namespace ComparisonMode

/-- Paths have the same key if and only if they are spellings of one path. The key itself is a
spelling in normal form, which is its own normal form. -/
theorem key_pathLike_eq_iff {v w : String} (hv : v ≠ "") (hw : w ≠ "") :
    (pathLike.key true v = pathLike.key true w ↔
      Path.startsAtRoot v.toList = Path.startsAtRoot w.toList ∧
        Path.SamePath (Path.startsAtRoot v.toList) (Path.segments v.toList)
          (Path.segments w.toList)) ∧
      Path.normalize (Path.normalize v) = Path.normalize v ∧ '\\' ∉ (Path.normalize v).toList ∧
      ∃ ss, (Path.normalize v).toList = Path.written (Path.startsAtRoot v.toList) ss ∧
        Path.IsNormal (Path.startsAtRoot v.toList) ss ∧ Path.Whole ss := by
  obtain ⟨ss, hwritten, hnormal, hwhole⟩ := Path.exists_toList_normalize v
  refine ⟨?_, Path.normalize_normalize v, hwritten ▸ Path.not_mem_written hwhole, ss, hwritten,
    hnormal, hwhole⟩
  rw [← Path.normal_eq_normal_iff, key, key, if_neg hv, if_neg hw]
  simp [Path.normalize, String.ofList_inj]

theorem key_pathLike_eq_iff_detours :
    let v := "\\src/x\\..//.\\a.cs"
    let w := "/../src\\a.cs/"
    v ≠ "" ∧ w ≠ "" ∧ pathLike.key true v = some "/src/a.cs" ∧
      pathLike.key true w = some "/src/a.cs" ∧ Path.startsAtRoot v.toList = true ∧
      Path.SamePath true (Path.segments v.toList) (Path.segments w.toList) ∧
      Path.normalize (Path.normalize v) = Path.normalize v := by
  intro v w
  have hv : v ≠ "" := by decide
  have hw : w ≠ "" := by decide
  have hkey : pathLike.key true v = some "/src/a.cs" := by decide +kernel
  have hkey' : pathLike.key true w = some "/src/a.cs" := by decide +kernel
  have hroot : Path.startsAtRoot v.toList = true := by decide +kernel
  obtain ⟨hiff, hidem, -⟩ := key_pathLike_eq_iff hv hw
  have hsame := (hiff.mp (hkey.trans hkey'.symm)).2
  rw [hroot] at hsame
  exact ⟨hv, hw, hkey, hkey', hroot, hsame, hidem⟩

end ComparisonMode

end BuildItems
