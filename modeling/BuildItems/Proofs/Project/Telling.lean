import BuildItems.Proofs.Project.Accounted

/-!
# What the log of a run tells

The log of a run opens with its start and closes with its end, in success or in error. Between them
there is no boundary, only what the computations told: one report for each operation of a prefix
that was computed, in order, and the last report has the number of its items.
-/

namespace BuildItems

variable {σ : Type}

/-- The start of an operation, what was told on the way without a boundary, and a last event. -/
structure Log.Bracketed (op : String) (inner : List Log.Event) (last : Log.Event)
    (log : List Log.Event) : Prop where
  opened : ∃ first : Log.Event, first.op? = some op ∧ first.event? = some "start" ∧
    log = first :: (inner ++ [last])
  silent : ∀ x ∈ inner, x.event? = none
  closed : last.op? = some op

structure Log.Event.Reports (x : Log.Event) (o : Operation) (count : Nat) : Prop where
  level : x.level = .trace
  message : x.fields.lookup Log.Field.message = some (.text "applied item operation")
  itemType : x.fields.lookup Log.Field.itemType = some (.text o.itemType)
  opKind : x.fields.lookup Log.Field.opKind = some (.text o.kind.name)
  location : x.fields.lookup Log.Field.location = some (.text o.location.text)
  itemCount : x.fields.lookup Log.Field.itemCount = some (.number count)

structure Episode.Contributes (p : Project) (e : Episode) (m : Materialized) : Prop where
  length_reports : (e.told.filter (·.isReport)).length = e.reference.opCount
  itemType : ∀ report ∈ e.told.filter (·.isReport), report.itemType? = some e.reference.itemType
  inOrder : List.Forall₂ (fun report o => ∃ count, report.Reports o count)
    (e.told.filter (·.isReport)) (p.firstOperations e.reference)
  last : ∀ report ∈ (e.told.filter (·.isReport)).getLast?,
    report.fields.lookup Log.Field.itemCount = some (.number m.entries.length)

/-- The events are those of the computations, each in its order, and every finished computation has
made its reports. -/
structure Account.Tells (p : Project) (events : List Log.Event) (a : Account) : Prop where
  told : events.Perm ((a.underway ++ a.finished.map Prod.fst).flatMap Episode.told)
  inOrder : ∀ e ∈ a.underway ++ a.finished.map Prod.fst, e.told.Sublist events
  once : (computed a.finished).Nodup
  contributes : ∀ x ∈ a.finished, x.1.Contributes p x.2

section

variable {p : Project} {opening : Log.Event} {under : List Episode}
  {ended : List (Episode × Materialized)} {e : Episode} {m : Materialized}
  {s : Session (σ × Account)}

theorem Operation.reports_appliedOperation (o : Operation) (count : Nat) :
    (o.appliedOperation count).Reports o count :=
  ⟨rfl, rfl, rfl, rfl, rfl, rfl⟩

theorem forall₂_reports_zipWith {ops : List Operation} {counts : List Nat}
    (h : counts.length = ops.length) :
    List.Forall₂ (fun report o => ∃ count, report.Reports o count)
      (List.zipWith Operation.appliedOperation ops counts) ops := by
  induction ops generalizing counts with
  | nil => exact .nil
  | cons o ops ih =>
    obtain ⟨count, counts, rfl⟩ := List.exists_cons_of_length_eq_add_one h
    exact .cons ⟨count, o.reports_appliedOperation count⟩ (ih (Nat.succ.inj h))

theorem itemCount_getLast?_zipWith {ops : List Operation} {counts : List Nat}
    (h : counts.length = ops.length) :
    ∀ report ∈ (List.zipWith Operation.appliedOperation ops counts).getLast?,
      report.fields.lookup Log.Field.itemCount = some (.number (counts.getLastD 0)) := by
  intro report hreport
  rcases ops.eq_nil_or_concat' with rfl | ⟨ops, o, rfl⟩
  · cases hreport
  · obtain ⟨counts, count, rfl⟩ : ∃ before last, counts = before ++ [last] := by
      rcases counts.eq_nil_or_concat' with rfl | hconcat
      · simp at h
      · exact hconcat
    rw [List.zipWith_append (by simpa using h.symm), List.zipWith_cons_cons,
      List.zipWith_nil_left, List.getLast?_concat] at hreport
    obtain rfl := Option.some.inj hreport
    rw [List.getLastD_concat]
    exact (o.reports_appliedOperation count).itemCount

theorem Episode.Completes.contributes (h : e.Completes p m) : e.Contributes p m := by
  obtain ⟨counts, hlength, hlast, hreports⟩ := h.reported
  constructor
  case length_reports =>
    rw [hreports, List.length_zipWith, hlength, Nat.min_self, Project.firstOperations,
      List.length_take]
    exact Nat.min_eq_left h.inRange
  case itemType =>
    intro report hreport
    rw [hreports, ← List.map_uncurry_zip_eq_zipWith] at hreport
    obtain ⟨⟨o, count⟩, hzip, rfl⟩ := List.mem_map.mp hreport
    have ho := (List.of_mem_zip hzip).1
    exact congrArg some (Project.mem_operations_of_mem_firstOperations ho).2
  case inOrder =>
    rw [hreports]
    exact forall₂_reports_zipWith hlength
  case last =>
    rw [hreports, ← hlast]
    exact itemCount_getLast?_zipWith hlength

theorem Recorded.tells (h : Recorded p opening under ended s) :
    ∃ inner, s.trace.log = opening :: inner ∧ (∀ x ∈ inner, x.event? = none) ∧
      (s.trace.host.2.settle s.trace.log).Tells p inner := by
  obtain ⟨inner, hlog, hperm, hsub⟩ := h.balanced.log
  have hunder := h.balanced.underway
  have hended : (s.trace.host.2.settle s.trace.log).finished = ended := h.balanced.finished
  refine ⟨inner, hlog, fun x hx => ?_, ?_⟩
  · obtain ⟨e, he, hxe⟩ := List.mem_flatMap.mp (hperm.mem_iff.mp hx)
    exact h.sound.silent e he x hxe
  · constructor
    case told => rwa [hunder, hended]
    case inOrder => rwa [hunder, hended]
    case once => exact hended ▸ h.sound.nodup
    case contributes =>
      rw [hended]
      exact fun x hx => (h.sound.complete x hx).contributes

end

namespace Project

def Concludes (p : Project) (itemType : String) (last : Log.Event) :
    Except EvalError Materialized → Prop
  | .ok m => last.event? = some "end" ∧ last.itemType? = some itemType ∧
      last.fields.lookup Log.Field.opCount = some (.number (p.operationCount itemType)) ∧
      last.fields.lookup Log.Field.itemCount = some (.number m.entries.length) ∧
      last.fields.lookup Log.Field.globCount = some (.number m.removedGlobs.size)
  | .error e => last.event? = some "end_error" ∧ last.itemType? = some itemType ∧
      last.field? Log.Field.errorKind = some e.kind.name ∧
      last.field? Log.Field.errorCode = some e.kind.code

/-- The last event of a run for all types. A failure is that of some type. -/
def ConcludesAll (last : Log.Event) :
    Except (String × EvalError) (List (String × Materialized)) → Prop
  | .ok ms => last.event? = some "end" ∧
      last.fields.lookup Log.Field.itemCount = some (.number ms.length)
  | .error (t, e) => last.event? = some "end_error" ∧ last.itemType? = some t ∧
      last.field? Log.Field.errorKind = some e.kind.name ∧
      last.field? Log.Field.errorCode = some e.kind.code

/-- The types before this one are computed, and it fails. -/
def FailsFirst (p : Project) (expander : Expander σ) (host : σ) (t : String) (e : EvalError) :
    Prop :=
  ∃ before after, p.itemTypes.names = before ++ t :: after ∧
    ∃ ms s, p.foldTypes expander before ⟨⟨host, [p.openingAll]⟩, []⟩ = (.ok ms, s) ∧
      ((p.foldType expander t).run s).1 = .error e

variable {p : Project} {expander : Expander σ} {host : σ} {opening : Log.Event}

theorem concludes_closing (p : Project) (itemType : String) (m : Materialized) :
    p.Concludes itemType (p.closing itemType m) (.ok m) :=
  ⟨rfl, rfl, rfl, rfl, rfl⟩

theorem concludes_failing (p : Project) (itemType : String) (e : EvalError) :
    p.Concludes itemType (failing itemType e) (.error e) :=
  ⟨rfl, rfl, rfl, rfl⟩

theorem exists_of_foldTypes_eq_error {ts : List String} {s : Session σ} {t : String}
    {e : EvalError} (h : (p.foldTypes expander ts s).1 = .error (t, e)) :
    ∃ before after, ts = before ++ t :: after ∧
      ∃ ms s', p.foldTypes expander before s = (.ok ms, s') ∧
        ((p.foldType expander t).run s').1 = .error e := by
  induction ts generalizing s with
  | nil => cases h
  | cons t' ts ih =>
    rcases hrun : (p.foldType expander t').run s with ⟨e' | m, s'⟩
    · rw [foldTypes_cons_of_error hrun] at h
      cases h
      exact ⟨[], ts, rfl, [], s, rfl, congrArg Prod.fst hrun⟩
    · rw [foldTypes_cons_of_ok hrun] at h
      obtain ⟨before, after, rfl, ms, last, hbefore, hlast⟩ := ih (map_eq_error_iff.mp h)
      refine ⟨t' :: before, after, rfl, (t', m) :: ms, last, ?_, hlast⟩
      rw [foldTypes_cons_of_ok hrun, hbefore]
      rfl

theorem failsFirst_of_materializeAllAccounted {t : String} {e : EvalError}
    (h : (p.materializeAllAccounted expander host).1 = .error (t, e)) :
    p.FailsFirst expander host t e := by
  let start : Session (σ × Account) := ⟨⟨(host, Account.opened), [p.openingAll]⟩, []⟩
  have hplain : p.foldTypes expander p.itemTypes.names (start.view Prod.fst) = _ :=
    (p.foldTypes_eq_inTurn expander _ _).trans
      (inTurn_view (fun t => p.foldAccounted_mirrors expander _ (p.fullReference t)) _ start)
  exact exists_of_foldTypes_eq_error ((congrArg Prod.fst hplain).trans h)

/-- The log of a run whose account is balanced and sound. -/
theorem bracketed_logged {α ε : Type} {op : String} {opening : Log.Event}
    {finish : α → Log.Event} {failure : ε → Log.Event}
    {run : StateM (Session (σ × Account)) (Except ε α)}
    {concludes : Log.Event → Except ε α → Prop}
    (hopening : opening.op? = some op ∧ opening.event? = some "start")
    (hfinish : ∀ a, (finish a).op? = some op ∧ concludes (finish a) (.ok a))
    (hfailure : ∀ e, (failure e).op? = some op ∧ concludes (failure e) (.error e))
    (hrecorded : ∃ under ended,
      Recorded p opening under ended (run ⟨⟨(host, Account.opened), [opening]⟩, []⟩).2) :
    let run := logged opening finish failure run (host, Account.opened)
    ∃ inner last, Log.Bracketed op inner last run.2.log ∧ concludes last run.1 ∧
      (run.2.host.2.settle run.2.log.dropLast).Tells p inner := by
  obtain ⟨under, ended, hrecorded⟩ := hrecorded
  obtain ⟨inner, hlog, hsilent, htells⟩ := hrecorded.tells
  obtain ⟨hop, hstart⟩ := hopening
  have hbracketed : ∀ last : Log.Event, last.op? = some op → Log.Bracketed op inner last
      ((run ⟨⟨(host, Account.opened), [opening]⟩, []⟩).2.trace.log ++ [last]) := fun last hlast =>
    ⟨⟨opening, hop, hstart, by rw [hlog, List.cons_append]⟩, hsilent, hlast⟩
  rw [logged]
  rcases hrun : run ⟨⟨(host, Account.opened), [opening]⟩, []⟩ with ⟨e | a, s⟩
  · rw [hrun] at htells hbracketed
    refine ⟨inner, failure e, hbracketed _ (hfailure e).1, (hfailure e).2, ?_⟩
    dsimp only
    rwa [List.dropLast_concat]
  · rw [hrun] at htells hbracketed
    refine ⟨inner, finish a, hbracketed _ (hfinish a).1, (hfinish a).2, ?_⟩
    dsimp only
    rwa [List.dropLast_concat]

/-- The log of a call tells what was computed, whether the call succeeds or fails. It is the start,
the events of the computations and the end, which is one in error exactly if the call fails; the
end has the counts of the result, or the kind and code of the error and, of all types, the first
that fails. Each prefix that was computed to its end has contributed a report for each of its
operations, in order, and the last has the number of its items; what is remembered tells nothing. -/
theorem log_tells_what_was_computed (hp : p.Reachable) (expander : Expander σ) (host : σ) :
    (∀ itemType,
      let run := p.materializeAccounted expander itemType host
      p.materialize expander itemType host = (run.1, run.2.view Prod.fst) ∧
        (∃ inner last, Log.Bracketed "materialize" inner last run.2.log ∧
          p.Concludes itemType last run.1 ∧
          (run.2.host.2.settle run.2.log.dropLast).Tells p inner) ∧
        ∀ m, run.1 = .ok m → run.2.host.2.underway = [] ∧
          ∃ e, (e, m) ∈ run.2.host.2.finished ∧ e.reference = p.fullReference itemType) ∧
    (let run := p.materializeAllAccounted expander host
     p.materializeAll expander host = (run.1.mapError Prod.snd, run.2.view Prod.fst) ∧
      (∃ inner last, Log.Bracketed "materialize_all" inner last run.2.log ∧
        ConcludesAll last run.1 ∧ (run.2.host.2.settle run.2.log.dropLast).Tells p inner) ∧
      (∀ ms, run.1 = .ok ms → run.2.host.2.underway = []) ∧
      ∀ t e, run.1 = .error (t, e) → p.FailsFirst expander host t e) := by
  have hcoherent := hp.coherent
  refine ⟨fun itemType => ⟨p.materialize_accounted expander itemType host, ?_, ?_⟩,
    p.materializeAll_accounted expander host, ?_, ?_,
    fun t e h => failsFirst_of_materializeAllAccounted h⟩
  · obtain ⟨under, ended, hrecorded, _⟩ :=
      hcoherent.exists_recorded_foldTypeAccounted expander itemType
        (recorded_opened p (p.opening itemType) host)
    exact bracketed_logged ⟨rfl, rfl⟩ (fun m => ⟨rfl, p.concludes_closing itemType m⟩)
      (fun e => ⟨rfl, p.concludes_failing itemType e⟩) ⟨under, ended, hrecorded⟩
  · intro m hm
    obtain ⟨under, ended, hrecorded, hok⟩ :=
      hcoherent.exists_recorded_foldTypeAccounted expander itemType
        (recorded_opened p (p.opening itemType) host)
    obtain ⟨rfl, -, e, hmem, he⟩ := hok m hm
    refine ⟨List.modifyHead_eq_nil_iff.mp hrecorded.balanced.underway, e, ?_, he⟩
    exact hrecorded.balanced.finished.symm ▸ hmem
  · obtain ⟨under, ended, hrecorded, _⟩ := hcoherent.exists_recorded_inTurn expander
      p.itemTypes.names (recorded_opened p p.openingAll host)
    exact bracketed_logged ⟨rfl, rfl⟩ (fun ms => ⟨rfl, rfl, rfl⟩)
      (fun failure => ⟨rfl, rfl, rfl, rfl, rfl⟩) ⟨under, ended, hrecorded⟩
  · intro ms hms
    obtain ⟨under, ended, hrecorded, hok⟩ := hcoherent.exists_recorded_inTurn expander
      p.itemTypes.names (recorded_opened p p.openingAll host)
    obtain ⟨rfl, -⟩ := hok ms hms
    exact List.modifyHead_eq_nil_iff.mp hrecorded.balanced.underway

/-- The list that is referred to is computed and reported; then a glob fails. -/
theorem log_tells_what_was_computed_globbed :
    let expander : Expander Unit :=
      .fixed (Expander.failingOn ["*.d"] "unreadable" fun g => .ok [g.text])
    let run := globbed.materializeAccounted expander "B" ()
    run.1 = .error (.invalidGlob "*.d" "unreadable") ∧
      (∃ inner last, Log.Bracketed "materialize" inner last run.2.log ∧
        globbed.Concludes "B" last run.1 ∧
        (run.2.host.2.settle run.2.log.dropLast).Tells globbed inner) ∧
      run.2.log.map Log.Event.event? = [some "start", none, some "end_error"] ∧
      run.2.log.map (·.fields.lookup Log.Field.itemCount) = [none, some (.number 3), none] ∧
      run.2.host.2.finished.map (fun x => (x.1.reference, x.2.entries.length)) =
        [(⟨"A", 1⟩, 3)] := by
  intro expander
  obtain ⟨_, htells, _⟩ := (log_tells_what_was_computed reachable_globbed expander ()).1 "B"
  refine ⟨?_, htells, ?_, ?_, ?_⟩
  · refine (map_eq_error_iff (f := fun _ => ())).mp ?_
    decide +kernel
  · decide +kernel
  · decide +kernel
  · decide +kernel

end Project

end BuildItems
