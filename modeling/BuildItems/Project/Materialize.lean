import BuildItems.Operation.Effect
import BuildItems.Project.Basic

/-!
# Computing the items of a type

Nothing is computed until the items of a type are asked for. Then its operations are applied in
order, starting from the empty list. A reference to another type stands for the items after the
operations it was frozen to; these are computed in the same way and remembered for the rest of the
run. A reference to the type itself stands for the list so far.
-/

namespace BuildItems

structure Materialized where
  entries : List Entry := []
  removedGlobs : NameSet := ∅

structure Session (σ : Type) where
  trace : Trace σ
  memo : List (Reference × Materialized) := []

abbrev Run (σ : Type) := ExceptT EvalError (StateM (Session σ))

namespace Run

variable {σ α : Type}

def ofExcept (x : Except EvalError α) : Run σ α := ExceptT.mk (pure x)

def ofEffect (x : Effect σ α) : Run σ α :=
  ExceptT.mk fun s => let (a, trace) := x.run s.trace; (a, { s with trace := trace })

def remembered (r : Reference) : Run σ (Option Materialized) := do
  pure ((← get).memo.lookup r)

def remember (r : Reference) (m : Materialized) : Run σ Unit :=
  modify fun s => { s with memo := (r, m) :: s.memo }

def memoized (r : Reference) (compute : Run σ Materialized) : Run σ Materialized := do
  match ← remembered r with
  | some m => pure m
  | none => do
    let m ← compute
    remember r m
    pure m

end Run

def removedBy (ops : List Operation) : NameSet :=
  ops.foldl (fun globs o => globs.union o.removedGlobs) ∅

namespace Operation

variable {σ : Type}

/-- The lists that the references of a specification stand for: those of its own type for the list
so far. -/
def resolve (find : Reference → Run σ (List Entry)) (spec : Spec) (sofar : List Entry) :
    Run σ (List ResolvedReference) :=
  spec.references.mapM fun r =>
    if r.itemType = spec.itemType then pure ⟨r.itemType, sofar⟩
    else do
      let entries ← find r
      pure ⟨r.itemType, entries⟩

def bindSpec (find : Reference → Run σ (List Entry)) (spec : Spec) (sofar : List Entry) :
    Run σ BoundSpec := do
  let references ← resolve find spec sofar
  Run.ofExcept (BoundSpec.bind spec references)

def appliedOperation (o : Operation) (count : Nat) : Log.Event :=
  ⟨.trace, [(Log.Field.itemType, .text o.itemType), (Log.Field.opKind, .text o.kind.name),
    (Log.Field.location, .text o.location.text), (Log.Field.itemCount, .number count),
    (Log.Field.message, .text "applied item operation")]⟩

def advance (find : Reference → Run σ (List Entry)) (expander : Expander σ)
    (pathCaseSensitive : Bool) (ignored : NameSet) (o : Operation) (m : Materialized) :
    Run σ Materialized := do
  let matcher ← bindSpec find o.spec m.entries
  let exclude ← match o.action.exclude? with
    | some spec => some <$> bindSpec find spec m.entries
    | none => pure none
  let ctx : Context σ := ⟨matcher, exclude, ignored, expander, pathCaseSensitive⟩
  let edit ← Run.ofEffect (o.apply ctx m.entries)
  let entries := edit.apply m.entries
  Run.ofEffect (Effect.log (o.appliedOperation entries.length))
  pure ⟨entries, m.removedGlobs.union o.removedGlobs⟩

/-- The operations applied in order, each ignoring the globs that later ones remove if those need
not be expanded. -/
def applyAll (find : Reference → Run σ (List Entry)) (expander : Expander σ) (options : Options) :
    List Operation → Materialized → Run σ Materialized
  | [], m => pure m
  | o :: rest, m => do
    let ignored := if options.skipRemovedGlobs then removedBy rest else ∅
    let next ← o.advance find expander options.pathLikeCaseSensitive ignored m
    applyAll find expander options rest next

end Operation

namespace Project

variable {σ : Type}

/-- The items of a type after its first operations, looked for among the first declarations only;
`find` gives the items for the references to other types. -/
def foldFirst (p : Project) (expander : Expander σ) (horizon : Nat)
    (find : Reference → Run σ (List Entry)) (r : Reference) : Run σ Materialized :=
  let declared := p.operationsBefore horizon r.itemType
  if r.opCount ≤ declared.length then
    Operation.applyAll find expander p.options (declared.take r.opCount) {}
  else throw (.referenceOutOfRange r.itemType r.opCount declared.length)

/-- Each reference computed once. One inside an operation was frozen before the operation was
declared, so it is looked for among fewer declarations. -/
def fold (p : Project) (expander : Expander σ) : Nat → Reference → Run σ Materialized
  | 0, r => Run.memoized r (p.foldFirst expander 0 (fun _ => pure []) r)
  | earlier + 1, r =>
    let find (u : Reference) : Run σ (List Entry) := do
      let m ← p.fold expander earlier u
      pure m.entries
    Run.memoized r (p.foldFirst expander (earlier + 1) find r)

def fullReference (p : Project) (itemType : String) : Reference :=
  ⟨itemType, p.operationCount itemType⟩

def foldType (p : Project) (expander : Expander σ) (itemType : String) : Run σ Materialized :=
  p.fold expander p.operations.length (p.fullReference itemType)

def foldTypes (p : Project) (expander : Expander σ) :
    List String → StateM (Session σ) (Except (String × EvalError) (List (String × Materialized)))
  | [] => pure (.ok [])
  | t :: ts => do
    match ← (p.foldType expander t).run with
    | .error e => pure (.error (t, e))
    | .ok m => do
      match ← p.foldTypes expander ts with
      | .error e => pure (.error e)
      | .ok ms => pure (.ok ((t, m) :: ms))

def component : String × Log.Value := (Log.Field.component, .text "lazyitems_core::evaluator")

def logged {α ε : Type} (start : Log.Event) (finish : α → Log.Event) (failure : ε → Log.Event)
    (run : StateM (Session σ) (Except ε α)) (host : σ) : Except ε α × Trace σ :=
  let (answer, session) := run ⟨⟨host, [start]⟩, []⟩
  let last := match answer with
    | .ok a => finish a
    | .error e => failure e
  (answer, { session.trace with log := session.trace.log ++ [last] })

def materialize (p : Project) (expander : Expander σ) (itemType : String) (host : σ) :
    Except EvalError Materialized × Trace σ :=
  let ofType := (Log.Field.itemType, Log.Value.text itemType)
  logged
    (.start "materialize" [component, (Log.Field.evaluationId, .text p.id.text), ofType])
    (fun m => .finish "materialize" .elapsed
      [component, ofType, (Log.Field.opCount, .number (p.operationCount itemType)),
        (Log.Field.itemCount, .number m.entries.length),
        (Log.Field.globCount, .number m.removedGlobs.size)])
    (fun e => .failure "materialize" .elapsed e [component, ofType])
    (p.foldType expander itemType).run host

def materializeAll (p : Project) (expander : Expander σ) (host : σ) :
    Except EvalError (List (String × Materialized)) × Trace σ :=
  let (answer, trace) := logged
    (.start "materialize_all" [component, (Log.Field.evaluationId, .text p.id.text)])
    (fun ms => .finish "materialize_all" .elapsed
      [component, (Log.Field.itemCount, .number ms.length)])
    (fun (t, e) => .failure "materialize_all" .elapsed e
      [component, (Log.Field.itemType, .text t)])
    (p.foldTypes expander p.itemTypes.names) host
  (answer.mapError Prod.snd, trace)

end Project

end BuildItems
