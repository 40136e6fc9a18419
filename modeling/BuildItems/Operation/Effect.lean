import BuildItems.Buffer.Store
import BuildItems.Glob.Expander
import BuildItems.Log.Event
import BuildItems.Operation.Basic
import BuildItems.Spec.Bound

/-!
# What an operation does to a list

On its way an operation may expand globs and log; both outlive a failure. What it does is told
twice: as an edit of a plain list, and as a program that writes to the list of a builder.
-/

namespace BuildItems

structure Trace (σ : Type) where
  host : σ
  log : List Log.Event := []

abbrev Effect (σ : Type) := ExceptT EvalError (StateM (Trace σ))

namespace Effect

variable {σ : Type}

def log (e : Log.Event) : Effect σ Unit := modify fun t => { t with log := t.log ++ [e] }

def expand (expander : Expander σ) (g : Glob) : Effect σ (List String) :=
  ExceptT.mk fun t => let (answer, host) := expander g t.host; (answer, { t with host := host })

end Effect

structure Context (σ : Type) where
  /-- Its own specification, with the references resolved. -/
  matcher : BoundSpec
  /-- The specification of what an Include leaves out. -/
  exclude : Option BoundSpec
  /-- Texts of globs that need not be expanded, as their items are removed later. -/
  ignored : NameSet
  expander : Expander σ
  pathCaseSensitive : Bool

def Context.plain {σ : Type} (matcher : BoundSpec) : Context σ :=
  ⟨matcher, none, ∅, .fixed Expander.nothing, true⟩

namespace Operation

variable {σ : Type}

def skippedGlob (g : Glob) : Log.Event :=
  ⟨.trace, [("glob", .text g.text), (Log.Field.message, .text "skipping glob removed later")]⟩

def clearedList (itemType : String) (removed : Nat) : Log.Event :=
  ⟨.debug, [(Log.Field.itemType, .text itemType), ("removed", .number removed),
    (Log.Field.message, .text "self-remove clears list")]⟩

def updatedItems (count : Nat) : Log.Event :=
  ⟨.trace, [("updated", .number count), (Log.Field.message, .text "update applied")]⟩

/-- The items a specification stands for, fragment by fragment; each reference takes the next of
the resolved lists, and its items keep their metadata. -/
def candidates (ctx : Context σ) (itemType : String) :
    List Fragment → List ResolvedReference → Effect σ (List Item)
  | [], _ => pure []
  | .literal value :: fs, rs => do
    let rest ← candidates ctx itemType fs rs
    pure (⟨itemType, value, ∅⟩ :: rest)
  | .glob g :: fs, rs => do
    if ctx.ignored.contains g.text then
      Effect.log (skippedGlob g)
      candidates ctx itemType fs rs
    else
      let values ← Effect.expand ctx.expander g
      let rest ← candidates ctx itemType fs rs
      pure (values.map (⟨itemType, ·, ∅⟩) ++ rest)
  | .reference _ :: fs, [] => candidates ctx itemType fs []
  | .reference _ :: fs, r :: rs => do
    let rest ← candidates ctx itemType fs rs
    pure (r.entries.map (fun e => { e.item with itemType := itemType }) ++ rest)

def isExcluded (ctx : Context σ) (item : Item) : Bool :=
  match ctx.exclude with
  | some exclude => exclude.matchesItem item
  | none => false

/-- Entries with the same identity are removed together. The list is left alone where nothing is
selected. -/
def removeSelected {α ι : Type} [BEq ι] (identity : α → ι) (selected : α → Bool)
    (xs : List α) : Edit α :=
  match (xs.filter selected).map identity with
  | [] => .keep
  | gone => .filter (fun x => !gone.contains (identity x)) xs

/-- If no selected element shares its identity with one that is not, just the selected go. -/
theorem apply_removeSelected {α ι : Type} [BEq ι] [LawfulBEq ι] (identity : α → ι)
    (selected : α → Bool) (xs : List α)
    (h : ∀ x ∈ xs, ∀ y ∈ xs, identity x = identity y → selected x = selected y) :
    (removeSelected identity selected xs).apply xs = xs.filter (!selected ·) := by
  have hmem : ∀ x ∈ xs, identity x ∈ (xs.filter selected).map identity ↔ selected x = true := by
    intro x hx
    simp only [List.mem_map, List.mem_filter]
    constructor
    · rintro ⟨y, ⟨hy, hsel⟩, hid⟩
      exact h y hy x hx hid ▸ hsel
    · exact fun hsel => ⟨x, ⟨hx, hsel⟩, rfl⟩
  unfold removeSelected
  split
  · next hnil =>
    refine (List.filter_eq_self.2 fun x hx => ?_).symm
    simpa [hnil] using hmem x hx
  · rw [Edit.apply_filter]
    refine List.filter_congr fun x hx => ?_
    by_cases hsel : selected x = true
    · simp [hsel, (hmem x hx).2 hsel]
    · simp [hsel, mt (hmem x hx).1 hsel]

def removes (ctx : Context σ) : Option MetadataMatch → Entry → Bool
  | none => fun e => ctx.matcher.matchesItem e.item
  | some m =>
    let index := ctx.matcher.metadataIndex m ctx.pathCaseSensitive
    fun e => index.contains e.item

def included (o : Operation) (metadata : Metadata) (ctx : Context σ) (items : List Item) :
    List Entry :=
  (items.filter (!isExcluded ctx ·)).map fun item => ⟨item.withMerged metadata, o.order⟩

def overridden? (metadata : Metadata) (ctx : Context σ) (e : Entry) : Option Entry :=
  if ctx.matcher.matchesItem e.item then some (e.withItem (e.item.withMerged metadata)) else none

def applyIncludes (o : Operation) (metadata : Metadata) (ctx : Context σ) (entries : List Entry) :
    Effect σ (Edit Entry) := do
  if o.condition then
    let items ← candidates ctx o.itemType o.spec.fragments ctx.matcher.references
    pure (.extend entries (o.included metadata ctx items))
  else pure .keep

def applyExcludes (o : Operation) (ctx : Context σ) (entries : List Entry) : Effect σ (Edit Entry) :=
  pure <|
    if o.condition then .filter (fun e => !ctx.matcher.matchesItem e.item) entries else .keep

/-- Removing all of its own type's items empties the list without looking at them. -/
def applyRemoves (o : Operation) (byMetadata : Option MetadataMatch) (ctx : Context σ)
    (entries : List Entry) : Effect σ (Edit Entry) := do
  ExceptT.mk (pure o.validate)
  if o.condition then
    if byMetadata.isNone && o.spec.isSingleReferenceTo o.itemType then
      Effect.log (clearedList o.itemType entries.length)
      pure .reset
    else pure (removeSelected (·.item) (removes ctx byMetadata) entries)
  else pure .keep

def applyUpdates (o : Operation) (metadata : Metadata) (ctx : Context σ) (entries : List Entry) :
    Effect σ (Edit Entry) := do
  if o.condition && !metadata.isEmpty then
    let (edit, count) := Edit.update (overridden? metadata ctx) entries
    Effect.log (updatedItems count)
    pure edit
  else pure .keep

def apply (o : Operation) (ctx : Context σ) (entries : List Entry) : Effect σ (Edit Entry) :=
  match o.action with
  | .includes _ metadata => applyIncludes o metadata ctx entries
  | .excludes => applyExcludes o ctx entries
  | .removes byMetadata => applyRemoves o byMetadata ctx entries
  | .updates metadata => applyUpdates o metadata ctx entries

end Operation

structure Builder (σ : Type) where
  buffer : Nat
  store : Store Entry
  trace : Trace σ

namespace Builder

variable {σ : Type}

def entries (b : Builder σ) : List Entry := b.store.contents b.buffer

def edit (b : Builder σ) (e : Edit Entry) : Builder σ :=
  let (buffer, store) := b.store.edit b.buffer e
  { b with buffer, store }

end Builder

/-- A computation that writes to the list as it goes. What it has written stays written, also if it
fails later. -/
abbrev Mutation (σ : Type) := ExceptT EvalError (StateM (Builder σ))

namespace Mutation

variable {σ α : Type}

def ofEffect (x : Effect σ α) : Mutation σ α :=
  ExceptT.mk fun b => let (a, trace) := x.run b.trace; (a, { b with trace })

def entries : Mutation σ (List Entry) := do
  pure (← get).entries

def write (e : Edit Entry) : Mutation σ Unit := modify (·.edit e)

def extend (added : List Entry) : Mutation σ Unit := do
  write (.extend (← entries) added)

def clear : Mutation σ Unit := write .reset

def retain (keep : Entry → Bool) : Mutation σ Unit := do
  write (.filter keep (← entries))

def replaceWhere (replace : Entry → Option Entry) : Mutation σ Nat := do
  let (edit, count) := Edit.update replace (← entries)
  write edit
  pure count

end Mutation

namespace Operation

variable {σ : Type}

def performIncludes (o : Operation) (metadata : Metadata) (ctx : Context σ) : Mutation σ Unit := do
  if o.condition then
    let items ← Mutation.ofEffect
      (candidates ctx o.itemType o.spec.fragments ctx.matcher.references)
    Mutation.extend (o.included metadata ctx items)

def performExcludes (o : Operation) (ctx : Context σ) : Mutation σ Unit := do
  if o.condition then
    Mutation.retain fun e => !ctx.matcher.matchesItem e.item

def performRemoves (o : Operation) (byMetadata : Option MetadataMatch) (ctx : Context σ) :
    Mutation σ Unit := do
  ExceptT.mk (pure o.validate)
  if byMetadata.isNone && o.condition && o.spec.isSingleReferenceTo o.itemType then
    Mutation.ofEffect (Effect.log (clearedList o.itemType (← Mutation.entries).length))
    Mutation.clear
  else if o.condition then
    let gone := ((← Mutation.entries).filter (removes ctx byMetadata)).map (·.item)
    unless gone.isEmpty do
      Mutation.retain fun e => !gone.contains e.item

def performUpdates (o : Operation) (metadata : Metadata) (ctx : Context σ) : Mutation σ Unit := do
  if o.condition && !metadata.isEmpty then
    let count ← Mutation.replaceWhere (overridden? metadata ctx)
    Mutation.ofEffect (Effect.log (updatedItems count))

def perform (o : Operation) (ctx : Context σ) : Mutation σ Unit :=
  match o.action with
  | .includes _ metadata => performIncludes o metadata ctx
  | .excludes => performExcludes o ctx
  | .removes byMetadata => performRemoves o byMetadata ctx
  | .updates metadata => performUpdates o metadata ctx

def applyIn (o : Operation) (ctx : Context σ) (store : Store Entry) (buffer : Nat) :
    StateM (Trace σ) (Except EvalError Unit × Nat × Store Entry) := fun trace =>
  let (answer, b) := (o.perform ctx).run ⟨buffer, store, trace⟩
  ((answer, b.buffer, b.store), b.trace)

end Operation

end BuildItems
