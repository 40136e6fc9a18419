import BuildItems.Proofs.StringPool.Holding

/-!
# The instances a pool hands out

Every instance is numbered when it is made. The entry of a key keeps its instance for as long as
it is there, and it is there for as long as the key is held. An entry that is made later has a
number that was not given out before. A generated string is in no entry, so it is handed out once.
-/

namespace BuildItems

namespace StringPool

variable {p : StringPool} {calls : List Call} {c : Call} {key : String} {d : DocumentId}
  {e : PoolEntry} {s t : PooledString} {n : Nat}

def answer (p : StringPool) : Call → Option PooledString
  | .add key d => some (p.add key d).1
  | .get key => p.get? key
  | .clear _ => none

def Call.key? : Call → Option String
  | add key _ | get key => some key
  | clear _ => none

theorem le_nextInstance_ensure (p : StringPool) (key : String) :
    p.nextInstance ≤ (p.ensure key).2.nextInstance := by
  cases h : p.entries.get? key with
  | some e => rw [ensure_of_some h]
  | none =>
    rw [ensure_of_none h]
    exact Nat.le_succ _

theorem nextInstance_hold (p : StringPool) (key : String) (e : PoolEntry) (d : DocumentId) :
    (p.hold key e d).nextInstance = p.nextInstance := by
  unfold hold
  split <;> rfl

theorem nextInstance_add_of_tracked (h : Tracked key) :
    (p.add key d).2.nextInstance = (p.ensure key).2.nextInstance := by
  rw [add_of_tracked h, nextInstance_hold]

theorem add_of_isGenerated (h : isGenerated key = true) :
    p.add key d = (⟨key, p.nextInstance⟩, { p with nextInstance := p.nextInstance + 1 }) := by
  have hne : key ≠ "" := by
    rintro rfl
    exact absurd h (by decide +kernel)
  rw [add, if_neg hne, if_pos h]

theorem add_empty (p : StringPool) (d : DocumentId) : p.add "" d = (.empty, p) := by
  rw [add, if_pos rfl]

/-- The three ways in which a key can be added. -/
theorem key_cases (key : String) : key = "" ∨ isGenerated key = true ∨ Tracked key := by
  by_cases hempty : key = ""
  · exact .inl hempty
  · cases hgen : isGenerated key with
    | true => exact .inr (.inl rfl)
    | false => exact .inr (.inr ⟨hempty, hgen⟩)

theorem le_nextInstance_step (p : StringPool) (c : Call) :
    p.nextInstance ≤ (p.step c).nextInstance := by
  cases c with
  | add key d =>
    change p.nextInstance ≤ (p.add key d).2.nextInstance
    rcases key_cases key with rfl | h | h
    · rw [add_empty]
    · rw [add_of_isGenerated h]
      exact Nat.le_succ _
    · rw [nextInstance_add_of_tracked h]
      exact le_nextInstance_ensure p key
  | get key => exact Nat.le_refl _
  | clear d =>
    change p.nextInstance ≤ (p.clear d).1.nextInstance
    rw [clear_fst]
    exact Nat.le_refl _

/-- An entry after a call was there before, with the same instance, or has a new number. -/
theorem entry_step (h : (p.step c).entries.get? key = some e) :
    (∃ e', p.entries.get? key = some e' ∧ e'.string = e.string) ∨
      (p.entries.get? key = none ∧ e.string.instanceId = p.nextInstance ∧
        p.nextInstance < (p.step c).nextInstance) := by
  cases c with
  | add key' d =>
    change (p.add key' d).2.entries.get? key = some e at h
    by_cases htracked : Tracked key'
    · rw [get?_entries_add htracked] at h
      split at h
      · next hk =>
        subst hk
        obtain rfl := Option.some.inj h
        rw [string_heldEntry]
        cases he : p.entries.get? key with
        | some e' => exact .inl ⟨e', rfl, by rw [ensure_of_some he]⟩
        | none =>
          refine .inr ⟨rfl, by rw [ensure_of_none he], ?_⟩
          change _ < (p.add key d).2.nextInstance
          rw [nextInstance_add_of_tracked htracked, ensure_of_none he]
          exact Nat.lt_succ_self _
      · exact .inl ⟨e, h, rfl⟩
    · rw [(tables_add_of_not_tracked htracked).1] at h
      exact .inl ⟨e, h, rfl⟩
  | get key' => exact .inl ⟨e, h, rfl⟩
  | clear d =>
    change (p.clear d).1.entries.get? key = some e at h
    rw [get?_entries_clear] at h
    split at h
    · obtain ⟨e', he', hless⟩ := Option.bind_eq_some_iff.mp h
      refine .inl ⟨e', he', ?_⟩
      unfold PoolEntry.less? at hless
      split at hless
      · cases hless
      · cases hless
        rfl
    · exact .inl ⟨e, h, rfl⟩

/-- What a call for a tracked key gives back is the instance of the entry it leaves. -/
theorem exists_entry_of_answer (hkey : Tracked key) (hc : c.key? = some key)
    (hs : p.answer c = some s) : ∃ e, (p.step c).entries.get? key = some e ∧ e.string = s := by
  cases c with
  | add key' d =>
    obtain rfl := Option.some.inj hc
    obtain rfl := Option.some.inj hs
    refine ⟨p.heldEntry key' d, ?_, ?_⟩
    · change (p.add key' d).2.entries.get? key' = _
      rw [get?_entries_add hkey, if_pos rfl]
    · rw [string_heldEntry, add_of_tracked hkey]
  | get key' =>
    obtain rfl := Option.some.inj hc
    rw [answer, get?, if_neg hkey.1] at hs
    exact Option.map_eq_some_iff.mp hs
  | clear d => cases hc

/-- The numbers of all entries were given out, and none is that of the empty string. -/
structure Numbered (p : StringPool) : Prop where
  pos : 0 < p.nextInstance
  entries : ∀ key e, p.entries.get? key = some e →
    0 < e.string.instanceId ∧ e.string.instanceId < p.nextInstance

theorem Numbered.step (h : p.Numbered) (c : Call) : (p.step c).Numbered := by
  have hle := le_nextInstance_step p c
  refine ⟨Nat.lt_of_lt_of_le h.pos hle, fun key e he => ?_⟩
  rcases entry_step he with ⟨e', he', hsame⟩ | ⟨_, hnew, hlt⟩
  · obtain ⟨hpos, hlt⟩ := h.entries key e' he'
    exact hsame ▸ ⟨hpos, Nat.lt_of_lt_of_le hlt hle⟩
  · exact hnew ▸ ⟨h.pos, hlt⟩

theorem numbered_run (calls : List Call) : (run calls).Numbered := by
  induction calls using List.reverseRecOn with
  | nil => exact ⟨Nat.one_pos, fun key e h => by cases h⟩
  | append_singleton calls c ih =>
    rw [run_concat]
    exact ih.step c

/-- What a call gives back is the empty string, an entry's, or new. -/
theorem answer_cases (hs : p.answer c = some s) :
    s = .empty ∨ (∃ key e, (p.step c).entries.get? key = some e ∧ e.string = s) ∨
      (s.instanceId = p.nextInstance ∧ p.nextInstance < (p.step c).nextInstance) := by
  cases c with
  | add key d =>
    rcases key_cases key with rfl | h | h
    · obtain rfl := Option.some.inj hs
      exact .inl (congrArg Prod.fst (add_empty p d))
    · obtain rfl := Option.some.inj hs
      rw [step, add_of_isGenerated h]
      exact .inr (.inr ⟨rfl, Nat.lt_succ_self _⟩)
    · exact .inr (.inl ⟨key, exists_entry_of_answer h rfl hs⟩)
  | get key =>
    rw [answer, get?] at hs
    split at hs
    · exact .inl (Option.some.inj hs).symm
    · exact .inr (.inl ⟨key, Option.map_eq_some_iff.mp hs⟩)
  | clear d => cases hs

theorem Numbered.answer_lt (h : p.Numbered) (hs : p.answer c = some s) :
    s.instanceId < (p.step c).nextInstance := by
  rcases answer_cases hs with rfl | ⟨key, e, he, rfl⟩ | ⟨hnew, hlt⟩
  · exact (h.step c).pos
  · exact ((h.step c).entries key e he).2
  · exact hnew ▸ hlt

theorem run_append (calls more : List Call) : run (calls ++ more) = more.foldl step (run calls) :=
  List.foldl_append

theorem le_nextInstance_foldl (p : StringPool) (more : List Call) :
    p.nextInstance ≤ (more.foldl step p).nextInstance := by
  induction more generalizing p with
  | nil => exact Nat.le_refl _
  | cons c more ih => exact Nat.le_trans (le_nextInstance_step p c) (ih (p.step c))

/-- A number that was given out and will not be given out again. -/
structure Retired (n : Nat) (p : StringPool) : Prop where
  pos : 0 < n
  lt : n < p.nextInstance
  entries : ∀ key e, p.entries.get? key = some e → e.string.instanceId ≠ n

theorem Retired.step (h : Retired n p) (c : Call) : Retired n (p.step c) := by
  refine ⟨h.pos, Nat.lt_of_lt_of_le h.lt (le_nextInstance_step p c), fun key e he => ?_⟩
  rcases entry_step he with ⟨e', he', hsame⟩ | ⟨_, hnew, _⟩
  · exact hsame ▸ h.entries key e' he'
  · exact hnew ▸ (Nat.ne_of_lt h.lt).symm

theorem Retired.foldl (h : Retired n p) (more : List Call) :
    Retired n (more.foldl StringPool.step p) := by
  induction more generalizing p with
  | nil => exact h
  | cons c more ih => exact ih (h.step c)

theorem Retired.answer_ne (h : Retired n p) (hs : p.answer c = some s) : s.instanceId ≠ n := by
  rcases answer_cases hs with rfl | ⟨key, e, he, rfl⟩ | ⟨hnew, _⟩
  · exact Nat.ne_of_lt h.pos
  · exact (h.step c).entries key e he
  · exact hnew ▸ (Nat.ne_of_lt h.lt).symm

structure NoneBelow (n : Nat) (key : String) (p : StringPool) : Prop where
  le : n ≤ p.nextInstance
  entries : ∀ e, p.entries.get? key = some e → n ≤ e.string.instanceId

theorem NoneBelow.step (h : NoneBelow n key p) (c : Call) : NoneBelow n key (p.step c) := by
  refine ⟨Nat.le_trans h.le (le_nextInstance_step p c), fun e he => ?_⟩
  rcases entry_step he with ⟨e', he', hsame⟩ | ⟨_, hnew, _⟩
  · exact hsame ▸ h.entries e' he'
  · exact hnew ▸ h.le

theorem NoneBelow.foldl (h : NoneBelow n key p) (more : List Call) :
    NoneBelow n key (more.foldl StringPool.step p) := by
  induction more generalizing p with
  | nil => exact h
  | cons c more ih => exact ih (h.step c)

/-- An entry that is never missing keeps its instance. -/
theorem exists_entry_foldl {more : List Call} (he : p.entries.get? key = some e)
    (hin : ∀ elapsed, elapsed <+: more → (elapsed.foldl step p).entries.contains key = true) :
    ∃ e', (more.foldl step p).entries.get? key = some e' ∧ e'.string = e.string := by
  induction more using List.reverseRecOn with
  | nil => exact ⟨e, he, rfl⟩
  | append_singleton more c ih =>
    obtain ⟨e', he', hsame⟩ := ih fun elapsed h => hin elapsed (h.trans (List.prefix_append _ _))
    obtain ⟨last, hlast⟩ := Option.isSome_iff_exists.mp (hin _ List.prefix_rfl)
    refine ⟨last, hlast, ?_⟩
    rw [List.foldl_concat] at hlast
    rcases entry_step hlast with ⟨e'', he'', hstring⟩ | ⟨hnone, _⟩
    · rw [he', Option.some.injEq] at he''
      rw [← hstring, ← he'', hsame]
    · rw [he'] at hnone
      cases hnone

theorem sameInstance_iff (hkey : Tracked key) {before between : List Call} {first second : Call}
    (hfirst : first.key? = some key) (hsecond : second.key? = some key)
    (hs : (run before).answer first = some s)
    (ht : (run (before ++ first :: between)).answer second = some t) :
    s.instanceId = t.instanceId ↔
      ∀ elapsed, elapsed <+: between → ∃ d, Held (before ++ first :: elapsed) key d := by
  have hrun : ∀ elapsed,
      run (before ++ first :: elapsed) = elapsed.foldl step ((run before).step first) :=
    fun elapsed => run_append before (first :: elapsed)
  have hheld : ∀ elapsed, (∃ d, Held (before ++ first :: elapsed) key d) ↔
      (run (before ++ first :: elapsed)).entries.contains key = true :=
    fun elapsed => (balanced_run _).contains_entries_iff.symm
  obtain ⟨e, he, rfl⟩ := exists_entry_of_answer hkey hfirst hs
  obtain ⟨e', he', rfl⟩ := exists_entry_of_answer hkey hsecond ht
  simp only [hheld]
  constructor
  · intro hsame elapsed helapsed
    by_contra hmissing
    obtain ⟨rest, rfl⟩ := helapsed
    have hnone : (run (before ++ first :: elapsed)).entries.get? key = none := by
      simpa [NameMap.contains] using hmissing
    -- whatever entry there is later was made after the key was missing
    have hbelow : NoneBelow (run (before ++ first :: elapsed)).nextInstance key
        (run (before ++ first :: elapsed)) :=
      ⟨Nat.le_refl _, fun e he => by rw [hnone] at he; cases he⟩
    have hlater := (hbelow.foldl rest).step second
    rw [← run_append, List.append_assoc, List.cons_append] at hlater
    have hge := hlater.entries e' he'
    have hlt : e.string.instanceId < (run (before ++ first :: elapsed)).nextInstance := by
      rw [hrun]
      exact Nat.lt_of_lt_of_le ((numbered_run before).answer_lt hs) (le_nextInstance_foldl _ _)
    omega
  · intro hin
    simp only [hrun] at hin he'
    obtain ⟨mid, hmid, hmidsame⟩ := exists_entry_foldl he hin
    rcases entry_step he' with ⟨mid', hmid', hsame⟩ | ⟨hnone, _⟩
    · rw [hmid, Option.some.injEq] at hmid'
      rw [← hsame, ← hmid', hmidsame]
    · rw [hmid] at hnone
      cases hnone

def Returned (calls : List Call) (s : PooledString) : Prop :=
  ∃ earlier c later, calls = earlier ++ c :: later ∧ (run earlier).answer c = some s

theorem Returned.lt (h : Returned calls s) : s.instanceId < (run calls).nextInstance := by
  obtain ⟨earlier, c, later, rfl, hs⟩ := h
  rw [run_append]
  exact Nat.lt_of_lt_of_le ((numbered_run earlier).answer_lt hs)
    (le_nextInstance_foldl ((run earlier).step c) later)

theorem instanceId_add_of_not_held (hkey : Tracked key) (h : ∀ d', ¬ Held calls key d') :
    ((run calls).add key d).1.instanceId = (run calls).nextInstance := by
  have hnone : (run calls).entries.get? key = none := by
    have hmissing := fun hin => not_exists.mpr h ((balanced_run calls).contains_entries_iff.mp hin)
    simpa [NameMap.contains] using hmissing
  rw [add_of_tracked hkey, ensure_of_none hnone]

theorem retired_add_of_isGenerated (hkey : isGenerated key = true) (hp : p.Numbered) :
    Retired p.nextInstance (p.add key d).2 := by
  rw [add_of_isGenerated hkey]
  exact ⟨hp.pos, Nat.lt_succ_self _, fun k e he => Nat.ne_of_lt (hp.entries k e he).2⟩

/-- The instances of a run. Two calls that give back a tracked key give back one instance exactly if
some document holds the key all the time between them. A key that nobody holds is added as an
instance that no call has given back before. A generated key is added as such an instance too, and
no later call, a look-up least of all, gives it back again. -/
theorem instances_canonical :
    (∀ key, Tracked key → ∀ before first between second s t,
      first.key? = some key → second.key? = some key →
      (run before).answer first = some s →
      (run (before ++ first :: between)).answer second = some t →
        (s.instanceId = t.instanceId ↔
          ∀ elapsed, elapsed <+: between → ∃ d, Held (before ++ first :: elapsed) key d)) ∧
    (∀ key, Tracked key → ∀ calls d, (∀ d', ¬ Held calls key d') →
      ∀ t, Returned calls t → t.instanceId ≠ ((run calls).add key d).1.instanceId) ∧
    (∀ key, isGenerated key = true → ∀ calls d,
      (∀ t, Returned calls t → t.instanceId ≠ ((run calls).add key d).1.instanceId) ∧
      ∀ later c t, (run (calls ++ .add key d :: later)).answer c = some t →
        t.instanceId ≠ ((run calls).add key d).1.instanceId) := by
  refine ⟨?_, fun key hkey calls d h t ht => ?_, fun key hkey calls d => ?_⟩
  · intro key hkey before first between second s t hfirst hsecond hs ht
    exact sameInstance_iff hkey hfirst hsecond hs ht
  · rw [instanceId_add_of_not_held hkey h]
    exact Nat.ne_of_lt ht.lt
  · have hretired := retired_add_of_isGenerated (d := d) hkey (numbered_run calls)
    have hnew : ((run calls).add key d).1.instanceId = (run calls).nextInstance := by
      rw [add_of_isGenerated hkey]
    rw [hnew]
    refine ⟨fun t ht => Nat.ne_of_lt ht.lt, fun later c t ht => ?_⟩
    rw [run_append] at ht
    exact (hretired.foldl later).answer_ne ht

/-- A string that is passed on from one document to another, and then is let go of by both. -/
theorem instances_canonical_passedOn :
    let first : Call := .add "a" ⟨"x"⟩
    let between : List Call := [.add "a" ⟨"y"⟩, .clear ⟨"x"⟩]
    let freed : List Call := between ++ [.clear ⟨"y"⟩]
    let generated : Call := .add "MSBuildProjectInstance7" ⟨"x"⟩
    ∃ s t u, (run []).answer first = some s ∧
      (run (first :: between)).answer (.get "a") = some t ∧ s.instanceId = t.instanceId ∧
      (run (first :: freed)).answer (.add "a" ⟨"y"⟩) = some u ∧ s.instanceId ≠ u.instanceId ∧
      ∀ later c v, (run (first :: generated :: later)).answer c = some v → v.instanceId ≠ 2 := by
  intro first between freed generated
  have htracked : Tracked "a" := by decide +kernel
  obtain ⟨hsame, _, hgenerated⟩ := instances_canonical
  have hkept : ∀ elapsed, elapsed <+: between → ∃ d, Held (first :: elapsed) "a" d := by
    intro elapsed helapsed
    rw [← List.mem_inits] at helapsed
    have hcases : elapsed = [] ∨ elapsed = [.add "a" ⟨"y"⟩] ∨ elapsed = between := by
      simpa [between] using helapsed
    rcases hcases with rfl | rfl | rfl
    · exact ⟨⟨"x"⟩, by decide +kernel⟩
    · exact ⟨⟨"x"⟩, by decide +kernel⟩
    · exact ⟨⟨"y"⟩, by decide +kernel⟩
  have hfreed : ¬ ∃ d, Held (first :: freed) "a" d := by
    rintro ⟨d, hd⟩
    change Held ([] ++ [.add "a" ⟨"x"⟩] ++ [.add "a" ⟨"y"⟩] ++ [.clear ⟨"x"⟩] ++ [.clear ⟨"y"⟩])
      "a" d at hd
    simp only [held_concat_clear, held_concat_add, not_held_nil] at hd
    obtain ⟨⟨(h | ⟨_, _, hx⟩) | ⟨_, _, hy⟩, hnx⟩, hny⟩ := hd
    · exact h
    · exact hnx hx
    · exact hny hy
  refine ⟨⟨"a", 1⟩, ⟨"a", 1⟩, ⟨"a", 2⟩, by decide +kernel, by decide +kernel, ?_,
    by decide +kernel, fun h => hfreed ?_, ?_⟩
  · exact (hsame "a" htracked [] first between (.get "a") _ _ rfl rfl (by decide +kernel)
      (by decide +kernel)).mpr hkept
  · exact (hsame "a" htracked [] first freed (.add "a" ⟨"y"⟩) _ _ rfl rfl (by decide +kernel)
      (by decide +kernel)).mp h freed List.prefix_rfl
  · exact (hgenerated "MSBuildProjectInstance7" (by decide +kernel) [first] ⟨"x"⟩).2

end StringPool

end BuildItems
