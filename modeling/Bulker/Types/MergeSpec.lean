import Bulker.Types.Fields

/-!
# What `Fields.Merge` does to types and hints

* `merge_union`: one merge into a receiver that owns its maps, sharing one with the argument only under the same
  name, does not panic, unites the occurrences name by name and keeps the representation invariant;
* `mergeNilable_isSome`: a `nil` receiver instead panics at the argument's first name;
* `merge_widens`: under the same separation, `Fields.Merge` unites the names,
  leaves the fields of one side alone, unites the occurrences of a name on both sides, clears the cache exactly when
  the argument brings a new occurrence, and `GetType` becomes the join of the two previous types;
* `merge_shared_map_breaks_union`: with a map shared between two names, the occurrences merged into one name depend on
  the order of the loop and can exceed the union;
* `merge_keeps_first_hint`: the field at a name keeps the receiver's SQL type hint, whatever the argument's;
  `merge_drops_hint`: so a hint arriving after an unhinted field of the same name is lost.
-/

namespace Bulker.Types

theorem mergeAt_isSome (h : Heap) (a b : Option Field) : (mergeAt h a b).isSome = (a.isSome || b.isSome) := by
  cases a <;> cases b <;> rfl

/-- The occurrences a map holds at a name, read in the heap; none when the name is absent. -/
def occAt (h : Heap) (f : Fields) (n : String) : List DataType :=
  ((f.lookup n).map fun x => h.keys x.typeOccurrence).getD []

theorem occAt_of_lookup {h : Heap} {f : Fields} {n : String} {x : Field} (hx : f.lookup n = some x) :
    occAt h f n = h.keys x.typeOccurrence := by
  rw [occAt, hx]; rfl

/-- **One merge of separate maps**: `Fields.Merge` does not panic, allocates nothing, unites the occurrences name by
name, leaves alone every map no receiver entry points to, and keeps the representation invariant. -/
theorem merge_union {h : Heap} {f g : Fields} (hsep : Apart f.entries g.entries) (hf : NonNil f.entries)
    (hg : NonNil g.entries) :
    ∃ h' f', Fields.merge h f g = some (h', f') ∧ h'.next = h.next ∧
      (∀ n, f'.lookup n = mergeAt h (f.lookup n) (g.lookup n)) ∧
      (∀ n x, f.lookup n = some x → n ∉ g → h'.keys x.typeOccurrence = h.keys x.typeOccurrence) ∧
      (∀ n y, g.lookup n = some y → h'.keys y.typeOccurrence = h.keys y.typeOccurrence) ∧
      (∀ n t, t ∈ occAt h' f' n ↔ t ∈ occAt h f n ∨ t ∈ occAt h g n) ∧
      (∀ r, (∀ n, refAt f.entries n ≠ some r) → h'.maps r = h.maps r) ∧
      ∀ join, (∀ n x, (f.lookup n = some x ∨ g.lookup n = some x) → x.WF join h) →
        ∀ n x', f'.lookup n = some x' → x'.WF join h' := by
  obtain ⟨h', f', hm, hnext, hlook, hmaps, hframe⟩ := merge_apart hsep hf hg
  have hleft : ∀ n x, f.lookup n = some x → n ∉ g → h'.keys x.typeOccurrence = h.keys x.typeOccurrence := by
    intro n x hx hn
    obtain ⟨r, hr⟩ := Option.ne_none_iff_exists'.1 (hf n x hx)
    rw [hr, Heap.keys_some, Heap.keys_some, hframe r fun k hk => ?_]
    rwa [hsep.left k n r hk (refAt_of_lookup hx hr)]
  have hright : ∀ n y, g.lookup n = some y → h'.keys y.typeOccurrence = h.keys y.typeOccurrence := by
    intro n y hy
    obtain ⟨r, hr⟩ := Option.ne_none_iff_exists'.1 (hg n y hy)
    rw [hr, Heap.keys_some, Heap.keys_some]
    by_cases hshared : ∃ x, f.lookup n = some x ∧ x.typeOccurrence = some r
    · -- the receiver's field of the same name points to the map: the merge writes back its own occurrences
      obtain ⟨x, hx, hxr⟩ := hshared
      rw [hmaps n x y r hx hxr hy, hr, Heap.keys_some, OccMap.insertAll_of_subset fun _ => id]
    · refine congrArg OccMap.keys (hframe r fun k hk _ => hshared ?_)
      obtain rfl := hsep.cross k n r hk (refAt_of_lookup hy hr)
      simpa only [refAt, Option.bind_eq_some] using hk
  have hboth : ∀ n x y r, f.lookup n = some x → x.typeOccurrence = some r → g.lookup n = some y →
      h'.keys x.typeOccurrence = ((h.maps r).insertAll (h.keys y.typeOccurrence)).keys := fun n x y r hx hr hy => by
    rw [hr, Heap.keys_some, hmaps n x y r hx hr hy]
  refine ⟨h', f', hm, hnext, hlook, hleft, hright, fun n t => ?_, fun r hr => hframe r fun k hk => absurd hk (hr k),
    fun join hw n x' hx' => ?_⟩
  · rw [occAt, occAt, occAt, hlook]
    cases hx : f.lookup n with
    | none =>
      cases hy : g.lookup n with
      | none => simp [mergeAt]
      | some y => simp [mergeAt, hright n y hy]
    | some x =>
      cases hy : g.lookup n with
      | none => simp [mergeAt, hleft n x hx (AList.lookup_eq_none.1 hy)]
      | some y =>
        obtain ⟨r, hr⟩ := Option.ne_none_iff_exists'.1 (hf n x hx)
        simp only [mergeAt, Option.map_some', Option.getD_some, mergedWith_typeOccurrence]
        rw [hboth n x y r hx hr hy, OccMap.mem_insertAll, hr, Heap.keys_some]
  · rw [hlook] at hx'
    cases hx : f.lookup n with
    | none =>
      rw [hx, mergeAt] at hx'
      exact (hw n x' (.inr hx')).congr (hright n x' hx') hnext.ge
    | some x =>
      cases hy : g.lookup n with
      | none =>
        rw [hx, hy, mergeAt, Option.some.injEq] at hx'; subst hx'
        exact (hw n x (.inl hx)).congr (hleft n x hx (AList.lookup_eq_none.1 hy)) hnext.ge
      | some y =>
        rw [hx, hy, mergeAt, Option.some.injEq] at hx'; subst hx'
        obtain ⟨r, hr⟩ := Option.ne_none_iff_exists'.1 (hf n x hx)
        exact (WF_merge (hw n x (.inl hx)) hr).congr
          (by rw [mergedWith_typeOccurrence, hboth n x y r hx hr hy, hr]; simp) (by simp [hnext])

/-- A `nil` receiver of `Merge` or `Add` panics exactly when the argument has a name; a non-nil receiver, separate
from the argument, never panics. -/
theorem mergeNilable_isSome {h : Heap} {o : Option Fields} {g : Fields}
    (hsep : ∀ f, o = some f → Apart f.entries g.entries ∧ NonNil f.entries) (hg : NonNil g.entries) :
    ((Fields.mergeNilable h o g).isSome ↔ o.isSome ∨ g.entries = []) ∧
      ((Fields.addNilable o g).isSome ↔ o.isSome ∨ g.entries = []) := by
  cases o with
  | none => cases he : g.entries <;> simp [Fields.mergeNilable, Fields.addNilable, he]
  | some f =>
    obtain ⟨h', f', hm, -⟩ := merge_union (h := h) (hsep f rfl).1 (hsep f rfl).2 hg
    simp [Fields.mergeNilable, Fields.addNilable, hm]

section Widening

variable {join : DataType → DataType → DataType}

theorem nonNil_of_WF {h : Heap} {f : Fields} (hf : ∀ n x, f.lookup n = some x → x.WF join h) :
    NonNil f.entries := fun n x hx => by
  obtain ⟨r, hr, -⟩ := (hf n x hx).allocated
  simp [hr]

/-- **`Fields.Merge` widens types by the join**, when the non-nil receiver `f` owns its maps and shares one with `g`
only under the same name, and every field satisfies the representation invariant. -/
theorem merge_widens (hc : ∀ a b, join a b = join b a) (ha : ∀ a b c, join (join a b) c = join a (join b c))
    (hi : ∀ a, join a a = a) {h : Heap} {f g : Fields}
    (hwf : ∀ n x, (f.lookup n = some x ∨ g.lookup n = some x) → x.WF join h) (hsep : Apart f.entries g.entries) :
    ∃ h' f', Fields.merge h f g = some (h', f') ∧ (∀ n, n ∈ f' ↔ n ∈ f ∨ n ∈ g) ∧
      (∀ n x, f.lookup n = some x → n ∉ g →
        f'.lookup n = some x ∧ h'.keys x.typeOccurrence = h.keys x.typeOccurrence) ∧
      (∀ n y, n ∉ f → g.lookup n = some y →
        f'.lookup n = some y ∧ h'.keys y.typeOccurrence = h.keys y.typeOccurrence) ∧
      (∀ n x y, f.lookup n = some x → g.lookup n = some y → ∃ x', f'.lookup n = some x' ∧
        (∀ t, t ∈ h'.keys x'.typeOccurrence ↔ t ∈ h.keys x.typeOccurrence ∨ t ∈ h.keys y.typeOccurrence) ∧
        x'.dataType = (if ∀ t ∈ h.keys y.typeOccurrence, t ∈ h.keys x.typeOccurrence then x.dataType else none) ∧
        x'.getType join h' = join (x.getType join h) (y.getType join h)) := by
  obtain ⟨h', f', hm, -, hlook, hleft, hright, hocc, -, hwf'⟩ :=
    merge_union hsep (nonNil_of_WF fun n x hx => hwf n x (.inl hx)) (nonNil_of_WF fun n x hx => hwf n x (.inr hx))
  refine ⟨h', f', hm, fun n => ?_,
    fun n x hx hn => ⟨by rw [hlook, hx, AList.lookup_eq_none.2 hn]; rfl, hleft n x hx hn⟩,
    fun n y hn hy => ⟨by rw [hlook, AList.lookup_eq_none.2 hn, hy]; rfl, hright n y hy⟩, fun n x y hx hy => ?_⟩
  · rw [← AList.lookup_isSome, ← AList.lookup_isSome, ← AList.lookup_isSome, hlook, mergeAt_isSome,
      Bool.or_eq_true]
  · have hx' : f'.lookup n = some (x.mergedWith h y) := by rw [hlook, hx, hy]; rfl
    have hmem : ∀ t, t ∈ h'.keys (x.mergedWith h y).typeOccurrence ↔
        t ∈ h.keys x.typeOccurrence ∨ t ∈ h.keys y.typeOccurrence := fun t => by
      rw [← occAt_of_lookup hx', ← occAt_of_lookup hx, ← occAt_of_lookup hy]; exact hocc n t
    refine ⟨_, hx', hmem, by unfold Field.mergedWith; split_ifs <;> rfl, ?_⟩
    -- the join of the united occurrences, in either order
    have hj := getType_of_WF (hwf' join hwf n _ hx')
    rw [@joinAll_congr _ hc ha hi _ (h.keys x.typeOccurrence ++ h.keys y.typeOccurrence)
        fun t => by rw [hmem, List.mem_append],
      joinAll_append ha (getType_of_WF (hwf n x (.inl hx))) (getType_of_WF (hwf n y (.inr hy)))] at hj
    exact (Option.some.inj hj).symm

end Widening

/-- `{a: NewField(INT64)}` and `{a: NewField(BOOL)}`, allocated in that order. -/
def pairReceiver : Fields := AList.singleton "a" (newField Heap.empty .int64).2

def pairArgument : Fields := AList.singleton "a" (newField (newField Heap.empty .int64).1 .bool).2

def pairHeap : Heap := (newField (newField Heap.empty .int64).1 .bool).1

theorem lookup_singleton_fields (n m : String) (x : Field) :
    (AList.singleton m x : Fields).lookup n = if n = m then some x else none := by
  rw [← AList.insert_empty, lookup_insert_entries, AList.lookup_empty]

theorem refAt_singleton_fields (n m : String) (x : Field) :
    refAt (AList.singleton m x : Fields).entries n = if n = m then x.typeOccurrence else none := by
  rw [refAt, ← AList.lookup.eq_1, lookup_singleton_fields]; split_ifs <;> rfl

theorem merge_widens_pair :
    ∃ h' f', Fields.merge pairHeap pairReceiver pairArgument = some (h', f') ∧
      (∀ n, n ∈ f' ↔ n ∈ pairReceiver ∨ n ∈ pairArgument) ∧
      (∀ n x, pairReceiver.lookup n = some x → n ∉ pairArgument →
        f'.lookup n = some x ∧ h'.keys x.typeOccurrence = pairHeap.keys x.typeOccurrence) ∧
      (∀ n y, n ∉ pairReceiver → pairArgument.lookup n = some y →
        f'.lookup n = some y ∧ h'.keys y.typeOccurrence = pairHeap.keys y.typeOccurrence) ∧
      (∀ n x y, pairReceiver.lookup n = some x → pairArgument.lookup n = some y → ∃ x', f'.lookup n = some x' ∧
        (∀ t, t ∈ h'.keys x'.typeOccurrence ↔
          t ∈ pairHeap.keys x.typeOccurrence ∨ t ∈ pairHeap.keys y.typeOccurrence) ∧
        x'.dataType = (if ∀ t ∈ pairHeap.keys y.typeOccurrence, t ∈ pairHeap.keys x.typeOccurrence then x.dataType
          else none) ∧
        x'.getType flatJoin h' = flatJoin (x.getType flatJoin pairHeap) (y.getType flatJoin pairHeap)) := by
  have hone : ∀ (l : Fields) (x : Field) n m r, l = AList.singleton "a" x → refAt l.entries n = some r →
      refAt l.entries m = some r → n = m := fun l x n m r hl h₁ h₂ => by
    subst hl; rw [refAt_singleton_fields] at h₁ h₂; split_ifs at h₁ h₂ with e₁ e₂; exact e₁.trans e₂.symm
  refine merge_widens flatJoin_comm flatJoin_assoc flatJoin_idem (fun n x hx => ?_)
    ⟨fun n m r => hone _ _ n m r rfl, fun n m r h₁ h₂ => ?_⟩
  · simp only [pairReceiver, pairArgument, lookup_singleton_fields] at hx
    rcases hx with hx | hx <;> split_ifs at hx <;> cases hx
    · exact (WF_newFieldWithSQLType _ _ _).alloc _
    · exact WF_newFieldWithSQLType _ _ _
  · simp only [pairReceiver, pairArgument, refAt_singleton_fields] at h₁ h₂
    split_ifs at h₁ h₂; exact absurd (h₁.trans h₂.symm) (by decide)

/-- Three one-kind maps: `int64` at `0`, `bool` at `1`, `float64` at `2`. -/
def sharedHeap : Heap :=
  ⟨fun r => if r = 0 then OccMap.single .int64 else if r = 1 then OccMap.single .bool else OccMap.single .float64, 3⟩

/-- A receiver with `a ↦ {int64}` at map `0` and `b ↦ {bool}` at map `1`. -/
def sharedReceiver : Fields :=
  ((∅ : Fields).insert "b" ⟨some .bool, none, some 1⟩).insert "a" ⟨some .int64, none, some 0⟩

/-- An argument visiting `b ↦ {float64}` first, then `a`, whose field shares map `1` with the receiver's `b`. -/
def sharedArgument : Fields :=
  ((∅ : Fields).insert "a" ⟨some .bool, none, some 1⟩).insert "b" ⟨some .float64, none, some 2⟩

/-- Every field of the two maps satisfies the invariant, yet after the merge the occurrences at `a` are not those of
the receiver's `a` and the argument's `a` together: merging `b` first wrote `float64` into the shared map. -/
theorem merge_shared_map_breaks_union :
    (∀ join n x, (sharedReceiver.lookup n = some x ∨ sharedArgument.lookup n = some x) →
      x.WF join sharedHeap) ∧
    (sharedReceiver.lookup "a").map (fun x => sharedHeap.keys x.typeOccurrence) = some [.int64] ∧
    (sharedArgument.lookup "a").map (fun y => sharedHeap.keys y.typeOccurrence) = some [.bool] ∧
    ((Fields.merge sharedHeap sharedReceiver sharedArgument).map fun p =>
      (p.2.lookup "a").map fun x => p.1.keys x.typeOccurrence) = some (some [.int64, .bool, .float64]) := by
  refine ⟨fun join n x hx => ?_, by decide, by decide, by decide⟩
  have hwf : ∀ t r, r < 3 → sharedHeap.keys (some r) = [t] → (⟨some t, none, some r⟩ : Field).WF join sharedHeap :=
    fun t r hr hk => ⟨⟨r, rfl, hr⟩, by simp [hk], fun d hd => by cases hd; rw [hk]; rfl⟩
  simp only [sharedReceiver, sharedArgument, lookup_insert_entries, AList.lookup_empty] at hx
  rcases hx with hx | hx <;> split_ifs at hx <;> cases hx <;> exact hwf _ _ (by decide) rfl

/-! ## SQL type hints -/

theorem getSuggestedSQLType_mergedWith (h : Heap) (x y : Field) (d : String) :
    (x.mergedWith h y).getSuggestedSQLType d = x.getSuggestedSQLType d := by
  unfold Field.getSuggestedSQLType; rw [mergedWith_sqlTypeSuggestion]

/-- **Hints under `Fields.Merge`**: in every run that does not panic, the field at each name answers
`GetSuggestedSQLType` as the receiver's field when the receiver had the name, and as the argument's otherwise. -/
theorem merge_keeps_first_hint {h h' : Heap} {f g f' : Fields} (hm : Fields.merge h f g = some (h', f'))
    (n d : String) :
    (f'.lookup n).map (·.getSuggestedSQLType d) = ((f.lookup n).or (g.lookup n)).map (·.getSuggestedSQLType d) := by
  obtain ⟨hn, e⟩ := lookup_merge hm n
  rw [e]
  cases f.lookup n <;> cases g.lookup n <;> simp [mergeAt, getSuggestedSQLType_mergedWith]

/-- Three hinted fields, allocated in this order: `int64` forcing `text`, `bool` forcing `bigint`, `string` forcing
`varchar`. -/
def hintedFieldA : Heap × Field := newFieldWithSQLType Heap.empty .int64 (some ⟨⟨"text", "text", false⟩, ∅⟩)

def hintedFieldB : Heap × Field := newFieldWithSQLType hintedFieldA.1 .bool (some ⟨⟨"bigint", "bigint", false⟩, ∅⟩)

def hintedFieldC : Heap × Field :=
  newFieldWithSQLType hintedFieldB.1 .string (some ⟨⟨"varchar", "varchar", false⟩, ∅⟩)

/-- `{a: text-hinted}` merged with `{a: bigint-hinted, b: varchar-hinted}`: a hint on each side of the shared name,
and one at a name only the argument has. -/
def hintedReceiver : Fields := AList.singleton "a" hintedFieldA.2

def hintedArgument : Fields := (AList.singleton "a" hintedFieldB.2).insert "b" hintedFieldC.2

theorem merge_keeps_first_hint_hinted :
    ∃ h' f', Fields.merge hintedFieldC.1 hintedReceiver hintedArgument = some (h', f') ∧ ∀ n d,
      (f'.lookup n).map (·.getSuggestedSQLType d) =
        ((hintedReceiver.lookup n).or (hintedArgument.lookup n)).map (·.getSuggestedSQLType d) :=
  have hs : (Fields.merge hintedFieldC.1 hintedReceiver hintedArgument).isSome := by decide
  ⟨_, _, (Option.some_get hs).symm, merge_keeps_first_hint (Option.some_get hs).symm⟩

/-- At the shared name the receiver's `text` wins over the argument's `bigint`; the argument's `varchar` arrives with
its name. -/
example : (Fields.merge hintedFieldC.1 hintedReceiver hintedArgument).map
      (fun p => ((p.2.lookup "a").map (·.getSuggestedSQLType "postgres"),
        (p.2.lookup "b").map (·.getSuggestedSQLType "postgres"))) =
    some (some (⟨"text", "text", true⟩, true), some (⟨"varchar", "varchar", true⟩, true)) := by
  decide

/-- An unhinted field met first keeps the name without the hint that a later field carries. -/
theorem merge_drops_hint :
    let p := newField Heap.empty .int64
    let q := newFieldWithSQLType p.1 .int64 (some ⟨⟨"text", "text", false⟩, ∅⟩)
    q.2.getSuggestedSQLType "postgres" = (⟨"text", "text", true⟩, true) ∧
    (Fields.merge q.1 (AList.singleton "a" p.2) (AList.singleton "a" q.2)).map
      (fun p => (p.2.lookup "a").map (·.getSuggestedSQLType "postgres")) = some (some (⟨"", "", false⟩, false)) := by
  decide

end Bulker.Types
