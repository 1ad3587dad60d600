import Mathlib.Data.Finset.Basic
import Bulker.Types.Lifecycle

/-!
# Fields as values

`Fields.Merge`, `Add` and `OverrideTypes` copy `Field` structs, so afterwards the receiver shares occurrence maps with
the argument. A program that drops the argument right after each such call never observes the sharing: it computes
what the same program computes over `Fields` values, where a field is its set of occurrences, its cached type and its
SQL type suggestion, and where a statement changes only the variable it assigns.

* `valueStep`: the statements over values (`Values.merge` unites the occurrence sets name by name and keeps the
  receiver's cache only when nothing new arrives; `Values.add`, `Values.overrideTypes`, `Values.clone`,
  `Values.ofObject`);
* `Store.view`: the values the variables of a store hold, read through its heap;
* `Store.Sound.view_make`, `view_clone`, `view_merge_reset`, `view_add_reset`, `view_overrideTypes_reset`: one
  statement of a sound store, with the drop that follows, is the same statement over values;
* `consuming_run_refines`: so every run from the empty program that drops each argument right after using it
  computes exactly what the value semantics computes (`shared_map_stale_cache` shows a run that does not).
-/

namespace Bulker.Types

/-! ## The value semantics -/

/-- A field as a value: its occurrences, its cached type and its SQL type suggestion. -/
structure FieldValue where
  occurrences : Finset DataType
  dataType : Option DataType
  sqlTypeSuggestion : Option SQLTypeSuggestion

/-- `Field.Merge` of values: the union of the occurrences, the receiver's cache only when nothing new arrives, and
the receiver's suggestion. -/
def FieldValue.merge (x y : FieldValue) : FieldValue :=
  ⟨x.occurrences ∪ y.occurrences, if y.occurrences ⊆ x.occurrences then x.dataType else none, x.sqlTypeSuggestion⟩

/-- A `Fields` as a value: the field at each name. -/
abbrev Values := String → Option FieldValue

namespace Values

def empty : Values := fun _ => none

/-- `Fields.Merge` of values, name by name. -/
def merge (v w : Values) : Values := fun n =>
  match v n, w n with
  | some x, some y => some (x.merge y)
  | some x, none => some x
  | none, o => o

/-- `Fields.Add` of values: the receiver's field where it has one, the argument's elsewhere. -/
def add (v w : Values) : Values := fun n => (v n).or (w n)

/-- `Fields.OverrideTypes` of values: where both have a field, the argument's occurrences and cached type with the
receiver's suggestion. -/
def overrideTypes (v w : Values) : Values := fun n =>
  match v n, w n with
  | some x, some y => some { x with occurrences := y.occurrences, dataType := y.dataType }
  | o, _ => o

/-- `Fields.Clone` of a value: the occurrences and cached types, without the suggestions. -/
def clone (v : Values) : Values := fun n => (v n).map fun x => { x with sqlTypeSuggestion := none }

/-- A `NewFieldWithSQLType` put at its name. -/
def insertNew (v : Values) (c : String × DataType × Option SQLTypeSuggestion) : Values :=
  Function.update v c.1 (some ⟨{c.2.1}, some c.2.1, c.2.2⟩)

/-- The per-object schema of an object, as a value. -/
def ofObject (cs : ObjectFields) : Values := cs.foldl insertNew empty

end Values

/-- A statement over values; a statement naming a variable that does not exist does nothing. -/
def valueStep (vs : List Values) : Op → List Values
  | .make cs => vs ++ [Values.ofObject cs]
  | .merge i j =>
    match vs[i]?, vs[j]? with
    | some v, some w => vs.set i (v.merge w)
    | _, _ => vs
  | .add i j =>
    match vs[i]?, vs[j]? with
    | some v, some w => vs.set i (v.add w)
    | _, _ => vs
  | .overrideTypes i j =>
    match vs[i]?, vs[j]? with
    | some v, some w => vs.set i (v.overrideTypes w)
    | _, _ => vs
  | .clone i =>
    match vs[i]? with
    | some v => vs ++ [v.clone]
    | none => vs
  | .reset j => vs.set j Values.empty

/-- A run of statements over values. -/
def valueRun (vs : List Values) (os : List Op) : List Values := os.foldl valueStep vs

/-! ## Reading a store as values -/

/-- A field read through the heap. -/
def Field.value (h : Heap) (x : Field) : FieldValue :=
  ⟨(h.keys x.typeOccurrence).toFinset, x.dataType, x.sqlTypeSuggestion⟩

/-- A `Fields` read through the heap. -/
def Fields.value (h : Heap) (f : Fields) : Values := fun n => (f.lookup n).map (Field.value h)

/-- The values the variables of a store hold. -/
def Store.view (s : Store) : List Values := s.vars.map (Fields.value s.heap)

@[simp] theorem Fields.value_empty (h : Heap) : (∅ : Fields).value h = Values.empty := rfl

/-- A map whose maps are untouched reads the same. -/
theorem Fields.value_frame {h h' : Heap} {f : Fields}
    (hf : ∀ n r, refAt f.entries n = some r → h'.maps r = h.maps r) : f.value h' = f.value h := funext fun n => by
  cases hx : f.lookup n with
  | none => simp [Fields.value, hx]
  | some x => simp [Fields.value, hx, Field.value, keys_frame hf hx]

theorem map_set_congr {α β : Type} {l : List α} {g₁ g₂ : α → β} {i : Nat} (b : β)
    (h : ∀ k a, k ≠ i → l[k]? = some a → g₁ a = g₂ a) : (l.map g₁).set i b = (l.map g₂).set i b := by
  refine List.ext_getElem? fun k => ?_
  by_cases e : k = i
  · subst e; simp [List.getElem?_set]
  · rw [List.getElem?_set_ne (Ne.symm e), List.getElem?_set_ne (Ne.symm e), List.getElem?_map, List.getElem?_map]
    cases hk : l[k]? with
    | none => rfl
    | some a => simp [h k a e hk]

/-! ## One statement -/

/-- The per-object schema built into a built map reads as the values put one after the other. -/
theorem value_buildFields (cs : ObjectFields) : ∀ {h : Heap} {f : Fields}, Built h f →
    (buildFields h f cs).2.value (buildFields h f cs).1 = cs.foldl Values.insertNew (f.value h) := by
  induction cs with
  | nil => intro h f _; rfl
  | cons c cs ih =>
    obtain ⟨n, t, s⟩ := c
    intro h f hf
    rw [buildFields, ih (hf.insert n t s), List.foldl_cons]
    congr 1
    funext m
    simp only [Fields.value, lookup_insert_entries, Values.insertNew, Function.update_apply]
    split_ifs with e
    · simp [Field.value, Heap.alloc_maps, OccMap.single]
    · cases hx : f.lookup m with
      | none => rfl
      | some x =>
        obtain ⟨-, r, -, hr, hlt, -⟩ := hf.fresh m x hx
        simp [Field.value, hr, Heap.alloc_maps, Nat.ne_of_lt hlt]

section Sound

variable {join : DataType → DataType → DataType} {s s' : Store}

/-- The variables of a sound store read the same in a heap that keeps the allocated maps. -/
theorem Store.Sound.view_frame (hs : s.Sound join) {h' : Heap} (hm : ∀ r, r < s.heap.next → h'.maps r = s.heap.maps r) :
    s.vars.map (Fields.value h') = s.vars.map (Fields.value s.heap) :=
  List.map_congr_left fun f hf => by
    obtain ⟨i, hi⟩ := List.mem_iff_getElem?.1 hf
    exact Fields.value_frame fun n r hr => hm r (hs.lt_next (by rw [varRef_of_getElem? hi]; exact hr))

theorem view_reset (s : Store) (j : Nat) : (⟨s.heap, s.vars.set j ∅⟩ : Store).view = s.view.set j Values.empty := by
  simp [Store.view, List.map_set]

theorem Store.Sound.view_make (hs : s.Sound join) (cs : ObjectFields) (h : s.step (.make cs) = some s') :
    s'.view = valueStep s.view (.make cs) := by
  cases h
  obtain ⟨-, hm, -, -⟩ := buildFields_spec cs (built_empty s.heap)
  simp only [Store.view, List.map_append, List.map_singleton, valueStep]
  rw [hs.view_frame hm, value_buildFields cs (built_empty s.heap), Fields.value_empty, Values.ofObject]

theorem Store.Sound.view_clone (hs : s.Sound join) (i : Nat) (h : s.step (.clone i) = some s') :
    s'.view = valueStep s.view (.clone i) := by
  cases hi : s.vars[i]? with
  | none =>
    rw [Store.step, hi] at h; cases h
    simp [valueStep, Store.view, hi]
  | some f =>
    rcases hc : f.clone s.heap with ⟨h', c⟩
    simp only [Store.step, hi, hc, Option.some.injEq] at h; subst h
    obtain ⟨-, hm, hnames, hin, -⟩ := clone_spec (fun n x r hx hr =>
      hs.lt_next (by rw [varRef_of_getElem? hi]; exact refAt_of_lookup hx hr)) hc
    have hcv : c.value h' = (f.value s.heap).clone := funext fun n => by
      cases hx : f.lookup n with
      | none =>
        have hn : c.lookup n = none := AList.lookup_eq_none.2 fun hn => AList.lookup_eq_none.1 hx ((hnames n).1 hn)
        simp [Fields.value, Values.clone, hx, hn]
      | some x =>
        obtain ⟨r, -, -, hl, hk⟩ := hin n x hx
        simp [Fields.value, Values.clone, Field.value, hx, hl, hk]
    simp only [Store.view, List.map_append, List.map_singleton, valueStep, List.getElem?_map, hi, Option.map_some']
    rw [hs.view_frame hm, hcv]

theorem mergedWith_dataType (h : Heap) (x y : Field) : (x.mergedWith h y).dataType =
    if ∀ t ∈ h.keys y.typeOccurrence, t ∈ h.keys x.typeOccurrence then x.dataType else none := by
  unfold Field.mergedWith; split_ifs <;> rfl

/-- The value of a merge of separate maps. -/
theorem value_merge {h h' : Heap} {f g f' : Fields}
    (hlook : ∀ n, f'.lookup n = mergeAt h (f.lookup n) (g.lookup n))
    (hleft : ∀ n x, f.lookup n = some x → n ∉ g → h'.keys x.typeOccurrence = h.keys x.typeOccurrence)
    (hright : ∀ n y, g.lookup n = some y → h'.keys y.typeOccurrence = h.keys y.typeOccurrence)
    (hocc : ∀ n t, t ∈ occAt h' f' n ↔ t ∈ occAt h f n ∨ t ∈ occAt h g n) :
    f'.value h' = (f.value h).merge (g.value h) := funext fun n => by
  cases hx : f.lookup n with
  | none =>
    cases hy : g.lookup n with
    | none => simp [Fields.value, Values.merge, hlook, hx, hy, mergeAt]
    | some y => simp [Fields.value, Values.merge, hlook, hx, hy, mergeAt, Field.value, hright n y hy]
  | some x =>
    cases hy : g.lookup n with
    | none =>
      simp [Fields.value, Values.merge, hlook, hx, hy, mergeAt, Field.value,
        hleft n x hx (AList.lookup_eq_none.1 hy)]
    | some y =>
      have hz : f'.lookup n = some (x.mergedWith h y) := by rw [hlook, hx, hy]; rfl
      have hunion : (h'.keys x.typeOccurrence).toFinset =
          (h.keys x.typeOccurrence).toFinset ∪ (h.keys y.typeOccurrence).toFinset := Finset.ext fun t => by
        have := hocc n t
        rw [occAt_of_lookup hz, occAt_of_lookup hx, occAt_of_lookup hy, mergedWith_typeOccurrence] at this
        simpa using this
      have hsub : (∀ t ∈ h.keys y.typeOccurrence, t ∈ h.keys x.typeOccurrence) ↔
          (h.keys y.typeOccurrence).toFinset ⊆ (h.keys x.typeOccurrence).toFinset := by
        simp [Finset.subset_iff]
      simp only [Fields.value, Values.merge, hx, hy, hz, Option.map_some', Field.value, FieldValue.merge,
        mergedWith_typeOccurrence, mergedWith_sqlTypeSuggestion, mergedWith_dataType, hunion, hsub]

/-- A statement on two variables does nothing, on the store and on its values, when one of them does not exist. -/
theorem pair_cases (s : Store) (i j : Nat) :
    (∃ f g, s.vars[i]? = some f ∧ s.vars[j]? = some g) ∨
      (∀ o ∈ [Op.merge i j, .add i j, .overrideTypes i j], s.step o = some s ∧ valueStep s.view o = s.view) := by
  cases hi : s.vars[i]? with
  | none =>
    refine .inr fun o ho => ?_
    simp only [List.mem_cons, List.mem_singleton, List.not_mem_nil, or_false] at ho
    rcases ho with rfl | rfl | rfl <;>
      simp only [Store.step, valueStep, Store.view, List.getElem?_map, hi, Option.map_none', and_self]
  | some f =>
    cases hj : s.vars[j]? with
    | none =>
      refine .inr fun o ho => ?_
      simp only [List.mem_cons, List.mem_singleton, List.not_mem_nil, or_false] at ho
      rcases ho with rfl | rfl | rfl <;>
        simp only [Store.step, valueStep, Store.view, List.getElem?_map, hi, hj, Option.map_none', Option.map_some',
          and_self]
    | some g => exact .inl ⟨f, g, rfl, rfl⟩

theorem view_of_missing {s s' : Store} {o : Op} {j : Nat} (hs : s.step o = some s ∧ valueStep s.view o = s.view)
    (h : s.run [o, .reset j] = some s') : s'.view = valueRun s.view [o, .reset j] := by
  rw [run_cons hs.1] at h
  simp only [Store.run, Store.step, Option.some_bind, Option.some.injEq] at h
  subst h
  rw [view_reset]
  simp only [valueRun, List.foldl_cons, List.foldl_nil, hs.2]
  rfl

/-- `v[i].Merge(v[j])` with `v[j]` dropped right after, on a sound store, is the same statement over values. -/
theorem Store.Sound.view_merge_reset (hs : s.Sound join) {i j : Nat} (hij : i ≠ j)
    (h : s.run [.merge i j, .reset j] = some s') : s'.view = valueRun s.view [.merge i j, .reset j] := by
  rcases pair_cases s i j with ⟨f, g, hi, hj⟩ | hmiss
  · obtain ⟨h', f', hm, -, hlook, hleft, hright, hocc, hframe, -⟩ :=
      merge_union (h := s.heap) (hs.apart hij hi hj) (hs.nonNil hi) (hs.nonNil hj)
    simp only [Store.run, Store.step, hi, hj, hm, Option.map_some', Option.some_bind, Option.some.injEq] at h
    subst h
    have hother : ∀ k f₀, k ≠ i → s.vars[k]? = some f₀ → f₀.value h' = f₀.value s.heap := fun k f₀ hk hf₀ =>
      Fields.value_frame fun n r hr => hframe r fun m hm => hk (hs.owned k i n m r
        (by rwa [varRef_of_getElem? hf₀]) (by rwa [varRef_of_getElem? hi])).1
    simp only [valueRun, List.foldl_cons, List.foldl_nil, valueStep, Store.view, List.getElem?_map, hi, hj,
      Option.map_some', List.map_set, Fields.value_empty]
    rw [map_set_congr _ hother, value_merge hlook hleft hright hocc]
  · exact view_of_missing (hmiss _ (by simp)) h

end Sound

theorem value_add (h : Heap) (f g : Fields) : (f.add g).value h = (f.value h).add (g.value h) := funext fun n => by
  simp only [Fields.value, Values.add, lookup_add]
  cases f.lookup n <;> rfl

theorem value_overrideTypes (h : Heap) (f g : Fields) :
    (f.overrideTypes g).value h = (f.value h).overrideTypes (g.value h) := funext fun n => by
  simp only [Fields.value, Values.overrideTypes, lookup_overrideTypes]
  cases f.lookup n <;> cases g.lookup n <;> rfl

/-- `v[i].Add(v[j])` with `v[j]` dropped right after is the same statement over values; it writes no map. -/
theorem view_add_reset {s s' : Store} {i j : Nat} (h : s.run [.add i j, .reset j] = some s') :
    s'.view = valueRun s.view [.add i j, .reset j] := by
  rcases pair_cases s i j with ⟨f, g, hi, hj⟩ | hmiss
  · simp only [Store.run, Store.step, hi, hj, Option.some_bind, Option.some.injEq] at h
    subst h
    simp only [valueRun, List.foldl_cons, List.foldl_nil, valueStep, Store.view, List.getElem?_map, hi, hj,
      Option.map_some', List.map_set, Fields.value_empty, value_add]
  · exact view_of_missing (hmiss _ (by simp)) h

/-- `v[i].OverrideTypes(v[j])` with `v[j]` dropped right after is the same statement over values. -/
theorem view_overrideTypes_reset {s s' : Store} {i j : Nat} (h : s.run [.overrideTypes i j, .reset j] = some s') :
    s'.view = valueRun s.view [.overrideTypes i j, .reset j] := by
  rcases pair_cases s i j with ⟨f, g, hi, hj⟩ | hmiss
  · simp only [Store.run, Store.step, hi, hj, Option.some_bind, Option.some.injEq] at h
    subst h
    simp only [valueRun, List.foldl_cons, List.foldl_nil, valueStep, Store.view, List.getElem?_map, hi, hj,
      Option.map_some', List.map_set, Fields.value_empty, value_overrideTypes]
  · exact view_of_missing (hmiss _ (by simp)) h

/-! ## Runs -/

theorem refines_append {s s₁ : Store} (os₁ : List Op) {os : List Op} (h₁ : s.run os₁ = some s₁)
    (hv₁ : s₁.view = valueRun s.view os₁) (ih : ∃ s', s₁.run os = some s' ∧ s'.view = valueRun s₁.view os) :
    ∃ s', s.run (os₁ ++ os) = some s' ∧ s'.view = valueRun s.view (os₁ ++ os) := by
  obtain ⟨s', h', hv⟩ := ih
  exact ⟨s', by rw [run_append, h₁, Option.some_bind, h'], by rw [hv, hv₁, valueRun, valueRun, valueRun,
    List.foldl_append]⟩

theorem run_single {s s' : Store} {o : Op} (h : s.step o = some s') : s.run [o] = some s' := by
  simp [Store.run, h]

/-- **Consuming runs compute values**: from a sound store, a run that drops the argument of each `Merge`, `Add` and
`OverrideTypes` right after does not panic, and the values its variables end with are those the same run computes
over values. -/
theorem run_refines {join : DataType → DataType → DataType} {os : List Op} (hc : Consuming os) :
    ∀ {s : Store}, s.Sound join → ∃ s', s.run os = some s' ∧ s'.view = valueRun s.view os := by
  induction hc with
  | nil => intro s _; exact ⟨s, rfl, rfl⟩
  | make cs _ ih =>
    intro s hs
    obtain ⟨s₁, h₁, hs₁⟩ := hs.make cs
    exact refines_append [_] (run_single h₁) (hs.view_make cs h₁) (ih hs₁)
  | clone i _ ih =>
    intro s hs
    obtain ⟨s₁, h₁, hs₁⟩ := hs.clone i
    exact refines_append [_] (run_single h₁) (hs.view_clone i h₁) (ih hs₁)
  | reset j _ ih =>
    intro s hs
    exact refines_append [_] (run_single rfl) (view_reset s j) (ih (hs.reset j))
  | merge hij _ ih =>
    intro s hs
    obtain ⟨s₁, h₁, hs₁⟩ := hs.merge_reset hij
    exact refines_append [_, _] h₁ (hs.view_merge_reset hij h₁) (ih hs₁)
  | add hij _ ih =>
    intro s hs
    obtain ⟨s₁, h₁, hs₁⟩ := hs.add_reset hij
    exact refines_append [_, _] h₁ (view_add_reset h₁) (ih hs₁)
  | overrideTypes hij _ ih =>
    intro s hs
    obtain ⟨s₁, h₁, hs₁⟩ := hs.overrideTypes_reset hij
    exact refines_append [_, _] h₁ (view_overrideTypes_reset h₁) (ih hs₁)

/-- **The fields code refines the value semantics.** Every run from the empty program that drops the argument of
each `Merge`, `Add` and `OverrideTypes` right after using it ends, without a panic, with variables whose occurrence
sets, cached types and suggestions are exactly those the same run computes over values. -/
theorem consuming_run_refines {os : List Op} (hc : Consuming os) :
    ∃ s, Store.empty.run os = some s ∧ s.view = valueRun [] os :=
  run_refines hc (empty_sound flatJoin)

/-- Two per-object schemas merged into the first, the second then dropped. -/
def mergedObjects : List Op :=
  [.make [("a", .int64, none)], .make [("a", .string, none), ("b", .bool, none)], .merge 0 1, .reset 1]

theorem consuming_run_refines_merged :
    Consuming mergedObjects ∧ ∃ s, Store.empty.run mergedObjects = some s ∧ s.view = valueRun [] mergedObjects :=
  have hc : Consuming mergedObjects := .make _ (.make _ (.merge (by decide) .nil))
  ⟨hc, consuming_run_refines hc⟩

end Bulker.Types
