import Mathlib.Data.List.AList
import Bulker.Types.DataType

/-!
# Fields and their occurrence maps

A `Field` (`types/fields.go`) points to a `map[DataType]bool` of the kinds of values seen for it. Go maps are
references: copying a `Field` struct shares its map, and `Field.Merge` writes through it. So the maps live in a heap
(`Heap`) and a field holds a reference, `none` being the `nil` map.

* `merge_of_some`: `Field.Merge` into a field with a map adds the other field's occurrences to that map and clears
  the cached type exactly when one of them is new; `merge_of_none`: into a `nil` map it panics unless there is
  nothing to add;
* `getSuggestedSQLType_spec`: `GetSuggestedSQLType` reports a type, always as an override, from the destination's
  entry, else from a non-empty default;
* `Field.WF`: the representation invariant of the spec (§3), kept by `Field.Merge` (`WF_merge`); under it `GetType`
  is the join of the occurrences (`getType_of_WF`);
* `getType_iteration_order`: with a commutative and associative join, `GetType` does not depend on the order in which
  the occurrence map is enumerated.
-/

namespace Bulker.Types

/-- A `map[DataType]bool` as the fields code uses it, a set: its keys in iteration order. Every value the code
stores is `true` and none is read, so only the keys are kept. -/
@[ext] structure OccMap where
  keys : List DataType
  nodup : keys.Nodup

namespace OccMap

def empty : OccMap := ⟨[], List.nodup_nil⟩

/-- The literal `map[DataType]bool{t: true}`. -/
def single (t : DataType) : OccMap := ⟨[t], List.nodup_singleton t⟩

/-- `m[t] = true`. -/
def insert (m : OccMap) (t : DataType) : OccMap :=
  if h : t ∈ m.keys then m else ⟨m.keys ++ [t], m.nodup.append (List.nodup_singleton t) (by simpa using h)⟩

/-- `m[t] = true` for each `t` of `ts` in turn. -/
def insertAll (m : OccMap) (ts : List DataType) : OccMap := ts.foldl insert m

theorem mem_insert {m : OccMap} {t t' : DataType} : t' ∈ (m.insert t).keys ↔ t' ∈ m.keys ∨ t' = t := by
  unfold insert; split_ifs with h
  · exact ⟨.inl, fun h' => h'.elim id (· ▸ h)⟩
  · simp

theorem insert_of_mem {m : OccMap} {t : DataType} (h : t ∈ m.keys) : m.insert t = m := dif_pos h

@[simp] theorem insertAll_nil (m : OccMap) : m.insertAll [] = m := rfl

@[simp] theorem insertAll_cons (m : OccMap) (t : DataType) (ts : List DataType) :
    m.insertAll (t :: ts) = (m.insert t).insertAll ts := rfl

theorem mem_insertAll {t : DataType} (ts : List DataType) :
    ∀ {m : OccMap}, t ∈ (m.insertAll ts).keys ↔ t ∈ m.keys ∨ t ∈ ts := by
  induction ts with
  | nil => simp
  | cons x ts ih => intro m; simp only [insertAll_cons, ih, mem_insert, List.mem_cons]; tauto

/-- Adding keys already there changes nothing. -/
theorem insertAll_of_subset {ts : List DataType} :
    ∀ {m : OccMap}, (∀ t ∈ ts, t ∈ m.keys) → m.insertAll ts = m := by
  induction ts with
  | nil => intro m _; rfl
  | cons x ts ih =>
    intro m h
    rw [insertAll_cons, insert_of_mem (h x (List.mem_cons_self _ _))]
    exact ih fun t ht => h t (List.mem_cons_of_mem _ ht)

theorem keys_insertAll_of_nodup {ts : List DataType} (hts : ts.Nodup) :
    ∀ {m : OccMap}, (∀ t ∈ ts, t ∉ m.keys) → (m.insertAll ts).keys = m.keys ++ ts := by
  induction ts with
  | nil => intro m _; simp
  | cons x ts ih =>
    intro m h
    rw [List.nodup_cons] at hts
    have hx : x ∉ m.keys := h x (List.mem_cons_self _ _)
    rw [insertAll_cons, ih hts.2, insert, dif_neg hx, List.append_assoc, List.singleton_append]
    intro t ht
    rw [insert, dif_neg hx, List.mem_append, List.mem_singleton]
    rintro (h' | rfl)
    · exact h t (List.mem_cons_of_mem _ ht) h'
    · exact hts.1 ht

end OccMap

/-- The occurrence maps of a program: a `map[DataType]bool` is a reference `r` to `maps r`; the references from
`next` on are not allocated yet. -/
structure Heap where
  maps : Nat → OccMap
  next : Nat

namespace Heap

def empty : Heap := ⟨fun _ => OccMap.empty, 0⟩

/-- The map a reference points to; the `nil` map is empty. -/
def get (h : Heap) : Option Nat → OccMap
  | none => OccMap.empty
  | some r => h.maps r

/-- The keys of the map a reference points to, in iteration order. -/
def keys (h : Heap) (o : Option Nat) : List DataType := (h.get o).keys

/-- A write to the map `r`. -/
def set (h : Heap) (r : Nat) (m : OccMap) : Heap := { h with maps := Function.update h.maps r m }

/-- A new map holding `m`, at the first unallocated reference. -/
def alloc (h : Heap) (m : OccMap) : Nat × Heap :=
  (h.next, { maps := Function.update h.maps h.next m, next := h.next + 1 })

@[simp] theorem keys_none (h : Heap) : h.keys none = [] := rfl

@[simp] theorem keys_some (h : Heap) (r : Nat) : h.keys (some r) = (h.maps r).keys := rfl

@[simp] theorem set_next (h : Heap) (r : Nat) (m : OccMap) : (h.set r m).next = h.next := rfl

@[simp] theorem set_maps_self (h : Heap) (r : Nat) (m : OccMap) : (h.set r m).maps r = m := by
  simp [set]

theorem set_maps_ne (h : Heap) {r r' : Nat} (m : OccMap) (hne : r' ≠ r) : (h.set r m).maps r' = h.maps r' := by
  simp [set, hne]

@[simp] theorem set_set (h : Heap) (r : Nat) (m m' : OccMap) : (h.set r m).set r m' = h.set r m' := by
  simp [set]

theorem set_self (h : Heap) (r : Nat) : h.set r (h.maps r) = h := by
  simp [set]

@[simp] theorem alloc_fst (h : Heap) (m : OccMap) : (h.alloc m).1 = h.next := rfl

@[simp] theorem alloc_next (h : Heap) (m : OccMap) : (h.alloc m).2.next = h.next + 1 := rfl

theorem alloc_maps (h : Heap) (m : OccMap) (r : Nat) :
    (h.alloc m).2.maps r = if r = h.next then m else h.maps r := by
  simp only [alloc, Function.update_apply]

end Heap

/-- `SQLTypeSuggestion`: a default SQL type and one SQL type per destination type. -/
structure SQLTypeSuggestion where
  sqlType : SQLColumn
  sqlTypePerDestination : AList (fun _ : String => SQLColumn)

def newSQLTypeSuggestion (sqlType : SQLColumn) (sqlTypePerDestination : AList (fun _ : String => SQLColumn)) :
    SQLTypeSuggestion :=
  ⟨sqlType, sqlTypePerDestination⟩

/-- `Field`: the cached type (`nil` is `none`), the SQL type suggestion (`nil` is `none`) and the reference to the
occurrence map (`nil` is `none`). -/
structure Field where
  dataType : Option DataType
  sqlTypeSuggestion : Option SQLTypeSuggestion
  typeOccurrence : Option Nat

/-- `NewFieldWithSQLType`: a fresh map `{t: true}` and the cached type `t`. -/
def newFieldWithSQLType (h : Heap) (t : DataType) (sqlTypeSuggestion : Option SQLTypeSuggestion) : Heap × Field :=
  let (r, h) := h.alloc (OccMap.single t)
  (h, { dataType := some t, sqlTypeSuggestion := sqlTypeSuggestion, typeOccurrence := some r })

@[simp] theorem newFieldWithSQLType_fst (h : Heap) (t : DataType) (s : Option SQLTypeSuggestion) :
    (newFieldWithSQLType h t s).1 = (h.alloc (OccMap.single t)).2 := rfl

@[simp] theorem newFieldWithSQLType_snd (h : Heap) (t : DataType) (s : Option SQLTypeSuggestion) :
    (newFieldWithSQLType h t s).2 = ⟨some t, s, some h.next⟩ := rfl

/-- `NewField`: `NewFieldWithSQLType` without a suggestion. -/
def newField (h : Heap) (t : DataType) : Heap × Field := newFieldWithSQLType h t none

/-- `Field.GetSuggestedSQLType`: the destination's SQL type, else the default one when its type is set, marked as an
override; the zero column and `false` without a suggestion. -/
def Field.getSuggestedSQLType (f : Field) (destinationType : String) : SQLColumn × Bool :=
  match f.sqlTypeSuggestion with
  | some s =>
    match s.sqlTypePerDestination.lookup destinationType with
    | some sqlType => (⟨sqlType.type, sqlType.columnType, true⟩, true)
    | none =>
      if s.sqlType.type ≠ "" then (⟨s.sqlType.type, s.sqlType.columnType, true⟩, true)
      else (⟨"", "", false⟩, false)
  | none => (⟨"", "", false⟩, false)

/-- **`GetSuggestedSQLType`** marks what it reports as an override; it reports a type exactly when the field has a
suggestion with an entry for the destination or a non-empty default, and it reports an empty type only from an entry
for the destination whose type is empty, which wins over the default. -/
theorem getSuggestedSQLType_spec (f : Field) (d : String) :
    (f.getSuggestedSQLType d).1.override = (f.getSuggestedSQLType d).2 ∧
    ((f.getSuggestedSQLType d).2 = true ↔ ∃ s, f.sqlTypeSuggestion = some s ∧
      ((s.sqlTypePerDestination.lookup d).isSome ∨ s.sqlType.type ≠ "")) ∧
    ((f.getSuggestedSQLType d).2 = true ∧ (f.getSuggestedSQLType d).1.type = "" ↔
      ∃ s c, f.sqlTypeSuggestion = some s ∧ s.sqlTypePerDestination.lookup d = some c ∧ c.type = "") := by
  unfold Field.getSuggestedSQLType
  cases f.sqlTypeSuggestion with
  | none => simp
  | some s =>
    cases hc : s.sqlTypePerDestination.lookup d with
    | some c => simp [hc]
    | none => by_cases ht : s.sqlType.type = "" <;> simp [hc, ht]

section Join

variable (join : DataType → DataType → DataType)

/-- `Field.GetType`, with `join` for `GetCommonAncestorType`: the cached type, else the fold of the occurrences,
else the fallback `UNKNOWN` (where the code logs a system error). The receiver is a copy, so the result the code
stores into `f.dataType` is lost. -/
def Field.getType (h : Heap) (f : Field) : DataType :=
  match f.dataType with
  | some d => d
  | none => (joinAll join (h.keys f.typeOccurrence)).getD .unknown

/-- The representation invariant of a field (§3): its occurrence map is allocated and not empty, and its cached type,
when set, is the join of its occurrences. -/
structure Field.WF (h : Heap) (f : Field) : Prop where
  allocated : ∃ r, f.typeOccurrence = some r ∧ r < h.next
  nonempty : h.keys f.typeOccurrence ≠ []
  cached : ∀ d, f.dataType = some d → joinAll join (h.keys f.typeOccurrence) = some d

variable {join}

/-- The invariant reads only the field's map and the allocation bound. -/
theorem Field.WF.congr {h h' : Heap} {f : Field} (hf : f.WF join h)
    (hk : h'.keys f.typeOccurrence = h.keys f.typeOccurrence) (hn : h.next ≤ h'.next) : f.WF join h' := by
  obtain ⟨⟨r, hr, hlt⟩, hne, hc⟩ := hf
  exact ⟨⟨r, hr, by omega⟩, hk ▸ hne, hk ▸ hc⟩

/-- A new field satisfies the invariant. -/
theorem WF_newFieldWithSQLType (h : Heap) (t : DataType) (s : Option SQLTypeSuggestion) :
    (newFieldWithSQLType h t s).2.WF join (newFieldWithSQLType h t s).1 :=
  ⟨⟨h.next, rfl, Nat.lt_succ_self _⟩, by simp [newFieldWithSQLType, Heap.alloc, OccMap.single],
    fun d hd => by cases hd; simp [newFieldWithSQLType, Heap.alloc, OccMap.single, joinAll]⟩

/-- A new allocation keeps the invariant of the fields already there. -/
theorem Field.WF.alloc {h : Heap} {f : Field} (hf : f.WF join h) (m : OccMap) : f.WF join (h.alloc m).2 := by
  obtain ⟨r, hr, hlt⟩ := hf.allocated
  refine hf.congr ?_ (by simp)
  rw [hr, Heap.keys_some, Heap.keys_some, Heap.alloc_maps, if_neg (Nat.ne_of_lt hlt)]

/-- Under the invariant, `GetType` is the join of the occurrences. -/
theorem getType_of_WF {h : Heap} {f : Field} (hf : f.WF join h) :
    joinAll join (h.keys f.typeOccurrence) = some (f.getType join h) := by
  unfold Field.getType
  cases hd : f.dataType with
  | some d => exact hf.cached d hd
  | none =>
    obtain ⟨d, hd'⟩ := Option.ne_none_iff_exists'.1 (mt (joinAll_eq_none join).1 hf.nonempty)
    rw [hd']; rfl

/-- **`GetType` does not depend on the iteration order**: with a commutative and associative join, two heaps that
enumerate a field's occurrences in any two orders give it the same type. -/
theorem getType_iteration_order (hc : ∀ a b, join a b = join b a)
    (ha : ∀ a b c, join (join a b) c = join a (join b c)) {h₁ h₂ : Heap} (f : Field)
    (hm : ∀ t, t ∈ h₁.keys f.typeOccurrence ↔ t ∈ h₂.keys f.typeOccurrence) :
    f.getType join h₁ = f.getType join h₂ := by
  have p : (h₁.keys f.typeOccurrence).Perm (h₂.keys f.typeOccurrence) :=
    (List.perm_ext_iff_of_nodup (h₁.get _).nodup (h₂.get _).nodup).2 hm
  unfold Field.getType
  rw [joinAll_perm hc ha p]

/-- The occurrences `int64` and `string`, enumerated in the two orders. -/
def int64ThenString : OccMap := ⟨[.int64, .string], by decide⟩

def stringThenInt64 : OccMap := ⟨[.string, .int64], by decide⟩

theorem getType_iteration_order_swapped :
    (∀ t, t ∈ (Heap.empty.set 0 int64ThenString).keys (some 0) ↔
        t ∈ (Heap.empty.set 0 stringThenInt64).keys (some 0)) ∧
      (⟨none, none, some 0⟩ : Field).getType flatJoin (Heap.empty.set 0 int64ThenString) =
        (⟨none, none, some 0⟩ : Field).getType flatJoin (Heap.empty.set 0 stringThenInt64) :=
  ⟨fun t => by simp [int64ThenString, stringThenInt64, or_comm],
    getType_iteration_order flatJoin_comm flatJoin_assoc _ fun t => by
      simp [int64ThenString, stringThenInt64, or_comm]⟩

end Join

/-! ## `Field.Merge` -/

/-- The loop of `Field.Merge` over the occurrences `ts` of the other field: each new one is written into the map of
`f` and clears its cached type. `none` is the runtime panic of a write to a `nil` map. -/
def Field.mergeKeys : List DataType → Heap → Field → Option (Heap × Field)
  | [], h, f => some (h, f)
  | t :: ts, h, f =>
    if t ∈ h.keys f.typeOccurrence then Field.mergeKeys ts h f
    else
      match f.typeOccurrence with
      | none => none
      | some r => Field.mergeKeys ts (h.set r ((h.maps r).insert t)) { f with dataType := none }

/-- `Field.Merge`. -/
def Field.merge (h : Heap) (f anotherField : Field) : Option (Heap × Field) :=
  Field.mergeKeys (h.keys anotherField.typeOccurrence) h f

/-- The field after `Field.Merge` with `g`: unchanged when `g` brings no new occurrence, else with the cache
cleared. -/
def Field.mergedWith (h : Heap) (f g : Field) : Field :=
  if ∀ t ∈ h.keys g.typeOccurrence, t ∈ h.keys f.typeOccurrence then f else { f with dataType := none }

@[simp] theorem mergedWith_typeOccurrence (h : Heap) (f g : Field) :
    (f.mergedWith h g).typeOccurrence = f.typeOccurrence := by
  unfold Field.mergedWith; split_ifs <;> rfl

@[simp] theorem mergedWith_sqlTypeSuggestion (h : Heap) (f g : Field) :
    (f.mergedWith h g).sqlTypeSuggestion = f.sqlTypeSuggestion := by
  unfold Field.mergedWith; split_ifs <;> rfl

theorem mergeKeys_of_some {r : Nat} (ts : List DataType) :
    ∀ {h : Heap} {f : Field}, f.typeOccurrence = some r →
      Field.mergeKeys ts h f = some (h.set r ((h.maps r).insertAll ts),
        if ∀ t ∈ ts, t ∈ (h.maps r).keys then f else { f with dataType := none }) := by
  induction ts with
  | nil => intro h f _; simp [Field.mergeKeys, Heap.set_self]
  | cons t ts ih =>
    intro h f hr
    have hmem : (t ∈ h.keys f.typeOccurrence) = (t ∈ (h.maps r).keys) := by rw [hr]; rfl
    by_cases ht : t ∈ (h.maps r).keys
    · rw [Field.mergeKeys, if_pos (hmem ▸ ht), ih hr, OccMap.insertAll_cons, OccMap.insert_of_mem ht]
      simp only [List.forall_mem_cons, ht, true_and]
    · rw [Field.mergeKeys, if_neg (hmem ▸ ht)]
      simp only [hr, OccMap.insertAll_cons, List.forall_mem_cons, ht, false_and, if_false]
      rw [@ih _ ⟨none, f.sqlTypeSuggestion, some r⟩ rfl, Heap.set_set, Heap.set_maps_self]
      split_ifs <;> rfl

/-- **`Field.Merge` into a field with a map**: the other field's occurrences are added to the map, and the cache is
cleared exactly when one of them is new. -/
theorem merge_of_some {h : Heap} {f : Field} {r : Nat} (hr : f.typeOccurrence = some r) (g : Field) :
    Field.merge h f g = some (h.set r ((h.maps r).insertAll (h.keys g.typeOccurrence)), f.mergedWith h g) := by
  rw [Field.merge, mergeKeys_of_some _ hr, Field.mergedWith, hr, Heap.keys_some]

/-- `Field.Merge` into a `nil` map panics unless the other field has no occurrence. -/
theorem merge_of_none {h : Heap} {f : Field} (hr : f.typeOccurrence = none) (g : Field) :
    Field.merge h f g = if h.keys g.typeOccurrence = [] then some (h, f) else none := by
  unfold Field.merge
  cases h.keys g.typeOccurrence with
  | nil => rfl
  | cons t ts => simp [Field.mergeKeys, hr]

/-- `Field.Merge` keeps the invariant when the two fields do not share a map, or share it. -/
theorem WF_merge {join : DataType → DataType → DataType} {h : Heap} {f g : Field} {r : Nat}
    (hf : f.WF join h) (hr : f.typeOccurrence = some r) :
    (f.mergedWith h g).WF join (h.set r ((h.maps r).insertAll (h.keys g.typeOccurrence))) := by
  obtain ⟨⟨r', hr', hlt⟩, hne, hc⟩ := hf
  rw [hr, Option.some.injEq] at hr'
  subst hr'
  unfold Field.mergedWith
  split_ifs with hsub
  · rw [hr, Heap.keys_some] at hsub
    rw [OccMap.insertAll_of_subset hsub, Heap.set_self]
    exact ⟨⟨r, hr, hlt⟩, hne, hc⟩
  · refine ⟨⟨r, hr, by simpa using hlt⟩, ?_, fun d hd => by cases hd⟩
    rw [hr] at hne ⊢
    obtain ⟨t, ht⟩ := List.exists_mem_of_ne_nil _ hne
    exact List.ne_nil_of_mem (by simpa [OccMap.mem_insertAll] using Or.inl ht : t ∈ _)

end Bulker.Types
