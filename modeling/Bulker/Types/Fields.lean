import Bulker.Types.Field
import Bulker.Types.Table

/-!
# Fields

`Fields` (`types/fields.go`) maps names to fields. `Merge`, `OverrideTypes` and `Add` copy `Field` structs from
their argument, so the receiver then shares occurrence maps with it; `Clone` allocates new maps.

* `lookup_merge`: in every run of `Fields.Merge`, each name ends with the receiver's field merged with the
  argument's, the receiver's field, or the argument's field, as `mergeAt` says for some heap;
* `merge_apart`: when the receiver owns its maps and shares one with the argument only under the same name, the heap
  is the initial one in `mergeAt`, the maps of the receiver's fields gain the argument's occurrences, and every other
  map is unchanged;
* `sorted_header_columns`: `Header` and `Table.SortedColumnNames` list the names once, sorted, in any iteration
  order;
* `clone_spec`: `Clone` keeps the names, cached types and occurrences in fresh maps, and drops the suggestions.
-/

namespace Bulker.Types

/-- `Fields`: a non-nil `map[string]Field`; a receiver that may be `nil` is an `Option Fields`
(`Fields.mergeNilable`, `Fields.addNilable`). -/
abbrev Fields := AList (fun _ : String => Field)

/-- Entries of a `Fields` map, as `range` visits them. -/
abbrev Entries := List (Σ _ : String, Field)

/-- `BatchHeader`: the schema of a batch. -/
structure BatchHeader where
  tableName : String
  fields : Fields
  partition : DatePartition

/-- `BatchHeader.Exists`: a non-`nil` header with a field. -/
def BatchHeader.exists : Option BatchHeader → Bool
  | none => false
  | some bh => 0 < bh.fields.entries.length

/-! ## The operations -/

/-- The loop of `Fields.Merge`: a name already present is merged with `Field.Merge`, a new one is copied in. -/
def Fields.mergeEntries : Entries → Heap → Fields → Option (Heap × Fields)
  | [], h, f => some (h, f)
  | ⟨otherName, otherField⟩ :: es, h, f =>
    match f.lookup otherName with
    | some currentField =>
      match Field.merge h currentField otherField with
      | some (h, currentField) => Fields.mergeEntries es h (f.insert otherName currentField)
      | none => none
    | none => Fields.mergeEntries es h (f.insert otherName otherField)

/-- `Fields.Merge`; `none` is a panic of `Field.Merge`. -/
def Fields.merge (h : Heap) (f other : Fields) : Option (Heap × Fields) := Fields.mergeEntries other.entries h f

/-- The loop of `Fields.Clone`: each field gets a new map with the same occurrences and keeps only its cached type. -/
def Fields.cloneEntries : Entries → Heap → Fields → Heap × Fields
  | [], h, clone => (h, clone)
  | ⟨fieldName, fieldPayload⟩ :: es, h, clone =>
    let (r, h) := h.alloc (OccMap.empty.insertAll (h.keys fieldPayload.typeOccurrence))
    Fields.cloneEntries es h
      (clone.insert fieldName
        { dataType := fieldPayload.dataType, sqlTypeSuggestion := none, typeOccurrence := some r })

/-- `Fields.Clone`. -/
def Fields.clone (h : Heap) (f : Fields) : Heap × Fields := Fields.cloneEntries f.entries h ∅

/-- The loop of `Fields.OverrideTypes`: a name present in both takes the argument's occurrence map and cached type. -/
def Fields.overrideEntries : Entries → Fields → Fields
  | [], f => f
  | ⟨otherName, otherField⟩ :: es, f =>
    match f.lookup otherName with
    | some currentField =>
      Fields.overrideEntries es (f.insert otherName
        { currentField with typeOccurrence := otherField.typeOccurrence, dataType := otherField.dataType })
    | none => Fields.overrideEntries es f

/-- `Fields.OverrideTypes`. -/
def Fields.overrideTypes (f other : Fields) : Fields := Fields.overrideEntries other.entries f

/-- The loop of `Fields.Add`: only new names are copied in. -/
def Fields.addEntries : Entries → Fields → Fields
  | [], f => f
  | ⟨otherName, otherField⟩ :: es, f =>
    if otherName ∈ f then Fields.addEntries es f else Fields.addEntries es (f.insert otherName otherField)

/-- `Fields.Add`. -/
def Fields.add (f other : Fields) : Fields := Fields.addEntries other.entries f

/-- `Fields.Merge` on a receiver that may be `nil` (`none`): a `nil` map has no names, so the loop's first
assignment panics; an empty argument leaves it `nil`. -/
def Fields.mergeNilable (h : Heap) : Option Fields → Fields → Option (Heap × Option Fields)
  | none, other =>
    match other.entries with
    | [] => some (h, none)
    | _ :: _ => none
  | some f, other => (Fields.merge h f other).map fun p => (p.1, some p.2)

/-- `Fields.Add` on a receiver that may be `nil`: the first name of the argument is assigned, and panics. -/
def Fields.addNilable : Option Fields → Fields → Option (Option Fields)
  | none, other =>
    match other.entries with
    | [] => some none
    | _ :: _ => none
  | some f, other => some (some (f.add other))

/-- `Fields.Header`: the field names, sorted. -/
def Fields.header (f : Fields) : List String := sortStrings f.keys

/-- **`Table.SortedColumnNames` and `Fields.Header`** list each name of their map once, in ascending order, and give
the same list whatever order `range` visits the map in. -/
theorem sorted_header_columns :
    (∀ t : Table, t.sortedColumnNames.Sorted (· < ·) ∧ (∀ n, n ∈ t.sortedColumnNames ↔ n ∈ t.columns) ∧
      ∀ t' : Table, t'.columns.entries.Perm t.columns.entries → t'.sortedColumnNames = t.sortedColumnNames) ∧
    (∀ f : Fields, f.header.Sorted (· < ·) ∧ (∀ n, n ∈ f.header ↔ n ∈ f) ∧
      ∀ f' : Fields, f'.entries.Perm f.entries → f'.header = f.header) :=
  ⟨fun t => ⟨(sortStrings_keys t.columns).1, (sortStrings_keys t.columns).2.1,
    fun t' => (sortStrings_keys t.columns).2.2 t'.columns⟩, fun f => sortStrings_keys f⟩

/-! ## `Field.Merge` results -/

theorem merge_snd {h h' : Heap} {x y x' : Field} (hm : Field.merge h x y = some (h', x')) :
    x' = x.mergedWith h y := by
  cases hr : x.typeOccurrence with
  | some r => rw [merge_of_some hr] at hm; exact (Prod.mk.inj (Option.some.inj hm)).2.symm
  | none =>
    rw [merge_of_none hr] at hm
    split_ifs at hm with hk
    · obtain ⟨-, rfl⟩ := Prod.mk.inj (Option.some.inj hm)
      simp [Field.mergedWith, hk]

theorem merge_heap {h h' : Heap} {x y x' : Field} (hm : Field.merge h x y = some (h', x')) :
    h'.next = h.next ∧ ∀ r t, t ∈ (h.maps r).keys → t ∈ (h'.maps r).keys := by
  cases hr : x.typeOccurrence with
  | some r =>
    rw [merge_of_some hr] at hm
    obtain ⟨rfl, -⟩ := Prod.mk.inj (Option.some.inj hm)
    refine ⟨rfl, fun r' t ht => ?_⟩
    by_cases e : r' = r
    · subst e; simp [OccMap.mem_insertAll, ht]
    · rwa [Heap.set_maps_ne _ _ e]
  | none =>
    rw [merge_of_none hr] at hm
    split_ifs at hm
    obtain ⟨rfl, -⟩ := Prod.mk.inj (Option.some.inj hm)
    exact ⟨rfl, fun _ _ => id⟩

/-! ## `Fields.Merge` in general -/

/-- What `Fields.Merge` leaves at one name, from the fields there in the receiver and in the argument. -/
def mergeAt (h : Heap) : Option Field → Option Field → Option Field
  | some x, some y => some (x.mergedWith h y)
  | some x, none => some x
  | none, o => o

theorem lookup_insert_entries {f : Fields} {n m : String} {v : Field} :
    (f.insert n v).lookup m = if m = n then some v else f.lookup m := by
  split_ifs with e
  · subst e; exact AList.lookup_insert f
  · exact AList.lookup_insert_ne e

theorem dlookup_cons_sigma {n m : String} {v : Field} {es : Entries} :
    (⟨n, v⟩ :: es : Entries).dlookup m = if m = n then some v else es.dlookup m := by
  split_ifs with e
  · subst e; exact List.dlookup_cons_eq _ _ _
  · exact List.dlookup_cons_ne _ _ e

/-- **Every run of the loop**: each name ends as `mergeAt` says, for the heap of the moment it is visited. -/
theorem lookup_mergeEntries (es : Entries) :
    ∀ {h : Heap} {f : Fields} {h' : Heap} {f' : Fields}, es.NodupKeys → Fields.mergeEntries es h f = some (h', f') →
      ∀ n, ∃ hn : Heap, f'.lookup n = mergeAt hn (f.lookup n) (es.dlookup n) := by
  induction es with
  | nil => intro h f h' f' _ hm n; cases hm; exact ⟨h, by cases f.lookup n <;> rfl⟩
  | cons e es ih =>
    obtain ⟨m, y⟩ := e
    intro h f h' f' hnd hm n
    rw [List.nodupKeys_cons] at hnd
    have hnone : n = m → es.dlookup n = none := fun e => e ▸ List.dlookup_eq_none.2 hnd.1
    simp only [Fields.mergeEntries] at hm
    split at hm
    · next x hx =>
      split at hm
      · next h₁ x₁ hx₁ =>
        obtain ⟨hn, hn'⟩ := ih hnd.2 hm n
        rw [lookup_insert_entries, merge_snd hx₁] at hn'
        by_cases e : n = m
        · subst e
          exact ⟨h, by rw [hn', if_pos rfl, hnone rfl, hx, dlookup_cons_sigma, if_pos rfl]; rfl⟩
        · exact ⟨hn, by rw [hn', if_neg e, dlookup_cons_sigma, if_neg e]⟩
      · cases hm
    · next hx =>
      obtain ⟨hn, hn'⟩ := ih hnd.2 hm n
      rw [lookup_insert_entries] at hn'
      by_cases e : n = m
      · subst e
        exact ⟨h, by rw [hn', if_pos rfl, hnone rfl, hx, dlookup_cons_sigma, if_pos rfl]; rfl⟩
      · exact ⟨hn, by rw [hn', if_neg e, dlookup_cons_sigma, if_neg e]⟩

theorem lookup_merge {h h' : Heap} {f g f' : Fields} (hm : Fields.merge h f g = some (h', f')) (n : String) :
    ∃ hn : Heap, f'.lookup n = mergeAt hn (f.lookup n) (g.lookup n) :=
  lookup_mergeEntries g.entries g.nodupKeys hm n

/-- Maps only grow, and nothing is allocated. -/
theorem mergeEntries_heap (es : Entries) :
    ∀ {h : Heap} {f : Fields} {h' : Heap} {f' : Fields}, Fields.mergeEntries es h f = some (h', f') →
      h'.next = h.next ∧ ∀ r t, t ∈ (h.maps r).keys → t ∈ (h'.maps r).keys := by
  induction es with
  | nil => intro h f h' f' hm; cases hm; exact ⟨rfl, fun _ _ => id⟩
  | cons e es ih =>
    obtain ⟨m, y⟩ := e
    intro h f h' f' hm
    simp only [Fields.mergeEntries] at hm
    split at hm
    · split at hm
      · next h₁ x₁ hx₁ =>
        obtain ⟨e₁, g₁⟩ := merge_heap hx₁
        obtain ⟨e₂, g₂⟩ := ih hm
        exact ⟨e₂.trans e₁, fun r t ht => g₂ r t (g₁ r t ht)⟩
      · cases hm
    · exact ih hm

/-- The loop does not panic when every field it can merge into has a map. -/
theorem mergeEntries_isSome (es : Entries) :
    ∀ {h : Heap} {f : Fields}, (∀ n x, f.lookup n = some x → x.typeOccurrence ≠ none) →
      (∀ e ∈ es, e.2.typeOccurrence ≠ none) → (Fields.mergeEntries es h f).isSome := by
  induction es with
  | nil => intro h f _ _; rfl
  | cons e es ih =>
    obtain ⟨m, y⟩ := e
    intro h f hf hes
    have hes' : ∀ e ∈ es, e.2.typeOccurrence ≠ none := fun e he => hes e (List.mem_cons_of_mem _ he)
    simp only [Fields.mergeEntries]
    split
    · next x hx =>
      obtain ⟨r, hr⟩ := Option.ne_none_iff_exists'.1 (hf m x hx)
      rw [merge_of_some hr]
      refine ih (fun n x' hx' => ?_) hes'
      rw [lookup_insert_entries] at hx'
      split_ifs at hx' with e
      · cases hx'; simp [hr]
      · exact hf n x' hx'
    · refine ih (fun n x' hx' => ?_) hes'
      rw [lookup_insert_entries] at hx'
      split_ifs at hx' with e
      · cases hx'; exact hes _ (List.mem_cons_self _ _)
      · exact hf n x' hx'

/-! ## `Fields.Merge` without shared maps -/

/-- The reference of the occurrence map of the field at `n`. -/
def refAt (es : Entries) (n : String) : Option Nat := (es.dlookup n).bind Field.typeOccurrence

/-- The receiver `l₁` owns its maps, and shares one with the argument `l₂` only under the same name, as `Merge`,
`Add` and `OverrideTypes` leave it; fields of the argument may share maps among themselves. -/
structure Apart (l₁ l₂ : Entries) : Prop where
  left : ∀ n m r, refAt l₁ n = some r → refAt l₁ m = some r → n = m
  cross : ∀ n m r, refAt l₁ n = some r → refAt l₂ m = some r → n = m

/-- What the loop of `Fields.Merge` needs of the receiver `l` and the entries `es` still to visit: the receiver's field
at a name still to visit shares its map with no other field of the receiver, and with no entry still to visit but
the one of its own name. -/
structure Separate (l es : Entries) : Prop where
  left : ∀ n m r, n ∈ es.keys → refAt l n = some r → refAt l m = some r → n = m
  cross : ∀ n m r, n ∈ es.keys → refAt l n = some r → refAt es m = some r → n = m

/-- Every field has a map. -/
def NonNil (es : Entries) : Prop := ∀ n x, es.dlookup n = some x → x.typeOccurrence ≠ none

theorem refAt_insert {f : Fields} {n m : String} {v : Field} :
    refAt (f.insert n v).entries m = if m = n then v.typeOccurrence else refAt f.entries m := by
  simp only [refAt, ← AList.lookup.eq_1, lookup_insert_entries]; split_ifs <;> rfl

theorem refAt_cons {n m : String} {v : Field} {es : Entries} :
    refAt (⟨n, v⟩ :: es) m = if m = n then v.typeOccurrence else refAt es m := by
  simp only [refAt, dlookup_cons_sigma]; split_ifs <;> rfl

theorem refAt_eq_none_of_not_mem {es : Entries} {m : String} (h : m ∉ es.keys) : refAt es m = none := by
  simp [refAt, List.dlookup_eq_none.2 h]

theorem refAt_of_lookup {f : Fields} {n : String} {x : Field} {r : Nat} (hx : f.lookup n = some x)
    (hr : x.typeOccurrence = some r) : refAt f.entries n = some r := by
  simp only [refAt, ← AList.lookup.eq_1, hx, Option.some_bind, hr]

theorem mem_keys_of_refAt {es : Entries} {m : String} {r : Nat} (h : refAt es m = some r) : m ∈ es.keys := by
  by_contra hm; rw [refAt_eq_none_of_not_mem hm] at h; cases h

theorem refAt_cons_of_refAt {m k : String} {y : Field} {es : Entries} {r : Nat} (hm : m ∉ es.keys)
    (h : refAt es k = some r) : refAt (⟨m, y⟩ :: es) k = some r := by
  rw [refAt_cons, if_neg fun (e : k = m) => hm (e ▸ mem_keys_of_refAt h)]; exact h

theorem Apart.separate {l es : Entries} (ha : Apart l es) : Separate l es :=
  ⟨fun n m r _ => ha.left n m r, fun n m r _ => ha.cross n m r⟩

/-- After a name the receiver lacks, the receiver holds the argument's field there, and that name is not visited
again. -/
theorem Separate.adopt {f : Fields} {m : String} {y : Field} {es : Entries} (hs : Separate f.entries (⟨m, y⟩ :: es))
    (hm : m ∉ es.keys) : Separate (f.insert m y).entries es := by
  have hin : ∀ {n}, n ∈ es.keys → n ∈ (⟨m, y⟩ :: es : Entries).keys := List.mem_cons_of_mem _
  have hne : ∀ {n}, n ∈ es.keys → n ≠ m := fun {n} hn (e : n = m) => hm (e ▸ hn)
  refine ⟨fun n k r hn h₁ h₂ => ?_, fun n k r hn h₁ h₂ => ?_⟩
  · rw [refAt_insert, if_neg (hne hn)] at h₁
    rw [refAt_insert] at h₂
    split_ifs at h₂ with e
    · exact hs.cross n m r (hin hn) h₁ (by rw [refAt_cons, if_pos rfl]; exact h₂) |>.trans e.symm
    · exact hs.left n k r (hin hn) h₁ h₂
  · rw [refAt_insert, if_neg (hne hn)] at h₁
    exact hs.cross n k r (hin hn) h₁ (refAt_cons_of_refAt hm h₂)

/-- After a name the receiver has, its fields point to the same maps, and that name is not visited again. -/
theorem Separate.next {l l' : Entries} {m : String} {y : Field} {es : Entries} (hs : Separate l (⟨m, y⟩ :: es))
    (hm : m ∉ es.keys) (h : ∀ k, refAt l' k = refAt l k) : Separate l' es :=
  ⟨fun n k r hn h₁ h₂ => hs.left n k r (List.mem_cons_of_mem _ hn) (h n ▸ h₁) (h k ▸ h₂),
    fun n k r hn h₁ h₂ => hs.cross n k r (List.mem_cons_of_mem _ hn) (h n ▸ h₁) (refAt_cons_of_refAt hm h₂)⟩

theorem NonNil.tail {m : String} {y : Field} {es : Entries} (hn : NonNil (⟨m, y⟩ :: es)) (hm : m ∉ es.keys) :
    NonNil es := fun n x hx => by
  have e : n ≠ m := fun e => hm (e ▸ List.dlookup_isSome.1 (by rw [hx]; rfl))
  exact hn n x (by rw [dlookup_cons_sigma, if_neg e]; exact hx)

theorem NonNil.insert {f : Fields} {m : String} {v : Field} (hn : NonNil f.entries) (hv : v.typeOccurrence ≠ none) :
    NonNil (f.insert m v).entries := fun n x hx => by
  change (f.insert m v).lookup n = some x at hx
  rw [lookup_insert_entries] at hx
  split_ifs at hx
  · cases hx; exact hv
  · exact hn n x hx

theorem mergedWith_congr {h h₁ : Heap} {x y : Field} (hx : h₁.keys x.typeOccurrence = h.keys x.typeOccurrence)
    (hy : h₁.keys y.typeOccurrence = h.keys y.typeOccurrence) : x.mergedWith h₁ y = x.mergedWith h y := by
  simp only [Field.mergedWith, hx, hy]

theorem Heap.keys_set_ne (h : Heap) {r : Nat} (m : OccMap) {o : Option Nat} (ho : o ≠ some r) :
    (h.set r m).keys o = h.keys o := by
  cases o with
  | none => rfl
  | some r' => exact congrArg OccMap.keys (h.set_maps_ne m fun e => ho (e ▸ rfl))

/-- **`Fields.Merge` over separate maps.** The loop does not panic; every name ends as `mergeAt` says for the
initial heap; the map of a receiver's field gains the occurrences of the argument's field of the same name; every
other map is unchanged. -/
theorem mergeEntries_separate (es : Entries) :
    ∀ {h : Heap} {f : Fields}, es.NodupKeys → Separate f.entries es → NonNil f.entries → NonNil es →
      ∃ h' f', Fields.mergeEntries es h f = some (h', f') ∧ h'.next = h.next ∧
        (∀ n, f'.lookup n = mergeAt h (f.lookup n) (es.dlookup n)) ∧
        (∀ n x y r, f.lookup n = some x → x.typeOccurrence = some r → es.dlookup n = some y →
          h'.maps r = (h.maps r).insertAll (h.keys y.typeOccurrence)) ∧
        (∀ r, (∀ n, refAt f.entries n = some r → n ∉ es.keys) → h'.maps r = h.maps r) := by
  induction es with
  | nil =>
    intro h f _ _ _ _
    exact ⟨h, f, rfl, rfl, fun n => (by cases f.lookup n <;> rfl), fun _ _ _ _ _ _ hy => (by cases hy),
      fun _ _ => rfl⟩
  | cons e es ih =>
    obtain ⟨m, y⟩ := e
    intro h f hnd ha hf hes
    rw [List.nodupKeys_cons] at hnd
    have hdm : es.dlookup m = none := List.dlookup_eq_none.2 hnd.1
    have hcons : ∀ n, n ≠ m → (⟨m, y⟩ :: es : Entries).dlookup n = es.dlookup n := fun n e => by
      rw [dlookup_cons_sigma, if_neg e]
    have hym : (⟨m, y⟩ :: es : Entries).dlookup m = some y := by rw [dlookup_cons_sigma, if_pos rfl]
    cases hx : f.lookup m with
    | none =>
      obtain ⟨h', f', hrun, hnext, hlook, hmaps, hframe⟩ :=
        ih hnd.2 (ha.adopt hnd.1) (hf.insert (hes m y hym)) (hes.tail hnd.1)
      refine ⟨h', f', by simp only [Fields.mergeEntries, hx]; exact hrun, hnext, fun n => ?_, ?_, ?_⟩
      · rw [hlook, lookup_insert_entries]
        split_ifs with e
        · subst e; rw [hdm, hx, hym]; rfl
        · rw [hcons n e]
      · intro n x' y' r' hx' hr' hy'
        have e : n ≠ m := fun e => by rw [e, hx] at hx'; cases hx'
        refine hmaps n x' y' r' ?_ hr' (by rwa [← hcons n e])
        rw [lookup_insert_entries, if_neg e]; exact hx'
      · intro r hr
        refine hframe r fun n hn => ?_
        rw [refAt_insert] at hn
        split_ifs at hn with e
        · exact e ▸ hnd.1
        · exact fun hmem => hr n hn (List.mem_cons_of_mem _ hmem)
    | some x =>
      obtain ⟨r, hr⟩ := Option.ne_none_iff_exists'.1 (hf m x hx)
      have hrm : refAt f.entries m = some r := refAt_of_lookup hx hr
      have hsame : ∀ k, refAt (f.insert m (x.mergedWith h y)).entries k = refAt f.entries k := fun k => by
        rw [refAt_insert]; split_ifs with e
        · rw [e, hrm, mergedWith_typeOccurrence, hr]
        · rfl
      have hother : ∀ n, n ≠ m → ∀ z, refAt f.entries n = some z → z ≠ r := fun n e z hz hzr =>
        e (ha.left m n r (List.mem_cons_self _ _) hrm (hzr ▸ hz)).symm
      have hforeign : ∀ n, n ≠ m → ∀ z, refAt (⟨m, y⟩ :: es) n = some z → z ≠ r := fun n e z hz hzr =>
        e (ha.cross m n r (List.mem_cons_self _ _) hrm (hzr ▸ hz)).symm
      obtain ⟨h', f', hrun, hnext, hlook, hmaps, hframe⟩ :=
        @ih (h.set r ((h.maps r).insertAll (h.keys y.typeOccurrence))) _ hnd.2
          (ha.next hnd.1 hsame) (hf.insert (by simp [hr])) (hes.tail hnd.1)
      refine ⟨h', f', by simp only [Fields.mergeEntries, hx, merge_of_some hr]; exact hrun, hnext, fun n => ?_, ?_, ?_⟩
      · rw [hlook, lookup_insert_entries]
        split_ifs with e
        · subst e; rw [hdm, hx, hym]; rfl
        · rw [hcons n e]
          cases hfn : f.lookup n with
          | none => rfl
          | some x' =>
            cases hyn : es.dlookup n with
            | none => rfl
            | some y' =>
              have hx' : x'.typeOccurrence ≠ some r := fun hz =>
                hother n e r (refAt_of_lookup hfn hz) rfl
              have hy' : y'.typeOccurrence ≠ some r := fun hz =>
                hforeign n e r (by simp only [refAt, hcons n e, hyn, Option.some_bind, hz]) rfl
              exact congrArg some (mergedWith_congr (Heap.keys_set_ne _ _ hx') (Heap.keys_set_ne _ _ hy'))
      · intro n x' y' r' hx' hr' hy'
        by_cases e : n = m
        · subst e
          obtain rfl := Option.some.inj (hx.symm.trans hx')
          obtain rfl := Option.some.inj (hr.symm.trans hr')
          obtain rfl := Option.some.inj (hym.symm.trans hy')
          rw [hframe r fun k hk => ?_, Heap.set_maps_self]
          rw [hsame] at hk
          exact ha.left n k r (List.mem_cons_self _ _) hrm hk ▸ hnd.1
        · have hz : refAt f.entries n = some r' := refAt_of_lookup hx' hr'
          have hy'' : y'.typeOccurrence ≠ some r := fun hz' =>
            hforeign n e r (by simp only [refAt, hy', Option.some_bind, hz']) rfl
          rw [hmaps n x' y' r' (by rw [lookup_insert_entries, if_neg e]; exact hx') hr' (by rwa [← hcons n e]),
            Heap.set_maps_ne _ _ (hother n e r' hz), Heap.keys_set_ne _ _ hy'']
      · intro r' hr'
        have hne : r' ≠ r := fun e => hr' m (e ▸ hrm) (List.mem_cons_self _ _)
        rw [hframe r' fun k hk hmem => hr' k (hsame k ▸ hk) (List.mem_cons_of_mem _ hmem), Heap.set_maps_ne _ _ hne]

theorem merge_apart {h : Heap} {f g : Fields} (hsep : Apart f.entries g.entries) (hf : NonNil f.entries)
    (hg : NonNil g.entries) :
    ∃ h' f', Fields.merge h f g = some (h', f') ∧ h'.next = h.next ∧
      (∀ n, f'.lookup n = mergeAt h (f.lookup n) (g.lookup n)) ∧
      (∀ n x y r, f.lookup n = some x → x.typeOccurrence = some r → g.lookup n = some y →
        h'.maps r = (h.maps r).insertAll (h.keys y.typeOccurrence)) ∧
      (∀ r, (∀ n, refAt f.entries n = some r → n ∉ g) → h'.maps r = h.maps r) :=
  mergeEntries_separate g.entries g.nodupKeys hsep.separate hf hg

end Bulker.Types
