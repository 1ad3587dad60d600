import Mathlib.Data.List.AList
import Mathlib.Data.Finset.Card
import Mathlib.Data.List.Sort
import Mathlib.Data.String.Basic
import Bulker.Types.DataType

/-!
# Tables and their diff

`types/table.go`: the destination-side schema `Table`, `Exists`, `Clone`, `Diff` and `BuildConstraintName`.

A Go map is an association list whose keys are unique (`AList`); `range` visits its entries in list order. `Diff`
reads its inputs and builds a fresh table, so tables are values here.

* `lookup_diffColumns`: the column loop of `Diff` keeps exactly the desired columns the live table lacks;
* `diff_pk`: the primary-key part of a diff, in one case split (managed constraint, existing desired table,
  different key sets);
* `lookup_clone_columns`, `clone_partition`: `Clone` copies the columns and gives the zero partition;
* `sortStrings_keys`: `SortedColumnNames` (and `Fields.Header`) list each name of the map once, in order, whatever
  order `range` visits them in.
-/

namespace Bulker.Types

/-- `Columns`: a `map[string]SQLColumn`. -/
abbrev Columns := AList (fun _ : String => SQLColumn)

/-- Modelled from the spec: `DatePartition`, declared outside the source, is a table's partition descriptor, a
date-bucket identifier (§3); its zero value names no bucket. -/
structure DatePartition where
  bucket : String
  deriving DecidableEq, Repr, Inhabited

/-- `Table`. Its `PKFields` is a `utils.Set`, declared outside the source and modelled from the spec as a finite set
of field names (§3), so `Equals` is equality and `Clone` is the identity. -/
structure Table where
  schema : String
  name : String
  columns : Columns
  pkFields : Finset String
  primaryKeyName : String
  partition : DatePartition
  deletePkFields : Bool

/-- `Table.Exists` on a `*Table`: `nil` does not exist; a table exists when it has a column, a primary-key field or
the delete flag. -/
def Table.exists : Option Table → Bool
  | none => false
  | some t => 0 < t.columns.entries.length || 0 < t.pkFields.card || t.deletePkFields

def buildConstraintName (schemaName tableName : String) : String :=
  schemaName ++ "_" ++ tableName ++ "_pk"

theorem buildConstraintName_ne_empty (schemaName tableName : String) : buildConstraintName schemaName tableName ≠ "" :=
  fun h => by
    have := congrArg String.length h
    simp only [buildConstraintName, String.length_append, show "_pk".length = 3 from rfl,
      show "".length = 0 from rfl] at this
    omega

/-- The primary-key constraint of `t` is maintained by the system: it has no name or the generated one. -/
def Table.Managed (t : Table) : Prop :=
  t.primaryKeyName = "" ∨ t.primaryKeyName = buildConstraintName t.schema t.name

instance : DecidablePred Table.Managed := fun _ => inferInstanceAs (Decidable (_ ∨ _))

/-- The diff of `t` towards `a` acts on the primary key: `a` exists, the constraint of `t` is managed and the key
sets differ. -/
def Table.Rekeys (t a : Table) : Prop := Table.exists (some a) = true ∧ t.Managed ∧ t.pkFields ≠ a.pkFields

instance (t a : Table) : Decidable (t.Rekeys a) := inferInstanceAs (Decidable (_ ∧ _ ∧ _))

/-! ## The column loop -/

/-- A `range` over a column map that copies the entries whose names `keep` accepts. -/
def copyColumnsIf (keep : String → Bool) (acc : Columns) (columns : Columns) : Columns :=
  columns.foldl (fun diff name column => if keep name then diff.insert name column else diff) acc

theorem lookup_foldl_insert_if (keep : String → Bool) (n : String) :
    ∀ (l : List (Σ _ : String, SQLColumn)) (acc : Columns), l.NodupKeys →
      (l.foldl (fun r e => if keep e.1 then r.insert e.1 e.2 else r) acc).lookup n =
        ((if keep n then l.dlookup n else none).or (acc.lookup n))
  | [], acc, _ => by simp
  | ⟨k, c⟩ :: l, acc, hl => by
    rw [List.nodupKeys_cons] at hl
    rw [List.foldl_cons, lookup_foldl_insert_if keep n l _ hl.2]
    by_cases hk : k = n
    · subst hk
      rw [List.dlookup_eq_none.2 hl.1, List.dlookup_cons_eq]
      cases keep k <;> simp [AList.lookup_insert]
    · rw [List.dlookup_cons_ne _ _ (Ne.symm hk)]
      cases keep k <;> simp [AList.lookup_insert_ne (Ne.symm hk)]

theorem lookup_copyColumnsIf (keep : String → Bool) (acc columns : Columns) (n : String) :
    (copyColumnsIf keep acc columns).lookup n = ((if keep n then columns.lookup n else none).or (acc.lookup n)) :=
  lookup_foldl_insert_if keep n columns.entries acc columns.nodupKeys

theorem columns_eq_empty {c : Columns} (h : ∀ n, c.lookup n = none) : c.entries = [] := by
  rcases hc : c.entries with _ | ⟨⟨n, v⟩, l⟩
  · rfl
  · have := h n
    simp only [AList.lookup, hc, List.dlookup_cons_eq] at this
    cases this

/-! ## `Diff` -/

/-- The column loop of `Table.Diff`: the columns of `another` whose names `t` lacks, put into an empty map. -/
def Table.diffColumns (t : Table) (another : Columns) : Columns :=
  copyColumnsIf (fun name => name ∉ t.columns) ∅ another

/-- `Table.Diff`: the patch that converges `t` towards `another`. -/
def Table.diff (t : Table) (another : Option Table) : Table :=
  let diff : Table :=
    { schema := t.schema, name := t.name, columns := ∅, pkFields := ∅, primaryKeyName := "",
      partition := default, deletePkFields := false }
  match another with
  | none => diff
  | some another =>
    if !Table.exists (some another) then diff
    else
      let diff := { diff with columns := t.diffColumns another.columns }
      let jitsuPrimaryKeyName := buildConstraintName t.schema t.name
      if t.primaryKeyName ≠ "" ∧ t.primaryKeyName ≠ jitsuPrimaryKeyName then diff
      else if 0 < t.pkFields.card then
        if t.pkFields ≠ another.pkFields then
          { diff with deletePkFields := true, pkFields := another.pkFields, primaryKeyName := jitsuPrimaryKeyName }
        else diff
      else if 0 < another.pkFields.card then
        { diff with pkFields := another.pkFields, primaryKeyName := jitsuPrimaryKeyName }
      else diff

variable (t a : Table)

theorem lookup_diffColumns (c : Columns) (n : String) :
    (t.diffColumns c).lookup n = if n ∈ t.columns then none else c.lookup n := by
  by_cases h : n ∈ t.columns <;> simp [Table.diffColumns, lookup_copyColumnsIf, h]

theorem exists_some_eq_false {a : Table} (h : Table.exists (some a) = false) :
    a.columns.entries = [] ∧ a.pkFields = ∅ ∧ a.deletePkFields = false := by
  simpa [Table.exists, Finset.card_pos, Finset.nonempty_iff_ne_empty, and_assoc] using h

@[simp] theorem diff_schema (o : Option Table) : (t.diff o).schema = t.schema := by
  simp only [Table.diff]; split <;> (try split_ifs) <;> rfl

@[simp] theorem diff_name (o : Option Table) : (t.diff o).name = t.name := by
  simp only [Table.diff]; split <;> (try split_ifs) <;> rfl

theorem diff_columns_of_exists (h : Table.exists (some a) = true) :
    (t.diff (some a)).columns = t.diffColumns a.columns := by
  simp only [Table.diff, h, Bool.not_true, Bool.false_eq_true, if_false]; split_ifs <;> rfl

/-- The columns of a diff: the desired ones the live table lacks. -/
theorem lookup_diff_columns (n : String) :
    (t.diff (some a)).columns.lookup n = if n ∈ t.columns then none else a.columns.lookup n := by
  cases h : Table.exists (some a)
  · have hc : a.columns.lookup n = none := by simp [AList.lookup, (exists_some_eq_false h).1]
    simp only [Table.diff, h, Bool.not_false, if_true, AList.lookup_empty, hc, ite_self]
  · rw [diff_columns_of_exists t a h, lookup_diffColumns]

/-- **The primary-key part of a diff.** It is the desired key set under the generated name, with the delete flag
when the live key is not empty, exactly when the desired table exists, the live constraint is managed and the two
key sets differ; otherwise the diff has no key action. -/
theorem diff_pk :
    ((t.diff (some a)).pkFields, (t.diff (some a)).primaryKeyName, (t.diff (some a)).deletePkFields) =
      if t.Rekeys a then (a.pkFields, buildConstraintName t.schema t.name, decide (0 < t.pkFields.card))
      else (∅, "", false) := by
  cases h : Table.exists (some a)
  · simp [Table.diff, Table.Rekeys, h]
  · have hm : t.Managed ↔ ¬(t.primaryKeyName ≠ "" ∧ t.primaryKeyName ≠ buildConstraintName t.schema t.name) := by
      unfold Table.Managed; tauto
    simp only [Table.diff, Table.Rekeys, h, Bool.not_true, Bool.false_eq_true, if_false, true_and, hm]
    split_ifs <;> simp_all [Finset.card_pos, Finset.nonempty_iff_ne_empty]

/-- **`Diff` postcondition**: the diff keeps the live schema and name, adds exactly the desired columns the live
table lacks, and acts on the primary key exactly when the desired table exists, the live constraint is managed and
the key sets differ. -/
theorem diff_postcondition :
    (t.diff (some a)).schema = t.schema ∧ (t.diff (some a)).name = t.name ∧
    (∀ n, (t.diff (some a)).columns.lookup n = if n ∈ t.columns then none else a.columns.lookup n) ∧
    (((t.diff (some a)).pkFields = ∅ ∧ (t.diff (some a)).deletePkFields = false ∧
        (t.diff (some a)).primaryKeyName = "") ↔
      Table.exists (some a) = false ∨ ¬t.Managed ∨ t.pkFields = a.pkFields) ∧
    (Table.exists (some a) = true → t.Managed → t.pkFields ≠ a.pkFields →
      (t.diff (some a)).pkFields = a.pkFields ∧
      (t.diff (some a)).primaryKeyName = buildConstraintName t.schema t.name ∧
      ((t.diff (some a)).deletePkFields = true ↔ 0 < t.pkFields.card)) := by
  have hpk := diff_pk t a
  refine ⟨diff_schema t _, diff_name t _, lookup_diff_columns t a, ?_, fun he hm hne => ?_⟩
  · split_ifs at hpk with hc
    · simp only [Prod.mk.injEq] at hpk
      simp only [hpk, buildConstraintName_ne_empty, and_false, false_iff]
      rintro (h | h | h)
      · exact absurd hc.1 (by simp [h])
      · exact h hc.2.1
      · exact hc.2.2 h
    · simp only [Prod.mk.injEq] at hpk
      simp only [hpk, and_self, true_iff]
      by_contra h
      exact hc (by cases hx : Table.exists (some a) <;> simp_all [Table.Rekeys])
  · rw [if_pos ⟨he, hm, hne⟩] at hpk
    simp only [Prod.mk.injEq] at hpk
    simp [hpk]

/-! ## `Clone` -/

/-- `Table.Clone`. -/
def Table.clone (t : Table) : Table :=
  { schema := t.schema, name := t.name, columns := copyColumnsIf (fun _ => true) ∅ t.columns,
    pkFields := t.pkFields, primaryKeyName := t.primaryKeyName, deletePkFields := t.deletePkFields,
    partition := default }

theorem lookup_clone_columns (n : String) : t.clone.columns.lookup n = t.columns.lookup n := by
  simp [Table.clone, lookup_copyColumnsIf]

/-- The clone does not copy the partition: it has the zero value. -/
theorem clone_partition : t.clone.partition = default := rfl

/-- A table with a partition loses it in its clone. -/
theorem clone_drops_partition :
    ({ schema := "public", name := "events", columns := ∅, pkFields := ∅, primaryKeyName := "",
        partition := ⟨"2024-01-01"⟩, deletePkFields := false } : Table).clone.partition ≠ ⟨"2024-01-01"⟩ := by
  decide

/-! ## Sorted names -/

/-- A `range` that collects a map's names, then `sort.Strings`, as `SortedColumnNames` and `Fields.Header` do.
`sort.Strings` compares bytes, and UTF-8 orders strings as their code points, which is the order of `String`. -/
def sortStrings (names : List String) : List String := names.mergeSort fun a b => decide (a ≤ b)

/-- `Table.SortedColumnNames`. -/
def Table.sortedColumnNames (t : Table) : List String := sortStrings t.columns.keys

theorem sorted_sortStrings (names : List String) : (sortStrings names).Sorted (· ≤ ·) := by
  have h : (sortStrings names).Pairwise fun a b => decide (a ≤ b) :=
    @List.sorted_mergeSort String (fun a b => decide (a ≤ b))
      (fun _ _ _ hab hbc => decide_eq_true (le_trans (of_decide_eq_true hab) (of_decide_eq_true hbc)))
      (fun a b => (le_total a b).elim (fun h => by simp only [decide_eq_true h, Bool.true_or])
        (fun h => by simp only [decide_eq_true h, Bool.or_true])) names
  exact h.imp of_decide_eq_true

theorem perm_sortStrings (names : List String) : (sortStrings names).Perm names := List.mergeSort_perm names _

/-- **The names of a map, sorted**: each name once, in ascending order, and the same list whatever order `range`
visits the map in. -/
theorem sortStrings_keys {β : String → Type} (m : AList β) :
    (sortStrings m.keys).Sorted (· < ·) ∧ (∀ n, n ∈ sortStrings m.keys ↔ n ∈ m) ∧
      ∀ m' : AList β, m'.entries.Perm m.entries → sortStrings m'.keys = sortStrings m.keys := by
  refine ⟨?_, fun n => List.mem_mergeSort.trans AList.mem_keys, fun m' h => ?_⟩
  · have hnodup := (perm_sortStrings m.keys).nodup_iff.2 m.keys_nodup
    exact ((sorted_sortStrings _).and hnodup).imp fun ⟨h₁, h₂⟩ => lt_of_le_of_ne h₁ h₂
  · exact List.eq_of_perm_of_sorted
      (((perm_sortStrings _).trans (h.map Sigma.fst)).trans (perm_sortStrings _).symm)
      (sorted_sortStrings _) (sorted_sortStrings _)

end Bulker.Types
