import Bulker.Types.Table

/-!
# Schema convergence

A patch from `Table.Diff` is applied to the live table (`Table.applyPatch`), and a run of schema evolution applies
the diff towards each desired table in turn (`Table.evolve`).

* `lookup_converge_columns`, `converge_pkFields`: one step adds the desired columns the live table lacks and takes
  the desired key exactly when the diff acts on the key;
* `diff_converges`: a second diff towards the same desired table is the no-op sentinel;
* `evolve_additive`: along every run the columns only accumulate, each keeping its first descriptor, a foreign
  constraint is never touched, and a managed key follows every existing desired table.
-/

namespace Bulker.Types

/-- Modelled from the spec: a patch applied to the live table, the adapters' `PatchTableSchema` (outside the source)
as the convergence properties describe it: the patch's columns are added, and its key replaces the live one when
the patch has a key action. -/
def Table.applyPatch (t p : Table) : Table :=
  let t' := { t with columns := p.columns ∪ t.columns }
  if p.deletePkFields || 0 < p.pkFields.card then
    { t' with pkFields := p.pkFields, primaryKeyName := p.primaryKeyName }
  else t'

/-- One step of schema evolution: apply the diff towards `a`. -/
def Table.converge (t a : Table) : Table := t.applyPatch (t.diff (some a))

/-- The live table after converging towards each desired table in turn. -/
def Table.evolve (t : Table) (as : List Table) : Table := as.foldl Table.converge t

/-! ## One step -/

section Step

variable (t a : Table)

@[simp] theorem converge_schema : (t.converge a).schema = t.schema := by
  unfold Table.converge Table.applyPatch; split_ifs <;> simp

@[simp] theorem converge_name : (t.converge a).name = t.name := by
  unfold Table.converge Table.applyPatch; split_ifs <;> simp

theorem converge_columns : (t.converge a).columns = (t.diff (some a)).columns ∪ t.columns := by
  unfold Table.converge Table.applyPatch; split_ifs <;> rfl

/-- The columns after one step: the live ones, then the desired ones. -/
theorem lookup_converge_columns (n : String) :
    (t.converge a).columns.lookup n = (t.columns.lookup n).or (a.columns.lookup n) := by
  rw [converge_columns]
  by_cases hn : n ∈ t.columns
  · have : n ∉ (t.diff (some a)).columns := by
      rw [← AList.lookup_eq_none, lookup_diff_columns, if_pos hn]
    rw [AList.lookup_union_right this, Option.or_of_isSome (AList.lookup_isSome.2 hn)]
  · rw [AList.lookup_eq_none.2 hn, Option.none_or]
    by_cases hd : n ∈ (t.diff (some a)).columns
    · rw [AList.lookup_union_left hd, lookup_diff_columns, if_neg hn]
    · rw [AList.lookup_union_right hd, AList.lookup_eq_none.2 hn]
      rw [← AList.lookup_eq_none, lookup_diff_columns, if_neg hn] at hd
      exact hd.symm

theorem converge_key :
    ((t.converge a).pkFields, (t.converge a).primaryKeyName) =
      if t.Rekeys a then (a.pkFields, buildConstraintName t.schema t.name) else (t.pkFields, t.primaryKeyName) := by
  have hpk := diff_pk t a
  by_cases hr : t.Rekeys a
  · rw [if_pos hr] at hpk ⊢
    simp only [Prod.mk.injEq] at hpk
    have hact : ((t.diff (some a)).deletePkFields || 0 < (t.diff (some a)).pkFields.card) = true := by
      by_cases h0 : 0 < t.pkFields.card
      · simp [hpk, h0]
      · have : t.pkFields = ∅ := by simpa using h0
        simp only [hpk, Bool.or_eq_true, decide_eq_true_eq, Finset.card_pos, Finset.nonempty_iff_ne_empty]
        exact .inr (this ▸ hr.2.2).symm
    simp only [Table.converge, Table.applyPatch, hact, if_true]
    rw [hpk.1, hpk.2.1]
  · rw [if_neg hr] at hpk ⊢
    simp only [Prod.mk.injEq] at hpk
    simp [Table.converge, Table.applyPatch, hpk]

theorem converge_pkFields :
    (t.converge a).pkFields = if t.Rekeys a then a.pkFields else t.pkFields := by
  have := congrArg Prod.fst (converge_key t a); split_ifs at this ⊢ <;> exact this

theorem converge_primaryKeyName :
    (t.converge a).primaryKeyName =
      if t.Rekeys a then buildConstraintName t.schema t.name else t.primaryKeyName := by
  have := congrArg Prod.snd (converge_key t a); split_ifs at this ⊢ <;> exact this

/-- A managed constraint stays managed. -/
theorem converge_managed {t : Table} (h : t.Managed) (a : Table) : (t.converge a).Managed := by
  unfold Table.Managed
  rw [converge_primaryKeyName, converge_schema, converge_name]
  split_ifs
  · exact .inr rfl
  · exact h

/-- A foreign constraint is never touched. -/
theorem converge_foreign {t : Table} (h : ¬t.Managed) (a : Table) :
    (t.converge a).pkFields = t.pkFields ∧ (t.converge a).primaryKeyName = t.primaryKeyName := by
  have hr : ¬t.Rekeys a := fun hr => h hr.2.1
  rw [converge_pkFields, converge_primaryKeyName, if_neg hr, if_neg hr]
  exact ⟨rfl, rfl⟩

/-- Under a managed constraint, one step towards an existing table takes its key. -/
theorem converge_pkFields_of_managed {t : Table} (h : t.Managed) {a : Table} (he : Table.exists (some a) = true) :
    (t.converge a).pkFields = a.pkFields := by
  rw [converge_pkFields]
  split_ifs with hr
  · rfl
  · by_contra hne
    exact hr ⟨he, h, hne⟩

end Step

/-- **Convergence in one step**: after the diff towards `a` is applied, the diff towards `a` is the no-op sentinel,
whatever the constraint name of the live table. -/
theorem diff_converges (t a : Table) :
    Table.exists (some ((t.applyPatch (t.diff (some a))).diff (some a))) = false := by
  change Table.exists (some ((t.converge a).diff (some a))) = false
  have hcols : ((t.converge a).diff (some a)).columns.entries = [] := by
    refine columns_eq_empty fun n => ?_
    rw [lookup_diff_columns]
    split_ifs with hn
    · rfl
    · rw [← AList.lookup_eq_none, lookup_converge_columns] at hn
      cases ha : a.columns.lookup n
      · rfl
      · simp [ha] at hn
  have hkey : ¬(t.converge a).Rekeys a := by
    rintro ⟨he, hm, hne⟩
    rw [converge_pkFields] at hne
    split_ifs at hne with hr
    · exact hne rfl
    · by_cases hmt : t.Managed
      · exact hr ⟨he, hmt, hne⟩
      · exact hmt (by simpa [Table.Managed, converge_primaryKeyName, hr] using hm)
  have hpk := diff_pk (t.converge a) a
  rw [if_neg hkey] at hpk
  simp only [Prod.mk.injEq] at hpk
  simp [Table.exists, hcols, hpk.1, hpk.2.2]

/-! ## Runs -/

@[simp] theorem evolve_nil (t : Table) : t.evolve [] = t := rfl

@[simp] theorem evolve_cons (t a : Table) (as : List Table) : t.evolve (a :: as) = (t.converge a).evolve as := rfl

theorem evolve_append_single (t a : Table) (as : List Table) : t.evolve (as ++ [a]) = (t.evolve as).converge a := by
  simp [Table.evolve]

/-- The columns after a run: those of the initial table, then those of the first desired table that has the name. -/
theorem lookup_evolve_columns (as : List Table) :
    ∀ (t : Table) (n : String),
      (t.evolve as).columns.lookup n = (t.columns.lookup n).or (as.findSome? (·.columns.lookup n)) := by
  induction as with
  | nil => intro t n; simp
  | cons a as ih =>
    intro t n
    rw [evolve_cons, ih, lookup_converge_columns, List.findSome?_cons, Option.or_assoc]
    cases a.columns.lookup n <;> rfl

theorem evolve_foreign (as : List Table) :
    ∀ {t : Table}, ¬t.Managed → (t.evolve as).pkFields = t.pkFields ∧
      (t.evolve as).primaryKeyName = t.primaryKeyName := by
  induction as with
  | nil => intro t _; exact ⟨rfl, rfl⟩
  | cons a as ih =>
    intro t h
    have ⟨h1, h2⟩ := converge_foreign h a
    have hm : ¬(t.converge a).Managed := by
      simpa [Table.Managed, h2] using h
    rw [evolve_cons, (ih hm).1, (ih hm).2, h1, h2]
    exact ⟨rfl, rfl⟩

theorem evolve_managed (as : List Table) : ∀ {t : Table}, t.Managed → (t.evolve as).Managed := by
  induction as with
  | nil => intro t h; exact h
  | cons a as ih => intro t h; exact ih (converge_managed h a)

/-- **Schema evolution is additive and never touches foreign constraints.** Along every run: a step keeps every
column with its descriptor; the columns are those of the initial table and of the desired tables, each with the
descriptor it had when first added; a foreign constraint keeps the initial key and name; a managed key equals the
key of every existing desired table just converged to. -/
theorem evolve_additive (t₀ : Table) :
    (∀ as a n c, (t₀.evolve as).columns.lookup n = some c → (t₀.evolve (as ++ [a])).columns.lookup n = some c) ∧
    (∀ as n, (t₀.evolve as).columns.lookup n = (t₀.columns.lookup n).or (as.findSome? (·.columns.lookup n))) ∧
    (¬t₀.Managed → ∀ as, (t₀.evolve as).pkFields = t₀.pkFields ∧
      (t₀.evolve as).primaryKeyName = t₀.primaryKeyName) ∧
    (t₀.Managed → ∀ as a, Table.exists (some a) = true → (t₀.evolve (as ++ [a])).pkFields = a.pkFields) := by
  refine ⟨fun as a n c h => ?_, fun as n => lookup_evolve_columns as t₀ n, fun h as => evolve_foreign as h,
    fun h as a he => ?_⟩
  · rw [evolve_append_single, lookup_converge_columns, h]
    rfl
  · rw [evolve_append_single, converge_pkFields_of_managed (evolve_managed as h) he]

end Bulker.Types
