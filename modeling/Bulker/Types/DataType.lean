import Mathlib.Data.List.Perm.Basic
import Mathlib.Data.List.Dedup

/-!
# Data types and their common-ancestor fold

The kinds of values a column can hold and the SQL column descriptor are declared outside the source; they are
modelled from the spec (§3). `typing.GetCommonAncestorType` is also outside the source: it is a parameter `join`
everywhere, with the laws the spec states for it (§4.1) as hypotheses where a result needs them.

`Field.GetType` folds `join` over the occurrence set from its first element (`joinAll`). Under commutativity and
associativity the fold does not depend on the order of the enumeration (`joinAll_perm`); with idempotence it depends
only on the members (`joinAll_congr`), and the fold of a concatenation is the join of the folds (`joinAll_append`).
-/

namespace Bulker.Types

/-- Modelled from the spec: `DataType`, declared outside the source, enumerates the primitive kinds of values
(§3: unknown, boolean, integer, floating-point, timestamp, string). -/
inductive DataType where
  | unknown
  | bool
  | int64
  | float64
  | timestamp
  | string
  deriving DecidableEq, Repr

/-- Modelled from the spec: `SQLColumn`, declared outside the source, is a column descriptor with a type name, a
generic column-type tag and an override flag (§3). -/
structure SQLColumn where
  type : String
  columnType : String
  override : Bool
  deriving DecidableEq, Repr

/-- A join with the laws the spec states for `GetCommonAncestorType` (§4.1): equal kinds stay, distinct kinds widen
to `string`. The concrete runs below use it. -/
def flatJoin (a b : DataType) : DataType := if a = b then a else .string

theorem flatJoin_comm (a b : DataType) : flatJoin a b = flatJoin b a := by
  cases a <;> cases b <;> rfl

theorem flatJoin_assoc (a b c : DataType) : flatJoin (flatJoin a b) c = flatJoin a (flatJoin b c) := by
  cases a <;> cases b <;> cases c <;> rfl

theorem flatJoin_idem (a : DataType) : flatJoin a a = a := if_pos rfl

/-! ## The fold of `GetType` -/

section Join

variable (join : DataType → DataType → DataType)

/-- The loop of `Field.GetType`: `types[0]` joined with `types[1]`, `types[2]`, … in turn; `none` for no types. -/
def joinAll : List DataType → Option DataType
  | [] => none
  | t :: ts => some (ts.foldl join t)

/-- The same fold from an optional accumulator, `none` standing for "nothing yet". -/
def joinOpt : Option DataType → DataType → Option DataType
  | none, t => some t
  | some a, t => some (join a t)

theorem foldl_joinOpt_some (a : DataType) (ts : List DataType) :
    ts.foldl (joinOpt join) (some a) = some (ts.foldl join a) := by
  induction ts generalizing a with
  | nil => rfl
  | cons t ts ih => exact ih (join a t)

theorem joinAll_eq_foldl (ts : List DataType) : joinAll join ts = ts.foldl (joinOpt join) none := by
  cases ts with
  | nil => rfl
  | cons t ts => exact (foldl_joinOpt_some join t ts).symm

@[simp] theorem joinAll_eq_none {ts : List DataType} : joinAll join ts = none ↔ ts = [] := by
  cases ts <;> simp [joinAll]

variable {join}

theorem joinOpt_rcomm (hc : ∀ a b, join a b = join b a) (ha : ∀ a b c, join (join a b) c = join a (join b c))
    (o : Option DataType) (a b : DataType) :
    joinOpt join (joinOpt join o a) b = joinOpt join (joinOpt join o b) a := by
  cases o with
  | none => simp only [joinOpt, hc a b]
  | some x => simp only [joinOpt, ha, hc a b]

/-- **Order independence**: enumerations of the same occurrences fold to the same type. -/
theorem joinAll_perm (hc : ∀ a b, join a b = join b a) (ha : ∀ a b c, join (join a b) c = join a (join b c))
    {l₁ l₂ : List DataType} (p : l₁.Perm l₂) : joinAll join l₁ = joinAll join l₂ := by
  have : RightCommutative (joinOpt join) := ⟨joinOpt_rcomm hc ha⟩
  rw [joinAll_eq_foldl, joinAll_eq_foldl, p.foldl_eq]

/-- A member already folded in is absorbed again. -/
theorem foldl_joinOpt_cons_of_mem (hc : ∀ a b, join a b = join b a)
    (ha : ∀ a b c, join (join a b) c = join a (join b c)) (hi : ∀ a, join a a = a) {x : DataType}
    {l : List DataType} (hx : x ∈ l) (o : Option DataType) :
    (x :: l).foldl (joinOpt join) o = l.foldl (joinOpt join) o := by
  have : RightCommutative (joinOpt join) := ⟨joinOpt_rcomm hc ha⟩
  have hidem : joinOpt join (joinOpt join o x) x = joinOpt join o x := by
    cases o <;> simp only [joinOpt, ha, hi]
  have hl := List.perm_cons_erase hx
  rw [List.foldl_cons, hl.foldl_eq, hl.foldl_eq, List.foldl_cons, List.foldl_cons, hidem]

theorem joinAll_dedup (hc : ∀ a b, join a b = join b a) (ha : ∀ a b c, join (join a b) c = join a (join b c))
    (hi : ∀ a, join a a = a) (l : List DataType) : joinAll join l.dedup = joinAll join l := by
  rw [joinAll_eq_foldl, joinAll_eq_foldl]
  suffices ∀ o, l.dedup.foldl (joinOpt join) o = l.foldl (joinOpt join) o from this none
  induction l with
  | nil => simp
  | cons x l ih =>
    intro o
    by_cases hx : x ∈ l
    · rw [List.dedup_cons_of_mem hx, ih, foldl_joinOpt_cons_of_mem hc ha hi hx]
    · rw [List.dedup_cons_of_not_mem hx, List.foldl_cons, List.foldl_cons, ih]

/-- **Set semantics**: with idempotence the fold depends only on the members. -/
theorem joinAll_congr (hc : ∀ a b, join a b = join b a) (ha : ∀ a b c, join (join a b) c = join a (join b c))
    (hi : ∀ a, join a a = a) {l₁ l₂ : List DataType} (h : ∀ x, x ∈ l₁ ↔ x ∈ l₂) :
    joinAll join l₁ = joinAll join l₂ := by
  rw [← joinAll_dedup hc ha hi l₁, ← joinAll_dedup hc ha hi l₂]
  exact joinAll_perm hc ha ((List.perm_ext_iff_of_nodup (List.nodup_dedup _) (List.nodup_dedup _)).2
    (fun x => by simp only [List.mem_dedup, h]))

theorem foldl_join_assoc (ha : ∀ a b c, join (join a b) c = join a (join b c)) (a b : DataType)
    (ts : List DataType) : ts.foldl join (join a b) = join a (ts.foldl join b) := by
  induction ts generalizing b with
  | nil => rfl
  | cons t ts ih => simp only [List.foldl_cons, ha, ih]

/-- The fold of a concatenation is the join of the folds. -/
theorem joinAll_append (ha : ∀ a b c, join (join a b) c = join a (join b c)) {l₁ l₂ : List DataType}
    {a b : DataType} (h₁ : joinAll join l₁ = some a) (h₂ : joinAll join l₂ = some b) :
    joinAll join (l₁ ++ l₂) = some (join a b) := by
  cases l₁ with
  | nil => cases h₁
  | cons x xs =>
    cases l₂ with
    | nil => cases h₂
    | cons y ys =>
      simp only [joinAll, Option.some.injEq] at h₁ h₂
      simp only [joinAll, List.cons_append, List.foldl_append, List.foldl_cons, h₁, ← h₂, foldl_join_assoc ha]

end Join

end Bulker.Types
