import Bulker.Types.Fields

/-!
# `Fields.Clone`

`Fields.Clone` rebuilds every field from its cached type and a fresh copy of its occurrence map.

* `cloneEntries_spec`, `clone_spec`: the clone has the same names; each field keeps its cached type and its
  occurrences, in a new map allocated past the old ones, one per name; the old maps are untouched;
* `getType_clone`: so `GetType` is unchanged;
* `clone_drops_hint`: the SQL type suggestion is not copied.
-/

namespace Bulker.Types

theorem keys_copy (h : Heap) (o : Option Nat) : (OccMap.empty.insertAll (h.keys o)).keys = h.keys o :=
  OccMap.keys_insertAll_of_nodup (h.get o).nodup fun _ _ => List.not_mem_nil _

/-- The loop of `Fields.Clone`: fresh maps, one per name, copying the occurrences. -/
theorem cloneEntries_spec (es : Entries) :
    ∀ {h : Heap} {acc : Fields} {h' : Heap} {c : Fields}, es.NodupKeys →
      (∀ n x r, es.dlookup n = some x → x.typeOccurrence = some r → r < h.next) →
      Fields.cloneEntries es h acc = (h', c) →
      h'.next = h.next + es.length ∧ (∀ r, r < h.next → h'.maps r = h.maps r) ∧
      (∀ n, n ∉ es.keys → c.lookup n = acc.lookup n) ∧
      (∀ n x, es.dlookup n = some x → ∃ r, h.next ≤ r ∧ r < h'.next ∧
        c.lookup n = some ⟨x.dataType, none, some r⟩ ∧ (h'.maps r).keys = h.keys x.typeOccurrence) ∧
      (∀ n m r, n ∈ es.keys → m ∈ es.keys → refAt c.entries n = some r → refAt c.entries m = some r → n = m) := by
  induction es with
  | nil =>
    intro h acc h' c _ _ hc
    cases hc
    exact ⟨rfl, fun _ _ => rfl, fun _ _ => rfl, fun _ _ hx => (by cases hx), fun _ _ _ hn => (by cases hn)⟩
  | cons e es ih =>
    obtain ⟨m, x⟩ := e
    intro h acc h' c hnd hlt hc
    rw [List.nodupKeys_cons] at hnd
    have hcons : ∀ n, n ≠ m → (⟨m, x⟩ :: es : Entries).dlookup n = es.dlookup n := fun n e => by
      rw [dlookup_cons_sigma, if_neg e]
    have hmem : ∀ n, n ∈ es.keys → n ≠ m := fun n hn e => hnd.1 (e ▸ hn)
    obtain ⟨hnext, hframe, hout, hin, hdist⟩ := ih hnd.2 (fun n x' r hx' hr => by
      have := hlt n x' r (by rw [hcons n (hmem n (List.dlookup_isSome.1 (by rw [hx']; rfl)))]; exact hx') hr
      simp only [Heap.alloc_next]; omega) hc
    simp only [Heap.alloc_next, Heap.alloc_fst] at hnext hframe hin
    have hcm : c.lookup m = some ⟨x.dataType, none, some h.next⟩ := by
      rw [hout m hnd.1, lookup_insert_entries, if_pos rfl]
    have hsmall : ∀ n r, n ∈ es.keys → refAt c.entries n = some r → h.next + 1 ≤ r := fun n r hn hr => by
      obtain ⟨x', hx'⟩ := Option.isSome_iff_exists.1 (List.dlookup_isSome.2 hn)
      obtain ⟨r', hr', -, hl, -⟩ := hin n x' hx'
      obtain rfl := Option.some.inj ((refAt_of_lookup hl rfl).symm.trans hr)
      omega
    refine ⟨by simp [hnext]; omega, fun r hr => ?_, fun n hn => ?_, fun n x' hx' => ?_, fun n n' r hn hn' h₁ h₂ => ?_⟩
    · rw [hframe r (by omega), Function.update_noteq (Nat.ne_of_lt hr)]
    · have e : n ≠ m := fun e => hn (e ▸ List.mem_cons_self _ _)
      rw [hout n fun h' => hn (List.mem_cons_of_mem _ h'), lookup_insert_entries, if_neg e]
    · by_cases e : n = m
      · subst e
        rw [dlookup_cons_sigma, if_pos rfl, Option.some.injEq] at hx'
        subst hx'
        refine ⟨h.next, le_rfl, by omega, hcm, ?_⟩
        rw [hframe h.next (by omega), Function.update_same, keys_copy]
      · obtain ⟨r, hr₁, hr₂, hl, hk⟩ := hin n x' (by rwa [← hcons n e])
        refine ⟨r, by omega, hr₂, hl, ?_⟩
        rw [hk]
        cases hxo : x'.typeOccurrence with
        | none => rfl
        | some r' => exact congrArg OccMap.keys (Function.update_noteq (Nat.ne_of_lt (hlt n x' r' hx' hxo)) _ _)
    · simp only [List.keys_cons, List.mem_cons] at hn hn'
      have hrm : refAt c.entries m = some h.next := refAt_of_lookup hcm rfl
      rcases hn with rfl | hn <;> rcases hn' with rfl | hn'
      · rfl
      · have := hsmall n' r hn' h₂; rw [hrm, Option.some.injEq] at h₁; omega
      · have := hsmall n r hn h₁; rw [hrm, Option.some.injEq] at h₂; omega
      · exact hdist n n' r hn hn' h₁ h₂

/-- **`Fields.Clone`**: the same names, each field with its cached type and a fresh copy of its occurrences and no
suggestion, the fresh maps pairwise distinct and past the allocated ones, which are untouched. -/
theorem clone_spec {h : Heap} {f : Fields} (hf : ∀ n x r, f.lookup n = some x → x.typeOccurrence = some r → r < h.next)
    {h' : Heap} {c : Fields} (hc : f.clone h = (h', c)) :
    h.next ≤ h'.next ∧ (∀ r, r < h.next → h'.maps r = h.maps r) ∧ (∀ n, n ∈ c ↔ n ∈ f) ∧
      (∀ n x, f.lookup n = some x → ∃ r, h.next ≤ r ∧ r < h'.next ∧
        c.lookup n = some ⟨x.dataType, none, some r⟩ ∧ (h'.maps r).keys = h.keys x.typeOccurrence) ∧
      (∀ n m r, refAt c.entries n = some r → refAt c.entries m = some r → n = m) := by
  obtain ⟨hnext, hframe, hout, hin, hdist⟩ := cloneEntries_spec f.entries f.nodupKeys hf hc
  have hnames : ∀ n, n ∈ c ↔ n ∈ f := fun n => by
    by_cases hn : n ∈ f
    · obtain ⟨x, hx⟩ := Option.isSome_iff_exists.1 (AList.lookup_isSome.2 hn)
      obtain ⟨r, -, -, hl, -⟩ := hin n x hx
      exact iff_of_true (AList.lookup_isSome.1 (by rw [hl]; rfl)) hn
    · exact iff_of_false (fun h' => by
        rw [← AList.lookup_isSome, hout n hn, AList.lookup_empty] at h'; cases h') hn
  exact ⟨by omega, hframe, hnames, hin, fun n m r h₁ h₂ =>
    hdist n m r ((hnames n).1 (mem_keys_of_refAt h₁)) ((hnames m).1 (mem_keys_of_refAt h₂)) h₁ h₂⟩

/-- The clone's fields answer `GetType` as the originals. -/
theorem getType_clone (join : DataType → DataType → DataType) {h h' : Heap} {x : Field} {r : Nat}
    (hk : (h'.maps r).keys = h.keys x.typeOccurrence) :
    (⟨x.dataType, none, some r⟩ : Field).getType join h' = x.getType join h := by
  unfold Field.getType
  cases x.dataType <;> simp [hk]

/-- The clone's fields satisfy the representation invariant when the originals do. -/
theorem WF_clone {join : DataType → DataType → DataType} {h h' : Heap} {x : Field} {r : Nat} (hx : x.WF join h)
    (hk : (h'.maps r).keys = h.keys x.typeOccurrence) (hr : r < h'.next) :
    (⟨x.dataType, none, some r⟩ : Field).WF join h' :=
  ⟨⟨r, rfl, hr⟩, by rw [Heap.keys_some, hk]; exact hx.nonempty,
    fun d hd => by rw [Heap.keys_some, hk]; exact hx.cached d hd⟩

/-- `{a: NewFieldWithSQLType(INT64, {text, text})}` in a fresh heap. -/
def hintedFields : Heap × Fields :=
  let p := newFieldWithSQLType Heap.empty .int64 (some ⟨⟨"text", "text", false⟩, ∅⟩)
  (p.1, AList.singleton "a" p.2)

/-- A field built with a SQL type suggestion loses it in the clone. -/
theorem clone_drops_hint :
    (hintedFields.2.lookup "a").map (·.getSuggestedSQLType "postgres") = some (⟨"text", "text", true⟩, true) ∧
    ((hintedFields.2.clone hintedFields.1).2.lookup "a").map (·.getSuggestedSQLType "postgres") =
      some (⟨"", "", false⟩, false) := by
  decide

end Bulker.Types
