import Bulker.Types.Batch
import Bulker.Types.Clone

/-!
# Programs over `Fields` and the field representation invariant

A program keeps `Fields` maps in variables and runs `NewFieldWithSQLType` (per-object schemas), `Fields.Merge`,
`Fields.Add`, `Fields.OverrideTypes` and `Fields.Clone` on them, and may reassign a variable to an empty map.
`Merge`, `Add` and `OverrideTypes` hand the receiver the argument's fields together with their occurrence maps, so
afterwards the two variables share maps.

* `run_safe`: along every run every field points to an allocated, non-empty map, so `Field.Merge` never panics and
  `GetType` never reaches its fallback;
* `run_sound`: along every run that drops the argument of each `Merge`, `Add` and `OverrideTypes` right after, every
  map is owned by one entry and every cached type is the join of the occurrences;
* `representation_invariant`: both, for every run from the empty program, whose fields are made one per entry;
* `shared_map_stale_cache`: a run that keeps using a merged argument holds a cached type that is not the join.
-/

namespace Bulker.Types

/-! ## `Add` and `OverrideTypes` -/

/-- What `Fields.OverrideTypes` leaves at one name, from the fields there in the receiver and in the argument. -/
def overrideAt : Option Field → Option Field → Option Field
  | some x, some y => some { x with typeOccurrence := y.typeOccurrence, dataType := y.dataType }
  | o, _ => o

theorem lookup_addEntries (es : Entries) :
    ∀ {f : Fields} (n : String), (Fields.addEntries es f).lookup n = (f.lookup n).or (es.dlookup n) := by
  induction es with
  | nil => intro f n; simp [Fields.addEntries]
  | cons e es ih =>
    obtain ⟨m, y⟩ := e
    intro f n
    rw [Fields.addEntries, dlookup_cons_sigma]
    split_ifs with hm hn hn
    · subst hn
      obtain ⟨x, hx⟩ := Option.isSome_iff_exists.1 (AList.lookup_isSome.2 hm)
      rw [ih, hx]; rfl
    · rw [ih]
    · subst hn
      rw [ih, lookup_insert_entries, if_pos rfl, AList.lookup_eq_none.2 hm]; rfl
    · rw [ih, lookup_insert_entries, if_neg hn]

/-- `Fields.Add` keeps the receiver's field at a name it has, and takes the argument's otherwise. -/
theorem lookup_add (f g : Fields) (n : String) : (f.add g).lookup n = (f.lookup n).or (g.lookup n) :=
  lookup_addEntries g.entries n

theorem lookup_add_cases {f g : Fields} {n : String} {z : Field} (hz : (f.add g).lookup n = some z) :
    f.lookup n = some z ∨ g.lookup n = some z := by
  rw [lookup_add] at hz
  cases hx : f.lookup n with
  | none => rw [hx, Option.none_or] at hz; exact .inr hz
  | some x => rw [hx] at hz; exact .inl hz

theorem lookup_overrideEntries (es : Entries) (hes : es.NodupKeys) :
    ∀ {f : Fields} (n : String), (Fields.overrideEntries es f).lookup n = overrideAt (f.lookup n) (es.dlookup n) := by
  induction es with
  | nil => intro f n; rw [Fields.overrideEntries]; cases f.lookup n <;> rfl
  | cons e es ih =>
    obtain ⟨m, y⟩ := e
    rw [List.nodupKeys_cons] at hes
    intro f n
    rw [dlookup_cons_sigma]
    cases hfm : f.lookup m with
    | none =>
      simp only [Fields.overrideEntries, hfm, ih hes.2]
      split_ifs with hn
      · rw [hn, hfm]; rfl
      · rfl
    | some x =>
      simp only [Fields.overrideEntries, hfm, ih hes.2, lookup_insert_entries]
      split_ifs with hn
      · rw [hn, hfm, List.dlookup_eq_none.2 hes.1]; rfl
      · rfl

/-- `Fields.OverrideTypes` gives a field the argument's occurrences and cached type at every name both have. -/
theorem lookup_overrideTypes (f g : Fields) (n : String) :
    (f.overrideTypes g).lookup n = overrideAt (f.lookup n) (g.lookup n) :=
  lookup_overrideEntries g.entries g.nodupKeys n

theorem overrideAt_typeOccurrence {a b : Option Field} {z : Field} (hz : overrideAt a b = some z) :
    ∃ w, (a = some w ∨ b = some w) ∧ z.typeOccurrence = w.typeOccurrence ∧ z.dataType = w.dataType := by
  rcases a with _ | x <;> rcases b with _ | y <;> simp only [overrideAt, Option.some.injEq, reduceCtorEq] at hz <;>
    subst hz
  · exact ⟨_, .inl rfl, rfl, rfl⟩
  · exact ⟨y, .inr rfl, rfl, rfl⟩

/-! ## Programs -/

/-- A statement of a program over `Fields` variables, which it names by their index. -/
inductive Op where
  /-- A new variable holding the per-object schema of an object. -/
  | make (cs : ObjectFields)
  /-- `v[i].Merge(v[j])`. -/
  | merge (i j : Nat)
  /-- `v[i].Add(v[j])`. -/
  | add (i j : Nat)
  /-- `v[i].OverrideTypes(v[j])`. -/
  | overrideTypes (i j : Nat)
  /-- A new variable holding `v[i].Clone()`. -/
  | clone (i : Nat)
  /-- `v[j] = Fields{}`: the variable is reassigned, and the fields it held are no longer reachable from it. -/
  | reset (j : Nat)

/-- The variables of a program and the occurrence maps their fields point to. -/
structure Store where
  heap : Heap
  vars : List Fields

def Store.empty : Store := ⟨Heap.empty, []⟩

/-- One statement; `none` when `Field.Merge` panics. A statement naming a variable that does not exist does
nothing. -/
def Store.step (s : Store) : Op → Option Store
  | .make cs => some ⟨(buildFields s.heap ∅ cs).1, s.vars ++ [(buildFields s.heap ∅ cs).2]⟩
  | .merge i j =>
    match s.vars[i]?, s.vars[j]? with
    | some f, some g => (Fields.merge s.heap f g).map fun p => ⟨p.1, s.vars.set i p.2⟩
    | _, _ => some s
  | .add i j =>
    match s.vars[i]?, s.vars[j]? with
    | some f, some g => some ⟨s.heap, s.vars.set i (f.add g)⟩
    | _, _ => some s
  | .overrideTypes i j =>
    match s.vars[i]?, s.vars[j]? with
    | some f, some g => some ⟨s.heap, s.vars.set i (f.overrideTypes g)⟩
    | _, _ => some s
  | .clone i =>
    match s.vars[i]? with
    | some f => some ⟨(f.clone s.heap).1, s.vars ++ [(f.clone s.heap).2]⟩
    | none => some s
  | .reset j => some ⟨s.heap, s.vars.set j ∅⟩

/-- A run of statements; `none` when one of them panics. -/
def Store.run : Store → List Op → Option Store
  | s, [] => some s
  | s, o :: os => (s.step o).bind fun s' => s'.run os

@[simp] theorem run_nil (s : Store) : s.run [] = some s := rfl

theorem run_cons {s s' : Store} {o : Op} (h : s.step o = some s') (os : List Op) : s.run (o :: os) = s'.run os := by
  simp [Store.run, h]

/-- A statement on two variables does nothing when one of them does not exist. -/
theorem step_pair_cases (s : Store) (i j : Nat) :
    (∃ f g, s.vars[i]? = some f ∧ s.vars[j]? = some g) ∨
      (s.step (.merge i j) = some s ∧ s.step (.add i j) = some s ∧ s.step (.overrideTypes i j) = some s) := by
  cases hi : s.vars[i]? with
  | none => exact .inr (by simp [Store.step, hi])
  | some f =>
    cases hj : s.vars[j]? with
    | none => exact .inr (by simp [Store.step, hi, hj])
    | some g => exact .inl ⟨f, g, rfl, rfl⟩

/-! ## Safety on every run -/

/-- A field points to an allocated, non-empty occurrence map. -/
def Field.Live (h : Heap) (x : Field) : Prop := ∃ r, x.typeOccurrence = some r ∧ r < h.next ∧ (h.maps r).keys ≠ []

/-- Every field of every variable is live. -/
def Store.Safe (s : Store) : Prop := ∀ f ∈ s.vars, ∀ n x, f.lookup n = some x → x.Live s.heap

/-- The heap grows from `h` to `h'`: nothing is freed and no occurrence is removed. -/
def Heap.Grows (h h' : Heap) : Prop :=
  h.next ≤ h'.next ∧ ∀ r, r < h.next → ∀ t ∈ (h.maps r).keys, t ∈ (h'.maps r).keys

theorem Heap.grows_of_frame {h h' : Heap} (hn : h.next ≤ h'.next) (hm : ∀ r, r < h.next → h'.maps r = h.maps r) :
    h.Grows h' :=
  ⟨hn, fun r hr t ht => by rwa [hm r hr]⟩

theorem Field.Live.grow {h h' : Heap} {x : Field} (hx : x.Live h) (hg : h.Grows h') : x.Live h' := by
  obtain ⟨r, hr, hlt, hne⟩ := hx
  obtain ⟨t, ht⟩ := List.exists_mem_of_ne_nil _ hne
  exact ⟨r, hr, Nat.lt_of_lt_of_le hlt hg.1, List.ne_nil_of_mem (hg.2 r hlt t ht)⟩

theorem Field.Live.of_typeOccurrence {h : Heap} {x z : Field} (hx : x.Live h)
    (e : z.typeOccurrence = x.typeOccurrence) : z.Live h := by
  obtain ⟨r, hr, hrest⟩ := hx
  exact ⟨r, e.trans hr, hrest⟩

theorem Field.Fresh.live {h : Heap} {x : Field} (hx : x.Fresh h) : x.Live h := by
  obtain ⟨t, r, -, hr, hlt, hk⟩ := hx
  exact ⟨r, hr, hlt, by rw [← Heap.keys_some, hk]; exact List.cons_ne_nil _ _⟩

theorem safe_set {h : Heap} {vars : List Fields} (hv : ∀ f ∈ vars, ∀ n x, f.lookup n = some x → x.Live h)
    (i : Nat) {f' : Fields} (hf' : ∀ n x, f'.lookup n = some x → x.Live h) : Store.Safe ⟨h, vars.set i f'⟩ :=
  fun f hf => (List.mem_or_eq_of_mem_set hf).elim (hv f) fun e => e ▸ hf'

theorem safe_append {h : Heap} {vars : List Fields} (hv : ∀ f ∈ vars, ∀ n x, f.lookup n = some x → x.Live h)
    {f' : Fields} (hf' : ∀ n x, f'.lookup n = some x → x.Live h) : Store.Safe ⟨h, vars ++ [f']⟩ := fun f hf =>
  (List.mem_append.1 hf).elim (hv f) fun e => List.mem_singleton.1 e ▸ hf'

/-- A statement combining variables `i` and `j` into `i`, where each field of the result is one of theirs at the same
name, or the same up to its cached type. -/
theorem safe_combine {s : Store} (hs : s.Safe) {i j : Nat} {f g : Fields} (hi : s.vars[i]? = some f)
    (hj : s.vars[j]? = some g) {h' : Heap} (hg : s.heap.Grows h') {f' : Fields}
    (hf' : ∀ n z, f'.lookup n = some z →
      ∃ w, (f.lookup n = some w ∨ g.lookup n = some w) ∧ z.typeOccurrence = w.typeOccurrence) :
    Store.Safe ⟨h', s.vars.set i f'⟩ := by
  refine safe_set (fun f hf n x hx => (hs f hf n x hx).grow hg) i fun n z hz => ?_
  obtain ⟨w, hw | hw, e⟩ := hf' n z hz
  · exact ((hs f (List.getElem?_mem hi) n w hw).grow hg).of_typeOccurrence e
  · exact ((hs g (List.getElem?_mem hj) n w hw).grow hg).of_typeOccurrence e

/-- **One statement keeps every field live**, and never panics. -/
theorem step_safe {s : Store} (hs : s.Safe) (o : Op) : ∃ s', s.step o = some s' ∧ s'.Safe := by
  cases o with
  | make cs =>
    obtain ⟨hn, hm, -, hb⟩ := buildFields_spec cs (built_empty s.heap)
    exact ⟨_, rfl, safe_append (fun f hf n x hx => (hs f hf n x hx).grow (Heap.grows_of_frame hn hm))
      fun n x hx => (hb.fresh n x hx).live⟩
  | reset j =>
    exact ⟨_, rfl, safe_set hs j fun _ _ hx => (by cases hx)⟩
  | clone i =>
    cases hi : s.vars[i]? with
    | none => exact ⟨s, by simp [Store.step, hi], hs⟩
    | some f =>
      have hf := hs f (List.getElem?_mem hi)
      rcases hc : f.clone s.heap with ⟨h', c⟩
      obtain ⟨hn, hm, hnames, hin, -⟩ := clone_spec (fun n x r hx hr => by
        obtain ⟨r', hr', hlt, -⟩ := hf n x hx; rw [hr, Option.some.injEq] at hr'; omega) hc
      refine ⟨⟨h', s.vars ++ [c]⟩, by simp only [Store.step, hi, hc], safe_append (fun f hf n x hx =>
        (hs f hf n x hx).grow (Heap.grows_of_frame hn hm)) fun n z hz => ?_⟩
      obtain ⟨x, hx⟩ := Option.isSome_iff_exists.1
        (AList.lookup_isSome.2 ((hnames n).1 (AList.lookup_isSome.1 (by rw [hz]; rfl))))
      obtain ⟨r, -, hlt, hl, hk⟩ := hin n x hx
      obtain ⟨r', hr', -, hne⟩ := hf n x hx
      rw [hl, Option.some.injEq] at hz; subst hz
      exact ⟨r, rfl, hlt, by rw [hk, hr']; exact hne⟩
  | merge i j =>
    rcases step_pair_cases s i j with ⟨f, g, hi, hj⟩ | ⟨h₁, -, -⟩
    · have hf := hs f (List.getElem?_mem hi)
      have hg := hs g (List.getElem?_mem hj)
      obtain ⟨⟨h', f'⟩, hm⟩ := Option.isSome_iff_exists.1 (mergeEntries_isSome g.entries (h := s.heap)
        (fun n x hx => by obtain ⟨r, hr, -⟩ := hf n x hx; simp [hr])
        (fun e he => by obtain ⟨r, hr, -⟩ := hg e.1 e.2 (AList.mem_lookup_iff.2 he); simp [hr]))
      obtain ⟨hnext, hkeys⟩ := mergeEntries_heap g.entries hm
      refine ⟨_, by simp only [Store.step, hi, hj]; rw [show Fields.merge s.heap f g = _ from hm]; rfl,
        safe_combine hs hi hj ⟨hnext.ge, fun r _ => hkeys r⟩ fun n z hz => ?_⟩
      obtain ⟨hn, e⟩ := lookup_merge hm n
      exact mergeAt_typeOccurrence (e ▸ hz)
    · exact ⟨s, h₁, hs⟩
  | add i j =>
    rcases step_pair_cases s i j with ⟨f, g, hi, hj⟩ | ⟨-, h₂, -⟩
    · exact ⟨⟨s.heap, s.vars.set i (f.add g)⟩, by simp only [Store.step, hi, hj],
        safe_combine hs hi hj ⟨le_rfl, fun _ _ _ => id⟩ fun n z hz => ⟨z, lookup_add_cases hz, rfl⟩⟩
    · exact ⟨s, h₂, hs⟩
  | overrideTypes i j =>
    rcases step_pair_cases s i j with ⟨f, g, hi, hj⟩ | ⟨-, -, h₃⟩
    · refine ⟨⟨s.heap, s.vars.set i (f.overrideTypes g)⟩, by simp only [Store.step, hi, hj],
        safe_combine hs hi hj ⟨le_rfl, fun _ _ _ => id⟩ fun n z hz => ?_⟩
      obtain ⟨w, hw, e, -⟩ := overrideAt_typeOccurrence ((lookup_overrideTypes f g n).symm.trans hz)
      exact ⟨w, hw, e⟩
    · exact ⟨s, h₃, hs⟩

/-- **Every run keeps every field live**, and never panics. -/
theorem run_safe (os : List Op) : ∀ {s : Store}, s.Safe → ∃ s', s.run os = some s' ∧ s'.Safe := by
  induction os with
  | nil => intro s hs; exact ⟨s, rfl, hs⟩
  | cons o os ih =>
    intro s hs
    obtain ⟨s₁, h₁, hs₁⟩ := step_safe hs o
    rw [run_cons h₁]
    exact ih hs₁

/-! ## Cache agreement on consuming runs -/

/-- The map of the field at `n` of variable `i`. -/
def varRef (vars : List Fields) (i : Nat) (n : String) : Option Nat := vars[i]?.bind fun f => refAt f.entries n

/-- Every map is owned by one entry of one variable, and every field's cache agrees with its occurrences. -/
structure Store.Sound (join : DataType → DataType → DataType) (s : Store) : Prop where
  owned : ∀ i j n m r, varRef s.vars i n = some r → varRef s.vars j m = some r → i = j ∧ n = m
  wf : ∀ (i : Nat) (f : Fields), s.vars[i]? = some f → ∀ n x, f.lookup n = some x → x.WF join s.heap

/-- A run that drops the argument of every `Merge`, `Add` and `OverrideTypes` right after using it. -/
inductive Consuming : List Op → Prop
  | nil : Consuming []
  | make {os : List Op} (cs : ObjectFields) : Consuming os → Consuming (.make cs :: os)
  | clone {os : List Op} (i : Nat) : Consuming os → Consuming (.clone i :: os)
  | reset {os : List Op} (j : Nat) : Consuming os → Consuming (.reset j :: os)
  | merge {os : List Op} {i j : Nat} : i ≠ j → Consuming os → Consuming (.merge i j :: .reset j :: os)
  | add {os : List Op} {i j : Nat} : i ≠ j → Consuming os → Consuming (.add i j :: .reset j :: os)
  | overrideTypes {os : List Op} {i j : Nat} : i ≠ j → Consuming os →
      Consuming (.overrideTypes i j :: .reset j :: os)

theorem run_append (s : Store) (os₁ os₂ : List Op) : s.run (os₁ ++ os₂) = (s.run os₁).bind (·.run os₂) := by
  induction os₁ generalizing s with
  | nil => rfl
  | cons o os₁ ih => cases h : s.step o <;> simp [Store.run, h, ih]

theorem varRef_of_getElem? {vars : List Fields} {i : Nat} {f : Fields} (hi : vars[i]? = some f) (n : String) :
    varRef vars i n = refAt f.entries n := by
  rw [varRef, hi]; rfl

theorem exists_of_varRef {vars : List Fields} {i : Nat} {n : String} {r : Nat} (hr : varRef vars i n = some r) :
    ∃ f x, vars[i]? = some f ∧ f.lookup n = some x ∧ x.typeOccurrence = some r := by
  obtain ⟨f, hf, hr⟩ := Option.bind_eq_some.1 hr
  obtain ⟨x, hx, hxr⟩ := Option.bind_eq_some.1 hr
  exact ⟨f, x, hf, hx, hxr⟩

theorem getElem?_set_cases {vars : List Fields} {i k : Nat} {f f' : Fields} (hk : (vars.set i f')[k]? = some f) :
    (k = i ∧ f = f') ∨ (k ≠ i ∧ vars[k]? = some f) := by
  by_cases e : k = i
  · subst e
    by_cases hl : k < vars.length
    · rw [List.getElem?_set_self hl] at hk; exact .inl ⟨rfl, (Option.some.inj hk).symm⟩
    · rw [List.getElem?_eq_none (by simp; omega)] at hk; cases hk
  · rw [List.getElem?_set_ne (Ne.symm e)] at hk; exact .inr ⟨e, hk⟩

theorem getElem?_append_singleton {vars : List Fields} {k : Nat} {g f : Fields} (hk : (vars ++ [g])[k]? = some f) :
    (k = vars.length ∧ f = g) ∨ (k < vars.length ∧ vars[k]? = some f) := by
  by_cases h : k < vars.length
  · rw [List.getElem?_append_left h] at hk; exact .inr ⟨h, hk⟩
  · rw [List.getElem?_append_right (Nat.le_of_not_lt h)] at hk
    rcases Nat.eq_zero_or_pos (k - vars.length) with e | e
    · rw [e] at hk; exact .inl ⟨by omega, (Option.some.inj hk).symm⟩
    · rw [List.getElem?_eq_none (by simp; omega)] at hk; cases hk

theorem varRef_set {vars : List Fields} {i k : Nat} {f : Fields} {n : String} {r : Nat}
    (hr : varRef (vars.set i f) k n = some r) :
    (k = i ∧ refAt f.entries n = some r) ∨ (k ≠ i ∧ varRef vars k n = some r) := by
  obtain ⟨f₀, hf₀, hr₀⟩ := Option.bind_eq_some.1 hr
  rcases getElem?_set_cases hf₀ with ⟨e, rfl⟩ | ⟨e, hk⟩
  · exact .inl ⟨e, hr₀⟩
  · exact .inr ⟨e, by rw [varRef_of_getElem? hk]; exact hr₀⟩

theorem varRef_append {vars : List Fields} {k : Nat} {g : Fields} {n : String} {r : Nat}
    (hr : varRef (vars ++ [g]) k n = some r) :
    (k = vars.length ∧ refAt g.entries n = some r) ∨ (k < vars.length ∧ varRef vars k n = some r) := by
  obtain ⟨f₀, hf₀, hr₀⟩ := Option.bind_eq_some.1 hr
  rcases getElem?_append_singleton hf₀ with ⟨e, rfl⟩ | ⟨e, hk⟩
  · exact .inl ⟨e, hr₀⟩
  · exact .inr ⟨e, by rw [varRef_of_getElem? hk]; exact hr₀⟩

theorem Field.WF.of_eq {join : DataType → DataType → DataType} {h : Heap} {x z : Field} (hx : x.WF join h)
    (e₁ : z.typeOccurrence = x.typeOccurrence) (e₂ : z.dataType = x.dataType) : z.WF join h := by
  obtain ⟨⟨r, hr, hlt⟩, hne, hc⟩ := hx
  exact ⟨⟨r, e₁.trans hr, hlt⟩, by rw [e₁]; exact hne, fun d hd => by rw [e₁]; exact hc d (e₂ ▸ hd)⟩

theorem Field.WF.frame {join : DataType → DataType → DataType} {h h' : Heap} {x : Field} (hx : x.WF join h)
    (hn : h.next ≤ h'.next) (hm : ∀ r, r < h.next → h'.maps r = h.maps r) : x.WF join h' := by
  obtain ⟨r, hr, hlt⟩ := hx.allocated
  exact hx.congr (by rw [hr, Heap.keys_some, Heap.keys_some, hm r hlt]) hn

section Sound

variable {join : DataType → DataType → DataType} {s : Store}

theorem Store.Sound.lt_next (hs : s.Sound join) {i : Nat} {n : String} {r : Nat} (hr : varRef s.vars i n = some r) :
    r < s.heap.next := by
  obtain ⟨f, x, hf, hx, hxr⟩ := exists_of_varRef hr
  obtain ⟨r', hr', hlt⟩ := (hs.wf i f hf n x hx).allocated
  rw [hxr, Option.some.injEq] at hr'
  exact hr' ▸ hlt

/-- A new variable whose maps are past the allocated ones, which are untouched. -/
theorem Store.Sound.append (hs : s.Sound join) {h' : Heap} {g : Fields} (hn : s.heap.next ≤ h'.next)
    (hm : ∀ r, r < s.heap.next → h'.maps r = s.heap.maps r)
    (hpast : ∀ n r, refAt g.entries n = some r → s.heap.next ≤ r)
    (hown : ∀ n m r, refAt g.entries n = some r → refAt g.entries m = some r → n = m)
    (hwf : ∀ n x, g.lookup n = some x → x.WF join h') : Store.Sound join ⟨h', s.vars ++ [g]⟩ := by
  refine ⟨fun k k' n m r h₁ h₂ => ?_, fun k f hk n x hx => ?_⟩
  · rcases varRef_append h₁ with ⟨e₁, h₁⟩ | ⟨e₁, h₁⟩ <;> rcases varRef_append h₂ with ⟨e₂, h₂⟩ | ⟨e₂, h₂⟩
    · exact ⟨e₁.trans e₂.symm, hown n m r h₁ h₂⟩
    · exact absurd (hs.lt_next h₂) (Nat.not_lt.2 (hpast n r h₁))
    · exact absurd (hs.lt_next h₁) (Nat.not_lt.2 (hpast m r h₂))
    · exact hs.owned k k' n m r h₁ h₂
  · rcases getElem?_append_singleton hk with ⟨-, rfl⟩ | hk
    · exact hwf n x hx
    · exact (hs.wf k f hk.2 n x hx).frame hn hm

theorem Store.Sound.reset (hs : s.Sound join) (j : Nat) : Store.Sound join ⟨s.heap, s.vars.set j ∅⟩ := by
  refine ⟨fun k k' n m r h₁ h₂ => ?_, fun k f hk n x hx => ?_⟩
  · rcases varRef_set h₁ with ⟨-, h₁⟩ | ⟨-, h₁⟩
    · cases h₁
    rcases varRef_set h₂ with ⟨-, h₂⟩ | ⟨-, h₂⟩
    · cases h₂
    exact hs.owned k k' n m r h₁ h₂
  · rcases getElem?_set_cases hk with ⟨-, rfl⟩ | ⟨-, hk⟩
    · cases hx
    · exact hs.wf k f hk n x hx

/-- Variable `i` takes a combination of itself and variable `j`, whose fields are the ones it held or `j`'s at the
same name, and `j` is then dropped. -/
theorem Store.Sound.combine (hs : s.Sound join) {i j : Nat} (hij : i ≠ j) {f g : Fields} (hi : s.vars[i]? = some f)
    (hj : s.vars[j]? = some g) {h' : Heap} {f' : Fields} (hn : s.heap.next ≤ h'.next)
    (hframe : ∀ r, (∀ n, refAt f.entries n ≠ some r) → h'.maps r = s.heap.maps r)
    (hrefs : ∀ n r, refAt f'.entries n = some r → refAt f.entries n = some r ∨ refAt g.entries n = some r)
    (hwf : ∀ n x, f'.lookup n = some x → x.WF join h') : Store.Sound join ⟨h', (s.vars.set i f').set j ∅⟩ := by
  -- where a map of the new state was in the old one
  have horigin : ∀ k n r, varRef ((s.vars.set i f').set j ∅) k n = some r →
      k ≠ j ∧ ∃ p, varRef s.vars p n = some r ∧ (p = k ∨ (k = i ∧ p = j)) := fun k n r hr => by
    rcases varRef_set hr with ⟨-, hr⟩ | ⟨hkj, hr⟩
    · cases hr
    refine ⟨hkj, ?_⟩
    rcases varRef_set hr with ⟨rfl, hr'⟩ | ⟨_, hr'⟩
    · rcases hrefs n r hr' with hr'' | hr''
      · exact ⟨k, by rwa [varRef_of_getElem? hi], .inl rfl⟩
      · exact ⟨j, by rwa [varRef_of_getElem? hj], .inr ⟨rfl, rfl⟩⟩
    · exact ⟨k, hr', .inl rfl⟩
  refine ⟨fun k k' n m r h₁ h₂ => ?_, fun k f₀ hk n x hx => ?_⟩
  · obtain ⟨hk, p, hp, hpk⟩ := horigin k n r h₁
    obtain ⟨hk', p', hp', hpk'⟩ := horigin k' m r h₂
    obtain ⟨e, rfl⟩ := hs.owned p p' n m r hp hp'
    exact ⟨by omega, rfl⟩
  · rcases getElem?_set_cases hk with ⟨-, rfl⟩ | ⟨hkj, hk⟩
    · cases hx
    rcases getElem?_set_cases hk with ⟨-, rfl⟩ | ⟨hki, hk⟩
    · exact hwf n x hx
    -- the maps of the other variables are not the receiver's
    obtain ⟨r, hr, -⟩ := (hs.wf k f₀ hk n x hx).allocated
    refine (hs.wf k f₀ hk n x hx).congr ?_ hn
    rw [hr, Heap.keys_some, Heap.keys_some, hframe r fun m hm => hki ?_]
    exact (hs.owned k i n m r (by rw [varRef_of_getElem? hk]; exact refAt_of_lookup hx hr)
      (by rwa [varRef_of_getElem? hi])).1

theorem Store.Sound.apart (hs : s.Sound join) {i j : Nat} (hij : i ≠ j) {f g : Fields} (hi : s.vars[i]? = some f)
    (hj : s.vars[j]? = some g) : Apart f.entries g.entries :=
  ⟨fun n m r h₁ h₂ => (hs.owned i i n m r (by rwa [varRef_of_getElem? hi]) (by rwa [varRef_of_getElem? hi])).2,
    fun n m r h₁ h₂ =>
      (hij (hs.owned i j n m r (by rwa [varRef_of_getElem? hi]) (by rwa [varRef_of_getElem? hj])).1).elim⟩

theorem Store.Sound.nonNil (hs : s.Sound join) {i : Nat} {f : Fields} (hi : s.vars[i]? = some f) :
    NonNil f.entries := fun n x hx => by
  obtain ⟨r, hr, -⟩ := (hs.wf i f hi n x hx).allocated
  simp [hr]

/-- A statement that gives variable `i`, at each name, a field of `i` or of `j` up to its cached type and map,
followed by dropping `j`, allocating and writing nothing. -/
theorem Store.Sound.combine_fields (hs : s.Sound join) {i j : Nat} (hij : i ≠ j) {f g : Fields}
    (hi : s.vars[i]? = some f) (hj : s.vars[j]? = some g) {f' : Fields}
    (hf' : ∀ n z, f'.lookup n = some z → ∃ w, (f.lookup n = some w ∨ g.lookup n = some w) ∧
      z.typeOccurrence = w.typeOccurrence ∧ z.dataType = w.dataType) :
    Store.Sound join ⟨s.heap, (s.vars.set i f').set j ∅⟩ := by
  refine hs.combine hij hi hj le_rfl (fun _ _ => rfl) (fun n r hr => ?_) fun n z hz => ?_
  · obtain ⟨z, hz, hzr⟩ := Option.bind_eq_some.1 hr
    obtain ⟨w, hw | hw, e, -⟩ := hf' n z hz
    · exact .inl (refAt_of_lookup hw (e ▸ hzr))
    · exact .inr (refAt_of_lookup hw (e ▸ hzr))
  · obtain ⟨w, hw | hw, e₁, e₂⟩ := hf' n z hz
    · exact (hs.wf i f hi n w hw).of_eq e₁ e₂
    · exact (hs.wf j g hj n w hw).of_eq e₁ e₂

theorem Store.Sound.make (hs : s.Sound join) (cs : ObjectFields) :
    ∃ s', s.step (.make cs) = some s' ∧ s'.Sound join := by
  obtain ⟨hn, hm, hrefs, hb⟩ := buildFields_spec cs (built_empty s.heap)
  exact ⟨_, rfl, hs.append hn hm (fun n r hr => (hrefs n r hr).resolve_left (by simp [refAt])) hb.owned
    fun n x hx => (hb.fresh n x hx).wf⟩

theorem Store.Sound.clone (hs : s.Sound join) (i : Nat) : ∃ s', s.step (.clone i) = some s' ∧ s'.Sound join := by
  cases hi : s.vars[i]? with
  | none => exact ⟨s, by simp [Store.step, hi], hs⟩
  | some f =>
    rcases hc : f.clone s.heap with ⟨h', c⟩
    obtain ⟨hn, hm, hnames, hin, hdist⟩ := clone_spec (fun n x r hx hr =>
      hs.lt_next (by rw [varRef_of_getElem? hi]; exact refAt_of_lookup hx hr)) hc
    -- every field of the clone is a fresh copy of the original's
    have hcopy : ∀ n z, c.lookup n = some z → ∃ x r, f.lookup n = some x ∧ s.heap.next ≤ r ∧ r < h'.next ∧
        z = ⟨x.dataType, none, some r⟩ ∧ (h'.maps r).keys = s.heap.keys x.typeOccurrence := fun n z hz => by
      obtain ⟨x, hx⟩ := Option.isSome_iff_exists.1
        (AList.lookup_isSome.2 ((hnames n).1 (AList.lookup_isSome.1 (by rw [hz]; rfl))))
      obtain ⟨r, hle, hlt, hl, hk⟩ := hin n x hx
      exact ⟨x, r, hx, hle, hlt, Option.some.inj (hz.symm.trans hl), hk⟩
    refine ⟨⟨h', s.vars ++ [c]⟩, by simp only [Store.step, hi, hc], hs.append hn hm (fun n r hr => ?_)
      (fun n m r h₁ h₂ => hdist n m r h₁ h₂) fun n z hz => ?_⟩
    · obtain ⟨z, hz, hzr⟩ := Option.bind_eq_some.1 hr
      obtain ⟨x, r', -, hle, -, rfl, -⟩ := hcopy n z hz
      cases hzr; exact hle
    · obtain ⟨x, r, hx, -, hlt, rfl, hk⟩ := hcopy n z hz
      exact WF_clone (hs.wf i f hi n x hx) hk hlt

/-- `v[i].Merge(v[j])`, then `v[j]` dropped. -/
theorem Store.Sound.merge_reset (hs : s.Sound join) {i j : Nat} (hij : i ≠ j) :
    ∃ s', s.run [.merge i j, .reset j] = some s' ∧ s'.Sound join := by
  rcases step_pair_cases s i j with ⟨f, g, hi, hj⟩ | ⟨h₁, -, -⟩
  · obtain ⟨h', f', hm, hnext, hlook, -, -, -, hframe, hwf⟩ :=
      merge_union (hs.apart hij hi hj) (hs.nonNil hi) (hs.nonNil hj)
    exact ⟨_, by simp [Store.run, Store.step, hi, hj, hm], hs.combine hij hi hj hnext.ge hframe
      (fun n r hr => refAt_of_merged hlook hr) (hwf join fun n x hx => hx.elim (hs.wf i f hi n x) (hs.wf j g hj n x))⟩
  · exact ⟨_, by rw [run_cons h₁]; rfl, hs.reset j⟩

/-- `v[i].Add(v[j])`, then `v[j]` dropped. -/
theorem Store.Sound.add_reset (hs : s.Sound join) {i j : Nat} (hij : i ≠ j) :
    ∃ s', s.run [.add i j, .reset j] = some s' ∧ s'.Sound join := by
  rcases step_pair_cases s i j with ⟨f, g, hi, hj⟩ | ⟨-, h₂, -⟩
  · exact ⟨⟨s.heap, (s.vars.set i (f.add g)).set j ∅⟩, by simp [Store.run, Store.step, hi, hj],
      hs.combine_fields hij hi hj fun n z hz => ⟨z, lookup_add_cases hz, rfl, rfl⟩⟩
  · exact ⟨_, by rw [run_cons h₂]; rfl, hs.reset j⟩

/-- `v[i].OverrideTypes(v[j])`, then `v[j]` dropped. -/
theorem Store.Sound.overrideTypes_reset (hs : s.Sound join) {i j : Nat} (hij : i ≠ j) :
    ∃ s', s.run [.overrideTypes i j, .reset j] = some s' ∧ s'.Sound join := by
  rcases step_pair_cases s i j with ⟨f, g, hi, hj⟩ | ⟨-, -, h₃⟩
  · exact ⟨_, by simp [Store.run, Store.step, hi, hj], hs.combine_fields hij hi hj fun n z hz =>
      overrideAt_typeOccurrence ((lookup_overrideTypes f g n).symm.trans hz)⟩
  · exact ⟨_, by rw [run_cons h₃]; rfl, hs.reset j⟩

end Sound

theorem run_cons_cons (s : Store) (a b : Op) (os : List Op) :
    s.run (a :: b :: os) = (s.run [a, b]).bind (·.run os) :=
  run_append s [a, b] os

/-- **Every consuming run keeps every map owned by one entry and every cache in agreement with its occurrences.** -/
theorem run_sound {join : DataType → DataType → DataType} {os : List Op} (hc : Consuming os) :
    ∀ {s : Store}, s.Sound join → ∃ s', s.run os = some s' ∧ s'.Sound join := by
  induction hc with
  | nil => intro s hs; exact ⟨s, rfl, hs⟩
  | make cs _ ih => intro s hs; obtain ⟨s₁, h₁, hs₁⟩ := hs.make cs; rw [run_cons h₁]; exact ih hs₁
  | clone i _ ih => intro s hs; obtain ⟨s₁, h₁, hs₁⟩ := hs.clone i; rw [run_cons h₁]; exact ih hs₁
  | reset j _ ih =>
    intro s hs; rw [run_cons (show s.step (.reset j) = some ⟨s.heap, s.vars.set j ∅⟩ from rfl)]; exact ih (hs.reset j)
  | merge hij _ ih =>
    intro s hs; obtain ⟨s₁, h₁, hs₁⟩ := hs.merge_reset hij; rw [run_cons_cons, h₁]; exact ih hs₁
  | add hij _ ih =>
    intro s hs; obtain ⟨s₁, h₁, hs₁⟩ := hs.add_reset hij; rw [run_cons_cons, h₁]; exact ih hs₁
  | overrideTypes hij _ ih =>
    intro s hs; obtain ⟨s₁, h₁, hs₁⟩ := hs.overrideTypes_reset hij; rw [run_cons_cons, h₁]; exact ih hs₁

/-! ## The invariant from the empty program -/

theorem empty_safe : Store.empty.Safe := fun _ h => (by cases h)

theorem empty_sound (join : DataType → DataType → DataType) : Store.empty.Sound join :=
  ⟨fun _ _ _ _ _ h => (by cases h), fun _ _ h => (by cases h)⟩

/-- **The field representation invariant.** Along every run from the empty program no statement panics, and every
field of every variable points to an allocated, non-empty occurrence map, so `GetType` never reaches its fallback.
Along every run that drops the argument of each `Merge`, `Add` and `OverrideTypes` right after, moreover, every cached
type is the join of the field's occurrences, and `GetType` returns that join. -/
theorem representation_invariant (os : List Op) :
    (∃ s, Store.empty.run os = some s ∧ ∀ f ∈ s.vars, ∀ n x, f.lookup n = some x →
      (∃ r, x.typeOccurrence = some r ∧ r < s.heap.next) ∧ s.heap.keys x.typeOccurrence ≠ []) ∧
    (Consuming os → ∀ join, ∃ s, Store.empty.run os = some s ∧ ∀ f ∈ s.vars, ∀ n x, f.lookup n = some x →
      (∀ d, x.dataType = some d → joinAll join (s.heap.keys x.typeOccurrence) = some d) ∧
      joinAll join (s.heap.keys x.typeOccurrence) = some (x.getType join s.heap)) := by
  refine ⟨?_, fun hc join => ?_⟩
  · obtain ⟨s, hr, hs⟩ := run_safe os empty_safe
    refine ⟨s, hr, fun f hf n x hx => ?_⟩
    obtain ⟨r, hxr, hlt, hne⟩ := hs f hf n x hx
    exact ⟨⟨r, hxr, hlt⟩, by rw [hxr]; exact hne⟩
  · obtain ⟨s, hr, hs⟩ := run_sound hc (empty_sound join)
    refine ⟨s, hr, fun f hf n x hx => ?_⟩
    obtain ⟨i, hi⟩ := List.mem_iff_getElem?.1 hf
    have hw := hs.wf i f hi n x hx
    exact ⟨hw.cached, getType_of_WF hw⟩

/-- A program that keeps using the argument of a merge: `g := {a: INT64}`, `f := {}`, `k := {a: STRING}`,
`f.Merge(g)`, `f.Merge(k)`. -/
def sharedRun : List Op :=
  [.make [("a", .int64, none)], .make [], .make [("a", .string, none)], .merge 1 0, .merge 1 2]

/-- After the run, `g`'s field at `a` still caches `int64`, while its map, shared with `f`'s field, also holds
`string`: for the commutative and associative `flatJoin` the cache is not the join of the occurrences, and `GetType`
answers `int64`. -/
theorem shared_map_stale_cache :
    (∀ a b, flatJoin a b = flatJoin b a) ∧ (∀ a b c, flatJoin (flatJoin a b) c = flatJoin a (flatJoin b c)) ∧
    (Store.empty.run sharedRun).map (fun s => (s.vars[0]?.bind (·.lookup "a")).map fun x =>
      (x.dataType, s.heap.keys x.typeOccurrence, x.getType flatJoin s.heap)) =
      some (some (some .int64, [.int64, .string], .int64)) ∧
    joinAll flatJoin [.int64, .string] = some .string :=
  ⟨flatJoin_comm, flatJoin_assoc, by decide, by decide⟩

end Bulker.Types
