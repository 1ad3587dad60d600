import Bulker.Types.MergeSpec

/-!
# Batch schema inference

A batch's schema is the per-object schemas, each built field by field with `NewFieldWithSQLType`, folded with
`Fields.Merge` into an empty `Fields`. The first field seen under a name is adopted with its occurrence map, and the
later ones are merged into that map, so the fold is only order independent because every entry of the per-object
schemas owns its map (`Owned`).

* `mergeBatch_spec`: over maps that own their occurrence maps, the fold does not panic, its names are those of the
  maps, the occurrences at each name are those of the maps at that name, and the representation invariant is kept;
* `buildBatch_spec`: the per-object schemas of a batch own their maps, and each field has its type as its one
  occurrence;
* `batch_merge_order_independent`: so folding the schemas in any order gives the same names, the same occurrences and,
  for a commutative, associative and idempotent join, the same `GetType` at every name.
-/

namespace Bulker.Types

/-- A parsed object: the name, type and SQL type suggestion of each of its fields, in parsing order. -/
abbrev ObjectFields := List (String × DataType × Option SQLTypeSuggestion)

/-- Modelled from the spec: the per-object schema of an object, one `NewFieldWithSQLType` per field, put into `f`. -/
def buildFields : Heap → Fields → ObjectFields → Heap × Fields
  | h, f, [] => (h, f)
  | h, f, (n, t, s) :: cs => buildFields (newFieldWithSQLType h t s).1 (f.insert n (newFieldWithSQLType h t s).2) cs

/-- Modelled from the spec: the per-object schemas of a batch, built one object after the other. -/
def buildBatch : Heap → List ObjectFields → Heap × List Fields
  | h, [] => (h, [])
  | h, o :: os =>
    let p := buildFields h ∅ o
    ((buildBatch p.1 os).1, p.2 :: (buildBatch p.1 os).2)

/-- Modelled from the spec: batch schema inference, the per-object schemas folded with `Fields.Merge` into `acc`;
`none` when a merge panics. -/
def mergeBatch : Heap → Fields → List Fields → Option (Heap × Fields)
  | h, acc, [] => some (h, acc)
  | h, acc, g :: gs => (Fields.merge h acc g).bind fun p => mergeBatch p.1 p.2 gs

/-! ## Maps that own their occurrence maps -/

/-- No occurrence map is shared between two entries of the maps: each entry owns its map. -/
structure Owned (fs : List Fields) : Prop where
  within : ∀ f ∈ fs, ∀ n m r, refAt f.entries n = some r → refAt f.entries m = some r → n = m
  across : fs.Pairwise fun f g => ∀ n m r, refAt f.entries n = some r → refAt g.entries m = some r → False

theorem Owned.apart {f g : Fields} {gs : List Fields} (ho : Owned (f :: g :: gs)) : Apart f.entries g.entries :=
  ⟨ho.within f (List.mem_cons_self _ _),
    fun n m r h₁ h₂ => ((List.pairwise_cons.1 ho.across).1 g (List.mem_cons_self _ _) n m r h₁ h₂).elim⟩

theorem Owned.perm {fs fs' : List Fields} (ho : Owned fs) (p : fs.Perm fs') : Owned fs' :=
  ⟨fun f hf => ho.within f (p.mem_iff.2 hf), ho.across.perm p fun h n m r h₁ h₂ => h m n r h₂ h₁⟩

/-- The empty map owns nothing. -/
theorem Owned.cons_empty {fs : List Fields} (ho : Owned fs) : Owned (∅ :: fs) :=
  ⟨fun f hf => (List.mem_cons.1 hf).elim (fun e => e ▸ fun n _ r h => by cases h) (ho.within f),
    List.pairwise_cons.2 ⟨fun _ _ _ _ _ h => (by cases h), ho.across⟩⟩

theorem mergeAt_typeOccurrence {h : Heap} {a b : Option Field} {z : Field} (hz : mergeAt h a b = some z) :
    ∃ w, (a = some w ∨ b = some w) ∧ z.typeOccurrence = w.typeOccurrence := by
  rcases a with _ | x <;> rcases b with _ | y <;> simp only [mergeAt, Option.some.injEq, reduceCtorEq] at hz <;>
    subst hz
  · exact ⟨_, .inr rfl, rfl⟩
  · exact ⟨_, .inl rfl, rfl⟩
  · exact ⟨x, .inl rfl, mergedWith_typeOccurrence ..⟩

section Merged

variable {h : Heap} {f g f' : Fields} (hlook : ∀ n, f'.lookup n = mergeAt h (f.lookup n) (g.lookup n))
include hlook

/-- Every map of a merge result is one of the receiver's or the argument's, at the same name. -/
theorem refAt_of_merged {n : String} {r : Nat} (hr : refAt f'.entries n = some r) :
    refAt f.entries n = some r ∨ refAt g.entries n = some r := by
  obtain ⟨z, hz, hzr⟩ := Option.bind_eq_some.1 hr
  obtain ⟨w, hw | hw, e⟩ := mergeAt_typeOccurrence ((hlook n).symm.trans hz)
  · exact .inl (refAt_of_lookup hw (e ▸ hzr))
  · exact .inr (refAt_of_lookup hw (e ▸ hzr))

theorem nonNil_of_merged (hf : NonNil f.entries) (hg : NonNil g.entries) : NonNil f'.entries := fun n z hz => by
  obtain ⟨w, hw | hw, e⟩ := mergeAt_typeOccurrence ((hlook n).symm.trans hz)
  · exact e ▸ hf n w hw
  · exact e ▸ hg n w hw

end Merged

theorem keys_frame {h h' : Heap} {g : Fields} (hg : ∀ n r, refAt g.entries n = some r → h'.maps r = h.maps r)
    {n : String} {x : Field} (hx : g.lookup n = some x) : h'.keys x.typeOccurrence = h.keys x.typeOccurrence := by
  cases hr : x.typeOccurrence with
  | none => rfl
  | some r => simp [hg n r (refAt_of_lookup hx hr)]

theorem occAt_congr {h h' : Heap} {g : Fields} (hg : ∀ n r, refAt g.entries n = some r → h'.maps r = h.maps r)
    (n : String) : occAt h' g n = occAt h g n := by
  cases hx : g.lookup n with
  | none => simp [occAt, hx]
  | some x => rw [occAt_of_lookup hx, occAt_of_lookup hx, keys_frame hg hx]

/-- A map whose every entry points to a map of `f` or of `g` at the same name, in place of the two, keeps the maps
owned. -/
theorem Owned.merged {f g f' : Fields} {gs : List Fields} (ho : Owned (f :: g :: gs))
    (hrefs : ∀ n r, refAt f'.entries n = some r → refAt f.entries n = some r ∨ refAt g.entries n = some r) :
    Owned (f' :: gs) := by
  have hfcr := List.pairwise_cons.1 ho.across
  have hgcr := List.pairwise_cons.1 hfcr.2
  refine ⟨fun k hk n m r h₁ h₂ => ?_, List.pairwise_cons.2 ⟨fun g' hg' n m r h₁ h₂ => ?_, hgcr.2⟩⟩
  · rcases List.mem_cons.1 hk with rfl | hk
    · rcases hrefs n r h₁ with h₁ | h₁ <;> rcases hrefs m r h₂ with h₂ | h₂
      · exact ho.within f (List.mem_cons_self _ _) n m r h₁ h₂
      · exact (hfcr.1 g (List.mem_cons_self _ _) n m r h₁ h₂).elim
      · exact (hfcr.1 g (List.mem_cons_self _ _) m n r h₂ h₁).elim
      · exact ho.within g (List.mem_cons_of_mem _ (List.mem_cons_self _ _)) n m r h₁ h₂
    · exact ho.within k (List.mem_cons_of_mem _ (List.mem_cons_of_mem _ hk)) n m r h₁ h₂
  · rcases hrefs n r h₁ with h₁ | h₁
    · exact hfcr.1 g' (List.mem_cons_of_mem _ hg') n m r h₁ h₂
    · exact hgcr.1 g' hg' n m r h₁ h₂

/-! ## The fold -/

/-- **The fold of `Fields.Merge`** over maps that own their occurrence maps: no merge panics, the names are those of
the maps, the occurrences at a name are those the maps hold there, and the representation invariant is kept. -/
theorem mergeBatch_spec (gs : List Fields) :
    ∀ {h : Heap} {acc : Fields}, Owned (acc :: gs) → (∀ f ∈ acc :: gs, NonNil f.entries) →
      ∃ h' f', mergeBatch h acc gs = some (h', f') ∧ h'.next = h.next ∧
        (∀ n, n ∈ f' ↔ ∃ g ∈ acc :: gs, n ∈ g) ∧
        (∀ n t, t ∈ occAt h' f' n ↔ ∃ g ∈ acc :: gs, t ∈ occAt h g n) ∧
        ∀ join, (∀ g ∈ acc :: gs, ∀ n x, g.lookup n = some x → x.WF join h) →
          ∀ n x, f'.lookup n = some x → x.WF join h' := by
  induction gs with
  | nil =>
    intro h acc _ _
    exact ⟨h, acc, rfl, rfl, by simp, by simp, fun join hw => hw acc (List.mem_singleton_self _)⟩
  | cons g gs ih =>
    intro h acc ho hn
    have hacr := List.pairwise_cons.1 ho.across
    have hgs : ∀ {g'}, g' ∈ gs → g' ∈ acc :: g :: gs := fun h => List.mem_cons_of_mem _ (List.mem_cons_of_mem _ h)
    obtain ⟨h₁, a₁, hm, hnext₁, hlook₁, -, -, hocc₁, hframe₁, hwf₁⟩ :=
      merge_union ho.apart (hn acc (List.mem_cons_self _ _)) (hn g (List.mem_cons_of_mem _ (List.mem_cons_self _ _)))
    -- the maps of the schemas still to come are untouched
    have hrest : ∀ g' ∈ gs, ∀ n r, refAt g'.entries n = some r → h₁.maps r = h.maps r := fun g' hg' n r hr =>
      hframe₁ r fun k hk => hacr.1 g' (List.mem_cons_of_mem _ hg') k n r hk hr
    have ho₁ : Owned (a₁ :: gs) := ho.merged fun n r hr => refAt_of_merged hlook₁ hr
    obtain ⟨h', f', hrun, hnext, hnames, hocc, hwf⟩ := ih ho₁ fun f hf => by
      rcases List.mem_cons.1 hf with rfl | hf
      · exact nonNil_of_merged hlook₁ (hn acc (List.mem_cons_self _ _))
          (hn g (List.mem_cons_of_mem _ (List.mem_cons_self _ _)))
      · exact hn f (hgs hf)
    refine ⟨h', f', by simp only [mergeBatch, hm, Option.some_bind]; exact hrun, hnext.trans hnext₁,
      fun n => ?_, fun n t => ?_, fun join hw => hwf join ?_⟩
    · simp only [hnames, List.mem_cons, or_and_right, exists_or, exists_eq_left, ← or_assoc]
      rw [← AList.lookup_isSome, hlook₁, mergeAt_isSome, Bool.or_eq_true, AList.lookup_isSome, AList.lookup_isSome]
    · simp only [hocc, List.mem_cons, or_and_right, exists_or, exists_eq_left, ← or_assoc, hocc₁]
      exact or_congr_right (exists_congr fun g' => and_congr_right fun hg' => by rw [occAt_congr (hrest g' hg')])
    · intro f hf n x hx
      rcases List.mem_cons.1 hf with rfl | hf
      · exact hwf₁ join (fun n x hx => hx.elim (hw acc (List.mem_cons_self _ _) n x)
          (hw g (List.mem_cons_of_mem _ (List.mem_cons_self _ _)) n x)) n x hx
      · exact (hw f (hgs hf) n x hx).congr (keys_frame (hrest f hf) hx) hnext₁.ge

/-! ## Building the per-object schemas -/

/-- A field as `NewFieldWithSQLType` leaves it: its cached type is its one occurrence, in an allocated map. -/
def Field.Fresh (h : Heap) (x : Field) : Prop :=
  ∃ t r, x.dataType = some t ∧ x.typeOccurrence = some r ∧ r < h.next ∧ h.keys (some r) = [t]

theorem Field.Fresh.wf {join : DataType → DataType → DataType} {h : Heap} {x : Field} (hx : x.Fresh h) :
    x.WF join h := by
  obtain ⟨t, r, hd, hr, hlt, hk⟩ := hx
  refine ⟨⟨r, hr, hlt⟩, by rw [hr, hk]; exact List.cons_ne_nil _ _, fun d hd' => ?_⟩
  rw [hr, hk, ← Option.some.inj (hd.symm.trans hd')]; rfl

theorem Field.Fresh.mono {h h' : Heap} {x : Field} (hx : x.Fresh h) (hn : h.next ≤ h'.next)
    (hm : ∀ r, r < h.next → h'.maps r = h.maps r) : x.Fresh h' := by
  obtain ⟨t, r, hd, hr, hlt, hk⟩ := hx
  exact ⟨t, r, hd, hr, by omega, by rw [Heap.keys_some, hm r hlt, ← Heap.keys_some, hk]⟩

/-- The invariant of a per-object schema under construction: every entry owns a fresh map allocated below `next`. -/
structure Built (h : Heap) (f : Fields) : Prop where
  below : ∀ n r, refAt f.entries n = some r → r < h.next
  owned : ∀ n m r, refAt f.entries n = some r → refAt f.entries m = some r → n = m
  fresh : ∀ n x, f.lookup n = some x → x.Fresh h

theorem built_empty (h : Heap) : Built h ∅ :=
  ⟨fun _ _ h => (by cases h), fun _ _ _ h => (by cases h), fun _ _ h => (by cases h)⟩

/-- One `NewFieldWithSQLType` put into the schema keeps it built. -/
theorem Built.insert {h : Heap} {f : Fields} (hf : Built h f) (n : String) (t : DataType)
    (s : Option SQLTypeSuggestion) :
    Built (newFieldWithSQLType h t s).1 (f.insert n (newFieldWithSQLType h t s).2) := by
  simp only [newFieldWithSQLType_fst, newFieldWithSQLType_snd]
  have hm : ∀ r, r < h.next → (h.alloc (OccMap.single t)).2.maps r = h.maps r := fun r hr => by
    rw [Heap.alloc_maps, if_neg (Nat.ne_of_lt hr)]
  refine ⟨fun m r hr => ?_, fun m k r h₁ h₂ => ?_, fun m x hx => ?_⟩
  · rw [refAt_insert] at hr
    split_ifs at hr
    · cases hr; simp
    · have := hf.below m r hr; simp; omega
  · rw [refAt_insert] at h₁ h₂
    split_ifs at h₁ h₂ with e₁ e₂ e₂
    · exact e₁.trans e₂.symm
    · cases h₁; exact absurd (hf.below k _ h₂) (Nat.lt_irrefl _)
    · cases h₂; exact absurd (hf.below m _ h₁) (Nat.lt_irrefl _)
    · exact hf.owned m k r h₁ h₂
  · rw [lookup_insert_entries] at hx
    split_ifs at hx
    · cases hx
      exact ⟨t, h.next, rfl, rfl, by simp, by simp [Heap.alloc_maps, OccMap.single]⟩
    · exact (hf.fresh m x hx).mono (by simp) hm

/-- Building a per-object schema allocates one fresh map per field past the allocated ones, which are untouched. -/
theorem buildFields_spec (cs : ObjectFields) : ∀ {h : Heap} {f : Fields}, Built h f →
    h.next ≤ (buildFields h f cs).1.next ∧ (∀ r, r < h.next → (buildFields h f cs).1.maps r = h.maps r) ∧
    (∀ n r, refAt (buildFields h f cs).2.entries n = some r → refAt f.entries n = some r ∨ h.next ≤ r) ∧
    Built (buildFields h f cs).1 (buildFields h f cs).2 := by
  induction cs with
  | nil => intro h f hf; exact ⟨le_rfl, fun _ _ => rfl, fun _ _ hr => .inl hr, hf⟩
  | cons c cs ih =>
    obtain ⟨n, t, s⟩ := c
    intro h f hf
    obtain ⟨hnext, hframe, hrefs, hbuilt⟩ := ih (hf.insert n t s)
    simp only [buildFields, newFieldWithSQLType_fst, Heap.alloc_next] at hnext hframe hrefs hbuilt ⊢
    refine ⟨by omega, fun r hr => ?_, fun m r hr => ?_, hbuilt⟩
    · rw [hframe r (by omega), Heap.alloc_maps, if_neg (Nat.ne_of_lt hr)]
    · rcases hrefs m r hr with hr | hr
      · rw [refAt_insert] at hr
        split_ifs at hr
        · cases hr; exact .inr le_rfl
        · exact .inl hr
      · exact .inr (by omega)

/-- **The per-object schemas of a batch** own their occurrence maps, which are allocated past the initial ones, and
each of their fields has its type as its one occurrence. -/
theorem buildBatch_spec (os : List ObjectFields) : ∀ {h : Heap},
    h.next ≤ (buildBatch h os).1.next ∧ (∀ r, r < h.next → (buildBatch h os).1.maps r = h.maps r) ∧
    Owned (buildBatch h os).2 ∧ (∀ g ∈ (buildBatch h os).2, ∀ n r, refAt g.entries n = some r → h.next ≤ r) ∧
    ∀ g ∈ (buildBatch h os).2, ∀ n x, g.lookup n = some x → x.Fresh (buildBatch h os).1 := by
  induction os with
  | nil => intro h; exact ⟨le_rfl, fun _ _ => rfl, ⟨fun _ h => (by cases h), .nil⟩, fun _ h => (by cases h),
      fun _ h => (by cases h)⟩
  | cons o os ih =>
    intro h
    obtain ⟨hn₁, hm₁, hr₁, hb₁⟩ := buildFields_spec o (built_empty h)
    obtain ⟨hn, hm, ho, hr, hf⟩ := ih (h := (buildFields h ∅ o).1)
    simp only [buildBatch, List.mem_cons, forall_eq_or_imp]
    refine ⟨by omega, fun r hr' => by rw [hm r (by omega), hm₁ r hr'], ⟨?_, ?_⟩,
      ⟨fun n r h' => ?_, fun g hg n r h' => ?_⟩,
      ⟨fun n x hx => (hb₁.fresh n x hx).mono hn hm, hf⟩⟩
    · simp only [List.mem_cons, forall_eq_or_imp]
      exact ⟨hb₁.owned, ho.within⟩
    · exact List.pairwise_cons.2 ⟨fun g hg n m r h₁ h₂ => absurd (hr g hg m r h₂) (by have := hb₁.below n r h₁; omega),
        ho.across⟩
    · exact (hr₁ n r h').resolve_left (by simp [refAt])
    · have := hr g hg n r h'; omega

/-! ## Order independence -/

/-- **Batch schema inference does not depend on object order.** Folding the per-object schemas of a batch with
`Fields.Merge` in their order or in any other never panics, and both folds give the same names and the same
occurrences at every name; for a commutative, associative and idempotent join they give the same `GetType`. -/
theorem batch_merge_order_independent {h₀ h : Heap} {objs : List ObjectFields} {gs gs' : List Fields}
    (hb : buildBatch h₀ objs = (h, gs)) (hp : gs'.Perm gs) :
    ∃ h₁ f₁ h₂ f₂, mergeBatch h ∅ gs = some (h₁, f₁) ∧ mergeBatch h ∅ gs' = some (h₂, f₂) ∧
      (∀ n, n ∈ f₁ ↔ n ∈ f₂) ∧ (∀ n t, t ∈ occAt h₁ f₁ n ↔ t ∈ occAt h₂ f₂ n) ∧
      ∀ join, (∀ a b, join a b = join b a) → (∀ a b c, join (join a b) c = join a (join b c)) →
        (∀ a, join a a = a) → ∀ n, (f₁.lookup n).map (·.getType join h₁) = (f₂.lookup n).map (·.getType join h₂) := by
  obtain ⟨-, -, hown, -, hfresh⟩ := buildBatch_spec objs (h := h₀)
  rw [hb] at hown hfresh
  have hmem : ∀ l : List Fields, l.Perm gs → ∀ {f}, f ∈ (∅ : Fields) :: l → f = ∅ ∨ f ∈ gs := fun l p f hf =>
    (List.mem_cons.1 hf).imp_right p.mem_iff.1
  have hnn : ∀ l : List Fields, l.Perm gs → ∀ f ∈ (∅ : Fields) :: l, NonNil f.entries := fun l p f hf n x hx => by
    rcases hmem l p hf with rfl | hf
    · cases hx
    · obtain ⟨t, r, -, hr, -⟩ := hfresh f hf n x hx
      simp [hr]
  have hwf : ∀ join, ∀ l : List Fields, l.Perm gs → ∀ f ∈ (∅ : Fields) :: l, ∀ n x, f.lookup n = some x →
      x.WF join h := fun join l p f hf n x hx => by
    rcases hmem l p hf with rfl | hf
    · cases hx
    · exact (hfresh f hf n x hx).wf
  obtain ⟨h₁, f₁, hr₁, -, hn₁, ho₁, hw₁⟩ := mergeBatch_spec gs (h := h) hown.cons_empty (hnn gs (.refl _))
  obtain ⟨h₂, f₂, hr₂, -, hn₂, ho₂, hw₂⟩ := mergeBatch_spec gs' (h := h) (hown.perm hp.symm).cons_empty (hnn gs' hp)
  have hsame : ∀ {P : Fields → Prop}, (∃ g ∈ (∅ : Fields) :: gs, P g) ↔ ∃ g ∈ (∅ : Fields) :: gs', P g :=
    exists_congr fun g => and_congr_left' ((hp.cons _).mem_iff.symm)
  have hnames : ∀ n, n ∈ f₁ ↔ n ∈ f₂ := fun n => by rw [hn₁, hn₂, hsame]
  have hocc : ∀ n t, t ∈ occAt h₁ f₁ n ↔ t ∈ occAt h₂ f₂ n := fun n t => by rw [ho₁, ho₂, hsame]
  refine ⟨h₁, f₁, h₂, f₂, hr₁, hr₂, hnames, hocc, fun join hc ha hi n => ?_⟩
  cases hx₁ : f₁.lookup n with
  | none => rw [AList.lookup_eq_none.2 ((not_congr (hnames n)).1 (AList.lookup_eq_none.1 hx₁))]; rfl
  | some x₁ =>
    obtain ⟨x₂, hx₂⟩ := Option.isSome_iff_exists.1
      (AList.lookup_isSome.2 ((hnames n).1 (AList.lookup_isSome.1 (by rw [hx₁]; rfl))))
    have e₁ := getType_of_WF (hw₁ join (hwf join gs (.refl _)) n x₁ hx₁)
    have e₂ := getType_of_WF (hw₂ join (hwf join gs' hp) n x₂ hx₂)
    have hk : ∀ t, t ∈ h₁.keys x₁.typeOccurrence ↔ t ∈ h₂.keys x₂.typeOccurrence := fun t => by
      rw [← occAt_of_lookup hx₁, ← occAt_of_lookup hx₂]; exact hocc n t
    rw [joinAll_congr hc ha hi hk, e₂] at e₁
    rw [hx₂]; exact congrArg some (Option.some.inj e₁).symm

/-- Two objects that type `a` differently: `{a: int64}` and `{a: bool, b: string}`. -/
def pairBatch : List ObjectFields := [[("a", .int64, none)], [("a", .bool, none), ("b", .string, none)]]

theorem batch_merge_order_independent_pair :
    ∃ h₁ f₁ h₂ f₂,
      mergeBatch (buildBatch Heap.empty pairBatch).1 ∅ (buildBatch Heap.empty pairBatch).2 = some (h₁, f₁) ∧
      mergeBatch (buildBatch Heap.empty pairBatch).1 ∅ (buildBatch Heap.empty pairBatch).2.reverse = some (h₂, f₂) ∧
      (∀ n, n ∈ f₁ ↔ n ∈ f₂) ∧ (∀ n t, t ∈ occAt h₁ f₁ n ↔ t ∈ occAt h₂ f₂ n) ∧
      ∀ join, (∀ a b, join a b = join b a) → (∀ a b c, join (join a b) c = join a (join b c)) →
        (∀ a, join a a = a) → ∀ n, (f₁.lookup n).map (·.getType join h₁) = (f₂.lookup n).map (·.getType join h₂) :=
  batch_merge_order_independent rfl (List.reverse_perm _)

end Bulker.Types
