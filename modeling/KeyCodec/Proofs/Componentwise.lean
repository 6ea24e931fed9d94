import KeyCodec.Proofs.Conformance
import KeyCodec.Proofs.Tables
import Mathlib.Data.List.Nodup

/-!
# Models are checked key by key

Every check of a model conforms to the layout of its input.  The claim goes up the schema: a key
position conforms because its codec is regular, the fields, items and entries above it are branches.
-/

namespace KeyCodec

/-! ### Key positions -/

namespace KeySlot

variable {slot : KeySlot}

theorem verdict_check (slot : KeySlot) (drains : Drains) (s : Source) :
    (slot.check drains s).verdict =
      KeyPosition.verdict ⟨[], slot, drains.current s.toValue⟩ := by
  cases hadmits : slot.type.admits (drains.current s.toValue) with
  | true => rw [check_of_admits hadmits, KeyPosition.verdict, if_pos hadmits, Step.verdict_of]
  | false => simp [check_of_not_admits hadmits, KeyPosition.verdict, hadmits]

theorem drains_note {drains : Drains} {s : Source} {unread : List Value} {id : Nat}
    (h : id ∈ (drains.note (drains.current s.toValue) unread).map Prod.fst) :
    id ∈ drains.map Prod.fst ∨ id ∈ s.streamId?.toList := by
  cases s with
  | parsed j => cases j <;> exact Or.inl h
  | held v =>
      cases v with
      | stream other derived items =>
          rcases List.mem_cons.mp h with rfl | hid
          · exact Or.inr (by simp [Source.streamId?])
          · exact Or.inl hid
      | _ => exact Or.inl h

theorem drains_check {drains : Drains} {s : Source} {id : Nat}
    (h : id ∈ (slot.check drains s).drains.map Prod.fst) :
    id ∈ drains.map Prod.fst ∨ id ∈ s.streamId?.toList := by
  cases hadmits : slot.type.admits (drains.current s.toValue) with
  | true =>
      rw [check_of_admits hadmits] at h
      exact Or.inl h
  | false =>
      rw [check_of_not_admits hadmits] at h
      cases hreads : slot.readsStreams with
      | true =>
          simp only [drainsAfter, hreads, if_true] at h
          exact drains_note h
      | false =>
          simp only [drainsAfter, hreads, Bool.false_eq_true, if_false] at h
          exact Or.inl h

theorem drains_check_of_quiet (h : slot.readsStreams = false) (drains : Drains) (s : Source) :
    (slot.check drains s).drains = drains := by
  cases hadmits : slot.type.admits (drains.current s.toValue) with
  | true =>
      rw [check_of_admits hadmits]
      rfl
  | false =>
      rw [check_of_not_admits hadmits]
      simp [drainsAfter, h]

theorem check_conforms (hslot : slot.IsRegular) (drains : Drains) (s : Source) :
    (slot.check drains s).Conforms (fun v path => v.at? path) (slot.layout s) drains := by
  have hsettled : (slot.check drains s).verdict.IsSettled := by
    rw [verdict_check]
    exact KeyPosition.isSettled_verdict hslot
  refine ⟨[⟨[], slot, drains.current s.toValue⟩], ⟨?_, ?_, ?_, ?_⟩, hsettled, ?_, ?_, ?_⟩
  · exact .cons ⟨rfl, rfl, drains, rfl⟩ .nil
  · rw [List.forall_mem_singleton]
    exact hslot
  · exact fun id => drains_check
  · intro _ hapart
    rw [Drains.current_of_not_mem hapart]
    rfl
  · rw [List.forall_mem_singleton, verdict_check]
    exact (and_iff_right trivial).symm
  · rw [List.forall_mem_singleton, verdict_check, Row.below_nil]
  · intro key hkey
    rw [List.forall_mem_singleton]
    rw [verdict_check] at hkey
    exact ⟨key, hkey, rfl⟩

end KeySlot

/-! ### Schemas -/

namespace Schema

variable {Slot : Type} {schema : Schema Slot} {slotCheck : Slot → Drains → Source → Step Value}
  {slotLayout : Slot → Source → Layout}

theorem checkValue_conforms {entries : List (Value × Source)} {f : SchemaField Slot}
    {drains : Drains}
    (h : ∀ s, Source.named? entries f.name = some s →
      (slotCheck f.slot drains s).Conforms (fun v path => v.at? path) (slotLayout f.slot s)
        drains) :
    (checkValue slotCheck entries f drains).Conforms (fun v path => v.at? path)
      (fieldLayout slotLayout entries f) drains := by
  unfold checkValue fieldLayout
  cases hnamed : Source.named? entries f.name with
  | some s => exact h s hnamed
  | none =>
      cases f.default? with
      | some v => exact Step.conforms_done drains v
      | none => exact Step.conforms_blank drains (List.cons_ne_nil _ _)

/-- A field of an instance is the part of its values that is led to by the field's name. -/
theorem at?_zip_fields (id : Option Nat) (name field : String) (names : List String)
    (vs : List Value) (path : List PathItem) :
    (Value.model id name (names.zip vs)).at? (.name field :: path) =
      Step.branchPart (names.map .name) vs (.name field :: path) := by
  simp only [Value.at?, Value.child?, Step.branchPart]
  congr 1
  induction names generalizing vs with
  | nil => rfl
  | cons first names ih =>
      cases vs with
      | nil => rfl
      | cons v vs =>
          by_cases hfirst : first = field
          · simp [hfirst]
          · simpa [hfirst] using ih vs

/-- The rows about undeclared entries are rows about none of the fields. -/
theorem below_extras {entries : List (Value × Source)} (htext : Source.HasTextKeys entries)
    {f : SchemaField Slot} (hf : f ∈ schema.fields) (path : List PathItem) :
    Row.below (.name f.name :: path) (schema.extras entries) = [] := by
  apply Row.below_eq_nil
  intro row hrow heq
  obtain ⟨names, hnames, -⟩ := htext
  obtain ⟨⟨k, s⟩, hentry, hextra⟩ := List.mem_filterMap.mp hrow
  have hk : k ∈ names.map Value.text := hnames ▸ List.mem_map_of_mem hentry
  obtain ⟨name, -, rfl⟩ := List.mem_map.mp hk
  cases hdeclares : schema.declares name with
  | true => simp [hdeclares] at hextra
  | false =>
      simp only [hdeclares, Bool.false_eq_true, if_false, Option.some.injEq] at hextra
      subst hextra
      simp only [List.head?_cons, Option.some.injEq, PathItem.name.injEq] at heq
      subst heq
      simp only [declares, List.any_eq_false, beq_iff_eq] at hdeclares
      exact hdeclares f hf rfl

theorem extras_eq_nil_iff {entries : List (Value × Source)} (htext : Source.HasTextKeys entries) :
    schema.extras entries = [] ↔
      ∀ entry ∈ entries, ∃ f ∈ schema.fields, entry.1 = .text f.name := by
  obtain ⟨names, hnames, -⟩ := htext
  rw [extras, List.filterMap_eq_nil_iff]
  refine forall₂_congr fun entry hentry => ?_
  obtain ⟨k, s⟩ := entry
  have hk : k ∈ names.map Value.text := hnames ▸ List.mem_map_of_mem hentry
  obtain ⟨name, -, rfl⟩ := List.mem_map.mp hk
  simp only [Value.text.injEq, ite_eq_left_iff, reduceCtorEq, imp_false, Classical.not_not,
    declares, List.any_eq_true, beq_iff_eq]
  exact exists_congr fun f => and_congr_right fun _ => eq_comm

theorem exists_name_of_mem_fields {entries : List (Value × Source)} {pos : KeyPosition}
    (h : pos ∈ (Layout.all (schema.fields.map fun f =>
      (.name f.name, fieldLayout slotLayout entries f))).positions) :
    ∃ f ∈ schema.fields, ∃ path, pos.path = .name f.name :: path := by
  obtain ⟨part, hpart, inner, -, rfl⟩ := Layout.exists_of_mem_all h
  obtain ⟨f, hf, rfl⟩ := List.mem_map.mp hpart
  exact ⟨f, hf, inner.path, rfl⟩

/-- The fields of a table are a branch.  What is left over comes behind it and holds no position. -/
theorem checkFields_conforms {drains : Drains} {entries : List (Value × Source)}
    (hnames : (schema.fields.map (·.name)).Nodup) (htext : Source.HasTextKeys entries)
    (hfields : Step.PartsConform
      (schema.fields.map fun f => (.name f.name, checkValue slotCheck entries f))
      (schema.fields.map fun f => (.name f.name, fieldLayout slotLayout entries f)) drains) :
    (((checkFields slotCheck entries schema.fields drains).andThen (fun fields _ => fields)
      fun drains => Step.of drains (.ofRows (schema.extras entries))).map
        (Value.model none schema.name)).Conforms (fun v path => v.at? path)
      ((Layout.all (schema.fields.map fun f =>
        (.name f.name, fieldLayout slotLayout entries f))).both
          ⟨[], [], ∀ entry ∈ entries, ∃ f ∈ schema.fields, entry.1 = .text f.name,
            Source.HasTextKeys entries⟩) drains := by
  have hitems : (schema.fields.map fun f => (PathItem.name f.name,
      checkValue slotCheck entries f)).map Prod.fst =
        (schema.fields.map (·.name)).map .name := by
    simp [Function.comp_def]
  have hnodup : ((schema.fields.map (·.name)).map PathItem.name).Nodup :=
    List.Nodup.map (fun _ _ => PathItem.name.inj) hnames
  have hbranch := hfields.branch (hitems ▸ hnodup)
  rw [hitems] at hbranch
  rw [checkFields_eq_branch, Step.map_andThen, Step.andThen_of_map]
  have hdeclared : schema.extras entries = [] ↔
      ∀ entry ∈ entries, ∃ f ∈ schema.fields, entry.1 = .text f.name := extras_eq_nil_iff htext
  have hextras := fun drains =>
    Step.conforms_ofRows drains hdeclared (Source.HasTextKeys entries) fun _ _ => none
  refine hbranch.andThen (hextras _) ?_ ?_ ?_ ?_
  · intro pos hpos
    obtain ⟨f, hf, path, hpath⟩ := exists_name_of_mem_fields hpos
    rw [hpath, Step.verdict_of, Verdict.rows_ofRows, below_extras htext hf]
  · intro pos hpos
    cases hpos
  · intro vs _ pos hpos
    obtain ⟨f, -, path, hpath⟩ := exists_name_of_mem_fields hpos
    rw [hpath]
    exact at?_zip_fields none schema.name f.name _ vs path
  · intro _ _ _ pos hpos
    cases hpos

/-- A schema whose fields conform, each at its turn, conforms. -/
theorem check_conforms {drains : Drains} {s : Source} (hnames : (schema.fields.map (·.name)).Nodup)
    (htextual : (schema.layout slotLayout s).textual)
    (hfields : ∀ entries, s.members? = some entries →
      (∀ f ∈ schema.fields, (fieldLayout slotLayout entries f).textual) →
      Step.PartsConform (schema.fields.map fun f => (.name f.name, checkValue slotCheck entries f))
        (schema.fields.map fun f => (.name f.name, fieldLayout slotLayout entries f)) drains) :
    (Schema.check slotCheck schema drains s).Conforms (fun v path => v.at? path)
      (schema.layout slotLayout s) drains := by
  cases hinstance : schema.isInstance s.toValue with
  | true =>
      rw [check_of_isInstance hinstance, layout, if_pos hinstance]
      exact Step.conforms_done drains _
  | false =>
      cases hmembers : s.members? with
      | none =>
          rw [check_of_no_members hinstance hmembers]
          simp only [layout, hinstance, hmembers, Bool.false_eq_true, if_false]
          exact Step.conforms_blank drains (List.cons_ne_nil _ _)
      | some entries =>
          rw [check_of_members hmembers]
          simp only [layout, hinstance, hmembers, Bool.false_eq_true, if_false] at htextual ⊢
          obtain ⟨htextualFields, htext⟩ := htextual
          rw [Layout.textual_all, List.forall_mem_map] at htextualFields
          rw [← Layout.both_no_positions]
          exact checkFields_conforms hnames htext (hfields entries hmembers htextualFields)

end Schema

/-! ### Regular models -/

structure KeyForm.IsRegular (form : KeyForm) : Prop where
  names : (form.fields.map (·.name)).Nodup
  slots : ∀ f ∈ form.fields, f.slot.IsRegular

namespace Slot

def IsRegular : Slot → Prop
  | key slot => slot.IsRegular
  | optionalKey slot => slot.IsRegular
  | forms form => form.IsRegular
  | keyTable slot => slot.IsRegular

def IsQuiet : Slot → Prop
  | key slot => slot.readsStreams = false
  | optionalKey slot => slot.readsStreams = false
  | _ => False

/-- The field takes its keys from places that can be told before anything is read. -/
def IsLate : Slot → Prop
  | forms _ => False
  | _ => True

end Slot

/-- The fields of a model have distinct names, their codecs are regular, and whatever precedes a
list leaves the streams as they are. -/
structure Model.IsRegular (model : Model) : Prop where
  names : (model.fields.map (·.name)).Nodup
  slots : ∀ f ∈ model.fields, f.slot.IsRegular
  order : model.fields.Pairwise fun f g => f.slot.IsQuiet ∨ g.slot.IsLate

theorem KeyForm.check_conforms {form : KeyForm} (hform : form.IsRegular) {s : Source}
    (htextual : (form.layout s).textual) (drains : Drains) :
    (form.check drains s).Conforms (fun v path => v.at? path) (form.layout s) drains := by
  apply Schema.check_conforms hform.names htextual
  intro entries _ _
  apply Step.PartsConform.of_forall
  intro f hf drains
  apply Schema.checkValue_conforms
  intro s _
  exact KeySlot.check_conforms (hform.slots f hf) drains s

/-! ### Lists and tables of keys -/

theorem Step.branchPart_index {items : List Source} {i j : Nat} (h : j < items.length)
    (vs : List Value) (path : List PathItem) :
    branchPart ((items.zipIdx i).map fun (_, k) => .index k) vs
      (.index ((i + j : Nat) : Int) :: path) = (vs[j]?).bind (Value.at? path) := by
  simp only [branchPart]
  congr 1
  induction items generalizing i j vs with
  | nil => cases h
  | cons item rest ih =>
      cases vs with
      | nil => simp
      | cons v vs =>
          cases j with
          | zero => simp
          | succ j =>
              have hne : (PathItem.index (i : Int) == .index ((i : Int) + 1 + j)) = false := by
                rw [beq_eq_false_iff_ne, Ne, PathItem.index.injEq]
                omega
              have hmove : i + (j + 1) = i + 1 + j := by omega
              have htail := @ih (i + 1) j (Nat.lt_of_succ_lt_succ h) vs
              simpa [List.zipIdx_cons, List.find?_cons, hne, hmove] using htail

/-- An entry of a table is the part of its values that is led to by the entry's name. -/
theorem Value.at?_zip_texts (names : List String) (vs : List Value) (name : String)
    (path : List PathItem) :
    (Value.table ((names.map .text).zip vs)).at? (.name name :: path) =
      Step.branchPart (names.map .name) vs (.name name :: path) := by
  simp only [at?, child?, Step.branchPart, find?]
  congr 1
  induction names generalizing vs with
  | nil => rfl
  | cons first names ih =>
      cases vs with
      | nil => rfl
      | cons v vs =>
          by_cases hfirst : first = name
          · simp [hfirst]
          · simpa [hfirst] using ih vs

namespace Slot

theorem exists_index_of_mem_items {form : KeyForm} {items : List Source} {pos : KeyPosition}
    (h : pos ∈ (Layout.all (items.zipIdx.map fun (item, i) =>
      (.index i, form.layout item))).positions) :
    ∃ i < items.length, ∃ path, pos.path = .index (i : Int) :: path := by
  obtain ⟨part, hpart, inner, -, rfl⟩ := Layout.exists_of_mem_all h
  obtain ⟨⟨item, i⟩, hitem, rfl⟩ := List.mem_map.mp hpart
  have hi := List.mem_zipIdx hitem
  exact ⟨i, by omega, inner.path, rfl⟩

theorem checkItems_conforms {form : KeyForm} (hform : form.IsRegular) {items : List Source}
    (htextual : (Layout.all (items.zipIdx.map fun (item, i) =>
      (.index i, form.layout item))).textual) (drains : Drains) :
    ((checkItems form.check 0 items drains).map Value.list).Conforms (fun v path => v.at? path)
      (Layout.all (items.zipIdx.map fun (item, i) => (.index i, form.layout item))) drains := by
  have hparts : Step.PartsConform
      (items.zipIdx.map fun (item, i) => (.index i, fun drains => form.check drains item))
      (items.zipIdx.map fun (item, i) => (.index i, form.layout item)) drains := by
    rw [Layout.textual_all, List.forall_mem_map] at htextual
    apply Step.PartsConform.of_forall
    intro part hpart drains
    exact KeyForm.check_conforms hform (htextual part hpart) drains
  have hitems : (items.zipIdx.map fun (item, i) => (PathItem.index i,
      fun drains => form.check drains item)).map Prod.fst =
        items.zipIdx.map fun (_, i) => .index i := by
    simp [Function.comp_def]
  have hnodup : (items.zipIdx.map fun (_, i) => PathItem.index i).Nodup := by
    have hindexes : (items.zipIdx.map Prod.snd).Nodup := by
      rw [List.zipIdx_map_snd]
      exact List.nodup_range'
    have hinjective : Function.Injective fun i : Nat => PathItem.index i :=
      fun _ _ h => Int.ofNat.inj (PathItem.index.inj h)
    have hmap := List.Nodup.map hinjective hindexes
    rwa [List.map_map] at hmap
  have hbranch := hparts.branch (hitems ▸ hnodup)
  rw [hitems] at hbranch
  rw [checkItems_eq_branch]
  apply hbranch.map
  intro vs _ pos hpos
  obtain ⟨i, hi, path, hpath⟩ := exists_index_of_mem_items hpos
  have hpart := @Step.branchPart_index items 0 i hi vs path
  rw [Nat.zero_add] at hpart
  rw [hpath, hpart]
  simp [Value.at?, Value.child?]

/-- A list whose items have been read counts as read to its end from then on. -/
theorem conforms_of_exhaust {get : Value → List PathItem → Option Value} {layout : Layout}
    {s : Source} {step : Step Value} (h : step.Conforms get layout (s.exhaust [])) :
    step.Conforms get { layout with streams := s.streamId?.toList ++ layout.streams } [] := by
  obtain ⟨met, hmet, hproduct⟩ := h
  have hids : (s.exhaust []).map Prod.fst = s.streamId?.toList := by
    unfold Source.exhaust
    cases s.streamId? <;> rfl
  refine ⟨met, ⟨hmet.remains, hmet.regular, ?_, ?_⟩, hproduct⟩
  · intro id hid
    rw [List.mem_append, ← hids]
    exact Or.inr (hmet.reads id hid)
  · intro hnodup _
    obtain ⟨-, hinside, hdisjoint⟩ := List.nodup_append.mp hnodup
    apply hmet.untouched hinside
    intro id hid hread
    rw [hids] at hread
    exact hdisjoint id hread id hid rfl

theorem forms_conforms {form : KeyForm} (hform : form.IsRegular) {s : Source}
    (htextual : ((forms form).layout s).textual) :
    ((forms form).check [] s).Conforms (fun v path => v.at? path) ((forms form).layout s) [] := by
  cases hsequence : s.sequence? with
  | none =>
      rw [check_forms_of_none hsequence]
      simp only [layout, hsequence]
      exact Step.conforms_blank [] (List.cons_ne_nil _ _)
  | some items =>
      have hspent : s.spent [] items.length = 0 := by
        unfold Source.spent
        cases s.streamId? <;> simp [Drains.left]
      rw [check_forms_of_sequence hsequence, hspent, List.drop_zero]
      simp only [layout, hsequence] at htextual ⊢
      exact conforms_of_exhaust (checkItems_conforms hform htextual _)

theorem keyTable_conforms {slot : KeySlot} (hslot : slot.IsRegular) {s : Source}
    (htextual : ((keyTable slot).layout s).textual) (drains : Drains) :
    ((keyTable slot).check drains s).Conforms (fun v path => v.at? path)
      ((keyTable slot).layout s) drains := by
  cases hentries : s.entries? with
  | none =>
      rw [check_keyTable_of_none hentries]
      simp only [layout, hentries]
      exact Step.conforms_blank drains (List.cons_ne_nil _ _)
  | some entries =>
      rw [check_keyTable_of_entries hentries]
      simp only [layout, hentries] at htextual ⊢
      obtain ⟨-, names, hnames, hdistinct⟩ := htextual
      have hparts : Step.PartsConform
          (entries.map fun entry =>
            (PathItem.ofKey entry.1, fun drains => slot.check drains entry.2))
          (entries.map fun entry => (PathItem.ofKey entry.1, slot.layout entry.2)) drains := by
        apply Step.PartsConform.of_forall
        intro entry _ drains
        exact KeySlot.check_conforms hslot drains entry.2
      have hitems : (entries.map fun entry => (PathItem.ofKey entry.1,
          fun drains => slot.check drains entry.2)).map Prod.fst = names.map .name := by
        have hkeys : (entries.map Prod.fst).map PathItem.ofKey = names.map .name := by
          rw [hnames, List.map_map]
          rfl
        simpa [Function.comp_def] using hkeys
      have hnodup : (names.map PathItem.name).Nodup :=
        List.Nodup.map (fun _ _ => PathItem.name.inj) hdistinct
      have hbranch := hparts.branch (hitems ▸ hnodup)
      rw [hitems] at hbranch
      rw [checkEntries_eq_branch _ hnames, Step.map_map]
      refine Step.Conforms.of_textual (hbranch.map ?_) _
      intro vs _ pos hpos
      obtain ⟨part, hpart, inner, -, rfl⟩ := Layout.exists_of_mem_all hpos
      obtain ⟨entry, hentry, rfl⟩ := List.mem_map.mp hpart
      have hkey : entry.1 ∈ names.map Value.text := hnames ▸ List.mem_map_of_mem hentry
      obtain ⟨name, -, hname⟩ := List.mem_map.mp hkey
      have htable : Value.tableOf ((names.map Value.text).zip vs) =
          .table ((names.map Value.text).zip vs) :=
        Value.tableOf_of_distinctKeys (Value.distinctKeys_zip_texts hdistinct vs)
      simp only [Function.comp_apply, htable, KeyPosition.under, ← hname, PathItem.ofKey]
      exact Value.at?_zip_texts names vs name inner.path

/-! ### Models -/

theorem check_conforms {slot : Slot} (hslot : slot.IsRegular) {drains : Drains}
    (hdrains : drains = [] ∨ slot.IsLate) {s : Source} (htextual : (slot.layout s).textual) :
    (slot.check drains s).Conforms (fun v path => v.at? path) (slot.layout s) drains := by
  cases slot with
  | key slot => exact KeySlot.check_conforms hslot drains s
  | optionalKey slot =>
      by_cases hnull : s.toValue = .null
      · rw [check_optionalKey_of_null hnull]
        simp only [layout, hnull]
        exact Step.conforms_done drains Value.null
      · rw [check_optionalKey_of_ne_null hnull, layout_optionalKey_of_ne_null hnull]
        exact KeySlot.check_conforms hslot drains s
  | forms form =>
      rcases hdrains with rfl | hlate
      · exact forms_conforms hslot htextual
      · exact hlate.elim
  | keyTable slot => exact keyTable_conforms hslot htextual drains

theorem drains_check_of_isQuiet {slot : Slot} (h : slot.IsQuiet) (drains : Drains) (s : Source) :
    (slot.check drains s).drains = drains := by
  cases slot with
  | key slot => exact KeySlot.drains_check_of_quiet h drains s
  | optionalKey slot =>
      by_cases hnull : s.toValue = .null
      · rw [check_optionalKey_of_null hnull]
        rfl
      · rw [check_optionalKey_of_ne_null hnull]
        exact KeySlot.drains_check_of_quiet h drains s
  | forms form => exact h.elim
  | keyTable slot => exact h.elim

end Slot

theorem Schema.drains_checkValue {check : Slot → Drains → Source → Step Value}
    {entries : List (Value × Source)} {f : SchemaField Slot}
    (h : ∀ drains s, (check f.slot drains s).drains = drains) (drains : Drains) :
    (checkValue check entries f drains).drains = drains := by
  unfold checkValue
  cases Source.named? entries f.name with
  | some s => exact h drains s
  | none => cases f.default? <;> rfl

/-- A regular model checks its input position by position. -/
theorem Model.check_conforms {model : Model} (hmodel : model.IsRegular) {s : Source}
    (htextual : (model.layout s).textual) :
    (model.check [] s).Conforms (fun v path => v.at? path) (model.layout s) [] := by
  apply Schema.check_conforms hmodel.names htextual
  intro entries _ htextualFields
  have hfield : ∀ f ∈ model.fields, ∀ drains : Drains, drains = [] ∨ f.slot.IsLate →
      (Schema.checkValue Slot.check entries f drains).Conforms (fun v path => v.at? path)
        (Schema.fieldLayout Slot.layout entries f) drains := by
    intro f hf drains hdrains
    apply Schema.checkValue_conforms
    intro s hs
    apply Slot.check_conforms (hmodel.slots f hf) hdrains
    have htextualField := htextualFields f hf
    rwa [Schema.fieldLayout, hs] at htextualField
  refine Step.PartsConform.of_pairwise ?_ ?_ ?_ hmodel.order
  · exact fun f hf => hfield f hf [] (Or.inl rfl)
  · exact fun f _ hquiet => Schema.drains_checkValue (Slot.drains_check_of_isQuiet hquiet) []
  · exact fun f hf hlate drains => hfield f hf drains (Or.inr hlate)

end KeyCodec
