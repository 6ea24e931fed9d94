import KeyCodec.Model.Catalog
import KeyCodec.Proofs.Sources
import KeyCodec.Proofs.Tables
import KeyCodec.Proofs.Trips
import KeyCodec.Proofs.Verdicts
import Mathlib.Data.List.Forall2

/-!
# What is accepted makes a trip

A check of a faithful model accepts nothing but instances that make a trip, provided that the keys
and the instances that it takes over as they are do.  So every instance that has been loaded makes
one, from whatever it was loaded: JSON text holds neither keys nor instances, and the instances in a
value were loaded before.
-/

namespace KeyCodec

/-! ### Parts of values -/

namespace Value

/-- What a value holds: the values of a table, and the items of everything else but texts and bytes.
-/
def contents : Value → List Value
  | .text _ | .bytes _ | .buffer _ => []
  | .table entries => entries.map Prod.snd
  | v => v.items?.getD []

/-- The first value is the second or stands somewhere in it. -/
inductive IsPart (u : Value) : Value → Prop
  | whole : IsPart u u
  | inside {v w : Value} (hw : w ∈ v.contents) (h : IsPart u w) : IsPart u v

theorem isPart_iff_of_no_contents {u v : Value} (hv : v.contents = []) : IsPart u v ↔ u = v := by
  constructor
  · intro h
    cases h with
    | whole => rfl
    | inside hw _ =>
        rw [hv] at hw
        cases hw
  · rintro rfl
    exact .whole

theorem isPart_text_iff {u : Value} {s : String} : IsPart u (.text s) ↔ u = .text s :=
  isPart_iff_of_no_contents rfl

theorem isPart_fakePublic_iff {u content : Value} :
    IsPart u (.fakePublic content) ↔ u = .fakePublic content :=
  isPart_iff_of_no_contents rfl

theorem isPart_list_iff {u : Value} {vs : List Value} :
    IsPart u (.list vs) ↔ u = .list vs ∨ ∃ w ∈ vs, IsPart u w := by
  constructor
  · intro h
    cases h with
    | whole => exact Or.inl rfl
    | inside hw h => exact Or.inr ⟨_, hw, h⟩
  · rintro (rfl | ⟨w, hw, h⟩)
    · exact .whole
    · exact .inside hw h

theorem isPart_table_iff {u : Value} {entries : List (Value × Value)} :
    IsPart u (.table entries) ↔ u = .table entries ∨ ∃ entry ∈ entries, IsPart u entry.2 := by
  constructor
  · intro h
    cases h with
    | whole => exact Or.inl rfl
    | inside hw h =>
        obtain ⟨entry, hentry, rfl⟩ := List.mem_map.mp hw
        exact Or.inr ⟨entry, hentry, h⟩
  · rintro (rfl | ⟨entry, hentry, h⟩)
    · exact .whole
    · exact .inside (List.mem_map_of_mem hentry) h

end Value

namespace Source

variable {P : Value → Prop} {s : Source}

/-- Everything in a held value has the property.  Parsed text passes as it is, since it holds
neither keys nor instances. -/
def Every (P : Value → Prop) : Source → Prop
  | held v => ∀ u, Value.IsPart u v → P u
  | parsed _ => True

theorem every_held_of_mem_contents {v w : Value} (h : (held v).Every P) (hw : w ∈ v.contents) :
    (held w).Every P :=
  fun u hu => h u (.inside hw hu)

theorem Every.sequence (h : s.Every P) {items : List Source}
    (hitems : s.sequence? = some items) : ∀ item ∈ items, item.Every P := by
  cases s with
  | held v =>
      obtain ⟨vs, hvs, rfl⟩ : ∃ vs, v.contents = vs ∧ items = vs.map held := by
        cases v with
        | _ => simp_all [sequence?, Value.contents, Value.items?]
      rw [List.forall_mem_map]
      exact fun w hw => every_held_of_mem_contents h (hvs ▸ hw)
  | parsed j =>
      cases j with
      | array js =>
          cases hitems
          rw [List.forall_mem_map]
          exact fun _ _ => trivial
      | _ => cases hitems

theorem Every.entries (h : s.Every P) {entries : List (Value × Source)}
    (hentries : s.entries? = some entries) : ∀ entry ∈ entries, entry.2.Every P := by
  cases s with
  | held v =>
      cases v with
      | table t =>
          cases hentries
          rw [List.forall_mem_map]
          intro entry hentry
          exact every_held_of_mem_contents h (List.mem_map_of_mem hentry)
      | _ => cases hentries
  | parsed j =>
      cases j with
      | object members =>
          cases hentries
          rw [List.forall_mem_map]
          exact fun _ _ => trivial
      | _ => cases hentries

theorem Every.members (h : s.Every P) {entries : List (Value × Source)}
    (hentries : s.members? = some entries) : ∀ entry ∈ entries, entry.2.Every P := by
  cases s with
  | held v => exact h.entries hentries
  | parsed j =>
      cases j with
      | object members => exact Every.entries (s := .parsed (.object _)) trivial hentries
      | _ => cases hentries

theorem mem_of_named? {entries : List (Value × Source)} {name : String} {item : Source}
    (h : named? entries name = some item) : ∃ entry ∈ entries, entry.2 = item := by
  obtain ⟨entry, hentry, rfl⟩ := Option.map_eq_some_iff.mp h
  exact ⟨entry, List.mem_of_find?_eq_some hentry, rfl⟩

end Source

/-! ### Sound sources -/

namespace Value

/-- The keys in the value are made of numbers, and the instances of faithful models in it make a
trip. -/
structure IsSound (faithful : Model → Prop) (v : Value) : Prop where
  keys : ∀ u, IsPart u v → ∀ type : KeyType, type.admits u = true → u.IsOfNumbers
  instances : ∀ model, faithful model → ∀ id fields, IsPart (.model id model.name fields) v →
    (Value.model id model.name fields).Makes model.IsTrip

end Value

namespace Source

variable {faithful : Model → Prop} {s : Source}

def IsSound (faithful : Model → Prop) : Source → Prop
  | held v => v.IsSound faithful
  | parsed _ => True

theorem isSound_iff_every :
    s.IsSound faithful ↔ s.Every fun u =>
      (∀ type : KeyType, type.admits u = true → u.IsOfNumbers) ∧
        ∀ model, faithful model → ∀ id fields, u = .model id model.name fields →
          (Value.model id model.name fields).Makes model.IsTrip := by
  cases s with
  | parsed j => exact Iff.rfl
  | held v =>
      constructor
      · rintro ⟨hkeys, hinstances⟩ u hu
        refine ⟨hkeys u hu, ?_⟩
        rintro model hmodel id fields rfl
        exact hinstances model hmodel id fields hu
      · intro h
        exact ⟨fun u hu => (h u hu).1,
          fun model hmodel id fields hu => (h _ hu).2 model hmodel id fields rfl⟩

theorem IsSound.sequence (h : s.IsSound faithful) {items : List Source}
    (hitems : s.sequence? = some items) : ∀ item ∈ items, item.IsSound faithful := by
  simp only [isSound_iff_every] at h ⊢
  exact h.sequence hitems

theorem IsSound.entries (h : s.IsSound faithful) {entries : List (Value × Source)}
    (hentries : s.entries? = some entries) : ∀ entry ∈ entries, entry.2.IsSound faithful := by
  simp only [isSound_iff_every] at h ⊢
  exact h.entries hentries

theorem IsSound.members (h : s.IsSound faithful) {entries : List (Value × Source)}
    (hentries : s.members? = some entries) : ∀ entry ∈ entries, entry.2.IsSound faithful := by
  simp only [isSound_iff_every] at h ⊢
  exact h.members hentries

theorem IsSound.named {entries : List (Value × Source)}
    (h : ∀ entry ∈ entries, entry.2.IsSound faithful) {name : String} {item : Source}
    (hitem : named? entries name = some item) : item.IsSound faithful := by
  obtain ⟨entry, hentry, rfl⟩ := mem_of_named? hitem
  exact h entry hentry

theorem IsSound.key (h : s.IsSound faithful) {type : KeyType} {drains : Drains}
    (hadmits : type.admits (drains.current s.toValue) = true) :
    (drains.current s.toValue).IsOfNumbers := by
  cases s with
  | held v =>
      cases v with
      | stream id derived unread => cases type <;> cases hadmits
      | _ => exact h.keys _ .whole type hadmits
  | parsed j => cases j <;> cases type <;> cases hadmits

theorem IsSound.makes (h : s.IsSound faithful) {model : Model} (hmodel : faithful model)
    {id : Option Nat} {fields : List (String × Value)}
    (hvalue : s.toValue = .model id model.name fields) :
    (Value.model id model.name fields).Makes model.IsTrip := by
  cases s with
  | held v =>
      obtain rfl : v = .model id model.name fields := hvalue
      exact h.instances model hmodel id fields .whole
  | parsed j => cases j <;> cases hvalue

end Source

/-! ### Loops of a check -/

theorem Slot.forall_of_checkItems {P : Value → Prop} {check : Drains → Source → Step Value}
    {items : List Source}
    (hcheck : ∀ item ∈ items, ∀ drains v, (check drains item).verdict = .accepted v → P v)
    {i : Nat} {drains : Drains} {vs : List Value}
    (h : (checkItems check i items drains).verdict = .accepted vs) : ∀ v ∈ vs, P v := by
  induction items generalizing i drains vs with
  | nil =>
      cases h
      simp
  | cons item items ih =>
      obtain ⟨hitem, hitems⟩ := List.forall_mem_cons.mp hcheck
      rw [checkItems, Step.verdict_andThen_eq_accepted_iff] at h
      obtain ⟨v, rest, hv, hrest, rfl⟩ := h
      rw [Step.verdict_under, Verdict.under_eq_accepted_iff] at hv
      exact List.forall_mem_cons.mpr ⟨hitem drains v hv, ih hitems hrest⟩

theorem Slot.exists_text_of_entryName {k name : Value} (h : entryName k = .accepted name) :
    ∃ s, name = .text s := by
  unfold entryName at h
  split at h
  · cases h
    exact ⟨_, rfl⟩
  · split at h
    · cases h
      exact ⟨_, rfl⟩
    · cases h
  · split at h
    · cases h
      exact ⟨_, rfl⟩
    · cases h
  · cases h

theorem Slot.forall_of_checkEntries {P : Value → Prop} {check : Drains → Source → Step Value}
    {entries : List (Value × Source)}
    (hcheck : ∀ entry ∈ entries, ∀ drains v, (check drains entry.2).verdict = .accepted v → P v)
    {drains : Drains} {table : List (Value × Value)}
    (h : (checkEntries check entries drains).verdict = .accepted table) :
    ∀ entry ∈ table, (∃ name, entry.1 = .text name) ∧ P entry.2 := by
  induction entries generalizing drains table with
  | nil =>
      cases h
      simp
  | cons entry entries ih =>
      obtain ⟨hentry, hentries⟩ := List.forall_mem_cons.mp hcheck
      rw [checkEntries, Step.verdict_andThen_eq_accepted_iff] at h
      obtain ⟨pair, rest, hpair, hrest, rfl⟩ := h
      rw [Step.verdict_andThen_eq_accepted_iff] at hpair
      obtain ⟨name, v, hname, hv, rfl⟩ := hpair
      rw [Step.verdict_under, Verdict.under_eq_accepted_iff] at hv
      exact List.forall_mem_cons.mpr
        ⟨⟨exists_text_of_entryName hname, hentry _ v hv⟩, ih hentries hrest⟩

/-! ### Trips of parts put together -/

theorem exists_trips {kind : Trip → Prop} {vs : List Value} (h : ∀ v ∈ vs, v.Makes kind) :
    ∃ items : List Trip, items.map Trip.held = vs ∧ ∀ item ∈ items, kind item := by
  induction vs with
  | nil => exact ⟨[], rfl, by simp⟩
  | cons v vs ih =>
      obtain ⟨⟨t, rfl, ht⟩, hvs⟩ := List.forall_mem_cons.mp h
      obtain ⟨items, rfl, hitems⟩ := ih hvs
      exact ⟨t :: items, rfl, List.forall_mem_cons.mpr ⟨ht, hitems⟩⟩

/-- Values under names that make trips make them under the same names.  The names are read off the
keys, so both lists are taken apart together. -/
theorem exists_named_trips {kind : Trip → Prop} {names : List String}
    {table : List (Value × Value)} (hkeys : table.map Prod.fst = names.map .text)
    (h : ∀ entry ∈ table, entry.2.Makes kind) :
    ∃ entries : List (String × Trip), entries.map Prod.fst = names ∧
      (entries.map fun entry => (.text entry.1, entry.2.held)) = table ∧
        ∀ entry ∈ entries, kind entry.2 := by
  induction table generalizing names with
  | nil =>
      obtain rfl := List.map_eq_nil_iff.mp hkeys.symm
      exact ⟨[], rfl, rfl, by simp⟩
  | cons entry rest ih =>
      cases names with
      | nil => cases hkeys
      | cons name names =>
          rw [List.map_cons, List.map_cons, List.cons.injEq] at hkeys
          obtain ⟨⟨t, hheld, ht⟩, hrest⟩ := List.forall_mem_cons.mp h
          obtain ⟨entries, rfl, rfl, hentries⟩ := ih hkeys.2 hrest
          have hentry : entry = (.text name, t.held) := Prod.ext hkeys.1 hheld.symm
          refine ⟨(name, t) :: entries, rfl, ?_, List.forall_mem_cons.mpr ⟨ht, hentries⟩⟩
          simp only [List.map_cons, hentry]

/-! ### Schemas -/

namespace Schema

variable {Slot : Type} {schema : Schema Slot} {slotTrip : Slot → Trip → Prop}
  {check : Slot → Drains → Source → Step Value}

/-- How a declared field comes by its value: something stands for it and is accepted, or it has a
default. -/
inductive Fills (check : Slot → Drains → Source → Step Value) (entries : List (Value × Source))
    (f : SchemaField Slot) : Value → Prop
  | given {item : Source} {drains : Drains} {v : Value}
      (hitem : Source.named? entries f.name = some item)
      (h : (check f.slot drains item).verdict = .accepted v) : Fills check entries f v
  | default {v : Value} (h : f.default? = some v) : Fills check entries f v

theorem fills_of_checkField {entries : List (Value × Source)} {f : SchemaField Slot}
    {drains : Drains} {v : Value}
    (h : (checkField check f drains (Source.named? entries f.name)).verdict = .accepted v) :
    Fills check entries f v := by
  cases hitem : Source.named? entries f.name with
  | some item =>
      rw [hitem, checkField, Step.verdict_under, Verdict.under_eq_accepted_iff] at h
      exact .given hitem h
  | none =>
      rw [hitem, checkField] at h
      split at h
      · next v hdefault =>
        cases h
        exact .default hdefault
      · cases h

theorem forall_fills_of_checkFields {entries : List (Value × Source)}
    {fields : List (SchemaField Slot)} {drains : Drains} {values : List (String × Value)}
    (h : (checkFields check entries fields drains).verdict = .accepted values) :
    List.Forall₂ (fun f entry => entry.1 = f.name ∧ Fills check entries f entry.2) fields
      values := by
  induction fields generalizing drains values with
  | nil =>
      cases h
      exact .nil
  | cons f fields ih =>
      rw [checkFields, Step.verdict_andThen_eq_accepted_iff] at h
      obtain ⟨v, rest, hv, hrest, rfl⟩ := h
      exact .cons ⟨rfl, fills_of_checkField hv⟩ (ih hrest)

/-- A schema accepts instances as they are, and tables that fill its fields. -/
theorem cases_of_check {drains : Drains} {s : Source} {m : Value}
    (h : (Schema.check check schema drains s).verdict = .accepted m) :
    schema.isInstance s.toValue = true ∧ m = s.toValue ∨
      ∃ entries values, s.members? = some entries ∧ m = .model none schema.name values ∧
        List.Forall₂ (fun f entry =>
          f ∈ schema.fields ∧ entry.1 = f.name ∧ Fills check entries f entry.2)
          schema.fields values := by
  cases hheld : schema.isInstance s.toValue with
  | true =>
      rw [check_of_isInstance hheld] at h
      cases h
      exact Or.inl ⟨rfl, rfl⟩
  | false =>
      right
      cases hmembers : s.members? with
      | none =>
          rw [check_of_no_members hheld hmembers] at h
          cases h
      | some entries =>
          rw [check_of_members hmembers, Step.verdict_map, Verdict.map_eq_accepted_iff] at h
          obtain ⟨values, hvalues, rfl⟩ := h
          rw [Step.verdict_andThen_eq_accepted_iff] at hvalues
          obtain ⟨fields, -, hfields, -, rfl⟩ := hvalues
          refine ⟨entries, fields, rfl, rfl, ?_⟩
          rw [List.forall₂_and_left]
          exact ⟨fun _ hf => hf, forall_fills_of_checkFields hfields⟩

theorem exists_parts {fields : List (SchemaField Slot)} {values : List (String × Value)}
    (h : List.Forall₂ (fun f entry => entry.1 = f.name ∧ entry.2.Makes (slotTrip f.slot)) fields
      values) :
    ∃ parts : List (SchemaField Slot × Trip), parts.map Prod.fst = fields ∧
      (∀ part ∈ parts, slotTrip part.1.slot part.2) ∧
        values = parts.map fun part => (part.1.name, part.2.held) := by
  induction h with
  | nil => exact ⟨[], rfl, by simp, rfl⟩
  | @cons f entry fields values hhead _ ih =>
      obtain ⟨name, v⟩ := entry
      obtain ⟨rfl, t, rfl, ht⟩ := hhead
      obtain ⟨parts, rfl, hparts, rfl⟩ := ih
      exact ⟨(f, t) :: parts, rfl, List.forall_mem_cons.mpr ⟨ht, hparts⟩, rfl⟩

theorem exists_of_isInstance {v : Value} (h : schema.isInstance v = true) :
    ∃ id fields, v = .model id schema.name fields := by
  cases v with
  | model id name fields =>
      obtain rfl : name = schema.name := beq_iff_eq.mp h
      exact ⟨id, fields, rfl⟩
  | _ => cases h

/-- What a schema accepts makes a trip, if instances, fields and defaults do. -/
theorem makes_of_check {faithful : Model → Prop} {s : Source} (hsound : s.IsSound faithful)
    (hinstance : ∀ id fields, s.toValue = .model id schema.name fields →
      (Value.model id schema.name fields).Makes (schema.IsTrip slotTrip))
    (hslot : ∀ f ∈ schema.fields, ∀ item : Source, item.IsSound faithful → ∀ drains v,
      (check f.slot drains item).verdict = .accepted v → v.Makes (slotTrip f.slot))
    (hdefault : ∀ f ∈ schema.fields, ∀ v, f.default? = some v → v.Makes (slotTrip f.slot))
    {drains : Drains} {m : Value}
    (h : (Schema.check check schema drains s).verdict = .accepted m) :
    m.Makes (schema.IsTrip slotTrip) := by
  rcases cases_of_check h with ⟨hheld, rfl⟩ | ⟨entries, values, hmembers, rfl, hfields⟩
  · obtain ⟨id, fields, hvalue⟩ := exists_of_isInstance hheld
    rw [hvalue]
    exact hinstance id fields hvalue
  · have hmakes : List.Forall₂ (fun f entry => entry.1 = f.name ∧ entry.2.Makes (slotTrip f.slot))
        schema.fields values := by
      refine hfields.imp ?_
      rintro f entry ⟨hf, hname, hfills⟩
      refine ⟨hname, ?_⟩
      cases hfills with
      | given hitem hv => exact hslot f hf _ (.named (hsound.members hmembers) hitem) _ _ hv
      | default hv => exact hdefault f hf _ hv
    obtain ⟨parts, hparts, htrips, rfl⟩ := exists_parts hmakes
    exact ⟨⟨_, _, _⟩, rfl, none, parts, hparts, htrips, rfl, rfl, rfl⟩

end Schema

/-! ### Faithful models -/

structure KeyForm.IsFaithful (form : KeyForm) : Prop where
  names : (form.fields.map (·.name)).Nodup
  slots : ∀ f ∈ form.fields, f.slot.IsFaithful
  required : ∀ f ∈ form.fields, f.default? = none

def Slot.IsFaithful : Slot → Prop
  | key slot => slot.IsFaithful
  | optionalKey slot => slot.IsFaithful
  | forms form => form.IsFaithful ∧ form.toModel ∈ Catalog.all
  | keyTable slot => slot.IsFaithful

/-- The fields of the model have distinct names, their codecs are faithful, and the defaults make
trips. -/
structure Model.IsFaithful (model : Model) : Prop where
  names : (model.fields.map (·.name)).Nodup
  slots : ∀ f ∈ model.fields, f.slot.IsFaithful
  defaults : ∀ f ∈ model.fields, ∀ v, f.default? = some v → v.Makes f.slot.IsTrip

theorem Model.IsFaithful.hasDistinctNames {model : Model} (h : model.IsFaithful) :
    model.HasDistinctNames where
  fields := h.names
  forms f hf form hform := by
    have hslot := h.slots f hf
    rw [hform] at hslot
    exact hslot.1.names

theorem KeyForm.IsFaithful.toModel {form : KeyForm} (h : form.IsFaithful) :
    form.toModel.IsFaithful where
  names := by
    simpa [KeyForm.toModel, Function.comp_def] using h.names
  slots := by
    simp only [KeyForm.toModel, List.forall_mem_map]
    exact h.slots
  defaults := by
    simp only [KeyForm.toModel, List.forall_mem_map]
    intro f hf v hv
    rw [h.required f hf] at hv
    cases hv

def Catalog.Faithful (model : Model) : Prop :=
  model ∈ all ∧ model.IsFaithful

variable {s : Source}

theorem KeySlot.makes_of_check {slot : KeySlot} (hslot : slot.IsFaithful)
    (hsound : s.IsSound Catalog.Faithful) {drains : Drains} {key : Value}
    (h : (slot.check drains s).verdict = .accepted key) : key.Makes slot.IsTrip := by
  rcases cases_of_check h with ⟨hadmits, rfl⟩ | ⟨houtcome, -⟩
  · exact hslot.returns hadmits (hsound.key hadmits)
  · obtain ⟨hanswer, hnumbers⟩ := hslot.answers houtcome
    exact hslot.returns hanswer hnumbers

theorem KeyForm.makes_of_check {form : KeyForm} (hform : form.IsFaithful)
    (hcatalog : form.toModel ∈ Catalog.all) (hsound : s.IsSound Catalog.Faithful)
    {drains : Drains} {m : Value} (h : (form.check drains s).verdict = .accepted m) :
    m.Makes form.IsTrip := by
  refine Schema.makes_of_check hsound ?_ ?_ ?_ h
  · intro id fields hvalue
    have hmodel : Catalog.Faithful form.toModel := ⟨hcatalog, hform.toModel⟩
    obtain ⟨t, hheld, ht⟩ := hsound.makes hmodel hvalue
    exact ⟨t, hheld, KeyForm.isTrip_toModel_iff.mp ht⟩
  · exact fun f hf item hitem drains v hv => KeySlot.makes_of_check (hform.slots f hf) hitem hv
  · intro f hf v hv
    rw [hform.required f hf] at hv
    cases hv

/-- What a faithful field accepts makes a trip.  Items may be instances of the form's model; for
these the catalog has to have the model. -/
theorem Slot.makes_of_check {slot : Slot} (hslot : slot.IsFaithful)
    (hsound : s.IsSound Catalog.Faithful) {drains : Drains} {v : Value}
    (h : (slot.check drains s).verdict = .accepted v) : v.Makes slot.IsTrip := by
  cases slot with
  | key slot => exact KeySlot.makes_of_check hslot hsound h
  | optionalKey slot =>
      by_cases hnull : s.toValue = .null
      · rw [check_optionalKey_of_null hnull] at h
        cases h
        exact ⟨_, rfl, Or.inl rfl⟩
      · rw [check_optionalKey_of_ne_null hnull] at h
        obtain ⟨t, hheld, ht⟩ := KeySlot.makes_of_check hslot hsound h
        exact ⟨t, hheld, Or.inr ht⟩
  | forms form =>
      obtain ⟨hform, hcatalog⟩ := hslot
      cases hitems : s.sequence? with
      | none =>
          rw [check_forms_of_none hitems] at h
          cases h
      | some items =>
          rw [check_forms_of_sequence hitems, Step.verdict_map, Verdict.map_eq_accepted_iff] at h
          obtain ⟨vs, hvs, rfl⟩ := h
          have hmakes : ∀ v ∈ vs, v.Makes form.IsTrip := by
            refine forall_of_checkItems ?_ hvs
            intro item hitem drains v hv
            have hitemSound := hsound.sequence hitems item (List.mem_of_mem_drop hitem)
            exact KeyForm.makes_of_check hform hcatalog hitemSound hv
          obtain ⟨trips, rfl, htrips⟩ := exists_trips hmakes
          exact ⟨_, rfl, trips, htrips, rfl⟩
  | keyTable slot =>
      cases hentries : s.entries? with
      | none =>
          rw [check_keyTable_of_none hentries] at h
          cases h
      | some entries =>
          rw [check_keyTable_of_entries hentries, Step.verdict_map, Verdict.map_eq_accepted_iff]
            at h
          obtain ⟨table, htable, rfl⟩ := h
          have hmakes := forall_of_checkEntries (P := fun v => v.Makes slot.IsTrip)
            (fun entry hentry drains v hv =>
              KeySlot.makes_of_check hslot (hsound.entries hentries entry hentry) hv) htable
          obtain ⟨names, distinct, heq, hkeys, hnames, hvalues⟩ :=
            Value.exists_tableOf_of_texts (P := fun v => v.Makes slot.IsTrip)
              (fun entry hentry => (hmakes entry hentry).1)
              (fun entry hentry => (hmakes entry hentry).2)
          obtain ⟨trips, rfl, rfl, htrips⟩ := exists_named_trips hkeys hvalues
          exact ⟨_, heq.symm, trips, hnames, htrips, rfl⟩

theorem Model.makes_of_check {model : Model} (hmodel : Catalog.Faithful model)
    (hsound : s.IsSound Catalog.Faithful) {drains : Drains} {m : Value}
    (h : (model.check drains s).verdict = .accepted m) : m.Makes model.IsTrip := by
  refine Schema.makes_of_check hsound ?_ ?_ hmodel.2.defaults h
  · exact fun id fields hvalue => hsound.makes hmodel hvalue
  · exact fun f hf item hitem drains v hv => Slot.makes_of_check (hmodel.2.slots f hf) hitem hv

/-! ### Loaded instances -/

/-- An instance that has been loaded: from JSON text, or from a value whose keys are made of numbers
and whose instances were loaded before.  It may be given an identity at any time. -/
inductive Loaded : Model → Value → Prop
  | ofText {model : Model} {text m : Value}
      (h : (model.validateText text).verdict = .accepted m) : Loaded model m
  | ofValue {model : Model} {v m : Value}
      (hkeys : ∀ u, Value.IsPart u v → ∀ type : KeyType, type.admits u = true → u.IsOfNumbers)
      (hinstances : ∀ other ∈ Catalog.all, ∀ id fields,
        Value.IsPart (.model id other.name fields) v → Loaded other (.model id other.name fields))
      (h : (model.validate v).verdict = .accepted m) : Loaded model m
  | kept {model : Model} {name : String} {fields : List (String × Value)} {before : Option Nat}
      (after : Option Nat) (h : Loaded model (.model before name fields)) :
      Loaded model (.model after name fields)

theorem Schema.IsTrip.kept {Slot : Type} {slotTrip : Slot → Trip → Prop} {schema : Schema Slot}
    {before : Option Nat} {name : String} {fields : List (String × Value)}
    (h : (Value.model before name fields).Makes (schema.IsTrip slotTrip)) (after : Option Nat) :
    (Value.model after name fields).Makes (schema.IsTrip slotTrip) := by
  obtain ⟨t, hheld, id, parts, hparts, htrips, hmodel, hwritten, hreread⟩ := h
  rw [hheld] at hmodel
  cases hmodel
  exact ⟨⟨_, t.written, t.reread⟩, rfl, after, parts, hparts, htrips, rfl, hwritten, hreread⟩

/-- An instance that has been loaded makes a trip.  The instances in a value were loaded before, so
the hypothesis of the induction has their trips. -/
theorem Loaded.makes {model : Model} {m : Value} (h : Loaded model m)
    (hmodel : Catalog.Faithful model) : m.Makes model.IsTrip := by
  induction h with
  | @ofText model text m h =>
      unfold Model.validateText at h
      split at h
      · exact Model.makes_of_check hmodel (s := .parsed _) trivial h
      · cases h
  | ofValue hkeys _ h ih =>
      have hsound : Value.IsSound Catalog.Faithful _ :=
        ⟨hkeys, fun other hother id fields hpart => ih other hother.1 id fields hpart hother⟩
      exact Model.makes_of_check hmodel (s := .held _) hsound h
  | kept after _ ih => exact Schema.IsTrip.kept (ih hmodel) after

end KeyCodec
