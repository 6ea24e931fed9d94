import KeyCodec.Proofs.Loading
import Mathlib.Data.List.Nodup

/-!
# Validated instances are well typed

A codec returns whatever its core builds, so it is the test behind it that keeps keys of other types
out of an instance.  Whatever a model accepts fits it: every declared field is there, and every key
position holds a key of its type, down to the instances that stand inside.
-/

namespace KeyCodec

/-! ### Instances that fit -/

/-- An instance of the schema in which every declared field holds what fits its slot. -/
def Schema.Fits {Slot : Type} (slotFits : Slot → Value → Prop) (schema : Schema Slot) (m : Value) :
    Prop :=
  ∃ id values, m = .model id schema.name values ∧
    List.Forall₂ (fun f entry => entry.1 = f.name ∧ slotFits f.slot entry.2) schema.fields values

def KeySlot.Fits (slot : KeySlot) (v : Value) : Prop :=
  slot.type.admits v = true

def KeyForm.Fits (form : KeyForm) : Value → Prop :=
  Schema.Fits KeySlot.Fits form

def Slot.Fits : Slot → Value → Prop
  | key slot, v => slot.Fits v
  | optionalKey slot, v => v = .null ∨ slot.Fits v
  | forms form, v => ∃ vs, v = .list vs ∧ ∀ w ∈ vs, form.Fits w
  | keyTable slot, v => ∃ entries, v = .table entries ∧
      ∀ entry ∈ entries, (∃ name, entry.1 = .text name) ∧ slot.Fits entry.2

def Model.Fits (model : Model) : Value → Prop :=
  Schema.Fits Slot.Fits model

/-- If the value is an instance of a model of the catalog, it fits that model. -/
def Value.FitsItsModel (v : Value) : Prop :=
  ∀ model ∈ Catalog.all, model.isInstance v = true → model.Fits v

theorem KeyForm.fits_toModel_iff {form : KeyForm} {m : Value} :
    form.toModel.Fits m ↔ form.Fits m := by
  have hfields (values : List (String × Value)) :
      List.Forall₂ (fun f entry => entry.1 = f.name ∧ f.slot.Fits entry.2) form.toModel.fields
        values ↔
      List.Forall₂ (fun f entry => entry.1 = f.name ∧ f.slot.Fits entry.2) form.fields values := by
    rw [KeyForm.toModel, List.forall₂_map_left_iff]
    rfl
  exact exists₂_congr fun id values => and_congr_right fun _ => hfields values

/-! ### What a check accepts -/

namespace Schema

variable {Slot : Type} {schema : Schema Slot} {check : Slot → Drains → Source → Step Value}

/-- What a schema accepts fits it, if instances, fields and defaults do. -/
theorem fits_of_check {slotFits : Slot → Value → Prop} {drains : Drains} {s : Source} {m : Value}
    {P : Value → Prop} (hevery : s.Every P)
    (hinstance : schema.isInstance s.toValue = true → schema.Fits slotFits s.toValue)
    (hslot : ∀ f ∈ schema.fields, ∀ item : Source, item.Every P → ∀ drains v,
      (check f.slot drains item).verdict = .accepted v → slotFits f.slot v)
    (hdefault : ∀ f ∈ schema.fields, ∀ v, f.default? = some v → slotFits f.slot v)
    (h : (Schema.check check schema drains s).verdict = .accepted m) : schema.Fits slotFits m := by
  rcases cases_of_check h with ⟨hheld, rfl⟩ | ⟨entries, values, hmembers, rfl, hfields⟩
  · exact hinstance hheld
  · refine ⟨none, values, rfl, ?_⟩
    refine hfields.imp ?_
    rintro f entry ⟨hf, hname, hfills⟩
    refine ⟨hname, ?_⟩
    cases hfills with
    | given hitem hv =>
        obtain ⟨other, hother, rfl⟩ := Source.mem_of_named? hitem
        exact hslot f hf _ (hevery.members hmembers other hother) _ _ hv
    | default hv => exact hdefault f hf _ hv

end Schema

theorem KeySlot.fits_of_check {slot : KeySlot} {drains : Drains} {s : Source} {key : Value}
    (h : (slot.check drains s).verdict = .accepted key) : slot.Fits key := by
  rcases cases_of_check h with ⟨hadmits, rfl⟩ | ⟨-, hadmits⟩
  · exact hadmits
  · exact hadmits

theorem Source.Every.fits {s : Source} (h : s.Every Value.FitsItsModel) {model : Model}
    (hmodel : model ∈ Catalog.all) (hinstance : model.isInstance s.toValue = true) :
    model.Fits s.toValue := by
  cases s with
  | held v => exact h v .whole model hmodel hinstance
  | parsed j => cases j <;> cases hinstance

theorem KeyForm.fits_of_check {form : KeyForm} (hcatalog : form.toModel ∈ Catalog.all)
    (hrequired : ∀ f ∈ form.fields, f.default? = none) {s : Source}
    (hevery : s.Every Value.FitsItsModel) {drains : Drains} {m : Value}
    (h : (form.check drains s).verdict = .accepted m) : form.Fits m := by
  refine Schema.fits_of_check hevery ?_ ?_ ?_ h
  · intro hinstance
    exact KeyForm.fits_toModel_iff.mp (hevery.fits hcatalog hinstance)
  · intro f _ item _ drains v hv
    exact KeySlot.fits_of_check hv
  · intro f hf v hv
    rw [hrequired f hf] at hv
    cases hv

def Slot.IsListed : Slot → Prop
  | forms form => form.toModel ∈ Catalog.all ∧ ∀ f ∈ form.fields, f.default? = none
  | _ => True

theorem Slot.fits_of_check {slot : Slot} (hlisted : slot.IsListed) {s : Source}
    (hevery : s.Every Value.FitsItsModel) {drains : Drains} {v : Value}
    (h : (slot.check drains s).verdict = .accepted v) : slot.Fits v := by
  cases slot with
  | key slot => exact KeySlot.fits_of_check h
  | optionalKey slot =>
      by_cases hnull : s.toValue = .null
      · rw [check_optionalKey_of_null hnull] at h
        cases h
        exact Or.inl rfl
      · rw [check_optionalKey_of_ne_null hnull] at h
        exact Or.inr (KeySlot.fits_of_check h)
  | forms form =>
      cases hitems : s.sequence? with
      | none =>
          rw [check_forms_of_none hitems] at h
          cases h
      | some items =>
          rw [check_forms_of_sequence hitems, Step.verdict_map, Verdict.map_eq_accepted_iff] at h
          obtain ⟨vs, hvs, rfl⟩ := h
          refine ⟨vs, rfl, forall_of_checkItems ?_ hvs⟩
          intro item hitem drains w hw
          have hitemEvery := hevery.sequence hitems item (List.mem_of_mem_drop hitem)
          exact KeyForm.fits_of_check hlisted.1 hlisted.2 hitemEvery hw
  | keyTable slot =>
      cases hentries : s.entries? with
      | none =>
          rw [check_keyTable_of_none hentries] at h
          cases h
      | some entries =>
          rw [check_keyTable_of_entries hentries, Step.verdict_map, Verdict.map_eq_accepted_iff]
            at h
          obtain ⟨table, htable, rfl⟩ := h
          have hfits := forall_of_checkEntries (P := slot.Fits)
            (fun _ _ _ _ hv => KeySlot.fits_of_check hv) htable
          obtain ⟨names, distinct, heq, hkeys, -, hvalues⟩ :=
            Value.exists_tableOf_of_texts (P := slot.Fits)
              (fun entry hentry => (hfits entry hentry).1)
              (fun entry hentry => (hfits entry hentry).2)
          refine ⟨distinct, heq, ?_⟩
          intro entry hentry
          have hname : entry.1 ∈ names.map Value.text := hkeys ▸ List.mem_map_of_mem hentry
          obtain ⟨name, -, hname⟩ := List.mem_map.mp hname
          exact ⟨⟨name, hname.symm⟩, hvalues entry hentry⟩

def Model.IsListed (model : Model) : Prop :=
  ∀ f ∈ model.fields, f.slot.IsListed ∧ ∀ v, f.default? = some v → f.slot.Fits v

theorem KeyForm.isListed_toModel {form : KeyForm} (h : ∀ f ∈ form.fields, f.default? = none) :
    form.toModel.IsListed := by
  simp only [Model.IsListed, KeyForm.toModel, List.forall_mem_map]
  intro f hf
  refine ⟨trivial, ?_⟩
  intro v hv
  rw [h f hf] at hv
  cases hv

namespace Catalog

theorem required_of_mem : ∀ form ∈ [sk, pk, keyPair, strictPk, fake, strictFake, reject, mismatch],
    ∀ f ∈ form.fields, f.default? = none := by
  simp [sk, pk, keyPair, strictPk, fake, strictFake, reject, mismatch]

theorem isListed_wallet : wallet.IsListed := by
  simp only [Model.IsListed, wallet, List.forall_mem_cons]
  refine ⟨⟨trivial, ?_⟩, ⟨⟨by simp [all], ?_⟩, by simp⟩, ⟨trivial, ?_⟩, by simp⟩
  · rintro v ⟨⟩
    exact Or.inl rfl
  · exact required_of_mem keyPair (by simp)
  · rintro v ⟨⟩
    exact ⟨[], rfl, by simp⟩

theorem isListed_of_mem {model : Model} (hmodel : model ∈ all) : model.IsListed := by
  rcases List.mem_append.mp hmodel with hform | hwallet
  · obtain ⟨form, hmem, rfl⟩ := List.mem_map.mp hform
    exact KeyForm.isListed_toModel (required_of_mem form hmem)
  · rw [List.mem_singleton.mp hwallet]
    exact isListed_wallet

end Catalog

/-- What a model accepts fits it, if all instances in its input fit their models. -/
theorem Model.fits_of_check {model : Model} (hmodel : model ∈ Catalog.all) {s : Source}
    (hevery : s.Every Value.FitsItsModel) {drains : Drains} {m : Value}
    (h : (model.check drains s).verdict = .accepted m) : model.Fits m := by
  have hlisted := Catalog.isListed_of_mem hmodel
  refine Schema.fits_of_check hevery ?_ ?_ ?_ h
  · exact hevery.fits hmodel
  · intro f hf item hitem drains v hv
    exact Slot.fits_of_check (hlisted f hf).1 hitem hv
  · intro f hf
    exact (hlisted f hf).2

/-! ### Instances inside of others -/

theorem Catalog.eq_of_name {model other : Model} (hmodel : model ∈ all) (hother : other ∈ all)
    (h : model.name = other.name) : model = other := by
  have hnames : (all.map (·.name)).Nodup := by decide
  exact List.inj_on_of_nodup_map hnames hmodel hother h

theorem Value.fitsItsModel_of_ne {v : Value} (h : ∀ id name fields, v ≠ .model id name fields) :
    v.FitsItsModel := by
  intro model _ hinstance
  obtain ⟨id, fields, rfl⟩ := Schema.exists_of_isInstance hinstance
  exact absurd rfl (h id model.name fields)

theorem Model.Fits.fitsItsModel {model : Model} (hmodel : model ∈ Catalog.all) {m : Value}
    (h : model.Fits m) : m.FitsItsModel := by
  intro other hother hinstance
  have hname : model.name = other.name := by
    obtain ⟨id, values, rfl, -⟩ := h
    exact beq_iff_eq.mp hinstance
  rwa [← Catalog.eq_of_name hmodel hother hname]

theorem Source.every_held_iff {P : Value → Prop} {v : Value} :
    (held v).Every P ↔ P v ∧ ∀ w ∈ v.contents, (held w).Every P := by
  constructor
  · intro h
    exact ⟨h v .whole, fun w hw => every_held_of_mem_contents h hw⟩
  · rintro ⟨hv, hcontents⟩ u hu
    cases hu with
    | whole => exact hv
    | inside hw hu => exact hcontents _ hw u hu

theorem Source.every_held_of_leaf {P : Value → Prop} {v : Value} (hcontents : v.contents = [])
    (h : P v) : (held v).Every P := by
  rw [every_held_iff, hcontents]
  exact ⟨h, List.forall_mem_nil _⟩

theorem KeySlot.Fits.every {slot : KeySlot} {key : Value} (h : slot.Fits key) :
    (Source.held key).Every Value.FitsItsModel := by
  apply Source.every_held_of_leaf
  · unfold KeySlot.Fits KeyType.admits at h
    split at h <;> first | rfl | cases h
  · apply Value.fitsItsModel_of_ne
    rintro id name fields rfl
    unfold KeySlot.Fits at h
    cases hslot : slot.type <;> rw [hslot] at h <;> cases h

/-- In an instance that fits, everything fits its own model if it does in what fits the slots. -/
theorem Schema.Fits.every {Slot : Type} {slotFits : Slot → Value → Prop} {schema : Schema Slot}
    {m : Value} (h : schema.Fits slotFits m)
    (hslot : ∀ f ∈ schema.fields, ∀ v, slotFits f.slot v →
      (Source.held v).Every Value.FitsItsModel)
    (hm : m.FitsItsModel) : (Source.held m).Every Value.FitsItsModel := by
  obtain ⟨id, values, rfl, hfields⟩ := h
  obtain ⟨hlength, hpairs⟩ := List.forall₂_iff_get.mp hfields
  have hvalues : ∀ entry ∈ values, (Source.held entry.2).Every Value.FitsItsModel := by
    intro entry hentry
    obtain ⟨i, rfl⟩ := List.mem_iff_get.mp hentry
    obtain ⟨-, hfits⟩ := hpairs i (by omega) i.isLt
    exact hslot _ (List.get_mem _ _) _ hfits
  rw [Source.every_held_iff]
  refine ⟨hm, ?_⟩
  simp only [Value.contents, Value.items?, Option.getD_some, List.forall_mem_map]
  intro entry hentry
  have hname : (Source.held (.text entry.1)).Every Value.FitsItsModel :=
    Source.every_held_of_leaf rfl (Value.fitsItsModel_of_ne (by simp))
  rw [Source.every_held_iff]
  refine ⟨Value.fitsItsModel_of_ne (by simp), ?_⟩
  simp only [Value.contents, Value.items?, Option.getD_some, List.forall_mem_cons]
  exact ⟨hname, hvalues entry hentry, List.forall_mem_nil _⟩

theorem KeyForm.Fits.every {form : KeyForm} (hcatalog : form.toModel ∈ Catalog.all) {m : Value}
    (h : form.Fits m) : (Source.held m).Every Value.FitsItsModel := by
  refine Schema.Fits.every h (fun _ _ _ hv => KeySlot.Fits.every hv) ?_
  exact Model.Fits.fitsItsModel hcatalog (KeyForm.fits_toModel_iff.mpr h)

theorem Slot.Fits.every {slot : Slot} (hlisted : slot.IsListed) {v : Value} (h : slot.Fits v) :
    (Source.held v).Every Value.FitsItsModel := by
  cases slot with
  | key slot => exact KeySlot.Fits.every h
  | optionalKey slot =>
      rcases h with rfl | h
      · exact Source.every_held_of_leaf rfl (Value.fitsItsModel_of_ne (by simp))
      · exact KeySlot.Fits.every h
  | forms form =>
      obtain ⟨vs, rfl, hvs⟩ := h
      rw [Source.every_held_iff]
      refine ⟨Value.fitsItsModel_of_ne (by simp), ?_⟩
      exact fun w hw => KeyForm.Fits.every hlisted.1 (hvs w hw)
  | keyTable slot =>
      obtain ⟨entries, rfl, hentries⟩ := h
      rw [Source.every_held_iff]
      refine ⟨Value.fitsItsModel_of_ne (by simp), ?_⟩
      rw [Value.contents, List.forall_mem_map]
      exact fun entry hentry => KeySlot.Fits.every (hentries entry hentry).2

theorem Model.Fits.every {model : Model} (hmodel : model ∈ Catalog.all) {m : Value}
    (h : model.Fits m) : (Source.held m).Every Value.FitsItsModel := by
  refine Schema.Fits.every h ?_ (h.fitsItsModel hmodel)
  intro f hf v hv
  exact Slot.Fits.every (Catalog.isListed_of_mem hmodel f hf).1 hv

/-! ### Instances from which streams have been read -/

namespace Value

variable (drains : Drains)

theorem refreshAll_eq_map (vs : List Value) : refreshAll drains vs = vs.map (refresh drains) := by
  induction vs with
  | nil => rfl
  | cons v vs ih => rw [refreshAll, ih, List.map_cons]

theorem refreshEntries_eq_map (entries : List (Value × Value)) :
    refreshEntries drains entries =
      entries.map fun entry => (entry.1.refresh drains, entry.2.refresh drains) := by
  induction entries with
  | nil => rfl
  | cons entry entries ih => rw [refreshEntries, ih, List.map_cons]

theorem refreshFields_eq_map (fields : List (String × Value)) :
    refreshFields drains fields = fields.map fun entry => (entry.1, entry.2.refresh drains) := by
  induction fields with
  | nil => rfl
  | cons entry fields ih => rw [refreshFields, ih, List.map_cons]

end Value

theorem Schema.Fits.refresh {Slot : Type} {slotFits : Slot → Value → Prop} {schema : Schema Slot}
    {m : Value} (h : schema.Fits slotFits m) (drains : Drains)
    (hslot : ∀ slot v, slotFits slot v → slotFits slot (v.refresh drains)) :
    schema.Fits slotFits (m.refresh drains) := by
  obtain ⟨id, values, rfl, hfields⟩ := h
  refine ⟨id, Value.refreshFields drains values, rfl, ?_⟩
  rw [Value.refreshFields_eq_map, List.forall₂_map_right_iff]
  exact hfields.imp fun f entry hentry => ⟨hentry.1, hslot f.slot entry.2 hentry.2⟩

theorem KeyType.admits_refresh (type : KeyType) (v : Value) (drains : Drains) :
    type.admits (v.refresh drains) = type.admits v := by
  cases type <;> cases v <;> rfl

theorem KeySlot.Fits.refresh {slot : KeySlot} {key : Value} (h : slot.Fits key) (drains : Drains) :
    slot.Fits (key.refresh drains) :=
  (KeyType.admits_refresh slot.type key drains).trans h

theorem Slot.Fits.refresh {slot : Slot} {v : Value} (h : slot.Fits v) (drains : Drains) :
    slot.Fits (v.refresh drains) := by
  cases slot with
  | key slot => exact KeySlot.Fits.refresh h drains
  | optionalKey slot =>
      rcases h with rfl | h
      · exact Or.inl rfl
      · exact Or.inr (h.refresh drains)
  | forms form =>
      obtain ⟨vs, rfl, hvs⟩ := h
      refine ⟨_, rfl, ?_⟩
      rw [Value.refreshAll_eq_map, List.forall_mem_map]
      intro w hw
      exact Schema.Fits.refresh (hvs w hw) drains fun _ _ hv => KeySlot.Fits.refresh hv drains
  | keyTable slot =>
      obtain ⟨entries, rfl, hentries⟩ := h
      refine ⟨_, rfl, ?_⟩
      rw [Value.refreshEntries_eq_map, List.forall_mem_map]
      intro entry hentry
      obtain ⟨⟨name, hname⟩, hfits⟩ := hentries entry hentry
      exact ⟨⟨name, by rw [hname]; rfl⟩, hfits.refresh drains⟩

/-! ### Validated instances -/

/-- An instance that has been validated: from JSON text, or from a value in which all instances have
been validated.  It may be given an identity, streams that its keys hold may be read, and what
stands in it has been validated with it. -/
inductive Validated : Model → Value → Prop
  | ofText {model : Model} {text m : Value}
      (h : (model.validateText text).verdict = .accepted m) : Validated model m
  | ofValue {model : Model} {v m : Value}
      (hinstances : ∀ other ∈ Catalog.all, ∀ u, Value.IsPart u v → other.isInstance u = true →
        Validated other u)
      (h : (model.validate v).verdict = .accepted m) : Validated model m
  | kept {model : Model} {name : String} {fields : List (String × Value)} {before : Option Nat}
      (after : Option Nat) (h : Validated model (.model before name fields)) :
      Validated model (.model after name fields)
  | reread {model : Model} {m : Value} (drains : Drains) (h : Validated model m) :
      Validated model (m.refresh drains)
  | part {model other : Model} {m u : Value} (hmodel : model ∈ Catalog.all)
      (hother : other ∈ Catalog.all) (h : Validated model m) (hpart : Value.IsPart u m)
      (hinstance : other.isInstance u = true) : Validated other u

/-- Whatever has been validated fits its model.  The hypothesis of the induction says that the
instances in a value fit their models. -/
theorem Validated.fits {model : Model} {m : Value} (h : Validated model m)
    (hmodel : model ∈ Catalog.all) : model.Fits m := by
  induction h with
  | @ofText model text m h =>
      unfold Model.validateText at h
      split at h
      · exact Model.fits_of_check hmodel (s := .parsed _) trivial h
      · cases h
  | @ofValue model v m _ h ih =>
      have hevery : (Source.held v).Every Value.FitsItsModel :=
        fun u hu other hother hinstance => ih other hother u hu hinstance hother
      exact Model.fits_of_check hmodel hevery h
  | kept after _ ih =>
      obtain ⟨id, values, heq, hfields⟩ := ih hmodel
      cases heq
      exact ⟨after, _, rfl, hfields⟩
  | reread drains _ ih =>
      exact Schema.Fits.refresh (ih hmodel) drains fun _ _ hv => Slot.Fits.refresh hv drains
  | part hwhole hother _ hpart hinstance ih =>
      exact (ih hwhole).every hwhole _ hpart _ hother hinstance

end KeyCodec
