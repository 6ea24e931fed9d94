import KeyCodec.Proofs.Componentwise
import KeyCodec.Proofs.WellTyped

/-!
# Positions that only take ready keys

Where the core of a position builds keys of another type than the position admits, or none at all,
nothing that has been decoded gets into an instance: only keys and instances that are ready pass.
If the core does build a key, the report says that it is of the wrong type, at the position where it
was decoded.
-/

namespace KeyCodec

/-! ### Codecs that never build what their position admits -/

/-- The codec never answers with a key that its position admits. -/
def KeySlot.IsBarren (slot : KeySlot) : Prop :=
  ∀ {v key : Value}, (slot.decode v).outcome = .ok key → slot.type.admits key = false

structure KeyForm.IsBarren (form : KeyForm) : Prop where
  slots : ∀ f ∈ form.fields, f.slot.IsBarren
  required : ∀ f ∈ form.fields, f.default? = none
  nonempty : form.fields ≠ []

theorem Drains.current_of_admits {drains : Drains} {v : Value} {type : KeyType}
    (h : type.admits (drains.current v) = true) : drains.current v = v := by
  cases v with
  | stream id derived unread => cases type <;> cases h
  | _ => rfl

/-- A position whose codec is barren takes nothing but the keys that stand there. -/
theorem KeySlot.IsBarren.eq_of_check {slot : KeySlot} (hslot : slot.IsBarren) {drains : Drains}
    {s : Source} {key : Value} (h : (slot.check drains s).verdict = .accepted key) :
    s.toValue = key := by
  rcases cases_of_check h with ⟨hadmits, rfl⟩ | ⟨houtcome, hadmits⟩
  · exact (Drains.current_of_admits hadmits).symm
  · rw [hslot houtcome] at hadmits
    cases hadmits

theorem KeyForm.mem_of_mem_toModel {form : KeyForm} {f : SchemaField KeySlot}
    (h : ⟨f.name, .key f.slot, f.default?⟩ ∈ form.toModel.fields) : f ∈ form.fields := by
  obtain ⟨other, hother, heq⟩ := List.mem_map.mp h
  obtain ⟨name, slot, default?⟩ := f
  obtain ⟨_, _, _⟩ := other
  cases heq
  exact hother

/-- A form whose codecs are barren accepts instances as they are, and tables in which the keys are
ready. -/
theorem KeyForm.IsBarren.cases_of_check {form : KeyForm} (hform : form.IsBarren) {drains : Drains}
    {s : Source} {m : Value} (h : (form.toModel.check drains s).verdict = .accepted m) :
    form.toModel.isInstance s.toValue = true ∧ m = s.toValue ∨
      ∃ entries values, s.members? = some entries ∧ m = .model none form.name values ∧
        List.Forall₂ (fun f entry => entry.1 = f.name ∧ f.slot.Fits entry.2 ∧
          ∃ item, Source.named? entries f.name = some item ∧ item.toValue = entry.2)
          form.fields values := by
  rcases Schema.cases_of_check h with hheld | ⟨entries, values, hmembers, rfl, hfields⟩
  · exact Or.inl hheld
  · refine Or.inr ⟨entries, values, hmembers, rfl, ?_⟩
    rw [KeyForm.toModel, List.forall₂_map_left_iff] at hfields
    refine hfields.imp ?_
    rintro f entry ⟨hmem, hname, hfills⟩
    have hf : f ∈ form.fields := KeyForm.mem_of_mem_toModel hmem
    have hbarren : f.slot.IsBarren := hform.slots f hf
    cases hfills with
    | given hitem hv =>
        exact ⟨hname, KeySlot.fits_of_check hv, _, hitem, hbarren.eq_of_check hv⟩
    | default hdefault =>
        cases (hform.required f hf).symm.trans hdefault

def Value.IsNoKey (v : Value) : Prop :=
  ∀ type : KeyType, type.admits v = false

theorem Source.Every.isNoKey {s : Source} (h : s.Every Value.IsNoKey) : s.toValue.IsNoKey := by
  cases s with
  | held v => exact h v .whole
  | parsed j => intro type; cases j <;> cases type <;> rfl

/-- Where no key is ready, a form whose codecs are barren accepts nothing but instances. -/
theorem KeyForm.IsBarren.not_accepted {form : KeyForm} (hform : form.IsBarren) {drains : Drains}
    {s : Source} (hs : s.Every Value.IsNoKey)
    (hinstance : form.toModel.isInstance s.toValue = false) (m : Value) :
    (form.toModel.check drains s).verdict ≠ .accepted m := by
  intro h
  rcases hform.cases_of_check h with ⟨hheld, -⟩ | ⟨entries, values, hmembers, -, hfields⟩
  · rw [hinstance] at hheld
    cases hheld
  · obtain ⟨f, fields, hcons⟩ := List.exists_cons_of_ne_nil hform.nonempty
    rw [hcons] at hfields
    cases hfields with
    | cons hfield _ =>
        obtain ⟨-, hfits, item, hitem, heq⟩ := hfield
        obtain ⟨other, hother, rfl⟩ := Source.mem_of_named? hitem
        have hno := (hs.members hmembers other hother).isNoKey f.slot.type
        rw [heq] at hno
        exact Bool.false_ne_true (hno.symm.trans hfits)

theorem KeyForm.IsBarren.validateText_not_accepted {form : KeyForm} (hform : form.IsBarren)
    (text m : Value) : (form.toModel.validateText text).verdict ≠ .accepted m := by
  unfold Model.validateText
  split
  · next j _ => exact hform.not_accepted (s := .parsed j) trivial (by cases j <;> rfl) m
  · exact nofun

namespace KeySlot

theorem isBarren_secretKey_mismatched : (secretKey .unchecked .secretKey).IsBarren := by
  intro v key h
  obtain ⟨n, -, hkey⟩ := decodeSecretKey_eq_ok_iff.mp h
  cases hkey
  rfl

theorem isBarren_publicKey_mismatched : (publicKey .unchecked .publicKey false).IsBarren := by
  intro v key h
  obtain ⟨point, hpoint, hkey⟩ := decodePublicKey_eq_ok_iff.mp h
  obtain ⟨items, -, -, rfl⟩ := Record.meaning?_eq_some_iff.mp hpoint
  cases hkey
  rfl

theorem isBarren_secretKey_rejecting : (secretKey .rejecting .fakeSecret).IsBarren := by
  intro v key h
  obtain ⟨n, -, hkey⟩ := decodeSecretKey_eq_ok_iff.mp h
  cases hkey

theorem isBarren_publicKey_rejecting : (publicKey .rejecting .fakePublic false).IsBarren := by
  intro v key h
  obtain ⟨point, -, hkey⟩ := decodePublicKey_eq_ok_iff.mp h
  cases hkey

end KeySlot

namespace Catalog

theorem isBarren_of_slots {name : String} {slot other : KeySlot} (h : slot.IsBarren)
    (hother : other.IsBarren) :
    KeyForm.IsBarren ⟨name, [⟨"sk", slot, none⟩, ⟨"pk", other, none⟩]⟩ where
  slots := by
    rw [List.forall_mem_cons, List.forall_mem_singleton]
    exact ⟨h, hother⟩
  required := by
    simp
  nonempty := List.cons_ne_nil _ _

theorem isBarren_mismatch : mismatch.IsBarren :=
  isBarren_of_slots KeySlot.isBarren_secretKey_mismatched KeySlot.isBarren_publicKey_mismatched

theorem isBarren_reject : reject.IsBarren :=
  isBarren_of_slots KeySlot.isBarren_secretKey_rejecting KeySlot.isBarren_publicKey_rejecting

end Catalog

/-! ### Keys of the wrong type -/

/-- A row says that what stands at the path is no instance of the right type. -/
def Verdict.Misplaces {α : Type} (v : Verdict α) (path : List PathItem) : Prop :=
  ∃ row ∈ v.rows, row.path = path ∧ row.problem.type = "is_instance_of"

def Layout.Decodes (layout : Layout) (path : List PathItem) : Prop :=
  ∃ pos ∈ layout.positions, pos.path = path ∧ pos.slot.type.admits pos.value = false ∧
    ∃ key, (pos.slot.decode pos.value).outcome = .ok key

/-- The verdict is settled, and has a row about a wrong type wherever something is decoded. -/
structure Verdict.IsStrictOn {α : Type} (layout : Layout) (v : Verdict α) : Prop where
  settled : v.IsSettled
  misplaces_iff : ∀ path, v.Misplaces path ↔ layout.Decodes path

namespace Verdict.IsStrictOn

variable {α β γ : Type} {layout other : Layout} {v : Verdict α} {w : Verdict β}

theorem of_rows (hsettled : v.IsSettled) (hpositions : layout.positions = [])
    (hrows : ∀ row ∈ v.rows, row.problem.type ≠ "is_instance_of") : v.IsStrictOn layout where
  settled := hsettled
  misplaces_iff path := by
    constructor
    · rintro ⟨row, hrow, -, htype⟩
      exact absurd htype (hrows row hrow)
    · rintro ⟨pos, hpos, -⟩
      rw [hpositions] at hpos
      cases hpos

theorem under (h : v.IsStrictOn layout) (item : PathItem) :
    (v.under item).IsStrictOn (layout.under item) where
  settled := h.settled.under item
  misplaces_iff path := by
    have hrows : (v.under item).Misplaces path ↔
        ∃ rest, item :: rest = path ∧ v.Misplaces rest := by
      simp only [Misplaces, rows_under, List.mem_map]
      constructor
      · rintro ⟨_, ⟨row, hrow, rfl⟩, hpath, htype⟩
        exact ⟨row.path, hpath, row, hrow, rfl, htype⟩
      · rintro ⟨rest, hpath, row, hrow, rfl, htype⟩
        exact ⟨row.under item, ⟨row, hrow, rfl⟩, hpath, htype⟩
    have hpositions : (layout.under item).Decodes path ↔
        ∃ rest, item :: rest = path ∧ layout.Decodes rest := by
      simp only [Layout.Decodes, Layout.under, List.mem_map]
      constructor
      · rintro ⟨_, ⟨pos, hpos, rfl⟩, hpath, hdecodes⟩
        exact ⟨pos.path, hpath, pos, hpos, rfl, hdecodes⟩
      · rintro ⟨rest, hpath, pos, hpos, rfl, hdecodes⟩
        exact ⟨pos.under item, ⟨pos, hpos, rfl⟩, hpath, hdecodes⟩
    rw [hrows, hpositions]
    exact exists_congr fun rest => and_congr_right fun _ => h.misplaces_iff rest

theorem combine (h : v.IsStrictOn layout) (hother : w.IsStrictOn other) (f : α → β → γ) :
    (v.combine f w).IsStrictOn (layout.both other) where
  settled := h.settled.combine hother.settled f
  misplaces_iff path := by
    have hrows : (v.combine f w).Misplaces path ↔ v.Misplaces path ∨ w.Misplaces path := by
      simp only [Misplaces, h.settled.rows_combine hother.settled, List.mem_append, or_and_right,
        exists_or]
    have hpositions : (layout.both other).Decodes path ↔
        layout.Decodes path ∨ other.Decodes path := by
      simp only [Layout.Decodes, Layout.both, List.mem_append, or_and_right, exists_or]
    rw [hrows, hpositions, h.misplaces_iff, hother.misplaces_iff]

theorem map (h : v.IsStrictOn layout) (f : α → β) : (v.map f).IsStrictOn layout where
  settled := h.settled.map f
  misplaces_iff path := by
    rw [← h.misplaces_iff, Misplaces, rows_map, Misplaces]

theorem of_positions (h : v.IsStrictOn layout) (hpositions : other.positions = layout.positions) :
    v.IsStrictOn other where
  settled := h.settled
  misplaces_iff path := by
    rw [h.misplaces_iff, Layout.Decodes, Layout.Decodes, hpositions]

end Verdict.IsStrictOn

theorem KeySlot.decodes_layout_iff {slot : KeySlot} {s : Source} {path : List PathItem} :
    (slot.layout s).Decodes path ↔ path = [] ∧ slot.type.admits s.toValue = false ∧
      ∃ key, (slot.decode s.toValue).outcome = .ok key := by
  simp only [Layout.Decodes, layout, List.mem_singleton, exists_eq_left]
  rw [eq_comm]

theorem KeySlot.IsBarren.isStrictOn {slot : KeySlot} (hslot : slot.IsBarren)
    (hreport : slot.IsReportable) (s : Source) :
    (slot.check [] s).verdict.IsStrictOn (slot.layout s) := by
  have hvalue : Drains.current [] s.toValue = s.toValue :=
    Drains.current_of_not_mem fun _ _ => List.not_mem_nil
  cases hadmits : slot.type.admits s.toValue with
  | true =>
      rw [check_of_admits (by rwa [hvalue])]
      refine ⟨trivial, fun path => ?_⟩
      simp [decodes_layout_iff, hadmits, Verdict.Misplaces]
  | false =>
      rw [check_of_not_admits (by rwa [hvalue]), hvalue]
      cases houtcome : (slot.decode s.toValue).outcome with
      | ok key =>
          have hjudge : slot.judge (.ok key) = .rejected [⟨[], .notInstance slot.type⟩] := by
            simp [judge, hslot houtcome]
          rw [hjudge]
          refine ⟨List.cons_ne_nil _ _, fun path => ?_⟩
          simp [decodes_layout_iff, hadmits, houtcome, Verdict.Misplaces, Problem.type, eq_comm]
      | error f =>
          have hjudge : slot.judge (.error f) = .rejected [⟨[], .refused f⟩] := by
            simp [judge, (hreport houtcome).1]
          rw [hjudge]
          refine ⟨List.cons_ne_nil _ _, fun path => ?_⟩
          simp [decodes_layout_iff, houtcome, Verdict.Misplaces, Problem.type]

namespace Schema

variable {Slot : Type} {schema : Schema Slot} {check : Slot → Drains → Source → Step Value}
  {slotLayout : Slot → Source → Layout} {entries : List (Value × Source)}

theorem checkField_isStrictOn {f : SchemaField Slot}
    (hslot : ∀ s, (check f.slot [] s).verdict.IsStrictOn (slotLayout f.slot s)) :
    (checkField check f [] (Source.named? entries f.name)).verdict.IsStrictOn
      ((fieldLayout slotLayout entries f).under (.name f.name)) := by
  unfold checkField fieldLayout
  cases Source.named? entries f.name with
  | some s => exact (hslot s).under (.name f.name)
  | none =>
      cases f.default? with
      | some v => exact .of_rows trivial rfl (by simp)
      | none => exact .of_rows (List.cons_ne_nil _ _) rfl (by simp [Problem.type])

/-- Fields are strict together when each is by itself.  Only the last field may read from streams,
so those before it leave them as they were. -/
theorem checkFields_isStrictOn {fields : List (SchemaField Slot)}
    (hfields : ∀ f ∈ fields,
      (checkField check f [] (Source.named? entries f.name)).verdict.IsStrictOn
        ((fieldLayout slotLayout entries f).under (.name f.name)))
    (hquiet : fields.Pairwise fun f _ =>
      (checkField check f [] (Source.named? entries f.name)).drains = []) :
    (checkFields check entries fields []).verdict.IsStrictOn
      (.all (fields.map fun f => (.name f.name, fieldLayout slotLayout entries f))) := by
  induction fields with
  | nil => exact .of_rows trivial rfl (by simp [checkFields])
  | cons f fields ih =>
      obtain ⟨hf, hfields⟩ := List.forall_mem_cons.mp hfields
      obtain ⟨hstill, hquiet⟩ := List.pairwise_cons.mp hquiet
      rw [checkFields, Step.andThen_of_isSettled hf.settled]
      refine hf.combine ?_ _
      cases fields with
      | nil => exact .of_rows trivial rfl (by simp [checkFields])
      | cons g fields =>
          rw [hstill g List.mem_cons_self]
          exact ih hfields hquiet

theorem type_ne_of_mem_extras {row : Row} (h : row ∈ schema.extras entries) :
    row.problem.type ≠ "is_instance_of" := by
  obtain ⟨⟨k, s⟩, -, hrow⟩ := List.mem_filterMap.mp h
  cases k with
  | text name =>
      simp only at hrow
      split at hrow
      · cases hrow
      · cases hrow
        simp [Problem.type]
  | _ =>
      cases hrow
      simp [Problem.type]

theorem check_isStrictOn {s : Source}
    (hfields : ∀ entries, s.members? = some entries →
      (checkFields check entries schema.fields []).verdict.IsStrictOn
        (.all (schema.fields.map fun f => (.name f.name, fieldLayout slotLayout entries f)))) :
    (Schema.check check schema [] s).verdict.IsStrictOn (schema.layout slotLayout s) := by
  cases hheld : schema.isInstance s.toValue with
  | true =>
      rw [check_of_isInstance hheld, layout, if_pos hheld]
      exact .of_rows trivial rfl (by simp)
  | false =>
      rw [layout, if_neg (by simp [hheld])]
      cases hmembers : s.members? with
      | none =>
          rw [check_of_no_members hheld hmembers]
          exact .of_rows (List.cons_ne_nil _ _) rfl (by simp [Problem.type])
      | some entries =>
          have hchecked := hfields entries hmembers
          have hextras : (Verdict.ofRows (schema.extras entries)).IsStrictOn .done := by
            refine .of_rows (Verdict.isSettled_ofRows _) rfl ?_
            rw [Verdict.rows_ofRows]
            exact fun row => type_ne_of_mem_extras
          rw [check_of_members hmembers, Step.verdict_map,
            Step.andThen_of_isSettled hchecked.settled]
          apply ((hchecked.combine hextras _).map _).of_positions
          exact (List.append_nil _).symm

end Schema

theorem Catalog.isStrictOn_mismatch (s : Source) :
    (mismatch.toModel.check [] s).verdict.IsStrictOn (mismatch.toModel.layout s) := by
  have hsecret (s : Source) := KeySlot.isBarren_secretKey_mismatched.isStrictOn
    (KeySlot.isReportable_secretKey Core.unchecked_isReportable .secretKey) s
  have hpublic (s : Source) := KeySlot.isBarren_publicKey_mismatched.isStrictOn
    (KeySlot.isReportable_publicKey Core.unchecked_isReportable .publicKey false) s
  apply Schema.check_isStrictOn
  intro entries _
  apply Schema.checkFields_isStrictOn
  · intro f hf
    simp only [mismatch, KeyForm.toModel, List.map_cons, List.map_nil, List.mem_cons,
      List.not_mem_nil, or_false] at hf
    rcases hf with rfl | rfl
    · exact Schema.checkField_isStrictOn hsecret
    · exact Schema.checkField_isStrictOn hpublic
  · have hquiet (item : Option Source) : (Schema.checkField Slot.check
        ⟨"sk", .key (.secretKey .unchecked .secretKey), none⟩ [] item).drains = [] := by
      cases item with
      | some s => exact KeySlot.drains_check_of_quiet rfl [] s
      | none => rfl
    simp [mismatch, KeyForm.toModel, hquiet]

/-! ### What is validated is well typed -/

/-- Whatever has been validated fits its model, so every key position in it holds a key of its type.
The two forms whose codecs cannot build such keys accept no text, and no values but instances and
tables in which the keys are ready.  Where the codecs build keys of another type, there is a row
about a wrong type at every position where something is decoded, and nowhere else. -/
theorem validated_fits :
    (∀ model ∈ Catalog.all, ∀ m, Validated model m → model.Fits m) ∧
    (∀ form ∈ [Catalog.mismatch, Catalog.reject],
      (∀ text m, (form.toModel.validateText text).verdict ≠ .accepted m) ∧
      ∀ v m, (form.toModel.validate v).verdict = .accepted m →
        form.toModel.isInstance v = true ∧ m = v ∨
          ∃ entries values, (Source.held v).members? = some entries ∧
            m = .model none form.name values ∧
            List.Forall₂ (fun f entry => entry.1 = f.name ∧ f.slot.Fits entry.2 ∧
              ∃ item, Source.named? entries f.name = some item ∧ item.toValue = entry.2)
              form.fields values) ∧
    (∀ v path, (Catalog.mismatch.toModel.validate v).verdict.Misplaces path ↔
      (Catalog.mismatch.toModel.layout (.held v)).Decodes path) ∧
    ∀ text s j path, Model.characters? text = some s → Json.parse? s = some j →
      ((Catalog.mismatch.toModel.validateText text).verdict.Misplaces path ↔
        (Catalog.mismatch.toModel.layout (.parsed j)).Decodes path) := by
  have hbarren : ∀ form ∈ [Catalog.mismatch, Catalog.reject], form.IsBarren := by
    rw [List.forall_mem_cons, List.forall_mem_singleton]
    exact ⟨Catalog.isBarren_mismatch, Catalog.isBarren_reject⟩
  refine ⟨?_, ?_, ?_, ?_⟩
  · intro model hmodel m hm
    exact hm.fits hmodel
  · intro form hform
    refine ⟨(hbarren form hform).validateText_not_accepted, ?_⟩
    intro v m hm
    exact (hbarren form hform).cases_of_check hm
  · intro v path
    exact (Catalog.isStrictOn_mismatch (.held v)).misplaces_iff path
  · intro text s j path hs hj
    rw [Model.validateText_of_characters hs hj]
    exact (Catalog.isStrictOn_mismatch (.parsed j)).misplaces_iff path

/-- The secret key of one and the key of the base point, ready for the form of keys of the wrong
type. -/
def readyTable : Value :=
  .table [(.text "sk", .secretKey ⟨⟨1, by decide, by decide⟩, true⟩),
    (.text "pk", .publicKey ⟨Curve.baseX, Curve.baseY, Curve.onCurve_base⟩)]

def digitTable : Value :=
  .table [(.text "sk", .text "1f")]

/-- The form takes the ready keys.  Digits are decoded, but to a key of the wrong type. -/
theorem validated_fits_of_ready :
    (∃ m, (Catalog.mismatch.toModel.validate readyTable).verdict = .accepted m ∧
      Catalog.mismatch.toModel.Fits m) ∧
    (∀ m, (Catalog.mismatch.toModel.validateText
      (.text (Json.ofValue digitTable).write)).verdict ≠ .accepted m) ∧
    (Catalog.mismatch.toModel.validateText (.text (Json.ofValue digitTable).write)).verdict.Misplaces
      [.name "sk"] := by
  have hform : Catalog.mismatch ∈ [Catalog.mismatch, Catalog.reject] := by simp
  refine ⟨?_, (validated_fits.2.1 _ hform).1 _, ?_⟩
  · have hmodel : Catalog.mismatch.toModel ∈ Catalog.all := by simp [Catalog.all]
    have hparts : (Source.held readyTable).Every fun u => ∀ id name fields,
        u ≠ .model id name fields := by
      rw [Source.every_held_iff]
      refine ⟨by simp [readyTable], ?_⟩
      simp only [readyTable, Value.contents, List.map_cons, List.map_nil, List.forall_mem_cons]
      exact ⟨Source.every_held_of_leaf rfl (by simp), Source.every_held_of_leaf rfl (by simp),
        List.forall_mem_nil _⟩
    obtain ⟨m, hm⟩ : ∃ m, (Catalog.mismatch.toModel.validate readyTable).verdict = .accepted m :=
      ⟨_, rfl⟩
    refine ⟨m, hm, validated_fits.1 _ hmodel m (.ofValue ?_ hm)⟩
    intro other _ u hu hinstance
    obtain ⟨id, fields, rfl⟩ := Schema.exists_of_isInstance hinstance
    exact absurd rfl (hparts _ hu id other.name fields)
  · have htree : digitTable.IsTree Json.nestingLimit := by
      refine .table ["sk"] rfl (List.nodup_singleton _) ?_
      rw [List.forall_mem_singleton]
      exact .text _ "1f"
    have hpositions :
        (Catalog.mismatch.toModel.layout (.parsed (Json.ofValue digitTable))).positions =
          [⟨[.name "sk"], .secretKey .unchecked .secretKey, .text "1f"⟩] := by
      rfl
    refine (validated_fits.2.2.2 _ _ _ _ rfl (Json.parse?_write htree)).mpr ?_
    refine ⟨⟨[.name "sk"], .secretKey .unchecked .secretKey, .text "1f"⟩, ?_, rfl, rfl, _, rfl⟩
    rw [hpositions]
    exact List.mem_cons_self

end KeyCodec
