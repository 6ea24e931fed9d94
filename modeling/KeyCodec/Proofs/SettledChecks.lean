import KeyCodec.Proofs.CodecFaults
import KeyCodec.Proofs.Sources
import KeyCodec.Proofs.Verdicts

/-!
# Checks that settle

A check fails outright only when a codec raises a fault that cannot be reported.  The codecs of the
catalog raise none, so a model of the catalog settles every input, with an instance or with rows.
That holds whatever has been read from streams before.
-/

namespace KeyCodec

theorem Step.isSettled_andThen {α β γ : Type} {s : Step α} (h : s.verdict.IsSettled)
    {next : Drains → Step β} (hnext : ∀ drains, (next drains).verdict.IsSettled)
    (f : α → β → γ) : (s.andThen f next).verdict.IsSettled := by
  rw [andThen_of_isSettled h]
  exact h.combine (hnext s.drains) f

/-! ### Key positions -/

theorem KeySlot.isSettled_judge {slot : KeySlot} (hslot : slot.IsReportable) (v : Value) :
    (slot.judge (slot.decode v).outcome).IsSettled := by
  cases houtcome : (slot.decode v).outcome with
  | ok key =>
      rw [judge]
      split
      · trivial
      · exact List.cons_ne_nil _ _
  | error f =>
      rw [judge, if_pos (hslot houtcome).1]
      exact List.cons_ne_nil _ _

theorem KeySlot.isSettled_check {slot : KeySlot} (hslot : slot.IsReportable) (drains : Drains)
    (s : Source) : (slot.check drains s).verdict.IsSettled := by
  cases hadmits : slot.type.admits (drains.current s.toValue) with
  | true =>
      rw [check_of_admits hadmits]
      trivial
  | false =>
      rw [check_of_not_admits hadmits]
      exact isSettled_judge hslot _

/-! ### Fields -/

namespace Schema

variable {Slot : Type} {schema : Schema Slot} {check : Slot → Drains → Source → Step Value}

theorem isSettled_checkFields {fields : List (SchemaField Slot)}
    (hcheck : ∀ f ∈ fields, ∀ drains s, (check f.slot drains s).verdict.IsSettled)
    (entries : List (Value × Source)) (drains : Drains) :
    (checkFields check entries fields drains).verdict.IsSettled := by
  induction fields generalizing drains with
  | nil => trivial
  | cons f fields ih =>
      obtain ⟨hf, hfields⟩ := List.forall_mem_cons.mp hcheck
      rw [checkFields]
      refine Step.isSettled_andThen ?_ (ih hfields) _
      unfold checkField
      split
      · exact (hf drains _).under (.name f.name)
      · split
        · trivial
        · exact List.cons_ne_nil _ _

theorem isSettled_check
    (hcheck : ∀ f ∈ schema.fields, ∀ drains s, (check f.slot drains s).verdict.IsSettled)
    (drains : Drains) (s : Source) :
    (Schema.check check schema drains s).verdict.IsSettled := by
  cases hheld : schema.isInstance s.toValue with
  | true =>
      rw [check_of_isInstance hheld]
      trivial
  | false =>
      cases hmembers : s.members? with
      | none =>
          rw [check_of_no_members hheld hmembers]
          exact List.cons_ne_nil _ _
      | some entries =>
          rw [check_of_members hmembers]
          refine (Step.isSettled_andThen ?_ (fun _ => ?_) _).map _
          · exact isSettled_checkFields hcheck entries drains
          · exact Verdict.isSettled_ofRows (schema.extras entries)

end Schema

/-! ### Lists and tables -/

namespace Slot

def IsReportable : Slot → Prop
  | key slot => slot.IsReportable
  | optionalKey slot => slot.IsReportable
  | forms form => ∀ f ∈ form.fields, f.slot.IsReportable
  | keyTable slot => slot.IsReportable

theorem isSettled_checkItems {check : Drains → Source → Step Value}
    (hcheck : ∀ drains s, (check drains s).verdict.IsSettled) (i : Nat) (items : List Source)
    (drains : Drains) : (checkItems check i items drains).verdict.IsSettled := by
  induction items generalizing i drains with
  | nil => trivial
  | cons s items ih =>
      rw [checkItems]
      exact Step.isSettled_andThen ((hcheck drains s).under (.index i)) (ih (i + 1)) _

theorem isSettled_entryName (k : Value) : (entryName k).IsSettled := by
  unfold entryName
  split
  · trivial
  · split
    · trivial
    · exact List.cons_ne_nil _ _
  · split
    · trivial
    · exact List.cons_ne_nil _ _
  · exact List.cons_ne_nil _ _

theorem isSettled_checkEntries {check : Drains → Source → Step Value}
    (hcheck : ∀ drains s, (check drains s).verdict.IsSettled) (entries : List (Value × Source))
    (drains : Drains) : (checkEntries check entries drains).verdict.IsSettled := by
  induction entries generalizing drains with
  | nil => trivial
  | cons entry entries ih =>
      obtain ⟨k, s⟩ := entry
      rw [checkEntries]
      refine Step.isSettled_andThen (Step.isSettled_andThen (isSettled_entryName k) ?_ _) ih _
      exact fun drains => (hcheck drains s).under (PathItem.ofKey k)

theorem isSettled_check {slot : Slot} (hslot : slot.IsReportable) (drains : Drains) (s : Source) :
    (slot.check drains s).verdict.IsSettled := by
  cases slot with
  | key slot => exact KeySlot.isSettled_check hslot drains s
  | optionalKey slot =>
      by_cases hnull : s.toValue = .null
      · rw [check_optionalKey_of_null hnull]
        trivial
      · rw [check_optionalKey_of_ne_null hnull]
        exact KeySlot.isSettled_check hslot drains s
  | forms form =>
      have hform : ∀ drains s, (form.check drains s).verdict.IsSettled :=
        Schema.isSettled_check fun f hf => KeySlot.isSettled_check (hslot f hf)
      cases hitems : s.sequence? with
      | none =>
          rw [check_forms_of_none hitems]
          exact List.cons_ne_nil _ _
      | some items =>
          rw [check_forms_of_sequence hitems]
          exact (isSettled_checkItems hform _ _ _).map _
  | keyTable slot =>
      cases hentries : s.entries? with
      | none =>
          rw [check_keyTable_of_none hentries]
          exact List.cons_ne_nil _ _
      | some entries =>
          rw [check_keyTable_of_entries hentries]
          exact (isSettled_checkEntries (KeySlot.isSettled_check hslot) _ _).map _

end Slot

/-! ### The models of the catalog -/

namespace Catalog

theorem isReportable_of_forms :
    ∀ form ∈ [sk, pk, keyPair, strictPk, fake, strictFake, reject, mismatch],
      ∀ f ∈ form.fields, f.slot.IsReportable := by
  have hsecret (type : KeyType) : (KeySlot.secretKey .secp256k1 type).IsReportable :=
    KeySlot.isReportable_secretKey Core.secp256k1_isReportable type
  have hpublic (type : KeyType) (strict : Bool) :
      (KeySlot.publicKey .secp256k1 type strict).IsReportable :=
    KeySlot.isReportable_publicKey Core.secp256k1_isReportable type strict
  have hfakeSecret (type : KeyType) : (KeySlot.secretKey .unchecked type).IsReportable :=
    KeySlot.isReportable_secretKey Core.unchecked_isReportable type
  have hfakePublic (type : KeyType) (strict : Bool) :
      (KeySlot.publicKey .unchecked type strict).IsReportable :=
    KeySlot.isReportable_publicKey Core.unchecked_isReportable type strict
  have hrejectedSecret (type : KeyType) : (KeySlot.secretKey .rejecting type).IsReportable :=
    KeySlot.isReportable_secretKey Core.rejecting_isReportable type
  have hrejectedPublic (type : KeyType) (strict : Bool) :
      (KeySlot.publicKey .rejecting type strict).IsReportable :=
    KeySlot.isReportable_publicKey Core.rejecting_isReportable type strict
  simp [sk, pk, keyPair, strictPk, fake, strictFake, reject, mismatch, secretSlot, publicSlot,
    fakePublicSlot, hsecret, hpublic, hfakeSecret, hfakePublic, hrejectedSecret, hrejectedPublic]

theorem isReportable_wallet : ∀ f ∈ wallet.fields, f.slot.IsReportable := by
  simp only [wallet, List.forall_mem_cons]
  refine ⟨KeySlot.isReportable_secretKey Core.secp256k1_isReportable .secretKey, ?_,
    KeySlot.isReportable_publicKey Core.unchecked_isReportable .fakePublic false, by simp⟩
  exact isReportable_of_forms keyPair (by simp)

theorem isReportable_of_mem {model : Model} (hmodel : model ∈ all) :
    ∀ f ∈ model.fields, f.slot.IsReportable := by
  rcases List.mem_append.mp hmodel with hform | hwallet
  · obtain ⟨form, hmem, rfl⟩ := List.mem_map.mp hform
    rw [KeyForm.toModel, List.forall_mem_map]
    exact isReportable_of_forms form hmem
  · rw [List.mem_singleton.mp hwallet]
    exact isReportable_wallet

end Catalog

/-- A model of the catalog accepts its input or has a row about it. -/
theorem Model.isSettled_check {model : Model} (hmodel : model ∈ Catalog.all) (drains : Drains)
    (s : Source) : (model.check drains s).verdict.IsSettled := by
  apply Schema.isSettled_check
  intro f hf
  exact Slot.isSettled_check (Catalog.isReportable_of_mem hmodel f hf)

end KeyCodec
