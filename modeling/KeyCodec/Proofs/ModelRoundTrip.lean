import KeyCodec.Proofs.Loading
import KeyCodec.Proofs.Rereading
import KeyCodec.Proofs.Writing

/-!
# Instances are written and read again

The models of the catalog are faithful, all but the two whose core cannot rebuild the keys that may
stand in them.  So an instance that has been loaded can be written out as a table and as text, and
either is read as an instance that equals it and is written in the same way.
-/

namespace KeyCodec

namespace Model

variable {model : Model} {t : Trip}

theorem IsTrip.validate_written (h : model.IsTrip t) (hnames : model.HasDistinctNames) :
    (model.validate t.written).verdict = .accepted t.reread :=
  h.isReread hnames Source.offers_held []

theorem IsTrip.validateText_written (h : model.IsTrip t) (hnames : model.HasDistinctNames) :
    (model.validateText (.text (Json.ofValue t.written).write)).verdict = .accepted t.reread := by
  rw [validateText_of_parse (Json.parse?_write (h.tree hnames))]
  exact h.isReread hnames Source.offers_parsed []

end Model

namespace Catalog

open KeySlot

theorem isFaithful_of_slot {name field : String} {slot : KeySlot} (h : slot.IsFaithful) :
    KeyForm.IsFaithful ⟨name, [⟨field, slot, none⟩]⟩ where
  names := by simp
  slots := by
    rw [List.forall_mem_singleton]
    exact h
  required := by simp

theorem isFaithful_of_slots {name : String} {slot other : KeySlot} (h : slot.IsFaithful)
    (hother : other.IsFaithful) :
    KeyForm.IsFaithful ⟨name, [⟨"sk", slot, none⟩, ⟨"pk", other, none⟩]⟩ where
  names := by simp
  slots := by
    rw [List.forall_mem_cons, List.forall_mem_singleton]
    exact ⟨h, hother⟩
  required := by simp

theorem isFaithful_keyPair : keyPair.IsFaithful :=
  isFaithful_of_slots isFaithful_secretKey_secp256k1 (isFaithful_publicKey_secp256k1 false)

theorem keyPair_mem : keyPair.toModel ∈ all := by
  simp [all]

theorem isFaithful_wallet : wallet.IsFaithful where
  names := by decide
  slots := by
    simp only [wallet, List.forall_mem_cons]
    exact ⟨isFaithful_secretKey_secp256k1, ⟨isFaithful_keyPair, keyPair_mem⟩,
      isFaithful_publicKey_unchecked false, by simp⟩
  defaults := by
    simp only [wallet, List.forall_mem_cons]
    refine ⟨?_, by simp, ?_, by simp⟩
    · rintro v ⟨⟩
      exact ⟨⟨.null, .null, .null⟩, rfl, Or.inl rfl⟩
    · rintro v ⟨⟩
      exact ⟨⟨.table [], .table [], .table []⟩, rfl, [], .nil, by simp, rfl⟩

/-- All models of the catalog are faithful, but the two whose core cannot rebuild their keys. -/
theorem faithful_of_mem {model : Model} (hmodel : model ∈ all) (hmismatch : model.name ≠ "Mismatch")
    (hreject : model.name ≠ "Reject") : Faithful model := by
  refine ⟨hmodel, ?_⟩
  simp only [all, List.map_cons, List.map_nil, List.cons_append, List.nil_append, List.mem_cons,
    List.not_mem_nil, or_false] at hmodel
  rcases hmodel with rfl | rfl | rfl | rfl | rfl | rfl | rfl | rfl | rfl
  · exact (isFaithful_of_slot isFaithful_secretKey_secp256k1).toModel
  · exact (isFaithful_of_slot (isFaithful_publicKey_secp256k1 false)).toModel
  · exact isFaithful_keyPair.toModel
  · exact (isFaithful_of_slot (isFaithful_publicKey_secp256k1 true)).toModel
  · exact (isFaithful_of_slots isFaithful_secretKey_unchecked
      (isFaithful_publicKey_unchecked false)).toModel
  · exact (isFaithful_of_slot (isFaithful_publicKey_unchecked true)).toModel
  · exact absurd rfl hreject
  · exact absurd rfl hmismatch
  · exact isFaithful_wallet

end Catalog

/-- An instance that has been loaded, of any model of the catalog but the two whose core cannot
rebuild its keys, is written out as a table, as a text and as the bytes of the text.  The table and
the text are read as one and the same instance, which equals the one that was written and is written
as the same table and the same text.  The text is the JSON text of the table. -/
theorem reload_of_loaded {model : Model} (hmodel : model ∈ Catalog.all)
    (hmismatch : model.name ≠ "Mismatch") (hreject : model.name ≠ "Reject") {m : Value}
    (h : Loaded model m) :
    ∃ (table : Value) (text : String) (again : Value),
      (model.dump .values m).outcome = .ok table ∧
      (model.dumpText m).outcome = .ok text ∧
      (model.dumpBytes m).outcome = .ok text.toUTF8.toList ∧
      (model.validate table).verdict = .accepted again ∧
      (model.validateText (.text text)).verdict = .accepted again ∧
      again.same m = true ∧
      (∃ j, Json.parse? text = some j ∧ j.toValue = table) ∧
      (model.dump .values again).outcome = .ok table ∧
      (model.dumpText again).outcome = .ok text := by
  have hfaithful := Catalog.faithful_of_mem hmodel hmismatch hreject
  have hnames := hfaithful.2.hasDistinctNames
  obtain ⟨t, rfl, ht⟩ := h.makes hfaithful
  have hagain : model.IsTrip t.again := ht.again
  have htree := ht.tree hnames
  exact ⟨t.written, (Json.ofValue t.written).write, t.reread,
    (ht.dump_yields hnames .values).outcome, (ht.dumpText_yields hnames).outcome,
    (ht.dumpBytes_yields hnames).outcome, ht.validate_written hnames,
    ht.validateText_written hnames, ht.same,
    ⟨_, Json.parse?_write htree, Json.toValue_ofValue htree⟩,
    (hagain.dump_yields hnames .values).outcome, (hagain.dumpText_yields hnames).outcome⟩

/-- A table for a wallet whose owner is given in capital letters behind zeros, which has one signer,
a scalar with the base point, and which knows one key of the unchecked core. -/
def ownedTable : Value :=
  .table [(.text "owner", .text "00FF"),
    (.text "signers", .list [.table [(.text "sk", .text "10"),
      (.text "pk", recordOf "79BE667EF9DCBBAC55A06295CE870B07029BFCDB2DCE28D959F2815B16F81798"
        "483ADA7726A3C4655DA4FBFC0E1108A8FD17B448A68554199C47D08FFB10D4B8")]]),
    (.text "known", .table [(.text "a", .fakePublic (.point (.int 1) (.int 2)))])]

def ownedWallet : Value :=
  .model none "Wallet" [("owner", .secretKey ⟨⟨255, by decide, by decide⟩, true⟩),
    ("signers", .list [.model none "KeyPair" [
      ("sk", .secretKey ⟨⟨16, by decide, by decide⟩, true⟩),
      ("pk", .publicKey ⟨Curve.baseX, Curve.baseY, Curve.onCurve_base⟩)]]),
    ("known", .table [(.text "a", .fakePublic (.point (.int 1) (.int 2)))])]

theorem cases_isPart_ownedTable {u : Value} (hu : Value.IsPart u ownedTable) :
    (∃ entries, u = .table entries) ∨ (∃ s, u = .text s) ∨ (∃ vs, u = .list vs) ∨
      u = .fakePublic (.point (.int 1) (.int 2)) := by
  simp only [ownedTable, recordOf, Value.isPart_table_iff, Value.isPart_list_iff,
    Value.isPart_text_iff, Value.isPart_fakePublic_iff, List.exists_mem_cons_iff,
    List.not_mem_nil, false_and, exists_false, or_false] at hu
  rcases hu with rfl | rfl | (rfl | rfl | rfl | rfl | rfl | rfl) | rfl | rfl
  all_goals simp

set_option maxRecDepth 1000 in
theorem validate_ownedTable :
    (Catalog.wallet.validate ownedTable).verdict = .accepted ownedWallet := by
  rfl

/-- The wallet is loaded from its table, written as text, and read again. -/
theorem reload_of_loaded_of_owned :
    Catalog.wallet ∈ Catalog.all ∧ Catalog.wallet.name ≠ "Mismatch" ∧
      Catalog.wallet.name ≠ "Reject" ∧ Loaded Catalog.wallet ownedWallet ∧
      ∃ (table : Value) (text : String) (again : Value),
        (Catalog.wallet.dump .values ownedWallet).outcome = .ok table ∧
        (Catalog.wallet.dumpText ownedWallet).outcome = .ok text ∧
        (Catalog.wallet.validate table).verdict = .accepted again ∧
        (Catalog.wallet.validateText (.text text)).verdict = .accepted again ∧
        again.same ownedWallet = true := by
  have hmodel : Catalog.wallet ∈ Catalog.all := by simp [Catalog.all]
  have hmismatch : Catalog.wallet.name ≠ "Mismatch" := by decide
  have hreject : Catalog.wallet.name ≠ "Reject" := by decide
  have hkeys : ∀ u, Value.IsPart u ownedTable → ∀ type : KeyType, type.admits u = true →
      u.IsOfNumbers := by
    intro u hu type hadmits
    rcases cases_isPart_ownedTable hu with ⟨entries, rfl⟩ | ⟨s, rfl⟩ | ⟨vs, rfl⟩ | rfl
    · cases type <;> cases hadmits
    · cases type <;> cases hadmits
    · cases type <;> cases hadmits
    · exact .fakePublic 1 2
  have hinstances : ∀ other ∈ Catalog.all, ∀ id fields,
      Value.IsPart (.model id other.name fields) ownedTable →
        Loaded other (.model id other.name fields) := by
    intro other _ id fields hpart
    rcases cases_isPart_ownedTable hpart with ⟨entries, heq⟩ | ⟨s, heq⟩ | ⟨vs, heq⟩ | heq <;>
      cases heq
  have hloaded : Loaded Catalog.wallet ownedWallet :=
    .ofValue hkeys hinstances validate_ownedTable
  obtain ⟨table, text, again, htable, htext, -, hread, hreadText, hsame, -⟩ :=
    reload_of_loaded hmodel hmismatch hreject hloaded
  exact ⟨hmodel, hmismatch, hreject, hloaded, table, text, again, htable, htext, hread, hreadText,
    hsame⟩

end KeyCodec
