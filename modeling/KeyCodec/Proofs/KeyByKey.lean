import KeyCodec.Proofs.Componentwise

/-!
# The catalog is checked key by key

The models of the catalog are regular, all but the one whose core builds keys of other types than
its positions admit.  So checking one of them is nothing but calling the codecs of its key
positions, each on the value that stands there.
-/

namespace KeyCodec

theorem KeyForm.IsRegular.toModel {form : KeyForm} (h : form.IsRegular) :
    form.toModel.IsRegular where
  names := by
    simpa [KeyForm.toModel, Function.comp_def] using h.names
  slots := by
    simp only [KeyForm.toModel, List.forall_mem_map]
    exact h.slots
  order := by
    simp only [KeyForm.toModel, List.pairwise_map]
    exact List.pairwise_of_forall fun _ _ => Or.inr trivial

namespace Catalog

theorem isRegular_of_slot {name field : String} {slot : KeySlot} (h : slot.IsRegular) :
    KeyForm.IsRegular ⟨name, [⟨field, slot, none⟩]⟩ where
  names := List.nodup_singleton field
  slots := by
    rw [List.forall_mem_singleton]
    exact h

theorem isRegular_of_slots {name : String} {slot other : KeySlot} (h : slot.IsRegular)
    (hother : other.IsRegular) :
    KeyForm.IsRegular ⟨name, [⟨"sk", slot, none⟩, ⟨"pk", other, none⟩]⟩ where
  names := by
    simp
  slots := by
    rw [List.forall_mem_cons, List.forall_mem_singleton]
    exact ⟨h, hother⟩

theorem isRegular_keyPair : keyPair.IsRegular :=
  isRegular_of_slots KeySlot.isRegular_secretKey_secp256k1
    (KeySlot.isRegular_publicKey_secp256k1 false)

theorem isRegular_wallet : wallet.IsRegular where
  names := by decide
  slots := by
    simp only [wallet, List.forall_mem_cons]
    exact ⟨KeySlot.isRegular_secretKey_secp256k1, isRegular_keyPair,
      KeySlot.isRegular_publicKey_unchecked false, by simp⟩
  order := by
    simp [wallet, Slot.IsQuiet, Slot.IsLate, secretSlot, KeySlot.readsStreams]

/-- All models of the catalog are regular, but the one whose core builds keys of the wrong types. -/
theorem isRegular_of_mem {model : Model} (hmodel : model ∈ all) (hname : model.name ≠ "Mismatch") :
    model.IsRegular := by
  simp only [all, List.map_cons, List.map_nil, List.cons_append, List.nil_append, List.mem_cons,
    List.not_mem_nil, or_false] at hmodel
  rcases hmodel with rfl | rfl | rfl | rfl | rfl | rfl | rfl | rfl | rfl
  · exact (isRegular_of_slot KeySlot.isRegular_secretKey_secp256k1).toModel
  · exact (isRegular_of_slot (KeySlot.isRegular_publicKey_secp256k1 false)).toModel
  · exact isRegular_keyPair.toModel
  · exact (isRegular_of_slot (KeySlot.isRegular_publicKey_secp256k1 true)).toModel
  · exact (isRegular_of_slots KeySlot.isRegular_secretKey_unchecked
      (KeySlot.isRegular_publicKey_unchecked false)).toModel
  · exact (isRegular_of_slot (KeySlot.isRegular_publicKey_unchecked true)).toModel
  · exact (isRegular_of_slots KeySlot.isRegular_secretKey_rejecting
      (KeySlot.isRegular_publicKey_rejecting false)).toModel
  · exact absurd rfl hname
  · exact isRegular_wallet

end Catalog

theorem Problem.message_refused {f : Fault} {t : String} (h : f.text = .ok t) :
    (refused f).message = "Value error, " ++ t := by
  have htext : faultText f = t := by
    unfold faultText
    rw [h]
  rw [← htext]
  rfl

/-- A model of the catalog, all but one, makes of a table what the codecs make of the values at its
key positions, each called by itself on what is left there of the value.  That is the value as it
stands, unless a stream stands at two places.  The table is accepted when nothing is missing or left
over and every position is taken, and then holds what the positions are taken for.  Otherwise there
are rows, and below the path of a position exactly those that the codec gives rise to: none for a
position that is taken, and one with the text of the fault for one that is refused.  The codec of a
position is `decodeSecretKey` or `decodePublicKey` with what the position itself prescribes, as
`KeyPosition.takes_secretKey_iff`, `KeyPosition.takes_publicKey_iff` and their like for refusals
say. -/
theorem validate_key_by_key (model : Model) (hmodel : model ∈ Catalog.all)
    (hname : model.name ≠ "Mismatch") (entries : List (Value × Value))
    (htextual : (model.layout (.held (.table entries))).textual) :
    ∃ met : List KeyPosition,
      List.Forall₂ KeyPosition.RemainsOf met (model.layout (.held (.table entries))).positions ∧
      ((model.layout (.held (.table entries))).streams.Nodup →
        met = (model.layout (.held (.table entries))).positions) ∧
      ((∃ m, (model.validate (.table entries)).verdict = .accepted m) ↔
        (model.layout (.held (.table entries))).filled ∧ ∀ pos ∈ met, ∃ key, pos.Takes key) ∧
      (∀ m, (model.validate (.table entries)).verdict = .accepted m →
        ∀ pos ∈ met, ∃ key, pos.Takes key ∧ m.at? pos.path = some key) ∧
      ((∀ m, (model.validate (.table entries)).verdict ≠ .accepted m) →
        ∃ rows, (model.validate (.table entries)).verdict = .rejected rows ∧ rows ≠ [] ∧
          ∀ pos ∈ met,
            (∀ key, pos.Takes key → Row.below pos.path rows = []) ∧
            ∀ f, pos.Refuses f → ∃ t, f.text = .ok t ∧
              Row.below pos.path rows = [⟨[], .refused f⟩] ∧
              (Problem.refused f).type = "value_error" ∧
              (Problem.refused f).message = "Value error, " ++ t) := by
  have hregular := Catalog.isRegular_of_mem hmodel hname
  obtain ⟨met, hmet, hproduct⟩ := Model.check_conforms hregular htextual
  have hstep : model.check [] (.held (.table entries)) = model.validate (.table entries) := rfl
  rw [hstep] at hproduct
  have hrows : ∀ pos ∈ met, pos.verdict.rows = [] ↔ ∃ key, pos.Takes key := by
    intro pos hpos
    have hslot := hmet.regular pos hpos
    rw [(KeyPosition.isSettled_verdict hslot).rows_eq_nil_iff]
    exact exists_congr fun key => KeyPosition.verdict_eq_accepted_iff hslot
  refine ⟨met, hmet.remains, ?_, ?_, ?_, ?_⟩
  · intro hnodup
    exact hmet.untouched hnodup fun _ _ => List.not_mem_nil
  · rw [← hproduct.settled.rows_eq_nil_iff, hproduct.accepts]
    exact and_congr_right fun _ => forall₂_congr hrows
  · intro m hm pos hpos
    obtain ⟨key, hkey, hfound⟩ := hproduct.holds m hm pos hpos
    exact ⟨key, (KeyPosition.verdict_eq_accepted_iff (hmet.regular pos hpos)).mp hkey, hfound⟩
  · intro hrejected
    have hverdict := hproduct.settled.eq_rejected hrejected
    refine ⟨_, hverdict, ?_, ?_⟩
    · rw [Ne, hproduct.settled.rows_eq_nil_iff]
      rintro ⟨m, hm⟩
      exact hrejected m hm
    · intro pos hpos
      have hslot := hmet.regular pos hpos
      rw [hproduct.reports pos hpos]
      constructor
      · intro key hkey
        exact (hrows pos hpos).mpr ⟨key, hkey⟩
      · intro f hf
        obtain ⟨-, t, ht⟩ := hslot.refuses hf.2
        refine ⟨t, ht, ?_, rfl, Problem.message_refused ht⟩
        rw [hf.verdict_eq hslot, Verdict.rows_rejected]

/-- A wallet without signers that knows a ready-made key and something that is none. -/
def sampleWallet : List (Value × Value) :=
  [(.text "signers", .list []),
    (.text "known", .table [(.text "a", .fakePublic .null), (.text "b", .null)])]

/-- In the sample the key is passed over in silence, and the other entry has one row. -/
theorem validate_key_by_key_of_sample :
    ∃ rows, (Catalog.wallet.validate (.table sampleWallet)).verdict = .rejected rows ∧
      Row.below [.name "known", .name "a"] rows = [] ∧
      ∃ f, Row.below [.name "known", .name "b"] rows = [⟨[], .refused f⟩] := by
  have hpositions : (Catalog.wallet.layout (.held (.table sampleWallet))).positions =
      [⟨[.name "known", .name "a"], Catalog.fakePublicSlot, .fakePublic .null⟩,
        ⟨[.name "known", .name "b"], Catalog.fakePublicSlot, .null⟩] := by
    rfl
  have hstreams : (Catalog.wallet.layout (.held (.table sampleWallet))).streams = [] := by
    rfl
  have htextual : (Catalog.wallet.layout (.held (.table sampleWallet))).textual := by
    refine ⟨⟨trivial, trivial, ?_, trivial⟩, ["signers", "known"], rfl, by simp⟩
    exact ⟨⟨trivial, trivial, trivial⟩, ["a", "b"], rfl, by simp⟩
  obtain ⟨met, -, hmet, haccepts, -, hrejects⟩ :=
    validate_key_by_key Catalog.wallet (by simp [Catalog.all]) (by decide) sampleWallet htextual
  rw [hstreams] at hmet
  have hpos := (hmet List.nodup_nil).trans hpositions
  have hrefused : KeyPosition.Refuses
      ⟨[.name "known", .name "b"], Catalog.fakePublicSlot, .null⟩
      (Refusal.notRecord .null).fault := KeyPosition.refuses_publicKey_iff.mpr ⟨rfl, rfl⟩
  have hrejected : ∀ m, (Catalog.wallet.validate (.table sampleWallet)).verdict ≠ .accepted m := by
    intro m hm
    obtain ⟨-, htaken⟩ := haccepts.mp ⟨m, hm⟩
    rw [hpos] at htaken
    obtain ⟨key, htakes⟩ := htaken _ (List.mem_cons_of_mem _ List.mem_cons_self)
    rcases KeyPosition.takes_publicKey_iff.mp htakes with ⟨hadmits, -⟩ | ⟨-, houtcome⟩
    · cases hadmits
    · cases hrefused.2.symm.trans houtcome
  obtain ⟨rows, hrows, -, hreports⟩ := hrejects hrejected
  rw [hpos] at hreports
  refine ⟨rows, hrows, ?_, (Refusal.notRecord .null).fault, ?_⟩
  · exact (hreports _ List.mem_cons_self).1 _ (Or.inl ⟨rfl, rfl⟩)
  · obtain ⟨-, hrow⟩ := hreports _ (List.mem_cons_of_mem _ List.mem_cons_self)
    obtain ⟨-, -, hbelow, -⟩ := hrow _ hrefused
    exact hbelow

end KeyCodec
