import KeyCodec.Model.Catalog
import KeyCodec.Proofs.SecretFlaws
import KeyCodec.Proofs.Sources
import Mathlib.Data.List.Forall2

/-!
# A rejected secret leaves no trace

Two inputs of a model are alike when they differ only where a secret key of the curve is expected
and where both hold something that is rejected for the same flaw.  Alike inputs are checked alike:
the verdict, its rows, the notices and the reads are the same.  A key position gives the same step
for both, and everything above it only puts steps together.
-/

namespace KeyCodec

def RefusedAlike {α : Type} (x y : Except Fault α) : Prop :=
  ∃ f, x = .error f ∧ y = .error f

/-- The value is no secret key and cannot be decoded to one, because of the flaw. -/
def SecretFlaw.Rejects (flaw : SecretFlaw) (v : Value) : Prop :=
  flaw.In v ∧ ∀ k, v ≠ .secretKey k

/-- What a position holds is the same, or it is a position for secret keys of the curve and holds
values that are rejected for the same flaw. -/
def KeySlot.Alike (slot : KeySlot) (s t : Source) : Prop :=
  s = t ∨ slot = Catalog.secretSlot ∧
    ∃ flaw : SecretFlaw, flaw.Rejects s.toValue ∧ flaw.Rejects t.toValue

/-- The members of a schema have the same name, and what stands under it is alike as far as the
schema declares it. -/
def Schema.MembersAlike {Slot : Type} (alike : Slot → Source → Source → Prop)
    (schema : Schema Slot) (a b : Value × Source) : Prop :=
  a.1 = b.1 ∧ ∀ f ∈ schema.fields, a.1 = .text f.name → alike f.slot a.2 b.2

inductive Schema.Alike {Slot : Type} (alike : Slot → Source → Source → Prop)
    (schema : Schema Slot) : Source → Source → Prop
  | same (s : Source) : Alike alike schema s s
  | members {s t : Source} {entries others : List (Value × Source)}
      (hs : s.members? = some entries) (ht : t.members? = some others)
      (h : List.Forall₂ (schema.MembersAlike alike) entries others) : Alike alike schema s t

def KeyForm.Alike (form : KeyForm) : Source → Source → Prop :=
  Schema.Alike KeySlot.Alike form

inductive Slot.Alike : Slot → Source → Source → Prop
  | same (slot : Slot) (s : Source) : Alike slot s s
  | key {slot : KeySlot} {s t : Source} (h : slot.Alike s t) : Alike (.key slot) s t
  | optionalKey {slot : KeySlot} {s t : Source} (hs : s.toValue ≠ .null) (ht : t.toValue ≠ .null)
      (h : slot.Alike s t) : Alike (.optionalKey slot) s t
  | forms {form : KeyForm} {s t : Source} {items others : List Source}
      (hs : s.sequence? = some items) (ht : t.sequence? = some others)
      (hid : s.streamId? = t.streamId?) (h : List.Forall₂ form.Alike items others) :
      Alike (.forms form) s t

def Model.Alike (model : Model) : Source → Source → Prop :=
  Schema.Alike Slot.Alike model

/-! ### Key positions -/

theorem SecretFlaw.Rejects.current {flaw : SecretFlaw} {v : Value} (h : flaw.Rejects v)
    (drains : Drains) : flaw.Rejects (drains.current v) := by
  cases v with
  | stream id derived items =>
      cases flaw with
      | unreadable =>
          have hdigits : ¬ HexText.IsDigitText (.stream id derived (drains.unread id items)) := by
            rintro ⟨s, hs, -⟩
            cases hs
          exact ⟨hdigits, fun k hk => by cases hk⟩
      | outOfRange =>
          obtain ⟨⟨s, hs, -⟩, -⟩ := h
          cases hs
  | _ => exact h

/-- A rejected secret is reported by its flaw alone. -/
theorem KeySlot.check_of_rejects {flaw : SecretFlaw} {s : Source} (h : flaw.Rejects s.toValue)
    (drains : Drains) :
    Catalog.secretSlot.check drains s =
      ⟨Catalog.secretSlot.judge (.error flaw.refusal.fault), [], drains⟩ := by
  obtain ⟨hflaw, hkey⟩ := h.current drains
  have hadmits : Catalog.secretSlot.type.admits (drains.current s.toValue) = false := by
    cases hv : drains.current s.toValue with
    | secretKey k => exact absurd hv (hkey k)
    | _ => rfl
  have hdecode : Catalog.secretSlot.decode (drains.current s.toValue) =
      ⟨.error flaw.refusal.fault, [], []⟩ := by
    rw [← decodeSecretKey_of_flaw hflaw]
    rfl
  rw [check_of_not_admits hadmits, hdecode]
  rfl

theorem KeySlot.Alike.check_eq {slot : KeySlot} {s t : Source} (h : slot.Alike s t)
    (drains : Drains) : slot.check drains s = slot.check drains t := by
  rcases h with rfl | ⟨rfl, flaw, hs, ht⟩
  · rfl
  · rw [KeySlot.check_of_rejects hs, KeySlot.check_of_rejects ht]

/-! ### Members -/

namespace Schema

variable {Slot : Type} {alike : Slot → Source → Source → Prop} {schema : Schema Slot}
  {slotCheck : Slot → Drains → Source → Step Value}

/-- What stands under a declared name is missing on both sides, or alike. -/
theorem named?_of_membersAlike {entries others : List (Value × Source)}
    (h : List.Forall₂ (schema.MembersAlike alike) entries others) {f : SchemaField Slot}
    (hf : f ∈ schema.fields) :
    Option.Rel (alike f.slot) (Source.named? entries f.name) (Source.named? others f.name) := by
  induction h with
  | nil => exact .none
  | @cons a b rest more hhead _ ih =>
      obtain ⟨hname, hvalue⟩ := hhead
      by_cases hnamed : a.1 = .text f.name
      · rw [Source.named?_cons_of_eq hnamed, Source.named?_cons_of_eq (hname.symm.trans hnamed)]
        exact .some (hvalue f hf hnamed)
      · rw [Source.named?_cons_of_ne hnamed, Source.named?_cons_of_ne (hname ▸ hnamed)]
        exact ih

variable (hcheck : ∀ slot drains s t, alike slot s t →
  slotCheck slot drains s = slotCheck slot drains t)
include hcheck

theorem checkField_of_rel {f : SchemaField Slot} {s t : Option Source}
    (h : Option.Rel (alike f.slot) s t) (drains : Drains) :
    checkField slotCheck f drains s = checkField slotCheck f drains t := by
  cases h with
  | none => rfl
  | some h => rw [checkField, checkField, hcheck f.slot drains _ _ h]

/-- The check of a field looks only at what stands under its name, so alike members are checked
alike. -/
theorem checkFields_of_membersAlike {entries others : List (Value × Source)}
    (h : List.Forall₂ (schema.MembersAlike alike) entries others) {fields : List (SchemaField Slot)}
    (hfields : ∀ f ∈ fields, f ∈ schema.fields) :
    checkFields slotCheck entries fields = checkFields slotCheck others fields := by
  induction fields with
  | nil => rfl
  | cons f rest ih =>
      obtain ⟨hf, hrest⟩ := List.forall_mem_cons.mp hfields
      have hfield := checkField_of_rel hcheck (named?_of_membersAlike h hf)
      funext drains
      rw [checkFields, checkFields, ih hrest, hfield]

omit hcheck in
theorem extras_of_membersAlike {entries others : List (Value × Source)}
    (h : List.Forall₂ (schema.MembersAlike alike) entries others) :
    schema.extras entries = schema.extras others := by
  apply extras_eq_of_keys
  rw [← List.forall₂_eq_eq_eq, List.forall₂_map_left_iff, List.forall₂_map_right_iff]
  exact h.imp fun _ _ hmember => hmember.1

theorem Alike.check_eq {s t : Source} (h : schema.Alike alike s t) (drains : Drains) :
    schema.check slotCheck drains s = schema.check slotCheck drains t := by
  cases h with
  | same => rfl
  | members hs ht h =>
      rw [check_of_members hs, check_of_members ht,
        checkFields_of_membersAlike hcheck h fun _ hf => hf, extras_of_membersAlike h]

end Schema

/-! ### Lists -/

theorem KeyForm.Alike.check_eq {form : KeyForm} {s t : Source} (h : form.Alike s t)
    (drains : Drains) : form.check drains s = form.check drains t := by
  have hslot : ∀ (slot : KeySlot) (drains : Drains) (s t : Source), slot.Alike s t →
      slot.check drains s = slot.check drains t := fun _ drains _ _ h => h.check_eq drains
  exact Schema.Alike.check_eq hslot h drains

theorem KeyForm.checkItems_of_alike {form : KeyForm} {items others : List Source}
    (h : List.Forall₂ form.Alike items others) (i : Nat) :
    Slot.checkItems form.check i items = Slot.checkItems form.check i others := by
  induction h generalizing i with
  | nil => rfl
  | cons hitem _ ih =>
      funext drains
      rw [Slot.checkItems, Slot.checkItems, ih, hitem.check_eq]

theorem Slot.Alike.check_eq {slot : Slot} {s t : Source} (h : slot.Alike s t) (drains : Drains) :
    slot.check drains s = slot.check drains t := by
  cases h with
  | same => rfl
  | key h => exact h.check_eq drains
  | optionalKey hs ht h =>
      rw [check_optionalKey_of_ne_null hs, check_optionalKey_of_ne_null ht, h.check_eq]
  | @forms form _ _ items others hs ht hid h =>
      have hlength := h.length_eq
      have hspent : s.spent drains items.length = t.spent drains others.length := by
        rw [Source.spent, Source.spent, hid, hlength]
      have hexhaust : s.exhaust drains = t.exhaust drains := by
        rw [Source.exhaust, Source.exhaust, hid]
      have hitems := KeyForm.checkItems_of_alike
        (List.forall₂_drop (t.spent drains others.length) h) 0
      rw [check_forms_of_sequence hs, check_forms_of_sequence ht, hspent, hexhaust, hitems]

/-- A model checks inputs alike that differ in rejected secrets only. -/
theorem Model.Alike.check_eq {model : Model} {s t : Source} (h : model.Alike s t)
    (drains : Drains) : model.check drains s = model.check drains t := by
  have hslot : ∀ (slot : Slot) (drains : Drains) (s t : Source), slot.Alike s t →
      slot.check drains s = slot.check drains t := fun _ drains _ _ h => h.check_eq drains
  exact Schema.Alike.check_eq hslot h drains

/-! ### Rejected secrets -/

/-- No fault tells one rejected secret from another.  Decoded values with the same flaw are refused
alike, and so are all rejected integers, and all rejected texts, or bytes, of one length that fail
the same check, texts with the mark apart from texts without.  Every rejection falls under one of
these cases.  Inputs of a model that differ in rejected secrets only are reported alike, whether
they are held or parsed. -/
theorem rejected_secrets_reported_alike :
    ((∀ (flaw : SecretFlaw) (v w : Value), flaw.In v → flaw.In w →
        RefusedAlike (decodeSecretKey .secp256k1 v) (decodeSecretKey .secp256k1 w)) ∧
      ∀ v, (∀ key, decodeSecretKey .secp256k1 v ≠ .ok key) → ∃ flaw : SecretFlaw, flaw.In v) ∧
    (∀ v w : Value, (∀ k, SecretKey.ofInteger v ≠ .ok k) → (∀ k, SecretKey.ofInteger w ≠ .ok k) →
      RefusedAlike (SecretKey.ofInteger v) (SecretKey.ofInteger w)) ∧
    ((∀ (check : SecretCheck) (s t : String), s.length = t.length →
        (IsMarked s.toList ↔ IsMarked t.toList) →
        check.FailedByDigits (dropHexMark s.toList) → check.FailedByDigits (dropHexMark t.toList) →
        RefusedAlike (SecretKey.ofValue (.text s)) (SecretKey.ofValue (.text t))) ∧
      ∀ s : String, (∀ k, SecretKey.ofValue (.text s) ≠ .ok k) →
        ∃ check : SecretCheck, check.FailedByDigits (dropHexMark s.toList)) ∧
    ((∀ (check : SecretCheck) (bs cs : List UInt8), bs.length = cs.length →
        check.FailedByBytes bs → check.FailedByBytes cs →
        RefusedAlike (SecretKey.ofValue (.bytes bs)) (SecretKey.ofValue (.bytes cs))) ∧
      ∀ bs : List UInt8, (∀ k, SecretKey.ofValue (.bytes bs) ≠ .ok k) →
        ∃ check : SecretCheck, check.FailedByBytes bs) ∧
    (∀ (model : Model) (v w : Value), model.Alike (.held v) (.held w) →
      model.validate v = model.validate w) ∧
    (∀ (model : Model) (text other : String) (j k : Json), Json.parse? text = some j →
      Json.parse? other = some k → model.Alike (.parsed j) (.parsed k) →
      model.validateText (.text text) = model.validateText (.text other)) := by
  refine ⟨⟨?_, fun v => exists_flaw_of_rejected⟩, ?_,
    ⟨?_, fun s => SecretCheck.exists_failedByDigits⟩,
    ⟨?_, fun bs => SecretCheck.exists_failedByBytes⟩, ?_, ?_⟩
  · intro flaw v w hv hw
    exact ⟨_, decodeSecretKey_of_flaw hv, decodeSecretKey_of_flaw hw⟩
  · intro v w hv hw
    exact ⟨_, SecretKey.ofInteger_of_not_isScalar (SecretKey.not_isScalar_of_rejected hv),
      SecretKey.ofInteger_of_not_isScalar (SecretKey.not_isScalar_of_rejected hw)⟩
  · intro check s t hlength hmark hs ht
    have hcount := length_dropHexMark_eq (by rwa [String.length_toList, String.length_toList]) hmark
    have hother := SecretKey.ofValue_of_failedByDigits ht
    rw [← hcount] at hother
    exact ⟨_, SecretKey.ofValue_of_failedByDigits hs, hother⟩
  · intro check bs cs hlength hbs hcs
    have hother := SecretKey.ofValue_of_failedByBytes hcs 0
    rw [← hlength] at hother
    exact ⟨_, SecretKey.ofValue_of_failedByBytes hbs 0, hother⟩
  · intro model v w h
    exact h.check_eq []
  · intro model text other j k htext hother h
    rw [Model.validateText_of_parse htext, Model.validateText_of_parse hother, h.check_eq []]

def walletOfSecret (secret : Value) : Value :=
  .table [(.text "signers", .list [.table [(.text "sk", secret), (.text "pk", .table [])]])]

theorem alike_walletOfSecret {flaw : SecretFlaw} {v w : Value} (hv : flaw.Rejects v)
    (hw : flaw.Rejects w) :
    Catalog.wallet.Alike (.held (walletOfSecret v)) (.held (walletOfSecret w)) := by
  have hsigner : Catalog.keyPair.Alike
      (.held (.table [(.text "sk", v), (.text "pk", .table [])]))
      (.held (.table [(.text "sk", w), (.text "pk", .table [])])) := by
    refine .members rfl rfl (.cons ⟨rfl, ?_⟩ (.cons ⟨rfl, fun _ _ _ => Or.inl rfl⟩ .nil))
    intro f hf hname
    simp only [Catalog.keyPair, List.mem_cons, List.not_mem_nil, or_false] at hf
    rcases hf with rfl | rfl
    · exact Or.inr ⟨rfl, flaw, hv, hw⟩
    · simp at hname
  refine .members rfl rfl (.cons ⟨rfl, ?_⟩ .nil)
  intro f hf hname
  simp only [Catalog.wallet, List.mem_cons, List.not_mem_nil, or_false] at hf
  rcases hf with rfl | rfl | rfl
  · simp at hname
  · exact .forms rfl rfl rfl (.cons hsigner .nil)
  · simp at hname

/-- The digits `g1` and `h2` are reported alike behind a mark, and so are the integers zero and
minus one; a wallet does not tell which of two values its signer has in place of a secret. -/
theorem rejected_secrets_reported_alike_of_wallets :
    RefusedAlike (SecretKey.ofValue (.text "0xg1")) (SecretKey.ofValue (.text "0xh2")) ∧
    RefusedAlike (SecretKey.ofInteger (.int 0)) (SecretKey.ofInteger (.int (-1))) ∧
    Catalog.wallet.validate (walletOfSecret (.int 5)) =
      Catalog.wallet.validate (walletOfSecret .null) := by
  obtain ⟨-, hintegers, ⟨htexts, -⟩, -, hmodels, -⟩ := rejected_secrets_reported_alike
  refine ⟨?_, ?_, ?_⟩
  · have hs : "0xg1".toList = ['0', 'x', 'g', '1'] := by simp
    have ht : "0xh2".toList = ['0', 'x', 'h', '2'] := by simp
    have hlength : "0xg1".length = "0xh2".length := by
      rw [← String.length_toList, ← String.length_toList, hs, ht]
      rfl
    have hunreadable : ∀ c, c = 'g' ∨ c = 'h' → ¬ Hex.IsNumeral c := by
      rintro c (rfl | rfl) <;> decide
    apply htexts .hexDigits "0xg1" "0xh2" hlength
    · rw [hs, ht]
      exact iff_of_true ⟨['g', '1'], rfl⟩ ⟨['h', '2'], rfl⟩
    · rw [hs]
      exact fun hrun => hunreadable 'g' (Or.inl rfl) (hrun.2 'g' (by simp [dropHexMark]))
    · rw [ht]
      exact fun hrun => hunreadable 'h' (Or.inr rfl) (hrun.2 'h' (by simp [dropHexMark]))
  · have hrejected : ∀ i : Int, i ≤ 0 → ∀ k, SecretKey.ofInteger (.int i) ≠ .ok k := by
      intro i hi k hk
      have hscalar := (SecretKey.ofInteger_eq_ok_iff.mp hk).1
      have hpos := k.scalar.pos
      simp only [Value.integer?, Option.some.injEq] at hscalar
      omega
    exact hintegers _ _ (hrejected 0 (by decide)) (hrejected (-1) (by decide))
  · have hrejects : ∀ v : Value, (∀ s, v ≠ .text s) → (∀ k, v ≠ .secretKey k) →
        SecretFlaw.unreadable.Rejects v := by
      intro v htext hkey
      exact ⟨fun hdigits => by obtain ⟨s, hs, -⟩ := hdigits; exact htext s hs, hkey⟩
    apply hmodels
    have hint := hrejects (.int 5) (fun s hs => by cases hs) (fun k hk => by cases hk)
    have hnull := hrejects .null (fun s hs => by cases hs) (fun k hk => by cases hk)
    exact alike_walletOfSecret hint hnull

end KeyCodec
