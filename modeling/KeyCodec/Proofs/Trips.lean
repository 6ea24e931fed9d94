import KeyCodec.Model.Catalog
import KeyCodec.Proofs.FirstOffence
import KeyCodec.Proofs.JsonReading
import KeyCodec.Proofs.RoundTrip

/-!
# Trips

A trip is a value, what it is written as, and what is read again.  Trips are put together as models
are: the trip of an instance consists of trips of its fields, that of a list of trips of its items.
What is written is a tree that JSON text can hold.

A codec is faithful when every key of its type makes a trip, at least if it is made of numbers.
-/

namespace KeyCodec

/-- A value, what it is written as, and what is read again. -/
structure Trip where
  held : Value
  written : Value
  reread : Value

def Trip.again (t : Trip) : Trip :=
  ⟨t.reread, t.written, t.reread⟩

def Value.Makes (v : Value) (kind : Trip → Prop) : Prop :=
  ∃ t : Trip, t.held = v ∧ kind t

/-- A key that is made of numbers, as all keys of the curve are. -/
inductive Value.IsOfNumbers : Value → Prop
  | secretKey (k : SecretKey) : IsOfNumbers (.secretKey k)
  | publicKey (k : PublicKey) : IsOfNumbers (.publicKey k)
  | fakeSecret (n : Nat) : IsOfNumbers (.fakeSecret (.int n))
  | fakePublic (x y : Nat) : IsOfNumbers (.fakePublic (.point (.int x) (.int y)))

/-- The position holds the key, which is written so without reading a stream. -/
structure KeySlot.Writes (slot : KeySlot) (key written : Value) : Prop where
  admits : slot.type.admits key = true
  numbers : key.IsOfNumbers
  encodes : slot.encode key = .ok written
  quiet : slot.reads key = []

structure KeySlot.IsTrip (slot : KeySlot) (t : Trip) : Prop where
  writes : slot.Writes t.held t.written
  rewrites : slot.Writes t.reread t.written
  decodes : (slot.decode t.written).outcome = .ok t.reread
  same : t.reread.same t.held = true

def Schema.IsTrip {Slot : Type} (slotTrip : Slot → Trip → Prop) (schema : Schema Slot)
    (t : Trip) : Prop :=
  ∃ (id : Option Nat) (parts : List (SchemaField Slot × Trip)),
    parts.map Prod.fst = schema.fields ∧ (∀ part ∈ parts, slotTrip part.1.slot part.2) ∧
    t.held = .model id schema.name (parts.map fun part => (part.1.name, part.2.held)) ∧
    t.written = .table (parts.map fun part => (.text part.1.name, part.2.written)) ∧
    t.reread = .model none schema.name (parts.map fun part => (part.1.name, part.2.reread))

def KeyForm.IsTrip (form : KeyForm) : Trip → Prop :=
  Schema.IsTrip KeySlot.IsTrip form

def Slot.IsTrip : Slot → Trip → Prop
  | key slot, t => slot.IsTrip t
  | optionalKey slot, t => t = ⟨.null, .null, .null⟩ ∨ slot.IsTrip t
  | forms form, t => ∃ items : List Trip, (∀ item ∈ items, form.IsTrip item) ∧
      t = ⟨.list (items.map Trip.held), .list (items.map Trip.written),
        .list (items.map Trip.reread)⟩
  | keyTable slot, t => ∃ entries : List (String × Trip), (entries.map Prod.fst).Nodup ∧
      (∀ entry ∈ entries, slot.IsTrip entry.2) ∧
      t = ⟨.table (entries.map fun entry => (.text entry.1, entry.2.held)),
        .table (entries.map fun entry => (.text entry.1, entry.2.written)),
        .table (entries.map fun entry => (.text entry.1, entry.2.reread))⟩

def Model.IsTrip (model : Model) : Trip → Prop :=
  Schema.IsTrip Slot.IsTrip model

/-! ### Keys -/

namespace Value.IsOfNumbers

variable {key : Value}

theorem refresh_eq (h : key.IsOfNumbers) (drains : Drains) : key.refresh drains = key := by
  cases h <;> rfl

theorem ne_null (h : key.IsOfNumbers) : key ≠ .null := by
  cases h <;> nofun

theorem same_self (h : key.IsOfNumbers) : key.same key = true := by
  cases h with
  | secretKey k => simp [same, SecretKey.same]
  | publicKey k => simp [same]
  | fakeSecret n => simp [same, sameNumber, number?, integer?]
  | fakePublic x y => simp [same, sameNumber, number?, integer?]

end Value.IsOfNumbers

theorem isTree_recordOf (x y : String) : (recordOf x y).IsTree 1 := by
  have hnames : ["x", "y"].Nodup := by decide
  refine .table ["x", "y"] rfl hnames ?_
  intro entry hentry
  simp only [List.mem_cons, List.not_mem_nil, or_false] at hentry
  rcases hentry with rfl | rfl
  · exact .text 0 x
  · exact .text 0 y

/-- The codec answers with keys that its position holds, and such a key makes a trip. -/
structure KeySlot.IsFaithful (slot : KeySlot) : Prop where
  answers : ∀ {v key : Value}, (slot.decode v).outcome = .ok key →
    slot.type.admits key = true ∧ key.IsOfNumbers
  returns : ∀ {key : Value}, slot.type.admits key = true → key.IsOfNumbers →
    key.Makes slot.IsTrip

namespace KeySlot

theorem exists_of_encode {slot : KeySlot} {key written : Value}
    (h : slot.encode key = .ok written) :
    (∃ text, written = .text text) ∨ ∃ x y, written = recordOf x y := by
  cases slot with
  | secretKey core type =>
      obtain ⟨text, -, rfl⟩ := Outcome.map_eq_ok_iff.mp h
      exact Or.inl ⟨text, rfl⟩
  | publicKey core type strict =>
      simp only [encode, encodePublicKey, Outcome.bind_eq_ok_iff] at h
      obtain ⟨point, -, ⟨a, b⟩, -, x, -, y, -, hrecord⟩ := h
      cases hrecord
      exact Or.inr ⟨x, y, rfl⟩

theorem Writes.tree {slot : KeySlot} {key written : Value} (h : slot.Writes key written) :
    written.IsTree 1 := by
  rcases exists_of_encode h.encodes with ⟨text, rfl⟩ | ⟨x, y, rfl⟩
  · exact .text 1 text
  · exact isTree_recordOf x y

theorem Writes.written_ne_null {slot : KeySlot} {key written : Value}
    (h : slot.Writes key written) : written ≠ .null := by
  rcases exists_of_encode h.encodes with ⟨text, rfl⟩ | ⟨x, y, rfl⟩
  · nofun
  · nofun

theorem isTrip_secretKey {core : Core} {type : KeyType} {key other : Value}
    (h : RereadsSecret core key other)
    (hagain : encodeSecretKey core other = encodeSecretKey core key)
    (hadmits : type.admits key = true) (hother : type.admits other = true)
    (hnumbers : key.IsOfNumbers) (hotherNumbers : other.IsOfNumbers)
    (hsame : other.same key = true) : key.Makes (secretKey core type).IsTrip := by
  obtain ⟨text, hencodes, hdecodes⟩ := h
  have hencode : (secretKey core type).encode key = .ok (.text text) :=
    Outcome.map_eq_ok_iff.mpr ⟨text, hencodes, rfl⟩
  have hreencode : (secretKey core type).encode other = .ok (.text text) :=
    Outcome.map_eq_ok_iff.mpr ⟨text, hagain.trans hencodes, rfl⟩
  have hwrites : (secretKey core type).Writes key (.text text) :=
    ⟨hadmits, hnumbers, hencode, rfl⟩
  have hrewrites : (secretKey core type).Writes other (.text text) :=
    ⟨hother, hotherNumbers, hreencode, rfl⟩
  exact ⟨⟨key, .text text, other⟩, rfl, hwrites, hrewrites, hdecodes, hsame⟩

theorem isTrip_publicKey {core : Core} {type : KeyType} {strict : Bool} {key : Value}
    (h : RereadsPublic core key key) (hadmits : type.admits key = true)
    (hnumbers : key.IsOfNumbers) (hquiet : Reads.encoding core key = []) :
    key.Makes (publicKey core type strict).IsTrip := by
  obtain ⟨record, hencodes, hdecodes⟩ := h
  have hwrites : (publicKey core type strict).Writes key record :=
    ⟨hadmits, hnumbers, hencodes, hquiet⟩
  exact ⟨⟨key, record, key⟩, rfl, hwrites, hwrites, hdecodes strict, hnumbers.same_self⟩

theorem isFaithful_secretKey_secp256k1 : (secretKey .secp256k1 .secretKey).IsFaithful where
  answers h := by
    obtain ⟨n, -, hkey⟩ := decodeSecretKey_eq_ok_iff.mp h
    obtain ⟨k, -, rfl⟩ := Outcome.map_eq_ok_iff.mp hkey
    exact ⟨rfl, .secretKey k⟩
  returns hadmits hnumbers := by
    cases hnumbers with
    | secretKey k =>
        exact isTrip_secretKey k.restores.rereads rfl rfl rfl (.secretKey k) (.secretKey k.sealed)
          k.same_sealed
    | _ => cases hadmits

theorem isFaithful_publicKey_secp256k1 (strict : Bool) :
    (publicKey .secp256k1 .publicKey strict).IsFaithful where
  answers h := by
    obtain ⟨point, -, hkey⟩ := decodePublicKey_eq_ok_iff.mp h
    obtain ⟨k, -, rfl⟩ := Outcome.map_eq_ok_iff.mp hkey
    exact ⟨rfl, .publicKey k⟩
  returns hadmits hnumbers := by
    cases hnumbers with
    | publicKey k => exact isTrip_publicKey k.restores.rereads rfl (.publicKey k) rfl
    | _ => cases hadmits

theorem isFaithful_secretKey_unchecked : (secretKey .unchecked .fakeSecret).IsFaithful where
  answers h := by
    obtain ⟨n, -, hkey⟩ := decodeSecretKey_eq_ok_iff.mp h
    cases hkey
    exact ⟨rfl, .fakeSecret n⟩
  returns hadmits hnumbers := by
    cases hnumbers with
    | fakeSecret n =>
        have hkey := Value.IsOfNumbers.fakeSecret n
        exact isTrip_secretKey (Core.unchecked_restoresSecret n).rereads rfl rfl rfl hkey hkey
          hkey.same_self
    | _ => cases hadmits

theorem isFaithful_publicKey_unchecked (strict : Bool) :
    (publicKey .unchecked .fakePublic strict).IsFaithful where
  answers h := by
    obtain ⟨point, hpoint, hkey⟩ := decodePublicKey_eq_ok_iff.mp h
    obtain ⟨items, -, -, rfl⟩ := Record.meaning?_eq_some_iff.mp hpoint
    cases hkey
    exact ⟨rfl, .fakePublic _ _⟩
  returns hadmits hnumbers := by
    cases hnumbers with
    | fakePublic x y =>
        exact isTrip_publicKey (Core.unchecked_restoresPublic x y).rereads rfl (.fakePublic x y)
          rfl
    | _ => cases hadmits

end KeySlot

/-! ### What is written is a tree -/

theorem Value.IsTree.mono {depth more : Nat} {v : Value} (h : v.IsTree depth)
    (hmore : depth ≤ more) : v.IsTree more := by
  induction h generalizing more with
  | null => exact .null more
  | text _ s => exact .text more s
  | list _ ih =>
      cases more with
      | zero => cases hmore
      | succ more => exact .list fun v hv => ih v hv (Nat.le_of_succ_le_succ hmore)
  | table names hkeys hnames _ ih =>
      cases more with
      | zero => cases hmore
      | succ more =>
          exact .table names hkeys hnames fun e he => ih e he (Nat.le_of_succ_le_succ hmore)

namespace Schema

variable {Slot : Type} {slotTrip : Slot → Trip → Prop} {schema : Schema Slot} {t : Trip}

theorem IsTrip.tree {depth : Nat} (h : schema.IsTrip slotTrip t)
    (hnames : (schema.fields.map (·.name)).Nodup)
    (hslot : ∀ f ∈ schema.fields, ∀ s, slotTrip f.slot s → s.written.IsTree depth) :
    t.written.IsTree (depth + 1) := by
  obtain ⟨id, parts, hparts, htrips, -, hwritten, -⟩ := h
  rw [hwritten]
  have hkeys : (parts.map fun part => (Value.text part.1.name, part.2.written)).map Prod.fst =
      (schema.fields.map (·.name)).map .text := by
    rw [← hparts]
    simp [Function.comp_def]
  refine .table _ hkeys hnames ?_
  rw [List.forall_mem_map]
  intro part hpart
  have hfield : part.1 ∈ schema.fields := hparts ▸ List.mem_map_of_mem hpart
  exact hslot part.1 hfield part.2 (htrips part hpart)

theorem IsTrip.same (h : schema.IsTrip slotTrip t)
    (hslot : ∀ slot s, slotTrip slot s → s.reread.same s.held = true) :
    t.reread.same t.held = true := by
  obtain ⟨id, parts, -, htrips, hheld, -, hreread⟩ := h
  rw [hheld, hreread, Value.same, Bool.and_eq_true]
  refine ⟨beq_self_eq_true _, ?_⟩
  clear hheld hreread
  induction parts with
  | nil => rfl
  | cons part parts ih =>
      obtain ⟨hpart, hparts⟩ := List.forall_mem_cons.mp htrips
      simp [Value.sameFields, hslot _ _ hpart, ih hparts]

theorem IsTrip.again (h : schema.IsTrip slotTrip t)
    (hslot : ∀ slot s, slotTrip slot s → slotTrip slot s.again) :
    schema.IsTrip slotTrip t.again := by
  obtain ⟨id, parts, hparts, htrips, -, hwritten, hreread⟩ := h
  refine ⟨none, parts.map fun part => (part.1, part.2.again), ?_, ?_, ?_, ?_, ?_⟩
  · rw [List.map_map, ← hparts]
    rfl
  · rw [List.forall_mem_map]
    exact fun part hpart => hslot _ _ (htrips part hpart)
  · rw [Trip.again, hreread, List.map_map]
    rfl
  · rw [Trip.again, hwritten, List.map_map]
    rfl
  · rw [Trip.again, hreread, List.map_map]
    rfl

end Schema

theorem KeySlot.IsTrip.again {slot : KeySlot} {t : Trip} (h : slot.IsTrip t) :
    slot.IsTrip t.again :=
  ⟨h.rewrites, h.rewrites, h.decodes, h.rewrites.numbers.same_self⟩

theorem KeyForm.IsTrip.again {form : KeyForm} {t : Trip} (h : form.IsTrip t) :
    form.IsTrip t.again :=
  Schema.IsTrip.again h fun _ _ => KeySlot.IsTrip.again

theorem KeyForm.IsTrip.same {form : KeyForm} {t : Trip} (h : form.IsTrip t) :
    t.reread.same t.held = true :=
  Schema.IsTrip.same h fun _ _ hslot => hslot.same

theorem Schema.field?_of_mem {Slot : Type} {schema : Schema Slot}
    (hnames : (schema.fields.map (·.name)).Nodup) {f : SchemaField Slot} (hf : f ∈ schema.fields) :
    schema.field? f.name = some f := by
  unfold Schema.field?
  generalize schema.fields = fields at hnames hf
  induction fields with
  | nil => cases hf
  | cons first rest ih =>
      obtain ⟨hfirst, hrest⟩ := List.nodup_cons.mp hnames
      rcases List.mem_cons.mp hf with rfl | hf
      · exact List.find?_cons_of_pos (beq_self_eq_true _)
      · have hmem : f.name ∈ rest.map (·.name) := List.mem_map_of_mem hf
        have hne : (first.name == f.name) = false := by
          rw [beq_eq_false_iff_ne]
          intro heq
          rw [← heq] at hmem
          exact hfirst hmem
        simp only [List.find?_cons, hne]
        exact ih hrest hf

theorem exists_parts_of_map {α β γ : Type} {g : α → β} {parts : List (β × γ)} {xs : List α}
    (h : parts.map Prod.fst = xs.map g) :
    ∃ others : List (α × γ), others.map Prod.fst = xs ∧
      parts = others.map fun part => (g part.1, part.2) := by
  induction parts generalizing xs with
  | nil =>
      obtain rfl := List.map_eq_nil_iff.mp h.symm
      exact ⟨[], rfl, rfl⟩
  | cons part parts ih =>
      cases xs with
      | nil => cases h
      | cons x xs =>
          rw [List.map_cons, List.map_cons, List.cons.injEq] at h
          obtain ⟨others, hothers, rfl⟩ := ih h.2
          refine ⟨(x, part.2) :: others, ?_, ?_⟩
          · rw [List.map_cons, hothers]
          · rw [List.map_cons, ← h.1]

theorem KeyForm.isTrip_toModel_iff {form : KeyForm} {t : Trip} :
    form.toModel.IsTrip t ↔ form.IsTrip t := by
  constructor
  · rintro ⟨id, parts, hparts, htrips, hheld, hwritten, hreread⟩
    obtain ⟨others, hothers, rfl⟩ := exists_parts_of_map hparts
    rw [List.map_map] at hheld hwritten hreread
    exact ⟨id, others, hothers, List.forall_mem_map.mp htrips, hheld, hwritten, hreread⟩
  · rintro ⟨id, parts, hparts, htrips, hheld, hwritten, hreread⟩
    refine ⟨id, parts.map fun part => (⟨part.1.name, .key part.1.slot, part.1.default?⟩, part.2),
      ?_, ?_, ?_, ?_, ?_⟩
    · rw [KeyForm.toModel, ← hparts, List.map_map, List.map_map]
      rfl
    · rw [List.forall_mem_map]
      exact htrips
    · rw [hheld, List.map_map]
      rfl
    · rw [hwritten, List.map_map]
      rfl
    · rw [hreread, List.map_map]
      rfl

/-- The names of the fields of a model are distinct, and so are those of the forms in its lists. -/
structure Model.HasDistinctNames (model : Model) : Prop where
  fields : (model.fields.map (·.name)).Nodup
  forms : ∀ f ∈ model.fields, ∀ form, f.slot = .forms form → (form.fields.map (·.name)).Nodup

namespace Slot

theorem IsTrip.again {slot : Slot} {t : Trip} (h : slot.IsTrip t) : slot.IsTrip t.again := by
  cases slot with
  | key slot => exact KeySlot.IsTrip.again h
  | optionalKey slot =>
      rcases h with rfl | h
      · exact Or.inl rfl
      · exact Or.inr (KeySlot.IsTrip.again h)
  | forms form =>
      obtain ⟨items, hitems, rfl⟩ := h
      refine ⟨items.map Trip.again, ?_, ?_⟩
      · rw [List.forall_mem_map]
        exact fun item hitem => KeyForm.IsTrip.again (hitems item hitem)
      · simp [Trip.again, Function.comp_def]
  | keyTable slot =>
      obtain ⟨entries, hnames, hentries, rfl⟩ := h
      refine ⟨entries.map fun entry => (entry.1, entry.2.again), ?_, ?_, ?_⟩
      · rwa [List.map_map]
      · rw [List.forall_mem_map]
        exact fun entry hentry => (hentries entry hentry).again
      · simp [Trip.again, Function.comp_def]

theorem sameAll_of_trips {items : List Trip} (h : ∀ t ∈ items, t.reread.same t.held = true) :
    Value.sameAll (items.map Trip.reread) (items.map Trip.held) = true := by
  induction items with
  | nil => rfl
  | cons t items ih =>
      obtain ⟨ht, hitems⟩ := List.forall_mem_cons.mp h
      simp [Value.sameAll, ht, ih hitems]

theorem sameEntries_of_forall {entries others : List (Value × Value)}
    (h : ∀ entry ∈ entries, ∃ other ∈ others,
      entry.1.same other.1 = true ∧ entry.2.same other.2 = true) :
    Value.sameEntries entries others = true := by
  induction entries with
  | nil => rfl
  | cons entry entries ih =>
      obtain ⟨⟨other, hother, hkey, hvalue⟩, hentries⟩ := List.forall_mem_cons.mp h
      rw [Value.sameEntries, ih hentries, Bool.and_true, List.any_eq_true]
      exact ⟨other, hother, by simp [hkey, hvalue]⟩

/-- What a field has written is read as the same.  Entries may be found anywhere in the other table;
these are found at their own place. -/
theorem IsTrip.same {slot : Slot} {t : Trip} (h : slot.IsTrip t) :
    t.reread.same t.held = true := by
  cases slot with
  | key slot => exact KeySlot.IsTrip.same h
  | optionalKey slot =>
      rcases h with rfl | h
      · rfl
      · exact h.same
  | forms form =>
      obtain ⟨items, hitems, rfl⟩ := h
      exact sameAll_of_trips fun item hitem => KeyForm.IsTrip.same (hitems item hitem)
  | keyTable slot =>
      obtain ⟨entries, -, hentries, rfl⟩ := h
      simp only [Value.same, List.length_map, beq_self_eq_true, Bool.true_and]
      apply sameEntries_of_forall
      rw [List.forall_mem_map]
      intro entry hentry
      refine ⟨_, List.mem_map_of_mem hentry, ?_, (hentries entry hentry).same⟩
      simp

theorem IsTrip.tree {slot : Slot} {t : Trip} (h : slot.IsTrip t)
    (hnames : ∀ form, slot = .forms form → (form.fields.map (·.name)).Nodup) :
    t.written.IsTree 3 := by
  cases slot with
  | key slot => exact (KeySlot.IsTrip.writes h).tree.mono (by decide)
  | optionalKey slot =>
      rcases h with rfl | h
      · exact .null 3
      · exact h.writes.tree.mono (by decide)
  | forms form =>
      obtain ⟨items, hitems, rfl⟩ := h
      apply Value.IsTree.list
      rw [List.forall_mem_map]
      intro item hitem
      exact Schema.IsTrip.tree (hitems item hitem) (hnames form rfl)
        fun _ _ _ hkey => hkey.writes.tree
  | keyTable slot =>
      obtain ⟨entries, hdistinct, hentries, rfl⟩ := h
      have hkeys : (entries.map fun entry => (Value.text entry.1, entry.2.written)).map Prod.fst =
          (entries.map Prod.fst).map .text := by
        simp [Function.comp_def]
      refine .table _ hkeys hdistinct ?_
      rw [List.forall_mem_map]
      exact fun entry hentry => (hentries entry hentry).writes.tree.mono (by decide)

end Slot

namespace Model

variable {model : Model} {t : Trip}

theorem IsTrip.again (h : model.IsTrip t) : model.IsTrip t.again :=
  Schema.IsTrip.again h fun _ _ => Slot.IsTrip.again

theorem IsTrip.same (h : model.IsTrip t) : t.reread.same t.held = true :=
  Schema.IsTrip.same h fun _ _ => Slot.IsTrip.same

theorem IsTrip.tree (h : model.IsTrip t) (hnames : model.HasDistinctNames) :
    t.written.IsTree Json.nestingLimit := by
  have htree : t.written.IsTree 4 :=
    Schema.IsTrip.tree h hnames.fields fun f hf _ hslot => hslot.tree (hnames.forms f hf)
  exact htree.mono (by decide)

end Model
end KeyCodec
