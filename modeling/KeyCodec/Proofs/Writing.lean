import KeyCodec.Model.Dump
import KeyCodec.Proofs.Trips

/-!
# Instances that make a trip are written out

Writing out such an instance does not fail and reads no stream, whichever medium it is for: every
part of it is what is expected at its place, so nothing is counted as nested too deep, and the names
of its members are texts.
-/

namespace KeyCodec

/-- The dump gives the result and leaves all streams as they are. -/
def Dumping.Yields {α : Type} (d : Dumping α) (a : α) : Prop :=
  ∀ drains, d.run.run drains = (.ok a, drains)

namespace Dumping

variable {α β : Type} {d : Dumping α} {a : α}

theorem yields_pure (a : α) : (pure a : Dumping α).Yields a := fun _ => rfl

theorem Yields.bind {f : α → Dumping β} {b : β} (h : d.Yields a) (hf : (f a).Yields b) :
    (d >>= f).Yields b := by
  intro drains
  rw [ExceptT.run_bind, StateT.run_bind, h drains]
  exact hf drains

theorem yields_ofExcept {x : Except Fault α} (h : x = .ok a) :
    (MonadExcept.ofExcept x : Dumping α).Yields a := by
  subst h
  exact fun _ => rfl

theorem Yields.outcome (h : d.Yields a) : d.outcome = .ok a := by
  rw [Dumping.outcome, h []]

end Dumping

namespace Dump

variable {medium : Medium} {room : Nat}

/-! ### Keys -/

theorem writeKey_yields {slot : KeySlot} {key written : Value} (h : slot.Writes key written) :
    (writeKey medium slot key).Yields written := by
  intro drains
  unfold writeKey
  simp only [h.numbers.refresh_eq, h.quiet, h.encodes]
  rfl

theorem write_key_yields {slot : KeySlot} {key written : Value} (h : slot.Writes key written) :
    (write medium room (.slot (.key slot)) key).Yields written := by
  rw [write]
  exact writeKey_yields h

theorem write_optionalKey_yields {slot : KeySlot} {key written : Value}
    (h : slot.Writes key written) :
    (write medium room (.slot (.optionalKey slot)) key).Yields written := by
  have hcodec : Place.codec? (.slot (.optionalKey slot)) key = some slot := by
    cases key with
    | null => exact absurd rfl h.numbers.ne_null
    | _ => rfl
  rw [write, hcodec]
  exact writeKey_yields h

theorem write_null_yields (slot : KeySlot) :
    (write medium room (.slot (.optionalKey slot)) .null).Yields .null := by
  rw [write]
  cases medium <;> exact fun _ => rfl

/-! ### Containers -/

theorem writeFields_yields {schema : Model} {parts : List (SchemaField Slot × Trip)}
    (hfields : ∀ part ∈ parts, schema.field? part.1.name = some part.1)
    (hslots : ∀ part ∈ parts,
      (write medium room (.slot part.1.slot) part.2.held).Yields part.2.written) :
    (writeFields medium room schema (parts.map fun part => (part.1.name, part.2.held))).Yields
      (parts.map fun part => (.text part.1.name, part.2.written)) := by
  induction parts with
  | nil =>
      rw [List.map_nil, writeFields]
      exact Dumping.yields_pure _
  | cons part parts ih =>
      obtain ⟨hfield, hfields⟩ := List.forall_mem_cons.mp hfields
      obtain ⟨hslot, hslots⟩ := List.forall_mem_cons.mp hslots
      rw [List.map_cons, writeFields]
      simp only [hfield]
      exact hslot.bind ((ih hfields hslots).bind (Dumping.yields_pure _))

theorem writeItems_yields {place : Place} {items : List Trip}
    (h : ∀ item ∈ items, (write medium room place item.held).Yields item.written) :
    (writeItems medium room place (items.map Trip.held)).Yields (items.map Trip.written) := by
  induction items with
  | nil =>
      rw [List.map_nil, writeItems]
      exact Dumping.yields_pure _
  | cons item items ih =>
      obtain ⟨hitem, hitems⟩ := List.forall_mem_cons.mp h
      rw [List.map_cons, writeItems]
      exact hitem.bind ((ih hitems).bind (Dumping.yields_pure _))

theorem requireFingerprint_text (name : String) :
    ∃ fingerprint, Value.requireFingerprint Catalog.fieldNames (.text name) = .ok fingerprint :=
  ⟨_, rfl⟩

theorem writeEntries_yields {place : Place} {entries : List (String × Trip)}
    (h : ∀ entry ∈ entries,
      (write medium (room + 1) place entry.2.held).Yields entry.2.written) :
    (writeEntries medium (room + 1) place
      (entries.map fun entry => (.text entry.1, entry.2.held))).Yields
        (entries.map fun entry => (.text entry.1, entry.2.written)) := by
  induction entries with
  | nil =>
      rw [List.map_nil, writeEntries]
      exact Dumping.yields_pure _
  | cons entry entries ih =>
      obtain ⟨hentry, hentries⟩ := List.forall_mem_cons.mp h
      obtain ⟨fingerprint, hfingerprint⟩ := requireFingerprint_text entry.1
      simp only [List.map_cons]
      cases medium with
      | values =>
          have hname : (write .values (room + 1) .anything (.text entry.1)).Yields
              (.text entry.1) := by
            rw [write]
            exact fun _ => rfl
          rw [writeEntries]
          exact hname.bind (hentry.bind ((Dumping.yields_ofExcept hfingerprint).bind
            ((ih hentries).bind (Dumping.yields_pure _))))
      | text =>
          have hname : ((memberName (.text entry.1)).map Value.text).mapError (report .text) =
              .ok (.text entry.1) := rfl
          rw [writeEntries]
          exact (Dumping.yields_ofExcept hname).bind (hentry.bind
            ((Dumping.yields_ofExcept hfingerprint).bind
              ((ih hentries).bind (Dumping.yields_pure _))))

/-! ### Instances -/

theorem writeFields_of_isTrip {model : Model} {t : Trip} (h : model.IsTrip t)
    (hnames : (model.fields.map (·.name)).Nodup)
    (hslots : ∀ f ∈ model.fields, ∀ s, f.slot.IsTrip s →
      (write medium room (.slot f.slot) s.held).Yields s.written) :
    ∃ entries, t.written = .table entries ∧
      (writeFields medium room model (Model.fieldsOf t.held)).Yields entries := by
  obtain ⟨id, parts, hparts, htrips, hheld, hwritten, -⟩ := h
  refine ⟨_, hwritten, ?_⟩
  rw [hheld]
  have hmem : ∀ part ∈ parts, part.1 ∈ model.fields :=
    fun part hpart => hparts ▸ List.mem_map_of_mem hpart
  apply writeFields_yields
  · exact fun part hpart => Schema.field?_of_mem hnames (hmem part hpart)
  · exact fun part hpart => hslots part.1 (hmem part hpart) part.2 (htrips part hpart)

theorem write_form_yields {form : KeyForm} {t : Trip} (h : form.IsTrip t)
    (hnames : (form.fields.map (·.name)).Nodup) :
    (write medium room (.form form) t.held).Yields t.written := by
  have hmodelNames : (form.toModel.fields.map (·.name)).Nodup := by
    rwa [KeyForm.toModel, List.map_map]
  have hslots : ∀ f ∈ form.toModel.fields, ∀ s, f.slot.IsTrip s →
      (write medium room (.slot f.slot) s.held).Yields s.written := by
    simp only [KeyForm.toModel, List.forall_mem_map]
    exact fun f _ s hs => write_key_yields (KeySlot.IsTrip.writes hs)
  obtain ⟨entries, hwritten, hyields⟩ :=
    writeFields_of_isTrip (KeyForm.isTrip_toModel_iff.mpr h) hmodelNames hslots
  obtain ⟨id, parts, -, -, hheld, -, -⟩ := h
  rw [hwritten, hheld, write]
  rw [hheld] at hyields
  exact hyields.bind (Dumping.yields_pure _)

/-- A field is written as its trip says.  Every container is what its place expects, so entering it
takes no room. -/
theorem write_slot_yields {slot : Slot} {t : Trip} (h : slot.IsTrip t)
    (hnames : ∀ form, slot = .forms form → (form.fields.map (·.name)).Nodup) :
    (write medium (room + 1) (.slot slot) t.held).Yields t.written := by
  cases slot with
  | key slot => exact write_key_yields (KeySlot.IsTrip.writes h)
  | optionalKey slot =>
      rcases h with rfl | h
      · exact write_null_yields slot
      · exact write_optionalKey_yields h.writes
  | forms form =>
      obtain ⟨items, hitems, rfl⟩ := h
      have hwritten : (writeItems medium (room + 1) (.form form) (items.map Trip.held)).Yields
          (items.map Trip.written) :=
        writeItems_yields fun item hitem => write_form_yields (hitems item hitem) (hnames form rfl)
      rw [write]
      exact hwritten.bind (Dumping.yields_pure _)
  | keyTable slot =>
      obtain ⟨entries, -, hentries, rfl⟩ := h
      have hwritten : (writeEntries medium (room + 1) (.slot (.key slot))
          (entries.map fun entry => (.text entry.1, entry.2.held))).Yields
            (entries.map fun entry => (.text entry.1, entry.2.written)) :=
        writeEntries_yields fun entry hentry => write_key_yields (hentries entry hentry).writes
      rw [write]
      exact hwritten.bind (Dumping.yields_pure _)

end Dump

namespace Model

variable {model : Model} {t : Trip}

/-- An instance that makes a trip is written out as the trip says, for either medium. -/
theorem IsTrip.dump_yields (h : model.IsTrip t) (hnames : model.HasDistinctNames)
    (medium : Medium) : (model.dump medium t.held).Yields t.written := by
  have hslots : ∀ f ∈ model.fields, ∀ s, f.slot.IsTrip s →
      (Dump.write medium Place.nestingLimit (.slot f.slot) s.held).Yields s.written :=
    fun f hf s hs => Dump.write_slot_yields hs (hnames.forms f hf)
  obtain ⟨entries, hwritten, hyields⟩ := Dump.writeFields_of_isTrip h hnames.fields hslots
  rw [hwritten]
  exact hyields.bind (Dumping.yields_pure _)

theorem IsTrip.dumpText_yields (h : model.IsTrip t) (hnames : model.HasDistinctNames) :
    (model.dumpText t.held).Yields (Json.ofValue t.written).write :=
  (h.dump_yields hnames .text).bind (Dumping.yields_pure _)

theorem IsTrip.dumpBytes_yields (h : model.IsTrip t) (hnames : model.HasDistinctNames) :
    (model.dumpBytes t.held).Yields (Json.ofValue t.written).write.toUTF8.toList :=
  (h.dumpText_yields hnames).bind (Dumping.yields_pure _)

end Model
end KeyCodec
