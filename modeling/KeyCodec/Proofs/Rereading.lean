import KeyCodec.Proofs.Sources
import KeyCodec.Proofs.Trips
import KeyCodec.Proofs.Verdicts

/-!
# What was written is read again

What a trip has written may be offered to a check as it is, or as the JSON tree of it.  The check
accepts it either way, with what the trip says is read again, whatever has been read from streams.
-/

namespace KeyCodec

namespace Json

theorem putMember_of_not_mem {members : List (String × Json)} {name : String}
    (h : name ∉ members.map Prod.fst) (j : Json) :
    putMember members name j = members ++ [(name, j)] := by
  induction members with
  | nil => rfl
  | cons member rest ih =>
      rw [List.map_cons, List.mem_cons, not_or] at h
      rw [putMember, if_neg (Ne.symm h.1), ih h.2, List.cons_append]

theorem foldl_putMember_of_nodup {done members : List (String × Json)}
    (h : ((done ++ members).map Prod.fst).Nodup) :
    members.foldl (fun done (name, j) => putMember done name j) done = done ++ members := by
  induction members generalizing done with
  | nil => exact (List.append_nil done).symm
  | cons member rest ih =>
      obtain ⟨name, j⟩ := member
      have hmove : done ++ (name, j) :: rest = (done ++ [(name, j)]) ++ rest := by simp
      have hname : name ∉ done.map Prod.fst := by
        rw [List.map_append, List.nodup_append] at h
        intro hmem
        exact h.2.2 name hmem name (by simp) rfl
      change rest.foldl _ (putMember done name j) = _
      rw [putMember_of_not_mem hname, hmove]
      exact ih (hmove ▸ h)

theorem distinctMembers_of_nodup {members : List (String × Json)}
    (h : (members.map Prod.fst).Nodup) : distinctMembers members = members := by
  have hfold := foldl_putMember_of_nodup (List.nil_append members ▸ h)
  rw [distinctMembers, hfold, List.nil_append]

end Json

namespace Source

/-- A way to offer trees to a check: it shows the tree as it is, and offers its parts. -/
structure Offers (offer : Value → Source) : Prop where
  shows : ∀ {depth : Nat} {v : Value}, v.IsTree depth → (offer v).toValue = v
  items : ∀ vs : List Value, (offer (.list vs)).sequence? = some (vs.map offer)
  still : ∀ vs : List Value, (offer (.list vs)).streamId? = none
  entries : ∀ {α : Type} (name : α → String) (part : α → Value) (xs : List α),
    (offer (.table (xs.map fun x => (.text (name x), part x)))).entries? =
      some (xs.map fun x => (.text (name x), offer (part x)))
  members : ∀ {α : Type} (name : α → String) (part : α → Value) (xs : List α),
    (xs.map name).Nodup →
      (offer (.table (xs.map fun x => (.text (name x), part x)))).members? =
        some (xs.map fun x => (.text (name x), offer (part x)))

theorem offers_held : Offers held where
  shows _ := rfl
  items _ := rfl
  still _ := rfl
  entries name part xs := by simp [entries?]
  members name part xs _ := by simp [members?, entries?]

theorem offers_parsed : Offers fun v => parsed (Json.ofValue v) where
  shows h := Json.toValue_ofValue h
  items vs := by simp [Json.ofValue, sequence?, Json.ofValues_eq_map]
  still _ := rfl
  entries name part xs := by simp [Json.ofValue, entries?, Json.ofEntries_eq_map, Json.nameOf]
  members name part xs h := by
    have hobject : Json.ofEntries (xs.map fun x => (.text (name x), part x)) =
        xs.map fun x => (name x, Json.ofValue (part x)) := by
      simp [Json.ofEntries_eq_map, Json.nameOf]
    have hnames : ((xs.map fun x => (name x, Json.ofValue (part x))).map Prod.fst).Nodup := by
      simpa [Function.comp_def] using h
    simp only [Json.ofValue, members?, entries?, hobject, Json.distinctMembers_of_nodup hnames]
    simp

theorem named?_of_mem {α : Type} {name : α → String} {source : α → Source} {xs : List α}
    (hnames : (xs.map name).Nodup) {x : α} (hx : x ∈ xs) :
    named? (xs.map fun x => (.text (name x), source x)) (name x) = some (source x) := by
  induction xs with
  | nil => cases hx
  | cons first rest ih =>
      obtain ⟨hfirst, hrest⟩ := List.nodup_cons.mp hnames
      rw [List.map_cons]
      rcases List.mem_cons.mp hx with rfl | hx
      · exact named?_cons_of_eq rfl _
      · have hmem : name x ∈ rest.map name := List.mem_map_of_mem hx
        have hne : Value.text (name first) ≠ .text (name x) := by
          intro heq
          rw [← Value.text.inj heq] at hmem
          exact hfirst hmem
        rw [named?_cons_of_ne hne]
        exact ih hrest hx

end Source

variable {offer : Value → Source}

/-- The check accepts what the trip has written, whatever has been read from streams. -/
def Trip.IsReread (t : Trip) (offer : Value → Source) (check : Drains → Source → Step Value) :
    Prop :=
  ∀ drains, (check drains (offer t.written)).verdict = .accepted t.reread

/-! ### Keys -/

theorem Value.IsTree.not_admitted {depth : Nat} {v : Value} (h : v.IsTree depth)
    (type : KeyType) (drains : Drains) : type.admits (drains.current v) = false := by
  cases h <;> cases type <;> rfl

theorem Value.IsTree.current {depth : Nat} {v : Value} (h : v.IsTree depth) (drains : Drains) :
    drains.current v = v := by
  cases h <;> rfl

theorem KeySlot.IsTrip.isReread {slot : KeySlot} {t : Trip} (h : slot.IsTrip t)
    (hoffer : Source.Offers offer) : t.IsReread offer slot.check := by
  intro drains
  have hvalue : (offer t.written).toValue = t.written := hoffer.shows h.writes.tree
  have hadmits : slot.type.admits (drains.current (offer t.written).toValue) = false := by
    rw [hvalue]
    exact h.writes.tree.not_admitted slot.type drains
  rw [check_of_not_admits hadmits, hvalue, h.writes.tree.current, h.decodes, judge,
    if_pos h.rewrites.admits]

/-! ### Schemas -/

namespace Schema

variable {Slot : Type} {schema : Schema Slot} {slotTrip : Slot → Trip → Prop}
  {check : Slot → Drains → Source → Step Value}

theorem checkFields_of_trips {entries : List (Value × Source)}
    {parts : List (SchemaField Slot × Trip)}
    (hentries : ∀ part ∈ parts,
      Source.named? entries part.1.name = some (offer part.2.written))
    (hparts : ∀ part ∈ parts, part.2.IsReread offer (check part.1.slot)) (drains : Drains) :
    (checkFields check entries (parts.map Prod.fst) drains).verdict =
      .accepted (parts.map fun part => (part.1.name, part.2.reread)) := by
  induction parts generalizing drains with
  | nil => rfl
  | cons part parts ih =>
      obtain ⟨hentry, hentries⟩ := List.forall_mem_cons.mp hentries
      obtain ⟨hpart, hparts⟩ := List.forall_mem_cons.mp hparts
      rw [List.map_cons, checkFields, Step.verdict_andThen_eq_accepted_iff]
      refine ⟨part.2.reread, _, ?_, ih hentries hparts _, rfl⟩
      simp only [hentry, checkField]
      exact Verdict.under_eq_accepted_iff.mpr (hpart drains)

theorem extras_of_trips (parts : List (SchemaField Slot × Trip))
    (hparts : parts.map Prod.fst = schema.fields) (source : SchemaField Slot × Trip → Source) :
    schema.extras (parts.map fun part => (.text part.1.name, source part)) = [] := by
  rw [extras, List.filterMap_eq_nil_iff, List.forall_mem_map]
  intro part hpart
  have hdeclares : schema.declares part.1.name = true := by
    rw [declares, List.any_eq_true]
    exact ⟨part.1, hparts ▸ List.mem_map_of_mem hpart, beq_self_eq_true _⟩
  simp [hdeclares]

theorem IsTrip.isReread {t : Trip} (h : schema.IsTrip slotTrip t)
    (hnames : (schema.fields.map (·.name)).Nodup) (hoffer : Source.Offers offer)
    (hslot : ∀ f ∈ schema.fields, ∀ s, slotTrip f.slot s → s.IsReread offer (check f.slot)) :
    t.IsReread offer (Schema.check check schema) := by
  obtain ⟨id, parts, hparts, htrips, -, hwritten, hreread⟩ := h
  have hpartNames : (parts.map fun part => part.1.name).Nodup := by
    rwa [← hparts, List.map_map] at hnames
  intro drains
  have hmembers : (offer t.written).members? =
      some (parts.map fun part => (.text part.1.name, offer part.2.written)) := by
    rw [hwritten]
    exact hoffer.members (fun part => part.1.name) (fun part => part.2.written) parts hpartNames
  have hchecked : ∀ part ∈ parts, part.2.IsReread offer (check part.1.slot) := fun part hpart =>
    hslot part.1 (hparts ▸ List.mem_map_of_mem hpart) part.2 (htrips part hpart)
  have hnamed : ∀ part ∈ parts, Source.named?
      (parts.map fun part => (.text part.1.name, offer part.2.written)) part.1.name =
        some (offer part.2.written) :=
    fun part hpart => Source.named?_of_mem hpartNames hpart
  have hextras := extras_of_trips parts hparts fun part => offer part.2.written
  rw [check_of_members hmembers, Step.verdict_map, Verdict.map_eq_accepted_iff]
  refine ⟨_, ?_, hreread.symm⟩
  rw [Step.verdict_andThen_eq_accepted_iff, ← hparts]
  refine ⟨_, (), checkFields_of_trips hnamed hchecked drains, ?_, rfl⟩
  rw [Step.verdict_of, hextras]
  rfl

end Schema

theorem KeyForm.IsTrip.isReread {form : KeyForm} {t : Trip} (h : form.IsTrip t)
    (hnames : (form.fields.map (·.name)).Nodup) (hoffer : Source.Offers offer) :
    t.IsReread offer form.check :=
  Schema.IsTrip.isReread h hnames hoffer fun _ _ _ hslot => hslot.isReread hoffer

/-! ### Lists and tables -/

namespace Slot

theorem checkItems_of_trips {check : Drains → Source → Step Value} {items : List Trip}
    (h : ∀ item ∈ items, item.IsReread offer check) (i : Nat) (drains : Drains) :
    (checkItems check i (items.map fun item => offer item.written) drains).verdict =
      .accepted (items.map Trip.reread) := by
  induction items generalizing i drains with
  | nil => rfl
  | cons item items ih =>
      obtain ⟨hitem, hitems⟩ := List.forall_mem_cons.mp h
      rw [List.map_cons, checkItems, Step.verdict_andThen_eq_accepted_iff]
      refine ⟨item.reread, _, ?_, ih hitems _ _, rfl⟩
      exact Verdict.under_eq_accepted_iff.mpr (hitem drains)

theorem checkEntries_of_trips {check : Drains → Source → Step Value}
    {entries : List (String × Trip)} (h : ∀ entry ∈ entries, entry.2.IsReread offer check)
    (drains : Drains) :
    (checkEntries check (entries.map fun entry => (.text entry.1, offer entry.2.written))
      drains).verdict =
        .accepted (entries.map fun entry => (.text entry.1, entry.2.reread)) := by
  induction entries generalizing drains with
  | nil => rfl
  | cons entry entries ih =>
      obtain ⟨hentry, hentries⟩ := List.forall_mem_cons.mp h
      simp only [List.map_cons]
      rw [checkEntries, Step.verdict_andThen_eq_accepted_iff]
      refine ⟨(.text entry.1, entry.2.reread), _, ?_, ih hentries _, rfl⟩
      rw [Step.verdict_andThen_eq_accepted_iff]
      refine ⟨.text entry.1, entry.2.reread, rfl, ?_, rfl⟩
      exact Verdict.under_eq_accepted_iff.mpr (hentry _)

/-- What a field has written is accepted again.  A list is no stream, so none of its items has been
given out before. -/
theorem IsTrip.isReread {slot : Slot} {t : Trip} (h : slot.IsTrip t)
    (hnames : ∀ form, slot = .forms form → (form.fields.map (·.name)).Nodup)
    (hoffer : Source.Offers offer) : t.IsReread offer slot.check := by
  intro drains
  cases slot with
  | key slot => exact KeySlot.IsTrip.isReread h hoffer drains
  | optionalKey slot =>
      rcases h with rfl | h
      · rw [check_optionalKey_of_null (hoffer.shows (.null 0))]
        rfl
      · have hpresent : (offer t.written).toValue ≠ .null := by
          rw [hoffer.shows h.writes.tree]
          exact h.writes.written_ne_null
        rw [check_optionalKey_of_ne_null hpresent]
        exact h.isReread hoffer drains
  | forms form =>
      obtain ⟨items, hitems, rfl⟩ := h
      have hform : ∀ item ∈ items, item.IsReread offer form.check :=
        fun item hitem => KeyForm.IsTrip.isReread (hitems item hitem) (hnames form rfl) hoffer
      have hspent (total : Nat) :
          (offer (.list (items.map Trip.written))).spent drains total = 0 := by
        simp only [Source.spent, hoffer.still]
      rw [check_forms_of_sequence (hoffer.items _), hspent, List.drop_zero, List.map_map,
        Step.verdict_map, Verdict.map_eq_accepted_iff]
      exact ⟨_, checkItems_of_trips hform 0 _, rfl⟩
  | keyTable slot =>
      obtain ⟨entries, hdistinct, hentries, rfl⟩ := h
      have hslot : ∀ entry ∈ entries, entry.2.IsReread offer slot.check :=
        fun entry hentry => (hentries entry hentry).isReread hoffer
      have htable : Value.tableOf (entries.map fun entry => (.text entry.1, entry.2.reread)) =
          .table (entries.map fun entry => (.text entry.1, entry.2.reread)) := by
        apply Value.tableOf_of_distinctKeys
        apply Value.distinctKeys_of_texts _ hdistinct
        simp [Function.comp_def]
      have hentries := hoffer.entries Prod.fst (fun entry => entry.2.written) entries
      rw [check_keyTable_of_entries hentries, Step.verdict_map, Verdict.map_eq_accepted_iff]
      exact ⟨_, checkEntries_of_trips hslot drains, htable⟩

end Slot

theorem Model.IsTrip.isReread {model : Model} {t : Trip} (h : model.IsTrip t)
    (hnames : model.HasDistinctNames) (hoffer : Source.Offers offer) :
    t.IsReread offer model.check :=
  Schema.IsTrip.isReread h hnames.fields hoffer fun f hf _ hslot =>
    hslot.isReread (hnames.forms f hf) hoffer

end KeyCodec
