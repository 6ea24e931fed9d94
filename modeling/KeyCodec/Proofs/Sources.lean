import KeyCodec.Model.Validate

/-!
# What a source offers

The members and the items of a source, and what is left of its items when some have been read.  Held
values and parsed text differ in what counts as a container; behind these lemmas they do not.
-/

namespace KeyCodec
namespace Source

theorem toValue_of_members {s : Source} {entries : List (Value × Source)}
    (h : s.members? = some entries) : ∃ t, s.toValue = .table t := by
  cases s with
  | held v =>
      cases v with
      | table t => exact ⟨t, rfl⟩
      | _ => cases h
  | parsed j =>
      cases j with
      | object members => exact ⟨_, rfl⟩
      | _ => cases h

theorem isNamed_iff {name : String} {entry : Value × Source} :
    isNamed name entry = true ↔ entry.1 = .text name := by
  obtain ⟨k, s⟩ := entry
  cases k with
  | text t => simp [isNamed]
  | _ => simp [isNamed]

theorem named?_cons_of_eq {name : String} {entry : Value × Source} (h : entry.1 = .text name)
    (rest : List (Value × Source)) : named? (entry :: rest) name = some entry.2 := by
  rw [named?, List.find?_cons_of_pos (isNamed_iff.mpr h), Option.map_some]

theorem named?_cons_of_ne {name : String} {entry : Value × Source} (h : entry.1 ≠ .text name)
    (rest : List (Value × Source)) : named? (entry :: rest) name = named? rest name := by
  rw [named?, List.find?_cons_of_neg (mt isNamed_iff.mp h), named?]

def streamId? : Source → Option Nat
  | held (.stream id _ _) => some id
  | _ => none

def spent (drains : Drains) (s : Source) (total : Nat) : Nat :=
  match s.streamId? with
  | some id => total - drains.left id total
  | none => 0

/-- Reading takes the first items of a stream away, and nothing from any other source. -/
theorem sequence?_refresh {s : Source} {items : List Source} (h : s.sequence? = some items)
    (drains : Drains) :
    (s.refresh drains).sequence? = some (items.drop (s.spent drains items.length)) := by
  cases s with
  | parsed j => simpa [refresh, spent, streamId?] using h
  | held v =>
      cases v with
      | stream id derived unread =>
          simp only [sequence?, Value.items?, Option.map_some, Option.some.injEq] at h
          subst h
          simp [refresh, spent, streamId?, Drains.current, Drains.unread, sequence?,
            Value.items?, List.map_drop]
      | _ => simpa [refresh, spent, streamId?, Drains.current] using h

theorem sequence?_refresh_of_none {s : Source} (h : s.sequence? = none) (drains : Drains) :
    s.refresh drains = s := by
  cases s with
  | parsed j => rfl
  | held v =>
      cases v with
      | stream id derived unread => cases h
      | _ => rfl

/-- The reads after a source has been read to its end. -/
def exhaust (drains : Drains) (s : Source) : Drains :=
  match s.streamId? with
  | some id => (id, 0) :: drains
  | none => drains

theorem note_refresh (s : Source) (drains : Drains) :
    drains.note (s.refresh drains).toValue [] = s.exhaust drains := by
  cases s with
  | held v => cases v <;> rfl
  | parsed j => cases j <;> rfl

end Source

namespace KeySlot

theorem check_of_admits {slot : KeySlot} {drains : Drains} {s : Source}
    (h : slot.type.admits (drains.current s.toValue) = true) :
    slot.check drains s = Step.of drains (.accepted (drains.current s.toValue)) := by
  simp only [check, h, if_true]

def drainsAfter (slot : KeySlot) (drains : Drains) (v : Value) : Drains :=
  if slot.readsStreams then drains.note v (slot.decode v).unread else drains

theorem check_of_not_admits {slot : KeySlot} {drains : Drains} {s : Source}
    (h : slot.type.admits (drains.current s.toValue) = false) :
    slot.check drains s =
      ⟨slot.judge (slot.decode (drains.current s.toValue)).outcome,
        (slot.decode (drains.current s.toValue)).notices,
        slot.drainsAfter drains (drains.current s.toValue)⟩ := by
  simp only [check, h, Bool.false_eq_true, if_false, drainsAfter]

theorem judge_eq_accepted_iff {slot : KeySlot} {answer : Except Fault Value} {key : Value} :
    slot.judge answer = .accepted key ↔ answer = .ok key ∧ slot.type.admits key = true := by
  cases answer with
  | error f =>
      rw [judge]
      split <;> simp
  | ok k =>
      rw [judge, Except.ok.injEq]
      split
      · next hadmits =>
        rw [Verdict.accepted.injEq]
        exact ⟨fun h => ⟨h, h ▸ hadmits⟩, And.left⟩
      · next hadmits =>
        refine iff_of_false nofun ?_
        rintro ⟨rfl, h⟩
        exact hadmits h

/-- A position takes what is ready, or an answer of its codec that is of the right type. -/
theorem cases_of_check {slot : KeySlot} {drains : Drains} {s : Source} {key : Value}
    (h : (slot.check drains s).verdict = .accepted key) :
    slot.type.admits (drains.current s.toValue) = true ∧ key = drains.current s.toValue ∨
      (slot.decode (drains.current s.toValue)).outcome = .ok key ∧
        slot.type.admits key = true := by
  cases hadmits : slot.type.admits (drains.current s.toValue) with
  | true =>
      rw [check_of_admits hadmits] at h
      cases h
      exact Or.inl ⟨rfl, rfl⟩
  | false =>
      rw [check_of_not_admits hadmits] at h
      exact Or.inr (judge_eq_accepted_iff.mp h)

end KeySlot

namespace Slot

theorem check_optionalKey_of_ne_null {slot : KeySlot} {s : Source} (h : s.toValue ≠ .null)
    (drains : Drains) : check (.optionalKey slot) drains s = slot.check drains s := by
  cases hv : s.toValue with
  | null => exact absurd hv h
  | _ => simp only [check, hv]

theorem check_optionalKey_of_null {slot : KeySlot} {s : Source} (h : s.toValue = .null)
    (drains : Drains) : check (.optionalKey slot) drains s = Step.of drains (.accepted .null) := by
  simp only [check, h]

theorem check_forms_of_sequence {form : KeyForm} {s : Source} {items : List Source}
    (h : s.sequence? = some items) (drains : Drains) :
    check (.forms form) drains s =
      (checkItems form.check 0 (items.drop (s.spent drains items.length))
        (s.exhaust drains)).map .list := by
  simp only [check, Source.sequence?_refresh h, Source.note_refresh]

theorem check_forms_of_none {form : KeyForm} {s : Source} (h : s.sequence? = none)
    (drains : Drains) :
    check (.forms form) drains s = Step.of drains (.rejected [⟨[], .notList s.fromText⟩]) := by
  simp only [check, Source.sequence?_refresh_of_none h, h]

theorem check_keyTable_of_entries {slot : KeySlot} {s : Source} {entries : List (Value × Source)}
    (h : s.entries? = some entries) (drains : Drains) :
    check (.keyTable slot) drains s = (checkEntries slot.check entries drains).map .tableOf := by
  simp only [check, h]

theorem check_keyTable_of_none {slot : KeySlot} {s : Source} (h : s.entries? = none)
    (drains : Drains) :
    check (.keyTable slot) drains s = Step.of drains (.rejected [⟨[], .notTable s.fromText⟩]) := by
  simp only [check, h]

end Slot

namespace Schema

variable {Slot : Type} {schema : Schema Slot} {check : Slot → Drains → Source → Step Value}

theorem not_isInstance_of_members {s : Source} {entries : List (Value × Source)}
    (h : s.members? = some entries) : schema.isInstance s.toValue = false := by
  obtain ⟨t, ht⟩ := Source.toValue_of_members h
  rw [ht]
  rfl

theorem check_of_isInstance {s : Source} (h : schema.isInstance s.toValue = true)
    (drains : Drains) :
    Schema.check check schema drains s = Step.of drains (.accepted s.toValue) := by
  simp only [Schema.check, h, if_true]

/-- Which entries are not declared depends on their keys alone. -/
theorem extras_eq_of_keys {entries others : List (Value × Source)}
    (h : entries.map Prod.fst = others.map Prod.fst) :
    schema.extras entries = schema.extras others := by
  induction entries generalizing others with
  | nil =>
      obtain rfl := List.map_eq_nil_iff.mp h.symm
      rfl
  | cons entry entries ih =>
      obtain ⟨k, s⟩ := entry
      cases others with
      | nil => cases h
      | cons other others =>
          obtain ⟨l, t⟩ := other
          obtain ⟨rfl, hrest⟩ := List.cons.inj h
          unfold extras at ih ⊢
          rw [List.filterMap_cons, List.filterMap_cons, ih hrest]

theorem check_of_members {s : Source} {entries : List (Value × Source)}
    (h : s.members? = some entries) (drains : Drains) :
    Schema.check check schema drains s =
      ((checkFields check entries schema.fields drains).andThen (fun fields _ => fields)
        fun drains => Step.of drains (.ofRows (schema.extras entries))).map
          (.model none schema.name) := by
  simp only [Schema.check, not_isInstance_of_members h, h, Bool.false_eq_true, if_false]

theorem check_of_no_members {s : Source} (hinstance : schema.isInstance s.toValue = false)
    (h : s.members? = none) (drains : Drains) :
    Schema.check check schema drains s =
      Step.of drains (.rejected [⟨[], .notModel schema.name s.fromText⟩]) := by
  simp only [Schema.check, hinstance, h, Bool.false_eq_true, if_false]

end Schema

theorem Model.validateText_of_characters {text : Value} {s : String} {j : Json}
    (hs : Model.characters? text = some s) (hj : Json.parse? s = some j) (model : Model) :
    model.validateText text = model.check [] (.parsed j) := by
  simp only [validateText, hs, Option.bind_some, hj]

theorem Model.validateText_of_parse {text : String} {j : Json} (h : Json.parse? text = some j)
    (model : Model) : model.validateText (.text text) = model.check [] (.parsed j) :=
  validateText_of_characters rfl h model

end KeyCodec
