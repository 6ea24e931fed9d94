import KeyCodec.Proofs.Sources
import KeyCodec.Proofs.Verdicts

/-!
# Checks of several parts

The fields of a schema, the items of a list and the entries of a table are checked in the same
manner: part after part, each under its own step, every part with what the parts before it have left
of the streams.  The three loops are instances of one.
-/

namespace KeyCodec

def Step.branch : List (PathItem × (Drains → Step Value)) → Drains → Step (List Value)
  | [], drains => of drains (.accepted [])
  | (item, check) :: rest, drains =>
    ((check drains).under item).andThen List.cons (branch rest)

/-- The check of what stands for a field of a schema, without the step that leads there. -/
def Schema.checkValue {Slot : Type} (check : Slot → Drains → Source → Step Value)
    (entries : List (Value × Source)) (f : SchemaField Slot) (drains : Drains) : Step Value :=
  match Source.named? entries f.name, f.default? with
  | some s, _ => check f.slot drains s
  | none, some v => Step.of drains (.accepted v)
  | none, none => Step.of drains (.rejected [⟨[], .missing⟩])

theorem Schema.checkField_eq {Slot : Type} (check : Slot → Drains → Source → Step Value)
    (entries : List (Value × Source)) (f : SchemaField Slot) (drains : Drains) :
    checkField check f drains (Source.named? entries f.name) =
      (checkValue check entries f drains).under (.name f.name) := by
  unfold checkField checkValue
  cases Source.named? entries f.name with
  | some s => rfl
  | none => cases f.default? <;> rfl

/-- Checking fields is checking the branch of what stands for them, under their names. -/
theorem Schema.checkFields_eq_branch {Slot : Type} (check : Slot → Drains → Source → Step Value)
    (entries : List (Value × Source)) (fields : List (SchemaField Slot)) (drains : Drains) :
    checkFields check entries fields drains =
      (Step.branch (fields.map fun f => (.name f.name, checkValue check entries f)) drains).map
        (fields.map (·.name)).zip := by
  induction fields generalizing drains with
  | nil => rfl
  | cons f rest ih =>
      have htail : checkFields check entries rest = fun drains =>
          (Step.branch (rest.map fun f => (.name f.name, checkValue check entries f)) drains).map
            (rest.map (·.name)).zip := funext ih
      rw [checkFields, checkField_eq, htail, Step.andThen_map]
      exact (Step.map_andThen ((f :: rest).map (·.name)).zip _ List.cons _).symm

theorem Slot.checkItems_eq_branch (check : Drains → Source → Step Value) (i : Nat)
    (items : List Source) (drains : Drains) :
    checkItems check i items drains =
      Step.branch ((items.zipIdx i).map fun (s, j) => (.index j, fun drains => check drains s))
        drains := by
  induction items generalizing i drains with
  | nil => rfl
  | cons s rest ih =>
      have htail : checkItems check (i + 1) rest = Step.branch ((rest.zipIdx (i + 1)).map
          fun (s, j) => (.index j, fun drains => check drains s)) := funext (ih (i + 1))
      rw [checkItems, htail, List.zipIdx_cons, List.map_cons, Step.branch]

theorem Slot.checkEntries_eq_branch (check : Drains → Source → Step Value)
    {entries : List (Value × Source)} {names : List String}
    (h : entries.map Prod.fst = names.map .text) (drains : Drains) :
    checkEntries check entries drains =
      (Step.branch (entries.map fun (k, s) => (PathItem.ofKey k, fun drains => check drains s))
        drains).map (names.map .text).zip := by
  induction entries generalizing names drains with
  | nil =>
      obtain rfl := List.map_eq_nil_iff.mp h.symm
      rfl
  | cons entry rest ih =>
      obtain ⟨k, s⟩ := entry
      cases names with
      | nil => cases h
      | cons name names =>
          rw [List.map_cons, List.map_cons, List.cons.injEq] at h
          obtain ⟨rfl, hrest⟩ := h
          have htail : checkEntries check rest = fun drains =>
              (Step.branch (rest.map fun (k, s) =>
                (PathItem.ofKey k, fun drains => check drains s)) drains).map
                  (names.map .text).zip := funext (ih hrest)
          rw [checkEntries, htail, entryName, Step.andThen_of_accepted, Step.andThen_of_map,
            Step.andThen_map]
          exact (Step.map_andThen ((name :: names).map Value.text).zip _ List.cons _).symm

end KeyCodec
