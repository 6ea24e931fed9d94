import KeyCodec.Value.Printer

/-!
# Values that can be written

A value has a text exactly when every integer that its text would show is short enough.  The items
of a stream are not shown, so their length does not matter.
-/

namespace KeyCodec

theorem Integer.text?_isSome_iff (i : Int) :
    (Integer.text? i).isSome ↔ i.natAbs < Integer.textBound := by
  unfold Integer.text?
  split
  · next h => exact iff_of_true rfl h
  · next h => exact iff_of_false Bool.false_ne_true h

namespace Value

mutual

/-- Every integer in a value has at most 4300 digits. -/
def ShortIntegers : Value → Prop
  | int i => i.natAbs < Integer.textBound
  | list vs => ShortIntegersAll vs
  | tuple vs => ShortIntegersAll vs
  | point x y => ShortIntegers x ∧ ShortIntegers y
  | table entries => ShortIntegersEntries entries
  | fakeSecret content => ShortIntegers content
  | fakePublic content => ShortIntegers content
  | model _ _ fields => ShortIntegersFields fields
  | _ => True
termination_by structural v => v

def ShortIntegersAll : List Value → Prop
  | [] => True
  | v :: vs => ShortIntegers v ∧ ShortIntegersAll vs

def ShortIntegersEntries : List (Value × Value) → Prop
  | [] => True
  | (k, v) :: entries => ShortIntegers k ∧ ShortIntegers v ∧ ShortIntegersEntries entries

def ShortIntegersFields : List (String × Value) → Prop
  | [] => True
  | (_, v) :: fields => ShortIntegers v ∧ ShortIntegersFields fields

end

mutual

/-- A value has a text when its integers are short. -/
theorem display?_isSome_iff : ∀ v : Value, v.display?.isSome ↔ v.ShortIntegers
  | int i => by
      rw [display?, ShortIntegers]
      exact Integer.text?_isSome_iff i
  | list vs => by simp [display?, ShortIntegers, displayAll?_isSome_iff vs]
  | tuple vs => by simp [display?, ShortIntegers, displayAll?_isSome_iff vs]
  | point x y => by
      have hx := display?_isSome_iff x
      have hy := display?_isSome_iff y
      rw [ShortIntegers, ← hx, ← hy, display?]
      cases display? x <;> cases display? y <;> simp
  | table entries => by simp [display?, ShortIntegers, displayEntries?_isSome_iff entries]
  | fakeSecret content => by simp [display?, ShortIntegers, display?_isSome_iff content]
  | fakePublic content => by simp [display?, ShortIntegers, display?_isSome_iff content]
  | model id name fields => by simp [display?, ShortIntegers, displayFields?_isSome_iff fields]
  | null => iff_of_true rfl trivial
  | bool _ => iff_of_true rfl trivial
  | float _ => iff_of_true rfl trivial
  | text _ => iff_of_true rfl trivial
  | bytes _ => iff_of_true rfl trivial
  | buffer _ => iff_of_true rfl trivial
  | stream _ _ _ => iff_of_true rfl trivial
  | secretKey _ => iff_of_true rfl trivial
  | publicKey _ => iff_of_true rfl trivial

theorem displayAll?_isSome_iff : ∀ vs : List Value, (displayAll? vs).isSome ↔ ShortIntegersAll vs
  | [] => by simp [displayAll?, ShortIntegersAll]
  | v :: vs => by
      rw [ShortIntegersAll, ← display?_isSome_iff v, ← displayAll?_isSome_iff vs, displayAll?]
      cases display? v <;> cases displayAll? vs <;> simp

theorem displayEntries?_isSome_iff :
    ∀ entries : List (Value × Value), (displayEntries? entries).isSome ↔
      ShortIntegersEntries entries
  | [] => by simp [displayEntries?, ShortIntegersEntries]
  | (k, v) :: entries => by
      rw [ShortIntegersEntries, ← display?_isSome_iff k, ← display?_isSome_iff v,
        ← displayEntries?_isSome_iff entries, displayEntries?]
      cases display? k <;> cases display? v <;> cases displayEntries? entries <;> simp

theorem displayFields?_isSome_iff :
    ∀ fields : List (String × Value), (displayFields? fields).isSome ↔ ShortIntegersFields fields
  | [] => by simp [displayFields?, ShortIntegersFields]
  | (name, v) :: fields => by
      rw [ShortIntegersFields, ← display?_isSome_iff v, ← displayFields?_isSome_iff fields,
        displayFields?]
      cases display? v <;> cases displayFields? fields <;> simp

end

end Value
end KeyCodec
