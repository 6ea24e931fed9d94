import KeyCodec.Model.Validate

/-!
# Verdicts put together

A settled verdict either accepts or shows at least one row.  Settled verdicts on different parts are
put together to a settled one, whose rows are those of the parts.  The rows about one place can be
taken out again: leading a step down puts a path item in front of every row, and looking below a
path takes it off.
-/

namespace KeyCodec

def Row.under (item : PathItem) (row : Row) : Row :=
  { row with path := item :: row.path }

def Row.within? (item : PathItem) (row : Row) : Option Row :=
  match row.path with
  | [] => none
  | first :: path => if first = item then some { row with path := path } else none

/-- The rows about a place, with their paths from there. -/
def Row.below : List PathItem → List Row → List Row
  | [], rows => rows
  | item :: path, rows => below path (rows.filterMap (within? item))

namespace Row

@[simp] theorem below_nil (rows : List Row) : below [] rows = rows := rfl

theorem below_no_rows (path : List PathItem) : below path [] = [] := by
  induction path with
  | nil => rfl
  | cons item path ih => exact ih

theorem below_append (path : List PathItem) (rows more : List Row) :
    below path (rows ++ more) = below path rows ++ below path more := by
  induction path generalizing rows more with
  | nil => rfl
  | cons item path ih => rw [below, List.filterMap_append, ih, below, below]

/-- Looking below a path item undoes leading down by it. -/
theorem below_under (item : PathItem) (path : List PathItem) (rows : List Row) :
    below (item :: path) (rows.map (under item)) = below path rows := by
  have hwithin : within? item ∘ under item = some := by
    funext row
    simp [within?, under]
  rw [below, List.filterMap_map, hwithin, List.filterMap_some]

/-- No row is about a place when none starts on the way to it. -/
theorem below_eq_nil {item : PathItem} {rows : List Row}
    (h : ∀ row ∈ rows, row.path.head? ≠ some item) (path : List PathItem) :
    below (item :: path) rows = [] := by
  have hnone : rows.filterMap (within? item) = [] := by
    rw [List.filterMap_eq_nil_iff]
    intro row hrow
    have hhead := h row hrow
    unfold within?
    cases hpath : row.path with
    | nil => rfl
    | cons first rest =>
        rw [hpath, List.head?_cons, Ne, Option.some.injEq] at hhead
        exact if_neg hhead
  rw [below, hnone, below_no_rows]

end Row

namespace Verdict

variable {α β γ : Type}

def rows : Verdict α → List Row
  | rejected rows => rows
  | _ => []

/-- The verdict accepts or shows why it does not. -/
def IsSettled : Verdict α → Prop
  | accepted _ => True
  | rejected rows => rows ≠ []
  | failed _ => False

@[simp] theorem rows_accepted (a : α) : (accepted a).rows = [] := rfl

@[simp] theorem rows_rejected (rows : List Row) : (rejected rows : Verdict α).rows = rows := rfl

@[simp] theorem isSettled_accepted (a : α) : (accepted a).IsSettled := trivial

@[simp] theorem isSettled_rejected {rows : List Row} :
    (rejected rows : Verdict α).IsSettled ↔ rows ≠ [] := Iff.rfl

/-- A settled verdict is without rows exactly when it accepts. -/
theorem IsSettled.rows_eq_nil_iff {v : Verdict α} (h : v.IsSettled) :
    v.rows = [] ↔ ∃ a, v = accepted a := by
  cases v with
  | accepted a => simp
  | rejected rows =>
      have hrows : rows ≠ [] := h
      simp [hrows]
  | failed f => exact h.elim

theorem IsSettled.eq_rejected {v : Verdict α} (h : v.IsSettled) (hv : ∀ a, v ≠ accepted a) :
    v = rejected v.rows := by
  cases v with
  | accepted a => exact absurd rfl (hv a)
  | rejected rows => rfl
  | failed f => exact h.elim

@[simp] theorem rows_under (item : PathItem) (v : Verdict α) :
    (v.under item).rows = v.rows.map (Row.under item) := by
  cases v <;> rfl

theorem IsSettled.under {v : Verdict α} (h : v.IsSettled) (item : PathItem) :
    (v.under item).IsSettled := by
  cases v with
  | accepted a => trivial
  | rejected rows =>
      have hrows : rows ≠ [] := h
      simpa [Verdict.under] using hrows
  | failed f => exact h

theorem under_eq_accepted_iff {item : PathItem} {v : Verdict α} {a : α} :
    v.under item = accepted a ↔ v = accepted a := by
  cases v <;> simp [under]

@[simp] theorem rows_map (f : α → β) (v : Verdict α) : (v.map f).rows = v.rows := by
  cases v <;> rfl

theorem IsSettled.map {v : Verdict α} (h : v.IsSettled) (f : α → β) : (v.map f).IsSettled := by
  cases v <;> exact h

theorem map_eq_accepted_iff {f : α → β} {v : Verdict α} {b : β} :
    v.map f = accepted b ↔ ∃ a, v = accepted a ∧ f a = b := by
  cases v <;> simp [map]

theorem map_map (g : β → γ) (f : α → β) (v : Verdict α) :
    (v.map f).map g = v.map (g ∘ f) := by
  cases v <;> rfl

theorem IsSettled.rows_combine {v : Verdict α} {w : Verdict β} (hv : v.IsSettled)
    (hw : w.IsSettled) (f : α → β → γ) : (v.combine f w).rows = v.rows ++ w.rows := by
  cases v with
  | failed e => exact hv.elim
  | accepted a =>
      cases w with
      | failed e => exact hw.elim
      | _ => rfl
  | rejected rows =>
      cases w with
      | failed e => exact hw.elim
      | accepted b => exact (List.append_nil rows).symm
      | rejected more => rfl

theorem IsSettled.combine {v : Verdict α} {w : Verdict β} (hv : v.IsSettled) (hw : w.IsSettled)
    (f : α → β → γ) : (v.combine f w).IsSettled := by
  cases v with
  | failed e => exact hv.elim
  | accepted a =>
      cases w with
      | failed e => exact hw.elim
      | _ => exact hw
  | rejected rows =>
      cases w with
      | failed e => exact hw.elim
      | accepted b => exact hv
      | rejected more =>
          intro hnil
          exact hv (List.append_eq_nil_iff.mp hnil).1

theorem combine_eq_accepted_iff {f : α → β → γ} {v : Verdict α} {w : Verdict β} {c : γ} :
    v.combine f w = accepted c ↔ ∃ a b, v = accepted a ∧ w = accepted b ∧ f a b = c := by
  cases v <;> cases w <;> simp [combine]

theorem isSettled_ofRows (rows : List Row) : (ofRows rows).IsSettled := by
  cases rows <;> simp [ofRows]

@[simp] theorem rows_ofRows (rows : List Row) : (ofRows rows).rows = rows := by
  cases rows <;> rfl

end Verdict

namespace Step

variable {α β γ δ : Type}

@[simp] theorem verdict_map (f : α → β) (s : Step α) : (s.map f).verdict = s.verdict.map f := rfl

@[simp] theorem drains_map (f : α → β) (s : Step α) : (s.map f).drains = s.drains := rfl

@[simp] theorem verdict_under (item : PathItem) (s : Step α) :
    (s.under item).verdict = s.verdict.under item := rfl

@[simp] theorem drains_under (item : PathItem) (s : Step α) :
    (s.under item).drains = s.drains := rfl

@[simp] theorem verdict_of (drains : Drains) (v : Verdict α) : (of drains v).verdict = v := rfl

@[simp] theorem drains_of (drains : Drains) (v : Verdict α) : (of drains v).drains = drains := rfl

theorem map_map (g : β → γ) (f : α → β) (s : Step α) : (s.map f).map g = s.map (g ∘ f) := by
  simp only [map, Verdict.map_map]

/-- Without a failure the next step is taken, from where the first one has left the streams. -/
theorem andThen_of_isSettled {s : Step α} (h : s.verdict.IsSettled) (f : α → β → γ)
    (next : Drains → Step β) :
    s.andThen f next =
      ⟨s.verdict.combine f (next s.drains).verdict, s.notices ++ (next s.drains).notices,
        (next s.drains).drains⟩ := by
  obtain ⟨v, notices, drains⟩ := s
  cases v with
  | failed e => exact h.elim
  | _ => rfl

theorem verdict_andThen_eq_accepted_iff {s : Step α} {f : α → β → γ} {next : Drains → Step β}
    {c : γ} : (s.andThen f next).verdict = .accepted c ↔
      ∃ a b, s.verdict = .accepted a ∧ (next s.drains).verdict = .accepted b ∧ f a b = c := by
  obtain ⟨v, notices, drains⟩ := s
  cases v with
  | failed e => simp [andThen]
  | _ => exact Verdict.combine_eq_accepted_iff

theorem map_andThen (g : γ → δ) (s : Step α) (f : α → β → γ) (next : Drains → Step β) :
    (s.andThen f next).map g = s.andThen (fun a b => g (f a b)) next := by
  obtain ⟨v, notices, drains⟩ := s
  cases v with
  | failed e => rfl
  | accepted a =>
      simp only [andThen, map, Step.mk.injEq, and_self, and_true]
      cases (next drains).verdict <;> rfl
  | rejected rows =>
      simp only [andThen, map, Step.mk.injEq, and_self, and_true]
      cases (next drains).verdict <;> rfl

theorem andThen_map (g : δ → β) (s : Step α) (f : α → β → γ) (next : Drains → Step δ) :
    s.andThen f (fun drains => (next drains).map g) = s.andThen (fun a b => f a (g b)) next := by
  obtain ⟨v, notices, drains⟩ := s
  cases v with
  | failed e => rfl
  | accepted a =>
      simp only [andThen, map, Step.mk.injEq, and_self, and_true]
      cases (next drains).verdict <;> rfl
  | rejected rows =>
      simp only [andThen, map, Step.mk.injEq, and_self, and_true]
      cases (next drains).verdict <;> rfl

theorem andThen_of_map (g : δ → α) (s : Step δ) (f : α → β → γ) (next : Drains → Step β) :
    (s.map g).andThen f next = s.andThen (fun a b => f (g a) b) next := by
  obtain ⟨v, notices, drains⟩ := s
  cases v with
  | failed e => rfl
  | accepted a =>
      simp only [andThen, map, Verdict.map, Step.mk.injEq, and_self, and_true]
      cases (next drains).verdict <;> rfl
  | rejected rows =>
      simp only [andThen, map, Verdict.map, Step.mk.injEq, and_self, and_true]
      cases (next drains).verdict <;> rfl

theorem andThen_of_accepted (drains : Drains) (a : α) (f : α → β → γ) (next : Drains → Step β) :
    (of drains (.accepted a)).andThen f next = (next drains).map (f a) := by
  simp only [of, andThen, map, List.nil_append, Step.mk.injEq, and_self, and_true]
  cases (next drains).verdict <;> rfl

end Step
end KeyCodec
