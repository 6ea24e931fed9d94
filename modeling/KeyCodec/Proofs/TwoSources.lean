import KeyCodec.Proofs.Rereading
import KeyCodec.Proofs.SettledChecks

/-!
# Text and values are checked alike

A JSON text is checked as parsed, without being turned into values first.  The two checks meet the
same values at every key position and read no streams, and they take the same things for containers,
as long as no name is repeated in an object.  So they accept the same instance, or show rows that
differ in nothing but what containers are called.
-/

namespace KeyCodec

inductive Json.HasDistinctNames : Json → Prop
  | null : HasDistinctNames .null
  | bool (b : Bool) : HasDistinctNames (.bool b)
  | int (i : Int) : HasDistinctNames (.int i)
  | float (x : Binary64) : HasDistinctNames (.float x)
  | text (s : String) : HasDistinctNames (.text s)
  | array {items : List Json} (h : ∀ j ∈ items, HasDistinctNames j) :
      HasDistinctNames (.array items)
  | object {members : List (String × Json)} (hnames : (members.map Prod.fst).Nodup)
      (h : ∀ member ∈ members, HasDistinctNames member.2) : HasDistinctNames (.object members)

/-! ### The same tree, parsed and held -/

namespace Json

theorem toValues_eq_map (items : List Json) : toValues items = items.map toValue := by
  induction items with
  | nil => rfl
  | cons j items ih => rw [toValues, ih, List.map_cons]

theorem toEntries_eq_map (members : List (String × Json)) :
    toEntries members = members.map fun member => (.text member.1, member.2.toValue) := by
  induction members with
  | nil => rfl
  | cons member members ih => rw [toEntries, ih, List.map_cons]

theorem toValue_object {members : List (String × Json)} (h : (members.map Prod.fst).Nodup) :
    (object members).toValue =
      .table (members.map fun member => (.text member.1, member.2.toValue)) := by
  have hkeys : (toEntries members).map Prod.fst = (members.map Prod.fst).map .text := by
    simp [toEntries_eq_map]
  rw [toValue, Value.tableOf_of_distinctKeys (Value.distinctKeys_of_texts hkeys h),
    toEntries_eq_map]

/-- What is written never repeats a name. -/
theorem hasDistinctNames_ofValue {depth : Nat} {v : Value} (h : v.IsTree depth) :
    (ofValue v).HasDistinctNames := by
  induction h with
  | null => exact .null
  | text depth s => exact .text s
  | list _ ih =>
      rw [ofValue, ofValues_eq_map]
      apply HasDistinctNames.array
      rw [List.forall_mem_map]
      exact ih
  | @table depth entries names hkeys hnames _ ih =>
      rw [ofValue, ofEntries_eq_map]
      apply HasDistinctNames.object
      · have hnamed : (entries.map fun entry => (nameOf entry.1, ofValue entry.2)).map Prod.fst =
            (entries.map Prod.fst).map nameOf := by
          simp
        rw [hnamed, hkeys, List.map_map]
        simpa [Function.comp_def, nameOf] using hnames
      · rw [List.forall_mem_map]
        exact ih

end Json

namespace Source

/-- The first source is the text of the second. -/
inductive Spells : Source → Source → Prop
  | intro {j : Json} (h : j.HasDistinctNames) : Spells (parsed j) (held j.toValue)

def SpellsAll (entries others : List (Value × Source)) : Prop :=
  List.Forall₂ (fun entry other => entry.1 = other.1 ∧ Spells entry.2 other.2) entries others

variable {s t : Source}

theorem Spells.toValue_eq (h : Spells s t) : s.toValue = t.toValue := by
  cases h
  rfl

theorem Spells.streamId?_eq (h : Spells s t) : s.streamId? = none ∧ t.streamId? = none := by
  obtain ⟨h⟩ := h
  refine ⟨rfl, ?_⟩
  cases h <;> rfl

/-- A text and its value are lists together, of items that correspond. -/
theorem Spells.sequence (h : Spells s t) :
    s.sequence? = none ∧ t.sequence? = none ∨
      ∃ items others, s.sequence? = some items ∧ t.sequence? = some others ∧
        List.Forall₂ Spells items others := by
  obtain ⟨h⟩ := h
  cases h with
  | @array items hitems =>
      refine Or.inr ⟨items.map parsed, items.map fun j => held j.toValue, rfl, ?_, ?_⟩
      · simp [Json.toValue, sequence?, Value.items?, Json.toValues_eq_map]
      · rw [List.forall₂_map_left_iff, List.forall₂_map_right_iff, List.forall₂_same]
        exact fun j hj => .intro (hitems j hj)
  | @object members hnames _ =>
      rw [Json.toValue_object hnames]
      exact Or.inl ⟨rfl, rfl⟩
  | _ => exact Or.inl ⟨rfl, rfl⟩

theorem spellsAll_of_members {members : List (String × Json)}
    (h : ∀ member ∈ members, member.2.HasDistinctNames) :
    SpellsAll (members.map fun member => (.text member.1, parsed member.2))
      (members.map fun member => (.text member.1, held member.2.toValue)) := by
  rw [SpellsAll, List.forall₂_map_left_iff, List.forall₂_map_right_iff, List.forall₂_same]
  exact fun member hmember => ⟨rfl, .intro (h member hmember)⟩

/-- A text and its value are tables together, of entries that correspond. -/
theorem Spells.entries (h : Spells s t) :
    s.entries? = none ∧ t.entries? = none ∨
      ∃ entries others, s.entries? = some entries ∧ t.entries? = some others ∧
        SpellsAll entries others := by
  obtain ⟨h⟩ := h
  cases h with
  | @object members hnames hmembers =>
      refine Or.inr ⟨_, _, rfl, ?_, spellsAll_of_members hmembers⟩
      rw [Json.toValue_object hnames]
      simp [entries?]
  | _ => exact Or.inl ⟨rfl, rfl⟩

/-- They also have members together, since every name counts once. -/
theorem Spells.members (h : Spells s t) :
    s.members? = none ∧ t.members? = none ∨
      ∃ entries others, s.members? = some entries ∧ t.members? = some others ∧
        SpellsAll entries others := by
  have hentries := h.entries
  obtain ⟨h⟩ := h
  cases h with
  | @object members hnames hmembers =>
      rwa [members?, Json.distinctMembers_of_nodup hnames]
  | _ => exact Or.inl ⟨rfl, rfl⟩

theorem SpellsAll.keys_eq {entries others : List (Value × Source)} (h : SpellsAll entries others) :
    entries.map Prod.fst = others.map Prod.fst := by
  rw [← List.forall₂_eq_eq_eq, List.forall₂_map_left_iff, List.forall₂_map_right_iff]
  exact h.imp fun _ _ hentry => hentry.1

theorem SpellsAll.named {entries others : List (Value × Source)} (h : SpellsAll entries others)
    (name : String) :
    named? entries name = none ∧ named? others name = none ∨
      ∃ item other, named? entries name = some item ∧ named? others name = some other ∧
        Spells item other := by
  induction h with
  | nil => exact Or.inl ⟨rfl, rfl⟩
  | @cons entry other entries others hhead _ ih =>
      obtain ⟨hkey, hspells⟩ := hhead
      by_cases hname : entry.1 = .text name
      · rw [named?_cons_of_eq hname, named?_cons_of_eq (hkey ▸ hname)]
        exact Or.inr ⟨_, _, rfl, rfl, hspells⟩
      · rw [named?_cons_of_ne hname, named?_cons_of_ne (hkey ▸ hname)]
        exact ih

end Source

/-! ### Verdicts that say the same -/

/-- What matters of a row: the path, the kind of the problem and the class of the fault behind it.
-/
def Row.gist (row : Row) : List PathItem × String × Option String :=
  (row.path, row.problem.type, row.problem.inner?)

/-- The verdicts accept the same, or reject with rows of the same gist. -/
inductive Verdict.Agrees {α : Type} : Verdict α → Verdict α → Prop
  | accepted (a : α) : Agrees (.accepted a) (.accepted a)
  | rejected {rows others : List Row} (h : rows.map Row.gist = others.map Row.gist) :
      Agrees (.rejected rows) (.rejected others)
  | failed (f : Fault) : Agrees (.failed f) (.failed f)

structure Step.Agrees {α : Type} (s t : Step α) : Prop where
  verdict : s.verdict.Agrees t.verdict
  notices : s.notices = t.notices
  drains : s.drains = t.drains

namespace Verdict

variable {α β γ : Type}

theorem Agrees.refl (v : Verdict α) : v.Agrees v := by
  cases v with
  | accepted a => exact .accepted a
  | rejected rows => exact .rejected rfl
  | failed f => exact .failed f

theorem Agrees.map {v w : Verdict α} (h : v.Agrees w) (f : α → β) : (v.map f).Agrees (w.map f) := by
  cases h with
  | accepted a => exact .accepted (f a)
  | rejected h => exact .rejected h
  | failed e => exact .failed e

theorem Agrees.under {v w : Verdict α} (h : v.Agrees w) (item : PathItem) :
    (v.under item).Agrees (w.under item) := by
  cases h with
  | accepted a => exact .accepted a
  | failed e => exact .failed e
  | @rejected rows others h =>
      have hgist (rows : List Row) : (rows.map (Row.under item)).map Row.gist =
          (rows.map Row.gist).map fun gist => (item :: gist.1, gist.2) := by
        simp [Row.gist, Row.under]
      apply Agrees.rejected
      exact ((hgist rows).trans (by rw [h])).trans (hgist others).symm

theorem Agrees.combine {v w : Verdict α} {x y : Verdict β} (h : v.Agrees w) (hnext : x.Agrees y)
    (f : α → β → γ) : (v.combine f x).Agrees (w.combine f y) := by
  cases h with
  | failed e => exact .failed e
  | accepted a =>
      cases hnext with
      | accepted b => exact .accepted (f a b)
      | rejected h => exact .rejected h
      | failed e => exact .failed e
  | rejected h =>
      cases hnext with
      | accepted b => exact .rejected h
      | rejected hmore => exact .rejected (by rw [List.map_append, List.map_append, h, hmore])
      | failed e => exact .failed e

end Verdict

namespace Step

variable {α β γ : Type} {s t : Step α}

theorem Agrees.refl (s : Step α) : s.Agrees s :=
  ⟨.refl s.verdict, rfl, rfl⟩

theorem Agrees.map (h : s.Agrees t) (f : α → β) : (s.map f).Agrees (t.map f) :=
  ⟨h.verdict.map f, h.notices, h.drains⟩

theorem Agrees.under (h : s.Agrees t) (item : PathItem) : (s.under item).Agrees (t.under item) :=
  ⟨h.verdict.under item, h.notices, h.drains⟩

theorem agrees_of_rejected (drains : Drains) {rows others : List Row}
    (h : rows.map Row.gist = others.map Row.gist) :
    (of drains (.rejected rows : Verdict α)).Agrees (of drains (.rejected others)) :=
  ⟨.rejected h, rfl, rfl⟩

/-- Steps that agree leave the streams alike, so what comes after them may start from there. -/
theorem Agrees.andThen (h : s.Agrees t) {next other : Drains → Step β}
    (hnext : ∀ drains, (next drains).Agrees (other drains)) (f : α → β → γ) :
    (s.andThen f next).Agrees (t.andThen f other) := by
  obtain ⟨v, notices, drains⟩ := s
  obtain ⟨w, _, _⟩ := t
  obtain ⟨hverdict, rfl, rfl⟩ := h
  have hrest := hnext drains
  cases hverdict with
  | failed e => exact .refl _
  | accepted a =>
      refine ⟨(Verdict.Agrees.accepted a).combine hrest.verdict f, ?_, hrest.drains⟩
      exact congrArg (notices ++ ·) hrest.notices
  | rejected hrows =>
      refine ⟨(Verdict.Agrees.rejected hrows).combine hrest.verdict f, ?_, hrest.drains⟩
      exact congrArg (notices ++ ·) hrest.notices

end Step

/-! ### Checks of the same tree -/

open Source

variable {s t : Source}

/-- A codec cannot tell a value from its text. -/
theorem KeySlot.check_agrees (h : Spells s t) (slot : KeySlot) (drains : Drains) :
    (slot.check drains s).Agrees (slot.check drains t) := by
  have hcheck : slot.check drains s = slot.check drains t := by
    simp only [check, h.toValue_eq]
  rw [hcheck]
  exact .refl _

namespace Schema

variable {Slot : Type} {schema : Schema Slot} {check : Slot → Drains → Source → Step Value}
  {entries others : List (Value × Source)}

theorem checkFields_agrees
    (hcheck : ∀ slot drains s t, Spells s t → (check slot drains s).Agrees (check slot drains t))
    (h : SpellsAll entries others) (fields : List (SchemaField Slot)) (drains : Drains) :
    (checkFields check entries fields drains).Agrees (checkFields check others fields drains) := by
  induction fields generalizing drains with
  | nil => exact .refl _
  | cons f fields ih =>
      rw [checkFields, checkFields]
      refine Step.Agrees.andThen ?_ ih _
      rcases h.named f.name with ⟨hitem, hother⟩ | ⟨item, other, hitem, hother, hspells⟩
      · rw [hitem, hother]
        exact .refl _
      · rw [hitem, hother]
        exact (hcheck f.slot drains item other hspells).under (.name f.name)

theorem check_agrees
    (hcheck : ∀ slot drains s t, Spells s t → (check slot drains s).Agrees (check slot drains t))
    (h : Spells s t) (drains : Drains) :
    (Schema.check check schema drains s).Agrees (Schema.check check schema drains t) := by
  cases hheld : schema.isInstance s.toValue with
  | true =>
      rw [check_of_isInstance hheld, check_of_isInstance (h.toValue_eq ▸ hheld), h.toValue_eq]
      exact .refl _
  | false =>
      rcases h.members with ⟨hs, ht⟩ | ⟨entries, others, hs, ht, hentries⟩
      · rw [check_of_no_members hheld hs, check_of_no_members (h.toValue_eq ▸ hheld) ht]
        exact Step.agrees_of_rejected drains rfl
      · rw [check_of_members hs, check_of_members ht, extras_eq_of_keys hentries.keys_eq]
        have hfields := checkFields_agrees hcheck hentries schema.fields drains
        exact (hfields.andThen (fun _ => .refl _) _).map _

end Schema

theorem KeyForm.check_agrees (h : Spells s t) (form : KeyForm) (drains : Drains) :
    (form.check drains s).Agrees (form.check drains t) :=
  Schema.check_agrees (fun slot drains _ _ h => KeySlot.check_agrees h slot drains) h drains

namespace Slot

theorem checkItems_agrees {check : Drains → Source → Step Value}
    (hcheck : ∀ drains s t, Spells s t → (check drains s).Agrees (check drains t))
    {items others : List Source} (h : List.Forall₂ Spells items others) (i : Nat)
    (drains : Drains) :
    (checkItems check i items drains).Agrees (checkItems check i others drains) := by
  induction h generalizing i drains with
  | nil => exact .refl _
  | cons hhead _ ih =>
      rw [checkItems, checkItems]
      exact ((hcheck drains _ _ hhead).under (.index i)).andThen (ih (i + 1)) _

theorem checkEntries_agrees {check : Drains → Source → Step Value}
    (hcheck : ∀ drains s t, Spells s t → (check drains s).Agrees (check drains t))
    {entries others : List (Value × Source)} (h : SpellsAll entries others) (drains : Drains) :
    (checkEntries check entries drains).Agrees (checkEntries check others drains) := by
  induction h generalizing drains with
  | nil => exact .refl _
  | @cons entry other entries others hhead _ ih =>
      obtain ⟨k, s⟩ := entry
      obtain ⟨l, t⟩ := other
      obtain ⟨rfl, hspells⟩ := hhead
      rw [checkEntries, checkEntries]
      refine Step.Agrees.andThen ?_ ih _
      refine (Step.Agrees.refl _).andThen ?_ _
      exact fun drains => (hcheck drains s t hspells).under (PathItem.ofKey k)

theorem check_agrees (h : Spells s t) (slot : Slot) (drains : Drains) :
    (slot.check drains s).Agrees (slot.check drains t) := by
  cases slot with
  | key slot => exact KeySlot.check_agrees h slot drains
  | optionalKey slot =>
      by_cases hnull : s.toValue = .null
      · rw [check_optionalKey_of_null hnull, check_optionalKey_of_null (h.toValue_eq ▸ hnull)]
        exact .refl _
      · rw [check_optionalKey_of_ne_null hnull,
          check_optionalKey_of_ne_null (h.toValue_eq ▸ hnull)]
        exact KeySlot.check_agrees h slot drains
  | forms form =>
      obtain ⟨hsource, hother⟩ := h.streamId?_eq
      rcases h.sequence with ⟨hs, ht⟩ | ⟨items, others, hs, ht, hitems⟩
      · rw [check_forms_of_none hs, check_forms_of_none ht]
        exact Step.agrees_of_rejected drains rfl
      · rw [check_forms_of_sequence hs, check_forms_of_sequence ht]
        simp only [spent, exhaust, hsource, hother, List.drop_zero]
        have hform (drains : Drains) (s t : Source) (h : Spells s t) :=
          KeyForm.check_agrees h form drains
        exact (checkItems_agrees hform hitems 0 drains).map _
  | keyTable slot =>
      rcases h.entries with ⟨hs, ht⟩ | ⟨entries, others, hs, ht, hentries⟩
      · rw [check_keyTable_of_none hs, check_keyTable_of_none ht]
        exact Step.agrees_of_rejected drains rfl
      · rw [check_keyTable_of_entries hs, check_keyTable_of_entries ht]
        have hslot (drains : Drains) (s t : Source) (h : Spells s t) :=
          KeySlot.check_agrees h slot drains
        exact (checkEntries_agrees hslot hentries drains).map _

end Slot

/-- A model checks a text and its value alike, whatever the codecs of its positions do. -/
theorem Model.check_agrees (h : Spells s t) (model : Model) (drains : Drains) :
    (model.check drains s).Agrees (model.check drains t) :=
  Schema.check_agrees (fun slot drains _ _ h => Slot.check_agrees h slot drains) h drains

/-! ### Loading a text and loading its value -/

/-- The verdicts accept one and the same instance, or have rows that differ in nothing but what
containers are called. -/
def Verdict.LoadAlike (v w : Verdict Value) : Prop :=
  (∃ m, v = .accepted m ∧ w = .accepted m) ∨
    ∃ rows others, v = .rejected rows ∧ w = .rejected others ∧ rows ≠ [] ∧
      rows.map Row.gist = others.map Row.gist

theorem Verdict.Agrees.loadAlike {v w : Verdict Value} (h : v.Agrees w) (hsettled : v.IsSettled) :
    v.LoadAlike w := by
  cases h with
  | accepted m => exact Or.inl ⟨m, rfl, rfl⟩
  | @rejected rows others h => exact Or.inr ⟨rows, others, rfl, rfl, hsettled, h⟩
  | failed f => exact hsettled.elim

/-- A model of the catalog makes of a JSON text, given as a text or as bytes, what it makes of the
value that the text stands for: the same instance, or rows at the same places for the same reasons.
Only a text that repeats a name in an object may be read differently. -/
theorem load_text_as_value {model : Model} (hmodel : model ∈ Catalog.all) {j : Json}
    (hnames : j.HasDistinctNames) :
    (model.check [] (.parsed j)).verdict.LoadAlike (model.validate j.toValue).verdict ∧
    ∀ text s, Model.characters? text = some s → Json.parse? s = some j →
      (model.validateText text).verdict.LoadAlike (model.validate j.toValue).verdict := by
  have halike :
      (model.check [] (.parsed j)).verdict.LoadAlike (model.validate j.toValue).verdict := by
    have hagrees := Model.check_agrees (.intro hnames) model []
    exact hagrees.verdict.loadAlike (Model.isSettled_check hmodel [] (.parsed j))
  refine ⟨halike, ?_⟩
  intro text s hs hj
  rw [Model.validateText_of_characters hs hj model]
  exact halike

def pairTable : Value :=
  .table [(.text "pk", .list [.list [.text "y", .text "2"], .list [.text "x", .text "1"]])]

/-- The pairs are read from the text as from the value. -/
theorem load_text_as_value_of_pairs :
    (Catalog.strictFake.toModel.validateText (.text (Json.ofValue pairTable).write)).verdict =
      .accepted (.model none "StrictFake" [("pk", .fakePublic (.point (.int 1) (.int 2)))]) := by
  have hmodel : Catalog.strictFake.toModel ∈ Catalog.all := by simp [Catalog.all]
  have hpair (name digits : String) : (Value.list [.text name, .text digits]).IsTree 198 := by
    apply Value.IsTree.list
    simp [Value.IsTree.text]
  have htree : pairTable.IsTree Json.nestingLimit := by
    refine .table ["pk"] rfl (by simp) ?_
    rw [List.forall_mem_singleton]
    apply Value.IsTree.list
    simp [hpair]
  have hvalue : (Catalog.strictFake.toModel.validate (Json.ofValue pairTable).toValue).verdict =
      .accepted (.model none "StrictFake" [("pk", .fakePublic (.point (.int 1) (.int 2)))]) := by
    rfl
  have hload := load_text_as_value hmodel (Json.hasDistinctNames_ofValue htree)
  rcases hload.2 (.text (Json.ofValue pairTable).write) _ rfl (Json.parse?_write htree) with
    ⟨m, htext, hm⟩ | ⟨rows, others, -, hrejected, -⟩
  · rw [htext, ← hm, hvalue]
  · rw [hvalue] at hrejected
    cases hrejected

end KeyCodec
