import KeyCodec.Proofs.Branches
import KeyCodec.Proofs.CodecFaults
import KeyCodec.Proofs.Layout
import Mathlib.Data.List.Forall2

/-!
# Checks that conform to a layout

A check conforms to the layout of its input when all that it says follows from the key positions one
by one: it accepts when everything is in place and every position is taken, it shows below the path
of a position what the codec says about the value there, and what it accepts holds at every path
what the codec answered.  Streams are read on the way, so a position is met with what is left of the
value there; that is the value itself as long as no stream stands at two places.

Conformance is preserved by leading a step down and by putting two parts together.  Along the parts
of a branch it is an induction that carries the streams read so far.
-/

namespace KeyCodec

def KeyPosition.verdict (pos : KeyPosition) : Verdict Value :=
  if pos.slot.type.admits pos.value then .accepted pos.value
  else pos.slot.judge (pos.slot.decode pos.value).outcome

/-- The positions of a layout as they are met by a check that finds and leaves the streams as given.
-/
structure Layout.Meets (layout : Layout) (before : Drains) (met : List KeyPosition)
    (after : Drains) : Prop where
  remains : List.Forall₂ KeyPosition.RemainsOf met layout.positions
  regular : ∀ pos ∈ met, pos.slot.IsRegular
  reads : ∀ id ∈ after.map Prod.fst, id ∈ before.map Prod.fst ∨ id ∈ layout.streams
  untouched : layout.streams.Nodup → (∀ id ∈ layout.streams, id ∉ before.map Prod.fst) →
    met = layout.positions

/-- The verdict consists of what is to be said about every position by itself; `get` finds the part
of what is accepted to which a path leads. -/
structure Verdict.IsProduct {α : Type} (get : α → List PathItem → Option Value) (filled : Prop)
    (met : List KeyPosition) (v : Verdict α) : Prop where
  settled : v.IsSettled
  accepts : v.rows = [] ↔ filled ∧ ∀ pos ∈ met, pos.verdict.rows = []
  reports : ∀ pos ∈ met, Row.below pos.path v.rows = pos.verdict.rows
  holds : ∀ a, v = .accepted a → ∀ pos ∈ met, ∃ key, pos.verdict = .accepted key ∧
    get a pos.path = some key

def Step.Conforms {α : Type} (get : α → List PathItem → Option Value) (layout : Layout)
    (before : Drains) (step : Step α) : Prop :=
  ∃ met, layout.Meets before met step.drains ∧ step.verdict.IsProduct get layout.filled met

/-! ### Single positions -/

namespace KeyPosition

variable {pos : KeyPosition} {key : Value} {f : Fault}

theorem takes_or_refuses (pos : KeyPosition) :
    (∃ key, pos.Takes key) ∨ ∃ f, pos.Refuses f := by
  cases hadmits : pos.slot.type.admits pos.value with
  | true => exact Or.inl ⟨pos.value, Or.inl ⟨hadmits, rfl⟩⟩
  | false =>
      cases houtcome : (pos.slot.decode pos.value).outcome with
      | ok key => exact Or.inl ⟨key, Or.inr ⟨hadmits, houtcome⟩⟩
      | error f => exact Or.inr ⟨f, hadmits, houtcome⟩

theorem Takes.verdict_eq (hslot : pos.slot.IsRegular) (h : pos.Takes key) :
    pos.verdict = .accepted key := by
  rcases h with ⟨hadmits, rfl⟩ | ⟨hadmits, houtcome⟩
  · exact if_pos hadmits
  · simp [verdict, hadmits, houtcome, KeySlot.judge, hslot.answers houtcome]

theorem Refuses.verdict_eq (hslot : pos.slot.IsRegular) (h : pos.Refuses f) :
    pos.verdict = .rejected [⟨[], .refused f⟩] := by
  obtain ⟨hadmits, houtcome⟩ := h
  simp [verdict, hadmits, houtcome, KeySlot.judge, (hslot.refuses houtcome).1]

theorem isSettled_verdict (hslot : pos.slot.IsRegular) : pos.verdict.IsSettled := by
  rcases pos.takes_or_refuses with ⟨key, h⟩ | ⟨f, h⟩
  · rw [h.verdict_eq hslot]
    trivial
  · rw [h.verdict_eq hslot]
    exact List.cons_ne_nil _ _

/-- The verdict on a position by itself is what the position is taken for. -/
theorem verdict_eq_accepted_iff (hslot : pos.slot.IsRegular) :
    pos.verdict = .accepted key ↔ pos.Takes key := by
  constructor
  · intro h
    rcases pos.takes_or_refuses with ⟨taken, htaken⟩ | ⟨f, hrefused⟩
    · rw [htaken.verdict_eq hslot] at h
      cases h
      exact htaken
    · rw [hrefused.verdict_eq hslot] at h
      cases h
  · exact fun h => h.verdict_eq hslot

theorem RemainsOf.under {before : KeyPosition} (h : pos.RemainsOf before) (item : PathItem) :
    (pos.under item).RemainsOf (before.under item) := by
  obtain ⟨hpath, hslot, drains, hvalue⟩ := h
  exact ⟨congrArg (item :: ·) hpath, hslot, drains, hvalue⟩

end KeyPosition

theorem Drains.left_of_not_mem {drains : Drains} {id : Nat} (h : id ∉ drains.map Prod.fst)
    (total : Nat) : drains.left id total = total := by
  have hfind : drains.find? (·.1 == id) = none := by
    rw [List.find?_eq_none]
    intro entry hentry hid
    have hmem : entry.1 ∈ drains.map Prod.fst := List.mem_map_of_mem hentry
    rw [beq_iff_eq.mp hid] at hmem
    exact h hmem
  rw [left, hfind, Option.map_none, Option.getD_none]

theorem Drains.current_of_not_mem {drains : Drains} {s : Source}
    (h : ∀ id ∈ s.streamId?.toList, id ∉ drains.map Prod.fst) :
    drains.current s.toValue = s.toValue := by
  cases s with
  | parsed j => cases j <;> rfl
  | held v =>
      cases v with
      | stream id derived items =>
          have hleft := left_of_not_mem (h id (by simp [Source.streamId?])) items.length
          simp [Source.toValue, current, unread, hleft]
      | _ => rfl

theorem KeyPosition.exists_remainsOf {met positions : List KeyPosition}
    (h : List.Forall₂ RemainsOf met positions) {pos : KeyPosition} (hpos : pos ∈ met) :
    ∃ before ∈ positions, pos.RemainsOf before := by
  induction h with
  | nil => cases hpos
  | cons hhead _ ih =>
      rcases List.mem_cons.mp hpos with rfl | htail
      · exact ⟨_, List.mem_cons_self, hhead⟩
      · obtain ⟨before, hbefore, hremains⟩ := ih htail
        exact ⟨before, List.mem_cons_of_mem _ hbefore, hremains⟩

theorem Layout.Meets.exists_position {layout : Layout} {before after : Drains}
    {met : List KeyPosition} (h : layout.Meets before met after) {pos : KeyPosition}
    (hpos : pos ∈ met) : ∃ start ∈ layout.positions, pos.path = start.path := by
  obtain ⟨start, hstart, hpath, -⟩ := KeyPosition.exists_remainsOf h.remains hpos
  exact ⟨start, hstart, hpath⟩

theorem Layout.Meets.under {layout : Layout} {before after : Drains} {met : List KeyPosition}
    (h : layout.Meets before met after) (item : PathItem) :
    (layout.under item).Meets before (met.map (.under item)) after where
  remains := by
    rw [Layout.under, List.forall₂_map_left_iff, List.forall₂_map_right_iff]
    exact h.remains.imp fun _ _ hpos => hpos.under item
  regular := List.forall_mem_map.mpr h.regular
  reads := h.reads
  untouched hnodup hapart := by
    rw [h.untouched hnodup hapart]
    rfl

/-- Two parts are met one after the other. -/
theorem Layout.Meets.both {a b : Layout} {before between after : Drains}
    {met more : List KeyPosition} (ha : a.Meets before met between)
    (hb : b.Meets between more after) : (a.both b).Meets before (met ++ more) after where
  remains := List.rel_append ha.remains hb.remains
  regular := List.forall_mem_append.mpr ⟨ha.regular, hb.regular⟩
  reads id hid := by
    simp only [Layout.both, List.mem_append]
    rcases hb.reads id hid with hbetween | hstream
    · rcases ha.reads id hbetween with hbefore | hstream
      · exact Or.inl hbefore
      · exact Or.inr (Or.inl hstream)
    · exact Or.inr (Or.inr hstream)
  untouched hnodup hapart := by
    obtain ⟨hnodupA, hnodupB, hdisjoint⟩ := List.nodup_append.mp hnodup
    simp only [Layout.both, List.mem_append] at hapart
    have hleft : met = a.positions := ha.untouched hnodupA fun id hid => hapart id (Or.inl hid)
    have hright : more = b.positions := by
      apply hb.untouched hnodupB
      intro id hid hread
      rcases ha.reads id hread with hbefore | hstream
      · exact hapart id (Or.inr hid) hbefore
      · exact hdisjoint id hstream id hid rfl
    rw [hleft, hright]
    rfl

/-! ### Steps -/

namespace Step

variable {α β γ : Type} {get : α → List PathItem → Option Value} {layout : Layout}
  {before : Drains}

theorem conforms_done (drains : Drains) (a : α) :
    (of drains (.accepted a)).Conforms get .done drains := by
  refine ⟨[], ⟨.nil, by simp, fun id hid => Or.inl hid, fun _ _ => rfl⟩, trivial, ?_, ?_, ?_⟩
  · simp [Layout.done]
  · simp
  · simp

theorem conforms_blank (drains : Drains) {rows : List Row} (h : rows ≠ []) :
    (of drains (.rejected rows)).Conforms get .blank drains := by
  refine ⟨[], ⟨.nil, by simp, fun id hid => Or.inl hid, fun _ _ => rfl⟩, h, ?_, ?_, ?_⟩
  · simp [Layout.blank, h]
  · simp
  · simp

theorem conforms_ofRows (drains : Drains) {rows : List Row} {filled : Prop}
    (h : rows = [] ↔ filled) (textual : Prop) (get : Unit → List PathItem → Option Value) :
    (of drains (.ofRows rows)).Conforms get ⟨[], [], filled, textual⟩ drains := by
  refine ⟨[], ⟨.nil, by simp, fun id hid => Or.inl hid, fun _ _ => rfl⟩,
    Verdict.isSettled_ofRows rows, ?_, ?_, ?_⟩
  · simp [h]
  · simp
  · simp

/-- What a check says does not depend on the keys of the tables. -/
theorem Conforms.of_textual {step : Step α} (h : step.Conforms get layout before)
    (textual : Prop) : step.Conforms get { layout with textual := textual } before := by
  obtain ⟨met, hmet, hproduct⟩ := h
  exact ⟨met, ⟨hmet.remains, hmet.regular, hmet.reads, hmet.untouched⟩, hproduct⟩

/-- What a check accepts may be made into something else, if its parts are found as before. -/
theorem Conforms.map {step : Step α} (h : step.Conforms get layout before) {f : α → β}
    {found : β → List PathItem → Option Value}
    (hget : ∀ a, step.verdict = .accepted a → ∀ pos ∈ layout.positions,
      found (f a) pos.path = get a pos.path) :
    (step.map f).Conforms found layout before := by
  obtain ⟨met, hmet, hproduct⟩ := h
  refine ⟨met, hmet, hproduct.settled.map f, ?_, ?_, ?_⟩
  · rw [verdict_map, Verdict.rows_map]
    exact hproduct.accepts
  · rw [verdict_map, Verdict.rows_map]
    exact hproduct.reports
  · intro b hb pos hpos
    obtain ⟨a, ha, rfl⟩ := Verdict.map_eq_accepted_iff.mp hb
    obtain ⟨key, hkey, hfound⟩ := hproduct.holds a ha pos hpos
    obtain ⟨start, hstart, hpath⟩ := hmet.exists_position hpos
    exact ⟨key, hkey, by rw [hpath, hget a ha start hstart, ← hpath, hfound]⟩

/-- A step leads down to the positions of a part. -/
theorem Conforms.under {step : Step α} (h : step.Conforms get layout before) (item : PathItem) :
    (step.under item).Conforms (fun a path => get a path.tail) (layout.under item) before := by
  obtain ⟨met, hmet, hproduct⟩ := h
  refine ⟨met.map (.under item), hmet.under item, hproduct.settled.under item, ?_, ?_, ?_⟩
  · rw [verdict_under, Verdict.rows_under, List.map_eq_nil_iff, hproduct.accepts,
      List.forall_mem_map]
    rfl
  · rw [List.forall_mem_map]
    intro pos hpos
    rw [verdict_under, Verdict.rows_under, KeyPosition.under, Row.below_under,
      hproduct.reports pos hpos]
    rfl
  · intro a ha
    rw [List.forall_mem_map]
    exact hproduct.holds a (Verdict.under_eq_accepted_iff.mp ha)

/-- Two parts are put together.  Neither has rows about the positions of the other, and the parts of
what they accept are found in what is made from both. -/
theorem Conforms.andThen {first : Step α} {next : Drains → Step β} {f : α → β → γ}
    {other : Layout} {getOther : β → List PathItem → Option Value}
    {found : γ → List PathItem → Option Value} (hfirst : first.Conforms get layout before)
    (hnext : (next first.drains).Conforms getOther other first.drains)
    (hfirstApart : ∀ pos ∈ layout.positions,
      Row.below pos.path (next first.drains).verdict.rows = [])
    (hnextApart : ∀ pos ∈ other.positions, Row.below pos.path first.verdict.rows = [])
    (hget : ∀ a b, ∀ pos ∈ layout.positions, found (f a b) pos.path = get a pos.path)
    (hgetOther : ∀ a b, (next first.drains).verdict = .accepted b → ∀ pos ∈ other.positions,
      found (f a b) pos.path = getOther b pos.path) :
    (first.andThen f next).Conforms found (layout.both other) before := by
  obtain ⟨met, hmet, hproduct⟩ := hfirst
  obtain ⟨more, hmore, hproductMore⟩ := hnext
  rw [andThen_of_isSettled hproduct.settled]
  refine ⟨met ++ more, hmet.both hmore, hproduct.settled.combine hproductMore.settled f, ?_, ?_, ?_⟩
  · rw [hproduct.settled.rows_combine hproductMore.settled, List.append_eq_nil_iff,
      hproduct.accepts, hproductMore.accepts, List.forall_mem_append]
    simp only [Layout.both]
    tauto
  · rw [hproduct.settled.rows_combine hproductMore.settled, List.forall_mem_append]
    constructor
    · intro pos hpos
      obtain ⟨start, hstart, hpath⟩ := hmet.exists_position hpos
      rw [Row.below_append, hproduct.reports pos hpos, hpath, hfirstApart start hstart,
        List.append_nil]
    · intro pos hpos
      obtain ⟨start, hstart, hpath⟩ := hmore.exists_position hpos
      rw [Row.below_append, hproductMore.reports pos hpos, hpath, hnextApart start hstart,
        List.nil_append]
  · intro c hc
    obtain ⟨a, b, ha, hb, rfl⟩ := Verdict.combine_eq_accepted_iff.mp hc
    rw [List.forall_mem_append]
    constructor
    · intro pos hpos
      obtain ⟨key, hkey, hfound⟩ := hproduct.holds a ha pos hpos
      obtain ⟨start, hstart, hpath⟩ := hmet.exists_position hpos
      exact ⟨key, hkey, by rw [hpath, hget a b start hstart, ← hpath, hfound]⟩
    · intro pos hpos
      obtain ⟨key, hkey, hfound⟩ := hproductMore.holds b hb pos hpos
      obtain ⟨start, hstart, hpath⟩ := hmore.exists_position hpos
      exact ⟨key, hkey, by rw [hpath, hgetOther a b hb start hstart, ← hpath, hfound]⟩

/-! ### Branches -/

def branchPart (items : List PathItem) (vs : List Value) : List PathItem → Option Value
  | [] => none
  | item :: path => (((items.zip vs).find? (·.1 == item)).map Prod.snd).bind (Value.at? path)

/-- Every part of a branch conforms to its layout at the moment when it is reached. -/
inductive PartsConform : List (PathItem × (Drains → Step Value)) → List (PathItem × Layout) →
    Drains → Prop
  | nil (drains : Drains) : PartsConform [] [] drains
  | cons {item : PathItem} {check : Drains → Step Value} {layout : Layout}
      {parts : List (PathItem × (Drains → Step Value))} {layouts : List (PathItem × Layout)}
      {drains : Drains}
      (h : (check drains).Conforms (fun v path => v.at? path) layout drains)
      (rest : PartsConform parts layouts (check drains).drains) :
      PartsConform ((item, check) :: parts) ((item, layout) :: layouts) drains

theorem PartsConform.items_eq {parts : List (PathItem × (Drains → Step Value))}
    {layouts : List (PathItem × Layout)} {drains : Drains} (h : PartsConform parts layouts drains) :
    layouts.map Prod.fst = parts.map Prod.fst := by
  induction h with
  | nil => rfl
  | cons _ _ ih => rw [List.map_cons, List.map_cons, ih]

theorem mem_rows_andThen {first : Step α} {next : Drains → Step β} {f : α → β → γ} {row : Row}
    (h : row ∈ (first.andThen f next).verdict.rows) :
    row ∈ first.verdict.rows ∨ row ∈ (next first.drains).verdict.rows := by
  obtain ⟨v, notices, drains⟩ := first
  cases v with
  | failed e => cases h
  | accepted a =>
      right
      cases hnext : (next drains).verdict with
      | failed e => simp [Step.andThen, Verdict.combine, hnext, Verdict.rows] at h
      | accepted b => simp [Step.andThen, Verdict.combine, hnext] at h
      | rejected more => simpa [Step.andThen, Verdict.combine, hnext] using h
  | rejected rows =>
      cases hnext : (next drains).verdict with
      | failed e => simp [Step.andThen, Verdict.combine, hnext, Verdict.rows] at h
      | _ => simpa [Step.andThen, Verdict.combine, hnext] using h

theorem head?_path_of_mem_branch {parts : List (PathItem × (Drains → Step Value))}
    {drains : Drains} {row : Row} (h : row ∈ (branch parts drains).verdict.rows) :
    ∃ item ∈ parts.map Prod.fst, row.path.head? = some item := by
  induction parts generalizing drains with
  | nil => cases h
  | cons part rest ih =>
      obtain ⟨item, check⟩ := part
      rcases mem_rows_andThen h with hhead | htail
      · rw [verdict_under, Verdict.rows_under, List.mem_map] at hhead
        obtain ⟨inner, -, rfl⟩ := hhead
        exact ⟨item, List.mem_cons_self, rfl⟩
      · obtain ⟨other, hother, hpath⟩ := ih htail
        exact ⟨other, List.mem_cons_of_mem _ hother, hpath⟩

theorem PartsConform.of_forall {parts : List α} {item : α → PathItem}
    {check : α → Drains → Step Value} {layout : α → Layout}
    (h : ∀ part ∈ parts, ∀ drains,
      (check part drains).Conforms (fun v path => v.at? path) (layout part) drains)
    (drains : Drains) :
    PartsConform (parts.map fun part => (item part, check part))
      (parts.map fun part => (item part, layout part)) drains := by
  induction parts generalizing drains with
  | nil => exact .nil drains
  | cons part rest ih =>
      obtain ⟨hpart, hrest⟩ := List.forall_mem_cons.mp h
      exact .cons (hpart drains) (ih hrest _)

/-- Parts that conform when nothing has been read, if those that need this come behind parts that
read nothing. -/
theorem PartsConform.of_pairwise {parts : List α} {item : α → PathItem}
    {check : α → Drains → Step Value} {layout : α → Layout} {quiet late : α → Prop}
    (hstart : ∀ part ∈ parts, (check part []).Conforms (fun v path => v.at? path) (layout part) [])
    (hquiet : ∀ part ∈ parts, quiet part → (check part []).drains = [])
    (hlate : ∀ part ∈ parts, late part → ∀ drains,
      (check part drains).Conforms (fun v path => v.at? path) (layout part) drains)
    (horder : parts.Pairwise fun part other => quiet part ∨ late other) :
    PartsConform (parts.map fun part => (item part, check part))
      (parts.map fun part => (item part, layout part)) [] := by
  induction parts with
  | nil => exact .nil []
  | cons part rest ih =>
      obtain ⟨hpart, hrest⟩ := List.forall_mem_cons.mp hstart
      obtain ⟨hquietPart, hquietRest⟩ := List.forall_mem_cons.mp hquiet
      obtain ⟨-, hlateRest⟩ := List.forall_mem_cons.mp hlate
      obtain ⟨hbefore, horderRest⟩ := List.pairwise_cons.mp horder
      refine .cons hpart ?_
      by_cases hsilent : quiet part
      · rw [hquietPart hsilent]
        exact ih hrest hquietRest hlateRest horderRest
      · apply PartsConform.of_forall
        intro other hother
        exact hlateRest other hother ((hbefore other hother).resolve_left hsilent)

end Step

theorem Layout.exists_of_mem_all {layouts : List (PathItem × Layout)} {pos : KeyPosition}
    (h : pos ∈ (all layouts).positions) :
    ∃ part ∈ layouts, ∃ inner ∈ part.2.positions, pos = inner.under part.1 := by
  induction layouts with
  | nil => cases h
  | cons part rest ih =>
      rcases List.mem_append.mp h with hhead | htail
      · obtain ⟨inner, hinner, rfl⟩ := List.mem_map.mp hhead
        exact ⟨part, List.mem_cons_self, inner, hinner, rfl⟩
      · obtain ⟨other, hother, hpos⟩ := ih htail
        exact ⟨other, List.mem_cons_of_mem _ hother, hpos⟩

theorem Layout.textual_all {layouts : List (PathItem × Layout)} :
    (all layouts).textual ↔ ∀ part ∈ layouts, part.2.textual := by
  induction layouts with
  | nil => simp [all, done]
  | cons part rest ih =>
      rw [List.forall_mem_cons, ← ih]
      rfl

/-- A branch whose parts conform, each at its turn, conforms to the layouts of the parts taken
together, provided that different steps lead to them.  A row about one of two parts starts with its
own step, and so does every path into it. -/
theorem Step.PartsConform.branch {parts : List (PathItem × (Drains → Step Value))}
    {layouts : List (PathItem × Layout)} {drains : Drains} (h : PartsConform parts layouts drains)
    (hnodup : (parts.map Prod.fst).Nodup) :
    (Step.branch parts drains).Conforms (branchPart (parts.map Prod.fst)) (.all layouts)
      drains := by
  induction h with
  | nil => exact conforms_done _ _
  | @cons item check layout parts layouts drains hpart hrest ih =>
      obtain ⟨hitem, hnodup⟩ := List.nodup_cons.mp hnodup
      have houter : ∀ pos ∈ (Layout.all layouts).positions,
          ∃ other path, pos.path = other :: path ∧ other ∈ parts.map Prod.fst := by
        intro pos hpos
        obtain ⟨part, hmem, inner, -, rfl⟩ := Layout.exists_of_mem_all hpos
        refine ⟨part.1, inner.path, rfl, ?_⟩
        rw [← hrest.items_eq]
        exact List.mem_map_of_mem hmem
      have hinner : ∀ pos ∈ (layout.under item).positions, ∃ path, pos.path = item :: path := by
        intro pos hpos
        obtain ⟨inner, -, rfl⟩ := List.mem_map.mp hpos
        exact ⟨inner.path, rfl⟩
      refine (hpart.under item).andThen (ih hnodup) ?_ ?_ ?_ ?_
      · intro pos hpos
        obtain ⟨path, hpath⟩ := hinner pos hpos
        rw [hpath]
        apply Row.below_eq_nil
        intro row hrow heq
        obtain ⟨other, hother, hhead⟩ := head?_path_of_mem_branch hrow
        rw [hhead, Option.some.injEq] at heq
        exact hitem (heq ▸ hother)
      · intro pos hpos
        obtain ⟨other, path, hpath, hother⟩ := houter pos hpos
        rw [hpath]
        apply Row.below_eq_nil
        intro row hrow heq
        rw [verdict_under, Verdict.rows_under, List.mem_map] at hrow
        obtain ⟨inner, -, rfl⟩ := hrow
        rw [Row.under, List.head?_cons, Option.some.injEq] at heq
        exact hitem (heq ▸ hother)
      · intro v vs pos hpos
        obtain ⟨path, hpath⟩ := hinner pos hpos
        rw [hpath]
        simp [branchPart]
      · intro v vs _ pos hpos
        obtain ⟨other, path, hpath, hother⟩ := houter pos hpos
        have hne : (item == other) = false := by
          rw [beq_eq_false_iff_ne]
          rintro rfl
          exact hitem hother
        rw [hpath]
        simp [branchPart, hne]

end KeyCodec
